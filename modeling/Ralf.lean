import Ralf.Agreement
import Ralf.Answers
import Ralf.Automaton
import Ralf.Handlers
import Ralf.Increments
import Ralf.Isolation
import Ralf.Numbering
import Ralf.Reseeding
import Ralf.Stopping
import Ralf.Termination
import Ralf.PeerMessageSender
import Ralf.Chronos
import Ralf.Callback
import Ralf.Provenance
import Ralf.Tasks
import Ralf.Safety
import Ralf.TimerPops
import Ralf.Lifetime
import Ralf.OneStore
import Ralf.TimerIds
import Ralf.TimerExpiry
import Ralf.Rearming
import Ralf.Decoding
import Ralf.ParseBody
import Ralf.AccountingRequest
import Ralf.SessionControl
import Ralf.TimerArming
import Ralf.Replicas
import Ralf.Lib.Potential
import Ralf.Lib.Projection
import Ralf.Progress
import Ralf.Projection
import Ralf.Integrity
import Ralf.Outages
import Ralf.Protocol
import Ralf.Clock
import Ralf.Rounds
import Ralf.Continuity
import Ralf.Requests
import Ralf.Upkeep
import Ralf.NumberRange
import Ralf.Wire
