import Gridix.Balance.Overdraft
import Gridix.Jobs.Canaries
import Gridix.Chain.LostBroadcast
import Gridix.Chain.DebitSchedule
import Gridix.Finalisation.LostDecision
import Gridix.Contracts.Cooldown
import Gridix.Disputes.Conservation
import Gridix.Disputes.Concurrent
import Gridix.Accounts.Summary
import Gridix.Chain.ProviderPayouts
import Gridix.Jobs.Hashes
import Gridix.Jobs.Queue
import Gridix.Jobs.Submission
import Gridix.Auth.Challenges
import Gridix.Finalisation.Rounds
import Gridix.Relay.Models
import Gridix.Frontend.Sse
import Gridix.Jobs.Exceptions
import Gridix.Jobs.Rewards
import Gridix.Disputes.Adjudication
import Gridix.Jobs.Capacity
import Gridix.Accounts.Settlement
import Gridix.Inference.Events
import Gridix.Relay.Endings
import Gridix.Relay.Handshakes
import Gridix.FreeChat
import Gridix.RateLimit
import Gridix.Inference.PartialBilling
import Gridix.Frontend.Estimates
import Gridix.Node.ArtifactCache
import Gridix.Accounts.Statement
import Gridix.AuditLog
import Gridix.Relay.Correlation
import Gridix.Contracts.Escrow
import Gridix.Jobs.Keys
