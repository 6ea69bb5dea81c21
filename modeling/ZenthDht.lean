import ZenthDht.Spec.Alone
import ZenthDht.Spec.Fetch
import ZenthDht.Spec.Messages
import ZenthDht.Spec.Statements
import ZenthDht.Safety.Accounts
import ZenthDht.Safety.Acks
import ZenthDht.Safety.Authentic
import ZenthDht.Safety.Blobs
import ZenthDht.Safety.Challenges
import ZenthDht.Safety.Cleanup
import ZenthDht.Safety.Connections
import ZenthDht.Safety.Decisions
import ZenthDht.Safety.Durability
import ZenthDht.Safety.Envelopes
import ZenthDht.Safety.Erasure
import ZenthDht.Safety.Expiry
import ZenthDht.Safety.Frame
import ZenthDht.Safety.Forgery
import ZenthDht.Safety.FriendGraph
import ZenthDht.Safety.FriendPolls
import ZenthDht.Safety.Friends
import ZenthDht.Safety.Friendships
import ZenthDht.Safety.Halfway
import ZenthDht.Safety.KeyChanges
import ZenthDht.Safety.Lifetimes
import ZenthDht.Safety.Versions
import ZenthDht.Safety.Since
import ZenthDht.Safety.Downloads
import ZenthDht.Safety.Drain
import ZenthDht.Safety.Lockout
import ZenthDht.Safety.Mailboxes
import ZenthDht.Safety.Material
import ZenthDht.Safety.Notifications
import ZenthDht.Safety.Orphans
import ZenthDht.Safety.Polling
import ZenthDht.Safety.PrekeyQueue
import ZenthDht.Safety.Prekeys
import ZenthDht.Safety.Quota
import ZenthDht.Safety.RateLimits
import ZenthDht.Safety.Recovery
import ZenthDht.Safety.Refused
import ZenthDht.Safety.Responses
import ZenthDht.Safety.RoundTrip
import ZenthDht.Safety.Sentinel
import ZenthDht.Safety.Sessions
import ZenthDht.Safety.Signatures
import ZenthDht.Safety.Transfers
import ZenthDht.Safety.UserRows
import ZenthDht.Safety.Verifiable
import ZenthDht.Conc.Calls
import ZenthDht.Model.Front
import ZenthDht.Spec.Front
import ZenthDht.Safety.Front
import ZenthDht.Conc.Dialogue
import ZenthDht.Safety.Sockets
import ZenthDht.Conc.Script
import ZenthDht.Spec.Scripts
import ZenthDht.Safety.Progress
