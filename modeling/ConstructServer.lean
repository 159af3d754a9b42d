import ConstructServer.Queue.Retention
import ConstructServer.Messaging.Pending
import ConstructServer.Messaging.Send
import ConstructServer.Messaging.FederationOnce
import ConstructServer.Messaging.TokenRedeem
import ConstructServer.Messaging.StreamCoverage
import ConstructServer.Messaging.IntakeRotation
import ConstructServer.Messaging.DispatchRun
import ConstructServer.Notification.DeviceTokens
import ConstructServer.KeyService.KtLog
import ConstructServer.KeyService.OneTimeKeys
import ConstructServer.KeyService.Replacing
import ConstructServer.KeyService.RefusedUpload
import ConstructServer.KeyService.HybridIdentity
import ConstructServer.Auth.Logout
import ConstructServer.Identity.JoinRequests
import ConstructServer.Identity.PowChallenges
import ConstructServer.Identity.PrivacyPass
import ConstructServer.Identity.SoleRecovery
import ConstructServer.Signaling.Outsiders
import ConstructServer.Signaling.BusyState
import ConstructServer.Signaling.Streams
import ConstructServer.Sentinel.DeviceBlocks
import ConstructServer.Sentinel.Verdicts
import ConstructServer.Groups.Acceptance
import ConstructServer.Groups.Capacity
import ConstructServer.Groups.Ownership
import ConstructServer.Groups.CatchUp
import ConstructServer.Groups.Polling
import ConstructServer.Groups.Retries
import ConstructServer.Veil.Fronts
import ConstructServer.RateLimit.Degraded
import ConstructServer.RateLimit.Counters
import ConstructServer.RateLimit.Buckets
import ConstructServer.Groups.Epochs
import ConstructServer.Groups.Posts
import ConstructServer.Signaling.Spelling
import ConstructServer.Auth.Freshness
import ConstructServer.Identity.Signatures
import ConstructServer.KeyService.SafetyNumber
import ConstructServer.Notification.TokenEncryption
import ConstructServer.Messaging.Ssrf
import ConstructServer.RateLimit.SlidingWindow
import ConstructServer.Identity.Invites
