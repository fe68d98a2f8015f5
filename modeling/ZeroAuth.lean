import ZeroAuth.Android.FaceCrop
import ZeroAuth.Android.Challenge
import ZeroAuth.Android.Crypto
import ZeroAuth.Android.PoseidonLoops
import ZeroAuth.Android.ProverIsolation
import ZeroAuth.Android.ProverSlot
import ZeroAuth.Android.RegistrationScreen
import ZeroAuth.Android.ScanSecrets
import ZeroAuth.Android.PublicSignals
import ZeroAuth.Audit.AnchorReport
import ZeroAuth.Audit.Fanout
import ZeroAuth.Audit.Localise
import ZeroAuth.Audit.Staging
import ZeroAuth.Audit.Tamper
import ZeroAuth.Console.PolicyUpdates
import ZeroAuth.Contracts.AuditAnchor
import ZeroAuth.Contracts.Blockchain
import ZeroAuth.Iot.AccountRuns
import ZeroAuth.Iot.CentralRecords
import ZeroAuth.Iot.Commands
import ZeroAuth.Android.WebViewCalls
import ZeroAuth.Android.FaceEnrolment
import ZeroAuth.Iot.OtpCooldown
import ZeroAuth.Iot.Resync
import ZeroAuth.Iot.Sensor
import ZeroAuth.Limits.Buckets
import ZeroAuth.Limits.Usage
import ZeroAuth.Limits.Window
import ZeroAuth.Logs.Subscribers
import ZeroAuth.Mobile.CommitmentBuilder
import ZeroAuth.Pairing.Events
import ZeroAuth.Pairing.Expiry
import ZeroAuth.Pairing.Lockout
import ZeroAuth.Pairing.OneSession
import ZeroAuth.Pairing.Replay
import ZeroAuth.Pairing.Signals
import ZeroAuth.Pairing.Trail
import ZeroAuth.Pairing.Vetted
import ZeroAuth.Portal.CborReader
import ZeroAuth.Portal.RoundTrip
import ZeroAuth.Portal.Routes
import ZeroAuth.Portal.SignIn
import ZeroAuth.Records.Attendance
import ZeroAuth.Records.LastTimes
import ZeroAuth.Records.Scopes
import ZeroAuth.Records.Touches
import ZeroAuth.Sessions.Logout
import ZeroAuth.Tenant.CommitmentText
import ZeroAuth.Tenant.Deeplinks
import ZeroAuth.Tenant.Revocation
import ZeroAuth.Tenant.References
import ZeroAuth.Tenant.Dids
import ZeroAuth.Tenant.Login
import ZeroAuth.Tenant.SignupPage
import ZeroAuth.Tenant.Slots
import ZeroAuth.Tenant.Entries
import ZeroAuth.Verifier.Tamper
import ZeroAuth.Audit.Anchor
import ZeroAuth.Lib.Quota
import ZeroAuth.Records.Platform
import ZeroAuth.Pairing.Stream
import ZeroAuth.Android.FieldBytes
import ZeroAuth.Android.ProverIpc
import ZeroAuth.Iot.IndexTable
import ZeroAuth.Console.WebhookGate
import ZeroAuth.Console.Caps
import ZeroAuth.Logs.Redaction
import ZeroAuth.Lib.History
