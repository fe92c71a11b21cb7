import IseMcp.AuditAttribution
import IseMcp.AuditComplete
import IseMcp.AuditTrail
import IseMcp.Auth.Base
import IseMcp.Auth.CodeTable
import IseMcp.Auth.Providers
import IseMcp.Auth.SessionStore
import IseMcp.Auth.SessionTrace
import IseMcp.AuthorizationCode
import IseMcp.Authorize
import IseMcp.BoundedWork
import IseMcp.CodeGrants
import IseMcp.Config
import IseMcp.ConfusedDeputy
import IseMcp.ContextIsolation
import IseMcp.CredentialEncodings
import IseMcp.Data.Grouping
import IseMcp.DisabledOAuth
import IseMcp.DisabledTools
import IseMcp.Discovery
import IseMcp.Effects
import IseMcp.EndpointGroups
import IseMcp.Enrichment
import IseMcp.Envelopes
import IseMcp.ExchangeTotal
import IseMcp.FaultMasking
import IseMcp.GateAgreement
import IseMcp.GateCoverage
import IseMcp.IncidentNarrative
import IseMcp.Interaction.Coroutine
import IseMcp.Interaction.Cost
import IseMcp.Interaction.Interleave
import IseMcp.Interaction.Masking
import IseMcp.Interaction.Prog
import IseMcp.Interaction.Relational
import IseMcp.Interaction.Replay
import IseMcp.Interaction.Restrict
import IseMcp.Ipv4Quads
import IseMcp.Ise.Alike
import IseMcp.Ise.Attempts
import IseMcp.Ise.Client
import IseMcp.Ise.Ers
import IseMcp.Ise.Mnt
import IseMcp.Ise.Payloads
import IseMcp.Ise.SessionWalk
import IseMcp.Ise.XmlGrouping
import IseMcp.Logging
import IseMcp.LoginFailsClosed
import IseMcp.LoginPage
import IseMcp.MacNormalForm
import IseMcp.OAuth
import IseMcp.OutboundTraffic
import IseMcp.PasswordsUnobservable
import IseMcp.PathSafety
import IseMcp.PayloadShapes
import IseMcp.Progress
import IseMcp.Python.Json
import IseMcp.Python.JsonRoundTrip
import IseMcp.Python.Str
import IseMcp.Python.Surrogates
import IseMcp.Python.UrlParse
import IseMcp.Python.Value
import IseMcp.RedactionComplete
import IseMcp.RedactionShape
import IseMcp.RedirectCarriesCode
import IseMcp.RequestSteps
import IseMcp.Responses
import IseMcp.RetainedSecrets
import IseMcp.RetryLoop
import IseMcp.Serializable
import IseMcp.Server
import IseMcp.SessionIsolation
import IseMcp.SessionSummaries
import IseMcp.Settings
import IseMcp.SettingsRange
import IseMcp.SignIn
import IseMcp.Startup
import IseMcp.StoreHistory
import IseMcp.Strangers
import IseMcp.SuccessReports
import IseMcp.Text.Base64
import IseMcp.Text.Codec
import IseMcp.Text.FormUrl
import IseMcp.Text.Html
import IseMcp.Text.Lines
import IseMcp.Text.Regex
import IseMcp.Text.Sha256
import IseMcp.Text.Uri
import IseMcp.Text.Utf16
import IseMcp.TokenLifetime
import IseMcp.Tools.Asks
import IseMcp.Tools.Context
import IseMcp.Tools.Lookup
import IseMcp.Tools.Outcome
import IseMcp.Tools.Policy
import IseMcp.Tools.Registry
import IseMcp.Tools.Requests
import IseMcp.Tools.Run
import IseMcp.Tools.Writes
import IseMcp.Validation
import IseMcp.WriteReplay
import IseMcp.WriteSafety
