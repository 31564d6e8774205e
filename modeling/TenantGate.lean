import TenantGate.Binary64
import TenantGate.Bytes
import TenantGate.Causes
import TenantGate.CommandLine.Invocation
import TenantGate.CommandLine.Options
import TenantGate.Config
import TenantGate.Deflate.Bits
import TenantGate.Deflate.Block
import TenantGate.Deflate.Code
import TenantGate.Deflate.Zlib
import TenantGate.Digest.Blocks
import TenantGate.Digest.Sha1
import TenantGate.Digest.Sha256
import TenantGate.Dsn
import TenantGate.Http.Header
import TenantGate.Http.HopByHop
import TenantGate.Http.MediaType
import TenantGate.Http.Message
import TenantGate.Http.Status
import TenantGate.Http.Uri
import TenantGate.Http.Wire
import TenantGate.Ingest.ContentType
import TenantGate.Ingest.Handler
import TenantGate.Ingest.RemoteWrite
import TenantGate.Json.Fault
import TenantGate.Json.Lex
import TenantGate.Json.Read
import TenantGate.Json.Skip
import TenantGate.Json.Value
import TenantGate.Key.Der
import TenantGate.Key.KeySet
import TenantGate.Key.Pem
import TenantGate.Key.Rsa
import TenantGate.Listen
import TenantGate.LogLevel
import TenantGate.Main
import TenantGate.Metrics.Definition
import TenantGate.Metrics.Exposition
import TenantGate.Metrics.Registry
import TenantGate.Metrics.Sketch
import TenantGate.Network
import TenantGate.Proxy.DotSegment
import TenantGate.Proxy.Forward
import TenantGate.Proxy.PushRemap
import TenantGate.Proxy.Target
import TenantGate.Router.Basic
import TenantGate.Router.Dispatch
import TenantGate.Series.Basic
import TenantGate.Series.Labels
import TenantGate.Series.Protobuf
import TenantGate.Series.Submission
import TenantGate.Service.Routes
import TenantGate.Serving
import TenantGate.Snappy
import TenantGate.Startup
import TenantGate.Tenant.Credential
import TenantGate.Tenant.Resolver
import TenantGate.Text.Base64
import TenantGate.Text.Blank
import TenantGate.Text.Form
import TenantGate.Text.Parts
import TenantGate.Text.Percent
import TenantGate.Text.Printable
import TenantGate.Text.Quoted
import TenantGate.Token.Algorithm
import TenantGate.Token.Claims
import TenantGate.Token.EmbeddedKey
import TenantGate.Token.Header
import TenantGate.Token.Verify
import TenantGate.Url.Basic
import TenantGate.Url.Host
import TenantGate.Url.Join
import TenantGate.Url.Parse
import TenantGate.Url.Punycode
import TenantGate.Utf8
import TenantGate.Yaml.Node
import TenantGate.Yaml.Place
import TenantGate.Yaml.Scalar
import TenantGate.Yaml.Token
import TenantGate.Proofs.OutboundHead
import TenantGate.Proofs.Delivery
import TenantGate.Proofs.Dispatch
import TenantGate.Proofs.TokenVerdict
import TenantGate.Proofs.AuthenticationGate
import TenantGate.Proofs.JsonGrammar
import TenantGate.Proofs.JsonSkipping
import TenantGate.Proofs.JsonReading
import TenantGate.Proofs.Base64RoundTrip
import TenantGate.Proofs.JsonRecords
import TenantGate.Proofs.JsonValues
import TenantGate.Proofs.JsonMembers
import TenantGate.Proofs.JsonAttempts
import TenantGate.Proofs.TokenDocuments
import TenantGate.Proofs.JsonContents
import TenantGate.Proofs.ClaimMembers
import TenantGate.Proofs.TokenVerification
import TenantGate.Proofs.TextParts
import TenantGate.Proofs.BearerTokens
import TenantGate.Proofs.Utf8Pieces
import TenantGate.Proofs.FormRendering
import TenantGate.Proofs.Credentials
import TenantGate.Proofs.DotForms
import TenantGate.Proofs.UrlPaths
import TenantGate.Proofs.WrittenPaths
import TenantGate.Proofs.UrlHosts
import TenantGate.Proofs.ParsedUrls
import TenantGate.Proofs.TargetPath
import TenantGate.Proofs.ServiceRoutes
import TenantGate.Proofs.NamedTenants
import TenantGate.Proofs.Redirects
import TenantGate.Proofs.Submissions
import TenantGate.Proofs.SeriesTranslation
import TenantGate.Proofs.FragmentDocuments
import TenantGate.Proofs.TokenRefusals
import TenantGate.Proofs.AnswerRelay
import TenantGate.Proofs.JsonRefusals
import TenantGate.Proofs.TimeClaims
import TenantGate.Proofs.TokenSoundness
import TenantGate.Proofs.JsonTexts
import TenantGate.Proofs.JsonSoundness
import TenantGate.Proofs.KeySets
import TenantGate.Proofs.KeyRotation
import TenantGate.Proofs.FormPairs
import TenantGate.Proofs.TargetQuery
import TenantGate.Proofs.RouteTables
import TenantGate.Proofs.ProtocolSwitch
import TenantGate.Proofs.RequestCounts
import TenantGate.Proofs.WrittenLabels
import TenantGate.Proofs.CountLines
import TenantGate.Proofs.SeriesForm
import TenantGate.Proofs.WireFields
import TenantGate.Proofs.WireRoundTrip
import TenantGate.Proofs.KeySetLoading
import TenantGate.Proofs.FirstFaults
import TenantGate.Proofs.Backends
import TenantGate.Proofs.StartupStages
import TenantGate.Proofs.RouterVerdict
import TenantGate.Proofs.RouteOrder
import TenantGate.Proofs.PathMaps
import TenantGate.Proofs.Authorities
import TenantGate.Proofs.TargetFaults
import TenantGate.Proofs.TagLabels
import TenantGate.Proofs.PointSamples
import TenantGate.Proofs.CheckDocuments
import TenantGate.Proofs.JsonNumerals
import TenantGate.Proofs.JsonForms
import TenantGate.Proofs.FiniteDoubles
import TenantGate.Proofs.JsonKinds
import TenantGate.Proofs.FragmentForms
import TenantGate.Proofs.ContentTypes
import TenantGate.Proofs.StoredStreams
import TenantGate.Proofs.DeflatedSubmissions
import TenantGate.Proofs.FilterLaws
import TenantGate.Proofs.JoinedPaths
import TenantGate.Proofs.CauseChains
