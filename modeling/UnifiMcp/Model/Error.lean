import Mathlib.Data.List.Basic

/-!
# API surfaces and the error type

`UnifiError` is the one error of the core crate, with the text each variant renders.
`sanitizeDetail` is what bounds the server-supplied part of that text.
-/

namespace UnifiMcp

/-- The UniFi API surface an endpoint belongs to. -/
inductive ApiSurface where
  | supported
  | privateV1
  | privateV2
  | cloud
  deriving DecidableEq, Repr

namespace ApiSurface

/-- Whether reaching this surface requires the `unifi:private-api` scope. -/
def requiresPrivateScope : ApiSurface → Bool
  | .privateV1 | .privateV2 => true
  | .supported | .cloud => false

/-- The surface as `{:?}` renders it. -/
def debug : ApiSurface → String
  | .supported => "Supported"
  | .privateV1 => "PrivateV1"
  | .privateV2 => "PrivateV2"
  | .cloud => "Cloud"

end ApiSurface

/-- A failure of the HTTP client, without the URL and causes that are never rendered. -/
inductive HttpError where
  | invalidUrl
  | insecureScheme (scheme : String)
  | missingHost
  | urlHasEmbeddedCredentials
  | invalidHeaderName (name : String)
  | framingHeaderNotAllowed (name : String)
  | invalidHeaderValue (name : String)
  | configValidation (field detail : String)
  | noCryptoProvider
  | invalidRootCertificate (index : Nat)
  | clientConstruction
  | timeout (timeout : String)
  | queueFull
  | limiterClosed
  | connect
  | responseTooLarge (limit : Nat)
  | bodyRead
  | requestFailed
  | retryRequiresGet
  deriving DecidableEq, Repr

/-- The class of an HTTP failure, as it is rendered. -/
def httpErrorClass : HttpError → String
  | .invalidUrl => "invalid URL"
  | .insecureScheme scheme => s!"insecure scheme '{scheme}' (only https:// is allowed)"
  | .missingHost => "URL has no host component"
  | .urlHasEmbeddedCredentials => "URL embeds credentials"
  | .invalidHeaderName name => s!"invalid header name '{name}'"
  | .framingHeaderNotAllowed name => s!"header '{name}' cannot be supplied"
  | .invalidHeaderValue name => s!"invalid header value for '{name}'"
  | .configValidation field detail => s!"configuration field '{field}': {detail}"
  | .noCryptoProvider => "no rustls CryptoProvider installed"
  | .invalidRootCertificate index =>
      s!"extra_root_certificates[{index}] is not a usable certificate"
  | .clientConstruction => "failed to construct HTTP client"
  | .timeout timeout => s!"request timed out after {timeout}"
  | .queueFull => "HTTP client queue is full"
  | .limiterClosed => "HTTP client concurrency limiter is closed"
  | .connect => "failed to connect"
  | .responseTooLarge limit => s!"response exceeded the {limit}-byte limit"
  | .bodyRead => "failed to read response body"
  | .requestFailed => "request failed"
  | .retryRequiresGet => "retry requires a GET request"

/-- Anything that can go wrong talking to a UniFi controller. -/
inductive UnifiError where
  | privateEndpointAbsent (surface : ApiSurface) (path controllerVersion : String)
  | surfaceRequiresConfig (surface : ApiSurface)
  | surfaceRequiresScope (surface : ApiSurface)
  | upstream (status : Nat) (detail : String)
  | malformed (message : String)
  | referenceNotFound (message : String)
  | writeRefused (message : String)
  | http (error : HttpError)
  | secret (message : String)
  | siteNotInScope (token site : String)
  deriving DecidableEq, Repr

/-- The text an error renders. -/
def UnifiError.toString : UnifiError → String
  | .privateEndpointAbsent surface path controllerVersion =>
      s!"private API {surface.debug} path {path} is not present on controller version " ++
      s!"{controllerVersion}; this endpoint is undocumented and may have been " ++
      "removed by a controller upgrade"
  | .surfaceRequiresConfig surface =>
      s!"surface {surface.debug} requires allow_private_api or allow_cloud set in " ++
      "controllers.json"
  | .surfaceRequiresScope surface =>
      s!"surface {surface.debug} requires the `unifi:private-api` scope"
  | .upstream status detail => s!"controller returned {status}: {detail}"
  | .malformed message => s!"unexpected response shape: {message}"
  | .referenceNotFound message => message
  | .writeRefused message => message
  | .http error => httpErrorClass error
  | .secret message => message
  | .siteNotInScope token site =>
      s!"caller '{token}' is not authorized to write to site '{site}'"

/-- The most characters of server-supplied detail an error keeps. -/
def maxDetailBytes : Nat := 300

/-- `char::is_control`: the characters of the Unicode category `Cc`. -/
def isControl (c : Char) : Bool :=
  c.toNat < 0x20 || (0x7f ≤ c.toNat && c.toNat < 0xa0)

/-- Bound and sanitize server-supplied detail text. -/
def sanitizeDetail (input : String) : String :=
  let bounded :=
    String.ofList ((input.toList.filter fun c => !isControl c).take maxDetailBytes)
  if bounded.utf8ByteSize < input.utf8ByteSize then s!"{bounded} [truncated]" else bounded

end UnifiMcp
