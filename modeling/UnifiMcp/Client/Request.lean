import UnifiMcp.Interaction.Fallible
import UnifiMcp.Model.Resource

/-!
# The HTTP client of one controller

`UnifiClient` sends requests to one controller and keeps two caches: the UUID of the
configured site and the controller version.  Its questions to the outside are the
requests it sends and the reads and writes of these caches; every method below is a
program over them.

A request keeps the template and the parameters its path was expanded from, so that
what it addresses can be read off it; `Request.url` is the text that is sent.
-/

namespace UnifiMcp

open Interaction

/-- One UniFi Network controller. -/
structure Controller where
  endpoint : String
  /-- The default site identifier. -/
  site : String
  /-- The environment variable that holds the API key. -/
  apiKeyEnv : Option String
  /-- The file that holds the API key, exclusive with the variable. -/
  apiKeyFile : Option String
  /-- A PEM trust anchor, for a controller behind a private CA. -/
  caPemPath : Option String
  allowPrivateApi : Bool
  allowCloud : Bool
  deriving DecidableEq, Repr

/-- An HTTP method. -/
inductive Method where
  | get
  | post
  | put
  | delete
  deriving DecidableEq, Repr

/-- Whether a method can change what the controller holds. -/
def Method.isWrite : Method → Bool
  | .get => false
  | .post | .put | .delete => true

/-- The characters `percentEncode` leaves alone. -/
def isUnreserved (byte : UInt8) : Bool :=
  let c := Char.ofNat byte.toNat
  byte < 0x80 && (c.isAlphanum || c == '-' || c == '.' || c == '_' || c == '~')

/-- A byte as two upper-case hexadecimal digits. -/
def hexByte (byte : UInt8) : String :=
  String.ofList [Nat.digitChar (byte.toNat / 16), Nat.digitChar (byte.toNat % 16)]
    |>.map Char.toUpper

/-- Percent-encode a string for use in a URL query parameter. -/
def percentEncode (s : String) : String :=
  String.join (s.toUTF8.toList.map fun byte =>
    if isUnreserved byte then String.singleton (Char.ofNat byte.toNat)
    else "%" ++ hexByte byte)

/-- A request to a controller. -/
structure Request where
  method : Method
  /-- The controller's base URL, without trailing slashes. -/
  base : String
  /-- The path template and the parameters it is expanded with. -/
  template : String
  params : List (String × String)
  /-- The expanded path. -/
  path : String
  query : List (String × String)
  body : Option Json
  deriving DecidableEq, Repr

/-- The query string of a request, with its question mark; empty without a query. -/
def queryString (query : List (String × String)) : String :=
  if query.isEmpty then ""
  else "?" ++ "&".intercalate
    (query.map fun (key, value) => s!"{percentEncode key}={percentEncode value}")

/-- The URL a request is sent to. -/
def Request.url (request : Request) : String :=
  request.base ++ request.path ++ queryString request.query

/-- A response: its status, its body as text, and what parsing the body as JSON gives. -/
structure Response where
  status : Nat
  text : String
  json : Except String Json

/-- A read or a write of a cache whose lock is poisoned. -/
inductive PoisonError where
  | poisoned
  deriving DecidableEq, Repr

/-- What a client asks of its surroundings. -/
inductive ClientOp where
  | send (request : Request)
  | cachedSiteUuid
  | cacheSiteUuid (uuid : String)
  | cachedVersion
  | cacheVersion (version : String)

/-- What each question is answered with. -/
abbrev ClientOp.Answer : ClientOp → Type
  | .send _ => Except HttpError Response
  | .cachedSiteUuid | .cachedVersion => Except PoisonError (Option String)
  | .cacheSiteUuid _ | .cacheVersion _ => Except PoisonError Unit

/-- The signature of `UnifiClient`'s programs. -/
abbrev ClientSig : Signature := ⟨ClientOp, ClientOp.Answer⟩

/-- A client method returning an `α`. -/
abbrev ClientM (α : Type) : Type := Fallible ClientSig UnifiError α

/-- Ask one question of the surroundings. -/
def ClientM.ask (op : ClientOp) : ClientM op.Answer :=
  Fallible.ask ClientSig op

/-- A client bound to one controller. -/
structure UnifiClient where
  controller : Controller
  /-- `mecmcp_openapi::expand_path`: the path a template gives with these parameters,
  or why they are refused. -/
  expandPath : String → List (String × String) → Except String String

namespace UnifiClient

/-- Refuse a surface this controller has not opted into. -/
def ensureSurfacePermitted (controller : Controller) (surface : ApiSurface) :
    Except UnifiError Unit :=
  match surface with
  | .supported => .ok ()
  | .privateV1 | .privateV2 =>
      if controller.allowPrivateApi then .ok () else .error (.surfaceRequiresConfig surface)
  | .cloud =>
      if controller.allowCloud then
        .error (.malformed "the cloud Site Manager surface is not implemented in v1")
      else .error (.surfaceRequiresConfig .cloud)

variable (c : UnifiClient)

/-- The base URL with its trailing slashes removed. -/
def baseUrl : String :=
  String.ofList (c.controller.endpoint.toList.reverse.dropWhile (· == '/')).reverse

/-- Send one request; a transport failure is an error. -/
def send (request : Request) : ClientM Response := do
  match ← ClientM.ask (.send request) with
  | .ok response => pure response
  | .error e => throw (.http e)

/-- Turn a poisoned lock into the error the client reports. -/
def unpoisoned {α : Type} (message : String) : Except PoisonError α → ClientM α
  | .ok a => pure a
  | .error _ => throw (.malformed message)

/-- The path of the version endpoint, which is requested without expansion. -/
def infoPath : String := "/proxy/network/integration/v1/info"

/-- Fetch the version if it is not cached, bypassing `get` to avoid recursion. -/
def fetchVersionIfAbsent : ClientM String := do
  match ← unpoisoned "version cache lock poisoned" (← ClientM.ask .cachedVersion) with
  | some version => pure version
  | none =>
      let response ← send
        { method := .get, base := c.baseUrl, template := infoPath, params := []
          path := infoPath, query := [], body := none }
      if response.status ≥ 300 then
        throw (.upstream response.status (sanitizeDetail response.text))
      match response.json with
      | .error message => throw (.malformed message)
      | .ok info =>
          match info.getStr? "applicationVersion" with
          | none => throw (.malformed "info response lacks applicationVersion")
          | some version =>
              unpoisoned "version cache lock poisoned"
                (← ClientM.ask (.cacheVersion version))
              pure version

/-- Map an error response to the error it is reported as.  A 404 on a private surface
names the surface, the path and the controller version. -/
def handleErrorResponse (surface : ApiSurface) (path : String) (status : Nat)
    (text : String) : ClientM Json := do
  if status = 404 ∧ surface.requiresPrivateScope then
    let version ← match ← (fetchVersionIfAbsent c).attempt with
      | .ok version => pure version
      | .error _ =>
          -- A version that cannot be fetched is read back from the cache.
          match ← ClientM.ask .cachedVersion with
          | .ok (some version) => pure version
          | .ok none | .error _ => pure "unknown"
    throw (.privateEndpointAbsent surface path version)
  throw (.upstream status (sanitizeDetail text))

/-- Issue a request against a path template and parse the answer.  The four methods
differ in the HTTP method and in whether there is a body. -/
def request (method : Method) (surface : ApiSurface) (template : String)
    (params query : List (String × String)) (body : Option Json) : ClientM Json := do
  Fallible.ofExcept (ensureSurfacePermitted c.controller surface)
  let path ← Fallible.ofExcept ((c.expandPath template params).mapError .malformed)
  let response ← send { method, base := c.baseUrl, template, params, path, query, body }
  if response.status ≥ 300 then
    handleErrorResponse c surface path response.status response.text
  else
    Fallible.ofExcept (response.json.mapError .malformed)

/-- Issue a GET against a path template. -/
def get (surface : ApiSurface) (template : String) (params query : List (String × String)) :
    ClientM Json :=
  request c .get surface template params query none

/-- Issue a POST against a path template with a JSON body. -/
def post (surface : ApiSurface) (template : String) (params query : List (String × String))
    (body : Json) : ClientM Json :=
  request c .post surface template params query (some body)

/-- Issue a PUT against a path template with a JSON body. -/
def put (surface : ApiSurface) (template : String) (params query : List (String × String))
    (body : Json) : ClientM Json :=
  request c .put surface template params query (some body)

/-- Issue a DELETE against a path template. -/
def delete (surface : ApiSurface) (template : String)
    (params query : List (String × String)) : ClientM Json :=
  request c .delete surface template params query none

/-- The path of the sites list. -/
def sitesPath : String := "/proxy/network/integration/v1/sites"

/-- The UUID of the site called `siteName` in a sites list. -/
def findSiteUuid (sites : List Json) (siteName : String) : Option String :=
  (sites.find? fun site => site.getStr? "internalReference" = some siteName).bind
    fun site => site.getStr? "id"

/-- The site identifier to use for `surface` when a caller omits one: the UUID for the
Integration API, the name for the private surfaces. -/
def defaultSiteFor (surface : ApiSurface) : ClientM String :=
  match surface with
  | .supported => do
      match ← unpoisoned "site UUID cache lock poisoned" (← ClientM.ask .cachedSiteUuid) with
      | some uuid => pure uuid
      | none =>
          let sites ← get c .supported sitesPath [] []
          let sitesArray ← Fallible.ofExcept (unwrapEnvelopedData sites)
          match findSiteUuid sitesArray c.controller.site with
          | none =>
              throw (.malformed s!"site '{c.controller.site}' not found in sites list")
          | some uuid =>
              unpoisoned "site UUID cache lock poisoned"
                (← ClientM.ask (.cacheSiteUuid uuid))
              pure uuid
  | .privateV1 | .privateV2 | .cloud => pure c.controller.site

end UnifiClient

end UnifiMcp
