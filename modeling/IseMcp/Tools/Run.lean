import IseMcp.Auth.Providers
import IseMcp.Ise.Ers
import IseMcp.Ise.Mnt
import IseMcp.Responses
import IseMcp.Validation

set_option autoImplicit false

/-! # Running a tool

`tools/__init__.py` and `audit.py`: who is calling, which gates a call passes, and how its
outcome is recorded and returned. -/

namespace IseMcp

open Python Interaction Text

/-! ## The caller -/

/-- The raw header list of a request. -/
abbrev RawHeaders : Type := List (Bytes × Bytes)

/-- `request.headers.get(name)`: case-insensitive, the first match, decoded as Latin-1. -/
def headersGet (headers : RawHeaders) (name : String) : Option String :=
  (headers.find? fun kv => lower (latin1Decode kv.1) == lower name).map fun kv =>
    latin1Decode kv.2

/-- `mcp_session_id`. Off an HTTP transport there are no headers. -/
def mcpSessionId (headerName : String) (headers : Option RawHeaders) : Option String :=
  match headers with
  | none => none
  | some hs =>
      if hs = [] then none
      else
        let sid := orStr (orStr (headersGet hs "x-api-key") (headersGet hs headerName))
          (headersGet hs (lower headerName))
        if truthy sid then sid
        else
          let authz := (headersGet hs "authorization").getD ""
          if startsWith "bearer " (lower authz) then some (strip (dropPrefix 7 authz)) else sid

/-- What a tool is built with. -/
structure Deps where
  cfg : Config
  provider : Provider
  fromstring : XmlParser

namespace Deps

def sessionId (deps : Deps) (headers : Option RawHeaders) : Option String :=
  mcpSessionId deps.cfg.sessionHeader headers

/-- `any(compare_digest(tok, k) for k in keys)` -/
def anyDigest (tok : String) : List String → Except PyExc Bool
  | [] => .ok false
  | k :: keys => do if ← compareDigest tok k then return true else anyDigest tok keys

def isApiKey (deps : Deps) (tok : Option String) : Except PyExc Bool :=
  match tok with
  | some t => if t = "" then .ok false else anyDigest t deps.cfg.apiKeys
  | none => .ok false

def sessionValid (deps : Deps) (tok : Option String) : Io Bool := do
  if ← Coro.ofExcept (deps.isApiKey tok) then return true else deps.provider.sessionValid tok

/-- What an API key maps to. -/
def apiKeyContext (deps : Deps) : AuthContext :=
  ⟨deps.cfg.iseUsername, "api_key", deps.cfg.isePassword, ""⟩

/-- `resolve_auth` for the token `tok`. -/
def resolveToken (deps : Deps) (tok : Option String) : Io AuthContext := do
  if ← Coro.ofExcept (deps.isApiKey tok) then return deps.apiKeyContext
  else deps.provider.resolve tok

theorem run_resolveToken (deps : Deps) (tok : Option String) :
    (deps.resolveToken tok).run =
      match deps.isApiKey tok with
      | .error e => .ret (.error e)
      | .ok true => .ret (.ok deps.apiKeyContext)
      | .ok false => (deps.provider.resolve tok).run := by
  rw [resolveToken, Coro.run_ofExcept_bind]
  rcases deps.isApiKey tok with e | _ | _ <;> rfl

theorem run_sessionValid (deps : Deps) (tok : Option String) :
    (deps.sessionValid tok).run =
      match deps.isApiKey tok with
      | .error e => .ret (.error e)
      | .ok true => .ret (.ok true)
      | .ok false => (deps.provider.sessionValid tok).run := by
  rw [sessionValid, Coro.run_ofExcept_bind]
  rcases deps.isApiKey tok with e | _ | _ <;> rfl

def resolveAuth (deps : Deps) (headers : Option RawHeaders) : Io AuthContext :=
  deps.resolveToken (deps.sessionId headers)

end Deps

/-! The servers of the runs on fixed inputs, of which later ones change the configuration. -/

/-- A passthrough server. -/
def passthroughDeps : Deps where
  cfg := { Config.default with iseBaseUrl := "https://ise" }
  provider := .passthrough (IseClient.validateCredentials
    { Config.default with iseBaseUrl := "https://ise" })
  fromstring := fun _ => .ok (.mk "r" none [])

/-- A readonly server with a service account. -/
def accountDeps : Deps where
  cfg := { Config.default with iseBaseUrl := "https://ise", authMode := "service_account",
                               iseUsername := "svc", isePassword := "pw" }
  provider := .serviceAccount ⟨"svc", "service_account", "pw", ""⟩
  fromstring := fun _ => .ok (.mk "r" none [])

/-! ## The run of a tool -/

/-- The arguments of `run` that a tool fixes: its name, the parameters it has audited, the inner
function `_fn`, and whether it is a write. -/
structure Tool where
  name : String
  params : List (String × PyVal)
  fn : AuthContext → Io PyVal
  write : Bool

/-- `audit`: nothing when it is switched off. -/
def audit (cfg : Config) (actor : String) (t : Tool) (status : String) (detail : Option String) :
    Prog Ise Unit :=
  if cfg.auditLogEnabled then
    Prog.op (S := Ise) (.audit ⟨actor, t.name, redact (.dict t.params), status, detail⟩)
  else pure ()

/-- The `except` branch of `run`. -/
def fail (cfg : Config) (actor : String) (t : Tool) (e : PyExc) : Prog Ise PyVal := do
  audit cfg actor t "error" (some e.type.name)
  Prog.op (S := Ise) (.log (.toolError t.name e.type.name))
  return error e

/-- The gates of `run`. -/
def gates (cfg : Config) (t : Tool) : Except PyExc Unit := do
  assertToolEnabled cfg t.name
  if t.write then assertWriteAllowed cfg t.name

/-- The gates of `run`, then the caller. -/
def gateThenResolve (deps : Deps) (headers : Option RawHeaders) (t : Tool) : Io AuthContext := do
  Coro.ofExcept (gates deps.cfg t)
  deps.resolveAuth headers

/-- The rest of `run`, for an admitted caller. -/
def perform (cfg : Config) (t : Tool) (auth : AuthContext) : Prog Ise PyVal := do
  match ← (t.fn auth).run with
  | .error e => fail cfg auth.username t e
  | .ok result =>
      audit cfg auth.username t "ok" none
      return result

def run (deps : Deps) (headers : Option RawHeaders) (t : Tool) : Prog Ise PyVal := do
  match ← (gateThenResolve deps headers t).run with
  | .error e => fail deps.cfg "unknown" t e
  | .ok auth => perform deps.cfg t auth

end IseMcp
