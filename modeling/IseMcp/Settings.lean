import IseMcp.Logging

set_option autoImplicit false

/-! # Settings from the environment

`load_config`: every field of the configuration is read from an environment variable. `Settings`
adds to `Config` the fields that only the start of the server reads.
-/

namespace IseMcp

open Python

/-! ## Python's `int` -/

/-- What `int` takes for white space around a number. -/
def isIntSpace (c : Char) : Bool :=
  if c.toNat < 128 then (9 ≤ c.toNat && c.toNat ≤ 13) || c.toNat == 32 else isSpace c

/-- The value of a decimal digit of Unicode. -/
def digitValue (c : Char) : Option Nat :=
  (decimalZeros.find? fun z => z ≤ c.toNat && c.toNat < z + 10).map (c.toNat - ·)

/-- `sys.get_int_max_str_digits()` -/
def maxStrDigits : Nat := 4300

/-- Groups of digits with single underscores between them, and not too many digits. -/
def digitsValue (s : List Char) : Option Nat :=
  let groups := s.splitOn '_'
  if groups.all (· != []) then
    (groups.flatten.mapM digitValue).bind fun ds =>
      if ds.length ≤ maxStrDigits then some (Nat.ofDigits 10 ds.reverse) else none
  else none

/-- A number with its sign. -/
def signedValue : List Char → Option Int
  | '+' :: s => (digitsValue s).map fun n : Nat => (n : Int)
  | '-' :: s => (digitsValue s).map fun n : Nat => -(n : Int)
  | s => (digitsValue s).map fun n : Nat => (n : Int)

/-- `int(s)`, if it is not a `ValueError`. -/
def pyInt (s : String) : Option Int :=
  signedValue ((s.toList.dropWhile isIntSpace).rdropWhile isIntSpace)

/-! ## Reading a variable -/

/-- `env.get`, for the environment of the process. -/
abbrev Environ : Type := String → Option String

namespace Environ

/-- `env.get(key, dflt)` -/
def get (env : Environ) (key dflt : String) : String := (env key).getD dflt

/-- `TRUE` -/
def trueWords : List String := ["1", "true", "yes", "on"]

/-- `_bool` -/
def bool (env : Environ) (key : String) (dflt : Bool) : Bool :=
  match env key with
  | none => dflt
  | some v => if v = "" then dflt else decide (lower (strip v) ∈ trueWords)

/-- `_int` -/
def int (env : Environ) (key : String) (dflt : Int) : Int :=
  match env key with
  | none => dflt
  | some v => if v = "" then dflt else (pyInt v).getD dflt

/-- `v.split(",")` for the value of a variable. -/
def parts (env : Environ) (key : String) : List String :=
  ((env.get key "").toList.splitOn ',').map .ofList

/-- `_csv` -/
def csv (env : Environ) (key : String) : List String :=
  ((env.parts key).map strip).filter (· ≠ "")

end Environ

/-! ## The settings -/

/-- All fields of the dataclass `Config`. -/
@[ext] structure Settings extends Config where
  verifySsl : Bool
  timeoutSeconds : Int
  logLevel : String
  allowedDeviceGroups : List String
  allowedSites : List String
  host : String
  port : Int
  transport : String

/-- `load_config` -/
def loadConfig (env : Environ) : Settings where
  iseBaseUrl := rstripSlash (env.get "ISE_BASE_URL" "")
  iseErsBaseUrl := env.get "ISE_ERS_BASE_URL" ""
  iseMntBaseUrl := env.get "ISE_MNT_BASE_URL" ""
  iseUsername := env.get "ISE_USERNAME" ""
  isePassword := env.get "ISE_PASSWORD" ""
  iseEncodedAuth := env.get "ISE_ENCODED_AUTH" ""
  iseVersion := env.get "ISE_VERSION" "3.2"
  verifySsl := env.bool "ISE_VERIFY_SSL" true
  timeoutSeconds := env.int "ISE_TIMEOUT_SECONDS" 30
  rateLimitWait := env.bool "ISE_RATE_LIMIT_WAIT" true
  authMode := lower (strip (env.get "ISE_AUTH_MODE" "passthrough"))
  mcpMode := lower (strip (env.get "ISE_MCP_MODE" "readonly"))
  enableDangerousTools := env.bool "ISE_ENABLE_DANGEROUS_TOOLS" false
  sessionTtlSeconds := env.int "ISE_SESSION_TTL_SECONDS" 3600
  sessionIdleTimeoutSeconds := env.int "ISE_SESSION_IDLE_TIMEOUT_SECONDS" 900
  sessionHeader := env.get "MCP_SESSION_HEADER" "X-MCP-Session"
  logLevel := upper (env.get "LOG_LEVEL" "INFO")
  auditLogEnabled := env.bool "AUDIT_LOG_ENABLED" true
  allowedTools := env.csv "ISE_ALLOWED_TOOLS"
  disabledTools := env.csv "ISE_DISABLED_TOOLS"
  allowedEndpointGroups := env.csv "ISE_ALLOWED_ENDPOINT_GROUPS"
  allowedDeviceGroups := env.csv "ISE_ALLOWED_DEVICE_GROUPS"
  allowedSites := env.csv "ISE_ALLOWED_SITES"
  defaultPageSize := env.int "ISE_DEFAULT_PAGE_SIZE" 50
  maxPageSize := env.int "ISE_MAX_PAGE_SIZE" 500
  includeRawDefault := env.bool "ISE_INCLUDE_RAW_DEFAULT" false
  oauthClientId := env.get "OAUTH_CLIENT_ID" ""
  oauthClientSecret := env.get "OAUTH_CLIENT_SECRET" ""
  oauthRedirectUris := env.csv "OAUTH_REDIRECT_URIS"
  oauthScopes := env.get "OAUTH_SCOPES" "ise.read"
  apiKeys := env.csv "MCP_API_KEYS"
  host := env.get "MCP_HOST" "0.0.0.0"
  port := env.int "MCP_PORT" 8005
  transport := env.get "MCP_TRANSPORT" "streamable-http"

end IseMcp
