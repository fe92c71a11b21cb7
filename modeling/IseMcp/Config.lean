import IseMcp.Python.Value

set_option autoImplicit false

/-! # Configuration

`config.py`: the fields that the rest of the server reads, the values derived from them, and
`Config.validate`. -/

namespace IseMcp

open Python

structure Config where
  iseBaseUrl : String
  iseErsBaseUrl : String
  iseMntBaseUrl : String
  iseUsername : String
  isePassword : String
  iseEncodedAuth : String
  iseVersion : String
  rateLimitWait : Bool
  authMode : String
  mcpMode : String
  enableDangerousTools : Bool
  sessionTtlSeconds : Int
  sessionIdleTimeoutSeconds : Int
  sessionHeader : String
  auditLogEnabled : Bool
  allowedTools : List String
  disabledTools : List String
  allowedEndpointGroups : List String
  defaultPageSize : Int
  maxPageSize : Int
  includeRawDefault : Bool
  oauthClientId : String
  oauthClientSecret : String
  oauthRedirectUris : List String
  oauthScopes : String
  apiKeys : List String

namespace Config

/-- The dataclass defaults. -/
def default : Config where
  iseBaseUrl := ""
  iseErsBaseUrl := ""
  iseMntBaseUrl := ""
  iseUsername := ""
  isePassword := ""
  iseEncodedAuth := ""
  iseVersion := "3.2"
  rateLimitWait := true
  authMode := "passthrough"
  mcpMode := "readonly"
  enableDangerousTools := false
  sessionTtlSeconds := 3600
  sessionIdleTimeoutSeconds := 900
  sessionHeader := "X-MCP-Session"
  auditLogEnabled := true
  allowedTools := []
  disabledTools := []
  allowedEndpointGroups := []
  defaultPageSize := 50
  maxPageSize := 500
  includeRawDefault := false
  oauthClientId := ""
  oauthClientSecret := ""
  oauthRedirectUris := []
  oauthScopes := "ise.read"
  apiKeys := []

def ersBase (cfg : Config) : String :=
  rstripSlash (if cfg.iseErsBaseUrl = "" then cfg.iseBaseUrl else cfg.iseErsBaseUrl)

def mntBase (cfg : Config) : String :=
  rstripSlash (if cfg.iseMntBaseUrl = "" then cfg.iseBaseUrl else cfg.iseMntBaseUrl)

def isReadonly (cfg : Config) : Bool := lower cfg.mcpMode != "readwrite"

def validate (cfg : Config) : Except PyExc Unit := do
  if cfg.authMode ≠ "passthrough" ∧ cfg.authMode ≠ "service_account" then
    throw (exc .valueError ("Unsupported ISE_AUTH_MODE: " ++ cfg.authMode))
  if lower cfg.mcpMode ≠ "readonly" ∧ lower cfg.mcpMode ≠ "readwrite" then
    throw (exc .valueError ("Unsupported ISE_MCP_MODE: " ++ cfg.mcpMode))
  if cfg.iseBaseUrl = "" then
    throw (exc .valueError "ISE_BASE_URL is required")
  if cfg.authMode = "service_account" ∧
      ¬ (cfg.iseEncodedAuth ≠ "" ∨ (cfg.iseUsername ≠ "" ∧ cfg.isePassword ≠ "")) then
    throw (exc .valueError
      "service_account mode requires ISE_USERNAME+ISE_PASSWORD or ISE_ENCODED_AUTH")
  if cfg.maxPageSize < cfg.defaultPageSize then
    throw (exc .valueError "ISE_MAX_PAGE_SIZE must be >= ISE_DEFAULT_PAGE_SIZE")
  if cfg.apiKeys ≠ [] ∧ ¬ (cfg.iseUsername ≠ "" ∧ cfg.isePassword ≠ "") then
    throw (exc .valueError
      ("MCP_API_KEYS requires ISE_USERNAME and ISE_PASSWORD (the fixed read-only " ++
        "account those tokens map to)"))

end Config

/-! ## Validated settings -/

theorem validate_authMode {cfg : Config} (h : cfg.validate = .ok ()) :
    cfg.authMode = "passthrough" ∨ cfg.authMode = "service_account" := by
  by_contra hno
  rw [not_or] at hno
  rw [Config.validate, if_pos hno] at h
  cases h

theorem validate_mcpMode {cfg : Config} (h : cfg.validate = .ok ()) :
    lower cfg.mcpMode = "readonly" ∨ lower cfg.mcpMode = "readwrite" := by
  have hauth : ¬ (cfg.authMode ≠ "passthrough" ∧ cfg.authMode ≠ "service_account") := by
    rw [not_and_or, not_ne_iff, not_ne_iff]
    exact validate_authMode h
  by_contra hno
  rw [not_or] at hno
  rw [Config.validate, if_neg hauth, if_pos hno] at h
  cases h

end IseMcp
