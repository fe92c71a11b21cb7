import IseMcp.Tools.Policy

set_option autoImplicit false

/-! # The registered tools

`tools/health.py` and `tools/write_endpoint.py`, and the surface `register_all` builds: one
constructor of `ToolCall` for each of the 24 tools. Three tools of `health.py` do not go through
`run`. -/

namespace IseMcp

open Python Interaction

/-! ## Health and sessions -/

def iseHealthCheck (cfg : Config) : PyVal :=
  okData (.dict [("status", .str "ok"), ("ise_base_url", .str cfg.iseBaseUrl),
    ("ise_version", .str cfg.iseVersion), ("auth_mode", .str cfg.authMode),
    ("mcp_mode", .str cfg.mcpMode), ("readonly", .bool cfg.isReadonly)])

def iseAuthStatus : Tool where
  name := "ise_auth_status"
  params := []
  write := false
  fn := fun auth => return okData (.dict [("authenticated", .bool true),
    ("username", .str auth.username), ("mode", .str auth.mode)])

def iseLogin (deps : Deps) (username password : String) : Prog Ise PyVal :=
  match deps.provider with
  | .serviceAccount _ =>
      return error (exc .runtimeError "ise_login is only available when ISE_AUTH_MODE=passthrough")
  | .passthrough validate => do
      match ← (PassthroughProvider.login validate username password).run with
      | .error e => return error e
      | .ok sess =>
          return ok (.dict [("session_id", .str sess.sessionId), ("username", .str sess.username)])
            .none false
            [("note", .str ("Present this id in the " ++ deps.cfg.sessionHeader ++
              " header (or Authorization: Bearer)."))]

def iseValidateSession : Tool where
  name := "ise_validate_session"
  params := []
  write := false
  fn := fun auth => return okData (.dict [("valid", .bool true),
    ("username", .str auth.username), ("mode", .str auth.mode)])

/-- What `ise_logout` answers. -/
def logoutEnvelope (deleted : Bool) : PyVal := okData (.dict [("logged_out", .bool deleted)])

def iseLogout (deps : Deps) (headers : Option RawHeaders) : Prog Ise PyVal :=
  match deps.provider with
  | .serviceAccount _ =>
      return okData
        (.dict [("logged_out", .bool false), ("reason", .str "not in passthrough mode")])
  | .passthrough _ => do
      return logoutEnvelope (← PassthroughProvider.logout (deps.sessionId headers))

def iseWhoami (cfg : Config) : Tool where
  name := "ise_whoami"
  params := []
  write := false
  fn := fun auth => return okData (.dict [("username", .str auth.username),
    ("mode", .str auth.mode), ("mcp_mode", .str cfg.mcpMode),
    ("can_write", .bool !cfg.isReadonly)])

/-! ## Writes -/

/-- The body of a new endpoint; a group is validated and pinned. -/
def newEndpoint (mac description : String) (groupId : Option String) : Except PyExc PyVal :=
  match groupId with
  | some g =>
      if g = "" then .ok (.dict [("mac", .str mac), ("description", .str description)])
      else do
        let gid ← validateEndpointId g
        return .dict [("mac", .str mac), ("description", .str description), ("groupId", .str gid),
          ("staticGroupAssignment", .bool true)]
  | none => .ok (.dict [("mac", .str mac), ("description", .str description)])

def iseCreateEndpoint (cfg : Config) (mac : String) (groupId : Option String)
    (description : String) : Tool where
  name := "ise_create_endpoint"
  params := [("mac", .str mac)]
  write := true
  fn := fun auth => do
    let m ← Coro.ofExcept (normalizeMac mac)
    let body ← Coro.ofExcept (newEndpoint m description groupId)
    return okData (← ErsApi.createEndpoint cfg body auth)

/-- The body of a group assignment. -/
def assignment (eid gid : String) : PyVal :=
  .dict [("id", .str eid), ("groupId", .str gid), ("staticGroupAssignment", .bool true)]

def iseAssignEndpointGroup (cfg : Config) (endpointId groupId : String) : Tool where
  name := "ise_assign_endpoint_group"
  params := [("endpoint_id", .str endpointId), ("group_id", .str groupId)]
  write := true
  fn := fun auth => do
    let eid ← Coro.ofExcept (validateEndpointId endpointId)
    let gid ← Coro.ofExcept (validateEndpointId groupId)
    return okData (← ErsApi.updateEndpoint cfg eid (assignment eid gid) auth)

def iseDeleteEndpoint (cfg : Config) (endpointId : String) : Tool where
  name := "ise_delete_endpoint"
  params := [("endpoint_id", .str endpointId)]
  write := true
  fn := fun auth => do
    let eid ← Coro.ofExcept (validateEndpointId endpointId)
    return okData (← ErsApi.deleteEndpoint cfg eid auth)

/-! ## The surface -/

/-- A call of a registered tool with its arguments. -/
inductive ToolCall where
  | iseHealthCheck
  | iseAuthStatus
  | iseLogin (username password : String)
  | iseValidateSession
  | iseLogout
  | iseWhoami
  | iseGetEndpointByMac (mac : String) (includeRaw : Option Bool)
  | iseGetEndpointById (endpointId : String) (includeRaw : Option Bool)
  | iseGetEndpointByIp (ip : String) (includeRaw : Option Bool)
  | iseSearchEndpoints (filterExpression : Option String) (page : Int) (pageSize : Option Int)
      (includeRaw : Option Bool)
  | iseGetActiveSessionByMac (mac : String) (includeRaw : Option Bool)
  | iseGetActiveSessionByIp (ip : String) (includeRaw : Option Bool)
  | iseGetAuthLogsByMac (mac : String) (seconds records : Int) (includeRaw : Option Bool)
  | iseGetPolicyContextByMac (mac : String)
  | iseGetIncidentSummaryByMac (mac : String)
  | iseListNetworkDevices (filterExpression : Option String) (page : Int) (pageSize : Option Int)
      (includeRaw : Option Bool)
  | iseGetUserSessionsByUsername (username : String) (includeRaw : Option Bool)
  | iseGetEndpointGroup (groupId : String)
  | iseListSecurityGroups (page : Int) (pageSize : Option Int) (includeRaw : Option Bool)
  | iseListSgacls (page : Int) (pageSize : Option Int) (includeRaw : Option Bool)
  | iseListAuthorizationProfiles (page : Int) (pageSize : Option Int) (includeRaw : Option Bool)
  | iseCreateEndpoint (mac : String) (groupId : Option String) (description : String)
  | iseAssignEndpointGroup (endpointId groupId : String)
  | iseDeleteEndpoint (endpointId : String)
  deriving DecidableEq

namespace ToolCall

/-- The tool behind a call, if it goes through `run`. -/
def tool (deps : Deps) : ToolCall → Option Tool
  | .iseHealthCheck | .iseLogin _ _ | .iseLogout => none
  | .iseAuthStatus => some IseMcp.iseAuthStatus
  | .iseValidateSession => some IseMcp.iseValidateSession
  | .iseWhoami => some (IseMcp.iseWhoami deps.cfg)
  | .iseGetEndpointByMac mac inc => some (IseMcp.iseGetEndpointByMac deps.cfg mac inc)
  | .iseGetEndpointById eid inc => some (IseMcp.iseGetEndpointById deps.cfg eid inc)
  | .iseGetEndpointByIp ip inc => some (IseMcp.iseGetEndpointByIp deps.cfg ip inc)
  | .iseSearchEndpoints filter page size inc =>
      some (IseMcp.iseSearchEndpoints deps.cfg filter page size inc)
  | .iseGetActiveSessionByMac mac inc => some (IseMcp.iseGetActiveSessionByMac deps mac inc)
  | .iseGetActiveSessionByIp ip inc => some (IseMcp.iseGetActiveSessionByIp deps ip inc)
  | .iseGetAuthLogsByMac mac seconds records inc =>
      some (IseMcp.iseGetAuthLogsByMac deps mac seconds records inc)
  | .iseGetPolicyContextByMac mac => some (IseMcp.iseGetPolicyContextByMac deps mac)
  | .iseGetIncidentSummaryByMac mac => some (IseMcp.iseGetIncidentSummaryByMac deps mac)
  | .iseListNetworkDevices filter page size inc =>
      some (IseMcp.iseListNetworkDevices deps.cfg filter page size inc)
  | .iseGetUserSessionsByUsername user inc =>
      some (IseMcp.iseGetUserSessionsByUsername deps.cfg user inc)
  | .iseGetEndpointGroup gid => some (IseMcp.iseGetEndpointGroup deps.cfg gid)
  | .iseListSecurityGroups page size inc =>
      some (IseMcp.iseListSecurityGroups deps.cfg page size inc)
  | .iseListSgacls page size inc => some (IseMcp.iseListSgacls deps.cfg page size inc)
  | .iseListAuthorizationProfiles page size inc =>
      some (IseMcp.iseListAuthorizationProfiles deps.cfg page size inc)
  | .iseCreateEndpoint mac gid description =>
      some (IseMcp.iseCreateEndpoint deps.cfg mac gid description)
  | .iseAssignEndpointGroup eid gid => some (IseMcp.iseAssignEndpointGroup deps.cfg eid gid)
  | .iseDeleteEndpoint eid => some (IseMcp.iseDeleteEndpoint deps.cfg eid)

/-- The name a tool is registered under. -/
def name : ToolCall → String
  | .iseHealthCheck => "ise_health_check"
  | .iseAuthStatus => "ise_auth_status"
  | .iseLogin _ _ => "ise_login"
  | .iseValidateSession => "ise_validate_session"
  | .iseLogout => "ise_logout"
  | .iseWhoami => "ise_whoami"
  | .iseGetEndpointByMac _ _ => "ise_get_endpoint_by_mac"
  | .iseGetEndpointById _ _ => "ise_get_endpoint_by_id"
  | .iseGetEndpointByIp _ _ => "ise_get_endpoint_by_ip"
  | .iseSearchEndpoints _ _ _ _ => "ise_search_endpoints"
  | .iseGetActiveSessionByMac _ _ => "ise_get_active_session_by_mac"
  | .iseGetActiveSessionByIp _ _ => "ise_get_active_session_by_ip"
  | .iseGetAuthLogsByMac _ _ _ _ => "ise_get_auth_logs_by_mac"
  | .iseGetPolicyContextByMac _ => "ise_get_policy_context_by_mac"
  | .iseGetIncidentSummaryByMac _ => "ise_get_incident_summary_by_mac"
  | .iseListNetworkDevices _ _ _ _ => "ise_list_network_devices"
  | .iseGetUserSessionsByUsername _ _ => "ise_get_user_sessions_by_username"
  | .iseGetEndpointGroup _ => "ise_get_endpoint_group"
  | .iseListSecurityGroups _ _ _ => "ise_list_security_groups"
  | .iseListSgacls _ _ _ => "ise_list_sgacls"
  | .iseListAuthorizationProfiles _ _ _ => "ise_list_authorization_profiles"
  | .iseCreateEndpoint _ _ _ => "ise_create_endpoint"
  | .iseAssignEndpointGroup _ _ => "ise_assign_endpoint_group"
  | .iseDeleteEndpoint _ => "ise_delete_endpoint"

/-- A call of a tool, with the headers of its request. -/
def invoke (deps : Deps) (headers : Option RawHeaders) (call : ToolCall) : Prog Ise PyVal :=
  match call.tool deps, call with
  | some t, _ => run deps headers t
  | none, .iseLogin username password => IseMcp.iseLogin deps username password
  | none, .iseLogout => IseMcp.iseLogout deps headers
  | none, _ => return IseMcp.iseHealthCheck deps.cfg

/-- A tool is audited and gated under the name it is registered with. -/
theorem tool_name {deps : Deps} {call : ToolCall} {t : Tool} (h : call.tool deps = some t) :
    t.name = call.name := by
  cases call <;> cases h <;> rfl

theorem invoke_eq_run {deps : Deps} {headers : Option RawHeaders} {call : ToolCall} {t : Tool}
    (h : call.tool deps = some t) : call.invoke deps headers = run deps headers t := by
  simp only [invoke, h]

/-- The three tools that do not go through `run`. -/
theorem tool_eq_none_iff {deps : Deps} {call : ToolCall} : call.tool deps = none ↔
    call.name ∈ ["ise_health_check", "ise_login", "ise_logout"] := by
  cases call <;> simp [tool, name]

end ToolCall

end IseMcp
