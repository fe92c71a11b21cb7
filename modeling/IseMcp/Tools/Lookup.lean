import IseMcp.Tools.Run

set_option autoImplicit false

/-! # The lookup tools

`tools/endpoint.py`, `session.py`, `network_device.py`, `identity.py` and `sgt.py`: read tools
that make one ISE lookup, some with the names of a group and a profile looked up as well. -/

namespace IseMcp

open Python Interaction

/-- `_include_raw` / `_raw` -/
def includeRaw (cfg : Config) (v : Option Bool) : Bool := v.getD cfg.includeRawDefault

/-- A tool argument as it stands in the audited parameters. -/
def optStr (v : Option String) : PyVal := PyVal.ofOption v

/-! ## Endpoints -/

/-- The name behind a group or profile id; `none` when the lookup or its reply fails. -/
def lookupName (fetch : Io PyVal) (wrapper : String) : Io (Option PyVal) := do
  match ← Coro.attempt (do Coro.ofExcept (nameOf (← fetch) wrapper)) with
  | .ok name => return some name
  | .error _ => return none

/-- The name behind an id, if there is an id and the lookup succeeds. -/
def namedBy (id : PyVal) (fetch : String → Io PyVal) (wrapper : String) : Io (Option PyVal) :=
  if id.truthy then lookupName (fetch id.toStr) wrapper else pure none

/-- `out[key] = value`, if there is a value. -/
def setSome (out : List (String × PyVal)) (key : String) : Option PyVal → List (String × PyVal)
  | some value => PyVal.setItem out key value
  | none => out

/-- `_enrich`: the summary as a dictionary, with the names that could be resolved. -/
def enrich (cfg : Config) (summary : EndpointSummary) (auth : AuthContext) : Io PyVal := do
  let group ← namedBy summary.identityGroupId (ErsApi.getEndpointGroup cfg · auth) "EndPointGroup"
  let out := setSome summary.items "identity_group" group
  let profile ← namedBy summary.profileId (ErsApi.getProfilerProfile cfg · auth) "ProfilerProfile"
  return .dict (setSome out "profile" profile)

/-- `_resources` -/
def resources (raw : PyVal) : Except PyExc (List PyVal) :=
  match raw with
  | .dict _ => do
      let found ← (← raw.getD "SearchResult" (.dict [])).getD "resources" (.list [])
      (found.or (.list [])).iter
  | _ => .ok []

/-- The end of the two endpoint lookups: summary, names and envelope. -/
def endpointEnvelope (cfg : Config) (raw : PyVal) (inc : Option Bool) (auth : AuthContext) :
    Io PyVal := do
  let data ← enrich cfg (← Coro.ofExcept (summarizeEndpoint raw)) auth
  return ok data raw (includeRaw cfg inc) []

def iseGetEndpointByMac (cfg : Config) (mac : String) (inc : Option Bool) : Tool where
  name := "ise_get_endpoint_by_mac"
  params := [("mac", .str mac)]
  write := false
  fn := fun auth => do
    let m ← Coro.ofExcept (normalizeMac mac)
    endpointEnvelope cfg (← ErsApi.getEndpointByMac cfg m auth) inc auth

def iseGetEndpointById (cfg : Config) (endpointId : String) (inc : Option Bool) : Tool where
  name := "ise_get_endpoint_by_id"
  params := [("endpoint_id", .str endpointId)]
  write := false
  fn := fun auth => do
    let eid ← Coro.ofExcept (validateEndpointId endpointId)
    endpointEnvelope cfg (← ErsApi.getEndpointById cfg eid auth) inc auth

/-- The summaries of the resources of a search. -/
def summaries (raw : PyVal) : Except PyExc (List PyVal) := do
  (← resources raw).mapM fun r => return (← summarizeEndpoint r).dict

def iseGetEndpointByIp (cfg : Config) (ip : String) (inc : Option Bool) : Tool where
  name := "ise_get_endpoint_by_ip"
  params := [("ip", .str ip)]
  write := false
  fn := fun auth => do
    let addr ← Coro.ofExcept (validateIp ip)
    let raw ← ErsApi.searchEndpoints cfg (some ("ipAddress.EQUALS." ++ addr)) auth 1
      (clampPageSize cfg none)
    let items ← Coro.ofExcept (summaries raw)
    return ok (.list items) raw (includeRaw cfg inc) []

/-- `raw.get("SearchResult", {}).get("total") if isinstance(raw, dict) else None` -/
def searchTotal (raw : PyVal) : Except PyExc PyVal :=
  match raw with
  | .dict _ => do (← raw.getD "SearchResult" (.dict [])).get "total"
  | _ => .ok .none

def iseSearchEndpoints (cfg : Config) (filterExpression : Option String) (page : Int)
    (pageSize : Option Int) (inc : Option Bool) : Tool where
  name := "ise_search_endpoints"
  params := [("filter", optStr filterExpression), ("page", .int page)]
  write := false
  fn := fun auth => do
    let size := clampPageSize cfg pageSize
    let raw ← ErsApi.searchEndpoints cfg filterExpression auth page size
    let items ← Coro.ofExcept (summaries raw)
    let total ← Coro.ofExcept (searchTotal raw)
    return paged items page size total raw (includeRaw cfg inc)

/-! ## Paged lists -/

/-- `{"id": r.get("id"), "name": r.get("name")}` -/
def idAndName (r : PyVal) : Except PyExc PyVal := do
  return .dict [("id", ← r.get "id"), ("name", ← r.get "name")]

/-- The end of the list tools: the resources with id and name, and the total. -/
def listEnvelope (cfg : Config) (raw : PyVal) (page size : Int) (inc : Option Bool) :
    Except PyExc PyVal := do
  let res ← match raw with
    | .dict _ => raw.getD "SearchResult" (.dict [])
    | _ => pure (.dict [])
  let items ← (← ((← res.getD "resources" (.list [])).or (.list [])).iter).mapM idAndName
  return paged items page size (← res.get "total") raw (includeRaw cfg inc)

def iseListNetworkDevices (cfg : Config) (filterExpression : Option String) (page : Int)
    (pageSize : Option Int) (inc : Option Bool) : Tool where
  name := "ise_list_network_devices"
  params := [("filter", optStr filterExpression), ("page", .int page)]
  write := false
  fn := fun auth => do
    let size := clampPageSize cfg pageSize
    let raw ← ErsApi.listNetworkDevices cfg filterExpression auth page size
    Coro.ofExcept (listEnvelope cfg raw page size inc)

/-- `_list_tool` -/
def listTool (cfg : Config) (name : String) (fetch : AuthContext → Int → Int → Io PyVal)
    (page : Int) (pageSize : Option Int) (inc : Option Bool) : Tool where
  name := name
  params := [("page", .int page)]
  write := false
  fn := fun auth => do
    let size := clampPageSize cfg pageSize
    let raw ← fetch auth page size
    Coro.ofExcept (listEnvelope cfg raw page size inc)

def iseListSecurityGroups (cfg : Config) (page : Int) (pageSize : Option Int)
    (inc : Option Bool) : Tool :=
  listTool cfg "ise_list_security_groups" (ErsApi.listSecurityGroups cfg) page pageSize inc

def iseListSgacls (cfg : Config) (page : Int) (pageSize : Option Int) (inc : Option Bool) :
    Tool :=
  listTool cfg "ise_list_sgacls" (ErsApi.listSgacls cfg) page pageSize inc

def iseListAuthorizationProfiles (cfg : Config) (page : Int) (pageSize : Option Int)
    (inc : Option Bool) : Tool :=
  listTool cfg "ise_list_authorization_profiles" (ErsApi.listAuthorizationProfiles cfg) page
    pageSize inc

/-! ## Identities -/

/-- The internal-user record, or a note that it could not be had. -/
def internalUser : Except PyExc PyVal → PyVal
  | .ok v => v
  | .error e => .dict [("_note", .str ("not found/available: " ++ e.type.name))]

def iseGetUserSessionsByUsername (cfg : Config) (username : String) (inc : Option Bool) :
    Tool where
  name := "ise_get_user_sessions_by_username"
  params := [("username", .str username)]
  write := false
  fn := fun auth => do
    let user ← Coro.ofExcept (validateUsername username)
    let found ← Coro.attempt (ErsApi.getInternalUser cfg user auth)
    let out := .dict [("internal_user", internalUser found)]
    return ok out out (includeRaw cfg inc) []

def iseGetEndpointGroup (cfg : Config) (groupId : String) : Tool where
  name := "ise_get_endpoint_group"
  params := [("group_id", .str groupId)]
  write := false
  fn := fun auth => do
    let gid ← Coro.ofExcept (validateEndpointId groupId)
    return okData (← ErsApi.getEndpointGroup cfg gid auth)

/-! ## Sessions -/

def iseGetActiveSessionByMac (deps : Deps) (mac : String) (inc : Option Bool) : Tool where
  name := "ise_get_active_session_by_mac"
  params := [("mac", .str mac)]
  write := false
  fn := fun auth => do
    let m ← Coro.ofExcept (normalizeMac mac)
    let raw ← MntApi.sessionByMac deps.cfg deps.fromstring m auth
    return ok (summarizeSession raw).dict raw (includeRaw deps.cfg inc) []

def iseGetActiveSessionByIp (deps : Deps) (ip : String) (inc : Option Bool) : Tool where
  name := "ise_get_active_session_by_ip"
  params := [("ip", .str ip)]
  write := false
  fn := fun auth => do
    let addr ← Coro.ofExcept (validateIp ip)
    let raw ← MntApi.sessionByIp deps.cfg deps.fromstring addr auth
    return ok (summarizeSession raw).dict raw (includeRaw deps.cfg inc) []

def iseGetAuthLogsByMac (deps : Deps) (mac : String) (seconds records : Int)
    (inc : Option Bool) : Tool where
  name := "ise_get_auth_logs_by_mac"
  params := [("mac", .str mac), ("seconds", .int seconds), ("records", .int records)]
  write := false
  fn := fun auth => do
    let m ← Coro.ofExcept (normalizeMac mac)
    let recordsN := max 1 (min records 500)
    let raw ← MntApi.authStatusByMac deps.cfg deps.fromstring m auth seconds recordsN
    return ok raw raw (includeRaw deps.cfg inc) []

end IseMcp
