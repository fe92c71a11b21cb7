import IseMcp.Tools.Lookup

set_option autoImplicit false

/-! # Policy context and incident summary

`tools/policy.py`: five lookups for one MAC, each allowed to fail on its own, and the narrative
built from what was found. -/

namespace IseMcp

open Python Interaction

/-- `PolicyContext` -/
structure PolicyContext where
  mac : String
  endpoint : Option EndpointSummary
  activeSession : Option SessionSummary
  recentAuth : List PyVal
  securityGroup : PyVal
  notes : List String

namespace PolicyContext

def empty (mac : String) : PolicyContext := ⟨mac, none, none, [], .none, []⟩

def dict (ctx : PolicyContext) : PyVal :=
  .dict [("mac", .str ctx.mac),
    ("endpoint", (ctx.endpoint.map EndpointSummary.dict).getD .none),
    ("active_session", (ctx.activeSession.map SessionSummary.dict).getD .none),
    ("recent_auth", .list ctx.recentAuth), ("security_group", ctx.securityGroup),
    ("notes", .list (ctx.notes.map .str))]

def note (ctx : PolicyContext) (text : String) (e : PyExc) : PolicyContext :=
  { ctx with notes := ctx.notes ++ [text ++ ": " ++ e.type.name] }

def withEndpoint (ctx : PolicyContext) : Except PyExc EndpointSummary → PolicyContext
  | .ok ep => { ctx with endpoint := some ep }
  | .error e => ctx.note "endpoint lookup failed" e

def withSession (ctx : PolicyContext) : Except PyExc PyVal → PolicyContext
  | .ok raw =>
      { ctx with
        activeSession := some (summarizeSession raw)
        securityGroup := (summarizeSession raw).securityGroup }
  | .error e => ctx.note "active session unavailable (MNT)" e

def withRecentAuth (ctx : PolicyContext) : Except PyExc PyVal → PolicyContext
  | .ok raw => { ctx with recentAuth := if raw.truthy then [raw] else [] }
  | .error e => ctx.note "auth history unavailable (MNT)" e

end PolicyContext

/-- The endpoint section of `_build_context`: the summary, with the names that could be
resolved. -/
def endpointSection (cfg : Config) (mac : String) (auth : AuthContext) : Io EndpointSummary := do
  let raw ← ErsApi.getEndpointByMac cfg mac auth
  let ep ← Coro.ofExcept (summarizeEndpoint raw)
  let group ← namedBy ep.identityGroupId (ErsApi.getEndpointGroup cfg · auth) "EndPointGroup"
  let ep := { ep with identityGroup := group.getD ep.identityGroup }
  let profile ← namedBy ep.profileId (ErsApi.getProfilerProfile cfg · auth) "ProfilerProfile"
  return { ep with profile := profile.getD ep.profile }

/-- `_build_context`: three sections, in order, each with a note when it fails. -/
def buildContext (deps : Deps) (mac : String) (auth : AuthContext) : Io PolicyContext := do
  let ep ← Coro.attempt (endpointSection deps.cfg mac auth)
  let sess ← Coro.attempt (MntApi.sessionByMac deps.cfg deps.fromstring mac auth)
  let raw ← Coro.attempt (MntApi.authStatusByMac deps.cfg deps.fromstring mac auth 86400 10)
  return (((PolicyContext.empty mac).withEndpoint ep).withSession sess).withRecentAuth raw

/-! ## The narrative -/

/-- `s if v else ""` -/
def onlyIf (v : PyVal) (s : String) : String := if v.truthy then s else ""

def endpointLine (ep : EndpointSummary) : String :=
  "- Endpoint: " ++ (ep.name.or ep.mac).toStr
    ++ onlyIf ep.ipAddress (", IP " ++ ep.ipAddress.toStr)
    ++ onlyIf ep.identityGroup (", group '" ++ ep.identityGroup.toStr ++ "'")
    ++ onlyIf ep.profile (", profiled as '" ++ ep.profile.toStr ++ "'")
    ++ onlyIf ep.staticGroupAssignment " [statically grouped]"

def sessionLine (s : SessionSummary) : String :=
  "- Active session: user '" ++ s.username.toStr ++ "' on NAS " ++ s.nasIp.toStr ++ " port "
    ++ s.nasPort.toStr ++ ", authz '" ++ s.authzProfile.toStr ++ "', state " ++ s.state.toStr ++ "."

/-- `_narrative` -/
def narrative (ctx : PolicyContext) : String :=
  let endpoint := match ctx.endpoint with
    | some ep => endpointLine ep
    | none => "- Endpoint: not found in ISE."
  let noSession := "- Active session: none reported (or MNT not accessible)."
  let session := match ctx.activeSession with
    | some s =>
        if s.username.truthy || s.nasIp.truthy || s.state.truthy then sessionLine s
        else noSession
    | none => noSession
  let sgt :=
    if ctx.securityGroup.truthy then ["- SGT: " ++ ctx.securityGroup.toStr ++ "."] else []
  "\n".intercalate
    (["ISE context for " ++ ctx.mac ++ ":", endpoint, session] ++ sgt
      ++ ctx.notes.map ("- Note: " ++ ·))

/-! ## Tools -/

def iseGetPolicyContextByMac (deps : Deps) (mac : String) : Tool where
  name := "ise_get_policy_context_by_mac"
  params := [("mac", .str mac)]
  write := false
  fn := fun auth => do
    let m ← Coro.ofExcept (normalizeMac mac)
    return okData (← buildContext deps m auth).dict

def iseGetIncidentSummaryByMac (deps : Deps) (mac : String) : Tool where
  name := "ise_get_incident_summary_by_mac"
  params := [("mac", .str mac)]
  write := false
  fn := fun auth => do
    let m ← Coro.ofExcept (normalizeMac mac)
    let ctx ← buildContext deps m auth
    return okData (.dict [("summary", .str (narrative ctx)), ("context", ctx.dict)])

end IseMcp
