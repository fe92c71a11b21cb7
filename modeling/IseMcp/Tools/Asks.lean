import IseMcp.Tools.Registry

set_option autoImplicit false

/-! # How a tool is put together

The inner function of a tool is put together from requests to ISE and pure steps (`fn_asks`). So a
property of programs that such steps have, and that sequencing keeps, holds of every tool. The
bound counts the requests.
-/

namespace IseMcp

open Python Interaction

/-- The coroutine asks ISE at most `n` times, and does nothing else. -/
inductive Asks (cfg : Config) : {α : Type} → Nat → Io α → Prop where
  | ofExcept {α : Type} (r : Except PyExc α) : Asks cfg 0 (Coro.ofExcept r)
  | request (r : IseRequest) : Asks cfg 1 (IseClient.request cfg r)
  | bind {α β : Type} {m n : Nat} {x : Io α} {f : α → Io β} (hx : Asks cfg m x)
      (hf : ∀ a, Asks cfg n (f a)) : Asks cfg (m + n) (x >>= f)
  | attempt {α : Type} {n : Nat} {x : Io α} (hx : Asks cfg n x) : Asks cfg n (Coro.attempt x)
  | mono {α : Type} {m n : Nat} {x : Io α} (hx : Asks cfg m x) (h : m ≤ n) : Asks cfg n x

/-- The most requests that a call makes: the endpoint with its group and profile, and for a policy
context also the session and the authentication history. -/
def ToolCall.lookups : ToolCall → Nat
  | .iseHealthCheck | .iseAuthStatus | .iseLogin _ _ | .iseValidateSession | .iseLogout
  | .iseWhoami => 0
  | .iseGetEndpointByMac _ _ | .iseGetEndpointById _ _ => 3
  | .iseGetPolicyContextByMac _ | .iseGetIncidentSummaryByMac _ => 5
  | _ => 1

theorem lookups_le (call : ToolCall) : call.lookups ≤ 5 := by
  cases call <;> simp only [ToolCall.lookups] <;> omega

section

variable {cfg : Config} {n : Nat}

theorem asks_pure {α : Type} (a : α) : Asks cfg 0 (pure a : Io α) := .ofExcept (.ok a)

theorem asks_throw {α : Type} (e : PyExc) : Asks cfg 0 (throw e : Io α) := .ofExcept (.error e)

/-- What comes after a pure step. -/
theorem Asks.after {α β : Type} {r : Except PyExc α} {f : α → Io β} (hf : ∀ a, Asks cfg n (f a)) :
    Asks cfg n (Coro.ofExcept r >>= f) :=
  (Asks.bind (.ofExcept r) hf).mono (Nat.zero_add n).le

/-- A request, and what is made of its reply. -/
theorem asks_reply {β : Type} (r : IseRequest) {f : PyVal → Io β} (hf : ∀ raw, Asks cfg 0 (f raw)) :
    Asks cfg 1 (IseClient.request cfg r >>= f) := .bind (.request r) hf

theorem namedBy_asks (id : PyVal) (path wrapper : String) (auth : AuthContext) :
    Asks cfg 1 (namedBy id
      (fun s => IseClient.request cfg (ErsApi.getRequest cfg (path ++ s) auth none)) wrapper) := by
  unfold namedBy
  split_ifs
  · refine Asks.bind (n := 0) (.attempt (asks_reply _ fun _ => .ofExcept _)) fun r => ?_
    cases r with
    | ok name => exact asks_pure _
    | error e => exact asks_pure _
  · exact (asks_pure _).mono (Nat.zero_le _)

/-- The names of the group and of the profile, and what is made of them. -/
theorem names_asks {α : Type} (gid pid : PyVal) (auth : AuthContext)
    (f : Option PyVal → Option PyVal → α) :
    Asks cfg 2 (do
      let group ← namedBy gid (ErsApi.getEndpointGroup cfg · auth) "EndPointGroup"
      let profile ← namedBy pid (ErsApi.getProfilerProfile cfg · auth) "ProfilerProfile"
      return f group profile) :=
  Asks.bind (m := 1) (n := 1) (namedBy_asks gid _ _ auth) fun _ =>
    Asks.bind (n := 0) (namedBy_asks pid _ _ auth) fun _ => asks_pure _

theorem endpointEnvelope_asks (raw : PyVal) (inc : Option Bool) (auth : AuthContext) :
    Asks cfg 2 (endpointEnvelope cfg raw inc auth) :=
  Asks.after fun _ => Asks.bind (n := 0) (names_asks _ _ auth _) fun _ => asks_pure _

theorem endpointSection_asks (mac : String) (auth : AuthContext) :
    Asks cfg 3 (endpointSection cfg mac auth) :=
  Asks.bind (m := 1) (n := 2) (.request _) fun _ => Asks.after fun _ => names_asks _ _ auth _

theorem getXml_asks (fromstring : XmlParser) (path : String) (auth : AuthContext) :
    Asks cfg 1 (MntApi.getXml cfg fromstring path auth) := by
  refine asks_reply _ fun v => ?_
  cases v with
  | str xml => exact .ofExcept _
  | _ => exact asks_throw _

/-- Three sections, of three requests, one and one. -/
theorem buildContext_asks {deps : Deps} (mac : String) (auth : AuthContext) :
    Asks deps.cfg 5 (buildContext deps mac auth) :=
  Asks.bind (m := 3) (n := 2) (.attempt (endpointSection_asks mac auth)) fun _ =>
    Asks.bind (m := 1) (n := 1) (.attempt (getXml_asks _ _ auth)) fun _ =>
      Asks.bind (n := 0) (.attempt (getXml_asks _ _ auth)) fun _ => asks_pure _

/-- An endpoint, with the names of its group and its profile. -/
theorem endpoint_asks (r : IseRequest) (inc : Option Bool) (auth : AuthContext) :
    Asks cfg 3 (do endpointEnvelope cfg (← IseClient.request cfg r) inc auth) :=
  Asks.bind (m := 1) (n := 2) (.request r) fun raw => endpointEnvelope_asks raw inc auth

end

/-- **A tool asks ISE at most so many times as `lookups` says**, whatever it finds. -/
theorem fn_asks {deps : Deps} {call : ToolCall} {t : Tool} (h : call.tool deps = some t)
    (auth : AuthContext) : Asks deps.cfg call.lookups (t.fn auth) := by
  have hpure (v : PyVal) : Asks deps.cfg 0 (pure v : Io PyVal) := asks_pure v
  cases call with
  | iseHealthCheck => cases h
  | iseLogin u p => cases h
  | iseLogout => cases h
  | iseAuthStatus => cases h; exact hpure _
  | iseValidateSession => cases h; exact hpure _
  | iseWhoami => cases h; exact hpure _
  | iseGetEndpointByMac mac inc =>
      cases h
      exact Asks.after fun _ => endpoint_asks _ inc auth
  | iseGetEndpointById eid inc =>
      cases h
      exact Asks.after fun _ => endpoint_asks _ inc auth
  | iseGetEndpointByIp ip inc =>
      cases h
      exact Asks.after fun _ => asks_reply _ fun _ => Asks.after fun _ => hpure _
  | iseSearchEndpoints filter page size inc =>
      cases h
      exact asks_reply _ fun _ => Asks.after fun _ => Asks.after fun _ => hpure _
  | iseGetActiveSessionByMac mac inc =>
      cases h
      exact Asks.after fun _ => Asks.bind (n := 0) (getXml_asks _ _ auth) fun _ => hpure _
  | iseGetActiveSessionByIp ip inc =>
      cases h
      exact Asks.after fun _ => Asks.bind (n := 0) (getXml_asks _ _ auth) fun _ => hpure _
  | iseGetAuthLogsByMac mac seconds records inc =>
      cases h
      exact Asks.after fun _ => Asks.bind (n := 0) (getXml_asks _ _ auth) fun _ => hpure _
  | iseGetPolicyContextByMac mac =>
      cases h
      exact Asks.after fun _ => Asks.bind (n := 0) (buildContext_asks _ auth) fun _ => hpure _
  | iseGetIncidentSummaryByMac mac =>
      cases h
      exact Asks.after fun _ => Asks.bind (n := 0) (buildContext_asks _ auth) fun _ => hpure _
  | iseListNetworkDevices filter page size inc =>
      cases h
      exact asks_reply _ fun _ => .ofExcept _
  | iseGetUserSessionsByUsername user inc =>
      cases h
      exact Asks.after fun _ => Asks.bind (n := 0) (.attempt (.request _)) fun _ => hpure _
  | iseGetEndpointGroup gid =>
      cases h
      exact Asks.after fun _ => asks_reply _ fun _ => hpure _
  | iseListSecurityGroups page size inc =>
      cases h
      exact asks_reply _ fun _ => .ofExcept _
  | iseListSgacls page size inc =>
      cases h
      exact asks_reply _ fun _ => .ofExcept _
  | iseListAuthorizationProfiles page size inc =>
      cases h
      exact asks_reply _ fun _ => .ofExcept _
  | iseCreateEndpoint mac gid description =>
      cases h
      exact Asks.after fun _ => Asks.after fun _ => asks_reply _ fun _ => hpure _
  | iseAssignEndpointGroup eid gid =>
      cases h
      exact Asks.after fun _ => Asks.after fun _ => asks_reply _ fun _ => hpure _
  | iseDeleteEndpoint eid =>
      cases h
      exact Asks.after fun _ => asks_reply _ fun _ => hpure _

end IseMcp
