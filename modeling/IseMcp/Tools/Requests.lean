import IseMcp.Ise.Alike
import IseMcp.Tools.Registry

set_option autoImplicit false

/-! # The requests of a tool

Which calls of `IseClient.request` the inner function of a tool can make, whatever ISE answers:
those planned from its arguments (`Planned`), and the lookups of a group's or profile's name by an
id that an earlier reply carried (`NameLookup`). `fn_only` says there are no others; methods,
credentials, bodies and paths are then read off these two definitions.

`run_calls` says when `run` makes a call at all.
-/

namespace IseMcp

open Python Interaction

/-! ## What a tool requests -/

/-- A lookup of the name behind an id that came in a reply. -/
def NameLookup (cfg : Config) (auth : AuthContext) (r : IseRequest) : Prop :=
  (∃ gid, r = ErsApi.getRequest cfg ("/ers/config/endpointgroup/" ++ gid) auth none) ∨
    ∃ pid, r = ErsApi.getRequest cfg ("/ers/config/profilerprofile/" ++ pid) auth none

namespace ToolCall

/-- The tools that resolve the group and the profile of an endpoint. -/
def resolvesNames : ToolCall → Bool
  | .iseGetEndpointByMac _ _ | .iseGetEndpointById _ _ => true
  | .iseGetPolicyContextByMac _ | .iseGetIncidentSummaryByMac _ => true
  | _ => false

/-- The requests of the two tools that build a policy context. -/
def ContextRequest (cfg : Config) (auth : AuthContext) (m : String) (r : IseRequest) : Prop :=
  r = ErsApi.getRequest cfg ("/ers/config/endpoint/name/" ++ m) auth none ∨
    r = MntApi.getRequest cfg ("/admin/API/mnt/Session/MACAddress/" ++ m) auth ∨
    r = MntApi.getRequest cfg (MntApi.authStatusPath m 86400 10) auth

/-- The requests a call makes from its arguments. -/
def Planned (cfg : Config) (auth : AuthContext) : ToolCall → IseRequest → Prop
  | .iseGetEndpointByMac mac _, r => ∃ m, normalizeMac mac = .ok m ∧
      r = ErsApi.getRequest cfg ("/ers/config/endpoint/name/" ++ m) auth none
  | .iseGetEndpointById endpointId _, r => ∃ eid, validateEndpointId endpointId = .ok eid ∧
      r = ErsApi.getRequest cfg ("/ers/config/endpoint/" ++ eid) auth none
  | .iseGetEndpointByIp ip _, r => ∃ addr, validateIp ip = .ok addr ∧
      r = ErsApi.getRequest cfg "/ers/config/endpoint" auth
        (some (ErsApi.filterParams (some ("ipAddress.EQUALS." ++ addr)) 1 (clampPageSize cfg none)))
  | .iseSearchEndpoints filter page size _, r =>
      r = ErsApi.getRequest cfg "/ers/config/endpoint" auth
        (some (ErsApi.filterParams filter page (clampPageSize cfg size)))
  | .iseGetActiveSessionByMac mac _, r => ∃ m, normalizeMac mac = .ok m ∧
      r = MntApi.getRequest cfg ("/admin/API/mnt/Session/MACAddress/" ++ m) auth
  | .iseGetActiveSessionByIp ip _, r => ∃ addr, validateIp ip = .ok addr ∧
      r = MntApi.getRequest cfg ("/admin/API/mnt/Session/IPAddress/" ++ addr) auth
  | .iseGetAuthLogsByMac mac seconds records _, r => ∃ m, normalizeMac mac = .ok m ∧
      r = MntApi.getRequest cfg (MntApi.authStatusPath m seconds (max 1 (min records 500))) auth
  | .iseGetPolicyContextByMac mac, r | .iseGetIncidentSummaryByMac mac, r =>
      ∃ m, normalizeMac mac = .ok m ∧ ContextRequest cfg auth m r
  | .iseListNetworkDevices filter page size _, r =>
      r = ErsApi.getRequest cfg "/ers/config/networkdevice" auth
        (some (ErsApi.filterParams filter page (clampPageSize cfg size)))
  | .iseGetUserSessionsByUsername username _, r => ∃ user, validateUsername username = .ok user ∧
      r = ErsApi.getRequest cfg ("/ers/config/internaluser/name/" ++ user) auth none
  | .iseGetEndpointGroup groupId, r => ∃ gid, validateEndpointId groupId = .ok gid ∧
      r = ErsApi.getRequest cfg ("/ers/config/endpointgroup/" ++ gid) auth none
  | .iseListSecurityGroups page size _, r =>
      r = ErsApi.getRequest cfg "/ers/config/sgt" auth
        (some (ErsApi.pageParams page (clampPageSize cfg size)))
  | .iseListSgacls page size _, r =>
      r = ErsApi.getRequest cfg "/ers/config/sgacl" auth
        (some (ErsApi.pageParams page (clampPageSize cfg size)))
  | .iseListAuthorizationProfiles page size _, r =>
      r = ErsApi.getRequest cfg "/ers/config/authorizationprofile" auth
        (some (ErsApi.pageParams page (clampPageSize cfg size)))
  | .iseCreateEndpoint mac groupId description, r => ∃ m body, normalizeMac mac = .ok m ∧
      newEndpoint m description groupId = .ok body ∧
      r = ErsApi.writeRequest cfg .post "/ers/config/endpoint" auth (some body)
  | .iseAssignEndpointGroup endpointId groupId, r => ∃ eid gid,
      validateEndpointId endpointId = .ok eid ∧ validateEndpointId groupId = .ok gid ∧
      r = ErsApi.writeRequest cfg .put ("/ers/config/endpoint/" ++ eid) auth
        (some (assignment eid gid))
  | .iseDeleteEndpoint endpointId, r => ∃ eid, validateEndpointId endpointId = .ok eid ∧
      r = ErsApi.writeRequest cfg .delete ("/ers/config/endpoint/" ++ eid) auth none
  | _, _ => False

def MayRequest (cfg : Config) (auth : AuthContext) (call : ToolCall) (r : IseRequest) : Prop :=
  Planned cfg auth call r ∨ (call.resolvesNames = true ∧ NameLookup cfg auth r)

end ToolCall

/-! ## Method and credentials -/

/-- The method of the requests that a tool makes from its arguments. -/
def ToolCall.method : ToolCall → HttpMethod
  | .iseCreateEndpoint _ _ _ => .post
  | .iseAssignEndpointGroup _ _ => .put
  | .iseDeleteEndpoint _ => .delete
  | _ => .get

theorem planned_shape {cfg : Config} {auth : AuthContext} {call : ToolCall} {r : IseRequest}
    (h : call.Planned cfg auth r) : r.method = call.method ∧ r.auth = auth := by
  cases call with
  | iseHealthCheck => exact h.elim
  | iseAuthStatus => exact h.elim
  | iseLogin u p => exact h.elim
  | iseValidateSession => exact h.elim
  | iseLogout => exact h.elim
  | iseWhoami => exact h.elim
  | iseGetEndpointByMac mac inc => obtain ⟨m, _, rfl⟩ := h; exact ⟨rfl, rfl⟩
  | iseGetEndpointById eid inc => obtain ⟨e, _, rfl⟩ := h; exact ⟨rfl, rfl⟩
  | iseGetEndpointByIp ip inc => obtain ⟨addr, _, rfl⟩ := h; exact ⟨rfl, rfl⟩
  | iseSearchEndpoints filter page size inc => cases h; exact ⟨rfl, rfl⟩
  | iseGetActiveSessionByMac mac inc => obtain ⟨m, _, rfl⟩ := h; exact ⟨rfl, rfl⟩
  | iseGetActiveSessionByIp ip inc => obtain ⟨addr, _, rfl⟩ := h; exact ⟨rfl, rfl⟩
  | iseGetAuthLogsByMac mac seconds records inc => obtain ⟨m, _, rfl⟩ := h; exact ⟨rfl, rfl⟩
  | iseGetPolicyContextByMac mac =>
      obtain ⟨m, _, rfl | rfl | rfl⟩ := h <;> exact ⟨rfl, rfl⟩
  | iseGetIncidentSummaryByMac mac =>
      obtain ⟨m, _, rfl | rfl | rfl⟩ := h <;> exact ⟨rfl, rfl⟩
  | iseListNetworkDevices filter page size inc => cases h; exact ⟨rfl, rfl⟩
  | iseGetUserSessionsByUsername user inc => obtain ⟨u, _, rfl⟩ := h; exact ⟨rfl, rfl⟩
  | iseGetEndpointGroup gid => obtain ⟨g, _, rfl⟩ := h; exact ⟨rfl, rfl⟩
  | iseListSecurityGroups page size inc => cases h; exact ⟨rfl, rfl⟩
  | iseListSgacls page size inc => cases h; exact ⟨rfl, rfl⟩
  | iseListAuthorizationProfiles page size inc => cases h; exact ⟨rfl, rfl⟩
  | iseCreateEndpoint mac gid description =>
      obtain ⟨m, body, _, _, rfl⟩ := h
      exact ⟨rfl, rfl⟩
  | iseAssignEndpointGroup eid gid =>
      obtain ⟨e, g, _, _, rfl⟩ := h
      exact ⟨rfl, rfl⟩
  | iseDeleteEndpoint eid => obtain ⟨e, _, rfl⟩ := h; exact ⟨rfl, rfl⟩

/-- **A tool requests with its own method or with GET, and as its caller**, nested lookups
included. -/
theorem mayRequest_shape {cfg : Config} {auth : AuthContext} {call : ToolCall} {r : IseRequest}
    (h : call.MayRequest cfg auth r) :
    (r.method = call.method ∨ r.method = .get) ∧ r.auth = auth := by
  rcases h with h | ⟨_, ⟨gid, rfl⟩ | ⟨pid, rfl⟩⟩
  · exact ⟨Or.inl (planned_shape h).1, (planned_shape h).2⟩
  · exact ⟨Or.inr rfl, rfl⟩
  · exact ⟨Or.inr rfl, rfl⟩

/-- An operation of a call of `request` whose arguments satisfy `R`. -/
def Issues (R : IseRequest → Prop) (o : Op) : Prop := ∃ r, R r ∧ IseClient.OfRequest r o

/-! ## The inner functions -/

/-- Inner functions for two callers alike: they issue requests that satisfy `R`, alike, and return
the same. -/
abbrev IssueAlike {α : Type} (R : IseRequest → Prop) (x x' : Io α) : Prop :=
  Coro.Sim (S := Ise) (fun o o' => Issues R o ∧ o.Alike o') Op.AnsAlike Eq x x'

section

variable {R : IseRequest → Prop} {cfg : Config} {auth auth' : AuthContext}

theorem issues_request {r : IseRequest} (hauth : r.auth.Alike auth') (h : R r) :
    IssueAlike R (IseClient.request cfg r) (IseClient.request cfg { r with auth := auth' }) :=
  (IseClient.request_sim cfg r hauth).mono fun _ _ ho => ⟨⟨r, h, ho.1⟩, ho.2⟩

theorem issues_lookupName {fetch fetch' : Io PyVal} {wrapper : String}
    (h : IssueAlike R fetch fetch') :
    IssueAlike R (lookupName fetch wrapper) (lookupName fetch' wrapper) := by
  refine Coro.sim_bind_eq (Coro.sim_attempt_eq (Coro.sim_bind_eq h fun _ =>
    Coro.sim_ofExcept_eq _)) fun r => ?_
  cases r with
  | ok name => exact Coro.sim_pure rfl
  | error e => exact Coro.sim_pure rfl

theorem issues_namedBy {id : PyVal} {fetch fetch' : String → Io PyVal} {wrapper : String}
    (h : ∀ s, IssueAlike R (fetch s) (fetch' s)) :
    IssueAlike R (namedBy id fetch wrapper) (namedBy id fetch' wrapper) := by
  unfold namedBy
  split_ifs
  · exact issues_lookupName (h _)
  · exact Coro.sim_pure rfl

variable (hauth : auth.Alike auth')

include hauth

theorem issues_getXml {fromstring : XmlParser} {path : String}
    (h : R (MntApi.getRequest cfg path auth)) :
    IssueAlike R (MntApi.getXml cfg fromstring path auth)
      (MntApi.getXml cfg fromstring path auth') := by
  refine Coro.sim_bind_eq (issues_request hauth h) fun v => ?_
  cases v with
  | str xml => exact Coro.sim_ofExcept_eq _
  | _ => exact Coro.sim_throw _

/-- The lookups of the two names behind an endpoint. -/
theorem issues_names (h : ∀ r, NameLookup cfg auth r → R r) (id : PyVal) (wrapper : String) :
    IssueAlike R (namedBy id (ErsApi.getEndpointGroup cfg · auth) wrapper)
        (namedBy id (ErsApi.getEndpointGroup cfg · auth') wrapper) ∧
      IssueAlike R (namedBy id (ErsApi.getProfilerProfile cfg · auth) wrapper)
        (namedBy id (ErsApi.getProfilerProfile cfg · auth') wrapper) :=
  ⟨issues_namedBy fun gid => issues_request hauth (h _ (Or.inl ⟨gid, rfl⟩)),
    issues_namedBy fun pid => issues_request hauth (h _ (Or.inr ⟨pid, rfl⟩))⟩

theorem issues_enrich {summary : EndpointSummary} (h : ∀ r, NameLookup cfg auth r → R r) :
    IssueAlike R (enrich cfg summary auth) (enrich cfg summary auth') := by
  refine Coro.sim_bind_eq (issues_names hauth h _ _).1 fun group => ?_
  refine Coro.sim_bind_eq (issues_names hauth h _ _).2 fun profile => ?_
  exact Coro.sim_pure rfl

theorem issues_endpointEnvelope {raw : PyVal} {inc : Option Bool}
    (h : ∀ r, NameLookup cfg auth r → R r) :
    IssueAlike R (endpointEnvelope cfg raw inc auth) (endpointEnvelope cfg raw inc auth') := by
  refine Coro.sim_bind_eq (Coro.sim_ofExcept_eq _) fun summary => ?_
  exact Coro.sim_bind_eq (issues_enrich hauth h) fun _ => Coro.sim_pure rfl

theorem issues_endpointSection {m : String}
    (hep : R (ErsApi.getRequest cfg ("/ers/config/endpoint/name/" ++ m) auth none))
    (h : ∀ r, NameLookup cfg auth r → R r) :
    IssueAlike R (endpointSection cfg m auth) (endpointSection cfg m auth') := by
  refine Coro.sim_bind_eq (issues_request hauth hep) fun raw => ?_
  refine Coro.sim_bind_eq (Coro.sim_ofExcept_eq _) fun ep => ?_
  refine Coro.sim_bind_eq (issues_names hauth h _ _).1 fun group => ?_
  refine Coro.sim_bind_eq (issues_names hauth h _ _).2 fun profile => ?_
  exact Coro.sim_pure rfl

theorem issues_buildContext {deps : Deps} {m : String}
    (hctx : ∀ r, ToolCall.ContextRequest deps.cfg auth m r → R r)
    (h : ∀ r, NameLookup deps.cfg auth r → R r) :
    IssueAlike R (buildContext deps m auth) (buildContext deps m auth') := by
  refine Coro.sim_bind_eq (Coro.sim_attempt_eq
    (issues_endpointSection hauth (hctx _ (Or.inl rfl)) h)) fun ep => ?_
  refine Coro.sim_bind_eq (Coro.sim_attempt_eq
    (issues_getXml hauth (hctx _ (Or.inr (Or.inl rfl))))) fun sess => ?_
  refine Coro.sim_bind_eq (Coro.sim_attempt_eq
    (issues_getXml hauth (hctx _ (Or.inr (Or.inr rfl))))) fun raw => ?_
  exact Coro.sim_pure rfl

/-- **The inner function of a tool for callers alike**: it makes the requests of the tool, alike,
and returns the same. -/
theorem fn_sim {deps : Deps} {call : ToolCall} {t : Tool} (h : call.tool deps = some t) :
    IssueAlike (call.MayRequest deps.cfg auth) (t.fn auth) (t.fn auth') := by
  cases call with
  | iseHealthCheck => cases h
  | iseLogin u p => cases h
  | iseLogout => cases h
  | iseAuthStatus =>
      cases h
      exact Coro.sim_pure (by rw [hauth.username, hauth.mode])
  | iseValidateSession =>
      cases h
      exact Coro.sim_pure (by rw [hauth.username, hauth.mode])
  | iseWhoami =>
      cases h
      exact Coro.sim_pure (by rw [hauth.username, hauth.mode])
  | iseGetEndpointByMac mac inc =>
      cases h
      refine Coro.sim_ofExcept_bind fun m hm => ?_
      refine Coro.sim_bind_eq (issues_request hauth (Or.inl ⟨m, hm, rfl⟩)) fun raw => ?_
      exact issues_endpointEnvelope hauth fun r hr => Or.inr ⟨rfl, hr⟩
  | iseGetEndpointById eid inc =>
      cases h
      refine Coro.sim_ofExcept_bind fun e he => ?_
      refine Coro.sim_bind_eq (issues_request hauth (Or.inl ⟨e, he, rfl⟩)) fun raw => ?_
      exact issues_endpointEnvelope hauth fun r hr => Or.inr ⟨rfl, hr⟩
  | iseGetEndpointByIp ip inc =>
      cases h
      refine Coro.sim_ofExcept_bind fun addr haddr => ?_
      refine Coro.sim_bind_eq (issues_request hauth (Or.inl ⟨addr, haddr, rfl⟩)) fun raw => ?_
      exact Coro.sim_bind_eq (Coro.sim_ofExcept_eq _) fun _ => Coro.sim_pure rfl
  | iseSearchEndpoints filter page size inc =>
      cases h
      refine Coro.sim_bind_eq (issues_request hauth (Or.inl rfl)) fun raw => ?_
      refine Coro.sim_bind_eq (Coro.sim_ofExcept_eq _) fun items => ?_
      exact Coro.sim_bind_eq (Coro.sim_ofExcept_eq _) fun _ => Coro.sim_pure rfl
  | iseGetActiveSessionByMac mac inc =>
      cases h
      refine Coro.sim_ofExcept_bind fun m hm => ?_
      exact Coro.sim_bind_eq (issues_getXml hauth (Or.inl ⟨m, hm, rfl⟩)) fun _ =>
        Coro.sim_pure rfl
  | iseGetActiveSessionByIp ip inc =>
      cases h
      refine Coro.sim_ofExcept_bind fun addr haddr => ?_
      exact Coro.sim_bind_eq (issues_getXml hauth (Or.inl ⟨addr, haddr, rfl⟩)) fun _ =>
        Coro.sim_pure rfl
  | iseGetAuthLogsByMac mac seconds records inc =>
      cases h
      refine Coro.sim_ofExcept_bind fun m hm => ?_
      exact Coro.sim_bind_eq (issues_getXml hauth (Or.inl ⟨m, hm, rfl⟩)) fun _ =>
        Coro.sim_pure rfl
  | iseGetPolicyContextByMac mac =>
      cases h
      refine Coro.sim_ofExcept_bind fun m hm => ?_
      exact Coro.sim_bind_eq (issues_buildContext hauth (fun r hr => Or.inl ⟨m, hm, hr⟩)
        fun r hr => Or.inr ⟨rfl, hr⟩) fun ctx => Coro.sim_pure rfl
  | iseGetIncidentSummaryByMac mac =>
      cases h
      refine Coro.sim_ofExcept_bind fun m hm => ?_
      exact Coro.sim_bind_eq (issues_buildContext hauth (fun r hr => Or.inl ⟨m, hm, hr⟩)
        fun r hr => Or.inr ⟨rfl, hr⟩) fun ctx => Coro.sim_pure rfl
  | iseListNetworkDevices filter page size inc =>
      cases h
      exact Coro.sim_bind_eq (issues_request hauth (Or.inl rfl)) fun raw => Coro.sim_ofExcept_eq _
  | iseGetUserSessionsByUsername username inc =>
      cases h
      refine Coro.sim_ofExcept_bind fun user huser => ?_
      exact Coro.sim_bind_eq (Coro.sim_attempt_eq
        (issues_request hauth (Or.inl ⟨user, huser, rfl⟩))) fun found => Coro.sim_pure rfl
  | iseGetEndpointGroup groupId =>
      cases h
      refine Coro.sim_ofExcept_bind fun gid hgid => ?_
      exact Coro.sim_bind_eq (issues_request hauth (Or.inl ⟨gid, hgid, rfl⟩)) fun _ =>
        Coro.sim_pure rfl
  | iseListSecurityGroups page size inc =>
      cases h
      exact Coro.sim_bind_eq (issues_request hauth (Or.inl rfl)) fun raw => Coro.sim_ofExcept_eq _
  | iseListSgacls page size inc =>
      cases h
      exact Coro.sim_bind_eq (issues_request hauth (Or.inl rfl)) fun raw => Coro.sim_ofExcept_eq _
  | iseListAuthorizationProfiles page size inc =>
      cases h
      exact Coro.sim_bind_eq (issues_request hauth (Or.inl rfl)) fun raw => Coro.sim_ofExcept_eq _
  | iseCreateEndpoint mac groupId description =>
      cases h
      refine Coro.sim_ofExcept_bind fun m hm => ?_
      refine Coro.sim_ofExcept_bind fun body hbody => ?_
      exact Coro.sim_bind_eq (issues_request hauth (Or.inl ⟨m, body, hm, hbody, rfl⟩)) fun _ =>
        Coro.sim_pure rfl
  | iseAssignEndpointGroup endpointId groupId =>
      cases h
      refine Coro.sim_ofExcept_bind fun eid heid => ?_
      refine Coro.sim_ofExcept_bind fun gid hgid => ?_
      exact Coro.sim_bind_eq (issues_request hauth (Or.inl ⟨eid, gid, heid, hgid, rfl⟩)) fun _ =>
        Coro.sim_pure rfl
  | iseDeleteEndpoint endpointId =>
      cases h
      refine Coro.sim_ofExcept_bind fun eid heid => ?_
      exact Coro.sim_bind_eq (issues_request hauth (Or.inl ⟨eid, heid, rfl⟩)) fun _ =>
        Coro.sim_pure rfl

end

/-- **The inner function of a tool makes no other requests.** -/
theorem fn_only {deps : Deps} {call : ToolCall} {t : Tool} (h : call.tool deps = some t)
    (auth : AuthContext) :
    Coro.Only (Issues (call.MayRequest deps.cfg auth)) (t.fn auth) :=
  (fn_sim (.refl auth) h).only (fun _ _ ho => ho.1) fun _ _ ho => ansAlike_total ho.2

/-! ## The run of a tool -/

/-- A record: of the audit, or of the log. -/
def Op.IsRecord (o : Op) : Prop := (∃ rec, o = .audit rec) ∨ ∃ rec, o = .log rec

/-- Resolving the caller reads the session store, and does nothing else. -/
theorem resolveAuth_only (deps : Deps) (headers : Option RawHeaders) :
    Coro.Only (fun o => ∃ sid, o = Op.getSession sid) (deps.resolveAuth headers) := by
  refine Coro.only_ofExcept_bind fun isKey _ => ?_
  cases isKey with
  | true => exact Coro.only_pure _
  | false =>
      cases hp : deps.provider with
      | serviceAccount auth => exact Coro.only_pure _
      | passthrough validate =>
          refine Coro.only_bind (Coro.only_op ⟨_, rfl⟩) fun found => ?_
          cases found with
          | none => exact Coro.only_throw _
          | some sess => exact Coro.only_pure _

theorem audit_only (cfg : Config) (actor : String) (t : Tool) (status : String)
    (detail : Option String) : Prog.Only Op.IsRecord (audit cfg actor t status detail) := by
  unfold audit
  split_ifs
  · exact .call (Or.inl ⟨_, rfl⟩) fun _ => .ret _
  · exact .ret _

theorem fail_only (cfg : Config) (actor : String) (t : Tool) (e : PyExc) :
    Prog.Only Op.IsRecord (fail cfg actor t e) := by
  refine (audit_only _ _ _ _ _).bind fun _ => ?_
  exact .call (Or.inr ⟨_, rfl⟩) fun _ => .ret _

/-- A tool that a gate refuses does nothing but record it. -/
theorem run_refused {deps : Deps} {headers : Option RawHeaders} {t : Tool} {e : PyExc}
    (h : gates deps.cfg t = .error e) : run deps headers t = fail deps.cfg "unknown" t e := by
  rw [run, gateThenResolve, Coro.run_ofExcept_bind, h]
  rfl

theorem run_admitted {deps : Deps} {headers : Option RawHeaders} {t : Tool}
    (h : gates deps.cfg t = .ok ()) :
    run deps headers t = (deps.resolveAuth headers).run >>= fun
      | .error e => fail deps.cfg "unknown" t e
      | .ok auth => perform deps.cfg t auth := by
  rw [run, gateThenResolve, Coro.run_ofExcept_bind, h]
  rfl

/-- **What `run` has done when it makes a call**: a record, or the gates have let the tool pass and
it is resolving the caller, or the caller is known and the inner function is at work for it. -/
theorem run_calls {deps : Deps} {headers : Option RawHeaders} {t : Tool} {es : List (Event Ise)}
    {o : Op} {k : o.Ans → Prog Ise PyVal}
    (h : Prog.Path (run deps headers t) es (.call (S := Ise) o k)) :
    o.IsRecord ∨
      gates deps.cfg t = .ok () ∧
        ((∃ k', Prog.Path (deps.resolveAuth headers).run es (.call (S := Ise) o k')) ∨
          ∃ auth es₁ es₂ k', es = es₁ ++ es₂ ∧
            Prog.Path (deps.resolveAuth headers).run es₁ (.ret (.ok auth)) ∧
            Prog.Path (t.fn auth).run es₂ (.call (S := Ise) o k')) := by
  cases hg : gates deps.cfg t with
  | error e =>
      rw [run_refused hg] at h
      exact Or.inl ((fail_only _ _ _ _).next h)
  | ok u =>
      rw [run_admitted hg] at h
      -- the caller is being resolved, or has been
      rcases Prog.path_bind_call h with ⟨k', hres⟩ | ⟨r, es₁, es₂, rfl, hres, h⟩
      · exact Or.inr ⟨rfl, Or.inl ⟨k', hres⟩⟩
      · cases r with
        | error e => exact Or.inl ((fail_only _ _ _ _).next h)
        | ok auth =>
            -- the inner function is at work, or only the record of its outcome is left
            rcases Prog.path_bind_call h with ⟨k', hfn⟩ | ⟨result, _, _, _, _, h⟩
            · exact Or.inr ⟨rfl, Or.inr ⟨auth, es₁, es₂, k', rfl, hres, hfn⟩⟩
            · cases result with
              | error e => exact Or.inl ((fail_only _ _ _ _).next h)
              | ok v =>
                  refine Or.inl (Prog.Only.next (Prog.Only.bind (audit_only _ _ _ _ _) ?_) h)
                  exact fun _ => .ret _

/-! ## The outcome of a run -/

section

variable {deps : Deps} {headers : Option RawHeaders} {t : Tool} {env : Env} {w : World}

/-- From the state `w` every gate lets the tool pass, and the caller is resolved to `auth`. -/
def Admitted (deps : Deps) (headers : Option RawHeaders) (t : Tool) (env : Env) (w : World)
    (auth : AuthContext) : Prop :=
  gates deps.cfg t = .ok () ∧
    (Prog.exec (serve env) (deps.resolveAuth headers).run w).1 = .ok auth

/-- A failure is recorded and returned as an envelope. -/
theorem exec_fail (cfg : Config) (actor : String) (e : PyExc) :
    (Prog.exec (serve env) (fail cfg actor t e) w).1 = error e := by
  rw [fail, Prog.exec_bind]
  rfl

/-- A tool that is not admitted fails, having made no more than a lookup and records. -/
theorem run_not_admitted (h : ¬ ∃ auth, Admitted deps headers t env w auth) :
    (∃ e, (Prog.exec (serve env) (run deps headers t) w).1 = error e) ∧
      ∀ ev ∈ Prog.events (serve env) (run deps headers t) w,
        ev.1.IsRecord ∨ ∃ sid, ev.1 = .getSession sid := by
  cases hg : gates deps.cfg t with
  | error e =>
      rw [run_refused hg]
      exact ⟨⟨e, exec_fail _ _ _⟩, fun ev hev => Or.inl ((fail_only _ _ _ _).mem_events hev)⟩
  | ok u =>
      rw [run_admitted hg, Prog.exec_bind, Prog.events_bind]
      have hget : ∀ ev ∈ Prog.events (serve env) (deps.resolveAuth headers).run w,
          ∃ sid, ev.1 = Op.getSession sid := fun ev hev =>
        (resolveAuth_only deps headers).mem_events hev
      unfold Admitted at h
      generalize Prog.exec (serve env) (deps.resolveAuth headers).run w = out at h ⊢
      obtain ⟨r, w'⟩ := out
      cases r with
      | error e =>
          refine ⟨⟨e, exec_fail _ _ _⟩, fun ev hev => ?_⟩
          rcases List.mem_append.mp hev with hev | hev
          · exact Or.inr (hget ev hev)
          · exact Or.inl ((fail_only _ _ _ _).mem_events hev)
      | ok auth => exact absurd ⟨auth, hg, rfl⟩ h

/-- The rest of `run` returns what the inner function returned, after records only. -/
theorem perform_outcome (cfg : Config) (t : Tool) (auth : AuthContext) (env : Env) (w : World) :
    (Prog.exec (serve env) (perform cfg t auth) w).1
        = (match (Prog.exec (serve env) (t.fn auth).run w).1 with
          | .ok v => v
          | .error e => error e) ∧
      ∃ records, Prog.events (serve env) (perform cfg t auth) w
          = Prog.events (serve env) (t.fn auth).run w ++ records ∧
        ∀ ev ∈ records, ev.1.IsRecord := by
  rw [perform, Prog.exec_bind, Prog.events_bind]
  generalize Prog.exec (serve env) (t.fn auth).run w = out
  obtain ⟨r, w'⟩ := out
  cases r with
  | error e =>
      exact ⟨exec_fail _ _ _, _, rfl, fun ev hev => (fail_only _ _ _ _).mem_events hev⟩
  | ok v =>
      refine ⟨by rw [Prog.exec_bind]; rfl, _, rfl, fun ev hev => ?_⟩
      exact Prog.Only.mem_events (Prog.Only.bind (audit_only _ _ _ _ _) fun _ => .ret _) hev

/-- An admitted tool runs its inner function as its caller, from some state, and returns what that
returns; besides it makes only lookups and records. -/
theorem run_outcome {auth : AuthContext} (h : Admitted deps headers t env w auth) :
    ∃ w', (Prog.exec (serve env) (run deps headers t) w).1
        = (match (Prog.exec (serve env) (t.fn auth).run w').1 with
          | .ok v => v
          | .error e => error e) ∧
      ∃ lookups records, Prog.events (serve env) (run deps headers t) w
          = lookups ++ (Prog.events (serve env) (t.fn auth).run w' ++ records) ∧
        (∀ ev ∈ lookups, ∃ sid, ev.1 = .getSession sid) ∧ ∀ ev ∈ records, ev.1.IsRecord := by
  obtain ⟨hg, hr⟩ := h
  rw [run_admitted hg, Prog.exec_bind, Prog.events_bind]
  have hget : ∀ ev ∈ Prog.events (serve env) (deps.resolveAuth headers).run w,
      ∃ sid, ev.1 = Op.getSession sid := fun ev hev =>
    (resolveAuth_only deps headers).mem_events hev
  generalize Prog.exec (serve env) (deps.resolveAuth headers).run w = out at hr ⊢
  obtain ⟨r, w'⟩ := out
  dsimp only at hr
  subst hr
  obtain ⟨hret, records, hev, hrecords⟩ := perform_outcome deps.cfg t auth env w'
  exact ⟨w', hret, _, records, by rw [hev], hget, hrecords⟩

end

end IseMcp
