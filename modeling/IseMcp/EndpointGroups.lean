import IseMcp.Tools.Writes

set_option autoImplicit false

/-! # The allowed endpoint groups

`ISE_ALLOWED_ENDPOINT_GROUPS` is meant to bound the groups that `ise_create_endpoint` and
`ise_assign_endpoint_group` can put an endpoint in (`GroupScoped`). The check exists
(`assertGroupAllowed`) but no tool calls it, so a call that passes the gates and the validation
of its arguments sends whatever group it was given: the bound holds exactly for the calls that
stop before, or ask for a group of the list (`group_scope_iff`).
-/

namespace IseMcp

open Python Interaction

/-- The `groupId` in the body of a request. -/
def groupIdOf (h : HttpRequest) : Option PyVal :=
  match h.json with
  | some (.dict kvs) =>
      match PyVal.lookup kvs "ERSEndPoint" with
      | some (.dict body) => PyVal.lookup body "groupId"
      | _ => none
  | _ => none

namespace ToolCall

/-- The group that a write asks for, stripped as it is sent. An empty one is left out. -/
def group : ToolCall → Option String
  | .iseCreateEndpoint _ (some g) _ => if g = "" then none else some (strip g)
  | .iseAssignEndpointGroup _ g => some (strip g)
  | _ => none

end ToolCall

/-- What the list of allowed groups is meant to guarantee of a call run from `w`. -/
structure GroupScoped (deps : Deps) (headers : Option RawHeaders) (call : ToolCall) (env : Env)
    (w : World) : Prop where
  /-- No body that is sent carries a group outside the list. -/
  bodies : ∀ ev ∈ Prog.events (serve env) (call.invoke deps headers) w, ∀ h, ev.1 = .send h →
    ∀ v, groupIdOf h = some v → ∃ g ∈ deps.cfg.allowedEndpointGroups, v = .str g
  /-- A call for a group outside the list sends nothing. -/
  silent : ∀ g, call.group = some g → g ∉ deps.cfg.allowedEndpointGroups →
    ∀ ev ∈ Prog.events (serve env) (call.invoke deps headers) w, ∀ h, ev.1 ≠ .send h
  /-- If nothing else refuses it, it is answered with a `validation_error`. -/
  refused : ∀ g, call.group = some g → g ∉ deps.cfg.allowedEndpointGroups →
    ∀ t auth, call.tool deps = some t → Admitted deps headers t env w auth →
    field (Prog.exec (serve env) (call.invoke deps headers) w).1 "error"
      = some (.str "validation_error")

/-! ## The write tools -/

theorem validateEndpointId_ok {value v : String} (h : validateEndpointId value = .ok v) :
    v = strip value :=
  (matchStripped_ok_iff.mp h).1

/-- The body that a write sends carries the group it asks for, and no other. -/
theorem planned_group {cfg : Config} {auth : AuthContext} {call : ToolCall} {r : IseRequest}
    (hw : call.name ∈ writeTools) (h : call.Planned cfg auth r) (pair : String × String) :
    groupIdOf (IseClient.httpRequest r pair) = call.group.map .str := by
  cases call with
  | iseCreateEndpoint mac groupId description =>
      obtain ⟨m, body, _, hb, rfl⟩ := h
      rcases groupId with _ | g
      · cases hb
        rfl
      · by_cases hg : g = ""
        · rw [newEndpoint, if_pos hg] at hb
          cases hb
          rw [ToolCall.group, if_pos hg]
          rfl
        · rcases hv : validateEndpointId g with e | gid
          · rw [newEndpoint, if_neg hg, hv] at hb
            cases hb
          · rw [newEndpoint, if_neg hg, hv] at hb
            cases hb
            rw [ToolCall.group, if_neg hg, ← validateEndpointId_ok hv]
            rfl
  | iseAssignEndpointGroup endpointId groupId =>
      obtain ⟨eid, gid, _, hg, rfl⟩ := h
      rw [ToolCall.group, ← validateEndpointId_ok hg]
      rfl
  | iseDeleteEndpoint endpointId =>
      obtain ⟨eid, _, rfl⟩ := h
      rfl
  | _ => simp [ToolCall.name, writeTools] at hw

/-! ## Runs -/

section

variable {deps : Deps} {headers : Option RawHeaders} {call : ToolCall} {t : Tool} {env : Env}
  {w : World}

/-- A write that sends something was admitted with valid arguments, and sends its own group. -/
theorem write_sends (hw : call.name ∈ writeTools) (ht : call.tool deps = some t)
    {ev : Event Ise} (hev : ev ∈ Prog.events (serve env) (call.invoke deps headers) w)
    {h : HttpRequest} (hsend : ev.1 = .send h) :
    (∃ auth, Admitted deps headers t env w auth) ∧ call.ValidArgs ∧
      groupIdOf h = call.group.map .str := by
  -- a request is neither a record nor a lookup, so it comes from the inner function
  have hquiet : ¬ (ev.1.IsRecord ∨ ∃ sid, ev.1 = .getSession sid) := by
    rw [hsend]
    rintro ((⟨rec, hrec⟩ | ⟨rec, hrec⟩) | ⟨sid, hsid⟩) <;> contradiction
  rw [ToolCall.invoke_eq_run ht] at hev
  by_cases hadm : ∃ auth, Admitted deps headers t env w auth
  · obtain ⟨auth, hauth⟩ := hadm
    obtain ⟨w', _, lookups, records, hevents, hlookups, hrecords⟩ := run_outcome hauth
    rw [hevents, List.mem_append, List.mem_append] at hev
    rcases hev with hev | hev | hev
    · exact absurd (Or.inr (hlookups ev hev)) hquiet
    · rcases write_fn hw ht auth with ⟨hvalid, _⟩ | ⟨_, e, _, hrun⟩
      · refine ⟨⟨auth, hauth⟩, hvalid, ?_⟩
        obtain ⟨r, hr, hof⟩ := (fn_only ht auth).mem_events hev
        rw [hsend] at hof
        cases hof with
        | send _ =>
            rcases hr with hr | ⟨hnames, _⟩
            · exact planned_group hw hr _
            · cases call <;> simp [ToolCall.resolvesNames, ToolCall.name, writeTools] at hnames hw
      · rw [hrun] at hev
        cases hev
    · exact absurd (Or.inl (hrecords ev hev)) hquiet
  · exact absurd ((run_not_admitted hadm).2 ev hev) hquiet

/-- An admitted write with valid arguments sends its request, or its caller has no usable
credentials. -/
theorem valid_write {auth : AuthContext} (hw : call.name ∈ writeTools)
    (ht : call.tool deps = some t) (hauth : Admitted deps headers t env w auth)
    (hvalid : call.ValidArgs) :
    (∃ ev ∈ Prog.events (serve env) (call.invoke deps headers) w, ∃ h, ev.1 = .send h) ∨
      field (Prog.exec (serve env) (call.invoke deps headers) w).1 "error"
        = some (.str "internal_error") := by
  obtain ⟨w', hret, lookups, records, hevents, _, _⟩ := run_outcome hauth
  rw [ToolCall.invoke_eq_run ht, hret, hevents]
  rcases write_fn hw ht auth with ⟨_, r, _, hrun⟩ | ⟨hinvalid, _⟩
  · rw [hrun]
    rcases hb : r.auth.basicAuth with e | pair
    · right
      rw [IseClient.run_request, hb]
      dsimp only [Prog.call_bind, Prog.exec_call, Prog.ret_bind, Coro.next_error, Prog.exec_ret]
      have htype : e.type = .valueError := by
        unfold AuthContext.basicAuth at hb
        split at hb
        · split at hb <;> cases hb
          rfl
        · cases hb
      rw [field_error_error, htype]
      rfl
    · left
      obtain ⟨ev, hev, hsend⟩ := IseClient.request_sends deps.cfg hb env w'
      refine ⟨ev, ?_, _, hsend⟩
      rw [Prog.events_bind]
      simp [hev]
  · exact absurd hvalid hinvalid

/-- An admitted write with invalid arguments is answered with a `validation_error`. -/
theorem invalid_write {auth : AuthContext} (hw : call.name ∈ writeTools)
    (ht : call.tool deps = some t) (hauth : Admitted deps headers t env w auth)
    (hinvalid : ¬ call.ValidArgs) :
    field (Prog.exec (serve env) (call.invoke deps headers) w).1 "error"
      = some (.str "validation_error") := by
  obtain ⟨w', hret, _⟩ := run_outcome hauth
  rw [ToolCall.invoke_eq_run ht, hret]
  rcases write_fn hw ht auth with ⟨hvalid, _⟩ | ⟨_, e, htype, hrun⟩
  · exact absurd hvalid hinvalid
  · rw [hrun, Prog.exec_ret]
    dsimp only
    rw [field_error_error, htype]
    rfl

end

/-- The call gets as far as its request, with a group outside the list. -/
def EscapesScope (deps : Deps) (headers : Option RawHeaders) (call : ToolCall) (env : Env)
    (w : World) : Prop :=
  (∃ t auth, call.tool deps = some t ∧ Admitted deps headers t env w auth) ∧ call.ValidArgs ∧
    ∃ g, call.group = some g ∧ g ∉ deps.cfg.allowedEndpointGroups

/-- **When the allowed groups bound a write**: unless the gates pass, the caller is known, the
arguments are valid and the group is outside a list that is not empty. -/
theorem group_scope_iff (deps : Deps) (headers : Option RawHeaders) (call : ToolCall)
    (hw : call.name ∈ writeTools) (env : Env) (w : World) :
    (deps.cfg.allowedEndpointGroups ≠ [] → GroupScoped deps headers call env w) ↔
      ¬ (deps.cfg.allowedEndpointGroups ≠ [] ∧ EscapesScope deps headers call env w) := by
  constructor
  -- such a call sends its body, or fails with another code
  · rintro h ⟨hlist, ⟨t, auth, ht, hauth⟩, hvalid, g, hg, hout⟩
    have hscope := h hlist
    rcases valid_write hw ht hauth hvalid with ⟨ev, hev, req, hsend⟩ | hcode
    · exact hscope.silent g hg hout ev hev req hsend
    · have := hscope.refused g hg hout t auth ht hauth
      rw [hcode] at this
      exact absurd this (by decide)
  · intro h hlist
    -- otherwise a call that gets as far as its request asks for a group of the list
    have hin : ∀ t auth, call.tool deps = some t → Admitted deps headers t env w auth →
        call.ValidArgs → ∀ g, call.group = some g → g ∈ deps.cfg.allowedEndpointGroups := by
      intro t auth ht hauth hvalid g hg
      by_contra hout
      exact h ⟨hlist, ⟨t, auth, ht, hauth⟩, hvalid, g, hg, hout⟩
    obtain ⟨t, ht⟩ : ∃ t, call.tool deps = some t := by
      cases call <;> simp [ToolCall.name, writeTools] at hw <;> exact ⟨_, rfl⟩
    refine ⟨fun ev hev req hsend v hv => ?_, fun g hg hout ev hev req hsend => ?_,
      fun g hg hout t' auth ht' hauth => ?_⟩
    · obtain ⟨⟨auth, hauth⟩, hvalid, hgroup⟩ := write_sends hw ht hev hsend
      rw [hgroup, Option.map_eq_some_iff] at hv
      obtain ⟨g, hg, rfl⟩ := hv
      exact ⟨g, hin t auth ht hauth hvalid g hg, rfl⟩
    · obtain ⟨⟨auth, hauth⟩, hvalid, _⟩ := write_sends hw ht hev hsend
      exact hout (hin t auth ht hauth hvalid g hg)
    · refine invalid_write hw ht' hauth fun hvalid => ?_
      exact hout (hin t' auth ht' hauth hvalid g hg)

/-- A readwrite server with a service account, for one endpoint group. -/
def scopedDeps : Deps where
  cfg := { accountDeps.cfg with mcpMode := "readwrite", allowedEndpointGroups := ["aaaaaaaa"] }
  provider := accountDeps.provider
  fromstring := accountDeps.fromstring

/-- The endpoint with this MAC is created in a group. -/
def createIn (group : String) : ToolCall :=
  .iseCreateEndpoint "aabbccddeeff" (some group) ""

theorem group_scope_inside :
    GroupScoped scopedDeps none (createIn "aaaaaaaa") (.always 201) (.initial 3600 900) := by
  have hgroup : (createIn "aaaaaaaa").group = some "aaaaaaaa" := by decide
  refine (group_scope_iff scopedDeps none (createIn "aaaaaaaa") (by decide) _ _).mpr ?_ (by decide)
  rintro ⟨_, _, _, g, hg, hout⟩
  rw [hgroup, Option.some.injEq] at hg
  subst hg
  exact hout List.mem_cons_self

/-- The group `bbbbbbbb` is outside the list, and the endpoint is created in it. -/
theorem group_scope_outside :
    scopedDeps.cfg.allowedEndpointGroups ≠ [] ∧
      ¬ GroupScoped scopedDeps none (createIn "bbbbbbbb") (.always 201) (.initial 3600 900) := by
  refine ⟨by decide, fun h => ?_⟩
  have hgroup : (createIn "bbbbbbbb").group = some "bbbbbbbb" := by decide
  have hcode := h.refused "bbbbbbbb" hgroup (by decide) _ _ rfl ⟨rfl, rfl⟩
  have hreply : (Prog.exec (serve (.always 201))
      ((createIn "bbbbbbbb").invoke scopedDeps none) (.initial 3600 900)).1
      = okData (.dict []) := by rfl
  rw [hreply] at hcode
  cases hcode

end IseMcp
