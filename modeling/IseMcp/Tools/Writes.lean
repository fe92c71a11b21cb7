import IseMcp.Ise.Attempts
import IseMcp.Tools.Outcome

set_option autoImplicit false

/-! # The write tools

A write tool makes the one request planned from its arguments, or raises a `ValidationError`
(`write_fn`). So its envelope is read off the attempts of that request (`write_returns`).
-/

namespace IseMcp

open Python Interaction

/-- The arguments of a write pass its validation. -/
def ToolCall.ValidArgs : ToolCall → Prop
  | .iseCreateEndpoint mac groupId _ => (∃ m, normalizeMac mac = .ok m) ∧
      ∀ g, groupId = some g → g ≠ "" → ∃ gid, validateEndpointId g = .ok gid
  | .iseAssignEndpointGroup endpointId groupId =>
      (∃ eid, validateEndpointId endpointId = .ok eid) ∧
        ∃ gid, validateEndpointId groupId = .ok gid
  | .iseDeleteEndpoint endpointId => ∃ eid, validateEndpointId endpointId = .ok eid
  | _ => True

/-- The body of a new endpoint is built unless a given group is no id. -/
theorem newEndpoint_cases (m description : String) (groupId : Option String) :
    ((∀ g, groupId = some g → g ≠ "" → ∃ gid, validateEndpointId g = .ok gid) ∧
      ∃ body, newEndpoint m description groupId = .ok body) ∨
    ∃ g e, groupId = some g ∧ g ≠ "" ∧ validateEndpointId g = .error e ∧
      newEndpoint m description groupId = .error e := by
  rcases groupId with _ | g
  · exact Or.inl ⟨nofun, _, rfl⟩
  · by_cases hg : g = ""
    · refine Or.inl ⟨fun g' hg' hne => ?_, _, by rw [newEndpoint, if_pos hg]⟩
      cases hg'
      exact absurd hg hne
    · rcases hv : validateEndpointId g with e | gid
      · refine Or.inr ⟨g, e, rfl, hg, hv, ?_⟩
        rw [newEndpoint, if_neg hg, hv]
        rfl
      · refine Or.inl ⟨fun g' hg' _ => ?_, ?_⟩
        · cases hg'
          exact ⟨gid, hv⟩
        · rw [newEndpoint, if_neg hg, hv]
          exact ⟨_, rfl⟩

theorem validateEndpointId_error {value : String} {e : PyExc}
    (h : validateEndpointId value = .error e) : e.type = .validationError :=
  matchStripped_error h

/-- The arguments decide whether a write tool makes its one request or raises a
`ValidationError`. -/
theorem write_fn {deps : Deps} {call : ToolCall} {t : Tool} (hw : call.name ∈ writeTools)
    (ht : call.tool deps = some t) (auth : AuthContext) :
    (call.ValidArgs ∧ ∃ r, call.Planned deps.cfg auth r ∧
      (t.fn auth).run = (IseClient.request deps.cfg r).run >>= Coro.next fun v => pure (okData v)) ∨
    (¬ call.ValidArgs ∧ ∃ e, e.type = .validationError ∧ (t.fn auth).run = .ret (.error e)) := by
  cases call with
  | iseCreateEndpoint mac groupId description =>
      cases ht
      simp only [iseCreateEndpoint, Coro.run_ofExcept_bind]
      -- the MAC is validated before the group
      rcases hm : normalizeMac mac with e | m
      · refine Or.inr ⟨?_, e, normalizeMac_error hm, rfl⟩
        rintro ⟨⟨m, hm'⟩, _⟩
        rw [hm] at hm'
        cases hm'
      · rw [Coro.next_ok, Coro.run_ofExcept_bind]
        rcases newEndpoint_cases m description groupId with ⟨hg, body, hb⟩ | ⟨g, e, rfl, hg, hv, hb⟩
        · refine Or.inl ⟨⟨⟨m, hm⟩, hg⟩, _, ⟨m, body, hm, hb, rfl⟩, ?_⟩
          rw [hb]
          exact Coro.run_bind' _ _
        · refine Or.inr ⟨?_, e, validateEndpointId_error hv, by rw [hb]; rfl⟩
          rintro ⟨_, hvalid⟩
          obtain ⟨gid, hgid⟩ := hvalid g rfl hg
          rw [hv] at hgid
          cases hgid
  | iseAssignEndpointGroup endpointId groupId =>
      cases ht
      simp only [iseAssignEndpointGroup, Coro.run_ofExcept_bind]
      rcases he : validateEndpointId endpointId with e | eid
      · refine Or.inr ⟨?_, e, validateEndpointId_error he, rfl⟩
        rintro ⟨⟨eid, he'⟩, _⟩
        rw [he] at he'
        cases he'
      · rw [Coro.next_ok, Coro.run_ofExcept_bind]
        rcases hg : validateEndpointId groupId with e | gid
        · refine Or.inr ⟨?_, e, validateEndpointId_error hg, rfl⟩
          rintro ⟨_, gid, hg'⟩
          rw [hg] at hg'
          cases hg'
        · exact Or.inl ⟨⟨⟨eid, he⟩, gid, hg⟩, _, ⟨eid, gid, he, hg, rfl⟩, Coro.run_bind' _ _⟩
  | iseDeleteEndpoint endpointId =>
      cases ht
      simp only [iseDeleteEndpoint, Coro.run_ofExcept_bind]
      rcases he : validateEndpointId endpointId with e | eid
      · refine Or.inr ⟨?_, e, validateEndpointId_error he, rfl⟩
        rintro ⟨eid, he'⟩
        rw [he] at he'
        cases he'
      · exact Or.inl ⟨⟨eid, he⟩, _, ⟨eid, he, rfl⟩, Coro.run_bind' _ _⟩
  | _ => simp [ToolCall.name, writeTools] at hw

/-- A write asks for JSON, under its own method. -/
theorem planned_write {cfg : Config} {auth : AuthContext} {call : ToolCall} {r : IseRequest}
    (hw : call.name ∈ writeTools) (h : call.Planned cfg auth r) :
    r.parse = .json ∧ r.method = call.method := by
  refine ⟨?_, (planned_shape h).1⟩
  cases call with
  | iseCreateEndpoint mac groupId description =>
      obtain ⟨m, body, _, _, rfl⟩ := h
      rfl
  | iseAssignEndpointGroup endpointId groupId =>
      obtain ⟨eid, gid, _, _, rfl⟩ := h
      rfl
  | iseDeleteEndpoint endpointId =>
      obtain ⟨eid, _, rfl⟩ := h
      rfl
  | _ => simp [ToolCall.name, writeTools] at hw

/-- The records of a run send nothing. -/
theorem attempts_records (cfg : Config) (actor : String) (t : Tool) (r : Except PyExc PyVal) :
    attempts (records cfg actor t r) = [] := by
  cases r with
  | ok v =>
      unfold records auditEvents
      split_ifs <;> rfl
  | error e =>
      unfold records auditEvents
      split_ifs <;> rfl

theorem attempts_lookups {es : List (Event Ise)} (h : ∀ ev ∈ es, ∃ sid, ev.1 = Op.getSession sid) :
    attempts es = [] := by
  refine attempts_eq_nil fun ev hev r hr => ?_
  obtain ⟨sid, hsid⟩ := h ev hev
  rw [hsid] at hr
  cases hr

/-- **What a finished write comes to**: it failed without an attempt, or the attempts of its one
request decide the envelope. -/
theorem write_returns {deps : Deps} {headers : Option RawHeaders} {call : ToolCall}
    (hw : call.name ∈ writeTools) {es : List (Event Ise)} {env : PyVal}
    (hp : Prog.Path (call.invoke deps headers) es (.ret env)) :
    (attempts es = [] ∧ ∃ e, env = error e) ∨
    ∃ earlier last, attempts es = earlier ++ [last] ∧ call.ValidArgs ∧
      earlier.length ≤ IseClient.maxRetries ∧
      (∀ o ∈ earlier, IseClient.retried deps.cfg o = true) ∧
      env = answer ((IseClient.settle .json last).map okData) := by
  obtain ⟨t, ht⟩ : ∃ t, call.tool deps = some t := by
    cases call with
    | iseCreateEndpoint mac groupId description => exact ⟨_, rfl⟩
    | iseAssignEndpointGroup endpointId groupId => exact ⟨_, rfl⟩
    | iseDeleteEndpoint endpointId => exact ⟨_, rfl⟩
    | _ => simp [ToolCall.name, writeTools] at hw
  rw [ToolCall.invoke_eq_run ht] at hp
  rcases run_returns hp with ⟨es₁, e, hes₁, rfl, rfl⟩ | ⟨auth, es₁, es₂, r, _, hres, hfn, rfl, rfl⟩
  · rw [attempts_append, attempts_lookups hes₁, attempts_records]
    exact Or.inl ⟨rfl, e, rfl⟩
  · have hlookups := attempts_lookups fun ev hev => (resolveAuth_only deps headers).event hres hev
    rw [attempts_append, attempts_append, attempts_records, hlookups, List.append_nil,
      List.nil_append]
    rcases write_fn hw ht auth with ⟨hvalid, req, hplan, hrun⟩ | ⟨_, e, _, hrun⟩
    · rw [hrun] at hfn
      obtain ⟨r', es₃, es₄, rfl, hreq, hrest⟩ := (Prog.path_bind_ret_iff _ _ _ _).mp hfn
      have hout : es₄ = [] ∧ r = r'.map okData := by
        cases r' with
        | error e =>
            obtain ⟨h₁, h₂⟩ := (Prog.path_ret_iff _ _ _).mp hrest
            cases h₂
            exact ⟨h₁, rfl⟩
        | ok v =>
            obtain ⟨h₁, h₂⟩ := (Prog.path_ret_iff _ _ _).mp hrest
            cases h₂
            exact ⟨h₁, rfl⟩
      obtain ⟨rfl, rfl⟩ := hout
      rw [List.append_nil]
      rcases IseClient.request_returns hreq with ⟨hnone, e, rfl⟩ |
        ⟨earlier, last, hes, hlen, hall, _, rfl⟩
      · exact Or.inl ⟨hnone, e, rfl⟩
      · rw [(planned_write hw hplan).1]
        exact Or.inr ⟨earlier, last, hes, hvalid, hlen, hall, rfl⟩
    · rw [hrun] at hfn
      obtain ⟨rfl, hr⟩ := (Prog.path_ret_iff _ _ _).mp hfn
      cases hr
      exact Or.inl ⟨rfl, e, rfl⟩

/-- A server with a service account that may write and delete. -/
def writerDeps : Deps where
  cfg := { accountDeps.cfg with mcpMode := "readwrite", enableDangerousTools := true }
  provider := accountDeps.provider
  fromstring := accountDeps.fromstring

end IseMcp
