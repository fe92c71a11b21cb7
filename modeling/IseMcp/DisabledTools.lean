import IseMcp.Tools.Requests

set_option autoImplicit false

/-! # Disabled tools

A tool that the configuration disables is meant to do nothing but say so (`TurnedAway`). The check is
the first thing `run` does, so it covers exactly the tools that go through `run`:
`ise_health_check`, `ise_login` and `ise_logout` do not (`disabled_turnedAway_iff`).
-/

namespace IseMcp

open Python Interaction

/-- The reply of a call run from `w`, and what the call did. -/
def reply (deps : Deps) (headers : Option RawHeaders) (call : ToolCall) (env : Env) (w : World) :
    PyVal :=
  (Prog.exec (serve env) (call.invoke deps headers) w).1

/-- The call answers `tool_disabled`, asks nothing of ISE and leaves the sessions as they are. -/
structure TurnedAway (deps : Deps) (headers : Option RawHeaders) (call : ToolCall) (env : Env)
    (w : World) : Prop where
  notOk : field (reply deps headers call env w) "ok" = some (.bool false)
  code : field (reply deps headers call env w) "error" = some (.str "tool_disabled")
  silent : ∀ ev ∈ Prog.events (serve env) (call.invoke deps headers) w, ev.1.reachesIse = false
  store : (Prog.exec (serve env) (call.invoke deps headers) w).2.store = w.store

/-! ## Tools that go through `run` -/

theorem gates_disabled {cfg : Config} {t : Tool} (h : isToolEnabled cfg t.name = false) :
    gates cfg t = .error
      (exc .toolDisabledError ("Tool '" ++ t.name ++ "' is disabled by configuration")) := by
  rw [gates, assertToolEnabled, if_neg (by simp [h])]
  rfl

theorem record_silent {o : Op} (h : o.IsRecord) : o.reachesIse = false := by
  rcases h with ⟨rec, rfl⟩ | ⟨rec, rfl⟩ <;> rfl

theorem record_store {o : Op} (h : o.IsRecord) (env : Env) (w : World) :
    (serve env w o).2.store = w.store := by
  rcases h with ⟨rec, rfl⟩ | ⟨rec, rfl⟩ <;> rfl

theorem run_turnedAway {deps : Deps} {headers : Option RawHeaders} {call : ToolCall} {t : Tool}
    (ht : call.tool deps = some t) (hd : isToolEnabled deps.cfg call.name = false) (env : Env)
    (w : World) : TurnedAway deps headers call env w := by
  rw [← ToolCall.tool_name ht] at hd
  have hinvoke : call.invoke deps headers = fail deps.cfg "unknown" t _ :=
    (ToolCall.invoke_eq_run ht).trans (run_refused (gates_disabled hd))
  have honly := fail_only deps.cfg "unknown" t
    (exc .toolDisabledError ("Tool '" ++ t.name ++ "' is disabled by configuration"))
  refine ⟨?_, ?_, fun ev hev => ?_, ?_⟩
  · rw [reply, hinvoke, exec_fail]
    exact field_ok_error _
  · rw [reply, hinvoke, exec_fail, field_error_error]
    rfl
  · rw [hinvoke] at hev
    exact record_silent (honly.mem_events hev)
  · rw [hinvoke]
    exact honly.exec (I := fun w' : World => w'.store = w.store)
      (fun w' o ho hw' => (record_store ho env w').trans hw') rfl

/-! ## The other tools -/

/-- A login ends with a session or with an `AuthError`. -/
theorem login_error {validate : Validator} {username password : String} {env : Env} {w : World}
    {e : PyExc}
    (h : (Prog.exec (serve env) (PassthroughProvider.login validate username password).run w).1
      = .error e) : e.type = .authError := by
  by_cases hempty : username = "" ∨ password = ""
  · rw [PassthroughProvider.login_empty hempty] at h
    cases h
    rfl
  · obtain ⟨hu, hp⟩ := not_or.mp hempty
    rw [PassthroughProvider.login_nonempty hu hp, Prog.exec_bind] at h
    generalize Prog.exec (serve env) (validate username password).run w = out at h
    obtain ⟨r, w'⟩ := out
    rcases r with e' | _ | _ <;> cases h <;> rfl

/-- `ise_login` never answers `tool_disabled`. -/
theorem login_code (deps : Deps) (username password : String) (env : Env) (w : World) :
    field (Prog.exec (serve env) (iseLogin deps username password) w).1 "error"
      ≠ some (.str "tool_disabled") := by
  unfold iseLogin
  cases hp : deps.provider with
  | serviceAccount auth =>
      dsimp only
      rw [Prog.pure_eq, Prog.exec_ret, field_error_error]
      decide
  | passthrough validate =>
      dsimp only
      rw [Prog.exec_bind]
      generalize hout : Prog.exec (serve env)
        (PassthroughProvider.login validate username password).run w = out
      obtain ⟨r, w'⟩ := out
      cases r with
      | error e =>
          have htype := login_error (congrArg Prod.fst hout)
          dsimp only
          rw [Prog.pure_eq, Prog.exec_ret, field_error_error, htype]
          decide
      | ok sess =>
          intro h
          cases h

/-- The tools that do not go through `run` are not turned away. -/
theorem ungated_not_turnedAway {deps : Deps} {headers : Option RawHeaders} {call : ToolCall}
    (hnone : call.tool deps = none) (env : Env) (w : World) :
    ¬ TurnedAway deps headers call env w := by
  intro h
  have hname := ToolCall.tool_eq_none_iff.mp hnone
  cases call with
  | iseHealthCheck => cases h.notOk
  | iseLogin u p => exact login_code deps u p env w h.code
  | iseLogout =>
      -- a logout always answers `ok`
      have hok := h.notOk
      rw [reply] at hok
      simp only [ToolCall.invoke, ToolCall.tool, iseLogout] at hok
      cases hp : deps.provider with
      | serviceAccount auth =>
          rw [hp] at hok
          cases hok
      | passthrough validate =>
          rw [hp] at hok
          cases hok
  | _ => simp [ToolCall.name] at hname

/-- **Which disabled tools are turned away**: all but the three that do not go through `run`. -/
theorem disabled_turnedAway_iff (deps : Deps) (headers : Option RawHeaders) (call : ToolCall)
    (env : Env) (w : World) (hd : isToolEnabled deps.cfg call.name = false) :
    TurnedAway deps headers call env w ↔
      call.name ∉ ["ise_health_check", "ise_login", "ise_logout"] := by
  cases ht : call.tool deps with
  | none =>
      have hname := ToolCall.tool_eq_none_iff.mp ht
      exact iff_of_false (ungated_not_turnedAway ht env w) fun h => h hname
  | some t =>
      refine iff_of_true (run_turnedAway ht hd env w) fun hname => ?_
      have hnone : call.tool deps = none := ToolCall.tool_eq_none_iff.mpr hname
      rw [hnone] at ht
      cases ht

/-- A server whose configuration disables `ise_whoami` and `ise_login`. -/
def disablingDeps : Deps where
  cfg := { passthroughDeps.cfg with disabledTools := ["ise_whoami", "ise_login"] }
  provider := .passthrough (IseClient.validateCredentials
    { passthroughDeps.cfg with disabledTools := ["ise_whoami", "ise_login"] })
  fromstring := passthroughDeps.fromstring

theorem disabled_turnedAway_whoami :
    TurnedAway disablingDeps none .iseWhoami (.always 200) (.initial 3600 900) :=
  (disabled_turnedAway_iff disablingDeps none .iseWhoami _ _ (by decide)).mpr (by decide)

/-- The disabled `ise_login` still logs in. -/
theorem disabled_login_runs :
    isToolEnabled disablingDeps.cfg (ToolCall.iseLogin "alice" "pw").name = false ∧
      ¬ TurnedAway disablingDeps none (.iseLogin "alice" "pw") (.always 200)
        (.initial 3600 900) := by
  refine ⟨by decide, fun h => ?_⟩
  have hok : field (reply disablingDeps none (.iseLogin "alice" "pw") (.always 200)
      (.initial 3600 900)) "ok" = some (.bool true) := rfl
  exact absurd (hok.symm.trans h.notOk) (by decide)

end IseMcp
