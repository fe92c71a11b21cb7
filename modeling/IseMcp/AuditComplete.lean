import IseMcp.Server
import IseMcp.Tools.Outcome

set_option autoImplicit false

/-! # The audit is complete for the tools that go through `run`

One call of a tool is meant to leave one audit record, which names the tool, carries no secret and
has the status of the envelope (`Audited`). `run` records every outcome once. The three tools that
do not go through `run` leave no record at all (`audited_iff`).
-/

namespace IseMcp

open Python Interaction

/-! ## Definitions -/

mutual

/-- No entry, at any depth, is under a sensitive key. -/
def NoSecret : PyVal → Prop
  | .dict kvs => NoSecretItems kvs
  | .list xs => NoSecretElems xs
  | _ => True

def NoSecretItems : List (String × PyVal) → Prop
  | [] => True
  | (k, v) :: kvs => isSensitive k = false ∧ NoSecret v ∧ NoSecretItems kvs

def NoSecretElems : List PyVal → Prop
  | [] => True
  | x :: xs => NoSecret x ∧ NoSecretElems xs

end

/-- The audit records among the events of a path. -/
def audits (es : List (Event Ise)) : List AuditRecord :=
  es.filterMap fun ev =>
    match ev.1 with
    | .audit rec => some rec
    | _ => none

/-- The call left one record: of this tool, without secrets, and with the status of the envelope. -/
def Audited (call : ToolCall) (es : List (Event Ise)) (env : PyVal) : Prop :=
  ∃ rec, audits es = [rec] ∧ rec.tool = call.name ∧ NoSecret rec.params ∧
    (rec.status = "ok" ↔ field env "ok" = some (.bool true))

/-! ## Envelopes -/

theorem listEnvelope_ok {cfg : Config} {raw v : PyVal} {page size : Int} {inc : Option Bool}
    (h : listEnvelope cfg raw page size inc = .ok v) : field v "ok" = some (.bool true) := by
  unfold listEnvelope at h
  dsimp only at h
  split at h
  all_goals
    obtain ⟨res, _, h⟩ := bind_eq_ok.mp h
    obtain ⟨found, _, h⟩ := bind_eq_ok.mp h
    obtain ⟨elems, _, h⟩ := bind_eq_ok.mp h
    obtain ⟨items, _, h⟩ := bind_eq_ok.mp h
    obtain ⟨total, _, h⟩ := bind_eq_ok.mp h
    cases h
    rfl

/-- The inner functions of the tools return envelopes that say `ok`. -/
theorem fn_returns_ok {deps : Deps} {call : ToolCall} {t : Tool} (h : call.tool deps = some t)
    (auth : AuthContext) :
    Coro.Returns (fun v => field v "ok" = some (.bool true)) (t.fn auth) := by
  have hlist : ∀ (raw : PyVal) (page size : Int) (inc : Option Bool),
      Coro.Returns (S := Ise) (fun v => field v "ok" = some (.bool true))
        (Coro.ofExcept (listEnvelope deps.cfg raw page size inc)) :=
    fun _ _ _ _ => Coro.returns_ofExcept fun _ => listEnvelope_ok
  cases call with
  | iseHealthCheck => cases h
  | iseLogin u p => cases h
  | iseLogout => cases h
  | iseAuthStatus => cases h; exact Coro.returns_pure rfl
  | iseValidateSession => cases h; exact Coro.returns_pure rfl
  | iseWhoami => cases h; exact Coro.returns_pure rfl
  | iseGetEndpointByMac mac inc =>
      cases h
      refine Coro.returns_bind fun m => Coro.returns_bind fun raw => ?_
      exact Coro.returns_bind fun summary => Coro.returns_bind fun data => Coro.returns_pure rfl
  | iseGetEndpointById eid inc =>
      cases h
      refine Coro.returns_bind fun e => Coro.returns_bind fun raw => ?_
      exact Coro.returns_bind fun summary => Coro.returns_bind fun data => Coro.returns_pure rfl
  | iseGetEndpointByIp ip inc =>
      cases h
      refine Coro.returns_bind fun addr => Coro.returns_bind fun raw => ?_
      exact Coro.returns_bind fun items => Coro.returns_pure rfl
  | iseSearchEndpoints filter page size inc =>
      cases h
      refine Coro.returns_bind fun raw => Coro.returns_bind fun items => ?_
      exact Coro.returns_bind fun total => Coro.returns_pure rfl
  | iseGetActiveSessionByMac mac inc =>
      cases h
      exact Coro.returns_bind fun m => Coro.returns_bind fun raw => Coro.returns_pure rfl
  | iseGetActiveSessionByIp ip inc =>
      cases h
      exact Coro.returns_bind fun addr => Coro.returns_bind fun raw => Coro.returns_pure rfl
  | iseGetAuthLogsByMac mac seconds records inc =>
      cases h
      exact Coro.returns_bind fun m => Coro.returns_bind fun raw => Coro.returns_pure rfl
  | iseGetPolicyContextByMac mac =>
      cases h
      exact Coro.returns_bind fun m => Coro.returns_bind fun ctx => Coro.returns_pure rfl
  | iseGetIncidentSummaryByMac mac =>
      cases h
      exact Coro.returns_bind fun m => Coro.returns_bind fun ctx => Coro.returns_pure rfl
  | iseListNetworkDevices filter page size inc =>
      cases h
      exact Coro.returns_bind fun raw => hlist _ _ _ _
  | iseGetUserSessionsByUsername username inc =>
      cases h
      exact Coro.returns_bind fun user => Coro.returns_bind fun found => Coro.returns_pure rfl
  | iseGetEndpointGroup groupId =>
      cases h
      exact Coro.returns_bind fun gid => Coro.returns_bind fun raw => Coro.returns_pure rfl
  | iseListSecurityGroups page size inc =>
      cases h
      exact Coro.returns_bind fun raw => hlist _ _ _ _
  | iseListSgacls page size inc =>
      cases h
      exact Coro.returns_bind fun raw => hlist _ _ _ _
  | iseListAuthorizationProfiles page size inc =>
      cases h
      exact Coro.returns_bind fun raw => hlist _ _ _ _
  | iseCreateEndpoint mac groupId description =>
      cases h
      refine Coro.returns_bind fun m => Coro.returns_bind fun body => ?_
      exact Coro.returns_bind fun raw => Coro.returns_pure rfl
  | iseAssignEndpointGroup endpointId groupId =>
      cases h
      refine Coro.returns_bind fun eid => Coro.returns_bind fun gid => ?_
      exact Coro.returns_bind fun raw => Coro.returns_pure rfl
  | iseDeleteEndpoint endpointId =>
      cases h
      exact Coro.returns_bind fun eid => Coro.returns_bind fun raw => Coro.returns_pure rfl

/-! ## Parameters -/

mutual

/-- Redaction changes nothing where there is no secret. -/
theorem redactAt_of_noSecret (depth : Nat) : (x : PyVal) → NoSecret x → redactAt depth x = x
  | .dict kvs, h => by
      simp only [redactAt, redactItems_of_noSecret depth kvs h, ite_self]
  | .list xs, h => by
      simp only [redactAt, redactElems_of_noSecret depth xs h, ite_self]
  | .none, _ | .bool _, _ | .int _, _ | .float _, _ | .str _, _ => rfl

theorem redactItems_of_noSecret (depth : Nat) :
    (kvs : List (String × PyVal)) → NoSecretItems kvs → redactItems depth kvs = kvs
  | [], _ => rfl
  | (k, v) :: kvs, h => by
      obtain ⟨hk, hv, hkvs⟩ := h
      simp only [redactItems, hk, redactAt_of_noSecret (depth + 1) v hv,
        redactItems_of_noSecret depth kvs hkvs, Bool.false_eq_true, if_false]

theorem redactElems_of_noSecret (depth : Nat) :
    (xs : List PyVal) → NoSecretElems xs → redactElems depth xs = xs
  | [], _ => rfl
  | x :: xs, h => by
      simp only [redactElems, redactAt_of_noSecret (depth + 1) x h.1,
        redactElems_of_noSecret depth xs h.2]

end

/-- The names of the audited parameters. -/
theorem param_not_sensitive : ∀ k ∈ ["mac", "endpoint_id", "ip", "filter", "page", "seconds",
    "records", "username", "group_id"], isSensitive k = false := by
  decide

theorem noSecret_optStr (v : Option String) : NoSecret (optStr v) := by
  cases v with
  | none => exact trivial
  | some s => exact trivial

/-- No tool has a secret audited. -/
theorem params_noSecret {deps : Deps} {call : ToolCall} {t : Tool} (h : call.tool deps = some t) :
    NoSecret (.dict t.params) := by
  have hkey := param_not_sensitive
  simp only [List.forall_mem_cons, List.not_mem_nil, false_imp_iff, implies_true, and_true] at hkey
  obtain ⟨hmac, heid, hip, hfilter, hpage, hseconds, hrecords, huser, hgid⟩ := hkey
  cases call with
  | iseHealthCheck => cases h
  | iseLogin u p => cases h
  | iseLogout => cases h
  | iseAuthStatus => cases h; exact trivial
  | iseValidateSession => cases h; exact trivial
  | iseWhoami => cases h; exact trivial
  | iseGetEndpointByMac mac inc => cases h; exact ⟨hmac, trivial, trivial⟩
  | iseGetEndpointById eid inc => cases h; exact ⟨heid, trivial, trivial⟩
  | iseGetEndpointByIp ip inc => cases h; exact ⟨hip, trivial, trivial⟩
  | iseSearchEndpoints filter page size inc =>
      cases h
      exact ⟨hfilter, noSecret_optStr _, hpage, trivial, trivial⟩
  | iseGetActiveSessionByMac mac inc => cases h; exact ⟨hmac, trivial, trivial⟩
  | iseGetActiveSessionByIp ip inc => cases h; exact ⟨hip, trivial, trivial⟩
  | iseGetAuthLogsByMac mac seconds records inc =>
      cases h
      exact ⟨hmac, trivial, hseconds, trivial, hrecords, trivial, trivial⟩
  | iseGetPolicyContextByMac mac => cases h; exact ⟨hmac, trivial, trivial⟩
  | iseGetIncidentSummaryByMac mac => cases h; exact ⟨hmac, trivial, trivial⟩
  | iseListNetworkDevices filter page size inc =>
      cases h
      exact ⟨hfilter, noSecret_optStr _, hpage, trivial, trivial⟩
  | iseGetUserSessionsByUsername username inc => cases h; exact ⟨huser, trivial, trivial⟩
  | iseGetEndpointGroup gid => cases h; exact ⟨hgid, trivial, trivial⟩
  | iseListSecurityGroups page size inc => cases h; exact ⟨hpage, trivial, trivial⟩
  | iseListSgacls page size inc => cases h; exact ⟨hpage, trivial, trivial⟩
  | iseListAuthorizationProfiles page size inc => cases h; exact ⟨hpage, trivial, trivial⟩
  | iseCreateEndpoint mac gid description => cases h; exact ⟨hmac, trivial, trivial⟩
  | iseAssignEndpointGroup eid gid =>
      cases h
      exact ⟨heid, trivial, hgid, trivial, trivial⟩
  | iseDeleteEndpoint eid => cases h; exact ⟨heid, trivial, trivial⟩

/-! ## Records -/

theorem audits_append (es es' : List (Event Ise)) : audits (es ++ es') = audits es ++ audits es' :=
  List.filterMap_append

/-- Events that are no audit leave no record. -/
theorem audits_eq_nil {es : List (Event Ise)} (h : ∀ ev ∈ es, ∀ rec, ev.1 ≠ Op.audit rec) :
    audits es = [] := by
  refine List.filterMap_eq_nil_iff.mpr fun ev hev => ?_
  obtain ⟨o, x⟩ := ev
  cases o with
  | audit rec => exact absurd rfl (h _ hev rec)
  | _ => rfl

theorem audits_lookups {es : List (Event Ise)} (h : ∀ ev ∈ es, ∃ sid, ev.1 = Op.getSession sid) :
    audits es = [] := by
  refine audits_eq_nil fun ev hev rec hrec => ?_
  obtain ⟨sid, hsid⟩ := h ev hev
  rw [hsid] at hrec
  cases hrec

/-- The inner function of a tool writes no audit record. -/
theorem audits_fn {deps : Deps} {call : ToolCall} {t : Tool} (ht : call.tool deps = some t)
    {auth : AuthContext} {es : List (Event Ise)} {r : Except PyExc PyVal}
    (h : Prog.Path (t.fn auth).run es (.ret r)) : audits es = [] := by
  refine audits_eq_nil fun ev hev rec hrec => ?_
  obtain ⟨req, _, hof⟩ := (fn_only ht auth).event h hev
  rw [hrec] at hof
  cases hof

/-- With the audit on, an outcome leaves one record: it names the tool, and says `ok` if the inner
function returned. -/
theorem audits_records {cfg : Config} (h : cfg.auditLogEnabled = true) (actor : String) (t : Tool)
    (r : Except PyExc PyVal) :
    ∃ rec, audits (records cfg actor t r) = [rec] ∧ rec.tool = t.name ∧ rec.actor = actor ∧
      rec.params = redact (.dict t.params) ∧ (rec.status = "ok" ↔ ∃ v, r = .ok v) := by
  cases r with
  | ok v =>
      refine ⟨⟨actor, t.name, redact (.dict t.params), "ok", none⟩, ?_, rfl, rfl, rfl, by simp⟩
      rw [records, auditEvents, if_pos h]
      rfl
  | error e =>
      refine ⟨⟨actor, t.name, redact (.dict t.params), "error", some e.type.name⟩, ?_, rfl, rfl, rfl,
        by simp⟩
      rw [records, auditEvents, if_pos h]
      rfl

/-- A record of the run of a tool is as it should be, given that the envelope is that of the
outcome. -/
theorem audited_of_records {deps : Deps} {call : ToolCall} {t : Tool}
    (ht : call.tool deps = some t) (h : deps.cfg.auditLogEnabled = true) (actor : String)
    {r : Except PyExc PyVal} {es : List (Event Ise)}
    (hes : audits es = audits (records deps.cfg actor t r))
    (hok : ∀ v, r = .ok v → field v "ok" = some (.bool true)) : Audited call es (answer r) := by
  obtain ⟨rec, hrec, htool, _, hparams, hstatus⟩ := audits_records h actor t r
  refine ⟨rec, hes.trans hrec, htool.trans (ToolCall.tool_name ht), ?_, hstatus.trans ?_⟩
  · rw [hparams, redact, redactAt_of_noSecret 0 _ (params_noSecret ht)]
    exact params_noSecret ht
  · cases r with
    | ok v => exact iff_of_true ⟨v, rfl⟩ (hok v rfl)
    | error e =>
        refine iff_of_false (by simp) ?_
        show field (error e) "ok" ≠ _
        rw [field_ok_error]
        simp

theorem run_audited {deps : Deps} {headers : Option RawHeaders} {call : ToolCall} {t : Tool}
    (ht : call.tool deps = some t) (h : deps.cfg.auditLogEnabled = true) {es : List (Event Ise)}
    {env : PyVal} (hp : Prog.Path (run deps headers t) es (.ret env)) : Audited call es env := by
  rcases run_returns hp with ⟨es₁, e, hes₁, rfl, rfl⟩ | ⟨auth, es₁, es₂, r, _, hres, hfn, rfl, rfl⟩
  · have hes : audits (es₁ ++ records deps.cfg "unknown" t (.error e))
        = audits (records deps.cfg "unknown" t (.error e)) := by
      rw [audits_append, audits_lookups hes₁, List.nil_append]
    exact audited_of_records ht h "unknown" hes fun v hv => by cases hv
  · refine audited_of_records ht h auth.username ?_ fun v hv => ?_
    · have hlookups := audits_lookups fun ev hev =>
        (resolveAuth_only deps headers).event hres hev
      rw [audits_append, audits_append, hlookups, audits_fn ht hfn, List.nil_append,
        List.nil_append]
    · subst hv
      exact fn_returns_ok ht auth es₂ v hfn

/-- **Which calls are audited**: exactly those of the tools that go through `run`. -/
theorem audited_iff (deps : Deps) (hb : deps.Built) (h : deps.cfg.auditLogEnabled = true)
    (headers : Option RawHeaders) (call : ToolCall) (es : List (Event Ise)) (env : PyVal)
    (hp : Prog.Path (call.invoke deps headers) es (.ret env)) :
    Audited call es env ↔ call.name ∉ ["ise_health_check", "ise_login", "ise_logout"] := by
  have hname : call.tool deps = none ↔ _ := ToolCall.tool_eq_none_iff
  rw [← hname]
  cases ht : call.tool deps with
  | some t =>
      rw [ToolCall.invoke_eq_run ht] at hp
      exact iff_of_true (run_audited ht h hp) (by simp)
  | none =>
      refine iff_of_false ?_ (by simp)
      rintro ⟨rec, hrec, _⟩
      -- such a call makes lookups and probes, and may open a session
      have hungated : ¬ (ServerRequest.tool headers call).Gated deps := by
        simp [ServerRequest.Gated, ht]
      have honly := ungated_only hb hungated
      have hpath : Prog.Path ((ServerRequest.tool headers call).program deps) es
          (.ret (.envelope env)) :=
        (Prog.path_bind_ret_iff _ _ _ _).mpr ⟨env, es, [], by simp, hp, .nil _⟩
      have hnone : audits es = [] := by
        refine audits_eq_nil fun ev hev rec' hrec' => ?_
        have := honly.event hpath hev
        rw [hrec'] at this
        rcases this with ⟨⟨⟩⟩
      rw [hnone] at hrec
      cases hrec

theorem audited_whoami :
    ∃ es env, Prog.Path (ToolCall.iseWhoami.invoke accountDeps none) es (.ret env) ∧
      Audited .iseWhoami es env := by
  have hpath := Prog.path_exec (serve (.always 200))
    (ToolCall.iseWhoami.invoke accountDeps none) (.initial 3600 900)
  exact ⟨_, _, hpath, (audited_iff accountDeps rfl rfl none _ _ _ hpath).mpr (by decide)⟩

/-- `ise_health_check` answers `ok` and leaves no record. -/
theorem health_check_unaudited :
    accountDeps.cfg.auditLogEnabled = true ∧
      ∃ es env, Prog.Path (ToolCall.iseHealthCheck.invoke accountDeps none) es (.ret env) ∧
        field env "ok" = some (.bool true) ∧ ¬ Audited .iseHealthCheck es env := by
  refine ⟨rfl, [], _, .nil _, rfl, ?_⟩
  rintro ⟨rec, hrec, _⟩
  cases hrec

end IseMcp
