import IseMcp.AuditComplete
import IseMcp.RedactionShape

set_option autoImplicit false

/-! # Every reply is an envelope

What a client can rely on when it reads the reply of a tool, whatever the tool, its arguments and
the answers of ISE: one of two shapes (`Envelope`), with redacted payloads, a raw payload only if it
was asked for, a page no larger than the configuration allows, and one of nine error codes.
-/

namespace IseMcp

open Python Interaction

/-! ## The shapes -/

/-- The `meta` of a success: nothing, a note, or a page of `data`. -/
inductive Meta (cfg : Config) (data : PyVal) : List (String × PyVal) → Prop where
  | nothing : Meta cfg data []
  | note (text : String) : Meta cfg data [("note", .str text)]
  | page {items : List PyVal} {page size : Int} {total : Option PyVal} (hdata : data = .list items)
      (hsize : 1 ≤ size ∧ size ≤ max 1 cfg.maxPageSize) :
      Meta cfg data ([("page", .int page), ("page_size", .int size),
        ("returned", .int items.length)] ++ total.toList.map fun t => ("total", t))

def errorCodes : List String :=
  ["validation_error", "auth_error", "session_error", "write_not_allowed", "tool_disabled",
    "ise_api_error", "not_found", "rate_limited", "internal_error"]

/-- A reply of a tool; `asked` says whether the call asks for the raw payload. -/
inductive Envelope (cfg : Config) (asked : Bool) : PyVal → Prop where
  | success {data : PyVal} {kwargs : List (String × PyVal)} {raw : Option PyVal}
      (hdata : redact data = data) (hmeta : Meta cfg data kwargs)
      (hraw : ∀ r, raw = some r → redact r = r ∧ asked = true) :
      Envelope cfg asked (.dict ([("ok", .bool true), ("data", data)]
        ++ (if kwargs ≠ [] then [("meta", .dict kwargs)] else [])
        ++ raw.toList.map fun r => ("raw", r)))
  | failure {code message : String} {detail : Option PyVal} {status : Option Nat}
      (hcode : code ∈ errorCodes)
      (hinternal : code = "internal_error" → detail = none ∧ status = none) :
      Envelope cfg asked (.dict ([("ok", .bool false), ("error", .str code),
          ("message", .str message)]
        ++ (detail.toList.map fun d => ("detail", d))
        ++ (status.toList.map fun s => ("status", .int s))))

/-- Whether the call asks for the raw payload, itself or by the configured default. -/
def ToolCall.asksRaw (cfg : Config) : ToolCall → Bool
  | .iseGetEndpointByMac _ inc | .iseGetEndpointById _ inc | .iseGetEndpointByIp _ inc
  | .iseSearchEndpoints _ _ _ inc | .iseGetActiveSessionByMac _ inc
  | .iseGetActiveSessionByIp _ inc | .iseGetAuthLogsByMac _ _ _ inc
  | .iseListNetworkDevices _ _ _ inc | .iseGetUserSessionsByUsername _ inc
  | .iseListSecurityGroups _ _ inc | .iseListSgacls _ _ inc
  | .iseListAuthorizationProfiles _ _ inc => includeRaw cfg inc
  | _ => false

/-! ## The constructors of `responses.py` -/

theorem redact_redact (x : PyVal) : redact (redact x) = redact x := redactAt_redactAt 0 x

section

variable {cfg : Config} {asked : Bool}

theorem envelope_ok {data raw : PyVal} {inc : Bool} {kwargs : List (String × PyVal)}
    (hmeta : Meta cfg (redact data) kwargs) (hinc : inc = true → asked = true) :
    Envelope cfg asked (ok data raw inc kwargs) := by
  by_cases hraw : inc = true ∧ raw ≠ .none
  · have h := @Envelope.success cfg asked _ _ (some (redact raw)) (redact_redact data) hmeta
      fun r hr => by
        cases hr
        exact ⟨redact_redact raw, hinc hraw.1⟩
    rw [ok, if_pos hraw]
    exact h
  · have h := @Envelope.success cfg asked _ _ none (redact_redact data) hmeta nofun
    rw [ok, if_neg hraw]
    exact h

theorem envelope_okData (data : PyVal) : Envelope cfg asked (okData data) :=
  envelope_ok .nothing nofun

theorem envelope_error (e : PyExc) : Envelope cfg asked (error e) := by
  unfold error
  cases hcode : errorCode e.type with
  | none =>
      exact @Envelope.failure cfg asked _ _ none none (by decide) fun _ => ⟨rfl, rfl⟩
  | some code =>
      have hknown : code ∈ errorCodes ∧ code ≠ "internal_error" := by
        cases htype : e.type <;> rw [htype] at hcode <;> cases hcode <;> decide
      exact .failure hknown.1 fun h => absurd h hknown.2

/-- `returned` counts what is listed. -/
theorem envelope_paged {items : List PyVal} {page size : Int} {total raw : PyVal} {inc : Bool}
    (hsize : 1 ≤ size ∧ size ≤ max 1 cfg.maxPageSize) (hinc : inc = true → asked = true) :
    Envelope cfg asked (paged items page size total raw inc) := by
  have hlist : redact (.list items) = .list (redactElems 0 items) := rfl
  have hlength : (redactElems 0 items).length = items.length := by
    rw [redactElems_eq_map, List.length_map]
  refine envelope_ok ?_ hinc
  rw [← hlength]
  by_cases htotal : total = .none
  · rw [if_neg (by simpa using htotal)]
    exact @Meta.page cfg _ _ page size none hlist hsize
  · rw [if_pos htotal]
    exact @Meta.page cfg _ _ page size (some total) hlist hsize

theorem envelope_list {raw v : PyVal} {page size : Int} {inc : Option Bool}
    (hsize : 1 ≤ size ∧ size ≤ max 1 cfg.maxPageSize)
    (hinc : includeRaw cfg inc = true → asked = true)
    (h : listEnvelope cfg raw page size inc = .ok v) : Envelope cfg asked v := by
  unfold listEnvelope at h
  dsimp only at h
  split at h
  all_goals
    obtain ⟨res, _, h⟩ := bind_eq_ok.mp h
    obtain ⟨found, _, h⟩ := bind_eq_ok.mp h
    obtain ⟨elems, _, h⟩ := bind_eq_ok.mp h
    obtain ⟨items, _, h⟩ := bind_eq_ok.mp h
    obtain ⟨total, _, h⟩ := bind_eq_ok.mp h
    cases h
    exact envelope_paged hsize hinc

end

/-! ## The tools -/

/-- What the inner function of a tool returns. -/
theorem fn_envelope {deps : Deps} {call : ToolCall} {t : Tool} (h : call.tool deps = some t)
    (auth : AuthContext) :
    Coro.Returns (Envelope deps.cfg (call.asksRaw deps.cfg)) (t.fn auth) := by
  cases call with
  | iseHealthCheck => cases h
  | iseLogin u p => cases h
  | iseLogout => cases h
  | iseAuthStatus => cases h; exact Coro.returns_pure (envelope_okData _)
  | iseValidateSession => cases h; exact Coro.returns_pure (envelope_okData _)
  | iseWhoami => cases h; exact Coro.returns_pure (envelope_okData _)
  | iseGetEndpointByMac mac inc =>
      cases h
      refine Coro.returns_bind fun m => Coro.returns_bind fun raw => ?_
      exact Coro.returns_bind fun summary => Coro.returns_bind fun data =>
        Coro.returns_pure (envelope_ok .nothing id)
  | iseGetEndpointById eid inc =>
      cases h
      refine Coro.returns_bind fun e => Coro.returns_bind fun raw => ?_
      exact Coro.returns_bind fun summary => Coro.returns_bind fun data =>
        Coro.returns_pure (envelope_ok .nothing id)
  | iseGetEndpointByIp ip inc =>
      cases h
      refine Coro.returns_bind fun addr => Coro.returns_bind fun raw => ?_
      exact Coro.returns_bind fun items => Coro.returns_pure (envelope_ok .nothing id)
  | iseSearchEndpoints filter page size inc =>
      cases h
      refine Coro.returns_bind fun raw => Coro.returns_bind fun items => ?_
      exact Coro.returns_bind fun total =>
        Coro.returns_pure (envelope_paged (clampPageSize_bounds _ size) id)
  | iseGetActiveSessionByMac mac inc =>
      cases h
      exact Coro.returns_bind fun m => Coro.returns_bind fun raw =>
        Coro.returns_pure (envelope_ok .nothing id)
  | iseGetActiveSessionByIp ip inc =>
      cases h
      exact Coro.returns_bind fun addr => Coro.returns_bind fun raw =>
        Coro.returns_pure (envelope_ok .nothing id)
  | iseGetAuthLogsByMac mac seconds records inc =>
      cases h
      exact Coro.returns_bind fun m => Coro.returns_bind fun raw =>
        Coro.returns_pure (envelope_ok .nothing id)
  | iseGetPolicyContextByMac mac =>
      cases h
      exact Coro.returns_bind fun m => Coro.returns_bind fun ctx =>
        Coro.returns_pure (envelope_okData _)
  | iseGetIncidentSummaryByMac mac =>
      cases h
      exact Coro.returns_bind fun m => Coro.returns_bind fun ctx =>
        Coro.returns_pure (envelope_okData _)
  | iseListNetworkDevices filter page size inc =>
      cases h
      exact Coro.returns_bind fun raw => Coro.returns_ofExcept fun _ =>
        envelope_list (clampPageSize_bounds _ size) id
  | iseGetUserSessionsByUsername username inc =>
      cases h
      exact Coro.returns_bind fun user => Coro.returns_bind fun found =>
        Coro.returns_pure (envelope_ok .nothing id)
  | iseGetEndpointGroup gid =>
      cases h
      exact Coro.returns_bind fun gid => Coro.returns_bind fun raw =>
        Coro.returns_pure (envelope_okData _)
  | iseListSecurityGroups page size inc =>
      cases h
      exact Coro.returns_bind fun raw => Coro.returns_ofExcept fun _ =>
        envelope_list (clampPageSize_bounds _ size) id
  | iseListSgacls page size inc =>
      cases h
      exact Coro.returns_bind fun raw => Coro.returns_ofExcept fun _ =>
        envelope_list (clampPageSize_bounds _ size) id
  | iseListAuthorizationProfiles page size inc =>
      cases h
      exact Coro.returns_bind fun raw => Coro.returns_ofExcept fun _ =>
        envelope_list (clampPageSize_bounds _ size) id
  | iseCreateEndpoint mac groupId description =>
      cases h
      exact Coro.returns_bind fun m => Coro.returns_bind fun body => Coro.returns_bind fun raw =>
        Coro.returns_pure (envelope_okData _)
  | iseAssignEndpointGroup endpointId groupId =>
      cases h
      exact Coro.returns_bind fun eid => Coro.returns_bind fun gid => Coro.returns_bind fun raw =>
        Coro.returns_pure (envelope_okData _)
  | iseDeleteEndpoint endpointId =>
      cases h
      exact Coro.returns_bind fun eid => Coro.returns_bind fun raw =>
        Coro.returns_pure (envelope_okData _)

/-- What a finished call of a tool returns. -/
theorem invoke_envelope {deps : Deps} {headers : Option RawHeaders} {call : ToolCall}
    {es : List (Event Ise)} {env : PyVal}
    (hp : Prog.Path (call.invoke deps headers) es (.ret env)) :
    Envelope deps.cfg (call.asksRaw deps.cfg) env := by
  cases ht : call.tool deps with
  | some t =>
      rw [ToolCall.invoke_eq_run ht] at hp
      rcases run_returns hp with ⟨_, e, _, _, rfl⟩ | ⟨auth, _, es₂, r, _, _, hfn, _, rfl⟩
      · exact envelope_error e
      · cases r with
        | error e => exact envelope_error e
        | ok v => exact fn_envelope ht auth es₂ v hfn
  | none =>
      have hname := ToolCall.tool_eq_none_iff.mp ht
      cases call with
      | iseHealthCheck =>
          cases ((Prog.path_ret_iff _ _ _).mp hp).2
          exact envelope_okData _
      | iseLogin u p =>
          change Prog.Path (IseMcp.iseLogin deps u p) es (.ret env) at hp
          unfold IseMcp.iseLogin at hp
          cases hprov : deps.provider with
          | serviceAccount auth =>
              rw [hprov] at hp
              cases ((Prog.path_ret_iff _ _ _).mp hp).2
              exact envelope_error _
          | passthrough validate =>
              rw [hprov] at hp
              obtain ⟨out, es₁, es₂, rfl, _, hout⟩ := (Prog.path_bind_ret_iff _ _ _ _).mp hp
              cases out with
              | error e =>
                  cases ((Prog.path_ret_iff _ _ _).mp hout).2
                  exact envelope_error e
              | ok sess =>
                  cases ((Prog.path_ret_iff _ _ _).mp hout).2
                  exact envelope_ok (.note _) nofun
      | iseLogout =>
          change Prog.Path (IseMcp.iseLogout deps headers) es (.ret env) at hp
          unfold IseMcp.iseLogout at hp
          cases hprov : deps.provider with
          | serviceAccount auth =>
              rw [hprov] at hp
              cases ((Prog.path_ret_iff _ _ _).mp hp).2
              exact envelope_okData _
          | passthrough validate =>
              rw [hprov] at hp
              obtain ⟨out, es₁, es₂, rfl, _, hout⟩ := (Prog.path_bind_ret_iff _ _ _ _).mp hp
              cases ((Prog.path_ret_iff _ _ _).mp hout).2
              exact envelope_okData _
      | _ => simp [ToolCall.name] at hname

/-- **Every reply of a tool is an envelope**, in every run of the server. -/
theorem replies_enveloped {deps : Deps} {env : Env} {moves : List (Move ServerRequest)} {i : Nat}
    {headers : Option RawHeaders} {call : ToolCall} {reply : PyVal}
    (h : (serverRun deps env moves).tasks[i]?
      = some ⟨.tool headers call, .ret (.envelope reply)⟩) :
    Envelope deps.cfg (call.asksRaw deps.cfg) reply := by
  obtain ⟨a, es₁, es₂, _, hinvoke, hret⟩ :=
    (Prog.path_bind_ret_iff _ _ _ _).mp (serverRun_path h)
  cases ((Prog.path_ret_iff _ _ _).mp hret).2
  exact invoke_envelope hinvoke

/-- One endpoint is found, and a page of a thousand is asked for. -/
def pageRun : ServerSys :=
  serverRun accountDeps
    { Env.always 200 with
      outcome := fun _ => .response ⟨200, none, true, "", .ok (.dict [("SearchResult", .dict
        [("total", .int 1), ("resources", .list [.dict [("id", .str "7")]])])])⟩ }
    [.spawn (.tool none (.iseSearchEndpoints none 1 (some 1000) none)), .advance 0, .advance 0,
      .advance 0, .advance 0]

theorem replies_enveloped_page :
    ∃ item, Envelope accountDeps.cfg false (paged [item] 1 500 (.int 1) .none false) := by
  have hreply : ∃ item, pageRun.tasks[0]? = some
      ⟨.tool none (.iseSearchEndpoints none 1 (some 1000) none),
        .ret (.envelope (paged [item] 1 500 (.int 1) .none false))⟩ := ⟨_, rfl⟩
  obtain ⟨item, h⟩ := hreply
  exact ⟨item, replies_enveloped h⟩

end IseMcp
