import IseMcp.Server

set_option autoImplicit false

/-! # Write safety of the tool surface

The only requests with a method other than GET are those of the three write tools
(`mayRequest_shape`, over every tool and every nested lookup). A write tool is registered with
`write=True` (`tool_write`), so `run` asks `assert_write_allowed` before it resolves the caller, and
resolves the caller before the tool's function runs (`gated_calls`). `write_safety` says it of the
log of every run of the server.
-/

namespace IseMcp

open Python Interaction

/-! ## Methods -/

/-- The method with which an operation enters `IseClient.request` or is handed to the HTTP
client. -/
def Op.method : Op → Option HttpMethod
  | .invoke r => some r.method
  | .send h | .probe h => some h.method
  | _ => none

theorem ofRequest_method {r : IseRequest} {o : Op} (h : IseClient.OfRequest r o)
    {method : HttpMethod} (hm : o.method = some method) : r.method = method := by
  cases h with
  | invoke => exact Option.some.inj hm
  | send _ => exact Option.some.inj hm
  | backoff _ _ => cases hm
  | log _ => cases hm

/-! ## Write tools -/

/-- A tool whose method is not GET is registered as a write, under a name of the write tools; the
one that deletes is a dangerous tool. -/
theorem tool_write {deps : Deps} {call : ToolCall} {t : Tool} (ht : call.tool deps = some t)
    (hm : call.method ≠ .get) :
    t.write = true ∧ call.name ∈ writeTools ∧
      (call.method = .delete → call.name ∈ dangerousTools) := by
  cases call with
  | iseCreateEndpoint mac gid description =>
      cases ht
      exact ⟨rfl, by simp [ToolCall.name, writeTools], fun hdel => by cases hdel⟩
  | iseAssignEndpointGroup eid gid =>
      cases ht
      exact ⟨rfl, by simp [ToolCall.name, writeTools], fun hdel => by cases hdel⟩
  | iseDeleteEndpoint eid =>
      cases ht
      exact ⟨rfl, by simp [ToolCall.name, writeTools], fun _ => by
        simp [ToolCall.name, dangerousTools]⟩
  | _ => exact absurd rfl hm

theorem gates_ok {cfg : Config} {t : Tool} (h : gates cfg t = .ok ()) :
    isToolEnabled cfg t.name = true ∧ (t.write = true → assertWriteAllowed cfg t.name = .ok ()) := by
  obtain ⟨_, he, h⟩ := bind_eq_ok.mp h
  refine ⟨assertToolEnabled_ok_iff.mp he, fun hw => ?_⟩
  rw [if_pos hw] at h
  exact h

/-! ## The log -/

/-- The call is of a write tool that is enabled, on a server in readwrite mode, and resolving its
caller has succeeded among the steps `es`. -/
structure WriteAdmitted (deps : Deps) (headers : Option RawHeaders) (call : ToolCall)
    (es : List (Event Ise)) : Prop where
  write : call.name ∈ writeTools
  enabled : isToolEnabled deps.cfg call.name = true
  readwrite : lower deps.cfg.mcpMode = "readwrite"
  resolved : ∃ auth es₁ es₂, es = es₁ ++ es₂ ∧
    Prog.Path (deps.resolveAuth headers).run es₁ (.ret (.ok auth))

/-- Every entry into `IseClient.request` and every use of the HTTP client with a method other
than GET is made by an admitted call of a write tool, and a DELETE only with the dangerous tools
enabled. -/
def WriteSafe (deps : Deps) (s : ServerSys) : Prop :=
  ∀ pre e post method, s.log = pre ++ e :: post → e.event.1.method = some method →
    method ≠ .get →
    ∃ headers call left, s.tasks[e.task]? = some ⟨.tool headers call, left⟩ ∧
      WriteAdmitted deps headers call (eventsOf pre e.task) ∧
      (method = .delete → deps.cfg.enableDangerousTools = true)

/-- Requests for anything but a gated tool write nothing to ISE: logins only send probes. -/
theorem ungated_reads {o : Op} (h : o.Ungated) {method : HttpMethod} (hm : o.method = some method) :
    method = .get := by
  cases h with
  | lookup h => cases h <;> cases hm
  | probe hget => exact (Option.some.inj hm).symm.trans hget
  | createSession username auth => cases hm
  | issueCode grant => cases hm

/-- **Write safety**: whatever is asked of the server, in whatever interleaving, and however ISE
answers. -/
theorem write_safety (deps : Deps) (hb : deps.Built) (env : Env)
    (moves : List (Move ServerRequest)) : WriteSafe deps (serverRun deps env moves) := by
  intro pre e post method hlog hm hne
  obtain ⟨req, left, k, htask, hpath⟩ := serverRun_call hlog
  by_cases hgated : req.Gated deps
  · cases req with
    | tool headers call =>
        obtain ⟨t, ht⟩ := Option.isSome_iff_exists.mp hgated
        rcases gated_calls ht hpath with hrec | ⟨hgates, ⟨k', hres⟩ | hfn⟩
        · rcases hrec with ⟨rec, hrec⟩ | ⟨rec, hrec⟩ <;> rw [hrec] at hm <;> cases hm
        · obtain ⟨sid, hsid⟩ := (resolveAuth_only deps headers).next hres
          rw [hsid] at hm
          cases hm
        · obtain ⟨auth, es₁, es₂, r, hes, hres, hr, hof⟩ := hfn
          -- the request has the method of its tool, as lookups only read
          have hr' := ofRequest_method hof hm
          have hcall : call.method = method := by
            rcases (mayRequest_shape hr).1 with h | h
            · rw [← h, hr']
            · exact absurd (hr'.symm.trans h) hne
          obtain ⟨hwrite, hname, hdangerous⟩ := tool_write ht (by rw [hcall]; exact hne)
          have hallowed := (gates_ok hgates).2 hwrite
          rw [ToolCall.tool_name ht] at hallowed
          obtain ⟨henabled, hmode, hflag⟩ := assertWriteAllowed_ok hname hallowed
          refine ⟨headers, call, left, htask, ⟨hname, henabled, ?_, auth, es₁, es₂, hes, hres⟩, ?_⟩
          · simpa [Config.isReadonly] using hmode
          · intro hdel
            exact hflag (hdangerous (hcall.trans hdel))
    | gate scope => exact hgated.elim
    | token r => exact hgated.elim
    | authorizeGet q => exact hgated.elim
    | authorizePost form => exact hgated.elim
  · exact absurd (ungated_reads ((ungated_only hb hgated).next hpath) hm) hne

/-- A readwrite server with a service account. -/
def writeDeps : Deps where
  cfg := { accountDeps.cfg with mcpMode := "readwrite" }
  provider := accountDeps.provider
  fromstring := accountDeps.fromstring

/-- The endpoint with this MAC is created. -/
def createMoves : List (Move ServerRequest) :=
  [.spawn (.tool none (.iseCreateEndpoint "aabbccddeeff" none "")), .advance 0]

/-- The first step of that run enters `request` with POST, so its call was admitted. -/
theorem write_safety_create :
    ∃ headers call left, (serverRun writeDeps (.always 201) createMoves).tasks[0]?
        = some ⟨.tool headers call, left⟩ ∧ WriteAdmitted writeDeps headers call [] ∧
      (HttpMethod.post = .delete → writeDeps.cfg.enableDangerousTools = true) := by
  have hlog : (serverRun writeDeps (.always 201) createMoves).log
      = [] ++ ⟨0, .initial 3600 900, ⟨Op.invoke (ErsApi.writeRequest writeDeps.cfg .post
          "/ers/config/endpoint" ⟨"svc", "service_account", "pw", ""⟩
          (some (.dict [("mac", .str "AA:BB:CC:DD:EE:FF"), ("description", .str "")]))), ()⟩⟩ :: [] := by
    rfl
  exact write_safety writeDeps rfl (.always 201) createMoves _ _ _ _ hlog rfl nofun

end IseMcp
