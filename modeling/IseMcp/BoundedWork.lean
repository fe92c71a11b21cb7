import IseMcp.Interaction.Cost
import IseMcp.Tools.Asks
import IseMcp.WriteSafety

set_option autoImplicit false

/-! # How much a request can make the server do

One lookup is sent at most four times with at most three waits in between, and a tool makes at
most five lookups. So whatever ISE answers, each request of a client is bounded in the calls that it
makes of each kind, and the traffic to ISE is at most twenty requests for each request of a client
(`work_bounded`).
-/

namespace IseMcp

open Python Interaction

/-! ## Weights -/

/-- The kinds of calls. A step on the tables reads, opens or ends a session, or exchanges a code. -/
inductive Op.Kind where
  | invoke
  | send
  | backoff
  | probe
  | tables
  | issue
  | audit
  | log
  deriving DecidableEq

def Op.kind : Op → Op.Kind
  | .invoke _ => .invoke
  | .send _ => .send
  | .backoff _ _ => .backoff
  | .probe _ => .probe
  | .createSession _ _ | .getSession _ | .deleteSession _ | .popCode _ => .tables
  | .issueCode _ => .issue
  | .audit _ => .audit
  | .log _ => .log

/-- One for a call of the kind `k`. -/
def Op.Kind.one (k k' : Op.Kind) : Nat := if k' = k then 1 else 0

/-- The weight that counts the calls of the kind `k`. -/
def Op.count (k : Op.Kind) (o : Op) : Nat := k.one o.kind

/-- The requests that leave the server. -/
def Op.traffic (o : Op) : Nat := o.count .send + o.count .probe

def ServerRequest.lookups : ServerRequest → Nat
  | .tool _ call => call.lookups
  | _ => 0

/-- The most calls of each kind: a lookup is sent at most four times, with three waits and a record
of each reply. -/
def ServerRequest.bound (req : ServerRequest) : Op.Kind → Nat
  | .invoke => req.lookups
  | .send => 4 * req.lookups
  | .backoff => 3 * req.lookups
  | .probe => 4
  | .tables => 1
  | .issue => 1
  | .audit => 1
  | .log => 4 * req.lookups + 1

/-! ## One lookup -/

/-- What each step of a tool weighs. -/
structure Weights where
  invoke : Nat
  send : Nat
  backoff : Nat
  getSession : Nat
  audit : Nat
  log : Nat

/-- The most that a lookup weighs: four requests with a record of each reply, and three waits. -/
def Weights.lookup (c : Weights) : Nat := c.invoke + 4 * (c.send + c.log) + 3 * c.backoff

structure Weighs (w : Op → Nat) (c : Weights) : Prop where
  invoke : ∀ r, w (.invoke r) = c.invoke
  send : ∀ h, w (.send h) = c.send
  backoff : ∀ attempt retryAfter, w (.backoff attempt retryAfter) = c.backoff
  getSession : ∀ sid, w (.getSession sid) = c.getSession
  audit : ∀ rec, w (.audit rec) = c.audit
  log : ∀ rec, w (.log rec) = c.log

/-- A program costs at most `n` by the weights `w`. -/
abbrev IoCosts {α : Type} (w : Op → Nat) (n : Nat) (x : Io α) : Prop := Coro.Costs (S := Ise) w n x

section

variable {w : Op → Nat} {c : Weights} {n : Nat}

namespace IseClient

theorem log_costs (hw : Weighs w c) (rec : LogRecord) : IoCosts w c.log (log rec) :=
  (Coro.costs_op (S := Ise) (Op.log rec)).mono (hw.log rec).le

theorem backoff_costs (hw : Weighs w c) (attempt : Nat) (retryAfter : Option String)
    {next : Io PyVal} (hnext : IoCosts w n next) :
    IoCosts w (c.backoff + n) (do backoff attempt retryAfter; next) := by
  rw [← hw.backoff attempt retryAfter]
  exact Coro.costs_bind (Coro.costs_op _) fun _ => hnext

/-- A round sends once; then it ends, or it waits and leaves the rest to the loop. -/
theorem requestOnce_costs (hw : Weighs w c) (cfg : Config) (h : HttpRequest)
    (parse : Parse) (attempt : Nat) (again : Option (Io PyVal))
    (hagain : ∀ next, again = some next →
      ∀ a r, IoCosts w n (do backoff a r; next)) :
    IoCosts w (c.send + (c.log + n)) (requestOnce cfg h parse attempt again) := by
  have hend (resp : HttpResponse) : IoCosts w n (Coro.ofExcept (handleResponse resp parse)) :=
    (Coro.costs_ofExcept _).mono (Nat.zero_le _)
  have hthrow {m : Nat} (e : PyExc) : IoCosts w m (throw e : Io PyVal) :=
    (Coro.costs_throw _).mono (Nat.zero_le _)
  rw [← hw.send h]
  unfold requestOnce
  refine Coro.costs_bind (Coro.costs_op _) fun outcome => ?_
  cases outcome with
  | raised e => cases again <;> exact hthrow e
  | transportError message =>
      cases again with
      | none => exact hthrow _
      | some next => exact (hagain next rfl _ _).mono (Nat.le_add_left _ _)
  | response resp =>
      refine Coro.costs_bind (log_costs hw _) fun _ => ?_
      split_ifs
      · split
        · exact hagain _ rfl _ _
        · exact hthrow _
      · split
        · exact hagain _ rfl _ _
        · exact hend _

/-- With `left` retries left the loop sends at most `left + 1` times and waits at most `left`
times. -/
theorem requestLoop_costs (hw : Weighs w c) (cfg : Config) (h : HttpRequest)
    (parse : Parse) (left : Nat) :
    IoCosts w (c.send + c.log + left * (c.backoff + (c.send + c.log)))
      (requestLoop cfg h parse left) := by
  induction left with
  | zero =>
      refine (requestOnce_costs (n := 0) hw cfg h parse _ none fun next hnext => ?_).mono (by omega)
      cases hnext
  | succ left ih =>
      have hround := requestOnce_costs hw cfg h parse (maxRetries - left)
        (some (requestLoop cfg h parse left)) (fun next hnext a r => by
          cases hnext
          exact backoff_costs hw a r ih)
      refine hround.mono ?_
      rw [Nat.succ_mul]
      omega

theorem request_costs (hw : Weighs w c) (cfg : Config) (r : IseRequest) :
    IoCosts w c.lookup (request cfg r) := by
  have hinvoke : IoCosts w c.invoke (invoke r) :=
    (Coro.costs_op (S := Ise) (Op.invoke r)).mono (hw.invoke r).le
  refine (Coro.costs_bind hinvoke fun _ => Coro.costs_ofExcept_bind fun auth =>
    requestLoop_costs hw cfg _ r.parse maxRetries).mono ?_
  show c.invoke + (c.send + c.log + 3 * (c.backoff + (c.send + c.log))) ≤ _
  rw [Weights.lookup]
  omega

end IseClient

/-! ## One tool -/

/-- What asks ISE at most `k` times weighs at most `k` lookups. -/
theorem Asks.costs {cfg : Config} (hreq : ∀ r, IoCosts w n (IseClient.request cfg r)) {α : Type}
    {k : Nat} {x : Io α} (h : Asks cfg k x) : IoCosts w (n * k) x := by
  induction h with
  | ofExcept r => exact Coro.costs_ofExcept r
  | request r => exact (hreq r).mono (Nat.mul_one n).ge
  | bind _ _ ihx ihf => exact (Coro.costs_bind ihx ihf).mono (Nat.mul_add n _ _).ge
  | attempt _ ih => exact Coro.costs_attempt ih
  | mono _ hle ih => exact ih.mono (Nat.mul_le_mul_left n hle)

end

/-! ## One request of a client -/

section

variable {w : Op → Nat} {c : Weights}

theorem audit_costs (hw : Weighs w c) (cfg : Config) (actor : String) (t : Tool) (status : String)
    (detail : Option String) :
    Prog.Costs (S := Ise) w c.audit (audit cfg actor t status detail) := by
  unfold audit
  split_ifs
  · exact (Prog.costs_op (S := Ise) _).mono (hw.audit _).le
  · exact (Prog.costs_ret _).mono (Nat.zero_le _)

theorem fail_costs (hw : Weighs w c) (cfg : Config) (actor : String) (t : Tool) (e : PyExc) :
    Prog.Costs (S := Ise) w (c.audit + c.log) (fail cfg actor t e) := by
  refine (audit_costs hw cfg actor t _ _).bind fun _ => ?_
  rw [← hw.log (.toolError t.name e.type.name)]
  exact (Prog.costs_op (S := Ise) _).bind (n := 0) fun _ => Prog.costs_ret _

theorem resolveAuth_costs (hw : Weighs w c) (deps : Deps) (headers : Option RawHeaders) :
    IoCosts w c.getSession (deps.resolveAuth headers) := by
  refine Coro.costs_ofExcept_bind fun isKey => ?_
  cases isKey with
  | true => exact (Coro.costs_pure _).mono (Nat.zero_le _)
  | false =>
      cases deps.provider with
      | serviceAccount auth => exact (Coro.costs_pure _).mono (Nat.zero_le _)
      | passthrough validate =>
          rw [← hw.getSession (deps.sessionId headers)]
          refine Coro.costs_bind_pure (Coro.costs_op _) fun found => ?_
          cases found with
          | none => exact Coro.costs_throw _
          | some sess => exact Coro.costs_pure _

/-- The most that a tool weighs with its lookups. -/
def Weights.tool (c : Weights) (lookups : Nat) : Nat :=
  c.getSession + (c.lookup * lookups + (c.audit + c.log))

theorem run_costs (hw : Weighs w c) {deps : Deps} {headers : Option RawHeaders}
    {call : ToolCall} {t : Tool} (h : call.tool deps = some t) :
    Prog.Costs (S := Ise) w (c.tool call.lookups) (run deps headers t) := by
  have hfail (actor : String) (e : PyExc) :
      Prog.Costs (S := Ise) w (c.audit + c.log) (fail deps.cfg actor t e) :=
    fail_costs hw deps.cfg actor t e
  cases hg : gates deps.cfg t with
  | error e =>
      rw [run_refused hg]
      refine (hfail _ _).mono ?_
      rw [Weights.tool]
      omega
  | ok _ =>
      rw [run_admitted hg]
      refine Prog.Costs.bind (resolveAuth_costs hw deps headers) fun r => ?_
      cases r with
      | error e => exact (hfail _ _).mono (Nat.le_add_left _ _)
      | ok auth =>
          refine Prog.Costs.bind
            ((fn_asks h auth).costs fun r => IseClient.request_costs hw deps.cfg r) fun out => ?_
          cases out with
          | error e => exact hfail _ _
          | ok result =>
              exact ((audit_costs hw _ _ _ _ _).bind (n := 0) fun _ => Prog.costs_ret _).mono
                (Nat.le_add_right _ _)

/-- The work of a gated tool. -/
theorem gated_costs (hw : Weighs w c) {deps : Deps} {headers : Option RawHeaders}
    {call : ToolCall} (h : (call.tool deps).isSome) :
    Prog.Costs (S := Ise) w (c.tool call.lookups)
      ((ServerRequest.tool headers call).program deps) := by
  obtain ⟨t, ht⟩ := Option.isSome_iff_exists.mp h
  rw [gated_program ht]
  exact (run_costs hw ht).bind (n := 0) fun _ => Prog.costs_ret _

end

section

variable {w : Op → Nat}

theorem IseClient.probeLoop_costs (h : HttpRequest) (left : Nat) :
    IoCosts w (w (.probe h) * left) (probeLoop h left) := by
  induction left with
  | zero => exact Coro.costs_pure true
  | succ left ih =>
      rw [Nat.mul_succ, Nat.add_comm]
      refine Coro.costs_bind (Coro.costs_op _) fun outcome => ?_
      cases outcome with
      | raised e => exact (Coro.costs_throw e).mono (Nat.zero_le _)
      | transportError message => exact (Coro.costs_throw _).mono (Nat.zero_le _)
      | response r =>
          dsimp only
          split_ifs
          · exact (Coro.costs_pure false).mono (Nat.zero_le _)
          · exact (Coro.costs_throw _).mono (Nat.zero_le _)
          · exact ih

theorem IseClient.validateCredentials_costs {n : Nat} (hn : ∀ h, w (.probe h) ≤ n)
    (cfg : Config) (username password : String) :
    IoCosts w (n * 4) (validateCredentials cfg username password) := by
  unfold validateCredentials
  split_ifs
  · exact (Coro.costs_pure false).mono (Nat.zero_le _)
  · exact (probeLoop_costs _ 4).mono (Nat.mul_le_mul_right 4 (hn _))

/-- What each step outside of `run` weighs at most: a probe, a step on the tables, and the issue of
a code. -/
structure UngatedWeighs (w : Op → Nat) (p a c : Nat) : Prop where
  probe : ∀ h, w (.probe h) ≤ p
  lookup : ∀ o, Op.IsLookup o → w o ≤ a
  create : ∀ u auth, w (.createSession u auth) ≤ a
  issue : ∀ grant, w (.issueCode grant) ≤ c

variable {p a c : Nat} {deps : Deps}

theorem sessionValid_costs (hw : UngatedWeighs w p a c) (tok : Option String) :
    IoCosts w a (deps.sessionValid tok) := by
  refine Coro.costs_ofExcept_bind fun isKey => ?_
  cases isKey with
  | true => exact (Coro.costs_pure _).mono (Nat.zero_le _)
  | false =>
      cases deps.provider with
      | serviceAccount auth => exact (Coro.costs_pure _).mono (Nat.zero_le _)
      | passthrough validate =>
          show IoCosts w a (PassthroughProvider.sessionValid tok)
          unfold PassthroughProvider.sessionValid
          split_ifs
          · refine Coro.costs_bind_pure ?_ fun _ => Coro.costs_pure _
            exact (Coro.costs_op _).mono (hw.lookup _ (.getSession _))
          · exact (Coro.costs_pure _).mono (Nat.zero_le _)

theorem gate_costs (hw : UngatedWeighs w p a c) (scope : Scope) :
    IoCosts w a (RequireAuthOnMcp.call deps scope) := by
  unfold RequireAuthOnMcp.call
  split_ifs
  · refine Coro.costs_ofExcept_bind fun headers => ?_
    refine Coro.costs_bind_pure (sessionValid_costs hw _) fun valid => ?_
    cases valid <;> exact Coro.costs_pure _
  · exact (Coro.costs_pure _).mono (Nat.zero_le _)

/-- A login takes four probes, and opens its session. -/
theorem login_costs (hw : UngatedWeighs w p a c) (hb : deps.Built) {validate : Validator}
    (hp : deps.provider = .passthrough validate) (username password : String) :
    IoCosts w (p * 4 + a) (PassthroughProvider.login validate username password) := by
  rw [hb.validator hp]
  unfold PassthroughProvider.login
  split_ifs
  · exact (Coro.costs_throw _).mono (Nat.zero_le _)
  · refine Coro.costs_bind (Coro.costs_attempt
      (IseClient.validateCredentials_costs hw.probe deps.cfg username password)) fun found => ?_
    rcases found with e | _ | _
    · exact (Coro.costs_throw _).mono (Nat.zero_le _)
    · exact (Coro.costs_throw _).mono (Nat.zero_le _)
    · exact (Coro.costs_op _).mono (hw.create _ _)

theorem token_costs (hw : UngatedWeighs w p a c) (hb : deps.Built) (r : TokenRequest) :
    IoCosts w (p * 4 + a) (token deps r) := by
  have hnone (reply : HttpReply) : IoCosts w (p * 4 + a) (pure reply : Io HttpReply) :=
    (Coro.costs_pure _).mono (Nat.zero_le _)
  unfold token
  cases hp : deps.provider with
  | serviceAccount auth => exact hnone _
  | passthrough validate =>
      dsimp only
      split_ifs
      · rcases clientCreds r with ⟨_ | username, _ | password⟩
        · exact hnone _
        · exact hnone _
        · exact hnone _
        · dsimp only
          split_ifs
          · exact hnone _
          · exact Coro.costs_bind_pure (Coro.costs_attempt (login_costs hw hb hp username password))
              fun _ => Coro.costs_pure _
      · refine Coro.costs_bind_pure (Coro.costs_ofExcept_bind fun known => ?_) fun _ =>
          Coro.costs_pure _
        cases known with
        | false => exact (Coro.costs_pure _).mono (Nat.zero_le _)
        | true =>
            have hpop (code : Option String) : IoCosts w a (popCode code) :=
              (Coro.costs_op _).mono (hw.lookup _ (.popCode _))
            exact (Coro.costs_bind_pure (hpop _) fun _ => Coro.costs_ofExcept _).mono
              (Nat.le_add_left _ _)
      · exact (Coro.costs_ofExcept_bind fun _ => Coro.costs_pure _).mono (Nat.zero_le _)
      · exact hnone _

/-- A login, and the issue of a code for its session. -/
theorem authorizePost_costs (hw : UngatedWeighs w p a c) (hb : deps.Built)
    (form : List (String × String)) : IoCosts w (p * 4 + a + c) (authorizePost deps form) := by
  have hnone (reply : HttpReply) : IoCosts w (p * 4 + a + c) (pure reply : Io HttpReply) :=
    (Coro.costs_pure _).mono (Nat.zero_le _)
  unfold authorizePost
  cases hp : deps.provider with
  | serviceAccount auth => exact hnone _
  | passthrough validate =>
      refine Coro.costs_ofExcept_bind fun known => ?_
      split_ifs
      · refine Coro.costs_bind_pure (Coro.costs_attempt ?_) fun _ => Coro.costs_pure _
        refine Coro.costs_bind (login_costs hw hb hp _ _) fun sess => ?_
        exact (Coro.costs_op _).mono (hw.issue _)
      · exact hnone _
      · exact hnone _

/-- What does not go through `run` costs at most a login and the issue of a code. -/
theorem ungated_costs (hw : UngatedWeighs w p a c) (hb : deps.Built) {req : ServerRequest}
    (h : ¬ req.Gated deps) : Prog.Costs (S := Ise) w (p * 4 + a + c) (req.program deps) := by
  have hend {α : Type} {x : Prog Ise α} {n : Nat} (hx : Prog.Costs (S := Ise) w n x)
      (hn : n ≤ p * 4 + a + c) (f : α → ServerReply) :
      Prog.Costs (S := Ise) w (p * 4 + a + c) (x >>= fun r => .ret (f r)) :=
    (hx.bind (n := 0) fun _ => Prog.costs_ret _).mono hn
  cases req with
  | gate scope => exact hend (gate_costs hw scope) (by omega) _
  | tool headers call =>
      have hnone := Option.not_isSome_iff_eq_none.mp h
      have hname := ToolCall.tool_eq_none_iff.mp hnone
      cases call with
      | iseHealthCheck => exact hend (Prog.costs_ret _) (Nat.zero_le _) _
      | iseLogin username password =>
          refine hend (x := iseLogin deps username password) (n := p * 4 + a) ?_ (by omega) _
          unfold iseLogin
          cases hp : deps.provider with
          | serviceAccount auth => exact (Prog.costs_ret _).mono (Nat.zero_le _)
          | passthrough validate =>
              refine Prog.Costs.bind (n := 0) (login_costs hw hb hp username password) fun r => ?_
              cases r <;> exact Prog.costs_ret _
      | iseLogout =>
          refine hend (x := iseLogout deps headers) (n := a) ?_ (by omega) _
          unfold iseLogout
          cases deps.provider with
          | serviceAccount auth => exact (Prog.costs_ret _).mono (Nat.zero_le _)
          | passthrough validate =>
              refine Prog.Costs.mono (m := _ + 0) (Prog.costs_call fun _ => Prog.costs_ret _) ?_
              exact hw.lookup _ (.deleteSession _)
      | _ => simp [ToolCall.name] at hname
  | token r => exact hend (token_costs hw hb r) (by omega) _
  | authorizeGet q => exact (Prog.costs_ret _).mono (Nat.zero_le _)
  | authorizePost form => exact hend (authorizePost_costs hw hb form) le_rfl _

/-- The work of a request: that of a gated tool, or that of a login and the issue of a code. -/
theorem program_costs {cs : Weights} (hg : Weighs w cs) (hu : UngatedWeighs w p a c)
    (hb : deps.Built) (req : ServerRequest) :
    Prog.Costs (S := Ise) w (max (cs.tool req.lookups) (p * 4 + a + c)) (req.program deps) := by
  by_cases h : req.Gated deps
  · cases req with
    | tool headers call => exact (gated_costs hg h).mono (le_max_left _ _)
    | _ => exact h.elim
  · exact (ungated_costs hu hb h).mono (le_max_right _ _)

end

/-! ## Calls of each kind -/

theorem count_weighs (k : Op.Kind) : Weighs (Op.count k)
    ⟨k.one .invoke, k.one .send, k.one .backoff, k.one .tables, k.one .audit, k.one .log⟩ :=
  ⟨fun _ => rfl, fun _ => rfl, fun _ _ => rfl, fun _ => rfl, fun _ => rfl, fun _ => rfl⟩

theorem count_ungated (k : Op.Kind) :
    UngatedWeighs (Op.count k) (k.one .probe) (k.one .tables) (k.one .issue) :=
  ⟨fun _ => le_rfl, fun _ ho => by cases ho <;> exact le_rfl, fun _ _ => le_rfl, fun _ => le_rfl⟩

theorem traffic_weighs : Weighs Op.traffic ⟨0, 1, 0, 0, 0, 0⟩ :=
  ⟨fun _ => rfl, fun _ => rfl, fun _ _ => rfl, fun _ => rfl, fun _ => rfl, fun _ => rfl⟩

theorem traffic_ungated : UngatedWeighs Op.traffic 1 0 0 :=
  ⟨fun _ => le_rfl, fun _ ho => by cases ho <;> exact le_rfl, fun _ _ => le_rfl, fun _ => le_rfl⟩

/-- What a request does is bounded for each kind of call; a gated tool neither probes nor issues a
code. -/
structure ServerRequest.Bounded (deps : Deps) (req : ServerRequest) (es : List (Event Ise)) :
    Prop where
  calls : ∀ k, cost (Op.count k) es ≤ req.bound k
  gated : req.Gated deps → cost (Op.count .probe) es = 0 ∧ cost (Op.count .issue) es = 0

theorem program_bounded {deps : Deps} (hb : deps.Built) (req : ServerRequest)
    {es : List (Event Ise)} {q : Prog Ise ServerReply} (hp : Prog.Path (req.program deps) es q) :
    req.Bounded deps es := by
  refine ⟨fun k => ?_, fun hg => ?_⟩
  · refine (program_costs (count_weighs k) (count_ungated k) hb req es q hp).trans ?_
    simp only [Weights.tool, Weights.lookup]
    cases k <;> simp only [Op.Kind.one, ServerRequest.bound, reduceCtorEq, if_true, if_false] <;>
      omega
  · cases req with
    | tool headers call =>
        have hprobes := gated_costs (count_weighs .probe) hg es q hp
        have hissues := gated_costs (count_weighs .issue) hg es q hp
        simp only [Weights.tool, Weights.lookup, Op.Kind.one, reduceCtorEq, if_false]
          at hprobes hissues
        omega
    | _ => exact hg.elim

theorem ServerRequest.lookups_le_five (req : ServerRequest) : req.lookups ≤ 5 := by
  cases req with
  | tool headers call => exact lookups_le call
  | _ => exact Nat.zero_le 5

/-- The requests that a client's request makes the server send: at most twenty. -/
theorem program_traffic {deps : Deps} (hb : deps.Built) (req : ServerRequest) :
    Prog.Costs (S := Ise) Op.traffic 20 (req.program deps) := by
  refine (program_costs traffic_weighs traffic_ungated hb req).mono ?_
  have hlookups := req.lookups_le_five
  simp only [Weights.tool, Weights.lookup]
  omega

/-- **A bounded amount of work for every request**, whatever ISE answers and however the requests
interleave; and at most twenty requests to ISE for each request of a client in the whole run. -/
theorem work_bounded {deps : Deps} (hb : deps.Built) (env : Env)
    (moves : List (Move ServerRequest)) :
    (∀ i (t : Task Ise ServerRequest ServerReply),
      (serverRun deps env moves).tasks[i]? = some t →
      t.req.Bounded deps (eventsOf (serverRun deps env moves).log i)) ∧
    cost Op.traffic ((serverRun deps env moves).log.map (·.event))
      ≤ 20 * (serverRun deps env moves).tasks.length :=
  ⟨fun _ t ht => program_bounded hb t.req (serverRun_path ht),
    run_cost_le (program_traffic hb) _ _⟩

/-- An ISE that is not available: the creation of an endpoint is sent four times. -/
def unavailableMoves : List (Move ServerRequest) :=
  .spawn (.tool none (.iseCreateEndpoint "aabbccddeeff" none "")) :: List.replicate 14 (.advance 0)

/-- The bounds are attained. -/
theorem work_bounded_unavailable :
    (cost (Op.count .send)
        (eventsOf (serverRun writeDeps (.always 503) unavailableMoves).log 0) = 4 ∧
      cost (Op.count .backoff)
        (eventsOf (serverRun writeDeps (.always 503) unavailableMoves).log 0) = 3) ∧
    cost Op.traffic ((serverRun writeDeps (.always 503) unavailableMoves).log.map (·.event))
      ≤ 20 * (serverRun writeDeps (.always 503) unavailableMoves).tasks.length :=
  ⟨⟨by rfl, by rfl⟩, (@work_bounded writeDeps rfl (.always 503) unavailableMoves).2⟩

end IseMcp
