import IseMcp.Authorize
import IseMcp.GateAgreement

set_option autoImplicit false

/-! # What a request can do

One relation for all requests (`ServerRequest.MayDo`), with the arguments that each step takes from
its request: the session that is presented, the credentials that are checked, the code that is
exchanged. `program_may` says that no request does anything else.
-/

namespace IseMcp

open Python Interaction

/-- The arguments of `exchange_code` for a request to `/token`. -/
def TokenRequest.exchangeArgs (r : TokenRequest) : ExchangeArgs :=
  ⟨lastValue r.form "code", lastValue r.form "redirect_uri", (clientCreds r).1, (clientCreds r).2,
    (lastValue r.form "code_verifier").map PyStr.ofString⟩

namespace ServerRequest

/-- The request asks for a login with these credentials. -/
def LogsIn (deps : Deps) (u p : String) : ServerRequest → Prop
  | .tool _ (.iseLogin username password) => username = u ∧ password = p
  | .token r => r.grantType = "client_credentials" ∧ clientCreds r = (some u, some p)
  | .authorizePost form => ClientAllowed deps.cfg form ∧
      (loginArgs form).username = u ∧ (loginArgs form).password = p
  | _ => False

inductive MayDo (deps : Deps) : ServerRequest → Op → Prop where
  | gate {scope : Scope} {tok : Option String} (h : gateToken deps scope = .ok tok) :
      MayDo deps (.gate scope) (.getSession tok)
  | caller {headers : Option RawHeaders} {call : ToolCall} (h : (call.tool deps).isSome) :
      MayDo deps (.tool headers call) (.getSession (deps.sessionId headers))
  | request {headers : Option RawHeaders} {call : ToolCall} {auth : AuthContext} {r : IseRequest}
      {o : Op} (hr : call.MayRequest deps.cfg auth r) (ho : IseClient.OfRequest r o) :
      MayDo deps (.tool headers call) o
  | record {headers : Option RawHeaders} {call : ToolCall} {o : Op} (h : o.IsRecord) :
      MayDo deps (.tool headers call) o
  | logout (headers : Option RawHeaders) :
      MayDo deps (.tool headers .iseLogout) (.deleteSession (deps.sessionId headers))
  | probe {req : ServerRequest} {u p : String} (h : req.LogsIn deps u p) :
      MayDo deps req (.probe (IseClient.probeRequest deps.cfg u p))
  | login {req : ServerRequest} {u p : String} (h : req.LogsIn deps u p) :
      MayDo deps req (.createSession u (PassthroughProvider.authContext u p))
  | issue {form : List (String × String)} (h : ClientAllowed deps.cfg form) (sess : Session) :
      MayDo deps (.authorizePost form)
        (.issueCode (OAuthServer.grantOf deps.cfg (loginArgs form) sess))
  | exchange {r : TokenRequest} (hgrant : r.grantType = "authorization_code")
      (hclient : OAuthServer.clientOk deps.cfg (clientCreds r).1 (clientCreds r).2 = .ok true) :
      MayDo deps (.token r) (.popCode (lastValue r.form "code"))

end ServerRequest

section

variable {deps : Deps}

/-! ## The steps of each request -/

theorem sessionValid_reads (tok : Option String) :
    Coro.Only (fun o => o = Op.getSession tok) (deps.sessionValid tok) := by
  refine Coro.only_ofExcept_bind fun isKey _ => ?_
  cases isKey with
  | true => exact Coro.only_pure _
  | false =>
      cases deps.provider with
      | serviceAccount auth => exact Coro.only_pure _
      | passthrough validate =>
          show Coro.Only _ (PassthroughProvider.sessionValid tok)
          unfold PassthroughProvider.sessionValid
          split_ifs
          · exact Coro.only_bind (Coro.only_op rfl) fun _ => Coro.only_pure _
          · exact Coro.only_pure _

theorem gate_may (scope : Scope) :
    Coro.Only (ServerRequest.MayDo deps (.gate scope)) (RequireAuthOnMcp.call deps scope) := by
  unfold RequireAuthOnMcp.call
  split_ifs
  · refine Coro.only_ofExcept_bind fun headers hheaders => ?_
    refine Coro.only_bind ((sessionValid_reads _).mono ?_) fun valid => ?_
    · rintro o rfl
      refine .gate ?_
      rw [gateToken, hheaders]
      rfl
    · cases valid <;> exact Coro.only_pure _
  · exact Coro.only_pure _

theorem resolveAuth_reads (headers : Option RawHeaders) :
    Coro.Only (fun o => o = Op.getSession (deps.sessionId headers)) (deps.resolveAuth headers) := by
  refine Coro.only_ofExcept_bind fun isKey _ => ?_
  cases isKey with
  | true => exact Coro.only_pure _
  | false =>
      cases deps.provider with
      | serviceAccount auth => exact Coro.only_pure _
      | passthrough validate =>
          refine Coro.only_bind (Coro.only_op rfl) fun found => ?_
          cases found with
          | none => exact Coro.only_throw _
          | some sess => exact Coro.only_pure _

theorem run_may {headers : Option RawHeaders} {call : ToolCall} {t : Tool}
    (ht : call.tool deps = some t) :
    Prog.Only (ServerRequest.MayDo deps (.tool headers call)) (run deps headers t) := by
  have hfail (actor : String) (e : PyExc) :
      Prog.Only (ServerRequest.MayDo deps (.tool headers call)) (fail deps.cfg actor t e) :=
    (fail_only _ _ _ _).mono fun _ ho => .record ho
  cases hg : gates deps.cfg t with
  | error e =>
      rw [run_refused hg]
      exact hfail _ e
  | ok _ =>
      rw [run_admitted hg]
      refine Prog.Only.bind ((resolveAuth_reads headers).mono ?_) fun r => ?_
      · rintro o rfl
        exact .caller (by rw [ht]; rfl)
      · cases r with
        | error e => exact hfail _ e
        | ok auth =>
            refine Prog.Only.bind ((fn_only ht auth).mono ?_) fun out => ?_
            · rintro o ⟨r, hr, ho⟩
              exact .request hr ho
            · cases out with
              | error e => exact hfail _ e
              | ok v =>
                  exact ((audit_only _ _ _ _ _).mono fun _ ho => .record ho).bind fun _ => .ret _

/-- A login checks its credentials and opens its session. -/
theorem login_may (hb : deps.Built) {validate : Validator}
    (hp : deps.provider = .passthrough validate) {req : ServerRequest} {u p : String}
    (h : req.LogsIn deps u p) :
    Coro.Only (req.MayDo deps) (PassthroughProvider.login validate u p) := by
  refine PassthroughProvider.login_only ?_ (.login h)
  rw [hb.validator hp]
  refine (IseClient.validateCredentials_only deps.cfg u p).mono ?_
  rintro o rfl
  exact .probe h

theorem tool_may (hb : deps.Built) (headers : Option RawHeaders) (call : ToolCall) :
    Prog.Only (ServerRequest.MayDo deps (.tool headers call)) (call.invoke deps headers) := by
  cases ht : call.tool deps with
  | some t =>
      rw [ToolCall.invoke_eq_run ht]
      exact run_may ht
  | none =>
      have hname := ToolCall.tool_eq_none_iff.mp ht
      cases call with
      | iseHealthCheck => exact .ret _
      | iseLogin u p =>
          show Prog.Only _ (iseLogin deps u p)
          unfold iseLogin
          cases hp : deps.provider with
          | serviceAccount auth => exact .ret _
          | passthrough validate =>
              refine Prog.Only.bind (login_may hb hp ⟨rfl, rfl⟩) fun r => ?_
              cases r <;> exact .ret _
      | iseLogout =>
          show Prog.Only _ (iseLogout deps headers)
          unfold iseLogout
          cases deps.provider with
          | serviceAccount auth => exact .ret _
          | passthrough validate => exact .call (.logout headers) fun _ => .ret _
      | _ => simp [ToolCall.name] at hname

theorem exchange_may {r : TokenRequest} (hgrant : r.grantType = "authorization_code") :
    Coro.Only (ServerRequest.MayDo deps (.token r))
      (OAuthServer.exchangeCode deps.cfg r.exchangeArgs) := by
  refine Coro.only_ofExcept_bind fun known hknown => ?_
  cases known with
  | false => exact Coro.only_pure _
  | true =>
      refine Coro.only_bind (Coro.only_op (.exchange hgrant hknown)) fun _ => Coro.only_ofExcept _

theorem token_may (hb : deps.Built) (r : TokenRequest) :
    Coro.Only (ServerRequest.MayDo deps (.token r)) (token deps r) := by
  unfold token
  cases hp : deps.provider with
  | serviceAccount auth => exact Coro.only_pure _
  | passthrough validate =>
      dsimp only
      split_ifs with hcred hcode hrefresh
      · rcases hcreds : clientCreds r with ⟨_ | u, _ | p⟩
        · exact Coro.only_pure _
        · exact Coro.only_pure _
        · exact Coro.only_pure _
        · dsimp only
          split_ifs
          · exact Coro.only_pure _
          · exact Coro.only_bind (Coro.only_attempt (login_may hb hp ⟨hcred, hcreds⟩)) fun _ =>
              Coro.only_pure _
      · exact Coro.only_bind (exchange_may hcode) fun _ => Coro.only_pure _
      · exact Coro.only_ofExcept_bind fun _ _ => Coro.only_pure _
      · exact Coro.only_pure _

theorem authorizePost_may (hb : deps.Built) (form : List (String × String)) :
    Coro.Only (ServerRequest.MayDo deps (.authorizePost form)) (authorizePost deps form) := by
  by_cases hallowed : ClientAllowed deps.cfg form
  · cases hp : deps.provider with
    | serviceAccount auth =>
        rw [authorizePost, hp]
        exact Coro.only_pure _
    | passthrough validate =>
        unfold Coro.Only
        rw [authorizePost_allowed hp hallowed]
        refine Prog.Only.bind ?_ fun _ => .ret _
        exact Coro.only_bind (login_may hb hp ⟨hallowed, rfl, rfl⟩) fun sess =>
          Coro.only_op (.issue hallowed sess)
  · obtain ⟨r, hr, _⟩ := authorizePost_refused deps hallowed
    unfold Coro.Only
    rw [hr]
    exact .ret _

/-- **No request does anything else**, whatever it is answered. -/
theorem program_may (hb : deps.Built) (req : ServerRequest) :
    Prog.Only (req.MayDo deps) (req.program deps) := by
  cases req with
  | gate scope => exact (gate_may scope).bind fun _ => .ret _
  | tool headers call => exact (tool_may hb headers call).bind fun _ => .ret _
  | token r => exact (token_may hb r).bind fun _ => .ret _
  | authorizeGet q => exact .ret _
  | authorizePost form => exact (authorizePost_may hb form).bind fun _ => .ret _

/-- Every entry of a run is a step that its request may do. -/
theorem run_may_entry (hb : deps.Built) {env : Env} {moves : List (Move ServerRequest)}
    {e : Entry Ise World} (he : e ∈ (serverRun deps env moves).log) :
    ∃ req left, (serverRun deps env moves).tasks[e.task]? = some ⟨req, left⟩ ∧
      req.MayDo deps e.event.1 := by
  obtain ⟨pre, post, hlog⟩ := List.append_of_mem he
  obtain ⟨req, left, k, ht, hpath⟩ := serverRun_call hlog
  exact ⟨req, left, ht, (program_may hb req).next hpath⟩

end

end IseMcp
