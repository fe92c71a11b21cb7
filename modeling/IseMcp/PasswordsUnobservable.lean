import IseMcp.Server

set_option autoImplicit false

/-! # Passwords are not observable

Two runs of the server in the same environment, with the same requests up to the ISE passwords in
them, are in step: every program of the server makes the same calls up to the password
(`program_sim`), and the machine answers them alike. The replies and the records of the two runs
are the same (`passwords_unobservable`).
-/

namespace IseMcp

open Python Interaction Text

/-! ## Requests up to the password -/

/-- The same request, or two that differ in a password which neither leaves empty: in the argument
of `ise_login`, in the secret of the `client_credentials` grant, or in the login form. -/
inductive ServerRequest.Alike : ServerRequest → ServerRequest → Prop where
  | same (req : ServerRequest) : Alike req req
  | login (headers : Option RawHeaders) (username : String) {password password' : String}
      (h : password ≠ "") (h' : password' ≠ "") :
      Alike (.tool headers (.iseLogin username password))
        (.tool headers (.iseLogin username password'))
  | credentials {r r' : TokenRequest} {user : Option String} {secret secret' : String}
      (hgrant : r.grantType = "client_credentials") (hgrant' : r'.grantType = "client_credentials")
      (hcreds : clientCreds r = (user, some secret)) (hcreds' : clientCreds r' = (user, some secret'))
      (h : secret ≠ "") (h' : secret' ≠ "") : Alike (.token r) (.token r')
  | authorize {form form' : List (String × String)}
      (hfields : ∀ key, key ≠ "password" → lastValue form key = lastValue form' key)
      (h : (loginArgs form).password ≠ "") (h' : (loginArgs form').password ≠ "") :
      Alike (.authorizePost form) (.authorizePost form')

/-! ## The programs of the server -/

/-- Functions in step up to the password. -/
abbrev Blind {α α' : Type} (Q : α → α' → Prop) (x : Io α) (x' : Io α') : Prop :=
  Coro.Sim (S := Ise) Op.Alike Op.AnsAlike Q x x'

abbrev BlindProg {α : Type} (p p' : Prog Ise α) : Prop :=
  Prog.Sim (S := Ise) Op.Alike Op.AnsAlike Eq p p'

/-- Records carry no password. -/
theorem records_blind {α : Type} {p : Prog Ise α} (h : Prog.Only Op.IsRecord p) :
    BlindProg p p := by
  refine h.sim (fun o ho => ?_) fun o ho x x' _ => ?_
  · obtain ⟨rec, rfl⟩ | ⟨rec, rfl⟩ := ho
    · exact .audit rec
    · exact .log rec
  · obtain ⟨rec, rfl⟩ | ⟨rec, rfl⟩ := ho <;> rfl

theorem probeLoop_blind (h : HttpRequest) (password : String) (left : Nat) :
    Blind Eq (IseClient.probeLoop h left)
      (IseClient.probeLoop { h with auth := (h.auth.1, password) } left) := by
  induction left with
  | zero => exact Coro.sim_pure rfl
  | succ left ih =>
      refine Coro.sim_bind_eq (Coro.sim_op (S := Ise) (.probe h) (.probe _) (.probe h password))
        fun outcome => ?_
      cases outcome with
      | raised e => exact Coro.sim_throw e
      | transportError message => exact Coro.sim_throw _
      | response r =>
          dsimp only
          split_ifs
          · exact Coro.sim_pure rfl
          · exact Coro.sim_throw _
          · exact ih

/-- The verdict on two passwords is the same where ISE answers the same. -/
theorem validateCredentials_blind (cfg : Config) (username : String) {password password' : String}
    (h : password = "" ↔ password' = "") :
    Blind Eq (IseClient.validateCredentials cfg username password)
      (IseClient.validateCredentials cfg username password') := by
  have hempty : (username = "" ∨ password = "") ↔ (username = "" ∨ password' = "") :=
    or_congr_right h
  unfold IseClient.validateCredentials
  by_cases hcase : username = "" ∨ password = ""
  · rw [if_pos hcase, if_pos (hempty.mp hcase)]
    exact Coro.sim_pure rfl
  · rw [if_neg hcase, if_neg fun hcase' => hcase (hempty.mpr hcase')]
    exact probeLoop_blind (IseClient.probeRequest cfg username password) password' 4

namespace PassthroughProvider

theorem login_blind (cfg : Config) (username : String) {password password' : String}
    (h : password = "" ↔ password' = "") :
    Blind Session.Alike (login (IseClient.validateCredentials cfg) username password)
      (login (IseClient.validateCredentials cfg) username password') := by
  have hempty : (username = "" ∨ password = "") ↔ (username = "" ∨ password' = "") :=
    or_congr_right h
  unfold login
  by_cases hcase : username = "" ∨ password = ""
  · rw [if_pos hcase, if_pos (hempty.mp hcase)]
    exact Coro.sim_throw _
  · rw [if_neg hcase, if_neg fun hcase' => hcase (hempty.mpr hcase')]
    refine Coro.sim_bind_eq (Coro.sim_attempt_eq (validateCredentials_blind cfg username h))
      fun r => ?_
    rcases r with e | _ | _
    · exact Coro.sim_throw _
    · exact Coro.sim_throw _
    · exact Coro.sim_op (S := Ise) (.createSession username _) (.createSession username _)
        (.createSession username ⟨rfl, rfl, rfl⟩)

end PassthroughProvider

theorem resolveAuth_blind (deps : Deps) (headers : Option RawHeaders) :
    Blind AuthContext.Alike (deps.resolveAuth headers) (deps.resolveAuth headers) := by
  refine Coro.sim_ofExcept_bind fun isKey _ => ?_
  cases isKey with
  | true => exact Coro.sim_pure (.refl _)
  | false =>
      cases hp : deps.provider with
      | serviceAccount auth => exact Coro.sim_pure (.refl _)
      | passthrough validate =>
          refine Coro.sim_bind (Coro.sim_op (S := Ise) (.getSession _) (.getSession _)
            (.getSession _)) fun found found' hfound => ?_
          cases (hfound : Option.Rel Session.Alike found found') with
          | none => exact Coro.sim_throw _
          | some hsess =>
              obtain ⟨auth', hauth, rfl⟩ := hsess
              exact Coro.sim_pure hauth

theorem sessionValid_blind (deps : Deps) (tok : Option String) :
    Blind Eq (deps.sessionValid tok) (deps.sessionValid tok) := by
  refine Coro.sim_ofExcept_bind fun isKey _ => ?_
  cases isKey with
  | true => exact Coro.sim_pure rfl
  | false =>
      cases hp : deps.provider with
      | serviceAccount auth => exact Coro.sim_pure rfl
      | passthrough validate =>
          show Blind Eq (PassthroughProvider.sessionValid tok) (PassthroughProvider.sessionValid tok)
          unfold PassthroughProvider.sessionValid
          split_ifs
          · refine Coro.sim_bind (Coro.sim_op (S := Ise) (.getSession _) (.getSession _)
              (.getSession _)) fun found found' hfound => ?_
            cases (hfound : Option.Rel Session.Alike found found') with
            | none => exact Coro.sim_pure rfl
            | some _ => exact Coro.sim_pure rfl
          · exact Coro.sim_pure rfl

theorem gate_blind (deps : Deps) (scope : Scope) :
    Blind Eq (RequireAuthOnMcp.call deps scope) (RequireAuthOnMcp.call deps scope) := by
  unfold RequireAuthOnMcp.call
  split_ifs
  · refine Coro.sim_bind_eq (Coro.sim_ofExcept_eq _) fun headers => ?_
    refine Coro.sim_bind_eq (sessionValid_blind deps _) fun valid => ?_
    cases valid <;> exact Coro.sim_pure rfl
  · exact Coro.sim_pure rfl

theorem perform_blind {deps : Deps} {call : ToolCall} {t : Tool} (ht : call.tool deps = some t)
    {auth auth' : AuthContext} (hauth : auth.Alike auth') :
    BlindProg (perform deps.cfg t auth) (perform deps.cfg t auth') := by
  refine Prog.Sim.bind ((fn_sim hauth ht).mono fun _ _ ho => ho.2) fun r r' hr => ?_
  have heq := exRel_eq_iff.mp hr
  subst heq
  rw [← hauth.username]
  cases r with
  | error e => exact records_blind (fail_only _ _ _ _)
  | ok v => exact records_blind ((audit_only _ _ _ _ _).bind fun _ => .ret _)

theorem tool_blind {deps : Deps} {call : ToolCall} {t : Tool} (ht : call.tool deps = some t)
    (headers : Option RawHeaders) : BlindProg (run deps headers t) (run deps headers t) := by
  have hcaller : Blind AuthContext.Alike (gateThenResolve deps headers t)
      (gateThenResolve deps headers t) :=
    Coro.sim_bind_eq (Coro.sim_ofExcept_eq _) fun _ => resolveAuth_blind deps headers
  refine Prog.Sim.bind hcaller fun r r' hr => ?_
  cases hr with
  | error e => exact records_blind (fail_only _ _ _ _)
  | ok hauth => exact perform_blind ht hauth

/-- The reply of `ise_login` shows the id and the user name of the session. -/
theorem iseLogin_blind {deps : Deps} (hb : deps.Built) (username : String)
    {password password' : String} (h : password = "" ↔ password' = "") :
    BlindProg (iseLogin deps username password) (iseLogin deps username password') := by
  unfold iseLogin
  cases hp : deps.provider with
  | serviceAccount auth => exact .ret rfl
  | passthrough validate =>
      rw [hb.validator hp]
      refine Prog.Sim.bind (PassthroughProvider.login_blind deps.cfg username h) fun r r' hr => ?_
      cases hr with
      | error e => exact .ret rfl
      | ok hsess =>
          obtain ⟨auth', _, rfl⟩ := hsess
          exact .ret rfl

theorem invoke_blind {deps : Deps} (hb : deps.Built) (headers : Option RawHeaders)
    (call : ToolCall) : BlindProg (call.invoke deps headers) (call.invoke deps headers) := by
  cases ht : call.tool deps with
  | some t =>
      rw [ToolCall.invoke_eq_run ht]
      exact tool_blind ht headers
  | none =>
      have hname := ToolCall.tool_eq_none_iff.mp ht
      cases call with
      | iseHealthCheck => exact .ret rfl
      | iseLogin username password => exact iseLogin_blind hb username Iff.rfl
      | iseLogout =>
          show BlindProg (iseLogout deps headers) (iseLogout deps headers)
          unfold iseLogout
          cases hp : deps.provider with
          | serviceAccount auth => exact .ret rfl
          | passthrough validate =>
              refine .call (.deleteSession _) fun x x' hx => ?_
              cases (hx : x = x')
              exact .ret rfl
      | _ => simp [ToolCall.name] at hname

/-! ## The OAuth endpoints -/

theorem exchangeCode_blind (cfg : Config) (a : ExchangeArgs) :
    Blind Eq (OAuthServer.exchangeCode cfg a) (OAuthServer.exchangeCode cfg a) := by
  refine Coro.sim_ofExcept_bind fun known _ => ?_
  cases known with
  | false => exact Coro.sim_pure rfl
  | true =>
      exact Coro.sim_bind_eq (Coro.sim_op (S := Ise) (.popCode _) (.popCode _) (.popCode _))
        fun _ => Coro.sim_ofExcept_eq _

/-- The token that a login returns is the id of the session. -/
theorem credentials_blind {deps : Deps} (hb : deps.Built) {validate : Validator}
    (hp : deps.provider = .passthrough validate) (user : String) {secret secret' : String}
    (h : secret = "" ↔ secret' = "") :
    Blind Eq
      (do return credentialsReply deps.cfg
            (← Coro.attempt (PassthroughProvider.login validate user secret)))
      (do return credentialsReply deps.cfg
            (← Coro.attempt (PassthroughProvider.login validate user secret'))) := by
  rw [hb.validator hp]
  refine Coro.sim_bind (Coro.sim_attempt (PassthroughProvider.login_blind deps.cfg user h))
    fun r r' hr => ?_
  cases hr with
  | error e => exact Coro.sim_pure rfl
  | ok hsess =>
      obtain ⟨auth', _, rfl⟩ := hsess
      exact Coro.sim_pure rfl

theorem token_blind {deps : Deps} (hb : deps.Built) (r : TokenRequest) :
    Blind Eq (token deps r) (token deps r) := by
  unfold token
  cases hp : deps.provider with
  | serviceAccount auth => exact Coro.sim_pure rfl
  | passthrough validate =>
      dsimp only
      split_ifs with hcred hcode hrefresh
      · rcases clientCreds r with ⟨_ | u, _ | p⟩
        · exact Coro.sim_pure rfl
        · exact Coro.sim_pure rfl
        · exact Coro.sim_pure rfl
        · dsimp only
          split_ifs
          · exact Coro.sim_pure rfl
          · exact credentials_blind hb hp u Iff.rfl
      · exact Coro.sim_bind_eq (exchangeCode_blind deps.cfg _) fun _ => Coro.sim_pure rfl
      · exact Coro.sim_bind_eq (Coro.sim_ofExcept_eq _) fun _ => Coro.sim_pure rfl
      · exact Coro.sim_pure rfl

/-- The `client_credentials` grant for two secrets. -/
theorem token_credentials {deps : Deps} (hb : deps.Built) {r r' : TokenRequest}
    {user : Option String} {secret secret' : String}
    (hgrant : r.grantType = "client_credentials") (hgrant' : r'.grantType = "client_credentials")
    (hcreds : clientCreds r = (user, some secret)) (hcreds' : clientCreds r' = (user, some secret'))
    (h : secret ≠ "") (h' : secret' ≠ "") : Blind Eq (token deps r) (token deps r') := by
  unfold token
  cases hp : deps.provider with
  | serviceAccount auth => exact Coro.sim_pure rfl
  | passthrough validate =>
      unfold TokenRequest.grantType at hgrant hgrant'
      simp only [hgrant, hgrant', hcreds, hcreds', if_true]
      rcases user with _ | user
      · exact Coro.sim_pure rfl
      · simp only [h, h', or_false]
        split_ifs
        · exact Coro.sim_pure rfl
        · exact credentials_blind hb hp user (iff_of_false h h')

/-- Logging in and issuing a code for two passwords. -/
theorem loginAndIssueCode_blind (cfg : Config) (a : LoginArgs) {password' : String}
    (h : a.password = "" ↔ password' = "") :
    Blind Eq (OAuthServer.loginAndIssueCode cfg (IseClient.validateCredentials cfg) a)
      (OAuthServer.loginAndIssueCode cfg (IseClient.validateCredentials cfg)
        { a with password := password' }) := by
  refine Coro.sim_bind (PassthroughProvider.login_blind cfg a.username h) fun sess sess' hs => ?_
  obtain ⟨auth', _, rfl⟩ := hs
  exact Coro.sim_op (S := Ise) (.issueCode _) (.issueCode _) (.issueCode _)

/-- The handler reads the password only to log in; the page it may answer with does not show it. -/
theorem authorizePost_blind {deps : Deps} (hb : deps.Built) {form form' : List (String × String)}
    (hfields : ∀ key, key ≠ "password" → lastValue form key = lastValue form' key)
    (h : (loginArgs form).password = "" ↔ (loginArgs form').password = "") :
    Blind Eq (authorizePost deps form) (authorizePost deps form') := by
  have hargs : loginArgs form'
      = { loginArgs form with password := (loginArgs form').password } := by
    simp only [loginArgs, hfields "username" (by decide), hfields "client_id" (by decide),
      hfields "redirect_uri" (by decide), hfields "scope" (by decide),
      hfields "code_challenge" (by decide)]
  have hparams : pageParams form' = pageParams form := by
    simp only [pageParams, List.map_cons, List.map_nil, hfields "client_id" (by decide),
      hfields "redirect_uri" (by decide), hfields "scope" (by decide),
      hfields "state" (by decide), hfields "code_challenge" (by decide)]
  have hreply : authorizeReply form' = authorizeReply form := by
    funext r
    cases r with
    | error e => rw [authorizeReply, authorizeReply, hparams]
    | ok code => rw [authorizeReply, authorizeReply, hargs, hfields "state" (by decide)]
  unfold authorizePost
  cases hp : deps.provider with
  | serviceAccount auth => exact Coro.sim_pure rfl
  | passthrough validate =>
      rw [hb.validator hp, hreply, hargs]
      refine Coro.sim_bind_eq (Coro.sim_ofExcept_eq _) fun known => ?_
      split_ifs
      · exact Coro.sim_bind_eq (Coro.sim_attempt_eq (loginAndIssueCode_blind deps.cfg _ h))
          fun _ => Coro.sim_pure rfl
      · exact Coro.sim_pure rfl
      · exact Coro.sim_pure rfl

/-! ## Runs -/

/-- **Requests that are the same up to the password are served in step.** -/
theorem program_sim {deps : Deps} (hb : deps.Built) {req req' : ServerRequest}
    (h : req.Alike req') : BlindProg (req.program deps) (req'.program deps) := by
  -- what is done with an outcome shows nothing but the outcome
  have hwrap : ∀ {α : Type} {p p' : Prog Ise α} (f : α → ServerReply), BlindProg p p' →
      BlindProg (p >>= fun a => .ret (f a)) (p' >>= fun a => .ret (f a)) := by
    intro α p p' f hp
    refine Prog.Sim.bind hp fun a a' ha => ?_
    rw [ha]
    exact .ret rfl
  have hexc : ∀ {α : Type} {x x' : Io α}, Blind Eq x x' → BlindProg x.run x'.run :=
    fun hx => Prog.Sim.mono hx (fun _ _ ho => ho) fun _ _ hr => exRel_eq_iff.mp hr
  cases h with
  | same req =>
      cases req with
      | gate scope => exact hwrap _ (hexc (gate_blind deps scope))
      | tool headers call => exact hwrap _ (invoke_blind hb headers call)
      | token r => exact hwrap _ (hexc (token_blind hb r))
      | authorizeGet q => exact .ret rfl
      | authorizePost form =>
          exact hwrap _ (hexc (authorizePost_blind hb (fun _ _ => rfl) Iff.rfl))
  | login headers username h h' =>
      exact hwrap _ (iseLogin_blind hb username (iff_of_false h h'))
  | credentials hgrant hgrant' hcreds hcreds' h h' =>
      exact hwrap _ (hexc (token_credentials hb hgrant hgrant' hcreds hcreds' h h'))
  | authorize hfields h h' =>
      exact hwrap _ (hexc (authorizePost_blind hb hfields (iff_of_false h h')))

/-- What each task has replied, if it has. -/
def replies (s : ServerSys) : List (Option ServerReply) := s.tasks.map (·.left.result)

/-- A line that the server writes. -/
inductive Line where
  | audit (rec : AuditRecord)
  | log (rec : LogRecord)

def Op.line : Op → Option Line
  | .audit rec => some (.audit rec)
  | .log rec => some (.log rec)
  | _ => none

/-- The lines written, in order, with the tasks that wrote them. -/
def lines (s : ServerSys) : List (Nat × Line) :=
  s.log.filterMap fun e => e.event.1.line.map (e.task, ·)

theorem line_alike {o o' : Op} (h : o.Alike o') : o.line = o'.line := by
  cases h <;> rfl

/-- **Passwords are not observable**: two runs that differ in passwords only give the same replies
and write the same lines. -/
theorem passwords_unobservable (deps : Deps) (hb : deps.Built) (env : Env)
    (moves moves' : List (Move ServerRequest))
    (h : List.Forall₂ (Move.Rel ServerRequest.Alike) moves moves') :
    replies (serverRun deps env moves) = replies (serverRun deps env moves') ∧
      lines (serverRun deps env moves) = lines (serverRun deps env moves') := by
  have hw : (World.initial deps.cfg.sessionTtlSeconds deps.cfg.sessionIdleTimeoutSeconds).Alike
      (World.initial deps.cfg.sessionTtlSeconds deps.cfg.sessionIdleTimeoutSeconds) :=
    ⟨rfl, ⟨rfl, rfl, fun _ => .none⟩, rfl⟩
  have hsim := run_sim (S := Ise) (fun _ _ _ _ hw ho => serve_alike env hw ho)
    (fun _ _ hr => program_sim hb hr) hw h
  constructor
  · have hres := hsim.results
    rw [← List.forall₂_eq_eq_eq]
    refine hres.imp fun a b hab => ?_
    cases hab with
    | none => rfl
    | some heq => rw [heq]
  · rw [← List.forall₂_eq_eq_eq]
    refine List.rel_filterMap (fun e e' he => ?_) hsim.log
    obtain ⟨htask, hop⟩ := he
    rw [htask, line_alike hop]
    cases e'.event.1.line with
    | none => exact .none
    | some line => exact .some rfl

/-- `ise_login` for alice with this password, as far as it goes. -/
def loginMoves (password : String) : List (Move ServerRequest) :=
  [.spawn (.tool none (.iseLogin "alice" password)), .advance 0, .advance 0, .advance 0,
    .advance 0, .advance 0]

theorem passwords_unobservable_alice :
    replies (serverRun passthroughDeps (.always 200) (loginMoves "pw1"))
        = replies (serverRun passthroughDeps (.always 200) (loginMoves "pw2")) ∧
      lines (serverRun passthroughDeps (.always 200) (loginMoves "pw1"))
        = lines (serverRun passthroughDeps (.always 200) (loginMoves "pw2")) := by
  refine passwords_unobservable passthroughDeps rfl (.always 200) _ _ (.cons (.spawn ?_) ?_)
  · exact .login none "alice" (by decide) (by decide)
  · exact .cons (.advance 0) (.cons (.advance 0) (.cons (.advance 0) (.cons (.advance 0)
      (.cons (.advance 0) .nil))))

end IseMcp
