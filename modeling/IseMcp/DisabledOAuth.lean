import IseMcp.Authorize

set_option autoImplicit false

/-! # The off switch of the authorization-code flow

An empty `OAUTH_CLIENT_ID` or `OAUTH_CLIENT_SECRET` is meant to switch `/authorize` off: no code is
issued and no session is opened there (`NothingIssued`). `OAuthServer.enabled` is never asked, and
the form is compared with the configured client id, empty or not. So a run issues nothing exactly
if no posted form names that client and an allowed redirect and has its login confirmed by ISE
(`nothing_issued_iff`).
-/

namespace IseMcp

open Python Interaction

/-- Nothing has come of `/authorize`. -/
structure NothingIssued (s : ServerSys) : Prop where
  stored : s.world.codes = ∅ ∧ ∀ e ∈ s.log, e.event.1.IssuesNone
  returned : ∀ (i : Nat) req uri code state,
    s.tasks[i]? ≠ some ⟨req, .ret (.http (.ok (.redirect uri code state)))⟩
  opened : ∀ e ∈ s.log, ∀ form left, s.tasks[e.task]? = some ⟨.authorizePost form, left⟩ →
    ∀ username auth, e.event.1 ≠ .createSession username auth

/-- The form names the configured client and an allowed redirect, and ISE has answered the four
probes for its credentials with a status below 400 before the next step. -/
def LoginPasses (cfg : Config) (form : List (String × String)) (es : List (Event Ise)) : Prop :=
  ClientAllowed cfg form ∧ (loginArgs form).username ≠ "" ∧ (loginArgs form).password ≠ "" ∧
    ∃ (answers : List HttpResponse) (ev : Event Ise) (es' : List (Event Ise)),
      answers.length = 4 ∧ (∀ r ∈ answers, r.status < 400) ∧
      es = probeEvents cfg (loginArgs form).username (loginArgs form).password answers ++ ev :: es'

/-! ## One form -/

/-- After the four probes comes the session. -/
theorem passes_opens {deps : Deps} (hb : deps.Built) {form : List (String × String)}
    {es : List (Event Ise)} {left : Prog Ise ServerReply}
    (h : Prog.Path ((ServerRequest.authorizePost form).program deps) es left)
    (hpass : LoginPasses deps.cfg form es) : ∃ sess, opened form sess ∈ es := by
  obtain ⟨hallowed, hu, hp, answers, ev, es', hlen, hlt, rfl⟩ := hpass
  have hv : Prog.Path (IseClient.validateCredentials deps.cfg (loginArgs form).username
      (loginArgs form).password).run
      (probeEvents deps.cfg (loginArgs form).username (loginArgs form).password answers)
      (.ret (.ok true)) :=
    path_validate_iff.mpr ⟨hu, hp, answers, hlen, hlt, rfl⟩
  rw [ServerRequest.program] at h
  rcases hprov : deps.provider with validate | auth
  swap
  · -- without a passthrough provider there would be no probe
    rw [authorizePost, hprov] at h
    obtain ⟨hes, _⟩ := (Prog.path_ret_iff _ _ _).mp h
    simp at hes
  rw [authorizePost_allowed hprov hallowed, hb.validator hprov, OAuthServer.loginAndIssueCode,
    Coro.run_bind', PassthroughProvider.login_nonempty hu hp, Prog.bind_bind, Prog.bind_bind,
    Prog.bind_bind] at h
  rcases (Prog.path_call_iff (S := Ise) (.createSession _ _) _ _ _).mp ((hv.bind_left _).rest h)
    with ⟨hnil, _⟩ | ⟨sess, es'', heq, _⟩
  · cases hnil
  · refine ⟨sess, ?_⟩
    rw [(List.cons.inj heq).1]
    exact List.mem_append_right _ List.mem_cons_self

/-- A form that does not pass has only sent probes, and is not answered with a code. -/
theorem not_passes {deps : Deps} (hb : deps.Built) {form : List (String × String)}
    {es : List (Event Ise)} {left : Prog Ise ServerReply}
    (h : Prog.Path ((ServerRequest.authorizePost form).program deps) es left)
    (hpass : ¬ LoginPasses deps.cfg form es) :
    (∀ ev ∈ es, ∃ r, ev.1 = Op.probe r) ∧
      ∀ uri code state, left ≠ .ret (.http (.ok (.redirect uri code state))) := by
  rcases authorizePost_path hb h with hnothing | ⟨es₀, sess, es₁, rfl, hthrough⟩
  · exact hnothing
  · obtain ⟨hu, hp, answers, hlen, hlt, rfl⟩ := path_validate_iff.mp hthrough.confirmed
    exact absurd ⟨hthrough.allowed, hu, hp, answers, _, es₁, hlen, hlt, rfl⟩ hpass

/-! ## Other requests -/

/-- `/token` does not answer with a code. -/
theorem token_no_code (deps : Deps) (r : TokenRequest) :
    Coro.Returns (fun reply => ∀ uri code state, reply ≠ .redirect uri code state)
      (token deps r) := by
  unfold token
  rcases deps.provider with validate | auth
  swap
  · exact Coro.returns_pure nofun
  dsimp only
  split_ifs
  · rcases clientCreds r with ⟨_ | u, _ | p⟩
    · exact Coro.returns_pure nofun
    · exact Coro.returns_pure nofun
    · exact Coro.returns_pure nofun
    · dsimp only
      split_ifs
      · exact Coro.returns_pure nofun
      · refine Coro.returns_bind fun out => ?_
        cases out <;> exact Coro.returns_pure nofun
  · refine Coro.returns_bind fun out => ?_
    obtain ⟨_ | t, err⟩ := out <;> exact Coro.returns_pure nofun
  · refine Coro.returns_bind fun out => ?_
    obtain ⟨_ | t, err⟩ := out <;> exact Coro.returns_pure nofun
  · exact Coro.returns_pure nofun

/-- `GET /authorize` answers with a text or the login page. -/
theorem authorizeGet_no_code (deps : Deps) (q : List (String × String)) (uri code state : String) :
    authorizeGet deps q ≠ .ok (.redirect uri code state) := by
  unfold authorizeGet
  rcases deps.provider with validate | auth
  · rcases compareDigest ((lastValue q "client_id").getD "") deps.cfg.oauthClientId with e | _ | _ <;>
      simp only [bind, Except.bind, pure, Except.pure] <;> split_ifs <;> exact nofun
  · exact nofun

/-- Only a posted form is answered with a code. -/
theorem code_returned {deps : Deps} {req : ServerRequest} {es : List (Event Ise)}
    {uri code state : String}
    (h : Prog.Path (req.program deps) es (.ret (.http (.ok (.redirect uri code state))))) :
    ∃ form, req = .authorizePost form := by
  cases req with
  | gate scope =>
      obtain ⟨a, _, _, _, _, hret⟩ := (Prog.path_bind_ret_iff _ _ _ _).mp h
      cases ((Prog.path_ret_iff _ _ _).mp hret).2
  | tool headers call =>
      obtain ⟨a, _, _, _, _, hret⟩ := (Prog.path_bind_ret_iff _ _ _ _).mp h
      cases ((Prog.path_ret_iff _ _ _).mp hret).2
  | token r =>
      obtain ⟨a, es₁, _, _, hrun, hret⟩ := (Prog.path_bind_ret_iff _ _ _ _).mp h
      cases ((Prog.path_ret_iff _ _ _).mp hret).2
      exact absurd rfl (token_no_code deps r es₁ _ hrun uri code state)
  | authorizeGet q =>
      have hq := Prog.ret.inj ((Prog.path_ret_iff _ _ _).mp h).2
      exact absurd (ServerReply.http.inj hq).symm (authorizeGet_no_code deps q uri code state)
  | authorizePost form => exact ⟨form, rfl⟩

/-! ## Runs -/

section

variable {deps : Deps} {env : Env} {moves : List (Move ServerRequest)}

/-- A run that issues no code leaves the table of codes empty. -/
theorem codes_empty (h : ∀ e ∈ (serverRun deps env moves).log, e.event.1.IssuesNone) :
    (serverRun deps env moves).world.codes = ∅ := by
  have hinv := run_history_end (ServerRequest.program deps) (serve env)
    (w := .initial deps.cfg.sessionTtlSeconds deps.cfg.sessionIdleTimeoutSeconds)
    (I := fun (l : ServerLog) w => (∀ e ∈ l, e.event.1.IssuesNone) → w.codes = ∅)
    (fun _ => rfl) (fun l w i o ih hall => ?_) moves
  · exact hinv h
  · have hempty : w.codes = ∅ := ih fun e he => hall e (List.mem_append_left _ he)
    have hnone : o.IssuesNone := hall _ (List.mem_append_right _ List.mem_cons_self)
    cases o with
    | issueCode grant => exact absurd rfl (hnone grant)
    | popCode code =>
        -- there is nothing to pop
        show w.codes.remove code = ∅
        rw [hempty]
        cases code <;> rfl
    | _ => exact hempty

/-- **When nothing comes of `/authorize`**: exactly if no form of the run passes. This covers a
server whose authorization-code flow is switched off, where the configured client id may be
empty. -/
theorem nothing_issued_iff (deps : Deps) (hb : deps.Built) (env : Env)
    (moves : List (Move ServerRequest)) :
    NothingIssued (serverRun deps env moves) ↔
      ∀ (i : Nat) form left, (serverRun deps env moves).tasks[i]? = some ⟨.authorizePost form, left⟩ →
        ¬ LoginPasses deps.cfg form (eventsOf (serverRun deps env moves).log i) := by
  constructor
  · intro h i form left ht hpass
    obtain ⟨sess, hmem⟩ := passes_opens hb (serverRun_path ht) hpass
    obtain ⟨e, he, rfl, hev⟩ := mem_eventsOf.mp hmem
    exact h.opened e he form left ht _ _ (congrArg Sigma.fst hev)
  · intro h
    have hprobes : ∀ e ∈ (serverRun deps env moves).log, ∀ form left,
        (serverRun deps env moves).tasks[e.task]? = some ⟨.authorizePost form, left⟩ →
        ∃ r, e.event.1 = Op.probe r := by
      intro e he form left ht
      have hmem := mem_eventsOf.mpr ⟨e, he, rfl, rfl⟩
      exact (not_passes hb (serverRun_path ht) (h _ form left ht)).1 e.event hmem
    have hnone : ∀ e ∈ (serverRun deps env moves).log, e.event.1.IssuesNone := by
      intro e he grant hgrant
      obtain ⟨pre, post, hlog⟩ := List.append_of_mem he
      obtain ⟨req, left, k, ht, hpath⟩ := serverRun_call hlog
      -- whoever issues a code is a posted form
      obtain ⟨i, w, ev⟩ := e
      obtain ⟨o, x⟩ := ev
      dsimp only at hgrant
      subst hgrant
      obtain ⟨form, _, _, rfl, _⟩ := issues_code hb hpath
      obtain ⟨r, hr⟩ := hprobes _ he form left ht
      cases hr
    refine ⟨⟨codes_empty hnone, hnone⟩, fun i req uri code state ht => ?_,
      fun e he form left ht username auth hcreate => ?_⟩
    · obtain ⟨form, rfl⟩ := code_returned (serverRun_path ht)
      exact (not_passes hb (serverRun_path ht) (h i form _ ht)).2 uri code state rfl
    · obtain ⟨r, hr⟩ := hprobes e he form left ht
      rw [hr] at hcreate
      cases hcreate

end

/-- A server with no OAuth client and one allowed redirect. -/
def offDeps : Deps where
  cfg := { passthroughDeps.cfg with oauthRedirectUris := ["https://cb"] }
  provider := .passthrough (IseClient.validateCredentials
    { passthroughDeps.cfg with oauthRedirectUris := ["https://cb"] })
  fromstring := passthroughDeps.fromstring

/-- The login form of alice, posted to its end. -/
def postForm (clientId : List (String × String)) : List (Move ServerRequest) :=
  .spawn (.authorizePost
      (clientId ++ [("redirect_uri", "https://cb"), ("username", "alice"), ("password", "pw")])) ::
    List.replicate 6 (.advance 0)

/-- A form that names a client is turned away. -/
theorem nothing_issued_client :
    NothingIssued (serverRun offDeps (.always 200) (postForm [("client_id", "copilot")])) := by
  refine (nothing_issued_iff offDeps rfl (.always 200) _).mpr ?_
  rintro i form left ht ⟨⟨hid, _⟩, _⟩
  have hform : (serverRun offDeps (.always 200) (postForm [("client_id", "copilot")])).tasks.map
      (·.req) = [.authorizePost [("client_id", "copilot"), ("redirect_uri", "https://cb"),
        ("username", "alice"), ("password", "pw")]] := rfl
  have hmem : ServerRequest.authorizePost form ∈ (serverRun offDeps (.always 200)
      (postForm [("client_id", "copilot")])).tasks.map (·.req) :=
    List.mem_map.mpr ⟨_, List.mem_of_getElem? ht, rfl⟩
  rw [hform, List.mem_singleton] at hmem
  cases hmem
  exact absurd hid (by decide)

/-- A form without a `client_id` matches the empty client: it opens a session and gets a code,
although OAuth is switched off. -/
theorem disabled_issues_code :
    OAuthServer.enabled offDeps.cfg = false ∧
      ¬ NothingIssued (serverRun offDeps (.always 200) (postForm [])) := by
  refine ⟨rfl, fun h => ?_⟩
  have hreply : (serverRun offDeps (.always 200) (postForm [])).tasks[0]?
      = some ⟨.authorizePost [("redirect_uri", "https://cb"), ("username", "alice"),
          ("password", "pw")], .ret (.http (.ok (.redirect "https://cb" "t" "")))⟩ := rfl
  exact h.returned 0 _ _ _ _ hreply

end IseMcp
