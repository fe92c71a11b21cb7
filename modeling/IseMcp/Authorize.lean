import IseMcp.Server

set_option autoImplicit false

/-! # The login form

What a form posted to `/authorize` does. Only such a form issues a code (`issues_code`), and it is
one of two things: it is turned away or not confirmed by ISE and leaves nothing, or it opens a
session and then issues a code for it (`authorizePost_path`). -/

namespace IseMcp

open Python Interaction

/-! ## The validator -/

/-- The probes for these credentials, with these answers. -/
def probeEvents (cfg : Config) (username password : String) (answers : List HttpResponse) :
    List (Event Ise) :=
  answers.map fun r =>
    ⟨Op.probe (IseClient.probeRequest cfg username password), HttpOutcome.response r⟩

theorem path_probeLoop_iff {h : HttpRequest} {left : Nat} {es : List (Event Ise)} :
    Prog.Path (IseClient.probeLoop h left).run es (.ret (.ok true)) ↔
      ∃ answers : List HttpResponse, answers.length = left ∧ (∀ r ∈ answers, r.status < 400) ∧
        es = answers.map fun r => ⟨Op.probe h, HttpOutcome.response r⟩ := by
  induction left generalizing es with
  | zero =>
      rw [IseClient.probeLoop, Coro.run_pure', Prog.path_ret_iff]
      constructor
      · rintro ⟨rfl, _⟩
        exact ⟨[], rfl, by simp, rfl⟩
      · rintro ⟨answers, hlen, _, rfl⟩
        rw [List.length_eq_zero_iff] at hlen
        subst hlen
        exact ⟨rfl, rfl⟩
  | succ left ih =>
      rw [IseClient.probeLoop, run_probe_bind, Prog.path_call_ret_iff]
      constructor
      · rintro ⟨outcome, es', rfl, hrest⟩
        rcases outcome with message | e | r
        · cases ((Prog.path_ret_iff _ _ _).mp hrest).2
        · cases ((Prog.path_ret_iff _ _ _).mp hrest).2
        · dsimp only at hrest
          split_ifs at hrest with h401 h400
          · cases ((Prog.path_ret_iff _ _ _).mp hrest).2
          · cases ((Prog.path_ret_iff _ _ _).mp hrest).2
          · obtain ⟨answers, rfl, hpass, rfl⟩ := ih.mp hrest
            refine ⟨r :: answers, rfl, ?_, rfl⟩
            rw [List.forall_mem_cons]
            exact ⟨Nat.lt_of_not_le h400, hpass⟩
      · rintro ⟨answers, hlen, hpass, rfl⟩
        rcases answers with _ | ⟨r, answers⟩
        · cases hlen
        · rw [List.forall_mem_cons] at hpass
          refine ⟨.response r, _, rfl, ?_⟩
          have h401 : r.status ≠ 401 := by
            have := hpass.1
            omega
          dsimp only
          rw [if_neg h401, if_neg (Nat.not_le.mpr hpass.1)]
          exact ih.mpr ⟨answers, Nat.succ.inj hlen, hpass.2, rfl⟩

/-- The validator says yes exactly if ISE answers four probes with a status below 400. -/
theorem path_validate_iff {cfg : Config} {username password : String} {es : List (Event Ise)} :
    Prog.Path (IseClient.validateCredentials cfg username password).run es (.ret (.ok true)) ↔
      username ≠ "" ∧ password ≠ "" ∧ ∃ answers : List HttpResponse, answers.length = 4 ∧
        (∀ r ∈ answers, r.status < 400) ∧ es = probeEvents cfg username password answers := by
  unfold IseClient.validateCredentials
  by_cases hempty : username = "" ∨ password = ""
  · rw [if_pos hempty]
    refine iff_of_false (fun h => ?_) fun h => hempty.elim h.1 h.2.1
    cases ((Prog.path_ret_iff _ _ _).mp h).2
  · obtain ⟨hu, hp⟩ := not_or.mp hempty
    rw [if_neg hempty, path_probeLoop_iff, and_iff_right hu, and_iff_right hp]
    exact Iff.rfl

/-! ## The form -/

/-- The form names the configured client, in ASCII, and a redirect of the allow-list. -/
def ClientAllowed (cfg : Config) (form : List (String × String)) : Prop :=
  (loginArgs form).clientId = cfg.oauthClientId ∧ isAscii cfg.oauthClientId = true ∧
    OAuthServer.redirectOk cfg (some (loginArgs form).redirectUri) = true

theorem authorizePost_allowed {deps : Deps} {validate : Validator}
    (hp : deps.provider = .passthrough validate) {form : List (String × String)}
    (h : ClientAllowed deps.cfg form) :
    (authorizePost deps form).run
      = (OAuthServer.loginAndIssueCode deps.cfg validate (loginArgs form)).run >>= fun out =>
        .ret (.ok (authorizeReply form out)) := by
  obtain ⟨hid, hascii, hredirect⟩ := h
  have hcmp : compareDigest (loginArgs form).clientId deps.cfg.oauthClientId = .ok true :=
    compareDigest_ok_true.mpr ⟨hid, hascii⟩
  unfold authorizePost
  rw [hp]
  dsimp only
  rw [Coro.run_ofExcept_bind, hcmp, Coro.next_ok, if_pos rfl, if_pos hredirect]
  exact Coro.run_attempt_bind _ _

/-- Any other form is answered at once, and not with a code. -/
theorem authorizePost_refused (deps : Deps) {form : List (String × String)}
    (h : ¬ ClientAllowed deps.cfg form) :
    ∃ r, (authorizePost deps form).run = .ret r ∧
      ∀ uri code state, r ≠ .ok (.redirect uri code state) := by
  unfold authorizePost
  rcases deps.provider with validate | auth
  · dsimp only
    rw [Coro.run_ofExcept_bind]
    rcases hcmp : compareDigest (loginArgs form).clientId deps.cfg.oauthClientId with e | _ | _
    · exact ⟨_, rfl, nofun⟩
    · exact ⟨_, rfl, nofun⟩
    · obtain ⟨hid, hascii⟩ := compareDigest_ok_true.mp hcmp
      rw [Coro.next_ok, if_pos rfl, if_neg fun hredirect => h ⟨hid, hascii, hredirect⟩]
      exact ⟨_, rfl, nofun⟩
  · exact ⟨_, rfl, nofun⟩

/-- What a form that went through did: the probes, the session, and as its last step the code. -/
structure WentThrough (cfg : Config) (form : List (String × String)) (es₀ : List (Event Ise))
    (sess : Session) (es₁ : List (Event Ise)) (left : Prog Ise ServerReply) : Prop where
  allowed : ClientAllowed cfg form
  confirmed : Prog.Path (IseClient.validateCredentials cfg (loginArgs form).username
    (loginArgs form).password).run es₀ (.ret (.ok true))
  issued : es₁ = [] ∧ (∀ r, left ≠ .ret r) ∨
    ∃ code, es₁ = [⟨Op.issueCode (OAuthServer.grantOf cfg (loginArgs form) sess), code⟩] ∧
      left = .ret (.http (.ok (authorizeReply form (.ok code))))

/-- The session that a form opens. -/
def opened (form : List (String × String)) (sess : Session) : Event Ise :=
  ⟨Op.createSession (loginArgs form).username (PassthroughProvider.authContext
    (loginArgs form).username (loginArgs form).password), sess⟩

/-- **What a form posted to `/authorize` has done**: nothing but probes, and no code is returned; or
it went through. -/
theorem authorizePost_path {deps : Deps} (hb : deps.Built) {form : List (String × String)}
    {es : List (Event Ise)} {left : Prog Ise ServerReply}
    (h : Prog.Path ((ServerRequest.authorizePost form).program deps) es left) :
    ((∀ ev ∈ es, ∃ r, ev.1 = Op.probe r) ∧
      ∀ uri code state, left ≠ .ret (.http (.ok (.redirect uri code state)))) ∨
    ∃ es₀ sess es₁, es = es₀ ++ opened form sess :: es₁ ∧
      WentThrough deps.cfg form es₀ sess es₁ left := by
  rw [ServerRequest.program] at h
  by_cases hallowed : ClientAllowed deps.cfg form
  swap
  · obtain ⟨r, hr, hno⟩ := authorizePost_refused deps hallowed
    rw [hr, Prog.ret_bind, Prog.path_ret_iff] at h
    obtain ⟨rfl, rfl⟩ := h
    refine Or.inl ⟨by simp, fun uri code state heq => hno uri code state ?_⟩
    cases heq
    rfl
  rcases hp : deps.provider with validate | auth
  swap
  · rw [authorizePost, hp] at h
    obtain ⟨rfl, rfl⟩ := (Prog.path_ret_iff _ _ _).mp h
    exact Or.inl ⟨by simp, fun _ _ _ hq => by cases hq⟩
  rw [authorizePost_allowed hp hallowed, hb.validator hp, Prog.bind_bind] at h
  obtain ⟨p', hlogin, rfl⟩ := Prog.path_map h
  rcases OAuthServer.loginAndIssueCode_path hlogin with
    ⟨hes, hno⟩ | ⟨es₀, sess, es₁, rfl, hv, hissued⟩
  · refine Or.inl ⟨fun ev hev => ?_, fun uri code state heq => ?_⟩
    · rcases hes with rfl | ⟨q', hpath⟩
      · cases hev
      · exact ⟨_, (IseClient.validateCredentials_only deps.cfg _ _).event hpath hev⟩
    · rcases p' with (e | code') | ⟨o, k⟩
      · cases heq
      · exact hno code' rfl
      · cases heq
  · refine Or.inr ⟨es₀, sess, es₁, rfl, hallowed, hv, ?_⟩
    rcases hissued with ⟨rfl, hno⟩ | ⟨code, rfl, rfl⟩
    · refine Or.inl ⟨rfl, fun r heq => ?_⟩
      rcases p' with r' | ⟨o, k⟩
      · exact hno r' rfl
      · cases heq
    · exact Or.inr ⟨code, rfl, rfl⟩

/-! ## Who issues codes -/

/-- No code is issued by this operation. -/
def Op.IssuesNone (o : Op) : Prop := ∀ grant, o ≠ .issueCode grant

theorem lookup_issuesNone {o : Op} (h : o.IsLookup) : o.IssuesNone := by
  rintro grant rfl
  cases h

theorem login_issuesNone {deps : Deps} (hb : deps.Built) {validate : Validator}
    (hp : deps.provider = .passthrough validate) (u p : String) :
    Coro.Only Op.IssuesNone (PassthroughProvider.login validate u p) := by
  refine PassthroughProvider.login_only ?_ nofun
  rw [hb.validator hp]
  refine (IseClient.validateCredentials_only deps.cfg u p).mono ?_
  rintro o rfl
  exact nofun

theorem tool_issuesNone {deps : Deps} {call : ToolCall} {t : Tool} (ht : call.tool deps = some t)
    (headers : Option RawHeaders) : Prog.Only Op.IssuesNone (run deps headers t) := by
  have hrecord : ∀ o : Op, o.IsRecord → o.IssuesNone := by
    rintro o (⟨rec, rfl⟩ | ⟨rec, rfl⟩) <;> exact nofun
  have hcaller : Coro.Only Op.IssuesNone (gateThenResolve deps headers t) := by
    refine Coro.only_bind (Coro.only_ofExcept _) fun _ => (resolveAuth_only deps headers).mono ?_
    rintro o ⟨sid, rfl⟩
    exact nofun
  refine Prog.Only.bind hcaller fun r => ?_
  cases r with
  | error e => exact (fail_only _ _ _ _).mono hrecord
  | ok auth =>
      refine Prog.Only.bind ((fn_only ht auth).mono ?_) fun r => ?_
      · rintro o ⟨r, _, hof⟩ grant rfl
        cases hof
      · cases r with
        | error e => exact (fail_only _ _ _ _).mono hrecord
        | ok v => exact ((audit_only _ _ _ _ _).mono hrecord).bind fun _ => .ret _

/-- A request other than a posted form issues no code. -/
theorem other_issuesNone {deps : Deps} (hb : deps.Built) {req : ServerRequest}
    (h : ∀ form, req ≠ .authorizePost form) : Prog.Only Op.IssuesNone (req.program deps) := by
  cases req with
  | gate scope => exact ((gate_only deps scope).mono fun _ => lookup_issuesNone).bind fun _ => .ret _
  | tool headers call =>
      refine Prog.Only.bind ?_ fun _ => .ret _
      cases ht : call.tool deps with
      | some t =>
          rw [ToolCall.invoke_eq_run ht]
          exact tool_issuesNone ht headers
      | none =>
          have hname := ToolCall.tool_eq_none_iff.mp ht
          cases call with
          | iseHealthCheck => exact .ret _
          | iseLogin u p =>
              show Prog.Only _ (iseLogin deps u p)
              unfold iseLogin
              cases hp : deps.provider with
              | serviceAccount auth => exact .ret _
              | passthrough validate =>
                  refine Prog.Only.bind (login_issuesNone hb hp u p) fun r => ?_
                  cases r <;> exact .ret _
          | iseLogout =>
              show Prog.Only _ (iseLogout deps headers)
              unfold iseLogout
              cases hp : deps.provider with
              | serviceAccount auth => exact .ret _
              | passthrough validate => exact .call nofun fun _ => .ret _
          | _ => simp [ToolCall.name] at hname
  | token r =>
      rw [ServerRequest.program]
      rcases token_cases deps r with ⟨reply, hr⟩ | ⟨validate, u, p, _, hp, hr⟩ | ⟨a, _, hr⟩ <;>
        rw [hr]
      · exact .ret _
      · exact ((login_issuesNone hb hp u p).bind fun _ => .ret _).bind fun _ => .ret _
      · refine Prog.Only.bind (Prog.Only.bind ((exchangeCode_only deps.cfg a).mono fun _ =>
          lookup_issuesNone) fun r => ?_) fun _ => .ret _
        cases r <;> exact .ret _
  | authorizeGet q => exact .ret _
  | authorizePost form => exact absurd rfl (h form)

/-- **Only a posted form issues a code**, for the session it has just opened. -/
theorem issues_code {deps : Deps} (hb : deps.Built) {req : ServerRequest} {es : List (Event Ise)}
    {grant : CodeGrant} {k : String → Prog Ise ServerReply}
    (h : Prog.Path (req.program deps) es (.call (S := Ise) (.issueCode grant) k)) :
    ∃ form es₀ sess, req = .authorizePost form ∧ es = es₀ ++ [opened form sess] ∧
      grant = OAuthServer.grantOf deps.cfg (loginArgs form) sess ∧ ClientAllowed deps.cfg form ∧
      Prog.Path (IseClient.validateCredentials deps.cfg (loginArgs form).username
        (loginArgs form).password).run es₀ (.ret (.ok true)) := by
  by_cases hform : ∃ form, req = .authorizePost form
  · obtain ⟨form, rfl⟩ := hform
    -- let the code be issued, so that it is the last event of a path
    rcases authorizePost_path hb (h.snoc (S := Ise) "") with
      ⟨hprobes, _⟩ | ⟨es₀, sess, es₁, hes, hthrough⟩
    · obtain ⟨r, hr⟩ := hprobes ⟨Op.issueCode grant, ""⟩ (by simp)
      cases hr
    · rcases hthrough.issued with ⟨rfl, _⟩ | ⟨code, rfl, _⟩
      · obtain ⟨_, hlast⟩ := List.append_inj' hes rfl
        cases hlast
      · have hsplit : es₀ ++ [opened form sess, ⟨Op.issueCode (OAuthServer.grantOf deps.cfg
            (loginArgs form) sess), code⟩] = (es₀ ++ [opened form sess])
              ++ [⟨Op.issueCode (OAuthServer.grantOf deps.cfg (loginArgs form) sess), code⟩] := by
          simp
        rw [hsplit] at hes
        obtain ⟨rfl, hlast⟩ := List.append_inj' hes rfl
        cases hlast
        exact ⟨form, es₀, sess, rfl, rfl, rfl, hthrough.allowed, hthrough.confirmed⟩
  · exact absurd rfl ((other_issuesNone hb (not_exists.mp hform)).next h grant)

end IseMcp
