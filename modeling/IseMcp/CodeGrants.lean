import IseMcp.AuthorizationCode
import IseMcp.DisabledOAuth
import IseMcp.RequestSteps
import IseMcp.TokenLifetime

set_option autoImplicit false

/-! # Authorization codes in the whole server

The codes of `/authorize` and `/token` among all the other requests of a server: tools, gates and
logins of any clients, in any order. A code stands for one login form of the configured client that
ISE has confirmed, it goes to an allowed redirect, and it is worth one token (`code_grants`).
-/

namespace IseMcp

open Python Interaction OAuthServer

/-- A request to `/token` that exchanges a code. -/
def TokenRequest.Exchanges (r : TokenRequest) (code : String) : Prop :=
  r.grantType = "authorization_code" ∧ lastValue r.form "code" = some code

/-- The reply to the form, with its code. -/
def codeReply (form : List (String × String)) (code : String) : ServerReply :=
  .http (.ok (authorizeReply form (.ok code)))

/-- The entry `e` issued `code` for the session `sess` that its form had just opened, after ISE had
confirmed the credentials of the form. -/
structure IssuedFor (deps : Deps) (sys : ServerSys) (pre : ServerLog) (e : Entry Ise World)
    (form : List (String × String)) (sess : Session) (code : String) : Prop where
  event : e.event = ⟨Op.issueCode (grantOf deps.cfg (loginArgs form) sess), code⟩
  task : sys.tasks[e.task]? = some ⟨.authorizePost form, .ret (codeReply form code)⟩
  allowed : ClientAllowed deps.cfg form
  login : ∃ es₀, eventsOf pre e.task = es₀ ++ [opened form sess] ∧
    Prog.Path (IseClient.validateCredentials deps.cfg (loginArgs form).username
      (loginArgs form).password).run es₀ (.ret (.ok true))

/-- What entitles the request `r` of task `i` to the session `sess`: it is from the configured
client, and its code was issued for `sess` to a form with the same redirect and a challenge that
its verifier meets, is young enough, and was not exchanged in between. -/
def EntitledTo (deps : Deps) (env : Env) (sys : ServerSys) (i : Nat) (r : TokenRequest)
    (sess : Session) : Prop :=
  r.exchangeArgs.Authentic deps.cfg ∧
  ∃ code form pre issue mid redeem post,
    r.Exchanges code ∧ sys.log = pre ++ issue :: (mid ++ redeem :: post) ∧ redeem.task = i ∧
    redeem.event.1 = .popCode (some code) ∧
    IssuedFor deps sys pre issue form sess code ∧
    lastValue r.form "redirect_uri" = some (loginArgs form).redirectUri ∧
    PkceMatches (loginArgs form).challenge r.exchangeArgs.verifier ∧
    env.now redeem.before.steps - env.now issue.before.steps ≤ codeTtl ∧
    ∀ e ∈ mid, ∀ r' left, sys.tasks[e.task]? = some ⟨.token r', left⟩ → ¬ r'.Exchanges code

section

variable {deps : Deps} {env : Env} {moves : List (Move ServerRequest)}

/-! ## One exchange -/

theorem token_exchange {validate : Validator} (hp : deps.provider = .passthrough validate)
    {r : TokenRequest} (hgrant : r.grantType = "authorization_code") :
    (ServerRequest.token r).program deps = (exchangeCode deps.cfg r.exchangeArgs).run >>=
      fun out => .ret (.http (out.map oauthReply)) := by
  have htoken : token deps r
      = (do return oauthReply (← exchangeCode deps.cfg r.exchangeArgs)) := by
    have hstrip : strip ((lastValue r.form "grant_type").getD "") = "authorization_code" := hgrant
    unfold token
    rw [hp]
    dsimp only
    rw [hstrip, if_neg (by decide), if_pos rfl]
    rfl
  rw [ServerRequest.program, htoken, Coro.run_bind', Prog.bind_bind]
  refine congrArg _ (funext fun out => ?_)
  cases out <;> rfl

/-- An exchange is refused at once, or it stands before its one step, or that step has decided
it. -/
theorem exchange_task {validate : Validator} (hp : deps.provider = .passthrough validate)
    {r : TokenRequest} (hgrant : r.grantType = "authorization_code") {es : List (Event Ise)}
    {left : Prog Ise ServerReply} (h : Prog.Path ((ServerRequest.token r).program deps) es left) :
    (clientOk deps.cfg (clientCreds r).1 (clientCreds r).2 ≠ .ok true ∧ es = [] ∧
      ∃ out : Except PyExc (Option BaseToken × Option String),
        left = .ret (.http (out.map oauthReply)) ∧ ∀ t err, out ≠ .ok (some t, err)) ∨
    (clientOk deps.cfg (clientCreds r).1 (clientCreds r).2 = .ok true ∧ es = [] ∧
      ∀ reply, left ≠ .ret reply) ∨
    (clientOk deps.cfg (clientCreds r).1 (clientCreds r).2 = .ok true ∧
      ∃ x : Option Code, es = [⟨Op.popCode (lastValue r.form "code"), x⟩] ∧
        left = .ret (.http ((redeem deps.cfg r.exchangeArgs x).map oauthReply))) := by
  rw [token_exchange hp hgrant] at h
  by_cases hc : clientOk deps.cfg (clientCreds r).1 (clientCreds r).2 = .ok true
  · rw [exchangeCode_accepted (a := r.exchangeArgs) hc, Prog.call_bind, Prog.path_call_iff] at h
    rcases h with ⟨rfl, rfl⟩ | ⟨x, es', rfl, h⟩
    · exact Or.inr (Or.inl ⟨hc, rfl, nofun⟩)
    · rw [Prog.ret_bind, Prog.path_ret_iff] at h
      obtain ⟨rfl, rfl⟩ := h
      exact Or.inr (Or.inr ⟨hc, x, rfl, rfl⟩)
  · obtain ⟨out, hout, hno⟩ := exchangeCode_refused (a := r.exchangeArgs) hc
    rw [hout, Prog.ret_bind, Prog.path_ret_iff] at h
    obtain ⟨rfl, rfl⟩ := h
    exact Or.inl ⟨hc, rfl, out, rfl, hno⟩

/-- What comes of a decided exchange. -/
theorem granted_iff {out : Except PyExc (Option BaseToken × Option String)}
    {s : String} :
    (∃ reply exp, out.map oauthReply = .ok reply ∧ reply.Grants s exp) ↔
      ∃ t err, out = .ok (some t, err) ∧ t.accessToken = s := by
  constructor
  · rintro ⟨reply, exp, hreply, hgrants⟩
    rcases out with e | out
    · cases hreply
    · cases hreply
      obtain ⟨t, err, rfl, rfl, _⟩ := oauthReply_grants_iff.mp hgrants
      exact ⟨t, err, rfl, rfl⟩
  · rintro ⟨t, err, rfl, rfl⟩
    exact ⟨_, t.expiresIn, rfl, oauthReply_grants_iff.mpr ⟨t, err, rfl, rfl, rfl⟩⟩

/-! ## The entries of codes -/

theorem server_codes (hfresh : Function.Injective fun n => (env.token n).text)
    {pre post : ServerLog} {e : Entry Ise World}
    (hlog : (serverRun deps env moves).log = pre ++ e :: post) : CodesInv env pre e.before :=
  run_history (I := CodesInv env) (CodesInv.initial env _ _)
    (fun _ _ i o h => h.step hfresh i o) hlog

/-- Whoever issued a code is a form that was answered with it. -/
theorem issued_for (hb : deps.Built) {pre post : ServerLog} {e : Entry Ise World}
    {grant : CodeGrant} {code : String} (hlog : (serverRun deps env moves).log = pre ++ e :: post)
    (hev : e.event = ⟨Op.issueCode grant, code⟩) :
    ∃ form sess, grant = grantOf deps.cfg (loginArgs form) sess ∧
      IssuedFor deps (serverRun deps env moves) pre e form sess code := by
  obtain ⟨i, w, ev⟩ := e
  cases hev
  obtain ⟨req, left, k, ht, hpath⟩ := serverRun_call hlog
  obtain ⟨form, es₀, sess, rfl, hes, rfl, hallowed, hconfirmed⟩ := issues_code hb hpath
  refine ⟨form, sess, rfl, rfl, ?_, hallowed, es₀, hes, hconfirmed⟩
  -- the form is done after the issue
  have hmem : (⟨Op.issueCode (grantOf deps.cfg (loginArgs form) sess), code⟩ : Event Ise)
      ∈ eventsOf (serverRun deps env moves).log i := by
    rw [hlog]
    exact mem_eventsOf.mpr ⟨_, List.mem_append_right _ List.mem_cons_self, rfl, rfl⟩
  rcases authorizePost_path hb (serverRun_path ht) with
    ⟨hprobes, _⟩ | ⟨es', sess', es₁, heq, hthrough⟩
  · obtain ⟨r, hr⟩ := hprobes _ hmem
    cases hr
  · rw [heq, List.mem_append, List.mem_cons] at hmem
    rcases hmem with hmem | hmem | hmem
    · have hr := (IseClient.validateCredentials_only deps.cfg _ _).event hthrough.confirmed hmem
      cases hr
    · cases hmem
    · rcases hthrough.issued with ⟨rfl, _⟩ | ⟨code', rfl, rfl⟩
      · cases hmem
      · rw [List.mem_singleton] at hmem
        injection hmem with _ hcode
        rw [hcode]
        exact ht

/-- Whoever pops a code is an exchange that presents it, from the configured client. -/
theorem popped_by (hb : deps.Built) {e : Entry Ise World} {code : String}
    (he : e ∈ (serverRun deps env moves).log) (hpop : e.event.1 = .popCode (some code)) :
    ∃ r left, (serverRun deps env moves).tasks[e.task]? = some ⟨.token r, left⟩ ∧
      r.Exchanges code := by
  obtain ⟨req, left, ht, hmay⟩ := run_may_entry hb he
  generalize ho : e.event.1 = o at hmay hpop
  subst hpop
  generalize hpop : Op.popCode (some code) = o at hmay
  cases hmay with
  | exchange hgrant _ => exact ⟨_, left, ht, hgrant, (Op.popCode.inj hpop).symm⟩
  | request hr hof => cases hof <;> cases hpop
  | record hrec => obtain ⟨rec, rfl⟩ | ⟨rec, rfl⟩ := hrec <;> cases hpop
  | _ => cases hpop

/-- An exchange that has made a step has popped its code. -/
theorem exchange_popped {validate : Validator} (hp : deps.provider = .passthrough validate)
    {e : Entry Ise World} {r : TokenRequest} {left : Prog Ise ServerReply}
    (he : e ∈ (serverRun deps env moves).log)
    (ht : (serverRun deps env moves).tasks[e.task]? = some ⟨.token r, left⟩)
    (hgrant : r.grantType = "authorization_code") :
    ∃ x, e.event = ⟨Op.popCode (lastValue r.form "code"), x⟩ ∧
      left = .ret (.http ((redeem deps.cfg r.exchangeArgs x).map oauthReply)) := by
  have hmem : e.event ∈ eventsOf (serverRun deps env moves).log e.task :=
    mem_eventsOf.mpr ⟨e, he, rfl, rfl⟩
  rcases exchange_task hp hgrant (serverRun_path ht) with
    ⟨_, hes, _⟩ | ⟨_, hes, _⟩ | ⟨_, x, hes, hr⟩
  · rw [hes] at hmem
    cases hmem
  · rw [hes] at hmem
    cases hmem
  · rw [hes, List.mem_singleton] at hmem
    exact ⟨x, hmem, hr⟩

/-- A code is issued at one place of the log. -/
theorem issue_unique (hfresh : Function.Injective fun n => (env.token n).text)
    {pre pre' post post' : ServerLog} {e e' : Entry Ise World} {grant grant' : CodeGrant}
    {code : String} (hlog : (serverRun deps env moves).log = pre ++ e :: post)
    (hlog' : (serverRun deps env moves).log = pre' ++ e' :: post')
    (he : e.event = ⟨Op.issueCode grant, code⟩) (he' : e'.event = ⟨Op.issueCode grant', code⟩) :
    post = post' := by
  -- a code is the token drawn at the step of its entry, which is its position in the log
  have hdrawn : ∀ {pre post e grant}, (serverRun deps env moves).log = pre ++ e :: post →
      e.event = ⟨Op.issueCode grant, code⟩ → code = (env.token pre.length).text := by
    intro pre post e grant hlog he
    rw [← run_index hlog]
    exact run_answer hlog he
  have hlen : pre.length = pre'.length := hfresh ((hdrawn hlog he).symm.trans (hdrawn hlog' he'))
  rw [hlog] at hlog'
  exact (List.cons.inj (List.append_inj hlog' hlen).2).2

/-! ## Who gets a token -/

/-- The record that an exchange finds is outstanding, so its code was issued to a form and nobody
has exchanged it since. -/
theorem entitled_of_granted (hb : deps.Built) {validate : Validator}
    (hp : deps.provider = .passthrough validate)
    (hfresh : Function.Injective fun n => (env.token n).text) {i : Nat} {r : TokenRequest}
    (hgrant : r.grantType = "authorization_code") {out : Except PyExc HttpReply} {s : String}
    (ht : (serverRun deps env moves).tasks[i]? = some ⟨.token r, .ret (.http out)⟩)
    (hout : ∃ reply exp, out = .ok reply ∧ reply.Grants s exp) :
    ∃ sess, s = sess.sessionId ∧ EntitledTo deps env (serverRun deps env moves) i r sess := by
  rcases exchange_task hp hgrant (serverRun_path ht) with
    ⟨_, _, out', hr, hno⟩ | ⟨_, _, hno⟩ | ⟨hc, x, hes, hr⟩
  · cases hr
    obtain ⟨t, err, rfl, _⟩ := granted_iff.mp hout
    exact absurd rfl (hno t err)
  · exact absurd rfl (hno _)
  · cases hr
    obtain ⟨t, err, hredeem, rfl⟩ := granted_iff.mp hout
    obtain ⟨rec, rfl, hclient, hredirect, hpkce, rfl, rfl⟩ := redeem_token_iff.mp hredeem
    obtain ⟨pre, redeem, post, hlog, rfl, hev⟩ := eventsOf_head hes
    obtain ⟨⟨code, hcode, hlookup⟩, hage⟩ :=
      CodeTable.fresh_eq_some_iff.mp (run_answer hlog hev).symm
    obtain ⟨pre, issue, mid, grant, rfl, hissue, rfl, hmid⟩ :=
      ((server_codes hfresh hlog).table code rec).mp hlookup
    have hlog' : (serverRun deps env moves).log = pre ++ issue :: (mid ++ redeem :: post) := by
      rw [hlog]
      simp
    obtain ⟨form, sess, rfl, hfor⟩ := issued_for hb hlog' hissue
    refine ⟨sess, rfl, clientOk_true hc, code, form, pre, issue, mid, redeem, post,
      ⟨hgrant, hcode⟩, hlog', rfl, ?_, hfor, hredirect, pkceOk_iff.mp hpkce, hage, ?_⟩
    · rw [hev, hcode]
    · rintro e he r' left ht' ⟨hgrant', hcode'⟩
      refine hmid e he ?_
      obtain ⟨x, hx, _⟩ := exchange_popped hp (by rw [hlog']; simp [he]) ht' hgrant'
      rw [hx, hcode']

/-- An entitled exchange finds the record of its code. -/
theorem granted_of_entitled (hb : deps.Built) {validate : Validator}
    (hp : deps.provider = .passthrough validate)
    (hfresh : Function.Injective fun n => (env.token n).text) {i : Nat} {r : TokenRequest}
    {left : Prog Ise ServerReply} {sess : Session}
    (ht : (serverRun deps env moves).tasks[i]? = some ⟨.token r, left⟩)
    (h : EntitledTo deps env (serverRun deps env moves) i r sess) :
    ∃ reply, left = .ret (.http (.ok reply)) ∧
      reply.Grants sess.sessionId deps.cfg.sessionTtlSeconds := by
  obtain ⟨hauth, code, form, pre, issue, mid, redeem, post, ⟨hgrant, hcode⟩, hlog, rfl, hpop, hfor,
    hredirect, hpkce, hage, hmid⟩ := h
  have hsplit : (serverRun deps env moves).log = (pre ++ issue :: mid) ++ redeem :: post := by
    rw [hlog]
    simp
  obtain ⟨x, hx, rfl⟩ := exchange_popped hp (by rw [hsplit]; simp) ht hgrant
  -- nobody popped the code in between, so the table still holds its record
  have hout : Outstanding env (pre ++ issue :: mid) code
      ⟨grantOf deps.cfg (loginArgs form) sess, env.now issue.before.steps⟩ := by
    refine ⟨pre, issue, mid, _, rfl, hfor.event, rfl, fun e he hepop => ?_⟩
    obtain ⟨r', left', ht', hr'⟩ := popped_by hb (by rw [hlog]; simp [he]) hepop
    exact hmid e he r' left' ht' hr'
  have hlookup := ((server_codes hfresh hsplit).table _ _).mpr hout
  have hfound : x = some ⟨grantOf deps.cfg (loginArgs form) sess, env.now issue.before.steps⟩ :=
    (run_answer hsplit hx).trans
      (CodeTable.fresh_eq_some_iff.mpr ⟨⟨code, hcode, hlookup⟩, hage⟩)
  obtain ⟨hid, _⟩ := hauth
  have hredeem : OAuthServer.redeem deps.cfg r.exchangeArgs x
      = .ok (some (baseToken deps.cfg (grantOf deps.cfg (loginArgs form) sess)), none) :=
    redeem_token_iff.mpr ⟨_, hfound, hid.trans (congrArg some hfor.allowed.1.symm), hredirect,
      pkceOk_iff.mpr hpkce, rfl, rfl⟩
  rw [hredeem]
  exact ⟨_, rfl, oauthReply_grants_iff.mpr ⟨_, none, rfl, rfl, rfl⟩⟩

/-- **Codes in the whole server**, in every interleaving of all requests: an exchange is answered
with a token exactly if it is entitled to a session, and then for that session; and a code is worth
one token. -/
structure CodeGrants (deps : Deps) (env : Env) (sys : ServerSys) : Prop where
  granted_iff : ∀ (i : Nat) r out, r.grantType = "authorization_code" →
    sys.tasks[i]? = some ⟨.token r, .ret (.http out)⟩ → ∀ s,
    (∃ reply exp, out = .ok reply ∧ reply.Grants s exp) ↔
      ∃ sess, sess.sessionId = s ∧ EntitledTo deps env sys i r sess
  once : ∀ (i j : Nat) r r' reply reply' s s' exp exp' code,
    sys.tasks[i]? = some ⟨.token r, .ret (.http (.ok reply))⟩ → reply.Grants s exp →
    sys.tasks[j]? = some ⟨.token r', .ret (.http (.ok reply'))⟩ → reply'.Grants s' exp' →
    r.Exchanges code → r'.Exchanges code → i = j

theorem code_grants (hb : deps.Built) {validate : Validator}
    (hp : deps.provider = .passthrough validate)
    (hfresh : Function.Injective fun n => (env.token n).text) :
    CodeGrants deps env (serverRun deps env moves) where
  granted_iff := by
    intro i r out hgrant ht s
    constructor
    · intro hout
      obtain ⟨sess, rfl, h⟩ := entitled_of_granted hb hp hfresh hgrant ht hout
      exact ⟨sess, rfl, h⟩
    · rintro ⟨sess, rfl, h⟩
      obtain ⟨reply, hr, hgrants⟩ := granted_of_entitled hb hp hfresh ht h
      cases hr
      exact ⟨reply, _, rfl, hgrants⟩
  once := by
    intro i j r r' reply reply' s s' exp exp' code hi hs hj hs' hr hr'
    obtain ⟨_, _, _, code₁, _, pre, issue, mid, redeem, post, hc₁, hlog, rfl, _, hfor, _, _, _,
      hmid⟩ := entitled_of_granted hb hp hfresh hr.1 hi ⟨reply, exp, rfl, hs⟩
    obtain ⟨_, _, _, code₂, _, pre', issue', mid', redeem', post', hc₂, hlog', rfl, _, hfor', _, _,
      _, hmid'⟩ := entitled_of_granted hb hp hfresh hr'.1 hj ⟨reply', exp', rfl, hs'⟩
    have h₁ : code₁ = code := Option.some.inj (hc₁.2.symm.trans hr.2)
    have h₂ : code₂ = code := Option.some.inj (hc₂.2.symm.trans hr'.2)
    subst h₁
    subst h₂
    have hrest := issue_unique hfresh hlog hlog' hfor.event hfor'.event
    -- of two exchanges the later one would come after one that presented the code
    rcases mem_or_mem_or_eq hrest with hmem | hmem | heq
    · exact absurd hr (hmid' redeem hmem r _ hi)
    · exact absurd hr' (hmid redeem' hmem r' _ hj)
    · rw [heq]

/-- **No open redirect.** Whoever is redirected with a code has posted a form of the configured
client, with a redirect URI of the allow-list and with credentials that ISE confirmed in four
probes, and is sent to that URI with a code for the session that was opened for them. -/
theorem redirect_allowed (hb : deps.Built) {i : Nat} {req : ServerRequest} {uri code state : String}
    (ht : (serverRun deps env moves).tasks[i]?
      = some ⟨req, .ret (.http (.ok (.redirect uri code state)))⟩) :
    uri ≠ "" ∧ uri ∈ deps.cfg.oauthRedirectUris ∧ ∃ form answers sess,
      req = .authorizePost form ∧ (loginArgs form).clientId = deps.cfg.oauthClientId ∧
      (loginArgs form).redirectUri = uri ∧ (lastValue form "state").getD "" = state ∧
      answers.length = 4 ∧ (∀ resp ∈ answers, resp.status < 400) ∧
      eventsOf (serverRun deps env moves).log i
        = probeEvents deps.cfg (loginArgs form).username (loginArgs form).password answers
          ++ [opened form sess,
            ⟨Op.issueCode (grantOf deps.cfg (loginArgs form) sess), code⟩] := by
  have hpath := serverRun_path ht
  obtain ⟨form, rfl⟩ := code_returned hpath
  rcases authorizePost_path hb hpath with ⟨_, hno⟩ | ⟨es₀, sess, es₁, heq, hthrough⟩
  · exact absurd rfl (hno uri code state)
  · rcases hthrough.issued with ⟨_, hno⟩ | ⟨code', rfl, hreply⟩
    · exact absurd rfl (hno _)
    · cases hreply
      obtain ⟨_, _, answers, hlen, hlt, rfl⟩ := path_validate_iff.mp hthrough.confirmed
      obtain ⟨hid, _, hredirect⟩ := hthrough.allowed
      simp only [redirectOk, Bool.and_eq_true, bne_iff_ne, decide_eq_true_eq] at hredirect
      exact ⟨hredirect.1, hredirect.2, form, answers, sess, rfl, hid, rfl, rfl, hlen, hlt, heq⟩

end

/-- The exchange of the code that is drawn at step 5. -/
def codeRequest : TokenRequest where
  form := [("grant_type", "authorization_code"), ("code", (sampleEnv.token 5).text),
    ("redirect_uri", "https://cb"), ("client_id", "cid"), ("client_secret", "sec")]
  authorization := none

def aliceForm : List (String × String) :=
  [("client_id", "cid"), ("redirect_uri", "https://cb"), ("username", "alice"),
    ("password", "pw")]

/-- A login form is posted, and its code is exchanged. -/
def exchangeMoves : List (Move ServerRequest) :=
  .spawn (.authorizePost aliceForm) :: List.replicate 6 (.advance 0) ++
    [.spawn (.token codeRequest), .advance 1]

/-- The exchange is entitled to the session that was opened at step 4. -/
theorem code_grants_exchange : ∃ sess : Session, sess.sessionId = (sampleEnv.token 4).text ∧
    EntitledTo oauthDeps sampleEnv (serverRun oauthDeps sampleEnv exchangeMoves) 1 codeRequest
      sess := by
  have hb : oauthDeps.Built := rfl
  have h := @code_grants oauthDeps sampleEnv exchangeMoves hb _ rfl sampleEnv_fresh
  have hdone : (serverRun oauthDeps sampleEnv exchangeMoves).tasks[1]? = some
      ⟨.token codeRequest, .ret (.http (.ok (.json 200
        (BaseToken.toDict ⟨(sampleEnv.token 4).text, 3600, "ise.read"⟩))))⟩ := by
    -- the age of the code is a comparison of rationals
    with_unfolding_all rfl
  exact (h.granted_iff 1 codeRequest _ rfl hdone _).mp ⟨_, 3600, rfl, _, rfl, rfl, rfl⟩

/-- That form was answered with a redirect, after four probes for alice. -/
theorem redirect_allowed_alice : "https://cb" ∈ oauthDeps.cfg.oauthRedirectUris ∧
    ∃ answers sess code, answers.length = 4 ∧
      eventsOf (serverRun oauthDeps sampleEnv exchangeMoves).log 0
        = probeEvents oauthDeps.cfg "alice" "pw" answers ++ [opened aliceForm sess,
            ⟨Op.issueCode (grantOf oauthDeps.cfg (loginArgs aliceForm) sess), code⟩] := by
  have hb : oauthDeps.Built := rfl
  have hdone : (serverRun oauthDeps sampleEnv exchangeMoves).tasks[0]? = some
      ⟨.authorizePost aliceForm,
        .ret (.http (.ok (.redirect "https://cb" (sampleEnv.token 5).text "")))⟩ := rfl
  obtain ⟨_, hmem, form, answers, sess, hform, _, _, _, hlen, _, hevents⟩ :=
    redirect_allowed hb hdone
  cases hform
  exact ⟨hmem, answers, sess, _, hlen, hevents⟩

end IseMcp
