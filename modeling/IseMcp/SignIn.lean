import IseMcp.CodeGrants
import IseMcp.LoginPage
import IseMcp.RedirectCarriesCode

set_option autoImplicit false

/-! # Signing in with a browser

The whole way from `GET /authorize` to a token: the login page is parsed by a browser and its form
submitted with what the user typed, the redirect is parsed by the client, and the code that the
client finds in it is exchanged. The client ends up with a session of the user who typed
(`browser_sign_in`), whatever other requests come in between.
-/

namespace IseMcp

open Python Interaction Text Html OAuthServer

/-! ## The form -/

/-- A text that the page and the form leave as it is. -/
structure Plain (s : String) : Prop where
  cr : '\r' ∉ s.toList
  lf : '\n' ∉ s.toList
  nul : Char.ofNat 0 ∉ s.toList

theorem Plain.posted {s : String} (h : Plain s) : toCrlf (fieldText s) = s := by
  rw [fieldText_plain h.cr h.nul, toCrlf_plain h.cr h.lf]

/-- What a user types into the two fields of the page. -/
def typedBy (username password name : String) : String :=
  if name = "username" then username else password

section

variable {table : EntityTable} {deps : Deps} {q params : List (String × String)}

/-- The page is shown for the configured client, and a redirect of the allow-list. -/
theorem authorizeGet_page {status : Nat} {error : String}
    (h : authorizeGet deps q = .ok (.loginPage status params error)) :
    params = pageParams q ∧ (lastValue q "client_id").getD "" = deps.cfg.oauthClientId ∧
      redirectOk deps.cfg (lastValue q "redirect_uri") = true := by
  unfold authorizeGet at h
  generalize deps.provider = provider at h
  cases provider with
  | serviceAccount _ => cases h
  | passthrough _ =>
      rcases hsame : compareDigest ((lastValue q "client_id").getD "") deps.cfg.oauthClientId with
        e | same <;> rw [hsame] at h
      · simp only [bind, Except.bind, pure, Except.pure] at h
        split_ifs at h
        cases h
      · simp only [bind, Except.bind, pure, Except.pure] at h
        split_ifs at h with htype hclient hredirect <;> cases h
        rw [hclient] at hsame
        exact ⟨rfl, (compareDigest_ok_true.mp hsame).1, hredirect⟩

/-- The posted form carries the parameters of the page, and what was typed. -/
theorem loginArgs_posted (hplain : ∀ kv ∈ pageParams q, Plain kv.2) {u p : String}
    (hu : Plain u) (hp : Plain p) (error : String) :
    loginArgs (posted table (typedBy u p) (loginPage (pageParams q) error)) =
      ⟨u, p, (lastValue q "client_id").getD "", (lastValue q "redirect_uri").getD "",
        (lastValue q "scope").getD "", (lastValue q "code_challenge").getD ""⟩ ∧
    (lastValue (posted table (typedBy u p) (loginPage (pageParams q) error)) "state").getD ""
      = (lastValue q "state").getD "" := by
  have hparam : ∀ k ∈ hiddenNames,
      toCrlf (fieldText ((lastValue (pageParams q) k).getD "")) = (lastValue q k).getD "" := by
    intro k hk
    have hcarried : (lastValue (pageParams q) k).getD "" = (lastValue q k).getD "" := by
      simp only [hiddenNames, List.mem_cons, List.not_mem_nil, or_false] at hk
      rcases hk with rfl | rfl | rfl | rfl | rfl <;> rfl
    rw [hcarried]
    exact (hplain (k, _) (List.mem_map.mpr ⟨k, hk, rfl⟩)).posted
  rw [posted_loginPage, List.map_congr_left fun k hk => by rw [hparam k hk]]
  have hname : typedBy u p "username" = u := if_pos rfl
  have hpassword : typedBy u p "password" = p := if_neg (by decide)
  rw [hname, hpassword, toCrlf_plain hu.cr hu.lf, toCrlf_plain hp.cr hp.lf]
  exact ⟨rfl, rfl⟩

end

/-! ## The redirect -/

/-- What the client finds in the query of the redirect, whatever parameters the redirect URI has of
its own. -/
theorem redirect_params {checkBracketed : List Char → Except PyExc Unit} {uri code state : String}
    (happ : Appendable checkBracketed uri) :
    ∃ url, redirectWithCode checkBracketed uri code state = .ok url ∧
      lastValue (queryParams (Uri.parse url.toList)) "code" = some code ∧
      (state ≠ "" → lastValue (queryParams (Uri.parse url.toList)) "state" = some state) ∧
      (Uri.parse url.toList).authority = (Uri.parse uri.toList).authority := by
  obtain ⟨url, hurl, hext⟩ := happ.carries code state
  refine ⟨url, hurl, ?_, fun hstate => ?_, hext.authority⟩ <;>
    rw [params_iff.mp hext.params, textParams]
  · split_ifs <;> simp [lastValue]
  · rw [if_neg hstate]
    simp [lastValue]

/-! ## The sign-in -/

section

variable {table : EntityTable} {checkBracketed : List Char → Except PyExc Unit} {deps : Deps}
  {env : Env} {moves : List (Move ServerRequest)} {q params : List (String × String)}

/-- The exchange of task `i` comes in time for the code of task `j`, and no other exchange of the
code comes in between. -/
def ExchangedInTime (env : Env) (sys : ServerSys) (j i : Nat) (code : String) : Prop :=
  ∃ pre issue mid redeem post, sys.log = pre ++ issue :: (mid ++ redeem :: post) ∧
    issue.task = j ∧ (∃ grant, issue.event.1 = .issueCode grant) ∧ redeem.task = i ∧
    env.now redeem.before.steps - env.now issue.before.steps ≤ codeTtl ∧
    ∀ e ∈ mid, ∀ r left, sys.tasks[e.task]? = some ⟨.token r, left⟩ → ¬ r.Exchanges code

/-- The entry that issued the code of a form that was answered with it. -/
theorem form_issued (hb : deps.Built) {pre post : ServerLog} {e : Entry Ise World}
    {form : List (String × String)} {uri code state : String}
    (hlog : (serverRun deps env moves).log = pre ++ e :: post)
    (hissue : ∃ grant, e.event.1 = .issueCode grant)
    (ht : (serverRun deps env moves).tasks[e.task]?
      = some ⟨.authorizePost form, .ret (.http (.ok (.redirect uri code state)))⟩) :
    ∃ sess, IssuedFor deps (serverRun deps env moves) pre e form sess code ∧
      uri = (loginArgs form).redirectUri ∧ state = (lastValue form "state").getD "" := by
  obtain ⟨i, w, o, x⟩ := e
  obtain ⟨grant, rfl⟩ := hissue
  obtain ⟨form', sess, rfl, hfor⟩ := issued_for hb hlog rfl
  have hsame := hfor.task.symm.trans ht
  cases hsame
  exact ⟨sess, hfor, rfl, rfl⟩

/-- The session that a form opened is for what the user typed. -/
theorem opened_session {pre post : ServerLog} {e : Entry Ise World}
    {form : List (String × String)} {sess : Session} {code : String}
    (hlog : (serverRun deps env moves).log = pre ++ e :: post)
    (hfor : IssuedFor deps (serverRun deps env moves) pre e form sess code) :
    sess.username = (loginArgs form).username ∧
      sess.auth = PassthroughProvider.authContext (loginArgs form).username
        (loginArgs form).password ∧
      opened form sess ∈ eventsOf (serverRun deps env moves).log e.task := by
  obtain ⟨es₀, hes, _⟩ := hfor.login
  obtain ⟨pre', c, post', rfl, htask, hc, _, _⟩ := eventsOf_split hes
  have hlog' : (serverRun deps env moves).log = pre' ++ c :: (post' ++ e :: post) := by
    rw [hlog]
    simp
  have hsess := run_answer hlog' hc
  refine ⟨congrArg Session.username hsess, congrArg Session.auth hsess, ?_⟩
  rw [hlog']
  exact mem_eventsOf.mpr ⟨c, List.mem_append_right _ List.mem_cons_self, htask, hc⟩

/-- **A sign-in with a browser gives the client a session of the user who typed.** The user is shown
the page for the request `q` and types `u` and `p`; the posted form is answered with a redirect; the
client takes the code out of its URL and exchanges it in time, with the redirect URI of `q` and a
verifier for its challenge. -/
theorem browser_sign_in (hb : deps.Built) {validate : Validator}
    (hp : deps.provider = .passthrough validate)
    (hfresh : Function.Injective fun n => (env.token n).text) {u p : String}
    (hpage : authorizeGet deps q = .ok (.loginPage 200 params ""))
    (hplain : ∀ kv ∈ pageParams q, Plain kv.2) (hu : Plain u) (hpw : Plain p) {j i : Nat}
    {uri code state : String}
    (hform : (serverRun deps env moves).tasks[j]? = some
      ⟨.authorizePost (posted table (typedBy u p) (loginPage params "")),
        .ret (.http (.ok (.redirect uri code state)))⟩)
    (happ : Appendable checkBracketed uri) {url : String}
    (hurl : redirectWithCode checkBracketed uri code state = .ok url) {r : TokenRequest}
    {left : Prog Ise ServerReply}
    (htoken : (serverRun deps env moves).tasks[i]? = some ⟨.token r, left⟩)
    (hgrant : r.grantType = "authorization_code") (hauth : r.exchangeArgs.Authentic deps.cfg)
    (hcode : lastValue r.form "code" = lastValue (queryParams (Uri.parse url.toList)) "code")
    (hredirect : lastValue r.form "redirect_uri" = lastValue q "redirect_uri")
    (hpkce : PkceMatches ((lastValue q "code_challenge").getD "") r.exchangeArgs.verifier)
    (htime : ExchangedInTime env (serverRun deps env moves) j i code) :
    uri ∈ deps.cfg.oauthRedirectUris ∧ state = (lastValue q "state").getD "" ∧
      ∃ sess reply, sess.username = u ∧ sess.auth = PassthroughProvider.authContext u p ∧
        (⟨Op.createSession u (PassthroughProvider.authContext u p), sess⟩ : Event Ise)
          ∈ eventsOf (serverRun deps env moves).log j ∧
        left = .ret (.http (.ok reply)) ∧
        reply.Grants sess.sessionId deps.cfg.sessionTtlSeconds := by
  obtain ⟨rfl, _, hok⟩ := authorizeGet_page hpage
  obtain ⟨hargs, hstate⟩ := @loginArgs_posted table q hplain u p hu hpw ""
  generalize posted table (typedBy u p) (loginPage (pageParams q) "") = form at hform hargs hstate
  obtain ⟨pre, issue, mid, redeem, post, hlog, rfl, hissue, rfl, hage, hmid⟩ := htime
  obtain ⟨sess, hfor, rfl, rfl⟩ := form_issued hb hlog hissue hform
  obtain ⟨hname, hctx, hopened⟩ := opened_session hlog hfor
  -- the client reads the code back from the URL
  have hread : lastValue r.form "code" = some code := by
    obtain ⟨url', hurl', hcode', _⟩ := @redirect_params _ _ code _ happ
    rw [hurl] at hurl'
    cases hurl'
    rw [hcode, hcode']
  have hpop : redeem.event.1 = .popCode (some code) := by
    obtain ⟨x, hx, _⟩ := exchange_popped hp (by rw [hlog]; simp) htoken hgrant
    rw [hx, hread]
  have hback : lastValue r.form "redirect_uri" = some (loginArgs form).redirectUri := by
    rw [hredirect, hargs]
    cases hq : lastValue q "redirect_uri" with
    | none =>
        rw [hq] at hok
        cases hok
    | some uri => rfl
  have hverifier : PkceMatches (loginArgs form).challenge r.exchangeArgs.verifier := by
    rw [hargs]
    exact hpkce
  obtain ⟨reply, hreply, hgrants⟩ := granted_of_entitled hb hp hfresh htoken
    ⟨hauth, code, _, pre, issue, mid, redeem, post, ⟨hgrant, hread⟩, hlog, rfl, hpop, hfor, hback,
      hverifier, hage, hmid⟩
  have hlisted : ∀ uri : String, redirectOk deps.cfg (some uri) = true →
      uri ∈ deps.cfg.oauthRedirectUris := by
    intro uri h
    simp only [redirectOk, Bool.and_eq_true, decide_eq_true_eq] at h
    exact h.2
  rw [opened, hargs] at hopened
  rw [hargs] at hname hctx
  exact ⟨hlisted _ hfor.allowed.2.2, hstate, sess, reply, hname, hctx, hopened, hreply, hgrants⟩

end

/-- The request that alice's client sends her browser with. -/
def aliceQuery : List (String × String) :=
  [("response_type", "code"), ("client_id", "cid"), ("redirect_uri", "https://cb"),
    ("state", "xyz")]

/-- What she posts. -/
def postedForm : List (String × String) :=
  [("client_id", "cid"), ("redirect_uri", "https://cb"), ("scope", ""), ("state", "xyz"),
    ("code_challenge", ""), ("username", "alice"), ("password", "pw")]

theorem posted_alice : posted markupTable (typedBy "alice" "pw")
    (loginPage (pageParams aliceQuery) "") = postedForm := by
  rw [posted_loginPage]
  decide +kernel

/-- What her client posts then. -/
def aliceToken : TokenRequest where
  form := [("grant_type", "authorization_code"), ("code", "aaaaaa"),
    ("redirect_uri", "https://cb"), ("client_id", "cid"), ("client_secret", "sec")]
  authorization := none

def aliceSignIn : List (Move ServerRequest) :=
  .spawn (.authorizePost postedForm) :: List.replicate 6 (.advance 0) ++
    [.spawn (.token aliceToken), .advance 1]

/-- Her client gets the id of her session. -/
theorem browser_sign_in_alice : ∃ (sess : Session) (reply : HttpReply), sess.username = "alice" ∧
    (serverRun oauthDeps sampleEnv aliceSignIn).tasks[1]?
      = some ⟨.token aliceToken, .ret (.http (.ok reply))⟩ ∧ reply.Grants sess.sessionId 3600 := by
  have hb : oauthDeps.Built := rfl
  have hpage : authorizeGet oauthDeps aliceQuery
      = .ok (.loginPage 200 (pageParams aliceQuery) "") := rfl
  have hplain : ∀ kv ∈ pageParams aliceQuery, Plain kv.2 := by
    have hall : ∀ kv ∈ pageParams aliceQuery,
        '\r' ∉ kv.2.toList ∧ '\n' ∉ kv.2.toList ∧ Char.ofNat 0 ∉ kv.2.toList := by decide +kernel
    exact fun kv hkv => ⟨(hall kv hkv).1, (hall kv hkv).2.1, (hall kv hkv).2.2⟩
  have hform : (serverRun oauthDeps sampleEnv aliceSignIn).tasks[0]? = some
      ⟨.authorizePost (posted markupTable (typedBy "alice" "pw")
          (loginPage (pageParams aliceQuery) "")),
        .ret (.http (.ok (.redirect "https://cb" "aaaaaa" "xyz")))⟩ := by
    rw [posted_alice]
    rfl
  have happ : Appendable (fun _ => .ok ()) "https://cb" := ⟨rfl, by decide, by
    have hnone : (Uri.parse "https://cb".toList).query = none := by decide
    rw [hnone]
    exact nofun⟩
  have htime : ExchangedInTime sampleEnv (serverRun oauthDeps sampleEnv aliceSignIn) 0 1
      "aaaaaa" := by
    refine ⟨(serverRun oauthDeps sampleEnv aliceSignIn).log.take 5, _, [], _, [], rfl, rfl,
      ⟨_, rfl⟩, rfl, ?_, fun _ h => absurd h List.not_mem_nil⟩
    show ((6 : Nat) : Time) - ((5 : Nat) : Time) ≤ 120
    norm_num
  have htyped : Plain "alice" ∧ Plain "pw" :=
    ⟨⟨by decide, by decide, by decide⟩, by decide, by decide, by decide⟩
  obtain ⟨left, htoken⟩ : ∃ left, (serverRun oauthDeps sampleEnv aliceSignIn).tasks[1]?
      = some ⟨.token aliceToken, left⟩ := ⟨_, rfl⟩
  obtain ⟨_, _, sess, reply, hname, _, _, rfl, hgrants⟩ :=
    @browser_sign_in markupTable (fun _ => .ok ()) oauthDeps sampleEnv aliceSignIn aliceQuery _ hb _
      rfl sampleEnv_fresh "alice" "pw" hpage hplain htyped.1 htyped.2 0 1 "https://cb" "aaaaaa"
      "xyz" hform happ "https://cb?code=aaaaaa&state=xyz" (by decide) aliceToken left htoken rfl
      ⟨rfl, rfl⟩ (by decide) rfl (Or.inl rfl) htime
  exact ⟨sess, reply, hname, htoken, hgrants⟩

end IseMcp
