import IseMcp.Authorize
import IseMcp.AuthorizationCode
import IseMcp.GateCoverage
import IseMcp.StoreHistory

set_option autoImplicit false

/-! # How long a token lives

A token response names a session and the ttl of sessions. The session may be older than the
response: in the `authorization_code` grant it was opened when the login form was posted, and the
code was exchanged later (`response_opened`). Its limits count from there, so a token that is
presented as the response allows is accepted exactly if it is in time counted from the login
(`token_accepted_iff`).
-/

namespace IseMcp

open Python Interaction Text

/-- The reply is a token response for `s`, said to be good for `expiresIn` seconds. -/
def HttpReply.Grants (reply : HttpReply) (s : String) (expiresIn : Int) : Prop :=
  ∃ body, reply = .json 200 (.dict body) ∧ body.lookup "access_token" = some (.str s) ∧
    body.lookup "expires_in" = some (.int expiresIn)

/-- The entry `e` is the last step of a request to `/token` that was answered with `s`. -/
structure TokenResponse (sys : ServerSys) (pre : ServerLog) (e : Entry Ise World)
    (post : ServerLog) (r : TokenRequest) (s : String) (expiresIn : Int) : Prop where
  log : sys.log = pre ++ e :: post
  last : eventsOf post e.task = []
  reply : ∃ reply, sys.tasks[e.task]? = some ⟨.token r, .ret (.http (.ok reply))⟩ ∧
    reply.Grants s expiresIn

/-- When `s` was presented in these entries. -/
def presentations (env : Env) (s : String) (l : ServerLog) : List Time :=
  accessTimes s (storeHistory env l)

/-- After the response at `e`, the token `s` is presented to the gate at the end of the run: before
it expires as the response says, not logged out, and without a gap longer than the idle timeout
since the response. -/
structure PresentedInTime (deps : Deps) (env : Env) (sys : ServerSys) (e : Entry Ise World)
    (post : ServerLog) (s : String) (expiresIn : Int) (scope : Scope) : Prop where
  type : scope.type = "http"
  path : rstripSlash scope.path = "/mcp"
  token : gateToken deps scope = .ok (some s)
  expires : env.now sys.world.steps - env.now e.before.steps ≤ expiresIn
  kept : ∀ x ∈ sys.log, x.event.1 ≠ .deleteSession (some s)
  idle : WithinIdle deps.cfg.sessionIdleTimeoutSeconds
    (env.now e.before.steps :: presentations env s post ++ [env.now sys.world.steps])

/-! ## Replies -/

theorem credentialsReply_grants_iff {cfg : Config} {out : Except PyExc Session} {s : String}
    {expiresIn : Int} : (credentialsReply cfg out).Grants s expiresIn ↔
      ∃ sess, out = .ok sess ∧ s = sess.sessionId ∧ expiresIn = cfg.sessionTtlSeconds := by
  rcases out with e | sess
  · simp [credentialsReply, HttpReply.Grants]
  · constructor
    · rintro ⟨body, hbody, hs, hexp⟩
      cases hbody
      cases hs
      cases hexp
      exact ⟨sess, rfl, rfl, rfl⟩
    · rintro ⟨sess, hsess, rfl, rfl⟩
      cases hsess
      exact ⟨_, rfl, rfl, rfl⟩

theorem oauthReply_grants_iff {out : Option BaseToken × Option String} {s : String}
    {expiresIn : Int} : (oauthReply out).Grants s expiresIn ↔
      ∃ t err, out = (some t, err) ∧ s = t.accessToken ∧ expiresIn = t.expiresIn := by
  obtain ⟨_ | t, err⟩ := out
  · refine iff_of_false ?_ ?_
    · rintro ⟨body, hbody, _⟩
      simp only [oauthReply] at hbody
      split_ifs at hbody <;> cases hbody
    · rintro ⟨t, err', h, _⟩
      cases h
  · constructor
    · rintro ⟨body, hbody, hs, hexp⟩
      cases hbody
      cases hs
      cases hexp
      exact ⟨t, err, rfl, rfl, rfl⟩
    · rintro ⟨t, err, h, rfl, rfl⟩
      cases h
      exact ⟨_, rfl, rfl, rfl⟩

/-! ## Where the session of a response comes from -/

/-- The entry opened the session `s`. -/
def Opens (c : Entry Ise World) (s : String) : Prop :=
  ∃ username auth sess, c.event = ⟨Op.createSession username auth, sess⟩ ∧ sess.sessionId = s

section

variable {deps : Deps} {env : Env} {moves : List (Move ServerRequest)}

/-- An outstanding code stands for a session that was opened before it was issued. -/
theorem outstanding_opened (hb : deps.Built) {pre post : ServerLog} {e : Entry Ise World}
    (hlog : (serverRun deps env moves).log = pre ++ e :: post) {code : String} {rec : Code}
    (hout : Outstanding env pre code rec) :
    ∃ pre₀ c mid, pre = pre₀ ++ c :: mid ∧ Opens c rec.grant.sessionId := by
  obtain ⟨pre₁, issue, mid₁, grant, rfl, hissue, rfl, _⟩ := hout
  have hlog' : (serverRun deps env moves).log = pre₁ ++ issue :: (mid₁ ++ e :: post) := by
    rw [hlog]
    simp
  obtain ⟨req, left, k, _, hpath⟩ := serverRun_call hlog'
  obtain ⟨i, w, ev⟩ := issue
  dsimp only at hissue
  subst hissue
  -- the form that issued the code opened its session just before
  obtain ⟨form, es₀, sess, _, hes, hgrant, _⟩ := issues_code hb hpath
  obtain ⟨pre₀, c, mid, rfl, _, hc, _⟩ := eventsOf_split hes
  refine ⟨pre₀, c, mid ++ _ :: mid₁, by rw [List.append_assoc, List.cons_append],
    _, _, sess, hc, ?_⟩
  rw [hgrant]
  rfl

/-- What the request of a token response did, up to its last step. -/
theorem TokenResponse.path {pre post : ServerLog} {e : Entry Ise World} {r : TokenRequest}
    {s : String} {expiresIn : Int}
    (h : TokenResponse (serverRun deps env moves) pre e post r s expiresIn) :
    ∃ reply, Prog.Path (token deps r).run (eventsOf pre e.task ++ [e.event]) (.ret (.ok reply)) ∧
      reply.Grants s expiresIn := by
  obtain ⟨hlog, hlast, reply, htask, hgrants⟩ := h
  have hpath := serverRun_path htask
  rw [hlog, eventsOf_append, eventsOf_cons_self, hlast, ServerRequest.program,
    Prog.path_bind_ret_iff] at hpath
  obtain ⟨res, es₁, es₂, hes, hrun, hret⟩ := hpath
  obtain ⟨rfl, hres⟩ := (Prog.path_ret_iff _ _ _).mp hret
  cases hres
  rw [hes, List.append_nil]
  exact ⟨reply, hrun, hgrants⟩

/-- Only a passthrough server answers with tokens. -/
theorem TokenResponse.passthrough {pre post : ServerLog} {e : Entry Ise World} {r : TokenRequest}
    {s : String} {expiresIn : Int}
    (h : TokenResponse (serverRun deps env moves) pre e post r s expiresIn) :
    ∃ validate, deps.provider = .passthrough validate := by
  rcases hp : deps.provider with validate | auth
  · exact ⟨validate, rfl⟩
  · obtain ⟨reply, hrun, _⟩ := h.path
    rw [token, hp] at hrun
    have hnil := ((Prog.path_ret_iff _ _ _).mp hrun).1
    simp at hnil

/-- **Where the session of a token response comes from.** In the `client_credentials` grant the
response's last step opened it, in the `authorization_code` grant an earlier entry. -/
theorem response_opened (hb : deps.Built) (hfresh : Function.Injective fun n => (env.token n).text)
    {pre post : ServerLog} {e : Entry Ise World} {r : TokenRequest} {s : String} {expiresIn : Int}
    (h : TokenResponse (serverRun deps env moves) pre e post r s expiresIn) :
    expiresIn = deps.cfg.sessionTtlSeconds ∧
      (r.grantType = "client_credentials" ∧ Opens e s ∨
        r.grantType = "authorization_code" ∧ ∃ pre₀ c mid, pre = pre₀ ++ c :: mid ∧ Opens c s) := by
  obtain ⟨reply, hrun, hgrants⟩ := h.path
  have hlog := h.log
  generalize hes : eventsOf pre e.task ++ [e.event] = es at hrun
  rcases token_cases deps r with ⟨reply', hr⟩ | ⟨validate, u, p, hgrant, hp, hr⟩ | ⟨a, hgrant, hr⟩
  -- a request that is answered at once takes no step
  · rw [hr, Prog.path_ret_iff] at hrun
    rw [hrun.1] at hes
    simp at hes
  · rw [hr, Prog.path_bind_ret_iff] at hrun
    obtain ⟨out, es₃, es₄, rfl, hlogin, hout⟩ := hrun
    obtain ⟨rfl, hreply⟩ := (Prog.path_ret_iff _ _ _).mp hout
    cases hreply
    obtain ⟨sess, rfl, rfl, rfl⟩ := credentialsReply_grants_iff.mp hgrants
    obtain ⟨es₀, rfl, _⟩ := PassthroughProvider.login_returns hlogin
    rw [List.append_nil] at hes
    obtain ⟨_, hlastEvent⟩ := List.append_inj' hes rfl
    exact ⟨rfl, Or.inl ⟨hgrant, u, _, sess, List.singleton_inj.mp hlastEvent, rfl⟩⟩
  · rw [hr, Prog.path_bind_ret_iff] at hrun
    obtain ⟨out, es₃, es₄, rfl, hexchange, hout⟩ := hrun
    rcases out with e' | out
    · cases ((Prog.path_ret_iff _ _ _).mp hout).2
    obtain ⟨rfl, hreply⟩ := (Prog.path_ret_iff _ _ _).mp hout
    cases hreply
    obtain ⟨t, err, rfl, rfl, rfl⟩ := oauthReply_grants_iff.mp hgrants
    obtain ⟨rec, rfl, rfl⟩ := OAuthServer.exchangeCode_returns hexchange
    -- the record it popped was outstanding
    have hone : eventsOf pre e.task ++ [e.event] = [] ++ [⟨Op.popCode a.code, some rec⟩] := hes
    obtain ⟨_, hlastEvent⟩ := List.append_inj' hone rfl
    have hevent : e.event = ⟨Op.popCode a.code, some rec⟩ := List.singleton_inj.mp hlastEvent
    obtain ⟨⟨code, _, hlookup⟩, _⟩ :=
      CodeTable.fresh_eq_some_iff.mp (run_answer hlog hevent).symm
    have hcodes : CodesInv env pre e.before :=
      run_history (I := CodesInv env) (CodesInv.initial env _ _)
        (fun _ _ i o h => h.step hfresh i o) hlog
    exact ⟨rfl, Or.inr ⟨hgrant, outstanding_opened hb hlog ((hcodes.table code rec).mp hlookup)⟩⟩

/-! ## What the gate accepts -/

/-- The gate lets a token through exactly if it can be compared with the API keys, and is one of
them or finds a session. -/
theorem forwards_token_iff {validate : Validator} (hp : deps.provider = .passthrough validate)
    (hmode : deps.cfg.authMode = "passthrough") {scope : Scope} (htype : scope.type = "http")
    (hpath : rstripSlash scope.path = "/mcp") {s : String} (hne : s ≠ "")
    (htok : gateToken deps scope = .ok (some s)) (w : World) :
    Forwards deps scope env w ↔ Comparable s deps.cfg.apiKeys ∧
      (s ∈ deps.cfg.apiKeys ∨ ∃ sess, (w.store.get (env.now w.steps) (some s)).1 = some sess) := by
  have hkey : deps.isApiKey (some s) = Deps.anyDigest s deps.cfg.apiKeys := if_neg hne
  rw [forwards_iff hmode htype hpath htok, Deps.run_sessionValid, hkey]
  rcases hdigest : Deps.anyDigest s deps.cfg.apiKeys with e | b
  · have hno : ¬ Comparable s deps.cfg.apiKeys := by
      rw [← anyDigest_returns_iff, hdigest]
      simp
    exact iff_of_false nofun fun h => hno h.1
  · obtain ⟨hcomparable, rfl⟩ := anyDigest_ok_iff.mp hdigest
    rw [and_iff_right hcomparable]
    by_cases hmem : s ∈ deps.cfg.apiKeys
    · simp [hmem]
    · have htruthy : truthy (some s) = true := by simpa [truthy] using hne
      simp only [hmem, decide_false, false_or]
      rw [hp, Provider.sessionValid, PassthroughProvider.run_sessionValid htruthy, Prog.exec_call,
        Prog.exec_ret, Except.ok.injEq]
      exact Option.isSome_iff_exists

/-- A session that was opened at `c` and not logged out is found at the end of the run exactly if
it is in time counted from `c`. -/
theorem session_found_iff (hmono : Monotone env.now)
    (hfresh : Function.Injective fun n => (env.token n).text) {pre post : ServerLog}
    {c : Entry Ise World} {s : String}
    (hlog : (serverRun deps env moves).log = pre ++ c :: post) (hc : Opens c s)
    (hkept : ∀ x ∈ (serverRun deps env moves).log, x.event.1 ≠ .deleteSession (some s)) :
    (∃ sess, ((serverRun deps env moves).world.store.get
        (env.now (serverRun deps env moves).world.steps) (some s)).1 = some sess) ↔
      WithinTtl deps.cfg.sessionTtlSeconds (env.now c.before.steps)
          (env.now (serverRun deps env moves).world.steps) ∧
        WithinIdle deps.cfg.sessionIdleTimeoutSeconds (env.now c.before.steps ::
          presentations env s post ++ [env.now (serverRun deps env moves).world.steps]) := by
  obtain ⟨username, auth, sess, hev, rfl⟩ := hc
  have hdrawn := session_drawn hlog hev
  have hhistory := storeHistory_opened env pre post hev
  have hmonotonic := storeHistory_monotonic deps moves hmono
  have hids := storeHistory_fresh deps moves hfresh
  have hdeletes : ∀ op ∈ storeHistory env post, op.deletes sess.sessionId = false := by
    intro op hop
    obtain ⟨x, hx, hstep⟩ := List.mem_filterMap.mp hop
    by_contra hd
    exact hkept x (by rw [hlog]; simp [hx]) (storeOp_deletes hstep (by simpa using hd))
  rw [hlog, hhistory] at hmonotonic hids
  rw [hdrawn] at hdeletes ⊢
  rw [run_store, hlog, hhistory, Config.emptyStore]
  constructor
  · rintro ⟨found, hfound⟩
    obtain ⟨_, _, htime⟩ := (get_after_create_iff hmonotonic hids).mp hfound
    exact htime
  · intro htime
    exact ⟨_, (get_after_create_iff hmonotonic hids).mpr ⟨rfl, hdeletes, htime⟩⟩

/-- The session of the response was opened by an entry before `e`, and at the end of the run it is
in time counted from there. -/
def InTimeSinceLogin (deps : Deps) (env : Env) (sys : ServerSys) (pre : ServerLog)
    (e : Entry Ise World) (post : ServerLog) (s : String) : Prop :=
  ∃ pre₀ login mid, pre = pre₀ ++ login :: mid ∧ Opens login s ∧
    WithinTtl deps.cfg.sessionTtlSeconds (env.now login.before.steps) (env.now sys.world.steps) ∧
    WithinIdle deps.cfg.sessionIdleTimeoutSeconds (env.now login.before.steps ::
      presentations env s (mid ++ e :: post) ++ [env.now sys.world.steps])

theorem Opens.ne {pre post : ServerLog} {c : Entry Ise World} {s : String}
    (hlog : (serverRun deps env moves).log = pre ++ c :: post) (hc : Opens c s) : s ≠ "" := by
  obtain ⟨username, auth, sess, hev, rfl⟩ := hc
  rw [session_drawn hlog hev]
  exact (env.token c.before.steps).nonempty

/-- **When a token lives as long as its response says**: exactly if it can be compared with the API
keys, and is one of them, or comes from the `client_credentials` grant, or is in time counted from
the login. -/
theorem token_accepted_iff {cfg : Config} {fromstring : XmlParser} (deps : Deps)
    (hbuild : build cfg fromstring = .ok deps) (env : Env) (hmono : Monotone env.now)
    (hfresh : Function.Injective fun n => (env.token n).text) (moves : List (Move ServerRequest))
    (pre post : ServerLog) (e : Entry Ise World) (r : TokenRequest) (s : String) (expiresIn : Int)
    (scope : Scope) (hresp : TokenResponse (serverRun deps env moves) pre e post r s expiresIn)
    (hin : PresentedInTime deps env (serverRun deps env moves) e post s expiresIn scope) :
    Forwards deps scope env (serverRun deps env moves).world ↔
      Comparable s deps.cfg.apiKeys ∧
        (s ∈ deps.cfg.apiKeys ∨ r.grantType = "client_credentials" ∨
          InTimeSinceLogin deps env (serverRun deps env moves) pre e post s) := by
  have hb := build_built hbuild
  obtain ⟨validate, hp⟩ := hresp.passthrough
  obtain ⟨rfl, horigin⟩ := response_opened hb hfresh hresp
  have hsplit : ∀ {pre₀ mid : ServerLog} {c : Entry Ise World}, pre = pre₀ ++ c :: mid →
      (serverRun deps env moves).log = pre₀ ++ c :: (mid ++ e :: post) := by
    rintro pre₀ mid c rfl
    rw [hresp.log, List.append_assoc, List.cons_append]
  have hne : s ≠ "" := by
    rcases horigin with ⟨_, hopens⟩ | ⟨_, pre₀, c, mid, hpre, hopens⟩
    · exact hopens.ne hresp.log
    · exact hopens.ne (hsplit hpre)
  rw [forwards_token_iff hp (build_mode hbuild hp) hin.type hin.path hne hin.token]
  refine and_congr_right fun _ => or_congr_right ?_
  rcases horigin with ⟨hgrant, hopens⟩ | ⟨hgrant, pre₀, c, mid, hpre, hopens⟩
  -- a session as old as its response has the limits that the response states
  · refine iff_of_true ?_ (Or.inl hgrant)
    exact (session_found_iff hmono hfresh hresp.log hopens hin.kept).mpr
      ⟨Or.inr hin.expires, hin.idle⟩
  · have hother : r.grantType ≠ "client_credentials" := by
      rw [hgrant]
      decide
    rw [or_iff_right hother]
    constructor
    · intro hfound
      exact ⟨pre₀, c, mid, hpre, hopens,
        (session_found_iff hmono hfresh (hsplit hpre) hopens hin.kept).mp hfound⟩
    · rintro ⟨pre₁, c', mid', hpre', hopens', htime⟩
      exact (session_found_iff hmono hfresh (hsplit hpre') hopens' hin.kept).mpr htime

end

/-- A server with an OAuth client and no idle timeout. -/
def oauthDeps : Deps where
  cfg := { sampleConfig with oauthRedirectUris := ["https://cb"], sessionIdleTimeoutSeconds := 0 }
  provider := .passthrough (IseClient.validateCredentials
    { sampleConfig with oauthRedirectUris := ["https://cb"], sessionIdleTimeoutSeconds := 0 })
  fromstring := passthroughDeps.fromstring

theorem oauthDeps_comparable (s : String) : Comparable s oauthDeps.cfg.apiKeys := by
  intro pre k post h
  have hnil : pre ++ k :: post = [] := h.symm
  simp at hnil

theorem oauthDeps_build : build oauthDeps.cfg oauthDeps.fromstring = .ok oauthDeps := rfl

/-- The id of the session that a login opens in its fifth step. -/
def sampleSid : String := (sampleEnv.token 4).text

theorem sampleSid_gateToken : gateToken oauthDeps (keyScope [sampleSid]) = .ok (some sampleSid) := by
  have hascii : AsciiHeaders (keyScope [sampleSid]).headers := by
    show ∀ kv ∈ [(utf8Encode "X-API-Key", utf8Encode sampleSid)], _
    decide
  have hvalues : fieldValues (keyScope [sampleSid]).headers "x-api-key" = [sampleSid] := by rfl
  rw [gateToken_eq_carried oauthDeps hascii, hvalues]
  rfl

theorem sampleSid_path : rstripSlash (keyScope [sampleSid]).path = "/mcp" := by
  show rstripSlash "/mcp" = "/mcp"
  decide

/-- Alice asks for a token with her ISE credentials. -/
def credentialsRequest : TokenRequest :=
  ⟨[("grant_type", "client_credentials"), ("client_id", "alice"), ("client_secret", "pw")], none⟩

def credentialsMoves : List (Move ServerRequest) :=
  .spawn (.token credentialsRequest) :: List.replicate 5 (.advance 0)

/-- Her token is accepted a second later. -/
theorem token_accepted_credentials :
    Forwards oauthDeps (keyScope [sampleSid]) sampleEnv
      (serverRun oauthDeps sampleEnv credentialsMoves).world := by
  have hlast : ∃ e, (serverRun oauthDeps sampleEnv credentialsMoves).log.drop 4 = [e] ∧
      e.task = 0 ∧ e.before.steps = 4 := by
    with_unfolding_all exact ⟨_, rfl, rfl, rfl⟩
  obtain ⟨e, hdrop, htask, hsteps⟩ := hlast
  have hlog := (List.take_append_drop 4 (serverRun oauthDeps sampleEnv credentialsMoves).log).symm
  rw [hdrop] at hlog
  have hreply : (serverRun oauthDeps sampleEnv credentialsMoves).tasks[e.task]?
      = some ⟨.token credentialsRequest, .ret (.http (.ok (.json 200 (.dict
          [("access_token", .str sampleSid), ("token_type", .str "Bearer"),
            ("expires_in", .int 3600)]))))⟩ := by
    rw [htask]
    with_unfolding_all rfl
  have hops : (serverRun oauthDeps sampleEnv credentialsMoves).log.map (fun e => e.event.1)
      = List.replicate 4 (.probe (IseClient.probeRequest oauthDeps.cfg "alice" "pw"))
        ++ [.createSession "alice" (PassthroughProvider.authContext "alice" "pw")] := by
    with_unfolding_all rfl
  refine (token_accepted_iff oauthDeps oauthDeps_build sampleEnv Nat.mono_cast
    sampleEnv_fresh credentialsMoves _ [] e credentialsRequest sampleSid 3600
    (keyScope [sampleSid]) ⟨hlog, rfl, _, hreply, _, rfl, rfl, rfl⟩
    ⟨rfl, sampleSid_path, sampleSid_gateToken, ?_, ?_, Or.inl rfl⟩).mpr
    ⟨oauthDeps_comparable _, Or.inr (Or.inl (by decide))⟩
  · have hworld : (serverRun oauthDeps sampleEnv credentialsMoves).world.steps = 5 := by
      with_unfolding_all rfl
    rw [hworld, hsteps]
    show ((5 : ℕ) : ℚ) - (4 : ℕ) ≤ (3600 : ℤ)
    norm_num
  · intro x hx hdelete
    have hmem := List.mem_map_of_mem (f := fun e : Entry Ise World => e.event.1) hx
    rw [hops] at hmem
    simp [hdelete] at hmem

/-- Alice posts the login form in the first six seconds. Her code is exchanged a minute and a half
later, and the token is presented after a little more than an hour. -/
def lateExchangeEnv : Env :=
  { sampleEnv with now := fun n => if n ≤ 5 then n else if n = 6 then 104 else 3650 }

def exchangeRequest : TokenRequest :=
  ⟨[("grant_type", "authorization_code"), ("code", (sampleEnv.token 5).text),
    ("redirect_uri", "https://cb"), ("client_id", "cid"), ("client_secret", "sec")], none⟩

def lateExchange : List (Move ServerRequest) :=
  .spawn (.authorizePost [("client_id", "cid"), ("redirect_uri", "https://cb"),
      ("username", "alice"), ("password", "pw")]) ::
    List.replicate 6 (.advance 0) ++ [.spawn (.token exchangeRequest), .advance 1]

/-- The token is refused 3546 seconds after the response that gave it 3600. -/
theorem late_exchange_refused :
    Monotone lateExchangeEnv.now ∧
      ¬ ∀ pre post e r s expiresIn scope,
        TokenResponse (serverRun oauthDeps lateExchangeEnv lateExchange) pre e post r s expiresIn →
        PresentedInTime oauthDeps lateExchangeEnv (serverRun oauthDeps lateExchangeEnv lateExchange)
          e post s expiresIn scope →
        Forwards oauthDeps scope lateExchangeEnv
          (serverRun oauthDeps lateExchangeEnv lateExchange).world := by
  constructor
  · refine monotone_nat_of_le_succ fun n => ?_
    show (if n ≤ 5 then (n : ℚ) else if n = 6 then 104 else 3650)
      ≤ if n + 1 ≤ 5 then ((n + 1 : ℕ) : ℚ) else if n + 1 = 6 then 104 else 3650
    rcases Nat.lt_or_ge n 7 with hn | hn
    · interval_cases n <;> norm_num
    · rw [if_neg (by omega), if_neg (by omega), if_neg (by omega), if_neg (by omega)]
  intro h
  have hlast : ∃ e, (serverRun oauthDeps lateExchangeEnv lateExchange).log.drop 6 = [e] ∧
      e.task = 1 ∧ e.before.steps = 6 := by
    with_unfolding_all exact ⟨_, rfl, rfl, rfl⟩
  obtain ⟨e, hdrop, htask, hsteps⟩ := hlast
  have hlog := (List.take_append_drop 6 (serverRun oauthDeps lateExchangeEnv lateExchange).log).symm
  rw [hdrop] at hlog
  have hreply : (serverRun oauthDeps lateExchangeEnv lateExchange).tasks[e.task]?
      = some ⟨.token exchangeRequest, .ret (.http (.ok
          (oauthReply (some ⟨sampleSid, 3600, "ise.read"⟩, none))))⟩ := by
    rw [htask]
    with_unfolding_all rfl
  have hops : (serverRun oauthDeps lateExchangeEnv lateExchange).log.map (fun e => e.event.1)
      = List.replicate 4 (.probe (IseClient.probeRequest oauthDeps.cfg "alice" "pw"))
        ++ [.createSession "alice" (PassthroughProvider.authContext "alice" "pw"),
          .issueCode ⟨"cid", "https://cb", "ise.read", sampleSid, ""⟩,
          .popCode (some (sampleEnv.token 5).text)] := by
    with_unfolding_all rfl
  have hforward := h _ [] e exchangeRequest sampleSid 3600 (keyScope [sampleSid])
    ⟨hlog, rfl, _, hreply, _, rfl, rfl, rfl⟩
    ⟨rfl, sampleSid_path, sampleSid_gateToken, ?_, ?_, Or.inl rfl⟩
  · -- there is no API key, and the session is expired
    have hnone : ((serverRun oauthDeps lateExchangeEnv lateExchange).world.store.get
        (lateExchangeEnv.now (serverRun oauthDeps lateExchangeEnv lateExchange).world.steps)
        (some sampleSid)).1 = none := by
      with_unfolding_all rfl
    obtain ⟨_, hkey | ⟨sess, hfound⟩⟩ := (forwards_token_iff rfl rfl rfl sampleSid_path
      (by decide) sampleSid_gateToken _).mp hforward
    · cases hkey
    · rw [hnone] at hfound
      cases hfound
  · have hworld : (serverRun oauthDeps lateExchangeEnv lateExchange).world.steps = 7 := by
      with_unfolding_all rfl
    rw [hworld, hsteps]
    show (3650 : ℚ) - 104 ≤ (3600 : ℤ)
    norm_num
  · intro x hx hdelete
    have hmem := List.mem_map_of_mem (f := fun e : Entry Ise World => e.event.1) hx
    rw [hops] at hmem
    simp [hdelete] at hmem

end IseMcp
