import IseMcp.Server

set_option autoImplicit false

/-! # No confused deputy

Every request that a tool call sends to ISE carries the credentials that its own token stands for:
the service account for an API key, or the pair with which the session of that id was opened.

The provenance of a stored session is an invariant of the machine: some entry of the log created
it, and no later entry deleted it (`stored_created`). Where a session can be created comes from the
paths of the requests: only at the end of a login whose validator said yes (`creates_session`).
-/

namespace IseMcp

open Python Interaction

/-! ## Where a stored session comes from -/

/-- `s` is the session that the entry `create` made for `(username, auth)`, up to the time of its
last use. -/
def CreatedAs (create : Entry Ise World) (username : String) (auth : AuthContext) (s : Session) :
    Prop :=
  ∃ s₀ : Session, create.event = ⟨Op.createSession username auth, s₀⟩ ∧
    s = { s₀ with lastUsedAt := s.lastUsedAt } ∧ s₀.auth = auth

/-- A session stored under `sid` was created by an entry under this id and never deleted. -/
def Stored (l : ServerLog) (sid : String) (s : Session) : Prop :=
  ∃ pre create post username auth, l = pre ++ create :: post ∧
    CreatedAs create username auth s ∧ s.sessionId = sid ∧ sid ≠ "" ∧
    ∀ e ∈ post, e.event.1 ≠ .deleteSession (some sid)

theorem CreatedAs.touch {create : Entry Ise World} {username : String} {auth : AuthContext}
    {s : Session} (h : CreatedAs create username auth s) (now : Time) :
    CreatedAs create username auth { s with lastUsedAt := now } := by
  obtain ⟨s₀, hev, hs, hauth⟩ := h
  refine ⟨s₀, hev, ?_, hauth⟩
  rw [hs]

theorem Stored.touch {l : ServerLog} {sid : String} {s : Session} (h : Stored l sid s)
    (now : Time) : Stored l sid { s with lastUsedAt := now } := by
  obtain ⟨pre, create, post, username, auth, hl, hs, hsid, hne, hpost⟩ := h
  exact ⟨pre, create, post, username, auth, hl, hs.touch now, hsid, hne, hpost⟩

theorem Stored.sid_ne {l : ServerLog} {sid : String} {s : Session} (h : Stored l sid s) :
    sid ≠ "" := by
  obtain ⟨_, _, _, _, _, _, _, _, hne, _⟩ := h
  exact hne

/-- One more entry, that does not delete the session. -/
theorem Stored.snoc {l : ServerLog} {sid : String} {s : Session} (h : Stored l sid s)
    {e : Entry Ise World} (he : e.event.1 ≠ .deleteSession (some sid)) :
    Stored (l ++ [e]) sid s := by
  obtain ⟨pre, create, post, username, auth, rfl, hs, hsid, hne, hpost⟩ := h
  refine ⟨pre, create, post ++ [e], username, auth, by simp, hs, hsid, hne, fun x hx => ?_⟩
  rcases List.mem_append.mp hx with hx | hx
  · exact hpost x hx
  · rw [List.mem_singleton.mp hx]
    exact he

/-- The invariant of the store. -/
def Provenance (l : ServerLog) (w : World) : Prop :=
  ∀ sid s, w.store.lookup sid = some s → Stored l sid s

theorem Provenance.step {env : Env} {l : ServerLog} {w : World} (h : Provenance l w) (i : Nat)
    (o : Op) : Provenance (l ++ [⟨i, w, ⟨o, (serve env w o).1⟩⟩]) (serve env w o).2 := by
  intro sid s hs
  cases o with
  | createSession username auth =>
      -- the new session is created by the last entry, the others are as before
      by_cases hsid : sid = (env.token w.steps).text
      · subst hsid
        have hself : s = (w.store.create (env.now w.steps) (env.token w.steps).text username auth).1 :=
          Option.some.inj (hs.symm.trans (SessionStore.lookup_create_self _ _ _ _ _))
        subst hself
        exact ⟨l, _, [], username, auth, rfl, ⟨_, rfl, rfl, rfl⟩, rfl,
          (env.token w.steps).nonempty, by simp⟩
      · have hold : w.store.lookup sid = some s :=
          (SessionStore.lookup_create_ne _ _ _ _ hsid).symm.trans hs
        exact (h sid s hold).snoc nofun
  | getSession o =>
      by_cases ho : o = some sid
      · subst ho
        by_cases hne : sid = ""
        · subst hne
          exact (h "" s hs).snoc nofun
        · -- the session found is the stored one, touched
          have hget : (w.store.get (env.now w.steps) (some sid)).1 = some s :=
            (SessionStore.lookup_get_self _ _ hne).symm.trans hs
          rw [SessionStore.get_fst _ _ hne, Option.bind_eq_some_iff] at hget
          obtain ⟨s', hs', hlive⟩ := hget
          split_ifs at hlive
          cases hlive
          exact ((h sid s' hs').touch _).snoc nofun
      · have hold : w.store.lookup sid = some s :=
          (SessionStore.lookup_get_ne _ _ ho).symm.trans hs
        exact (h sid s hold).snoc nofun
  | deleteSession o =>
      -- the deleted id has no session any more
      by_cases ho : o = some sid
      · subst ho
        by_cases hne : sid = ""
        · subst hne
          exact absurd rfl (h "" s hs).sid_ne
        · have hnone := SessionStore.lookup_delete_self w.store hne
          exact absurd (hnone.symm.trans hs) nofun
      · have hold : w.store.lookup sid = some s :=
          (SessionStore.lookup_delete_ne _ ho).symm.trans hs
        refine (h sid s hold).snoc fun he => ho ?_
        cases he
        rfl
  | _ => exact (h sid s hs).snoc nofun

/-! ## Where a session can be created -/

/-- No session is created by this operation. -/
def Op.CreatesNone (o : Op) : Prop := ∀ username auth, o ≠ .createSession username auth

/-- The creation that a login leads to comes after a validator that said yes to the user name and
the password it is created for. -/
theorem login_creates {α : Type} {validate : Validator} (hv : validate.Probes) {u p : String}
    {f : Except PyExc Session → Prog Ise α} (hf : ∀ r, Prog.Only Op.CreatesNone (f r))
    {es : List (Event Ise)} {username : String} {auth : AuthContext}
    {k : Session → Prog Ise α}
    (h : Prog.Path ((PassthroughProvider.login validate u p).run >>= f) es
      (.call (S := Ise) (.createSession username auth) k)) :
    username = u ∧ auth = PassthroughProvider.authContext u p ∧
      Prog.Path (validate u p).run es (.ret (.ok true)) := by
  rcases Prog.path_bind_call h with ⟨k', h⟩ | ⟨r, es₁, es₂, rfl, _, h⟩
  · rcases PassthroughProvider.login_calls h with ⟨k'', h⟩ | ⟨ho, _, _, hpath⟩
    · obtain ⟨req, hreq, _⟩ := (hv u p).next h
      cases hreq
    · cases ho
      exact ⟨rfl, rfl, hpath⟩
  · exact absurd rfl ((hf r).next h username auth)

/-- **A session is only created at the end of a login** whose validator said yes to the credentials
that the session keeps. -/
theorem creates_session {deps : Deps} {validate : Validator} (hv : validate.Probes)
    (hp : deps.provider = .passthrough validate) {req : ServerRequest} {es : List (Event Ise)}
    {username : String} {auth : AuthContext} {k : Session → Prog Ise ServerReply}
    (h : Prog.Path (req.program deps) es
      (.call (S := Ise) (.createSession username auth) k)) :
    ∃ p, auth = PassthroughProvider.authContext username p ∧
      Prog.Path (validate username p).run es (.ret (.ok true)) := by
  by_cases hgated : req.Gated deps
  · cases req with
    | tool headers call =>
        -- a gated tool records, resolves its caller and makes requests
        obtain ⟨t, ht⟩ := Option.isSome_iff_exists.mp hgated
        rcases gated_calls ht h with hrec | ⟨_, ⟨k', hres⟩ | ⟨_, _, _, r, _, _, _, hof⟩⟩
        · rcases hrec with ⟨rec, hrec⟩ | ⟨rec, hrec⟩ <;> cases hrec
        · obtain ⟨sid, hsid⟩ := (resolveAuth_only deps headers).next hres
          cases hsid
        · cases hof
    | _ => exact hgated.elim
  · rcases ungated_cases hgated with honly | ⟨validate', u, p, f, hp', hprog, hf, _⟩
    · cases honly.next h
    · rw [hp] at hp'
      cases hp'
      rw [hprog] at h
      have hnone : ∀ r, Prog.Only Op.CreatesNone (f r) := fun r => (hf r).mono fun o ho => by
        obtain ⟨grant, rfl⟩ := ho
        exact nofun
      obtain ⟨rfl, hauth, hpath⟩ := login_creates hv hnone h
      exact ⟨p, hauth, hpath⟩

/-! ## What the caller is resolved from -/

theorem anyDigest_true {tok : String} {keys : List String}
    (h : Deps.anyDigest tok keys = .ok true) : tok ∈ keys := by
  induction keys with
  | nil => cases h
  | cons k keys ih =>
      unfold Deps.anyDigest at h
      rcases hk : compareDigest tok k with e | _ | _ <;> rw [hk] at h
      · cases h
      · exact List.mem_cons_of_mem _ (ih h)
      · rw [(compareDigest_ok_true.mp hk).1]
        exact List.mem_cons_self

theorem isApiKey_true {deps : Deps} {tok : Option String} (h : deps.isApiKey tok = .ok true) :
    ∃ key ∈ deps.cfg.apiKeys, tok = some key := by
  rcases tok with _ | tok
  · cases h
  · dsimp only [Deps.isApiKey] at h
    split_ifs at h
    · cases h
    · exact ⟨tok, anyDigest_true h, rfl⟩

/-- A resolved caller is an API key, or one found session. -/
theorem resolveAuth_returns {deps : Deps} {validate : Validator}
    (hp : deps.provider = .passthrough validate) {headers : Option RawHeaders}
    {es : List (Event Ise)} {auth : AuthContext}
    (h : Prog.Path (deps.resolveAuth headers).run es (.ret (.ok auth))) :
    (∃ key ∈ deps.cfg.apiKeys, deps.sessionId headers = some key ∧ auth = deps.apiKeyContext) ∨
    ∃ sess, es = [⟨Op.getSession (deps.sessionId headers), some sess⟩] ∧ auth = sess.auth := by
  rw [Deps.resolveAuth, Deps.run_resolveToken] at h
  rcases hkey : deps.isApiKey (deps.sessionId headers) with e | _ | _ <;> rw [hkey] at h
  · cases h
  · dsimp only at h
    rw [hp, Provider.resolve, PassthroughProvider.run_resolve, Prog.path_call_ret_iff] at h
    obtain ⟨x, es', rfl, h⟩ := h
    rcases x with _ | sess
    · cases h
    · obtain ⟨rfl, hauth⟩ := (Prog.path_ret_iff _ _ _).mp h
      cases hauth
      exact Or.inr ⟨sess, rfl, rfl⟩
  · obtain ⟨key, hmem, htok⟩ := isApiKey_true hkey
    cases h
    exact Or.inl ⟨key, hmem, htok, rfl⟩

/-! ## What a request carries -/

/-- The token is an API key, and the pair is the configured service account. -/
def ByApiKey (cfg : Config) (tok : Option String) (pair : String × String) : Prop :=
  (∃ key ∈ cfg.apiKeys, tok = some key) ∧ pair = (cfg.iseUsername, cfg.isePassword)

/-- The token is the id of a session. An entry of the log created it, after a run of the validator
on exactly `(u, p)` that returned `True`; nothing deleted it; and it was still live when the task
resolved its caller. -/
def ByLiveSession (cfg : Config) (env : Env) (pre : ServerLog) (task : Nat) (tok : Option String)
    (u p : String) : Prop :=
  ∃ pre₁ create mid resolve mid' sess stored,
    pre = pre₁ ++ create :: (mid ++ resolve :: mid') ∧
    create.event = ⟨Op.createSession u (PassthroughProvider.authContext u p), sess⟩ ∧
    tok = some sess.sessionId ∧
    Prog.Path (IseClient.validateCredentials cfg u p).run (eventsOf pre₁ create.task)
      (.ret (.ok true)) ∧
    (∀ e ∈ mid, e.event.1 ≠ .deleteSession tok) ∧
    resolve.task = task ∧ resolve.event.1 = .getSession tok ∧
    resolve.before.store.lookup sess.sessionId = some stored ∧
    stored = { sess with lastUsedAt := stored.lastUsedAt } ∧
    stored.isExpired (env.now resolve.before.steps) = false

/-- What holds of the requests of tool calls other than `ise_login` in a run. -/
structure NoConfusedDeputy (deps : Deps) (env : Env) (s : ServerSys) : Prop where
  /-- Whatever is sent to ISE carries the pair that the presented token stands for. -/
  carries : ∀ pre e post headers call left h, s.log = pre ++ e :: post →
    s.tasks[e.task]? = some ⟨.tool headers call, left⟩ → (∀ u p, call ≠ .iseLogin u p) →
    (e.event.1 = .send h ∨ e.event.1 = .probe h) →
    ByApiKey deps.cfg (deps.sessionId headers) h.auth ∨
      ∃ u p, h.auth = (u, p) ∧
        ByLiveSession deps.cfg env pre e.task (deps.sessionId headers) u p
  /-- A token that is neither an API key nor the id of a session sends nothing. -/
  silent : ∀ e ∈ s.log, ∀ headers call left,
    s.tasks[e.task]? = some ⟨.tool headers call, left⟩ → (∀ u p, call ≠ .iseLogin u p) →
    (∀ key ∈ deps.cfg.apiKeys, deps.sessionId headers ≠ some key) →
    (∀ c ∈ s.log, ∀ u auth sess, c.event = ⟨Op.createSession u auth, sess⟩ →
      deps.sessionId headers ≠ some sess.sessionId) →
    ∀ h, e.event.1 ≠ .send h ∧ e.event.1 ≠ .probe h

section

variable {deps : Deps} {env : Env} {moves : List (Move ServerRequest)}

theorem run_provenance {pre post : ServerLog} {e : Entry Ise World}
    (hlog : (serverRun deps env moves).log = pre ++ e :: post) : Provenance pre e.before := by
  refine run_history (I := Provenance) (fun sid s hs => ?_) (fun _ _ i o h => h.step i o) hlog
  cases hs

/-- An entry that creates a session ends a login that the validator confirmed. -/
theorem created_by_login (hb : deps.Built) (hmode : deps.cfg.authMode = "passthrough")
    {pre post : ServerLog} {create : Entry Ise World} {username : String} {auth : AuthContext}
    {s₀ : Session} (hlog : (serverRun deps env moves).log = pre ++ create :: post)
    (hcreate : create.event = ⟨Op.createSession username auth, s₀⟩) :
    ∃ p, auth = PassthroughProvider.authContext username p ∧
      Prog.Path (IseClient.validateCredentials deps.cfg username p).run
        (eventsOf pre create.task) (.ret (.ok true)) := by
  obtain ⟨i, w, ev⟩ := create
  dsimp only at hcreate
  subst hcreate
  obtain ⟨req, left, k, _, hpath⟩ := serverRun_call hlog
  exact creates_session (probes_validateCredentials deps.cfg) (hb.passthrough hmode) hpath

/-- A session that an entry has found is the one stored, touched, and it was not expired. -/
theorem found_stored {pre post : ServerLog} {resolve : Entry Ise World} {tok : Option String}
    {sess : Session} (hlog : (serverRun deps env moves).log = pre ++ resolve :: post)
    (hev : resolve.event = ⟨Op.getSession tok, some sess⟩) :
    ∃ sid stored, tok = some sid ∧ resolve.before.store.lookup sid = some stored ∧
      stored.isExpired (env.now resolve.before.steps) = false ∧ sess.auth = stored.auth := by
  have hget : (resolve.before.store.get (env.now resolve.before.steps) tok).1 = some sess :=
    (run_answer hlog hev).symm
  rcases tok with _ | sid
  · cases hget
  have hne : sid ≠ "" := by
    rintro rfl
    cases hget
  rw [SessionStore.get_fst _ _ hne, Option.bind_eq_some_iff] at hget
  obtain ⟨stored, hstored, hlive⟩ := hget
  split_ifs at hlive with hexp
  cases hlive
  exact ⟨sid, stored, rfl, hstored, by simpa using hexp, rfl⟩

/-- A session that a task has found was created by a login that the validator confirmed. -/
theorem found_session (hb : deps.Built) (hmode : deps.cfg.authMode = "passthrough")
    {pre post : ServerLog} {i : Nat} {tok : Option String} {sess : Session}
    {more : List (Event Ise)} (hlog : (serverRun deps env moves).log = pre ++ post)
    (hfound : eventsOf pre i = ⟨Op.getSession tok, some sess⟩ :: more) :
    ∃ u p, sess.auth = PassthroughProvider.authContext u p ∧
      ByLiveSession deps.cfg env pre i tok u p := by
  -- the step that resolved the caller, and before it the creation of what it found
  obtain ⟨pre₂, resolve, mid', rfl, htask, hev⟩ := eventsOf_head hfound
  have hresolve : (serverRun deps env moves).log = pre₂ ++ resolve :: (mid' ++ post) := by
    rw [hlog]
    simp
  obtain ⟨sid, stored, rfl, hstored, hlive, hsess⟩ := found_stored hresolve hev
  obtain ⟨pre₁, create, mid, username, auth, rfl, ⟨s₀, hcreate, hs₀, hauth⟩, hsid, _, hmid⟩ :=
    run_provenance hresolve sid stored hstored
  have hcreated : (serverRun deps env moves).log
      = pre₁ ++ create :: (mid ++ resolve :: (mid' ++ post)) := by
    rw [hresolve]
    simp
  obtain ⟨p, rfl, hvalid⟩ := created_by_login hb hmode hcreated hcreate
  have hid : s₀.sessionId = sid := by
    rw [← hsid, hs₀]
  have hkept : stored.auth = s₀.auth := by
    rw [hs₀]
  exact ⟨username, p, by rw [hsess, hkept, hauth], pre₁, create, mid, resolve, mid', s₀, stored,
    by simp, hcreate, by rw [hid], hvalid, hmid, htask, by rw [hev], by rw [hid]; exact hstored,
    hs₀, hlive⟩

/-- The pair that a request of a tool call carries. -/
theorem sent_pair (hb : deps.Built) (hmode : deps.cfg.authMode = "passthrough")
    {pre post : ServerLog} {e : Entry Ise World} {headers : Option RawHeaders} {call : ToolCall}
    {left : Prog Ise ServerReply} {h : HttpRequest}
    (hlog : (serverRun deps env moves).log = pre ++ e :: post)
    (htask : (serverRun deps env moves).tasks[e.task]? = some ⟨.tool headers call, left⟩)
    (hnologin : ∀ u p, call ≠ .iseLogin u p)
    (hsent : e.event.1 = .send h ∨ e.event.1 = .probe h) :
    ByApiKey deps.cfg (deps.sessionId headers) h.auth ∨
      ∃ u p, h.auth = (u, p) ∧
        ByLiveSession deps.cfg env pre e.task (deps.sessionId headers) u p := by
  obtain ⟨req, left', k, htask', hpath⟩ := serverRun_call hlog
  rw [htask] at htask'
  cases htask'
  by_cases hgated : (ServerRequest.tool headers call).Gated deps
  · obtain ⟨t, ht⟩ := Option.isSome_iff_exists.mp hgated
    rcases gated_calls ht hpath with hrec | ⟨_, ⟨k', hres⟩ | ⟨auth, es₁, es₂, r, hes, hres, hr, hof⟩⟩
    · rcases hrec with ⟨rec, hrec⟩ | ⟨rec, hrec⟩ <;> rw [hrec] at hsent <;> cases hsent <;>
        contradiction
    · obtain ⟨sid, hsid⟩ := (resolveAuth_only deps headers).next hres
      rw [hsid] at hsent
      cases hsent <;> contradiction
    · -- the request carries the pair of the resolved caller
      have hpair : auth.basicAuth = .ok h.auth := by
        rw [← (mayRequest_shape hr).2]
        generalize e.event.1 = o at hsent hof
        cases hof with
        | send hauth =>
            rcases hsent with hsent | hsent <;> cases hsent
            exact hauth
        | _ => cases hsent <;> contradiction
      rcases resolveAuth_returns (hb.passthrough hmode) hres with
        ⟨key, hkey, htok, rfl⟩ | ⟨sess, rfl, rfl⟩
      · rw [AuthContext.basicAuth_of_not_encoded rfl] at hpair
        exact Or.inl ⟨⟨key, hkey, htok⟩, (Except.ok.inj hpair).symm⟩
      · obtain ⟨u, p, hauth, hlive⟩ := found_session hb hmode hlog hes
        rw [hauth, AuthContext.basicAuth_of_not_encoded rfl] at hpair
        exact Or.inr ⟨u, p, (Except.ok.inj hpair).symm, hlive⟩
  · rcases ungated_cases hgated with honly | ⟨validate, u, p, f, _, _, _, hlogin⟩
    -- of the tools that are not gated only a login sends anything
    · have := honly.next hpath
      rcases hsent with hsent | hsent <;> rw [hsent] at this <;> cases this
    · exact absurd (hlogin headers call rfl) (hnologin u p)

end

/-- **No confused deputy**, in every interleaving of the requests of any number of users. -/
theorem no_confused_deputy (deps : Deps) (hb : deps.Built)
    (hmode : deps.cfg.authMode = "passthrough") (env : Env) (moves : List (Move ServerRequest)) :
    NoConfusedDeputy deps env (serverRun deps env moves) where
  carries := fun _ _ _ _ _ _ _ hlog htask hnologin hsent =>
    sent_pair hb hmode hlog htask hnologin hsent
  silent := by
    intro e he headers call left htask hnologin hkey hsid h
    obtain ⟨pre, post, hlog⟩ := List.append_of_mem he
    rw [← not_or]
    intro hsent
    rcases sent_pair hb hmode hlog htask hnologin hsent with
      ⟨⟨key, hmem, htok⟩, _⟩ | ⟨u, p, _, pre₁, create, mid, resolve, mid', sess, _, rfl, hev, htok, _⟩
    · exact hkey key hmem htok
    · exact hsid create (by rw [hlog]; simp) _ _ sess hev htok

def aliceHeaders : Option RawHeaders :=
  some [(Text.utf8Encode "X-MCP-Session", Text.utf8Encode "t")]

/-- Alice logs in, and reads an endpoint with the id of her session. -/
def aliceMoves : List (Move ServerRequest) :=
  .spawn (.tool none (.iseLogin "alice" "pw")) :: List.replicate 5 (.advance 0) ++
    .spawn (.tool aliceHeaders (.iseGetEndpointById "0123456789" none)) ::
      List.replicate 3 (.advance 1)

def aliceRequest : HttpRequest :=
  IseClient.httpRequest (ErsApi.getRequest passthroughDeps.cfg "/ers/config/endpoint/0123456789"
    (PassthroughProvider.authContext "alice" "pw") none) ("alice", "pw")

/-- The last step of that run sends her request, with her session and her password. -/
theorem no_confused_deputy_alice :
    ByLiveSession passthroughDeps.cfg (.always 200)
      ((serverRun passthroughDeps (.always 200) aliceMoves).log.take 7) 1
      (passthroughDeps.sessionId aliceHeaders) "alice" "pw" := by
  have h := no_confused_deputy passthroughDeps rfl rfl (.always 200) aliceMoves
  have hlast : ∃ e, (serverRun passthroughDeps (.always 200) aliceMoves).log.drop 7 = [e] ∧
      e.task = 1 ∧ e.event.1 = .send aliceRequest := by
    -- whether the session is expired is a comparison of rationals
    with_unfolding_all exact ⟨_, rfl, rfl, rfl⟩
  obtain ⟨e, hdrop, htask, hsend⟩ := hlast
  have hlog := (List.take_append_drop 7 (serverRun passthroughDeps (.always 200) aliceMoves).log).symm
  rw [hdrop] at hlog
  have hreq : ∃ left, (serverRun passthroughDeps (.always 200) aliceMoves).tasks[e.task]?
      = some ⟨.tool aliceHeaders (.iseGetEndpointById "0123456789" none), left⟩ := by
    rw [htask]
    with_unfolding_all exact ⟨_, rfl⟩
  obtain ⟨left, hleft⟩ := hreq
  rcases h.carries _ e [] aliceHeaders _ left aliceRequest hlog hleft nofun (Or.inl hsend) with
    ⟨⟨key, hkey, _⟩, _⟩ | ⟨u, p, hpair, hlive⟩
  · exact absurd hkey List.not_mem_nil
  · cases hpair
    rwa [htask] at hlive

end IseMcp
