import IseMcp.RequestSteps
import IseMcp.RetainedSecrets
import IseMcp.StoreHistory
import IseMcp.Tools.Outcome

set_option autoImplicit false

/-! # A session belongs to whoever presents its id

Which requests can touch a session: only those that carry its id (`presented`). So from the entry
that opens it on, its state is a fold over the reads and the logout of its own holder (`held`), and
once it is gone it is gone for good (`gone_forever`): nothing that reads it later gets a caller.
-/

namespace IseMcp

open Python Interaction Text

/-! ## Who presents an id -/

/-- The request carries the session id `s`, to the gate or to a tool. -/
def ServerRequest.Presents (deps : Deps) (s : String) : ServerRequest → Prop
  | .gate scope => gateToken deps scope = .ok (some s)
  | .tool headers _ => deps.sessionId headers = some s
  | _ => False

/-- A session is read by a request that presents it. -/
theorem ServerRequest.MayDo.reads {deps : Deps} {req : ServerRequest} {s : String}
    (h : req.MayDo deps (.getSession (some s))) : req.Presents deps s := by
  generalize ho : Op.getSession (some s) = o at h
  cases h with
  | gate htok =>
      rw [← Op.getSession.inj ho] at htok
      exact htok
  | caller _ => exact (Op.getSession.inj ho).symm
  | request hr hof => cases hof <;> cases ho
  | record hrec => obtain ⟨rec, rfl⟩ | ⟨rec, rfl⟩ := hrec <;> cases ho
  | _ => cases ho

/-- A session is deleted by a logout that presents it. -/
theorem ServerRequest.MayDo.deletes {deps : Deps} {req : ServerRequest} {s : String}
    (h : req.MayDo deps (.deleteSession (some s))) :
    ∃ headers, req = .tool headers .iseLogout ∧ deps.sessionId headers = some s := by
  generalize ho : Op.deleteSession (some s) = o at h
  cases h with
  | logout headers => exact ⟨headers, rfl, (Op.deleteSession.inj ho).symm⟩
  | request hr hof => cases hof <;> cases ho
  | record hrec => obtain ⟨rec, rfl⟩ | ⟨rec, rfl⟩ := hrec <;> cases ho
  | _ => cases ho

/-! ## One session through a run -/

section

variable {deps : Deps} {env : Env} {moves : List (Move ServerRequest)}

/-- The store before an entry is the one that the entries before it lead to. -/
theorem run_store_before {pre post : ServerLog} {e : Entry Ise World}
    (hlog : (serverRun deps env moves).log = pre ++ e :: post) :
    e.before.store = deps.cfg.emptyStore.after (storeHistory env pre) :=
  run_history (I := fun l w => w.store = deps.cfg.emptyStore.after (storeHistory env l)) rfl
    store_step hlog

/-- The entry of the store under `sid` after a step that creates no session under it. -/
def Op.onSession (sid : String) (t : Time) (x : Option Session) : Op → Option Session
  | .getSession tok => if tok = some sid then x.bind (Session.touch t) else x
  | .deleteSession tok => if tok = some sid then none else x
  | _ => x

/-- What is gone stays gone. -/
theorem Op.onSession_none (sid : String) (t : Time) (o : Op) : o.onSession sid t none = none := by
  unfold Op.onSession
  split
  · split_ifs <;> rfl
  · split_ifs <;> rfl
  · rfl

theorem lookup_step {pre post : ServerLog} {e : Entry Ise World} {sid : String} (hne : sid ≠ "")
    (hlog : (serverRun deps env moves).log = pre ++ e :: post)
    (hnew : ∀ u a, e.event.1 = .createSession u a → (env.token e.before.steps).text ≠ sid) :
    (deps.cfg.emptyStore.after (storeHistory env (pre ++ [e]))).lookup sid
      = e.event.1.onSession sid (env.now e.before.steps)
          ((deps.cfg.emptyStore.after (storeHistory env pre)).lookup sid) := by
  rw [storeHistory_append, SessionStore.after_append, storeHistory, storeHistory,
    List.filterMap_cons, List.filterMap_nil]
  generalize deps.cfg.emptyStore.after (List.filterMap (storeOp env) pre) = st
  obtain ⟨i, w, o, x⟩ := e
  cases o with
  | createSession u a =>
      exact (SessionStore.lookup_apply st hne ⟨env.now w.steps,
        .create u a (env.token w.steps)⟩).trans
        (if_neg (hnew u a rfl))
  | getSession tok => exact SessionStore.lookup_apply st hne ⟨env.now w.steps, .get tok⟩
  | deleteSession tok => exact SessionStore.lookup_apply st hne ⟨env.now w.steps, .delete tok⟩
  | _ => rfl

/-- A session `sess` as it stands after the entries `l` of its life: with the time of its last use,
or gone since a logout or since a read that came too late. -/
inductive Since (env : Env) (sess : Session) (l : ServerLog) : Option Session → Prop where
  | unused (h : ∀ e ∈ l, e.event.1 ≠ .getSession (some sess.sessionId)) :
      Since env sess l (some sess)
  | used (e : Entry Ise World) (he : e ∈ l) (hev : e.event.1 = .getSession (some sess.sessionId)) :
      Since env sess l (some { sess with lastUsedAt := env.now e.before.steps })
  | loggedOut (e : Entry Ise World) (he : e ∈ l)
      (hev : e.event.1 = .deleteSession (some sess.sessionId)) : Since env sess l none
  | expired (e : Entry Ise World) (he : e ∈ l)
      (hev : e.event.1 = .getSession (some sess.sessionId)) (s : Session)
      (hstored : e.before.store.lookup sess.sessionId = some s)
      (hexp : s.isExpired (env.now e.before.steps) = true) : Since env sess l none

/-- One more entry. -/
theorem Since.snoc {sess : Session} {l : ServerLog} {x : Option Session} (h : Since env sess l x)
    (e : Entry Ise World) (hx : e.before.store.lookup sess.sessionId = x) :
    Since env sess (l ++ [e])
      (e.event.1.onSession sess.sessionId (env.now e.before.steps) x) := by
  have hlast : e ∈ l ++ [e] := by simp
  have hmem {e' : Entry Ise World} (he' : e' ∈ l) : e' ∈ l ++ [e] := List.mem_append_left _ he'
  by_cases hdel : e.event.1 = .deleteSession (some sess.sessionId)
  · rw [hdel]
    show Since env sess (l ++ [e]) (if _ then none else x)
    rw [if_pos rfl]
    exact .loggedOut e hlast hdel
  by_cases hget : e.event.1 = .getSession (some sess.sessionId)
  · rw [hget]
    show Since env sess (l ++ [e]) (if _ then x.bind _ else x)
    rw [if_pos rfl]
    cases h with
    | unused _ =>
        rcases hexp : sess.isExpired (env.now e.before.steps) with _ | _
        · rw [Option.bind_some, Session.touch_live hexp]
          exact .used e hlast hget
        · rw [Option.bind_some, Session.touch_expired hexp]
          exact .expired e hlast hget sess hx hexp
    | used e' he' hev =>
        generalize hs : ({ sess with lastUsedAt := env.now e'.before.steps } : Session) = s at hx
        rcases hexp : s.isExpired (env.now e.before.steps) with _ | _
        · rw [Option.bind_some, Session.touch_live hexp, ← hs]
          exact .used e hlast hget
        · rw [Option.bind_some, Session.touch_expired hexp]
          exact .expired e hlast hget s hx hexp
    | loggedOut e' he' hev => exact .loggedOut e' (hmem he') hev
    | expired e' he' hev s hs hexp => exact .expired e' (hmem he') hev s hs hexp
  · have hsame : e.event.1.onSession sess.sessionId (env.now e.before.steps) x = x := by
      unfold Op.onSession
      split
      · rename_i tok heq
        exact if_neg fun h => hget (by rw [heq, h])
      · rename_i tok heq
        exact if_neg fun h => hdel (by rw [heq, h])
      · rfl
    rw [hsame]
    cases h with
    | unused hno =>
        refine .unused fun e' he' => ?_
        rcases List.mem_append.mp he' with he' | he'
        · exact hno e' he'
        · rw [List.mem_singleton.mp he']
          exact hget
    | used e' he' hev => exact .used e' (hmem he') hev
    | loggedOut e' he' hev => exact .loggedOut e' (hmem he') hev
    | expired e' he' hev s hs hexp => exact .expired e' (hmem he') hev s hs hexp

/-- No entry opens the session of an earlier one again. -/
theorem not_opened_again (hfresh : Function.Injective fun n => (env.token n).text)
    {pre l post : ServerLog} {c e : Entry Ise World} {u : String} {a : AuthContext} {sess : Session}
    (hc : c.event = ⟨Op.createSession u a, sess⟩)
    (hlog : (serverRun deps env moves).log = pre ++ c :: (l ++ e :: post)) :
    (env.token e.before.steps).text ≠ sess.sessionId := by
  intro heq
  have hlog' : (serverRun deps env moves).log = (pre ++ c :: l) ++ e :: post := by
    rw [hlog]
    simp
  have hsteps := hfresh (heq.trans (session_drawn hlog hc))
  rw [run_index hlog', run_index hlog, List.length_append, List.length_cons] at hsteps
  omega

theorem session_ne {pre post : ServerLog} {c : Entry Ise World} {u : String} {a : AuthContext}
    {sess : Session} (hc : c.event = ⟨Op.createSession u a, sess⟩)
    (hlog : (serverRun deps env moves).log = pre ++ c :: post) : sess.sessionId ≠ "" := by
  rw [session_drawn hlog hc]
  exact (env.token c.before.steps).nonempty

/-- **A session through its life.** After the entry that opens it, its place in the store changes
only by reads and logouts of its own id. -/
theorem held (hfresh : Function.Injective fun n => (env.token n).text) {pre : ServerLog}
    {c : Entry Ise World} {u : String} {a : AuthContext} {sess : Session}
    (hc : c.event = ⟨Op.createSession u a, sess⟩) (l post : ServerLog)
    (hlog : (serverRun deps env moves).log = pre ++ c :: (l ++ post)) :
    Since env sess l ((deps.cfg.emptyStore.after (storeHistory env (pre ++ c :: l))).lookup
      sess.sessionId) := by
  have hne := session_ne hc hlog
  -- the induction is on the life so far, from its last entry
  induction l using List.reverseRecOn generalizing post with
  | nil =>
      have hcreated := run_answer hlog hc
      have hstore := run_store_after hlog
      rw [hc] at hstore
      have hlookup : (serve env c.before (.createSession u a)).2.store.lookup sess.sessionId
          = some sess := by
        rw [hcreated]
        exact SessionStore.lookup_create_self _ _ _ _ _
      rw [← hstore, hlookup]
      exact .unused fun _ h => absurd h List.not_mem_nil
  | append_singleton l e ih =>
      have hlog' : (serverRun deps env moves).log = (pre ++ c :: l) ++ e :: post := by
        rw [hlog]
        simp
      have hsplit : (serverRun deps env moves).log = pre ++ c :: (l ++ e :: post) := by
        rw [hlog]
        simp
      have hbefore := run_store_before hlog'
      rw [show pre ++ c :: (l ++ [e]) = (pre ++ c :: l) ++ [e] by simp,
        lookup_step hne hlog' fun _ _ _ => not_opened_again hfresh hc hsplit]
      exact (ih (e :: post) hsplit).snoc e (by rw [hbefore])

/-- **What is gone is gone for good**: once the session has ended, its id is read in vain. -/
theorem gone_forever (hfresh : Function.Injective fun n => (env.token n).text) {pre : ServerLog}
    {c : Entry Ise World} {u : String} {a : AuthContext} {sess : Session}
    (hc : c.event = ⟨Op.createSession u a, sess⟩) (l post : ServerLog)
    (hlog : (serverRun deps env moves).log = pre ++ c :: (l ++ post))
    (hgone : (deps.cfg.emptyStore.after (storeHistory env (pre ++ c :: l))).lookup sess.sessionId
      = none) :
    ∀ e ∈ post, e.event.1 = .getSession (some sess.sessionId) →
      e.event = ⟨Op.getSession (some sess.sessionId), none⟩ := by
  have hne := session_ne hc hlog
  -- it stays gone through any part of the rest
  have hstays : ∀ l' post', post = l' ++ post' →
      (deps.cfg.emptyStore.after (storeHistory env (pre ++ c :: (l ++ l')))).lookup sess.sessionId
        = none := by
    intro l'
    induction l' using List.reverseRecOn with
    | nil =>
        intro _ _
        rwa [List.append_nil]
    | append_singleton l' e ih =>
        intro post' hpost
        have hsplit : (serverRun deps env moves).log = pre ++ c :: (l ++ l' ++ e :: post') := by
          rw [hlog, hpost]
          simp
        have hlog' : (serverRun deps env moves).log = (pre ++ c :: (l ++ l')) ++ e :: post' := by
          rw [hsplit]
          simp
        rw [show pre ++ c :: (l ++ (l' ++ [e])) = (pre ++ c :: (l ++ l')) ++ [e] by simp,
          lookup_step hne hlog' fun _ _ _ => not_opened_again hfresh hc hsplit,
          ih (e :: post') (by rw [hpost]; simp)]
        exact Op.onSession_none _ _ _
  intro e he hev
  obtain ⟨l', post', rfl⟩ := List.append_of_mem he
  have hlog' : (serverRun deps env moves).log = (pre ++ c :: (l ++ l')) ++ e :: post' := by
    rw [hlog]
    simp
  have hnone := hstays l' (e :: post') rfl
  rw [← run_store_before hlog'] at hnone
  obtain ⟨i, w, o, x⟩ := e
  cases hev
  have hx : x = (w.store.get (env.now w.steps) (some sess.sessionId)).1 := run_answer hlog' rfl
  have hmissing : (w.store.get (env.now w.steps) (some sess.sessionId)).1 = none := by
    rw [SessionStore.get_fst _ _ hne, hnone]
    rfl
  rw [hx, hmissing]

end

/-! ## Turned away -/

/-- The gate looks at the request. -/
structure Scope.OnMcp (scope : Scope) : Prop where
  type : scope.type = "http"
  path : rstripSlash scope.path = "/mcp"

section

variable {deps : Deps}

/-- The reply of `run` when the caller's session is not found. -/
def noSession : PyVal :=
  error (exc .sessionError "Missing or expired MCP session; call ise_login first")

theorem record_reads_none {o : Op} (h : o.IsRecord) (tok : Option String) :
    o ≠ Op.getSession tok := by
  obtain ⟨rec, rfl⟩ | ⟨rec, rfl⟩ := h <;> exact nofun

theorem fail_reads_none (cfg : Config) (actor : String) (t : Tool) (e : PyExc)
    (tok : Option String) : Prog.Only (· ≠ Op.getSession tok) (fail cfg actor t e) :=
  (fail_only _ _ _ _).mono fun _ ho => record_reads_none ho tok

/-- The caller of a request is not found: that is all that resolving it does. -/
theorem resolveAuth_missing {headers : Option RawHeaders} {tok : Option String}
    {es : List (Event Ise)} {q : Prog Ise (Except PyExc AuthContext)}
    (h : Prog.Path (deps.resolveAuth headers).run es q)
    (hread : (⟨Op.getSession tok, none⟩ : Event Ise) ∈ es) :
    es = [⟨Op.getSession tok, none⟩] ∧ q = .ret (.error (exc .sessionError
      "Missing or expired MCP session; call ise_login first")) := by
  rw [Deps.resolveAuth, Deps.run_resolveToken] at h
  rcases hkey : deps.isApiKey (deps.sessionId headers) with e | _ | _ <;> rw [hkey] at h
  · rw [((Prog.path_ret_iff _ _ _).mp h).1] at hread
    cases hread
  · dsimp only at h
    rcases hp : deps.provider with validate | auth <;> rw [hp] at h
    · rw [Provider.resolve, PassthroughProvider.run_resolve, Prog.path_call_iff] at h
      rcases h with ⟨rfl, _⟩ | ⟨x, es', rfl, h⟩
      · cases hread
      · cases x with
        | none =>
            obtain ⟨rfl, rfl⟩ := (Prog.path_ret_iff _ _ _).mp h
            rw [List.mem_singleton] at hread
            cases hread
            exact ⟨rfl, rfl⟩
        | some sess =>
            obtain ⟨rfl, rfl⟩ := (Prog.path_ret_iff _ _ _).mp h
            rw [List.mem_singleton] at hread
            cases hread
    · rw [((Prog.path_ret_iff _ _ _).mp h).1] at hread
      cases hread
  · rw [((Prog.path_ret_iff _ _ _).mp h).1] at hread
    cases hread

/-- After the caller is resolved, a tool does nothing to the sessions. -/
theorem perform_reads_none {call : ToolCall} {t : Tool} (ht : call.tool deps = some t)
    (auth : AuthContext) (tok : Option String) :
    Prog.Only (· ≠ Op.getSession tok) (perform deps.cfg t auth) := by
  refine Prog.Only.bind ((fn_only ht auth).mono ?_) fun out => ?_
  · rintro o ⟨r, _, hof⟩
    cases hof <;> exact nofun
  · cases out with
    | error e => exact fail_reads_none _ _ _ _ _
    | ok v =>
        exact ((audit_only _ _ _ _ _).mono fun _ ho => record_reads_none ho tok).bind fun _ =>
          .ret _

/-- What is done for the outcome of resolving the caller. -/
def proceed (deps : Deps) (t : Tool) (r : Except PyExc AuthContext) : Prog Ise PyVal :=
  match r with
  | .error e => fail deps.cfg "unknown" t e
  | .ok auth => perform deps.cfg t auth

/-- A tool whose caller was not found has only kept records, and answers that. -/
theorem run_turned_away {headers : Option RawHeaders} {call : ToolCall} {t : Tool}
    (ht : call.tool deps = some t) {tok : Option String} {es : List (Event Ise)}
    {q : Prog Ise PyVal} (h : Prog.Path (run deps headers t) es q)
    (hread : (⟨Op.getSession tok, none⟩ : Event Ise) ∈ es) :
    (∀ ev ∈ es, ev.1.IsRecord ∨ ev = ⟨Op.getSession tok, none⟩) ∧
      ∀ env, q = .ret env → env = noSession := by
  have hnot : ∀ {p : Prog Ise PyVal} {es' q'}, Prog.Only (· ≠ Op.getSession tok) p →
      Prog.Path p es' q' → (⟨Op.getSession tok, none⟩ : Event Ise) ∉ es' :=
    fun honly hpath hmem => honly.event hpath hmem rfl
  cases hg : gates deps.cfg t with
  | error e =>
      rw [run_refused hg] at h
      exact absurd hread (hnot (fail_reads_none _ _ _ _ _) h)
  | ok _ =>
      rw [run_admitted hg] at h
      -- the read is among the steps that resolve the caller, and the run fails after them
      have hfailed : ∀ {es₁ es₂ : List (Event Ise)} {r : Except PyExc AuthContext},
          Prog.Path (deps.resolveAuth headers).run es₁ (.ret r) →
          (⟨Op.getSession tok, none⟩ : Event Ise) ∈ es₁ →
          Prog.Path (proceed deps t r) es₂ q →
          (∀ ev ∈ es₁ ++ es₂, ev.1.IsRecord ∨ ev = ⟨Op.getSession tok, none⟩) ∧
            ∀ env, q = .ret env → env = noSession := by
        intro es₁ es₂ r hres hmem hrest
        obtain ⟨rfl, hr⟩ := resolveAuth_missing hres hmem
        cases hr
        refine ⟨fun ev hev => ?_, fun env hq => ?_⟩
        · rcases List.mem_append.mp hev with hev | hev
          · exact Or.inr (List.mem_singleton.mp hev)
          · exact Or.inl ((fail_only _ _ _ _).event hrest hev)
        · rw [hq] at hrest
          exact (fail_returns hrest).2
      rcases (Prog.path_bind_iff _ _ _ _).mp h with
        ⟨p', hres, rfl⟩ | ⟨r, es₁, es₂, rfl, hres, hrest⟩
      · obtain ⟨_, rfl⟩ := resolveAuth_missing hres hread
        have hend := hfailed hres hread (Prog.Path.nil _)
        rwa [List.append_nil] at hend
      · rcases List.mem_append.mp hread with hmem | hmem
        · exact hfailed hres hmem hrest
        · refine absurd hmem (hnot ?_ hrest)
          cases r with
          | error e => exact fail_reads_none _ _ _ _ _
          | ok auth => exact perform_reads_none ht auth tok

/-- A tool that passes its gates reads the session of its caller first. -/
theorem run_reads_first {validate : Validator} (hp : deps.provider = .passthrough validate)
    {headers : Option RawHeaders} (hkey : deps.isApiKey (deps.sessionId headers) = .ok false)
    {t : Tool} (hg : gates deps.cfg t = .ok ()) {es : List (Event Ise)} {q : Prog Ise PyVal}
    (h : Prog.Path (run deps headers t) es q) :
    (es = [] ∧ ∀ env, q ≠ .ret env) ∨
      ∃ x es', es = ⟨Op.getSession (deps.sessionId headers), x⟩ :: es' := by
  rw [run_admitted hg, Deps.resolveAuth, Deps.run_resolveToken, hkey, hp] at h
  dsimp only at h
  rw [Provider.resolve, PassthroughProvider.run_resolve] at h
  rcases (Prog.path_call_iff _ _ _ _).mp h with ⟨rfl, rfl⟩ | ⟨x, es', rfl, _⟩
  · refine Or.inl ⟨rfl, fun env henv => ?_⟩
    cases henv
  · exact Or.inr ⟨x, es', rfl⟩

/-- Likewise for the gate's question whether the token is valid. -/
theorem sessionValid_missing {tok' tok : Option String} {es : List (Event Ise)}
    {q : Prog Ise (Except PyExc Bool)} (h : Prog.Path (deps.sessionValid tok').run es q)
    (hread : (⟨Op.getSession tok, none⟩ : Event Ise) ∈ es) : q = .ret (.ok false) := by
  rw [Deps.run_sessionValid] at h
  have hret : ∀ {r}, Prog.Path (.ret r) es q → q = .ret (.ok false) := fun hpath => by
    rw [((Prog.path_ret_iff _ _ _).mp hpath).1] at hread
    cases hread
  rcases hkey : deps.isApiKey tok' with e | _ | _ <;> rw [hkey] at h
  · exact hret h
  · rcases hp : deps.provider with validate | auth <;> rw [hp] at h
    · by_cases htruthy : truthy tok' = true
      · rw [Provider.sessionValid.eq_def] at h
        dsimp only at h
        rw [PassthroughProvider.run_sessionValid htruthy, Prog.path_call_iff] at h
        rcases h with ⟨rfl, _⟩ | ⟨x, es', rfl, h⟩
        · cases hread
        · obtain ⟨rfl, rfl⟩ := (Prog.path_ret_iff _ _ _).mp h
          rw [List.mem_singleton] at hread
          cases hread
          rfl
      · have hempty : PassthroughProvider.sessionValid tok' = pure false := if_neg htruthy
        rw [Provider.sessionValid.eq_def] at h
        dsimp only at h
        rw [hempty] at h
        exact hret h
    · exact hret h
  · exact hret h

/-- The gate turns away a request whose session is not found. -/
theorem gate_turned_away {scope : Scope} {tok : Option String} {es : List (Event Ise)}
    {q : Prog Ise (Except PyExc RequireAuthOnMcp.Verdict)}
    (h : Prog.Path (RequireAuthOnMcp.call deps scope).run es q)
    (hread : (⟨Op.getSession tok, none⟩ : Event Ise) ∈ es) :
    ∃ www, q = .ret (.ok (.unauthorized www)) := by
  unfold RequireAuthOnMcp.call at h
  have hret : ∀ {r}, Prog.Path (.ret r) es q → ∃ www, q = .ret (.ok (.unauthorized www)) :=
    fun hpath => by
      rw [((Prog.path_ret_iff _ _ _).mp hpath).1] at hread
      cases hread
  split_ifs at h
  · rw [Coro.run_ofExcept_bind] at h
    rcases hd : decodeHeaders scope.headers with e | headers <;> rw [hd] at h
    · exact hret h
    · rw [Coro.next_ok, Coro.run_bind'] at h
      rcases (Prog.path_bind_iff _ _ _ _).mp h with
        ⟨p', hvalid, rfl⟩ | ⟨r, es₁, es₂, rfl, hvalid, h⟩
      · rw [sessionValid_missing hvalid hread]
        exact ⟨_, rfl⟩
      · -- nothing comes after the answer, so the read came before it
        have hnil : es₂ = [] := by
          rcases r with e | _ | _ <;> exact ((Prog.path_ret_iff _ _ _).mp h).1
        subst hnil
        rw [List.append_nil] at hread
        cases sessionValid_missing hvalid hread
        exact ⟨_, ((Prog.path_ret_iff _ _ _).mp h).2⟩
  · exact hret h

/-- A gate on `/mcp` that has answered has read the session of its token. -/
theorem gate_reads {validate : Validator} (hp : deps.provider = .passthrough validate)
    (hmode : deps.cfg.authMode = "passthrough") {scope : Scope} (hon : scope.OnMcp) {sid : String}
    (hne : sid ≠ "") (htok : gateToken deps scope = .ok (some sid))
    (hkey : deps.isApiKey (some sid) = .ok false) {es : List (Event Ise)}
    {out : Except PyExc RequireAuthOnMcp.Verdict}
    (h : Prog.Path (RequireAuthOnMcp.call deps scope).run es (.ret out)) :
    ∃ x es', es = ⟨Op.getSession (some sid), x⟩ :: es' := by
  have htruthy : truthy (some sid) = true := by simpa [truthy] using hne
  rw [gateToken] at htok
  unfold RequireAuthOnMcp.call at h
  rw [if_pos ⟨hon.type, hon.path, hmode⟩, Coro.run_ofExcept_bind] at h
  rcases hd : decodeHeaders scope.headers with e | headers <;> rw [hd] at h htok
  · cases htok
  · have hsid : RequireAuthOnMcp.sid deps.cfg headers = some sid := Except.ok.inj htok
    rw [Coro.next_ok, Coro.run_bind', hsid, Deps.run_sessionValid, hkey, hp] at h
    dsimp only at h
    rw [Provider.sessionValid, PassthroughProvider.run_sessionValid htruthy] at h
    obtain ⟨x, es', rfl, _⟩ := (Prog.path_call_ret_iff ..).mp h
    exact ⟨x, es', rfl⟩

end

/-! ## In every run -/

section

variable {deps : Deps} {env : Env} {moves : List (Move ServerRequest)}

/-- The session `sess` belongs to whoever presents its id; `life` is the log since it was opened. -/
structure OwnSession (deps : Deps) (env : Env) (sys : ServerSys) (sess : Session)
    (life : ServerLog) : Prop where
  since : Since env sess life (sys.world.store.lookup sess.sessionId)
  read : ∀ e ∈ sys.log, e.event.1 = .getSession (some sess.sessionId) →
    ∃ req left, sys.tasks[e.task]? = some ⟨req, left⟩ ∧ req.Presents deps sess.sessionId
  deleted : ∀ e ∈ sys.log, e.event.1 = .deleteSession (some sess.sessionId) →
    ∃ headers left, sys.tasks[e.task]? = some ⟨.tool headers .iseLogout, left⟩ ∧
      deps.sessionId headers = some sess.sessionId
  untouched : (∀ (i : Nat) req left, sys.tasks[i]? = some ⟨req, left⟩ →
    ¬ req.Presents deps sess.sessionId) → sys.world.store.lookup sess.sessionId = some sess

/-- **Sessions are isolated**, in every interleaving of the requests of any number of clients: only
requests that carry the id of a session read it, extend it or end it, and it ends by a logout of
its holder or by a read of its holder that comes too late. -/
theorem session_isolated (hb : deps.Built)
    (hfresh : Function.Injective fun n => (env.token n).text) {pre life : ServerLog}
    {c : Entry Ise World} {u : String} {a : AuthContext} {sess : Session}
    (hlog : (serverRun deps env moves).log = pre ++ c :: life)
    (hc : c.event = ⟨Op.createSession u a, sess⟩) :
    OwnSession deps env (serverRun deps env moves) sess life := by
  have hsince : Since env sess life
      ((serverRun deps env moves).world.store.lookup sess.sessionId) := by
    rw [run_store, hlog]
    exact held hfresh hc life [] (by rw [hlog, List.append_nil])
  have hread : ∀ e ∈ (serverRun deps env moves).log,
      e.event.1 = .getSession (some sess.sessionId) →
      ∃ req left, (serverRun deps env moves).tasks[e.task]? = some ⟨req, left⟩ ∧
        req.Presents deps sess.sessionId := by
    intro e he hev
    obtain ⟨req, left, ht, hmay⟩ := run_may_entry hb he
    rw [hev] at hmay
    exact ⟨req, left, ht, hmay.reads⟩
  have hdeleted : ∀ e ∈ (serverRun deps env moves).log,
      e.event.1 = .deleteSession (some sess.sessionId) →
      ∃ headers left,
        (serverRun deps env moves).tasks[e.task]? = some ⟨.tool headers .iseLogout, left⟩ ∧
        deps.sessionId headers = some sess.sessionId := by
    intro e he hev
    obtain ⟨req, left, ht, hmay⟩ := run_may_entry hb he
    rw [hev] at hmay
    obtain ⟨headers, rfl, hsid⟩ := hmay.deletes
    exact ⟨headers, left, ht, hsid⟩
  refine ⟨hsince, hread, hdeleted, fun hnone => ?_⟩
  -- whatever else could have happened was done by a request that presents the id
  have hmem : ∀ e ∈ life, e ∈ (serverRun deps env moves).log := fun e he => by
    rw [hlog]
    exact List.mem_append_right _ (List.mem_cons_of_mem _ he)
  have hno : ∀ e ∈ life, e.event.1 ≠ .getSession (some sess.sessionId) := fun e he hev =>
    let ⟨req, left, ht, hreq⟩ := hread e (hmem e he) hev
    hnone _ req left ht hreq
  generalize (serverRun deps env moves).world.store.lookup sess.sessionId = x at hsince ⊢
  cases hsince with
  | unused _ => rfl
  | used e he hev => exact absurd hev (hno e he)
  | loggedOut e he hev =>
      obtain ⟨headers, left, ht, hsid⟩ := hdeleted e (hmem e he) hev
      exact absurd hsid (hnone _ _ left ht)
  | expired e he hev s hs hexp => exact absurd hev (hno e he)

/-- Once a session has ended, its id is read in vain. -/
theorem ended_read (hfresh : Function.Injective fun n => (env.token n).text)
    {pre life post : ServerLog} {c d : Entry Ise World} {u : String} {a : AuthContext}
    {sess : Session} (hlog : (serverRun deps env moves).log = pre ++ c :: (life ++ d :: post))
    (hc : c.event = ⟨Op.createSession u a, sess⟩)
    (hd : d.event.1 = .deleteSession (some sess.sessionId) ∨
      d.event = ⟨Op.getSession (some sess.sessionId), none⟩) :
    ∀ e ∈ post, e.event.1 = .getSession (some sess.sessionId) →
      e.event = ⟨Op.getSession (some sess.sessionId), none⟩ := by
  have hne := session_ne hc hlog
  have hlog' : (serverRun deps env moves).log = (pre ++ c :: life) ++ d :: post := by
    rw [hlog]
    simp
  have hgone : (deps.cfg.emptyStore.after (storeHistory env (pre ++ c :: (life ++ [d])))).lookup
      sess.sessionId = none := by
    rw [show pre ++ c :: (life ++ [d]) = (pre ++ c :: life) ++ [d] by simp,
      lookup_step hne hlog' fun _ _ _ => not_opened_again hfresh hc hlog]
    rcases hd with hd | hd
    · rw [hd]
      exact if_pos rfl
    · have hnone := run_answer hlog' hd
      rw [← run_store_before hlog', hd]
      show (if _ then _ else _) = none
      rw [if_pos rfl]
      exact (SessionStore.get_fst _ _ hne).symm.trans hnone.symm
  exact gone_forever hfresh hc (life ++ [d]) post (by rw [hlog]; simp) hgone

/-- What becomes of the request of task `i` if it presents `sid`: the gate of `/mcp` answers 401; a
tool keeps records and asks for the session, nothing else, and if its gates let it pass it answers
that there is no session. -/
structure Unrecognised (deps : Deps) (sys : ServerSys) (sid : String) (i : Nat) : Prop where
  gate : ∀ scope out, sys.tasks[i]? = some ⟨.gate scope, .ret (.verdict out)⟩ → scope.OnMcp →
    gateToken deps scope = .ok (some sid) → ∃ www, out = .ok (.unauthorized www)
  silent : ∀ headers call left, sys.tasks[i]? = some ⟨.tool headers call, left⟩ →
    (call.tool deps).isSome → deps.sessionId headers = some sid →
    ∀ ev ∈ eventsOf sys.log i, ev.1.IsRecord ∨ ev = ⟨Op.getSession (some sid), none⟩
  tool : ∀ headers call t out, sys.tasks[i]? = some ⟨.tool headers call, .ret (.envelope out)⟩ →
    call.tool deps = some t → gates deps.cfg t = .ok () → deps.sessionId headers = some sid →
    out = noSession

/-- The task finds nothing whenever it reads the id. -/
def ReadsInVain (log : ServerLog) (sid : String) (i : Nat) : Prop :=
  ∀ x, (⟨Op.getSession (some sid), x⟩ : Event Ise) ∈ eventsOf log i → x = none

/-- So it is for every task that makes its first step after the end of the session. -/
theorem later_readsInVain (hfresh : Function.Injective fun n => (env.token n).text)
    {pre life post : ServerLog} {c d : Entry Ise World} {u : String} {a : AuthContext}
    {sess : Session} (hlog : (serverRun deps env moves).log = pre ++ c :: (life ++ d :: post))
    (hc : c.event = ⟨Op.createSession u a, sess⟩)
    (hd : d.event.1 = .deleteSession (some sess.sessionId) ∨
      d.event = ⟨Op.getSession (some sess.sessionId), none⟩)
    {i : Nat} (hlater : ∀ e ∈ pre ++ c :: (life ++ [d]), e.task ≠ i) :
    ReadsInVain (serverRun deps env moves).log sess.sessionId i := by
  intro x hx
  obtain ⟨e, he, htask, hev⟩ := mem_eventsOf.mp hx
  have hpost : e ∈ post := by
    rw [hlog, show pre ++ c :: (life ++ d :: post) = (pre ++ c :: (life ++ [d])) ++ post by simp,
      List.mem_append] at he
    exact he.resolve_left fun hearly => hlater e hearly htask
  have hnone := ended_read hfresh hlog hc hd e hpost (congrArg Sigma.fst hev)
  rw [hev] at hnone
  cases hnone
  rfl

section

variable {validate : Validator} {sid : String} {i : Nat}

/-- A gate on `/mcp` that reads its token in vain refuses the request. -/
theorem gate_refuses (hp : deps.provider = .passthrough validate)
    (hmode : deps.cfg.authMode = "passthrough") (hne : sid ≠ "")
    (hkey : deps.isApiKey (some sid) = .ok false)
    (hvain : ReadsInVain (serverRun deps env moves).log sid i) {scope : Scope}
    {out : Except PyExc RequireAuthOnMcp.Verdict}
    (ht : (serverRun deps env moves).tasks[i]? = some ⟨.gate scope, .ret (.verdict out)⟩)
    (hon : scope.OnMcp) (htok : gateToken deps scope = .ok (some sid)) :
    ∃ www, out = .ok (.unauthorized www) := by
  obtain ⟨q, hq, hout⟩ := Prog.path_map (serverRun_path ht)
  cases q with
  | ret r =>
      cases hout
      obtain ⟨x, es', hes⟩ := gate_reads hp hmode hon hne htok hkey hq
      have hread : (⟨Op.getSession (some sid), x⟩ : Event Ise)
          ∈ eventsOf (serverRun deps env moves).log i := by
        rw [hes]
        exact List.mem_cons_self
      have hmissing := hread
      rw [hvain x hread] at hmissing
      obtain ⟨www, hwww⟩ := gate_turned_away hq hmissing
      cases hwww
      exact ⟨www, rfl⟩
  | call o k => cases hout

/-- A tool that reads a session in vain and passes its gates has not read it yet, or is turned
away. -/
theorem tool_turned_away (hp : deps.provider = .passthrough validate)
    (hkey : deps.isApiKey (some sid) = .ok false)
    (hvain : ReadsInVain (serverRun deps env moves).log sid i)
    {headers : Option RawHeaders} {call : ToolCall} {left : Prog Ise ServerReply} {t : Tool}
    (ht : (serverRun deps env moves).tasks[i]? = some ⟨.tool headers call, left⟩)
    (hcall : call.tool deps = some t) (hg : gates deps.cfg t = .ok ())
    (hsid : deps.sessionId headers = some sid) :
    eventsOf (serverRun deps env moves).log i = [] ∧ (∀ out, left ≠ .ret out) ∨
      (∀ ev ∈ eventsOf (serverRun deps env moves).log i,
        ev.1.IsRecord ∨ ev = ⟨Op.getSession (some sid), none⟩) ∧
      ∀ out, left = .ret (.envelope out) → out = noSession := by
  have hpath := serverRun_path ht
  rw [gated_program hcall] at hpath
  obtain ⟨q, hq, rfl⟩ := Prog.path_map hpath
  rcases run_reads_first hp (hsid ▸ hkey) hg hq with ⟨hnil, hno⟩ | ⟨x, es', hes⟩
  · refine Or.inl ⟨hnil, fun out hout => ?_⟩
    cases q with
    | ret env => exact hno env rfl
    | call o k => cases hout
  · have hread : (⟨Op.getSession (some sid), x⟩ : Event Ise)
        ∈ eventsOf (serverRun deps env moves).log i := by
      rw [hes, hsid]
      exact List.mem_cons_self
    have hmissing := hread
    rw [hvain x hread] at hmissing
    obtain ⟨hevents, hends⟩ := run_turned_away hcall hq hmissing
    refine Or.inr ⟨hevents, fun out hout => ?_⟩
    cases q with
    | ret env =>
        cases hout
        exact hends _ rfl
    | call o k => cases hout

/-- Whether its gates refuse it or not, such a tool does nothing but keep records and read the
session in vain. -/
theorem tool_silent (hp : deps.provider = .passthrough validate)
    (hkey : deps.isApiKey (some sid) = .ok false)
    (hvain : ReadsInVain (serverRun deps env moves).log sid i)
    {headers : Option RawHeaders} {call : ToolCall} {left : Prog Ise ServerReply}
    (ht : (serverRun deps env moves).tasks[i]? = some ⟨.tool headers call, left⟩)
    (hsome : (call.tool deps).isSome) (hsid : deps.sessionId headers = some sid) :
    ∀ ev ∈ eventsOf (serverRun deps env moves).log i,
      ev.1.IsRecord ∨ ev = ⟨Op.getSession (some sid), none⟩ := by
  obtain ⟨t, hcall⟩ := Option.isSome_iff_exists.mp hsome
  cases hg : gates deps.cfg t with
  | error e =>
      -- the gates refuse the tool, which leaves records
      have hpath := serverRun_path ht
      rw [gated_program hcall, run_refused hg] at hpath
      obtain ⟨q, hq, _⟩ := Prog.path_map hpath
      exact fun ev hev => Or.inl ((fail_only _ _ _ _).event hq hev)
  | ok _ =>
      rcases tool_turned_away hp hkey hvain ht hcall hg hsid with ⟨hnil, _⟩ | ⟨hevents, _⟩
      · rw [hnil]
        exact fun _ h => absurd h List.not_mem_nil
      · exact hevents

end

/-- **A session that has ended is never accepted again**: after its logout, or after a read that
did not find it, every request that makes its first step then and presents the id is turned away.
The id is none of the API keys. -/
theorem ended_final (hb : deps.Built) (hmode : deps.cfg.authMode = "passthrough")
    (hfresh : Function.Injective fun n => (env.token n).text)
    {pre life post : ServerLog} {c d : Entry Ise World} {u : String} {a : AuthContext}
    {sess : Session} (hlog : (serverRun deps env moves).log = pre ++ c :: (life ++ d :: post))
    (hc : c.event = ⟨Op.createSession u a, sess⟩)
    (hd : d.event.1 = .deleteSession (some sess.sessionId) ∨
      d.event = ⟨Op.getSession (some sess.sessionId), none⟩)
    (hkey : deps.isApiKey (some sess.sessionId) = .ok false) {i : Nat}
    (hlater : ∀ e ∈ pre ++ c :: (life ++ [d]), e.task ≠ i) :
    Unrecognised deps (serverRun deps env moves) sess.sessionId i := by
  have hp := hb.passthrough hmode
  have hvain := later_readsInVain hfresh hlog hc hd hlater
  refine ⟨fun scope out ht hon htok => ?_, fun headers call left ht hsome hsid => ?_,
    fun headers call t out ht hcall hg hsid => ?_⟩
  · exact gate_refuses hp hmode (session_ne hc hlog) hkey hvain ht hon htok
  · exact tool_silent hp hkey hvain ht hsome hsid
  · rcases tool_turned_away hp hkey hvain ht hcall hg hsid with ⟨_, hno⟩ | ⟨_, hends⟩
    · exact absurd rfl (hno _)
    · exact hends out rfl

end

/-- The headers of a client with this session id. -/
def sessionHeaders (sid : String) : Option RawHeaders :=
  some [(utf8Encode "X-MCP-Session", utf8Encode sid)]

/-- Alice logs in, then somebody else logs out. -/
def otherLogout : List (Move ServerRequest) :=
  aliceLogin ++ [.spawn (.tool (sessionHeaders "b") .iseLogout), .advance 1]

/-- Her session stays as it was opened. -/
theorem session_isolated_alice :
    ∃ sess : Session, sess.username = "alice" ∧
      (serverRun passthroughDeps sampleEnv otherLogout).world.store.lookup sess.sessionId
        = some sess := by
  have hlog : ∃ pre c sess life,
      (serverRun passthroughDeps sampleEnv otherLogout).log = pre ++ c :: life ∧
      c.event = ⟨Op.createSession "alice" (PassthroughProvider.authContext "alice" "pw"), sess⟩ ∧
      sess.username = "alice" ∧ sess.sessionId = "aaaaa" := by
    refine ⟨(serverRun passthroughDeps sampleEnv otherLogout).log.take 4, _, _,
      (serverRun passthroughDeps sampleEnv otherLogout).log.drop 5, rfl, rfl, rfl, rfl⟩
  obtain ⟨pre, c, sess, life, hlog, hc, hname, hid⟩ := hlog
  have hb : passthroughDeps.Built := rfl
  refine ⟨sess, hname, (session_isolated hb sampleEnv_fresh hlog hc).untouched ?_⟩
  have hreqs : (serverRun passthroughDeps sampleEnv otherLogout).tasks.map (·.req)
      = [.tool none (.iseLogin "alice" "pw"), .tool (sessionHeaders "b") .iseLogout] := rfl
  intro i req left ht hpresents
  have hmem : req ∈ (serverRun passthroughDeps sampleEnv otherLogout).tasks.map (·.req) :=
    List.mem_map.mpr ⟨⟨req, left⟩, List.mem_of_getElem? ht, rfl⟩
  rw [hreqs, List.mem_cons, List.mem_singleton] at hmem
  rw [hid] at hpresents
  rcases hmem with rfl | rfl
  · cases hpresents
  · have hother : passthroughDeps.sessionId (sessionHeaders "b") = some "b" := by decide
    exact absurd (hother.symm.trans hpresents) (by decide)

/-- Alice logs in and out; then her id is presented again. -/
def laterUse : List (Move ServerRequest) :=
  aliceLogin ++ [.spawn (.tool (sessionHeaders "aaaaa") .iseLogout), .advance 1,
    .spawn (.tool (sessionHeaders "aaaaa") .iseWhoami)] ++ List.replicate 3 (.advance 2)

/-- The use is answered that there is no session. -/
theorem ended_final_alice :
    (serverRun passthroughDeps sampleEnv laterUse).tasks[2]?
      = some ⟨.tool (sessionHeaders "aaaaa") .iseWhoami, .ret (.envelope noSession)⟩ := by
  have hlog : ∃ pre c sess d post,
      (serverRun passthroughDeps sampleEnv laterUse).log = pre ++ c :: ([] ++ d :: post) ∧
      c.event = ⟨Op.createSession "alice" (PassthroughProvider.authContext "alice" "pw"), sess⟩ ∧
      sess.sessionId = "aaaaa" ∧ d.event.1 = .deleteSession (some "aaaaa") ∧
      (pre ++ c :: ([] ++ [d])).map Entry.task = [0, 0, 0, 0, 0, 1] := by
    refine ⟨(serverRun passthroughDeps sampleEnv laterUse).log.take 4, _, _, _,
      (serverRun passthroughDeps sampleEnv laterUse).log.drop 6, rfl, rfl, rfl, rfl, rfl⟩
  obtain ⟨pre, c, sess, d, post, hlog, hc, hid, hd, htasks⟩ := hlog
  have hb : passthroughDeps.Built := rfl
  rw [← hid] at hd
  have hlater : ∀ e ∈ pre ++ c :: ([] ++ [d]), e.task ≠ 2 := by
    intro e he htask
    have hmem := List.mem_map_of_mem (f := Entry.task) he
    rw [htasks, htask] at hmem
    exact absurd hmem (by decide)
  have hfinal := ended_final hb rfl sampleEnv_fresh hlog hc (Or.inl hd) (hid ▸ rfl) hlater
  obtain ⟨out, hdone⟩ : ∃ out, (serverRun passthroughDeps sampleEnv laterUse).tasks[2]?
      = some ⟨.tool (sessionHeaders "aaaaa") .iseWhoami, .ret (.envelope out)⟩ := ⟨_, rfl⟩
  have hpresented : passthroughDeps.sessionId (sessionHeaders "aaaaa") = some sess.sessionId := by
    rw [hid]
    decide
  rw [hdone, hfinal.tool _ _ _ out hdone rfl rfl hpresented]

end IseMcp
