import IseMcp.BoundedWork
import IseMcp.CodeGrants
import IseMcp.Interaction.Replay
import IseMcp.RequestSteps
import IseMcp.Strangers

set_option autoImplicit false

/-! # Serializability

A request touches one entry of the tables; only a login in the browser touches two, and the second
is the code that it has just drawn. So the requests of a run can be served one after the other, in
the order of their first touches, with every call and every reply as they were (`serializable`).
-/

namespace IseMcp

open Python Interaction

/-! ## What a request touches -/

section

variable {deps : Deps} {req : ServerRequest} {es : List (Event Ise)} {q : Prog Ise ServerReply}

theorem touched_step {ev : Event Ise} (h : touched ev ≠ none) :
    ev.1.count .tables = 1 ∨ ∃ grant, ev.1 = .issueCode grant := by
  obtain ⟨o, x⟩ := ev
  cases o with
  | issueCode grant => exact Or.inr ⟨grant, rfl⟩
  | createSession _ _ => exact Or.inl rfl
  | getSession _ => exact Or.inl rfl
  | deleteSession _ => exact Or.inl rfl
  | popCode _ => exact Or.inl rfl
  | _ => exact absurd rfl h

/-- A code is issued by a login in the browser. -/
theorem ServerRequest.MayDo.issues {o : Op} (h : req.MayDo deps o) {grant : CodeGrant}
    (ho : o = .issueCode grant) : ∃ form, req = .authorizePost form := by
  cases h with
  | issue _ _ => exact ⟨_, rfl⟩
  | request _ hof => cases hof <;> cases ho
  | record hrec => obtain ⟨rec, rfl⟩ | ⟨rec, rfl⟩ := hrec <;> cases ho
  | _ => cases ho

/-- After a code is issued nothing but the issue of codes follows. -/
theorem issues_last (hb : deps.Built) (hp : Prog.Path (req.program deps) es q)
    {before after : List (Event Ise)} {ev : Event Ise} {grant : CodeGrant}
    (hes : es = before ++ ev :: after) (hev : ev.1 = .issueCode grant) :
    ∀ ev' ∈ after, ∃ grant', ev'.1 = .issueCode grant' := by
  have hmem : ev ∈ es := by simp [hes]
  obtain ⟨form, rfl⟩ := ServerRequest.MayDo.issues ((program_may hb req).event hp hmem) hev
  have hungated : ¬ (ServerRequest.authorizePost form).Gated deps := id
  rcases ungated_cases hungated with honly | ⟨validate, u, p, f, hprov, hprog, hf, _⟩
  · have hlookup := honly.event hp hmem
    rw [hev] at hlookup
    cases hlookup
  -- the login issues no code, and what comes after it does nothing else
  · have hlogin : Prog.Only (S := Ise) (fun o => ∀ grant, o ≠ .issueCode grant)
        (PassthroughProvider.login validate u p).run := by
      refine PassthroughProvider.login_only ?_ fun _ => nofun
      rw [hb.validator hprov]
      refine (probes_validateCredentials deps.cfg u p).mono ?_
      rintro o ⟨h, rfl, _⟩ _
      exact nofun
    rw [hprog, Prog.path_bind_iff] at hp
    rcases hp with ⟨p', hpath, _⟩ | ⟨r, es₁, es₂, hsplit, hpath₁, hpath₂⟩
    · exact absurd hev (hlogin.event hpath hmem grant)
    · rw [hes] at hsplit
      rcases List.append_eq_append_iff.mp hsplit with ⟨l, hl, hrest⟩ | ⟨l, hl, hrest⟩
      · cases l with
        | nil =>
            rw [List.nil_append] at hrest
            intro ev' hev'
            exact (hf r).event hpath₂ (hrest ▸ List.mem_cons_of_mem _ hev')
        | cons x l =>
            have hin : ev ∈ es₁ := by
              rw [hl, (List.cons.inj hrest).1]
              simp
            exact absurd hev (hlogin.event hpath₁ hin grant)
      · intro ev' hev'
        refine (hf r).event hpath₂ ?_
        rw [hrest]
        exact List.mem_append_right _ (List.mem_cons_of_mem _ hev')

/-- What a request touches after its first touch is a code that it issues. -/
theorem touches_again (hb : deps.Built) (hp : Prog.Path (req.program deps) es q)
    {before between after : List (Event Ise)} {ev ev' : Event Ise}
    (hes : es = before ++ ev :: between ++ ev' :: after) (hev : touched ev ≠ none)
    (hev' : touched ev' ≠ none) : ∃ grant, ev'.1 = .issueCode grant := by
  rcases touched_step hev' with hstep' | hissue
  · rcases touched_step hev with hstep | ⟨grant, hgrant⟩
    · -- two steps would be too many
      have hcost : _ ≤ 1 := (program_bounded hb req hp).calls .tables
      rw [hes, cost_append, cost_append, cost_cons, cost_cons, hstep, hstep'] at hcost
      omega
    · have hlast := issues_last hb hp (hes.trans (List.append_assoc _ _ _)) hgrant
      exact hlast ev' (by simp)
  · exact hissue

end

/-! ## The order of the requests -/

/-- The step of the first touch of a task, or of its first call if it touches nothing. -/
def touchRank (log : ServerLog) (i : Nat) : Nat :=
  (((log.find? fun e => e.task == i && (touched e.event).isSome).or
    (log.find? (·.task == i))).map (·.before.steps)).getD (log.length + i)

/-- A request that makes its calls before those of another has the lower rank. -/
def KeepsOrder (log : ServerLog) (rank : Nat → Nat) : Prop :=
  ∀ i j, (∃ e ∈ log, e.task = i) → (∃ e ∈ log, e.task = j) →
    (∀ e ∈ log, ∀ e' ∈ log, e.task = i → e'.task = j → e.before.steps < e'.before.steps) →
    rank i < rank j

def Op.issues : Op → Bool
  | .issueCode _ => true
  | _ => false

def Op.pops : Op → Bool
  | .popCode _ => true
  | _ => false

/-- No code is presented before it is issued. -/
def Unguessed (log : ServerLog) : Prop :=
  ∀ e ∈ log, ∀ e' ∈ log, e.event.1.issues = true → e'.event.1.pops = true →
    e'.before.steps < e.before.steps → touched e'.event ≠ touched e.event

instance (log : ServerLog) : Decidable (Unguessed log) :=
  inferInstanceAs (Decidable (∀ e ∈ log, _))

section

variable {deps : Deps} {env : Env} {moves : List (Move ServerRequest)}

theorem steps_lt {pre mid post : ServerLog} {e e' : Entry Ise World}
    (hlog : (serverRun deps env moves).log = pre ++ e :: (mid ++ e' :: post)) :
    e.before.steps < e'.before.steps := by
  have hsorted := @run_steps_lt deps env moves
  rw [hlog, List.pairwise_append, List.pairwise_cons] at hsorted
  exact hsorted.2.1.1 e' (by simp)

/-- No task has touched anything before its rank. -/
theorem touchRank_le {e : Entry Ise World} (he : e ∈ (serverRun deps env moves).log)
    (htouch : touched e.event ≠ none) :
    touchRank (serverRun deps env moves).log e.task ≤ e.before.steps := by
  have hsome : (touched e.event).isSome := Option.isSome_iff_ne_none.mpr htouch
  rw [touchRank]
  cases hfind : (serverRun deps env moves).log.find?
      fun x => x.task == e.task && (touched x.event).isSome with
  | none =>
      have hnone := List.find?_eq_none.mp hfind e he
      simp [hsome] at hnone
  | some first =>
      obtain ⟨_, pre, post, hlog, hpre⟩ := List.find?_eq_some_iff_append.mp hfind
      rw [Option.some_or, Option.map_some, Option.getD_some]
      rw [hlog] at he
      rcases List.mem_append.mp he with hin | hin
      · have hnot := hpre e hin
        simp [hsome] at hnot
      · rcases List.mem_cons.mp hin with rfl | hin
        · exact le_rfl
        · obtain ⟨mid, post', rfl⟩ := List.append_of_mem hin
          exact (steps_lt hlog).le

/-- A touch is the first of its task, or the issue of a code. -/
theorem first_or_issue (hb : deps.Built) {pre post : ServerLog} {e : Entry Ise World}
    (hlog : (serverRun deps env moves).log = pre ++ e :: post) (htouch : touched e.event ≠ none) :
    touchRank (serverRun deps env moves).log e.task = e.before.steps ∨
      ∃ grant, e.event.1 = .issueCode grant := by
  have hsome : (touched e.event).isSome := Option.isSome_iff_ne_none.mpr htouch
  by_cases hfirst : ∃ x ∈ pre, x.task = e.task ∧ touched x.event ≠ none
  · obtain ⟨x, hx, htask, hx'⟩ := hfirst
    obtain ⟨before, between, rfl⟩ := List.append_of_mem hx
    rw [List.append_assoc] at hlog
    obtain ⟨req, left, k, ht, _⟩ := serverRun_call hlog
    have hevents : eventsOf (serverRun deps env moves).log e.task
        = eventsOf before e.task ++ x.event :: eventsOf between e.task
          ++ e.event :: eventsOf post e.task := by
      rw [hlog, ← htask, eventsOf_append, List.cons_append, eventsOf_cons_self, eventsOf_append,
        htask, eventsOf_cons_self, List.append_assoc]
      rfl
    rw [htask] at ht
    exact Or.inr (touches_again hb (serverRun_path ht) hevents hx' htouch)
  · refine Or.inl ?_
    have hfind : (serverRun deps env moves).log.find?
        (fun x => x.task == e.task && (touched x.event).isSome) = some e := by
      refine List.find?_eq_some_iff_append.mpr ⟨by simp [hsome], pre, post, hlog, fun x hx => ?_⟩
      by_contra hnot
      refine hfirst ⟨x, hx, ?_⟩
      simpa [Option.isSome_iff_ne_none] using hnot
    rw [touchRank, hfind]
    rfl

/-- A rank is the step of a call of the task, if there is one. -/
theorem touchRank_cases (i : Nat) :
    (∃ e ∈ (serverRun deps env moves).log, e.task = i ∧
      touchRank (serverRun deps env moves).log i = e.before.steps) ∨
    (∀ e ∈ (serverRun deps env moves).log, e.task ≠ i) ∧
      touchRank (serverRun deps env moves).log i = (serverRun deps env moves).log.length + i := by
  rw [touchRank]
  cases hfind : (serverRun deps env moves).log.find?
      fun x => x.task == i && (touched x.event).isSome with
  | some e =>
      have he := List.find?_some hfind
      rw [Bool.and_eq_true, beq_iff_eq] at he
      exact Or.inl ⟨e, List.mem_of_find?_eq_some hfind, he.1, rfl⟩
  | none =>
      cases hcall : (serverRun deps env moves).log.find? (·.task == i) with
      | some e =>
          have he := List.find?_some hcall
          exact Or.inl ⟨e, List.mem_of_find?_eq_some hcall, beq_iff_eq.mp he, rfl⟩
      | none =>
          refine Or.inr ⟨fun e he => ?_, rfl⟩
          simpa using List.find?_eq_none.mp hcall e he

/-- Entries of the same step are the same. -/
theorem eq_of_steps {e e' : Entry Ise World} (he : e ∈ (serverRun deps env moves).log)
    (he' : e' ∈ (serverRun deps env moves).log) (hsteps : e.before.steps = e'.before.steps) :
    e = e' := by
  obtain ⟨i, hi, rfl⟩ := List.getElem_of_mem he
  obtain ⟨j, hj, rfl⟩ := List.getElem_of_mem he'
  rw [run_getElem_steps, run_getElem_steps] at hsteps
  subst hsteps
  rfl

/-- Different tasks have different ranks. -/
theorem touchRank_injective :
    Function.Injective (touchRank (serverRun deps env moves).log) := by
  intro i j hij
  rcases @touchRank_cases deps env moves i with ⟨e, he, rfl, hi⟩ | ⟨_, hi⟩ <;>
  rcases @touchRank_cases deps env moves j with ⟨e', he', rfl, hj⟩ | ⟨_, hj⟩
  · rw [eq_of_steps he he' (by rw [← hi, hij, hj])]
  · have hlt := steps_lt_length he
    omega
  · have hlt := steps_lt_length he'
    omega
  · omega

theorem touchRank_keepsOrder :
    KeepsOrder (serverRun deps env moves).log (touchRank (serverRun deps env moves).log) := by
  rintro i j ⟨x, hx, hxi⟩ ⟨y, hy, hyj⟩ hbefore
  rcases @touchRank_cases deps env moves i with ⟨e, he, hi, hrank⟩ | ⟨hnone, _⟩
  · rcases @touchRank_cases deps env moves j with ⟨e', he', hj, hrank'⟩ | ⟨hnone, _⟩
    · rw [hrank, hrank']
      exact hbefore e he e' he' hi hj
    · exact absurd hyj (hnone y hy)
  · exact absurd hxi (hnone x hx)

/-- **Touches of one key come in the order of the ranks.** -/
theorem touches_ordered (hb : deps.Built) (hfresh : Function.Injective fun n => (env.token n).text)
    (hguess : Unguessed (serverRun deps env moves).log) {pre mid post : ServerLog}
    {e e' : Entry Ise World} {k : Key}
    (hlog : (serverRun deps env moves).log = pre ++ e :: (mid ++ e' :: post))
    (hk : touched e.event = some k) (hk' : touched e'.event = some k) :
    touchRank (serverRun deps env moves).log e.task
      ≤ touchRank (serverRun deps env moves).log e'.task := by
  have hlt := steps_lt hlog
  have hsplit : (serverRun deps env moves).log = (pre ++ e :: mid) ++ e' :: post := by
    rw [hlog, List.append_assoc, List.cons_append]
  have he : e ∈ (serverRun deps env moves).log := by simp [hlog]
  have he' : e' ∈ (serverRun deps env moves).log := by simp [hlog]
  have hrank := touchRank_le he (by rw [hk]; exact nofun)
  rcases first_or_issue hb hsplit (by rw [hk']; exact nofun) with hfirst | ⟨grant, hissue⟩
  · rw [hfirst]
    exact hrank.trans hlt.le
  -- the code was drawn just now, so nobody has touched it
  · obtain ⟨i', w', ⟨o', x'⟩⟩ := e'
    cases hissue
    have hcode := run_answer hsplit rfl
    cases hk'
    obtain ⟨i, w, ⟨o, x⟩⟩ := e
    cases o with
    | issueCode grant' =>
        have hcode' := run_answer hlog rfl
        have hsame : x = x' := Key.code.inj (Option.some.inj hk)
        have hstep : w.steps = w'.steps := hfresh (hcode'.symm.trans (hsame.trans hcode))
        exact absurd hstep hlt.ne
    | popCode code =>
        obtain ⟨c, rfl, hc⟩ := Option.map_eq_some_iff.mp hk
        cases hc
        exact (hguess _ he' _ he rfl rfl hlt rfl).elim
    | createSession username auth => cases hk
    | getSession sid =>
        obtain ⟨_, _, hc⟩ := Option.map_eq_some_iff.mp hk
        cases hc
    | deleteSession sid =>
        obtain ⟨_, _, hc⟩ := Option.map_eq_some_iff.mp hk
        cases hc
    | _ => cases hk

/-! ## The reordered run -/

/-- The entry touches this key. -/
def touches (k : Key) (e : Entry Ise World) : Bool := decide (touched e.event = some k)

/-- The machine after these calls. -/
def worldAfter (deps : Deps) (env : Env) (l : ServerLog) : World :=
  runOps (serve env) (.initial deps.cfg.sessionTtlSeconds deps.cfg.sessionIdleTimeoutSeconds)
    (l.map (·.event.1))

theorem worldAfter_snoc (l : ServerLog) (e : Entry Ise World) :
    worldAfter deps env (l ++ [e]) = (serve env (worldAfter deps env l) e.event.1).2 := by
  rw [worldAfter, List.map_append, runOps_append]
  rfl

theorem worldAfter_steps (l : ServerLog) : (worldAfter deps env l).steps = l.length := by
  induction l using List.reverseRecOn with
  | nil => rfl
  | append_singleton l e ih =>
      rw [worldAfter_snoc, serve_steps, ih, List.length_append, List.length_singleton]

/-- The limits never change. -/
theorem worldAfter_limits (env' : Env) (l l' : ServerLog) :
    AgreeOn ∅ (worldAfter deps env l) (worldAfter deps env' l') := by
  have hstart (env : Env) (l : ServerLog) :
      AgreeOn ∅ (worldAfter deps env []) (worldAfter deps env l) := by
    induction l using List.reverseRecOn with
    | nil => exact .refl _ _
    | append_singleton l e ih =>
        rw [worldAfter_snoc]
        exact ih.trans (.untouched env _ _ (by simp))
  exact (hstart env l).symm.trans (hstart env' l')

/-- Entries that do not touch a key leave it as it is. -/
theorem worldAfter_untouched {pre mid post : ServerLog} {k : Key}
    (hlog : (serverRun deps env moves).log = pre ++ mid ++ post)
    (hmid : mid.filter (touches k) = []) :
    AgreeOn {k} (worldAfter deps env pre) (worldAfter deps env (pre ++ mid)) := by
  induction mid using List.reverseRecOn generalizing post with
  | nil =>
      rw [List.append_nil]
      exact .refl _ _
  | append_singleton mid e ih =>
      rw [List.filter_append, List.append_eq_nil_iff] at hmid
      have hsplit : (serverRun deps env moves).log = (pre ++ mid) ++ e :: post := by
        rw [hlog]
        simp
      rw [← List.append_assoc, worldAfter_snoc]
      refine (ih hsplit hmid.1).trans (.untouched env _ _ fun k' hk' => ?_)
      obtain ⟨hbefore, hans⟩ := run_before hsplit
      have hworld : worldAfter deps env (pre ++ mid) = e.before := hbefore.symm
      rw [hworld, ← hans, Set.mem_singleton_iff.mp hk']
      intro htouch
      have hfilter := List.filter_eq_nil_iff.mp hmid.2 e List.mem_cons_self
      exact hfilter (decide_eq_true htouch)

/-- The same entries in another order, with the touches of each key in the same order. -/
structure Reorders (log l : ServerLog) : Prop where
  perm : l.Perm log
  keys : ∀ k, l.filter (touches k) = log.filter (touches k)

/-- The outside, at each entry of the reordered log as it was. -/
def reorderedEnv (env : Env) (log l : ServerLog) : Env := env.sampled (stepsOf l log.length)

/-- The machine of the reordered run agrees on each key with the one that had the same touches of
it. -/
def AgreesAfter (deps : Deps) (env : Env) (log l pre' : ServerLog) : Prop :=
  ∀ k pre post, log = pre ++ post → pre.filter (touches k) = pre'.filter (touches k) →
    AgreeOn {k} (worldAfter deps env pre) (worldAfter deps (reorderedEnv env log l) pre')

theorem log_nodup : (serverRun deps env moves).log.Nodup :=
  run_steps_lt.imp fun hlt heq => absurd (congrArg (·.before.steps) heq) hlt.ne

/-- Before an entry the reordered run has the same touches of its key. -/
theorem Reorders.before {l pre post pre' post' : ServerLog} {e : Entry Ise World} {k : Key}
    (h : Reorders (serverRun deps env moves).log l)
    (hlog : (serverRun deps env moves).log = pre ++ e :: post) (hl : l = pre' ++ e :: post')
    (hk : touched e.event = some k) :
    pre.filter (touches k) = pre'.filter (touches k) := by
  have hnodup := @log_nodup deps env moves
  have hkeys := h.keys k
  have he : touches k e = true := decide_eq_true hk
  rw [hlog, List.nodup_middle, List.nodup_cons] at hnodup
  rw [hl, hlog, List.filter_append, List.filter_append, List.filter_cons_of_pos he,
    List.filter_cons_of_pos he] at hkeys
  have hpre : e ∉ pre.filter (touches k) := fun hin =>
    hnodup.1 (List.mem_append_left _ (List.mem_filter.mp hin).1)
  have hpost : e ∉ post.filter (touches k) := fun hin =>
    hnodup.1 (List.mem_append_right _ (List.mem_filter.mp hin).1)
  exact ((List.append_cons_inj_of_notMem hpre hpost).mp hkeys.symm).1

variable {l : ServerLog}

/-- Every entry is answered in the reordered run as it was. -/
theorem reordered_answer (h : Reorders (serverRun deps env moves).log l) {pre' post' : ServerLog}
    {e : Entry Ise World} (hl : l = pre' ++ e :: post')
    (hagree : AgreesAfter deps env (serverRun deps env moves).log l pre') :
    (serve (reorderedEnv env (serverRun deps env moves).log l)
      (worldAfter deps (reorderedEnv env (serverRun deps env moves).log l) pre') e.event.1).1
      = e.event.2 := by
  have he : e ∈ (serverRun deps env moves).log := h.perm.subset (by rw [hl]; simp)
  obtain ⟨pre, post, hlog⟩ := List.append_of_mem he
  obtain ⟨hbefore, hans⟩ := run_before hlog
  have hworld : worldAfter deps env pre = e.before := hbefore.symm
  have hsame := sampled_sameAt env hl (serverRun deps env moves).log.length
  rw [← @worldAfter_steps deps (reorderedEnv env (serverRun deps env moves).log l) pre'] at hsame
  rw [hans]
  cases hk : touched e.event with
  | none =>
      have hlimits := @worldAfter_limits deps env
        (reorderedEnv env (serverRun deps env moves).log l) pre pre'
      rw [hworld] at hlimits
      refine serve_answer hlimits hsame _ fun k hk' => ?_
      rw [← hans, hk] at hk'
      cases hk'
  | some k =>
      have hkey := hagree k pre (e :: post) hlog (h.before hlog hl hk)
      rw [hworld] at hkey
      refine serve_answer hkey hsame _ fun k' hk' => ?_
      rw [← hans, hk] at hk'
      exact (Option.some.inj hk').symm

/-- The machines stay in agreement along the reordered run. -/
theorem reordered_agrees (h : Reorders (serverRun deps env moves).log l) {pre' post' : ServerLog}
    (hl : l = pre' ++ post') : AgreesAfter deps env (serverRun deps env moves).log l pre' := by
  induction pre' using List.reverseRecOn generalizing post' with
  | nil =>
      intro k pre post hlog hfilter
      have hlog' : (serverRun deps env moves).log = [] ++ pre ++ post := hlog
      exact (worldAfter_untouched hlog' hfilter).symm
  | append_singleton pre' e ih =>
      intro k pre post hlog hfilter
      have hl' : l = pre' ++ e :: post' := by
        rw [hl]
        simp
      have hagree := ih hl'
      have hanswer := reordered_answer h hl' hagree
      have hsame := sampled_sameAt env hl' (serverRun deps env moves).log.length
      rw [← @worldAfter_steps deps (reorderedEnv env (serverRun deps env moves).log l) pre']
        at hsame
      rw [worldAfter_snoc]
      rw [List.filter_append] at hfilter
      cases he : touches k e with
      | true =>
          rw [List.filter_cons_of_pos he, List.filter_nil] at hfilter
          -- the same entry is the last one that touches the key
          obtain ⟨pre₁, rest, rfl, hpre₁, hrest⟩ := List.filter_eq_append_iff.mp hfilter
          obtain ⟨skipped, pre₂, rfl, hskipped, _, hpre₂⟩ := List.filter_eq_cons_iff.mp hrest
          have hlog' : (serverRun deps env moves).log
              = (pre₁ ++ skipped) ++ e :: (pre₂ ++ post) := by
            rw [hlog]
            simp
          have hlater : (serverRun deps env moves).log
              = (pre₁ ++ skipped ++ [e]) ++ pre₂ ++ post := by
            rw [hlog]
            simp
          have hfilter' : (pre₁ ++ skipped).filter (touches k) = pre'.filter (touches k) := by
            rw [List.filter_append, hpre₁, List.filter_eq_nil_iff.mpr hskipped, List.append_nil]
          obtain ⟨hbefore, hans⟩ := run_before hlog'
          have hworld : worldAfter deps env (pre₁ ++ skipped) = e.before := hbefore.symm
          have hkey := hagree k _ _ hlog' hfilter'
          rw [hworld] at hkey
          have hserved := serve_agrees hkey hsame e.event.1 fun k' hk' => by
            rw [← hans] at hk'
            exact Option.some.inj (hk'.symm.trans (of_decide_eq_true he))
          rw [← hworld, ← worldAfter_snoc] at hserved
          have hrest := worldAfter_untouched hlater hpre₂
          rw [show pre₁ ++ (skipped ++ e :: pre₂) = pre₁ ++ skipped ++ [e] ++ pre₂ by simp]
          exact hrest.symm.trans hserved
      | false =>
          rw [List.filter_cons_of_neg (by simp [he]), List.filter_nil, List.append_nil] at hfilter
          refine (hagree k pre post hlog hfilter).trans (.untouched _ _ _ fun k' hk' => ?_)
          rw [hanswer, Set.mem_singleton_iff.mp hk']
          exact of_decide_eq_false he

end

/-! ## One request after the other -/

/-- What holds of any two members in their order holds of the list. -/
theorem pairwise_of_splits {α : Type} {R : α → α → Prop} {l : List α}
    (h : ∀ pre a mid b post, l = pre ++ a :: (mid ++ b :: post) → R a b) : l.Pairwise R := by
  induction l with
  | nil => exact .nil
  | cons x l ih =>
      refine List.pairwise_cons.mpr ⟨fun b hb => ?_, ih fun pre a mid b post hl => ?_⟩
      · obtain ⟨mid, post, rfl⟩ := List.append_of_mem hb
        exact h [] x mid b post rfl
      · exact h (x :: pre) a mid b post (by rw [hl, List.cons_append])

/-- Different numbers below `m`, and then those from `m` on. -/
theorem injective_getD {l : List Nat} {m : Nat} (hl : l.Nodup) (hm : ∀ n ∈ l, n < m) :
    Function.Injective fun n => l[n]?.getD (m + n) := by
  intro i j hij
  dsimp only at hij
  rcases lt_or_ge i l.length with hi | hi <;> rcases lt_or_ge j l.length with hj | hj
  · rw [List.getElem?_eq_getElem hi, List.getElem?_eq_getElem hj, Option.getD_some,
      Option.getD_some] at hij
    exact (hl.getElem_inj_iff).mp hij
  · rw [List.getElem?_eq_getElem hi, List.getElem?_eq_none hj, Option.getD_some,
      Option.getD_none] at hij
    have hlt := hm _ (List.getElem_mem hi)
    omega
  · rw [List.getElem?_eq_none hi, List.getElem?_eq_getElem hj, Option.getD_some,
      Option.getD_none] at hij
    have hlt := hm _ (List.getElem_mem hj)
    omega
  · rw [List.getElem?_eq_none hi, List.getElem?_eq_none hj, Option.getD_none,
      Option.getD_none] at hij
    omega

/-- Every request has made the same calls and got the same answers and the same reply, and the two
tables are the same in the end. -/
structure SameOutcome (s s' : ServerSys) : Prop where
  tasks : s'.tasks = s.tasks
  events : ∀ i, eventsOf s'.log i = eventsOf s.log i
  tables : AgreeOn Set.univ s.world s'.world

section

variable {deps : Deps} {env : Env} {moves : List (Move ServerRequest)}

/-- Sorting a log by the first touches of the tasks reorders it. -/
theorem sortTasks_reorders (hb : deps.Built)
    (hfresh : Function.Injective fun n => (env.token n).text)
    (hguess : Unguessed (serverRun deps env moves).log) :
    Reorders (serverRun deps env moves).log
      (sortTasks (touchRank (serverRun deps env moves).log) (serverRun deps env moves).log) where
  perm := sortTasks_perm _
  keys k := by
    refine filter_sortTasks (List.pairwise_filter.mpr (pairwise_of_splits ?_))
    intro pre e mid e' post hlog he he'
    exact touches_ordered hb hfresh hguess hlog (of_decide_eq_true he) (of_decide_eq_true he')

/-- A reordered log is made by the run that advances the tasks in its order. -/
theorem reorders_outcome {l : ServerLog} (h : Reorders (serverRun deps env moves).log l)
    (hevents : ∀ i, eventsOf l i = eventsOf (serverRun deps env moves).log i) :
    SameOutcome (serverRun deps env moves)
      (serverRun deps (reorderedEnv env (serverRun deps env moves).log l)
        (replay (serverRun deps env moves).tasks l)) := by
  have hpath : ∀ i t, (serverRun deps env moves).tasks[i]? = some t →
      Prog.Path (t.req.program deps) (eventsOf l i) t.left := by
    intro i t ht
    rw [hevents]
    exact serverRun_path ht
  have htask : ∀ e ∈ l, e.task < (serverRun deps env moves).tasks.length := by
    intro e he
    obtain ⟨t, ht⟩ := run_task (h.perm.subset he)
    exact (List.getElem?_eq_some_iff.mp ht).1
  have hans : Answered (serve (reorderedEnv env (serverRun deps env moves).log l))
      (.initial deps.cfg.sessionTtlSeconds deps.cfg.sessionIdleTimeoutSeconds) l :=
    fun pre e post hl => (reordered_answer h hl (reordered_agrees h hl)).symm
  obtain ⟨htasks, hevents', hworld⟩ := run_replay hpath htask hans
  refine ⟨htasks, fun i => (hevents' i).trans (hevents i), ?_⟩
  have hend : (serverRun deps env moves).world
      = worldAfter deps env (serverRun deps env moves).log :=
    (run_linked (ServerRequest.program deps) (serve env) _ moves).2
  have hend' : (serverRun deps (reorderedEnv env (serverRun deps env moves).log l)
      (replay (serverRun deps env moves).tasks l)).world
        = worldAfter deps (reorderedEnv env (serverRun deps env moves).log l) l := hworld
  have hlimits := @worldAfter_limits deps env
    (reorderedEnv env (serverRun deps env moves).log l) (serverRun deps env moves).log l
  have hkey (k : Key) := reordered_agrees h (List.append_nil l).symm k
    (serverRun deps env moves).log [] (List.append_nil _).symm (h.keys k).symm
  rw [hend, hend']
  exact ⟨hlimits.ttl, hlimits.idle, fun sid _ => (hkey (.session sid)).sessions sid rfl,
    fun code _ => (hkey (.code code)).codes code rfl⟩

end

/-- The entries of a log with one task after the other: those of the lower rank come first, and
each task has its own in their order. -/
structure Serialises (rank : Nat → Nat) (log l : ServerLog) : Prop where
  perm : l.Perm log
  sorted : l.Pairwise fun e e' => rank e.task ≤ rank e'.task
  own : ∀ i, l.filter (·.task == i) = log.filter (·.task == i)

theorem sortTasks_serialises (rank : Nat → Nat) (log : ServerLog) :
    Serialises rank log (sortTasks rank log) :=
  ⟨sortTasks_perm log, sortTasks_sorted log, filter_task_sortTasks log⟩

/-- **Serializability**: if codes are not presented before they are issued, the requests of a run
can be served one after the other, each at once as far as it came, with the same calls, answers and
replies and the same tables in the end. Requests that did not overlap keep their order. At each call
of the serial run the clock, the drawn tokens and ISE are as they were at that call. -/
theorem serializable {deps : Deps} (hb : deps.Built) (env : Env)
    (hfresh : Function.Injective fun n => (env.token n).text) (moves : List (Move ServerRequest))
    (hguess : Unguessed (serverRun deps env moves).log) :
    ∃ (rank : Nat → Nat) (l : ServerLog), Function.Injective rank ∧
      KeepsOrder (serverRun deps env moves).log rank ∧
      Serialises rank (serverRun deps env moves).log l ∧
      Function.Injective (stepsOf l (serverRun deps env moves).log.length) ∧
      SameOutcome (serverRun deps env moves)
        (serverRun deps (env.sampled (stepsOf l (serverRun deps env moves).log.length))
          ((serverRun deps env moves).tasks.map (fun t => .spawn t.req)
            ++ l.map fun e => .advance e.task)) := by
  have hreorders := sortTasks_reorders hb hfresh hguess
  have hsteps : ((sortTasks (touchRank (serverRun deps env moves).log)
      (serverRun deps env moves).log).map (·.before.steps)).Nodup := by
    refine ((sortTasks_perm _).map _).nodup_iff.mpr (List.pairwise_map.mpr ?_)
    exact run_steps_lt.imp fun hlt => hlt.ne
  refine ⟨touchRank (serverRun deps env moves).log, _, touchRank_injective, touchRank_keepsOrder,
    sortTasks_serialises _ _, injective_getD hsteps fun n hn => ?_,
    reorders_outcome hreorders (eventsOf_sortTasks _)⟩
  obtain ⟨e, he, rfl⟩ := List.mem_map.mp hn
  exact steps_lt_length ((sortTasks_perm _).subset he)

/-- The exchange of the code that is drawn at step 10. -/
def lateCodeRequest : TokenRequest where
  form := [("grant_type", "authorization_code"), ("code", (sampleEnv.token 10).text),
    ("redirect_uri", "https://cb"), ("client_id", "cid"), ("client_secret", "sec")]
  authorization := none

/-- Alice logs in in her browser while Bob logs in with a tool, and her code is exchanged. -/
def overlappingLogins : List (Move ServerRequest) :=
  [.spawn (.authorizePost aliceForm), .spawn (.tool none (.iseLogin "bob" "pw"))]
    ++ (List.replicate 5 [.advance 0, .advance 1]).flatten
    ++ [.advance 0, .spawn (.token lateCodeRequest), .advance 2]

/-- They could have come one after the other. -/
theorem serializable_overlapping :
    ∃ (rank : Nat → Nat) (l : ServerLog), Function.Injective rank ∧
      KeepsOrder (serverRun oauthDeps sampleEnv overlappingLogins).log rank ∧
      Serialises rank (serverRun oauthDeps sampleEnv overlappingLogins).log l ∧
      Function.Injective (stepsOf l (serverRun oauthDeps sampleEnv overlappingLogins).log.length) ∧
      SameOutcome (serverRun oauthDeps sampleEnv overlappingLogins)
        (serverRun oauthDeps (sampleEnv.sampled
            (stepsOf l (serverRun oauthDeps sampleEnv overlappingLogins).log.length))
          ((serverRun oauthDeps sampleEnv overlappingLogins).tasks.map (fun t => .spawn t.req)
            ++ l.map fun e => .advance e.task)) := by
  have hb : oauthDeps.Built := rfl
  exact serializable hb sampleEnv sampleEnv_fresh overlappingLogins (by decide +kernel)

end IseMcp
