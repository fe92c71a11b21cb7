import IseMcp.Auth.SessionStore

set_option autoImplicit false

/-! # What the session store answers, from its history

A store is used by `create`, `get`, `delete` and `purge_expired` at non-decreasing clock
readings. `LiveSince` says, from that history alone, when an id is live: it was created, it was
not deleted since, it is within the absolute limit, and no two consecutive uses are further apart
than the idle limit. `get_eq_some_iff` says that `get` answers exactly then.

The proof looks at one id. `entryStep` is what an operation does to the entry of that id
(`lookup_apply`), and `entry_live_iff` follows one entry through any operations.
-/

namespace IseMcp

/-- An operation on the store; `create` comes with the id it draws. -/
inductive StoreOp where
  | create (username : String) (auth : AuthContext) (sid : Token)
  | get (sid : Option String)
  | delete (sid : Option String)
  | purgeExpired

/-- An operation and the clock reading it is executed at. -/
structure TimedOp where
  time : Time
  op : StoreOp

namespace SessionStore

def apply (st : SessionStore) : TimedOp → SessionStore
  | ⟨t, .create username auth sid⟩ => (st.create t sid.text username auth).2
  | ⟨t, .get sid⟩ => (st.get t sid).2
  | ⟨_, .delete sid⟩ => (st.delete sid).2
  | ⟨t, .purgeExpired⟩ => (st.purgeExpired t).2

/-- The store after a list of operations. -/
def after (st : SessionStore) (ops : List TimedOp) : SessionStore := ops.foldl apply st

@[simp] theorem after_nil (st : SessionStore) : st.after [] = st := rfl

@[simp] theorem after_cons (st : SessionStore) (op : TimedOp) (ops : List TimedOp) :
    st.after (op :: ops) = (st.apply op).after ops := rfl

theorem after_append (st : SessionStore) (ops ops' : List TimedOp) :
    st.after (ops ++ ops') = (st.after ops).after ops' := by
  simp [after]

end SessionStore

/-! ## The history of one id -/

/-- Whether the operation creates, reads or deletes `sid`. -/
def TimedOp.concerns (sid : String) : TimedOp → Bool
  | ⟨_, .create _ _ tok⟩ => tok.text == sid
  | ⟨_, .get o⟩ => o == some sid
  | ⟨_, .delete o⟩ => o == some sid
  | ⟨_, .purgeExpired⟩ => false

def TimedOp.creates (sid : String) : TimedOp → Bool
  | ⟨_, .create _ _ tok⟩ => tok.text == sid
  | _ => false

def TimedOp.deletes (sid : String) : TimedOp → Bool
  | ⟨_, .delete o⟩ => o == some sid
  | _ => false

def TimedOp.reads (sid : String) : TimedOp → Bool
  | ⟨_, .get o⟩ => o == some sid
  | _ => false

def TimedOp.purges : TimedOp → Bool
  | ⟨_, .purgeExpired⟩ => true
  | _ => false

/-- The times at which `sid` was read. -/
def accessTimes (sid : String) (ops : List TimedOp) : List Time :=
  (ops.filter (TimedOp.reads sid)).map (·.time)

/-- The ids that were drawn. -/
def createdIds (ops : List TimedOp) : List String :=
  ops.filterMap fun
    | ⟨_, .create _ _ tok⟩ => some tok.text
    | _ => none

/-- The clock never goes back, and `t` is now. -/
def Monotonic (ops : List TimedOp) (t : Time) : Prop :=
  (ops.map (·.time) ++ [t]).Pairwise (· ≤ ·)

/-- No id is drawn twice. -/
def FreshIds (ops : List TimedOp) : Prop := (createdIds ops).Nodup

/-- Consecutive uses are at most `idle` apart; a limit of `0` is off. -/
def WithinIdle (idle : Int) (times : List Time) : Prop :=
  idle = 0 ∨ times.IsChain fun a b => b - a ≤ (idle : Time)

def WithinTtl (ttl : Int) (t0 t : Time) : Prop := ttl = 0 ∨ t - t0 ≤ ttl

/-- `sid` was created at `t0` for this user, and is live at `t` according to what happened
since. -/
def LiveSince (ttl idle : Int) (ops : List TimedOp) (sid : String) (t0 : Time)
    (username : String) (auth : AuthContext) (t : Time) : Prop :=
  ∃ pre tok post, ops = pre ++ ⟨t0, .create username auth tok⟩ :: post ∧ tok.text = sid ∧
    (∀ op ∈ post, op.deletes sid = false) ∧ WithinTtl ttl t0 t ∧
    WithinIdle idle (t0 :: accessTimes sid post ++ [t])

/-! ## One entry of the store -/

/-- A live session, used once more at `t`. -/
def Session.touch (t : Time) (s : Session) : Option Session :=
  if s.isExpired t then none else some { s with lastUsedAt := t }

/-- What an operation does to the entry of `sid`. -/
def entryStep (ttl idle : Int) (sid : String) (e : Option Session) : TimedOp → Option Session
  | ⟨t, .create username auth tok⟩ =>
      if tok.text = sid then some ⟨sid, username, auth, t, t, ttl, idle⟩ else e
  | ⟨t, .get o⟩ =>
      if o = some sid then e.bind (Session.touch t) else e
  | ⟨_, .delete o⟩ => if o = some sid then none else e
  | ⟨t, .purgeExpired⟩ => e.bind fun s => if s.isExpired t then none else some s

namespace SessionStore

@[simp] theorem apply_ttl (st : SessionStore) (op : TimedOp) : (st.apply op).ttl = st.ttl := by
  obtain ⟨t, _ | o | o | _⟩ := op
  · rfl
  · exact (st.get_limits t o).1
  · exact (st.delete_limits o).1
  · rfl

@[simp] theorem apply_idle (st : SessionStore) (op : TimedOp) : (st.apply op).idle = st.idle := by
  obtain ⟨t, _ | o | o | _⟩ := op
  · rfl
  · exact (st.get_limits t o).2
  · exact (st.delete_limits o).2
  · rfl

/-- The entry of one id after an operation depends on that entry only. -/
theorem lookup_apply (st : SessionStore) {sid : String} (h : sid ≠ "") (op : TimedOp) :
    (st.apply op).lookup sid = entryStep st.ttl st.idle sid (st.lookup sid) op := by
  obtain ⟨t, ⟨username, auth, tok⟩ | o | o | _⟩ := op
  · by_cases htok : tok.text = sid
    · subst htok
      simp [apply, entryStep]
    · simp only [apply, entryStep, if_neg htok]
      exact lookup_create_ne st t username auth (Ne.symm htok)
  · by_cases ho : o = some sid
    · subst ho
      simp only [apply, entryStep, if_true]
      rw [lookup_get_self st t h, get_fst st t h]
      rfl
    · simp only [apply, entryStep, if_neg ho]
      exact lookup_get_ne st t ho
  · by_cases ho : o = some sid
    · subst ho
      simp only [apply, entryStep, if_true]
      exact lookup_delete_self st h
    · simp only [apply, entryStep, if_neg ho]
      exact lookup_delete_ne st ho
  · exact lookup_purgeExpired st t sid

theorem lookup_after (st : SessionStore) {sid : String} (h : sid ≠ "") (ops : List TimedOp) :
    (st.after ops).lookup sid
      = ops.foldl (entryStep st.ttl st.idle sid) (st.lookup sid) := by
  induction ops generalizing st with
  | nil => rfl
  | cons op ops ih =>
      rw [after_cons, ih, List.foldl_cons, lookup_apply st h, apply_ttl, apply_idle]

end SessionStore

/-- An entry that is gone stays gone until the id is created. -/
theorem foldl_entryStep_none {ttl idle : Int} {sid : String} {ops : List TimedOp}
    (h : ∀ op ∈ ops, op.creates sid = false) :
    ops.foldl (entryStep ttl idle sid) none = none := by
  induction ops with
  | nil => rfl
  | cons op ops ih =>
      have hop : entryStep ttl idle sid none op = none := by
        have hc := h op (by simp)
        obtain ⟨t, ⟨username, auth, tok⟩ | o | o | _⟩ := op
        · have htok : tok.text ≠ sid := by simpa [TimedOp.creates] using hc
          exact if_neg htok
        · simp [entryStep]
        · simp [entryStep]
        · rfl
      rw [List.foldl_cons, hop]
      exact ih fun op' hop' => h op' (by simp [hop'])

/-- What the other operations do to an entry: a delete removes it, a read touches it, a purge
removes it if it has expired. -/
theorem entryStep_some {ttl idle : Int} {sid : String} {op : TimedOp} {s : Session}
    (hnew : op.creates sid = false) :
    entryStep ttl idle sid (some s) op =
      if op.deletes sid then none
      else if op.reads sid then s.touch op.time
      else if op.purges ∧ s.isExpired op.time then none
      else some s := by
  obtain ⟨t, ⟨username, auth, tok⟩ | o | o | _⟩ := op
  · have htok : tok.text ≠ sid := by simpa [TimedOp.creates] using hnew
    simp [entryStep, TimedOp.deletes, TimedOp.reads, TimedOp.purges, htok]
  · by_cases ho : o = some sid <;>
      simp [entryStep, TimedOp.deletes, TimedOp.reads, TimedOp.purges, ho]
  · by_cases ho : o = some sid <;>
      simp [entryStep, TimedOp.deletes, TimedOp.reads, TimedOp.purges, ho]
  · simp [entryStep, TimedOp.deletes, TimedOp.reads, TimedOp.purges]

/-- A session used often enough up to `t` is not expired at any earlier time. -/
theorem Session.isExpired_eq_false_of_within {s : Session} {t₁ t : Time} {times : List Time}
    (hle : t₁ ≤ t) (htimes : ∀ x ∈ times, t₁ ≤ x)
    (httl : WithinTtl s.ttlSeconds s.createdAt t)
    (hidle : WithinIdle s.idleTimeoutSeconds (s.lastUsedAt :: times ++ [t])) :
    s.isExpired t₁ = false := by
  rw [Session.isExpired_eq_false_iff]
  refine ⟨httl.imp_right fun h => le_trans (by linarith) h, hidle.imp_right fun h => ?_⟩
  cases times with
  | nil =>
      have : t - s.lastUsedAt ≤ s.idleTimeoutSeconds := by simpa using h
      linarith
  | cons x times =>
      have hx := htimes x (by simp)
      have : x - s.lastUsedAt ≤ s.idleTimeoutSeconds := (List.isChain_cons_cons.mp h).1
      linarith

theorem Session.touch_expired {s : Session} {t : Time} (h : s.isExpired t = true) :
    s.touch t = none := by
  rw [touch, h, if_pos rfl]

theorem Session.touch_live {s : Session} {t : Time} (h : s.isExpired t = false) :
    s.touch t = some { s with lastUsedAt := t } := by
  rw [touch, h, if_neg Bool.false_ne_true]

theorem Session.touch_eq_some_iff {s s' : Session} {t : Time} :
    s.touch t = some s' ↔ s' = { s with lastUsedAt := t } ∧ s.isExpired t = false := by
  unfold touch
  cases s.isExpired t <;> simp [eq_comm]

theorem accessTimes_cons (sid : String) (op : TimedOp) (ops : List TimedOp) :
    accessTimes sid (op :: ops)
      = if op.reads sid then op.time :: accessTimes sid ops else accessTimes sid ops := by
  cases h : op.reads sid <;> simp [accessTimes, h]

theorem withinIdle_cons_cons {idle : Int} {a b : Time} {times : List Time} :
    WithinIdle idle (a :: b :: times) ↔
      (idle = 0 ∨ b - a ≤ idle) ∧ WithinIdle idle (b :: times) := by
  simp only [WithinIdle, List.isChain_cons_cons, or_and_left]

/-- **One entry through any operations that do not create it again**: at the end it is live
exactly if it was not deleted and its uses kept it within both limits. -/
theorem touch_foldl_iff {sid : String} {ops : List TimedOp} {t : Time} {s s' : Session}
    (hnew : ∀ op ∈ ops, op.creates sid = false) (hmono : Monotonic ops t) :
    (ops.foldl (entryStep s.ttlSeconds s.idleTimeoutSeconds sid) (some s)).bind (Session.touch t)
        = some s' ↔
      s' = { s with lastUsedAt := t } ∧ (∀ op ∈ ops, op.deletes sid = false) ∧
        WithinTtl s.ttlSeconds s.createdAt t ∧
        WithinIdle s.idleTimeoutSeconds (s.lastUsedAt :: accessTimes sid ops ++ [t]) := by
  -- a use changes the session, so the induction is on the history for every session
  induction ops generalizing s with
  | nil =>
      simp only [List.foldl_nil, Option.bind_some, Session.touch_eq_some_iff]
      refine and_congr_right fun _ => ⟨fun h => ?_, fun h => ?_⟩
      · rw [Session.isExpired_eq_false_iff] at h
        exact ⟨by simp, h.1, h.2.imp_right fun h => by simpa [accessTimes] using h⟩
      · refine Session.isExpired_eq_false_of_within le_rfl ?_ h.2.1 h.2.2
        simp [accessTimes]
  | cons op ops ih =>
      have hnew' : ∀ op' ∈ ops, op'.creates sid = false := fun op' h => hnew op' (by simp [h])
      obtain ⟨hhead, hmono'⟩ := List.pairwise_cons.mp hmono
      have htimes : ∀ x ∈ accessTimes sid ops, op.time ≤ x := by
        intro x hx
        obtain ⟨op', hop', rfl⟩ := List.mem_map.mp hx
        have hmem := List.mem_map_of_mem (f := TimedOp.time) (List.mem_filter.mp hop').1
        exact hhead _ (List.mem_append_left _ hmem)
      have ht : op.time ≤ t := hhead t (by simp)
      -- an entry that has expired by then is out of the limits at `t`
      have hexp : s.isExpired op.time = true → ¬ (WithinTtl s.ttlSeconds s.createdAt t ∧
          WithinIdle s.idleTimeoutSeconds (s.lastUsedAt :: accessTimes sid ops ++ [t])) := by
        intro hs h
        rw [Session.isExpired_eq_false_of_within ht htimes h.1 h.2] at hs
        cases hs
      rw [List.foldl_cons, entryStep_some (hnew op (by simp)), List.forall_mem_cons,
        accessTimes_cons]
      cases hdel : op.deletes sid with
      -- deleted: no later step brings it back
      | true => simp [foldl_entryStep_none hnew']
      | false =>
          cases hread : op.reads sid with
          | true =>
              -- a use: the session has expired by then, or goes on with a new time of use
              simp only [Bool.false_eq_true, if_false, if_true, true_and, List.cons_append,
                withinIdle_cons_cons]
              cases hs : s.isExpired op.time with
              | true =>
                  rw [Session.touch_expired hs, foldl_entryStep_none hnew']
                  simp only [Option.bind_none, reduceCtorEq, false_iff]
                  rintro ⟨_, _, httl, hfirst, _⟩
                  have hlive := Session.isExpired_eq_false_iff.mpr
                    ⟨httl.imp_right fun h => le_trans (sub_le_sub_right ht _) h, hfirst⟩
                  rw [hs] at hlive
                  cases hlive
              | false =>
                  rw [Session.touch_live hs, and_iff_right (Session.isExpired_eq_false_iff.mp hs).2]
                  exact ih (s := { s with lastUsedAt := op.time }) hnew' hmono'
          | false =>
              -- a purge, or an operation on another id
              simp only [Bool.false_eq_true, if_false, true_and]
              by_cases hpurge : op.purges = true ∧ s.isExpired op.time = true
              · rw [if_pos hpurge, foldl_entryStep_none hnew']
                simp only [Option.bind_none, reduceCtorEq, false_iff]
                rintro ⟨_, _, h⟩
                exact hexp hpurge.2 h
              · rw [if_neg hpurge]
                exact ih hnew' hmono'

/-! ## From the history to the answer -/

theorem createdIds_cons_create (t : Time) (username : String) (auth : AuthContext) (tok : Token)
    (ops : List TimedOp) :
    createdIds (⟨t, .create username auth tok⟩ :: ops) = tok.text :: createdIds ops := rfl

theorem mem_createdIds {sid : String} {ops : List TimedOp} :
    sid ∈ createdIds ops ↔ ∃ op ∈ ops, op.creates sid = true := by
  simp only [createdIds, List.mem_filterMap]
  refine exists_congr fun op => and_congr_right fun _ => ?_
  obtain ⟨t, ⟨username, auth, tok⟩ | o | o | _⟩ := op <;> simp [TimedOp.creates]

/-- An operation that creates `sid` is a `create` that drew it. -/
theorem creates_iff {sid : String} {op : TimedOp} :
    op.creates sid = true ↔
      ∃ username auth tok, op = ⟨op.time, .create username auth tok⟩ ∧ tok.text = sid := by
  obtain ⟨t, ⟨username, auth, tok⟩ | o | o | _⟩ := op <;> simp [TimedOp.creates]

/-- With fresh ids, nothing after a `create` draws the same id. -/
theorem FreshIds.not_created_again {pre post : List TimedOp} {t : Time} {username : String}
    {auth : AuthContext} {tok : Token}
    (h : FreshIds (pre ++ ⟨t, .create username auth tok⟩ :: post)) :
    ∀ op ∈ post, op.creates tok.text = false := by
  intro op hop
  by_contra hc
  have hmem : tok.text ∈ createdIds post :=
    mem_createdIds.mpr ⟨op, hop, by simpa using hc⟩
  have hnodup : (createdIds pre ++ (tok.text :: createdIds post)).Nodup := by
    rw [← createdIds_cons_create t username auth]
    simpa [FreshIds, createdIds] using h
  exact (List.nodup_cons.mp (List.nodup_append.mp hnodup).2.1).1 hmem

theorem FreshIds.left {ops ops' : List TimedOp} (h : FreshIds (ops ++ ops')) : FreshIds ops := by
  rw [FreshIds, createdIds, List.filterMap_append] at h
  exact h.of_append_left

theorem Monotonic.suffix {pre post : List TimedOp} {op : TimedOp} {t : Time}
    (h : Monotonic (pre ++ op :: post) t) : Monotonic post t := by
  refine List.Pairwise.sublist ?_ h
  rw [List.map_append, List.map_cons, List.append_assoc]
  exact ((List.sublist_cons_self _ _).append_right _).trans (List.sublist_append_right _ _)

/-- What `get` answers for an id, given the point of the history where it was created. -/
theorem get_after_create_iff {ttl idle : Int} {pre post : List TimedOp} {t0 t : Time}
    {username : String} {auth : AuthContext} {tok : Token} {s : Session}
    (hmono : Monotonic (pre ++ ⟨t0, .create username auth tok⟩ :: post) t)
    (hfresh : FreshIds (pre ++ ⟨t0, .create username auth tok⟩ :: post)) :
    (((SessionStore.empty ttl idle).after
        (pre ++ ⟨t0, .create username auth tok⟩ :: post)).get t (some tok.text)).1 = some s ↔
      s = ⟨tok.text, username, auth, t0, t, ttl, idle⟩ ∧
        (∀ op ∈ post, op.deletes tok.text = false) ∧ WithinTtl ttl t0 t ∧
        WithinIdle idle (t0 :: accessTimes tok.text post ++ [t]) := by
  have hcreate : ∀ e, entryStep ttl idle tok.text e ⟨t0, .create username auth tok⟩
      = some ⟨tok.text, username, auth, t0, t0, ttl, idle⟩ := fun e => if_pos rfl
  rw [SessionStore.get_fst _ t tok.nonempty, SessionStore.lookup_after _ tok.nonempty,
    List.foldl_append, List.foldl_cons]
  show (List.foldl _ (entryStep ttl idle tok.text _ _) _).bind (Session.touch t) = _ ↔ _
  rw [hcreate]
  exact touch_foldl_iff (s := ⟨tok.text, username, auth, t0, t0, ttl, idle⟩)
    hfresh.not_created_again hmono.suffix

/-- An id in the store was created. -/
theorem created_of_lookup {ttl idle : Int} {ops : List TimedOp} {sid : String} (hne : sid ≠ "")
    (h : ((SessionStore.empty ttl idle).after ops).lookup sid ≠ none) :
    ∃ op ∈ ops, op.creates sid = true := by
  by_contra hno
  have hnew : ∀ op ∈ ops, op.creates sid = false := by
    intro op hop
    by_contra hc
    exact hno ⟨op, hop, by simpa using hc⟩
  rw [SessionStore.lookup_after _ hne, SessionStore.lookup_empty, foldl_entryStep_none hnew] at h
  exact h rfl

/-- **`get` answers exactly when the history says the id is live**, and with what `create` was
given. -/
theorem get_eq_some_iff_liveSince {ttl idle : Int} {ops : List TimedOp} {t : Time} {sid : String}
    {s : Session} (hmono : Monotonic ops t) (hfresh : FreshIds ops) :
    (((SessionStore.empty ttl idle).after ops).get t (some sid)).1 = some s ↔
      ∃ t0 username auth, LiveSince ttl idle ops sid t0 username auth t ∧
        s = ⟨sid, username, auth, t0, t, ttl, idle⟩ := by
  constructor
  · intro h
    have hne : sid ≠ "" := by
      rintro rfl
      simp [SessionStore.get] at h
    have hlookup : ((SessionStore.empty ttl idle).after ops).lookup sid ≠ none := by
      intro hnone
      rw [SessionStore.get_fst _ t hne, hnone] at h
      cases h
    obtain ⟨op, hop, hc⟩ := created_of_lookup hne hlookup
    obtain ⟨pre, post, rfl⟩ := List.append_of_mem hop
    obtain ⟨username, auth, tok, hop, rfl⟩ := creates_iff.mp hc
    obtain ⟨t0, o⟩ := op
    rw [hop] at h hmono hfresh ⊢
    obtain ⟨rfl, hlive⟩ := (get_after_create_iff hmono hfresh).mp h
    exact ⟨t0, username, auth, ⟨pre, tok, post, rfl, rfl, hlive⟩, rfl⟩
  · rintro ⟨t0, username, auth, ⟨pre, tok, post, rfl, rfl, hlive⟩, rfl⟩
    exact (get_after_create_iff hmono hfresh).mpr ⟨rfl, hlive⟩

/-! ## What the store keeps -/

/-- A session opened at `t0` and used at these times was within both limits at each of them. -/
def InTime (ttl idle : Int) (t0 : Time) (times : List Time) : Prop :=
  (∀ x ∈ times, WithinTtl ttl t0 x) ∧ WithinIdle idle (t0 :: times)

theorem inTime_snoc {ttl idle : Int} {t0 t : Time} {times : List Time} :
    InTime ttl idle t0 (times ++ [t]) ↔
      InTime ttl idle t0 times ∧ WithinTtl ttl t0 t ∧
        (idle = 0 ∨ t - times.getLastD t0 ≤ idle) := by
  have hlast : ((t0 :: times).getLast?) = some (times.getLastD t0) := by
    rw [List.getLast?_cons, List.getLastD_eq_getLast?]
  have hidle : WithinIdle idle (t0 :: (times ++ [t])) ↔
      WithinIdle idle (t0 :: times) ∧ (idle = 0 ∨ t - times.getLastD t0 ≤ idle) := by
    rw [WithinIdle, WithinIdle, ← List.cons_append, List.isChain_append, hlast]
    simp [or_and_left]
  rw [InTime, InTime, hidle]
  simp only [List.mem_append, List.mem_singleton, or_imp, forall_and, forall_eq]
  tauto

/-- Without purges, an entry that is not created again is kept exactly if it was not deleted and
every use of it came in time. -/
theorem foldl_entryStep_eq_some_iff {sid : String} {ops : List TimedOp} {s s' : Session}
    (hnew : ∀ op ∈ ops, op.creates sid = false) (hpurge : ∀ op ∈ ops, op.purges = false) :
    ops.foldl (entryStep s.ttlSeconds s.idleTimeoutSeconds sid) (some s) = some s' ↔
      s' = { s with lastUsedAt := (accessTimes sid ops).getLastD s.lastUsedAt } ∧
        (∀ op ∈ ops, op.deletes sid = false) ∧
        (∀ x ∈ accessTimes sid ops, WithinTtl s.ttlSeconds s.createdAt x) ∧
        WithinIdle s.idleTimeoutSeconds (s.lastUsedAt :: accessTimes sid ops) := by
  induction ops generalizing s with
  | nil =>
      constructor
      · intro h
        cases h
        exact ⟨rfl, by simp, by simp [accessTimes], Or.inr (List.isChain_singleton _)⟩
      · intro h
        exact congrArg some h.1.symm
  | cons op ops ih =>
      have hnew' : ∀ op' ∈ ops, op'.creates sid = false := fun op' h => hnew op' (by simp [h])
      have hpurge' : ∀ op' ∈ ops, op'.purges = false := fun op' h => hpurge op' (by simp [h])
      have hno : ¬ (op.purges = true ∧ s.isExpired op.time = true) := by
        simp [hpurge op (by simp)]
      rw [List.foldl_cons, entryStep_some (hnew op (by simp)), List.forall_mem_cons,
        accessTimes_cons, if_neg hno]
      cases hdel : op.deletes sid with
      | true => simp [foldl_entryStep_none hnew']
      | false =>
          cases hread : op.reads sid with
          | true =>
              -- a use keeps the entry if it comes in time, and from then on counts as the last one
              simp only [Bool.false_eq_true, if_false, if_true, true_and, withinIdle_cons_cons,
                List.forall_mem_cons, List.getLastD_cons]
              cases hs : s.isExpired op.time with
              | true =>
                  rw [Session.touch_expired hs, foldl_entryStep_none hnew']
                  refine iff_of_false nofun ?_
                  rintro ⟨_, _, ⟨httl, _⟩, hidle, _⟩
                  rw [Session.isExpired_eq_false_iff.mpr ⟨httl, hidle⟩] at hs
                  cases hs
              | false =>
                  obtain ⟨httl, hidle⟩ := Session.isExpired_eq_false_iff.mp hs
                  have htime : WithinTtl s.ttlSeconds s.createdAt op.time := httl
                  rw [Session.touch_live hs, and_iff_right htime, and_iff_right hidle]
                  exact ih (s := { s with lastUsedAt := op.time }) hnew' hpurge'
          | false =>
              simp only [Bool.false_eq_true, if_false, true_and]
              exact ih hnew' hpurge'

/-- `sid` was created at `t0` for this user and not deleted since, and its uses since then, at
`times`, all came in time. -/
def KeptSince (ttl idle : Int) (ops : List TimedOp) (sid : String) (t0 : Time) (username : String)
    (auth : AuthContext) (times : List Time) : Prop :=
  ∃ pre tok post, ops = pre ++ ⟨t0, .create username auth tok⟩ :: post ∧ tok.text = sid ∧
    (∀ op ∈ post, op.deletes sid = false) ∧ times = accessTimes sid post ∧
    InTime ttl idle t0 times

/-- Every id that is kept is in time at `t`. -/
def KeptInTime (ttl idle : Int) (ops : List TimedOp) (t : Time) : Prop :=
  ∀ sid t0 username auth times, KeptSince ttl idle ops sid t0 username auth times →
    InTime ttl idle t0 (times ++ [t])

/-- Nothing is stored under the empty id. -/
theorem lookup_after_empty_id {st : SessionStore} (h : st.lookup "" = none) (ops : List TimedOp) :
    (st.after ops).lookup "" = none := by
  induction ops generalizing st with
  | nil => exact h
  | cons op ops ih =>
      refine ih ?_
      obtain ⟨t, ⟨username, auth, tok⟩ | o | o | _⟩ := op
      · exact (SessionStore.lookup_create_ne st t username auth tok.nonempty.symm).trans h
      · by_cases ho : o = some ""
        · subst ho
          exact h
        · exact (SessionStore.lookup_get_ne st t ho).trans h
      · by_cases ho : o = some ""
        · subst ho
          exact h
        · exact (SessionStore.lookup_delete_ne st ho).trans h
      · show (st.purgeExpired t).2.lookup "" = none
        rw [SessionStore.lookup_purgeExpired, h]
        rfl

/-- **What the store keeps**, without purges: the ids whose uses so far all came in time, whether
they are still in time or not. -/
theorem lookup_eq_some_iff_keptSince {ttl idle : Int} {ops : List TimedOp} {sid : String}
    {s : Session} (hfresh : FreshIds ops) (hpurge : ∀ op ∈ ops, op.purges = false) :
    ((SessionStore.empty ttl idle).after ops).lookup sid = some s ↔
      ∃ t0 username auth times, KeptSince ttl idle ops sid t0 username auth times ∧
        s = ⟨sid, username, auth, t0, times.getLastD t0, ttl, idle⟩ := by
  -- the entry of an id, from its creation on
  have hfold : ∀ {pre post : List TimedOp} {t0 : Time} {username : String} {auth : AuthContext}
      {tok : Token}, ops = pre ++ ⟨t0, .create username auth tok⟩ :: post →
      (((SessionStore.empty ttl idle).after ops).lookup tok.text = some s ↔
        s = ⟨tok.text, username, auth, t0, (accessTimes tok.text post).getLastD t0, ttl, idle⟩ ∧
          (∀ op ∈ post, op.deletes tok.text = false) ∧
          InTime ttl idle t0 (accessTimes tok.text post)) := by
    rintro pre post t0 username auth tok rfl
    have hcreate : ∀ e, entryStep ttl idle tok.text e ⟨t0, .create username auth tok⟩
        = some ⟨tok.text, username, auth, t0, t0, ttl, idle⟩ := fun e => if_pos rfl
    rw [SessionStore.lookup_after _ tok.nonempty, List.foldl_append, List.foldl_cons]
    show List.foldl _ (entryStep ttl idle tok.text _ _) _ = _ ↔ _
    rw [hcreate]
    exact foldl_entryStep_eq_some_iff (s := ⟨tok.text, username, auth, t0, t0, ttl, idle⟩)
      hfresh.not_created_again fun op hop => hpurge op (by simp [hop])
  constructor
  · intro h
    have hne : sid ≠ "" := by
      rintro rfl
      rw [lookup_after_empty_id (SessionStore.lookup_empty ttl idle "")] at h
      cases h
    obtain ⟨op, hop, hc⟩ := created_of_lookup hne (by rw [h]; exact nofun)
    obtain ⟨pre, post, hops⟩ := List.append_of_mem hop
    obtain ⟨username, auth, tok, hop, rfl⟩ := creates_iff.mp hc
    rw [hop] at hops
    obtain ⟨rfl, hdel, htime⟩ := (hfold hops).mp h
    exact ⟨_, username, auth, _, ⟨pre, tok, post, hops, rfl, hdel, rfl, htime⟩, rfl⟩
  · rintro ⟨t0, username, auth, times, ⟨pre, tok, post, hops, rfl, hdel, rfl, htime⟩, rfl⟩
    exact (hfold hops).mpr ⟨rfl, hdel, htime⟩

/-- Nothing in the store has expired exactly if everything it keeps is still in time. -/
theorem none_expired_iff {ttl idle : Int} {ops : List TimedOp} {t : Time} (hfresh : FreshIds ops)
    (hpurge : ∀ op ∈ ops, op.purges = false) :
    (∀ sid s, ((SessionStore.empty ttl idle).after ops).lookup sid = some s →
        s.isExpired t = false) ↔ KeptInTime ttl idle ops t := by
  constructor
  · intro h sid t0 username auth times hkept
    have hlookup := (lookup_eq_some_iff_keptSince hfresh hpurge).mpr
      ⟨t0, username, auth, times, hkept, rfl⟩
    obtain ⟨httl, hidle⟩ := Session.isExpired_eq_false_iff.mp (h sid _ hlookup)
    obtain ⟨_, _, _, _, _, _, _, htime⟩ := hkept
    exact inTime_snoc.mpr ⟨htime, httl, hidle⟩
  · intro h sid s hlookup
    obtain ⟨t0, username, auth, times, hkept, rfl⟩ :=
      (lookup_eq_some_iff_keptSince hfresh hpurge).mp hlookup
    obtain ⟨_, httl, hidle⟩ := inTime_snoc.mp (h sid t0 username auth times hkept)
    exact Session.isExpired_eq_false_iff.mpr ⟨httl, hidle⟩

/-! ## Other ids and purges -/

theorem TimedOp.concerns_of_reads {sid : String} {op : TimedOp} (h : op.reads sid = true) :
    op.concerns sid = true := by
  obtain ⟨t, ⟨username, auth, tok⟩ | o | o | _⟩ := op <;> simp_all [reads, concerns]

theorem TimedOp.concerns_of_deletes {sid : String} {op : TimedOp} (h : op.deletes sid = true) :
    op.concerns sid = true := by
  obtain ⟨t, ⟨username, auth, tok⟩ | o | o | _⟩ := op <;> simp_all [deletes, concerns]

theorem TimedOp.not_purges_of_concerns {sid : String} {op : TimedOp}
    (h : op.concerns sid = true) : op.purges = false := by
  obtain ⟨t, ⟨username, auth, tok⟩ | o | o | _⟩ := op <;> simp_all [purges, concerns]

theorem accessTimes_filter_concerns (sid : String) (ops : List TimedOp) :
    accessTimes sid (ops.filter (TimedOp.concerns sid)) = accessTimes sid ops := by
  rw [accessTimes, List.filter_filter, accessTimes]
  congr 1
  refine List.filter_congr fun op _ => ?_
  cases h : op.reads sid with
  | true => simp [TimedOp.concerns_of_reads h]
  | false => simp

/-- Whether an id is live is decided by the operations on that id. -/
theorem liveSince_filter_iff {ttl idle : Int} {ops : List TimedOp} {sid username : String}
    {t0 t : Time} {auth : AuthContext} :
    LiveSince ttl idle (ops.filter (TimedOp.concerns sid)) sid t0 username auth t ↔
      LiveSince ttl idle ops sid t0 username auth t := by
  constructor
  · rintro ⟨pre, tok, post, hops, rfl, hdel, httl, hidle⟩
    -- the parts of the filtered history come from parts of the whole one
    obtain ⟨l₁, l₂, rfl, rfl, h₂⟩ := List.filter_eq_append_iff.mp hops
    obtain ⟨l₃, l₄, rfl, _, _, rfl⟩ := List.filter_eq_cons_iff.mp h₂
    refine ⟨l₁ ++ l₃, tok, l₄, by simp, rfl, fun op hop => ?_, httl, ?_⟩
    · by_contra hd
      have hd' : op.deletes tok.text = true := by simpa using hd
      have hmem := List.mem_filter.mpr ⟨hop, TimedOp.concerns_of_deletes hd'⟩
      exact hd (hdel op hmem)
    · rwa [accessTimes_filter_concerns] at hidle
  · rintro ⟨pre, tok, post, rfl, rfl, hdel, httl, hidle⟩
    refine ⟨pre.filter (TimedOp.concerns tok.text), tok, post.filter (TimedOp.concerns tok.text),
      by simp [TimedOp.concerns], rfl, fun op hop => hdel op (List.mem_filter.mp hop).1, httl, ?_⟩
    rwa [accessTimes_filter_concerns]

/-- Two histories that agree on `sid` give it the same answer. -/
theorem get_congr_concerns {ttl idle : Int} {ops ops' : List TimedOp} {t : Time} {sid : String}
    (hmono : Monotonic ops t) (hfresh : FreshIds ops) (hmono' : Monotonic ops' t)
    (hfresh' : FreshIds ops')
    (h : ops'.filter (TimedOp.concerns sid) = ops.filter (TimedOp.concerns sid)) :
    (((SessionStore.empty ttl idle).after ops').get t (some sid)).1
      = (((SessionStore.empty ttl idle).after ops).get t (some sid)).1 := by
  refine Option.ext fun s => ?_
  rw [get_eq_some_iff_liveSince hmono hfresh, get_eq_some_iff_liveSince hmono' hfresh']
  refine exists_congr fun t0 => exists_congr fun username => exists_congr fun auth =>
    and_congr_left fun _ => ?_
  rw [← liveSince_filter_iff, h, liveSince_filter_iff]

theorem filter_concerns_of_not_purges {ops ops' : List TimedOp} (sid : String)
    (h : ops'.filter (fun op => !op.purges) = ops.filter (fun op => !op.purges)) :
    ops'.filter (TimedOp.concerns sid) = ops.filter (TimedOp.concerns sid) := by
  have key : ∀ l : List TimedOp, l.filter (TimedOp.concerns sid)
      = (l.filter fun op => !op.purges).filter (TimedOp.concerns sid) := by
    intro l
    rw [List.filter_filter]
    refine List.filter_congr fun op _ => ?_
    cases hc : op.concerns sid with
    | true => simp [TimedOp.not_purges_of_concerns hc]
    | false => simp
  rw [key, h, ← key]

theorem createdIds_filter_not_purges (ops : List TimedOp) :
    createdIds (ops.filter fun op => !op.purges) = createdIds ops := by
  induction ops with
  | nil => rfl
  | cons op ops ih =>
      obtain ⟨t, ⟨username, auth, tok⟩ | o | o | _⟩ := op <;>
        simpa [createdIds, TimedOp.purges] using ih

/-- An id that was created and is no longer answered is never answered again. -/
theorem get_none_of_get_none {ttl idle : Int} {ops more : List TimedOp} {t t' : Time}
    {sid : String} (hcreated : sid ∈ createdIds ops)
    (hfresh : FreshIds (ops ++ ⟨t, .get (some sid)⟩ :: more))
    (h : (((SessionStore.empty ttl idle).after ops).get t (some sid)).1 = none) :
    (((SessionStore.empty ttl idle).after
      (ops ++ ⟨t, .get (some sid)⟩ :: more)).get t' (some sid)).1 = none := by
  obtain ⟨op, _, hc⟩ := mem_createdIds.mp hcreated
  obtain ⟨_, _, tok, _, rfl⟩ := creates_iff.mp hc
  -- ids are fresh, so nothing later creates this one
  have hnew : ∀ op ∈ more, op.creates tok.text = false := by
    intro op hop
    by_contra hc
    have hmem : tok.text ∈ createdIds more := mem_createdIds.mpr ⟨op, hop, by simpa using hc⟩
    have hnodup : (createdIds ops ++ createdIds more).Nodup := by
      simpa [FreshIds, createdIds] using hfresh
    exact (List.nodup_append.mp hnodup).2.2 _ hcreated _ hmem rfl
  -- the `get` without an answer left no entry behind
  have hgone : (((SessionStore.empty ttl idle).after ops).apply
      ⟨t, .get (some tok.text)⟩).lookup tok.text = none :=
    (SessionStore.lookup_get_self _ t tok.nonempty).trans h
  rw [SessionStore.after_append, SessionStore.after_cons, SessionStore.get_fst _ t' tok.nonempty,
    SessionStore.lookup_after _ tok.nonempty, hgone, foldl_entryStep_none hnew]
  rfl

/-- **Trace semantics of the store.** For every history at non-decreasing clock readings with
fresh ids, `get` answers an id exactly if it is live according to the history, with the user and
the credentials it was created with. Hence no use outlives the absolute limit, an id that was
answered with nothing stays dead, and neither operations on other ids nor purges change an
answer. -/
theorem store_trace_semantics (ttl idle : Int) (ops : List TimedOp) (t : Time) (sid : String)
    (hmono : Monotonic ops t) (hfresh : FreshIds ops) :
    (∀ s, (((SessionStore.empty ttl idle).after ops).get t (some sid)).1 = some s ↔
      ∃ t0 username auth, LiveSince ttl idle ops sid t0 username auth t ∧
        s = ⟨sid, username, auth, t0, t, ttl, idle⟩) ∧
    (∀ s, (((SessionStore.empty ttl idle).after ops).get t (some sid)).1 = some s →
      ttl ≠ 0 → t - s.createdAt ≤ ttl) ∧
    (sid ∈ createdIds ops →
      (((SessionStore.empty ttl idle).after ops).get t (some sid)).1 = none →
      ∀ more t', FreshIds (ops ++ ⟨t, .get (some sid)⟩ :: more) →
        (((SessionStore.empty ttl idle).after
          (ops ++ ⟨t, .get (some sid)⟩ :: more)).get t' (some sid)).1 = none) ∧
    (∀ ops', Monotonic ops' t → FreshIds ops' →
      ops'.filter (TimedOp.concerns sid) = ops.filter (TimedOp.concerns sid) →
      (((SessionStore.empty ttl idle).after ops').get t (some sid)).1
        = (((SessionStore.empty ttl idle).after ops).get t (some sid)).1) ∧
    (∀ ops', Monotonic ops' t →
      ops'.filter (fun op => !op.purges) = ops.filter (fun op => !op.purges) →
      (((SessionStore.empty ttl idle).after ops').get t (some sid)).1
        = (((SessionStore.empty ttl idle).after ops).get t (some sid)).1) := by
  have hiff : ∀ s, (((SessionStore.empty ttl idle).after ops).get t (some sid)).1 = some s ↔
      ∃ t0 username auth, LiveSince ttl idle ops sid t0 username auth t ∧
        s = ⟨sid, username, auth, t0, t, ttl, idle⟩ :=
    fun _ => get_eq_some_iff_liveSince hmono hfresh
  refine ⟨hiff, fun s hs hne => ?_, fun hcreated hnone more t' hfresh' => ?_,
    fun ops' hmono' hfresh' hfilter => ?_, fun ops' hmono' hfilter => ?_⟩
  · obtain ⟨t0, _, _, ⟨_, _, _, _, _, _, httl, _⟩, rfl⟩ := (hiff s).mp hs
    exact httl.resolve_left hne
  · exact get_none_of_get_none hcreated hfresh' hnone
  · exact get_congr_concerns hmono hfresh hmono' hfresh' hfilter
  · refine get_congr_concerns hmono hfresh hmono' ?_ (filter_concerns_of_not_purges sid hfilter)
    rwa [FreshIds, ← createdIds_filter_not_purges, hfilter, createdIds_filter_not_purges]

/-- Logged in at 0, read at 5, with a purge between. -/
def aliceHistory : List TimedOp :=
  [⟨0, .create "alice" ⟨"alice", "passthrough", "pw", ""⟩ ⟨"s1", by decide, by decide⟩⟩,
    ⟨1, .purgeExpired⟩, ⟨5, .get (some "s1")⟩]

theorem store_trace_semantics_alice :
    (((SessionStore.empty 10 5).after aliceHistory).get 8 (some "s1")).1
      = some ⟨"s1", "alice", ⟨"alice", "passthrough", "pw", ""⟩, 0, 8, 10, 5⟩ := by
  have hmono : Monotonic aliceHistory 8 := by
    simp only [Monotonic, aliceHistory, List.map_cons, List.map_nil, List.cons_append,
      List.nil_append]
    decide +kernel
  have hfresh : FreshIds aliceHistory := by
    unfold FreshIds
    decide
  have h := store_trace_semantics 10 5 aliceHistory 8 "s1" hmono hfresh
  refine (h.1 _).mpr ⟨0, "alice", _, ⟨[], _, _, rfl, rfl, by decide, ?_, ?_⟩, rfl⟩
  · exact Or.inr (by norm_num)
  · refine Or.inr ?_
    simp only [accessTimes]
    decide +kernel

end IseMcp
