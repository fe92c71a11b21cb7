import IseMcp.Auth.Base
import Mathlib.Data.List.AList
import Mathlib.Data.Rat.Defs
import Mathlib.Algebra.Order.Ring.Rat

set_option autoImplicit false

/-! # The session store

`auth/session_store.py`. Each method holds one lock (or runs between two suspension points of
the event loop), so it is one step on the store. Clock readings are rational numbers of seconds;
the reading and the fresh id are arguments.
-/

namespace IseMcp

open Python

abbrev Time : Type := ℚ

structure Session where
  sessionId : String
  username : String
  auth : AuthContext
  createdAt : Time
  lastUsedAt : Time
  ttlSeconds : Int
  idleTimeoutSeconds : Int
  deriving DecidableEq

def Session.isExpired (s : Session) (now : Time) : Bool :=
  if s.ttlSeconds ≠ 0 ∧ now - s.createdAt > s.ttlSeconds then true
  else if s.idleTimeoutSeconds ≠ 0 ∧ now - s.lastUsedAt > s.idleTimeoutSeconds then true
  else false

/-- A session that is not expired is within both limits; a limit of `0` is off. -/
theorem Session.isExpired_eq_false_iff {s : Session} {now : Time} :
    s.isExpired now = false ↔
      (s.ttlSeconds = 0 ∨ now - s.createdAt ≤ s.ttlSeconds) ∧
        (s.idleTimeoutSeconds = 0 ∨ now - s.lastUsedAt ≤ s.idleTimeoutSeconds) := by
  unfold isExpired
  split_ifs with h₁ h₂
  · simp only [false_iff, not_and_or, not_or, not_le]
    exact Or.inl h₁
  · simp only [false_iff, not_and_or, not_or, not_le]
    exact Or.inr h₂
  · simp only [true_iff]
    rw [not_and_or, not_not, gt_iff_lt, not_lt] at h₁ h₂
    exact ⟨h₁, h₂⟩

/-- The store: its two limits and the sessions by id. -/
structure SessionStore where
  ttl : Int
  idle : Int
  sessions : AList fun _ : String => Session

namespace SessionStore

def empty (ttl idle : Int) : SessionStore := ⟨ttl, idle, ∅⟩

def lookup (st : SessionStore) (sid : String) : Option Session := st.sessions.lookup sid

def create (st : SessionStore) (now : Time) (sid username : String) (auth : AuthContext) :
    Session × SessionStore :=
  let sess : Session := ⟨sid, username, auth, now, now, st.ttl, st.idle⟩
  (sess, { st with sessions := st.sessions.insert sid sess })

/-- `get`: an expired session is deleted on the way, a live one is touched. -/
def get (st : SessionStore) (now : Time) : Option String → Option Session × SessionStore
  | none => (none, st)
  | some sid =>
      if sid = "" then (none, st)
      else
        match st.lookup sid with
        | none => (none, st)
        | some sess =>
            if sess.isExpired now then (none, { st with sessions := st.sessions.erase sid })
            else
              (some { sess with lastUsedAt := now },
                { st with sessions := st.sessions.insert sid { sess with lastUsedAt := now } })

def delete (st : SessionStore) : Option String → Bool × SessionStore
  | none => (false, st)
  | some sid =>
      if sid = "" then (false, st)
      else ((st.lookup sid).isSome, { st with sessions := st.sessions.erase sid })

/-- The ids of the sessions expired at `now`. -/
def dead (st : SessionStore) (now : Time) : List String :=
  (st.sessions.entries.filter fun e => e.2.isExpired now).map (·.1)

def purgeExpired (st : SessionStore) (now : Time) : Nat × SessionStore :=
  ((st.dead now).length,
    { st with sessions := (st.dead now).foldl (fun m sid => m.erase sid) st.sessions })

/-! ## What each method does to one id -/

@[simp] theorem lookup_empty (ttl idle : Int) (sid : String) :
    (empty ttl idle).lookup sid = none := rfl

@[simp] theorem lookup_create_self (st : SessionStore) (now : Time) (sid username : String)
    (auth : AuthContext) :
    (st.create now sid username auth).2.lookup sid
      = some ⟨sid, username, auth, now, now, st.ttl, st.idle⟩ :=
  AList.lookup_insert _

theorem lookup_create_ne (st : SessionStore) (now : Time) {sid sid' : String} (username : String)
    (auth : AuthContext) (h : sid' ≠ sid) :
    (st.create now sid username auth).2.lookup sid' = st.lookup sid' :=
  AList.lookup_insert_ne h

/-- `get` returns the live session, touched. -/
theorem get_fst (st : SessionStore) (now : Time) {sid : String} (h : sid ≠ "") :
    (st.get now (some sid)).1 =
      (st.lookup sid).bind fun s =>
        if s.isExpired now then none else some { s with lastUsedAt := now } := by
  unfold get
  simp only [h, if_false]
  cases st.lookup sid with
  | none => rfl
  | some s =>
      simp only [Option.bind_some]
      split_ifs <;> rfl

theorem lookup_get_self (st : SessionStore) (now : Time) {sid : String} (h : sid ≠ "") :
    (st.get now (some sid)).2.lookup sid = (st.get now (some sid)).1 := by
  unfold get
  simp only [h, if_false]
  cases hs : st.lookup sid with
  | none => exact hs
  | some s =>
      simp only
      split_ifs
      · exact AList.lookup_erase _ _
      · exact AList.lookup_insert _

theorem lookup_get_ne (st : SessionStore) (now : Time) {o : Option String} {sid' : String}
    (h : o ≠ some sid') : (st.get now o).2.lookup sid' = st.lookup sid' := by
  cases o with
  | none => rfl
  | some sid =>
      have hne : sid' ≠ sid := fun he => h (by rw [he])
      unfold get
      by_cases hempty : sid = ""
      · simp [hempty]
      · simp only [hempty, if_false]
        cases st.lookup sid with
        | none => rfl
        | some s =>
            simp only
            split_ifs
            · exact AList.lookup_erase_ne hne
            · exact AList.lookup_insert_ne hne

theorem lookup_delete_self (st : SessionStore) {sid : String} (h : sid ≠ "") :
    (st.delete (some sid)).2.lookup sid = none := by
  simp only [delete, h, if_false]
  exact AList.lookup_erase _ _

theorem lookup_delete_ne (st : SessionStore) {o : Option String} {sid' : String}
    (h : o ≠ some sid') : (st.delete o).2.lookup sid' = st.lookup sid' := by
  cases o with
  | none => rfl
  | some sid =>
      have hne : sid' ≠ sid := fun he => h (by rw [he])
      by_cases hempty : sid = ""
      · simp [delete, hempty]
      · simp only [delete, hempty, if_false]
        exact AList.lookup_erase_ne hne

/-- No method changes the limits. -/
theorem get_limits (st : SessionStore) (now : Time) (o : Option String) :
    (st.get now o).2.ttl = st.ttl ∧ (st.get now o).2.idle = st.idle := by
  rcases o with _ | sid
  · exact ⟨rfl, rfl⟩
  · unfold get
    by_cases hempty : sid = ""
    · simp [hempty]
    · simp only [hempty, if_false]
      cases st.lookup sid with
      | none => exact ⟨rfl, rfl⟩
      | some s =>
          simp only
          split_ifs <;> exact ⟨rfl, rfl⟩

theorem delete_limits (st : SessionStore) (o : Option String) :
    (st.delete o).2.ttl = st.ttl ∧ (st.delete o).2.idle = st.idle := by
  rcases o with _ | sid
  · exact ⟨rfl, rfl⟩
  · simp only [delete]
    split_ifs <;> exact ⟨rfl, rfl⟩

theorem lookup_foldl_erase (ids : List String) (m : AList fun _ : String => Session)
    (sid : String) :
    (ids.foldl (fun m i => m.erase i) m).lookup sid
      = if sid ∈ ids then none else m.lookup sid := by
  induction ids generalizing m with
  | nil => simp
  | cons i ids ih =>
      rw [List.foldl_cons, ih]
      by_cases hi : sid = i
      · subst hi
        simp
      · by_cases hm : sid ∈ ids <;> simp [hm, hi]

theorem mem_dead_iff (st : SessionStore) (now : Time) (sid : String) :
    sid ∈ st.dead now ↔ ∃ s, st.lookup sid = some s ∧ s.isExpired now = true := by
  simp only [dead, List.mem_map, List.mem_filter, lookup]
  constructor
  · rintro ⟨⟨i, s⟩, ⟨hmem, hexp⟩, rfl⟩
    exact ⟨s, AList.mem_lookup_iff.mpr hmem, hexp⟩
  · rintro ⟨s, hs, hexp⟩
    exact ⟨⟨sid, s⟩, ⟨AList.mem_lookup_iff.mp hs, hexp⟩, rfl⟩

theorem lookup_purgeExpired (st : SessionStore) (now : Time) (sid : String) :
    (st.purgeExpired now).2.lookup sid
      = (st.lookup sid).bind fun s => if s.isExpired now then none else some s := by
  show ((st.dead now).foldl (fun m i => m.erase i) st.sessions).lookup sid = _
  rw [lookup_foldl_erase]
  by_cases h : sid ∈ st.dead now
  · rw [if_pos h]
    obtain ⟨s, hs, hexp⟩ := (mem_dead_iff st now sid).mp h
    simp [hs, hexp]
  · rw [if_neg h]
    show st.lookup sid = _
    cases hs : st.lookup sid with
    | none => rfl
    | some s =>
        have hexp : s.isExpired now = false := by
          by_contra hexp
          exact h ((mem_dead_iff st now sid).mpr ⟨s, hs, by simpa using hexp⟩)
        simp [hexp]

end SessionStore

end IseMcp
