import IseMcp.Responses

set_option autoImplicit false

/-! # What redaction hides

Two values agree up to secrets (`SameUpToSecrets`) if they differ only in what is stored under
sensitive keys. Redaction hides the secrets of a pair if both become the same value with the mask
under every sensitive key (`Hides`).

`redact` stops 26 levels down: a dictionary there is returned as it is. So the pair is hidden
exactly if neither value keeps a secret that deep (`MaskedBelow`, `hides_iff`).
-/

namespace IseMcp

open Python

/-! ## Definitions -/

mutual

def SameUpToSecrets : PyVal → PyVal → Prop
  | .dict kvs, y => ∃ kvs', y = .dict kvs' ∧ SameItems kvs kvs'
  | .list xs, y => ∃ ys, y = .list ys ∧ SameElems xs ys
  | x, y => x = y

/-- The same keys in the same order; values under sensitive keys are arbitrary. -/
def SameItems : List (String × PyVal) → List (String × PyVal) → Prop
  | [], kvs' => kvs' = []
  | (k, v) :: kvs, kvs' =>
      ∃ v' rest, kvs' = (k, v') :: rest ∧ (isSensitive k = false → SameUpToSecrets v v') ∧
        SameItems kvs rest

def SameElems : List PyVal → List PyVal → Prop
  | [], ys => ys = []
  | x :: xs, ys => ∃ y rest, ys = y :: rest ∧ SameUpToSecrets x y ∧ SameElems xs rest

end

mutual

/-- Every entry under a sensitive key, at any depth, is the mask. -/
def AllMasked : PyVal → Prop
  | .dict kvs => AllMaskedItems kvs
  | .list xs => AllMaskedElems xs
  | _ => True

def AllMaskedItems : List (String × PyVal) → Prop
  | [] => True
  | (k, v) :: kvs =>
      (isSensitive k = true → v = .str mask) ∧ (isSensitive k = false → AllMasked v) ∧
        AllMaskedItems kvs

def AllMaskedElems : List PyVal → Prop
  | [] => True
  | x :: xs => AllMasked x ∧ AllMaskedElems xs

end

mutual

/-- Read at `depth`, the value has no secret below level 25: in the dictionaries there, every
entry under a sensitive key is the mask already. -/
def MaskedBelow (depth : Nat) : PyVal → Prop
  | .dict kvs => if depth > 25 then AllMaskedItems kvs else MaskedBelowItems depth kvs
  | .list xs => if depth > 25 then AllMaskedElems xs else MaskedBelowElems depth xs
  | _ => True

def MaskedBelowItems (depth : Nat) : List (String × PyVal) → Prop
  | [] => True
  | (k, v) :: kvs =>
      (isSensitive k = false → MaskedBelow (depth + 1) v) ∧ MaskedBelowItems depth kvs

def MaskedBelowElems (depth : Nat) : List PyVal → Prop
  | [] => True
  | x :: xs => MaskedBelow (depth + 1) x ∧ MaskedBelowElems depth xs

end

/-- Redaction and the envelopes hide the difference between `x` and `y`, and no sensitive entry
of the output is anything but the mask. -/
def Hides (x y : PyVal) : Prop :=
  redact x = redact y ∧
    (∀ other includeRaw kwargs,
      ok x other includeRaw kwargs = ok y other includeRaw kwargs ∧
      ok other x includeRaw kwargs = ok other y includeRaw kwargs) ∧
    AllMasked (redact x) ∧ AllMasked (redact y)

/-! ## One value -/

mutual

/-- The output is masked everywhere exactly if nothing is left to mask where `redact` stops. -/
theorem allMasked_redactAt_iff (depth : Nat) :
    (x : PyVal) → (AllMasked (redactAt depth x) ↔ MaskedBelow depth x)
  | .dict kvs => by
      simp only [redactAt, MaskedBelow]
      split_ifs with h
      · rfl
      · exact allMaskedItems_redactItems_iff depth kvs
  | .list xs => by
      simp only [redactAt, MaskedBelow]
      split_ifs with h
      · rfl
      · exact allMaskedElems_redactElems_iff depth xs
  | .none | .bool _ | .int _ | .float _ | .str _ => Iff.rfl

theorem allMaskedItems_redactItems_iff (depth : Nat) :
    (kvs : List (String × PyVal)) →
      (AllMaskedItems (redactItems depth kvs) ↔ MaskedBelowItems depth kvs)
  | [] => Iff.rfl
  | (k, v) :: kvs => by
      have hv := allMasked_redactAt_iff (depth + 1) v
      have hkvs := allMaskedItems_redactItems_iff depth kvs
      cases hk : isSensitive k <;>
        simp [redactItems, AllMaskedItems, MaskedBelowItems, hk, hv, hkvs]

theorem allMaskedElems_redactElems_iff (depth : Nat) :
    (xs : List PyVal) → (AllMaskedElems (redactElems depth xs) ↔ MaskedBelowElems depth xs)
  | [] => Iff.rfl
  | x :: xs => by
      simp only [redactElems, AllMaskedElems, MaskedBelowElems]
      exact and_congr (allMasked_redactAt_iff (depth + 1) x) (allMaskedElems_redactElems_iff depth xs)

end

/-! ## Two values -/

mutual

/-- Values that agree up to secrets and have none left are equal. -/
theorem eq_of_allMasked : (x y : PyVal) → SameUpToSecrets x y → AllMasked x → AllMasked y → x = y
  | .dict kvs, y, h, hx, hy => by
      obtain ⟨kvs', rfl, h⟩ := h
      exact congrArg _ (eq_of_allMaskedItems kvs kvs' h hx hy)
  | .list xs, y, h, hx, hy => by
      obtain ⟨ys, rfl, h⟩ := h
      exact congrArg _ (eq_of_allMaskedElems xs ys h hx hy)
  | .none, _, h, _, _ | .bool _, _, h, _, _ | .int _, _, h, _, _ | .float _, _, h, _, _
  | .str _, _, h, _, _ => h

theorem eq_of_allMaskedItems : (kvs kvs' : List (String × PyVal)) → SameItems kvs kvs' →
    AllMaskedItems kvs → AllMaskedItems kvs' → kvs = kvs'
  | [], _, h, _, _ => h.symm
  | (k, v) :: kvs, _, h, hx, hy => by
      obtain ⟨v', rest, rfl, hv, h⟩ := h
      obtain ⟨hx₁, hx₂, hx⟩ := hx
      obtain ⟨hy₁, hy₂, hy⟩ := hy
      -- under a sensitive key both hold the mask
      have hvv : v = v' := by
        cases hk : isSensitive k with
        | true => rw [hx₁ hk, hy₁ hk]
        | false => exact eq_of_allMasked v v' (hv hk) (hx₂ hk) (hy₂ hk)
      rw [hvv, eq_of_allMaskedItems kvs rest h hx hy]

theorem eq_of_allMaskedElems : (xs ys : List PyVal) → SameElems xs ys →
    AllMaskedElems xs → AllMaskedElems ys → xs = ys
  | [], _, h, _, _ => h.symm
  | x :: xs, _, h, hx, hy => by
      obtain ⟨y, rest, rfl, hxy, h⟩ := h
      rw [eq_of_allMasked x y hxy hx.1 hy.1, eq_of_allMaskedElems xs rest h hx.2 hy.2]

end

mutual

/-- Values that agree up to secrets and keep none below level 25 are redacted to one value. -/
theorem redactAt_eq (depth : Nat) : (x y : PyVal) → SameUpToSecrets x y → MaskedBelow depth x →
    MaskedBelow depth y → redactAt depth x = redactAt depth y
  | .dict kvs, y, h, hx, hy => by
      obtain ⟨kvs', rfl, h⟩ := h
      simp only [MaskedBelow] at hx hy
      simp only [redactAt]
      -- below level 25 both are left as they are
      split_ifs at hx hy ⊢ with hd
      · rw [eq_of_allMaskedItems kvs kvs' h hx hy]
      · rw [redactItems_eq depth kvs kvs' h hx hy]
  | .list xs, y, h, hx, hy => by
      obtain ⟨ys, rfl, h⟩ := h
      simp only [MaskedBelow] at hx hy
      simp only [redactAt]
      split_ifs at hx hy ⊢ with hd
      · rw [eq_of_allMaskedElems xs ys h hx hy]
      · rw [redactElems_eq depth xs ys h hx hy]
  | .none, _, h, _, _ | .bool _, _, h, _, _ | .int _, _, h, _, _ | .float _, _, h, _, _
  | .str _, _, h, _, _ => congrArg _ h

theorem redactItems_eq (depth : Nat) : (kvs kvs' : List (String × PyVal)) → SameItems kvs kvs' →
    MaskedBelowItems depth kvs → MaskedBelowItems depth kvs' →
    redactItems depth kvs = redactItems depth kvs'
  | [], _, h, _, _ => congrArg _ h.symm
  | (k, v) :: kvs, _, h, hx, hy => by
      obtain ⟨v', rest, rfl, hv, h⟩ := h
      have hrest := redactItems_eq depth kvs rest h hx.2 hy.2
      cases hk : isSensitive k with
      | true => simp [redactItems, hk, hrest]
      | false =>
          have hvv := redactAt_eq (depth + 1) v v' (hv hk) (hx.1 hk) (hy.1 hk)
          simp [redactItems, hk, hvv, hrest]

theorem redactElems_eq (depth : Nat) : (xs ys : List PyVal) → SameElems xs ys →
    MaskedBelowElems depth xs → MaskedBelowElems depth ys →
    redactElems depth xs = redactElems depth ys
  | [], _, h, _, _ => congrArg _ h.symm
  | x :: xs, _, h, hx, hy => by
      obtain ⟨y, rest, rfl, hxy, h⟩ := h
      simp only [redactElems]
      rw [redactAt_eq (depth + 1) x y hxy hx.1 hy.1, redactElems_eq depth xs rest h hx.2 hy.2]

end

theorem SameUpToSecrets.none_iff {x y : PyVal} (h : SameUpToSecrets x y) :
    x = .none ↔ y = .none := by
  cases x with
  | dict kvs =>
      obtain ⟨_, rfl, _⟩ := h
      simp
  | list xs =>
      obtain ⟨_, rfl, _⟩ := h
      simp
  | _ => exact iff_of_eq (congrArg (· = PyVal.none) h)

/-- **When redaction hides the secrets of a pair**: exactly if neither value keeps one in a
dictionary more than 25 levels down. -/
theorem hides_iff (x y : PyVal) (h : SameUpToSecrets x y) :
    Hides x y ↔ MaskedBelow 0 x ∧ MaskedBelow 0 y := by
  constructor
  · rintro ⟨_, _, hx, hy⟩
    exact ⟨(allMasked_redactAt_iff 0 x).mp hx, (allMasked_redactAt_iff 0 y).mp hy⟩
  · rintro ⟨hx, hy⟩
    have heq : redact x = redact y := redactAt_eq 0 x y h hx hy
    refine ⟨heq, fun other includeRaw kwargs => ⟨?_, ?_⟩, (allMasked_redactAt_iff 0 x).mpr hx,
      (allMasked_redactAt_iff 0 y).mpr hy⟩
    · simp only [ok, heq]
    · simp only [ok, heq, ne_eq, h.none_iff]

theorem hides_iff_password :
    Hides (.dict [("mac", .str "AA"), ("password", .str "one")])
      (.dict [("mac", .str "AA"), ("password", .str "two")]) := by
  refine (hides_iff _ _ ?_).mpr ⟨?_, ?_⟩
  · exact ⟨_, rfl, _, _, rfl, fun _ => rfl, _, _, rfl, fun h => absurd h (by decide), rfl⟩
  · exact ⟨fun _ => trivial, fun h => absurd h (by decide), trivial⟩
  · exact ⟨fun _ => trivial, fun h => absurd h (by decide), trivial⟩

/-- `v` inside `n` dictionaries. -/
def nested : Nat → PyVal → PyVal
  | 0, v => v
  | n + 1, v => .dict [("a", nested n v)]

theorem sameUpToSecrets_nested {v v' : PyVal} (h : SameUpToSecrets v v') (n : Nat) :
    SameUpToSecrets (nested n v) (nested n v') := by
  induction n with
  | zero => exact h
  | succ n ih => exact ⟨_, rfl, _, _, rfl, fun _ => ih, rfl⟩

/-- A password 26 levels down shows in the output. -/
theorem redact_leaks_nested_26 : ¬ ∀ x y, SameUpToSecrets x y → Hides x y := by
  intro h
  have hsame : SameUpToSecrets (.dict [("password", .str "one")])
      (.dict [("password", .str "two")]) :=
    ⟨_, rfl, _, _, rfl, fun hk => absurd hk (by decide), rfl⟩
  have heq := (h _ _ (sameUpToSecrets_nested hsame 26)).1
  exact absurd heq (by decide)

end IseMcp
