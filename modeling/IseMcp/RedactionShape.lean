import IseMcp.Responses

set_option autoImplicit false

/-! # What redaction keeps

A path leads from a value into its dictionaries and lists, and is clear if none of its keys is
sensitive. `redact` keeps everything a clear path leads to: reading the redacted value along it is
reading the value along it and redacting what is found (`at?_redactAt`), and redaction changes
neither the keys of a dictionary nor the length of a list nor a leaf.
-/

namespace IseMcp

open Python

/-! ## Paths -/

/-- A step into a value: to a key of a dictionary, or to a position of a list. -/
inductive Crumb where
  | key (k : String)
  | index (i : Nat)
  deriving DecidableEq

/-- What a step leads to. -/
def child : PyVal → Crumb → Option PyVal
  | .dict kvs, .key k => PyVal.lookup kvs k
  | .list xs, .index i => xs[i]?
  | _, _ => none

/-- What a path leads to. -/
def at? : List Crumb → PyVal → Option PyVal
  | [], x => some x
  | c :: p, x => (child x c).bind (at? p)

/-- No key on the path is sensitive. -/
def Clear (p : List Crumb) : Prop := ∀ k, Crumb.key k ∈ p → isSensitive k = false

/-- A value without what is inside it: the keys of a dictionary in their order, the length of a
list. -/
inductive Outline where
  | dict (keys : List String)
  | list (length : Nat)
  | leaf
  deriving DecidableEq

def outline : PyVal → Outline
  | .dict kvs => .dict (kvs.map (·.1))
  | .list xs => .list xs.length
  | _ => .leaf

theorem at?_append (p q : List Crumb) (x : PyVal) :
    at? (p ++ q) x = (at? p x).bind (at? q) := by
  induction p generalizing x with
  | nil => rfl
  | cons c p ih =>
      show (child x c).bind (at? (p ++ q)) = ((child x c).bind (at? p)).bind (at? q)
      cases child x c with
      | none => rfl
      | some v => exact ih v

/-! ## One level -/

theorem redactElems_eq_map (depth : Nat) (xs : List PyVal) :
    redactElems depth xs = xs.map (redactAt (depth + 1)) := by
  induction xs with
  | nil => rfl
  | cons x xs ih => rw [redactElems, ih, List.map_cons]

/-- Below the limit nothing is touched. -/
theorem redactAt_of_deep {depth : Nat} (h : depth > 25) (x : PyVal) : redactAt depth x = x := by
  cases x with
  | dict kvs => rw [redactAt, if_pos h]
  | list xs => rw [redactAt, if_pos h]
  | _ => rfl

theorem redactAt_of_leaf (depth : Nat) {x : PyVal} (h : outline x = .leaf) :
    redactAt depth x = x := by
  cases x with
  | dict kvs => cases h
  | list xs => cases h
  | _ => rfl

theorem keys_redactItems (depth : Nat) (kvs : List (String × PyVal)) :
    (redactItems depth kvs).map (·.1) = kvs.map (·.1) := by
  induction kvs with
  | nil => rfl
  | cons kv kvs ih => rw [redactItems, List.map_cons, List.map_cons, ih]

theorem lookup_redactItems (depth : Nat) (kvs : List (String × PyVal)) (k : String) :
    PyVal.lookup (redactItems depth kvs) k
      = (PyVal.lookup kvs k).map fun v =>
          if isSensitive k then .str mask else redactAt (depth + 1) v := by
  induction kvs with
  | nil => rfl
  | cons kv kvs ih =>
      obtain ⟨l, v⟩ := kv
      unfold PyVal.lookup at ih ⊢
      rw [redactItems, List.lookup_cons, List.lookup_cons]
      by_cases hkl : k = l
      · subst hkl
        simp
      · rw [beq_false_of_ne hkl]
        exact ih

theorem outline_redactAt (depth : Nat) (x : PyVal) : outline (redactAt depth x) = outline x := by
  by_cases hd : depth > 25
  · rw [redactAt_of_deep hd]
  · cases x with
    | dict kvs =>
        rw [redactAt, if_neg hd, outline, outline, keys_redactItems]
    | list xs =>
        rw [redactAt, if_neg hd, outline, outline, redactElems_eq_map, List.length_map]
    | _ => rfl

/-- Off the sensitive keys, a step into the redacted value finds the redacted child. -/
theorem child_redactAt (depth : Nat) (x : PyVal) {c : Crumb}
    (hc : ∀ k, c = .key k → isSensitive k = false) :
    child (redactAt depth x) c = (child x c).map (redactAt (depth + 1)) := by
  by_cases hd : depth > 25
  · have hid : redactAt (depth + 1) = id := funext fun v => redactAt_of_deep (by omega) v
    rw [redactAt_of_deep hd, hid, Option.map_id, id]
  · cases x with
    | dict kvs =>
        rw [redactAt, if_neg hd]
        cases c with
        | key k =>
            show PyVal.lookup _ k = _
            rw [lookup_redactItems, hc k rfl]
            rfl
        | index i => rfl
    | list xs =>
        rw [redactAt, if_neg hd]
        cases c with
        | key k => rfl
        | index i =>
            show (redactElems depth xs)[i]? = _
            rw [redactElems_eq_map, List.getElem?_map]
            rfl
    | _ => rfl

/-- Above the limit, a sensitive key leads to the mask. -/
theorem child_redactAt_sensitive {depth : Nat} (hd : depth ≤ 25) (x : PyVal) {k : String}
    (hk : isSensitive k = true) :
    child (redactAt depth x) (.key k) = (child x (.key k)).map fun _ => .str mask := by
  cases x with
  | dict kvs =>
      rw [redactAt, if_neg (by omega)]
      show PyVal.lookup _ k = _
      rw [lookup_redactItems, hk]
      rfl
  | list xs =>
      rw [redactAt, if_neg (by omega)]
      rfl
  | _ => rfl

/-! ## Any depth -/

/-- **Redaction along a clear path**: what is found in the redacted value is what was there,
redacted from the depth it stands at. -/
theorem at?_redactAt {p : List Crumb} (hp : Clear p) (depth : Nat) (x : PyVal) :
    at? p (redactAt depth x) = (at? p x).map (redactAt (depth + p.length)) := by
  induction p generalizing depth x with
  | nil => rfl
  | cons c p ih =>
      have hc : ∀ k, c = .key k → isSensitive k = false := by
        rintro k rfl
        exact hp k List.mem_cons_self
      have hrest : Clear p := fun k hk => hp k (List.mem_cons_of_mem _ hk)
      show (child (redactAt depth x) c).bind (at? p) = ((child x c).bind (at? p)).map _
      rw [child_redactAt depth x hc]
      cases child x c with
      | none => rfl
      | some v =>
          have hlen : depth + (c :: p).length = depth + 1 + p.length := by
            rw [List.length_cons]
            omega
          rw [hlen]
          exact ih hrest (depth + 1) v

theorem at?_redactAt_sensitive {p : List Crumb} (hp : Clear p) {depth : Nat}
    (hd : depth + p.length ≤ 25) (x : PyVal) {k : String} (hk : isSensitive k = true) :
    at? (p ++ [.key k]) (redactAt depth x)
      = (at? (p ++ [.key k]) x).map fun _ => .str mask := by
  rw [at?_append, at?_append, at?_redactAt hp]
  cases at? p x with
  | none => rfl
  | some v =>
      show (child (redactAt (depth + p.length) v) (.key k)).bind some
        = ((child v (.key k)).bind some).map _
      rw [Option.bind_fun_some, Option.bind_fun_some]
      exact child_redactAt_sensitive hd v hk

mutual

/-- What is masked stays masked, and what is below the limit stays there. -/
theorem redactAt_redactAt (depth : Nat) :
    (x : PyVal) → redactAt depth (redactAt depth x) = redactAt depth x
  | .dict kvs => by
      simp only [redactAt]
      split_ifs with hd
      · rw [redactAt, if_pos hd]
      · rw [redactAt, if_neg hd, redactItems_redactItems depth kvs]
  | .list xs => by
      simp only [redactAt]
      split_ifs with hd
      · rw [redactAt, if_pos hd]
      · rw [redactAt, if_neg hd, redactElems_redactElems depth xs]
  | .none | .bool _ | .int _ | .float _ | .str _ => rfl

theorem redactItems_redactItems (depth : Nat) :
    (kvs : List (String × PyVal)) →
      redactItems depth (redactItems depth kvs) = redactItems depth kvs
  | [] => rfl
  | (k, v) :: kvs => by
      have hv := redactAt_redactAt (depth + 1) v
      have hkvs := redactItems_redactItems depth kvs
      cases hk : isSensitive k <;> simp [redactItems, hk, hv, hkvs]

theorem redactElems_redactElems (depth : Nat) :
    (xs : List PyVal) → redactElems depth (redactElems depth xs) = redactElems depth xs
  | [] => rfl
  | x :: xs => by
      simp only [redactElems]
      rw [redactAt_redactAt (depth + 1) x, redactElems_redactElems depth xs]

end

/-- **Redaction changes nothing else**: along clear paths there are the same keys in the same
order, lists of the same length and the same leaves; a sensitive key above the depth limit leads to
the mask; and redacting again changes nothing. -/
theorem redact_changes_nothing_else (x : PyVal) :
    (∀ p, Clear p → (at? p (redact x)).map outline = (at? p x).map outline) ∧
    (∀ p v, Clear p → outline v = .leaf → at? p x = some v → at? p (redact x) = some v) ∧
    (∀ p k, Clear p → isSensitive k = true → p.length ≤ 25 →
      at? (p ++ [.key k]) (redact x) = (at? (p ++ [.key k]) x).map fun _ => .str mask) ∧
    redact (redact x) = redact x := by
  refine ⟨fun p hp => ?_, fun p v hp hv h => ?_, fun p k hp hk hlen => ?_, redactAt_redactAt 0 x⟩
  · rw [redact, at?_redactAt hp, Option.map_map]
    congr 1
    exact funext fun v => outline_redactAt _ v
  · rw [redact, at?_redactAt hp, h, Option.map_some, redactAt_of_leaf _ hv]
  · exact at?_redactAt_sensitive hp (by omega) x hk

end IseMcp
