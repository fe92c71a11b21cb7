import Mathlib.Tactic

set_option autoImplicit false

/-! # Grouping by key

A list of pairs read as a table with several values under one key. `keys` are the keys in the order
in which they come up, `values` what stands under one of them, and `group` the whole table with the
values of each key gathered by a function. -/

namespace Grouping

variable {κ α β : Type} [DecidableEq κ]

/-- The keys, each where it first occurs. -/
def keys (l : List (κ × α)) : List κ := (l.map Prod.fst).eraseDups

/-- The values under one key, in order. -/
def values (l : List (κ × α)) (k : κ) : List α := (l.filter fun e => e.1 = k).map Prod.snd

/-- One entry a key, made from the values under it. -/
def group (gather : List α → β) (l : List (κ × α)) : List (κ × β) :=
  (keys l).map fun k => (k, gather (values l k))

/-! ## Keys and values -/

theorem mem_keys {l : List (κ × α)} {k : κ} : k ∈ keys l ↔ k ∈ l.map Prod.fst :=
  List.mem_eraseDups

theorem keys_snoc (l : List (κ × α)) (k : κ) (v : α) :
    keys (l ++ [(k, v)]) = if k ∈ keys l then keys l else keys l ++ [k] := by
  have hremove : List.removeAll [k] (l.map Prod.fst) = if k ∈ keys l then [] else [k] := by
    rw [List.removeAll, List.filter_singleton]
    by_cases h : k ∈ keys l
    · rw [if_pos h, List.elem_iff.mpr (mem_keys.mp h)]
      rfl
    · rw [if_neg h, eq_false_of_ne_true (mt List.elem_iff.mp (mt mem_keys.mpr h))]
      rfl
  rw [keys, List.map_append, List.eraseDups_append, List.map_singleton, hremove]
  split_ifs
  · exact List.append_nil _
  · rfl

theorem values_snoc (l : List (κ × α)) (k k' : κ) (v : α) :
    values (l ++ [(k, v)]) k' = values l k' ++ if k = k' then [v] else [] := by
  rw [values, List.filter_append, List.map_append]
  by_cases h : k = k' <;> simp [values, h]

theorem values_eq_nil_iff {l : List (κ × α)} {k : κ} : values l k = [] ↔ k ∉ keys l := by
  rw [mem_keys, values, List.map_eq_nil_iff, List.filter_eq_nil_iff]
  simp only [decide_eq_true_eq, List.mem_map, not_exists, not_and]

theorem mem_values {l : List (κ × α)} {k : κ} {v : α} : v ∈ values l k ↔ (k, v) ∈ l := by
  simp only [values, List.mem_map, List.mem_filter, decide_eq_true_eq]
  constructor
  · rintro ⟨⟨k', v'⟩, ⟨hmem, rfl⟩, rfl⟩
    exact hmem
  · intro h
    exact ⟨(k, v), ⟨h, rfl⟩, rfl⟩

/-! ## The table -/

variable {gather : List α → β}

theorem map_fst_group (l : List (κ × α)) : (group gather l).map Prod.fst = keys l := by
  simp [group, Function.comp_def]

/-- An entry is there when the key is, and holds what is gathered of the values under it. -/
theorem lookup_group (l : List (κ × α)) (k : κ) :
    (group gather l).lookup k = if k ∈ keys l then some (gather (values l k)) else none := by
  rw [group]
  induction keys l with
  | nil => rfl
  | cons k' ks ih =>
      rw [List.map_cons, List.lookup_cons, ih]
      by_cases h : k = k'
      · simp [h]
      · rw [beq_eq_false_iff_ne.mpr h]
        simp [h]

theorem lookup_group_of_nil {l : List (κ × α)} {k : κ} (h : values l k = []) :
    (group gather l).lookup k = none := by
  rw [lookup_group, if_neg (values_eq_nil_iff.mp h)]

theorem lookup_group_of_cons {l : List (κ × α)} {k : κ} {v : α} {vs : List α}
    (h : values l k = v :: vs) : (group gather l).lookup k = some (gather (v :: vs)) := by
  have hmem : k ∈ keys l := by
    by_contra hk
    rw [values_eq_nil_iff.mpr hk] at h
    cases h
  rw [lookup_group, if_pos hmem, h]

/-- One more pair changes the entry of its key, or adds one at the end. -/
theorem group_snoc (l : List (κ × α)) (k : κ) (v : α) :
    group gather (l ++ [(k, v)]) =
      if k ∈ keys l then
        (group gather l).map fun e => if e.1 = k then (k, gather (values l k ++ [v])) else e
      else group gather l ++ [(k, gather [v])] := by
  have hentry : ∀ k', (k', gather (values (l ++ [(k, v)]) k'))
      = if k' = k then (k, gather (values l k ++ [v])) else (k', gather (values l k')) := by
    intro k'
    rw [values_snoc]
    by_cases h : k' = k
    · simp [h]
    · simp [h, Ne.symm h]
  rw [group, keys_snoc]
  by_cases h : k ∈ keys l
  · rw [if_pos h, if_pos h, group, List.map_map]
    exact List.map_congr_left fun k' _ => hentry k'
  · rw [if_neg h, if_neg h, List.map_append, List.map_singleton, hentry, if_pos rfl,
      values_eq_nil_iff.mpr h, List.nil_append, group]
    congr 1
    refine List.map_congr_left fun k' hk' => ?_
    rw [hentry, if_neg]
    rintro rfl
    exact h hk'

end Grouping
