import IseMcp.Data.Grouping
import IseMcp.Ise.Mnt

set_option autoImplicit false

/-! # The conversion of XML groups children

The loop of `_elem` decides from what is already stored under a tag whether to store, wrap or
append. Because a conversion is never a list itself (`elem_ne_list`), this gathers the children by
tag (`elemChildren_eq`), and every node of the tree can be found again in the result
(`elem_groups_children`). -/

namespace IseMcp

open Python Grouping

namespace Element

def tag : Element → String
  | .mk tag _ _ => tag

def children : Element → List Element
  | .mk _ _ children => children

end Element

/-- The value stored for the conversions of the children with one tag. -/
def gather : List PyVal → PyVal
  | [v] => v
  | vs => .list vs

/-- The children with their tags, converted. -/
def converted (cs : List Element) : List (String × PyVal) := cs.map fun c => (c.tag, elem c)

/-- A conversion is text, nothing or a dictionary. -/
theorem elem_ne_list (e : Element) (vs : List PyVal) : elem e ≠ .list vs := by
  obtain ⟨tag, text, cs⟩ := e
  cases cs with
  | nil =>
      rw [elem]
      split_ifs <;> simp
  | cons c cs => simp [elem]

/-- Wrapping and appending amount to gathering one value more. -/
theorem addChild_group {l : List (String × PyVal)} (hl : ∀ e ∈ l, ∀ vs, e.2 ≠ .list vs)
    (tag : String) (val : PyVal) :
    addChild (group gather l) tag val = group gather (l ++ [(tag, val)]) := by
  rw [group_snoc, addChild, PyVal.lookup, lookup_group]
  by_cases htag : tag ∈ keys l
  · rw [if_pos htag, if_pos htag]
    have hset : ∀ new, PyVal.setItem (group gather l) tag new
        = (group gather l).map fun e => if e.1 = tag then (tag, new) else e := by
      intro new
      rw [PyVal.setItem, PyVal.lookup, lookup_group, if_pos htag]
      rfl
    -- what is stored is a list exactly when there are two values or more
    match hvs : values l tag with
    | [] => exact absurd (values_eq_nil_iff.mp hvs) (not_not.mpr htag)
    | [v] =>
        have hv : ∀ vs, v ≠ .list vs := by
          have hmem : v ∈ values l tag := by rw [hvs]; exact List.mem_singleton_self v
          exact hl _ (mem_values.mp hmem)
        have hone : gather [v] = v := rfl
        rw [hone]
        cases v with
        | list vs => exact absurd rfl (hv vs)
        | _ => exact hset _
    | v :: w :: vs => exact hset _
  · rw [if_neg htag, if_neg htag]
    show PyVal.setItem _ _ _ = _
    rw [PyVal.setItem, PyVal.lookup, lookup_group, if_neg htag]
    rfl

/-- The loop over the children gathers them by tag. -/
theorem elemChildren_eq (done rest : List Element) :
    elemChildren (group gather (converted done)) rest
      = group gather (converted (done ++ rest)) := by
  induction rest generalizing done with
  | nil => rw [elemChildren, List.append_nil]
  | cons c rest ih =>
      obtain ⟨tag, text, cs⟩ := c
      have hdone : ∀ e ∈ converted done, ∀ vs, e.2 ≠ .list vs := by
        intro e he
        obtain ⟨d, _, rfl⟩ := List.mem_map.mp he
        exact elem_ne_list d
      have hsnoc : converted done ++ [(tag, elem (.mk tag text cs))]
          = converted (done ++ [.mk tag text cs]) := by
        rw [converted, converted, List.map_append]
        rfl
      calc elemChildren (group gather (converted done)) (.mk tag text cs :: rest)
          = elemChildren (addChild (group gather (converted done)) tag (elem (.mk tag text cs)))
              rest := by rw [elemChildren]
        _ = elemChildren (group gather (converted (done ++ [.mk tag text cs]))) rest := by
            rw [addChild_group hdone, hsnoc]
        _ = group gather (converted (done ++ [.mk tag text cs] ++ rest)) := ih _
        _ = group gather (converted (done ++ .mk tag text cs :: rest)) := by
            rw [List.append_assoc, List.singleton_append]

theorem elem_of_children {tag : String} {text : Option String} {cs : List Element}
    (h : cs ≠ []) : elem (.mk tag text cs) = .dict (group gather (converted cs)) := by
  cases cs with
  | nil => exact absurd rfl h
  | cons c cs => exact congrArg PyVal.dict (elemChildren_eq [] (c :: cs))

/-! ## Finding a node again -/

/-- The children with one tag, in document order. -/
def Element.childrenNamed (e : Element) (t : String) : List Element :=
  e.children.filter fun c => c.tag = t

/-- What a dictionary of conversions holds under a tag: a list is several children, anything else
is one. -/
def occurrences (kvs : List (String × PyVal)) (t : String) : List PyVal :=
  match PyVal.lookup kvs t with
  | none => []
  | some (.list vs) => vs
  | some v => [v]

theorem values_converted (cs : List Element) (t : String) :
    values (converted cs) t = (cs.filter fun c => c.tag = t).map elem := by
  rw [values, converted, List.filter_map, List.map_map]
  rfl

theorem keys_converted (cs : List Element) :
    keys (converted cs) = (cs.map Element.tag).eraseDups := by
  rw [keys, converted, List.map_map]
  rfl

/-- The children with a tag are read back from the dictionary: as a conversion is no list, one
child is not taken for several. -/
theorem occurrences_group (cs : List Element) (t : String) :
    occurrences (group gather (converted cs)) t
      = (cs.filter fun c => c.tag = t).map elem := by
  rw [← values_converted, occurrences, PyVal.lookup]
  match hvs : values (converted cs) t with
  | [] => rw [lookup_group_of_nil hvs]
  | v :: vs =>
      rw [lookup_group_of_cons hvs]
      cases vs with
      | nil =>
          have hv : ∀ ws, v ≠ .list ws := by
            have hv' : v ∈ (cs.filter fun c => c.tag = t).map elem := by
              rw [← values_converted, hvs]
              exact List.mem_singleton_self v
            obtain ⟨d, _, rfl⟩ := List.mem_map.mp hv'
            exact elem_ne_list d
          show (match some v with
            | none => []
            | some (.list vs) => vs
            | some v => [v]) = [v]
          cases v with
          | list ws => exact absurd rfl (hv ws)
          | _ => rfl
      | cons w vs => rfl

/-- A way down a tree: at each step a tag and which of the children with it. -/
abbrev Way : Type := List (String × Nat)

def Element.descend : Way → Element → Option Element
  | [], e => some e
  | (t, i) :: way, e => ((e.childrenNamed t)[i]?).bind (descend way)

/-- The same way down a conversion. -/
def follow : Way → PyVal → Option PyVal
  | [], v => some v
  | (t, i) :: way, .dict kvs => ((occurrences kvs t)[i]?).bind (follow way)
  | _ :: _, _ => none

/-- A way leads to a node of the tree exactly when it leads somewhere in the conversion, and there
to the conversion of that node. -/
theorem follow_elem (way : Way) (e : Element) : follow way (elem e) = (e.descend way).map elem := by
  induction way generalizing e with
  | nil => rfl
  | cons step way ih =>
      obtain ⟨t, i⟩ := step
      obtain ⟨tag, text, cs⟩ := e
      by_cases hcs : cs = []
      · -- text has no children to go to
        subst hcs
        rw [elem]
        split_ifs <;> rfl
      · rw [elem_of_children hcs, follow, occurrences_group, Element.descend, List.getElem?_map]
        show _ = Option.map elem (((cs.filter fun c => c.tag = t)[i]?).bind (Element.descend way))
        cases (cs.filter fun c => c.tag = t)[i]? with
        | none => rfl
        | some c => exact ih c

/-- **XML conversion groups children without loss**: a childless node becomes its stripped text or
`None`; a node with children a dictionary with the distinct tags in order of first occurrence, each
with the conversion of the only child or with the list of the conversions of its children in
document order. A conversion is never a list, so the children with a tag can be read back, and at
any depth every way down the tree is a way down its conversion. -/
theorem elem_groups_children :
    (∀ tag text, elem (.mk tag text []) =
      if strip (text.getD "") = "" then .none else .str (strip (text.getD ""))) ∧
    (∀ tag text cs, cs ≠ [] → ∃ kvs, elem (.mk tag text cs) = .dict kvs ∧
      kvs.map Prod.fst = (cs.map Element.tag).eraseDups ∧
      ∀ t, PyVal.lookup kvs t =
        match (cs.filter fun c => c.tag = t).map elem with
        | [] => none
        | [v] => some v
        | vs => some (.list vs)) ∧
    (∀ e vs, elem e ≠ .list vs) ∧
    ∀ way e, follow way (elem e) = (e.descend way).map elem := by
  refine ⟨fun tag text => by rw [elem], fun tag text cs hcs => ?_, elem_ne_list, follow_elem⟩
  refine ⟨_, elem_of_children hcs, ?_, fun t => ?_⟩
  · rw [map_fst_group, keys_converted]
  · rw [PyVal.lookup, ← values_converted]
    match hvs : values (converted cs) t with
    | [] => rw [lookup_group_of_nil hvs]
    | v :: vs =>
        rw [lookup_group_of_cons hvs]
        cases vs <;> rfl

end IseMcp
