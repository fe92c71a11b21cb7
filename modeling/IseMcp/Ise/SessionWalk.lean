import IseMcp.Ise.XmlGrouping

set_option autoImplicit false

/-! # What a session summary is made of

`walk` carries a dictionary through the whole document. `leaves` lists what it could pick up, the
scalars that stand under a key, in document order; `lookup_walk` says that it keeps the first of
them under each key. -/

namespace IseMcp

open Python Grouping

/-- A value that is picked up: neither `None` nor a container. -/
def isScalar : PyVal → Bool
  | .none | .list _ | .dict _ => false
  | _ => true

mutual

/-- The scalars under a key, anywhere in a value. A scalar in a list stands under no key. -/
def leaves : PyVal → List (String × PyVal)
  | .dict kvs => leavesItems kvs
  | .list xs => leavesElems xs
  | _ => []

def leavesItems : List (String × PyVal) → List (String × PyVal)
  | [] => []
  | (k, v) :: rest => (if isScalar v then [(k, v)] else leaves v) ++ leavesItems rest

def leavesElems : List PyVal → List (String × PyVal)
  | [] => []
  | x :: xs => leaves x ++ leavesElems xs

end

theorem leavesItems_append (l l' : List (String × PyVal)) :
    leavesItems (l ++ l') = leavesItems l ++ leavesItems l' := by
  induction l with
  | nil => simp [leavesItems]
  | cons e l ih => simp [leavesItems, ih]

theorem leavesElems_append (xs ys : List PyVal) :
    leavesElems (xs ++ ys) = leavesElems xs ++ leavesElems ys := by
  induction xs with
  | nil => simp [leavesElems]
  | cons x xs ih => simp [leavesElems, ih]

theorem lookup_append (l l' : List (String × PyVal)) (k : String) :
    PyVal.lookup (l ++ l') k = (PyVal.lookup l k).or (PyVal.lookup l' k) :=
  List.lookup_append

/-- A scalar under a key is stored unless the key is taken. -/
theorem lookup_store (flat : List (String × PyVal)) (k k' : String) (v : PyVal) :
    PyVal.lookup (if (PyVal.lookup flat k).isSome then flat else flat ++ [(k, v)]) k'
      = (PyVal.lookup flat k').or (PyVal.lookup [(k, v)] k') := by
  by_cases h : (PyVal.lookup flat k).isSome = true
  · rw [if_pos h]
    by_cases hk : k' = k
    · obtain ⟨w, hw⟩ := Option.isSome_iff_exists.mp h
      rw [hk, hw, Option.some_or]
    · have hother : PyVal.lookup [(k, v)] k' = none := by
        rw [PyVal.lookup, List.lookup_cons, beq_eq_false_iff_ne.mpr hk]
        rfl
      rw [hother, Option.or_none]
  · rw [if_neg h, lookup_append]

theorem walkItems_scalar {v : PyVal} (h : isScalar v = true) (flat : List (String × PyVal))
    (k : String) (rest : List (String × PyVal)) :
    walkItems flat ((k, v) :: rest)
      = walkItems (if (PyVal.lookup flat k).isSome then flat else flat ++ [(k, v)]) rest := by
  cases v with
  | none | list _ | dict _ => cases h
  | _ => rw [walkItems] <;> simp

theorem walkItems_of_not_scalar {v : PyVal} (h : isScalar v = false)
    (flat : List (String × PyVal)) (k : String) (rest : List (String × PyVal)) :
    walkItems flat ((k, v) :: rest) = walkItems (walk flat v) rest := by
  cases v with
  | none => rw [walkItems, walk] <;> simp
  | list xs => rw [walkItems]
  | dict kvs => rw [walkItems]
  | _ => cases h

mutual

/-- **The walk keeps the first leaf under each key**, after what was there before. -/
theorem lookup_walk (flat : List (String × PyVal)) (v : PyVal) (k : String) :
    PyVal.lookup (walk flat v) k = (PyVal.lookup flat k).or (PyVal.lookup (leaves v) k) := by
  cases v with
  | dict kvs =>
      rw [walk, leaves]
      exact lookup_walkItems flat kvs k
  | list xs =>
      rw [walk, leaves]
      exact lookup_walkElems flat xs k
  | _ => exact Option.or_none.symm

theorem lookup_walkItems (flat kvs : List (String × PyVal)) (k : String) :
    PyVal.lookup (walkItems flat kvs) k
      = (PyVal.lookup flat k).or (PyVal.lookup (leavesItems kvs) k) := by
  match kvs with
  | [] => exact Option.or_none.symm
  | (k', v) :: rest =>
      rw [leavesItems]
      by_cases h : isScalar v = true
      · rw [walkItems_scalar h, lookup_walkItems _ rest, lookup_store, if_pos h, Option.or_assoc,
          lookup_append]
      · rw [walkItems_of_not_scalar (by simpa using h), lookup_walkItems _ rest, lookup_walk _ v,
          if_neg h, Option.or_assoc, lookup_append]

theorem lookup_walkElems (flat : List (String × PyVal)) (xs : List PyVal) (k : String) :
    PyVal.lookup (walkElems flat xs) k
      = (PyVal.lookup flat k).or (PyVal.lookup (leavesElems xs) k) := by
  match xs with
  | [] => exact Option.or_none.symm
  | x :: xs =>
      rw [walkElems, leavesElems, lookup_walkElems _ xs, lookup_walk _ x, Option.or_assoc,
        lookup_append]

end

mutual

theorem isScalar_of_mem_leaves {v : PyVal} {e : String × PyVal} (h : e ∈ leaves v) :
    isScalar e.2 = true := by
  cases v with
  | dict kvs => exact isScalar_of_mem_leavesItems (by rwa [leaves] at h)
  | list xs => exact isScalar_of_mem_leavesElems (by rwa [leaves] at h)
  | _ => cases h

theorem isScalar_of_mem_leavesItems {kvs : List (String × PyVal)} {e : String × PyVal}
    (h : e ∈ leavesItems kvs) : isScalar e.2 = true := by
  match kvs, h with
  | (k, v) :: rest, h =>
      rw [leavesItems, List.mem_append] at h
      rcases h with h | h
      · split_ifs at h with hs
        · rwa [List.mem_singleton.mp h]
        · exact isScalar_of_mem_leaves h
      · exact isScalar_of_mem_leavesItems h

theorem isScalar_of_mem_leavesElems {xs : List PyVal} {e : String × PyVal}
    (h : e ∈ leavesElems xs) : isScalar e.2 = true := by
  match xs, h with
  | x :: xs, h =>
      rw [leavesElems, List.mem_append] at h
      rcases h with h | h
      · exact isScalar_of_mem_leaves h
      · exact isScalar_of_mem_leavesElems h

end

/-- What is found in a sequence of dictionaries is found in the first that has the key. -/
theorem lookup_flatten (ls : List (List (String × PyVal))) (k : String) :
    PyVal.lookup ls.flatten k = ls.findSome? fun l => PyVal.lookup l k := by
  induction ls with
  | nil => rfl
  | cons l ls ih =>
      rw [List.flatten_cons, lookup_append, ih, List.findSome?_cons]
      cases PyVal.lookup l k <;> rfl

/-! ## The fields -/

/-- The fields of `SessionSummary`. -/
inductive SessionField where
  | mac
  | ipAddress
  | username
  | nasIp
  | nasPort
  | authzProfile
  | postureStatus
  | securityGroup
  | state
  | server
  deriving DecidableEq

namespace SessionField

/-- The tag that is looked up first. -/
def primary : SessionField → String
  | mac => "calling_station_id"
  | ipAddress => "framed_ip_address"
  | username => "user_name"
  | nasIp => "nas_ip_address"
  | nasPort => "nas_port_id"
  | authzProfile => "authorization_rule"
  | postureStatus => "posture_status"
  | securityGroup => "security_group"
  | state => "session_state"
  | server => "acs_server"

/-- The tag behind the `or`. -/
def alternative : SessionField → Option String
  | mac => some "macAddress"
  | ipAddress => some "ipAddress"
  | username => some "userName"
  | nasIp => some "nasIpAddress"
  | nasPort => some "nasPortId"
  | authzProfile => some "authProfile"
  | postureStatus => none
  | securityGroup => none
  | state => some "state"
  | server => some "server"

def value (s : SessionSummary) : SessionField → PyVal
  | mac => s.mac
  | ipAddress => s.ipAddress
  | username => s.username
  | nasIp => s.nasIp
  | nasPort => s.nasPort
  | authzProfile => s.authzProfile
  | postureStatus => s.postureStatus
  | securityGroup => s.securityGroup
  | state => s.state
  | server => s.server

end SessionField

/-- The first value reported under a tag, `None` if there is none. -/
def firstReported (parsed : PyVal) (tag : String) : PyVal :=
  ((leaves parsed).lookup tag).getD .none

/-- A field is the first value under its primary tag, or else under its alternative one. -/
theorem value_summarizeSession (parsed : PyVal) (f : SessionField) :
    f.value (summarizeSession parsed) =
      match f.alternative with
      | some alt => (firstReported parsed f.primary).or (firstReported parsed alt)
      | none => firstReported parsed f.primary := by
  have hget : ∀ key, (PyVal.lookup (walk [] parsed) key).getD .none = firstReported parsed key := by
    intro key
    rw [lookup_walk]
    rfl
  cases f <;> simp only [SessionField.value, SessionField.alternative, SessionField.primary,
    summarizeSession, hget]

end IseMcp
