import IseMcp.Ise.Ers

set_option autoImplicit false

/-! # What ISE may reply

The ERS wrapper takes replies apart with `get`, which is there on dictionaries only. The lemmas
here say for each function on which values it returns, and what. -/

namespace IseMcp

open Python

/-- Whether a value is a dictionary. -/
def isDict : PyVal → Bool
  | .dict _ => true
  | _ => false

theorem isDict_iff {v : PyVal} : isDict v = true ↔ ∃ kvs, v = .dict kvs := by
  cases v <;> simp [isDict]

/-- `d.get(key)` on a dictionary. -/
def item (kvs : List (String × PyVal)) (key : String) : PyVal := (PyVal.lookup kvs key).getD .none

/-- What `get` raises on anything but a dictionary. -/
def noGet (v : PyVal) : PyExc :=
  exc .attributeError ("'" ++ v.typeName ++ "' object has no attribute 'get'")

theorem get_dict (kvs : List (String × PyVal)) (key : String) :
    (PyVal.dict kvs).get key = .ok (item kvs key) := rfl

theorem getD_of_not_dict {v : PyVal} (h : isDict v = false) (key : String) (dflt : PyVal) :
    v.getD key dflt = .error (noGet v) := by
  cases v with
  | dict kvs => cases h
  | _ => rfl

theorem get_of_not_dict {v : PyVal} (h : isDict v = false) (key : String) :
    v.get key = .error (noGet v) :=
  getD_of_not_dict h key .none

/-- The summary of an endpoint dictionary. -/
def summaryOf (kvs : List (String × PyVal)) : EndpointSummary where
  mac := item kvs "mac"
  endpointId := item kvs "id"
  name := item kvs "name"
  ipAddress := item kvs "ipAddress"
  identityGroupId := item kvs "groupId"
  identityGroup := .none
  profileId := item kvs "profileId"
  profile := .none
  staticGroupAssignment := item kvs "staticGroupAssignment"
  staticProfileAssignment := item kvs "staticProfileAssignment"
  portalUser := (item kvs "portalUser").or .none
  customAttributes := customAttributes (item kvs "customAttributes")

/-- A summary needs a dictionary under the wrapper. -/
theorem summarizeEndpoint_of_dict {raw : PyVal} {kvs : List (String × PyVal)}
    (h : unwrap raw "ERSEndPoint" = .dict kvs) : summarizeEndpoint raw = .ok (summaryOf kvs) := by
  rw [summarizeEndpoint, h]
  rfl

theorem summarizeEndpoint_of_not_dict {raw : PyVal}
    (h : isDict (unwrap raw "ERSEndPoint") = false) :
    summarizeEndpoint raw = .error (noGet (unwrap raw "ERSEndPoint")) := by
  rw [summarizeEndpoint, get_of_not_dict h]
  rfl

theorem summarizeEndpoint_ok_iff {raw : PyVal} {ep : EndpointSummary} :
    summarizeEndpoint raw = .ok ep ↔
      ∃ kvs, unwrap raw "ERSEndPoint" = .dict kvs ∧ ep = summaryOf kvs := by
  constructor
  · intro h
    cases hd : isDict (unwrap raw "ERSEndPoint") with
    | false =>
        rw [summarizeEndpoint_of_not_dict hd] at h
        cases h
    | true =>
        obtain ⟨kvs, hkvs⟩ := isDict_iff.mp hd
        rw [summarizeEndpoint_of_dict hkvs] at h
        cases h
        exact ⟨kvs, hkvs, rfl⟩
  · rintro ⟨kvs, hkvs, rfl⟩
    exact summarizeEndpoint_of_dict hkvs

end IseMcp
