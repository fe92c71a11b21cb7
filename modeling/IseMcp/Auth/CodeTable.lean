import IseMcp.Auth.SessionStore

set_option autoImplicit false

/-! # The table of authorization codes

`OAuthServer._codes` and the two places of `oauth.py` that touch it: the end of
`login_and_issue_code` and `_pop_code`. Each runs under one lock. The clock reading and the
drawn code are arguments, as for the session store.
-/

namespace IseMcp

/-- `CODE_TTL`, in seconds. -/
def codeTtl : Time := 120

/-- A `_Code` before it is dated. -/
structure CodeGrant where
  clientId : String
  redirectUri : String
  scope : String
  sessionId : String
  challenge : String
  deriving DecidableEq

/-- `_Code` -/
structure Code where
  grant : CodeGrant
  created : Time
  deriving DecidableEq

abbrev CodeTable : Type := AList fun _ : String => Code

namespace CodeTable

def issue (codes : CodeTable) (now : Time) (code : String) (grant : CodeGrant) : CodeTable :=
  codes.insert code ⟨grant, now⟩

/-- `self._codes.pop(code, None)` -/
def remove (codes : CodeTable) : Option String → CodeTable
  | none => codes
  | some code => codes.erase code

/-- What `_pop_code` returns: the record, unless it is older than the limit. -/
def fresh (codes : CodeTable) (now : Time) (code : Option String) : Option Code :=
  (code.bind codes.lookup).bind fun rec => if now - rec.created > codeTtl then none else some rec

@[simp] theorem lookup_issue_self (codes : CodeTable) (now : Time) (code : String)
    (grant : CodeGrant) : (codes.issue now code grant).lookup code = some ⟨grant, now⟩ :=
  AList.lookup_insert _

theorem lookup_issue_ne (codes : CodeTable) (now : Time) {code code' : String}
    (grant : CodeGrant) (h : code' ≠ code) :
    (codes.issue now code grant).lookup code' = codes.lookup code' :=
  AList.lookup_insert_ne h

@[simp] theorem lookup_remove_self (codes : CodeTable) (code : String) :
    (codes.remove (some code)).lookup code = none :=
  AList.lookup_erase _ _

theorem lookup_remove_ne (codes : CodeTable) {o : Option String} {code : String}
    (h : o ≠ some code) : (codes.remove o).lookup code = codes.lookup code := by
  cases o with
  | none => rfl
  | some code' => exact AList.lookup_erase_ne fun he => h (by rw [he])

/-- A code is answered with its record if it is in the table and young enough. -/
theorem fresh_eq_some_iff {codes : CodeTable} {now : Time} {code : Option String} {rec : Code} :
    codes.fresh now code = some rec ↔
      (∃ c, code = some c ∧ codes.lookup c = some rec) ∧ now - rec.created ≤ codeTtl := by
  simp only [fresh, Option.bind_eq_some_iff]
  constructor
  · rintro ⟨r, ⟨c, rfl, hc⟩, h⟩
    split_ifs at h with hold
    cases h
    exact ⟨⟨c, rfl, hc⟩, not_lt.mp hold⟩
  · rintro ⟨⟨c, rfl, hc⟩, hage⟩
    exact ⟨rec, ⟨c, rfl, hc⟩, if_neg (not_lt.mpr hage)⟩

end CodeTable

end IseMcp
