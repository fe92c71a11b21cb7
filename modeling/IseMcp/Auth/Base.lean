import IseMcp.Python.Value
import IseMcp.Text.Codec

set_option autoImplicit false

/-! # Credentials

`auth/base.py`: what a tool knows about its caller, and the HTTP Basic pair it calls ISE with. -/

namespace IseMcp

open Python Text

structure AuthContext where
  username : String
  mode : String
  password : String
  encoded : String
  deriving DecidableEq

/-- `s.partition(":")` without the separator. -/
def partitionColon (s : String) : String × String :=
  (.ofList (s.toList.takeWhile (· != ':')), .ofList (s.toList.dropWhile (· != ':')).tail)

/-- `basic_auth()`: the encoded pair if there is one, else the stored user name and password. -/
def AuthContext.basicAuth (a : AuthContext) : Except PyExc (String × String) :=
  if a.encoded ≠ "" then
    match (b64decode a.encoded).bind utf8Decode with
    | some s => .ok (partitionColon s)
    | none => .error (exc .valueError "ISE_ENCODED_AUTH is not valid base64 'user:pass'")
  else .ok (a.username, a.password)

theorem AuthContext.basicAuth_of_not_encoded {a : AuthContext} (h : a.encoded = "") :
    a.basicAuth = .ok (a.username, a.password) := by
  simp [basicAuth, h]

/-- `secrets.token_urlsafe(32)`: never empty, and only letters, digits, `-` and `_`. -/
structure Token where
  text : String
  nonempty : text ≠ ""
  urlsafe : ∀ c ∈ text.toList, c.isAlphanum = true ∨ c = '-' ∨ c = '_'

/-- `secrets.compare_digest` on two strings. -/
def compareDigest (a b : String) : Except PyExc Bool :=
  if isAscii a ∧ isAscii b then .ok (a == b)
  else .error (exc .typeError "comparing strings with non-ASCII characters is not supported")

theorem compareDigest_ok_true {a b : String} : compareDigest a b = .ok true ↔
    a = b ∧ isAscii b = true := by
  unfold compareDigest
  by_cases h : isAscii a = true ∧ isAscii b = true
  · rw [if_pos h]
    simp [h.2]
  · rw [if_neg h]
    simp only [reduceCtorEq, false_iff, not_and]
    rintro rfl hb
    exact h ⟨hb, hb⟩

end IseMcp
