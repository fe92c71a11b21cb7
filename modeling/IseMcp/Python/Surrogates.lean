import IseMcp.Python.Value
import IseMcp.Text.Codec

set_option autoImplicit false

/-! # Strings with surrogates

A Python string may hold surrogates on their own, which have no encoding: `encode` raises. A form in
a charset such as UTF-7 brings them to the server. Strings that are only compared are `String`s
here; `PyStr` is for those that are encoded. -/

namespace Python

open Text

/-- A character, or a surrogate on its own, counted from U+D800. -/
inductive CodePoint where
  | char (c : Char)
  | surrogate (n : Fin 0x800)
  deriving DecidableEq

def CodePoint.isSurrogate : CodePoint → Bool
  | char _ => false
  | surrogate _ => true

structure PyStr where
  codePoints : List CodePoint
  deriving DecidableEq

namespace PyStr

def ofString (s : String) : PyStr := ⟨s.toList.map .char⟩

instance : Coe String PyStr := ⟨ofString⟩

/-- The error for the surrogate `n` at position `i`, which `more` others follow. -/
def surrogatesNotAllowed (i : Nat) (n : Fin 0x800) (more : Nat) : PyExc :=
  let place := if more = 0 then
      " '\\u" ++ .ofList (Nat.toDigits 16 (0xD800 + n)) ++ "' in position " ++ toString i
    else "s in position " ++ toString i ++ "-" ++ toString (i + more)
  exc (.other "UnicodeEncodeError")
    ("'utf-8' codec can't encode character" ++ place ++ ": surrogates not allowed")

/-- The encoding of the code points from position `i` on. -/
def encodeFrom : Nat → List CodePoint → Except PyExc Bytes
  | _, [] => .ok []
  | i, .char c :: s => do return String.utf8EncodeChar c ++ (← encodeFrom (i + 1) s)
  | i, .surrogate n :: s =>
      .error (surrogatesNotAllowed i n (s.takeWhile CodePoint.isSurrogate).length)

/-- `s.encode()` -/
def encode (s : PyStr) : Except PyExc Bytes := encodeFrom 0 s.codePoints

/-- There is no surrogate in the string. -/
def Encodable (s : PyStr) : Prop := ∀ p ∈ s.codePoints, p.isSurrogate = false

instance (s : PyStr) : Decidable s.Encodable := decidableForallMem _ _

/-! ## What can be encoded -/

theorem ofString_injective : Function.Injective ofString := by
  intro s t h
  have hchars : s.toList.map CodePoint.char = t.toList.map CodePoint.char :=
    congrArg codePoints h
  have hinj : Function.Injective CodePoint.char := fun _ _ => CodePoint.char.inj
  exact String.toList_injective (hinj.list_map hchars)

theorem encodable_ofString (s : String) : Encodable s := by
  intro p hp
  obtain ⟨c, _, rfl⟩ := List.mem_map.mp hp
  rfl

/-- Without surrogates a string is one of Lean's. -/
theorem encodable_iff {s : PyStr} : s.Encodable ↔ ∃ t : String, s = t := by
  constructor
  · obtain ⟨ps⟩ := s
    intro h
    suffices hps : ∃ cs : List Char, ps = cs.map .char by
      obtain ⟨cs, rfl⟩ := hps
      exact ⟨.ofList cs, by rw [ofString, String.toList_ofList]⟩
    have hall : ∀ p ∈ ps, p.isSurrogate = false := h
    clear h
    induction ps with
    | nil => exact ⟨[], rfl⟩
    | cons p ps ih =>
        rw [List.forall_mem_cons] at hall
        obtain ⟨cs, rfl⟩ := ih hall.2
        cases p with
        | char c => exact ⟨c :: cs, rfl⟩
        | surrogate n => cases hall.1
  · rintro ⟨t, rfl⟩
    exact encodable_ofString t

@[simp] theorem encode_ofString (s : String) : encode s = .ok (utf8Encode s) := by
  suffices h : ∀ (cs : List Char) i,
      encodeFrom i (cs.map .char) = .ok (cs.flatMap String.utf8EncodeChar) from h _ 0
  intro cs
  induction cs with
  | nil => exact fun _ => rfl
  | cons c cs ih =>
      intro i
      rw [List.map_cons, encodeFrom, ih]
      rfl

/-- A surrogate is an error. -/
theorem encode_of_not_encodable {s : PyStr} (h : ¬ s.Encodable) : ∃ e, s.encode = .error e := by
  obtain ⟨ps⟩ := s
  suffices hps : ∀ i, ∃ e, encodeFrom i ps = .error e from hps 0
  have hbad : ¬ ∀ p ∈ ps, p.isSurrogate = false := h
  clear h
  induction ps with
  | nil => exact absurd (by simp) hbad
  | cons p ps ih =>
      intro i
      cases p with
      | char c =>
          rw [List.forall_mem_cons] at hbad
          obtain ⟨e, he⟩ := ih (fun hps => hbad ⟨rfl, hps⟩) (i + 1)
          exact ⟨e, by rw [encodeFrom, he]; rfl⟩
      | surrogate n => exact ⟨_, rfl⟩

/-- **A string has an encoding exactly if there is no surrogate in it.** -/
theorem encode_ok_iff {s : PyStr} {b : Bytes} :
    s.encode = .ok b ↔ ∃ t : String, s = t ∧ b = utf8Encode t := by
  constructor
  · intro hb
    by_cases h : s.Encodable
    · obtain ⟨t, rfl⟩ := encodable_iff.mp h
      rw [encode_ofString, Except.ok.injEq] at hb
      exact ⟨t, rfl, hb.symm⟩
    · obtain ⟨e, he⟩ := encode_of_not_encodable h
      rw [he] at hb
      cases hb
  · rintro ⟨t, rfl, rfl⟩
    exact encode_ofString t

/-- Two surrogates behind a character. -/
example : encode ⟨[.char 'a', .surrogate 0, .surrogate 0x480]⟩
    = .error (exc (.other "UnicodeEncodeError")
        "'utf-8' codec can't encode characters in position 1-2: surrogates not allowed") := by
  decide +kernel

end PyStr

end Python
