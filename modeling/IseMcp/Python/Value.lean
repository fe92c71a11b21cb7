import IseMcp.Python.Str

set_option autoImplicit false

/-! # Python values and exceptions

`PyVal` is a value as `json.loads` or the XML conversion builds it: nested dictionaries with
string keys (in insertion order), lists and scalars. A float is kept as its `repr`. `PyExc` is an
exception with the data the server reads from it.

Operations on a value whose type is not known raise as they do in Python: `get` on anything but a
dictionary is an `AttributeError`, iterating over a scalar a `TypeError`.

The interpreter's recursion limit is idealised away: `json`, `asdict` and the walks over a value go
as deep as the value does.
-/

namespace Python

inductive PyVal where
  | none
  | bool (b : Bool)
  | int (n : Int)
  | float (repr : String)
  | str (s : String)
  | list (xs : List PyVal)
  | dict (kvs : List (String × PyVal))

instance : Inhabited PyVal := ⟨.none⟩

/-! ## Equality -/

mutual

def decEqVal : (x y : PyVal) → Decidable (x = y)
  | .none, .none => isTrue rfl
  | .bool a, .bool b => decidable_of_iff (a = b) (by simp)
  | .int a, .int b => decidable_of_iff (a = b) (by simp)
  | .float a, .float b => decidable_of_iff (a = b) (by simp)
  | .str a, .str b => decidable_of_iff (a = b) (by simp)
  | .list xs, .list ys =>
      match decEqList xs ys with
      | isTrue h => isTrue (by rw [h])
      | isFalse h => isFalse (by simpa using h)
  | .dict xs, .dict ys =>
      match decEqDict xs ys with
      | isTrue h => isTrue (by rw [h])
      | isFalse h => isFalse (by simpa using h)
  | .none, .bool _ | .none, .int _ | .none, .float _ | .none, .str _ | .none, .list _
  | .none, .dict _ | .bool _, .none | .bool _, .int _ | .bool _, .float _ | .bool _, .str _
  | .bool _, .list _ | .bool _, .dict _ | .int _, .none | .int _, .bool _ | .int _, .float _
  | .int _, .str _ | .int _, .list _ | .int _, .dict _ | .float _, .none | .float _, .bool _
  | .float _, .int _ | .float _, .str _ | .float _, .list _ | .float _, .dict _ | .str _, .none
  | .str _, .bool _ | .str _, .int _ | .str _, .float _ | .str _, .list _ | .str _, .dict _
  | .list _, .none | .list _, .bool _ | .list _, .int _ | .list _, .float _ | .list _, .str _
  | .list _, .dict _ | .dict _, .none | .dict _, .bool _ | .dict _, .int _ | .dict _, .float _
  | .dict _, .str _ | .dict _, .list _ => isFalse (by simp)

def decEqList : (xs ys : List PyVal) → Decidable (xs = ys)
  | [], [] => isTrue rfl
  | [], _ :: _ => isFalse (by simp)
  | _ :: _, [] => isFalse (by simp)
  | x :: xs, y :: ys =>
      match decEqVal x y, decEqList xs ys with
      | isTrue h, isTrue h' => isTrue (by rw [h, h'])
      | isFalse h, _ => isFalse (by simp [h])
      | _, isFalse h => isFalse (by simp [h])

def decEqDict : (xs ys : List (String × PyVal)) → Decidable (xs = ys)
  | [], [] => isTrue rfl
  | [], _ :: _ => isFalse (by simp)
  | _ :: _, [] => isFalse (by simp)
  | (k, x) :: xs, (l, y) :: ys =>
      match decEq k l, decEqVal x y, decEqDict xs ys with
      | isTrue h, isTrue h', isTrue h'' => isTrue (by rw [h, h', h''])
      | isFalse h, _, _ => isFalse (by simp [h])
      | _, isFalse h, _ => isFalse (by simp [h])
      | _, _, isFalse h => isFalse (by simp [h])

end

instance : DecidableEq PyVal := decEqVal

/-! ## Exceptions -/

/-- The exception classes of `ise/errors.py`, the built-in ones the server raises itself or
tells apart, and any other by its name. -/
inductive ExcType where
  | validationError
  | authError
  | sessionError
  | writeNotAllowedError
  | toolDisabledError
  | iseApiError
  | notFoundError
  | rateLimitError
  | attributeError
  | typeError
  | valueError
  | runtimeError
  | other (name : String)
  deriving DecidableEq

/-- An exception: its class, `str(exc)`, and `detail` and `status` where the class has them. -/
structure PyExc where
  type : ExcType
  message : String
  detail : Option PyVal
  status : Option Nat
  deriving DecidableEq

/-- `type(exc).__name__` -/
def ExcType.name : ExcType → String
  | .validationError => "ValidationError"
  | .authError => "AuthError"
  | .sessionError => "SessionError"
  | .writeNotAllowedError => "WriteNotAllowedError"
  | .toolDisabledError => "ToolDisabledError"
  | .iseApiError => "IseApiError"
  | .notFoundError => "NotFoundError"
  | .rateLimitError => "RateLimitError"
  | .attributeError => "AttributeError"
  | .typeError => "TypeError"
  | .valueError => "ValueError"
  | .runtimeError => "RuntimeError"
  | .other n => n

/-- An exception with a message only. -/
def exc (t : ExcType) (message : String) : PyExc := ⟨t, message, .none, .none⟩

/-- A sequence returns when its first statement returns and the rest does. -/
theorem bind_eq_ok {ε α β : Type} {x : Except ε α} {f : α → Except ε β} {b : β} :
    (x >>= f) = .ok b ↔ ∃ a, x = .ok a ∧ f a = .ok b := by
  cases x with
  | error e =>
      constructor
      · intro h
        cases h
      · rintro ⟨a, h, _⟩
        cases h
  | ok a =>
      constructor
      · exact fun h => ⟨a, rfl, h⟩
      · rintro ⟨a', h, hf⟩
        cases h
        exact hf

theorem bind_of_ok {ε α β : Type} {x : Except ε α} {a : α} (h : x = .ok a) {f : α → Except ε β} :
    (x >>= f) = f a := by
  rw [h]
  rfl

/-! ## Values -/

namespace PyVal

/-- `type(x).__name__` -/
def typeName : PyVal → String
  | .none => "NoneType"
  | .bool _ => "bool"
  | .int _ => "int"
  | .float _ => "float"
  | .str _ => "str"
  | .list _ => "list"
  | .dict _ => "dict"

/-- Whether `bool(x)`. -/
def truthy : PyVal → Bool
  | .none => false
  | .bool b => b
  | .int n => n != 0
  | .float r => r != "0.0" && r != "-0.0"
  | .str s => s != ""
  | .list xs => !xs.isEmpty
  | .dict kvs => !kvs.isEmpty

/-- `a or b` -/
def or (a b : PyVal) : PyVal := if a.truthy then a else b

/-- `kvs[key]`, if there. -/
def lookup (kvs : List (String × PyVal)) (key : String) : Option PyVal := List.lookup key kvs

/-- `kvs[key] = value` -/
def setItem (kvs : List (String × PyVal)) (key : String) (value : PyVal) :
    List (String × PyVal) :=
  if (lookup kvs key).isSome then kvs.map fun kv => if kv.1 = key then (key, value) else kv
  else kvs ++ [(key, value)]

/-- `x.get(key, dflt)` -/
def getD (x : PyVal) (key : String) (dflt : PyVal) : Except PyExc PyVal :=
  match x with
  | .dict kvs => .ok ((lookup kvs key).getD dflt)
  | _ => .error (exc .attributeError ("'" ++ x.typeName ++ "' object has no attribute 'get'"))

/-- `x.get(key)` -/
def get (x : PyVal) (key : String) : Except PyExc PyVal := x.getD key .none

/-- What `for y in x` runs over. -/
def iter : PyVal → Except PyExc (List PyVal)
  | .list xs => .ok xs
  | .dict kvs => .ok (kvs.map fun kv => .str kv.1)
  | .str s => .ok (s.toList.map fun c => .str (.ofList [c]))
  | x => .error (exc .typeError ("'" ++ x.typeName ++ "' object is not iterable"))

mutual

/-- `repr(x)` -/
def repr : PyVal → String
  | .none => "None"
  | .bool true => "True"
  | .bool false => "False"
  | .int n => toString n
  | .float r => r
  | .str s => pyRepr s
  | .list xs => "[" ++ ", ".intercalate (reprList xs) ++ "]"
  | .dict kvs => "\x7b" ++ ", ".intercalate (reprDict kvs) ++ "\x7d"

def reprList : List PyVal → List String
  | [] => []
  | x :: xs => repr x :: reprList xs

def reprDict : List (String × PyVal) → List String
  | [] => []
  | (k, x) :: kvs => (pyRepr k ++ ": " ++ repr x) :: reprDict kvs

end

/-- `str(x)`, which is also how a value stands in an f-string. -/
def toStr : PyVal → String
  | .str s => s
  | x => x.repr

/-- An optional string as a value. -/
def ofOption : Option String → PyVal
  | some s => .str s
  | .none => .none

end PyVal

end Python
