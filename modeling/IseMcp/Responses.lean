import IseMcp.Python.Value

set_option autoImplicit false

/-! # Redaction and the response envelope

`redaction.py`, `responses.py` and the error codes of `ise/errors.py`. -/

namespace IseMcp

open Python

/-! ## Redaction -/

def sensitiveKeyExact : List String :=
  ["authorization", "password", "passwd", "credential", "credentials", "apikey", "encoded_auth",
    "x-mcp-session"]

def sensitiveKeyParts : List String :=
  ["password", "passwd", "secret", "token", "api_key", "apikey", "private_key", "encoded_auth",
    "client_secret"]

def mask : String := "***REDACTED***"

def isSensitive (key : String) : Bool :=
  let k := lower key
  decide (k ∈ sensitiveKeyExact) || sensitiveKeyParts.any (contains · k)

mutual

/-- `redact(obj, _depth)` -/
def redactAt (depth : Nat) : PyVal → PyVal
  | .dict kvs => if depth > 25 then .dict kvs else .dict (redactItems depth kvs)
  | .list xs => if depth > 25 then .list xs else .list (redactElems depth xs)
  | x => x

def redactItems (depth : Nat) : List (String × PyVal) → List (String × PyVal)
  | [] => []
  | (k, v) :: kvs =>
      (k, if isSensitive k then .str mask else redactAt (depth + 1) v) :: redactItems depth kvs

def redactElems (depth : Nat) : List PyVal → List PyVal
  | [] => []
  | v :: vs => redactAt (depth + 1) v :: redactElems depth vs

end

def redact (obj : PyVal) : PyVal := redactAt 0 obj

/-! ## Envelopes -/

/-- `ok(data, raw=raw, include_raw=include_raw, **meta)` -/
def ok (data raw : PyVal) (includeRaw : Bool) (kwargs : List (String × PyVal)) : PyVal :=
  .dict ([("ok", .bool true), ("data", redact data)]
    ++ (if kwargs ≠ [] then [("meta", .dict kwargs)] else [])
    ++ (if includeRaw ∧ raw ≠ .none then [("raw", redact raw)] else []))

/-- `ok(data)` -/
def okData (data : PyVal) : PyVal := ok data .none false []

/-- `paged(items, ...)`; `total` is left out when it is `None`. -/
def paged (items : List PyVal) (page pageSize : Int) (total raw : PyVal) (includeRaw : Bool) :
    PyVal :=
  ok (.list items) raw includeRaw
    ([("page", .int page), ("page_size", .int pageSize), ("returned", .int items.length)]
      ++ if total ≠ .none then [("total", total)] else [])

/-- The `code` of an `IseMcpError`; other exceptions have none. -/
def errorCode : ExcType → Option String
  | .validationError => some "validation_error"
  | .authError => some "auth_error"
  | .sessionError => some "session_error"
  | .writeNotAllowedError => some "write_not_allowed"
  | .toolDisabledError => some "tool_disabled"
  | .iseApiError => some "ise_api_error"
  | .notFoundError => some "not_found"
  | .rateLimitError => some "rate_limited"
  | _ => none

/-- `error(exc)` -/
def error (e : PyExc) : PyVal :=
  match errorCode e.type with
  | some code =>
      .dict ([("ok", .bool false), ("error", .str code), ("message", .str e.message)]
        ++ (e.detail.toList.map fun d => ("detail", d))
        ++ (e.status.toList.map fun s => ("status", .int s)))
  | none =>
      .dict [("ok", .bool false), ("error", .str "internal_error"), ("message", .str e.message)]

/-- What an envelope holds under a key. -/
def field (env : PyVal) (key : String) : Option PyVal :=
  match env with
  | .dict kvs => kvs.lookup key
  | _ => none

@[simp] theorem field_ok_ok (data raw : PyVal) (inc : Bool) (kwargs : List (String × PyVal)) :
    field (ok data raw inc kwargs) "ok" = some (.bool true) := rfl

@[simp] theorem field_ok_error (e : PyExc) : field (error e) "ok" = some (.bool false) := by
  unfold error
  split <;> rfl

theorem field_error_error (e : PyExc) :
    field (error e) "error" = some (.str ((errorCode e.type).getD "internal_error")) := by
  unfold error
  cases h : errorCode e.type <;> rfl

end IseMcp
