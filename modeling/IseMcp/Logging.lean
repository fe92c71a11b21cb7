import IseMcp.Python.JsonRoundTrip
import IseMcp.Server
import IseMcp.Text.Lines

set_option autoImplicit false

/-! # The log

`logging_config.py`, and the records that the server logs. Every record is one line of JSON on the
standard output, so the lines of the output are the records (`readLog_output`), whatever the texts
in them are.
-/

namespace IseMcp

open Python Interaction Text

namespace Logging

/-! ## Records and their lines -/

/-- A record of Python's `logging` with its `formatTime`, `getMessage()`, the `extra` it was logged
with and, for an exception, its `formatException`. -/
structure Record where
  ts : String
  levelname : String
  levelno : Int
  name : String
  message : String
  extra : List (String × PyVal)
  exc : Option String

/-- `_STD_ATTRS` -/
def stdAttrs : List String :=
  ["name", "msg", "args", "levelname", "levelno", "pathname", "filename", "module", "exc_info",
    "exc_text", "stack_info", "lineno", "funcName", "created", "msecs", "relativeCreated",
    "thread", "threadName", "processName", "process", "message", "asctime", "taskName"]

namespace JsonFormatter

/-- The attributes of a record that are merged into its line. The standard ones are left out, which
leaves those of `extra`. -/
def merged (r : Record) : List (String × PyVal) :=
  r.extra.filter fun kv => !stdAttrs.contains kv.1 && !startsWith "_" kv.1

def payload (r : Record) : List (String × PyVal) :=
  let kvs := (merged r).foldl (fun kvs kv => PyVal.setItem kvs kv.1 kv.2)
    [("ts", .str r.ts), ("level", .str r.levelname), ("logger", .str r.name),
      ("msg", .str r.message)]
  match r.exc with
  | some text => PyVal.setItem kvs "exc" (.str text)
  | none => kvs

/-- `format` -/
def format (r : Record) : List Char := Json.dumps (.dict (payload r))

end JsonFormatter

/-- `logging._nameToLevel` -/
def levels : List (String × Int) :=
  [("CRITICAL", 50), ("FATAL", 50), ("ERROR", 40), ("WARN", 30), ("WARNING", 30), ("INFO", 20),
    ("DEBUG", 10), ("NOTSET", 0)]

/-- `configure_logging`: the level of the root logger. -/
def configureLogging (level : String) : Except PyExc Int :=
  match levels.lookup (upper level) with
  | some n => .ok n
  | none => .error (exc .valueError ("Unknown level: " ++ pyRepr (upper level)))

/-- What the handler writes for the records, with the root logger at `level`. -/
def output (level : Int) (rs : List Record) : List Char :=
  (rs.filter fun r => decide (level ≤ r.levelno)).flatMap fun r => JsonFormatter.format r ++ ['\n']

/-- The lines of an output, each as the document on it. -/
def readLog (text : List Char) : List (Option PyVal) :=
  (text.splitOn '\n').dropLast.map Json.loads

/-- The values that a record was logged with are values of Python. -/
def Record.Proper (r : Record) : Prop := ∀ kv ∈ r.extra, Json.Proper kv.2

/-! ## One record is one line -/

theorem properEntries_iff (kvs : List (String × PyVal)) :
    Json.ProperEntries kvs ↔ ∀ kv ∈ kvs, Json.Proper kv.2 := by
  induction kvs with
  | nil => simp [Json.ProperEntries]
  | cons kv kvs ih =>
      obtain ⟨k, v⟩ := kv
      rw [Json.ProperEntries, ih, List.forall_mem_cons]

/-- Setting an item keeps the keys apart. -/
theorem proper_setItem {kvs : List (String × PyVal)} {k : String} {v : PyVal}
    (h : Json.Proper (.dict kvs)) (hv : Json.Proper v) :
    Json.Proper (.dict (PyVal.setItem kvs k v)) := by
  obtain ⟨hkeys, hvals⟩ := h
  rw [properEntries_iff] at hvals
  by_cases hk : k ∈ kvs.map (·.1)
  · have hsome : (PyVal.lookup kvs k).isSome = true := by
      obtain ⟨kv, hkv, rfl⟩ := List.mem_map.mp hk
      rw [PyVal.lookup, List.lookup_isSome_iff]
      exact ⟨kv, hkv, by simp⟩
    rw [PyVal.setItem, if_pos hsome]
    refine ⟨?_, (properEntries_iff _).mpr ?_⟩
    · have hmap : (kvs.map fun kv => if kv.1 = k then (k, v) else kv).map (·.1)
          = kvs.map (·.1) := by
        rw [List.map_map]
        refine List.map_congr_left fun kv _ => ?_
        show (if kv.1 = k then (k, v) else kv).1 = kv.1
        split_ifs with he
        · exact he.symm
        · rfl
      rw [hmap]
      exact hkeys
    · intro kv hkv
      obtain ⟨kv', hkv', rfl⟩ := List.mem_map.mp hkv
      split_ifs
      · exact hv
      · exact hvals kv' hkv'
  · rw [Json.setItem_new hk]
    refine ⟨?_, (properEntries_iff _).mpr ?_⟩
    · rw [List.map_append, List.nodup_append]
      refine ⟨hkeys, by simp, ?_⟩
      rintro a ha b hb rfl
      have hb : a = k := List.mem_singleton.mp hb
      exact hk (hb ▸ ha)
    · rw [List.forall_mem_append, List.forall_mem_singleton]
      exact ⟨hvals, hv⟩

/-- New items are put at the end, in order. -/
theorem foldl_setItem_new {extra kvs : List (String × PyVal)}
    (h : ((kvs ++ extra).map (·.1)).Nodup) :
    extra.foldl (fun kvs kv => PyVal.setItem kvs kv.1 kv.2) kvs = kvs ++ extra := by
  induction extra generalizing kvs with
  | nil => exact (List.append_nil kvs).symm
  | cons kv extra ih =>
      have hnew : kv.1 ∉ kvs.map (·.1) := by
        rw [List.map_append, List.map_cons, List.nodup_append] at h
        exact fun hk => h.2.2 _ hk _ List.mem_cons_self rfl
      rw [List.foldl_cons, Json.setItem_new hnew, ih (by rwa [List.append_assoc]),
        List.append_assoc]
      rfl

/-- The payload of a record whose own attributes have names of their own. -/
theorem payload_eq {r : Record} (hexc : r.exc = none)
    (hkeys : ∀ kv ∈ r.extra, kv.1 ∉ stdAttrs ∧ startsWith "_" kv.1 = false)
    (hnodup : (["ts", "level", "logger", "msg"] ++ r.extra.map (·.1)).Nodup) :
    JsonFormatter.payload r
      = [("ts", .str r.ts), ("level", .str r.levelname), ("logger", .str r.name),
          ("msg", .str r.message)] ++ r.extra := by
  have hmerged : JsonFormatter.merged r = r.extra := by
    refine List.filter_eq_self.mpr fun kv hkv => ?_
    obtain ⟨hstd, hunder⟩ := hkeys kv hkv
    rw [hunder, Bool.and_eq_true, Bool.not_eq_true', List.contains_eq_mem]
    exact ⟨decide_eq_false hstd, rfl⟩
  unfold JsonFormatter.payload
  rw [hmerged, hexc]
  exact foldl_setItem_new (by rw [List.map_append]; exact hnodup)

theorem payload_proper {r : Record} (h : r.Proper) :
    Json.Proper (.dict (JsonFormatter.payload r)) := by
  have hfold : ∀ (extra kvs : List (String × PyVal)), Json.Proper (.dict kvs) →
      (∀ kv ∈ extra, Json.Proper kv.2) →
      Json.Proper (.dict (extra.foldl (fun kvs kv => PyVal.setItem kvs kv.1 kv.2) kvs)) := by
    intro extra
    induction extra with
    | nil => exact fun kvs hkvs _ => hkvs
    | cons kv extra ih =>
        intro kvs hkvs hextra
        rw [List.forall_mem_cons] at hextra
        exact ih _ (proper_setItem hkvs hextra.1) hextra.2
  have hkeys : ["ts", "level", "logger", "msg"].Nodup := by decide
  have hkvs := hfold (JsonFormatter.merged r)
    [("ts", .str r.ts), ("level", .str r.levelname), ("logger", .str r.name),
      ("msg", .str r.message)]
    ⟨hkeys, trivial, trivial, trivial, trivial, trivial⟩
    fun kv hkv => h kv (List.mem_of_mem_filter hkv)
  unfold JsonFormatter.payload
  cases r.exc with
  | none => exact hkvs
  | some text => exact proper_setItem hkvs trivial

theorem newline_not_mem_format {r : Record} (h : r.Proper) : '\n' ∉ JsonFormatter.format r := by
  intro hmem
  have := Json.dumps_printable _ (payload_proper h) '\n' hmem
  revert this
  decide

/-- **The lines of the output are the records.** Each record at the level or above is one line, in
order, and the line reads as its payload; nothing in a record makes another line or runs into the
next. -/
theorem readLog_output (level : Int) (rs : List Record) (h : ∀ r ∈ rs, r.Proper) :
    readLog (output level rs) = (rs.filter fun r => decide (level ≤ r.levelno)).map fun r =>
      some (.dict (JsonFormatter.payload r)) := by
  have hlogged : ∀ r ∈ rs.filter (fun r => decide (level ≤ r.levelno)), r.Proper := fun r hr =>
    h r (List.mem_of_mem_filter hr)
  unfold output
  generalize rs.filter (fun r => decide (level ≤ r.levelno)) = logged at hlogged ⊢
  have hlines : ∀ l ∈ logged.map JsonFormatter.format, '\n' ∉ l := by
    intro l hl
    obtain ⟨r, hr, rfl⟩ := List.mem_map.mp hl
    exact newline_not_mem_format (hlogged r hr)
  have hsplit := splitOn_terminated hlines
  rw [List.flatMap_map] at hsplit
  rw [readLog, hsplit, List.dropLast_concat, List.map_map]
  exact List.map_congr_left fun r hr => Json.loads_dumps (payload_proper (hlogged r hr))

/-- A record whose message holds a line break and what looks like another record. -/
def forged : Record where
  ts := "t"
  levelname := "INFO"
  levelno := 20
  name := "httpx"
  message := "GET /\n\x7b\"logger\": \"cisco_ise_mcp.audit\", \"event\": \"tool_call\"\x7d"
  extra := []
  exc := none

theorem readLog_forged : readLog (output 20 [forged])
    = [some (.dict [("ts", .str "t"), ("level", .str "INFO"), ("logger", .str "httpx"),
        ("msg", .str forged.message)])] :=
  readLog_output 20 [forged] fun r hr kv hkv => by
    rw [List.mem_singleton.mp hr] at hkv
    cases hkv

end Logging

end IseMcp
