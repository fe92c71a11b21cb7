import IseMcp.AuditComplete
import IseMcp.Logging

set_option autoImplicit false

/-! # The audit trail can be read off the log

The audit records of a run go through the same handler as every other record of the process.
`auditTrail` reads them back from the text that was written. It finds exactly the records of the
run, in their order and with all they say, however other loggers write in between
(`auditTrail_output`); with the root logger above `INFO` it finds none.
-/

namespace IseMcp

open Python Interaction Text

/-! ## What the server logs -/

def HttpMethod.name : HttpMethod → String
  | .get => "GET"
  | .post => "POST"
  | .put => "PUT"
  | .delete => "DELETE"

/-- The logger of `audit.py`. -/
def auditLogger : String := "cisco_ise_mcp.audit"

/-- The `extra` of an audit record. -/
def AuditRecord.extra (rec : AuditRecord) : List (String × PyVal) :=
  [("event", .str "tool_call"), ("actor", .str rec.actor), ("tool", .str rec.tool),
    ("params", rec.params), ("status", .str rec.status), ("detail", PyVal.ofOption rec.detail)]

/-- The record of an audit at the time `ts`. -/
def AuditRecord.record (rec : AuditRecord) (ts : String) : Logging.Record :=
  ⟨ts, "INFO", 20, auditLogger, "audit", rec.extra, none⟩

/-- The record that an operation logs, if it logs one. -/
def Op.logged (ts : String) : Op → Option Logging.Record
  | .audit rec => some (rec.record ts)
  | .log (.toolError tool error) =>
      some ⟨ts, "WARNING", 30, "cisco_ise_mcp.tools", "tool_error",
        [("tool", .str tool), ("error", .str error)], none⟩
  | .log (.iseRequest method url status) =>
      some ⟨ts, "DEBUG", 10, "cisco_ise_mcp.ise.client", "ise_request",
        [("method", .str method.name), ("url", .str url), ("status", .int status)], none⟩
  | _ => none

/-- The records of a run; `ts` is the time of each step. -/
def serverRecords (ts : Nat → String) (log : ServerLog) : List Logging.Record :=
  log.filterMap fun e => e.event.1.logged (ts e.before.steps)

/-! ## Reading the trail -/

def readDetail : PyVal → Option (Option String)
  | .none => some none
  | .str s => some (some s)
  | _ => none

/-- The audit record that a line of the log stands for. -/
def readAudit (line : PyVal) : Option AuditRecord :=
  if field line "logger" = some (.str auditLogger) then
    match field line "actor", field line "tool", field line "params", field line "status" with
    | some (.str actor), some (.str tool), some params, some (.str status) =>
        ((field line "detail").bind readDetail).map fun detail =>
          ⟨actor, tool, params, status, detail⟩
    | _, _, _, _ => none
  else none

def auditTrail (text : List Char) : List AuditRecord :=
  (Logging.readLog text).filterMap fun line => line.bind readAudit

theorem payload_audit (rec : AuditRecord) (ts : String) :
    Logging.JsonFormatter.payload (rec.record ts)
      = [("ts", .str ts), ("level", .str "INFO"), ("logger", .str auditLogger),
          ("msg", .str "audit")] ++ rec.extra := by
  have hnames : ∀ k ∈ ["event", "actor", "tool", "params", "status", "detail"],
      k ∉ Logging.stdAttrs ∧ startsWith "_" k = false := by decide
  refine Logging.payload_eq rfl (fun kv hkv => hnames kv.1 (List.mem_map_of_mem hkv)) ?_
  show ["ts", "level", "logger", "msg", "event", "actor", "tool", "params", "status",
    "detail"].Nodup
  decide

/-- An audit record is read back from its line. -/
theorem readAudit_payload (rec : AuditRecord) (ts : String) :
    readAudit (.dict (Logging.JsonFormatter.payload (rec.record ts))) = some rec := by
  obtain ⟨actor, tool, params, status, detail⟩ := rec
  rw [payload_audit, readAudit,
    if_pos (show field (.dict _) "logger" = some (.str auditLogger) from rfl)]
  cases detail <;> rfl

/-! ## The records of a run -/

theorem proper_optStr (v : Option String) : Json.Proper (optStr v) := by
  cases v <;> exact trivial

theorem param_keys_nodup : ∀ ks ∈ [[], ["mac"], ["endpoint_id"], ["ip"], ["filter", "page"],
    ["mac", "seconds", "records"], ["username"], ["group_id"], ["page"],
    ["endpoint_id", "group_id"]], ks.Nodup := by
  decide

/-- The audited parameters are scalars under keys of their own. -/
theorem params_proper {deps : Deps} {call : ToolCall} {t : Tool} (h : call.tool deps = some t) :
    Json.Proper (.dict t.params) := by
  have hkeys := param_keys_nodup
  simp only [List.forall_mem_cons, List.not_mem_nil, false_imp_iff, implies_true, and_true] at hkeys
  obtain ⟨hnil, hmac, heid, hip, hfilter, hauth, huser, hgid, hpage, hassign⟩ := hkeys
  cases call with
  | iseHealthCheck => cases h
  | iseLogin u p => cases h
  | iseLogout => cases h
  | iseAuthStatus => cases h; exact ⟨hnil, trivial⟩
  | iseValidateSession => cases h; exact ⟨hnil, trivial⟩
  | iseWhoami => cases h; exact ⟨hnil, trivial⟩
  | iseGetEndpointByMac mac inc => cases h; exact ⟨hmac, trivial, trivial⟩
  | iseGetEndpointById eid inc => cases h; exact ⟨heid, trivial, trivial⟩
  | iseGetEndpointByIp ip inc => cases h; exact ⟨hip, trivial, trivial⟩
  | iseSearchEndpoints filter page size inc =>
      cases h
      exact ⟨hfilter, proper_optStr _, trivial, trivial⟩
  | iseGetActiveSessionByMac mac inc => cases h; exact ⟨hmac, trivial, trivial⟩
  | iseGetActiveSessionByIp ip inc => cases h; exact ⟨hip, trivial, trivial⟩
  | iseGetAuthLogsByMac mac seconds records inc =>
      cases h
      exact ⟨hauth, trivial, trivial, trivial, trivial⟩
  | iseGetPolicyContextByMac mac => cases h; exact ⟨hmac, trivial, trivial⟩
  | iseGetIncidentSummaryByMac mac => cases h; exact ⟨hmac, trivial, trivial⟩
  | iseListNetworkDevices filter page size inc =>
      cases h
      exact ⟨hfilter, proper_optStr _, trivial, trivial⟩
  | iseGetUserSessionsByUsername username inc => cases h; exact ⟨huser, trivial, trivial⟩
  | iseGetEndpointGroup gid => cases h; exact ⟨hgid, trivial, trivial⟩
  | iseListSecurityGroups page size inc => cases h; exact ⟨hpage, trivial, trivial⟩
  | iseListSgacls page size inc => cases h; exact ⟨hpage, trivial, trivial⟩
  | iseListAuthorizationProfiles page size inc => cases h; exact ⟨hpage, trivial, trivial⟩
  | iseCreateEndpoint mac gid description => cases h; exact ⟨hmac, trivial, trivial⟩
  | iseAssignEndpointGroup eid gid => cases h; exact ⟨hassign, trivial, trivial, trivial⟩
  | iseDeleteEndpoint eid => cases h; exact ⟨heid, trivial, trivial⟩

theorem redacted_params_proper {deps : Deps} {call : ToolCall} {t : Tool}
    (h : call.tool deps = some t) : Json.Proper (redact (.dict t.params)) := by
  rw [redact, redactAt_of_noSecret 0 _ (params_noSecret h)]
  exact params_proper h

/-- An audit record, if the operation writes one, can be written as JSON. -/
def Op.AuditsProper (o : Op) : Prop := ∀ rec, o = .audit rec → Json.Proper rec.params

theorem run_auditsProper {deps : Deps} {headers : Option RawHeaders} {call : ToolCall} {t : Tool}
    (ht : call.tool deps = some t) : Prog.Only Op.AuditsProper (run deps headers t) := by
  have haudit (actor status : String) (detail : Option String) :
      Prog.Only Op.AuditsProper (audit deps.cfg actor t status detail) := by
    unfold audit
    split_ifs
    · refine .call (fun rec hrec => ?_) fun _ => .ret _
      cases hrec
      exact redacted_params_proper ht
    · exact .ret _
  have hfail (actor : String) (e : PyExc) :
      Prog.Only Op.AuditsProper (fail deps.cfg actor t e) :=
    (haudit _ _ _).bind fun _ => .call (fun rec hrec => by cases hrec) fun _ => .ret _
  cases hg : gates deps.cfg t with
  | error e =>
      rw [run_refused hg]
      exact hfail _ e
  | ok u =>
      rw [run_admitted hg]
      refine Prog.Only.bind ((resolveAuth_only deps headers).mono ?_) fun r => ?_
      · rintro o ⟨sid, rfl⟩ rec hrec
        cases hrec
      · cases r with
        | error e => exact hfail _ e
        | ok auth =>
            refine Prog.Only.bind ((fn_only ht auth).mono ?_) fun r => ?_
            · rintro o ⟨req, _, hof⟩ rec rfl
              cases hof
            · cases r with
              | error e => exact hfail _ e
              | ok v => exact (haudit _ _ _).bind fun _ => .ret _

theorem request_auditsProper {deps : Deps} (hb : deps.Built) (req : ServerRequest) :
    Prog.Only Op.AuditsProper (req.program deps) := by
  by_cases hgated : req.Gated deps
  · cases req with
    | tool headers call =>
        obtain ⟨t, ht⟩ := Option.isSome_iff_exists.mp hgated
        rw [gated_program ht]
        exact (run_auditsProper ht).bind fun _ => .ret _
    | _ => exact hgated.elim
  · refine (ungated_only hb hgated).mono ?_
    rintro o ho rec rfl
    rcases ho with ⟨⟨⟩⟩

/-! ## The trail -/

/-- Setting one item leaves the others. -/
theorem lookup_setItem_of_ne {kvs : List (String × PyVal)} {k l : String} (h : l ≠ k)
    (v : PyVal) : (PyVal.setItem kvs k v).lookup l = kvs.lookup l := by
  have hne : (l == k) = false := beq_eq_false_iff_ne.mpr h
  unfold PyVal.setItem
  split_ifs
  · clear * - hne
    induction kvs with
    | nil => rfl
    | cons kv kvs ih =>
        rw [List.map_cons, List.lookup_cons, List.lookup_cons, ih]
        split_ifs with hk
        · rw [hk, hne]
        · rfl
  · rw [List.lookup_append, List.lookup_cons, hne]
    simp

theorem lookup_foldl_setItem {extra : List (String × PyVal)} {l : String}
    (h : l ∉ extra.map (·.1)) (kvs : List (String × PyVal)) :
    (extra.foldl (fun kvs kv => PyVal.setItem kvs kv.1 kv.2) kvs).lookup l = kvs.lookup l := by
  induction extra generalizing kvs with
  | nil => rfl
  | cons kv extra ih =>
      rw [List.map_cons, List.mem_cons, not_or] at h
      rw [List.foldl_cons, ih h.2, lookup_setItem_of_ne h.1]

/-- The `logger` of a line is the logger of the record, unless its `extra` says otherwise. -/
theorem field_logger {r : Logging.Record} (h : "logger" ∉ r.extra.map (·.1)) :
    field (.dict (Logging.JsonFormatter.payload r)) "logger" = some (.str r.name) := by
  have hmerged : "logger" ∉ (Logging.JsonFormatter.merged r).map (·.1) := fun hmem =>
    h (List.map_subset _ (List.filter_subset_self _) hmem)
  have hfold := lookup_foldl_setItem hmerged [("ts", .str r.ts), ("level", .str r.levelname),
    ("logger", .str r.name), ("msg", .str r.message)]
  unfold Logging.JsonFormatter.payload field
  cases r.exc with
  | none => exact hfold
  | some text => exact (lookup_setItem_of_ne (by decide) _).trans hfold

/-- A line of another logger is no audit record. -/
theorem readAudit_other {r : Logging.Record} (hname : r.name ≠ auditLogger)
    (h : "logger" ∉ r.extra.map (·.1)) :
    readAudit (.dict (Logging.JsonFormatter.payload r)) = none := by
  rw [readAudit, if_neg]
  rw [field_logger h]
  simpa using hname

theorem auditRecord_proper {rec : AuditRecord} (h : Json.Proper rec.params) (ts : String) :
    (rec.record ts).Proper := by
  intro kv hkv
  have hdetail : Json.Proper (PyVal.ofOption rec.detail) := by
    cases rec.detail <;> exact trivial
  simp only [AuditRecord.record, AuditRecord.extra, List.mem_cons, List.not_mem_nil,
    or_false] at hkv
  rcases hkv with rfl | rfl | rfl | rfl | rfl | rfl
  · exact trivial
  · exact trivial
  · exact trivial
  · exact h
  · exact trivial
  · exact hdetail

/-- The records of the audit logger among the records of a run. -/
theorem logged_of_name {o : Op} {ts : String} {r : Logging.Record} (h : o.logged ts = some r)
    (hname : r.name = auditLogger) : ∃ rec, o = .audit rec ∧ r = rec.record ts := by
  have hother : ∀ n ∈ ["cisco_ise_mcp.tools", "cisco_ise_mcp.ise.client"], n ≠ auditLogger := by
    decide
  unfold Op.logged at h
  split at h
  · cases h
    exact ⟨_, rfl, rfl⟩
  · cases h
    exact absurd hname (hother _ (by simp))
  · cases h
    exact absurd hname (hother _ (by simp))
  · cases h

section

variable {deps : Deps} {env : Env} {moves : List (Move ServerRequest)}

theorem audited_proper (hb : deps.Built) {e : Entry Ise World}
    (he : e ∈ (serverRun deps env moves).log) : e.event.1.AuditsProper := by
  obtain ⟨pre, post, hlog⟩ := List.append_of_mem he
  obtain ⟨req, left, k, _, hpath⟩ := serverRun_call hlog
  exact (request_auditsProper hb req).next hpath

/-- What the records of the process are: those of the audit logger are the ones of the run, in
their order, and those of the other loggers can be written as JSON and do not name a logger of
their own. -/
structure ProcessRecords (ts : Nat → String) (log : ServerLog) (rs : List Logging.Record) :
    Prop where
  audits : rs.filter (fun r => r.name == auditLogger)
    = (serverRecords ts log).filter fun r => r.name == auditLogger
  proper : ∀ r ∈ rs, r.name ≠ auditLogger → r.Proper
  logger : ∀ r ∈ rs, r.name ≠ auditLogger → "logger" ∉ r.extra.map (·.1)

theorem processRecords_proper (hb : deps.Built) {ts : Nat → String} {rs : List Logging.Record}
    (h : ProcessRecords ts (serverRun deps env moves).log rs) : ∀ r ∈ rs, r.Proper := by
  intro r hr
  by_cases hname : r.name = auditLogger
  · have hmem : r ∈ rs.filter fun r => r.name == auditLogger :=
      List.mem_filter.mpr ⟨hr, by simpa using hname⟩
    rw [h.audits, List.mem_filter] at hmem
    obtain ⟨e, he, hlogged⟩ := List.mem_filterMap.mp hmem.1
    obtain ⟨rec, hop, rfl⟩ := logged_of_name hlogged hname
    exact auditRecord_proper (audited_proper hb he rec hop) _
  · exact h.proper r hr hname

/-- What the reader makes of a record, given the level of the root logger. -/
def readRecord (level : Int) (r : Logging.Record) : Option AuditRecord :=
  if level ≤ r.levelno then readAudit (.dict (Logging.JsonFormatter.payload r)) else none

theorem readRecord_audit (level : Int) (rec : AuditRecord) (ts : String) :
    readRecord level (rec.record ts) = if level ≤ 20 then some rec else none := by
  rw [readRecord, readAudit_payload]
  rfl

/-- The record that a step leaves in the trail. -/
def Op.trail (level : Int) : Op → Option AuditRecord
  | .audit rec => if level ≤ 20 then some rec else none
  | _ => none

theorem readRecord_logged (level : Int) (o : Op) (ts : String) :
    ((o.logged ts).bind fun r => if r.name == auditLogger then readRecord level r else none)
      = o.trail level := by
  cases hlogged : o.logged ts with
  | none => cases o <;> first | rfl | cases hlogged
  | some r =>
      rw [Option.bind_some]
      by_cases hname : (r.name == auditLogger) = true
      · obtain ⟨rec, rfl, rfl⟩ := logged_of_name hlogged (by simpa using hname)
        rw [if_pos hname]
        exact readRecord_audit level rec ts
      · rw [if_neg hname]
        cases o with
        | audit rec =>
            cases hlogged
            exact absurd rfl hname
        | _ => rfl

/-- **The audit trail of every run can be read off the log.** The text on the standard output
gives back exactly the audit records of the run, in order and complete, whatever the arguments of
the tools were and however the records of other loggers stand in between; with the root logger
above `INFO` there is no trail. -/
theorem auditTrail_output (hb : deps.Built) (ts : Nat → String) {rs : List Logging.Record}
    (h : ProcessRecords ts (serverRun deps env moves).log rs) (level : Int) :
    auditTrail (Logging.output level rs)
      = if level ≤ 20 then audits ((serverRun deps env moves).log.map (·.event)) else [] := by
  have hread : auditTrail (Logging.output level rs) = rs.filterMap (readRecord level) := by
    rw [auditTrail, Logging.readLog_output level rs (processRecords_proper hb h),
      List.filterMap_map, List.filterMap_filter]
    refine List.filterMap_congr fun r _ => ?_
    simp only [readRecord, decide_eq_true_eq]
    rfl
  -- the records of the other loggers are passed over
  have hown : rs.filterMap (readRecord level)
      = (rs.filter fun r => r.name == auditLogger).filterMap (readRecord level) := by
    rw [List.filterMap_filter]
    refine List.filterMap_congr fun r hr => ?_
    split_ifs with hname
    · rfl
    · have hne : r.name ≠ auditLogger := by simpa using hname
      rw [readRecord, readAudit_other hne (h.logger r hr hne), ite_self]
  rw [hread, hown, h.audits, List.filterMap_filter, serverRecords, List.filterMap_filterMap,
    audits, List.filterMap_map]
  split_ifs with hlevel
  · refine List.filterMap_congr fun e _ => (readRecord_logged level _ _).trans ?_
    unfold Op.trail
    simp only [if_pos hlevel]
    rfl
  · refine List.filterMap_eq_nil_iff.mpr fun e _ => (readRecord_logged level _ _).trans ?_
    unfold Op.trail
    simp only [if_neg hlevel]
    split <;> rfl

end

/-- A call of `ise_whoami`, with the record that it leaves. -/
def whoamiLog : ServerLog :=
  (serverRun accountDeps (.always 200) [.spawn (.tool none .iseWhoami), .advance 0]).log

theorem whoami_records : serverRecords (fun _ => "t") whoamiLog
    = [AuditRecord.record ⟨"svc", "ise_whoami", .dict [], "ok", none⟩ "t"] := rfl

/-- Another logger writes a text with a line break and a made-up audit record behind it. The trail
holds the one record of the run. -/
theorem auditTrail_forged :
    auditTrail (Logging.output 20 (Logging.forged :: serverRecords (fun _ => "t") whoamiLog))
      = [⟨"svc", "ise_whoami", .dict [], "ok", none⟩] := by
  have hname : Logging.forged.name ≠ auditLogger := by decide
  refine @auditTrail_output accountDeps (.always 200)
    [.spawn (.tool none .iseWhoami), .advance 0] rfl (fun _ => "t") _ ⟨?_, ?_, ?_⟩ 20
  · rw [List.filter_cons_of_neg (by simpa using hname)]
    rfl
  all_goals
    intro r hr hne
    rcases List.mem_cons.mp hr with rfl | hr
    · simp [Logging.forged, Logging.Record.Proper]
    · rw [whoami_records, List.mem_singleton] at hr
      rw [hr] at hne
      exact absurd rfl hne

end IseMcp
