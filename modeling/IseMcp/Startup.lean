import IseMcp.Settings
import IseMcp.WriteSafety

set_option autoImplicit false

/-! # A server as its environment starts it

`main` with `build`: the settings are loaded and validated, logging is configured, and the provider
is built. Whatever the environment says, a server that starts writes to ISE only if the variables
for it say so in one of the words that count (`started_writes`).
-/

namespace IseMcp

open Python Interaction

/-- What `main` and `build` do before the first request: the level of the root logger, and what
the tools are built with. -/
def start (env : Environ) (fromstring : XmlParser) : Except PyExc (Int × Deps) := do
  let settings := loadConfig env
  settings.validate
  let level ← Logging.configureLogging settings.logLevel
  return (level, ← build settings.toConfig fromstring)

theorem start_build {env : Environ} {fromstring : XmlParser} {level : Int} {deps : Deps}
    (h : start env fromstring = .ok (level, deps)) :
    build (loadConfig env).toConfig fromstring = .ok deps := by
  obtain ⟨_, _, h⟩ := bind_eq_ok.mp h
  obtain ⟨_, _, h⟩ := bind_eq_ok.mp h
  obtain ⟨_, hbuild, h⟩ := bind_eq_ok.mp h
  cases h
  exact hbuild

theorem build_cfg {cfg : Config} {fromstring : XmlParser} {deps : Deps}
    (h : build cfg fromstring = .ok deps) : deps.cfg = cfg := by
  obtain ⟨_, _, h⟩ := bind_eq_ok.mp h
  obtain ⟨_, _, h⟩ := bind_eq_ok.mp h
  cases h
  rfl

theorem start_cfg {env : Environ} {fromstring : XmlParser} {level : Int} {deps : Deps}
    (h : start env fromstring = .ok (level, deps)) : deps.cfg = (loadConfig env).toConfig :=
  build_cfg (start_build h)

/-! ## What the variables mean -/

/-- The items of a list variable are its parts without the blank ones, stripped. -/
theorem mem_csv {env : Environ} {key item : String} :
    item ∈ env.csv key ↔ item ≠ "" ∧ ∃ part ∈ env.parts key, strip part = item := by
  rw [Environ.csv, List.mem_filter, List.mem_map, decide_eq_true_eq, and_comm]

theorem csv_eq_nil {env : Environ} {key : String} :
    env.csv key = [] ↔ ∀ part ∈ env.parts key, strip part = "" := by
  rw [Environ.csv, List.filter_eq_nil_iff, List.forall_mem_map]
  simp

/-- The environment has the tool enabled: `ISE_DISABLED_TOOLS` does not list it, and
`ISE_ALLOWED_TOOLS` lists it or has no part but blank ones. -/
def Environ.Enables (env : Environ) (name : String) : Prop :=
  (∀ part ∈ env.parts "ISE_DISABLED_TOOLS", strip part ≠ name) ∧
    ((∀ part ∈ env.parts "ISE_ALLOWED_TOOLS", strip part = "") ∨
      ∃ part ∈ env.parts "ISE_ALLOWED_TOOLS", strip part = name)

theorem enabled_iff {env : Environ} {name : String} (h : name ≠ "") :
    isToolEnabled (loadConfig env).toConfig name = true ↔ env.Enables name := by
  have hlisted (key : String) :
      name ∈ env.csv key ↔ ∃ part ∈ env.parts key, strip part = name := by
    rw [mem_csv, and_iff_right h]
  have hdisabled : (∀ part ∈ env.parts "ISE_DISABLED_TOOLS", strip part ≠ name) ↔
      name ∉ env.csv "ISE_DISABLED_TOOLS" := by
    rw [hlisted]
    simp
  rw [Environ.Enables, hdisabled, ← csv_eq_nil, ← hlisted]
  show (if env.csv "ISE_DISABLED_TOOLS" ≠ [] ∧ name ∈ env.csv "ISE_DISABLED_TOOLS" then false
    else if env.csv "ISE_ALLOWED_TOOLS" ≠ [] then decide (name ∈ env.csv "ISE_ALLOWED_TOOLS")
    else true) = true ↔ _
  by_cases hin : name ∈ env.csv "ISE_DISABLED_TOOLS"
  · rw [if_pos ⟨List.ne_nil_of_mem hin, hin⟩]
    simp [hin]
  · rw [if_neg (fun h => hin h.2)]
    by_cases hnil : env.csv "ISE_ALLOWED_TOOLS" = [] <;> simp [hin, hnil]

/-- A switch that is off by default is on only for a word that counts as true. -/
theorem bool_false_eq_true {env : Environ} {key : String} (h : env.bool key false = true) :
    ∃ v, env key = some v ∧ lower (strip v) ∈ Environ.trueWords := by
  unfold Environ.bool at h
  split at h
  · cases h
  · rename_i v hv
    split_ifs at h
    exact ⟨v, hv, of_decide_eq_true h⟩

/-! ## Writes -/

theorem writeTools_ne_empty {name : String} (h : name ∈ writeTools) : name ≠ "" := by
  rintro rfl
  revert h
  decide

/-- A request that is not a GET comes from a tool whose gates, that for writes included, let it
pass. -/
theorem write_gated {deps : Deps} (hb : deps.Built) {env : Env}
    {moves : List (Move ServerRequest)} {pre post : ServerLog} {e : Entry Ise World}
    {method : HttpMethod} (hlog : (serverRun deps env moves).log = pre ++ e :: post)
    (hm : e.event.1.method = some method) (hne : method ≠ .get) :
    ∃ headers call left, (serverRun deps env moves).tasks[e.task]?
        = some ⟨.tool headers call, left⟩ ∧ call.name ∈ writeTools ∧
      (method = .delete → call.name ∈ dangerousTools) ∧
      assertWriteAllowed deps.cfg call.name = .ok () := by
  obtain ⟨req, left, k, htask, hpath⟩ := serverRun_call hlog
  by_cases hgated : req.Gated deps
  · cases req with
    | tool headers call =>
        obtain ⟨t, ht⟩ := Option.isSome_iff_exists.mp hgated
        have hrequest : gates deps.cfg t = .ok () ∧ call.method = method := by
          rcases gated_calls ht hpath with hrec | ⟨hgates, ⟨k', hres⟩ | hfn⟩
          · rcases hrec with ⟨rec, hrec⟩ | ⟨rec, hrec⟩ <;> rw [hrec] at hm <;> cases hm
          · obtain ⟨sid, hsid⟩ := (resolveAuth_only deps headers).next hres
            rw [hsid] at hm
            cases hm
          · obtain ⟨auth, es₁, es₂, r, _, _, hr, hof⟩ := hfn
            have hr' := ofRequest_method hof hm
            rcases (mayRequest_shape hr).1 with h | h
            · exact ⟨hgates, h.symm.trans hr'⟩
            · exact absurd (hr'.symm.trans h) hne
        obtain ⟨hgates, hmethod⟩ := hrequest
        obtain ⟨hwrite, hname, hdangerous⟩ := tool_write ht (by rw [hmethod]; exact hne)
        have hallowed := (gates_ok hgates).2 hwrite
        rw [ToolCall.tool_name ht] at hallowed
        exact ⟨headers, call, left, htask, hname, fun hdel => hdangerous (hmethod.trans hdel),
          hallowed⟩
    | _ => exact hgated.elim
  · exact absurd (ungated_reads ((ungated_only hb hgated).next hpath) hm) hne

/-- **Fail-safe start.** In every run of every server that some environment starts, a request
other than a GET means that `ISE_MCP_MODE` is `readwrite` but for case and blanks, that the
environment has the tool enabled, and, for a DELETE, that `ISE_ENABLE_DANGEROUS_TOOLS` is one of
the words for true. A variable that is missing or says anything else leaves ISE untouched. -/
theorem started_writes {environ : Environ} {fromstring : XmlParser} {level : Int} {deps : Deps}
    (h : start environ fromstring = .ok (level, deps)) (env : Env)
    (moves : List (Move ServerRequest)) {pre post : ServerLog} {e : Entry Ise World}
    {method : HttpMethod} (hlog : (serverRun deps env moves).log = pre ++ e :: post)
    (hm : e.event.1.method = some method) (hne : method ≠ .get) :
    ∃ headers call left,
      (serverRun deps env moves).tasks[e.task]? = some ⟨.tool headers call, left⟩ ∧
      lower (strip (environ.get "ISE_MCP_MODE" "readonly")) = "readwrite" ∧
      environ.Enables call.name ∧
      (method = .delete → ∃ v, environ "ISE_ENABLE_DANGEROUS_TOOLS" = some v ∧
        lower (strip v) ∈ Environ.trueWords) := by
  have hb : deps.Built := build_built (start_build h)
  obtain ⟨headers, call, left, htask, hname, hdelete, hallowed⟩ := write_gated hb hlog hm hne
  obtain ⟨henabled, hmode, hdangerous⟩ := assertWriteAllowed_ok hname hallowed
  rw [start_cfg h] at henabled hmode hdangerous
  refine ⟨headers, call, left, htask, ?_, (enabled_iff (writeTools_ne_empty hname)).mp henabled,
    fun hdel => bool_false_eq_true (hdangerous (hdelete hdel))⟩
  have hlower : (lower (lower (strip (environ.get "ISE_MCP_MODE" "readonly"))) != "readwrite")
      = false := hmode
  rwa [lower_lower, bne_eq_false_iff_eq] at hlower

/-- An environment that lets a service account write. -/
def writeEnviron : Environ := fun key =>
  List.lookup key [("ISE_BASE_URL", "https://ise/"), ("ISE_AUTH_MODE", " Service_Account"),
    ("ISE_MCP_MODE", "ReadWrite "), ("ISE_USERNAME", "svc"), ("ISE_PASSWORD", "pw")]

theorem writeEnviron_starts :
    start writeEnviron writeDeps.fromstring = .ok (20, writeDeps) := rfl

theorem writeEnviron_writes :
    ∃ headers call left, (serverRun writeDeps (.always 201) createMoves).tasks[0]?
        = some ⟨.tool headers call, left⟩ ∧
      lower (strip (writeEnviron.get "ISE_MCP_MODE" "readonly")) = "readwrite" ∧
      writeEnviron.Enables call.name ∧
      (HttpMethod.post = .delete → ∃ v, writeEnviron "ISE_ENABLE_DANGEROUS_TOOLS" = some v ∧
        lower (strip v) ∈ Environ.trueWords) := by
  have hlog : (serverRun writeDeps (.always 201) createMoves).log
      = [] ++ ⟨0, .initial 3600 900, ⟨Op.invoke (ErsApi.writeRequest writeDeps.cfg .post
          "/ers/config/endpoint" ⟨"svc", "service_account", "pw", ""⟩
          (some (.dict [("mac", .str "AA:BB:CC:DD:EE:FF"), ("description", .str "")]))),
            ()⟩⟩ :: [] := by
    rfl
  exact started_writes writeEnviron_starts (.always 201) createMoves hlog rfl nofun

end IseMcp
