import IseMcp.Server
import IseMcp.Text.Uri

set_option autoImplicit false

/-! # Arguments in paths

The wrappers put tool arguments into the paths of ISE as they are, so it is the validators that
keep a request on the template of its tool (`Confined`). MAC addresses, IPv4 addresses, ids and
integers cannot leave their segment. A user name can: `validate_username` lets `/`, `?`, `#` and
dot segments through (`path_safety_iff`).
-/

namespace IseMcp

open Python Text Text.Uri Interaction

/-! ## Templates -/

/-- A template below a base that does not end in a slash. -/
structure Target where
  base : String
  template : Template
  base_last : base.toList.getLast? ≠ some '/'

/-- A template of the ERS API, given by the names below `/ers/config` and the rest. -/
def ers (cfg : Config) (names : List String) (args : List Part) : Target where
  base := cfg.ersBase
  base_last := rstripSlash_getLast? _
  template :=
    { root := "ers".toList
      parts := .fixed "config".toList :: names.map (.fixed ·.toList) ++ args
      root_ne := by decide
      root_plain := by decide }

/-- A template of the MNT API, given by the names below `/admin/API/mnt` and the rest. -/
def mnt (cfg : Config) (names : List String) (args : List Part) : Target where
  base := cfg.mntBase
  base_last := rstripSlash_getLast? _
  template :=
    { root := "admin".toList
      parts := .fixed "API".toList :: .fixed "mnt".toList :: names.map (.fixed ·.toList) ++ args
      root_ne := by decide
      root_plain := by decide }

/-- An argument as it stands in a path. -/
def arg (s : String) : Part := .argument s.toList

/-- The targets for an argument that its validator accepts. -/
def onValid (v : Except PyExc String) (targets : String → List Target) : List Target :=
  match v with
  | .ok s => targets s
  | .error _ => []

def authStatus (cfg : Config) (m : String) (seconds records : Int) : Target :=
  mnt cfg ["AuthStatus", "MACAddress"]
    [arg m, arg (toString seconds), arg (toString records), .fixed "All".toList]

namespace ToolCall

/-- The templates of a tool, with the validated arguments of the call. -/
def targets (cfg : Config) : ToolCall → List Target
  | .iseHealthCheck | .iseAuthStatus | .iseLogin _ _ | .iseValidateSession | .iseLogout
  | .iseWhoami => []
  | .iseGetEndpointByMac mac _ => onValid (normalizeMac mac) fun m =>
      [ers cfg ["endpoint", "name"] [arg m]]
  | .iseGetEndpointById endpointId _ => onValid (validateEndpointId endpointId) fun eid =>
      [ers cfg ["endpoint"] [arg eid]]
  | .iseGetEndpointByIp _ _ | .iseSearchEndpoints _ _ _ _ => [ers cfg ["endpoint"] []]
  | .iseGetActiveSessionByMac mac _ => onValid (normalizeMac mac) fun m =>
      [mnt cfg ["Session", "MACAddress"] [arg m]]
  | .iseGetActiveSessionByIp ip _ => onValid (validateIp ip) fun addr =>
      [mnt cfg ["Session", "IPAddress"] [arg addr]]
  | .iseGetAuthLogsByMac mac seconds records _ => onValid (normalizeMac mac) fun m =>
      [authStatus cfg m seconds (max 1 (min records 500))]
  | .iseGetPolicyContextByMac mac | .iseGetIncidentSummaryByMac mac =>
      onValid (normalizeMac mac) fun m =>
        [ers cfg ["endpoint", "name"] [arg m], mnt cfg ["Session", "MACAddress"] [arg m],
          authStatus cfg m 86400 10]
  | .iseListNetworkDevices _ _ _ _ => [ers cfg ["networkdevice"] []]
  | .iseGetUserSessionsByUsername username _ => onValid (validateUsername username) fun user =>
      [ers cfg ["internaluser", "name"] [arg user]]
  | .iseGetEndpointGroup groupId => onValid (validateEndpointId groupId) fun gid =>
      [ers cfg ["endpointgroup"] [arg gid]]
  | .iseListSecurityGroups _ _ _ => [ers cfg ["sgt"] []]
  | .iseListSgacls _ _ _ => [ers cfg ["sgacl"] []]
  | .iseListAuthorizationProfiles _ _ _ => [ers cfg ["authorizationprofile"] []]
  | .iseCreateEndpoint _ _ _ => [ers cfg ["endpoint"] []]
  | .iseAssignEndpointGroup endpointId _ | .iseDeleteEndpoint endpointId =>
      onValid (validateEndpointId endpointId) fun eid => [ers cfg ["endpoint"] [arg eid]]

/-- A user name among the arguments, stripped, has no `/`, `?` and `#` and is neither `.` nor
`..`. -/
def PlainUsername : ToolCall → Prop
  | .iseGetUserSessionsByUsername username _ =>
      (∀ c ∈ (strip username).toList, c ∉ ['/', '?', '#']) ∧ strip username ≠ "." ∧
        strip username ≠ ".."
  | _ => True

end ToolCall

/-- The URL keeps to a template of the tool, below the base of that template. -/
def Confined (cfg : Config) (call : ToolCall) (url : String) : Prop :=
  ∃ t ∈ call.targets cfg, t.template.Follows t.base.toList url.toList

@[simp] theorem ers_path (cfg : Config) (names : List String) (args : List Part) :
    (ers cfg names args).template.path = "ers/config".toList
      ++ names.flatMap ('/' :: ·.toList) ++ args.flatMap ('/' :: ·.text) := by
  rw [Template.path, Template.texts, join_cons]
  simp [ers, List.flatMap_map]

@[simp] theorem mnt_path (cfg : Config) (names : List String) (args : List Part) :
    (mnt cfg names args).template.path = "admin/API/mnt".toList
      ++ names.flatMap ('/' :: ·.toList) ++ args.flatMap ('/' :: ·.text) := by
  rw [Template.path, Template.texts, join_cons]
  simp [mnt, List.flatMap_map]

@[simp] theorem arg_text (s : String) : (arg s).text = s.toList := rfl

/-! ## Accepted arguments -/

/-- A text without slash, question mark, hash and dot is safe. -/
theorem safe_of_chars {p : Part} (h : ∀ c ∈ p.text, c ∉ '.' :: delimiters) : p.Safe := by
  refine ⟨fun c hc hd => h c hc (List.mem_cons_of_mem _ hd), ?_⟩
  rintro a rfl (rfl | rfl)
  · exact h '.' List.mem_cons_self List.mem_cons_self
  · exact h '.' List.mem_cons_self List.mem_cons_self

theorem isHex_not_delimiter {c : Char} (h : isHex c = true) : c ∉ '.' :: delimiters := by
  intro hc
  have hall : ∀ d ∈ '.' :: delimiters, isHex d = false := by decide
  rw [hall c hc] at h
  cases h

theorem safe_mac {value m : String} (h : normalizeMac value = .ok m) : (arg m).Safe := by
  refine safe_of_chars fun c hc => ?_
  rcases normalizeMac_chars h c hc with hhex | rfl
  · exact isHex_not_delimiter hhex
  · decide

theorem safe_endpointId {value eid : String} (h : validateEndpointId value = .ok eid) :
    (arg eid).Safe := by
  refine safe_of_chars fun c hc => ?_
  rcases validateEndpointId_chars h c hc with hhex | rfl
  · exact isHex_not_delimiter hhex
  · decide

/-- An address has dots, but too many characters to be a dot segment. -/
theorem safe_ip {value addr : String} (h : validateIp value = .ok addr) : (arg addr).Safe := by
  -- a dot segment has at most two characters
  obtain ⟨hchars, hlength⟩ := validateIp_chars h
  refine ⟨fun c hc hd => ?_, ?_⟩
  · have hall : ∀ d ∈ delimiters, isDecimal d = false ∧ d ≠ '.' := by decide
    rcases hchars c hc with hdec | hdot
    · rw [(hall c hd).1] at hdec
      cases hdec
    · exact (hall c hd).2 hdot
  · intro a ha hdot
    cases ha
    rcases hdot with h | h <;> rw [h] at hlength <;> simp at hlength

/-- The decimal digits of an integer, and its sign. -/
theorem safe_int (n : Int) : (arg (toString n)).Safe := by
  have hnat : ∀ k : Nat, ∀ c ∈ k.repr.toList, c ∉ '.' :: delimiters := by
    intro k c hc hd
    rw [Nat.toList_repr] at hc
    have hdigit := Nat.isDigit_of_mem_toDigits (by decide) (by decide) hc
    have hall : ∀ d ∈ '.' :: delimiters, d.isDigit = false := by decide
    rw [hall c hd] at hdigit
    cases hdigit
  refine safe_of_chars fun c hc => ?_
  cases n with
  | ofNat k => exact hnat k c hc
  | negSucc k =>
      have hc' : c ∈ ("-" ++ (k + 1).repr).toList := hc
      rw [String.toList_append, List.mem_append] at hc'
      rcases hc' with hc | hc
      · have hminus : ∀ d ∈ "-".toList, d ∉ '.' :: delimiters := by decide
        exact hminus c hc
      · exact hnat _ c hc

theorem safe_iff (s : String) :
    (arg s).Safe ↔ (∀ c ∈ s.toList, c ∉ ['/', '?', '#']) ∧ s ≠ "." ∧ s ≠ ".." := by
  have hdot : ∀ t : String, s = t ↔ s.toList = t.toList := fun t => String.toList_inj.symm
  rw [ne_eq, ne_eq, hdot, hdot]
  constructor
  · intro h
    have hnot := h.notDot s.toList rfl
    exact ⟨h.plain, fun h1 => hnot (Or.inl h1), fun h2 => hnot (Or.inr h2)⟩
  · rintro ⟨hplain, h1, h2⟩
    refine ⟨hplain, ?_⟩
    rintro a ⟨⟩ (h | h)
    · exact h1 h
    · exact h2 h

/-! ## The requests of a tool and its templates -/

theorem mem_onValid {v : Except PyExc String} {f : String → List Target} {t : Target} :
    t ∈ onValid v f ↔ ∃ s, v = .ok s ∧ t ∈ f s := by
  cases v <;> simp [onValid]

theorem safe_fixed (names : List String) (h : ∀ n ∈ names, ∀ c ∈ n.toList, c ∉ delimiters) :
    ∀ p ∈ names.map fun n => Part.fixed n.toList, p.Safe := by
  intro p hp
  obtain ⟨n, hn, rfl⟩ := List.mem_map.mp hp
  exact ⟨h n hn, nofun⟩

/-- Only the arguments decide whether the parts of a template are safe. -/
theorem ers_safe_iff {cfg : Config} {names : List String} {args : List Part}
    (h : ∀ n ∈ names, ∀ c ∈ n.toList, c ∉ delimiters) :
    (∀ p ∈ (ers cfg names args).template.parts, p.Safe) ↔ ∀ p ∈ args, p.Safe := by
  have hfixed := safe_fixed ("config" :: names) (List.forall_mem_cons.mpr ⟨by decide, h⟩)
  constructor
  · exact fun hsafe p hp => hsafe p (List.mem_append_right _ hp)
  · exact fun hsafe p hp => (List.mem_append.mp hp).elim (hfixed p) (hsafe p)

theorem mnt_safe_iff {cfg : Config} {names : List String} {args : List Part}
    (h : ∀ n ∈ names, ∀ c ∈ n.toList, c ∉ delimiters) :
    (∀ p ∈ (mnt cfg names args).template.parts, p.Safe) ↔ ∀ p ∈ args, p.Safe := by
  have hfixed := safe_fixed ("API" :: "mnt" :: names)
    (List.forall_mem_cons.mpr ⟨by decide, List.forall_mem_cons.mpr ⟨by decide, h⟩⟩)
  constructor
  · exact fun hsafe p hp => hsafe p (List.mem_append_right _ hp)
  · exact fun hsafe p hp => (List.mem_append.mp hp).elim (hfixed p) (hsafe p)

/-- The target of an authentication log takes the MAC and two integers. -/
theorem authStatus_safe {cfg : Config} {m : String} (hm : (arg m).Safe) (seconds records : Int) :
    ∀ p ∈ (authStatus cfg m seconds records).template.parts, p.Safe := by
  refine (mnt_safe_iff (by decide)).mpr ?_
  simp only [List.forall_mem_cons, List.not_mem_nil, false_implies, implies_true, and_true]
  exact ⟨hm, safe_int seconds, safe_int records, by decide, nofun⟩

/-- One safe argument makes an ERS template safe. -/
theorem ers_safe {cfg : Config} {names : List String} {x : String}
    (h : ∀ n ∈ names, ∀ c ∈ n.toList, c ∉ delimiters) (hx : (arg x).Safe) :
    ∀ p ∈ (ers cfg names [arg x]).template.parts, p.Safe :=
  (ers_safe_iff h).mpr (by simpa using hx)

theorem mnt_safe {cfg : Config} {names : List String} {x : String}
    (h : ∀ n ∈ names, ∀ c ∈ n.toList, c ∉ delimiters) (hx : (arg x).Safe) :
    ∀ p ∈ (mnt cfg names [arg x]).template.parts, p.Safe :=
  (mnt_safe_iff h).mpr (by simpa using hx)

/-- The request is made at the base and with the path of the target. -/
def Target.Builds (t : Target) (r : IseRequest) : Prop :=
  t.base = r.base ∧ r.path.toList = '/' :: t.template.path

theorem authStatus_path (cfg : Config) (m : String) (seconds records : Int) :
    (MntApi.authStatusPath m seconds records).toList
      = '/' :: (authStatus cfg m seconds records).template.path := by
  unfold MntApi.authStatusPath authStatus
  generalize toString seconds = s
  generalize toString records = r
  simp

/-- The requests of a policy context are made on its targets. -/
theorem context_target {cfg : Config} {auth : AuthContext} {m : String} {r : IseRequest}
    (hm : (arg m).Safe) (h : ToolCall.ContextRequest cfg auth m r) :
    ∃ t ∈ [ers cfg ["endpoint", "name"] [arg m], mnt cfg ["Session", "MACAddress"] [arg m],
      authStatus cfg m 86400 10], t.Builds r ∧ ∀ p ∈ t.template.parts, p.Safe := by
  rcases h with rfl | rfl | rfl
  · exact ⟨ers cfg ["endpoint", "name"] [arg m], by simp, ⟨rfl, by simp [ErsApi.getRequest]⟩,
      ers_safe (by decide) hm⟩
  · exact ⟨mnt cfg ["Session", "MACAddress"] [arg m], by simp,
      ⟨rfl, by simp [MntApi.getRequest]⟩, mnt_safe (by decide) hm⟩
  · exact ⟨authStatus cfg m 86400 10, by simp, ⟨rfl, authStatus_path cfg m 86400 10⟩,
      authStatus_safe hm _ _⟩

/-- **Every request that a tool makes from its arguments is on one of its targets**, and the
validators keep every argument but a user name on the template. -/
theorem planned_target {cfg : Config} {auth : AuthContext} {call : ToolCall} {r : IseRequest}
    (h : call.Planned cfg auth r) : ∃ t ∈ call.targets cfg, t.Builds r ∧
      ((∀ p ∈ t.template.parts, p.Safe) ↔ call.PlainUsername) := by
  -- a template without arguments, below the names of a collection
  have hlist : ∀ names : List String, (∀ n ∈ names, ∀ c ∈ n.toList, c ∉ delimiters) →
      ∀ p ∈ (ers cfg names []).template.parts, p.Safe := fun names hn =>
    (ers_safe_iff hn).mpr (by simp)
  cases call with
  | iseHealthCheck => exact h.elim
  | iseAuthStatus => exact h.elim
  | iseLogin u p => exact h.elim
  | iseValidateSession => exact h.elim
  | iseLogout => exact h.elim
  | iseWhoami => exact h.elim
  | iseGetEndpointByMac mac inc =>
      obtain ⟨m, hm, rfl⟩ := h
      refine ⟨ers cfg ["endpoint", "name"] [arg m], ?_, ⟨rfl, by simp [ErsApi.getRequest]⟩,
        iff_of_true (ers_safe (by decide) (safe_mac hm)) trivial⟩
      rw [ToolCall.targets, mem_onValid]
      exact ⟨m, hm, List.mem_singleton_self _⟩
  | iseGetEndpointById endpointId inc =>
      obtain ⟨eid, heid, rfl⟩ := h
      refine ⟨ers cfg ["endpoint"] [arg eid], ?_, ⟨rfl, by simp [ErsApi.getRequest]⟩,
        iff_of_true (ers_safe (by decide) (safe_endpointId heid)) trivial⟩
      rw [ToolCall.targets, mem_onValid]
      exact ⟨eid, heid, List.mem_singleton_self _⟩
  | iseGetEndpointByIp ip inc =>
      obtain ⟨addr, _, rfl⟩ := h
      exact ⟨_, List.mem_singleton_self _, ⟨rfl, by simp [ErsApi.getRequest]⟩,
        iff_of_true (hlist _ (by decide)) trivial⟩
  | iseSearchEndpoints filter page size inc =>
      cases h
      exact ⟨_, List.mem_singleton_self _, ⟨rfl, by simp [ErsApi.getRequest]⟩,
        iff_of_true (hlist _ (by decide)) trivial⟩
  | iseGetActiveSessionByMac mac inc =>
      obtain ⟨m, hm, rfl⟩ := h
      refine ⟨mnt cfg ["Session", "MACAddress"] [arg m], ?_, ⟨rfl, by simp [MntApi.getRequest]⟩,
        iff_of_true (mnt_safe (by decide) (safe_mac hm)) trivial⟩
      rw [ToolCall.targets, mem_onValid]
      exact ⟨m, hm, List.mem_singleton_self _⟩
  | iseGetActiveSessionByIp ip inc =>
      obtain ⟨addr, haddr, rfl⟩ := h
      refine ⟨mnt cfg ["Session", "IPAddress"] [arg addr], ?_, ⟨rfl, by simp [MntApi.getRequest]⟩,
        iff_of_true (mnt_safe (by decide) (safe_ip haddr)) trivial⟩
      rw [ToolCall.targets, mem_onValid]
      exact ⟨addr, haddr, List.mem_singleton_self _⟩
  | iseGetAuthLogsByMac mac seconds records inc =>
      obtain ⟨m, hm, rfl⟩ := h
      refine ⟨authStatus cfg m seconds (max 1 (min records 500)), ?_,
        ⟨rfl, authStatus_path cfg m seconds _⟩,
        iff_of_true (authStatus_safe (safe_mac hm) _ _) trivial⟩
      rw [ToolCall.targets, mem_onValid]
      exact ⟨m, hm, List.mem_singleton_self _⟩
  | iseGetPolicyContextByMac mac =>
      obtain ⟨m, hm, hr⟩ := h
      obtain ⟨t, ht, hbuilds, hsafe⟩ := context_target (safe_mac hm) hr
      rw [ToolCall.targets]
      exact ⟨t, mem_onValid.mpr ⟨m, hm, ht⟩, hbuilds, iff_of_true hsafe trivial⟩
  | iseGetIncidentSummaryByMac mac =>
      obtain ⟨m, hm, hr⟩ := h
      obtain ⟨t, ht, hbuilds, hsafe⟩ := context_target (safe_mac hm) hr
      rw [ToolCall.targets]
      exact ⟨t, mem_onValid.mpr ⟨m, hm, ht⟩, hbuilds, iff_of_true hsafe trivial⟩
  | iseListNetworkDevices filter page size inc =>
      cases h
      exact ⟨_, List.mem_singleton_self _, ⟨rfl, by simp [ErsApi.getRequest]⟩,
        iff_of_true (hlist _ (by decide)) trivial⟩
  | iseGetUserSessionsByUsername username inc =>
      obtain ⟨user, huser, rfl⟩ := h
      -- the validator has only stripped the name
      obtain ⟨hstrip, _⟩ := matchStripped_ok_iff.mp huser
      refine ⟨ers cfg ["internaluser", "name"] [arg user], ?_,
        ⟨rfl, by simp [ErsApi.getRequest]⟩, ?_⟩
      · rw [ToolCall.targets, mem_onValid]
        exact ⟨user, huser, List.mem_singleton_self _⟩
      · rw [ers_safe_iff (by decide), List.forall_mem_singleton, hstrip]
        exact safe_iff _
  | iseGetEndpointGroup groupId =>
      obtain ⟨gid, hgid, rfl⟩ := h
      refine ⟨ers cfg ["endpointgroup"] [arg gid], ?_, ⟨rfl, by simp [ErsApi.getRequest]⟩,
        iff_of_true (ers_safe (by decide) (safe_endpointId hgid)) trivial⟩
      rw [ToolCall.targets, mem_onValid]
      exact ⟨gid, hgid, List.mem_singleton_self _⟩
  | iseListSecurityGroups page size inc =>
      cases h
      exact ⟨_, List.mem_singleton_self _, ⟨rfl, by simp [ErsApi.getRequest]⟩,
        iff_of_true (hlist _ (by decide)) trivial⟩
  | iseListSgacls page size inc =>
      cases h
      exact ⟨_, List.mem_singleton_self _, ⟨rfl, by simp [ErsApi.getRequest]⟩,
        iff_of_true (hlist _ (by decide)) trivial⟩
  | iseListAuthorizationProfiles page size inc =>
      cases h
      exact ⟨_, List.mem_singleton_self _, ⟨rfl, by simp [ErsApi.getRequest]⟩,
        iff_of_true (hlist _ (by decide)) trivial⟩
  | iseCreateEndpoint mac groupId description =>
      obtain ⟨m, body, _, _, rfl⟩ := h
      exact ⟨_, List.mem_singleton_self _, ⟨rfl, by simp [ErsApi.writeRequest]⟩,
        iff_of_true (hlist _ (by decide)) trivial⟩
  | iseAssignEndpointGroup endpointId groupId =>
      obtain ⟨eid, gid, heid, _, rfl⟩ := h
      refine ⟨ers cfg ["endpoint"] [arg eid], ?_, ⟨rfl, by simp [ErsApi.writeRequest]⟩,
        iff_of_true (ers_safe (by decide) (safe_endpointId heid)) trivial⟩
      rw [ToolCall.targets, mem_onValid]
      exact ⟨eid, heid, List.mem_singleton_self _⟩
  | iseDeleteEndpoint endpointId =>
      obtain ⟨eid, heid, rfl⟩ := h
      refine ⟨ers cfg ["endpoint"] [arg eid], ?_, ⟨rfl, by simp [ErsApi.writeRequest]⟩,
        iff_of_true (ers_safe (by decide) (safe_endpointId heid)) trivial⟩
      rw [ToolCall.targets, mem_onValid]
      exact ⟨eid, heid, List.mem_singleton_self _⟩

/-! ## The URLs of a run -/

/-- A user lookup has one target. -/
theorem username_target {cfg : Config} {username : String} {inc : Option Bool} {t t' : Target}
    (h : t ∈ (ToolCall.iseGetUserSessionsByUsername username inc).targets cfg)
    (h' : t' ∈ (ToolCall.iseGetUserSessionsByUsername username inc).targets cfg) : t = t' := by
  rw [ToolCall.targets, mem_onValid] at h h'
  obtain ⟨user, huser, h⟩ := h
  obtain ⟨user', huser', h'⟩ := h'
  rw [huser] at huser'
  cases huser'
  rw [List.mem_singleton.mp h, List.mem_singleton.mp h']

theorem builds_follows_iff {t : Target} {r : IseRequest} (h : t.Builds r) (pair : String × String) :
    t.template.Follows t.base.toList (IseClient.httpRequest r pair).url.toList ↔
      ('?' ∉ r.base.toList ∧ '#' ∉ r.base.toList) ∧ ∀ p ∈ t.template.parts, p.Safe := by
  obtain ⟨hbase, hpath⟩ := h
  rw [IseClient.httpRequest, String.toList_append, hpath, ← hbase]
  exact t.template.follows_iff t.base_last

/-- The URL of a request made from the arguments keeps to a template exactly when the base and the
user name are plain. -/
theorem confined_iff {cfg : Config} {auth : AuthContext} {call : ToolCall} {r : IseRequest}
    (h : call.Planned cfg auth r) (pair : String × String) :
    Confined cfg call (IseClient.httpRequest r pair).url ↔
      ('?' ∉ r.base.toList ∧ '#' ∉ r.base.toList) ∧ call.PlainUsername := by
  obtain ⟨t, ht, hbuilds, hsafe⟩ := planned_target h
  have hiff := builds_follows_iff hbuilds pair
  rw [hsafe] at hiff
  rw [← hiff]
  refine ⟨?_, fun hfollows => ⟨t, ht, hfollows⟩⟩
  rintro ⟨t', ht', hfollows⟩
  cases call with
  | iseGetUserSessionsByUsername username inc =>
      rw [username_target ht ht']
      exact hfollows
  | _ =>
      -- the arguments are safe, and a URL that keeps to any template has a plain base
      obtain ⟨hq, hf⟩ := hfollows.plain
      simp only [IseClient.httpRequest, String.toList_append, List.mem_append, not_or] at hq hf
      exact hiff.mpr ⟨⟨hq.1, hf.1⟩, trivial⟩

/-- A tool enters `IseClient.request` only with the requests it may make. -/
theorem tool_invokes {deps : Deps} (hb : deps.Built) {headers : Option RawHeaders}
    {call : ToolCall} {es : List (Event Ise)} {r : IseRequest} {k : Unit → Prog Ise ServerReply}
    (h : Prog.Path ((ServerRequest.tool headers call).program deps) es
      (.call (S := Ise) (.invoke r) k)) : ∃ auth, call.MayRequest deps.cfg auth r := by
  by_cases hgated : (ServerRequest.tool headers call).Gated deps
  · obtain ⟨t, ht⟩ := Option.isSome_iff_exists.mp hgated
    rcases gated_calls ht h with hrec | ⟨_, ⟨k', hres⟩ | ⟨auth, es₁, es₂, r', _, _, hr, hof⟩⟩
    · rcases hrec with ⟨rec, hrec⟩ | ⟨rec, hrec⟩ <;> cases hrec
    · obtain ⟨sid, hsid⟩ := (resolveAuth_only deps headers).next hres
      cases hsid
    · cases hof with
      | invoke => exact ⟨auth, hr⟩
  · cases (ungated_only hb hgated).next h with
    | lookup h => cases h

/-- **When tool arguments keep a request on the template of its tool**, in every run of the server:
the base it is sent to has neither a query nor a fragment, and a user name is plain. The lookups of
names are left out, as the ids they carry come from replies of ISE and are no arguments. -/
theorem path_safety_iff (deps : Deps) (hb : deps.Built) (env : Env)
    (moves : List (Move ServerRequest)) {e : Entry Ise World}
    (he : e ∈ (serverRun deps env moves).log) {headers : Option RawHeaders} {call : ToolCall}
    {left : Prog Ise ServerReply}
    (htask : (serverRun deps env moves).tasks[e.task]? = some ⟨.tool headers call, left⟩)
    {r : IseRequest} (hinvoke : e.event.1 = .invoke r)
    (hown : call.resolvesNames = true → ¬ NameLookup deps.cfg r.auth r) (pair : String × String) :
    Confined deps.cfg call (IseClient.httpRequest r pair).url ↔
      ('?' ∉ r.base.toList ∧ '#' ∉ r.base.toList) ∧ call.PlainUsername := by
  obtain ⟨pre, post, hlog⟩ := List.append_of_mem he
  obtain ⟨req, left', k, htask', hpath⟩ := serverRun_call hlog
  rw [htask] at htask'
  cases htask'
  obtain ⟨i, w, o, x⟩ := e
  dsimp only at hinvoke
  subst hinvoke
  obtain ⟨auth, hr⟩ := tool_invokes hb hpath
  rcases hr with hplanned | ⟨hnames, hlookup⟩
  · exact confined_iff hplanned pair
  -- a lookup of a name is not made from the arguments
  · refine absurd ?_ (hown hnames)
    have hauth : r.auth = auth := by
      rcases hlookup with ⟨gid, rfl⟩ | ⟨pid, rfl⟩ <;> rfl
    rw [hauth]
    exact hlookup

/-- This user is looked up. -/
def lookupMoves (username : String) : List (Move ServerRequest) :=
  [.spawn (.tool none (.iseGetUserSessionsByUsername username none)), .advance 0]

def lookupRequest (username : String) : IseRequest :=
  ErsApi.getRequest accountDeps.cfg ("/ers/config/internaluser/name/" ++ username)
    ⟨"svc", "service_account", "pw", ""⟩ none

theorem path_safety_alice :
    Confined accountDeps.cfg (.iseGetUserSessionsByUsername "alice" none)
      "https://ise/ers/config/internaluser/name/alice" := by
  have hlog : (serverRun accountDeps (.always 200) (lookupMoves "alice")).log
      = [⟨0, .initial 3600 900, ⟨Op.invoke (lookupRequest "alice"), ()⟩⟩] := by
    rfl
  have htask : ∃ left, (serverRun accountDeps (.always 200) (lookupMoves "alice")).tasks[0]?
      = some ⟨.tool none (.iseGetUserSessionsByUsername "alice" none), left⟩ := ⟨_, rfl⟩
  obtain ⟨left, hleft⟩ := htask
  have h := path_safety_iff accountDeps rfl (.always 200) (lookupMoves "alice")
    (by rw [hlog]; exact List.mem_singleton_self _) hleft rfl (fun h => by cases h) ("svc", "pw")
  have hname : strip "alice" = "alice" := by rfl
  refine h.mpr ⟨by decide, ?_⟩
  rw [ToolCall.PlainUsername, hname]
  decide

/-- The name leaves its segment and the resource: without the dot segments the path is
`/ers/config/endpoint`. -/
theorem path_safety_dots :
    ∃ e ∈ (serverRun accountDeps (.always 200) (lookupMoves "../../endpoint")).log,
      e.event.1 = .invoke (lookupRequest "../../endpoint") ∧
      ¬ Confined accountDeps.cfg (.iseGetUserSessionsByUsername "../../endpoint" none)
        (IseClient.httpRequest (lookupRequest "../../endpoint") ("svc", "pw")).url := by
  have hlog : (serverRun accountDeps (.always 200) (lookupMoves "../../endpoint")).log
      = [⟨0, .initial 3600 900, ⟨Op.invoke (lookupRequest "../../endpoint"), ()⟩⟩] := by
    rfl
  refine ⟨_, by rw [hlog]; exact List.mem_singleton_self _, rfl, fun h => ?_⟩
  have hvalid : validateUsername "../../endpoint" = .ok "../../endpoint" := by rfl
  have hname : strip "../../endpoint" = "../../endpoint" := by rfl
  have hplanned : (ToolCall.iseGetUserSessionsByUsername "../../endpoint" none).Planned
      accountDeps.cfg ⟨"svc", "service_account", "pw", ""⟩ (lookupRequest "../../endpoint") :=
    ⟨"../../endpoint", hvalid, rfl⟩
  have hplain := ((confined_iff hplanned _).mp h).2
  rw [ToolCall.PlainUsername, hname] at hplain
  exact absurd (hplain.1 '/' (by decide)) (by decide)

end IseMcp
