import IseMcp.SuccessReports

set_option autoImplicit false

/-! # Replayed writes

A request whose reply is lost may have been applied by ISE all the same. The loop of `request`
sends it again without looking at the method, so a write can reach ISE twice. Here ISE is a set of
endpoints that anyone may change between the attempts of one call; `History` says which attempts,
applied or not, such an ISE can have seen. `write_replay` says when a write is replayed: exactly
when ISE applies an attempt, the reply is lost, and a later attempt of the same call is applied as
well (a create) or finds nothing left (a delete).
-/

namespace IseMcp

open Python Interaction

/-! ## ISE -/

/-- An endpoint as ISE keeps it. -/
structure Endpoint where
  id : String
  mac : String
  deriving DecidableEq

/-- The change that a write asks for. -/
inductive Change where
  | create (mac : String)
  | assign (id : String)
  | delete (id : String)

/-- Applying a change leads from the endpoints `s` to `s'`. -/
def Change.Applies : Change → Set Endpoint → Set Endpoint → Prop
  | .create mac, s, s' => ∃ id, (∀ e ∈ s, e.id ≠ id) ∧ s' = insert ⟨id, mac⟩ s
  | .assign id, s, s' => (∃ e ∈ s, e.id = id) ∧ s' = s
  | .delete id, s, s' => (∃ e ∈ s, e.id = id) ∧ s' = {e ∈ s | e.id ≠ id}

/-- No reply of ISE arrived: it may have applied the request or not. -/
def HttpOutcome.Lost : HttpOutcome → Prop
  | .transportError _ => True
  | .raised _ => True
  | .response r => r.status ∈ IseClient.transient

def HttpOutcome.HasStatus (o : HttpOutcome) (status : Nat) : Prop :=
  ∃ r, o = .response r ∧ r.status = status

def HttpOutcome.Success (o : HttpOutcome) : Prop := ∃ r, o = .response r ∧ r.isSuccess = true

/-- What the HTTP client and the JSON parser raise is none of the server's own exceptions. -/
def HttpOutcome.Foreign : HttpOutcome → Prop
  | .transportError _ => True
  | .raised e => errorCode e.type = none
  | .response r => ∀ e, r.json = .error e → errorCode e.type = none

/-- One attempt at an ISE with the endpoints `s`. A success is applied, another reply of ISE is
not, and a lost reply leaves it open. A delete is answered 404 if there is nothing to delete. -/
inductive Attempted (c : Change) : Set Endpoint → HttpOutcome → Bool → Set Endpoint → Prop
  | applied {s s' : Set Endpoint} {o : HttpOutcome} (h : c.Applies s s')
      (ho : o.Success ∨ o.Lost) : Attempted c s o true s'
  | turnedAway {s : Set Endpoint} {o : HttpOutcome} (ho : ¬ o.Success)
      (h404 : ∀ id, c = .delete id → o.HasStatus 404 → ∀ e ∈ s, e.id ≠ id) : Attempted c s o false s

/-- The attempts of one call, each with whether it was applied, at an ISE that has the endpoints
`s` before. -/
inductive History (c : Change) : Set Endpoint → List (HttpOutcome × Bool) → Prop
  | nil (s : Set Endpoint) : History c s []
  /-- Others change the endpoints. -/
  | others {s s' : Set Endpoint} {l : List (HttpOutcome × Bool)} (rest : History c s' l) :
      History c s l
  | attempt {s s' : Set Endpoint} {o : HttpOutcome} {b : Bool} {l : List (HttpOutcome × Bool)}
      (h : Attempted c s o b s') (ho : o.Foreign) (rest : History c s' l) :
      History c s ((o, b) :: l)

/-! ## Replays -/

/-- What a write asks for, with its validated arguments. -/
def ToolCall.Asks : ToolCall → Change → Prop
  | .iseCreateEndpoint mac _ _, c => ∃ m, normalizeMac mac = .ok m ∧ c = .create m
  | .iseAssignEndpointGroup endpointId _, c =>
      ∃ eid, validateEndpointId endpointId = .ok eid ∧ c = .assign eid
  | .iseDeleteEndpoint endpointId, c =>
      ∃ eid, validateEndpointId endpointId = .ok eid ∧ c = .delete eid
  | _, _ => False

/-- A create is applied at most once, and a delete that was applied is not answered
`not_found`. -/
structure NotReplayed (c : Change) (l : List (HttpOutcome × Bool)) (env : PyVal) : Prop where
  once : ∀ mac, c = .create mac → l.countP (·.2) ≤ 1
  honest : ∀ id, c = .delete id → field env "error" = some (.str "not_found") →
    ∀ a ∈ l, a.2 = false

/-- An attempt that ISE applied lost its reply, and the call went on until a later attempt was
applied too, or found nothing to delete. -/
def Replayed (c : Change) (l : List (HttpOutcome × Bool)) : Prop :=
  ∃ before a after, l = before ++ a :: after ∧ a.2 = true ∧ a.1.Lost ∧
    ((∃ mac, c = .create mac) ∧ (∃ b ∈ after, b.2 = true) ∨
      (∃ id, c = .delete id) ∧ ∃ b ∈ after, b.1.HasStatus 404)

/-- Every attempt of a history was made at some set of endpoints. -/
theorem History.attempted {c : Change} {s : Set Endpoint} {l : List (HttpOutcome × Bool)}
    (h : History c s l) : ∀ a ∈ l, a.1.Foreign ∧ ∃ s₁ s₂, Attempted c s₁ a.1 a.2 s₂ := by
  induction h with
  | nil s => simp
  | others _ ih => exact ih
  | @attempt s s' o b l h ho _ ih =>
      intro a ha
      rcases List.mem_cons.mp ha with rfl | ha
      · exact ⟨ho, s, s', h⟩
      · exact ih a ha

/-- An applied attempt was answered with success, or its reply was lost. -/
theorem Attempted.reply {c : Change} {s s' : Set Endpoint} {o : HttpOutcome}
    (h : Attempted c s o true s') : o.Success ∨ o.Lost := by
  cases h with
  | applied _ ho => exact ho

/-- An outcome that is retried is a lost reply or a 429. -/
theorem lost_of_retried {cfg : Config} {o : HttpOutcome} (h : IseClient.retried cfg o = true) :
    o.Lost ∨ o.HasStatus 429 := by
  cases o with
  | transportError message => exact Or.inl trivial
  | raised e => cases h
  | response r =>
      by_cases h429 : r.status = 429
      · exact Or.inr ⟨r, rfl, h429⟩
      · simp only [IseClient.retried, if_neg h429, decide_eq_true_eq] at h
        exact Or.inl h

/-- A success is neither of them, so it is not retried. -/
theorem HttpOutcome.Success.not_retried {cfg : Config} {o : HttpOutcome} (h : o.Success) :
    IseClient.retried cfg o = false := by
  obtain ⟨r, rfl, hr⟩ := h
  simp only [HttpResponse.isSuccess, decide_eq_true_eq] at hr
  rw [IseClient.retried, if_neg (by omega), decide_eq_false_iff_not]
  simp only [IseClient.transient, List.mem_cons, List.not_mem_nil, or_false]
  omega

theorem HttpOutcome.HasStatus.not_retried {cfg : Config} {o : HttpOutcome}
    (h : o.HasStatus 404) : IseClient.retried cfg o = false := by
  obtain ⟨r, rfl, hr⟩ := h
  rw [IseClient.retried, if_neg (by omega), decide_eq_false_iff_not, hr]
  decide

theorem HttpOutcome.HasStatus.not_applied {c : Change} {s s' : Set Endpoint} {o : HttpOutcome}
    {b : Bool} (h : o.HasStatus 404) (ha : Attempted c s o b s') : b = false := by
  obtain ⟨r, rfl, hr⟩ := h
  cases ha with
  | turnedAway _ _ => rfl
  | applied _ ho =>
      rcases ho with ⟨r', hr', hs⟩ | hlost
      · cases hr'
        simp [HttpResponse.isSuccess, hr] at hs
      · have : (404 : Nat) ∈ IseClient.transient := hr ▸ hlost
        exact absurd this (by decide)

/-! ## The answer -/

@[simp] theorem field_okData_error (data : PyVal) : field (okData data) "error" = none := rfl

theorem errorCode_eq_not_found {t : ExcType} :
    errorCode t = some "not_found" ↔ t = .notFoundError := by
  cases t <;> simp [errorCode]

/-- The one exception with the class of a 404 is that of a 404. -/
theorem settle_notFound_iff {o : HttpOutcome} {e : PyExc} (ho : o.Foreign)
    (h : IseClient.settle .json o = .error e) : e.type = .notFoundError ↔ o.HasStatus 404 := by
  cases o with
  | transportError message =>
      cases h
      refine iff_of_false (fun he => by cases he) ?_
      rintro ⟨r, hr, _⟩
      cases hr
  | raised e' =>
      cases h
      refine iff_of_false (fun he => ?_) ?_
      · rw [HttpOutcome.Foreign, he] at ho
        cases ho
      · rintro ⟨r, hr, _⟩
        cases hr
  | response r =>
      by_cases h404 : r.status = 404
      · rw [IseClient.settle, if_neg (by omega), IseClient.handleResponse, if_pos h404] at h
        cases h
        exact iff_of_true rfl ⟨r, rfl, h404⟩
      · have hother : ¬ (HttpOutcome.response r).HasStatus 404 := by
          rintro ⟨r', hr', hs⟩
          cases hr'
          exact h404 hs
        refine iff_of_false (fun he => ?_) hother
        rw [IseClient.settle, IseClient.handleResponse, if_neg h404] at h
        split_ifs at h
        · cases h
          cases he
        · cases h
          cases he
        · cases h
          cases he
        · cases h
          cases he
        · cases hj : r.json with
          | ok v =>
              rw [hj] at h
              cases h
          | error e' =>
              -- the exception of the JSON parser
              rw [hj] at h
              dsimp only at h
              split_ifs at h
              cases h
              have := ho e hj
              rw [he] at this
              cases this

/-- A write is answered `not_found` exactly if its last attempt was answered 404. -/
theorem answer_not_found_iff {o : HttpOutcome} (ho : o.Foreign) :
    field (answer ((IseClient.settle .json o).map okData)) "error" = some (.str "not_found") ↔
      o.HasStatus 404 := by
  cases hs : IseClient.settle .json o with
  | ok v =>
      refine iff_of_false nofun fun ⟨r, hr, h404⟩ => ?_
      subst hr
      have hle := (IseClient.settle_ok_iff.mp ⟨v, hs⟩)
      obtain ⟨r', hr', hlt, _⟩ := hle
      cases hr'
      omega
  | error e =>
      have hfield : field (answer ((Except.error e : Except PyExc PyVal).map okData)) "error"
          = some (.str ((errorCode e.type).getD "internal_error")) := field_error_error e
      rw [hfield, ← settle_notFound_iff ho hs, ← errorCode_eq_not_found, Option.some.injEq,
        PyVal.str.injEq]
      cases errorCode e.type with
      | none => simp
      | some code => simp

/-- Two applied attempts: one of them comes later than the other. -/
theorem one_lt_countP_iff {α : Type} {p : α → Bool} {l : List α} :
    1 < l.countP p ↔ ∃ before a after, l = before ++ a :: after ∧ p a = true ∧
      ∃ b ∈ after, p b = true := by
  constructor
  · intro h
    induction l with
    | nil => simp at h
    | cons x l ih =>
        by_cases hx : p x = true
        · rw [List.countP_cons_of_pos hx] at h
          obtain ⟨b, hb, hpb⟩ := List.countP_pos_iff.mp (by omega : 0 < l.countP p)
          exact ⟨[], x, l, rfl, hx, b, hb, hpb⟩
        · rw [List.countP_cons_of_neg hx] at h
          obtain ⟨before, a, after, rfl, ha⟩ := ih h
          exact ⟨x :: before, a, after, rfl, ha⟩
  · rintro ⟨before, a, after, rfl, ha, b, hb, hpb⟩
    have hpos : 0 < after.countP p := List.countP_pos_iff.mpr ⟨b, hb, hpb⟩
    rw [List.countP_append, List.countP_cons_of_pos ha]
    omega

/-- An attempt before the last one was retried; one that was applied has lost its reply. -/
theorem lost_of_applied {cfg : Config} {c : Change} {s : Set Endpoint}
    {l before after : List (HttpOutcome × Bool)} {a : HttpOutcome × Bool} (h : History c s l)
    (hl : l = before ++ a :: after) (ha : a.2 = true)
    (hretried : IseClient.retried cfg a.1 = true) : a.1.Lost := by
  obtain ⟨_, s₁, s₂, hatt⟩ := h.attempted a (by simp [hl])
  rw [ha] at hatt
  rcases hatt.reply with hs | hlost
  · rw [hs.not_retried] at hretried
    cases hretried
  · exact hlost

/-- In a history of these attempts, being replayed is exactly what breaks the promise. -/
theorem notReplayed_iff {cfg : Config} {c : Change} {s : Set Endpoint}
    {l : List (HttpOutcome × Bool)} {earlier : List HttpOutcome} {last : HttpOutcome}
    (h : History c s l) (hl : l.map Prod.fst = earlier ++ [last])
    (hearlier : ∀ o ∈ earlier, IseClient.retried cfg o = true) :
    NotReplayed c l (answer ((IseClient.settle .json last).map okData)) ↔ ¬ Replayed c l := by
  obtain ⟨le, lb, rfl, hle, hlast⟩ := List.map_eq_append_iff.mp hl
  obtain ⟨⟨o, b⟩, rfl, ho⟩ := List.map_eq_singleton_iff.mp hlast
  dsimp only at ho
  subst ho
  obtain ⟨hforeign, s₁, s₂, hatt⟩ := h.attempted (o, b) (by simp)
  -- an attempt with another one after it is one of the earlier ones
  have hbefore : ∀ {before after a}, le ++ [(o, b)] = before ++ a :: after → after ≠ [] →
      IseClient.retried cfg a.1 = true := by
    intro before after a hsplit hne
    refine hearlier _ ?_
    rw [← hle]
    obtain ⟨after', x, rfl⟩ := (List.eq_nil_or_concat after).resolve_left hne
    rw [List.concat_eq_append, ← List.cons_append, ← List.append_assoc] at hsplit
    rw [(List.append_inj' hsplit rfl).1]
    exact List.mem_map_of_mem (by simp)
  constructor
  · rintro hnot ⟨before, a, after, hsplit, ha, hlost, ⟨⟨mac, rfl⟩, hdup⟩ | ⟨⟨id, rfl⟩, x, hx, h404⟩⟩
    · have htwo := one_lt_countP_iff.mpr ⟨before, a, after, hsplit, ha, hdup⟩
      exact absurd (hnot.once mac rfl) (Nat.not_le.mpr htwo)
    · -- only the last attempt can be answered 404
      have hxlast : x = (o, b) := by
        have hmem : x ∈ le ++ [(o, b)] := by simp [hsplit, hx]
        rcases List.mem_append.mp hmem with hmem | hmem
        · have := hearlier x.1 (by rw [← hle]; exact List.mem_map_of_mem hmem)
          rw [h404.not_retried] at this
          cases this
        · simpa using hmem
      subst hxlast
      have hfalse := hnot.honest id rfl ((answer_not_found_iff hforeign).mpr h404) a (by
        simp [hsplit])
      rw [ha] at hfalse
      cases hfalse
  · intro hnot
    refine ⟨fun mac hc => ?_, fun id hc hcode a ha => ?_⟩
    · by_contra hcount
      obtain ⟨before, a, after, hsplit, happ, x, hx, hxapp⟩ :=
        one_lt_countP_iff.mp (Nat.not_le.mp hcount)
      have hlost := lost_of_applied h hsplit happ (hbefore hsplit (List.ne_nil_of_mem hx))
      exact hnot ⟨before, a, after, hsplit, happ, hlost, Or.inl ⟨⟨mac, hc⟩, x, hx, hxapp⟩⟩
    · have h404 := (answer_not_found_iff hforeign).mp hcode
      rw [← Bool.not_eq_true]
      intro happ
      obtain ⟨before, after, hsplit⟩ := List.append_of_mem ha
      rcases List.eq_nil_or_concat after with rfl | ⟨after', x, rfl⟩
      · -- the last attempt was answered 404, so it was not applied
        obtain ⟨_, hx⟩ := List.append_inj' hsplit rfl
        cases hx
        rw [h404.not_applied hatt] at happ
        cases happ
      · have hlost := lost_of_applied h hsplit happ (hbefore hsplit (by simp))
        have hsplit' := hsplit
        rw [List.concat_eq_append, ← List.cons_append, ← List.append_assoc] at hsplit'
        obtain ⟨_, hx⟩ := List.append_inj' hsplit' rfl
        cases hx
        exact hnot ⟨before, a, _, hsplit, happ, hlost, Or.inr ⟨⟨id, hc⟩, (o, b), by simp, h404⟩⟩

/-- The validated arguments of a write say what it asks for. -/
theorem asks_of_validArgs {call : ToolCall} (hw : call.name ∈ writeTools) (h : call.ValidArgs) :
    ∃ c, call.Asks c := by
  cases call with
  | iseCreateEndpoint mac groupId description =>
      obtain ⟨⟨m, hm⟩, _⟩ := h
      exact ⟨_, m, hm, rfl⟩
  | iseAssignEndpointGroup endpointId groupId =>
      obtain ⟨⟨eid, he⟩, _⟩ := h
      exact ⟨_, eid, he, rfl⟩
  | iseDeleteEndpoint endpointId =>
      obtain ⟨eid, he⟩ := h
      exact ⟨_, eid, he, rfl⟩
  | _ => simp [ToolCall.name, writeTools] at hw

/-- **When a write is replayed.** A write makes at most four attempts, and one more only after a
lost reply or a 429. At every ISE, a create is applied at most once and a delete that was applied
is not answered `not_found`, except exactly if an attempt was applied and lost its reply, and a
later attempt of the same call was applied as well or found nothing to delete. -/
theorem write_replay (deps : Deps) (headers : Option RawHeaders) (call : ToolCall)
    (hw : call.name ∈ writeTools) (es : List (Event Ise)) (env : PyVal)
    (hp : Prog.Path (call.invoke deps headers) es (.ret env)) :
    (attempts es).length ≤ 4 ∧
    (∀ before o after, attempts es = before ++ o :: after → after ≠ [] →
      o.Lost ∨ o.HasStatus 429) ∧
    (attempts es ≠ [] → ∃ c, call.Asks c) ∧
    ∀ c s l, call.Asks c → History c s l → l.map Prod.fst = attempts es →
      (NotReplayed c l env ↔ ¬ Replayed c l) := by
  rcases write_returns hw hp with ⟨hnone, e, rfl⟩ |
    ⟨earlier, last, hes, hvalid, hlen, hearlier, rfl⟩
  · rw [hnone]
    refine ⟨by simp, by simp, by simp, fun c s l _ _ hl => ?_⟩
    obtain rfl := List.map_eq_nil_iff.mp hl
    refine iff_of_true ⟨by simp, by simp⟩ ?_
    rintro ⟨before, a, after, hsplit, _⟩
    simp at hsplit
  · rw [hes]
    refine ⟨?_, fun before o after hsplit hne => ?_, fun _ => asks_of_validArgs hw hvalid,
      fun c s l _ h hl => notReplayed_iff h hl hearlier⟩
    · have : IseClient.maxRetries = 3 := rfl
      rw [List.length_append, List.length_singleton]
      omega
    · obtain ⟨after', x, rfl⟩ := (List.eq_nil_or_concat after).resolve_left hne
      rw [List.concat_eq_append, ← List.cons_append, ← List.append_assoc] at hsplit
      refine lost_of_retried (hearlier o ?_)
      rw [(List.append_inj' hsplit rfl).1]
      simp

/-- The first attempt is answered with one status, the later ones with another. -/
def Env.firstThen (first later : Nat) : Env :=
  { Env.always later with
    outcome := fun n => .response ⟨if n ≤ 1 then first else later, none, false, "", .ok .none⟩ }

def createSample : ToolCall := .iseCreateEndpoint "aabbccddeeff" none ""

def deleteSample : ToolCall := .iseDeleteEndpoint "aaaaaaaa"

/-- The attempt that is answered with this status and no body. -/
def answered (status : Nat) : HttpOutcome := .response ⟨status, none, false, "", .ok .none⟩

theorem createSample_asks : createSample.Asks (.create "AA:BB:CC:DD:EE:FF") :=
  ⟨_, by rfl, rfl⟩

/-- A create that is answered 201 at once. -/
theorem write_replay_created :
    ∃ es env, Prog.Path (createSample.invoke writerDeps none) es (.ret env) ∧
      NotReplayed (.create "AA:BB:CC:DD:EE:FF") [(answered 201, true)] env := by
  have hpath := Prog.path_exec (serve (.always 201))
    (createSample.invoke writerDeps none) (.initial 3600 900)
  refine ⟨_, _, hpath, ?_⟩
  have hhistory : History (.create "AA:BB:CC:DD:EE:FF") ∅ [(answered 201, true)] :=
    .attempt (.applied ⟨"1", by simp, rfl⟩ (Or.inl ⟨_, rfl, rfl⟩)) (fun e he => by cases he) (.nil _)
  refine ((write_replay writerDeps none createSample (by decide) _ _ hpath).2.2.2 _ _ _
    createSample_asks hhistory (by rfl)).mpr ?_
  rintro ⟨before, a, after, hsplit, _, hlost, _⟩
  rcases before with _ | ⟨x, before⟩
  · cases hsplit
    exact absurd (show 201 ∈ IseClient.transient from hlost) (by decide)
  · cases before <;> cases hsplit

/-- A 503 for an applied create is followed by another create, and for an applied delete by
`not_found`. -/
theorem write_replayed_after_503 :
    (∃ es env l, Prog.Path (createSample.invoke writerDeps none) es (.ret env) ∧
      History (.create "AA:BB:CC:DD:EE:FF") ∅ l ∧ l.map Prod.fst = attempts es ∧
      ¬ NotReplayed (.create "AA:BB:CC:DD:EE:FF") l env) ∧
    ∃ es env l, Prog.Path (deleteSample.invoke writerDeps none) es (.ret env) ∧
      History (.delete "aaaaaaaa") {⟨"aaaaaaaa", "AA:BB:CC:DD:EE:FF"⟩} l ∧
      l.map Prod.fst = attempts es ∧ ¬ NotReplayed (.delete "aaaaaaaa") l env := by
  have hlost : (answered 503).Lost := by
    show 503 ∈ IseClient.transient
    decide
  constructor
  · refine ⟨_, _, [(answered 503, true), (answered 201, true)],
      Prog.path_exec (serve (.firstThen 503 201)) _ (.initial 3600 900), ?_, by rfl, ?_⟩
    · refine .attempt (.applied ⟨"1", by simp, rfl⟩ (Or.inr hlost)) (fun e he => by cases he) ?_
      exact .attempt (.applied ⟨"2", by simp, rfl⟩ (Or.inl ⟨_, rfl, rfl⟩)) (fun e he => by cases he)
        (.nil _)
    · intro h
      exact absurd (h.once _ rfl) (by decide)
  · refine ⟨_, _, [(answered 503, true), (answered 404, false)],
      Prog.path_exec (serve (.firstThen 503 404)) _ (.initial 3600 900), ?_, by rfl, ?_⟩
    · refine .attempt (.applied ⟨⟨_, rfl, rfl⟩, rfl⟩ (Or.inr hlost)) (fun e he => by cases he) ?_
      refine .attempt (.turnedAway ?_ fun id hid _ e he => ?_) (fun e he => by cases he) (.nil _)
      · rintro ⟨r, hr, hs⟩
        cases hr
        cases hs
      · cases hid
        exact he.2
    · intro h
      have hcode : field (Prog.exec (serve (.firstThen 503 404))
          (deleteSample.invoke writerDeps none) (.initial 3600 900)).1 "error"
          = some (.str "not_found") := by rfl
      have := h.honest _ rfl hcode (answered 503, true) (by simp)
      cases this

end IseMcp
