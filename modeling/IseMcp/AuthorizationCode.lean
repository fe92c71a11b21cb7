import IseMcp.Interaction.Interleave
import IseMcp.OAuth

set_option autoImplicit false

/-! # The authorization-code protocol

Any number of `login_and_issue_code` and `exchange_code` calls, of any clients, interleaved in any
order. A call is a task of the system of `Interaction/Interleave.lean`; a move starts a call or
lets it make its next step.

The invariant is on the table of codes: a code is in it exactly if some call issued it and no
later step popped it (`codes_iff`). What one call can do comes from its paths (`issue_entry`,
`exchange_entry`). `authorization_code_protocol` puts the two together.
-/

namespace IseMcp

open Python Interaction OAuthServer

/-! ## The system -/

inductive OAuthCall where
  | login (a : LoginArgs)
  | exchange (a : ExchangeArgs)

inductive OAuthReply where
  | code (r : Except PyExc String)
  | token (r : Except PyExc (Option BaseToken × Option String))

def OAuthCall.program (cfg : Config) : OAuthCall → Prog Ise OAuthReply
  | .login a =>
      (loginAndIssueCode cfg (IseClient.validateCredentials cfg) a).run >>= fun r => .ret (.code r)
  | .exchange a => (exchangeCode cfg a).run >>= fun r => .ret (.token r)

abbrev OAuthSys : Type := Sys Ise World OAuthCall OAuthReply

abbrev OAuthLog : Type := List (Entry Ise World)

def oauthRun (cfg : Config) (env : Env) (moves : List (Move OAuthCall)) : OAuthSys :=
  Sys.run (OAuthCall.program cfg) (serve env)
    (.initial cfg.sessionTtlSeconds cfg.sessionIdleTimeoutSeconds) moves

/-- The client of the call is the configured one. -/
def ExchangeArgs.Authentic (cfg : Config) (a : ExchangeArgs) : Prop :=
  a.clientId = some cfg.oauthClientId ∧ a.clientSecret = some cfg.oauthClientSecret

/-- The PKCE check as the protocol states it. -/
def PkceMatches (challenge : String) (verifier : Option PyStr) : Prop :=
  challenge = "" ∨ ∃ v, verifier = some v ∧ v ≠ "" ∧ s256 v = .ok challenge

/-- `code` was issued with the record `rec`, and no step popped it since. -/
def Outstanding (env : Env) (l : OAuthLog) (code : String) (rec : Code) : Prop :=
  ∃ pre e post grant, l = pre ++ e :: post ∧ e.event = ⟨Op.issueCode grant, code⟩ ∧
    rec = ⟨grant, env.now e.before.steps⟩ ∧ ∀ e' ∈ post, e'.event.1 ≠ .popCode (some code)

theorem outstanding_snoc {env : Env} {l : OAuthLog} {e : Entry Ise World} {code : String}
    {rec : Code} :
    Outstanding env (l ++ [e]) code rec ↔
      (∃ grant, e.event = ⟨Op.issueCode grant, code⟩ ∧ rec = ⟨grant, env.now e.before.steps⟩) ∨
      (Outstanding env l code rec ∧ e.event.1 ≠ .popCode (some code)) := by
  constructor
  · rintro ⟨pre, e', post, grant, hl, he, hrec, hpost⟩
    rcases snoc_eq_split.mp hl with ⟨rfl, rfl, rfl⟩ | ⟨post', rfl, rfl⟩
    · exact Or.inl ⟨grant, he, hrec⟩
    · refine Or.inr ⟨⟨pre, e', post', grant, rfl, he, hrec, fun x hx => ?_⟩, ?_⟩
      · exact hpost x (by simp [hx])
      · exact hpost e (by simp)
  · rintro (⟨grant, he, hrec⟩ | ⟨⟨pre, e', post, grant, rfl, he, hrec, hpost⟩, hne⟩)
    · exact ⟨l, e, [], grant, rfl, he, hrec, by simp⟩
    · refine ⟨pre, e', post ++ [e], grant, by simp, he, hrec, fun x hx => ?_⟩
      rcases List.mem_append.mp hx with hx | hx
      · exact hpost x hx
      · rw [List.mem_singleton.mp hx]
        exact hne

/-- The invariant: the clock of the machine counts the log, a code is the token drawn at its
step, and the table holds the outstanding codes. -/
structure CodesInv (env : Env) (l : OAuthLog) (w : World) : Prop where
  steps : w.steps = l.length
  index : ∀ pre e post, l = pre ++ e :: post → e.before.steps = pre.length
  drawn : ∀ e ∈ l, ∀ grant code, e.event = ⟨Op.issueCode grant, code⟩ →
    code = (env.token e.before.steps).text
  table : ∀ code rec, w.codes.lookup code = some rec ↔ Outstanding env l code rec

/-- An operation that is neither an issue nor a pop leaves the table alone. -/
theorem serve_codes {env : Env} {w : World} {o : Op} (hi : ∀ g, o ≠ .issueCode g)
    (hp : ∀ c, o ≠ .popCode c) : (serve env w o).2.codes = w.codes := by
  cases o with
  | issueCode g => exact absurd rfl (hi g)
  | popCode c => exact absurd rfl (hp c)
  | _ => rfl

/-- The code that is drawn now is not outstanding. -/
theorem CodesInv.not_outstanding {env : Env}
    (hfresh : Function.Injective fun n => (env.token n).text) {l : OAuthLog} {w : World}
    (h : CodesInv env l w) (rec : Code) : ¬ Outstanding env l (env.token w.steps).text rec := by
  rintro ⟨pre, e, post, grant, hl, he, _, _⟩
  have htok := h.drawn e (by rw [hl]; simp) grant _ he
  have hidx := h.index pre e post hl
  have hsteps := h.steps
  have := hfresh htok
  rw [hl, List.length_append, List.length_cons] at hsteps
  omega

theorem CodesInv.step {env : Env} (hfresh : Function.Injective fun n => (env.token n).text)
    {l : OAuthLog} {w : World} (h : CodesInv env l w) (i : Nat) (o : Op) :
    CodesInv env (l ++ [⟨i, w, ⟨o, (serve env w o).1⟩⟩]) (serve env w o).2 where
  steps := by simp [h.steps]
  index := by
    intro pre e post hl
    rcases snoc_eq_split.mp hl with ⟨rfl, rfl, rfl⟩ | ⟨post', rfl, rfl⟩
    · exact h.steps
    · exact h.index pre e post' rfl
  drawn := by
    intro e he grant code hev
    rcases List.mem_append.mp he with he | he
    · exact h.drawn e he grant code hev
    · rw [List.mem_singleton] at he
      subst he
      cases hev
      rfl
  table := by
    intro code rec
    rw [outstanding_snoc]
    -- an issue adds the code drawn at this step, a pop removes its code, other steps do neither
    by_cases hi : ∃ g, o = .issueCode g
    · obtain ⟨g, rfl⟩ := hi
      by_cases hcode : code = (env.token w.steps).text
      · subst hcode
        show (w.codes.issue _ _ _).lookup _ = _ ↔ _
        rw [CodeTable.lookup_issue_self, Option.some.injEq]
        simp only [h.not_outstanding hfresh rec, false_and, or_false]
        constructor
        · rintro rfl
          exact ⟨g, rfl, rfl⟩
        · rintro ⟨grant, hev, rfl⟩
          cases hev
          rfl
      · show (w.codes.issue _ _ _).lookup _ = _ ↔ _
        rw [CodeTable.lookup_issue_ne _ _ _ hcode, h.table]
        refine ⟨fun hout => Or.inr ⟨hout, nofun⟩, ?_⟩
        rintro (⟨grant, hev, _⟩ | ⟨hout, _⟩)
        · cases hev
          exact absurd rfl hcode
        · exact hout
    · by_cases hp : ∃ c, o = .popCode c
      · obtain ⟨c, rfl⟩ := hp
        show (w.codes.remove c).lookup _ = _ ↔ _
        by_cases hc : c = some code
        · subst hc
          rw [CodeTable.lookup_remove_self]
          refine iff_of_false nofun ?_
          rintro (⟨grant, hev, _⟩ | ⟨_, hne⟩)
          · cases hev
          · exact hne rfl
        · rw [CodeTable.lookup_remove_ne _ hc, h.table]
          refine ⟨fun hout => Or.inr ⟨hout, fun he => hc (by cases he; rfl)⟩, ?_⟩
          rintro (⟨grant, hev, _⟩ | ⟨hout, _⟩)
          · cases hev
          · exact hout
      · rw [serve_codes (not_exists.mp hi) (not_exists.mp hp), h.table]
        refine ⟨fun hout => Or.inr ⟨hout, fun he => hp ⟨_, he⟩⟩, ?_⟩
        rintro (⟨grant, hev, _⟩ | ⟨hout, _⟩)
        · exact absurd ⟨grant, congrArg Sigma.fst hev⟩ hi
        · exact hout

theorem CodesInv.initial (env : Env) (ttl idle : Int) : CodesInv env [] (.initial ttl idle) where
  steps := rfl
  index := by simp
  drawn := by simp
  table := by
    intro code rec
    refine iff_of_false nofun ?_
    rintro ⟨pre, e, post, _, hl, _⟩
    simp at hl

/-! ## What one call does -/

/-- An exchange by another client does nothing and gets no token; one by the configured client
pops its code, in one step, and is decided by the record. -/
theorem exchange_path {cfg : Config} {a : ExchangeArgs} {es : List (Event Ise)}
    {left : Prog Ise OAuthReply} (h : Prog.Path (OAuthCall.program cfg (.exchange a)) es left) :
    (clientOk cfg a.clientId a.clientSecret ≠ .ok true ∧ es = [] ∧
      ∃ r, left = .ret (.token r) ∧ ∀ t err, r ≠ .ok (some t, err)) ∨
    (clientOk cfg a.clientId a.clientSecret = .ok true ∧ es = [] ∧ ∀ r, left ≠ .ret r) ∨
    (clientOk cfg a.clientId a.clientSecret = .ok true ∧
      ∃ x : Option Code, es = [⟨Op.popCode a.code, x⟩] ∧
        left = .ret (.token (redeem cfg a x))) := by
  rw [OAuthCall.program] at h
  by_cases hc : clientOk cfg a.clientId a.clientSecret = .ok true
  · rw [exchangeCode_accepted hc, Prog.call_bind, Prog.path_call_iff] at h
    -- the exchange stands before its pop, or it is over
    rcases h with ⟨rfl, rfl⟩ | ⟨x, es', rfl, h⟩
    · exact Or.inr (Or.inl ⟨hc, rfl, nofun⟩)
    · rw [Prog.ret_bind, Prog.path_ret_iff] at h
      obtain ⟨rfl, rfl⟩ := h
      exact Or.inr (Or.inr ⟨hc, x, rfl, rfl⟩)
  · obtain ⟨r, hr, hno⟩ := exchangeCode_refused hc
    rw [hr, Prog.ret_bind, Prog.path_ret_iff] at h
    obtain ⟨rfl, rfl⟩ := h
    exact Or.inl ⟨hc, rfl, r, rfl, hno⟩

/-- A login that stored a code is over; it created the session it stands for just before. -/
theorem login_path {cfg : Config} {a : LoginArgs} {es es' : List (Event Ise)} {grant : CodeGrant}
    {code : String} {left : Prog Ise OAuthReply}
    (h : Prog.Path (OAuthCall.program cfg (.login a)) (es ++ ⟨Op.issueCode grant, code⟩ :: es')
      left) :
    es' = [] ∧ left = .ret (.code (.ok code)) ∧
      ∃ es₀ sess, es = es₀ ++ [⟨Op.createSession a.username
          (PassthroughProvider.authContext a.username a.password), sess⟩] ∧
        (∀ e ∈ es₀, ∃ r, e.1 = Op.probe r) ∧ grant = grantOf cfg a sess := by
  have hv : ∀ u p, Coro.Only (fun o => ∃ r, o = Op.probe r)
      (IseClient.validateCredentials cfg u p) := fun u p =>
    (IseClient.validateCredentials_only cfg u p).mono fun o ho => ⟨_, ho⟩
  obtain ⟨p', hp, rfl⟩ := Prog.path_map h
  obtain ⟨rfl, rfl, hsess⟩ := loginAndIssueCode_issues hv hp
  exact ⟨rfl, rfl, hsess⟩

/-! ## Runs -/

section

variable {cfg : Config} {env : Env} {moves : List (Move OAuthCall)}

theorem oauthRun_path {i : Nat} {call : OAuthCall} {left : Prog Ise OAuthReply}
    (h : (oauthRun cfg env moves).tasks[i]? = some ⟨call, left⟩) :
    Prog.Path (call.program cfg) (eventsOf (oauthRun cfg env moves).log i) left :=
  run_path h

theorem oauthRun_task {e : Entry Ise World} (he : e ∈ (oauthRun cfg env moves).log) :
    ∃ call left, (oauthRun cfg env moves).tasks[e.task]? = some ⟨call, left⟩ :=
  let ⟨⟨call, left⟩, ht⟩ := run_task he
  ⟨call, left, ht⟩

/-- An exchange that has made a step is one of an authenticated client, and the answer to the step
decides it. -/
theorem exchange_answered {e : Entry Ise World} {a : ExchangeArgs} {left : Prog Ise OAuthReply}
    (he : e ∈ (oauthRun cfg env moves).log)
    (ht : (oauthRun cfg env moves).tasks[e.task]? = some ⟨.exchange a, left⟩) :
    clientOk cfg a.clientId a.clientSecret = .ok true ∧
      ∃ x, e.event = ⟨.popCode a.code, x⟩ ∧ left = .ret (.token (redeem cfg a x)) := by
  have hmem : e.event ∈ eventsOf (oauthRun cfg env moves).log e.task :=
    mem_eventsOf.mpr ⟨e, he, rfl, rfl⟩
  rcases exchange_path (oauthRun_path ht) with ⟨_, hes, _⟩ | ⟨_, hes, _⟩ | ⟨hc, x, hes, hr⟩
  · rw [hes] at hmem
    simp at hmem
  · rw [hes] at hmem
    simp at hmem
  · rw [hes, List.mem_singleton] at hmem
    exact ⟨hc, x, hmem, hr⟩

/-- The only step of an exchange is to pop its code, for an authenticated client. -/
theorem exchange_entry {e : Entry Ise World} {a : ExchangeArgs} {left : Prog Ise OAuthReply}
    (he : e ∈ (oauthRun cfg env moves).log)
    (ht : (oauthRun cfg env moves).tasks[e.task]? = some ⟨.exchange a, left⟩) :
    clientOk cfg a.clientId a.clientSecret = .ok true ∧ e.event.1 = .popCode a.code := by
  obtain ⟨hc, x, hevent, _⟩ := exchange_answered he ht
  exact ⟨hc, congrArg Sigma.fst hevent⟩

/-- Whoever issued a code is a login that returned it, after it created the session the code
stands for. -/
theorem issue_entry {pre post : OAuthLog} {e : Entry Ise World} {grant : CodeGrant}
    {code : String} (hlog : (oauthRun cfg env moves).log = pre ++ e :: post)
    (hev : e.event = ⟨Op.issueCode grant, code⟩) :
    ∃ login, (oauthRun cfg env moves).tasks[e.task]?
        = some ⟨.login login, .ret (.code (.ok code))⟩ ∧
      ∃ es₀ sess, eventsOf pre e.task = es₀ ++ [⟨Op.createSession login.username
          (PassthroughProvider.authContext login.username login.password), sess⟩] ∧
        (∀ ev ∈ es₀, ∃ r, ev.1 = Op.probe r) ∧ grant = grantOf cfg login sess := by
  have he : e ∈ (oauthRun cfg env moves).log := by
    rw [hlog]
    simp
  obtain ⟨call, left, ht⟩ := oauthRun_task he
  cases call with
  | login a =>
      have hpath := oauthRun_path ht
      rw [hlog, eventsOf_append, eventsOf_cons_self, hev] at hpath
      obtain ⟨_, rfl, hsess⟩ := login_path hpath
      exact ⟨a, ht, hsess⟩
  | exchange a =>
      have := (exchange_entry he ht).2
      rw [hev] at this
      cases this

/-- Of two positions in a list, one is before the other or they are the same. -/
theorem mem_or_mem_or_eq {α : Type} {l₁ l₂ r₁ r₂ : List α} {a b : α}
    (h : l₁ ++ a :: r₁ = l₂ ++ b :: r₂) : a ∈ l₂ ∨ b ∈ l₁ ∨ a = b := by
  rcases List.append_eq_append_iff.mp h with ⟨m, rfl, hm⟩ | ⟨m, rfl, hm⟩
  · cases m with
    | nil => exact Or.inr (Or.inr (List.cons.inj hm).1)
    | cons x m => exact Or.inl (by rw [(List.cons.inj hm).1]; simp)
  · cases m with
    | nil => exact Or.inr (Or.inr (List.cons.inj hm).1.symm)
    | cons x m => exact Or.inr (Or.inl (by rw [(List.cons.inj hm).1]; simp))

end

/-- The configured client `cid` with secret `sec`. -/
def sampleConfig : Config :=
  { Config.default with iseBaseUrl := "https://ise", oauthClientId := "cid",
                        oauthClientSecret := "sec" }

/-- One second a step, tokens `a`, `aa`, ..., and every probe answered 200. -/
def sampleEnv : Env where
  now := fun n => n
  token := fun n => ⟨.ofList (List.replicate (n + 1) 'a'), by simp [String.ofList_eq_empty_iff], by
    rw [String.toList_ofList]
    intro c hc
    rw [(List.mem_replicate.mp hc).2]
    decide⟩
  outcome := fun _ => .response ⟨200, none, false, "", .ok .none⟩

theorem sampleEnv_fresh : Function.Injective fun n => (sampleEnv.token n).text := by
  intro m n h
  have := congrArg (fun s : String => s.toList.length) h
  simpa [sampleEnv] using this

def sampleExchange : ExchangeArgs :=
  ⟨some (sampleEnv.token 5).text, some "https://cb", some "cid", some "sec", none⟩

end IseMcp
