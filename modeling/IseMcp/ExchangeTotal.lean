import IseMcp.AuthorizationCode

set_option autoImplicit false

/-! # When the token exchange answers

`exchange_code` and `refresh` compare strings with `compare_digest`, which raises on strings that
are not ASCII. The client's id and secret come from the request, the challenge from an earlier
login, and the challenge is compared after the code was popped, with the digest of a verifier that
has to be encoded first. `exchange_answers_iff` states for every reachable state which calls return,
and which of the others take a code with them. -/

namespace IseMcp

open Python Interaction OAuthServer

/-! ## Comparisons -/

/-- `client_ok` can make its comparisons: there are none, or they are of ASCII strings. The secrets
are compared if the ids agree. -/
def ClientComparable (cfg : Config) (clientId clientSecret : Option String) : Prop :=
  ∀ cid csec, clientId = some cid → clientSecret = some csec → cid ≠ "" → csec ≠ "" →
    isAscii cid = true ∧ isAscii cfg.oauthClientId = true ∧
      (cid = cfg.oauthClientId →
        isAscii csec = true ∧ isAscii cfg.oauthClientSecret = true)

/-- `_pkce_ok` can encode the verifier and compare the challenge of a record that is this caller's,
if it comes to that. -/
def ChallengeComparable (rec : CodeGrant) (a : ExchangeArgs) : Prop :=
  a.clientId = some rec.clientId → a.redirectUri = some rec.redirectUri → rec.challenge ≠ "" →
    ∀ v, a.verifier = some v → v ≠ "" → v.Encodable ∧ isAscii rec.challenge = true

/-- A token with no error, or no token with one of the two errors. -/
def Responds (r : Except PyExc (Option BaseToken × Option String)) : Prop :=
  (∃ t, r = .ok (some t, none)) ∨ r = .ok (none, some "invalid_client") ∨
    r = .ok (none, some "invalid_grant")

theorem compareDigest_of_ascii {x y : String} (h : isAscii x = true ∧ isAscii y = true) :
    compareDigest x y = .ok (x == y) :=
  if_pos h

theorem compareDigest_of_not_ascii {x y : String} (h : ¬ (isAscii x = true ∧ isAscii y = true)) :
    ∃ e, compareDigest x y = .error e :=
  ⟨_, if_neg h⟩

/-- A comparison returns when both strings are ASCII. -/
theorem compareDigest_returns_iff {x y : String} :
    (∃ b, compareDigest x y = .ok b) ↔ isAscii x = true ∧ isAscii y = true := by
  constructor
  · rintro ⟨b, hb⟩
    by_contra h
    obtain ⟨e, he⟩ := compareDigest_of_not_ascii h
    rw [he] at hb
    cases hb
  · intro h
    exact ⟨_, compareDigest_of_ascii h⟩

theorem not_responds_error (e : PyExc) : ¬ Responds (.error e) := by
  rintro (⟨t, h⟩ | h | h) <;> cases h

theorem clientOk_returns_iff {cfg : Config} {clientId clientSecret : Option String} :
    (∃ b, clientOk cfg clientId clientSecret = .ok b) ↔
      ClientComparable cfg clientId clientSecret := by
  rcases clientId with _ | cid
  · exact iff_of_true ⟨false, rfl⟩ fun _ _ h => by cases h
  rcases clientSecret with _ | csec
  · exact iff_of_true ⟨false, rfl⟩ fun _ _ _ h => by cases h
  by_cases hempty : cid = "" ∨ csec = ""
  · refine iff_of_true ⟨false, if_pos hempty⟩ ?_
    rintro _ _ ⟨⟩ ⟨⟩ hid hsec
    exact absurd hempty (not_or.mpr ⟨hid, hsec⟩)
  · have hcomparable : ClientComparable cfg (some cid) (some csec) ↔
        (isAscii cid = true ∧ isAscii cfg.oauthClientId = true) ∧
          (cid = cfg.oauthClientId →
            isAscii csec = true ∧ isAscii cfg.oauthClientSecret = true) := by
      rw [not_or] at hempty
      constructor
      · intro h
        obtain ⟨hid, hcfg, hsec⟩ := h cid csec rfl rfl hempty.1 hempty.2
        exact ⟨⟨hid, hcfg⟩, hsec⟩
      · rintro ⟨⟨hid, hcfg⟩, hsec⟩ _ _ ⟨⟩ ⟨⟩ _ _
        exact ⟨hid, hcfg, hsec⟩
    rw [hcomparable]
    simp only [clientOk, if_neg hempty]
    by_cases hids : isAscii cid = true ∧ isAscii cfg.oauthClientId = true
    · rw [compareDigest_of_ascii hids, bind_of_ok rfl, and_iff_right hids]
      by_cases heq : cid = cfg.oauthClientId
      · rw [if_pos (by rw [heq, beq_self_eq_true]), compareDigest_returns_iff]
        exact ⟨fun h _ => h, fun h => h heq⟩
      · rw [if_neg (by rw [beq_iff_eq]; exact heq)]
        exact iff_of_true ⟨false, rfl⟩ fun h => absurd h heq
    · obtain ⟨e, he⟩ := compareDigest_of_not_ascii hids
      rw [he]
      exact iff_of_false (by rintro ⟨_, h⟩; cases h) fun h => hids h.1

theorem pkceOk_returns_iff {rec : CodeGrant} {verifier : Option PyStr} :
    (∃ b, pkceOk rec verifier = .ok b) ↔
      (rec.challenge ≠ "" →
        ∀ v, verifier = some v → v ≠ "" → v.Encodable ∧ isAscii rec.challenge = true) := by
  by_cases hchallenge : rec.challenge = ""
  · exact iff_of_true ⟨true, if_pos hchallenge⟩ fun h => absurd hchallenge h
  rcases verifier with _ | v
  · exact iff_of_true ⟨false, if_neg hchallenge⟩ fun _ _ h => by cases h
  by_cases hv : v = ""
  · refine iff_of_true ⟨false, (if_neg hchallenge).trans (if_pos hv)⟩ ?_
    rintro _ _ ⟨⟩ hne
    exact absurd hv hne
  · have hpkce : pkceOk rec (some v) = s256 v >>= fun digest =>
        compareDigest digest rec.challenge := (if_neg hchallenge).trans (if_neg hv)
    rw [hpkce]
    constructor
    · rintro ⟨b, hb⟩ _ _ ⟨⟩ _
      obtain ⟨digest, hdigest, hb⟩ := bind_eq_ok.mp hb
      exact ⟨s256_returns_iff.mp ⟨digest, hdigest⟩, (compareDigest_returns_iff.mp ⟨b, hb⟩).2⟩
    · intro h
      obtain ⟨hencodable, hascii⟩ := h hchallenge v rfl hv
      obtain ⟨digest, hdigest⟩ := s256_returns_iff.mpr hencodable
      rw [bind_of_ok hdigest]
      exact compareDigest_returns_iff.mpr ⟨isAscii_s256 hdigest, hascii⟩

/-! ## What the calls return -/

/-- After the pop, an exchange gives an answer or raises, as the challenge can be compared or
not. -/
theorem redeem_cases (cfg : Config) (a : ExchangeArgs) (x : Option Code) :
    (Responds (redeem cfg a x) ∧ ∀ rec, x = some rec → ChallengeComparable rec.grant a) ∨
      ((∃ e, redeem cfg a x = .error e) ∧
        ∃ rec, x = some rec ∧ ¬ ChallengeComparable rec.grant a) := by
  rcases x with _ | rec
  · exact Or.inl ⟨Or.inr (Or.inr rfl), fun _ h => by cases h⟩
  simp only [Option.some.injEq, forall_eq', exists_eq_left']
  by_cases hne : some rec.grant.clientId ≠ a.clientId ∨ some rec.grant.redirectUri ≠ a.redirectUri
  · have hredeem : redeem cfg a (some rec) = .ok (none, some "invalid_grant") := if_pos hne
    rw [hredeem]
    refine Or.inl ⟨Or.inr (Or.inr rfl), fun hc hr => ?_⟩
    exact absurd hne (by simp [hc, hr])
  · have hredeem : redeem cfg a (some rec) = (do
        if ← pkceOk rec.grant a.verifier then return (some (baseToken cfg rec.grant), none)
        else return (none, some "invalid_grant")) := if_neg hne
    rw [not_or, not_not, not_not] at hne
    have hcomparable : ChallengeComparable rec.grant a ↔
        ∃ b, pkceOk rec.grant a.verifier = .ok b := by
      rw [pkceOk_returns_iff]
      exact ⟨fun h => h hne.1.symm hne.2.symm, fun h _ _ => h⟩
    rw [hredeem, hcomparable]
    rcases pkceOk rec.grant a.verifier with e | _ | _
    · exact Or.inr ⟨⟨e, rfl⟩, by rintro ⟨_, h⟩; cases h⟩
    · exact Or.inl ⟨Or.inr (Or.inr rfl), false, rfl⟩
    · exact Or.inl ⟨Or.inl ⟨_, rfl⟩, true, rfl⟩

theorem redeem_responds_iff {cfg : Config} {a : ExchangeArgs} {x : Option Code} :
    Responds (redeem cfg a x) ↔ ∀ rec, x = some rec → ChallengeComparable rec.grant a := by
  rcases redeem_cases cfg a x with ⟨hresponds, hall⟩ | ⟨⟨e, he⟩, rec, hrec, hnot⟩
  · exact iff_of_true hresponds hall
  · rw [he]
    exact iff_of_false (not_responds_error e) fun h => hnot (h rec hrec)

theorem redeem_raises_iff {cfg : Config} {a : ExchangeArgs} {x : Option Code} :
    (∃ e, redeem cfg a x = .error e) ↔ ∃ rec, x = some rec ∧ ¬ ChallengeComparable rec.grant a := by
  rcases redeem_cases cfg a x with ⟨hresponds, hall⟩ | ⟨hraises, hnot⟩
  · refine iff_of_false ?_ ?_
    · rintro ⟨e, he⟩
      rw [he] at hresponds
      exact not_responds_error e hresponds
    · rintro ⟨rec, hrec, hnot⟩
      exact hnot (hall rec hrec)
  · exact iff_of_true hraises hnot

theorem refresh_responds_iff {cfg : Config} {clientId clientSecret : Option String} :
    Responds (refresh cfg clientId clientSecret) ↔ ClientComparable cfg clientId clientSecret := by
  rw [← clientOk_returns_iff, refresh]
  rcases clientOk cfg clientId clientSecret with e | _ | _
  · exact iff_of_false (not_responds_error e) (by rintro ⟨_, h⟩; cases h)
  · exact iff_of_true (Or.inr (Or.inl rfl)) ⟨false, rfl⟩
  · exact iff_of_true (Or.inr (Or.inr rfl)) ⟨true, rfl⟩

/-- What an exchange does in a state. -/
theorem exec_exchangeCode (cfg : Config) (env : Env) (w : World) (a : ExchangeArgs) :
    Prog.exec (serve env) (exchangeCode cfg a).run w =
      match clientOk cfg a.clientId a.clientSecret with
      | .error e => (.error e, w)
      | .ok false => (.ok (none, some "invalid_client"), w)
      | .ok true => (redeem cfg a (w.codes.fresh (env.now w.steps) a.code),
          (serve env w (.popCode a.code)).2) := by
  unfold exchangeCode
  rw [Coro.run_ofExcept_bind]
  rcases clientOk cfg a.clientId a.clientSecret with e | _ | _ <;> rfl

/-! ## Reachable states -/

/-- The codes of a run were issued by its logins. -/
theorem code_issued {cfg : Config} {env : Env} {moves : List (Move OAuthCall)} {code : String}
    {rec : Code} (h : (oauthRun cfg env moves).world.codes.lookup code = some rec) :
    ∃ login left sess, ⟨.login login, left⟩ ∈ (oauthRun cfg env moves).tasks ∧
      rec.grant = grantOf cfg login sess := by
  -- the invariant: every record in the table has an issue in the log
  let I : OAuthLog → World → Prop := fun l w => ∀ code rec, w.codes.lookup code = some rec →
    ∃ e ∈ l, e.event = ⟨Op.issueCode rec.grant, code⟩
  have hend : I (oauthRun cfg env moves).log (oauthRun cfg env moves).world := by
    refine run_history_end (OAuthCall.program cfg) (serve env) (by simp [I, World.initial]) ?_ moves
    intro l w i o hI code rec hrec
    have hold : w.codes.lookup code = some rec → ∃ e ∈ l ++ [⟨i, w, ⟨o, (serve env w o).1⟩⟩],
        e.event = ⟨Op.issueCode rec.grant, code⟩ := by
      intro h
      obtain ⟨e, he, hev⟩ := hI code rec h
      exact ⟨e, List.mem_append_left _ he, hev⟩
    by_cases hi : ∃ g, o = .issueCode g
    · obtain ⟨g, rfl⟩ := hi
      change (w.codes.issue (env.now w.steps) (env.token w.steps).text g).lookup code
        = some rec at hrec
      by_cases hcode : code = (env.token w.steps).text
      · subst hcode
        rw [CodeTable.lookup_issue_self, Option.some.injEq] at hrec
        subst hrec
        exact ⟨_, List.mem_append_right _ List.mem_cons_self, rfl⟩
      · rw [CodeTable.lookup_issue_ne _ _ _ hcode] at hrec
        exact hold hrec
    · by_cases hp : ∃ c, o = .popCode c
      · obtain ⟨c, rfl⟩ := hp
        change (w.codes.remove c).lookup code = some rec at hrec
        by_cases hc : c = some code
        · rw [hc, CodeTable.lookup_remove_self] at hrec
          cases hrec
        · rw [CodeTable.lookup_remove_ne _ hc] at hrec
          exact hold hrec
      · rw [serve_codes (not_exists.mp hi) (not_exists.mp hp)] at hrec
        exact hold hrec
  obtain ⟨e, he, hev⟩ := hend code rec h
  obtain ⟨pre, post, hlog⟩ := List.append_of_mem he
  obtain ⟨login, htask, _, sess, _, _, hgrant⟩ := issue_entry hlog hev
  exact ⟨login, _, sess, List.mem_of_getElem? htask, hgrant⟩

/-- The call raises, and the code it presented is gone. -/
def Burns (env : Env) (cfg : Config) (w : World) (a : ExchangeArgs) : Prop :=
  (∃ e, (Prog.exec (serve env) (exchangeCode cfg a).run w).1 = .error e) ∧
    ∃ code rec, a.code = some code ∧ w.codes.lookup code = some rec ∧
      (Prog.exec (serve env) (exchangeCode cfg a).run w).2.codes.lookup code = none

theorem exchange_responds {cfg : Config} {env : Env} {w : World} {a : ExchangeArgs} :
    Responds (Prog.exec (serve env) (exchangeCode cfg a).run w).1 ↔
      ClientComparable cfg a.clientId a.clientSecret ∧
        (clientOk cfg a.clientId a.clientSecret = .ok true → ∀ rec,
          w.codes.fresh (env.now w.steps) a.code = some rec → ChallengeComparable rec.grant a) := by
  rw [exec_exchangeCode, ← clientOk_returns_iff]
  rcases clientOk cfg a.clientId a.clientSecret with e | _ | _
  · exact iff_of_false (not_responds_error e) (by rintro ⟨⟨_, h⟩, _⟩; cases h)
  · exact iff_of_true (Or.inr (Or.inl rfl)) ⟨⟨false, rfl⟩, fun h => by cases h⟩
  · refine Iff.trans redeem_responds_iff ?_
    exact ⟨fun h => ⟨⟨true, rfl⟩, fun _ => h⟩, fun h => h.2 rfl⟩

theorem burns_iff {cfg : Config} {env : Env} {w : World} {a : ExchangeArgs} :
    Burns env cfg w a ↔ clientOk cfg a.clientId a.clientSecret = .ok true ∧
      ∃ rec, w.codes.fresh (env.now w.steps) a.code = some rec ∧
        ¬ ChallengeComparable rec.grant a := by
  rw [Burns, exec_exchangeCode]
  rcases clientOk cfg a.clientId a.clientSecret with e | _ | _
  · refine iff_of_false ?_ (by rintro ⟨h, _⟩; cases h)
    rintro ⟨_, code, rec, _, hbefore, hafter⟩
    rw [hbefore] at hafter
    cases hafter
  · exact iff_of_false (by rintro ⟨⟨_, h⟩, _⟩; cases h) (by rintro ⟨h, _⟩; cases h)
  · rw [redeem_raises_iff, and_iff_right rfl]
    refine ⟨fun h => h.1, fun h => ⟨h, ?_⟩⟩
    obtain ⟨rec, hrec, _⟩ := h
    obtain ⟨⟨code, hcode, hlookup⟩, _⟩ := CodeTable.fresh_eq_some_iff.mp hrec
    refine ⟨code, rec, hcode, hlookup, ?_⟩
    show (w.codes.remove a.code).lookup code = none
    rw [hcode]
    exact CodeTable.lookup_remove_self _ _

/-- **When the token exchange answers.** In every reachable state an exchange returns a token or
one of the two errors exactly if its comparisons can be made; a refresh, if those of the client
can. A call takes a code with it without an answer exactly if the challenge is what cannot be
compared, or the verifier what cannot be encoded. Where all challenges of a run are ASCII,
comparable client credentials and a verifier without surrogates are enough. -/
theorem exchange_answers_iff (cfg : Config) (env : Env) (moves : List (Move OAuthCall))
    (a : ExchangeArgs) :
    let w := (oauthRun cfg env moves).world
    (Responds (Prog.exec (serve env) (exchangeCode cfg a).run w).1 ↔
      ClientComparable cfg a.clientId a.clientSecret ∧
        (clientOk cfg a.clientId a.clientSecret = .ok true → ∀ rec,
          w.codes.fresh (env.now w.steps) a.code = some rec → ChallengeComparable rec.grant a)) ∧
    (Responds (refresh cfg a.clientId a.clientSecret) ↔
      ClientComparable cfg a.clientId a.clientSecret) ∧
    (Burns env cfg w a ↔ clientOk cfg a.clientId a.clientSecret = .ok true ∧
      ∃ rec, w.codes.fresh (env.now w.steps) a.code = some rec ∧
        ¬ ChallengeComparable rec.grant a) ∧
    ((∀ login left, ⟨.login login, left⟩ ∈ (oauthRun cfg env moves).tasks →
        isAscii login.challenge = true) →
      ClientComparable cfg a.clientId a.clientSecret →
      (∀ v, a.verifier = some v → v.Encodable) →
        Responds (Prog.exec (serve env) (exchangeCode cfg a).run w).1) := by
  refine ⟨exchange_responds, refresh_responds_iff, burns_iff, fun hascii hclient hverifier => ?_⟩
  refine exchange_responds.mpr ⟨hclient, fun _ rec hrec _ _ _ v hv _ => ⟨hverifier v hv, ?_⟩⟩
  obtain ⟨⟨code, _, hlookup⟩, _⟩ := CodeTable.fresh_eq_some_iff.mp hrec
  obtain ⟨login, left, sess, hmem, hgrant⟩ := code_issued hlookup
  rw [hgrant]
  exact hascii login left hmem

/-- A login of alice with a challenge that is not ASCII. -/
def accentedMoves : List (Move OAuthCall) :=
  .spawn (.login ⟨"alice", "pw", "cid", "https://cb", "ise.read", "é"⟩) ::
    List.replicate 6 (.advance 0)

/-- The exchange of its code raises, and the code is gone. -/
theorem accented_challenge_burns_code :
    Burns sampleEnv sampleConfig (oauthRun sampleConfig sampleEnv accentedMoves).world
      { sampleExchange with verifier := some "v" } := by
  have hrec : (oauthRun sampleConfig sampleEnv accentedMoves).world.codes.fresh
      (sampleEnv.now (oauthRun sampleConfig sampleEnv accentedMoves).world.steps)
        (some (sampleEnv.token 5).text)
      = some ⟨⟨"cid", "https://cb", "ise.read", (sampleEnv.token 4).text, "é"⟩,
        sampleEnv.now 5⟩ := by
    with_unfolding_all rfl
  refine burns_iff.mpr ⟨rfl, _, hrec, fun h => ?_⟩
  exact absurd (h rfl rfl (by decide) "v" rfl (by decide)).2 (by decide)

/-- Where it is ASCII, a verifier with a surrogate raises, and the code is gone too. -/
example : Burns sampleEnv sampleConfig (oauthRun sampleConfig sampleEnv
      (.spawn (.login ⟨"alice", "pw", "cid", "https://cb", "ise.read", "e"⟩)
        :: List.replicate 6 (.advance 0))).world
    { sampleExchange with verifier := some ⟨[.surrogate 0]⟩ } := by
  refine burns_iff.mpr ⟨rfl, ⟨⟨"cid", "https://cb", "ise.read", (sampleEnv.token 4).text, "e"⟩,
    sampleEnv.now 5⟩, by with_unfolding_all rfl, fun h => ?_⟩
  exact absurd (h rfl rfl (by decide) ⟨[.surrogate 0]⟩ rfl (by decide)).1 (by decide)

end IseMcp
