import IseMcp.Ise.Alike
import IseMcp.Ise.Attempts

set_option autoImplicit false

/-! # The retry loop

`request` runs `while True` with one counter for three kinds of retry. `requestWhile` is this loop
with a bound on its rounds; four are always enough, and it is then the loop of the model
(`requestWhile_eq`). Against an infinite stream of outcomes the loop sends up to the first outcome
that is not retried, but at most four times (`retry_loop_spec`). -/

namespace IseMcp

open Python Interaction

namespace IseClient

/-! ## The loop as it is written -/

/-- `while True`, with the counter before the round; given up after `fuel` rounds. -/
def requestWhile (cfg : Config) (h : HttpRequest) (parse : Parse) :
    Nat → Nat → Io (Option PyVal)
  | 0, _ => pure none
  | fuel + 1, attempt => do
      let attempt := attempt + 1
      match ← send h with
      | .raised e => throw e
      | .transportError message =>
          if attempt ≤ maxRetries then do
            backoff attempt none
            requestWhile cfg h parse fuel attempt
          else throw (exc .iseApiError ("ISE transport error: " ++ message))
      | .response resp => do
          log (.iseRequest h.method h.url resp.status)
          if resp.status = 429 then
            if cfg.rateLimitWait ∧ attempt ≤ maxRetries then do
              backoff attempt resp.retryAfter
              requestWhile cfg h parse fuel attempt
            else throw ⟨.rateLimitError, "ISE rate limit exceeded", none, some 429⟩
          else if resp.status ∈ transient ∧ attempt ≤ maxRetries then do
            backoff attempt none
            requestWhile cfg h parse fuel attempt
          else some <$> Coro.ofExcept (handleResponse resp parse)

/-- `request` with this loop. -/
def requestWithin (cfg : Config) (r : IseRequest) (fuel : Nat) : Io (Option PyVal) := do
  invoke r
  let auth ← Coro.ofExcept r.auth.basicAuth
  requestWhile cfg (httpRequest r auth) r.parse fuel 0

variable {cfg : Config} {h : HttpRequest} {parse : Parse}

/-- A round with retries left. -/
theorem requestWhile_again {fuel attempt : Nat} {next : Io PyVal} (hle : attempt + 1 ≤ maxRetries)
    (hnext : requestWhile cfg h parse fuel (attempt + 1) = some <$> next) :
    requestWhile cfg h parse (fuel + 1) attempt
      = some <$> requestOnce cfg h parse (attempt + 1) (some next) := by
  rw [requestWhile, requestOnce, map_bind]
  refine congrArg _ (funext fun outcome => ?_)
  cases outcome with
  | raised e => rfl
  | transportError message =>
      dsimp only
      rw [if_pos hle, hnext, map_bind]
  | response resp =>
      dsimp only
      rw [map_bind]
      refine congrArg _ (funext fun _ => ?_)
      by_cases hlimit : resp.status = 429
      · rw [if_pos hlimit, if_pos hlimit]
        cases cfg.rateLimitWait with
        | false => rfl
        | true =>
            rw [if_pos ⟨rfl, hle⟩, hnext]
            dsimp only
            rw [map_bind]
      · rw [if_neg hlimit, if_neg hlimit]
        by_cases ht : resp.status ∈ transient
        · rw [if_pos ⟨ht, hle⟩, hnext, decide_eq_true ht]
          dsimp only
          rw [map_bind]
        · rw [if_neg fun h => ht h.1, decide_eq_false ht]

/-- The round after which there is none. -/
theorem requestWhile_last {fuel attempt : Nat} (hlt : maxRetries < attempt + 1) :
    requestWhile cfg h parse (fuel + 1) attempt
      = some <$> requestOnce cfg h parse (attempt + 1) none := by
  have hle : ¬ attempt + 1 ≤ maxRetries := by omega
  rw [requestWhile, requestOnce, map_bind]
  refine congrArg _ (funext fun outcome => ?_)
  cases outcome with
  | raised e => rfl
  | transportError message =>
      dsimp only
      rw [if_neg hle]
      rfl
  | response resp =>
      dsimp only
      rw [map_bind]
      refine congrArg _ (funext fun _ => ?_)
      by_cases hlimit : resp.status = 429
      · rw [if_pos hlimit, if_pos hlimit, if_neg fun h => hle h.2]
        cases cfg.rateLimitWait <;> rfl
      · rw [if_neg hlimit, if_neg hlimit, if_neg fun h => hle h.2]
        cases decide (resp.status ∈ transient) <;> rfl

/-- **Four rounds are enough**: with any further ones the loop is the same. -/
theorem requestWhile_eq (extra : Nat) {left attempt : Nat} (hsum : attempt + left = maxRetries) :
    requestWhile cfg h parse (extra + left + 1) attempt
      = some <$> requestLoop cfg h parse left := by
  induction left generalizing attempt with
  | zero =>
      rw [requestLoop, ← hsum]
      exact requestWhile_last (by omega)
  | succ left ih =>
      have hattempt : maxRetries - left = attempt + 1 := by omega
      rw [requestLoop, hattempt]
      exact requestWhile_again (by omega) (ih (by omega))

theorem requestWithin_eq (cfg : Config) (r : IseRequest) (extra : Nat) :
    requestWithin cfg r (extra + maxRetries + 1) = some <$> request cfg r := by
  rw [requestWithin, request, map_bind]
  refine congrArg _ (funext fun _ => ?_)
  rw [map_bind]
  exact congrArg _ (funext fun auth => requestWhile_eq extra (Nat.zero_add maxRetries))

/-! ## Streams of outcomes -/

/-- The machine whose `n`-th send ends with the `n`-th outcome of a stream; it answers anything else
as the server's machine does. -/
def serveStream (outcomes : Nat → HttpOutcome) (env : Env) :
    World × Nat → (o : Op) → o.Ans × (World × Nat)
  | (w, n), .send r => (outcomes n, ((serve env w (.send r)).2, n + 1))
  | (w, n), o => ((serve env w o).1, ((serve env w o).2, n))

/-- A run against a stream is answered by its outcomes in order. -/
theorem attempts_stream {α : Type} (outcomes : Nat → HttpOutcome) (env : Env) (p : Prog Ise α)
    (w : World) (n : Nat) :
    ∃ k, attempts (Prog.events (serveStream outcomes env) p (w, n))
      = (List.range k).map fun i => outcomes (n + i) := by
  induction p generalizing w n with
  | ret a => exact ⟨0, rfl⟩
  | call o cont ih =>
      by_cases hsend : ∃ r, o = .send r
      · obtain ⟨r, rfl⟩ := hsend
        obtain ⟨k, hk⟩ := ih (outcomes n) (serve env w (.send r)).2 (n + 1)
        have hshift : ∀ i, outcomes (n + 1 + i) = outcomes (n + (i + 1)) := by
          intro i
          rw [Nat.add_assoc, Nat.add_comm 1]
        refine ⟨k + 1, ?_⟩
        calc attempts (Prog.events (serveStream outcomes env) (.call (.send r) cont) (w, n))
            = outcomes n :: attempts (Prog.events (serveStream outcomes env) (cont (outcomes n))
                ((serve env w (.send r)).2, n + 1)) := rfl
          _ = outcomes n :: (List.range k).map fun i => outcomes (n + 1 + i) := by rw [hk]
          _ = outcomes n :: (List.range k).map fun i => outcomes (n + (i + 1)) := by
              simp only [hshift]
          _ = (List.range (k + 1)).map fun i => outcomes (n + i) := by
              rw [List.range_succ_eq_map, List.map_cons, List.map_map]
              rfl
      · have hne : ∀ r, o ≠ .send r := fun r hr => hsend ⟨r, hr⟩
        have hstep : (serveStream outcomes env (w, n) o).2 = ((serve env w o).2, n) := by
          cases o with
          | send r => exact absurd rfl (hne r)
          | _ => rfl
        rw [Prog.events, attempts_cons_of_ne (e := ⟨o, _⟩) hne, hstep]
        exact ih _ _ n

/-- The number, from one on, of the first outcome that is not retried. -/
noncomputable def firstSettled (cfg : Config) (outcomes : Nat → HttpOutcome) : ℕ∞ :=
  ⨅ (n : ℕ) (_ : retried cfg (outcomes n) = false), ((n : ℕ∞) + 1)

/-- The loop stops there, or after all its retries. -/
theorem sends_eq_min {outcomes : Nat → HttpOutcome} {k : Nat} (hle : k ≤ maxRetries)
    (hearlier : ∀ i < k, retried cfg (outcomes i) = true)
    (hlast : retried cfg (outcomes k) = true → k = maxRetries) :
    ((k + 1 : ℕ) : ℕ∞) = min 4 (firstSettled cfg outcomes) := by
  have hbound : ∀ n, retried cfg (outcomes n) = false → k ≤ n := by
    intro n hn
    by_contra hlt
    rw [hearlier n (by omega)] at hn
    cases hn
  have hge : ((k + 1 : ℕ) : ℕ∞) ≤ firstSettled cfg outcomes := by
    refine le_iInf fun n => le_iInf fun hn => ?_
    exact_mod_cast Nat.succ_le_succ (hbound n hn)
  have hfour : ((k + 1 : ℕ) : ℕ∞) ≤ 4 := by
    exact_mod_cast Nat.succ_le_succ hle
  refine le_antisymm (le_min hfour hge) ?_
  cases hretried : retried cfg (outcomes k) with
  | true =>
      rw [hlast hretried]
      exact min_le_left _ _
  | false =>
      calc min 4 (firstSettled cfg outcomes)
          ≤ firstSettled cfg outcomes := min_le_right _ _
        _ ≤ ⨅ _ : retried cfg (outcomes k) = false, ((k : ℕ∞) + 1) := iInf_le _ k
        _ ≤ (k : ℕ∞) + 1 := iInf_le _ hretried
        _ = ((k + 1 : ℕ) : ℕ∞) := (Nat.cast_succ k).symm

/-- **The retry loop against a stream of outcomes.** Four rounds of the loop are enough. With usable
credentials `request` sends the same HTTP request as often as the first outcome that is not retried
says, at most four times, and its result is made of the outcome of the last send alone. -/
theorem retry_loop_spec (cfg : Config) (r : IseRequest) (outcomes : Nat → HttpOutcome) (env : Env)
    (w : World) :
    let es := Prog.events (serveStream outcomes env) (request cfg r).run (w, 0)
    let out := (Prog.exec (serveStream outcomes env) (request cfg r).run (w, 0)).1
    (∀ extra, requestWithin cfg r (extra + 4) = some <$> request cfg r) ∧
    match r.auth.basicAuth with
    | .error e => attempts es = [] ∧ out = .error e
    | .ok auth => ∃ k : ℕ, ((k + 1 : ℕ) : ℕ∞) = min 4 (firstSettled cfg outcomes) ∧
        attempts es = (List.range (k + 1)).map outcomes ∧
        (∀ ev ∈ es, ∀ h, ev.1 = .send h → h = httpRequest r auth) ∧
        out = settle r.parse (outcomes k) := by
  intro es out
  refine ⟨requestWithin_eq cfg r, ?_⟩
  have hpath : Prog.Path (request cfg r).run es (.ret out) := Prog.path_exec _ _ _
  cases hauth : r.auth.basicAuth with
  | error e => exact request_refused hauth hpath
  | ok auth =>
      obtain ⟨earlier, last, hes, hlen, hearlier, hlast, hout⟩ := request_settles hauth hpath
      obtain ⟨n, hn⟩ := attempts_stream outcomes env (request cfg r).run w 0
      have hstream : attempts es = (List.range n).map outcomes := by
        simpa only [Nat.zero_add] using hn
      have hcount : n = earlier.length + 1 := by
        have h := congrArg List.length (hstream.symm.trans hes)
        simpa using h
      -- the last outcome of the stream that was used is the one settled
      have hsplit : (List.range earlier.length).map outcomes ++ [outcomes earlier.length]
          = earlier ++ [last] := by
        rw [← hes, hstream, hcount, List.range_succ, List.map_append, List.map_singleton]
      obtain ⟨hmap, hend⟩ := List.append_inj' hsplit rfl
      obtain rfl : outcomes earlier.length = last := by simpa using hend
      refine ⟨earlier.length, sends_eq_min hlen (fun i hi => ?_) hlast, ?_, ?_, hout⟩
      · refine hearlier _ ?_
        rw [← hmap]
        exact List.mem_map_of_mem (List.mem_range.mpr hi)
      · rw [hstream, hcount]
      · intro ev hev h hsend
        have hof := (request_only cfg r).mem_events hev
        rw [hsend] at hof
        cases hof with
        | send hauth' =>
            rw [hauth] at hauth'
            cases hauth'
            rfl

end IseClient

end IseMcp
