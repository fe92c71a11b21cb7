import IseMcp.Interaction.Relational
import IseMcp.Ise.Client

set_option autoImplicit false

/-! # Up to the password

Callers, operations and states that differ in ISE passwords only. Operations alike are answered
alike by states alike (`serve_alike`), and a request to ISE for one of two callers alike is in step
with the same request for the other (`request_sim`). What a request may do (`request_only`) is the
case of one caller. -/

namespace IseMcp

open Python Interaction

/-! ## Callers and operations -/

/-- The same caller, up to the password. -/
structure AuthContext.Alike (a a' : AuthContext) : Prop where
  username : a.username = a'.username
  mode : a.mode = a'.mode
  encoded : a.encoded = a'.encoded

theorem AuthContext.Alike.refl (a : AuthContext) : a.Alike a := ⟨rfl, rfl, rfl⟩

/-- The Basic pairs of callers alike have the same user name. -/
theorem basicAuth_alike {a a' : AuthContext} (h : a.Alike a') :
    ExRel (fun pair pair' => pair.1 = pair'.1) a.basicAuth a'.basicAuth := by
  unfold AuthContext.basicAuth
  rw [← h.encoded]
  split_ifs
  · cases (Text.b64decode a.encoded).bind Text.utf8Decode with
    | none => exact .error _
    | some pair => exact .ok rfl
  · exact .ok h.username

def Session.Alike (s s' : Session) : Prop :=
  ∃ auth', s.auth.Alike auth' ∧ s' = { s with auth := auth' }

/-- The same operation, up to the passwords in it. -/
inductive Op.Alike : Op → Op → Prop where
  | invoke (r : IseRequest) {auth' : AuthContext} (h : r.auth.Alike auth') :
      Alike (.invoke r) (.invoke { r with auth := auth' })
  | send (h : HttpRequest) (password : String) :
      Alike (.send h) (.send { h with auth := (h.auth.1, password) })
  | backoff (attempt : Nat) (retryAfter : Option String) :
      Alike (.backoff attempt retryAfter) (.backoff attempt retryAfter)
  | probe (h : HttpRequest) (password : String) :
      Alike (.probe h) (.probe { h with auth := (h.auth.1, password) })
  | createSession (username : String) {auth auth' : AuthContext} (h : auth.Alike auth') :
      Alike (.createSession username auth) (.createSession username auth')
  | getSession (sid : Option String) : Alike (.getSession sid) (.getSession sid)
  | deleteSession (sid : Option String) : Alike (.deleteSession sid) (.deleteSession sid)
  | issueCode (grant : CodeGrant) : Alike (.issueCode grant) (.issueCode grant)
  | popCode (code : Option String) : Alike (.popCode code) (.popCode code)
  | audit (rec : AuditRecord) : Alike (.audit rec) (.audit rec)
  | log (rec : LogRecord) : Alike (.log rec) (.log rec)

/-- Answers alike: sessions up to the password, and every other answer is the same. -/
def Op.AnsAlike : AnsRel Ise
  | .invoke _, .invoke _ => fun _ _ => True
  | .send _, .send _ => fun x x' => x = x'
  | .backoff _ _, .backoff _ _ => fun _ _ => True
  | .probe _, .probe _ => fun x x' => x = x'
  | .createSession _ _, .createSession _ _ => Session.Alike
  | .getSession _, .getSession _ => Option.Rel Session.Alike
  | .deleteSession _, .deleteSession _ => fun x x' => x = x'
  | .issueCode _, .issueCode _ => fun x x' => x = x'
  | .popCode _, .popCode _ => fun x x' => x = x'
  | .audit _, .audit _ => fun _ _ => True
  | .log _, .log _ => fun _ _ => True
  | _, _ => fun _ _ => False

theorem Session.Alike.refl (s : Session) : s.Alike s := ⟨s.auth, .refl _, rfl⟩

/-- Every answer has one that is alike. -/
theorem ansAlike_total {o o' : Op} (h : o.Alike o') (x : o.Ans) :
    ∃ x' : o'.Ans, Op.AnsAlike o o' x x' := by
  cases h with
  | createSession username h => exact ⟨x, Session.Alike.refl x⟩
  | getSession sid =>
      refine ⟨x, ?_⟩
      rcases (x : Option Session) with _ | sess
      · exact Option.Rel.none
      · exact Option.Rel.some (.refl sess)
  | send _ _ => exact ⟨x, rfl⟩
  | probe _ _ => exact ⟨x, rfl⟩
  | deleteSession _ => exact ⟨x, rfl⟩
  | issueCode _ => exact ⟨x, rfl⟩
  | popCode _ => exact ⟨x, rfl⟩
  | invoke _ _ => exact ⟨x, trivial⟩
  | backoff _ _ => exact ⟨x, trivial⟩
  | audit _ => exact ⟨x, trivial⟩
  | log _ => exact ⟨x, trivial⟩

/-! ## States -/

/-- The same sessions under the same ids, up to the passwords. -/
structure SessionStore.Alike (st st' : SessionStore) : Prop where
  ttl : st.ttl = st'.ttl
  idle : st.idle = st'.idle
  lookup : ∀ sid, Option.Rel Session.Alike (st.lookup sid) (st'.lookup sid)

structure World.Alike (w w' : World) : Prop where
  steps : w.steps = w'.steps
  store : w.store.Alike w'.store
  codes : w.codes = w'.codes

namespace SessionStore.Alike

variable {st st' : SessionStore}

theorem create (h : st.Alike st') (now : Time) (sid username : String) {auth auth' : AuthContext}
    (hauth : auth.Alike auth') :
    (st.create now sid username auth).1.Alike (st'.create now sid username auth').1 ∧
      (st.create now sid username auth).2.Alike (st'.create now sid username auth').2 := by
  have hsess : (st.create now sid username auth).1.Alike (st'.create now sid username auth').1 :=
    ⟨auth', hauth, by simp [SessionStore.create, h.ttl, h.idle]⟩
  refine ⟨hsess, h.ttl, h.idle, fun sid' => ?_⟩
  by_cases hid : sid' = sid
  · subst hid
    rw [lookup_create_self, lookup_create_self]
    exact .some hsess
  · rw [lookup_create_ne _ _ _ _ hid, lookup_create_ne _ _ _ _ hid]
    exact h.lookup sid'

theorem get (h : st.Alike st') (now : Time) (sid : Option String) :
    Option.Rel Session.Alike (st.get now sid).1 (st'.get now sid).1 ∧
      (st.get now sid).2.Alike (st'.get now sid).2 := by
  have hans : Option.Rel Session.Alike (st.get now sid).1 (st'.get now sid).1 := by
    rcases sid with _ | sid
    · exact .none
    · by_cases hempty : sid = ""
      · subst hempty
        exact .none
      · rw [get_fst st now hempty, get_fst st' now hempty]
        rcases hs : st.lookup sid with _ | s <;> rcases hs' : st'.lookup sid with _ | s' <;>
          have hrel := h.lookup sid <;> rw [hs, hs'] at hrel
        · exact .none
        · cases hrel
        · cases hrel
        · -- whether the session has expired does not depend on its password
          cases hrel with
          | some hsess =>
              obtain ⟨auth', hauth, rfl⟩ := hsess
              show Option.Rel _ (if s.isExpired now then none else _)
                (if s.isExpired now then none else _)
              split_ifs
              · exact .none
              · exact .some ⟨auth', hauth, rfl⟩
  refine ⟨hans, ?_, ?_, fun sid' => ?_⟩
  · rw [(st.get_limits now sid).1, (st'.get_limits now sid).1, h.ttl]
  · rw [(st.get_limits now sid).2, (st'.get_limits now sid).2, h.idle]
  · by_cases hid : sid = some sid'
    · subst hid
      by_cases hempty : sid' = ""
      · subst hempty
        exact h.lookup ""
      · rw [lookup_get_self st now hempty, lookup_get_self st' now hempty]
        exact hans
    · rw [lookup_get_ne st now hid, lookup_get_ne st' now hid]
      exact h.lookup sid'

theorem delete (h : st.Alike st') (sid : Option String) :
    (st.delete sid).1 = (st'.delete sid).1 ∧ (st.delete sid).2.Alike (st'.delete sid).2 := by
  refine ⟨?_, ?_, ?_, fun sid' => ?_⟩
  · rcases sid with _ | sid
    · rfl
    · have hsome : (st.lookup sid).isSome = (st'.lookup sid).isSome := by
        rcases hs : st.lookup sid with _ | s <;> rcases hs' : st'.lookup sid with _ | s' <;>
          have hrel := h.lookup sid <;> rw [hs, hs'] at hrel <;> first | rfl | cases hrel
      simp only [SessionStore.delete]
      split_ifs
      · rfl
      · exact hsome
  · rw [(st.delete_limits sid).1, (st'.delete_limits sid).1, h.ttl]
  · rw [(st.delete_limits sid).2, (st'.delete_limits sid).2, h.idle]
  · by_cases hid : sid = some sid'
    · subst hid
      by_cases hempty : sid' = ""
      · subst hempty
        exact h.lookup ""
      · rw [lookup_delete_self st hempty, lookup_delete_self st' hempty]
        exact .none
    · rw [lookup_delete_ne st hid, lookup_delete_ne st' hid]
      exact h.lookup sid'

end SessionStore.Alike

/-- **States alike answer operations alike**, and stay alike. -/
theorem serve_alike (env : Env) {w w' : World} {o o' : Op} (hw : w.Alike w') (ho : o.Alike o') :
    Op.AnsAlike o o' (serve env w o).1 (serve env w' o').1 ∧
      (serve env w o).2.Alike (serve env w' o').2 := by
  obtain ⟨steps, store, codes⟩ := w
  obtain ⟨steps', store', codes'⟩ := w'
  obtain ⟨rfl, hstore, rfl⟩ : steps = steps' ∧ store.Alike store' ∧ codes = codes' :=
    ⟨hw.steps, hw.store, hw.codes⟩
  cases ho with
  | createSession username h =>
      obtain ⟨hans, hnext⟩ := hstore.create (env.now steps) (env.token steps).text username h
      exact ⟨hans, rfl, hnext, rfl⟩
  | getSession sid =>
      obtain ⟨hans, hnext⟩ := hstore.get (env.now steps) sid
      exact ⟨hans, rfl, hnext, rfl⟩
  | deleteSession sid =>
      obtain ⟨hans, hnext⟩ := hstore.delete sid
      exact ⟨hans, rfl, hnext, rfl⟩
  | invoke _ _ => exact ⟨trivial, rfl, hstore, rfl⟩
  | send _ _ => exact ⟨rfl, rfl, hstore, rfl⟩
  | backoff _ _ => exact ⟨trivial, rfl, hstore, rfl⟩
  | probe _ _ => exact ⟨rfl, rfl, hstore, rfl⟩
  | issueCode _ => exact ⟨rfl, rfl, hstore, rfl⟩
  | popCode _ => exact ⟨rfl, rfl, hstore, rfl⟩
  | audit _ => exact ⟨trivial, rfl, hstore, rfl⟩
  | log _ => exact ⟨trivial, rfl, hstore, rfl⟩

/-! ## Requests to ISE -/

namespace IseClient

section

variable {R : Op → Op → Prop} {cfg : Config} {h : HttpRequest} {password : String} {parse : Parse}

theorem requestOnce_sim {attempt : Nat} {again again' : Option (Io PyVal)}
    (hsend : R (.send h) (.send { h with auth := (h.auth.1, password) }))
    (hbackoff : ∀ a ra, R (.backoff a ra) (.backoff a ra)) (hlog : ∀ rec, R (.log rec) (.log rec))
    (hagain : Option.Rel (Coro.Sim (S := Ise) R Op.AnsAlike Eq) again again') :
    Coro.Sim (S := Ise) R Op.AnsAlike Eq (requestOnce cfg h parse attempt again)
      (requestOnce cfg { h with auth := (h.auth.1, password) } parse attempt again') := by
  refine Coro.sim_bind_eq (Coro.sim_op (S := Ise) (.send h) (.send _) hsend) fun outcome => ?_
  have hwait : ∀ ra (next next' : Io PyVal), Coro.Sim (S := Ise) R Op.AnsAlike Eq next next' →
      Coro.Sim (S := Ise) R Op.AnsAlike Eq (do backoff attempt ra; next)
        (do backoff attempt ra; next') := fun ra next next' hnext =>
    Coro.sim_bind (Coro.sim_op (S := Ise) (.backoff _ _) (.backoff _ _) (hbackoff _ _)) fun _ _ _ => hnext
  cases outcome with
  | raised e => exact Coro.sim_throw e
  | transportError message =>
      cases hagain with
      | none => exact Coro.sim_throw _
      | some hnext => exact hwait _ _ _ hnext
  | response resp =>
      refine Coro.sim_bind (Coro.sim_op (S := Ise) (.log _) (.log _) (hlog _)) fun _ _ _ => ?_
      split_ifs
      · cases hagain with
        | none => cases cfg.rateLimitWait <;> exact Coro.sim_throw _
        | some hnext =>
            cases cfg.rateLimitWait with
            | false => exact Coro.sim_throw _
            | true => exact hwait _ _ _ hnext
      · cases hagain with
        | none => cases decide (resp.status ∈ transient) <;> exact Coro.sim_ofExcept_eq _
        | some hnext =>
            cases decide (resp.status ∈ transient) with
            | false => exact Coro.sim_ofExcept_eq _
            | true => exact hwait _ _ _ hnext

theorem requestLoop_sim
    (hsend : R (.send h) (.send { h with auth := (h.auth.1, password) }))
    (hbackoff : ∀ a ra, R (.backoff a ra) (.backoff a ra)) (hlog : ∀ rec, R (.log rec) (.log rec))
    (left : Nat) :
    Coro.Sim (S := Ise) R Op.AnsAlike Eq (requestLoop cfg h parse left)
      (requestLoop cfg { h with auth := (h.auth.1, password) } parse left) := by
  induction left with
  | zero => exact requestOnce_sim hsend hbackoff hlog .none
  | succ left ih => exact requestOnce_sim hsend hbackoff hlog (.some ih)

end

/-- **A request for callers alike**: its operations are those of the request, and alike. -/
theorem request_sim (cfg : Config) (r : IseRequest) {auth' : AuthContext}
    (hauth : r.auth.Alike auth') :
    Coro.Sim (S := Ise) (fun o o' => OfRequest r o ∧ o.Alike o') Op.AnsAlike Eq (request cfg r)
      (request cfg { r with auth := auth' }) := by
  refine Coro.sim_bind (Coro.sim_op (S := Ise) (.invoke r) (.invoke _) ⟨.invoke, .invoke r hauth⟩)
    fun _ _ _ => ?_
  refine Coro.sim_bind (Coro.sim_ofExcept (basicAuth_alike hauth).eq_left) fun pair pair' h => ?_
  obtain ⟨hbasic, huser⟩ := h
  have hrequest : httpRequest { r with auth := auth' } pair'
      = { httpRequest r pair with auth := (pair.1, pair'.2) } := by
    rw [huser]
    rfl
  rw [hrequest]
  exact requestLoop_sim ⟨.send hbasic, .send _ _⟩ (fun a ra => ⟨.backoff a ra, .backoff a ra⟩)
    (fun rec => ⟨.log rec, .log rec⟩) maxRetries

/-- A request does nothing else. -/
theorem request_only (cfg : Config) (r : IseRequest) :
    Coro.Only (OfRequest r) (request cfg r) :=
  (request_sim cfg r (.refl r.auth)).only (fun _ _ ho => ho.1) fun _ _ ho => ansAlike_total ho.2

end IseClient

end IseMcp
