import IseMcp.Interaction.Interleave

set_option autoImplicit false

/-! # Without the others

Some tasks of a run are ours. If a relation between two machines is kept by our calls, which both
machines answer alike, and by the calls that the others make at the first machine alone, then our
tasks do at the second machine without the others what they did at the first with them
(`run_restrict`).
-/

namespace Interaction

variable {S : Sig} {W W' Req α : Type}

/-- The moves that are left when only our tasks advance. -/
def Move.ours (mine : Nat → Bool) : Move Req → Bool
  | .spawn _ => true
  | .advance i => mine i

/-- Our tasks are where they were, and have made the same calls with the same answers. -/
structure SameFor (mine : Nat → Bool) (s : Sys S W Req α) (s' : Sys S W' Req α) : Prop where
  count : s'.tasks.length = s.tasks.length
  tasks : ∀ i, mine i = true → s'.tasks[i]? = s.tasks[i]?
  events : ∀ i, mine i = true → eventsOf s'.log i = eventsOf s.log i

section

variable {program : Req → Prog S α} {serve : W → (o : S.Op) → S.Ans o × W}
  {serve' : W' → (o : S.Op) → S.Ans o × W'} {mine : Nat → Bool} {s : Sys S W Req α}
  {s' : Sys S W' Req α}

theorem SameFor.spawn (h : SameFor mine s s') (r : Req) :
    SameFor mine (Sys.move program serve s (.spawn r)) (Sys.move program serve' s' (.spawn r)) where
  count := by
    show (s'.tasks ++ [_]).length = (s.tasks ++ [_]).length
    rw [List.length_append, List.length_append, h.count]
  tasks i hi := by
    show (s'.tasks ++ [_])[i]? = (s.tasks ++ [_])[i]?
    rw [List.getElem?_append, List.getElem?_append, h.count, h.tasks i hi]
  events := h.events

/-- A call of another task. -/
theorem SameFor.other (h : SameFor mine s s') {i : Nat} (hi : mine i = false) (t : Task S Req α)
    (w : W) (ev : Event S) :
    SameFor mine ⟨w, s.tasks.set i t, s.log ++ [⟨i, s.world, ev⟩]⟩ s' where
  count := by rw [h.count, List.length_set]
  tasks j hj := by
    have hne : i ≠ j := fun hij => by simp [hij, hj] at hi
    rw [h.tasks j hj, List.getElem?_set_ne hne]
  events j hj := by
    have hne : i ≠ j := fun hij => by simp [hij, hj] at hi
    rw [h.events j hj, eventsOf_append, eventsOf_singleton_ne hne, List.append_nil]

/-- The same call of one of our tasks. -/
theorem SameFor.same (h : SameFor mine s s') (i : Nat) (t : Task S Req α) (w : W) (w' : W')
    (ev : Event S) :
    SameFor mine ⟨w, s.tasks.set i t, s.log ++ [⟨i, s.world, ev⟩]⟩
      ⟨w', s'.tasks.set i t, s'.log ++ [⟨i, s'.world, ev⟩]⟩ where
  count := by rw [List.length_set, List.length_set, h.count]
  tasks j hj := by
    rw [List.getElem?_set, List.getElem?_set, h.tasks j hj, h.count]
  events j hj := by
    rw [eventsOf_append, eventsOf_append, h.events j hj]
    simp only [eventsOf, List.filter_cons, List.filter_nil]
    split_ifs <;> rfl

end

variable (program : Req → Prog S α) (serve : W → (o : S.Op) → S.Ans o × W) in
theorem move_log (s : Sys S W Req α) (m : Move Req) :
    ∃ rest, (Sys.move program serve s m).log = s.log ++ rest := by
  rcases move_cases program serve s m with ⟨r, h⟩ | ⟨i, r, o, k, _, h⟩ | h
  · exact ⟨[], by rw [h, List.append_nil]⟩
  · exact ⟨_, by rw [h]⟩
  · exact ⟨[], by rw [h, List.append_nil]⟩

/-- **What our tasks do does not depend on the others**, if a relation between the two machines is
kept by our calls at both and by the others' calls at the first. -/
theorem run_restrict {program : Req → Prog S α} {serve : W → (o : S.Op) → S.Ans o × W}
    {serve' : W' → (o : S.Op) → S.Ans o × W'} (mine : Nat → Bool)
    {R : List (Entry S W) → W → W' → Prop} {w : W} {w' : W'} (h0 : R [] w w')
    (moves : List (Move Req))
    (hmine : ∀ pre e post v', (Sys.run program serve w moves).log = pre ++ e :: post →
      mine e.task = true → R pre e.before v' → (serve' v' e.event.1).1 = e.event.2 ∧
        R (pre ++ [e]) (serve e.before e.event.1).2 (serve' v' e.event.1).2)
    (hother : ∀ pre e post v', (Sys.run program serve w moves).log = pre ++ e :: post →
      mine e.task = false → R pre e.before v' →
        R (pre ++ [e]) (serve e.before e.event.1).2 v') :
    SameFor mine (Sys.run program serve w moves)
        (Sys.run program serve' w' (moves.filter (Move.ours mine))) ∧
      R (Sys.run program serve w moves).log (Sys.run program serve w moves).world
        (Sys.run program serve' w' (moves.filter (Move.ours mine))).world := by
  induction moves using List.reverseRecOn with
  | nil => exact ⟨⟨rfl, fun _ _ => rfl, fun _ _ => rfl⟩, h0⟩
  | append_singleton moves m ih =>
      obtain ⟨rest, hrest⟩ := move_log program serve (Sys.run program serve w moves) m
      have hgrown {pre post : List (Entry S W)} {e : Entry S W}
          (hlog : (Sys.run program serve w moves).log = pre ++ e :: post) :
          (Sys.run program serve w (moves ++ [m])).log = pre ++ e :: (post ++ rest) := by
        rw [run_snoc, hrest, hlog, List.append_assoc, List.cons_append]
      have hbefore := ih (fun pre e post v' hlog => hmine pre e (post ++ rest) v' (hgrown hlog))
        fun pre e post v' hlog => hother pre e (post ++ rest) v' (hgrown hlog)
      generalize hs : Sys.run program serve w moves = s at hbefore hrest
      generalize hs' : Sys.run program serve' w' (moves.filter (Move.ours mine)) = s' at hbefore
      rw [run_snoc, hs] at hmine hother
      rw [run_snoc, hs, List.filter_append]
      obtain ⟨hsame, hR⟩ := hbefore
      cases m with
      | spawn r =>
          rw [show [Move.spawn r].filter (Move.ours mine) = [Move.spawn r] from rfl, run_snoc, hs']
          exact ⟨hsame.spawn r, hR⟩
      | advance i =>
          cases hi : mine i with
          | true =>
              have hkeep : [Move.advance i].filter (Move.ours mine)
                  = [(.advance i : Move Req)] := by simp [Move.ours, hi]
              rw [hkeep, run_snoc, hs']
              have htask := hsame.tasks i hi
              rcases ht : s.tasks[i]? with _ | ⟨r, a | ⟨o, k⟩⟩
              · rw [Sys.move, Sys.move, htask, ht]
                exact ⟨hsame, hR⟩
              · rw [Sys.move, Sys.move, htask, ht]
                exact ⟨hsame, hR⟩
              · rw [Sys.move, ht] at hmine
                obtain ⟨hans, hR'⟩ := hmine s.log ⟨i, s.world, ⟨o, (serve s.world o).1⟩⟩ [] s'.world
                  rfl hi hR
                rw [Sys.move, Sys.move, htask, ht]
                dsimp only at hans hR' ⊢
                rw [hans]
                exact ⟨hsame.same i _ _ _ _, hR'⟩
          | false =>
              have hdrop : [Move.advance i].filter (Move.ours mine) = ([] : List (Move Req)) := by
                simp [Move.ours, hi]
              rw [hdrop, List.append_nil, hs']
              rcases ht : s.tasks[i]? with _ | ⟨r, a | ⟨o, k⟩⟩
              · rw [Sys.move, ht]
                exact ⟨hsame, hR⟩
              · rw [Sys.move, ht]
                exact ⟨hsame, hR⟩
              · rw [Sys.move, ht] at hother
                have hR' := hother s.log ⟨i, s.world, ⟨o, (serve s.world o).1⟩⟩ [] s'.world
                  rfl hi hR
                rw [Sys.move, ht]
                exact ⟨hsame.other hi _ _ _, hR'⟩

end Interaction
