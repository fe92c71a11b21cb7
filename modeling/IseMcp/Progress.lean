import IseMcp.BoundedWork

set_option autoImplicit false

/-! # Every request is served

Nothing in the server waits for another request, so a request has its reply after a fixed number of
its own steps, however the others move and whatever ISE answers (`every_request_served`). A tool
takes the most steps when it puts together a policy context: it looks up its caller, makes five
lookups of twelve steps each, and keeps two records.
-/

namespace IseMcp

open Python Interaction

/-- Enough steps for any request. -/
def maxSteps : Nat := 63

theorem steps_weighs : Weighs (steps (S := Ise)) ⟨1, 1, 1, 1, 1, 1⟩ :=
  ⟨fun _ => rfl, fun _ => rfl, fun _ _ => rfl, fun _ => rfl, fun _ => rfl, fun _ => rfl⟩

theorem steps_ungated : UngatedWeighs (steps (S := Ise)) 1 1 1 :=
  ⟨fun _ => le_rfl, fun _ _ => le_rfl, fun _ _ => le_rfl, fun _ => le_rfl⟩

/-- No request takes more steps. -/
theorem program_steps {deps : Deps} (hb : deps.Built) (req : ServerRequest) :
    Prog.Costs (steps (S := Ise)) maxSteps (req.program deps) := by
  refine (program_costs steps_weighs steps_ungated hb req).mono ?_
  have hlookups := req.lookups_le_five
  simp only [Weights.tool, Weights.lookup, maxSteps]
  omega

/-- **Every request is served**: in every run, a request that has moved sixty-three times since it
came has its reply, however often the others moved in between and whatever they and ISE did. -/
theorem every_request_served {deps : Deps} (hb : deps.Built) (env : Env) (req : ServerRequest)
    (before after : List (Move ServerRequest))
    (hmoved : maxSteps ≤ after.countP
      (Move.advances (serverRun deps env before).tasks.length)) :
    ∃ reply, (serverRun deps env (before ++ .spawn req :: after)).tasks[
      (serverRun deps env before).tasks.length]? = some ⟨req, .ret reply⟩ :=
  run_served (program_steps hb req) _ before after hmoved

/-- The first client moves, and after each of its moves another client comes in. -/
def crowdedMoves : List (Move ServerRequest) :=
  (List.replicate maxSteps [.advance 0, .spawn (.tool none .iseWhoami), .advance 1]).flatten

/-- The creation of an endpoint has its reply, though ISE is not available. -/
theorem every_request_served_crowded :
    ∃ reply, (serverRun writeDeps (.always 503)
      (.spawn (.tool none (.iseCreateEndpoint "aabbccddeeff" none "")) :: crowdedMoves)).tasks[0]?
      = some ⟨.tool none (.iseCreateEndpoint "aabbccddeeff" none ""), .ret reply⟩ := by
  have hb : writeDeps.Built := rfl
  have hmoved : maxSteps ≤ crowdedMoves.countP (Move.advances 0) := by decide +kernel
  exact every_request_served hb (.always 503) _ [] crowdedMoves hmoved

end IseMcp
