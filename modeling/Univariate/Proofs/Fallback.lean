import Mathlib.Data.List.Basic
import Univariate.Grader

/-!
# Falling back

A grader remembers of its history only the solver that was attached last. That solver is asked
first, and whatever makes it fail, the derivative is computed locally; so a failure of a remote
solver is in no reply, and an error is always one of the local differentiation. A local solver that
is attached succeeds and fails just as the computation that takes its place without it: only the
origin of the text tells the two histories apart.
-/
namespace Univariate

/-- The solver that a step attaches. -/
def Step.solver? : Step → Option Solver
  | .attach solver => some solver
  | .solve _ | .check _ _ => none

/-- The equation that is differentiated in a step if no solver answers. -/
def Step.equation? : Step → Option String
  | .solve equation | .check ⟨equation, none⟩ _ => some equation
  | .attach _ | .check ⟨_, some _⟩ _ => none

/-- The solver attached last in a history. -/
def lastSolver (steps : List Step) : Option Solver := (steps.filterMap Step.solver?).getLast?

/-- The replies to a step that are right, given the solver that is asked first. -/
inductive Answers (var : String) (remote : Option Solver) : Step → Reply → Prop where
  | attached (solver : Solver) : Answers var remote (.attach solver) .attached
  | remote {equation text : String} {solver : Solver} (asked : remote = some solver)
      (success : solver var equation = .ok text) :
      Answers var remote (.solve equation) (.solved (.ok ⟨text, .remote⟩))
  | computed {equation : String}
      (failure : ∀ solver, remote = some solver → ∃ cause, solver var equation = .error cause) :
      Answers var remote (.solve equation)
        (.solved ((differentiate Float var equation).map fun text => ⟨text, .computed⟩))
  | given {equation answer text : String} :
      Answers var remote (.check ⟨equation, some text⟩ answer)
        (.checked (.ok ⟨Answer.isSame answer text, ⟨text, .given⟩⟩))
  | graded {equation answer : String} {result : Except DiffError Solution}
      (solved : Answers var remote (.solve equation) (.solved result)) :
      Answers var remote (.check ⟨equation, none⟩ answer)
        (.checked (result.map fun s => ⟨Answer.isSame answer s.text, s⟩))

def Reply.error? : Reply → Option DiffError
  | .solved (.error cause) | .checked (.error cause) => some cause
  | .attached | .solved (.ok _) | .checked (.ok _) => none

/-- An error is the one of the local differentiation. -/
theorem Answers.exists_of_error {var : String} {remote : Option Solver} {s : Step} {reply : Reply}
    {cause : DiffError} (h : Answers var remote s reply) (failed : reply.error? = some cause) :
    ∃ equation, s.equation? = some equation ∧ differentiate Float var equation = .error cause := by
  induction h with
  | attached | remote | given => cases failed
  | @computed equation _ =>
    refine ⟨equation, rfl, ?_⟩
    cases derived : differentiate Float var equation with
    | ok text => simp [derived, Except.map, Reply.error?] at failed
    | error c => simpa [derived, Except.map, Reply.error?] using failed
  | @graded equation _ result solved ih =>
    cases result with
    | ok solution => cases failed
    | error c => exact ih failed

namespace Grader

/-! ## One step -/

theorem answers_solve (g : Grader) (equation : String) :
    Answers g.var g.remote (.solve equation) (.solved (g.solve equation)) := by
  have locally : g.solveLocally equation =
      (differentiate Float g.var equation).map fun text => ⟨text, .computed⟩ := rfl
  unfold solve
  cases asked : g.remote with
  | none => exact .computed nofun
  | some solver =>
    cases outcome : solver g.var equation with
    | ok text => simpa [outcome] using Answers.remote rfl outcome
    | error cause =>
      simp only [outcome, locally]
      refine .computed fun other same => ⟨cause, ?_⟩
      rwa [← Option.some.inj same]

theorem answers_step (g : Grader) (s : Step) : Answers g.var g.remote s (g.step s).2 := by
  cases s with
  | attach solver => exact .attached solver
  | solve equation => exact g.answers_solve equation
  | check exercise answer =>
    obtain ⟨equation, solution⟩ := exercise
    cases solution with
    | some text => exact .given
    | none => exact .graded (g.answers_solve equation)

theorem var_step (g : Grader) (s : Step) : (g.step s).1.var = g.var := by
  cases s <;> rfl

theorem remote_step (g : Grader) (s : Step) : (g.step s).1.remote = s.solver?.or g.remote := by
  cases s <;> rfl

/-! ## A history -/

/-- The grader after a history. -/
def after (g : Grader) : List Step → Grader
  | [] => g
  | s :: steps => (g.step s).1.after steps

theorem var_after (g : Grader) (steps : List Step) : (g.after steps).var = g.var := by
  induction steps generalizing g with
  | nil => rfl
  | cons s steps ih => rw [after, ih, var_step]

theorem remote_after (g : Grader) (steps : List Step) :
    (g.after steps).remote = (lastSolver steps).or g.remote := by
  induction steps generalizing g with
  | nil => rfl
  | cons s steps ih =>
    rw [after, ih, remote_step]
    cases found : s.solver? <;> simp [lastSolver, found, List.getLast?_cons]

theorem length_run (g : Grader) (steps : List Step) : (g.run steps).length = steps.length := by
  induction steps generalizing g with
  | nil => rfl
  | cons s steps ih => simp [run, ih]

theorem run_getElem? (g : Grader) (steps : List Step) (i : Nat) :
    (g.run steps)[i]? = (steps[i]?).map fun s => ((g.after (steps.take i)).step s).2 := by
  induction steps generalizing g i with
  | nil => rfl
  | cons s steps ih =>
    cases i with
    | zero => rfl
    | succ i => simp [run, after, ih]

end Grader

/-! ## Without the local solver -/

/-- A step of a history in which local solvers may be left out. -/
inductive Move where
  | step (step : Step)
  /-- Takes the remote solver away, where the other history attaches the local one. -/
  | detach

def Move.original : Move → Step
  | .step s => s
  | .detach => .attach Solver.localSolver

/-- Does not tell a remote answer from a computed one. -/
def Origin.merge : Origin → Origin
  | .given => .given
  | .remote | .computed => .computed

def Solution.merge (s : Solution) : Solution := { s with origin := s.origin.merge }

def Verdict.merge (v : Verdict) : Verdict := { v with expected := v.expected.merge }

def Reply.merge : Reply → Reply
  | .attached => .attached
  | .solved result => .solved (result.map Solution.merge)
  | .checked result => .checked (result.map Verdict.merge)

namespace Grader

def move (g : Grader) : Move → Grader × Reply
  | .step s => g.step s
  | .detach => ({ g with remote := none }, .attached)

def runMoves (g : Grader) : List Move → List Reply
  | [] => []
  | m :: moves => (g.move m).2 :: (g.move m).1.runMoves moves

/-- The second grader may lack a remote solver that is the local one. -/
def Drops (g g' : Grader) : Prop :=
  g' = g ∨ g.remote = some Solver.localSolver ∧ g' = { g with remote := none }

theorem merge_solve {g g' : Grader} (h : g.Drops g') (equation : String) :
    (g'.solve equation).map Solution.merge = (g.solve equation).map Solution.merge := by
  obtain rfl | ⟨asked, rfl⟩ := h
  · rfl
  · simp only [solve, asked, Solver.localSolver, solveLocally]
    cases differentiate Float g.var equation <;> rfl

/-- A verdict looks at the text of a solution only. -/
theorem merge_check (g : Grader) (equation answer : String) :
    (g.check ⟨equation, none⟩ answer).map Verdict.merge =
      ((g.solve equation).map Solution.merge).map fun s => ⟨Answer.isSame answer s.text, s⟩ := by
  simp only [check, solution]
  cases g.solve equation <;> rfl

theorem drops_move {g g' : Grader} (h : g.Drops g') (m : Move) :
    (g.step m.original).1.Drops (g'.move m).1 ∧
      (g'.move m).2.merge = (g.step m.original).2.merge := by
  have var : g'.var = g.var := by obtain rfl | ⟨_, rfl⟩ := h <;> rfl
  cases m with
  | detach => exact ⟨.inr ⟨rfl, by simp [move, step, Move.original, var]⟩, rfl⟩
  | step s =>
    cases s with
    | attach solver => exact ⟨.inl (by simp [move, step, Move.original, var]), rfl⟩
    | solve equation => exact ⟨h, congrArg Reply.solved (merge_solve h equation)⟩
    | check exercise answer =>
      obtain ⟨equation, solution⟩ := exercise
      cases solution with
      | some text => exact ⟨h, rfl⟩
      | none =>
        refine ⟨h, congrArg Reply.checked ?_⟩
        rw [merge_check, merge_check, merge_solve h]

theorem merge_runMoves {g g' : Grader} (h : g.Drops g') (moves : List Move) :
    (g'.runMoves moves).map Reply.merge = (g.run (moves.map Move.original)).map Reply.merge := by
  induction moves generalizing g g' with
  | nil => rfl
  | cons m moves ih =>
    obtain ⟨later, same⟩ := drops_move h m
    simp [runMoves, run, same, ih later]

/-- Over every history each reply is the right one for the solver attached last before it, and an
error is never one of a remote solver but that of the local differentiation. Histories in which any
of the attached local solvers are left out, with no solver in their place, have the same replies up
to the origin of a text. -/
theorem answers_run_offline (var : String) (steps : List Step) :
    ((offline var).run steps).length = steps.length ∧
      (∀ (i : Nat) (s : Step), steps[i]? = some s →
        ∃ reply, ((offline var).run steps)[i]? = some reply ∧
          Answers var (lastSolver (steps.take i)) s reply) ∧
      (∀ (i : Nat) (reply : Reply) (cause : DiffError),
        ((offline var).run steps)[i]? = some reply → reply.error? = some cause →
          ∃ s equation, steps[i]? = some s ∧ s.equation? = some equation ∧
            differentiate Float var equation = .error cause) ∧
      ∀ moves : List Move, moves.map Move.original = steps →
        ((offline var).runMoves moves).map Reply.merge =
          ((offline var).run steps).map Reply.merge := by
  have reply {i : Nat} {s : Step} (here : steps[i]? = some s) : ∃ reply,
      ((offline var).run steps)[i]? = some reply ∧
        Answers var (lastSolver (steps.take i)) s reply := by
    have right := ((offline var).after (steps.take i)).answers_step s
    rw [var_after, remote_after] at right
    exact ⟨_, by rw [run_getElem?, here]; rfl, by simpa [offline] using right⟩
  refine ⟨length_run _ steps, fun i s => reply, fun i r cause here failed => ?_, ?_⟩
  · cases found : steps[i]? with
    | none => rw [run_getElem?, found] at here; cases here
    | some s =>
      obtain ⟨r', same, right⟩ := reply found
      obtain rfl : r' = r := Option.some.inj (same.symm.trans here)
      obtain ⟨equation, differentiated, derived⟩ := right.exists_of_error failed
      exact ⟨s, equation, rfl, differentiated, derived⟩
  · rintro moves rfl
    exact merge_runMoves (.inl rfl) moves

/-- A remote solver that knows one equation, later the local solver or none. -/
def episode : List Move :=
  [.step (.attach (Solver.lookup [("x^2", "2x")] "no route")), .step (.solve "x^2"),
    .step (.solve "x^3"), .detach, .step (.solve "sin(x)*x"),
    .step (.check ⟨"x^2 + y^2 = 16", some "dy/dx = -x/y"⟩ "dy/dx=-x/y")]

theorem answers_run_offline_episode : ∃ steps replies, episode.map Move.original = steps ∧
    (offline "x").run steps = replies ∧ replies.length = 6 ∧
    (∃ reply, replies[1]? = some reply ∧
      Answers "x" (some (Solver.lookup [("x^2", "2x")] "no route")) (.solve "x^2") reply) ∧
    (∃ reply, replies[5]? = some reply ∧ Answers "x" (some Solver.localSolver)
      (.check ⟨"x^2 + y^2 = 16", some "dy/dx = -x/y"⟩ "dy/dx=-x/y") reply) ∧
    replies[4]? = some (.solved (.error (.unsupportedForm "sin(x)*x"))) ∧
    differentiate Float "x" "sin(x)*x" = .error (.unsupportedForm "sin(x)*x") ∧
    ((offline "x").runMoves episode).map Reply.merge = replies.map Reply.merge := by
  have derived : differentiate Float "x" "sin(x)*x" = .error (.unsupportedForm "sin(x)*x") := by
    decide +kernel
  have refused : ((offline "x").run (episode.map Move.original))[4]? =
      some (.solved (.error (.unsupportedForm "sin(x)*x"))) := by
    simp [episode, run, step, Move.original, offline, solve, Solver.localSolver, solveLocally,
      derived, Except.mapError]
  obtain ⟨count, right, errors, merged⟩ := answers_run_offline "x" (episode.map Move.original)
  obtain ⟨s, equation, here, own, failed⟩ := errors 4 _ _ refused rfl
  cases here
  cases own
  exact ⟨_, _, rfl, rfl, count, right 1 _ rfl, right 5 _ rfl, refused, failed, merged _ rfl⟩

end Grader

end Univariate
