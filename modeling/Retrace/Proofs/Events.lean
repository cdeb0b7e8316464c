import Retrace.Console.View
import Retrace.Proofs.Session

/-!
# Events and decorations

Every move publishes one group of events, which can be told from where the session stands after
it. Decorations are shown from a start on until the run is over.
-/

namespace Retrace

/-- An instruction that only asks what a session shows. -/
def Console.Instruction.asks : Console.Instruction → Bool
  | .inspect _ | .evaluate _ | .frame | .step | .gas | .help => true
  | .next | .previous | .continue_ | .reverseContinue | .break_ _ | .restart | .quit => false

theorem Console.View.apply_asks (source : List String) (s : Session) {i : Console.Instruction}
    (h : i.asks = true) : (apply source s i).2 = (s, []) := by
  cases i with
  | inspect scope => cases scope <;> rfl
  | evaluate name => simp only [apply]; split <;> rfl
  | step => simp only [apply]; split <;> rfl
  | gas => simp only [apply]; split <;> rfl
  | frame => rfl
  | help => rfl
  | _ => simp [Instruction.asks] at h

namespace Session

/-! ## The group of an operation -/

/-- The run has no step left: the last one is reached, or there is none. -/
def Over (s : Session) : Prop := s.cursor = (s.execution.length : Int) - 1 ∨ s.execution.length = 0

instance (s : Session) : Decidable s.Over := inferInstanceAs (Decidable (_ ∨ _))

def ending (s : Session) : List Event :=
  match s.execution.fail with
  | some value => [.exception value, .finished]
  | none => [.finished]

def announced (s : Session) : Operation → List Event
  | .setBreakpoints _ | .reload _ => []
  | .start true => [.entry]
  | .start false | .continue_ false => if s.Over then s.ending else [.breakpoint]
  | .step _ => if s.Over then s.ending else [.step]
  | .continue_ true => if s.cursor = -1 then [.entry] else [.breakpoint]

theorem atEnd_iff (s : Session) : s.atEnd = true ↔ s.Over := by
  simp [atEnd, Over, last, or_comm]

theorem over_finish (s : Session) : s.finish.1.Over ↔ s.Over := Iff.rfl

theorem finish_events (s : Session) : s.finish.2 = s.finish.1.ending := rfl

theorem onBreakpoint_cursor {s : Session} (h : s.onBreakpoint = true) : s.cursor ≠ -1 := by
  intro hcursor
  have hnone : s.current? = none := by
    unfold current?
    rw [hcursor]
    rfl
  simp [onBreakpoint, hnone] at h

theorem cursor_of_still {s : Session} (h : (s.advance true).cursor = s.cursor) :
    (s.advance true).cursor = -1 := by
  simp only [advance, if_true] at h ⊢
  omega

theorem continue_events (s : Session) (reverse : Bool) :
    (s.continue_ reverse).2 = (s.continue_ reverse).1.announced (.continue_ reverse) := by
  fun_induction continue_ s reverse with
  | case1 s hend =>
    -- Only a run forwards looks for the end.
    obtain ⟨rfl, hend⟩ : reverse = false ∧ (s.advance reverse).atEnd = true := by simpa using hend
    rw [announced, if_pos ((over_finish _).mpr ((atEnd_iff _).mp hend))]
    exact finish_events _
  | case2 s hend hstill =>
    -- Only a run backwards can stand still, and only before the first step.
    obtain ⟨rfl, hstill⟩ : reverse = true ∧ (s.advance reverse).cursor = s.cursor := by
      simpa using hstill
    rw [announced, if_pos (cursor_of_still hstill)]
  | case3 s hend hstill hbreak =>
    cases reverse with
    | true => rw [announced, if_neg (onBreakpoint_cursor hbreak)]
    | false =>
      have hover : ¬ (s.advance false).Over := fun h => hend (by simp [(atEnd_iff _).mpr h])
      rw [announced, if_neg hover]
  | case4 s hend hstill hbreak ih => exact ih

theorem step_events (s : Session) (reverse : Bool) :
    (s.step reverse).2 = (s.step reverse).1.announced (.step reverse) := by
  simp only [step, announced]
  split
  · rename_i hend
    rw [if_pos ((over_finish _).mpr ((atEnd_iff _).mp hend))]
    exact finish_events _
  · rename_i hend
    rw [if_neg (fun h => hend ((atEnd_iff _).mpr h))]

theorem perform_events (s : Session) (op : Operation) :
    (s.perform op).2 = (s.perform op).1.announced op := by
  cases op with
  | start stopOnEntry =>
    cases stopOnEntry with
    | true => rfl
    | false => exact continue_events _ false
  | step reverse => exact step_events s reverse
  | continue_ reverse => exact continue_events s reverse
  | setBreakpoints lines => rfl
  | reload artifact => rfl

/-! ## Decorations -/

theorem finished_mem_ending (s : Session) : .finished ∈ s.ending := by
  unfold ending
  split <;> simp

theorem continue_showGas (s : Session) (reverse : Bool) :
    (s.continue_ reverse).1.showGas = (s.showGas && !(s.continue_ reverse).2.contains .finished) := by
  fun_induction continue_ s reverse with
  | case1 s hend =>
    have hmem : (s.advance reverse).finish.2.contains .finished = true := by
      simpa [finish_events] using finished_mem_ending _
    rw [hmem]
    simp [finish]
  | case2 s hend hstill => simp [advance]
  | case3 s hend hstill hbreak => simp [advance]
  | case4 s hend hstill hbreak ih =>
    rw [ih]
    rfl

theorem step_showGas (s : Session) (reverse : Bool) :
    (s.step reverse).1.showGas = (s.showGas && !(s.step reverse).2.contains .finished) := by
  simp only [step]
  split
  · have hmem : (s.advance reverse).finish.2.contains .finished = true := by
      simpa [finish_events] using finished_mem_ending _
    rw [hmem]
    simp [finish]
  · simp [advance]

def Operation.starts : Operation → Bool
  | .start _ => true
  | _ => false

theorem perform_showGas (s : Session) (op : Operation) :
    (s.perform op).1.showGas = ((op.starts || s.showGas) && !(s.perform op).2.contains .finished) := by
  cases op with
  | start stopOnEntry =>
    cases stopOnEntry with
    | true => simp [perform, start, Operation.starts]
    | false => exact continue_showGas _ false
  | step reverse => exact step_showGas s reverse
  | continue_ reverse => exact continue_showGas s reverse
  | setBreakpoints lines => simp [perform, setBreakpoints, Operation.starts]
  | reload artifact => simp [perform, reload, setBreakpoints, Operation.starts]

/-- The operations of a run, each with the events it publishes. -/
def log (s : Session) : List Operation → List (Operation × List Event)
  | [] => []
  | op :: ops => (op, (s.perform op).2) :: (s.perform op).1.log ops

/-- No start and no end of the run. -/
def Quiet (log : List (Operation × List Event)) : Prop :=
  ∀ entry ∈ log, entry.1.starts = false ∧ .finished ∉ entry.2

/-- There was a start, and the run did not end since the last one. -/
def Running (log : List (Operation × List Event)) : Prop :=
  ∃ before stopOnEntry events after, log = before ++ (.start stopOnEntry, events) :: after ∧
    .finished ∉ events ∧ Quiet after

theorem quiet_cons (entry : Operation × List Event) (log : List (Operation × List Event)) :
    Quiet (entry :: log) ↔ (entry.1.starts = false ∧ .finished ∉ entry.2) ∧ Quiet log :=
  List.forall_mem_cons

theorem running_cons (op : Operation) (events : List Event) (log : List (Operation × List Event)) :
    Running ((op, events) :: log) ↔
      Running log ∨ (op.starts = true ∧ .finished ∉ events ∧ Quiet log) := by
  constructor
  · rintro ⟨before, stopOnEntry, events', after, hlog, hfinished, hquiet⟩
    cases before with
    | nil =>
      obtain ⟨hop, rfl⟩ := List.cons.inj hlog
      obtain ⟨rfl, rfl⟩ := Prod.mk.inj hop
      exact Or.inr ⟨rfl, hfinished, hquiet⟩
    | cons first before =>
      obtain ⟨-, rfl⟩ := List.cons.inj hlog
      exact Or.inl ⟨before, stopOnEntry, events', after, rfl, hfinished, hquiet⟩
  · rintro (⟨before, stopOnEntry, events', after, rfl, hfinished, hquiet⟩ | ⟨hop, hfinished, hquiet⟩)
    · exact ⟨(op, events) :: before, stopOnEntry, events', after, rfl, hfinished, hquiet⟩
    · cases op with
      | start stopOnEntry => exact ⟨[], stopOnEntry, events, log, rfl, hfinished, hquiet⟩
      | _ => simp [Operation.starts] at hop

theorem after_showGas (s : Session) (ops : List Operation) :
    (s.after ops).showGas = true ↔ Running (s.log ops) ∨ (s.showGas = true ∧ Quiet (s.log ops)) := by
  induction ops generalizing s with
  | nil => simp [after, log, Running, Quiet]
  | cons op ops ih =>
    rw [after, ih, log, running_cons, quiet_cons, perform_showGas]
    simp only [Bool.and_eq_true, Bool.or_eq_true, Bool.not_eq_true', List.contains_eq_mem,
      decide_eq_false_iff_not]
    cases op.starts <;> simp [and_assoc]

/-- **Events and decorations.** In every state of a session an operation publishes the group that
belongs to where it leads, asking publishes nothing, and gas is shown exactly while a run is going
on. -/
theorem events_announced (artifact : { a : Artifact // a.Rebuilt }) (entrypoint : String)
    (env : Environment) (constants : List Constant) (ops : List Operation) :
    let first := make artifact.val entrypoint env constants
    let s := first.after ops
    (∀ op, (s.perform op).2 = (s.perform op).1.announced op) ∧
    (∀ source i, i.asks = true → (Console.View.apply source s i).2 = (s, [])) ∧
    (∀ gas, s.decorations? = some gas ↔ Running (first.log ops) ∧ gas = s.execution.gasMap) := by
  intro first s
  have hvalid : Valid s := (valid_make artifact entrypoint env constants).after ops
  refine ⟨perform_events s, fun source i => Console.View.apply_asks source s, fun gas => ?_⟩
  have hshown : s.showGas = true ↔ Running (first.log ops) := by
    rw [after_showGas]
    simp [first, make]
  rw [decorations?, hvalid.gas_eq, ← hshown]
  cases s.showGas <;> simp [eq_comm]

end Session
end Retrace
