import Retrace.Proofs.Relaunch

/-!
# Frames as a running position

A session looks for its frame backwards from the current step, once for the declaration entered last
and once for the range seen last. Someone who follows the run forwards keeps one frame and changes it
at each step. Both see the same, so a frame depends on the run and the cursor only, and going back
shows what was shown on the way there.
-/

namespace Retrace

/-! ## Following a run -/

namespace Frame

def initial (contract : String) : Frame := ⟨contract, none, 0, 0⟩

/-- The frame after one more step. -/
def track (f : Frame) (step : Step) : Frame :=
  let f := match step.entered? with
    | some name => { f with name }
    | none => f
  match step.range with
  | some range => { f with file := some range.file, line := range.start.line, column := range.start.column }
  | none => f

/-- The frame that backward searches through steps find, on top of another one. -/
def searched (f : Frame) (steps : List Step) : Frame :=
  let name := (steps.reverse.findSome? Step.entered?).getD f.name
  match steps.reverse.findSome? (·.range) with
  | some range => ⟨name, some range.file, range.start.line, range.start.column⟩
  | none => { f with name }

theorem searched_append_one (f : Frame) (steps : List Step) (step : Step) :
    f.searched (steps ++ [step]) = (f.searched steps).track step := by
  unfold searched track
  simp only [List.reverse_append, List.reverse_cons, List.reverse_nil, List.nil_append,
    List.singleton_append, List.findSome?_cons]
  -- A step that carries nothing leaves the search to those before it.
  cases step.entered? <;> cases step.range <;>
    cases steps.reverse.findSome? (·.range) <;> rfl

theorem foldl_track (f : Frame) (steps : List Step) : steps.foldl track f = f.searched steps := by
  induction steps using List.reverseRecOn with
  | nil => rfl
  | append_singleton steps step ih => rw [List.foldl_append, ih, searched_append_one]; rfl

end Frame

namespace Session

/-- The frame after so many steps, kept from the first one on. -/
def tracked (s : Session) (n : Nat) : Frame :=
  (s.execution.steps.take n).foldl Frame.track (.initial s.contract)

theorem tracked_succ {s : Session} {n : Nat} {step : Step} (h : s.execution.steps[n]? = some step) :
    s.tracked (n + 1) = (s.tracked n).track step := by
  unfold tracked
  rw [List.take_add_one, h, List.foldl_append]
  rfl

theorem frame?_of_cursor {s : Session} {i : Nat} (hcursor : s.cursor = i) (h : i < s.execution.length) :
    s.frame? = some (s.tracked (i + 1)) := by
  unfold frame? tracked
  rw [hcursor, Frame.foldl_track]
  simp only [if_pos h]
  rfl

theorem frame?_before {s : Session} (h : s.cursor = -1) : s.frame? = none := by
  unfold frame?
  rw [h]
  rfl

theorem Within.cursor_cases {s : Session} (h : Within s) :
    s.cursor = -1 ∨ ∃ i : Nat, s.cursor = i ∧ i < s.execution.length := by
  unfold Within last at h
  by_cases hcursor : s.cursor = -1
  · exact Or.inl hcursor
  · obtain ⟨i, hi⟩ := Int.eq_ofNat_of_zero_le (show 0 ≤ s.cursor by omega)
    exact Or.inr ⟨i, hi, by omega⟩

theorem frame?_getD {s : Session} (h : Within s) :
    s.frame?.getD (.initial s.contract) = s.tracked (s.cursor + 1).toNat := by
  rcases h.cursor_cases with hcursor | ⟨i, hcursor, hlength⟩
  · rw [frame?_before hcursor, hcursor]
    rfl
  · rw [frame?_of_cursor hcursor hlength, hcursor]
    rfl

theorem frame?_congr {s t : Session} (hexecution : s.execution = t.execution)
    (hcontract : s.contract = t.contract) (hcursor : s.cursor = t.cursor) : s.frame? = t.frame? := by
  unfold frame?
  rw [hexecution, hcontract, hcursor]

/-! ## Reached states -/

/-- The states of a session over any run: a new one, and what an operation or another run leads to. -/
inductive Reached : Session → Prop
  | make (artifact : Artifact) (entrypoint : String) (env : Environment) (constants : List Constant) :
    Reached (.make artifact entrypoint env constants)
  | perform {s : Session} (h : Reached s) (op : Operation) : Reached (s.perform op).1
  | reload {s : Session} (h : Reached s) (artifact : Artifact) : Reached (s.reload artifact)

theorem Reached.after {s : Session} (h : Reached s) (ops : List Operation) : Reached (s.after ops) := by
  induction ops generalizing s with
  | nil => exact h
  | cons op ops ih => exact ih (h.perform op)

theorem within_perform {s : Session} (h : Within s) (op : Operation) : Within (s.perform op).1 := by
  obtain ⟨⟨_, _, heq, hwithin⟩, -⟩ | ⟨lines, rfl⟩ | ⟨artifact, rfl⟩ := perform_cases s op
  · exact hwithin h
  · exact h
  · exact within_of_cursor_eq rfl

theorem Reached.within {s : Session} (h : Reached s) : Within s := by
  induction h with
  | make => exact within_of_cursor_eq rfl
  | perform _ op ih => exact within_perform ih op
  | reload => exact within_of_cursor_eq rfl

def Operation.stays : Operation → Bool
  | .reload _ => false
  | _ => true

theorem execution_perform {s : Session} {op : Operation} (h : op.stays = true) :
    (s.perform op).1.execution = s.execution := by
  obtain ⟨⟨_, _, heq, -⟩, -⟩ | ⟨lines, rfl⟩ | ⟨artifact, rfl⟩ := perform_cases s op
  · rw [heq]
  · rfl
  · simp [Operation.stays] at h

theorem execution_after_of_stays {s : Session} {ops : List Operation} (h : ∀ op ∈ ops, op.stays = true) :
    (s.after ops).execution = s.execution := by
  induction ops generalizing s with
  | nil => rfl
  | cons op ops ih =>
    obtain ⟨hop, hops⟩ := List.forall_mem_cons.mp h
    rw [after, ih hops, execution_perform hop]

theorem contract_after (s : Session) (ops : List Operation) : (s.after ops).contract = s.contract :=
  congrArg Names.contract (after_keeps s ops).1

/-! ## One step -/

theorem execution_step (s : Session) (reverse : Bool) : (s.step reverse).1.execution = s.execution := by
  obtain ⟨_, _, heq, -⟩ := moved_step s reverse
  rw [heq]

theorem contract_step (s : Session) (reverse : Bool) : (s.step reverse).1.contract = s.contract := by
  obtain ⟨_, _, heq, -⟩ := moved_step s reverse
  rw [heq]

theorem cursor_step (s : Session) (reverse : Bool) :
    (s.step reverse).1.cursor = if reverse then max (s.cursor - 1) (-1) else min (s.cursor + 1) s.last := by
  unfold step
  simp only
  split <;> rfl

theorem frame?_step {s : Session} (h : Within s) (hlt : s.cursor < s.last) :
    ∃ step, (s.step false).1.cursor = s.cursor + 1 ∧ (s.step false).1.current? = some step ∧
      (s.step false).1.frame? = some ((s.frame?.getD (.initial s.contract)).track step) := by
  obtain ⟨n, hn⟩ := Int.eq_ofNat_of_zero_le (show 0 ≤ s.cursor + 1 by unfold Within at h; omega)
  have hlength : n < s.execution.length := by
    unfold last at hlt
    omega
  obtain ⟨step, hstep⟩ : ∃ step, s.execution.steps[n]? = some step :=
    ⟨_, List.getElem?_eq_getElem hlength⟩
  have hexecution := execution_step s false
  have hcursor : (s.step false).1.cursor = n := by
    rw [cursor_step]
    simp only [Bool.false_eq_true, if_false]
    omega
  have htracked : (s.step false).1.tracked (n + 1) = s.tracked (n + 1) := by
    unfold tracked
    rw [hexecution, contract_step]
  refine ⟨step, hcursor.trans hn.symm, ?_, ?_⟩
  · unfold current?
    rw [hcursor, hexecution]
    exact hstep
  · rw [frame?_of_cursor hcursor (by rwa [hexecution]), htracked, tracked_succ hstep, frame?_getD h, hn]
    rfl

theorem frame?_step_last {s : Session} (h : s.cursor = s.last) : (s.step false).1.frame? = s.frame? := by
  apply frame?_congr (execution_step s false) (contract_step s false)
  rw [cursor_step]
  simp only [Bool.false_eq_true, if_false]
  omega

theorem frame?_step_back {s t : Session} (hexecution : t.execution = s.execution)
    (hcontract : t.contract = s.contract) (hcursor : t.cursor = s.cursor + 1) (hlow : -1 ≤ s.cursor) :
    (t.step true).1.frame? = s.frame? := by
  apply frame?_congr ((execution_step t true).trans hexecution) ((contract_step t true).trans hcontract)
  rw [cursor_step, hcursor]
  simp only [if_true]
  omega

/-- **Frames.** In every state of a session over any run, nothing is shown before the first step, and
on a step the frame of someone who followed the run up to it. A step forwards changes the frame by
what the new step carries. On the same run, coming back to a step shows its frame again, and a step
back from the one after it does too, whatever was done in between. -/
theorem frame?_tracked {s : Session} (h : Reached s) :
    ((s.cursor = -1 ∧ s.frame? = none) ∨
      ∃ i : Nat, s.cursor = i ∧ i < s.execution.length ∧ s.frame? = some (s.tracked (i + 1))) ∧
    (s.cursor < s.last → ∃ step, (s.step false).1.cursor = s.cursor + 1 ∧
      (s.step false).1.current? = some step ∧
      (s.step false).1.frame? = some ((s.frame?.getD (.initial s.contract)).track step)) ∧
    (s.cursor = s.last → (s.step false).1.frame? = s.frame?) ∧
    (∀ ops, (∀ op ∈ ops, op.stays = true) →
      ((s.after ops).cursor = s.cursor → (s.after ops).frame? = s.frame?) ∧
      ((s.after ops).cursor = s.cursor + 1 → ((s.after ops).step true).1.frame? = s.frame?)) := by
  have hwithin := h.within
  refine ⟨?_, frame?_step hwithin, frame?_step_last, ?_⟩
  · rcases hwithin.cursor_cases with hcursor | ⟨i, hcursor, hlength⟩
    · exact Or.inl ⟨hcursor, frame?_before hcursor⟩
    · exact Or.inr ⟨i, hcursor, hlength, frame?_of_cursor hcursor hlength⟩
  · intro ops hstays
    have hexecution := execution_after_of_stays (s := s) hstays
    have hcontract := contract_after s ops
    refine ⟨frame?_congr hexecution hcontract, ?_⟩
    intro hcursor
    exact frame?_step_back hexecution hcontract hcursor hwithin.1

/-- A run that enters a declaration, passes a line and leaves the declaration. -/
def walkedArtifact : Artifact :=
  let execution : Execution :=
    ⟨none,
      [⟨[], 1000, none, some ⟨"entry", "exec", .enter⟩⟩,
        ⟨[], 2000, some ⟨"demo.arl", ⟨7, 1, 60⟩, ⟨7, 9, 68⟩⟩, none⟩,
        ⟨[], 0, none, some ⟨"entry", "exec", .leave⟩⟩]⟩
  ⟨⟨"demo", none, .seq []⟩, "", ⟨none, []⟩, execution, execution.gasMap⟩

/-- On the line of a run that was loaded again, after a step too far and back. -/
def walked : Session :=
  ((make walkedArtifact "exec" (.make "2024-01-15 10:30:00" "tz1caller") []).reload walkedArtifact).after
    [.start true, .step false, .step false, .step false, .step true]

theorem reached_walked : Reached walked :=
  ((Reached.make walkedArtifact "exec" (.make "2024-01-15 10:30:00" "tz1caller") []).reload
    walkedArtifact).after _

theorem frame?_tracked_walked :
    walked.frame? = some ⟨"exec", some "demo.arl", 7, 1⟩ ∧
      (walked.step false).1.frame? = walked.frame? ∧
      ((walked.after [.step false]).step true).1.frame? = walked.frame? := by
  obtain ⟨hshown, hforward, -, hsame⟩ := frame?_tracked reached_walked
  have hcursor : walked.cursor = 1 := rfl
  have hframe : walked.frame? = some ⟨"exec", some "demo.arl", 7, 1⟩ := by
    rcases hshown with ⟨hbefore, -⟩ | ⟨i, hi, -, hframe⟩
    · omega
    · obtain rfl : i = 1 := by omega
      exact hframe
  obtain ⟨step, -, hstep, hnext⟩ := hforward (by decide)
  have hleave : (walked.step false).1.current? = some ⟨[], 0, none, some ⟨"entry", "exec", .leave⟩⟩ := rfl
  obtain rfl := Option.some.inj (hleave.symm.trans hstep)
  refine ⟨hframe, ?_, (hsame [.step false] (by decide)).2 rfl⟩
  rw [hnext, hframe]
  rfl

end Session
end Retrace
