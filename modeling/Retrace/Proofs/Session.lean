import Retrace.Proofs.GasMap
import Retrace.Session

/-!
# What holds in every state of a session

A move changes the cursor and the decorations only. New breakpoints depend on the execution and on
the next number only. From these two facts follow the invariant of a session and the order in which
numbers are given out.
-/

namespace Retrace

/-! ## Operations -/

/-- An artifact that comes from reading a trace. -/
def Artifact.Rebuilt (a : Artifact) : Prop :=
  ∃ document raw, Artifact.reconstruct document raw = .ok a

theorem Artifact.Rebuilt.gas_eq {a : Artifact} (h : a.Rebuilt) : a.gas = a.execution.gasMap := by
  obtain ⟨document, raw, h⟩ := h
  simp only [reconstruct, bind, Except.bind] at h
  split at h
  · cases h
  split at h
  · cases h
  · obtain rfl := Except.ok.inj h
    rfl

namespace Session

inductive Operation where
  | start (stopOnEntry : Bool)
  | step (reverse : Bool)
  | continue_ (reverse : Bool)
  | setBreakpoints (lines : List UInt32)
  | reload (artifact : { a : Artifact // a.Rebuilt })

def perform (s : Session) : Operation → Session × List Event
  | .start stopOnEntry => s.start stopOnEntry
  | .step reverse => s.step reverse
  | .continue_ reverse => s.continue_ reverse
  | .setBreakpoints lines => (s.setBreakpoints lines, [])
  | .reload artifact => (s.reload artifact.val, [])

def after (s : Session) : List Operation → Session
  | [] => s
  | op :: ops => (s.perform op).1.after ops

/-- The artifact that is loaded after operations in turn. -/
def loaded (artifact : { a : Artifact // a.Rebuilt }) : List Operation → { a : Artifact // a.Rebuilt }
  | [] => artifact
  | .reload new :: ops => loaded new ops
  | _ :: ops => loaded artifact ops

/-! ## Moves -/

/-- The cursor is on a step or before the first one. -/
def Within (s : Session) : Prop := -1 ≤ s.cursor ∧ s.cursor ≤ s.last

/-- A move changes the cursor, which stays within the execution, and the decorations. -/
def Moved (s t : Session) : Prop :=
  ∃ cursor showGas, t = { s with cursor, showGas } ∧ (Within s → Within t)

theorem Moved.trans {s t u : Session} (h : Moved s t) (h' : Moved t u) : Moved s u := by
  obtain ⟨c, g, rfl, hc⟩ := h
  obtain ⟨c', g', rfl, hc'⟩ := h'
  exact ⟨c', g', rfl, fun h => hc' (hc h)⟩

theorem neg_one_le_last (s : Session) : -1 ≤ s.last := by
  unfold last
  omega

theorem within_of_cursor_eq {s : Session} (h : s.cursor = -1) : Within s := by
  have hlast := s.neg_one_le_last
  unfold Within
  omega

theorem within_advance {s : Session} (h : Within s) (reverse : Bool) : Within (s.advance reverse) := by
  have hlast := s.neg_one_le_last
  obtain ⟨hlow, hhigh⟩ := h
  cases reverse with
  | true =>
    have hhigh' : max (s.cursor - 1) (-1) ≤ s.last := by omega
    exact ⟨Int.le_max_right _ _, hhigh'⟩
  | false =>
    have hlow' : -1 ≤ min (s.cursor + 1) s.last := by omega
    exact ⟨hlow', Int.min_le_right _ _⟩

theorem moved_advance (s : Session) (reverse : Bool) : Moved s (s.advance reverse) :=
  ⟨_, _, rfl, fun h => within_advance h reverse⟩

theorem moved_finish (s : Session) : Moved s s.finish.1 := ⟨_, _, rfl, id⟩

theorem moved_continue (s : Session) (reverse : Bool) : Moved s (s.continue_ reverse).1 := by
  fun_induction continue_ s reverse with
  | case1 s hend => exact (moved_advance s reverse).trans (moved_finish _)
  | case2 s hend hstill => exact moved_advance s reverse
  | case3 s hend hstill hbreak => exact moved_advance s reverse
  | case4 s hend hstill hbreak ih => exact (moved_advance s reverse).trans ih

theorem moved_step (s : Session) (reverse : Bool) : Moved s (s.step reverse).1 := by
  have hmove := moved_advance s reverse
  simp only [step]
  split
  · exact hmove.trans (moved_finish _)
  · exact hmove

theorem moved_start (s : Session) (stopOnEntry : Bool) : Moved s (s.start stopOnEntry).1 := by
  have hrewind : Moved s { s with cursor := -1, showGas := true } :=
    ⟨-1, true, rfl, fun _ => within_of_cursor_eq rfl⟩
  cases stopOnEntry with
  | true => exact hrewind
  | false => exact hrewind.trans (moved_continue _ false)

/-- What an operation does: it moves, it replaces the breakpoints, or it loads another artifact. -/
theorem perform_cases (s : Session) (op : Operation) :
    (Moved s (s.perform op).1 ∧ (∀ lines, op ≠ .setBreakpoints lines) ∧ ∀ a, op ≠ .reload a) ∨
    (∃ lines, op = .setBreakpoints lines) ∨ (∃ a, op = .reload a) := by
  cases op with
  | start stopOnEntry => exact Or.inl ⟨moved_start s stopOnEntry, by simp, by simp⟩
  | step reverse => exact Or.inl ⟨moved_step s reverse, by simp, by simp⟩
  | continue_ reverse => exact Or.inl ⟨moved_continue s reverse, by simp, by simp⟩
  | setBreakpoints lines => exact Or.inr (Or.inl ⟨lines, rfl⟩)
  | reload artifact => exact Or.inr (Or.inr ⟨artifact, rfl⟩)

/-! ## Breakpoints -/

/-- The lines that some step ends on. -/
def reachable (s : Session) : List UInt32 := s.execution.steps.filterMap Step.line?

theorem mem_reachable (s : Session) (line : UInt32) :
    line ∈ s.reachable ↔ ∃ step ∈ s.execution.steps, step.line? = some line := by
  simp [reachable]

theorem numbered_ids (reachable : List UInt32) (id : Nat) (lines : List UInt32) :
    (numbered reachable id lines).map (·.id) = List.range' id lines.length := by
  induction lines generalizing id with
  | nil => rfl
  | cons line lines ih => simp [numbered, ih, List.range'_succ]

theorem numbered_lines (reachable : List UInt32) (id : Nat) (lines : List UInt32) :
    (numbered reachable id lines).map (·.line) = lines := by
  induction lines generalizing id with
  | nil => rfl
  | cons line lines ih => simp [numbered, ih]

theorem numbered_verified (reachable : List UInt32) (id : Nat) (lines : List UInt32) :
    ∀ b ∈ numbered reachable id lines, b.verified = true ↔ b.line ∈ reachable := by
  induction lines generalizing id with
  | nil => simp [numbered]
  | cons line lines ih =>
    intro b hb
    rcases List.mem_cons.mp hb with rfl | hb
    · simp
    · exact ih (id + 1) b hb

/-! ## The invariant -/

/-- What holds in every state of a session. -/
structure Valid (s : Session) : Prop where
  within : Within s
  gas_eq : s.gas = s.execution.gasMap
  /-- The breakpoints are numbered up to the next number and checked against the execution. -/
  breakpoints_eq : ∃ first, first + s.breakpoints.length = s.nextId ∧
    s.breakpoints = numbered s.reachable first (s.breakpoints.map (·.line))
  stopLines_eq : s.stopLines = (s.breakpoints.filter (·.verified)).map (·.line)

theorem valid_make (artifact : { a : Artifact // a.Rebuilt }) (entrypoint : String) (env : Environment)
    (constants : List Constant) : Valid (make artifact.val entrypoint env constants) where
  within := within_of_cursor_eq rfl
  gas_eq := artifact.property.gas_eq
  breakpoints_eq := ⟨1, rfl, rfl⟩
  stopLines_eq := rfl

theorem Valid.moved {s t : Session} (h : Valid s) (hmove : Moved s t) : Valid t := by
  obtain ⟨cursor, showGas, rfl, hwithin⟩ := hmove
  exact ⟨hwithin h.within, h.gas_eq, h.breakpoints_eq, h.stopLines_eq⟩

theorem valid_setBreakpoints (s : Session) (lines : List UInt32)
    (hwithin : Within s) (hgas : s.gas = s.execution.gasMap) :
    Valid (s.setBreakpoints lines) where
  within := hwithin
  gas_eq := hgas
  breakpoints_eq := by
    have hlines := numbered_lines s.reachable s.nextId lines
    have hlength := congrArg List.length hlines
    rw [List.length_map] at hlength
    refine ⟨s.nextId, ?_, ?_⟩
    · exact congrArg (s.nextId + ·) hlength
    · exact (congrArg (numbered s.reachable s.nextId) hlines).symm
  stopLines_eq := rfl

theorem Valid.perform {s : Session} (h : Valid s) (op : Operation) : Valid (s.perform op).1 := by
  obtain ⟨hmove, -⟩ | ⟨lines, rfl⟩ | ⟨artifact, rfl⟩ := perform_cases s op
  · exact h.moved hmove
  · exact valid_setBreakpoints s lines h.within h.gas_eq
  · exact valid_setBreakpoints _ _ (within_of_cursor_eq rfl) artifact.property.gas_eq

theorem Valid.after {s : Session} (h : Valid s) (ops : List Operation) : Valid (s.after ops) := by
  induction ops generalizing s with
  | nil => exact h
  | cons op ops ih => exact ih (h.perform op)

theorem Valid.ids_eq {s : Session} (h : Valid s) :
    ∃ first, first + s.breakpoints.length = s.nextId ∧
      s.breakpoints.map (·.id) = List.range' first s.breakpoints.length := by
  obtain ⟨first, hnext, heq⟩ := h.breakpoints_eq
  refine ⟨first, hnext, ?_⟩
  have hids := numbered_ids s.reachable first (s.breakpoints.map (·.line))
  rwa [← heq, List.length_map] at hids

theorem Valid.verified_iff {s : Session} (h : Valid s) {b : Breakpoint} (hb : b ∈ s.breakpoints) :
    b.verified = true ↔ ∃ step ∈ s.execution.steps, step.line? = some b.line := by
  obtain ⟨first, -, heq⟩ := h.breakpoints_eq
  rw [heq] at hb
  rw [numbered_verified _ _ _ b hb, mem_reachable]

theorem Valid.mem_stopLines {s : Session} (h : Valid s) (line : UInt32) :
    line ∈ s.stopLines ↔ ∃ b ∈ s.breakpoints, b.verified = true ∧ b.line = line := by
  rw [h.stopLines_eq]
  simp [and_assoc]

theorem Valid.onBreakpoint_iff {s : Session} (h : Valid s) :
    s.onBreakpoint = true ↔
      ∃ b ∈ s.breakpoints, b.verified = true ∧ s.current?.bind Step.line? = some b.line := by
  unfold onBreakpoint
  cases s.current?.bind Step.line? with
  | none => simp
  | some line => simp [h.mem_stopLines, @eq_comm _ line]

/-! ## Loading -/

theorem loaded_perform (s : Session) (artifact : { a : Artifact // a.Rebuilt }) (op : Operation)
    (h : s.execution = artifact.val.execution) :
    (s.perform op).1.execution = (loaded artifact [op]).val.execution := by
  obtain ⟨⟨cursor, showGas, heq, -⟩, -, hreload⟩ | ⟨lines, rfl⟩ | ⟨new, rfl⟩ := perform_cases s op
  · -- A move keeps the execution, and so does what is loaded.
    rw [heq]
    cases op with
    | reload new => exact absurd rfl (hreload new)
    | _ => exact h
  · exact h
  · rfl

theorem loaded_cons (artifact : { a : Artifact // a.Rebuilt }) (op : Operation) (ops : List Operation) :
    loaded artifact (op :: ops) = loaded (loaded artifact [op]) ops := by
  cases op <;> rfl

theorem execution_after (s : Session) (artifact : { a : Artifact // a.Rebuilt }) (ops : List Operation)
    (h : s.execution = artifact.val.execution) :
    (s.after ops).execution = (loaded artifact ops).val.execution := by
  induction ops generalizing s artifact with
  | nil => exact h
  | cons op ops ih =>
    rw [loaded_cons]
    exact ih _ _ (loaded_perform s artifact op h)

/-! ## Numbers given out -/

/-- The numbers that an operation gives to new breakpoints. -/
def handed (s : Session) (op : Operation) : List Nat :=
  match op with
  | .setBreakpoints _ | .reload _ => (s.perform op).1.breakpoints.map (·.id)
  | .start _ | .step _ | .continue_ _ => []

def handedOut (s : Session) : List Operation → List Nat
  | [] => []
  | op :: ops => s.handed op ++ (s.perform op).1.handedOut ops

theorem ids_setBreakpoints (s : Session) (lines : List UInt32) :
    (s.setBreakpoints lines).breakpoints.map (·.id) = List.range' s.nextId lines.length :=
  numbered_ids _ _ _

theorem handed_eq (s : Session) (op : Operation) :
    ∃ n, s.handed op = List.range' s.nextId n ∧ (s.perform op).1.nextId = s.nextId + n := by
  obtain ⟨⟨cursor, showGas, heq, -⟩, hset, hreload⟩ | ⟨lines, rfl⟩ | ⟨artifact, rfl⟩ :=
    perform_cases s op
  · refine ⟨0, ?_, by rw [heq]; rfl⟩
    cases op with
    | setBreakpoints lines => exact absurd rfl (hset lines)
    | reload artifact => exact absurd rfl (hreload artifact)
    | _ => rfl
  · exact ⟨lines.length, ids_setBreakpoints s lines, rfl⟩
  · exact ⟨(s.breakpoints.map Breakpoint.line).length, ids_setBreakpoints _ _, rfl⟩

theorem handedOut_eq (s : Session) (ops : List Operation) :
    ∃ n, s.handedOut ops = List.range' s.nextId n := by
  induction ops generalizing s with
  | nil => exact ⟨0, rfl⟩
  | cons op ops ih =>
    obtain ⟨n, hhanded, hnext⟩ := handed_eq s op
    obtain ⟨m, hrest⟩ := ih (s.perform op).1
    refine ⟨n + m, ?_⟩
    rw [handedOut, hhanded, hrest, hnext, List.range'_append_1]

/-- **Session invariant.** After any operations on a new session over a rebuilt run, the cursor is
within the loaded execution, breakpoints are verified against it, the session stops on the verified
lines, and numbers grow from each batch of breakpoints to the next. -/
theorem after_invariant (artifact : { a : Artifact // a.Rebuilt }) (entrypoint : String)
    (env : Environment) (constants : List Constant) (ops : List Operation) :
    let first := make artifact.val entrypoint env constants
    let s := first.after ops
    s.execution = (loaded artifact ops).val.execution ∧
    (-1 ≤ s.cursor ∧ s.cursor ≤ (s.execution.length : Int) - 1) ∧
    (∀ b ∈ s.breakpoints,
      (b.verified = true ↔ ∃ step ∈ s.execution.steps, step.line? = some b.line) ∧
      (b.verified = true ↔ b.line ∈ s.gas.keys)) ∧
    (∀ line, line ∈ s.stopLines ↔ ∃ b ∈ s.breakpoints, b.verified = true ∧ b.line = line) ∧
    (s.onBreakpoint = true ↔
      ∃ b ∈ s.breakpoints, b.verified = true ∧ s.current?.bind Step.line? = some b.line) ∧
    (∃ id, s.breakpoints.map (·.id) = List.range' id s.breakpoints.length) ∧
    (∀ b ∈ s.breakpoints, b.id < s.nextId) ∧
    (first.handedOut ops).Pairwise (· < ·) := by
  intro first s
  have hvalid : Valid s := (valid_make artifact entrypoint env constants).after ops
  obtain ⟨id, hnext, hids⟩ := hvalid.ids_eq
  refine ⟨execution_after first artifact ops rfl, hvalid.within, ?_, hvalid.mem_stopLines,
    hvalid.onBreakpoint_iff, ⟨id, hids⟩, ?_, ?_⟩
  · intro b hb
    have hverified := hvalid.verified_iff hb
    refine ⟨hverified, ?_⟩
    rw [hverified, hvalid.gas_eq, Execution.mem_keys_gasMap]
  · intro b hb
    have hmem : b.id ∈ s.breakpoints.map (·.id) := List.mem_map_of_mem hb
    rw [hids, List.mem_range'_1] at hmem
    omega
  · obtain ⟨n, hn⟩ := handedOut_eq first ops
    rw [hn]
    exact List.pairwise_lt_range'

end Session
end Retrace
