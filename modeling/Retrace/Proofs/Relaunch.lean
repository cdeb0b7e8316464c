import Retrace.Proofs.Preorder
import Retrace.Proofs.Session

/-!
# Relaunching and starting anew

A reloaded session has all it shows from the new run, except for the names that it was made with:
that of the contract, those of the storage fields and those of the inputs. So it can be told from a
session made for the new run exactly when these names differ.
-/

namespace Retrace

/-! ## Names -/

/-- The names by which a session tells variables and declarations apart. -/
structure Names where
  contract : String
  storage : List String
  inputs : List String

/-- The same contract, and the same names in any order. -/
structure Names.Same (n m : Names) : Prop where
  contract : n.contract = m.contract
  storage : ∀ name, name ∈ n.storage ↔ name ∈ m.storage
  inputs : ∀ name, name ∈ n.inputs ↔ name ∈ m.inputs

/-- The names of a document, as a call of an entrypoint sees them. -/
def Document.names (d : Document) (entrypoint : String) : Names :=
  ⟨d.name, d.storageNames, d.inputNames entrypoint⟩

/-- A line with a breakpoint, and whether it can be reached. -/
def Breakpoint.mark (b : Breakpoint) : UInt32 × Bool := (b.line, b.verified)

namespace Session

def names (s : Session) : Names := ⟨s.contract, s.storageNames, s.inputNames⟩

theorem perform_keeps (s : Session) (op : Operation) :
    (s.perform op).1.names = s.names ∧ (s.perform op).1.constants = s.constants := by
  obtain ⟨⟨cursor, showGas, heq, -⟩, -⟩ | ⟨lines, rfl⟩ | ⟨artifact, rfl⟩ := perform_cases s op
  · rw [heq]
    exact ⟨rfl, rfl⟩
  · exact ⟨rfl, rfl⟩
  · exact ⟨rfl, rfl⟩

theorem after_keeps (s : Session) (ops : List Operation) :
    (s.after ops).names = s.names ∧ (s.after ops).constants = s.constants := by
  induction ops generalizing s with
  | nil => exact ⟨rfl, rfl⟩
  | cons op ops ih =>
    obtain ⟨hnames, hconstants⟩ := perform_keeps s op
    rw [after, (ih _).1, (ih _).2, hnames, hconstants]
    exact ⟨rfl, rfl⟩

/-! ## What can be seen -/

/-- What a session shows, the numbers of its breakpoints apart. -/
structure Sight where
  cursor : Int
  inScope : Scope → List Binding
  frame? : Option Frame
  evaluate? : String → Option String
  decorations? : Option GasMap
  breakpoints : List (UInt32 × Bool)

def sight (s : Session) : Sight :=
  ⟨s.cursor, s.inScope, s.frame?, s.evaluate?, s.decorations?, s.breakpoints.map Breakpoint.mark⟩

/-- The events of operations in turn, each with what the session shows after it. -/
def history (s : Session) : List Operation → List (List Event × Sight)
  | [] => []
  | op :: ops => ((s.perform op).2, (s.perform op).1.sight) :: (s.perform op).1.history ops

/-- Two sessions that differ at most in the numbers of their breakpoints and in the order of their
names. -/
structure Alike (s t : Session) : Prop where
  execution : s.execution = t.execution
  gas : s.gas = t.gas
  cursor : s.cursor = t.cursor
  constants : s.constants = t.constants
  showGas : s.showGas = t.showGas
  stopLines : s.stopLines = t.stopLines
  marks : s.breakpoints.map Breakpoint.mark = t.breakpoints.map Breakpoint.mark
  names : s.names.Same t.names

theorem Alike.sight {s t : Session} (h : Alike s t) : s.sight = t.sight := by
  have hcurrent : s.current? = t.current? := by rw [current?, current?, h.cursor, h.execution]
  have hbindings : s.bindings = t.bindings := by rw [bindings, bindings, hcurrent]
  have hstorage (name : String) : s.storageNames.contains name = t.storageNames.contains name := by
    rw [Bool.eq_iff_iff, List.contains_iff_mem, List.contains_iff_mem]
    exact h.names.storage name
  have hinputs (name : String) : s.inputNames.contains name = t.inputNames.contains name := by
    rw [Bool.eq_iff_iff, List.contains_iff_mem, List.contains_iff_mem]
    exact h.names.inputs name
  have hscope : s.inScope = t.inScope := by
    funext scope
    cases scope <;> simp only [inScope, hbindings, hstorage, hinputs, h.constants]
  have hcontract : s.contract = t.contract := h.names.contract
  have hframe : s.frame? = t.frame? := by
    rw [frame?, frame?, h.cursor, h.execution, hcontract]
  have hevaluate : s.evaluate? = t.evaluate? := by
    funext name
    rw [evaluate?, evaluate?, hcurrent]
  have hdecorations : s.decorations? = t.decorations? := by
    rw [decorations?, decorations?, h.showGas, h.gas]
  simp only [Session.sight, h.cursor, hscope, hframe, hevaluate, hdecorations, h.marks]

/-! ## Moves -/

/-- A session with the names and the breakpoints of another one. -/
def dressed (s t : Session) : Session :=
  { s with
    contract := t.contract
    storageNames := t.storageNames
    inputNames := t.inputNames
    breakpoints := t.breakpoints
    nextId := t.nextId }

theorem Alike.eq_dressed {s t : Session} (h : Alike s t) : t = s.dressed t := by
  obtain ⟨hexecution, hgas, hcursor, hconstants, hshow, hstop, -, -⟩ := h
  cases t
  simp_all [dressed]

theorem continue_dressed (s t : Session) (reverse : Bool) :
    (s.dressed t).continue_ reverse =
      ((s.continue_ reverse).1.dressed t, (s.continue_ reverse).2) := by
  fun_induction continue_ s reverse with
  | case1 s hend => rw [continue_, if_pos (by exact hend)]; rfl
  | case2 s hend hstill => rw [continue_, if_neg (by exact hend), if_pos (by exact hstill)]; rfl
  | case3 s hend hstill hbreak =>
    rw [continue_, if_neg (by exact hend), if_neg (by exact hstill), if_pos (by exact hbreak)]; rfl
  | case4 s hend hstill hbreak ih =>
    rw [continue_, if_neg (by exact hend), if_neg (by exact hstill), if_neg (by exact hbreak)]
    exact ih

theorem step_dressed (s t : Session) (reverse : Bool) :
    (s.dressed t).step reverse = ((s.step reverse).1.dressed t, (s.step reverse).2) := by
  have hend : ((s.dressed t).advance reverse).atEnd = (s.advance reverse).atEnd := rfl
  simp only [step, hend]
  split <;> rfl

theorem start_dressed (s t : Session) (stopOnEntry : Bool) :
    (s.dressed t).start stopOnEntry = ((s.start stopOnEntry).1.dressed t, (s.start stopOnEntry).2) := by
  cases stopOnEntry with
  | true => rfl
  | false => exact continue_dressed { s with cursor := -1, showGas := true } t false

theorem Alike.of_dressed {s t u : Session} (h : Alike s t) (hmove : Moved s u) :
    Alike u (u.dressed t) := by
  obtain ⟨cursor, showGas, rfl, -⟩ := hmove
  exact ⟨rfl, rfl, rfl, rfl, rfl, rfl, h.marks, h.names⟩

/-! ## Breakpoints -/

theorem numbered_marks (reachable : List UInt32) (id : Nat) (lines : List UInt32) :
    (numbered reachable id lines).map Breakpoint.mark =
      lines.map fun line => (line, reachable.contains line) := by
  induction lines generalizing id with
  | nil => rfl
  | cons line lines ih => simp [numbered, ih, Breakpoint.mark]

theorem stopLines_eq_marks (breakpoints : List Breakpoint) :
    (breakpoints.filter (·.verified)).map (·.line) =
      ((breakpoints.map Breakpoint.mark).filter (·.2)).map (·.1) := by
  rw [List.filter_map, List.map_map]
  rfl

theorem Alike.setBreakpoints {s t : Session} (h : Alike s t) (lines : List UInt32) :
    Alike (s.setBreakpoints lines) (t.setBreakpoints lines) := by
  have hmarks : (s.setBreakpoints lines).breakpoints.map Breakpoint.mark =
      (t.setBreakpoints lines).breakpoints.map Breakpoint.mark := by
    simp only [Session.setBreakpoints, numbered_marks, h.execution]
  have hstop : (s.setBreakpoints lines).stopLines = (t.setBreakpoints lines).stopLines := by
    simp only [Session.setBreakpoints] at hmarks ⊢
    rw [stopLines_eq_marks, hmarks, ← stopLines_eq_marks]
  exact ⟨h.execution, h.gas, h.cursor, h.constants, h.showGas, hstop, hmarks, h.names⟩

theorem Alike.lines {s t : Session} (h : Alike s t) :
    s.breakpoints.map (·.line) = t.breakpoints.map (·.line) := by
  simpa [Function.comp_def, Breakpoint.mark] using congrArg (List.map Prod.fst) h.marks

theorem Alike.reload {s t : Session} (h : Alike s t) (artifact : Artifact) :
    Alike (s.reload artifact) (t.reload artifact) := by
  have hloaded : Alike { s with execution := artifact.execution, gas := artifact.gas, cursor := -1 }
      { t with execution := artifact.execution, gas := artifact.gas, cursor := -1 } :=
    ⟨rfl, rfl, rfl, h.constants, h.showGas, h.stopLines, h.marks, h.names⟩
  simp only [Session.reload, h.lines]
  exact hloaded.setBreakpoints _

/-! ## Runs -/

theorem Alike.perform {s t : Session} (h : Alike s t) (op : Operation) :
    (s.perform op).2 = (t.perform op).2 ∧ Alike (s.perform op).1 (t.perform op).1 := by
  cases op with
  | start stopOnEntry =>
    rw [h.eq_dressed]
    simp only [Session.perform, start_dressed]
    exact ⟨trivial, h.of_dressed (moved_start s stopOnEntry)⟩
  | step reverse =>
    rw [h.eq_dressed]
    simp only [Session.perform, step_dressed]
    exact ⟨trivial, h.of_dressed (moved_step s reverse)⟩
  | continue_ reverse =>
    rw [h.eq_dressed]
    simp only [Session.perform, continue_dressed]
    exact ⟨trivial, h.of_dressed (moved_continue s reverse)⟩
  | setBreakpoints lines => exact ⟨rfl, h.setBreakpoints lines⟩
  | reload artifact => exact ⟨rfl, h.reload artifact.val⟩

theorem Alike.history {s t : Session} (h : Alike s t) (ops : List Operation) :
    s.history ops = t.history ops := by
  induction ops generalizing s t with
  | nil => rfl
  | cons op ops ih =>
    obtain ⟨hevents, hafter⟩ := h.perform op
    rw [Session.history, Session.history, hevents, hafter.sight, ih hafter]

theorem history_reload {s : Session} {artifact : Artifact} {entrypoint : String} {env : Environment}
    {constants : List Constant} (hconstants : s.constants = (make artifact entrypoint env constants).constants)
    (hnames : s.names.Same (artifact.document.names entrypoint)) (stopOnEntry : Bool) (later : List Operation) :
    (s.reload artifact).history (.start stopOnEntry :: later) =
      ((make artifact entrypoint env constants).setBreakpoints (s.breakpoints.map (·.line))).history
        (.start stopOnEntry :: later) := by
  -- A start shows gas whatever was shown before it.
  have hbase : Alike
      { s with
        execution := artifact.execution
        gas := artifact.gas
        cursor := -1
        showGas := true
        breakpoints := []
        stopLines := [] }
      { make artifact entrypoint env constants with showGas := true } :=
    ⟨rfl, rfl, rfl, hconstants, rfl, rfl, rfl, hnames⟩
  exact (hbase.setBreakpoints (s.breakpoints.map (·.line))).history (.start stopOnEntry :: later)

/-! ## Telling names apart -/

def soleNode (slot : String) : Micheline := .prim "CDR" [] [] (some ⟨[slot], none, none⟩)

def soleTrace : String := "trace\n  - location: 0 (just consumed gas: 1)\n    [ 5 ]"

theorem ofString_soleTrace :
    ∃ gas, Trace.ofString soleTrace = .ok ⟨none, [⟨0, gas, ["5"]⟩]⟩ ∧ (gas == 0) = false :=
  ⟨_, rfl, by decide +kernel⟩

def soleRun (slot : String) (gas : Float) : Execution := ⟨none, [⟨[⟨slot, "5"⟩], gas, none, none⟩]⟩

theorem exists_soleRun {d : Document} {slot : String} (h : d.contract = soleNode slot) :
    ∃ (a : { a : Artifact // a.Rebuilt }) (gas : Float),
      Artifact.reconstruct d soleTrace = .ok a.val ∧ a.val.document = d ∧
        a.val.execution = soleRun slot gas := by
  obtain ⟨gas, htrace, hgas⟩ := ofString_soleTrace
  have hnodes : d.contract.locations = [soleNode slot] := by
    rw [h, Micheline.locations_eq]
    rfl
  have hsteps : Execution.rebuild d.contract ⟨none, [⟨0, gas, ["5"]⟩]⟩ =
      .ok (soleRun slot (0 + gas * Execution.gasScale)) := by
    simp [Execution.rebuild, hnodes, Execution.stepsFrom, hgas, soleNode, Micheline.debugInfo?,
      Execution.bind, Execution.stepsOf, Except.map, soleRun]
  have hrebuilt : Artifact.reconstruct d soleTrace =
      .ok ⟨d, soleTrace, ⟨none, [⟨0, gas, ["5"]⟩]⟩, soleRun slot (0 + gas * Execution.gasScale),
        (soleRun slot (0 + gas * Execution.gasScale)).gasMap⟩ := by
    simp only [Artifact.reconstruct, htrace, bind, Except.bind, hsteps]
  exact ⟨⟨_, d, soleTrace, hrebuilt⟩, _, hrebuilt, rfl, rfl⟩

theorem sole_sight (s : Session) {a : Artifact} {slot : String} {gas : Float}
    (h : a.execution = soleRun slot gas) :
    let t := ((s.reload a).step false).1
    (t.inScope .storage = [⟨slot, "5"⟩] ↔ slot ∈ s.names.storage) ∧
    (t.inScope .inputs = [⟨slot, "5"⟩] ↔ slot ∈ s.names.inputs) ∧
    t.frame? = some ⟨s.names.contract, none, 0, 0⟩ := by
  intro t
  have hcursor : t.cursor = 0 := by
    simp [t, step, reload, setBreakpoints, advance, atEnd, finish, last, Execution.length, h, soleRun]
  obtain ⟨cursor, showGas, hmoved, -⟩ := moved_step (s.reload a) false
  have hexecution : t.execution = soleRun slot gas := by
    rw [show t = _ from hmoved, ← h]
    rfl
  have hnames : t.names = s.names := by
    rw [show t = _ from hmoved]
    rfl
  have hbindings : t.bindings = [⟨slot, "5"⟩] := by
    unfold bindings current?
    rw [hcursor, hexecution]
    rfl
  refine ⟨?_, ?_, ?_⟩
  · rw [← hnames]
    simp [inScope, hbindings, names]
  · rw [← hnames]
    simp [inScope, hbindings, names]
  · rw [← hnames]
    unfold frame?
    rw [hcursor, hexecution]
    rfl

/-- **Relaunching.** A reloaded session and one made for the new run, with the same lines as
breakpoints, publish the same events and show the same things in every run from a start on, exactly
when the names of the first document are those of the new one. -/
theorem relaunch_seen_iff (old new : { a : Artifact // a.Rebuilt }) (entrypoint : String)
    (env : Environment) (constants : List Constant) (ops : List Operation) :
    let s := (make old.val entrypoint env constants).after ops
    let fresh := (make new.val entrypoint env constants).setBreakpoints (s.breakpoints.map (·.line))
    (∀ stopOnEntry later,
      (s.reload new.val).history (.start stopOnEntry :: later) =
        fresh.history (.start stopOnEntry :: later)) ↔
      (old.val.document.names entrypoint).Same (new.val.document.names entrypoint) := by
  intro s fresh
  obtain ⟨hnames, hconstants⟩ := after_keeps (make old.val entrypoint env constants) ops
  constructor
  · intro hsame
    -- A third run with one step and one slot tells whether the slot's name is known.
    have hprobe (slot : String) : ∃ (a : { a : Artifact // a.Rebuilt }) (gas : Float),
        a.val.execution = soleRun slot gas ∧
        ((((s.reload new.val).start true).1.reload a.val).step false).1.sight =
          (((fresh.start true).1.reload a.val).step false).1.sight := by
      obtain ⟨a, gas, -, -, ha⟩ := exists_soleRun (d := ⟨"", none, soleNode slot⟩) rfl
      have h := hsame true [.reload a, .step false]
      simp only [history, perform, List.cons.injEq, Prod.mk.injEq] at h
      exact ⟨a, gas, ha, h.2.2.1.2⟩
    have hold : ((s.reload new.val).start true).1.names = old.val.document.names entrypoint := hnames
    have hnew : (fresh.start true).1.names = new.val.document.names entrypoint := rfl
    refine ⟨?_, fun slot => ?_, fun slot => ?_⟩
    · obtain ⟨a, gas, ha, hsight⟩ := hprobe ""
      have hframe := congrArg Sight.frame? hsight
      simp only [sight, (sole_sight _ ha).2.2, hold, hnew, Option.some.injEq, Frame.mk.injEq] at hframe
      exact hframe.1
    · obtain ⟨a, gas, ha, hsight⟩ := hprobe slot
      have hscope := congrFun (congrArg Sight.inScope hsight) .storage
      rw [← hold, ← hnew, ← (sole_sight _ ha).1, ← (sole_sight _ ha).1]
      exact (congrArg (· = _) hscope).to_iff
    · obtain ⟨a, gas, ha, hsight⟩ := hprobe slot
      have hscope := congrFun (congrArg Sight.inScope hsight) .inputs
      rw [← hold, ← hnew, ← (sole_sight _ ha).2.1, ← (sole_sight _ ha).2.1]
      exact (congrArg (· = _) hscope).to_iff
  · intro hsame stopOnEntry later
    have hs : s.names.Same (new.val.document.names entrypoint) := by
      rw [show s.names = _ from hnames]
      exact hsame
    have hc : s.constants = (make new.val entrypoint env constants).constants := hconstants
    exact history_reload hc hs stopOnEntry later

/-- A contract with one storage field, and code that binds `b`. -/
def sampleDocument (name field : String) : Document :=
  ⟨name, some ⟨[], [⟨field, "nat", none⟩], []⟩, soleNode "b"⟩

/-- After the field `a` was renamed to `b`, a relaunched session shows the value of `b` as that of a
local variable, and a session made anew as that of a storage field. -/
theorem relaunch_seen_differs :
    ∃ old new : { a : Artifact // a.Rebuilt },
      Artifact.reconstruct (sampleDocument "old" "a") soleTrace = .ok old.val ∧
      Artifact.reconstruct (sampleDocument "new" "b") soleTrace = .ok new.val ∧
      ((make old.val "exec" (.make "2024-01-15 10:30:00" "tz1caller") []).reload new.val).history
          [.start true, .step false] ≠
        ((make new.val "exec" (.make "2024-01-15 10:30:00" "tz1caller") []).setBreakpoints []).history
          [.start true, .step false] := by
  obtain ⟨old, -, hrebuilt, hold, -⟩ := exists_soleRun (d := sampleDocument "old" "a") rfl
  obtain ⟨new, gas, hrebuilt', hnew, hrun⟩ := exists_soleRun (d := sampleDocument "new" "b") rfl
  refine ⟨old, new, hrebuilt, hrebuilt', fun h => ?_⟩
  simp only [history, perform, List.cons.injEq, Prod.mk.injEq] at h
  have hscope := congrFun (congrArg Sight.inScope h.2.1.2) .storage
  have hknown (a : Artifact) := (sole_sight
    { make a "exec" (.make "2024-01-15 10:30:00" "tz1caller") [] with showGas := true } hrun).1
  have hfield : "b" ∈ new.val.document.storageNames := by rw [hnew]; decide
  have hother : "b" ∉ old.val.document.storageNames := by rw [hold]; decide
  exact hother ((hknown old.val).mp (hscope.trans ((hknown new.val).mpr hfield)))

end Session
end Retrace
