import Mathlib.Data.List.DropRight
import Mathlib.Data.List.Infix
import Retrace.Execution.Basic

/-!
# What a rebuilt execution holds

The steps of a trace are told item by item, from the items that came before it: which gas is charged
to it, how many steps it makes, and which of the items is the first that does not fit the contract.
-/

namespace Retrace.Execution

/-! ## Items and faults -/

/-- The items that consumed gas. -/
def charged (items : List TraceItem) : List TraceItem := items.filter fun item => !(item.gas == 0)

/-- The annotation of the node that an item executed. -/
def annotation? (nodes : List Micheline) (item : TraceItem) : Option DebugInfo :=
  nodes[item.location]?.bind Micheline.debugInfo?

/-- The location of an item is there, and its stack has a value for each annotated name. -/
def Fits (nodes : List Micheline) (item : TraceItem) : Prop :=
  item.location < nodes.length ∧
    ∀ info, annotation? nodes item = some info → item.stack.length = info.names.length

inductive Fault (nodes : List Micheline) (item : TraceItem) : TraceError → Prop
  | unknown (h : nodes.length ≤ item.location) :
    Fault nodes item (.unknownLocation item.location nodes.length)
  | mismatch (info : DebugInfo) (hinfo : annotation? nodes item = some info)
      (h : item.stack.length ≠ info.names.length) :
    Fault nodes item (.stackMismatch item.location info.names item.stack)

/-- The first item that does not fit has the fault. -/
def FirstFault (nodes : List Micheline) (items : List TraceItem) (e : TraceError) : Prop :=
  ∃ before item after, items = before ++ item :: after ∧ (∀ x ∈ before, Fits nodes x) ∧
    Fault nodes item e

theorem annotation?_lt {nodes : List Micheline} {item : TraceItem} {info : DebugInfo}
    (h : annotation? nodes item = some info) : item.location < nodes.length := by
  obtain ⟨node, hnode, -⟩ := Option.bind_eq_some_iff.mp h
  exact (List.getElem?_eq_some_iff.mp hnode).1

theorem Fault.not_fits {nodes : List Micheline} {item : TraceItem} {e : TraceError}
    (h : Fault nodes item e) : ¬ Fits nodes item := by
  rintro ⟨hlt, hnames⟩
  cases h with
  | unknown h => omega
  | mismatch info hinfo h => exact h (hnames info hinfo)

theorem Fault.unique {nodes : List Micheline} {item : TraceItem} {e e' : TraceError}
    (h : Fault nodes item e) (h' : Fault nodes item e') : e = e' := by
  cases h with
  | unknown hle =>
    cases h' with
    | unknown => rfl
    | mismatch info hinfo _ => have := annotation?_lt hinfo; omega
  | mismatch info hinfo _ =>
    cases h' with
    | unknown hle => have := annotation?_lt hinfo; omega
    | mismatch info' hinfo' _ =>
      obtain rfl : info = info' := Option.some.inj (hinfo.symm.trans hinfo')
      rfl

theorem firstFault_cons (nodes : List Micheline) (x : TraceItem) (xs : List TraceItem) (e : TraceError) :
    FirstFault nodes (x :: xs) e ↔ Fault nodes x e ∨ Fits nodes x ∧ FirstFault nodes xs e := by
  constructor
  · rintro ⟨before, item, after, hitems, hfits, hfault⟩
    cases before with
    | nil =>
      obtain ⟨rfl, rfl⟩ := List.cons.inj hitems
      exact Or.inl hfault
    | cons y before =>
      obtain ⟨rfl, rfl⟩ := List.cons.inj hitems
      exact Or.inr ⟨hfits x List.mem_cons_self, before, item, after, rfl,
        fun z hz => hfits z (List.mem_cons_of_mem _ hz), hfault⟩
  · rintro (hfault | ⟨hx, before, item, after, rfl, hfits, hfault⟩)
    · exact ⟨[], x, xs, rfl, by simp, hfault⟩
    · refine ⟨x :: before, item, after, rfl, ?_, hfault⟩
      intro z hz
      rcases List.mem_cons.mp hz with rfl | hz
      · exact hx
      · exact hfits z hz

/-! ## Steps -/

/-- The gas of items in milligas, added from the left. -/
def gasOf (items : List TraceItem) : Float :=
  items.foldl (fun sum item => sum + item.gas * gasScale) 0

/-- The items after the last annotated one. -/
def unannotatedEnd (nodes : List Micheline) (items : List TraceItem) : List TraceItem :=
  items.rtakeWhile fun item => (annotation? nodes item).isNone

/-- The steps of an item, from the items before it. -/
def block (nodes : List Micheline) (before : List TraceItem) (item : TraceItem) : List Step :=
  match annotation? nodes item with
  | none => []
  | some info =>
    let stack := List.zipWith Binding.mk info.names item.stack
    let gas := gasOf (unannotatedEnd nodes before ++ [item])
    if info.range.isSome ∧ info.boundary.isSome then
      [⟨stack, gas, info.range, none⟩, ⟨stack, 0, none, info.boundary⟩]
    else [⟨stack, gas, info.range, info.boundary⟩]

/-- The steps of all items, each told from the items before it. -/
def blocks (nodes : List Micheline) (items : List TraceItem) : List Step :=
  (List.zipWith (block nodes) items.inits items).flatten

/-- The steps of items that follow others. -/
def blocksAfter (nodes : List Micheline) (before items : List TraceItem) : List Step :=
  (List.zipWith (fun initial => block nodes (before ++ initial)) items.inits items).flatten

theorem blocksAfter_nil (nodes : List Micheline) (items : List TraceItem) :
    blocksAfter nodes [] items = blocks nodes items := by
  simp [blocksAfter, blocks]

theorem blocksAfter_cons (nodes : List Micheline) (before : List TraceItem) (x : TraceItem)
    (xs : List TraceItem) :
    blocksAfter nodes before (x :: xs) = block nodes before x ++ blocksAfter nodes (before ++ [x]) xs := by
  simp [blocksAfter, List.zipWith_map_left]

theorem gasOf_append_one (items : List TraceItem) (x : TraceItem) :
    gasOf (items ++ [x]) = gasOf items + x.gas * gasScale := by
  simp [gasOf, List.foldl_append]

theorem stepsOf_eq (info : DebugInfo) (stack : List Binding) (gas : Float) :
    stepsOf info stack gas =
      if info.range.isSome ∧ info.boundary.isSome then
        [⟨stack, gas, info.range, none⟩, ⟨stack, 0, none, info.boundary⟩]
      else [⟨stack, gas, info.range, info.boundary⟩] := by
  unfold stepsOf
  cases info.range <;> cases info.boundary <;> simp

/-! ## The loop -/

/-- What one item does: it is passed over, it faults, it leaves its gas to the items after it, or it
makes steps and starts over without gas. -/
theorem stepsFrom_cons (nodes : List Micheline) (gas : Float) (x : TraceItem) (xs : List TraceItem) :
    (charged (x :: xs) = charged xs ∧ stepsFrom nodes gas (x :: xs) = stepsFrom nodes gas xs) ∨
    (charged (x :: xs) = x :: charged xs ∧
      ((∃ e, Fault nodes x e ∧ stepsFrom nodes gas (x :: xs) = .error e) ∨
      (Fits nodes x ∧ annotation? nodes x = none ∧
        stepsFrom nodes gas (x :: xs) = stepsFrom nodes (gas + x.gas * gasScale) xs) ∨
      (∃ info, Fits nodes x ∧ annotation? nodes x = some info ∧
        stepsFrom nodes gas (x :: xs) = (stepsFrom nodes 0 xs).map
          (stepsOf info (List.zipWith Binding.mk info.names x.stack) (gas + x.gas * gasScale) ++ ·)))) := by
  by_cases hgas : (x.gas == 0) = true
  · exact Or.inl ⟨by simp [charged, hgas], by rw [stepsFrom, if_pos hgas]⟩
  refine Or.inr ⟨by simp [charged, hgas], ?_⟩
  rw [stepsFrom, if_neg hgas]
  cases hnode : nodes[x.location]? with
  | none => exact Or.inl ⟨_, .unknown (List.getElem?_eq_none_iff.mp hnode), rfl⟩
  | some node =>
    have hlt := (List.getElem?_eq_some_iff.mp hnode).1
    have hannotation : annotation? nodes x = node.debugInfo? := by simp [annotation?, hnode]
    cases hinfo : node.debugInfo? with
    | none =>
      have hnone : annotation? nodes x = none := hannotation.trans hinfo
      exact Or.inr (Or.inl ⟨⟨hlt, by simp [hnone]⟩, hnone, by simp only [hinfo]⟩)
    | some info =>
      have hsome : annotation? nodes x = some info := hannotation.trans hinfo
      by_cases hnames : info.names.length = x.stack.length
      · have hfits : Fits nodes x := ⟨hlt, by simp [hsome, hnames]⟩
        refine Or.inr (Or.inr ⟨info, hfits, hsome, ?_⟩)
        simp only [hinfo, bind, if_pos hnames]
      · refine Or.inl ⟨_, .mismatch info hsome (Ne.symm hnames), ?_⟩
        simp only [hinfo, bind, if_neg hnames]

theorem map_eq_error_iff {α β : Type} (r : Except TraceError α) (f : α → β) (e : TraceError) :
    r.map f = .error e ↔ r = .error e := by
  cases r <;> simp [Except.map]

theorem map_eq_ok_iff {α β : Type} (r : Except TraceError α) (f : α → β) (b : β) :
    r.map f = .ok b ↔ ∃ a, r = .ok a ∧ f a = b := by
  cases r <;> simp [Except.map]

theorem stepsFrom_error_iff (nodes : List Micheline) (gas : Float) (items : List TraceItem)
    (e : TraceError) :
    stepsFrom nodes gas items = .error e ↔ FirstFault nodes (charged items) e := by
  induction items generalizing gas with
  | nil => simp [stepsFrom, charged, FirstFault]
  | cons x xs ih =>
    obtain ⟨hskip, heq⟩ | ⟨hkeep, hx⟩ := stepsFrom_cons nodes gas x xs
    · rw [hskip, heq, ih]
    rw [hkeep, firstFault_cons]
    obtain ⟨e', hfault, heq⟩ | ⟨hfits, -, heq⟩ | ⟨info, hfits, -, heq⟩ := hx
    · rw [heq, Except.error.injEq]
      constructor
      · rintro rfl
        exact Or.inl hfault
      · rintro (h | ⟨h, -⟩)
        · exact hfault.unique h
        · exact absurd h hfault.not_fits
    · rw [heq, ih]
      exact ⟨fun h => Or.inr ⟨hfits, h⟩, fun h => (h.resolve_left (·.not_fits hfits)).2⟩
    · rw [heq, map_eq_error_iff, ih]
      exact ⟨fun h => Or.inr ⟨hfits, h⟩, fun h => (h.resolve_left (·.not_fits hfits)).2⟩

theorem stepsFrom_ok_iff (nodes : List Micheline) (before items : List TraceItem) (steps : List Step) :
    stepsFrom nodes (gasOf (unannotatedEnd nodes before)) items = .ok steps ↔
      (∀ x ∈ charged items, Fits nodes x) ∧ steps = blocksAfter nodes before (charged items) := by
  induction items generalizing before steps with
  | nil => simp [stepsFrom, charged, blocksAfter, eq_comm]
  | cons x xs ih =>
    obtain ⟨hskip, heq⟩ | ⟨hkeep, hx⟩ :=
      stepsFrom_cons nodes (gasOf (unannotatedEnd nodes before)) x xs
    · rw [hskip, heq, ih]
    rw [hkeep, blocksAfter_cons, List.forall_mem_cons]
    obtain ⟨e, hfault, heq⟩ | ⟨hfits, hnone, heq⟩ | ⟨info, hfits, hsome, heq⟩ := hx
    · rw [heq]
      simp [hfault.not_fits]
    · -- The item leaves its gas and joins the items after the last annotated one.
      have hend : unannotatedEnd nodes (before ++ [x]) = unannotatedEnd nodes before ++ [x] :=
        List.rtakeWhile_concat_pos _ _ _ (by simp [hnone])
      have hblock : block nodes before x = [] := by simp [block, hnone]
      rw [heq, ← gasOf_append_one, ← hend, ih, hblock]
      simp [hfits]
    · -- The item takes all the gas, and none is left for the next one.
      have hend : unannotatedEnd nodes (before ++ [x]) = [] :=
        List.rtakeWhile_concat_neg _ _ _ (by simp [hsome])
      have hzero : (0 : Float) = gasOf (unannotatedEnd nodes (before ++ [x])) := by rw [hend]; rfl
      have hblock : block nodes before x =
          stepsOf info (List.zipWith Binding.mk info.names x.stack)
            (gasOf (unannotatedEnd nodes before ++ [x])) := by
        rw [stepsOf_eq, block, hsome]
      rw [heq, ← gasOf_append_one, ← hblock, hzero, map_eq_ok_iff]
      simp only [ih]
      constructor
      · rintro ⟨rest, ⟨hall, rfl⟩, rfl⟩
        exact ⟨⟨hfits, hall⟩, rfl⟩
      · rintro ⟨⟨-, hall⟩, rfl⟩
        exact ⟨_, ⟨hall, rfl⟩, rfl⟩

/-- **Rebuilding.** The items with gas decide everything: an execution is rebuilt exactly when all of
them fit, its steps are told item by item, and otherwise the first one that does not fit is
reported. -/
theorem rebuild_exact (contract : Micheline) (trace : Trace) :
    (∀ execution, rebuild contract trace = .ok execution ↔
      (∀ item ∈ charged trace.items, Fits contract.locations item) ∧
        execution = ⟨trace.fail, blocks contract.locations (charged trace.items)⟩) ∧
    (∀ e, rebuild contract trace = .error e ↔
      FirstFault contract.locations (charged trace.items) e) := by
  constructor
  · intro execution
    have hsteps : ∀ steps, stepsFrom contract.locations 0 trace.items = .ok steps ↔ _ :=
      stepsFrom_ok_iff contract.locations [] trace.items
    rw [rebuild, map_eq_ok_iff]
    simp only [hsteps, blocksAfter_nil]
    constructor
    · rintro ⟨steps, ⟨hall, rfl⟩, rfl⟩
      exact ⟨hall, rfl⟩
    · rintro ⟨hall, rfl⟩
      exact ⟨_, ⟨hall, rfl⟩, rfl⟩
  · intro e
    rw [rebuild, map_eq_error_iff, stepsFrom_error_iff]

end Retrace.Execution
