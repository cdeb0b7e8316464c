import Mathlib.Algebra.BigOperators.Group.List.Lemmas
import Mathlib.Algebra.GroupWithZero.Nat
import Retrace.Execution.Gas

/-!
# Gas maps

The lines of a gas map, the visits it holds of each of them, and how these make up the run again.
-/

namespace Retrace

/-! ## Lines -/

namespace GasMap

def keys (map : GasMap) : List UInt32 := map.map (·.1)

theorem mem_keys_add (line l : UInt32) (visit : Visit) (map : GasMap) :
    l ∈ keys (add line visit map) ↔ l = line ∨ l ∈ keys map := by
  fun_induction add line visit map with
  | case1 => simp [keys]
  | case2 k visits rest h => simp [keys]
  | case3 visits rest h => simp [keys]
  | case4 k visits rest hlt hne ih =>
    simp only [keys, List.map_cons, List.mem_cons] at ih ⊢
    rw [ih]
    exact or_left_comm

theorem mem_keys_addSteps (l : UInt32) (map : GasMap) (total : Float) (steps : List Step) :
    l ∈ keys (addSteps map total steps) ↔ l ∈ keys map ∨ ∃ step ∈ steps, step.line? = some l := by
  fun_induction addSteps map total steps with
  | case1 map total => simp
  | case2 map total step steps hrange ih => simp [ih, Step.line?, hrange]
  | case3 map total step steps range hrange sum ih =>
    rw [ih, mem_keys_add]
    have hstep : step.line? = some l ↔ l = range.stop.line := by
      simp [Step.line?, hrange, eq_comm]
    simp only [List.mem_cons, exists_eq_or_imp, hstep]
    rw [or_assoc, or_left_comm]

end GasMap

theorem Execution.mem_keys_gasMap (e : Execution) (l : UInt32) :
    l ∈ e.gasMap.keys ↔ ∃ step ∈ e.steps, step.line? = some l := by
  rw [gasMap, GasMap.mem_keys_addSteps]
  simp [GasMap.keys]

/-! ## The visits of a run -/

namespace Execution

/-- The line and the gas of each step with a range, in the order of the run. -/
def ranged (e : Execution) : List (UInt32 × Float) :=
  e.steps.filterMap fun step => step.range.map fun range => (range.stop.line, step.gas)

def gasSum (ranged : List (UInt32 × Float)) : Float := ranged.foldl (fun total r => total + r.2) 0

/-- The visits of a run with their lines. A total counts the ranged steps so far, whatever their lines. -/
def visits (e : Execution) : List (UInt32 × Visit) :=
  e.ranged.mapIdx fun i r => (r.1, ⟨r.2 / gasScale, gasSum (e.ranged.take (i + 1)) / gasScale⟩)

end Execution

namespace GasMap

def visitsOf (line : UInt32) (seen : List (UInt32 × Visit)) : List Visit :=
  (seen.filter (·.1 = line)).map (·.2)

/-- Takes the first visit of a line that is left. -/
def takeFirst? (line : UInt32) : GasMap → Option (Visit × GasMap)
  | [] => none
  | (l, visits) :: rest =>
    if l = line then
      match visits with
      | [] => none
      | visit :: visits => some (visit, (l, visits) :: rest)
    else (takeFirst? line rest).map fun r => (r.1, (l, visits) :: r.2)

/-- Makes one sequence of the visits again, given the lines in the order of the run. None may be left. -/
def interleave : GasMap → List UInt32 → Option (List Visit)
  | map, [] => if map.all (·.2.isEmpty) then some [] else none
  | map, line :: lines => (takeFirst? line map).bind fun r => (interleave r.2 lines).map (r.1 :: ·)

theorem visitsOf_append_self (line : UInt32) (v : Visit) (seen : List (UInt32 × Visit)) :
    visitsOf line (seen ++ [(line, v)]) = visitsOf line seen ++ [v] := by
  simp [visitsOf]

theorem visitsOf_append_of_ne {line l : UInt32} (h : line ≠ l) (v : Visit) (seen : List (UInt32 × Visit)) :
    visitsOf l (seen ++ [(line, v)]) = visitsOf l seen := by
  simp [visitsOf, h]

theorem visitsOf_eq_nil_iff {line : UInt32} {seen : List (UInt32 × Visit)} :
    visitsOf line seen = [] ↔ line ∉ seen.map (·.1) := by
  simp [visitsOf]
  grind

/-! ## One more visit -/

def Increasing (map : GasMap) : Prop := map.keys.Pairwise (· < ·)

theorem increasing_cons {l : UInt32} {visits : List Visit} {rest : GasMap} :
    Increasing ((l, visits) :: rest) ↔ (∀ k ∈ rest.keys, l < k) ∧ rest.Increasing := by
  unfold Increasing keys
  rw [List.map_cons, List.pairwise_cons]

theorem Increasing.add {map : GasMap} (h : map.Increasing) (line : UInt32) (v : Visit) :
    (map.add line v).Increasing := by
  fun_induction GasMap.add line v map with
  | case1 => simp [Increasing, keys]
  | case2 l visits rest hlt =>
    apply increasing_cons.mpr
    refine ⟨?_, h⟩
    intro k hk
    rcases List.mem_cons.mp hk with rfl | hk
    · exact hlt
    · exact UInt32.lt_trans hlt ((increasing_cons.mp h).1 k hk)
  | case3 visits rest hlt => exact h
  | case4 l visits rest hlt hne ih =>
    obtain ⟨hfirst, hrest⟩ := increasing_cons.mp h
    apply increasing_cons.mpr
    refine ⟨?_, ih hrest⟩
    intro k hk
    rcases (mem_keys_add line k v rest).mp hk with rfl | hk
    · exact UInt32.lt_of_le_of_ne (UInt32.not_lt.mp hlt) (Ne.symm hne)
    · exact hfirst k hk

theorem mem_keys_of_mem {map : GasMap} {p : UInt32 × List Visit} (h : p ∈ map) : p.1 ∈ map.keys :=
  List.mem_map_of_mem h

theorem mem_add {map : GasMap} {line : UInt32} {v : Visit} {p : UInt32 × List Visit}
    (h : map.Increasing) (hp : p ∈ map.add line v) :
    (p.1 ≠ line ∧ p ∈ map) ∨ (p = (line, [v]) ∧ line ∉ map.keys) ∨
      ∃ visits, (line, visits) ∈ map ∧ p = (line, visits ++ [v]) := by
  fun_induction GasMap.add line v map with
  | case1 =>
    right; left
    exact ⟨List.mem_singleton.mp hp, by simp [keys]⟩
  | case2 l visits rest hlt =>
    -- The line comes before all others, so it is new.
    have hnew : ∀ k ∈ keys ((l, visits) :: rest), line < k := by
      intro k hk
      rcases List.mem_cons.mp hk with rfl | hk
      · exact hlt
      · exact UInt32.lt_trans hlt ((increasing_cons.mp h).1 k hk)
    rcases List.mem_cons.mp hp with rfl | hp
    · right; left
      refine ⟨rfl, ?_⟩
      intro hmem
      exact UInt32.lt_irrefl line (hnew line hmem)
    · left
      exact ⟨(UInt32.ne_of_lt (hnew _ (mem_keys_of_mem hp))).symm, hp⟩
  | case3 visits rest hlt =>
    rcases List.mem_cons.mp hp with rfl | hp
    · right; right
      exact ⟨visits, List.mem_cons_self, rfl⟩
    · left
      have hafter := (increasing_cons.mp h).1 _ (mem_keys_of_mem hp)
      exact ⟨(UInt32.ne_of_lt hafter).symm, List.mem_cons_of_mem _ hp⟩
  | case4 l visits rest hlt hne ih =>
    rcases List.mem_cons.mp hp with rfl | hp
    · left
      exact ⟨Ne.symm hne, List.mem_cons_self⟩
    · rcases ih (increasing_cons.mp h).2 hp with ⟨hother, hp⟩ | ⟨rfl, hmem⟩ | ⟨old, hold, rfl⟩
      · left
        exact ⟨hother, List.mem_cons_of_mem _ hp⟩
      · right; left
        refine ⟨rfl, ?_⟩
        intro hkeys
        rcases List.mem_cons.mp hkeys with heq | hkeys
        · exact hne heq
        · exact hmem hkeys
      · right; right
        exact ⟨old, List.mem_cons_of_mem _ hold, rfl⟩

/-- A map holds the visits seen so far: its lines are those that were visited, and each of them has its
visits in the order in which they were seen. -/
structure Records (map : GasMap) (seen : List (UInt32 × Visit)) : Prop where
  increasing : map.Increasing
  visited : ∀ line, line ∈ map.keys ↔ line ∈ seen.map (·.1)
  lists : ∀ p ∈ map, p.2 = visitsOf p.1 seen

theorem Records.add {map : GasMap} {seen : List (UInt32 × Visit)} (h : map.Records seen) (line : UInt32)
    (v : Visit) : (map.add line v).Records (seen ++ [(line, v)]) := by
  constructor
  · exact h.increasing.add line v
  · intro l
    rw [mem_keys_add, h.visited]
    simp [or_comm]
  · intro p hp
    rcases mem_add h.increasing hp with ⟨hother, hp⟩ | ⟨rfl, hnew⟩ | ⟨visits, hold, rfl⟩
    · rw [visitsOf_append_of_ne (Ne.symm hother), h.lists p hp]
    · rw [h.visited, ← visitsOf_eq_nil_iff] at hnew
      rw [visitsOf_append_self, hnew, List.nil_append]
    · rw [visitsOf_append_self, ← h.lists _ hold]

/-! ## A whole run -/

def visitsFrom (total : Float) : List (UInt32 × Float) → List (UInt32 × Visit)
  | [] => []
  | r :: rs =>
    (r.1, ⟨r.2 / Execution.gasScale, (total + r.2) / Execution.gasScale⟩) :: visitsFrom (total + r.2) rs

theorem visitsFrom_eq (rs done : List (UInt32 × Float)) :
    visitsFrom (Execution.gasSum done) rs = rs.mapIdx fun i r =>
      (r.1, ⟨r.2 / Execution.gasScale,
        Execution.gasSum (done ++ rs.take (i + 1)) / Execution.gasScale⟩) := by
  induction rs generalizing done with
  | nil => rfl
  | cons r rs ih =>
    have hsum : Execution.gasSum (done ++ [r]) = Execution.gasSum done + r.2 := by
      simp [Execution.gasSum]
    have ih := ih (done ++ [r])
    rw [hsum] at ih
    simp [visitsFrom, List.mapIdx_cons, ih, hsum]

theorem Records.addSteps {map : GasMap} {seen : List (UInt32 × Visit)} (h : map.Records seen) (total : Float)
    (steps : List Step) :
    (map.addSteps total steps).Records (seen ++ visitsFrom total
      (steps.filterMap fun step => step.range.map fun range => (range.stop.line, step.gas))) := by
  induction steps generalizing map total seen with
  | nil => simpa [GasMap.addSteps, visitsFrom] using h
  | cons step steps ih =>
    unfold GasMap.addSteps
    cases hrange : step.range with
    | none => simpa [hrange] using ih h total
    | some range => simpa [hrange, visitsFrom] using ih (h.add _ _) (total + step.gas)

/-! ## Interleaving -/

theorem takeFirst?_of_mem {map : GasMap} {line : UInt32} {v : Visit} {visits : List Visit}
    (h : map.Increasing) (hmem : (line, v :: visits) ∈ map) :
    ∃ map', takeFirst? line map = some (v, map') ∧ map'.keys = map.keys ∧
      ∀ p ∈ map', p = (line, visits) ∨ p.1 ≠ line ∧ p ∈ map := by
  induction map with
  | nil => cases hmem
  | cons first rest ih =>
    obtain ⟨l, list⟩ := first
    obtain ⟨hfirst, hrest⟩ := increasing_cons.mp h
    rcases List.mem_cons.mp hmem with heq | hmem
    · obtain ⟨rfl, rfl⟩ := Prod.mk.inj heq
      refine ⟨(line, visits) :: rest, by simp [takeFirst?], rfl, ?_⟩
      intro p hp
      rcases List.mem_cons.mp hp with rfl | hp
      · exact Or.inl rfl
      · exact Or.inr ⟨(UInt32.ne_of_lt (hfirst _ (mem_keys_of_mem hp))).symm, List.mem_cons_of_mem _ hp⟩
    · have hne : l ≠ line := UInt32.ne_of_lt (hfirst _ (mem_keys_of_mem hmem))
      obtain ⟨map', htake, hkeys, hlists⟩ := ih hrest hmem
      refine ⟨(l, list) :: map', by simp [takeFirst?, hne, htake], by simpa [keys] using hkeys, ?_⟩
      intro p hp
      rcases List.mem_cons.mp hp with rfl | hp
      · exact Or.inr ⟨hne, List.mem_cons_self⟩
      · rcases hlists p hp with rfl | ⟨hother, hp⟩
        · exact Or.inl rfl
        · exact Or.inr ⟨hother, List.mem_cons_of_mem _ hp⟩

theorem interleave_eq {map : GasMap} {left : List (UInt32 × Visit)} (h : map.Increasing)
    (hkeys : ∀ v ∈ left, v.1 ∈ map.keys) (hlists : ∀ p ∈ map, p.2 = visitsOf p.1 left) :
    map.interleave (left.map (·.1)) = some (left.map (·.2)) := by
  -- The map holds what is left of the visits, and a line without any stays in it.
  induction left generalizing map with
  | nil =>
    have hempty : map.all (·.2.isEmpty) = true := by
      rw [List.all_eq_true]
      intro p hp
      simp [hlists p hp, visitsOf]
    simp [interleave, hempty]
  | cons first left ih =>
    obtain ⟨line, v⟩ := first
    obtain ⟨⟨l, list⟩, hp, rfl⟩ := List.mem_map.mp (hkeys (line, v) List.mem_cons_self)
    have hlist : list = v :: visitsOf l left := (hlists _ hp).trans (by simp [visitsOf])
    rw [hlist] at hp
    obtain ⟨map', htake, hsame, hrest⟩ := takeFirst?_of_mem h hp
    have hleft : map'.interleave (left.map (·.1)) = some (left.map (·.2)) := by
      apply ih
      · unfold Increasing
        rw [hsame]
        exact h
      · intro v hv
        rw [hsame]
        exact hkeys v (List.mem_cons_of_mem _ hv)
      · intro p hp
        rcases hrest p hp with rfl | ⟨hother, hp⟩
        · rfl
        · rw [hlists p hp]
          simp [visitsOf, Ne.symm hother]
    simp [interleave, htake, hleft]

theorem length_visitsOf (line : UInt32) (seen : List (UInt32 × Visit)) :
    (visitsOf line seen).length = (seen.map (·.1)).count line := by
  unfold visitsOf
  rw [List.length_map, List.count_eq_countP, List.countP_map, List.countP_eq_length_filter]
  simp [Function.comp_def, beq_eq_decide]

theorem Records.sum_length {map : GasMap} {seen : List (UInt32 × Visit)} (h : map.Records seen) :
    (map.map (·.2.length)).sum = seen.length := by
  have hlists : map.map (·.2.length) = map.keys.map fun l => (seen.map (·.1)).count l := by
    unfold keys
    rw [List.map_map]
    apply List.map_congr_left
    intro p hp
    rw [h.lists p hp]
    exact length_visitsOf p.1 seen
  have hkeys : map.keys.Perm (seen.map (·.1)).dedup := by
    apply (List.perm_ext_iff_of_nodup (h.increasing.imp UInt32.ne_of_lt) (List.nodup_dedup _)).mpr
    intro l
    rw [List.mem_dedup, h.visited]
  rw [hlists, (hkeys.map _).sum_eq, List.sum_map_count_dedup_eq_length, List.length_map]

end GasMap

namespace Execution

theorem records_gasMap (e : Execution) : e.gasMap.Records e.visits := by
  have hstart : GasMap.Records [] [] := by
    constructor
    · exact List.Pairwise.nil
    · simp [GasMap.keys]
    · simp
  have hrun := hstart.addSteps 0 e.steps
  have hvisits := GasMap.visitsFrom_eq e.ranged []
  rw [List.nil_append] at hrun
  rw [visits, gasMap]
  simp only [List.nil_append] at hvisits
  rw [← hvisits]
  exact hrun

theorem lines_visits (e : Execution) : e.visits.map (·.1) = e.ranged.map (·.1) := by
  apply List.ext_getElem <;> simp [visits]

/-- **The gas map loses, repeats and reorders nothing.** -/
theorem gasMap_visits (e : Execution) :
    e.gasMap.keys.Pairwise (· < ·) ∧
    (∀ line, line ∈ e.gasMap.keys ↔ ∃ step ∈ e.steps, step.line? = some line) ∧
    (∀ line list, (line, list) ∈ e.gasMap →
      list ≠ [] ∧ list = (e.visits.filter (·.1 = line)).map (·.2)) ∧
    (e.gasMap.map (·.2.length)).sum = e.ranged.length ∧
    e.gasMap.interleave (e.ranged.map (·.1)) = some (e.visits.map (·.2)) := by
  have h := e.records_gasMap
  refine ⟨h.increasing, e.mem_keys_gasMap, ?_, ?_, ?_⟩
  · intro line list hmem
    refine ⟨?_, h.lists _ hmem⟩
    intro hnil
    have hline := (h.visited line).mp (GasMap.mem_keys_of_mem hmem)
    exact GasMap.visitsOf_eq_nil_iff.mp ((h.lists _ hmem).symm.trans hnil) hline
  · rw [h.sum_length]
    simp [visits]
  · rw [← lines_visits]
    apply GasMap.interleave_eq h.increasing _ h.lists
    intro v hv
    exact (h.visited v.1).mpr (List.mem_map_of_mem hv)

end Execution
end Retrace
