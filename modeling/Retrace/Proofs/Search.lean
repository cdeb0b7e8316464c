import Mathlib.Order.Bounds.Defs
import Retrace.Proofs.Events

/-!
# Running to a breakpoint

A run forwards looks for the first marked step before the last one, a run backwards for the marked
step right before the cursor, where a step is marked if it ends on the line of a verified breakpoint.
A run that finds none goes to its end. So runs from the start, one after the other, stop on every
marked step in turn and then on the last step.
-/

namespace Retrace.Session

/-! ## Marked steps -/

/-- A step ends on the line of a verified breakpoint. -/
def Marked (s : Session) (j : Int) : Prop :=
  ∃ n : Nat, j = n ∧ ∃ step, s.execution.steps[n]? = some step ∧
    ∃ b ∈ s.breakpoints, b.verified = true ∧ step.line? = some b.line

theorem Marked.bounds {s : Session} {j : Int} (h : s.Marked j) : 0 ≤ j ∧ j < s.execution.length := by
  obtain ⟨n, rfl, step, hstep, -⟩ := h
  have hlt : n < s.execution.steps.length := (List.getElem?_eq_some_iff.mp hstep).1
  unfold Execution.length
  omega

theorem Valid.onBreakpoint_iff_marked {s : Session} (h : Valid s) :
    s.onBreakpoint = true ↔ s.Marked s.cursor := by
  rw [h.onBreakpoint_iff]
  unfold current? Marked
  cases s.cursor with
  | negSucc n =>
    simp only [Option.bind_none, reduceCtorEq, and_false, exists_false, false_iff]
    rintro ⟨m, hm, -⟩
    omega
  | ofNat n =>
    constructor
    · rintro ⟨b, hb, hverified, hline⟩
      obtain ⟨step, hstep, hline⟩ := Option.bind_eq_some_iff.mp hline
      exact ⟨n, rfl, step, hstep, b, hb, hverified, hline⟩
    · rintro ⟨m, hm, step, hstep, b, hb, hverified, hline⟩
      obtain rfl : n = m := Int.ofNat.inj hm
      exact ⟨b, hb, hverified, by simp [hstep, hline]⟩

/-! ## One move -/

theorem advance_forward_over {s : Session} (h : Within s) (hend : (s.advance false).atEnd = true) :
    s.last ≤ s.cursor + 1 ∧ s.advance false = { s with cursor := s.last } := by
  have hlen : s.execution.length = 0 ∨ min (s.cursor + 1) s.last = s.last := by
    simpa [atEnd, advance, last] using hend
  have hle : s.last ≤ s.cursor + 1 := by
    unfold Within last at *
    omega
  simp only [advance, Bool.false_eq_true, if_false]
  exact ⟨hle, by rw [Int.min_eq_right hle]⟩

theorem advance_forward {s : Session} (hend : ¬ (s.advance false).atEnd = true) :
    s.cursor + 1 < s.last ∧ s.advance false = { s with cursor := s.cursor + 1 } := by
  have hlen : s.execution.length ≠ 0 ∧ min (s.cursor + 1) s.last ≠ s.last := by
    simpa [atEnd, advance, last] using hend
  have hlt : s.cursor + 1 < s.last := by omega
  simp only [advance, Bool.false_eq_true, if_false]
  exact ⟨hlt, by rw [Int.min_eq_left (by omega)]⟩

theorem advance_backward_still {s : Session} (hstill : (s.advance true).cursor = s.cursor) :
    s.cursor = -1 ∧ s.advance true = { s with cursor := -1 } := by
  have hcursor := cursor_of_still hstill
  rw [hstill] at hcursor
  refine ⟨hcursor, ?_⟩
  simp only [advance, if_true, hcursor]
  rfl

theorem advance_backward {s : Session} (h : Within s) (hstill : (s.advance true).cursor ≠ s.cursor) :
    0 ≤ s.cursor ∧ s.advance true = { s with cursor := s.cursor - 1 } := by
  have hmoved : max (s.cursor - 1) (-1) ≠ s.cursor := by simpa [advance] using hstill
  have hle : 0 ≤ s.cursor := by
    unfold Within at h
    omega
  simp only [advance, if_true]
  exact ⟨hle, by rw [Int.max_eq_left (by omega)]⟩

/-! ## The search -/

/-- What a run forwards comes to. -/
def FoundForward (s : Session) (r : Session × List Event) : Prop :=
  (∃ j, IsLeast {j | s.cursor < j ∧ j < s.last ∧ s.Marked j} j ∧
    r = ({ s with cursor := j }, [.breakpoint])) ∨
  ((∀ j, ¬ (s.cursor < j ∧ j < s.last ∧ s.Marked j)) ∧
    r = ({ s with cursor := s.last, showGas := false }, s.ending))

def FoundBackward (s : Session) (r : Session × List Event) : Prop :=
  (∃ j, IsGreatest {j | 0 ≤ j ∧ j < s.cursor ∧ s.Marked j} j ∧
    r = ({ s with cursor := j }, [.breakpoint])) ∨
  ((∀ j, ¬ (0 ≤ j ∧ j < s.cursor ∧ s.Marked j)) ∧ r = ({ s with cursor := -1 }, [.entry]))

theorem FoundForward.pass {s : Session} {r : Session × List Event} (hmark : ¬ s.Marked (s.cursor + 1))
    (h : FoundForward { s with cursor := s.cursor + 1 } r) : FoundForward s r := by
  -- The step in between is not marked, so the marked steps ahead are the same.
  have hset : ∀ j, (s.cursor < j ∧ j < s.last ∧ s.Marked j) ↔
      (s.cursor + 1 < j ∧ j < s.last ∧ s.Marked j) := by
    intro j
    constructor
    · rintro ⟨hj, hlast, hm⟩
      have hne : j ≠ s.cursor + 1 := by
        rintro rfl
        exact hmark hm
      exact ⟨by omega, hlast, hm⟩
    · rintro ⟨hj, hlast, hm⟩
      exact ⟨by omega, hlast, hm⟩
  unfold FoundForward
  simp only [hset]
  exact h

theorem FoundBackward.pass {s : Session} {r : Session × List Event} (hmark : ¬ s.Marked (s.cursor - 1))
    (h : FoundBackward { s with cursor := s.cursor - 1 } r) : FoundBackward s r := by
  have hset : ∀ j, (0 ≤ j ∧ j < s.cursor ∧ s.Marked j) ↔ (0 ≤ j ∧ j < s.cursor - 1 ∧ s.Marked j) := by
    intro j
    constructor
    · rintro ⟨hj, hlast, hm⟩
      have hne : j ≠ s.cursor - 1 := by
        rintro rfl
        exact hmark hm
      exact ⟨hj, by omega, hm⟩
    · rintro ⟨hj, hlast, hm⟩
      exact ⟨hj, by omega, hm⟩
  unfold FoundBackward
  simp only [hset]
  exact h

theorem foundForward_continue {s : Session} (h : Valid s) : FoundForward s (s.continue_ false) := by
  fun_induction continue_ s false with
  | case1 s hend =>
    obtain ⟨hle, hadvance⟩ := advance_forward_over h.within (by simpa using hend)
    right
    constructor
    · rintro j ⟨hj, hlast, -⟩
      omega
    · rw [hadvance]
      rfl
  | case2 s hend hstill => simp at hstill
  | case3 s hend hstill hbreak =>
    obtain ⟨hlt, hadvance⟩ := advance_forward (by simpa using hend)
    have hmark := (h.moved (moved_advance s false)).onBreakpoint_iff_marked.mp hbreak
    rw [hadvance] at hmark ⊢
    left
    refine ⟨s.cursor + 1, ⟨⟨by omega, hlt, hmark⟩, ?_⟩, rfl⟩
    rintro j ⟨hj, -⟩
    exact hj
  | case4 s hend hstill hbreak ih =>
    obtain ⟨hlt, hadvance⟩ := advance_forward (by simpa using hend)
    have hvalid := h.moved (moved_advance s false)
    have hmark := mt hvalid.onBreakpoint_iff_marked.mpr hbreak
    have hfound := ih hvalid
    rw [hadvance] at hmark hfound ⊢
    exact FoundForward.pass hmark hfound

theorem foundBackward_continue {s : Session} (h : Valid s) : FoundBackward s (s.continue_ true) := by
  fun_induction continue_ s true with
  | case1 s hend => simp at hend
  | case2 s hend hstill =>
    obtain ⟨hcursor, hadvance⟩ := advance_backward_still (by simpa using hstill)
    right
    constructor
    · rintro j ⟨hj, hlt, -⟩
      omega
    · rw [hadvance]
  | case3 s hend hstill hbreak =>
    obtain ⟨hle, hadvance⟩ := advance_backward h.within (by simpa using hstill)
    have hmark := (h.moved (moved_advance s true)).onBreakpoint_iff_marked.mp hbreak
    rw [hadvance] at hmark ⊢
    left
    refine ⟨s.cursor - 1, ⟨⟨hmark.bounds.1, by omega, hmark⟩, ?_⟩, rfl⟩
    rintro j ⟨-, hj, -⟩
    omega
  | case4 s hend hstill hbreak ih =>
    obtain ⟨hle, hadvance⟩ := advance_backward h.within (by simpa using hstill)
    have hvalid := h.moved (moved_advance s true)
    have hmark := mt hvalid.onBreakpoint_iff_marked.mpr hbreak
    have hfound := ih hvalid
    rw [hadvance] at hmark hfound ⊢
    exact FoundBackward.pass hmark hfound

/-! ## Rounds -/

/-- A run of so many moves at most, nothing if it has not stopped by then. -/
def rounds (reverse : Bool) : Nat → Session → Option (Session × List Event)
  | 0, _ => none
  | n + 1, s =>
    if !reverse && (s.advance reverse).atEnd then some (s.advance reverse).finish
    else if reverse && (s.advance reverse).cursor == s.cursor then some (s.advance reverse, [.entry])
    else if (s.advance reverse).onBreakpoint then some (s.advance reverse, [.breakpoint])
    else rounds reverse n (s.advance reverse)

theorem rounds_of_ahead_lt {s : Session} {reverse : Bool} {n : Nat} (h : s.ahead reverse < n) :
    rounds reverse n s = some (s.continue_ reverse) := by
  induction n generalizing s with
  | zero => omega
  | succ n ih =>
    rw [rounds, continue_]
    split
    · rfl
    split
    · rfl
    split
    · rfl
    · rename_i hend hstill _
      have hcloser := ahead_advance hend hstill
      exact ih (by omega)

theorem ahead_le_length {s : Session} (h : Within s) (reverse : Bool) :
    s.ahead reverse ≤ s.execution.length := by
  unfold Within last at h
  unfold ahead last
  split <;> omega

/-! ## Runs in turn -/

/-- Where runs forwards stop, one after the other, and what they publish. -/
def stops (s : Session) : Nat → List (Int × List Event)
  | 0 => []
  | n + 1 => ((s.continue_ false).1.cursor, (s.continue_ false).2) :: (s.continue_ false).1.stops n

theorem stops_of_none {s : Session} (h : Valid s) (hnone : ∀ j, ¬ (s.cursor < j ∧ j < s.last ∧ s.Marked j))
    (n : Nat) : s.stops n = List.replicate n (s.last, s.ending) := by
  induction n generalizing s with
  | zero => rfl
  | succ n ih =>
    rw [stops, List.replicate_succ]
    rcases foundForward_continue h with ⟨j, ⟨hj, -⟩, -⟩ | ⟨-, hrun⟩
    · exact absurd hj (hnone j)
    · have hvalid := h.moved (moved_continue s false)
      rw [hrun] at hvalid ⊢
      have hnone' : ∀ j, ¬ (s.last < j ∧ j < s.last ∧ s.Marked j) := by
        rintro j ⟨hlt, hgt, -⟩
        omega
      exact congrArg _ (ih hvalid hnone')

theorem stops_eq {s : Session} (h : Valid s) {visited : List Int} (hsorted : visited.Pairwise (· < ·))
    (hmem : ∀ j, j ∈ visited ↔ s.cursor < j ∧ j < s.last ∧ s.Marked j) (n : Nat) :
    s.stops (visited.length + n) =
      visited.map (fun j => (j, [Event.breakpoint])) ++ List.replicate n (s.last, s.ending) := by
  induction visited generalizing s with
  | nil =>
    have hnone : ∀ j, ¬ (s.cursor < j ∧ j < s.last ∧ s.Marked j) := by
      intro j hj
      exact List.not_mem_nil ((hmem j).mpr hj)
    simpa using stops_of_none h hnone n
  | cons k visited ih =>
    obtain ⟨hfirst, hlater⟩ := List.pairwise_cons.mp hsorted
    have hk := (hmem k).mp List.mem_cons_self
    rcases foundForward_continue h with ⟨j, ⟨hj, hleast⟩, hrun⟩ | ⟨hnone, -⟩
    · -- The first of the steps ahead is the least one.
      obtain rfl : j = k := by
        have hle : j ≤ k := hleast hk
        rcases List.mem_cons.mp ((hmem j).mpr hj) with rfl | hin
        · rfl
        · have hlt := hfirst j hin
          omega
      have hrest : ∀ i, i ∈ visited ↔ j < i ∧ i < s.last ∧ s.Marked i := by
        intro i
        constructor
        · intro hi
          exact ⟨hfirst i hi, ((hmem i).mp (List.mem_cons_of_mem _ hi)).2⟩
        · rintro ⟨hlt, hi⟩
          have hpast := hj.1
          rcases List.mem_cons.mp ((hmem i).mpr ⟨by omega, hi⟩) with rfl | hin
          · omega
          · exact hin
      have hvalid := h.moved (moved_continue s false)
      have hlength : (j :: visited).length + n = visited.length + n + 1 := by
        simp only [List.length_cons]
        omega
      rw [hlength, stops, List.map_cons, List.cons_append]
      rw [hrun] at hvalid ⊢
      exact congrArg _ (ih hvalid hlater hrest)
    · exact absurd hk (hnone k)

/-- The marked steps before the last one. -/
def marks (s : Session) : List Int :=
  ((List.range (s.execution.length - 1)).map Int.ofNat).filter fun j => { s with cursor := j }.onBreakpoint

theorem marks_sorted (s : Session) : s.marks.Pairwise (· < ·) := by
  unfold marks
  apply List.Pairwise.filter
  apply List.Pairwise.map
  · intro a b hab
    exact Int.ofNat_lt.mpr hab
  · exact List.pairwise_lt_range

theorem Valid.mem_marks {s : Session} (h : Valid s) (j : Int) :
    j ∈ s.marks ↔ 0 ≤ j ∧ j < s.last ∧ s.Marked j := by
  have hiff : 0 ≤ j → j < s.last → ({ s with cursor := j }.onBreakpoint = true ↔ s.Marked j) := by
    intro hj hlast
    have hmoved : Moved s { s with cursor := j } := by
      refine ⟨j, s.showGas, rfl, fun _ => ⟨?_, ?_⟩⟩
      · exact Int.le_trans (by decide) hj
      · exact Int.le_of_lt hlast
    exact (h.moved hmoved).onBreakpoint_iff_marked
  unfold marks
  rw [List.mem_filter, List.mem_map]
  constructor
  · rintro ⟨⟨n, hn, rfl⟩, hbreak⟩
    rw [List.mem_range] at hn
    have hlast : Int.ofNat n < s.last := by
      unfold last
      simp only [Int.ofNat_eq_natCast]
      omega
    have hpos : 0 ≤ Int.ofNat n := Int.natCast_nonneg n
    exact ⟨hpos, hlast, (hiff hpos hlast).mp hbreak⟩
  · rintro ⟨hj, hlast, hmark⟩
    refine ⟨⟨j.toNat, ?_, Int.toNat_of_nonneg hj⟩, (hiff hj hlast).mpr hmark⟩
    rw [List.mem_range]
    unfold last at hlast
    omega

/-- **Runs to breakpoints.** In every state of a session a run stops after at most so many moves as
there are steps and one more. Forwards it stops on the first marked step ahead of the cursor and
before the last step, or else on the last step; backwards on the marked step closest to the cursor,
or else before the first step. Runs from the start visit each marked step before the last one, in
order, then the last one, and stay there; a start that does not wait makes the first of them. -/
theorem continue_search (artifact : { a : Artifact // a.Rebuilt }) (entrypoint : String)
    (env : Environment) (constants : List Constant) (ops : List Operation) :
    let s := (make artifact.val entrypoint env constants).after ops
    (∀ reverse n, s.execution.length < n → s.rounds reverse n = some (s.continue_ reverse)) ∧
    FoundForward s (s.continue_ false) ∧ FoundBackward s (s.continue_ true) ∧
    (∃ visited : List Int, visited.Pairwise (· < ·) ∧
      (∀ j, j ∈ visited ↔ 0 ≤ j ∧ j < s.last ∧ s.Marked j) ∧
      ∀ n, (s.start true).1.stops (visited.length + n) =
        visited.map (fun j => (j, [Event.breakpoint])) ++ List.replicate n (s.last, s.ending)) ∧
    s.start false = (s.start true).1.continue_ false := by
  intro s
  have hvalid : Valid s := (valid_make artifact entrypoint env constants).after ops
  refine ⟨?_, foundForward_continue hvalid, foundBackward_continue hvalid,
    ⟨s.marks, s.marks_sorted, hvalid.mem_marks, ?_⟩, rfl⟩
  · intro reverse n hn
    have hahead := ahead_le_length hvalid.within reverse
    exact rounds_of_ahead_lt (by omega)
  · intro n
    apply stops_eq (hvalid.moved (moved_start s true)) s.marks_sorted
    intro j
    have hrewound : (s.start true).1.cursor < j ↔ 0 ≤ j := by
      simp only [start, if_true]
      omega
    rw [hvalid.mem_marks, hrewound]
    rfl

end Retrace.Session
