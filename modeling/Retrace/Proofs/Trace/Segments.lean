import Retrace.Proofs.Trace.Dump

/-!
# Values as groups of lines

A value of a dump is a group of lines. Between two lines a scanner meets blanks only, and whatever
blanks they are they act on it as one space does: the text of a dump is balanced exactly when its
lines, trimmed and joined by spaces, are. A balanced text leaves the scanner where it started, so the
groups that are cut off as soon as they are balanced are the finest there are.
-/

namespace Retrace.Michelson.Balance

open Retrace.Text

/-! ## Blanks -/

theorem next_of_blank {c : Char} (h : isBlank c = true) (b : Balance) : b.next c = b.next ' ' := by
  have hne : ∀ d : Char, isBlank d = false → c ≠ d := by
    rintro d hd rfl
    simp [h] at hd
  have hquote := hne '"' (by decide)
  have hslash := hne '\\' (by decide)
  have hopen := hne '\x7b' (by decide)
  have hclose := hne '\x7d' (by decide)
  have hleft := hne '(' (by decide)
  have hright := hne ')' (by decide)
  unfold next
  cases b.literal <;> simp [Literal.next, braceStep, parenStep, *]

theorem next_space_space (b : Balance) : (b.next ' ').next ' ' = b.next ' ' := by
  obtain ⟨literal, braces, parens⟩ := b
  cases literal <;> simp [next, Literal.next, braceStep, parenStep]

theorem next_space_eq_start_iff (b : Balance) : b.next ' ' = start ↔ b = start := by
  obtain ⟨literal, braces, parens⟩ := b
  cases literal <;> simp [next, Literal.next, braceStep, parenStep, start]

/-- A space makes no difference any more. -/
def Settled (b : Balance) : Prop := b.next ' ' = b

theorem settled_start : start.Settled := rfl

theorem settled_next_space (b : Balance) : (b.next ' ').Settled := next_space_space b

theorem scan_cons (b : Balance) (c : Char) (cs : List Char) : b.scan (c :: cs) = (b.next c).scan cs := rfl

theorem scan_trimStart {b : Balance} (h : b.Settled) (cs : List Char) :
    b.scan (trimStart cs) = b.scan cs := by
  unfold trimStart
  induction cs with
  | nil => rfl
  | cons c cs ih =>
    by_cases hc : isBlank c = true
    · rw [List.dropWhile_cons_of_pos hc, ih, scan_cons, next_of_blank hc, h]
    · rw [List.dropWhile_cons_of_neg hc]

theorem scan_trimEnd (b : Balance) (cs : List Char) :
    (b.scan (trimEnd cs)).next ' ' = (b.scan cs).next ' ' := by
  induction cs generalizing b with
  | nil => rfl
  | cons c cs ih =>
    rw [scan_cons, ← ih, trimEnd]
    split
    · rename_i hcs
      rw [hcs]
      by_cases hc : isBlank c = true
      · rw [if_pos hc, next_of_blank hc]
        exact (next_space_space b).symm
      · rw [if_neg hc]
        rfl
    · rename_i hcs
      rw [hcs]
      rfl

/-! ## Lines -/

/-- Passes a line and the break after it. -/
def line (b : Balance) (text : List Char) : Balance := (b.scan text).next ' '

theorem settled_line (b : Balance) (text : List Char) : (b.line text).Settled := settled_next_space _

theorem line_nil {b : Balance} (h : b.Settled) : b.line [] = b := h

theorem line_trim {b : Balance} (h : b.Settled) (text : List Char) : b.line (trim text) = b.line text := by
  unfold line trim
  rw [scan_trimEnd, scan_trimStart h]

theorem scan_join {b : Balance} (h : b.Settled) (lines : List (List Char)) :
    (b.scan (join [' '] lines)).next ' ' = lines.foldl line b := by
  induction lines generalizing b with
  | nil => exact h
  | cons text lines ih =>
    cases lines with
    | nil => rfl
    | cons text' lines =>
      have hjoin : join [' '] (text :: text' :: lines) = text ++ ' ' :: join [' '] (text' :: lines) := by
        simp [join]
      rw [hjoin, scan_append, scan_cons]
      exact ih (settled_line b text)

theorem scan_pieces (b : Balance) (cs : List Char) :
    (b.scan cs).next ' ' = (pieces ['\n'] cs).foldl line b := by
  unfold pieces
  induction cs generalizing b with
  | nil => rfl
  | cons c cs ih =>
    rw [scan_cons, ih, piecesFrom]
    by_cases hc : c = '\n'
    · subst hc
      have hnewline : b.next '\n' = b.line [] := next_of_blank (by decide) b
      rw [if_pos (by simp), hnewline]
      rfl
    · rw [if_neg (by simpa using Ne.symm hc)]
      obtain ⟨p, ps, hps, -⟩ := pieces_line cs
      unfold pieces at hps
      rw [hps]
      rfl

theorem foldl_line_trim {b : Balance} (h : b.Settled) (lines : List (List Char)) :
    ((lines.map trim).filter (!·.isEmpty)).foldl line b = lines.foldl line b := by
  induction lines generalizing b with
  | nil => rfl
  | cons text lines ih =>
    rw [List.map_cons, List.filter_cons, List.foldl_cons, ← line_trim h]
    split
    · rw [List.foldl_cons, ih (settled_line b _)]
    · rename_i hempty
      have hnil : trim text = [] := by simpa using hempty
      rw [hnil, line_nil h, ih h]

end Retrace.Michelson.Balance

namespace Retrace.Trace

open Retrace.Text Retrace.Michelson

/-! ## Between the brackets -/

theorem bracketStep_eq_none_iff {depth : Nat} {literal : Literal} {c : Char} :
    bracketStep (depth, literal) c = none ↔ depth = 0 ∧ literal = .outside ∧ c = ']' := by
  cases literal with
  | outside =>
    by_cases hclose : c = ']'
    · subst hclose
      cases depth <;> simp [bracketStep]
    · by_cases hopen : c = '[' <;> simp [bracketStep, hopen, hclose]
  | inside => simp [bracketStep]
  | escaped => simp [bracketStep]

theorem exists_of_upToBracket? {depth : Nat} {literal : Literal} {cs inner : List Char}
    (h : upToBracket? depth literal cs = some inner) :
    ∃ rest, cs = inner ++ ']' :: rest ∧
      inner.foldlM bracketStep (depth, literal) = some (0, .outside) := by
  induction cs generalizing depth literal inner with
  | nil => simp [upToBracket?] at h
  | cons c cs ih =>
    cases hstep : bracketStep (depth, literal) c with
    | none =>
      obtain ⟨rfl, rfl, rfl⟩ := bracketStep_eq_none_iff.mp hstep
      obtain rfl : [] = inner := by simpa [upToBracket?] using h
      exact ⟨cs, rfl, rfl⟩
    | some next =>
      rw [upToBracket?_cons hstep] at h
      obtain ⟨inner, hinner, rfl⟩ := Option.map_eq_some_iff.mp h
      obtain ⟨rest, rfl, hfold⟩ := ih hinner
      refine ⟨rest, rfl, ?_⟩
      rw [List.foldlM_cons, hstep]
      exact hfold

theorem bracketed?_eq_some_iff {cs inner : List Char} :
    bracketed? cs = some inner ↔ ∃ rest, cs = '[' :: (inner ++ ']' :: rest) ∧ Nested inner := by
  constructor
  · intro h
    unfold bracketed? at h
    split at h
    · obtain ⟨rest, rfl, hnested⟩ := exists_of_upToBracket? h
      exact ⟨rest, rfl, hnested⟩
    · cases h
  · rintro ⟨rest, rfl, hnested⟩
    exact bracketed?_append hnested rest

/-! ## Groups -/

def spaced (lines : List (List Char)) : List Char := join [' '] lines

theorem isBalanced_iff (cs : List Char) :
    isBalanced cs = true ↔ (Balance.start.scan cs).next ' ' = Balance.start := by
  rw [isBalanced, decide_eq_true_iff, Balance.next_space_eq_start_iff]

theorem isBalanced_spaced_iff (lines : List (List Char)) :
    isBalanced (spaced lines) = true ↔ lines.foldl Balance.line Balance.start = Balance.start := by
  rw [isBalanced_iff, spaced, Balance.scan_join Balance.settled_start]

theorem isBalanced_stackLines (inner : List Char) :
    isBalanced (spaced (stackLines inner)) = isBalanced inner := by
  rw [Bool.eq_iff_iff, isBalanced_spaced_iff, isBalanced_iff, stackLines,
    Balance.foldl_line_trim Balance.settled_start, Balance.scan_pieces]

theorem isBalanced_append {g : List (List Char)} (h : isBalanced (spaced g) = true)
    (lines : List (List Char)) : isBalanced (spaced (g ++ lines)) = isBalanced (spaced lines) := by
  rw [isBalanced_spaced_iff] at h
  rw [Bool.eq_iff_iff, isBalanced_spaced_iff, isBalanced_spaced_iff, List.foldl_append, h]

theorem isBalanced_flatten {groups : List (List (List Char))}
    (h : ∀ g ∈ groups, isBalanced (spaced g) = true) (lines : List (List Char)) :
    isBalanced (spaced (groups.flatten ++ lines)) = isBalanced (spaced lines) := by
  induction groups with
  | nil => rfl
  | cons g groups ih =>
    obtain ⟨hg, hgroups⟩ := List.forall_mem_cons.mp h
    rw [List.flatten_cons, List.append_assoc, isBalanced_append hg, ih hgroups]

/-- Lines that make a value, none too many. -/
structure Whole (group : List (List Char)) : Prop where
  ne_nil : group ≠ []
  balanced : isBalanced (spaced group) = true
  unbroken : ∀ k, 0 < k → k < group.length → isBalanced (spaced (group.take k)) = false

/-- Lines that no value ends in. -/
def Pending (lines : List (List Char)) : Prop :=
  ∀ k, 0 < k → k ≤ lines.length → isBalanced (spaced (lines.take k)) = false

theorem pending_nil : Pending [] := by
  intro k hk hle
  simp at hle
  omega

theorem Pending.unbalanced {lines : List (List Char)} (h : Pending lines) (hne : lines ≠ []) :
    isBalanced (spaced lines) = false := by
  have hpos : 0 < lines.length := List.length_pos_of_ne_nil hne
  have hall := h lines.length hpos (Nat.le_refl _)
  rwa [List.take_length] at hall

theorem Pending.append_one {lines : List (List Char)} (h : Pending lines) {line : List Char}
    (hline : isBalanced (spaced (lines ++ [line])) = false) : Pending (lines ++ [line]) := by
  intro k hk hle
  by_cases hlt : k ≤ lines.length
  · rw [List.take_append_of_le_length hlt]
    exact h k hk hlt
  · rw [List.take_of_length_le (by simp at hle ⊢; omega)]
    exact hline

theorem Pending.whole {lines : List (List Char)} (h : Pending lines) {line : List Char}
    (hline : isBalanced (spaced (lines ++ [line])) = true) : Whole (lines ++ [line]) where
  ne_nil := by simp
  balanced := hline
  unbroken := by
    intro k hk hlt
    have hle : k ≤ lines.length := by simp at hlt; omega
    rw [List.take_append_of_le_length hle]
    exact h k hk hle

/-! ## Gathering -/

def outcome (groups : List (List (List Char))) (rest : List (List Char)) :
    Except StackError (List String) :=
  if rest = [] then .ok (groups.map (String.ofList <| spaced ·))
  else .error (.unbalanced (String.ofList (spaced rest)))

theorem outcome_cons (g : List (List Char)) (groups : List (List (List Char)))
    (rest : List (List Char)) :
    outcome (g :: groups) rest = (outcome groups rest).map (String.ofList (spaced g) :: ·) := by
  unfold outcome
  split <;> rfl

theorem spaced_eq_nil_iff {lines : List (List Char)} (h : ∀ l ∈ lines, l ≠ []) :
    spaced lines = [] ↔ lines = [] := by
  cases lines with
  | nil => simp [spaced, join]
  | cons l lines =>
    have hl := h l List.mem_cons_self
    simp [spaced, join_cons, hl]

theorem gather_spaced {run : List (List Char)} (h : ∀ l ∈ run, l ≠ []) (line : List Char) :
    gather (spaced run) line = spaced (run ++ [line]) := by
  unfold gather
  by_cases hrun : run = []
  · subst hrun
    rfl
  · have hne : spaced run ≠ [] := fun hnil => hrun ((spaced_eq_nil_iff h).mp hnil)
    rw [if_neg (by simpa using hne), spaced, spaced, join_append hrun (by simp)]
    rfl

/-- Gathering cuts lines into groups, each as short as can be. -/
theorem segment_groups {run lines : List (List Char)} (hne : ∀ l ∈ run ++ lines, l ≠ [])
    (hrun : Pending run) : ∃ groups rest, run ++ lines = groups.flatten ++ rest ∧
      (∀ g ∈ groups, Whole g) ∧ Pending rest ∧ segment (spaced run) lines = outcome groups rest := by
  -- `run` holds the lines of the value that is not whole yet.
  induction lines generalizing run with
  | nil =>
    refine ⟨[], run, by simp, by simp, hrun, ?_⟩
    have hempty := spaced_eq_nil_iff (fun l hl => hne l (List.mem_append_left _ hl))
    simp only [segment, outcome, List.isEmpty_iff, hempty]
    rfl
  | cons line lines ih =>
    have hsplit : run ++ line :: lines = (run ++ [line]) ++ lines := by simp
    rw [hsplit] at hne ⊢
    have hnerun : ∀ l ∈ run, l ≠ [] := fun l hl => hne l (by simp [hl])
    have hgather := gather_spaced hnerun line
    simp only [segment, hgather]
    by_cases hwhole : isBalanced (spaced (run ++ [line])) = true
    · have hlines : ∀ l ∈ [] ++ lines, l ≠ [] := fun l hl => hne l (List.mem_append_right _ hl)
      obtain ⟨groups, rest, heq, hgroups, hrest, hsegment⟩ := ih hlines pending_nil
      refine ⟨(run ++ [line]) :: groups, rest, ?_, ?_, hrest, ?_⟩
      · rw [List.nil_append] at heq
        simp [heq]
      · exact List.forall_mem_cons.mpr ⟨hrun.whole hwhole, hgroups⟩
      · rw [if_pos hwhole, outcome_cons, ← hsegment]
        rfl
    · rw [if_neg hwhole]
      exact ih hne (hrun.append_one (by simpa using hwhole))

/-! ## Finer and coarser groups -/

/-- Neighbouring groups of `fine` are merged into those of `coarse`. -/
def Merges (coarse fine : List (List (List Char))) : Prop :=
  ∃ parts : List (List (List (List Char))), (∀ p ∈ parts, p ≠ []) ∧ parts.flatten = fine ∧
    coarse = parts.map List.flatten

theorem exists_groups_of_balanced {groups : List (List (List Char))} (h : ∀ g ∈ groups, Whole g)
    {o tail : List (List Char)} (ho : isBalanced (spaced o) = true) (heq : o ++ tail = groups.flatten) :
    ∃ front back, groups = front ++ back ∧ front.flatten = o ∧ tail = back.flatten := by
  induction groups generalizing o with
  | nil =>
    obtain ⟨rfl, rfl⟩ := List.append_eq_nil_iff.mp heq
    exact ⟨[], [], rfl, rfl, rfl⟩
  | cons g groups ih =>
    obtain ⟨hg, hgroups⟩ := List.forall_mem_cons.mp h
    rw [List.flatten_cons] at heq
    rcases List.append_eq_append_iff.mp heq with ⟨more, hmore, htail⟩ | ⟨more, rfl, hrest⟩
    · -- The group ends inside `g`: it is empty, or all of `g`.
      by_cases hnil : o = []
      · subst hnil
        exact ⟨[], g :: groups, rfl, rfl, by simpa using heq⟩
      · have hpos : 0 < o.length := List.length_pos_of_ne_nil hnil
        have hlen : ¬ o.length < g.length := by
          intro hlt
          have hopen := hg.unbroken o.length hpos hlt
          rw [hmore, List.take_left' rfl, ho] at hopen
          cases hopen
        obtain rfl : more = [] := by
          apply List.eq_nil_of_length_eq_zero
          rw [hmore, List.length_append] at hlen
          omega
        rw [List.append_nil] at hmore
        rw [List.nil_append] at htail
        exact ⟨[g], groups, rfl, by simp [hmore], htail⟩
    · -- The group goes on after `g`, with lines that are balanced too.
      rw [isBalanced_append hg.balanced] at ho
      obtain ⟨front, back, rfl, hfront, htail⟩ := ih hgroups ho hrest.symm
      exact ⟨g :: front, back, rfl, by rw [List.flatten_cons, hfront], htail⟩

theorem merges_of_balanced {groups other : List (List (List Char))} (h : ∀ g ∈ groups, Whole g)
    (hother : ∀ o ∈ other, o ≠ [] ∧ isBalanced (spaced o) = true)
    (heq : other.flatten = groups.flatten) : Merges other groups := by
  induction other generalizing groups with
  | nil =>
    have hnil : groups = [] := by
      cases groups with
      | nil => rfl
      | cons g groups =>
        have hg := (h g List.mem_cons_self).ne_nil
        simp [hg] at heq
    subst hnil
    exact ⟨[], by simp, rfl, rfl⟩
  | cons o other ih =>
    obtain ⟨⟨hne, ho⟩, hrest⟩ := List.forall_mem_cons.mp hother
    rw [List.flatten_cons] at heq
    obtain ⟨front, back, rfl, rfl, htail⟩ := exists_groups_of_balanced h ho heq
    have hback : ∀ g ∈ back, Whole g := fun g hg => h g (List.mem_append_right _ hg)
    obtain ⟨parts, hparts, rfl, rfl⟩ := ih hback hrest htail
    have hfront : front ≠ [] := by
      rintro rfl
      exact hne rfl
    exact ⟨front :: parts, List.forall_mem_cons.mpr ⟨hfront, hparts⟩, rfl, rfl⟩

/-! ## Segmentation -/

/-- The groups that lines are cut into: whole values, which any other balanced groups only merge. -/
structure Segments (lines : List (List Char)) (groups : List (List (List Char))) : Prop where
  flatten_eq : groups.flatten = lines
  whole : ∀ g ∈ groups, Whole g
  no_newline : ∀ g ∈ groups, '\n' ∉ spaced g
  finest : ∀ other : List (List (List Char)), other.flatten = lines →
    (∀ o ∈ other, o ≠ [] ∧ isBalanced (spaced o) = true) → Merges other groups

theorem of_mem_stackLines {inner l : List Char} (h : l ∈ stackLines inner) : l ≠ [] ∧ '\n' ∉ l := by
  unfold stackLines at h
  obtain ⟨h, hne⟩ := List.mem_filter.mp h
  obtain ⟨p, hp, rfl⟩ := List.mem_map.mp h
  refine ⟨by simpa using hne, ?_⟩
  intro hnewline
  exact newline_not_mem_pieces inner p hp (mem_of_mem_trim hnewline)

theorem newline_not_mem_spaced {lines : List (List Char)} (h : ∀ l ∈ lines, '\n' ∉ l) :
    '\n' ∉ spaced lines := by
  cases lines with
  | nil => simp [spaced, join]
  | cons l lines =>
    obtain ⟨hl, hlines⟩ := List.forall_mem_cons.mp h
    simp only [spaced, join_cons, List.mem_append, List.mem_flatMap, not_or, not_exists, not_and]
    refine ⟨hl, ?_⟩
    intro l' hl'
    simp [hlines l' hl']

theorem segments_of_whole {groups : List (List (List Char))} (h : ∀ g ∈ groups, Whole g)
    (hlines : ∀ l ∈ groups.flatten, '\n' ∉ l) : Segments groups.flatten groups where
  flatten_eq := rfl
  whole := h
  no_newline := by
    intro g hg
    apply newline_not_mem_spaced
    intro l hl
    exact hlines l (List.mem_flatten_of_mem hg hl)
  finest := by
    intro other heq hother
    exact merges_of_balanced h hother heq

/-- **Segmentation.** Take a dump with a bracket that matches its first one, and the lines between the
two. The dump splits exactly when the text between the brackets is balanced, and its values are the
groups of the finest cut of the lines into balanced groups. If it does not split, the error shows the
lines after the last group, in which no value ends. -/
theorem splitStack_segments {dump inner rest : List Char} (hdump : trim dump = '[' :: (inner ++ ']' :: rest))
    (hnested : Nested inner) :
    ((∃ values, splitStack dump = .ok values) ↔ isBalanced inner = true) ∧
    (∀ values, splitStack dump = .ok values → ∃ groups, Segments (stackLines inner) groups ∧
      values = groups.map (String.ofList <| spaced ·)) ∧
    (isBalanced inner = false → ∃ groups pending, Segments groups.flatten groups ∧
      stackLines inner = groups.flatten ++ pending ∧ pending ≠ [] ∧ Pending pending ∧
      splitStack dump = .error (.unbalanced (String.ofList (spaced pending)))) := by
  have hsplit : splitStack dump = segment (spaced []) (stackLines inner) := by
    have hbracketed := bracketed?_eq_some_iff.mpr ⟨rest, hdump, hnested⟩
    unfold splitStack
    simp only [hbracketed]
    rw [hdump]
    rfl
  have hlines : ∀ l ∈ [] ++ stackLines inner, l ≠ [] := fun l hl => (of_mem_stackLines hl).1
  obtain ⟨groups, pending, heq, hwhole, hpending, hsegment⟩ := segment_groups hlines pending_nil
  rw [List.nil_append] at heq
  rw [hsegment] at hsplit
  have hsegments : Segments groups.flatten groups := by
    apply segments_of_whole hwhole
    intro l hl
    have hmem : l ∈ stackLines inner := by
      rw [heq]
      exact List.mem_append_left _ hl
    exact (of_mem_stackLines hmem).2
  have hbalanced : isBalanced inner = isBalanced (spaced pending) := by
    rw [← isBalanced_stackLines, heq, isBalanced_flatten (fun g hg => (hwhole g hg).balanced)]
  by_cases hdone : pending = []
  · subst hdone
    rw [List.append_nil] at heq
    have hok : splitStack dump = .ok (groups.map (String.ofList <| spaced ·)) := hsplit
    have htrue : isBalanced inner = true := hbalanced
    refine ⟨⟨fun _ => htrue, fun _ => ⟨_, hok⟩⟩, ?_, ?_⟩
    · intro values hvalues
      rw [hok] at hvalues
      exact ⟨groups, heq ▸ hsegments, (Except.ok.inj hvalues).symm⟩
    · intro hfalse
      simp [htrue] at hfalse
  · have herror : splitStack dump = .error (.unbalanced (String.ofList (spaced pending))) := by
      rw [hsplit, outcome, if_neg hdone]
    have hfalse : isBalanced inner = false := by rw [hbalanced, hpending.unbalanced hdone]
    refine ⟨?_, ?_, fun _ => ⟨groups, pending, hsegments, heq, hdone, hpending, herror⟩⟩
    · simp [herror, hfalse]
    · intro values hvalues
      rw [herror] at hvalues
      cases hvalues

/-- A value over three lines: its literal has a bracket, an escaped quote and a line break after a
backslash. -/
def brokenInner : List Char := " (Pair \"(\\\" \\\n        )]\"\n        {})\n      Unit ".toList

def brokenDump : List Char := "\n  [".toList ++ brokenInner ++ "] done".toList

theorem splitStack_brokenDump :
    isBalanced brokenInner = true ∧ splitStack brokenDump = .ok ["(Pair \"(\\\" \\ )]\" {})", "Unit"] ∧
      ∃ groups, Segments (stackLines brokenInner) groups ∧
        groups.map (String.ofList <| spaced ·) = ["(Pair \"(\\\" \\ )]\" {})", "Unit"] := by
  have hdump : trim brokenDump = '[' :: (brokenInner ++ ']' :: " done".toList) := by decide
  have hok : splitStack brokenDump = .ok ["(Pair \"(\\\" \\ )]\" {})", "Unit"] := by rfl
  obtain ⟨hbalanced, hgroups, -⟩ := splitStack_segments hdump (by decide)
  obtain ⟨groups, hsegments, hvalues⟩ := hgroups _ hok
  exact ⟨hbalanced.mp ⟨_, hok⟩, hok, groups, hsegments, hvalues.symm⟩

end Retrace.Trace
