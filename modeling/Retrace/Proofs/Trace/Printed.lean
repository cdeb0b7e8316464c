import Retrace.Proofs.Trace.Dump
import Retrace.Proofs.Trace.Header
import Retrace.Trace.Basic

/-!
# Traces as they are printed

The word `trace` is followed by chunks, a mark before each. A chunk is an item or a text without a
header. Reading the output gives the items back, whatever stands before the trace and after it.
-/

namespace Retrace.Trace

open Retrace.Text

/-! ## Printing -/

structure Item where
  location : Nat
  gas : Amount
  dump : Dump

namespace Item

def print (i : Item) : List Char := printHeader i.location i.gas ++ '\n' :: i.dump.print

def toTraceItem (i : Item) : TraceItem :=
  ⟨i.location, i.gas.toFloat, i.dump.values.map (String.ofList ·.text)⟩

structure WellFormed (i : Item) : Prop where
  location : i.location < 2 ^ 64
  gas : i.gas.WellFormed
  dump : i.dump.WellFormed

end Item

/-- What stands after a mark. -/
inductive Chunk where
  | item (i : Item)
  | noise (text : List Char)

namespace Chunk

def print : Chunk → List Char
  | .item i => i.print
  | .noise text => text

def read? : Chunk → Option TraceItem
  | .item i => some i.toTraceItem
  | .noise _ => none

/-- The item is well-formed, or there is no header on the first line. -/
def WellFormed : Chunk → Prop
  | .item i => i.WellFormed
  | .noise text => ¬ HasHeader (firstLine text)

end Chunk

/-- What the sandbox prints for a run. If there is a fatal error, a chunk or a text in which its mark
occurs is given up to the mark, and all that follows the mark is the report. -/
structure Output where
  before : List Char
  chunks : List Chunk
  after : List Char
  /-- What follows the mark of a fatal error. -/
  report : Option (List Char)

namespace Output

def marked (chunks : List Chunk) : List Char := chunks.flatMap fun c => itemMark ++ c.print

def body (o : Output) : List Char := o.before ++ (traceMark ++ (marked o.chunks ++ o.after))

def print (o : Output) : List Char :=
  o.body ++ (match o.report with
    | none => []
    | some text => fatalMark ++ text)

def items (o : Output) : List TraceItem := o.chunks.filterMap Chunk.read?

/-- Each mark occurs only where it was printed. -/
structure WellFormed (o : Output) : Prop where
  before : ¬ traceMark <:+: o.before
  chunks : ∀ c ∈ o.chunks, c.WellFormed
  unmarked : ∀ c ∈ o.chunks, ¬ itemMark <:+: c.print
  after : o.after = [] ∨ o.after.head? = some '\n'
  after_unmarked : ¬ itemMark <:+: o.after
  body : ¬ fatalMark <:+: o.body

end Output

/-! ## Marks -/

theorem apart_itemMark : Apart itemMark := ⟨'\n', [' ', ' ', '-', ' '], by simp [itemMark], by simp⟩

theorem apart_traceMark : Apart traceMark := ⟨'t', ['r', 'a', 'c', 'e'], by simp [traceMark], by simp⟩

theorem apart_fatalMark : Apart fatalMark := by
  refine ⟨'F', ['a', 't', 'a', 'l', ' ', 'e', 'r', 'r', 'o', 'r', ':'], ?_, by simp⟩
  unfold fatalMark
  simp

/-! ## Chunks -/

theorem HasHeader.mem {line : List Char} (h : HasHeader line) : 'l' ∈ line := by
  obtain ⟨before, location, between, gas, after, rfl, ⟨ds, -, ⟨c, -⟩⟩, -⟩ := h
  simp

theorem item?_eq_none {text : List Char} (h : ¬ HasHeader (firstLine text)) : item? text = none := by
  rw [← cut?_newline_fst] at h
  unfold item?
  simp only [header?_eq_none h]

theorem newline_not_mem_printHeader {location : Nat} {gas : Amount} (h : gas.WellFormed) :
    '\n' ∉ printHeader location gas := by
  have hlabels : '\n' ∉ "location:".toList ∧ '\n' ∉ " (just consumed gas:".toList := by simp
  have hdigits : '\n' ∉ Decimal.digits location := fun hmem =>
    absurd (Decimal.isDigit_of_mem_digits hmem) (by decide)
  have hgas : '\n' ∉ gas.print := fun hmem => by
    rcases Amount.mem_print h hmem with hdigit | hpoint
    · exact absurd hdigit (by decide)
    · exact absurd hpoint (by decide)
  unfold printHeader
  simp only [List.mem_append, List.mem_cons, hlabels.1, hlabels.2, hdigits, hgas, false_or]
  decide

theorem item?_print {i : Item} (h : i.WellFormed) (rest : List Char) :
    item? (i.print ++ rest) = some i.toTraceItem := by
  have hcut : cut? ['\n'] (i.print ++ rest) =
      some (printHeader i.location i.gas, i.dump.print ++ rest) := by
    rw [Item.print, List.append_assoc]
    exact cut?_append apart_newline (not_infix_of_newline_not_mem (newline_not_mem_printHeader h.gas)) _
  unfold item?
  simp only [hcut, Option.getD_some, header?_printHeader h.location h.gas, splitStack_print h.dump]
  rfl

theorem item?_chunk {c : Chunk} (h : c.WellFormed) {rest : List Char}
    (hrest : rest = [] ∨ rest.head? = some '\n') : item? (c.print ++ rest) = c.read? := by
  cases c with
  | item i => exact item?_print h rest
  | noise text =>
    apply item?_eq_none
    rw [Chunk.print, firstLine_append hrest]
    exact h

/-! ## The section -/

theorem item?_of_allBlank {piece : List Char} (h : allBlank piece = true) : item? piece = none := by
  refine item?_eq_none fun hheader => ?_
  have hmem : 'l' ∈ piece := List.takeWhile_subset _ hheader.mem
  exact absurd (List.all_eq_true.mp h 'l' hmem) (by decide)

theorem itemsOf_eq (section_ : List Char) : itemsOf section_ = (pieces itemMark section_).filterMap item? := by
  rw [itemsOf, List.filterMap_filter]
  congr 1
  funext piece
  by_cases hblank : allBlank piece = true
  · simp [hblank, item?_of_allBlank hblank]
  · simp [hblank]

theorem itemsOf_marked {c : Chunk} {chunks : List Chunk} {after : List Char}
    (hwf : ∀ d ∈ c :: chunks, d.WellFormed) (hunmarked : ∀ d ∈ c :: chunks, ¬ itemMark <:+: d.print)
    (hafter : after = [] ∨ after.head? = some '\n') (hafter' : ¬ itemMark <:+: after) :
    itemsOf (c.print ++ (Output.marked chunks ++ after)) = (c :: chunks).filterMap Chunk.read? := by
  induction chunks generalizing c with
  | nil =>
    have hc := hwf c List.mem_cons_self
    have hlast : ¬ itemMark <:+: c.print ++ after := by
      refine not_infix_append apart_itemMark (hafter.imp_right fun h => ?_)
        (hunmarked c List.mem_cons_self) hafter'
      rw [h]
      simp [itemMark]
    have hempty : Output.marked [] = [] := rfl
    rw [hempty, List.nil_append, itemsOf_eq, pieces_of_not_infix hlast, List.filterMap_cons,
      item?_chunk hc hafter, List.filterMap_cons]
    rfl
  | cons d chunks ih =>
    obtain ⟨hc, hchunks⟩ := List.forall_mem_cons.mp hwf
    obtain ⟨hcmark, hmarks⟩ := List.forall_mem_cons.mp hunmarked
    have hsplit : c.print ++ (Output.marked (d :: chunks) ++ after) =
        c.print ++ (itemMark ++ (d.print ++ (Output.marked chunks ++ after))) := by
      simp [Output.marked]
    have hread : item? c.print = c.read? := by
      have := item?_chunk hc (Or.inl rfl)
      rwa [List.append_nil] at this
    rw [hsplit, itemsOf_eq, pieces_append apart_itemMark hcmark, List.filterMap_cons, hread, ← itemsOf_eq,
      ih hchunks hmarks, List.filterMap_cons (a := c)]

theorem itemsOf_section {o : Output} (h : o.WellFormed) :
    itemsOf (Output.marked o.chunks ++ o.after) = o.items := by
  -- What stands between the word and the first mark is a chunk too, an empty one.
  have hempty : (Chunk.noise []).WellFormed := fun hheader => by simpa [firstLine] using hheader.mem
  have hwf : ∀ d ∈ Chunk.noise [] :: o.chunks, d.WellFormed := List.forall_mem_cons.mpr ⟨hempty, h.chunks⟩
  have hunmarked : ∀ d ∈ Chunk.noise [] :: o.chunks, ¬ itemMark <:+: d.print :=
    List.forall_mem_cons.mpr ⟨by simp [Chunk.print, apart_itemMark.ne_nil], h.unmarked⟩
  exact itemsOf_marked hwf hunmarked h.after h.after_unmarked

/-! ## The output -/

theorem allBlank_print (o : Output) : allBlank o.print = false := by
  have hmem : 't' ∈ o.print := by simp [Output.print, Output.body, traceMark]
  rw [← Bool.not_eq_true]
  intro hblank
  exact absurd (List.all_eq_true.mp hblank 't' hmem) (by decide)

theorem cut?_traceMark_body {o : Output} (h : o.WellFormed) :
    cut? traceMark o.body = some (o.before, Output.marked o.chunks ++ o.after) :=
  cut?_append apart_traceMark h.before _

/-- **Reading what was printed.** All items come back in order, whatever stands before, between and after
them, and a fatal error brings the value of its report. -/
theorem ofString_print {o : Output} (h : o.WellFormed) :
    ofString (String.ofList o.print) = .ok ⟨o.report.bind fun _ => failure? o.print, o.items⟩ := by
  rw [ofString, String.toList_ofList, parse, allBlank_print, if_neg Bool.false_ne_true]
  cases hreport : o.report with
  | none =>
    have hbody : o.print = o.body := by simp [Output.print, hreport]
    have hcut : cut? fatalMark o.print = none := by
      rw [hbody, cut?_eq_none_iff apart_fatalMark.ne_nil]
      exact h.body
    simp only [hcut, Option.bind_none]
    rw [hbody, cut?_traceMark_body h]
    simp only [itemsOf_section h]
  | some text =>
    have hcut : cut? fatalMark o.print = some (o.body, text) := by
      simp only [Output.print, hreport]
      exact cut?_append apart_fatalMark h.body text
    simp only [hcut, Option.bind_some, cut?_traceMark_body h, itemsOf_section h]

/-- A chunk without a header, a value over two lines and a fatal error. -/
def sampleOutput : Output where
  before := ['o', 'k', '\n']
  chunks :=
    [.noise ['?'],
     .item {
       location := 7
       gas := ⟨['1', '0'], some ['5']⟩
       dump := ⟨4, [' '], [⟨[⟨0, ['[', ']']⟩]⟩, ⟨[⟨6, ['(', 'A']⟩, ⟨8, ['b', ')']⟩]⟩], [' ']⟩ }]
  after := ['\n']
  report := some ['!']

theorem sampleOutput_wellFormed : sampleOutput.WellFormed where
  before h := absurd (h.subset (show 't' ∈ traceMark by simp [traceMark])) (by decide)
  chunks := by
    refine List.forall_mem_cons.mpr ⟨fun h => absurd h.mem (by decide), List.forall_mem_singleton.mpr ?_⟩
    refine ⟨by decide, ⟨by decide, by rintro f ⟨⟩; decide⟩, ⟨by decide, by decide, ?_⟩⟩
    refine List.forall_mem_cons.mpr ⟨?_, List.forall_mem_singleton.mpr ?_⟩
    · refine ⟨by simp, ?_, by decide, by decide, fun k hpos hlt => ?_⟩
      · exact List.forall_mem_singleton.mpr ⟨by simp, by decide, by simp⟩
      · rw [List.length_singleton] at hlt
        omega
    · refine ⟨by simp, ?_, by decide, by decide, fun k hpos hlt => ?_⟩
      · refine List.forall_mem_cons.mpr ⟨⟨by simp, by decide, by simp⟩, ?_⟩
        exact List.forall_mem_singleton.mpr ⟨by simp, by decide, by simp⟩
      · -- Only the first of the two lines is a group by itself.
        obtain rfl : k = 1 := by
          change k < 2 at hlt
          omega
        decide
  unmarked := by
    have hdash : '-' ∈ itemMark := by simp [itemMark]
    refine List.forall_mem_cons.mpr ⟨fun h => absurd (h.subset hdash) (by decide), ?_⟩
    exact List.forall_mem_singleton.mpr fun h => absurd (h.subset hdash) (by decide +kernel)
  after := Or.inr rfl
  after_unmarked := by decide
  body h := by
    have hletter : 'F' ∈ fatalMark := by unfold fatalMark; simp
    exact absurd (h.subset hletter) (by decide +kernel)

theorem ofString_sampleOutput :
    ofString (String.ofList sampleOutput.print) =
      .ok ⟨failure? sampleOutput.print, [⟨7, Amount.toFloat ⟨['1', '0'], some ['5']⟩, ["[]", "(A b)"]⟩]⟩ :=
  ofString_print sampleOutput_wellFormed

end Retrace.Trace
