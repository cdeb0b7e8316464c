import Retrace.Proofs.Trace.Failure

/-!
# Literals do not disturb the framing

The marks around the parts of an output are looked for in the text as it is, literals included. Two
outputs that differ in their literals are nevertheless cut at the same places, but for one: the word
that starts the trace may be found in the value a run failed with. What then stands before the first
item is not read as an item.
-/

namespace Retrace.Trace

open Retrace.Text Retrace.Michelson

theorem Reworded.itemMark_occurs {kind : Char → Prop} {x y : List Char} (h : Reworded kind x y)
    (hx : itemMark <:+: x) : itemMark <:+: y := by
  have hquote : '"' ∉ itemMark := by simp [itemMark]
  refine h.occurs_of_occurs hquote apart_itemMark.ne_nil (fun text htext hfound => ?_) hx
  exact htext.unbroken (hfound.subset (by simp [itemMark]))

/-! ## Printouts -/

/-- An item: a line and a dump under it. -/
structure Block where
  header : List Char
  dump : List Char

def Block.print (b : Block) : List Char := b.header ++ '\n' :: b.dump

/-- The report of a failure. -/
structure FailReport where
  word : List Char
  blanks : List Char
  payload : List Char

def FailReport.lead (r : FailReport) : List Char :=
  "reached ".toList ++ r.word ++ " instruction\nwith".toList ++ r.blanks

/-- What a run prints: a report if it failed, the trace, and the mark of a fatal error. -/
structure Printout where
  before : List Char
  report : Option FailReport
  /-- Blanks after the word that starts the trace. -/
  gap : List Char
  blocks : List Block
  /-- What follows the mark of a fatal error. -/
  fatal : Option (List Char)

namespace Printout

def opening (p : Printout) : List Char := p.before ++ (p.report.map FailReport.lead).getD []

def payload (p : Printout) : List Char := (p.report.map fun r => r.payload ++ ['\n']).getD []

def marked (blocks : List Block) : List Char := blocks.flatMap fun b => itemMark ++ b.print

def body (p : Printout) : List Char :=
  p.opening ++ p.payload ++ (traceMark ++ (p.gap ++ marked p.blocks))

def print (p : Printout) : List Char := p.body ++ (p.fatal.map (fatalMark ++ ·)).getD []

end Printout

/-- What can stand between the word that starts the trace and the trace itself, if the word comes
earlier: the rest of its line and more lines, none of them an item or a dump. -/
structure Stray (text : List Char) : Prop where
  broken : '\n' ∈ text
  unmarked : ¬ itemMark <:+: text
  unbracketed : ∀ front rest, text = front ++ '\n' :: rest → (trimStart rest).head? ≠ some '['

theorem Stray.of_not_mem {text : List Char} (hbroken : '\n' ∈ text) (hunmarked : ¬ itemMark <:+: text)
    (h : '[' ∉ text) : Stray text where
  broken := hbroken
  unmarked := hunmarked
  unbracketed := by
    rintro front rest rfl hhead
    have hmem : '[' ∈ trimStart rest := List.mem_of_head? hhead
    exact h (by simp [List.dropWhile_subset _ hmem])

/-- Each mark occurs only where it was printed. The word that starts the trace may also occur before. -/
structure Printout.WellFormed (p : Printout) : Prop where
  opening : ∀ before rest, p.opening = before ++ (traceMark ++ rest) → Stray (rest ++ p.payload)
  payload : p.report ≠ none → Stray p.payload
  gap : allBlank p.gap = true
  headers : ∀ b ∈ p.blocks, '\n' ∉ b.header
  unmarked : ∀ b ∈ p.blocks, ¬ itemMark <:+: b.print
  body : ¬ fatalMark <:+: p.body

/-! ## What is read -/

theorem traceMark_append (rest : List Char) : traceMark ++ rest = 't' :: (['r', 'a', 'c', 'e'] ++ rest) := by
  simp [traceMark]

theorem splitStack_of_head {dump cs : List Char} {c : Char} (h : trimStart dump = c :: cs)
    (hc : c ≠ '[') : splitStack dump = .error .notBracketed := by
  have hsolid : isBlank c = false := by
    have := List.head?_dropWhile_not isBlank dump
    rw [← trimStart, h] at this
    exact this
  have htrim : trim dump = c :: trimEnd cs := by
    rw [trim, h, ← List.nil_append (c :: cs), trimEnd_append_solid hsolid, List.nil_append]
  simp only [splitStack, htrim, List.isEmpty_cons, bracketed?_of_ne hc]
  rfl

theorem item?_stray {text : List Char} (h : Stray text) (gap : List Char) :
    item? (text ++ (traceMark ++ gap)) = none := by
  obtain ⟨line, rest, rfl, hline⟩ := List.eq_append_cons_of_mem h.broken
  -- The first line may look like a header, but what follows it is not in brackets.
  have hhead : ∃ c cs, trimStart (rest ++ (traceMark ++ gap)) = c :: cs ∧ c ≠ '[' := by
    rw [trimStart, List.dropWhile_append]
    split
    · rw [traceMark_append, List.dropWhile_cons_of_neg (by decide)]
      exact ⟨_, _, rfl, by decide⟩
    · rename_i hsome
      have hne : rest.dropWhile isBlank ≠ [] := fun hnil => hsome (by rw [hnil]; rfl)
      obtain ⟨c, cs, hcs⟩ := List.exists_cons_of_ne_nil hne
      refine ⟨c, cs ++ (traceMark ++ gap), by rw [hcs, List.cons_append], ?_⟩
      rintro rfl
      exact h.unbracketed line rest rfl (by rw [trimStart, hcs]; rfl)
  obtain ⟨c, cs, hcs, hc⟩ := hhead
  rw [List.append_assoc, List.cons_append, item?_line hline, splitStack_of_head hcs hc]
  cases header? line <;> rfl

theorem itemMark_not_infix_of_allBlank {gap : List Char} (h : allBlank gap = true) : ¬ itemMark <:+: gap := by
  intro hfound
  have hdash : '-' ∈ gap := hfound.subset (by simp [itemMark])
  exact absurd (List.all_eq_true.mp h '-' hdash) (by decide)

theorem itemMark_not_infix_stray {text gap : List Char} (h : Stray text) (hgap : allBlank gap = true) :
    ¬ itemMark <:+: text ++ (traceMark ++ gap) := by
  intro hfound
  rw [traceMark_append] at hfound
  rcases infix_of_infix_append_cons apart_itemMark.ne_nil (by simp [itemMark]) hfound with htext | hrest
  · exact h.unmarked htext
  · have hdash : '-' ∈ ['r', 'a', 'c', 'e'] ++ gap := hrest.subset (by simp [itemMark])
    rcases List.mem_append.mp hdash with hdash | hdash
    · simp at hdash
    · exact absurd (List.all_eq_true.mp hgap '-' hdash) (by decide)

theorem pieces_marked {first : List Char} {blocks : List Block} (hfirst : ¬ itemMark <:+: first)
    (hblocks : ∀ b ∈ blocks, ¬ itemMark <:+: b.print) :
    pieces itemMark (first ++ Printout.marked blocks) = first :: blocks.map Block.print := by
  induction blocks generalizing first with
  | nil =>
    have hempty : Printout.marked [] = [] := rfl
    rw [hempty, List.append_nil, pieces_of_not_infix hfirst, List.map_nil]
  | cons b blocks ih =>
    obtain ⟨hb, hblocks⟩ := List.forall_mem_cons.mp hblocks
    have hsplit : Printout.marked (b :: blocks) = itemMark ++ (b.print ++ Printout.marked blocks) := by
      simp [Printout.marked]
    rw [hsplit, pieces_append apart_itemMark hfirst, ih hb hblocks, List.map_cons]

theorem itemsOf_marked_blocks {first : List Char} {blocks : List Block} (hfirst : ¬ itemMark <:+: first)
    (hnone : item? first = none) (hblocks : ∀ b ∈ blocks, ¬ itemMark <:+: b.print) :
    itemsOf (first ++ Printout.marked blocks) = blocks.filterMap fun b => item? b.print := by
  rw [itemsOf_eq, pieces_marked hfirst hblocks, List.filterMap_cons, hnone, List.filterMap_map]
  rfl

theorem suffix_or_occurs {mark front rest before after : List Char}
    (h : front ++ rest = before ++ (mark ++ after)) :
    after <:+ rest ∨ ∃ between, front = before ++ (mark ++ between) ∧ after = between ++ rest := by
  rcases List.append_eq_append_iff.mp h with ⟨as, -, hrest⟩ | ⟨bs, rfl, hbs⟩
  · exact Or.inl ⟨as ++ mark, by rw [hrest, List.append_assoc]⟩
  · rcases List.append_eq_append_iff.mp hbs with ⟨cs, rfl, hcs⟩ | ⟨cs, -, hcs⟩
    · exact Or.inr ⟨cs, rfl, hcs⟩
    · exact Or.inl ⟨cs, hcs.symm⟩

theorem Stray.suffix {text rest : List Char} (h : Stray text) (hrest : rest <:+ text) (hnew : '\n' ∈ rest) :
    Stray rest where
  broken := hnew
  unmarked hfound := h.unmarked (hfound.trans hrest.isInfix)
  unbracketed := by
    obtain ⟨front, rfl⟩ := hrest
    rintro front' rest' rfl
    exact h.unbracketed (front ++ front') rest' (by simp)

theorem stray_of_occurs {p : Printout} (h : p.WellFormed) {before text : List Char}
    (heq : p.opening ++ p.payload = before ++ (traceMark ++ text)) : Stray text := by
  cases hreport : p.report with
  | none =>
    have hempty : p.payload = [] := by simp [Printout.payload, hreport]
    rw [hempty, List.append_nil] at heq
    have := h.opening before text heq
    rwa [hempty, List.append_nil] at this
  | some r =>
    have hpayload := h.payload (by simp [hreport])
    rcases suffix_or_occurs heq with hsuffix | ⟨between, hopening, rfl⟩
    · -- The value of the failure ends with a line break, and the word does not.
      refine hpayload.suffix hsuffix ?_
      have hlast := congrArg List.getLast? heq
      rcases List.eq_nil_or_concat text with rfl | ⟨front, c, rfl⟩
      · simp [Printout.payload, hreport, traceMark] at hlast
      · obtain rfl : '\n' = c := by simpa [Printout.payload, hreport] using hlast
        simp
    · exact h.opening before between hopening

/-- The items are those of the blocks, also if the trace is taken to start earlier. -/
theorem itemsOf_printout {p : Printout} (h : p.WellFormed) : ∃ before section_,
    cut? traceMark p.body = some (before, section_) ∧
      itemsOf section_ = p.blocks.filterMap fun b => item? b.print := by
  cases hcut : cut? traceMark (p.opening ++ p.payload) with
  | none =>
    rw [cut?_eq_none_iff apart_traceMark.ne_nil] at hcut
    exact ⟨_, _, cut?_append apart_traceMark hcut _,
      itemsOf_marked_blocks (itemMark_not_infix_of_allBlank h.gap) (item?_of_allBlank h.gap) h.unmarked⟩
  | some cut =>
    obtain ⟨before, text⟩ := cut
    have hstray := stray_of_occurs h (cut?_eq_some hcut)
    refine ⟨_, _, cut?_append_left hcut apart_traceMark.ne_nil _, ?_⟩
    rw [← List.append_assoc traceMark, ← List.append_assoc text]
    exact itemsOf_marked_blocks (itemMark_not_infix_stray hstray h.gap) (item?_stray hstray p.gap) h.unmarked

theorem ofString_printout {p : Printout} (h : p.WellFormed) :
    ofString (String.ofList p.print) =
      .ok ⟨p.fatal.bind fun _ => failure? p.print, p.blocks.filterMap fun b => item? b.print⟩ := by
  have hsolid : allBlank p.print = false := by
    have hmem : 't' ∈ p.print := by simp [Printout.print, Printout.body, traceMark]
    rw [← Bool.not_eq_true]
    exact fun hblank => absurd (List.all_eq_true.mp hblank 't' hmem) (by decide)
  obtain ⟨before, section_, hcut, hitems⟩ := itemsOf_printout h
  rw [ofString, String.toList_ofList, parse, hsolid, if_neg Bool.false_ne_true]
  cases hfatal : p.fatal with
  | none =>
    have hprint : p.print = p.body := by simp [Printout.print, hfatal]
    have hnone : cut? fatalMark p.body = none := (cut?_eq_none_iff apart_fatalMark.ne_nil _).mpr h.body
    simp only [hprint, hnone, hcut, hitems, Option.bind_none]
  | some text =>
    have hsome : cut? fatalMark p.print = some (p.body, text) := by
      simp only [Printout.print, hfatal]
      exact cut?_append apart_fatalMark h.body text
    simp only [hsome, hcut, hitems, Option.bind_some]

/-! ## Two printouts -/

/-- The same header, and dumps that differ in their literals. -/
structure Block.Reworded (b c : Block) : Prop where
  header : b.header = c.header
  dump : Trace.Reworded Unquoted b.dump c.dump

/-- The same words, and values that differ in their literals. -/
structure FailReport.Reworded (r s : FailReport) : Prop where
  word : r.word = s.word
  blanks : r.blanks = s.blanks
  payload : Trace.Reworded Unquoted r.payload s.payload

/-- Two printouts that differ only in literals of stack values and of the value of the failure. -/
structure Printout.Reworded (p q : Printout) : Prop where
  before : p.before = q.before
  report : Option.Rel FailReport.Reworded p.report q.report
  gap : p.gap = q.gap
  blocks : List.Forall₂ Block.Reworded p.blocks q.blocks
  fatal : p.fatal = q.fatal

theorem forall_mem_right {α : Type} {r : α → α → Prop} {P Q : α → Prop} {xs ys : List α}
    (h : List.Forall₂ r xs ys) (hP : ∀ x ∈ xs, P x) (hPQ : ∀ x y, r x y → P x → Q y) : ∀ y ∈ ys, Q y := by
  induction h with
  | nil => simp
  | cons hxy _ ih =>
    obtain ⟨hx, hxs⟩ := List.forall_mem_cons.mp hP
    exact List.forall_mem_cons.mpr ⟨hPQ _ _ hxy hx, ih hxs⟩

theorem Reworded.split_newline {kind : Char → Prop} {x y front rest : List Char} (h : Reworded kind x y)
    (hy : y = front ++ '\n' :: rest) :
    ∃ front' rest', x = front' ++ '\n' :: rest' ∧ Reworded kind rest' rest := by
  induction h generalizing front with
  | nil => simp at hy
  | @cons c x y hc h ih =>
    cases front with
    | nil =>
      obtain ⟨rfl, rfl⟩ := List.cons.inj hy
      exact ⟨[], x, rfl, h⟩
    | cons d front =>
      obtain ⟨front', rest', rfl, hrest⟩ := ih (List.cons.inj hy).2
      exact ⟨c :: front', rest', rfl, hrest⟩
  | @literal a b x y ha hb h ih =>
    rw [literal_append] at hy ⊢
    rcases List.append_eq_append_iff.mp hy with ⟨as, -, has⟩ | ⟨bs, hbs, hrest⟩
    · obtain ⟨front', rest', rfl, hrest⟩ := ih has
      exact ⟨'"' :: (a ++ ['"']) ++ front', rest', (List.append_assoc ..).symm, hrest⟩
    · -- The break is not in the literal, so it stands right after it.
      cases bs with
      | nil =>
        obtain ⟨front', rest', rfl, hrest⟩ := @ih [] hrest.symm
        exact ⟨'"' :: (a ++ ['"']) ++ front', rest', (List.append_assoc ..).symm, hrest⟩
      | cons d bs =>
        obtain ⟨rfl, -⟩ := List.cons.inj hrest
        exact absurd (by rw [hbs]; simp) hb.newline_not_mem

theorem Stray.reworded {kind : Char → Prop} {x y : List Char} (hx : Stray x) (h : Reworded kind x y) :
    Stray y where
  broken := by
    obtain ⟨front, rest, hsplit⟩ := List.append_of_mem hx.broken
    obtain ⟨front', rest', rfl, -⟩ := h.symm.split_newline hsplit
    simp
  unmarked hfound := hx.unmarked (h.symm.itemMark_occurs hfound)
  unbracketed front rest hy := by
    obtain ⟨front', rest', hx', hrest⟩ := h.split_newline hy
    rw [← hrest.trimStart.head?_eq]
    exact hx.unbracketed front' rest' hx'

theorem Block.Reworded.print {b c : Block} (h : b.Reworded c) :
    Trace.Reworded (fun _ => True) b.print c.print := by
  have hdump := h.dump.mono (fun _ _ => trivial)
  unfold Block.print
  rw [← h.header]
  exact .append_left (fun _ _ => trivial) (.cons trivial hdump)

theorem FailReport.Reworded.lead_eq {r s : FailReport} (h : r.Reworded s) : r.lead = s.lead := by
  unfold FailReport.lead
  rw [h.word, h.blanks]

namespace Printout.Reworded

variable {p q : Printout}

theorem opening_eq (h : p.Reworded q) : p.opening = q.opening := by
  unfold opening
  rw [h.before]
  rcases rel_cases h.report with ⟨hp, hq⟩ | ⟨r, s, hp, hq, hrs⟩
  · rw [hp, hq]
  · rw [hp, hq, Option.map_some, Option.map_some, hrs.lead_eq]

theorem payload (h : p.Reworded q) : Trace.Reworded Unquoted p.payload q.payload := by
  have hnew : Unquoted '\n' := by unfold Unquoted; decide
  unfold Printout.payload
  rcases rel_cases h.report with ⟨hp, hq⟩ | ⟨r, s, hp, hq, hrs⟩
  · rw [hp, hq]
    exact .nil
  · rw [hp, hq]
    exact hrs.payload.append (.cons hnew .nil)

theorem marked_blocks {blocks blocks' : List Block} (h : List.Forall₂ Block.Reworded blocks blocks') :
    Trace.Reworded (fun _ => True) (marked blocks) (marked blocks') := by
  induction h with
  | nil => exact .nil
  | @cons b c blocks blocks' hbc _ ih =>
    unfold marked at ih ⊢
    rw [List.flatMap_cons, List.flatMap_cons]
    exact .append (.append_left (fun _ _ => trivial) hbc.print) ih

theorem body (h : p.Reworded q) : Trace.Reworded (fun _ => True) p.body q.body := by
  have hpayload := h.payload.mono fun _ _ => trivial
  unfold Printout.body
  rw [← h.opening_eq, ← h.gap]
  refine .append (.append_left (fun _ _ => trivial) hpayload) ?_
  exact .append_left (fun _ _ => trivial) (.append_left (fun _ _ => trivial) (marked_blocks h.blocks))

theorem print (h : p.Reworded q) : Trace.Reworded (fun _ => True) p.print q.print := by
  unfold Printout.print
  rw [← h.fatal]
  exact h.body.append (.refl_of_forall fun _ _ => trivial)

theorem wellFormed (h : p.Reworded q) (hp : p.WellFormed) : q.WellFormed where
  opening before rest hopening := by
    have hpayload := h.payload.mono fun _ _ => trivial
    rw [← h.opening_eq] at hopening
    exact (hp.opening before rest hopening).reworded (.append_left (fun _ _ => trivial) hpayload)
  payload hreport := by
    refine (hp.payload fun hnone => ?_).reworded h.payload
    rcases rel_cases h.report with ⟨-, hq⟩ | ⟨r, s, hr, -, -⟩
    · exact hreport hq
    · rw [hnone] at hr
      cases hr
  gap := h.gap ▸ hp.gap
  headers := forall_mem_right h.blocks hp.headers fun _ _ hbc hb => hbc.header ▸ hb
  unmarked := forall_mem_right h.blocks hp.unmarked fun _ _ hbc hb hfound =>
    hb (hbc.print.symm.itemMark_occurs hfound)
  body hfound := hp.body (h.body.symm.fatalMark_occurs hfound)

theorem items (h : p.Reworded q) (hp : p.WellFormed) :
    List.Forall₂ SameFrame (p.blocks.filterMap fun b => item? b.print)
      (q.blocks.filterMap fun b => item? b.print) := by
  have hblocks := (List.forall₂_and_left _ _).mpr ⟨hp.headers, h.blocks⟩
  refine List.rel_filterMap (fun b c ⟨hheader, hbc⟩ => ?_) hblocks
  unfold Block.print
  rw [← hbc.header]
  exact item?_reworded hheader hbc.dump

end Printout.Reworded

/-- **Strings stay in their place.** Two outputs that differ only in the literals of stack values and of
the value of a failure are both read, into as many items with the same locations, gas and numbers of
values, and into a failure both or neither. -/
theorem ofString_reworded {p q : Printout} (hp : p.WellFormed) (h : p.Reworded q) :
    ∃ t u, ofString (String.ofList p.print) = .ok t ∧ ofString (String.ofList q.print) = .ok u ∧
      List.Forall₂ SameFrame t.items u.items ∧ t.fail.isSome = u.fail.isSome := by
  refine ⟨_, _, ofString_printout hp, ofString_printout (h.wellFormed hp), h.items hp, ?_⟩
  simp only [← h.fatal]
  cases p.fatal with
  | none => rfl
  | some _ => exact h.print.failure?_isSome

/-- A run with one item and one string on its stack, that fails with a string or does not fail. -/
def sampleRun (said : Option (List Char)) (held : List Char) : Printout where
  before := []
  report := said.map fun text => ⟨"FAILWITH".toList, [' '], '"' :: (text ++ ['"'])⟩
  gap := []
  blocks :=
    [⟨"location: 7 (just consumed gas: 1)".toList,
      "    [ ".toList ++ '"' :: (held ++ '"' :: " ]".toList)⟩]
  fatal := said.map fun _ => []

theorem sampleRun_reworded {a b c d : List Char} (ha : Content a) (hb : Content b) (hc : Content c)
    (hd : Content d) : (sampleRun (some a) c).Reworded (sampleRun (some b) d) where
  before := rfl
  report := .some ⟨rfl, rfl, .literal ha hb .nil⟩
  gap := rfl
  blocks := by
    refine .cons ⟨rfl, ?_⟩ .nil
    refine .append_left (by simp [Unquoted]) (.literal hc hd ?_)
    exact .refl_of_forall (by simp [Unquoted])
  fatal := rfl

theorem sampleRun_wellFormed : (sampleRun (some ['x']) ['y']).WellFormed where
  opening before rest hopening := by
    have hword : ¬ traceMark <:+: (sampleRun (some ['x']) ['y']).opening := by decide +kernel
    exact absurd ⟨before, rest, by rw [hopening, List.append_assoc]⟩ hword
  payload _ := .of_not_mem (by decide +kernel) (by decide +kernel) (by decide +kernel)
  gap := rfl
  headers := by decide +kernel
  unmarked := by decide +kernel
  body := by decide +kernel

theorem ofString_sampleRun : ∃ t u, ofString (String.ofList (sampleRun (some ['x']) ['y']).print) = .ok t ∧
    ofString (String.ofList
      (sampleRun (some "trace location: 1 gas: 2".toList) "\\\") ] Fatal".toList).print) = .ok u ∧
    List.Forall₂ SameFrame t.items u.items ∧ t.fail.isSome = u.fail.isSome := by
  refine ofString_reworded sampleRun_wellFormed (sampleRun_reworded ?_ ?_ ?_ ?_)
  all_goals exact ⟨by decide, by decide, by decide +kernel⟩

/-- The mark of a fatal error in a string ends the output there: the item is lost. -/
theorem ofString_fatalMark_literal : isEnclosed fatalMark = true ∧ '\n' ∉ fatalMark ∧
    (ofString (String.ofList (sampleRun none ['x']).print)).toOption.map (·.items.length) = some 1 ∧
    (ofString (String.ofList (sampleRun none fatalMark).print)).toOption.map (·.items.length) = some 0 := by
  refine ⟨?_, ?_, ?_, ?_⟩
  all_goals decide +kernel

end Retrace.Trace
