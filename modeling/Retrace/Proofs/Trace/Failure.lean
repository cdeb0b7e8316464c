import Retrace.Proofs.Trace.Printed
import Retrace.Proofs.Trace.Reworded

/-!
# Literals and the report of a failure

The words of a report are followed by the end of their line, and so is the end of its value followed by
a word. Literals hold no line breaks: whether a report is found does not depend on them.
-/

namespace Retrace.Trace

open Retrace.Text

theorem isWordChar_quote : isWordChar '"' = false := by decide +kernel

theorem quote_not_mem_traceMark : '"' ∉ traceMark := by simp [traceMark]

theorem quote_not_mem_fatalMark : '"' ∉ fatalMark := by
  unfold fatalMark
  simp

theorem isSome_orElse {α : Type} (o o' : Option α) : (o <|> o').isSome = (o.isSome || o'.isSome) := by
  cases o <;> rfl

/-! ## Reports and lines -/

theorem endsValue_of_ne {c : Char} (h : c ≠ '\n') (cs : List Char) : endsValue (c :: cs) = false := by
  unfold endsValue
  split
  · rename_i heq
    exact absurd (List.cons.inj heq).1 h
  · rfl

theorem upToEnd?_append {line : List Char} (h : '\n' ∉ line) (rest : List Char) :
    (upToEnd? (line ++ rest)).isSome = (upToEnd? rest).isSome := by
  induction line with
  | nil => rfl
  | cons c line ih =>
    rw [List.mem_cons, not_or] at h
    rw [List.cons_append, upToEnd?, endsValue_of_ne (Ne.symm h.1), if_neg Bool.false_ne_true,
      Option.isSome_map, ih h.2]

theorem reportAt?_eq_some {cs value : List Char} (h : reportAt? cs = some value) :
    ∃ line rest, cs = line ++ '\n' :: rest ∧ '"' ∉ line := by
  simp only [reportAt?, Option.bind_eq_bind, Option.bind_eq_some_iff, after?_eq_some_iff,
    Option.ite_none_left_eq_some] at h
  obtain ⟨text, rfl, -, rest, hrest, -⟩ := h
  have hword : '"' ∉ text.takeWhile isWordChar := fun hmem =>
    absurd (List.all_eq_true.mp List.all_takeWhile _ hmem) (by simp [isWordChar_quote])
  have hsplit := List.takeWhile_append_dropWhile (p := isWordChar) (l := text)
  rw [hrest] at hsplit
  generalize text.takeWhile isWordChar = word at hword hsplit
  refine ⟨"reached ".toList ++ (word ++ " instruction".toList), "with".toList ++ rest, ?_, ?_⟩
  · rw [← hsplit]
    simp
  · simp [hword]

theorem reportAt?_append {line : List Char} (h : '\n' ∉ line) (rest : List Char) :
    reportAt? (line ++ '"' :: rest) = none := by
  rw [Option.eq_none_iff_forall_ne_some]
  intro value hvalue
  obtain ⟨line', rest', heq, hquote⟩ := reportAt?_eq_some hvalue
  rcases List.append_eq_append_iff.mp heq with ⟨as, rfl, has⟩ | ⟨bs, rfl, hbs⟩
  · cases as with
    | nil => exact absurd (List.cons.inj has).1 (by decide)
    | cons c as =>
      obtain ⟨rfl, -⟩ := List.cons.inj has
      exact hquote (by simp)
  · cases bs with
    | nil => exact absurd (List.cons.inj hbs).1 (by decide)
    | cons c bs =>
      obtain ⟨rfl, -⟩ := List.cons.inj hbs
      exact h (by simp)

theorem report?_append {line : List Char} (h : '\n' ∉ line) (rest : List Char) :
    report? (line ++ '"' :: rest) = report? rest := by
  induction line with
  | nil =>
    have hnone := reportAt?_append h rest
    rw [List.nil_append] at hnone ⊢
    rw [report?, hnone]
    rfl
  | cons c line ih =>
    have hnone := reportAt?_append h rest
    rw [List.cons_append] at hnone ⊢
    rw [report?, hnone, ← ih fun hmem => h (List.mem_cons_of_mem c hmem)]
    rfl

/-! ## Two texts -/

namespace Reworded

variable {kind : Char → Prop} {x y : List Char}

theorem endsValue_eq (h : Reworded kind x y) : endsValue x = endsValue y := by
  cases h with
  | nil => rfl
  | @cons c x y hc h =>
    by_cases hnew : c = '\n'
    · subst hnew
      simp only [endsValue]
      rw [h.isPrefixOf_eq quote_not_mem_traceMark, h.isPrefixOf_eq quote_not_mem_fatalMark]
    · rw [endsValue_of_ne hnew, endsValue_of_ne hnew]
  | literal => rfl

theorem upToEnd?_isSome (h : Reworded kind x y) : (upToEnd? x).isSome = (upToEnd? y).isSome := by
  induction h with
  | nil => rfl
  | cons hc h ih =>
    unfold upToEnd?
    rw [(Reworded.cons hc h).endsValue_eq]
    split
    · rfl
    · rw [Option.isSome_map, Option.isSome_map, ih]
  | @literal a b x y ha hb h ih =>
    rw [literal_append a, literal_append b, upToEnd?_append ha.newline_not_mem,
      upToEnd?_append hb.newline_not_mem, ih]

theorem payloadFrom?_isSome (h : Reworded kind x y) : (payloadFrom? x).isSome = (payloadFrom? y).isSome := by
  induction h with
  | nil => rfl
  | @cons c x y hc h ih =>
    have hall := Reworded.cons hc h
    unfold payloadFrom?
    split
    · rw [isSome_orElse, isSome_orElse, ih, hall.endsValue_eq]
    · exact hall.upToEnd?_isSome
  | literal ha hb h => exact (Reworded.literal ha hb h).upToEnd?_isSome

theorem payload?_isSome (h : Reworded kind x y) : (payload? x).isSome = (payload? y).isSome := by
  cases h with
  | nil => rfl
  | cons hc h =>
    simp only [payload?]
    split
    · exact h.payloadFrom?_isSome
    · rfl
  | literal => rfl

theorem reportAt?_isSome (h : Reworded kind x y) : (reportAt? x).isSome = (reportAt? y).isSome := by
  have hstart := h.after? (show '"' ∉ "reached ".toList by simp)
  unfold reportAt?
  rcases rel_cases hstart with ⟨hx, hy⟩ | ⟨rest, rest', hx, hy, hrest⟩
  · rw [hx, hy]
  · have hwith := (hrest.dropWhile isWordChar_quote).after? (show '"' ∉ " instruction\nwith".toList by simp)
    simp only [hx, hy, Option.bind_eq_bind, Option.bind_some, hrest.takeWhile_eq isWordChar_quote]
    split
    · rfl
    · rcases rel_cases hwith with ⟨hx, hy⟩ | ⟨text, text', hx, hy, htext⟩
      · rw [hx, hy]
      · rw [hx, hy]
        exact htext.payload?_isSome

theorem report?_isSome (h : Reworded kind x y) : (report? x).isSome = (report? y).isSome := by
  induction h with
  | nil => rfl
  | cons hc h ih =>
    unfold report?
    rw [isSome_orElse, isSome_orElse, ih, (Reworded.cons hc h).reportAt?_isSome]
  | @literal a b x y ha hb h ih =>
    -- Both quotes and what stands between them are passed over.
    have hpass : ∀ {text} rest, Content text → report? ('"' :: (text ++ '"' :: rest)) = report? rest := by
      intro text rest htext
      have hquote : report? ([] ++ '"' :: (text ++ '"' :: rest)) = report? (text ++ '"' :: rest) :=
        report?_append List.not_mem_nil _
      rw [List.nil_append] at hquote
      rw [hquote, report?_append htext.unbroken]
    rw [hpass x ha, hpass y hb, ih]

theorem fatalMark_occurs (h : Reworded kind x y) (hx : fatalMark <:+: x) : fatalMark <:+: y :=
  h.occurs_of_occurs quote_not_mem_fatalMark apart_fatalMark.ne_nil (fun _ => Content.unmarked) hx

theorem failure?_isSome (h : Reworded kind x y) : (failure? x).isSome = (failure? y).isSome := by
  have hfatal : occurs fatalMark x = occurs fatalMark y := by
    rw [Bool.eq_iff_iff, occurs_iff, occurs_iff]
    exact ⟨h.fatalMark_occurs, h.symm.fatalMark_occurs⟩
  unfold failure?
  rw [hfatal]
  split
  · rw [Option.isSome_map, Option.isSome_map, h.report?_isSome]
  · rfl

end Reworded
end Retrace.Trace
