import Retrace.Proofs.Trace.Framing

/-!
# The value of a failure

The value is that of the first report of an output. All blanks before it are passed over, and it reaches up
to the first newline that a mark follows, so it comes out whole, whatever stands around the report.
-/

namespace Retrace.Trace

open Retrace.Text

/-! ## The end of a value -/

theorem newline_not_mem_traceMark : '\n' ∉ traceMark := by simp [traceMark]

theorem newline_not_mem_fatalMark : '\n' ∉ fatalMark := by
  unfold fatalMark
  simp

theorem endsValue_iff (text : List Char) :
    endsValue text = true ↔ '\n' :: traceMark <+: text ∨ '\n' :: fatalMark <+: text := by
  unfold endsValue
  split
  · rw [Bool.or_eq_true, List.isPrefixOf_iff_prefix, List.isPrefixOf_iff_prefix, List.prefix_cons_inj,
      List.prefix_cons_inj]
  · rename_i h
    have hnone : ∀ mark, ¬ '\n' :: mark <+: text := by
      rintro mark ⟨rest, rfl⟩
      exact h _ rfl
    simp [hnone]

theorem endsValue_append {value : List Char} (h : value ≠ []) (rest : List Char) :
    endsValue (value ++ '\n' :: rest) = endsValue value := by
  obtain ⟨c, cs, rfl⟩ := List.exists_cons_of_ne_nil h
  -- A mark without newlines does not reach over the one after the value.
  have hmark : ∀ mark, '\n' ∉ mark → ('\n' :: mark <+: c :: cs ++ '\n' :: rest ↔ '\n' :: mark <+: c :: cs) := by
    intro mark hnew
    rw [List.cons_append, List.cons_prefix_cons, List.cons_prefix_cons, prefix_append_cons_iff hnew]
  rw [Bool.eq_iff_iff, endsValue_iff, endsValue_iff, hmark _ newline_not_mem_traceMark,
    hmark _ newline_not_mem_fatalMark]

/-- The marks that can follow a value. -/
def EndMark (mark : List Char) : Prop := mark = traceMark ∨ mark = fatalMark

theorem EndMark.endsValue {mark : List Char} (h : EndMark mark) (rest : List Char) :
    endsValue ('\n' :: (mark ++ rest)) = true := by
  rw [endsValue_iff, List.prefix_cons_inj, List.prefix_cons_inj]
  rcases h with rfl | rfl
  · exact Or.inl (List.prefix_append _ _)
  · exact Or.inr (List.prefix_append _ _)

theorem upToEnd?_value {value mark : List Char} (hvalue : ∀ m, EndMark m → ¬ '\n' :: m <:+: value)
    (hmark : EndMark mark) (rest : List Char) : upToEnd? (value ++ '\n' :: (mark ++ rest)) = some value := by
  induction value with
  | nil => rw [List.nil_append, upToEnd?, if_pos (hmark.endsValue rest)]
  | cons c cs ih =>
    have hends : ¬ endsValue (c :: cs ++ '\n' :: (mark ++ rest)) = true := by
      rw [endsValue_append (by simp), endsValue_iff]
      rintro (h | h)
      · exact hvalue _ (Or.inl rfl) h.isInfix
      · exact hvalue _ (Or.inr rfl) h.isInfix
    rw [List.cons_append] at hends ⊢
    rw [upToEnd?, if_neg hends, ih fun m hm h => hvalue m hm (List.infix_cons h)]
    rfl

/-! ## A report -/

/-- A word, some blanks, and a value that starts with no blank and that nothing in it ends. -/
structure FailReport.WellFormed (r : FailReport) : Prop where
  word : r.word ≠ [] ∧ ∀ c ∈ r.word, isWordChar c = true
  blanks : r.blanks ≠ [] ∧ allBlank r.blanks = true
  solid : ∃ c cs, r.payload = c :: cs ∧ isBlank c = false
  endless : ∀ mark, EndMark mark → ¬ '\n' :: mark <:+: r.payload

def FailReport.print (r : FailReport) (mark : List Char) : List Char := r.lead ++ r.payload ++ '\n' :: mark

theorem FailReport.print_append (r : FailReport) (mark rest : List Char) :
    r.print mark ++ rest = "reached ".toList ++ (r.word ++ (" instruction\nwith".toList ++
      (r.blanks ++ (r.payload ++ '\n' :: (mark ++ rest))))) := by
  unfold FailReport.print FailReport.lead
  simp

theorem payloadFrom?_append {blanks : List Char} (hblanks : allBlank blanks = true) {c : Char}
    {cs value : List Char} (hc : isBlank c = false) (hvalue : upToEnd? (c :: cs) = some value) :
    payloadFrom? (blanks ++ c :: cs) = some value := by
  induction blanks with
  | nil =>
    rw [List.nil_append, payloadFrom?, hc, if_neg Bool.false_ne_true]
    exact hvalue
  | cons b blanks ih =>
    obtain ⟨hb, hblanks⟩ := (allBlank_cons b blanks).mp hblanks
    rw [List.cons_append, payloadFrom?, if_pos hb, ih hblanks]
    rfl

theorem isWordChar_space : isWordChar ' ' = false := by decide +kernel

namespace FailReport.WellFormed

variable {r : FailReport} {mark : List Char}

theorem payload?_eq (h : r.WellFormed) (hmark : EndMark mark) (rest : List Char) :
    payload? (r.blanks ++ (r.payload ++ '\n' :: (mark ++ rest))) = some r.payload := by
  obtain ⟨c, cs, hpayload, hc⟩ := h.solid
  obtain ⟨hne, hblanks⟩ := h.blanks
  obtain ⟨b, bs, hbs⟩ := List.exists_cons_of_ne_nil hne
  have hvalue := upToEnd?_value h.endless hmark rest
  rw [hpayload, List.cons_append] at hvalue ⊢
  rw [hbs] at hblanks ⊢
  obtain ⟨hb, hbs⟩ := (allBlank_cons b bs).mp hblanks
  rw [List.cons_append, payload?, if_pos hb]
  exact payloadFrom?_append hbs hc hvalue

theorem reportAt?_eq (h : r.WellFormed) (hmark : EndMark mark) (rest : List Char) :
    reportAt? (r.print mark ++ rest) = some r.payload := by
  obtain ⟨hne, hword⟩ := h.word
  have hafter := after?_append " instruction\nwith".toList (r.blanks ++ (r.payload ++ '\n' :: (mark ++ rest)))
  -- The word ends at the space after it.
  have hspace : " instruction\nwith".toList = ' ' :: "instruction\nwith".toList := by simp
  obtain ⟨htake, hdrop⟩ := takeWhile_append_stop hword isWordChar_space
    ("instruction\nwith".toList ++ (r.blanks ++ (r.payload ++ '\n' :: (mark ++ rest))))
  rw [← List.cons_append, ← hspace] at htake hdrop
  unfold reportAt?
  rw [print_append, after?_append]
  simp only [Option.bind_eq_bind, Option.bind_some, htake, hdrop, hafter]
  rw [if_neg (by simpa using hne)]
  exact h.payload?_eq hmark rest

end FailReport.WellFormed

/-! ## The first report -/

theorem apart_reached : Apart "reached ".toList := ⟨'r', "eached ".toList, by simp, by simp⟩

theorem report?_before {before : List Char} (h : ¬ "reached ".toList <:+: before) (rest : List Char) :
    report? (before ++ ("reached ".toList ++ rest)) = report? ("reached ".toList ++ rest) := by
  induction before with
  | nil => rfl
  | cons c before ih =>
    rw [List.infix_cons_iff, not_or] at h
    have hafter : after? "reached ".toList (c :: before ++ ("reached ".toList ++ rest)) = none := by
      rw [after?_eq_none_iff]
      exact fun hstart => h.1 (prefix_of_prefix_append apart_reached (by simp) hstart)
    have hnone : reportAt? (c :: before ++ ("reached ".toList ++ rest)) = none := by
      simp only [reportAt?, hafter, Option.bind_eq_bind, Option.bind_none]
    rw [List.cons_append] at hnone ⊢
    rw [report?, hnone, ← ih h.2]
    rfl

theorem FailReport.WellFormed.report?_eq {r : FailReport} {mark before : List Char} (h : r.WellFormed)
    (hmark : EndMark mark) (hbefore : ¬ "reached ".toList <:+: before) (rest : List Char) :
    report? (before ++ (r.print mark ++ rest)) = some r.payload := by
  have hreport := h.reportAt?_eq hmark rest
  rw [print_append] at hreport ⊢
  rw [report?_before hbefore]
  have hcons : "reached ".toList = 'r' :: "eached ".toList := by simp
  rw [hcons, List.cons_append] at hreport ⊢
  rw [report?, hreport]
  rfl

/-- **The value of a failure comes out whole.** It is that of the first report, whatever else the output
holds, and an output without the mark of a fatal error has none. -/
theorem failure?_whole :
    (∀ (r : FailReport) (before mark after : List Char), r.WellFormed → EndMark mark →
      ¬ "reached ".toList <:+: before → fatalMark <:+: before ++ (r.print mark ++ after) →
      failure? (before ++ (r.print mark ++ after)) = some (String.ofList (unescape (trim r.payload)))) ∧
    ∀ raw, ¬ fatalMark <:+: raw → failure? raw = none := by
  refine ⟨?_, ?_⟩
  · intro r before mark after h hmark hbefore hfatal
    unfold failure?
    rw [if_pos ((occurs_iff _ _).mpr hfatal), h.report?_eq hmark hbefore]
    rfl
  · intro raw hfatal
    unfold failure?
    rw [if_neg (mt (occurs_iff _ _).mp hfatal)]

def sampleReport : FailReport := ⟨"FAILWITH".toList, "\n  ".toList, "(Pair 1\n  \"%41\") ".toList⟩

theorem sampleReport_wellFormed : sampleReport.WellFormed where
  word := by
    have hletters : sampleReport.word.all Char.isAlphanum = true := by decide
    exact ⟨by decide, fun c hc => isWordChar_of_alphanum (List.all_eq_true.mp hletters c hc)⟩
  blanks := by decide
  solid := ⟨'(', _, rfl, by decide⟩
  endless := by
    rintro mark (rfl | rfl)
    · decide +kernel
    · decide +kernel

theorem failure?_sampleReport :
    failure? ("script ".toList ++ (sampleReport.print traceMark ++
      "\nFatal error:\nreached FAILWITH instruction\nwith 2\ntrace".toList)) =
      some "(Pair 1\n  \"A\")" := by
  rw [failure?_whole.1 _ _ _ _ sampleReport_wellFormed (Or.inl rfl) (by decide +kernel) (by decide +kernel)]
  decide +kernel

end Retrace.Trace
