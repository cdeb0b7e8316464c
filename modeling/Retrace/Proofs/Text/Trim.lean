import Retrace.Text.Blank

/-! # Trimmed texts -/

namespace Retrace.Text

theorem isBlank_space : isBlank ' ' = true := by decide

def spaces (n : Nat) : List Char := List.replicate n ' '

theorem allBlank_spaces (n : Nat) : allBlank (spaces n) = true := by
  simp [allBlank, spaces, isBlank_space]

theorem allBlank_cons (c : Char) (cs : List Char) :
    allBlank (c :: cs) = true ↔ isBlank c = true ∧ allBlank cs = true := by
  simp [allBlank]

theorem trimStart_append_of_allBlank {front : List Char} (h : allBlank front = true) (cs : List Char) :
    trimStart (front ++ cs) = trimStart cs := by
  rw [trimStart, List.dropWhile_append_of_pos (by simpa [allBlank] using h), trimStart]

theorem trimEnd_eq_nil {cs : List Char} (h : allBlank cs = true) : trimEnd cs = [] := by
  induction cs with
  | nil => rfl
  | cons c cs ih =>
    obtain ⟨hc, hcs⟩ := (allBlank_cons c cs).mp h
    rw [trimEnd, ih hcs]
    simp [hc]

theorem trimEnd_cons_of_ne_nil {cs : List Char} (c : Char) (h : trimEnd cs ≠ []) :
    trimEnd (c :: cs) = c :: trimEnd cs := by
  rw [trimEnd]
  cases hcs : trimEnd cs with
  | nil => exact absurd hcs h
  | cons d ds => rfl

theorem trimEnd_append_solid {c : Char} (hc : isBlank c = false) (front rest : List Char) :
    trimEnd (front ++ c :: rest) = front ++ c :: trimEnd rest := by
  induction front with
  | nil =>
    rw [List.nil_append, List.nil_append, trimEnd]
    cases trimEnd rest with
    | nil => simp [hc]
    | cons d ds => rfl
  | cons d front ih =>
    rw [List.cons_append, trimEnd_cons_of_ne_nil d (by rw [ih]; simp), ih, List.cons_append]

theorem trimEnd_append_of_allBlank {rest : List Char} (h : allBlank rest = true) (cs : List Char) :
    trimEnd (cs ++ rest) = trimEnd cs := by
  induction cs with
  | nil => rw [List.nil_append, trimEnd_eq_nil h, trimEnd]
  | cons c cs ih => rw [List.cons_append, trimEnd, ih, trimEnd]

theorem trimEnd_isPrefix (cs : List Char) : trimEnd cs <+: cs := by
  induction cs with
  | nil => exact List.prefix_rfl
  | cons c cs ih =>
    rw [trimEnd]
    split
    · split
      · exact List.nil_prefix
      · exact ⟨cs, rfl⟩
    · rename_i hcs
      rw [← hcs]
      exact (List.prefix_cons_inj c).mpr ih

theorem trim_isInfix (cs : List Char) : trim cs <:+: cs :=
  (trimEnd_isPrefix _).isInfix.trans (List.dropWhile_suffix _).isInfix

theorem mem_of_mem_trim {c : Char} {cs : List Char} (h : c ∈ trim cs) : c ∈ cs := (trim_isInfix cs).subset h

theorem trimStart_eq_nil {cs : List Char} (h : allBlank cs = true) : trimStart cs = [] := by
  have := trimStart_append_of_allBlank h []
  rwa [List.append_nil] at this

theorem trim_of_solid {cs : List Char} (h : ∀ c ∈ cs, isBlank c = false) : trim cs = cs := by
  have hstart : trimStart cs = cs := by
    cases cs with
    | nil => rfl
    | cons c cs => exact List.dropWhile_cons_of_neg (by simp [h c List.mem_cons_self])
  rw [trim, hstart]
  clear hstart
  induction cs with
  | nil => rfl
  | cons c cs ih =>
    obtain ⟨hc, hcs⟩ := List.forall_mem_cons.mp h
    have hend := trimEnd_append_solid hc [] cs
    rw [ih hcs] at hend
    exact hend

theorem trim_pad {left right : List Char} (hleft : allBlank left = true)
    (hright : allBlank right = true) (cs : List Char) : trim (left ++ cs ++ right) = trim cs := by
  rw [trim, List.append_assoc, trimStart_append_of_allBlank hleft, trim, trimStart, trimStart,
    List.dropWhile_append]
  split
  · -- Nothing but blanks.
    rename_i hempty
    rw [List.isEmpty_iff.mp hempty, ← trimStart, trimStart_eq_nil hright]
  · exact trimEnd_append_of_allBlank hright _

end Retrace.Text
