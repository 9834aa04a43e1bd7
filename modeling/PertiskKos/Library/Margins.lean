import PertiskKos.Library.Lines

/-!
# White space around a text

Trimming takes what is white off both ends and nothing else, so it may be done before or
after a line is cut at a separator that is not white.
-/

namespace PertiskKos.Strings

open Lines

section Margins

variable {front text back : Text}

def White (text : Text) : Prop := ∀ c ∈ text, isWhite c = true

instance : Decidable (White text) := inferInstanceAs (Decidable (∀ c ∈ text, _))

theorem white_append : White (front ++ back) ↔ White front ∧ White back :=
  List.forall_mem_append

theorem trimStart_white (hfront : White front) (text : Text) :
    trimStart (front ++ text) = trimStart text := by
  rw [trimStart, trimStart, List.dropWhile_append_of_pos hfront]

theorem trimEnd_white (hback : White back) (text : Text) :
    trimEnd (text ++ back) = trimEnd text := by
  rw [trimEnd, trimEnd, List.rdropWhile, List.rdropWhile, List.reverse_append,
    List.dropWhile_append_of_pos fun c hc => hback c (List.mem_reverse.mp hc)]

theorem exists_trimStart (text : Text) : ∃ front, White front ∧ text = front ++ trimStart text :=
  ⟨text.takeWhile isWhite, fun _ hc => List.mem_takeWhile_imp hc,
    (List.takeWhile_append_dropWhile).symm⟩

theorem exists_trimEnd (text : Text) : ∃ back, White back ∧ text = trimEnd text ++ back := by
  refine ⟨text.rtakeWhile isWhite, fun _ hc => List.mem_rtakeWhile_imp hc, ?_⟩
  have hsplit := List.takeWhile_append_dropWhile (p := isWhite) (l := text.reverse)
  have hback := congrArg List.reverse hsplit
  rw [List.reverse_append, List.reverse_reverse] at hback
  exact hback.symm

/-- What is around a trimmed text is white. -/
theorem exists_margins (text : Text) :
    ∃ front back, White front ∧ White back ∧ text = front ++ (trim text ++ back) := by
  obtain ⟨front, hfront, hstart⟩ := exists_trimStart text
  obtain ⟨back, hback, hend⟩ := exists_trimEnd (trimStart text)
  refine ⟨front, back, hfront, hback, ?_⟩
  rw [trim, ← hend]
  exact hstart

/-- A separator that is not white stays where it is. -/
theorem trim_separator {separator : Char} (hblack : isWhite separator = false)
    (before after : Text) :
    trim (before ++ separator :: after) = trimStart before ++ separator :: trimEnd after := by
  have hstart : trimStart (before ++ separator :: after) =
      trimStart before ++ separator :: after := by
    rw [trimStart, trimStart, List.dropWhile_append, List.dropWhile_cons_of_neg (by simp [hblack])]
    split
    · next hnil => rw [List.isEmpty_iff.mp hnil, List.nil_append]
    · rfl
  rw [trim, hstart, trimEnd, trimEnd, List.rdropWhile, List.rdropWhile, List.reverse_append,
    List.reverse_cons, List.append_assoc, List.dropWhile_append, List.singleton_append,
    List.dropWhile_cons_of_neg (by simp [hblack])]
  split
  · next hnil => simp [List.isEmpty_iff.mp hnil]
  · simp

theorem trim_trimStart (text : Text) : trim (trimStart text) = trim text := by
  rw [trim, trim, trimStart, trimStart, List.dropWhile_idempotent]

theorem trim_append_white (hback : White back) (text : Text) :
    trim (text ++ back) = trim text := by
  by_cases hwhite : White text
  · rw [trim_eq_nil_iff.mpr hwhite, trim_eq_nil_iff.mpr (white_append.mpr ⟨hwhite, hback⟩)]
  · have hne : trimStart text ≠ [] := fun hnil => hwhite (List.dropWhile_eq_nil_iff.mp hnil)
    have hstart : trimStart (text ++ back) = trimStart text ++ back := by
      rw [trimStart, List.dropWhile_append, if_neg (by simpa [trimStart] using hne)]
      rfl
    rw [trim, hstart, trimEnd_white hback, trim]

theorem trim_white_append (hfront : White front) (text : Text) :
    trim (front ++ text) = trim text := by
  rw [trim, trimStart_white hfront, trim]

theorem trim_trimEnd (text : Text) : trim (trimEnd text) = trim text := by
  obtain ⟨back, hback, hend⟩ := exists_trimEnd text
  conv => rhs; rw [hend, trim_append_white hback]

theorem trim_black_append {black : Text} (hne : black ≠ [])
    (hblack : ∀ c ∈ black, isWhite c = false) (text : Text) :
    trim (black ++ text) = black ++ trimEnd text := by
  obtain ⟨front, last, rfl⟩ : ∃ front last, black = front ++ [last] :=
    ⟨_, _, (List.dropLast_append_getLast hne).symm⟩
  have hfront : trimStart front = front := by
    refine List.dropWhile_eq_self_iff.mpr fun hpos => ?_
    rw [hblack _ (List.mem_append_left _ (List.getElem_mem hpos))]
    exact Bool.false_ne_true
  rw [List.append_assoc, List.singleton_append, trim_separator (hblack last (by simp)), hfront,
    List.append_assoc, List.singleton_append]

end Margins

/-! ## Lines that are not blank -/

section Pieces

/-- The lines of a text, trimmed, without those that are blank. -/
def shown (texts : List Text) : List Text := (texts.map trim).filter (· ≠ [])

theorem shown_cons (first : Text) (rest : List Text) :
    shown (first :: rest) = (if trim first = [] then [] else [trim first]) ++ shown rest := by
  rw [shown, List.map_cons, List.filter_cons]
  by_cases hnil : trim first = []
  · simp [hnil, shown]
  · simp [hnil, shown]

theorem trim_stripReturn (line : Text) : trim (stripReturn line) = trim line := by
  rw [stripReturn]
  split
  · next hlast =>
      have hwhite : White ['\r'] := by decide
      conv => rhs; rw [← List.dropLast_append_getLast? '\r' hlast, trim_append_white hwhite]
  · rfl

theorem piece_inside {text piece : Text} (hpiece : piece ∈ text.splitOn '\n') :
    piece <:+: text ∧ '\n' ∉ piece := by
  induction text using pieceByPiece '\n' with
  | last text hnot =>
      rw [List.splitOn_eq_singleton hnot] at hpiece
      obtain rfl := List.mem_singleton.mp hpiece
      exact ⟨List.infix_refl _, hnot⟩
  | next line rest hline ih =>
      rw [List.splitOn_append_cons_self_of_not_mem hline] at hpiece
      rcases List.mem_cons.mp hpiece with rfl | hlater
      · exact ⟨(List.prefix_append _ _).isInfix, hline⟩
      · obtain ⟨hwithin, hnot⟩ := ih hlater
        have hrest : rest <:+ line ++ '\n' :: rest :=
          (List.suffix_cons '\n' rest).trans (List.suffix_append line _)
        exact ⟨hwithin.trans hrest.isInfix, hnot⟩

/-- Once the lines are trimmed, it does not matter how they end. -/
theorem shown_lines (text : Text) : shown (lines text) = shown (text.splitOn '\n') := by
  induction text using pieceByPiece '\n' with
  | last text hnot =>
      rw [lines_of_notMem hnot, List.splitOn_eq_singleton hnot]
      split
      · next hnil => subst hnil; rfl
      · rfl
  | next line rest hline ih =>
      rw [lines_next hline, List.splitOn_append_cons_self_of_not_mem hline, shown_cons, shown_cons,
        trim_stripReturn, ih]

/-- White space behind a text is white space behind its last line. -/
theorem shown_white {back : Text} (hback : White back) (hfeed : '\n' ∉ back) (text : Text) :
    shown ((text ++ back).splitOn '\n') = shown (text.splitOn '\n') := by
  induction text using pieceByPiece '\n' with
  | last text hnot =>
      have hboth : '\n' ∉ text ++ back := fun h => (List.mem_append.mp h).elim hnot hfeed
      rw [List.splitOn_eq_singleton hnot, List.splitOn_eq_singleton hboth, shown_cons, shown_cons,
        trim_append_white hback]
  | next line rest hline ih =>
      rw [List.append_assoc, List.cons_append, List.splitOn_append_cons_self_of_not_mem hline,
        List.splitOn_append_cons_self_of_not_mem hline, shown_cons, shown_cons, ih]

end Pieces

end PertiskKos.Strings
