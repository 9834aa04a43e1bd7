import PertiskKos.Library.Strings
import PertiskKos.Library.Utf8

/-!
# Lines of a log that is read piece by piece

A reader of a growing log takes the complete lines off the front and keeps what stands after
the last separator for the next time.  What it has taken does not depend on where the pieces
were cut, and it is the same whether the cut is made in the bytes or in the text that they
decode to.
-/

namespace PertiskKos.Lines

open Strings

section Split

variable {A : Type} [DecidableEq A] {separator : A}

/-- The pieces that a separator ends. -/
def ended (separator : A) (text : List A) : List (List A) := (text.splitOn separator).dropLast

/-- What stands after the last separator. -/
def unended (separator : A) (text : List A) : List A := (text.splitOn separator).getLast?.getD []

/-- Induction on the pieces of a list. -/
theorem pieceByPiece (separator : A) {motive : List A → Prop}
    (last : ∀ text, separator ∉ text → motive text)
    (next : ∀ line rest, separator ∉ line → motive rest →
      motive (line ++ separator :: rest)) (text : List A) : motive text := by
  induction hlength : text.length using Nat.strong_induction_on generalizing text with
  | _ length ih =>
      by_cases hmem : separator ∈ text
      · obtain ⟨line, rest, rfl, hline⟩ := List.eq_append_cons_of_mem hmem
        have hshorter : rest.length < length := by
          rw [← hlength, List.length_append, List.length_cons]
          omega
        exact next line rest hline (ih rest.length hshorter rest rfl)
      · exact last text hmem

@[simp] theorem ended_nil : ended separator [] = [] := rfl

@[simp] theorem unended_nil : unended separator [] = [] := rfl

theorem ended_of_notMem {text : List A} (hnot : separator ∉ text) :
    ended separator text = [] := by
  rw [ended, List.splitOn_eq_singleton hnot]
  rfl

theorem unended_of_notMem {text : List A} (hnot : separator ∉ text) :
    unended separator text = text := by
  rw [unended, List.splitOn_eq_singleton hnot]
  rfl

theorem ended_cons {line : List A} (hline : separator ∉ line) (rest : List A) :
    ended separator (line ++ separator :: rest) = line :: ended separator rest := by
  rw [ended, List.splitOn_append_cons_self_of_not_mem hline,
    List.dropLast_cons_of_ne_nil (List.splitOn_ne_nil separator rest), ended]

theorem unended_cons {line : List A} (hline : separator ∉ line) (rest : List A) :
    unended separator (line ++ separator :: rest) = unended separator rest := by
  rw [unended, List.splitOn_append_cons_self_of_not_mem hline]
  cases hrest : rest.splitOn separator with
  | nil => exact absurd hrest (List.splitOn_ne_nil separator rest)
  | cons first pieces => rw [unended, hrest, List.getLast?_cons_cons]

/-- Splitting once finds the first separator, if there is one. -/
theorem splitOnce_cases (separator : A) (text : List A) :
    separator ∉ text ∧ splitOnce separator text = none ∨
      ∃ line rest, separator ∉ line ∧ text = line ++ separator :: rest ∧
        splitOnce separator text = some (line, rest) := by
  by_cases hmem : separator ∈ text
  · obtain ⟨line, rest, rfl, hline⟩ := List.eq_append_cons_of_mem hmem
    exact Or.inr ⟨line, rest, hline, rfl, splitOnce_append hline rest⟩
  · exact Or.inl ⟨hmem, cut_eq_none_of_notMem hmem⟩

/-- What a loop gets that takes a line off the front as long as it finds a separator. -/
def drainSome (separator : A) : Nat → List A → List (List A) × List A
  | 0, text => ([], text)
  | fuel + 1, text =>
      match splitOnce separator text with
      | some (line, rest) =>
          let drained := drainSome separator fuel rest
          (line :: drained.1, drained.2)
      | none => ([], text)

def drain (separator : A) (text : List A) : List (List A) × List A :=
  drainSome separator text.length text

theorem drainSome_eq {fuel : Nat} {text : List A} (hfuel : text.length ≤ fuel) :
    drainSome separator fuel text = (ended separator text, unended separator text) := by
  induction fuel generalizing text with
  | zero =>
      rw [List.length_eq_zero_iff.mp (Nat.le_zero.mp hfuel)]
      rfl
  | succ fuel ih =>
      rcases splitOnce_cases separator text with
        ⟨hnot, hnone⟩ | ⟨line, rest, hline, rfl, hsome⟩
      · simp only [drainSome, hnone, ended_of_notMem hnot, unended_of_notMem hnot]
      · have hshorter : rest.length ≤ fuel := by
          rw [List.length_append, List.length_cons] at hfuel
          omega
        simp only [drainSome, hsome, ih hshorter, ended_cons hline, unended_cons hline]

/-- The loop takes the complete lines and leaves the open one. -/
theorem drain_eq (text : List A) :
    drain separator text = (ended separator text, unended separator text) :=
  drainSome_eq (Nat.le_refl _)

theorem notMem_unended (text : List A) : separator ∉ unended separator text := by
  induction text using pieceByPiece separator with
  | last text hnot => rwa [unended_of_notMem hnot]
  | next line rest hline ih => rwa [unended_cons hline]

/-- A piece that was left open is continued by what comes next. -/
theorem ended_append (text more : List A) :
    ended separator (text ++ more) =
      ended separator text ++ ended separator (unended separator text ++ more) := by
  induction text using pieceByPiece separator with
  | last text hnot => rw [ended_of_notMem hnot, unended_of_notMem hnot, List.nil_append]
  | next line rest hline ih =>
      rw [List.append_assoc, List.cons_append, ended_cons hline, ih, ended_cons hline,
        unended_cons hline, List.cons_append]

theorem unended_append (text more : List A) :
    unended separator (text ++ more) = unended separator (unended separator text ++ more) := by
  induction text using pieceByPiece separator with
  | last text hnot => rw [unended_of_notMem hnot]
  | next line rest hline ih =>
      rw [List.append_assoc, List.cons_append, unended_cons hline, ih, unended_cons hline]

/-- What stands before the first separator only lengthens the first piece. -/
theorem ended_append_cases {front : List A} (hfront : separator ∉ front) (text : List A) :
    separator ∉ text ∨ ∃ line rest, ended separator text = line :: rest ∧
      ended separator (front ++ text) = (front ++ line) :: rest ∧
      unended separator (front ++ text) = unended separator text := by
  by_cases hmem : separator ∈ text
  · obtain ⟨line, rest, rfl, hline⟩ := List.eq_append_cons_of_mem hmem
    have hfree : separator ∉ front ++ line :=
      fun h => (List.mem_append.mp h).elim hfront hline
    refine Or.inr ⟨line, ended separator rest, ended_cons hline rest, ?_, ?_⟩
    · rw [← List.append_assoc, ended_cons hfree]
    · rw [← List.append_assoc, unended_cons hfree, unended_cons hline]
  · exact Or.inl hmem

theorem unended_of_append {front text : List A} (hfront : separator ∉ front)
    (hnil : unended separator (front ++ text) = []) : unended separator text = [] := by
  rcases ended_append_cases hfront text with hnot | ⟨_, _, -, -, hsame⟩
  · have hfree : separator ∉ front ++ text :=
      fun h => (List.mem_append.mp h).elim hfront hnot
    rw [unended_of_notMem hfree, List.append_eq_nil_iff] at hnil
    rw [hnil.2, unended_nil]
  · rw [← hsame, hnil]

end Split

/-! ## Text and bytes -/

section Encoded

open Utf8

/-- A byte below 0x80 stands for itself and is part of no longer sequence. -/
theorem encodeChar_of_ascii {c : Char} {byte : UInt8} (hmem : byte ∈ String.utf8EncodeChar c)
    (hascii : byte.toNat < 0x80) : c.toNat = byte.toNat := by
  rw [String.utf8EncodeChar] at hmem
  simp only [Char.toNat]
  generalize c.val.toNat = v at hmem ⊢
  have hlead : ∀ n, n < 256 → byte = UInt8.ofNat n → byte.toNat = n := by
    rintro n hn rfl
    exact toNat_ofNat hn
  split at hmem
  · next h1 =>
      exact (hlead v (by omega) (List.mem_singleton.mp hmem)).symm
  · split at hmem
    · simp only [List.mem_cons, List.not_mem_nil, or_false] at hmem
      rcases hmem with h | h
      · have := hlead _ (by omega) h
        omega
      · have := hlead _ (by omega) h
        omega
    · split at hmem
      · simp only [List.mem_cons, List.not_mem_nil, or_false] at hmem
        rcases hmem with h | h | h
        all_goals
          have := hlead _ (by omega) h
          omega
      · simp only [List.mem_cons, List.not_mem_nil, or_false] at hmem
        rcases hmem with h | h | h | h
        all_goals
          have := hlead _ (by omega) h
          omega

theorem encodeChar_newline : String.utf8EncodeChar '\n' = [10] := by decide

theorem notMem_encode {text : Text} (hnot : '\n' ∉ text) : (10 : UInt8) ∉ encode text := by
  intro hmem
  obtain ⟨c, hc, hbyte⟩ := List.mem_flatMap.mp hmem
  have hcode : c.toNat = '\n'.toNat := encodeChar_of_ascii hbyte (by decide)
  exact hnot (Char.toNat_inj.mp hcode ▸ hc)

/-- Cutting the bytes at line feeds is cutting the text. -/
theorem ended_encode (text : Text) :
    ended 10 (encode text) = (ended '\n' text).map encode ∧
      unended 10 (encode text) = encode (unended '\n' text) := by
  induction text using pieceByPiece '\n' with
  | last text hnot =>
      rw [ended_of_notMem hnot, unended_of_notMem hnot, ended_of_notMem (notMem_encode hnot),
        unended_of_notMem (notMem_encode hnot)]
      exact ⟨rfl, rfl⟩
  | next line rest hline ih =>
      have hbytes : encode (line ++ '\n' :: rest) = encode line ++ 10 :: encode rest := by
        rw [encode_append, encode_cons, encodeChar_newline]
        rfl
      have hfree := notMem_encode hline
      rw [hbytes, ended_cons hfree, unended_cons hfree, ended_cons hline, unended_cons hline,
        ih.1, ih.2]
      exact ⟨rfl, rfl⟩

/-- The complete lines of a log, with what is no text replaced. -/
def completeLines (log : Bytes) : List Text :=
  (ended 10 log).map fun line => stripReturn (lossy line)

theorem completeLines_encode (text : Text) :
    completeLines (encode text) = (ended '\n' text).map stripReturn := by
  rw [completeLines, (ended_encode text).1, List.map_map]
  apply List.map_congr_left
  intro line _
  rw [Function.comp_apply, lossy_encode]

theorem completeLines_append (log more : Bytes) :
    completeLines (log ++ more) =
      completeLines log ++ completeLines (unended 10 log ++ more) := by
  rw [completeLines, ended_append, List.map_append]
  rfl

theorem completeLines_prefix (log more : Bytes) :
    completeLines log <+: completeLines (log ++ more) := by
  rw [completeLines_append]
  exact List.prefix_append _ _

/-- The lines of a text are the complete ones and the open one, if it is not empty. -/
theorem lines_eq (text : Text) :
    lines text = (ended '\n' text).map stripReturn ++
      if unended '\n' text = [] then [] else [unended '\n' text] := rfl

end Encoded

/-! ## Looking for a pattern line by line -/

section Patterns

theorem headD_splitOn (separator : Char) (text other : Text) :
    (text.splitOn separator).headD other = text.takeWhile (· ≠ separator) := by
  induction text using pieceByPiece separator with
  | last text hnot =>
      rw [List.splitOn_eq_singleton hnot, takeWhile_of_notMem hnot]
      rfl
  | next piece rest hpiece ih =>
      rw [List.splitOn_append_cons_self_of_not_mem hpiece, takeWhile_separator hpiece]
      rfl

theorem lines_of_notMem {text : Text} (hfeed : '\n' ∉ text) :
    lines text = if text = [] then [] else [text] := by
  rw [lines_eq, ended_of_notMem hfeed, unended_of_notMem hfeed]
  rfl

theorem lines_next {line : Text} (hline : '\n' ∉ line) (rest : Text) :
    lines (line ++ '\n' :: rest) = stripReturn line :: lines rest := by
  rw [lines_eq, ended_cons hline, unended_cons hline]
  rfl

theorem newline_notMem_lines {text line : Text} (hmem : line ∈ lines text) : '\n' ∉ line := by
  induction text using pieceByPiece '\n' with
  | last text hfeed =>
      rw [lines_of_notMem hfeed] at hmem
      split at hmem
      · cases hmem
      · rwa [List.mem_singleton.mp hmem]
  | next first rest hfeed ih =>
      rw [lines_next hfeed] at hmem
      rcases List.mem_cons.mp hmem with rfl | hlater
      · exact fun h => hfeed ((stripReturn_sublist first).subset h)
      · exact ih hlater

theorem infix_stripReturn_iff {pattern line : Text} (hnil : pattern ≠ [])
    (hreturn : '\r' ∉ pattern) : pattern <:+: stripReturn line ↔ pattern <:+: line := by
  rw [stripReturn]
  split
  · next hlast =>
      have hline : line = line.dropLast ++ '\r' :: [] :=
        (List.dropLast_append_getLast? '\r' hlast).symm
      conv => rhs; rw [hline]
      rw [infix_separator_iff hnil hreturn, List.infix_nil]
      exact ⟨Or.inl, fun h => h.resolve_right hnil⟩
  · exact Iff.rfl

/-- A pattern without line ends is in the text if it is in one of its lines. -/
theorem infix_lines_iff {pattern text : Text} (hnil : pattern ≠ []) (hfeed : '\n' ∉ pattern)
    (hreturn : '\r' ∉ pattern) :
    pattern <:+: text ↔ ∃ line ∈ lines text, pattern <:+: line := by
  induction text using pieceByPiece '\n' with
  | last text htext =>
      rw [lines_of_notMem htext]
      by_cases hempty : text = []
      · rw [hempty, if_pos rfl, List.infix_nil]
        simp [hnil]
      · rw [if_neg hempty]
        simp
  | next line rest hline ih =>
      rw [lines_next hline, infix_separator_iff hnil hfeed, ih,
        ← infix_stripReturn_iff hnil hreturn]
      simp only [List.mem_cons, exists_eq_or_imp]

end Patterns

end PertiskKos.Lines
