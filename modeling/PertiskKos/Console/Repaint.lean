import PertiskKos.Console.FrameWriter

/-!
# Repainting a part of the console

What the writer sends is read token by token.  A row whose characters fit in front of the last
column leaves the same row wherever it is painted, so rows that are not written again show what
a full repaint shows.
-/

namespace PertiskKos.Console

open Strings Terminal Ip

/-! ## The tokens of a row -/

section Tokens

variable {asciiOnly : Bool} {buf : Buffer} {width : Char → Nat}

def sgrToken (cell : Cell) : Token := .csi (joinWith ';' (sgrCodes cell.fg cell.bg cell.bold)) 'm'

def cellTokens (asciiOnly : Bool) : Option (Color × Color × Bool) → List Cell → List Token
  | _, [] => []
  | current, cell :: cells =>
      let want := (cell.fg, cell.bg, cell.bold)
      (if current = some want then [] else [sgrToken cell]) ++
        .put (glyph cell.symbol asciiOnly) :: cellTokens asciiOnly (some want) cells

def rowTokens (buf : Buffer) (y : Nat) (asciiOnly : Bool) : List Token :=
  cellTokens asciiOnly none (rowCells buf y)

theorem isControl_asciiFallback (c : Char) : isControl (asciiFallback c) = false := by
  rw [asciiFallback]
  split
  · decide
  · split
    · decide
    · split
      · decide
      · decide

theorem isControl_glyph (symbol : Text) (asciiOnly : Bool) :
    isControl (glyph symbol asciiOnly) = false := by
  cases symbol with
  | nil => cases asciiOnly <;> decide
  | cons c symbol =>
      rw [glyph]
      split
      · decide
      · next hc =>
          split
          · simpa using hc
          · split
            · exact isControl_asciiFallback c
            · simpa using hc

theorem notFinal_of_isDigit {c : Char} (hc : c.isDigit = true) : isFinal c = false := by
  have hle : c.toNat ≤ 57 := (Char.isDigit_iff_toNat.mp hc).2
  rw [isFinal, Bool.and_eq_false_iff, decide_eq_false_iff_not]
  exact .inl (by omega)

theorem backgroundCodes_cases (bg : Color) :
    (∃ n, backgroundCodes bg = ["48;5;".toList ++ decimal n]) ∨
      backgroundCodes bg = ((ansiBg bg).map decimal).toList := by
  cases bg with
  | rgb red green blue => exact .inl ⟨_, rfl⟩
  | _ => exact .inr rfl

theorem sgrCodes_chars {fg bg : Color} {bold : Bool} :
    ∀ code ∈ sgrCodes fg bg bold, ∀ c ∈ code, isFinal c = false := by
  have hdecimal : ∀ n, ∀ c ∈ decimal n, isFinal c = false :=
    fun n c hc => notFinal_of_isDigit (isDigit_decimal hc)
  have hlist : ∀ found : Option Nat, ∀ code ∈ (found.map decimal).toList,
      ∀ c ∈ code, isFinal c = false := by
    intro found code hcode
    obtain ⟨n, -, rfl⟩ := by simpa using hcode
    exact hdecimal n
  have hindexed : ∀ c ∈ "48;5;".toList, isFinal c = false := by decide
  rw [sgrCodes, List.forall_mem_cons]
  refine ⟨by decide, fun code hcode => ?_⟩
  rcases List.mem_append.mp hcode with hfront | hbackground
  · rcases List.mem_append.mp hfront with hbold | hforeground
    · cases bold with
      | false => cases hbold
      | true =>
          obtain rfl := List.mem_singleton.mp hbold
          decide
    · exact hlist _ code hforeground
  · rcases backgroundCodes_cases bg with ⟨n, hcodes⟩ | hcodes
    · rw [hcodes] at hbackground
      obtain rfl := List.mem_singleton.mp hbackground
      intro c hc
      rcases List.mem_append.mp hc with hfixed | hnumber
      · exact hindexed c hfixed
      · exact hdecimal n c hnumber
    · exact hlist (ansiBg bg) code (hcodes ▸ hbackground)

theorem sgr_reads (cell : Cell) : Reads (sgr cell.fg cell.bg cell.bold) [sgrToken cell] := by
  refine reads_csi (fun c hc => ?_) (by decide)
  rcases mem_joinWith hc with rfl | ⟨code, hcode, hmem⟩
  · decide
  · exact sgrCodes_chars code hcode c hmem

/-- Every list of attributes begins with a reset. -/
theorem args_sgrToken (fg bg : Color) (bold : Bool) :
    ∃ codes, args (joinWith ';' (sgrCodes fg bg bold)) = 0 :: codes := by
  rw [sgrCodes]
  generalize (if bold then [['1']] else []) ++ ((ansiFg fg).map decimal).toList ++
    backgroundCodes bg = more
  cases more with
  | nil => exact ⟨[], by decide⟩
  | cons code more =>
      refine ⟨args (joinWith ';' (code :: more)), ?_⟩
      have hjoin : joinWith ';' (['0'] :: code :: more) =
          ['0'] ++ ';' :: joinWith ';' (code :: more) := by
        rw [joinWith, List.intercalate_cons_cons]
        rfl
      rw [hjoin, args_cons (by decide)]
      rfl

theorem encodeCells_reads (current : Option (Color × Color × Bool)) (cells : List Cell) :
    Reads (encodeCells asciiOnly current cells) (cellTokens asciiOnly current cells) := by
  induction cells generalizing current with
  | nil => exact Reads.nil
  | cons cell cells ih =>
      rw [encodeCells, cellTokens]
      refine Reads.append ?_ ((reads_put (isControl_glyph _ _)).append (ih _))
      split
      · exact Reads.nil
      · exact sgr_reads cell

theorem encodeRow_reads (y : Nat) :
    Reads (encodeRow buf y asciiOnly) (rowTokens buf y asciiOnly) :=
  encodeCells_reads none _

theorem cellTokens_inline (current : Option (Color × Color × Bool)) (cells : List Cell) :
    ∀ token ∈ cellTokens asciiOnly current cells, token.Inline := by
  induction cells generalizing current with
  | nil =>
      intro token htoken
      cases htoken
  | cons cell cells ih =>
      rw [cellTokens]
      intro token htoken
      rcases List.mem_append.mp htoken with hstyle | hrest
      · split at hstyle
        · cases hstyle
        · obtain rfl := List.mem_singleton.mp hstyle
          exact rfl
      · rcases List.mem_cons.mp hrest with rfl | hlater
        · exact trivial
        · exact ih _ token hlater

/-- The columns that the characters of the cells take. -/
def cellColumns (width : Char → Nat) (asciiOnly : Bool) (cells : List Cell) : Nat :=
  (cells.map fun cell => width (glyph cell.symbol asciiOnly)).sum

theorem cellColumns_of_one {cells : List Cell}
    (hone : ∀ cell ∈ cells, width (glyph cell.symbol asciiOnly) = 1) :
    cellColumns width asciiOnly cells = cells.length := by
  rw [cellColumns, List.map_congr_left hone]
  simp

theorem length_rowCells (buf : Buffer) (y : Nat) :
    (rowCells buf y).length = buf.width.toNat - 1 := by
  rw [rowCells, List.length_map, List.length_range]

theorem columns_cellTokens (current : Option (Color × Color × Bool)) (cells : List Cell) :
    columns width (cellTokens asciiOnly current cells) = cellColumns width asciiOnly cells := by
  induction cells generalizing current with
  | nil => rfl
  | cons cell cells ih =>
      have hput : columns width (.put (glyph cell.symbol asciiOnly) ::
          cellTokens asciiOnly (some (cell.fg, cell.bg, cell.bold)) cells) =
            cellColumns width asciiOnly (cell :: cells) := by
        rw [columns, ih, cellColumns, cellColumns, List.map_cons, List.sum_cons]
      rw [cellTokens]
      split
      · exact hput
      · exact hput

theorem rowTokens_opens (y : Nat) : Opens (rowTokens buf y asciiOnly) := by
  rw [rowTokens]
  cases rowCells buf y with
  | nil =>
      intro token htoken
      cases htoken
  | cons cell cells =>
      intro token htoken
      obtain ⟨codes, hcodes⟩ := args_sgrToken cell.fg cell.bg cell.bold
      obtain rfl : sgrToken cell = token := Option.some.inj htoken
      exact ⟨_, codes, rfl, hcodes⟩

/-- Rows of one text have one width, and leave one row. -/
theorem rowTokens_of_encodeRow {other : Buffer} {otherOnly : Bool} {y : Nat}
    (hsame : encodeRow buf y asciiOnly = encodeRow other y otherOnly) :
    rowTokens buf y asciiOnly = rowTokens other y otherOnly ∧
      buf.width.toNat - 1 = other.width.toNat - 1 := by
  have htokens : rowTokens buf y asciiOnly = rowTokens other y otherOnly := by
    rw [← (encodeRow_reads y).eq, hsame, (encodeRow_reads y).eq]
  have hcount : ∀ buf asciiOnly, columns (fun _ => 1) (rowTokens buf y asciiOnly) =
      buf.width.toNat - 1 := by
    intro buf asciiOnly
    rw [rowTokens, columns_cellTokens, cellColumns_of_one fun _ _ => rfl, length_rowCells]
  refine ⟨htokens, ?_⟩
  rw [← hcount buf asciiOnly, htokens, hcount]

end Tokens

/-! ## Frames on a screen -/

section Painting

variable {asciiOnly : Bool} {buf : Buffer} {width : Char → Nat} {size : Size} {screen : Screen}

def cursorOff : List Token := [.csi "?25".toList 'l', .csi "?12".toList 'l']

def park : List Token := [.csi "1;1".toList 'H']

def address (y : Nat) : List Token := [.csi (decimal y ++ ";1".toList) 'H']

def paintTokens (y : Nat) (row : List Token) : List Token :=
  cursorOff ++ address y ++ row ++ closing ++ cursorOff ++ park

theorem cursorOff_reads : Reads CURSOR_OFF cursorOff :=
  (@reads_csi "?25".toList 'l' (by decide) (by decide)).append
    (@reads_csi "?12".toList 'l' (by decide) (by decide))

theorem park_reads : Reads CURSOR_PARK park :=
  @reads_csi "1;1".toList 'H' (by decide) (by decide)

theorem address_reads (y : Nat) :
    Reads (ESC :: '[' :: (decimal y ++ ";1H".toList)) (address y) := by
  have hfixedChars : ∀ c ∈ ";1".toList, isFinal c = false := by decide
  have hparams : ∀ c ∈ decimal y ++ ";1".toList, isFinal c = false := by
    intro c hc
    rcases List.mem_append.mp hc with hdigit | hfixed
    · exact notFinal_of_isDigit (isDigit_decimal hdigit)
    · exact hfixedChars c hfixed
  have hreads := reads_csi hparams (by decide : isFinal 'H' = true)
  rw [List.append_assoc] at hreads
  exact hreads

theorem closing_reads : Reads (ESC :: "[0m".toList ++ ESC :: "[K".toList) closing :=
  (@reads_csi ['0'] 'm' (by decide) (by decide)).append
    (@reads_csi [] 'K' (by decide) (by decide))

theorem paintRow_reads {row : Text} {found : List Token} (y : Nat) (hrow : Reads row found) :
    Reads (paintRow y row) (paintTokens y found) :=
  ((((cursorOff_reads.append (address_reads y)).append hrow).append closing_reads).append
    cursorOff_reads).append park_reads

theorem cursorOff_quiet : cursorOff.all Token.isQuiet = true := by decide

theorem park_quiet : park.all Token.isQuiet = true := by decide

theorem exec_address (y : Nat) : screen.execAll width size (address y) =
    { screen with row := min (y - 1) (size.rows - 1), col := 0 } := by
  have hdigits : ';' ∉ decimal y := by
    intro h
    have hdigit := isDigit_decimal h
    revert hdigit
    decide
  have hargs : args (decimal y ++ ";1".toList) = [y, 1] := by
    have hrest : args ['1'] = [1] := by decide
    have hcons := args_cons hdigits ['1']
    rw [hrest, ofDigits_decimal] at hcons
    exact hcons
  simp only [address, Screen.execAll, List.foldl_cons, List.foldl_nil, Screen.exec, hargs,
    List.getD_cons_zero, List.getD_cons_succ, Screen.moveTo]
  simp

/-- Painting a row changes this row only. -/
theorem paintTokens_lines {y : Nat} {row : List Token} (hopens : Opens row)
    (hinline : ∀ token ∈ row, token.Inline) (hfits : columns width row + 1 ≤ size.cols)
    (hy : y < size.rows) (i : Nat) :
    (screen.execAll width size (paintTokens (y + 1) row)).lines i =
      if i = y then painted width size row else screen.lines i := by
  have hrow : min (y + 1 - 1) (size.rows - 1) = y := by omega
  rw [paintTokens]
  repeat rw [execAll_append]
  rw [lines_of_quiet park_quiet, lines_of_quiet cursorOff_quiet, ← execAll_append, exec_address,
    hrow]
  obtain ⟨hline, hstays⟩ := @paint_line width size
    { screen.execAll width size cursorOff with row := y, col := 0 } row hopens hinline hfits rfl
  split
  · next hi =>
      rw [hi, ← hline, Screen.line, hstays.row]
  · next hi =>
      rw [hstays.lines i hi, lines_of_quiet cursorOff_quiet]

/-- The characters of every row fit in front of the last column. -/
def Buffer.Fits (width : Char → Nat) (buf : Buffer) (asciiOnly : Bool) : Prop :=
  ∀ y < buf.height.toNat, cellColumns width asciiOnly (rowCells buf y) ≤ buf.width.toNat - 1

/-- The rows that are not kept. -/
def rowsTokens (keep : Nat → Bool) (buf : Buffer) (asciiOnly : Bool) (rows : Nat) : List Token :=
  (List.range rows).flatMap fun y =>
    if keep y then [] else paintTokens (y + 1) (rowTokens buf y asciiOnly)

theorem rowsTokens_lines {keep : Nat → Bool} {rows : Nat}
    (hfits : ∀ y < rows, columns width (rowTokens buf y asciiOnly) + 1 ≤ size.cols)
    (hrows : rows ≤ size.rows) (i : Nat) :
    (screen.execAll width size (rowsTokens keep buf asciiOnly rows)).lines i =
      if i < rows ∧ keep i = false then painted width size (rowTokens buf i asciiOnly)
      else screen.lines i := by
  induction rows with
  | zero => rfl
  | succ rows ih =>
      have hbefore := ih (fun y hy => hfits y (by omega)) (by omega)
      rw [rowsTokens, List.range_succ, List.flatMap_append, ← rowsTokens, execAll_append,
        List.flatMap_singleton]
      cases hkeep : keep rows with
      | true =>
          rw [if_pos rfl]
          refine hbefore.trans (if_congr ?_ rfl rfl)
          refine ⟨fun h => ⟨by omega, h.2⟩, fun h => ⟨?_, h.2⟩⟩
          have hne : i ≠ rows := by
            rintro rfl
            rw [hkeep] at h
            exact absurd h.2 (by decide)
          omega
      | false =>
          rw [if_neg (by decide), paintTokens_lines (rowTokens_opens rows)
            (cellTokens_inline none _) (hfits rows (by omega)) (by omega), hbefore]
          by_cases hi : i = rows
          · rw [if_pos hi, if_pos ⟨by omega, hi ▸ hkeep⟩, hi]
          · rw [if_neg hi]
            exact if_congr ⟨fun h => ⟨by omega, h.2⟩, fun h => ⟨by omega, h.2⟩⟩ rfl rfl

def header : List Token :=
  cursorOff ++ [.csi [] 'H', .csi "2".toList 'J'] ++ cursorOff

def trailer : List Token := cursorOff ++ park ++ cursorOff

theorem trailer_quiet : trailer.all Token.isQuiet = true := by decide

theorem zipIdx_encodeRows : (encodeRows buf asciiOnly).zipIdx =
    (List.range buf.height.toNat).map fun y => (encodeRow buf y asciiOnly, y) := by
  rw [encodeRows]
  generalize buf.height.toNat = rows
  induction rows with
  | zero => rfl
  | succ rows ih =>
      rw [List.range_succ, List.map_append, List.zipIdx_append, ih, List.map_append]
      simp

theorem fullText_reads : Reads (fullText (encodeRows buf asciiOnly))
    (header ++ rowsTokens (fun _ => false) buf asciiOnly buf.height.toNat ++ trailer) := by
  have hheader : Reads (CURSOR_OFF ++ (ESC :: "[H".toList ++ ESC :: "[2J".toList) ++ CURSOR_OFF)
      header :=
    (cursorOff_reads.append ((@reads_csi [] 'H' (by decide) (by decide)).append
      (@reads_csi ['2'] 'J' (by decide) (by decide)))).append cursorOff_reads
  have htrailer : Reads closingText trailer :=
    (cursorOff_reads.append park_reads).append cursorOff_reads
  rw [fullText, zipIdx_encodeRows, List.flatMap_map]
  refine (hheader.append (Reads.flatMap fun y _ => ?_)).append htrailer
  exact paintRow_reads (y + 1) (encodeRow_reads y)

/-- Whether the row is the one that was sent last. -/
def keeps (lastRows : List Text) (buf : Buffer) (asciiOnly : Bool) (y : Nat) : Bool :=
  lastRows[y]? = some (encodeRow buf y asciiOnly)

theorem dirtyText_reads (lastRows : List Text) :
    Reads (dirtyText lastRows (encodeRows buf asciiOnly))
      (cursorOff ++ rowsTokens (keeps lastRows buf asciiOnly) buf asciiOnly buf.height.toNat ++
        trailer) := by
  have htrailer : Reads closingText trailer :=
    (cursorOff_reads.append park_reads).append cursorOff_reads
  rw [dirtyText, zipIdx_encodeRows, List.flatMap_map]
  refine (cursorOff_reads.append (Reads.flatMap fun y hy => ?_)).append htrailer
  have hsmall : y % 2 ^ 16 = y := by
    have hlt := List.mem_range.mp hy
    have hheight := buf.height.toNat_lt
    exact Nat.mod_eq_of_lt (by omega)
  simp only [keeps, decide_eq_true_eq]
  split
  · exact Reads.nil
  · rw [hsmall]
    exact paintRow_reads (y + 1) (encodeRow_reads y)

end Painting

/-! ## What the screen shows -/

section Showing

variable {asciiOnly : Bool} {buf : Buffer} {width : Char → Nat} {size : Size} {screen : Screen}
variable {writer : FrameWriter}

theorem feed_of_reads {text : Text} {found : List Token} (hreads : Reads text found) :
    screen.feed width size text = screen.execAll width size found := by
  rw [Screen.feed, hreads.eq]

theorem feed_append {text : Text} {found : List Token} (hreads : Reads text found)
    (rest : Text) : screen.feed width size (text ++ rest) =
      (screen.feed width size text).feed width size rest := by
  rw [feed_of_reads hreads, Screen.feed, hreads, execAll_append, Screen.feed]

/-- The frame has the size of the terminal, and its rows are shown. -/
def Shown (width : Char → Nat) (size : Size) (screen : Screen) (buf : Buffer) (asciiOnly : Bool) :
    Prop :=
  buf.height.toNat = size.rows → buf.width.toNat - 1 = size.cols - 1 →
    ∀ i < size.rows, screen.lines i = painted width size (rowTokens buf i asciiOnly)

/-- The rows that the writer knows are those of a frame that is shown if it has the size of the
terminal. -/
def Remembers (width : Char → Nat) (size : Size) (writer : FrameWriter) (screen : Screen) :
    Prop :=
  writer.lastRows = [] ∨ ∃ buf asciiOnly, writer.lastRows = encodeRows buf asciiOnly ∧
    Shown width size screen buf asciiOnly

theorem getElem?_encodeRows {i : Nat} (hi : i < buf.height.toNat) :
    (encodeRows buf asciiOnly)[i]? = some (encodeRow buf i asciiOnly) := by
  rw [encodeRows, List.getElem?_map, List.getElem?_range hi]
  rfl

@[simp] theorem length_encodeRows : (encodeRows buf asciiOnly).length = buf.height.toNat := by
  rw [encodeRows, List.length_map, List.length_range]

/-- A row that is kept is shown already. -/
theorem Remembers.kept (hknown : Remembers width size writer screen)
    (hlength : writer.lastRows.length = size.rows)
    (hcols : buf.width.toNat - 1 = size.cols - 1) {i : Nat} (hi : i < size.rows)
    (hkept : writer.lastRows[i]? = some (encodeRow buf i asciiOnly)) :
    screen.lines i = painted width size (rowTokens buf i asciiOnly) := by
  rcases hknown with hnil | ⟨other, otherOnly, hrows, hshown⟩
  · rw [hnil] at hkept
    cases hkept
  · rw [hrows, length_encodeRows] at hlength
    rw [hrows, getElem?_encodeRows (hlength ▸ hi)] at hkept
    obtain ⟨htokens, hwidth⟩ := rowTokens_of_encodeRow (Option.some.inj hkept)
    rw [← htokens]
    exact hshown hlength (hwidth.trans hcols) i hi

theorem Remembers.encode (hknown : Remembers width size writer screen)
    (hfits : buf.Fits width asciiOnly) (hpos : 0 < size.cols) :
    Shown width size
      (screen.feed width size ((writer.encode buf asciiOnly).2.getD [])) buf asciiOnly := by
  intro hheight hwidth i hi
  have hroom : ∀ y < buf.height.toNat,
      columns width (rowTokens buf y asciiOnly) + 1 ≤ size.cols := by
    intro y hy
    have hrow := hfits y hy
    rw [rowTokens, columns_cellTokens]
    omega
  rw [FrameWriter.encode]
  split
  · next hsame =>
      simp only [Bool.and_eq_true, Bool.not_eq_true', Bool.or_eq_false_iff, decide_eq_true_eq]
        at hsame
      have hlength : writer.lastRows.length = size.rows := by
        rw [← hsame.2, length_encodeRows, hheight]
      refine hknown.kept hlength hwidth hi ?_
      rw [← hsame.2]
      exact getElem?_encodeRows (hheight ▸ hi)
  · rw [Option.getD_some]
    split
    · rw [feed_of_reads fullText_reads, execAll_append, execAll_append,
        lines_of_quiet trailer_quiet, rowsTokens_lines hroom (Nat.le_of_eq hheight),
        if_pos ⟨hheight ▸ hi, rfl⟩]
    · next hpart =>
        simp only [Bool.or_eq_true, decide_eq_true_eq, not_or, not_not, ne_eq] at hpart
        have hlength : writer.lastRows.length = size.rows := by
          rw [hpart.2, length_encodeRows, hheight]
        rw [feed_of_reads (dirtyText_reads _), execAll_append, execAll_append,
          lines_of_quiet trailer_quiet, rowsTokens_lines hroom (Nat.le_of_eq hheight)]
        split
        · rfl
        · next hkeep =>
            rw [lines_of_quiet cursorOff_quiet]
            refine hknown.kept hlength hwidth hi ?_
            have hkeeps : keeps writer.lastRows buf asciiOnly i = true := by
              rw [not_and, Bool.not_eq_false] at hkeep
              exact hkeep (hheight ▸ hi)
            simpa [keeps] using hkeeps

theorem encode_reads (writer : FrameWriter) (buf : Buffer) (asciiOnly : Bool) :
    ∃ found, Reads ((writer.encode buf asciiOnly).2.getD []) found := by
  rw [FrameWriter.encode]
  split
  · exact ⟨[], Reads.nil⟩
  · rw [Option.getD_some]
    split
    · exact ⟨_, fullText_reads⟩
    · exact ⟨_, dirtyText_reads _⟩

theorem step_reads (writer : FrameWriter) (step : Step) :
    ∃ found, Reads ((writer.step step).2.getD []) found := by
  cases step with
  | invalidate => exact ⟨[], Reads.nil⟩
  | frame buf asciiOnly => exact encode_reads writer buf asciiOnly

def Step.Fits (width : Char → Nat) : Step → Prop
  | .frame buf asciiOnly => buf.Fits width asciiOnly
  | .invalidate => True

theorem Remembers.step (hknown : Remembers width size writer screen) {step : Step}
    (hfits : step.Fits width) (hpos : 0 < size.cols) :
    Remembers width size (writer.step step).1
      (screen.feed width size ((writer.step step).2.getD [])) := by
  cases step with
  | invalidate => exact .inl rfl
  | frame buf asciiOnly =>
      have hshown := hknown.encode hfits hpos
      rw [FrameWriter.step] at *
      rw [FrameWriter.encode] at *
      split
      · next hsame =>
          exact hknown
      · next hsent =>
          rw [if_neg hsent] at hshown
          exact .inr ⟨buf, asciiOnly, rfl, hshown⟩

theorem Remembers.run (hknown : Remembers width size writer screen) {steps : List Step}
    (hfits : ∀ step ∈ steps, step.Fits width) (hpos : 0 < size.cols) :
    Remembers width size (writer.run steps).1 (screen.feed width size (writer.run steps).2) := by
  induction steps generalizing writer screen with
  | nil => exact hknown
  | cons step steps ih =>
      obtain ⟨hstep, hlater⟩ := List.forall_mem_cons.mp hfits
      obtain ⟨found, hreads⟩ := step_reads writer step
      rw [FrameWriter.run, feed_append hreads]
      exact ih (hknown.step hstep hpos) hlater

theorem run_reads (writer : FrameWriter) (steps : List Step) :
    ∃ found, Reads (writer.run steps).2 found := by
  induction steps generalizing writer with
  | nil => exact ⟨[], Reads.nil⟩
  | cons step steps ih =>
      obtain ⟨later, hlater⟩ := ih (writer.step step).1
      obtain ⟨found, hreads⟩ := step_reads writer step
      exact ⟨found ++ later, hreads.append hlater⟩

/-- No character is put into the last column, wherever the cursor is at first. -/
def Reserves (width : Char → Nat) (size : Size) (received : List Token) : Prop :=
  ∀ screen : Screen, ∀ spot ∈ screen.spots width size received, spot.2 + 1 < size.cols

theorem Reserves.append {left right : List Token} (hleft : Reserves width size left)
    (hright : Reserves width size right) : Reserves width size (left ++ right) := by
  intro screen spot hspot
  rw [spots_append] at hspot
  rcases List.mem_append.mp hspot with h | h
  · exact hleft screen spot h
  · exact hright _ spot h

theorem reserves_of_csi {received : List Token} (hcsi : received.all Token.isCsi = true) :
    Reserves width size received := by
  intro screen spot hspot
  rw [spots_of_csi hcsi] at hspot
  cases hspot

theorem reserves_paintTokens {y : Nat} {row : List Token}
    (hinline : ∀ token ∈ row, token.Inline) (hfits : columns width row ≤ size.cols - 1) :
    Reserves width size (paintTokens y row) := by
  have hrow : Reserves width size (cursorOff ++ address y ++ row) := by
    intro screen spot hspot
    rw [spots_append, spots_of_csi rfl, List.nil_append, execAll_append, exec_address] at hspot
    have hend := spots_of_fits hinline (by simp only; omega) spot hspot
    simp only at hend
    omega
  rw [paintTokens]
  exact ((hrow.append (reserves_of_csi rfl)).append (reserves_of_csi rfl)).append
    (reserves_of_csi rfl)

theorem reserves_rowsTokens {keep : Nat → Bool} {rows : Nat}
    (hfits : ∀ y < rows, columns width (rowTokens buf y asciiOnly) ≤ size.cols - 1) :
    Reserves width size (rowsTokens keep buf asciiOnly rows) := by
  induction rows with
  | zero => exact reserves_of_csi rfl
  | succ rows ih =>
      rw [rowsTokens, List.range_succ, List.flatMap_append, ← rowsTokens, List.flatMap_singleton]
      refine (ih fun y hy => hfits y (by omega)).append ?_
      split
      · exact reserves_of_csi rfl
      · exact reserves_paintTokens (cellTokens_inline none _) (hfits rows (by omega))

theorem reserves_encode (writer : FrameWriter) (hfits : buf.Fits width asciiOnly)
    (hwidth : buf.width.toNat = size.cols) :
    Reserves width size (tokens ((writer.encode buf asciiOnly).2.getD [])) := by
  have hroom : ∀ y < buf.height.toNat,
      columns width (rowTokens buf y asciiOnly) ≤ size.cols - 1 := by
    intro y hy
    rw [rowTokens, columns_cellTokens, ← hwidth]
    exact hfits y hy
  rw [FrameWriter.encode]
  split
  · exact reserves_of_csi rfl
  · rw [Option.getD_some]
    split
    · rw [fullText_reads.eq]
      exact ((reserves_of_csi rfl).append (reserves_rowsTokens hroom)).append
        (reserves_of_csi rfl)
    · rw [(dirtyText_reads _).eq]
      exact ((reserves_of_csi rfl).append (reserves_rowsTokens hroom)).append
        (reserves_of_csi rfl)

/-- In every run of frames whose characters fit in front of the last column, the screen shows
after each frame what a full repaint of it shows on a cleared screen, nothing is put into the
last column, and the last column is blank. -/
theorem repaint_shows_full (width : Char → Nat) (screen : Screen) (steps : List Step)
    (buf : Buffer) (asciiOnly : Bool) (hsteps : ∀ step ∈ steps, step.Fits width)
    (hbuf : buf.Fits width asciiOnly) :
    let size : Size := ⟨buf.height.toNat, buf.width.toNat⟩
    let before := FrameWriter.default.run steps
    let sent := (before.1.encode buf asciiOnly).2.getD []
    let full := (FrameWriter.default.invalidate.encode buf asciiOnly).2.getD []
    (∀ i < size.rows, ∀ j < size.cols,
      (screen.feed width size (before.2 ++ sent)).lines i j =
        (Screen.cleared.feed width size full).lines i j) ∧
    (∀ spot ∈ (screen.feed width size before.2).spots width size (tokens sent),
      spot.2 + 1 < size.cols) ∧
    ∀ i < size.rows, 0 < size.cols →
      (screen.feed width size (before.2 ++ sent)).lines i (size.cols - 1) = .blank .plain := by
  intro size before sent full
  obtain ⟨found, hreads⟩ := run_reads FrameWriter.default steps
  have hshown : 0 < size.cols → ∀ i < size.rows,
      (screen.feed width size (before.2 ++ sent)).lines i =
        painted width size (rowTokens buf i asciiOnly) := by
    intro hpos
    rw [feed_append hreads]
    have hknown : Remembers width size before.1 (screen.feed width size before.2) :=
      Remembers.run (.inl rfl) hsteps hpos
    exact hknown.encode hbuf hpos rfl rfl
  have hfull : 0 < size.cols → ∀ i < size.rows,
      (Screen.cleared.feed width size full).lines i =
        painted width size (rowTokens buf i asciiOnly) := by
    intro hpos
    have hknown : Remembers width size FrameWriter.default.invalidate Screen.cleared := .inl rfl
    exact hknown.encode hbuf hpos rfl rfl
  refine ⟨fun i hi j hj => ?_, reserves_encode before.1 hbuf rfl _, fun i hi hpos => ?_⟩
  · have hpos : 0 < size.cols := by omega
    rw [hshown hpos i hi, hfull hpos i hi]
  · rw [hshown hpos i hi]
    exact painted_last _

/-- Frames of plain characters alone fit, where these take one column each. -/
theorem asciiOnly_fits (hwidth : ∀ c : Char, isControl c = false → c.toNat < 128 → width c = 1) :
    buf.Fits width true := by
  have hglyph : ∀ symbol, width (glyph symbol true) = 1 := by
    intro symbol
    refine hwidth _ (isControl_glyph symbol true) ?_
    have hfallback : ∀ c, (asciiFallback c).toNat < 128 := by
      intro c
      rw [asciiFallback]
      split
      · decide
      · split
        · decide
        · split
          · decide
          · decide
    cases symbol with
    | nil => decide
    | cons c symbol =>
        rw [glyph]
        split
        · decide
        · split
          · assumption
          · exact hfallback c
  intro y _
  rw [cellColumns_of_one fun _ _ => hglyph _, length_rowCells]

/-- A terminal that shows the characters behind the Latin ones in two columns. -/
def wideWidth (c : Char) : Nat := if c.toNat < 0x1100 then 1 else 2

/-- A frame of two rows of five cells; the second row has the same letters throughout. -/
def twoRows (first : List Text) : Buffer where
  width := 5
  height := 2
  cell x y :=
    { symbol := if y = 0 then first.getD x [] else ['b']
      fg := .reset
      bg := .reset
      bold := false }

def narrowFrame : Buffer := twoRows [['a'], ['a'], ['a'], ['a'], ['a']]

/-- Two wide characters, each with the cell behind it. -/
def wideFrame : Buffer := twoRows [['世'], [], ['界'], [], ['a']]

theorem repaint_shows_full_narrow :
    let size : Size := ⟨2, 5⟩
    let before := FrameWriter.default.run [.frame wideFrame true]
    let sent := (before.1.encode narrowFrame false).2.getD []
    let full := (FrameWriter.default.invalidate.encode narrowFrame false).2.getD []
    (∀ i < size.rows, ∀ j < size.cols,
      (Screen.cleared.feed wideWidth size (before.2 ++ sent)).lines i j =
        (Screen.cleared.feed wideWidth size full).lines i j) ∧
    (∀ spot ∈ (Screen.cleared.feed wideWidth size before.2).spots wideWidth size (tokens sent),
      spot.2 + 1 < size.cols) ∧
    ∀ i < size.rows, 0 < size.cols →
      (Screen.cleared.feed wideWidth size (before.2 ++ sent)).lines i (size.cols - 1) =
        .blank .plain := by
  have hnarrow : narrowFrame.Fits wideWidth false := by
    rw [Buffer.Fits]
    decide +kernel
  have hplain : wideFrame.Fits wideWidth true := by
    rw [Buffer.Fits]
    decide +kernel
  exact repaint_shows_full wideWidth .cleared [.frame wideFrame true] narrowFrame false
    (by simpa [Step.Fits] using hplain) hnarrow

/-- A row with two wide characters runs into the next row, which is not written again. -/
theorem wide_row_wraps :
    let size : Size := ⟨2, 5⟩
    let before := FrameWriter.default.run [.frame narrowFrame false]
    let sent := (before.1.encode wideFrame false).2.getD []
    let full := (FrameWriter.default.invalidate.encode wideFrame false).2.getD []
    (Screen.cleared.feed wideWidth size (before.2 ++ sent)).lines 1 0 ≠
        (Screen.cleared.feed wideWidth size full).lines 1 0 ∧
      (0, 4) ∈ (Screen.cleared.feed wideWidth size before.2).spots wideWidth size
        (tokens sent) := by
  decide +kernel

end Showing

end PertiskKos.Console
