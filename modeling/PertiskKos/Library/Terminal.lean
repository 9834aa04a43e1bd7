import PertiskKos.Library.Ip

/-!
# Terminals

What a terminal receives is a stream of characters and control sequences.  Characters are put
at the cursor, and one that does not fit in front of the right edge goes to the next row.  How
wide a character is depends on the terminal.
-/

namespace PertiskKos.Terminal

open Strings Ip

/-! ## The stream -/

section Stream

inductive Token where
  | put (c : Char)
  /-- A control sequence: its parameters and its final character. -/
  | csi (params : Text) (final : Char)
  deriving DecidableEq, Repr

def Token.isCsi : Token → Bool
  | .put _ => false
  | .csi _ _ => true

inductive Mode where
  | ground
  | escape
  | csi (params : Text)

def ESC : Char := Char.ofNat 0x1b

def isControl (c : Char) : Bool := c.toNat < 0x20 || (0x7f ≤ c.toNat && c.toNat < 0xa0)

def isFinal (c : Char) : Bool := 0x40 ≤ c.toNat && c.toNat < 0x7f

/-- The mode after a character, and the token that it completes.  Control characters and
sequences of other kinds do nothing. -/
def advance : Mode → Char → Mode × Option Token
  | .ground, c =>
      if c = ESC then (.escape, none)
      else if isControl c then (.ground, none)
      else (.ground, some (.put c))
  | .escape, c => if c = '[' then (.csi [], none) else (.ground, none)
  | .csi params, c =>
      if isFinal c then (.ground, some (.csi params c)) else (.csi (params ++ [c]), none)

def tokensFrom : Mode → Text → List Token
  | _, [] => []
  | mode, c :: text => (advance mode c).2.toList ++ tokensFrom (advance mode c).1 text

def tokens (text : Text) : List Token := tokensFrom .ground text

/-- The text is read as these tokens, whatever follows it. -/
def Reads (text : Text) (found : List Token) : Prop :=
  ∀ rest, tokens (text ++ rest) = found ++ tokens rest

variable {left right text params : Text} {first second found : List Token} {c : Char}

theorem Reads.eq (hreads : Reads text found) : tokens text = found := by
  have h := hreads []
  rwa [List.append_nil, tokens, tokens, tokensFrom, List.append_nil] at h

theorem Reads.nil : Reads [] [] := fun _ => rfl

theorem Reads.append (hleft : Reads left first) (hright : Reads right second) :
    Reads (left ++ right) (first ++ second) := by
  intro rest
  rw [List.append_assoc, hleft, hright, List.append_assoc]

theorem Reads.flatMap {A : Type} {items : List A} {write : A → Text} {read : A → List Token}
    (hitems : ∀ item ∈ items, Reads (write item) (read item)) :
    Reads (items.flatMap write) (items.flatMap read) := by
  induction items with
  | nil => exact Reads.nil
  | cons item items ih =>
      rw [List.flatMap_cons, List.flatMap_cons]
      exact (hitems item List.mem_cons_self).append
        (ih fun other hother => hitems other (List.mem_cons_of_mem _ hother))

theorem reads_put (hc : isControl c = false) : Reads [c] [.put c] := by
  intro rest
  have hesc : c ≠ ESC := by
    rintro rfl
    revert hc
    decide
  rw [List.singleton_append, tokens, tokensFrom, advance, if_neg hesc, hc]
  rfl

theorem reads_csi (hparams : ∀ c ∈ params, isFinal c = false) (hfinal : isFinal c = true) :
    Reads (ESC :: '[' :: (params ++ [c])) [.csi params c] := by
  intro rest
  have hrun : ∀ read, tokensFrom (.csi read) (params ++ c :: rest) =
      .csi (read ++ params) c :: tokens rest := by
    induction params with
    | nil =>
        intro read
        rw [List.nil_append, tokensFrom, advance, hfinal, List.append_nil]
        rfl
    | cons p params ih =>
        intro read
        obtain ⟨hp, hparams⟩ := List.forall_mem_cons.mp hparams
        rw [List.cons_append, tokensFrom, advance, hp]
        have hlater := ih hparams (read ++ [p])
        rw [List.append_assoc, List.singleton_append] at hlater
        exact hlater
  have hopen : tokens (ESC :: '[' :: (params ++ [c]) ++ rest) =
      tokensFrom (.csi []) (params ++ c :: rest) := by
    rw [List.cons_append, List.cons_append, List.append_assoc]
    rfl
  rw [hopen, hrun []]
  rfl

end Stream

/-! ## The screen -/

section Screen

/-- The attributes of what is put. -/
structure Pen where
  bold : Bool
  fg : List Nat
  bg : List Nat
  deriving DecidableEq, Repr

def Pen.plain : Pen := ⟨false, [], []⟩

def Pen.apply (pen : Pen) (code : Nat) : Pen :=
  if code = 0 then .plain
  else if code = 1 then { pen with bold := true }
  else if code = 22 then { pen with bold := false }
  else if code = 39 then { pen with fg := [] }
  else if code = 49 then { pen with bg := [] }
  else if 30 ≤ code ∧ code < 38 ∨ 90 ≤ code ∧ code < 98 then { pen with fg := [code] }
  else if 40 ≤ code ∧ code < 48 ∨ 100 ≤ code ∧ code < 108 then { pen with bg := [code] }
  else pen

/-- Select graphic rendition. -/
def select : List Nat → Pen → Pen
  | [], pen => pen
  | 38 :: 5 :: index :: codes, pen => select codes { pen with fg := [5, index] }
  | 48 :: 5 :: index :: codes, pen => select codes { pen with bg := [5, index] }
  | 38 :: 2 :: red :: green :: blue :: codes, pen =>
      select codes { pen with fg := [2, red, green, blue] }
  | 48 :: 2 :: red :: green :: blue :: codes, pen =>
      select codes { pen with bg := [2, red, green, blue] }
  | code :: codes, pen => select codes (pen.apply code)

theorem select_reset (codes : List Nat) (pen : Pen) :
    select (0 :: codes) pen = select codes .plain := by
  rw [select]
  · rfl
  all_goals simp

inductive Cell where
  | blank (pen : Pen)
  /-- A character with the marks on it. -/
  | glyph (text : Text) (pen : Pen)
  /-- The right half of a wide character. -/
  | trail (pen : Pen)
  deriving DecidableEq, Repr

def Cell.isTrail : Cell → Bool
  | .trail _ => true
  | _ => false

def Cell.mark (c : Char) : Cell → Cell
  | .glyph text pen => .glyph (text ++ [c]) pen
  | cell => cell

abbrev Line := Nat → Cell

/-- Put a character of the given width.  What is left of a wide character that is overwritten
in part is blank. -/
def Line.put (line : Line) (col width : Nat) (c : Char) (pen : Pen) : Line := fun j =>
  if j = col then .glyph [c] pen
  else if col < j ∧ j < col + width then .trail pen
  else if j + 1 = col ∧ (line col).isTrail ∨ j = col + width ∧ (line j).isTrail then .blank .plain
  else line j

/-- A character without width is a mark on the one in front of the cursor. -/
def Line.mark (line : Line) (col : Nat) (c : Char) : Line := fun j =>
  if j + 1 = col ∧ (line j).isTrail = false ∨ j + 2 = col ∧ (line (j + 1)).isTrail then
    (line j).mark c
  else line j

def Line.eraseFrom (line : Line) (col : Nat) (pen : Pen) : Line := fun j =>
  if col ≤ j then .blank pen
  else if j + 1 = col ∧ (line col).isTrail then .blank .plain
  else line j

def Line.eraseTo (line : Line) (col : Nat) (pen : Pen) : Line := fun j =>
  if j ≤ col then .blank pen
  else if j = col + 1 ∧ (line j).isTrail then .blank .plain
  else line j

structure Size where
  rows : Nat
  cols : Nat
  deriving DecidableEq, Repr

/-- The screen and the cursor, which stands behind the last column when the next character has
to go to the next row. -/
structure Screen where
  lines : Nat → Line
  row : Nat
  col : Nat
  pen : Pen

def Screen.cleared : Screen := ⟨fun _ _ => .blank .plain, 0, 0, .plain⟩

variable (width : Char → Nat) (size : Size)

/-- Go to the start of the next row; on the last one, everything moves up. -/
def Screen.wrap (screen : Screen) : Screen :=
  if screen.row + 1 < size.rows then { screen with row := screen.row + 1, col := 0 }
  else
    { screen with
      lines := fun i =>
        if i < screen.row then screen.lines (i + 1)
        else if i = screen.row then fun _ => .blank screen.pen
        else screen.lines i
      col := 0 }

/-- The screen when the character is put: the cursor is where it goes. -/
def Screen.ready (screen : Screen) (c : Char) : Screen :=
  if size.cols < screen.col + width c then screen.wrap size else screen

/-- Change the row of the cursor, and move the cursor in it. -/
def Screen.setLine (screen : Screen) (line : Line) (col : Nat) : Screen :=
  { screen with lines := fun i => if i = screen.row then line else screen.lines i, col := col }

def Screen.line (screen : Screen) : Line := screen.lines screen.row

def Screen.put (screen : Screen) (c : Char) : Screen :=
  if width c = 0 then screen.setLine (screen.line.mark screen.col c) screen.col
  else if size.cols < width c then screen
  else
    let at_ := screen.ready width size c
    at_.setLine (at_.line.put at_.col (width c) c at_.pen) (at_.col + width c)

def args (params : Text) : List Nat := (params.splitOn ';').map ofDigits

theorem args_cons {param : Text} (hparam : ';' ∉ param) (params : Text) :
    args (param ++ ';' :: params) = ofDigits param :: args params := by
  rw [args, List.splitOn_append_cons_self_of_not_mem hparam]
  rfl

/-- Cursor position; rows and columns count from one. -/
def Screen.moveTo (screen : Screen) (row col : Nat) : Screen :=
  { screen with
    row := min (row - 1) (size.rows - 1)
    col := min (col - 1) (size.cols - 1) }

/-- The column that the cursor is shown in. -/
def Screen.shownCol (screen : Screen) : Nat := min screen.col (size.cols - 1)

def Screen.eraseInLine (screen : Screen) : Nat → Screen
  | 0 => screen.setLine (screen.line.eraseFrom (screen.shownCol size) screen.pen) screen.col
  | 1 => screen.setLine (screen.line.eraseTo (screen.shownCol size) screen.pen) screen.col
  | 2 => screen.setLine (fun _ => .blank screen.pen) screen.col
  | _ => screen

def Screen.eraseInDisplay (screen : Screen) : Nat → Screen
  | 0 =>
      let erased := screen.eraseInLine size 0
      { erased with
        lines := fun i => if screen.row < i then fun _ => .blank screen.pen else erased.lines i }
  | 1 =>
      let erased := screen.eraseInLine size 1
      { erased with
        lines := fun i => if i < screen.row then fun _ => .blank screen.pen else erased.lines i }
  | 2 => { screen with lines := fun _ _ => .blank screen.pen }
  | _ => screen

def Screen.exec (screen : Screen) : Token → Screen
  | .put c => screen.put width size c
  | .csi params 'H' => screen.moveTo size ((args params).getD 0 0) ((args params).getD 1 0)
  | .csi params 'J' => screen.eraseInDisplay size ((args params).getD 0 0)
  | .csi params 'K' => screen.eraseInLine size ((args params).getD 0 0)
  | .csi params 'm' => { screen with pen := select (args params) screen.pen }
  | .csi _ _ => screen

def Screen.execAll (screen : Screen) (received : List Token) : Screen :=
  received.foldl (Screen.exec width size) screen

def Screen.feed (screen : Screen) (text : Text) : Screen :=
  screen.execAll width size (tokens text)

/-- Where the characters of the stream are put: rows and columns. -/
def Screen.spots (screen : Screen) : List Token → List (Nat × Nat)
  | [] => []
  | .put c :: received =>
      (if width c ≤ size.cols then
        (List.range (width c)).map fun k =>
          ((screen.ready width size c).row, (screen.ready width size c).col + k)
      else []) ++ (screen.exec width size (.put c)).spots received
  | .csi params final :: received =>
      (screen.exec width size (.csi params final)).spots received

end Screen

/-! ## Within a row -/

section Row

variable {width : Char → Nat} {size : Size} {screen first second : Screen}
variable {received : List Token} {c : Char}

/-- A token that stays in the row as long as its characters fit. -/
def Token.Inline : Token → Prop
  | .put _ => True
  | .csi _ final => final = 'm'

/-- The columns that the characters of the stream take. -/
def columns (width : Char → Nat) : List Token → Nat
  | [] => 0
  | .put c :: received => width c + columns width received
  | .csi _ _ :: received => columns width received

theorem put_of_mark (hc : width c = 0) :
    screen.put width size c = screen.setLine (screen.line.mark screen.col c) screen.col :=
  if_pos hc

theorem ready_of_fits (hfits : screen.col + width c ≤ size.cols) :
    screen.ready width size c = screen :=
  if_neg (Nat.not_lt.mpr hfits)

theorem put_of_fits (hc : width c ≠ 0) (hfits : screen.col + width c ≤ size.cols) :
    screen.put width size c =
      screen.setLine (screen.line.put screen.col (width c) c screen.pen)
        (screen.col + width c) := by
  rw [Screen.put, if_neg hc, if_neg (by omega), ready_of_fits hfits]

@[simp] theorem line_setLine (line : Line) (col : Nat) :
    (screen.setLine line col).line = line := by
  simp [Screen.line, Screen.setLine]

@[simp] theorem col_setLine (line : Line) (col : Nat) : (screen.setLine line col).col = col := rfl

@[simp] theorem pen_setLine (line : Line) (col : Nat) :
    (screen.setLine line col).pen = screen.pen := rfl

/-- What one screen keeps when characters are put into its row. -/
structure Stays (before after : Screen) : Prop where
  row : after.row = before.row
  lines : ∀ i, i ≠ before.row → after.lines i = before.lines i

theorem Stays.refl (screen : Screen) : Stays screen screen := ⟨rfl, fun _ _ => rfl⟩

theorem Stays.trans {middle : Screen} (hfirst : Stays first middle)
    (hsecond : Stays middle second) : Stays first second where
  row := hsecond.row.trans hfirst.row
  lines i hi := (hsecond.lines i (hfirst.row ▸ hi)).trans (hfirst.lines i hi)

theorem stays_setLine (line : Line) (col : Nat) : Stays screen (screen.setLine line col) :=
  ⟨rfl, fun _ hi => if_neg hi⟩

theorem stays_put (hfits : screen.col + width c ≤ size.cols) :
    Stays screen (screen.put width size c) ∧
      (screen.put width size c).col = screen.col + width c := by
  by_cases hc : width c = 0
  · rw [put_of_mark hc, hc]
    exact ⟨stays_setLine _ _, rfl⟩
  · rw [put_of_fits hc hfits]
    exact ⟨stays_setLine _ _, rfl⟩

/-- Characters that fit stay in their row, and move the cursor by their width. -/
theorem stays_execAll (hinline : ∀ token ∈ received, token.Inline)
    (hfits : screen.col + columns width received ≤ size.cols) :
    Stays screen (screen.execAll width size received) ∧
      (screen.execAll width size received).col = screen.col + columns width received := by
  induction received generalizing screen with
  | nil => exact ⟨.refl screen, rfl⟩
  | cons token received ih =>
      obtain ⟨htoken, hlater⟩ := List.forall_mem_cons.mp hinline
      rw [Screen.execAll, List.foldl_cons, ← Screen.execAll]
      cases token with
      | put c =>
          rw [columns, ← Nat.add_assoc] at hfits ⊢
          obtain ⟨hstays, hcol⟩ := @stays_put width size screen c (by omega)
          have hrest := @ih (screen.put width size c) hlater (by rw [hcol]; exact hfits)
          rw [hcol] at hrest
          exact ⟨hstays.trans hrest.1, hrest.2⟩
      | csi params final =>
          obtain rfl : final = 'm' := htoken
          have hrest :=
            @ih { screen with pen := select (args params) screen.pen } hlater hfits
          exact ⟨⟨hrest.1.row, hrest.1.lines⟩, hrest.2⟩

/-- Nothing is put behind the columns that the characters take. -/
theorem spots_of_fits (hinline : ∀ token ∈ received, token.Inline)
    (hfits : screen.col + columns width received ≤ size.cols) :
    ∀ spot ∈ screen.spots width size received,
      spot.2 < screen.col + columns width received := by
  induction received generalizing screen with
  | nil =>
      intro spot hspot
      cases hspot
  | cons token received ih =>
      obtain ⟨htoken, hlater⟩ := List.forall_mem_cons.mp hinline
      cases token with
      | put c =>
          rw [columns, ← Nat.add_assoc] at hfits ⊢
          obtain ⟨-, hcol⟩ := @stays_put width size screen c (by omega)
          have hrest := @ih (screen.put width size c) hlater (by rw [hcol]; exact hfits)
          rw [hcol] at hrest
          rw [Screen.spots, ready_of_fits (by omega)]
          intro spot hspot
          rcases List.mem_append.mp hspot with hhere | hlater
          · rw [if_pos (by omega), List.mem_map] at hhere
            obtain ⟨k, hk, rfl⟩ := hhere
            rw [List.mem_range] at hk
            exact Nat.lt_of_lt_of_le (Nat.add_lt_add_left hk _) (Nat.le_add_right _ _)
          · exact hrest spot hlater
      | csi params final =>
          obtain rfl : final = 'm' := htoken
          exact @ih { screen with pen := select (args params) screen.pen } hlater hfits

theorem spots_append (left right : List Token) :
    screen.spots width size (left ++ right) =
      screen.spots width size left ++
        (screen.execAll width size left).spots width size right := by
  induction left generalizing screen with
  | nil => rfl
  | cons token left ih =>
      cases token with
      | put c =>
          rw [List.cons_append, Screen.spots, Screen.spots, ih, List.append_assoc]
          rfl
      | csi params final =>
          rw [List.cons_append, Screen.spots, Screen.spots, ih]
          rfl

theorem spots_of_csi (hcsi : received.all Token.isCsi = true) :
    screen.spots width size received = [] := by
  induction received generalizing screen with
  | nil => rfl
  | cons token received ih =>
      rw [List.all_cons, Bool.and_eq_true] at hcsi
      cases token with
      | put c => cases hcsi.1
      | csi params final => exact ih hcsi.2

/-- Sequences that neither put a character nor erase anything. -/
def Token.isQuiet : Token → Bool
  | .put _ => false
  | .csi _ final => final ∈ ['H', 'h', 'l', 'm']

theorem lines_of_quiet (hquiet : received.all Token.isQuiet = true) :
    (screen.execAll width size received).lines = screen.lines := by
  induction received generalizing screen with
  | nil => rfl
  | cons token received ih =>
      rw [List.all_cons, Bool.and_eq_true] at hquiet
      rw [Screen.execAll, List.foldl_cons, ← Screen.execAll, ih hquiet.2]
      cases token with
      | put c => cases hquiet.1
      | csi params final =>
          have hfinal : final ∈ ['H', 'h', 'l', 'm'] := by simpa [Token.isQuiet] using hquiet.1
          simp only [List.mem_cons, List.not_mem_nil, or_false] at hfinal
          rcases hfinal with rfl | rfl | rfl | rfl
          all_goals rfl

/-- Two screens agree on what is in front of their cursors, which stand in the same column. -/
structure Agree (first second : Screen) : Prop where
  col : first.col = second.col
  pen : first.pen = second.pen
  cells : ∀ j < first.col, first.line j = second.line j
  leftEdge : 0 < first.col → (first.line first.col).isTrail = false
  rightEdge : 0 < second.col → (second.line second.col).isTrail = false

theorem Line.put_agree {left right : Line} {col n : Nat} {pen : Pen}
    (hcells : ∀ j < col, left j = right j) (hleft : 0 < col → (left col).isTrail = false)
    (hright : 0 < col → (right col).isTrail = false) :
    ∀ j < col + n, left.put col n c pen j = right.put col n c pen j := by
  intro j hj
  rw [Line.put, Line.put]
  split
  · rfl
  · split
    · rfl
    · next hcol htrail =>
        have hlt : j < col := by omega
        have hkeep : ∀ line : Line, (0 < col → (line col).isTrail = false) →
            ¬ (j + 1 = col ∧ (line col).isTrail ∨ j = col + n ∧ (line j).isTrail) := by
          rintro line hedge (⟨-, h⟩ | ⟨h, -⟩)
          · rw [hedge (by omega)] at h
            cases h
          · omega
        rw [if_neg (hkeep left hleft), if_neg (hkeep right hright), hcells j hlt]

theorem Line.put_edge (line : Line) {col n : Nat} (hn : 0 < n) (pen : Pen) :
    (line.put col n c pen (col + n)).isTrail = false := by
  rw [Line.put, if_neg (by omega), if_neg (by omega)]
  split
  · rfl
  · next hkeep =>
      rw [not_or] at hkeep
      simpa using hkeep.2

theorem Line.mark_agree {left right : Line} {col : Nat} (hcells : ∀ j < col, left j = right j) :
    ∀ j < col, left.mark col c j = right.mark col c j := by
  intro j hj
  have hnext : j + 2 = col → left (j + 1) = right (j + 1) := fun h => hcells (j + 1) (by omega)
  rw [Line.mark, Line.mark, hcells j hj]
  by_cases htwo : j + 2 = col
  · rw [hnext htwo]
  · simp only [htwo, false_and, or_false]

theorem Line.mark_edge (line : Line) (col : Nat) : line.mark col c col = line col :=
  if_neg (by omega)

theorem Agree.put (hagree : Agree first second) (hfits : first.col + width c ≤ size.cols) :
    Agree (first.put width size c) (second.put width size c) := by
  obtain ⟨hcol, hpen, hcells, hleft, hright⟩ := hagree
  by_cases hc : width c = 0
  · rw [put_of_mark hc, put_of_mark hc]
    refine ⟨hcol, hpen, ?_, ?_, ?_⟩
    · rw [line_setLine, line_setLine, ← hcol]
      exact Line.mark_agree hcells
    · rw [line_setLine, col_setLine, Line.mark_edge]
      exact hleft
    · rw [line_setLine, col_setLine, Line.mark_edge]
      exact hright
  · rw [put_of_fits hc hfits, put_of_fits hc (hcol ▸ hfits)]
    have hpos : 0 < width c := Nat.pos_of_ne_zero hc
    refine ⟨congrArg (· + width c) hcol, hpen, ?_, ?_, ?_⟩
    · rw [← hcol] at hright
      rw [line_setLine, line_setLine, ← hcol, ← hpen]
      exact Line.put_agree hcells hleft hright
    · rw [line_setLine, col_setLine]
      exact fun _ => Line.put_edge _ hpos _
    · rw [line_setLine, col_setLine]
      exact fun _ => Line.put_edge _ hpos _

theorem Agree.execAll (hagree : Agree first second)
    (hinline : ∀ token ∈ received, token.Inline)
    (hfits : first.col + columns width received ≤ size.cols) :
    Agree (first.execAll width size received) (second.execAll width size received) := by
  induction received generalizing first second with
  | nil => exact hagree
  | cons token received ih =>
      obtain ⟨htoken, hlater⟩ := List.forall_mem_cons.mp hinline
      rw [Screen.execAll, Screen.execAll, List.foldl_cons, List.foldl_cons, ← Screen.execAll,
        ← Screen.execAll]
      cases token with
      | put c =>
          rw [columns, ← Nat.add_assoc] at hfits
          have hfirst : first.col + width c ≤ size.cols := by omega
          have hmoved : (first.exec width size (.put c)).col = first.col + width c :=
            (stays_put hfirst).2
          exact ih (hagree.put hfirst) hlater (by rw [hmoved]; exact hfits)
      | csi params final =>
          obtain rfl : final = 'm' := htoken
          obtain ⟨hcol, hpen, hcells, hleft, hright⟩ := hagree
          have hpens := congrArg (select (args params)) hpen
          exact ih ⟨hcol, hpens, hcells, hleft, hright⟩ hlater hfits

/-- Erasing the rest of the row leaves the same row. -/
theorem Agree.eraseInLine (hagree : Agree first second) (hcol : first.col + 1 ≤ size.cols) :
    (first.eraseInLine size 0).line = (second.eraseInLine size 0).line := by
  obtain ⟨hsame, hpen, hcells, hleft, hright⟩ := hagree
  have hshown : ∀ screen : Screen, screen.col = first.col →
      screen.shownCol size = first.col := by
    intro screen h
    rw [Screen.shownCol, h]
    omega
  rw [Screen.eraseInLine, Screen.eraseInLine, line_setLine, line_setLine, hshown first rfl,
    hshown second hsame.symm, hpen]
  funext j
  rw [Line.eraseFrom, Line.eraseFrom]
  split
  · rfl
  · next hlt =>
      rw [← hsame] at hright
      have hkeep : ∀ line : Line, (0 < first.col → (line first.col).isTrail = false) →
          ¬ (j + 1 = first.col ∧ (line first.col).isTrail) := by
        rintro line hedge ⟨h, htrail⟩
        rw [hedge (by omega)] at htrail
        cases htrail
      rw [if_neg (hkeep _ hleft), if_neg (hkeep _ hright), hcells j (by omega)]

/-! ## Painting a row -/

/-- The end of a row: plain attributes, and nothing behind the text. -/
def closing : List Token := [.csi ['0'] 'm', .csi [] 'K']

/-- The first token resets the attributes, if there is one. -/
def Opens (received : List Token) : Prop :=
  ∀ token ∈ received.head?, ∃ params codes, token = .csi params 'm' ∧ args params = 0 :: codes

/-- The row that a text leaves on a cleared screen. -/
def painted (width : Char → Nat) (size : Size) (received : List Token) : Line :=
  (Screen.cleared.execAll width size (received ++ closing)).line

theorem execAll_append (screen : Screen) (left right : List Token) :
    screen.execAll width size (left ++ right) =
      (screen.execAll width size left).execAll width size right :=
  List.foldl_append

theorem execAll_closing (screen : Screen) : screen.execAll width size closing =
    ({ screen with pen := .plain } : Screen).eraseInLine size 0 := by
  have hreset : select (args ['0']) screen.pen = .plain := select_reset [] screen.pen
  have hargs : (args []).getD 0 0 = 0 := by decide
  simp only [closing, Screen.execAll, List.foldl_cons, List.foldl_nil, Screen.exec, hreset, hargs]

theorem stays_erase (screen : Screen) : Stays screen (screen.eraseInLine size 0) :=
  stays_setLine _ _

/-- Where the attributes of two screens do not matter, the text and the end of a row leave the
same row. -/
theorem paint_agree (hopens : Opens received) (hinline : ∀ token ∈ received, token.Inline)
    (hfits : columns width received + 1 ≤ size.cols) (hfirst : first.col = 0)
    (hsecond : second.col = 0) :
    (first.execAll width size (received ++ closing)).line =
      (second.execAll width size (received ++ closing)).line := by
  rw [execAll_append, execAll_append, execAll_closing, execAll_closing]
  have hstart : ∀ pen, Agree { first with pen := pen } { second with pen := pen } := by
    intro pen
    refine ⟨hfirst.trans hsecond.symm, rfl, ?_, fun h => ?_, fun h => ?_⟩
    · intro j hj
      simp only [hfirst] at hj
      exact absurd hj (Nat.not_lt_zero j)
    · exact absurd hfirst (Nat.ne_of_gt h)
    · exact absurd hsecond (Nat.ne_of_gt h)
  have hsame : Agree { first.execAll width size received with pen := .plain }
      { second.execAll width size received with pen := .plain } := by
    cases received with
    | nil => exact hstart .plain
    | cons token received =>
        obtain ⟨params, codes, rfl, hargs⟩ := hopens token rfl
        obtain ⟨-, hlater⟩ := List.forall_mem_cons.mp hinline
        rw [columns] at hfits
        have hreset : ∀ screen : Screen, screen.exec width size (.csi params 'm') =
            { screen with pen := select codes .plain } := by
          intro screen
          rw [Screen.exec, hargs, select_reset]
        rw [Screen.execAll, Screen.execAll, List.foldl_cons, List.foldl_cons, hreset, hreset]
        have hroom : ({ first with pen := select codes .plain } : Screen).col +
            columns width received ≤ size.cols := by
          simp only [hfirst]
          omega
        have hrest := (hstart (select codes .plain)).execAll hlater hroom
        exact ⟨hrest.col, rfl, hrest.cells, hrest.leftEdge, hrest.rightEdge⟩
  refine hsame.eraseInLine ?_
  have hroom : first.col + columns width received ≤ size.cols := by omega
  have hcol := (stays_execAll hinline hroom).2
  simp only [hcol]
  omega

theorem paint_line (hopens : Opens received) (hinline : ∀ token ∈ received, token.Inline)
    (hfits : columns width received + 1 ≤ size.cols) (hcol : screen.col = 0) :
    (screen.execAll width size (received ++ closing)).line = painted width size received ∧
      Stays screen (screen.execAll width size (received ++ closing)) := by
  refine ⟨paint_agree hopens hinline hfits hcol rfl, ?_⟩
  rw [execAll_append, execAll_closing]
  have hroom : screen.col + columns width received ≤ size.cols := by omega
  have herase := @stays_erase size
    { screen.execAll width size received with pen := .plain }
  exact (stays_execAll hinline hroom).1.trans ⟨rfl, herase.lines⟩

/-- The last column of a row stays blank. -/
theorem painted_last (received : List Token) :
    painted width size received (size.cols - 1) = .blank .plain := by
  rw [painted, execAll_append, execAll_closing, Screen.eraseInLine, line_setLine, Line.eraseFrom,
    if_pos]
  rw [Screen.shownCol]
  exact Nat.min_le_right _ _

end Row

end PertiskKos.Terminal
