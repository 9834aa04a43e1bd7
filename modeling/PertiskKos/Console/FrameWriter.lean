import PertiskKos.Library.Terminal

/-!
# Frames of the console

The dashboard is drawn into a buffer of cells, and every row of the buffer is written as text
with its attributes.  Rows that have not changed since the last frame are not written again.
-/

namespace PertiskKos.Console

open Strings Terminal Ip

/-! ## Rows -/

section Rows

inductive Color where
  | reset | black | red | green | yellow | blue | magenta | cyan | gray | darkGray | lightRed
  | lightGreen | lightYellow | lightBlue | lightMagenta | lightCyan | white
  | rgb (red green blue : UInt8)
  | indexed (index : UInt8)
  deriving DecidableEq, Repr

def ansiFg : Color → Option Nat
  | .black => some 30
  | .red => some 31
  | .green => some 32
  | .yellow => some 33
  | .blue => some 34
  | .magenta => some 35
  | .cyan => some 36
  | .gray => some 37
  | .darkGray => some 90
  | .lightRed => some 91
  | .lightGreen => some 92
  | .lightYellow => some 93
  | .lightBlue => some 94
  | .lightMagenta => some 95
  | .lightCyan => some 96
  | .white => some 97
  | _ => none

def ansiBg (color : Color) : Option Nat := (ansiFg color).map (· + 10)

def colorDistance (red green blue otherRed otherGreen otherBlue : Nat) : Nat :=
  let redDelta : Int := red - otherRed
  let greenDelta : Int := green - otherGreen
  let blueDelta : Int := blue - otherBlue
  (3 * redDelta * redDelta + 6 * greenDelta * greenDelta + blueDelta * blueDelta).toNat

def cubeLevels : List Nat := [0, 95, 135, 175, 215, 255]

/-- The first of the nearest colours of the palette: the index and the distance. -/
def nearest (red green blue : Nat) :
    Nat × Nat → List (Nat × Nat × Nat × Nat) → Nat × Nat
  | best, [] => best
  | best, (index, otherRed, otherGreen, otherBlue) :: others =>
      let distance := colorDistance red green blue otherRed otherGreen otherBlue
      nearest red green blue (if distance < best.2 then (index, distance) else best) others

def rgbToXterm256 (red green blue : UInt8) : Nat :=
  let cube := cubeLevels.zipIdx.flatMap fun r => cubeLevels.zipIdx.flatMap fun g =>
    cubeLevels.zipIdx.map fun b => (16 + 36 * r.2 + 6 * g.2 + b.2, r.1, g.1, b.1)
  let grays := (List.range 24).map fun i => (232 + i, 8 + i * 10, 8 + i * 10, 8 + i * 10)
  (nearest red.toNat green.toNat blue.toNat (16, 2 ^ 32 - 1) (cube ++ grays)).1

/-- A colour of its own is sent as the nearest one of the palette. -/
def backgroundCodes : Color → List Text
  | .rgb red green blue => ["48;5;".toList ++ decimal (rgbToXterm256 red green blue)]
  | color => ((ansiBg color).map decimal).toList

def sgrCodes (fg bg : Color) (bold : Bool) : List Text :=
  ['0'] :: ((if bold then [['1']] else []) ++ ((ansiFg fg).map decimal).toList ++
    backgroundCodes bg)

def sgr (fg bg : Color) (bold : Bool) : Text :=
  ESC :: '[' :: (joinWith ';' (sgrCodes fg bg bold) ++ ['m'])

structure Cell where
  symbol : Text
  fg : Color
  bg : Color
  bold : Bool
  deriving DecidableEq, Repr

def asciiFallback (c : Char) : Char :=
  if c ∈ "▀▄─━═░".toList then '-'
  else if c ∈ "█▓▒│┃║▌▐".toList then '|'
  else if c ∈ "┌┐└┘┏┓┗┛╔╗╚╝╭╮╯╰▛▜▙▟▖▗▘▝├┤┬┴┼".toList then '-'
  else ' '

/-- The one character that a cell is written as. -/
def glyph (symbol : Text) (asciiOnly : Bool) : Char :=
  match symbol with
  | [] => if asciiOnly then '-' else ' '
  | c :: _ =>
      if isControl c then ' '
      else if c.toNat < 128 then c
      else if asciiOnly then asciiFallback c
      else c

/-- A frame, whose size is given by two numbers of sixteen bits. -/
structure Buffer where
  width : UInt16
  height : UInt16
  cell : Nat → Nat → Cell

def encodeCells (asciiOnly : Bool) : Option (Color × Color × Bool) → List Cell → Text
  | _, [] => []
  | current, cell :: cells =>
      let want := (cell.fg, cell.bg, cell.bold)
      (if current = some want then [] else sgr cell.fg cell.bg cell.bold) ++
        glyph cell.symbol asciiOnly :: encodeCells asciiOnly (some want) cells

/-- The cells of a row that are written: all but the last one. -/
def rowCells (buf : Buffer) (y : Nat) : List Cell :=
  (List.range (buf.width.toNat - 1)).map fun x => buf.cell x y

def encodeRow (buf : Buffer) (y : Nat) (asciiOnly : Bool) : Text :=
  encodeCells asciiOnly none (rowCells buf y)

end Rows

/-! ## Frames -/

section Frames

def CURSOR_OFF : Text := ESC :: "[?25l".toList ++ ESC :: "[?12l".toList

def CURSOR_PARK : Text := ESC :: "[1;1H".toList

structure FrameWriter where
  lastRows : List Text
  forceFull : Bool
  deriving DecidableEq, Repr

def FrameWriter.default : FrameWriter := ⟨[], false⟩

/-- Forget the last frame. -/
def FrameWriter.invalidate (_ : FrameWriter) : FrameWriter := ⟨[], true⟩

def encodeRows (buf : Buffer) (asciiOnly : Bool) : List Text :=
  (List.range buf.height.toNat).map fun y => encodeRow buf y asciiOnly

/-- A row with its address and its end. -/
def paintRow (y : Nat) (row : Text) : Text :=
  CURSOR_OFF ++ (ESC :: '[' :: (decimal y ++ ";1H".toList)) ++ row ++
    (ESC :: "[0m".toList ++ ESC :: "[K".toList) ++ CURSOR_OFF ++ CURSOR_PARK

def closingText : Text := CURSOR_OFF ++ CURSOR_PARK ++ CURSOR_OFF

def fullText (rows : List Text) : Text :=
  CURSOR_OFF ++ (ESC :: "[H".toList ++ ESC :: "[2J".toList) ++ CURSOR_OFF ++
    rows.zipIdx.flatMap (fun row => paintRow (row.2 + 1) row.1) ++ closingText

def dirtyText (lastRows rows : List Text) : Text :=
  CURSOR_OFF ++
    rows.zipIdx.flatMap (fun row =>
      if lastRows[row.2]? = some row.1 then []
      else paintRow (row.2 % 2 ^ 16 + 1) row.1) ++ closingText

def FrameWriter.encode (writer : FrameWriter) (buf : Buffer) (asciiOnly : Bool) :
    FrameWriter × Option Text :=
  let rows := encodeRows buf asciiOnly
  let full := writer.forceFull || writer.lastRows.length ≠ rows.length
  if !full && rows = writer.lastRows then (writer, none)
  else (⟨rows, false⟩, some (if full then fullText rows else dirtyText writer.lastRows rows))

inductive Step where
  | frame (buf : Buffer) (asciiOnly : Bool)
  | invalidate

def FrameWriter.step (writer : FrameWriter) : Step → FrameWriter × Option Text
  | .frame buf asciiOnly => writer.encode buf asciiOnly
  | .invalidate => (writer.invalidate, none)

/-- The writer after the steps, and everything that has been sent. -/
def FrameWriter.run (writer : FrameWriter) : List Step → FrameWriter × Text
  | [] => (writer, [])
  | step :: steps =>
      let next := writer.step step
      let later := next.1.run steps
      (later.1, next.2.getD [] ++ later.2)

end Frames

end PertiskKos.Console
