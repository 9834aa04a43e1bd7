import PertiskKos.Library.Lines
import PertiskKos.Library.Runs

/-!
# The ring of recent log lines

The console shows one character for each cell, so escape sequences and control characters are
taken out of a line before it is kept.  A writer may cut a line anywhere: what comes after the
last newline waits for the rest of its line.
-/

namespace PertiskKos.Log

open Strings Runs

/-! ## Escape sequences -/

def escape : Char := Char.ofNat 0x1b

def bell : Char := Char.ofNat 0x7

/-- `char::is_control` -/
def isControl (c : Char) : Bool := c.toNat < 0x20 || (0x7f ≤ c.toNat && c.toNat < 0xa0)

/-- The last character of a control sequence. -/
def isFinal (c : Char) : Bool := 0x40 ≤ c.toNat && c.toNat ≤ 0x7e

/-- What the next character belongs to. -/
inductive Mode where
  | text
  | escaped
  | csi
  | osc
  /-- An escape character inside an operating system command. -/
  | oscEscaped
  deriving DecidableEq, Repr

def Mode.after : Mode → Char → Mode
  | .text, c => if c = escape then .escaped else .text
  | .escaped, c => if c = '[' then .csi else if c = ']' then .osc else .text
  | .csi, c => if isFinal c then .text else .csi
  | .osc, c => if c = bell then .text else if c = escape then .oscEscaped else .osc
  | .oscEscaped, c =>
      if c = '\\' ∨ c = bell then .text else if c = escape then .oscEscaped else .osc

/-- What is shown for a character. -/
def Mode.shown : Mode → Char → Text
  | .text, c => if c = '\t' then [' '] else if isControl c then [] else [c]
  | _, _ => []

def strip : Mode → Text → Text
  | _, [] => []
  | mode, c :: rest => mode.shown c ++ strip (mode.after c) rest

def stripAnsi (input : Text) : Text := strip .text input

/-- The pieces of a coloured line. -/
inductive Segment where
  | plain (text : Text)
  /-- `ESC [ parameters final` -/
  | csi (parameters : Text) (final : Char)
  /-- `ESC ] body BEL` -/
  | oscBell (body : Text)
  /-- `ESC ] body ESC \` -/
  | oscString (body : Text)
  | short (c : Char)
  deriving DecidableEq, Repr

def Segment.render : Segment → Text
  | .plain text => text
  | .csi parameters final => escape :: '[' :: parameters ++ [final]
  | .oscBell body => escape :: ']' :: body ++ [bell]
  | .oscString body => escape :: ']' :: body ++ [escape, '\\']
  | .short c => [escape, c]

def Segment.shown : Segment → Text
  | .plain text => text
  | _ => []

def Segment.WellFormed : Segment → Prop
  | .plain text => ∀ c ∈ text, isControl c = false
  | .csi parameters final => (∀ c ∈ parameters, isFinal c = false) ∧ isFinal final = true
  | .oscBell body | .oscString body => ∀ c ∈ body, c ≠ bell ∧ c ≠ escape
  | .short c => c ≠ '[' ∧ c ≠ ']'

instance (segment : Segment) : Decidable segment.WellFormed :=
  match segment with
  | .plain text => inferInstanceAs (Decidable (∀ c ∈ text, isControl c = false))
  | .csi parameters final =>
      inferInstanceAs
        (Decidable ((∀ c ∈ parameters, isFinal c = false) ∧ isFinal final = true))
  | .oscBell body => inferInstanceAs (Decidable (∀ c ∈ body, c ≠ bell ∧ c ≠ escape))
  | .oscString body => inferInstanceAs (Decidable (∀ c ∈ body, c ≠ bell ∧ c ≠ escape))
  | .short c => inferInstanceAs (Decidable (c ≠ '[' ∧ c ≠ ']'))

theorem strip_plain {text : Text} (htext : ∀ c ∈ text, isControl c = false) (rest : Text) :
    strip .text (text ++ rest) = text ++ strip .text rest := by
  induction text with
  | nil => rfl
  | cons c text ih =>
      have hc : isControl c = false := htext c List.mem_cons_self
      have hescape : c ≠ escape := by
        rintro rfl
        exact absurd hc (by decide)
      have htab : c ≠ '\t' := by
        rintro rfl
        exact absurd hc (by decide)
      change Mode.shown .text c ++ strip (Mode.after .text c) (text ++ rest) = _
      rw [Mode.shown, if_neg htab, if_neg (by rw [hc]; decide), Mode.after, if_neg hescape,
        ih fun d hd => htext d (List.mem_cons_of_mem _ hd)]
      rfl

theorem strip_csi {parameters : Text} (hparameters : ∀ c ∈ parameters, isFinal c = false)
    {final : Char} (hfinal : isFinal final = true) (rest : Text) :
    strip .csi (parameters ++ final :: rest) = strip .text rest := by
  induction parameters with
  | nil =>
      change [] ++ strip (Mode.after .csi final) rest = _
      rw [Mode.after, if_pos hfinal, List.nil_append]
  | cons c parameters ih =>
      have hc : ¬ isFinal c = true := by
        rw [hparameters c List.mem_cons_self]
        decide
      change [] ++ strip (Mode.after .csi c) (parameters ++ final :: rest) = _
      rw [Mode.after, if_neg hc, List.nil_append,
        ih fun d hd => hparameters d (List.mem_cons_of_mem _ hd)]

theorem strip_osc {body : Text} (hbody : ∀ c ∈ body, c ≠ bell ∧ c ≠ escape) (rest : Text) :
    strip .osc (body ++ rest) = strip .osc rest := by
  induction body with
  | nil => rfl
  | cons c body ih =>
      obtain ⟨hbell, hescape⟩ := hbody c List.mem_cons_self
      change [] ++ strip (Mode.after .osc c) (body ++ rest) = _
      rw [Mode.after, if_neg hbell, if_neg hescape, List.nil_append,
        ih fun d hd => hbody d (List.mem_cons_of_mem _ hd)]

theorem strip_segment {segment : Segment} (hsegment : segment.WellFormed) (rest : Text) :
    strip .text (segment.render ++ rest) = segment.shown ++ strip .text rest := by
  cases segment with
  | plain text => exact strip_plain hsegment rest
  | csi parameters final =>
      change strip .csi ((parameters ++ [final]) ++ rest) = _
      rw [List.append_assoc]
      exact strip_csi hsegment.1 hsegment.2 rest
  | oscBell body =>
      change strip .osc ((body ++ [bell]) ++ rest) = _
      rw [List.append_assoc, strip_osc hsegment]
      rfl
  | oscString body =>
      change strip .osc ((body ++ [escape, '\\']) ++ rest) = _
      rw [List.append_assoc, strip_osc hsegment]
      rfl
  | short c =>
      change [] ++ strip (Mode.after .escaped c) rest = _
      rw [Mode.after, if_neg hsegment.1, if_neg hsegment.2]
      rfl

theorem mem_strip {mode : Mode} {text : Text} {c : Char} (hc : c ∈ strip mode text) :
    isControl c = false := by
  induction text generalizing mode with
  | nil => cases hc
  | cons d text ih =>
      rcases List.mem_append.mp hc with hshown | hrest
      · cases mode with
        | text =>
            rw [Mode.shown] at hshown
            split at hshown
            · cases List.mem_singleton.mp hshown
              decide
            · split at hshown
              · cases hshown
              · next hplain =>
                  cases List.mem_singleton.mp hshown
                  exact Bool.eq_false_iff.mpr hplain
        | escaped | csi | osc | oscEscaped => cases hshown
      · exact ih hrest

/-- A line made of plain text and escape sequences is shown as its plain text; of no line at
all is a control character shown; and what is shown stays as it is. -/
theorem strip_ansi_shown (input : Text) (segments : List Segment) :
    ((∀ segment ∈ segments, segment.WellFormed) →
      stripAnsi (segments.flatMap Segment.render) = segments.flatMap Segment.shown) ∧
    (∀ c ∈ stripAnsi input, isControl c = false) ∧
    stripAnsi (stripAnsi input) = stripAnsi input := by
  refine ⟨fun hsegments => ?_, fun c hc => mem_strip hc, ?_⟩
  · induction segments with
    | nil => rfl
    | cons segment segments ih =>
        rw [List.flatMap_cons, List.flatMap_cons, stripAnsi,
          strip_segment (hsegments segment List.mem_cons_self)]
        congr 1
        exact ih fun other hother => hsegments other (List.mem_cons_of_mem _ hother)
  · have hplain := @strip_plain (stripAnsi input) (fun c hc => mem_strip hc) []
    rw [List.append_nil] at hplain
    exact hplain.trans (List.append_nil _)

def greenLine : List Segment :=
  [.csi ['3', '2'] 'm', .plain " INFO".toList, .csi ['0'] 'm', .plain " ready".toList]

theorem strip_ansi_shown_green :
    stripAnsi (greenLine.flatMap Segment.render) = " INFO ready".toList :=
  (strip_ansi_shown [] greenLine).1 (by decide)

/-! ## The ring -/

/-- `LogRing`, with what has gone to the log under STATE and to the error stream. -/
structure LogRing where
  lines : List Text
  capacity : Nat
  silenceStderr : Bool
  hasStateRoot : Bool
  pending : Text
  stateLog : List Text
  stderr : List Text
  deriving DecidableEq, Repr

def LogRing.new (capacity : Nat) : LogRing where
  lines := []
  capacity := max capacity 32
  silenceStderr := false
  hasStateRoot := false
  pending := []
  stateLog := []
  stderr := []

def accept (line : Text) : Text := stripAnsi (trimEndMatches ['\r', '\n'] line)

def LogRing.pushLine (mirrorStderr toStateLog : Bool) (ring : LogRing) (line : Text) :
    LogRing :=
  let line := accept line
  if line = [] then ring
  else
    { ring with
      -- the oldest lines go until there is room for one more
      lines := ring.lines.drop (ring.lines.length + 1 - ring.capacity) ++ [line]
      stateLog :=
        if toStateLog && ring.hasStateRoot then ring.stateLog ++ [line] else ring.stateLog
      stderr :=
        if mirrorStderr && !ring.silenceStderr then ring.stderr ++ [line] else ring.stderr }

def LogRing.push (ring : LogRing) (line : Text) : LogRing := ring.pushLine true true line

def prefixed (label line : Text) : Text := label ++ ": ".toList ++ line

def LogRing.pushPrefixed (ring : LogRing) (label line : Text) : LogRing :=
  ring.pushLine true false (prefixed label line)

/-- `Write::write`: the complete lines are pushed, the open one waits. -/
def LogRing.write (ring : LogRing) (bytes : Utf8.Bytes) : LogRing :=
  let drained := Lines.drain '\n' (ring.pending ++ Utf8.lossy bytes)
  drained.1.foldl (LogRing.pushLine true true) { ring with pending := drained.2 }

def LogRing.tail (ring : LogRing) (n : Nat) : List Text :=
  (ring.lines.reverse.take (min n ring.lines.length)).reverse

inductive Op where
  | push (line : Text)
  | pushPrefixed (label line : Text)
  | write (bytes : Utf8.Bytes)
  | setSilenceStderr (silence : Bool)
  | setStateRoot
  deriving DecidableEq, Repr

def LogRing.act (ring : LogRing) : Op → LogRing
  | .push line => ring.push line
  | .pushPrefixed label line => ring.pushPrefixed label line
  | .write bytes => ring.write bytes
  | .setSilenceStderr silence => { ring with silenceStderr := silence }
  | .setStateRoot => { ring with hasStateRoot := true }

/-! ## What has been said -/

/-- The last `n` of a list. -/
def lastOf {A : Type} (n : Nat) (items : List A) : List A := items.drop (items.length - n)

def keptLines (lines : List Text) : List Text := (lines.map accept).filter (· ≠ [])

/-- The lines of the operations, in order, behind an open line. -/
def said : Text → List Op → List Text
  | _, [] => []
  | pending, .push line :: ops => line :: said pending ops
  | pending, .pushPrefixed label line :: ops => prefixed label line :: said pending ops
  | pending, .write bytes :: ops =>
      Lines.ended '\n' (pending ++ Utf8.lossy bytes) ++
        said (Lines.unended '\n' (pending ++ Utf8.lossy bytes)) ops
  | pending, .setSilenceStderr _ :: ops | pending, .setStateRoot :: ops => said pending ops

section Ring

variable {ring : LogRing}

theorem lastOf_concat {A : Type} {n : Nat} (hn : 0 < n) (items : List A) (item : A) :
    (lastOf n items).drop ((lastOf n items).length + 1 - n) ++ [item] =
      lastOf n (items ++ [item]) := by
  rw [lastOf, lastOf, List.drop_drop, List.length_drop, List.length_append, List.length_singleton,
    List.drop_append_of_le_length (by omega)]
  congr 2
  omega

/-- The ring holds the last of the lines that were kept so far. -/
structure Holds (ring : LogRing) (capacity : Nat) (lines : List Text) : Prop where
  lines : ring.lines = lastOf (max capacity 32) (keptLines lines)
  capacity : ring.capacity = max capacity 32

theorem Holds.pushLine {capacity : Nat} {lines : List Text} (hholds : Holds ring capacity lines)
    (mirrorStderr toStateLog : Bool) (line : Text) :
    Holds (ring.pushLine mirrorStderr toStateLog line) capacity (lines ++ [line]) := by
  have hkept : keptLines (lines ++ [line]) =
      keptLines lines ++ if accept line = [] then [] else [accept line] := by
    by_cases hline : accept line = [] <;> simp [keptLines, hline]
  rw [LogRing.pushLine]
  by_cases hline : accept line = []
  · rw [if_pos hline]
    refine ⟨?_, hholds.capacity⟩
    rw [hkept, if_pos hline, List.append_nil]
    exact hholds.lines
  · rw [if_neg hline]
    refine ⟨?_, hholds.capacity⟩
    rw [hkept, if_neg hline, ← lastOf_concat (by omega), ← hholds.lines, ← hholds.capacity]

theorem Holds.pushLines {capacity : Nat} {lines : List Text} (hholds : Holds ring capacity lines)
    (more : List Text) :
    Holds (more.foldl (LogRing.pushLine true true) ring) capacity (lines ++ more) := by
  induction more generalizing ring lines with
  | nil => rwa [List.append_nil]
  | cons line more ih =>
      rw [List.append_cons]
      exact ih (hholds.pushLine true true line)

theorem pending_pushLine (mirrorStderr toStateLog : Bool) (line : Text) :
    (ring.pushLine mirrorStderr toStateLog line).pending = ring.pending := by
  rw [LogRing.pushLine]
  split <;> rfl

theorem pending_pushLines (lines : List Text) :
    (lines.foldl (LogRing.pushLine true true) ring).pending = ring.pending := by
  induction lines generalizing ring with
  | nil => rfl
  | cons line lines ih => exact ih.trans (pending_pushLine true true line)

theorem pending_write (bytes : Utf8.Bytes) :
    (ring.write bytes).pending = Lines.unended '\n' (ring.pending ++ Utf8.lossy bytes) := by
  rw [LogRing.write, pending_pushLines, Lines.drain_eq]

theorem Holds.write {capacity : Nat} {lines : List Text} (hholds : Holds ring capacity lines)
    (bytes : Utf8.Bytes) :
    Holds (ring.write bytes) capacity
      (lines ++ Lines.ended '\n' (ring.pending ++ Utf8.lossy bytes)) := by
  rw [LogRing.write, Lines.drain_eq]
  have hopen : Holds
      { ring with pending := Lines.unended '\n' (ring.pending ++ Utf8.lossy bytes) }
      capacity lines := ⟨hholds.lines, hholds.capacity⟩
  exact hopen.pushLines _

/-- Run lemma: the operations add their lines to what the ring holds. -/
theorem Holds.acts {capacity : Nat} {lines : List Text} (hholds : Holds ring capacity lines)
    (ops : List Op) :
    Holds (ops.foldl LogRing.act ring) capacity (lines ++ said ring.pending ops) := by
  induction ops generalizing ring lines with
  | nil =>
      rw [said, List.append_nil]
      exact hholds
  | cons op ops ih =>
      rw [List.foldl_cons]
      cases op with
      | push line =>
          have hrest := ih (hholds.pushLine true true line)
          rw [pending_pushLine, ← List.append_cons] at hrest
          exact hrest
      | pushPrefixed label line =>
          have hrest := ih (hholds.pushLine true false (prefixed label line))
          rw [pending_pushLine, ← List.append_cons] at hrest
          exact hrest
      | write bytes =>
          have hrest := ih (hholds.write bytes)
          rw [pending_write, List.append_assoc] at hrest
          exact hrest
      | setSilenceStderr silence =>
          exact @ih { ring with silenceStderr := silence } _ ⟨hholds.lines, hholds.capacity⟩
      | setStateRoot =>
          exact @ih { ring with hasStateRoot := true } _ ⟨hholds.lines, hholds.capacity⟩

theorem tail_eq (n : Nat) : ring.tail n = lastOf n ring.lines := by
  rw [LogRing.tail, List.take_reverse, List.reverse_reverse, lastOf]
  congr 1
  omega

theorem lastOf_lastOf {A : Type} (n m : Nat) (items : List A) :
    lastOf n (lastOf m items) = lastOf (min n m) items := by
  rw [lastOf, lastOf, lastOf, List.drop_drop, List.length_drop]
  congr 1
  omega

/-- Whatever is pushed and written, and however it is cut: the ring holds the last of the lines
that show anything, and its tail is the last of these. -/
theorem ring_holds_last (capacity : Nat) (ops : List Op) (n : Nat) :
    (ops.foldl LogRing.act (.new capacity)).lines =
        lastOf (max capacity 32) (keptLines (said [] ops)) ∧
      (ops.foldl LogRing.act (.new capacity)).tail n =
        lastOf (min n (max capacity 32)) (keptLines (said [] ops)) := by
  have hnew : Holds (.new capacity) capacity [] := ⟨List.drop_nil.symm, rfl⟩
  have hholds := hnew.acts ops
  refine ⟨hholds.lines, ?_⟩
  rw [tail_eq, hholds.lines, lastOf_lastOf]
  rfl

end Ring

/-! ## Where a writer cuts -/

section Chunks

variable {ring : LogRing}

def LogRing.withPending (pending : Text) (ring : LogRing) : LogRing :=
  { ring with pending := pending }

theorem pending_withPending (pending : Text) : (ring.withPending pending).pending = pending :=
  rfl

theorem pushLine_withPending (pending line : Text) :
    (ring.withPending pending).pushLine true true line =
      (ring.pushLine true true line).withPending pending := by
  rw [LogRing.pushLine, LogRing.pushLine]
  split <;> rfl

theorem pushLines_withPending (pending : Text) (lines : List Text) :
    lines.foldl (LogRing.pushLine true true) (ring.withPending pending) =
      (lines.foldl (LogRing.pushLine true true) ring).withPending pending := by
  induction lines generalizing ring with
  | nil => rfl
  | cons line lines ih => rw [List.foldl_cons, List.foldl_cons, pushLine_withPending, ih]

theorem write_encode (text : Text) :
    ring.write (Utf8.encode text) =
      ((Lines.ended '\n' (ring.pending ++ text)).foldl (LogRing.pushLine true true)
        ring).withPending (Lines.unended '\n' (ring.pending ++ text)) := by
  rw [LogRing.write, Lines.drain_eq, Utf8.lossy_encode, ← pushLines_withPending]
  rfl

theorem write_write (first second : Text) :
    (ring.write (Utf8.encode first)).write (Utf8.encode second) =
      ring.write (Utf8.encode (first ++ second)) := by
  rw [write_encode second, write_encode first, write_encode (first ++ second),
    pending_withPending, pushLines_withPending, ← List.append_assoc,
    Lines.ended_append (ring.pending ++ first), Lines.unended_append (ring.pending ++ first),
    List.foldl_append]
  rfl

theorem newline_notMem_pending (capacity : Nat) (ops : List Op) :
    '\n' ∉ (ops.foldl LogRing.act (.new capacity)).pending := by
  have hacts : ∀ (ops : List Op) (ring : LogRing), '\n' ∉ ring.pending →
      '\n' ∉ (ops.foldl LogRing.act ring).pending := by
    intro ops
    induction ops with
    | nil => exact fun ring hring => hring
    | cons op ops ih =>
        intro ring hring
        refine ih (ring.act op) ?_
        cases op with
        | push line => rwa [LogRing.act, LogRing.push, pending_pushLine]
        | pushPrefixed label line => rwa [LogRing.act, LogRing.pushPrefixed, pending_pushLine]
        | write bytes =>
            rw [LogRing.act, pending_write]
            exact Lines.notMem_unended _
        | setSilenceStderr silence | setStateRoot => exact hring
  exact hacts ops (.new capacity) List.not_mem_nil

/-- A text that is written piece by piece leaves a ring as one that is written at once. -/
theorem write_pieces (capacity : Nat) (ops : List Op) (pieces : List Text) :
    pieces.foldl (fun ring piece => ring.write (Utf8.encode piece))
        (ops.foldl LogRing.act (.new capacity)) =
      (ops.foldl LogRing.act (.new capacity)).write (Utf8.encode pieces.flatten) := by
  have hpending := newline_notMem_pending capacity ops
  generalize ops.foldl LogRing.act (.new capacity) = ring at hpending
  have hpieces : ∀ (pieces : List Text) (first : Text),
      pieces.foldl (fun ring piece => ring.write (Utf8.encode piece))
          (ring.write (Utf8.encode first)) =
        ring.write (Utf8.encode (first ++ pieces.flatten)) := by
    intro pieces
    induction pieces with
    | nil =>
        intro first
        rw [List.flatten_nil, List.append_nil]
        rfl
    | cons piece pieces ih =>
        intro first
        rw [List.foldl_cons, write_write, ih, List.flatten_cons, List.append_assoc]
  have hnothing : ring.write (Utf8.encode []) = ring := by
    rw [write_encode, List.append_nil, Lines.ended_of_notMem hpending,
      Lines.unended_of_notMem hpending]
    rfl
  have hall := hpieces pieces []
  rwa [hnothing] at hall

end Chunks

end PertiskKos.Log
