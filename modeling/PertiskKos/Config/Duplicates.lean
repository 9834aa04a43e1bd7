import PertiskKos.Library.Yaml

/-!
# Documents with a key given twice

The YAML parser refuses a mapping with the same key twice.  The configuration code
reads the key and the line out of the parser's message, drops every occurrence of the
key but the last one from the text, and parses again.  The parser and the printer are
parameters.
-/

namespace PertiskKos.Config

open Strings Yaml

/-- The YAML library: a parser whose errors are messages, and a printer. -/
structure SerdeYaml where
  fromStr : Text → Except Text Value
  toString : Value → Text

inductive ConfigError where
  | parse
  | unsupportedVersion (version : Text)
  | msg (text : Text)
  deriving DecidableEq, Repr

def dupKeyFromError (message : Text) : Option Text := do
  let (_, rest) ← cut "key \"".toList message
  let (key, _) ← splitOnce '"' rest
  if key = [] then none else some key

/-- The number a text of decimal digits stands for, below 2^64. -/
def parseUsize (text : Text) : Option Nat :=
  let digits := match text with
    | '+' :: rest => rest
    | other => other
  if digits ≠ [] ∧ digits.all Char.isDigit then
    let number := digits.foldl (fun n c => 10 * n + (c.toNat - '0'.toNat)) 0
    if number < 2 ^ 64 then some number else none
  else none

def dupLineFromError (message : Text) : Option Nat := do
  let (_, rest) ← cut "at line ".toList message
  let (digits, _) ← cut " column".toList rest
  parseUsize digits

def lineIndent (line : Text) : Nat := (line.takeWhile (· = ' ')).length

/-- Blank lines and comments. -/
def isFiller (line : Text) : Bool := trim line = [] || startsWith (trimStart line) ['#']

def isKeyLine (key line : Text) : Bool :=
  trimStart line = key ++ [':'] || startsWith (trimStart line) (key ++ [':', ' '])

/-- Between two lines there is none that is indented less. -/
def sameMappingParent (texts : List Text) (a b keyIndent : Nat) : Bool :=
  ((texts.drop (min a b)).take (max a b - min a b + 1)).all fun line =>
    isFiller line || keyIndent ≤ lineIndent line

/-- How many lines belong to a key besides its own line.  Filler belongs to it when a
deeper line follows. -/
def blockLength (keyIndent : Nat) : List Text → Nat
  | [] => 0
  | line :: rest =>
      let next := if isFiller line then (rest.dropWhile isFiller).head? else some line
      if next.any (keyIndent < lineIndent ·) then 1 + blockLength keyIndent rest else 0

def keyBlockEnd (texts : List Text) (start keyIndent : Nat) : Nat :=
  start + 1 + blockLength keyIndent (texts.drop (start + 1))

/-- The lines outside the ranges. -/
def keepLines (texts : List Text) : Nat → Nat → List (Nat × Nat) → List Text
  | 0, _, _ => []
  | fuel + 1, i, ranges =>
      match texts[i]?, ranges with
      | none, _ => []
      | some line, [] => line :: keepLines texts fuel (i + 1) []
      | some line, (start, stop) :: rest =>
          if i = start then keepLines texts fuel stop rest
          else line :: keepLines texts fuel (i + 1) ((start, stop) :: rest)

/-- Drop a key and the lines below it, all but the last time it is given. -/
def removeEarlierKeyOccurrence (yaml key : Text) (hintLine : Nat) : Option Text :=
  let texts := lines yaml
  let hint := min (hintLine - 1) (texts.length - 1)
  let keyLines := texts.zipIdx.filter fun line => isKeyLine key line.1
  match keyLines.argmin fun line => (max line.2 hint - min line.2 hint) with
  | none => none
  | some nearest =>
      let indent := lineIndent nearest.1
      let indices := (keyLines.filter fun line =>
        lineIndent line.1 = indent && sameMappingParent texts line.2 hint indent).map
          Prod.snd
      if indices.length < 2 then none
      else
        let ranges := indices.dropLast.map fun start =>
          (start, keyBlockEnd texts start indent)
        let kept := joinWith '\n' (keepLines texts (texts.length + 1) 0 ranges)
        some (if endsWith yaml ['\n'] then kept ++ ['\n'] else kept)

/-- One repair, if the message says which key and where. -/
def dedupStep (message current : Text) : Option Text := do
  let key ← dupKeyFromError message
  let line ← dupLineFromError message
  let next ← removeEarlierKeyOccurrence current key line
  if next ≠ current then some next else none

/-- At most `fuel` repairs. -/
def dedupBlockYamlKeys (yaml : SerdeYaml) : Nat → Text → Text
  | 0, current => current
  | fuel + 1, current =>
      match yaml.fromStr current with
      | .ok _ => current
      | .error message =>
          match dedupStep message current with
          | none => current
          | some next => dedupBlockYamlKeys yaml fuel next

def dedupFailed (first second : Text) : Text :=
  "yaml parse failed after deduping duplicate keys (".toList ++ first ++
    "): ".toList ++ second

def parseYamlValue (yaml : SerdeYaml) (text : Text) : Except ConfigError Value :=
  match yaml.fromStr text with
  | .ok v => .ok v
  | .error message =>
      if contains "duplicate entry".toList message then
        match yaml.fromStr (dedupBlockYamlKeys yaml 64 text) with
        | .ok v => .ok v
        | .error second => .error (.msg (dedupFailed message second))
      else .error .parse

/-- A text that parses is left alone. -/
theorem parseYamlValue_ok {yaml : SerdeYaml} {text : Text} {v : Value}
    (hparse : yaml.fromStr text = .ok v) : parseYamlValue yaml text = .ok v := by
  rw [parseYamlValue, hparse]

/-- Whatever is parsed, the library parsed some text. -/
theorem fromStr_of_parseYamlValue {yaml : SerdeYaml} {text : Text} {v : Value}
    (hparse : parseYamlValue yaml text = .ok v) : ∃ cleaned, yaml.fromStr cleaned = .ok v := by
  unfold parseYamlValue at hparse
  split at hparse
  · next first hfirst =>
      cases hparse
      exact ⟨text, hfirst⟩
  · split at hparse
    · split at hparse
      · next second hsecond =>
          cases hparse
          exact ⟨_, hsecond⟩
      · cases hparse
    · cases hparse

end PertiskKos.Config
