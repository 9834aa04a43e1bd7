import Mathlib

/-!
# Strings

A text is a list of characters.  The functions below are the string functions of
the source's standard library, written so that they compute on literals and can
be taken apart on texts with unknown parts.  Searching is `cut`, which splits a
text around the first occurrence of a pattern; `contains`, `splitOnce` and
`rsplitOnce` are stated through it.
-/

namespace PertiskKos.Strings

abbrev Text := List Char

-- Texts are compared character by character, a property of all characters of a text is
-- decided on the text, and a text is looked up in a list, whatever else is in scope.
instance (priority := high) lawfulText : LawfulBEq Text := List.instLawfulBEq

instance (priority := high) : LT Text := List.instLT

instance (priority := high) : LE Text := List.instLE

instance (priority := high) (p : Char → Prop) [DecidablePred p] (text : Text) :
    Decidable (∀ c ∈ text, p c) := List.decidableBAll p text

instance (priority := high) (text : Text) (texts : List Text) :
    Decidable (text ∈ texts) := inferInstance

section Cut

variable {A : Type} [DecidableEq A]

/-- The text before and after the first occurrence of `pattern`. -/
def cut (pattern : List A) : List A → Option (List A × List A)
  | [] => if pattern = [] then some ([], []) else none
  | head :: rest =>
      match pattern.isPrefixOf? (head :: rest) with
      | some after => some ([], after)
      | none => (cut pattern rest).map fun around => (head :: around.1, around.2)

def contains (pattern text : List A) : Bool := (cut pattern text).isSome

def splitOnce (separator : A) (text : List A) : Option (List A × List A) :=
  cut [separator] text

def rsplitOnce (separator : A) (text : List A) : Option (List A × List A) :=
  (cut [separator] text.reverse).map fun around =>
    (around.2.reverse, around.1.reverse)

variable {pattern text before after : List A}

theorem cut_nil : cut pattern [] = if pattern = [] then some ([], []) else none := rfl

theorem cut_cons_of_some {head : A} {rest : List A}
    (hfront : pattern.isPrefixOf? (head :: rest) = some after) :
    cut pattern (head :: rest) = some ([], after) := by
  change (match pattern.isPrefixOf? (head :: rest) with
    | some after => some ([], after)
    | none => (cut pattern rest).map fun around : List A × List A =>
        (head :: around.1, around.2)) = _
  rw [hfront]

theorem cut_cons_of_none {head : A} {rest : List A}
    (hfront : pattern.isPrefixOf? (head :: rest) = none) :
    cut pattern (head :: rest) =
      (cut pattern rest).map fun around => (head :: around.1, around.2) := by
  change (match pattern.isPrefixOf? (head :: rest) with
    | some after => some ([], after)
    | none => (cut pattern rest).map fun around : List A × List A =>
        (head :: around.1, around.2)) = _
  rw [hfront]

theorem cut_append (hcut : cut pattern text = some (before, after)) :
    text = before ++ pattern ++ after := by
  induction text generalizing before with
  | nil =>
      by_cases hpattern : pattern = []
      · rw [cut_nil, if_pos hpattern] at hcut
        cases hcut
        rw [hpattern]
        rfl
      · rw [cut_nil, if_neg hpattern] at hcut
        cases hcut
  | cons head rest ih =>
      cases hfront : pattern.isPrefixOf? (head :: rest) with
      | some found =>
          cases (cut_cons_of_some hfront).symm.trans hcut
          exact (List.isPrefixOf?_eq_some_iff_append_eq.mp hfront).symm
      | none =>
          rw [cut_cons_of_none hfront] at hcut
          simp only [Option.map_eq_some_iff, Prod.mk.injEq] at hcut
          obtain ⟨⟨first, last⟩, hrest, rfl, rfl⟩ := hcut
          rw [ih hrest]
          rfl

theorem cut_isSome_iff : (cut pattern text).isSome = true ↔ pattern <:+: text := by
  constructor
  · intro hsome
    obtain ⟨⟨before, after⟩, hcut⟩ := Option.isSome_iff_exists.mp hsome
    exact ⟨before, after, (cut_append hcut).symm⟩
  · rintro ⟨before, after, rfl⟩
    induction before with
    | nil =>
        cases htext : [] ++ pattern ++ after with
        | nil =>
            obtain ⟨hpattern, -⟩ := List.append_eq_nil_iff.mp htext
            rw [List.nil_append] at hpattern
            rw [cut_nil, if_pos hpattern]
            rfl
        | cons head rest =>
            have hfront : pattern.isPrefixOf? (head :: rest) = some after :=
              List.isPrefixOf?_eq_some_iff_append_eq.mpr htext
            rw [cut_cons_of_some hfront]
            rfl
    | cons head before ih =>
        rw [List.cons_append, List.cons_append]
        cases hfront : pattern.isPrefixOf? (head :: (before ++ pattern ++ after)) with
        | some found =>
            rw [cut_cons_of_some hfront]
            rfl
        | none =>
            rw [cut_cons_of_none hfront]
            simpa using ih

theorem cut_eq_none_iff : cut pattern text = none ↔ ¬ pattern <:+: text := by
  rw [← cut_isSome_iff]
  simp

theorem contains_iff : contains pattern text = true ↔ pattern <:+: text :=
  cut_isSome_iff

theorem isPrefixOf?_separator {separator : A} (hpattern : separator ∉ pattern)
    (left right : List A) :
    pattern.isPrefixOf? (left ++ separator :: right) =
      (pattern.isPrefixOf? left).map (· ++ separator :: right) := by
  induction pattern generalizing left with
  | nil => rfl
  | cons first pattern ih =>
      have hfirst : ¬ first = separator := fun h => hpattern (h ▸ List.mem_cons_self)
      have hrest : separator ∉ pattern := fun h => hpattern (List.mem_cons_of_mem _ h)
      cases left with
      | nil => simp [List.isPrefixOf?, hfirst]
      | cons head left =>
          by_cases hhead : first = head
          · simpa [List.isPrefixOf?, hhead] using ih hrest left
          · simp [List.isPrefixOf?, hhead]

/-- A pattern does not reach over a character it does not have. -/
theorem cut_separator {separator : A} (hnil : pattern ≠ [])
    (hpattern : separator ∉ pattern) (left right : List A) :
    cut pattern (left ++ separator :: right) =
      match cut pattern left with
      | some (before, after) => some (before, after ++ separator :: right)
      | none =>
          (cut pattern right).map fun around =>
            (left ++ separator :: around.1, around.2) := by
  have hempty : pattern.isPrefixOf? ([] : List A) = none := by
    cases pattern with
    | nil => exact absurd rfl hnil
    | cons first rest => rfl
  induction left with
  | nil =>
      have hfront := isPrefixOf?_separator hpattern [] right
      rw [hempty] at hfront
      simp only [List.nil_append, Option.map_none] at hfront
      rw [List.nil_append, cut_cons_of_none hfront, cut_nil, if_neg hnil]
      rfl
  | cons head left ih =>
      have hfront := isPrefixOf?_separator hpattern (head :: left) right
      simp only [List.cons_append] at hfront
      rw [List.cons_append]
      cases hhead : pattern.isPrefixOf? (head :: left) with
      | some found =>
          rw [hhead, Option.map_some] at hfront
          rw [cut_cons_of_some hhead, cut_cons_of_some hfront]
      | none =>
          rw [hhead, Option.map_none] at hfront
          rw [cut_cons_of_none hhead, cut_cons_of_none hfront, ih]
          cases cut pattern left with
          | some around => rfl
          | none => cases cut pattern right <;> rfl

theorem infix_separator_iff {separator : A} (hnil : pattern ≠ [])
    (hpattern : separator ∉ pattern) (left right : List A) :
    pattern <:+: (left ++ separator :: right) ↔ pattern <:+: left ∨ pattern <:+: right := by
  simp only [← cut_isSome_iff, cut_separator hnil hpattern]
  cases cut pattern left with
  | some around => simp
  | none => simp

theorem cut_eq_none_of_notMem {head : A} (hhead : head ∉ text) :
    cut (head :: pattern) text = none := by
  rw [cut_eq_none_iff]
  exact fun hoccurs => hhead (hoccurs.subset List.mem_cons_self)

/-- Splitting at a character the first part does not have. -/
theorem splitOnce_append {separator : A} (hbefore : separator ∉ before)
    (after : List A) :
    splitOnce separator (before ++ separator :: after) = some (before, after) := by
  induction before with
  | nil => simp [splitOnce, cut, List.isPrefixOf?]
  | cons head before ih =>
      have hhead : ¬ separator = head := fun h => hbefore (h ▸ List.mem_cons_self)
      have hrest : separator ∉ before :=
        fun h => hbefore (List.mem_cons_of_mem _ h)
      have htail := ih hrest
      simp only [splitOnce] at htail ⊢
      simp [cut, List.isPrefixOf?, hhead, htail]

/-- Splitting at a character the last part does not have. -/
theorem rsplitOnce_append {separator : A} (hafter : separator ∉ after)
    (before : List A) :
    rsplitOnce separator (before ++ separator :: after) = some (before, after) := by
  have hreverse : separator ∉ after.reverse := by simpa using hafter
  have hsplit := splitOnce_append hreverse before.reverse
  simp only [splitOnce] at hsplit
  simp [rsplitOnce, hsplit]

theorem append_separator_inj {separator : A} {other last : List A}
    (hbefore : separator ∉ before) (hother : separator ∉ other)
    (htext : before ++ separator :: after = other ++ separator :: last) :
    before = other ∧ after = last := by
  have hsplit := splitOnce_append hbefore after
  rw [htext, splitOnce_append hother last] at hsplit
  simpa [eq_comm] using hsplit

/-- An occurrence of a pattern with a separator in it either ends its first part
where the text has its first separator, or lies behind that separator. -/
theorem infix_separator {separator : A} {first last left right : List A}
    (hfirst : separator ∉ first) (hleft : separator ∉ left)
    (hoccurs : (first ++ separator :: last) <:+: (left ++ separator :: right)) :
    first <:+ left ∨ (first ++ separator :: last) <:+: right := by
  obtain ⟨before, after, htext⟩ := hoccurs
  by_cases hbefore : separator ∈ before
  · obtain ⟨initial, final, rfl, hinitial⟩ := List.eq_append_cons_of_mem hbefore
    have hsame : initial ++ separator :: (final ++ (first ++ separator :: last) ++ after) =
        left ++ separator :: right := by
      simpa using htext
    obtain ⟨-, hright⟩ := append_separator_inj hinitial hleft hsame
    exact .inr ⟨final, after, hright⟩
  · have hsame : (before ++ first) ++ separator :: (last ++ after) =
        left ++ separator :: right := by
      simpa using htext
    have hnot : separator ∉ before ++ first := by simp [hbefore, hfirst]
    exact .inl ⟨before, (append_separator_inj hnot hleft hsame).1⟩

end Cut

/-- Unicode's `White_Space` property. -/
def isWhite (c : Char) : Bool :=
  (9 ≤ c.toNat && c.toNat ≤ 13) || (0x2000 ≤ c.toNat && c.toNat ≤ 0x200a) ||
    c.toNat ∈ [0x20, 0x85, 0xa0, 0x1680, 0x2028, 0x2029, 0x202f, 0x205f, 0x3000]

theorem isWhite_of_isDigit {c : Char} (hdigit : c.isDigit = true) :
    isWhite c = false := by
  simp only [Char.isDigit, Bool.and_eq_true, decide_eq_true_eq, ge_iff_le,
    UInt32.le_iff_toNat_le] at hdigit
  have hlow : 48 ≤ c.toNat := hdigit.1
  have hhigh : c.toNat ≤ 57 := hdigit.2
  simp [isWhite]
  omega

def trimStart (text : Text) : Text := text.dropWhile isWhite

def trimEnd (text : Text) : Text := text.rdropWhile isWhite

def trim (text : Text) : Text := trimEnd (trimStart text)

/-- Drop `pattern` from the front as often as it is there. -/
def trimStartMatches (pattern text : Text) : Text :=
  go text.length text
where
  go : Nat → Text → Text
    | 0, rest => rest
    | fuel + 1, rest =>
        match pattern.isPrefixOf? rest with
        | some after => go fuel after
        | none => rest

def trimEndMatches (chars text : Text) : Text := text.rdropWhile (· ∈ chars)

def startsWith (text pattern : Text) : Bool := pattern.isPrefixOf text

def endsWith (text pattern : Text) : Bool := pattern.isSuffixOf text

def stripReturn (line : Text) : Text :=
  if line.getLast? = some '\r' then line.dropLast else line

/-- A line ends at a line feed, with the carriage return before it if there is
one.  No empty line follows the last line feed. -/
def lines (text : Text) : List Text :=
  let pieces := text.splitOn '\n'
  let final := pieces.getLast?.getD []
  pieces.dropLast.map stripReturn ++ if final = [] then [] else [final]

def splitWhitespace (text : Text) : List Text :=
  (text.splitOnP isWhite).filter (· ≠ [])

def unlines (texts : List Text) : Text := texts.flatMap (· ++ ['\n'])

def joinWith (separator : Char) (texts : List Text) : Text :=
  [separator].intercalate texts

def sort (texts : List Text) : List Text := texts.insertionSort (· ≤ ·)

/-- Drop repetitions that stand next to each other. -/
def dedup (texts : List Text) : List Text := texts.destutter (· ≠ ·)

theorem trimStart_of_head {text : Text} (hhead : ∀ c ∈ text.head?, isWhite c = false) :
    trimStart text = text := by
  cases text with
  | nil => rfl
  | cons first rest => simp [trimStart, List.dropWhile, hhead first rfl]

theorem trimEnd_of_last {text : Text} (hlast : ∀ c ∈ text.getLast?, isWhite c = false) :
    trimEnd text = text := by
  rw [trimEnd, List.rdropWhile_eq_self_iff]
  intro hne
  rw [hlast _ (List.getLast?_eq_some_getLast hne)]
  exact Bool.false_ne_true

/-- A text between two characters that are not white is not trimmed. -/
theorem trim_of_ends {text : Text} (hhead : ∀ c ∈ text.head?, isWhite c = false)
    (hlast : ∀ c ∈ text.getLast?, isWhite c = false) : trim text = text := by
  rw [trim, trimStart_of_head hhead, trimEnd_of_last hlast]

theorem trim_of_noWhite {text : Text} (htext : ∀ c ∈ text, isWhite c = false) :
    trim text = text :=
  trim_of_ends (fun c hc => htext c (List.mem_of_head? hc))
    fun c hc => htext c (List.mem_of_getLast? hc)

theorem trimEndMatches_of_last {chars text : Text} (hlast : ∀ c ∈ text.getLast?, c ∉ chars) :
    trimEndMatches chars text = text := by
  rw [trimEndMatches, List.rdropWhile_eq_self_iff]
  intro hne
  simpa using hlast _ (List.getLast?_eq_some_getLast hne)

theorem trim_ne_nil {text : Text} {c : Char} (hmem : c ∈ text)
    (hblack : isWhite c = false) : trim text ≠ [] := by
  intro htrim
  have hend : ∀ d ∈ trimStart text, isWhite d = true := List.rdropWhile_eq_nil_iff.mp htrim
  have hstart : trimStart text ≠ [] := by
    intro hnil
    have hwhite := List.dropWhile_eq_nil_iff.mp hnil c hmem
    simp [hblack] at hwhite
  have hhead := hend _ (List.head_mem hstart)
  have hnot := List.head_dropWhile_not isWhite hstart
  exact absurd hhead (by simpa [trimStart] using hnot)

theorem trim_eq_nil_iff {text : Text} : trim text = [] ↔ ∀ c ∈ text, isWhite c = true := by
  constructor
  · intro htrim c hc
    by_contra hblack
    exact trim_ne_nil hc (by simpa using hblack) htrim
  · intro hwhite
    have hstart : trimStart text = [] := List.dropWhile_eq_nil_iff.mpr hwhite
    rw [trim, hstart]
    rfl

theorem trim_sublist (text : Text) : (trim text).Sublist text :=
  (List.rdropWhile_prefix isWhite _).sublist.trans (List.dropWhile_suffix isWhite).sublist

theorem trim_trim (text : Text) : trim (trim text) = trim text := by
  have hstart : trimStart (trim text) = trim text := by
    by_cases hnil : trim text = []
    · rw [hnil]
      rfl
    · have hstart : trim text <+: trimStart text := List.rdropWhile_prefix isWhite _
      have hne : trimStart text ≠ [] := fun h => hnil (List.prefix_nil.mp (h ▸ hstart))
      have hhead := List.head_dropWhile_not isWhite hne
      rw [trimStart, List.dropWhile_eq_self_iff]
      intro hpos
      rw [List.IsPrefix.getElem hstart hpos, List.getElem_zero]
      simpa [trimStart] using hhead
  rw [trim, hstart, trim]
  exact List.rdropWhile_idempotent isWhite _

theorem isPrefixOf?_eq_none {pattern text : Text} (hnot : ¬ pattern <+: text) :
    pattern.isPrefixOf? text = none := by
  rw [Option.eq_none_iff_forall_ne_some]
  intro rest hrest
  exact hnot ⟨rest, List.isPrefixOf?_eq_some_iff_append_eq.mp hrest⟩

theorem trimStartMatches_go_of_some {pattern text after : Text}
    (hfront : pattern.isPrefixOf? text = some after) (fuel : Nat) :
    trimStartMatches.go pattern (fuel + 1) text = trimStartMatches.go pattern fuel after := by
  change (match pattern.isPrefixOf? text with
    | some after => trimStartMatches.go pattern fuel after
    | none => text) = _
  rw [hfront]

theorem trimStartMatches_go_of_none {pattern text : Text}
    (hfront : pattern.isPrefixOf? text = none) (fuel : Nat) :
    trimStartMatches.go pattern fuel text = text := by
  cases fuel with
  | zero => rfl
  | succ fuel =>
      change (match pattern.isPrefixOf? text with
        | some after => trimStartMatches.go pattern fuel after
        | none => text) = _
      rw [hfront]

theorem trimStartMatches_go_of_not_prefix {pattern text : Text}
    (hnot : ¬ pattern <+: text) (fuel : Nat) :
    trimStartMatches.go pattern fuel text = text :=
  trimStartMatches_go_of_none (isPrefixOf?_eq_none hnot) fuel

theorem trimStartMatches_of_not_prefix {pattern text : Text}
    (hnot : ¬ pattern <+: text) : trimStartMatches pattern text = text :=
  trimStartMatches_go_of_not_prefix hnot text.length

theorem trimStartMatches_append {pattern text : Text} (hnil : pattern ≠ [])
    (hnot : ¬ pattern <+: text) :
    trimStartMatches pattern (pattern ++ text) = text := by
  obtain ⟨fuel, hfuel⟩ : ∃ fuel, (pattern ++ text).length = fuel + 1 := by
    have hpos := List.length_pos_of_ne_nil hnil
    exact ⟨pattern.length + text.length - 1, by rw [List.length_append]; omega⟩
  have hfront : pattern.isPrefixOf? (pattern ++ text) = some text :=
    List.isPrefixOf?_eq_some_iff_append_eq.mpr rfl
  rw [trimStartMatches, hfuel, trimStartMatches_go_of_some hfront]
  exact trimStartMatches_go_of_not_prefix hnot fuel

theorem trimStartMatches_suffix (pattern text : Text) :
    trimStartMatches pattern text <:+ text := by
  rw [trimStartMatches]
  generalize text.length = fuel
  induction fuel generalizing text with
  | zero => exact List.suffix_refl text
  | succ fuel ih =>
      cases hfront : pattern.isPrefixOf? text with
      | none =>
          rw [trimStartMatches_go_of_none hfront]
      | some after =>
          rw [trimStartMatches_go_of_some hfront]
          have htext := List.isPrefixOf?_eq_some_iff_append_eq.mp hfront
          exact (ih after).trans ⟨pattern, htext⟩

theorem unlines_append (first rest : List Text) :
    unlines (first ++ rest) = unlines first ++ unlines rest :=
  List.flatMap_append

/-- Lines that are written one after another bring no carriage return. -/
theorem return_notMem_unlines {texts : List Text} (htexts : ∀ line ∈ texts, '\r' ∉ line) :
    '\r' ∉ unlines texts := by
  rw [unlines, List.mem_flatMap]
  rintro ⟨line, hline, hmem⟩
  rcases List.mem_append.mp hmem with h | h
  · exact htexts line hline h
  · exact absurd h (by decide)

theorem line_infix_unlines {line : Text} {texts : List Text} (hline : line ∈ texts) :
    line <:+: unlines texts := by
  obtain ⟨before, after, rfl⟩ := List.append_of_mem hline
  exact ⟨unlines before, '\n' :: unlines after, by simp [unlines]⟩

theorem lines_unlines {texts : List Text} (hlines : ∀ line ∈ texts, '\n' ∉ line)
    (hreturns : ∀ line ∈ texts, '\r' ∉ line) : lines (unlines texts) = texts := by
  have hpieces : (unlines texts).splitOn '\n' = texts ++ [[]] := by
    induction texts with
    | nil => rfl
    | cons line texts ih =>
        have hline := hlines line List.mem_cons_self
        rw [unlines, List.flatMap_cons, List.append_assoc, List.singleton_append,
          List.splitOn_append_cons_self_of_not_mem hline]
        exact congrArg (line :: ·) (ih
          (fun other hother => hlines other (List.mem_cons_of_mem _ hother))
          fun other hother => hreturns other (List.mem_cons_of_mem _ hother))
  have hstrip : ∀ line ∈ texts, stripReturn line = line := by
    intro line hline
    have hlast : line.getLast? ≠ some '\r' :=
      fun h => hreturns line hline (List.mem_of_getLast? h)
    rw [stripReturn, if_neg hlast]
  simp only [lines, hpieces, List.dropLast_concat, List.getLast?_concat,
    Option.getD_some, if_pos, List.append_nil]
  calc texts.map stripReturn = texts.map id := List.map_congr_left hstrip
    _ = texts := List.map_id texts

theorem splitOn_sublist (text : Text) : (text.splitOn '\n').flatten.Sublist text := by
  induction text with
  | nil => exact List.Sublist.refl _
  | cons c text ih =>
      rw [List.splitOn, List.splitOnP_cons_eq_if_modifyHead]
      rw [List.splitOn] at ih
      cases hpieces : text.splitOnP (· == '\n') with
      | nil => exact absurd hpieces (List.splitOnP_ne_nil _ _)
      | cons first rest =>
          rw [hpieces] at ih
          split
          · exact ih.cons c
          · exact ih.cons_cons c

theorem stripReturn_sublist (line : Text) : (stripReturn line).Sublist line := by
  rw [stripReturn]
  split
  · exact List.dropLast_sublist line
  · exact List.Sublist.refl line

theorem flatten_map_stripReturn_sublist (texts : List Text) :
    (texts.map stripReturn).flatten.Sublist texts.flatten := by
  induction texts with
  | nil => exact List.Sublist.refl _
  | cons line texts ih => exact (stripReturn_sublist line).append ih

/-- Lines are cut out of the text. -/
theorem lines_sublist (text : Text) : (lines text).flatten.Sublist text := by
  refine List.Sublist.trans ?_ (splitOn_sublist text)
  have hpieces := List.dropLast_append_getLast (List.splitOn_ne_nil '\n' text)
  have hlast : (text.splitOn '\n').getLast?.getD [] =
      (text.splitOn '\n').getLast (List.splitOn_ne_nil '\n' text) := by
    rw [List.getLast?_eq_some_getLast (List.splitOn_ne_nil '\n' text), Option.getD_some]
  rw [lines, hlast]
  conv => rhs; rw [← hpieces]
  rw [List.flatten_append, List.flatten_append]
  refine (flatten_map_stripReturn_sublist _).append ?_
  split
  · exact List.nil_sublist _
  · exact List.Sublist.refl _

theorem mem_joinWith {separator c : Char} {texts : List Text}
    (hc : c ∈ joinWith separator texts) : c = separator ∨ ∃ text ∈ texts, c ∈ text := by
  induction texts with
  | nil => simp [joinWith] at hc
  | cons first rest ih =>
      cases rest with
      | nil => exact .inr ⟨first, by simp, by simpa [joinWith] using hc⟩
      | cons second rest =>
          rw [joinWith, List.intercalate_cons_cons, List.mem_append, List.mem_append] at hc
          rcases hc with (hfirst | hseparator) | hrest
          · exact .inr ⟨first, by simp, hfirst⟩
          · exact .inl (by simpa using hseparator)
          · rcases ih hrest with hseparator | ⟨text, htext, hmem⟩
            · exact .inl hseparator
            · exact .inr ⟨text, List.mem_cons_of_mem _ htext, hmem⟩

theorem joinWith_head {separator c : Char} {first : Text} {rest : List Text}
    (hc : c ∈ first) : c ∈ joinWith separator (first :: rest) := by
  cases rest with
  | nil => simpa [joinWith] using hc
  | cons second rest =>
      rw [joinWith, List.intercalate_cons_cons]
      simp [hc]

theorem joinWith_ne_nil {separator : Char} {texts : List Text} (hne : texts ≠ [])
    (htexts : ∀ text ∈ texts, text ≠ []) : joinWith separator texts ≠ [] := by
  cases texts with
  | nil => exact absurd rfl hne
  | cons first rest =>
      obtain ⟨c, hc⟩ := List.exists_mem_of_ne_nil first (htexts first List.mem_cons_self)
      exact List.ne_nil_of_mem (joinWith_head hc)

/-- The last character of joined texts is the last one of a text. -/
theorem getLast?_joinWith {separator c : Char} {texts : List Text}
    (htexts : ∀ text ∈ texts, text ≠ [])
    (hlast : (joinWith separator texts).getLast? = some c) :
    ∃ text ∈ texts, text.getLast? = some c := by
  induction texts with
  | nil => simp [joinWith] at hlast
  | cons first rest ih =>
      cases rest with
      | nil => exact ⟨first, by simp, by simpa [joinWith] using hlast⟩
      | cons second rest =>
          have hrest : ∀ text ∈ second :: rest, text ≠ [] :=
            fun text htext => htexts text (List.mem_cons_of_mem _ htext)
          have hne : joinWith separator (second :: rest) ≠ [] :=
            joinWith_ne_nil (List.cons_ne_nil _ _) hrest
          have hsplit : joinWith separator (first :: second :: rest) =
              first ++ [separator] ++ joinWith separator (second :: rest) := by
            rw [joinWith, List.intercalate_cons_cons, joinWith]
          rw [hsplit, List.getLast?_append_of_ne_nil _ hne] at hlast
          obtain ⟨text, htext, hc⟩ := ih hrest hlast
          exact ⟨text, List.mem_cons_of_mem _ htext, hc⟩

theorem takeWhile_of_notMem {separator : Char} {text : Text} (hnot : separator ∉ text) :
    text.takeWhile (· ≠ separator) = text := by
  rw [List.takeWhile_eq_self_iff]
  intro c hc
  have hne : c ≠ separator := fun h => hnot (h ▸ hc)
  exact decide_eq_true hne

theorem takeWhile_separator {separator : Char} {before : Text} (hbefore : separator ∉ before)
    (after : Text) : (before ++ separator :: after).takeWhile (· ≠ separator) = before := by
  rw [List.takeWhile_append, takeWhile_of_notMem hbefore, if_pos rfl,
    List.takeWhile_cons_of_neg (by simp), List.append_nil]

/-- The first of joined texts ends at the first separator. -/
theorem takeWhile_joinWith {separator : Char} {first : Text} (hfirst : separator ∉ first)
    (rest : List Text) :
    (joinWith separator (first :: rest)).takeWhile (· ≠ separator) = first := by
  cases rest with
  | nil => simpa only [joinWith, List.intercalate_singleton] using takeWhile_of_notMem hfirst
  | cons second rest =>
      rw [joinWith, List.intercalate_cons_cons, List.append_assoc, List.singleton_append]
      exact takeWhile_separator hfirst _

/-- A line in front of a text. -/
theorem lines_cons {line : Text} (hline : '\n' ∉ line) (hreturn : '\r' ∉ line)
    (rest : Text) : lines (line ++ '\n' :: rest) = line :: lines rest := by
  have hstrip : stripReturn line = line := by
    have hlast : line.getLast? ≠ some '\r' := fun h => hreturn (List.mem_of_getLast? h)
    rw [stripReturn, if_neg hlast]
  have hpieces : rest.splitOn '\n' ≠ [] := List.splitOn_ne_nil _ _
  rw [lines, List.splitOn_append_cons_self_of_not_mem hline, lines]
  simp only [List.dropLast_cons_of_ne_nil hpieces, List.getLast?_cons_of_ne_nil hpieces,
    List.map_cons, hstrip, List.cons_append]

theorem lines_unlines_append {texts : List Text} (hlines : ∀ line ∈ texts, '\n' ∉ line)
    (hreturns : ∀ line ∈ texts, '\r' ∉ line) (rest : Text) :
    lines (unlines texts ++ rest) = texts ++ lines rest := by
  induction texts with
  | nil => rfl
  | cons line texts ih =>
      have hsplit : unlines (line :: texts) ++ rest = line ++ '\n' :: (unlines texts ++ rest) := by
        simp [unlines]
      have htail := ih (fun other hother => hlines other (List.mem_cons_of_mem _ hother))
        fun other hother => hreturns other (List.mem_cons_of_mem _ hother)
      rw [hsplit, lines_cons (hlines line List.mem_cons_self)
        (hreturns line List.mem_cons_self), htail]
      rfl

theorem head?_destutter' (first : Text) (rest : List Text) :
    (rest.destutter' (· ≠ ·) first).head? = some first := by
  induction rest with
  | nil => rfl
  | cons text rest ih =>
      by_cases hdistinct : first ≠ text
      · rw [List.destutter'_cons_pos rest hdistinct]
        rfl
      · rw [List.destutter'_cons_neg rest hdistinct]
        exact ih

/-- Sorting and dropping repetitions keeps the elements, the least one first. -/
theorem dedup_sort_cons {texts : List Text} (hne : texts ≠ []) :
    ∃ first rest, dedup (sort texts) = first :: rest ∧ first ∈ texts ∧
      ∀ text ∈ texts, first ≤ text := by
  have hordered : (sort texts).Pairwise (· ≤ ·) := List.pairwise_insertionSort _ texts
  have hmem : ∀ text, text ∈ sort texts ↔ text ∈ texts :=
    fun text => List.mem_insertionSort (· ≤ ·)
  cases hsort : sort texts with
  | nil =>
      obtain ⟨text, htext⟩ := List.exists_mem_of_ne_nil texts hne
      simp [← hmem, hsort] at htext
  | cons first rest =>
      obtain ⟨tail, htail⟩ := List.head?_eq_some_iff.mp (head?_destutter' first rest)
      rw [hsort, List.pairwise_cons] at hordered
      refine ⟨first, tail, htail, by simp [← hmem, hsort], ?_⟩
      intro text htext
      rw [← hmem, hsort] at htext
      rcases List.mem_cons.mp htext with hsame | hrest
      · exact hsame ▸ List.le_refl text
      · exact hordered.1 text hrest

end PertiskKos.Strings
