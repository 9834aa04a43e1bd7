import PertiskKos.Etcd.Manifest
import PertiskKos.Library.Lines

/-!
# Binding etcd to all addresses

Two functions rewrite a flag of the etcd command.  `replaceCommandFlag` keeps the marker of
the list item that the flag stands in.  `ensureEtcdListenAll` puts the flag behind the
indentation alone, so that a list loses the item wherever the line is rewritten.
-/

namespace PertiskKos.Etcd

open Strings Lines

def listenFlag : Text := "--listen-client-urls=".toList

def listenValue : Text := "https://0.0.0.0:2379".toList

/-- The manifest after `ensure_etcd_listen_all`. -/
def listening (raw : Text) : Text := (ensureEtcdListenAll raw).getD raw

def indentOf (line : Text) : Text :=
  List.replicate (byteLength line - byteLength (trimStart line)) ' '

/-- A line that is an item of a block list. -/
def isItem (line : Text) : Bool := startsWith (trimStart line) "- ".toList

/-- The command is a block list: the flag stands in items only. -/
structure BlockCommand (raw : Text) : Prop where
  lineEnds : ∀ line ∈ lines raw, '\r' ∉ line
  items : ∀ line ∈ lines raw, contains listenFlag line = true → isItem line = true

/-- The item as `replaceCommandFlag` writes it. -/
def flagItem (line : Text) : Text :=
  (yamlListPrefix line).1 ++ (yamlListPrefix line).2 ++ listenFlag ++ listenValue ++
    trailingComma line

/-- The command keeps its items, agrees with the other rewriting, and is not changed again. -/
structure KeepsList (raw : Text) : Prop where
  items : (lines (listening raw)).map isItem = (lines raw).map isItem
  agrees : lines (listening raw) = lines (replaceCommandFlag raw listenFlag listenValue)
  stable : listening (listening raw) = listening raw

theorem listenAll_eq : listenAll = listenFlag ++ listenValue := by decide

section Lines

/-- A line as `ensureEtcdListenAll` rewrites it. -/
def listenLine (line : Text) : Text :=
  if contains listenFlag line then indentOf line ++ listenAll ++ trailingComma line else line

def replacedLine (line : Text) : Text :=
  if contains listenFlag line then flagItem line else line

variable {raw : Text}

theorem oneLine_indentOf (line : Text) {c : Char} (hc : c ≠ ' ') : c ∉ indentOf line := by
  intro hmem
  exact hc (List.eq_of_mem_replicate hmem)

theorem notMem_trailingComma {c : Char} (hc : c ≠ ',') (line : Text) :
    c ∉ trailingComma line := by
  rw [trailingComma]
  split
  · exact fun hmem => hc (List.mem_singleton.mp hmem)
  · exact List.not_mem_nil

theorem notMem_listenLine {line : Text} {c : Char} (hline : c ∉ line) (hspace : c ≠ ' ')
    (hcomma : c ≠ ',') (hflag : c ∉ listenAll) : c ∉ listenLine line := by
  rw [listenLine]
  split
  · simp only [List.mem_append, not_or]
    exact ⟨⟨oneLine_indentOf line hspace, hflag⟩, notMem_trailingComma hcomma line⟩
  · exact hline

theorem yamlListPrefix_cases (line : Text) :
    (yamlListPrefix line).1 = indentOf line ∧
      (yamlListPrefix line).2 = if isItem line then "- ".toList else [] := by
  rw [yamlListPrefix, isItem, indentOf]
  cases startsWith (trimStart line) "- ".toList <;> exact ⟨rfl, rfl⟩

theorem notMem_replacedLine {line : Text} {c : Char} (hline : c ∉ line) (hspace : c ≠ ' ')
    (hcomma : c ≠ ',') (hmarker : c ≠ '-') (hflag : c ∉ listenAll) :
    c ∉ replacedLine line := by
  rw [replacedLine]
  split
  · have hprefix : c ∉ (yamlListPrefix line).2 := by
      rw [(yamlListPrefix_cases line).2]
      split
      · have hitem : "- ".toList = ['-', ' '] := rfl
        simp [hitem, hmarker, hspace]
      · exact List.not_mem_nil
    rw [flagItem, List.append_assoc _ listenFlag, ← listenAll_eq,
      (yamlListPrefix_cases line).1]
    simp only [List.mem_append, not_or]
    exact ⟨⟨⟨oneLine_indentOf line hspace, hprefix⟩, hflag⟩, notMem_trailingComma hcomma line⟩
  · exact hline

theorem lines_replaceCommandFlag (hends : ∀ line ∈ lines raw, '\r' ∉ line) :
    lines (replaceCommandFlag raw listenFlag listenValue) = (lines raw).map replacedLine := by
  have hfeed : ∀ line ∈ lines raw, '\n' ∉ line := fun _ hline => newline_notMem_lines hline
  rw [replaceCommandFlag]
  apply lines_unlines
  · intro line hline
    obtain ⟨old, hold, rfl⟩ := List.mem_map.mp hline
    exact notMem_replacedLine (hfeed old hold) (by decide) (by decide) (by decide) (by decide)
  · intro line hline
    obtain ⟨old, hold, rfl⟩ := List.mem_map.mp hline
    exact notMem_replacedLine (hends old hold) (by decide) (by decide) (by decide) (by decide)

theorem lines_listenLines (hends : ∀ line ∈ lines raw, '\r' ∉ line) :
    lines (unlines ((lines raw).map listenLine)) = (lines raw).map listenLine := by
  have hfeed : ∀ line ∈ lines raw, '\n' ∉ line := fun _ hline => newline_notMem_lines hline
  apply lines_unlines
  · intro line hline
    obtain ⟨old, hold, rfl⟩ := List.mem_map.mp hline
    exact notMem_listenLine (hfeed old hold) (by decide) (by decide) (by decide)
  · intro line hline
    obtain ⟨old, hold, rfl⟩ := List.mem_map.mp hline
    exact notMem_listenLine (hends old hold) (by decide) (by decide) (by decide)

/-- The manifest is left alone when it has the new binding and not the old one. -/
def isListening (raw : Text) : Bool := contains listenAll raw && !contains listenLoopback raw

theorem listening_of_isListening (hall : isListening raw = true) : listening raw = raw := by
  rw [isListening] at hall
  rw [listening, ensureEtcdListenAll, if_pos hall, Option.getD_none]

theorem listening_of_not (hall : isListening raw = false) :
    listening raw = unlines ((lines raw).map listenLine) := by
  rw [isListening] at hall
  rw [listening, ensureEtcdListenAll, if_neg (by rw [hall]; exact Bool.false_ne_true)]
  have hlines : (unlines <| (lines raw).map fun line =>
      if contains "--listen-client-urls=".toList line then
        List.replicate (byteLength line - byteLength (trimStart line)) ' ' ++
          listenAll ++ trailingComma line
      else line) = unlines ((lines raw).map listenLine) := rfl
  dsimp only
  rw [hlines]
  split
  · next hsame => rw [Option.getD_none, hsame]
  · rw [Option.getD_some]

/-- The old binding is part of no line that was rewritten. -/
theorem not_loopback_of_written (indent : Nat) (comma : Text) (hcomma : comma = [] ∨ comma = [','])
    (marker : Text) (hmarker : marker = [] ∨ marker = "- ".toList) :
    ¬ listenLoopback <:+: List.replicate indent ' ' ++ marker ++ listenAll ++ comma := by
  induction indent with
  | zero =>
      rcases hcomma with rfl | rfl <;> rcases hmarker with rfl | rfl <;> decide
  | succ indent ih =>
      rw [List.replicate_succ]
      have hfront : ' ' :: List.replicate indent ' ' ++ marker ++ listenAll ++ comma =
          [] ++ ' ' :: (List.replicate indent ' ' ++ marker ++ listenAll ++ comma) := rfl
      rw [hfront, infix_separator_iff (by decide) (by decide), List.infix_nil]
      rintro (hnil | hinfix)
      · exact absurd hnil (by decide)
      · exact ih hinfix

theorem trailingComma_cases (line : Text) :
    trailingComma line = [] ∨ trailingComma line = [','] := by
  rw [trailingComma]
  split
  · exact Or.inr rfl
  · exact Or.inl rfl

theorem flag_of_loopback {line : Text} (hloopback : listenLoopback <:+: line) :
    contains listenFlag line = true := by
  rw [contains_iff]
  have hfront : listenFlag <:+: listenLoopback := by decide
  exact hfront.trans hloopback

theorem not_loopback_listenLine (line : Text) : ¬ listenLoopback <:+: listenLine line := by
  rw [listenLine]
  split
  · have hwritten := not_loopback_of_written (byteLength line - byteLength (trimStart line))
      (trailingComma line) (trailingComma_cases line) [] (Or.inl rfl)
    rwa [List.append_nil] at hwritten
  · next hflag => exact fun hloopback => hflag (flag_of_loopback hloopback)

theorem flagItem_eq (line : Text) :
    flagItem line = indentOf line ++ (yamlListPrefix line).2 ++ listenAll ++
      trailingComma line := by
  rw [flagItem, List.append_assoc _ listenFlag, ← listenAll_eq, (yamlListPrefix_cases line).1]

theorem marker_cases (line : Text) :
    (yamlListPrefix line).2 = [] ∨ (yamlListPrefix line).2 = "- ".toList := by
  rw [(yamlListPrefix_cases line).2]
  split
  · exact Or.inr rfl
  · exact Or.inl rfl

theorem not_loopback_replacedLine (line : Text) : ¬ listenLoopback <:+: replacedLine line := by
  rw [replacedLine]
  split
  · rw [flagItem_eq]
    exact not_loopback_of_written _ _ (trailingComma_cases line) _ (marker_cases line)
  · next hflag => exact fun hloopback => hflag (flag_of_loopback hloopback)

theorem contains_lines_iff {pattern : Text} (hnil : pattern ≠ []) (hfeed : '\n' ∉ pattern)
    (hreturn : '\r' ∉ pattern) (text : Text) :
    contains pattern text = true ↔ ∃ line ∈ lines text, pattern <:+: line := by
  rw [contains_iff, infix_lines_iff hnil hfeed hreturn]

theorem listenAll_listenLine {line : Text} (hflag : contains listenFlag line = true) :
    listenAll <:+: listenLine line := by
  rw [listenLine, if_pos hflag]
  exact List.infix_append ..

theorem listenAll_replacedLine {line : Text} (hflag : contains listenFlag line = true) :
    listenAll <:+: replacedLine line := by
  rw [replacedLine, if_pos hflag, flagItem_eq]
  exact List.infix_append ..

/-- A second rewriting finds nothing to do. -/
theorem listening_listening (hends : ∀ line ∈ lines raw, '\r' ∉ line) :
    listening (listening raw) = listening raw := by
  cases hall : isListening raw with
  | true => rw [listening_of_isListening hall, listening_of_isListening hall]
  | false =>
      rw [listening_of_not hall]
      have hlines := lines_listenLines hends
      by_cases hflag : ∃ line ∈ lines raw, contains listenFlag line = true
      · obtain ⟨line, hline, hflag⟩ := hflag
        apply listening_of_isListening
        have hpresent : contains listenAll (unlines ((lines raw).map listenLine)) = true := by
          rw [contains_lines_iff (by decide) (by decide) (by decide), hlines]
          exact ⟨_, List.mem_map_of_mem hline, listenAll_listenLine hflag⟩
        have habsent : contains listenLoopback (unlines ((lines raw).map listenLine)) =
            false := by
          rw [Bool.eq_false_iff, ne_eq, contains_lines_iff (by decide) (by decide) (by decide),
            hlines]
          rintro ⟨written, hwritten, hloopback⟩
          obtain ⟨old, -, rfl⟩ := List.mem_map.mp hwritten
          exact not_loopback_listenLine old hloopback
        rw [isListening, hpresent, habsent]
        rfl
      · have hsame : (lines raw).map listenLine = lines raw := by
          conv => rhs; rw [← List.map_id (lines raw)]
          apply List.map_congr_left
          intro line hline
          rw [listenLine, if_neg fun h => hflag ⟨line, hline, h⟩, id_eq]
        cases hagain : isListening (unlines ((lines raw).map listenLine)) with
        | true => exact listening_of_isListening hagain
        | false => rw [listening_of_not hagain, hlines, hsame, hsame]

end Lines

/-! ## When the list is kept -/

section Kept

variable {raw : Text}

theorem isItem_replacedLine_of_eq (hsame : ∀ line ∈ lines raw,
    contains listenFlag line = true → line = flagItem line) :
    (lines raw).map replacedLine = lines raw := by
  conv => rhs; rw [← List.map_id (lines raw)]
  apply List.map_congr_left
  intro line hline
  rw [replacedLine, id_eq]
  split
  · next hflag => exact (hsame line hline hflag).symm
  · rfl

/-- Rewritten without the marker of its item a line is not what it should be. -/
theorem listenLine_ne_flagItem {line : Text} (hitem : isItem line = true)
    (hflag : contains listenFlag line = true) : listenLine line ≠ flagItem line := by
  intro hsame
  have hmarker : (yamlListPrefix line).2 = "- ".toList := by
    rw [(yamlListPrefix_cases line).2, if_pos hitem]
  rw [listenLine, if_pos hflag, flagItem_eq, hmarker] at hsame
  have hlength := congrArg List.length hsame
  simp only [List.length_append] at hlength
  have htwo : ("- ".toList : Text).length = 2 := rfl
  omega

/-- Binding etcd to all addresses keeps the list of its command, and agrees with the other
rewriting of a flag, exactly where that other rewriting has nothing to change. -/
theorem listen_all_keeps_list_iff (raw : Text) (hblock : BlockCommand raw) :
    KeepsList raw ↔ ∀ line ∈ lines raw, contains listenFlag line = true →
      line = flagItem line := by
  have hreplaced := lines_replaceCommandFlag hblock.lineEnds
  constructor
  · intro hkeeps line hline hflag
    have hagrees := hkeeps.agrees
    rw [hreplaced] at hagrees
    cases hall : isListening raw with
    | true =>
        rw [listening_of_isListening hall] at hagrees
        have hid : (lines raw).map id = (lines raw).map replacedLine := by
          rw [List.map_id, ← hagrees]
        have hsame := List.map_inj_left.mp hid line hline
        rwa [id_eq, replacedLine, if_pos hflag] at hsame
    | false =>
        rw [listening_of_not hall, lines_listenLines hblock.lineEnds] at hagrees
        have hsame := List.map_inj_left.mp hagrees line hline
        conv at hsame => rhs; rw [replacedLine, if_pos hflag]
        exact absurd hsame (listenLine_ne_flagItem (hblock.items line hline hflag) hflag)
  · intro hsame
    have hkept : lines (listening raw) = lines raw := by
      cases hall : isListening raw with
      | true => rw [listening_of_isListening hall]
      | false =>
          -- A line with the flag would have the new binding, and the old one is in none.
          have hnone : ∀ line ∈ lines raw, ¬ contains listenFlag line = true := by
            intro line hline hflag
            have hmap := isItem_replacedLine_of_eq hsame
            have hpresent : contains listenAll raw = true := by
              rw [contains_lines_iff (by decide) (by decide) (by decide), ← hmap]
              exact ⟨_, List.mem_map_of_mem hline, listenAll_replacedLine hflag⟩
            have habsent : contains listenLoopback raw = false := by
              rw [Bool.eq_false_iff, ne_eq,
                contains_lines_iff (by decide) (by decide) (by decide), ← hmap]
              rintro ⟨written, hwritten, hloopback⟩
              obtain ⟨old, -, rfl⟩ := List.mem_map.mp hwritten
              exact not_loopback_replacedLine old hloopback
            rw [isListening, hpresent, habsent] at hall
            cases hall
          rw [listening_of_not hall, lines_listenLines hblock.lineEnds]
          conv => rhs; rw [← List.map_id (lines raw)]
          apply List.map_congr_left
          intro line hline
          rw [listenLine, if_neg (hnone line hline), id_eq]
    refine ⟨by rw [hkept], ?_, listening_listening hblock.lineEnds⟩
    rw [hkept, hreplaced, isItem_replacedLine_of_eq hsame]

end Kept

/-- The command of a manifest with etcd bound to an address of its own. -/
def commandLines (address : Text) : Text :=
  unlines ["  - command:".toList, "    - etcd".toList, item (listenFlag ++ address),
    "    - --name=cp-1".toList]

theorem listen_all_keeps_list_fresh :
    KeepsList (commandLines listenValue) ↔ ∀ line ∈ lines (commandLines listenValue),
      contains listenFlag line = true → line = flagItem line :=
  listen_all_keeps_list_iff (commandLines listenValue)
    ⟨by decide +kernel, by decide +kernel⟩

theorem listen_all_loses_item : ¬ ∀ raw, BlockCommand raw → KeepsList raw := by
  intro hclaim
  let raw := commandLines "https://127.0.0.1:2379".toList
  have hkeeps : KeepsList raw := hclaim raw ⟨by decide +kernel, by decide +kernel⟩
  have hlost : (lines (listening raw)).map isItem ≠ (lines raw).map isItem := by
    decide +kernel
  exact hlost hkeeps.items

end PertiskKos.Etcd
