import PertiskKos.Etcd.Rewriting
import PertiskKos.Library.Margins

/-!
# What a rewriting of addresses does to the fields of a line

What is taken off a field when it is read, and what a field is split at, has neither digits
nor dots.  A field of a rewritten line is therefore the rewritten field.
-/

namespace PertiskKos.Etcd

open Strings Ip Lines

/-- No character of an address passes the test. -/
def PlainTest (test : Char → Bool) : Prop :=
  ∀ c, test c = true → c.isDigit = false ∧ c ≠ '.'

theorem white_test : PlainTest isWhite := by
  intro c hwhite
  constructor
  · by_contra hdigit
    rw [isWhite_of_isDigit (by simpa using hdigit)] at hwhite
    exact Bool.false_ne_true hwhite
  · rintro rfl
    exact absurd hwhite (by decide)

section Ends

variable (old new : Address)

/-- A character of an address, in place of one or the one that was there. -/
def InPlace (c d : Char) : Prop := d = c ∨ d.isDigit = true ∨ d = '.'

theorem token_cases (before after : Text) :
    token old.text new.text before after = new.text ∨
      token old.text new.text before after = old.text := by
  rw [token]
  split
  · exact .inl rfl
  · exact .inr rfl

theorem token_ne_nil (before after : Text) : token old.text new.text before after ≠ [] := by
  rcases token_cases old new before after with h | h
  · rw [h]
    exact new.ne_nil
  · rw [h]
    exact old.ne_nil

theorem token_inPlace {before after : Text} {c d : Char}
    (hmem : d ∈ token old.text new.text before after) : InPlace c d := by
  rcases token_cases old new before after with h | h
  · exact .inr (new.charset d (h ▸ hmem))
  · exact .inr (old.charset d (h ▸ hmem))

theorem replaceIpToken_head (c : Char) (text : Text) :
    ∃ d rest, replaceIpToken (c :: text) old.text new.text = d :: rest ∧ InPlace c d := by
  by_cases hsame : old.text = new.text
  · exact ⟨c, text, by rw [replaceIpToken, if_pos (.inr hsame)], .inl rfl⟩
  · rw [replaceIpToken_cut old.ne_nil hsame]
    cases hcut : cut old.text (c :: text) with
    | none => exact ⟨c, text, rfl, .inl rfl⟩
    | some around =>
        obtain ⟨before, after⟩ := around
        cases before with
        | nil =>
            obtain ⟨d, rest, htoken⟩ :=
              List.exists_cons_of_ne_nil (token_ne_nil old new [] after)
            have hmem : d ∈ token old.text new.text [] after := by simp [htoken]
            exact ⟨d, _, by simp only [htoken, List.nil_append, List.cons_append]; rfl,
              token_inPlace old new hmem⟩
        | cons first before =>
            have hfirst := cut_append hcut
            rw [List.append_assoc, List.cons_append] at hfirst
            obtain ⟨rfl, -⟩ := List.cons.inj hfirst
            exact ⟨c, _, by simp only [List.cons_append]; rfl, .inl rfl⟩

theorem replaceIpToken_last (text : Text) (c : Char) :
    ∃ rest d, replaceIpToken (text ++ [c]) old.text new.text = rest ++ [d] ∧ InPlace c d := by
  by_cases hsame : old.text = new.text
  · exact ⟨text, c, by rw [replaceIpToken, if_pos (.inr hsame)], .inl rfl⟩
  · induction hlength : text.length using Nat.strong_induction_on generalizing text with
    | _ length ih =>
        rw [replaceIpToken_cut old.ne_nil hsame]
        cases hcut : cut old.text (text ++ [c]) with
        | none => exact ⟨text, c, rfl, .inl rfl⟩
        | some around =>
            obtain ⟨before, after⟩ := around
            have htext := cut_append hcut
            rcases List.eq_nil_or_concat after with rfl | ⟨front, last, rfl⟩
            · obtain ⟨rest, d, htoken⟩ :=
                (List.eq_nil_or_concat _).resolve_left (token_ne_nil old new before [])
              rw [List.concat_eq_append] at htoken
              have hmem : d ∈ token old.text new.text before [] := by simp [htoken]
              refine ⟨before ++ rest, d, ?_, token_inPlace old new hmem⟩
              simp only [htoken, replaceIpToken_nil, List.append_nil, List.append_assoc]
            · rw [List.concat_eq_append, ← List.append_assoc] at htext
              obtain ⟨hfront, hlast⟩ := List.append_inj' htext rfl
              obtain rfl := List.singleton_inj.mp hlast
              have hshorter : front.length < length := by
                have hparts := congrArg List.length hfront
                have hpos := List.length_pos_of_ne_nil old.ne_nil
                simp only [List.length_append] at hparts
                omega
              obtain ⟨rest, d, hrest, hplace⟩ := ih front.length hshorter front rfl
              refine ⟨before ++ (token old.text new.text before (front ++ [c]) ++ rest), d, ?_,
                hplace⟩
              rw [List.concat_eq_append]
              simp only [hrest, List.append_assoc]

variable {old new} {test : Char → Bool}

theorem not_inPlace (htest : PlainTest test) {c d : Char} (hplace : InPlace c d)
    (hc : test c = false) : test d = false := by
  rcases hplace with rfl | hdigit | rfl
  · exact hc
  · by_contra hd
    rw [(htest d (by simpa using hd)).1] at hdigit
    exact Bool.false_ne_true hdigit
  · by_contra hd
    exact (htest '.' (by simpa using hd)).2 rfl

theorem dropWhile_replaceIpToken (htest : PlainTest test) (text : Text) :
    (replaceIpToken text old.text new.text).dropWhile test =
      replaceIpToken (text.dropWhile test) old.text new.text := by
  induction text with
  | nil => simp [replaceIpToken_nil]
  | cons c text ih =>
      cases hc : test c with
      | true =>
          obtain ⟨hdigit, hdot⟩ := htest c hc
          rw [replaceIpToken_cons old new hdigit hdot, List.dropWhile_cons_of_pos hc,
            List.dropWhile_cons_of_pos hc, ih]
      | false =>
          obtain ⟨d, rest, hrest, hplace⟩ := replaceIpToken_head old new c text
          have hd := not_inPlace htest hplace hc
          rw [List.dropWhile_cons_of_neg (by simp [hc]), hrest,
            List.dropWhile_cons_of_neg (by simp [hd])]

theorem rdropWhile_replaceIpToken (htest : PlainTest test) (text : Text) :
    (replaceIpToken text old.text new.text).rdropWhile test =
      replaceIpToken (text.rdropWhile test) old.text new.text := by
  induction text using List.reverseRecOn with
  | nil => simp [replaceIpToken_nil]
  | append_singleton text c ih =>
      cases hc : test c with
      | true =>
          obtain ⟨hdigit, hdot⟩ := htest c hc
          rw [replaceIpToken_split old new c hdigit hdot, replaceIpToken_nil,
            List.rdropWhile_concat_pos _ _ _ hc, List.rdropWhile_concat_pos _ _ _ hc, ih]
      | false =>
          obtain ⟨rest, d, hrest, hplace⟩ := replaceIpToken_last old new text c
          have hd := not_inPlace htest hplace hc
          rw [List.rdropWhile_concat_neg _ _ _ (by simp [hc]), hrest,
            List.rdropWhile_concat_neg _ _ _ (by simp [hd])]

theorem trim_replaceIpToken (text : Text) :
    trim (replaceIpToken text old.text new.text) =
      replaceIpToken (trim text) old.text new.text := by
  rw [trim, trimStart, dropWhile_replaceIpToken white_test, trimEnd,
    rdropWhile_replaceIpToken white_test]
  rfl

end Ends

section Fronts

variable {old new : Address} {pattern : Text}

theorem isPrefixOf?_replaceIpToken (hplain : Plain pattern) (text : Text) :
    pattern.isPrefixOf? (replaceIpToken text old.text new.text) =
      (pattern.isPrefixOf? text).map fun rest => replaceIpToken rest old.text new.text := by
  induction pattern generalizing text with
  | nil => rfl
  | cons first pattern ih =>
      obtain ⟨hdigit, hdot⟩ := hplain first List.mem_cons_self
      have hrest : Plain pattern := fun c hc => hplain c (List.mem_cons_of_mem _ hc)
      cases text with
      | nil => rw [replaceIpToken_nil]; rfl
      | cons c text =>
          by_cases hc : first = c
          · rw [← hc, replaceIpToken_cons old new hdigit hdot]
            simpa [List.isPrefixOf?] using ih hrest text
          · obtain ⟨d, rest, hd, hplace⟩ := replaceIpToken_head old new c text
            have hne : first ≠ d := by
              rintro rfl
              rcases hplace with h | h | h
              · exact hc h
              · exact Bool.false_ne_true (hdigit ▸ h)
              · exact hdot h
            rw [hd]
            simp [List.isPrefixOf?, hc, hne]

/-- A rewriting makes no text without digits and dots. -/
theorem replaceIpToken_eq_plain (hplain : Plain pattern) {text : Text} :
    replaceIpToken text old.text new.text = pattern ↔ text = pattern := by
  constructor
  · intro hsame
    have hfront := @isPrefixOf?_replaceIpToken old new _ hplain text
    have hself : pattern.isPrefixOf? pattern = some [] :=
      List.isPrefixOf?_eq_some_iff_append_eq.mpr (List.append_nil _)
    rw [hsame, hself, eq_comm, Option.map_eq_some_iff] at hfront
    obtain ⟨rest, hrest, hnil⟩ := hfront
    rw [(replaceIpToken_eq_nil old new).mp hnil] at hrest
    exact ((List.append_nil _).symm.trans (List.isPrefixOf?_eq_some_iff_append_eq.mp hrest)).symm
  · rintro rfl
    have hfront := replaceIpToken_plain_append old new hplain []
    rwa [replaceIpToken_nil, List.append_nil] at hfront

theorem trimStartMatches_go_enough (hnil : pattern ≠ []) {fuel more : Nat} {text : Text}
    (hfuel : text.length ≤ fuel) (hmore : text.length ≤ more) :
    trimStartMatches.go pattern fuel text = trimStartMatches.go pattern more text := by
  induction fuel generalizing more text with
  | zero =>
      obtain rfl := List.length_eq_zero_iff.mp (Nat.le_zero.mp hfuel)
      have hempty : ¬ pattern <+: [] := fun h => hnil (List.prefix_nil.mp h)
      have hgo := trimStartMatches_go_of_not_prefix hempty more
      exact hgo.symm
  | succ fuel ih =>
      by_cases hfront : pattern <+: text
      · obtain ⟨rest, rfl⟩ := hfront
        have hpos := List.length_pos_of_ne_nil hnil
        rw [List.length_append] at hfuel hmore
        obtain ⟨more, rfl⟩ : ∃ n, more = n + 1 := ⟨more - 1, by omega⟩
        have hself : pattern.isPrefixOf? (pattern ++ rest) = some rest :=
          List.isPrefixOf?_eq_some_iff_append_eq.mpr rfl
        simp only [trimStartMatches.go, hself]
        exact ih (by omega) (by omega)
      · have hgo := trimStartMatches_go_of_not_prefix hfront
        rw [hgo, hgo]

theorem trimStartMatches_replaceIpToken (hplain : Plain pattern) (hnil : pattern ≠ [])
    (text : Text) :
    trimStartMatches pattern (replaceIpToken text old.text new.text) =
      replaceIpToken (trimStartMatches pattern text) old.text new.text := by
  have hgo : ∀ fuel text, trimStartMatches.go pattern fuel
      (replaceIpToken text old.text new.text) =
        replaceIpToken (trimStartMatches.go pattern fuel text) old.text new.text := by
    intro fuel
    induction fuel with
    | zero => exact fun _ => rfl
    | succ fuel ih =>
        intro text
        rw [trimStartMatches.go, trimStartMatches.go, isPrefixOf?_replaceIpToken hplain]
        cases pattern.isPrefixOf? text with
        | none => rfl
        | some rest => exact ih rest
  have hlonger := Nat.le_max_left (replaceIpToken text old.text new.text).length text.length
  have hshorter := Nat.le_max_right (replaceIpToken text old.text new.text).length text.length
  rw [trimStartMatches, trimStartMatches_go_enough hnil le_rfl hlonger, hgo,
    trimStartMatches_go_enough hnil hshorter le_rfl, ← trimStartMatches]

end Fronts

section Splits

variable {old new : Address} {separator : Char}

theorem splitOnce_replaceIpToken (hdigit : separator.isDigit = false) (hdot : separator ≠ '.')
    (text : Text) : splitOnce separator (replaceIpToken text old.text new.text) =
      (splitOnce separator text).map fun around =>
        (replaceIpToken around.1 old.text new.text,
          replaceIpToken around.2 old.text new.text) := by
  by_cases hmem : separator ∈ text
  · obtain ⟨before, after, rfl, hbefore⟩ := List.eq_append_cons_of_mem hmem
    rw [replaceIpToken_split old new separator hdigit hdot, splitOnce_append hbefore,
      splitOnce_append (notMem_replaceIpToken old new hdigit hdot hbefore)]
    rfl
  · have hnone : ∀ text : Text, separator ∉ text → splitOnce separator text = none :=
      fun _ h => cut_eq_none_of_notMem h
    rw [hnone _ hmem, hnone _ (notMem_replaceIpToken old new hdigit hdot hmem)]
    rfl

theorem splitOn_replaceIpToken (hdigit : separator.isDigit = false) (hdot : separator ≠ '.')
    (text : Text) : (replaceIpToken text old.text new.text).splitOn separator =
      (text.splitOn separator).map fun piece => replaceIpToken piece old.text new.text := by
  induction text using pieceByPiece separator with
  | last text hlast =>
      rw [List.splitOn_eq_singleton hlast,
        List.splitOn_eq_singleton (notMem_replaceIpToken old new hdigit hdot hlast)]
      rfl
  | next piece rest hpiece ih =>
      rw [replaceIpToken_split old new separator hdigit hdot,
        List.splitOn_append_cons_self_of_not_mem hpiece,
        List.splitOn_append_cons_self_of_not_mem
          (notMem_replaceIpToken old new hdigit hdot hpiece), ih, List.map_cons]

end Splits

end PertiskKos.Etcd
