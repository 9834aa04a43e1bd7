import PertiskKos.Etcd.Address
import PertiskKos.Library.Search

/-!
# Replacing an address with a look at the whole text

`replaceIpToken` goes on behind every occurrence of the old address that it has found, and
looks for the digit in front of the next one in what is left of the text only.  It is compared
with a scan that looks at the text itself.
-/

namespace PertiskKos.Etcd

open Strings

/-- An IPv4 address as it is written: four numbers with dots between them. -/
structure DottedQuad where
  text : Text
  digits : ∀ c ∈ text, c.isDigit = true ∨ c = '.'
  dots : text.count '.' = 3
  starts : startsWithDigit text = true
  ends : endsInDigit text = true

def nextDigit (before : Option Char) : Bool := before.any Char.isDigit

/-- `old` stands at the front of `text`, and no digit stands next to it. -/
def bounded (old : Text) (before : Option Char) (text : Text) : Bool :=
  old.isPrefixOf text && !nextDigit before && !startsWithDigit (text.drop old.length)

/-- Replace the bounded occurrences of `old` from left to right.  `before` is the character in
front of the text; `skip` characters belong to an occurrence that has been replaced. -/
def replaceBounded (old new : Text) : Nat → Option Char → Text → Text
  | _, _, [] => []
  | skip + 1, _, c :: rest => replaceBounded old new skip (some c) rest
  | 0, before, c :: rest =>
      if bounded old before (c :: rest) then
        new ++ replaceBounded old new (old.length - 1) (some c) rest
      else c :: replaceBounded old new 0 (some c) rest

/-- The last character of `front`, or the one before it. -/
def lastOf (before : Option Char) (front : Text) : Option Char := front.getLast?.or before

/-- `replaceIpToken` takes the occurrences of the address for what they are: of the occurrences
that are found one behind the other, one that starts where the last one ended has a digit
behind it, and one with a digit next to it has no bounded occurrence start inside it. -/
inductive TokensApart (old : Text) : Option Char → Text → Prop
  | done {before : Option Char} {text : Text} (hnone : cut old text = none) :
      TokensApart old before text
  | next {before : Option Char} {text front after : Text}
      (hfound : cut old text = some (front, after))
      (htouching : front = [] → nextDigit before = true → startsWithDigit after = true)
      (hinside : bounded old (lastOf before front) (old ++ after) = false →
        ∀ left right, left ++ right = old → right ≠ [] →
          bounded old (lastOf (lastOf before front) left) (right ++ after) = false)
      (hrest : TokensApart old old.getLast? after) : TokensApart old before text

section Scan

variable {old new : Text} {before : Option Char}

theorem startsWithDigit_append {front : Text} (hfront : front ≠ []) (rest : Text) :
    startsWithDigit (front ++ rest) = startsWithDigit front := by
  cases front with
  | nil => exact absurd rfl hfront
  | cons c front => rfl

theorem bounded_append (rest : Text) : bounded old before (old ++ rest) =
    (!nextDigit before && !startsWithDigit rest) := by
  have hfront : old.isPrefixOf (old ++ rest) = true :=
    List.isPrefixOf_iff_prefix.mpr (List.prefix_append old rest)
  rw [bounded, hfront, List.drop_left, Bool.true_and]

theorem exists_of_bounded {text : Text} (hbounded : bounded old before text = true) :
    ∃ rest, text = old ++ rest ∧ nextDigit before = false ∧ startsWithDigit rest = false := by
  simp only [bounded, Bool.and_eq_true, Bool.not_eq_true', List.isPrefixOf_iff_prefix]
    at hbounded
  obtain ⟨⟨⟨rest, rfl⟩, hbefore⟩, hafter⟩ := hbounded
  rw [List.drop_left] at hafter
  exact ⟨rest, rfl, hbefore, hafter⟩

theorem lastOf_cons (before : Option Char) (c : Char) (front : Text) :
    lastOf before (c :: front) = lastOf (some c) front := by
  rw [lastOf, lastOf, List.getLast?_cons]
  cases front.getLast? <;> rfl

theorem replaceBounded_succ (skip : Nat) (c : Char) (rest : Text) :
    replaceBounded old new (skip + 1) before (c :: rest) =
      replaceBounded old new skip (some c) rest := rfl

theorem replaceBounded_zero (c : Char) (rest : Text) :
    replaceBounded old new 0 before (c :: rest) =
      if bounded old before (c :: rest) then
        new ++ replaceBounded old new (old.length - 1) (some c) rest
      else c :: replaceBounded old new 0 (some c) rest := rfl

theorem replaceBounded_skip (front rest : Text) :
    replaceBounded old new front.length before (front ++ rest) =
      replaceBounded old new 0 (lastOf before front) rest := by
  induction front generalizing before with
  | nil => rfl
  | cons c front ih =>
      rw [List.cons_append, List.length_cons, replaceBounded_succ, ih, lastOf_cons]

theorem replaceBounded_nil : replaceBounded old new 0 before [] = [] := rfl

/-- A bounded occurrence is replaced. -/
theorem replaceBounded_bounded (hold : old ≠ []) {rest : Text}
    (hbounded : bounded old before (old ++ rest) = true) :
    replaceBounded old new 0 before (old ++ rest) =
      new ++ replaceBounded old new 0 old.getLast? rest := by
  obtain ⟨c, tail, rfl⟩ := List.exists_cons_of_ne_nil hold
  have hskip := @replaceBounded_skip (c :: tail) new (some c) tail rest
  have hlast : lastOf (some c) tail = (c :: tail).getLast? := by
    rw [← lastOf_cons none, lastOf, Option.or_none]
  rw [List.cons_append] at hbounded ⊢
  rw [replaceBounded_zero, if_pos hbounded, List.length_cons, Nat.add_sub_cancel, hskip, hlast]

/-- What no bounded occurrence starts in is copied. -/
theorem replaceBounded_copy {front rest : Text}
    (hfree : ∀ left right, left ++ right = front → right ≠ [] →
      bounded old (lastOf before left) (right ++ rest) = false) :
    replaceBounded old new 0 before (front ++ rest) =
      front ++ replaceBounded old new 0 (lastOf before front) rest := by
  induction front generalizing before with
  | nil => rfl
  | cons c front ih =>
      have hfirst := hfree [] (c :: front) rfl (List.cons_ne_nil _ _)
      have hrest := @ih (some c) fun left right hsplit hright => by
        rw [← lastOf_cons]
        exact hfree (c :: left) right (by rw [← hsplit]; rfl) hright
      rw [List.cons_append, replaceBounded_zero]
      rw [List.cons_append] at hfirst
      have hstart : bounded old before (c :: (front ++ rest)) = false := hfirst
      rw [hstart, hrest, ← lastOf_cons]
      rfl

/-- Either no bounded occurrence starts in `front`, or there is a first one. -/
theorem first_bounded (old : Text) (before : Option Char) (front rest : Text) :
    (∀ left right, left ++ right = front → right ≠ [] →
      bounded old (lastOf before left) (right ++ rest) = false) ∨
    ∃ left right, left ++ right = front ∧ right ≠ [] ∧
      bounded old (lastOf before left) (right ++ rest) = true ∧
      ∀ first second, first ++ second = left → second ≠ [] →
        bounded old (lastOf before first) (second ++ (right ++ rest)) = false := by
  induction front generalizing before with
  | nil =>
      left
      intro left right hsplit hright
      exact absurd (List.append_eq_nil_iff.mp hsplit).2 hright
  | cons c front ih =>
      cases hstart : bounded old before (c :: front ++ rest) with
      | true =>
          refine .inr ⟨[], c :: front, rfl, List.cons_ne_nil _ _, hstart, ?_⟩
          intro first second hsplit hsecond
          exact absurd (List.append_eq_nil_iff.mp hsplit).2 hsecond
      | false =>
          rcases ih (some c) with hfree | ⟨left, right, rfl, hright, hbounded, hfirst⟩
          · left
            intro left right hsplit hright
            cases left with
            | nil =>
                rw [List.nil_append] at hsplit
                rw [hsplit]
                exact hstart
            | cons d left =>
                obtain ⟨rfl, htail⟩ := List.cons.inj hsplit
                rw [lastOf_cons]
                exact hfree left right htail hright
          · refine .inr ⟨c :: left, right, rfl, hright, ?_, ?_⟩
            · rw [lastOf_cons]
              exact hbounded
            · intro first second hsplit hsecond
              cases first with
              | nil =>
                  rw [List.nil_append] at hsplit
                  rw [hsplit, List.cons_append, ← List.append_assoc]
                  exact hstart
              | cons d first =>
                  obtain ⟨rfl, htail⟩ := List.cons.inj hsplit
                  rw [lastOf_cons]
                  exact hfirst first second htail hsecond

/-- Where `old` is not found, nothing is bounded. -/
theorem bounded_of_cut_none {text : Text} (hnone : cut old text = none) (left right : Text)
    (hsplit : left ++ right = text) (hlook : Option Char) : bounded old hlook right = false := by
  rw [Bool.eq_false_iff]
  intro hbounded
  obtain ⟨rest, hright, -, -⟩ := exists_of_bounded hbounded
  rw [cut_eq_none_iff] at hnone
  exact hnone ⟨left, rest, by rw [← hsplit, hright, List.append_assoc]⟩

end Scan

section Words

variable {A : Type} {left right word : List A}

/-- Two lists that repeat one word are prefixes of one another. -/
theorem prefix_or_prefix_of_repeat (hword : word ≠ []) (hleft : left <+: word ++ left)
    (hright : right <+: word ++ right) : left <+: right ∨ right <+: left := by
  induction hlength : left.length using Nat.strong_induction_on generalizing left right with
  | _ length ih =>
      have hpos := List.length_pos_of_ne_nil hword
      have hfront : word <+: word ++ right := List.prefix_append word right
      by_cases hshort : left.length ≤ word.length
      · have hinside : left <+: word :=
          List.prefix_of_prefix_length_le hleft (List.prefix_append word left) hshort
        exact List.prefix_or_prefix_of_prefix (hinside.trans hfront) hright
      · by_cases hother : right.length ≤ word.length
        · have hinside : right <+: word :=
            List.prefix_of_prefix_length_le hright hfront hother
          exact List.prefix_or_prefix_of_prefix hleft
            (hinside.trans (List.prefix_append word left))
        · obtain ⟨leftRest, rfl⟩ := List.prefix_of_prefix_length_le
            (List.prefix_append word left) hleft (by omega)
          obtain ⟨rightRest, rfl⟩ := List.prefix_of_prefix_length_le hfront hright (by omega)
          rw [List.prefix_append_right_inj] at hleft hright
          rw [List.length_append] at hlength
          exact (ih leftRest.length (by omega) hleft hright rfl).imp
            (List.prefix_append_right_inj word).mpr (List.prefix_append_right_inj word).mpr

end Words

section Quads

variable {old new : DottedQuad}

theorem DottedQuad.ne_nil (quad : DottedQuad) : quad.text ≠ [] := by
  intro hnil
  have hstarts := quad.starts
  rw [hnil] at hstarts
  cases hstarts

/-- What is left of an address when another one is taken off starts with a digit. -/
theorem startsWithDigit_of_append {rest : Text} (hquad : old.text = new.text ++ rest)
    (hrest : rest ≠ []) : startsWithDigit rest = true := by
  obtain ⟨c, rest, rfl⟩ := List.exists_cons_of_ne_nil hrest
  have hdots := old.dots
  rw [hquad, List.count_append, new.dots] at hdots
  have hmem : c ∈ old.text := by simp [hquad]
  rcases old.digits c hmem with hdigit | rfl
  · exact hdigit
  · rw [List.count_cons_self] at hdots
    omega

/-- A text starts with one address only, if no digit follows. -/
theorem address_append_ne (hne : old.text ≠ new.text) {left right : Text}
    (hleft : startsWithDigit left = false) (hright : startsWithDigit right = false) :
    new.text ++ left ≠ old.text ++ right := by
  intro htext
  rcases List.append_eq_append_iff.mp htext with ⟨rest, hold, hrest⟩ | ⟨rest, hnew, hrest⟩
  · by_cases hnil : rest = []
    · exact hne (by rw [hold, hnil, List.append_nil])
    · rw [hrest, startsWithDigit_append hnil, startsWithDigit_of_append hold hnil] at hleft
      cases hleft
  · by_cases hnil : rest = []
    · exact hne (by rw [hnew, hnil, List.append_nil])
    · rw [hrest, startsWithDigit_append hnil, startsWithDigit_of_append hnew hnil] at hright
      cases hright

/-- Nor is it at once an address and, behind a part of the other address, the same one. -/
theorem address_shift_ne (hne : old.text ≠ new.text) {word tail left right : Text}
    (hword : word ≠ []) (hshift : word ++ old.text = old.text ++ tail)
    (htail : startsWithDigit tail = false) (hleft : startsWithDigit left = false) :
    new.text ++ left ≠ word ++ (new.text ++ right) := by
  intro htext
  have htailNe : tail ≠ [] := by
    have hlength := congrArg List.length hshift
    rw [List.length_append, List.length_append] at hlength
    have hpos := List.length_pos_of_ne_nil hword
    exact List.ne_nil_of_length_pos (by omega)
  have hnewRepeat : new.text <+: word ++ new.text := by
    apply @List.prefix_of_prefix_length_le _ _ _ (new.text ++ left)
    · exact List.prefix_append _ _
    · exact ⟨right, by rw [htext, List.append_assoc]⟩
    · rw [List.length_append]
      omega
  have holdRepeat : old.text <+: word ++ old.text := ⟨tail, hshift.symm⟩
  rcases prefix_or_prefix_of_repeat hword holdRepeat hnewRepeat with
    ⟨rest, hnew⟩ | ⟨rest, hold⟩
  · -- the old address is the shorter one, and a digit follows it in `new`
    have hnil : rest ≠ [] := fun hnil => hne (by rw [← hnew, hnil, List.append_nil])
    have hdigit := startsWithDigit_of_append hnew.symm hnil
    have hsame : rest ++ left = tail ++ (rest ++ right) := by
      have hboth : old.text ++ (rest ++ left) = old.text ++ (tail ++ (rest ++ right)) := by
        calc old.text ++ (rest ++ left) = new.text ++ left := by
              rw [← hnew, List.append_assoc]
          _ = word ++ (new.text ++ right) := htext
          _ = word ++ old.text ++ (rest ++ right) := by
              rw [← hnew]
              simp only [List.append_assoc]
          _ = old.text ++ (tail ++ (rest ++ right)) := by rw [hshift, List.append_assoc]
      exact List.append_cancel_left hboth
    have hhead := congrArg startsWithDigit hsame
    rw [startsWithDigit_append hnil, startsWithDigit_append htailNe, hdigit, htail] at hhead
    cases hhead
  · -- the new address is the shorter one, and a digit follows it in `old`
    have hnil : rest ≠ [] := fun hnil => hne (by rw [← hold, hnil, List.append_nil])
    have hdigit := startsWithDigit_of_append hold.symm hnil
    obtain ⟨more, hmore⟩ := hnewRepeat
    have hmoreNe : more ≠ [] := by
      have hlength := congrArg List.length hmore
      rw [List.length_append, List.length_append] at hlength
      have hpos := List.length_pos_of_ne_nil hword
      exact List.ne_nil_of_length_pos (by omega)
    have hleftMore : left = more ++ right := by
      apply @List.append_cancel_left _ new.text
      rw [htext, ← List.append_assoc, ← hmore, List.append_assoc]
    have hsame : more ++ rest = rest ++ tail := by
      apply @List.append_cancel_left _ new.text
      rw [← List.append_assoc, hmore, List.append_assoc, hold, hshift, ← hold,
        List.append_assoc]
    have hhead := congrArg startsWithDigit hsame
    rw [startsWithDigit_append hmoreNe, startsWithDigit_append hnil, hdigit] at hhead
    rw [hleftMore, startsWithDigit_append hmoreNe, hhead] at hleft
    cases hleft

end Quads

section Compare

variable {old new : DottedQuad} {before : Option Char} {text front after : Text}

theorem startsWithDigit_quad (rest : Text) : startsWithDigit (old.text ++ rest) = true := by
  rw [startsWithDigit_append old.ne_nil]
  exact old.starts

theorem replaceBounded_nonDigit (htext : startsWithDigit text = false) :
    startsWithDigit (replaceBounded old.text new.text 0 before text) = false := by
  cases text with
  | nil => rw [replaceBounded_nil]; rfl
  | cons c rest =>
      have hnot : bounded old.text before (c :: rest) = false := by
        rw [Bool.eq_false_iff]
        intro hbounded
        obtain ⟨tail, htail, -, -⟩ := exists_of_bounded hbounded
        rw [htail, startsWithDigit_quad] at htext
        cases htext
      rw [replaceBounded_zero, hnot]
      exact htext

/-- Where a text is taken apart by `replaceIpToken`. -/
theorem replaceIpToken_some (hne : old.text ≠ new.text)
    (hfound : cut old.text text = some (front, after)) :
    replaceIpToken text old.text new.text =
      front ++ token old.text new.text front after ++
        replaceIpToken after old.text new.text := by
  rw [replaceIpToken_cut old.ne_nil hne, hfound]

theorem replaceIpToken_none (hne : old.text ≠ new.text) (hnone : cut old.text text = none) :
    replaceIpToken text old.text new.text = text := by
  rw [replaceIpToken_cut old.ne_nil hne, hnone]

theorem replaceIpToken_nonDigit (hne : old.text ≠ new.text)
    (htext : startsWithDigit text = false) :
    startsWithDigit (replaceIpToken text old.text new.text) = false := by
  cases hcut : cut old.text text with
  | none => rw [replaceIpToken_none hne hcut, htext]
  | some around =>
      obtain ⟨front, after⟩ := around
      have hsplit : text = front ++ old.text ++ after := cut_append hcut
      have hfront : front ≠ [] := by
        rintro rfl
        rw [hsplit, List.nil_append, startsWithDigit_quad] at htext
        cases htext
      rw [hsplit, List.append_assoc, startsWithDigit_append hfront] at htext
      rw [replaceIpToken_some hne hcut, List.append_assoc, startsWithDigit_append hfront, htext]

/-- In front of the first occurrence the scan copies. -/
theorem replaceBounded_front (hfound : cut old.text text = some (front, after)) :
    replaceBounded old.text new.text 0 before text =
      front ++ replaceBounded old.text new.text 0 (lastOf before front) (old.text ++ after) := by
  have hsplit : text = front ++ old.text ++ after := cut_append hfound
  rw [hsplit, List.append_assoc]
  apply replaceBounded_copy
  intro left right hfront hright
  rw [Bool.eq_false_iff]
  intro hbounded
  obtain ⟨rest, hrest, -, -⟩ := exists_of_bounded hbounded
  have hearlier : front.length ≤ left.length := by
    apply @cut_leftmost _ _ _ _ _ _ hfound _ rest
    rw [hsplit, ← hfront, List.append_assoc, List.append_assoc, hrest, List.append_assoc]
  rw [← hfront, List.length_append] at hearlier
  exact hright (List.length_eq_zero_iff.mp (by omega))

/-- Behind an occurrence that it has left alone, `replaceIpToken` does not come upon a bounded
occurrence that starts inside it. -/
theorem overlap_missed (hne : old.text ≠ new.text) {right tail other : Text}
    (hright : right ≠ []) (hoverlap : right ++ after = old.text ++ tail)
    (htail : startsWithDigit tail = false) (hother : startsWithDigit other = false) :
    new.text ++ other ≠ right ++ replaceIpToken after old.text new.text := by
  cases hcut : cut old.text after with
  | none =>
      rw [replaceIpToken_none hne hcut, hoverlap]
      exact address_append_ne hne hother htail
  | some around =>
      obtain ⟨front, last⟩ := around
      have hafter : after = front ++ old.text ++ last := cut_append hcut
      have hword : right ++ front ≠ [] := by simp [hright]
      have hsplit : (right ++ front) ++ (old.text ++ last) = old.text ++ tail := by
        rw [← hoverlap, hafter]
        simp only [List.append_assoc]
      rw [replaceIpToken_some hne hcut]
      rcases List.append_eq_append_iff.mp hsplit with
        ⟨middle, hold, hlast⟩ | ⟨middle, hwhole, htailSplit⟩
      · -- the next occurrence starts inside the bounded one
        obtain ⟨beyond, hbeyond, hbeyondTail⟩ : ∃ beyond,
            (right ++ front) ++ old.text = old.text ++ beyond ∧ tail = beyond ++ last := by
          have hsame : (right ++ front ++ old.text) ++ last = old.text ++ tail := by
            rw [List.append_assoc]
            exact hsplit
          rcases List.append_eq_append_iff.mp hsame with ⟨more, hmore, -⟩ | ⟨more, hmore, htl⟩
          · have hlength := congrArg List.length hmore
            have hpos := List.length_pos_of_ne_nil hword
            rw [List.length_append, List.length_append] at hlength
            omega
          · exact ⟨more, hmore, htl⟩
        have hbeyondNe : beyond ≠ [] := by
          have hlength := congrArg List.length hbeyond
          have hpos := List.length_pos_of_ne_nil hword
          simp only [List.length_append] at hlength hpos
          exact List.ne_nil_of_length_pos (by omega)
        have hbeyondDigit : startsWithDigit beyond = false := by
          rw [hbeyondTail, startsWithDigit_append hbeyondNe] at htail
          exact htail
        rw [token]
        split
        · have hshift := @address_shift_ne _ _ hne _ _ _
            (replaceIpToken last old.text new.text) hword hbeyond hbeyondDigit hother
          simpa only [List.append_assoc] using hshift
        · have hcopy : right ++ (front ++ old.text ++ replaceIpToken last old.text new.text) =
              old.text ++ (beyond ++ replaceIpToken last old.text new.text) := by
            calc right ++ (front ++ old.text ++ replaceIpToken last old.text new.text)
                = (right ++ front ++ old.text) ++ replaceIpToken last old.text new.text := by
                  simp only [List.append_assoc]
              _ = old.text ++ (beyond ++ replaceIpToken last old.text new.text) := by
                  rw [hbeyond, List.append_assoc]
          rw [hcopy]
          apply address_append_ne hne hother
          rw [startsWithDigit_append hbeyondNe, hbeyondDigit]
      · -- the next occurrence starts behind the bounded one
        have hmiddle : middle ≠ [] := by
          rintro rfl
          rw [htailSplit, List.nil_append, startsWithDigit_quad] at htail
          cases htail
        have hmiddleDigit : startsWithDigit middle = false := by
          rw [htailSplit, startsWithDigit_append hmiddle] at htail
          exact htail
        have hcopy : right ++ (front ++ token old.text new.text front last ++
            replaceIpToken last old.text new.text) = old.text ++ (middle ++
              (token old.text new.text front last ++
                replaceIpToken last old.text new.text)) := by
          calc right ++ (front ++ token old.text new.text front last ++
                replaceIpToken last old.text new.text)
              = (right ++ front) ++ (token old.text new.text front last ++
                  replaceIpToken last old.text new.text) := by simp only [List.append_assoc]
            _ = old.text ++ (middle ++ (token old.text new.text front last ++
                  replaceIpToken last old.text new.text)) := by
                rw [hwhole, List.append_assoc]
        rw [hcopy]
        apply address_append_ne hne hother
        rw [startsWithDigit_append hmiddle, hmiddleDigit]

theorem nextDigit_lastOf (front : Text) :
    nextDigit (lastOf before front) =
      if front = [] then nextDigit before else endsInDigit front := by
  by_cases hfront : front = []
  · rw [if_pos hfront, hfront]
    rfl
  · rw [if_neg hfront, lastOf, List.getLast?_eq_some_getLast hfront, endsInDigit,
      List.getLast?_eq_some_getLast hfront]
    rfl

theorem token_eq (front after : Text) : token old.text new.text front after =
    if endsInDigit front = false ∧ startsWithDigit after = false then new.text
    else old.text := by
  rw [token]
  cases endsInDigit front <;> cases startsWithDigit after <;> rfl

/-- The first bounded occurrence that starts inside an occurrence. -/
theorem replaceBounded_first {left right tail : Text} (hsplit : left ++ right = old.text)
    (htail : right ++ after = old.text ++ tail)
    (hinside : bounded old.text (lastOf before left) (right ++ after) = true)
    (hfirst : ∀ first second, first ++ second = left → second ≠ [] →
      bounded old.text (lastOf before first) (second ++ (right ++ after)) = false) :
    replaceBounded old.text new.text 0 before (old.text ++ after) =
      left ++ (new.text ++ replaceBounded old.text new.text 0 old.text.getLast? tail) := by
  have hwhole : old.text ++ after = left ++ (right ++ after) := by
    rw [← List.append_assoc, hsplit]
  rw [hwhole, replaceBounded_copy hfirst, htail,
    replaceBounded_bounded old.ne_nil (htail ▸ hinside)]

/-- An occurrence that is replaced although a digit stands in front of it. -/
theorem hidden_digit_ne (hne : old.text ≠ new.text)
    (hbound : bounded old.text before (old.text ++ after) = false)
    (hafter : startsWithDigit after = false) :
    new.text ++ replaceIpToken after old.text new.text ≠
      replaceBounded old.text new.text 0 before (old.text ++ after) := by
  have hother := replaceIpToken_nonDigit hne hafter
  rcases first_bounded old.text before old.text after with
    hfree | ⟨left, right, hsplit, hright, hinside, hfirst⟩
  · rw [replaceBounded_copy hfree]
    exact address_append_ne hne hother (replaceBounded_nonDigit hafter)
  · obtain ⟨tail, htail, -, -⟩ := exists_of_bounded hinside
    have hleft : left ≠ [] := by
      rintro rfl
      rw [List.nil_append] at hsplit
      rw [hsplit] at hinside
      have hsame : lastOf before [] = before := rfl
      rw [hsame, hbound] at hinside
      cases hinside
    have hpos := List.length_pos_of_ne_nil hleft
    obtain ⟨beyond, hbeyond, hsame⟩ : ∃ beyond, left ++ old.text = old.text ++ beyond ∧
        after = beyond ++ tail := by
      have hwhole : (left ++ old.text) ++ tail = old.text ++ after := by
        rw [List.append_assoc, ← htail, ← List.append_assoc, hsplit]
      rcases List.append_eq_append_iff.mp hwhole with ⟨more, hmore, -⟩ | ⟨more, hmore, h⟩
      · have hlength := congrArg List.length hmore
        simp only [List.length_append] at hlength
        omega
      · exact ⟨more, hmore, h⟩
    have hbeyondNe : beyond ≠ [] := by
      have hlength := congrArg List.length hbeyond
      simp only [List.length_append] at hlength
      exact List.ne_nil_of_length_pos (by omega)
    rw [hsame, startsWithDigit_append hbeyondNe] at hafter
    rw [replaceBounded_first hsplit htail hinside hfirst]
    exact address_shift_ne hne hleft hbeyond hafter hother

/-- A bounded occurrence that starts inside one that is left alone. -/
theorem overlap_ne (hne : old.text ≠ new.text) {left right : Text}
    (hsplit : left ++ right = old.text) (hright : right ≠ [])
    (hinside : bounded old.text (lastOf before left) (right ++ after) = true)
    (hfirst : ∀ first second, first ++ second = left → second ≠ [] →
      bounded old.text (lastOf before first) (second ++ (right ++ after)) = false) :
    old.text ++ replaceIpToken after old.text new.text ≠
      replaceBounded old.text new.text 0 before (old.text ++ after) := by
  obtain ⟨tail, htail, -, htailDigit⟩ := exists_of_bounded hinside
  have hwhole : old.text ++ replaceIpToken after old.text new.text =
      left ++ (right ++ replaceIpToken after old.text new.text) := by
    rw [← List.append_assoc, hsplit]
  rw [replaceBounded_first hsplit htail hinside hfirst, hwhole, Ne, List.append_cancel_left_eq]
  exact fun hsame => overlap_missed hne hright htail htailDigit
    (replaceBounded_nonDigit htailDigit) hsame.symm

/-- What the two make of an occurrence that `replaceIpToken` has found. -/
theorem occurrence_iff (hne : old.text ≠ new.text)
    (hrest : replaceIpToken after old.text new.text =
        replaceBounded old.text new.text 0 old.text.getLast? after ↔
      TokensApart old.text old.text.getLast? after) :
    token old.text new.text front after ++ replaceIpToken after old.text new.text =
        replaceBounded old.text new.text 0 (lastOf before front) (old.text ++ after) ↔
      (front = [] → nextDigit before = true → startsWithDigit after = true) ∧
      (bounded old.text (lastOf before front) (old.text ++ after) = false →
        ∀ left right, left ++ right = old.text → right ≠ [] →
          bounded old.text (lastOf (lastOf before front) left) (right ++ after) = false) ∧
      TokensApart old.text old.text.getLast? after := by
  have hbounded := @bounded_append old.text (lastOf before front) after
  have hlook := @nextDigit_lastOf before front
  rw [token_eq]
  cases hbound : bounded old.text (lastOf before front) (old.text ++ after) with
  | true =>
      rw [hbound] at hbounded
      obtain ⟨hplain, hafter⟩ : nextDigit (lastOf before front) = false ∧
          startsWithDigit after = false := by simpa using hbounded.symm
      rw [hlook] at hplain
      have hfront : endsInDigit front = false := by
        by_cases hnil : front = []
        · rw [hnil]
          rfl
        · rwa [if_neg hnil] at hplain
      have htouching : front = [] → nextDigit before = true → startsWithDigit after = true := by
        intro hnil hdigit
        rw [if_pos hnil, hdigit] at hplain
        cases hplain
      rw [if_pos ⟨hfront, hafter⟩, replaceBounded_bounded old.ne_nil hbound,
        List.append_cancel_left_eq, hrest]
      exact ⟨fun hapart => ⟨htouching, nofun, hapart⟩, fun hapart => hapart.2.2⟩
  | false =>
      rw [hbound] at hbounded
      by_cases htoken : endsInDigit front = false ∧ startsWithDigit after = false
      · have hhidden : front = [] ∧ nextDigit before = true := by
          by_contra hnot
          have hplain : nextDigit (lastOf before front) = false := by
            rw [hlook]
            split
            · rename_i hnil
              exact Bool.eq_false_iff.mpr fun hdigit => hnot ⟨hnil, hdigit⟩
            · exact htoken.1
          rw [hplain, htoken.2] at hbounded
          cases hbounded
        rw [if_pos htoken]
        constructor
        · exact fun hsame => absurd hsame (hidden_digit_ne hne hbound htoken.2)
        · intro hapart
          have hdigit := hapart.1 hhidden.1 hhidden.2
          rw [htoken.2] at hdigit
          cases hdigit
      · have htouching : front = [] → nextDigit before = true →
            startsWithDigit after = true := by
          intro hnil _
          by_contra hdigit
          exact htoken ⟨by rw [hnil]; rfl, Bool.eq_false_iff.mpr hdigit⟩
        rw [if_neg htoken]
        rcases first_bounded old.text (lastOf before front) old.text after with
          hfree | ⟨left, right, hsplit, hright, hinside, hfirst⟩
        · have hlast : lastOf (lastOf before front) old.text = old.text.getLast? := by
            rw [lastOf, List.getLast?_eq_some_getLast old.ne_nil]
            rfl
          rw [replaceBounded_copy hfree, List.append_cancel_left_eq, hlast, hrest]
          exact ⟨fun hapart => ⟨htouching, fun _ => hfree, hapart⟩, fun hapart => hapart.2.2⟩
        · constructor
          · exact fun hsame => absurd hsame (overlap_ne hne hsplit hright hinside hfirst)
          · intro hapart
            have hfree := hapart.2.1 rfl left right hsplit hright
            rw [hinside] at hfree
            cases hfree

/-- The comparison, whatever stands in front of the text. -/
theorem replaceIpToken_eq_iff (hne : old.text ≠ new.text) (before : Option Char)
    (text : Text) :
    replaceIpToken text old.text new.text =
        replaceBounded old.text new.text 0 before text ↔ TokensApart old.text before text := by
  induction hlength : text.length using Nat.strong_induction_on generalizing before text with
  | _ length ih =>
      cases hcut : cut old.text text with
      | none =>
          have hcopy := @replaceBounded_copy old.text new.text before text [] fun left right hsplit _ => by
              rw [List.append_nil]
              exact bounded_of_cut_none hcut left right hsplit _
          rw [List.append_nil, replaceBounded_nil, List.append_nil] at hcopy
          rw [replaceIpToken_none hne hcut, hcopy]
          exact ⟨fun _ => .done hcut, fun _ => rfl⟩
      | some around =>
          obtain ⟨front, after⟩ := around
          have hparts := congrArg List.length (cut_append hcut)
          have hpos := List.length_pos_of_ne_nil old.ne_nil
          simp only [List.length_append] at hparts
          have hrest := ih after.length (by omega) old.text.getLast? after rfl
          rw [replaceIpToken_some hne hcut, replaceBounded_front hcut, List.append_assoc,
            List.append_cancel_left_eq, occurrence_iff hne hrest]
          constructor
          · exact fun hapart => .next hcut hapart.1 hapart.2.1 hapart.2.2
          · intro hapart
            cases hapart with
            | done hnone => rw [hcut] at hnone; cases hnone
            | next hfound htouching hinside hlater =>
                rw [hcut] at hfound
                cases hfound
                exact ⟨htouching, hinside, hlater⟩

theorem replaceBounded_self (before : Option Char) (text : Text) :
    replaceBounded old.text old.text 0 before text = text := by
  induction hlength : text.length using Nat.strong_induction_on generalizing before text with
  | _ length ih =>
      rcases first_bounded old.text before text [] with
        hfree | ⟨left, right, hsplit, hright, hinside, hfirst⟩
      · have hcopy := @replaceBounded_copy _ old.text _ _ _ hfree
        rwa [List.append_nil, replaceBounded_nil, List.append_nil] at hcopy
      · obtain ⟨tail, htail, -, -⟩ := exists_of_bounded hinside
        rw [List.append_nil] at htail hinside hfirst
        have hpos := List.length_pos_of_ne_nil old.ne_nil
        have hparts := congrArg List.length htail
        rw [← hsplit] at hlength
        simp only [List.length_append] at hparts hlength
        rw [← hsplit, replaceBounded_copy hfirst, htail,
          replaceBounded_bounded old.ne_nil (htail ▸ hinside),
          ih tail.length (by omega) _ tail rfl]

/-- The two agree exactly when nothing is to be replaced or `replaceIpToken` takes the
occurrences for what they are. -/
theorem replace_ip_token_iff (text : Text) (old new : DottedQuad) :
    replaceIpToken text old.text new.text =
        replaceBounded old.text new.text 0 none text ↔
      old.text = new.text ∨ TokensApart old.text none text := by
  by_cases hsame : old.text = new.text
  · have hcopy : replaceIpToken text old.text new.text = text := by
      rw [replaceIpToken, if_pos (.inr hsame)]
    rw [hcopy, ← hsame, replaceBounded_self]
    simp
  · rw [replaceIpToken_eq_iff hsame]
    simp [hsame]

end Compare

section Touching

def quadOne : DottedQuad := ⟨"10.1.1.1".toList, by decide, by decide, by decide, by decide⟩

def quadNine : DottedQuad := ⟨"10.1.1.9".toList, by decide, by decide, by decide, by decide⟩

/-- Of two addresses with nothing between them the second one is replaced. -/
theorem touching_token_replaced : ¬ ∀ (text : Text) (old new : DottedQuad),
    replaceIpToken text old.text new.text = replaceBounded old.text new.text 0 none text := by
  intro hclaim
  have htouching : replaceIpToken "10.1.1.110.1.1.1".toList quadOne.text quadNine.text ≠
      replaceBounded quadOne.text quadNine.text 0 none "10.1.1.110.1.1.1".toList := by
    decide +kernel
  exact htouching (hclaim _ quadOne quadNine)

example : replaceIpToken "11.1.1.1.1".toList "1.1.1.1".toList "1.1.1.9".toList =
      "11.1.1.1.1".toList ∧
    replaceBounded "1.1.1.1".toList "1.1.1.9".toList 0 none "11.1.1.1.1".toList =
      "11.1.1.1.9".toList := by decide +kernel

end Touching

end PertiskKos.Etcd
