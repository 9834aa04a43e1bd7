import PertiskKos.Library.Strings

/-!
# Where a pattern is found

`cut` finds the first occurrence.  It walks over whatever cannot begin one, and what follows
the occurrence has no say in where it is.
-/

namespace PertiskKos.Strings

section Search

variable {A : Type} [DecidableEq A] {pattern text before after : List A}

theorem cut_cons_of_not {c : A} (hnot : ¬ pattern <+: c :: text) :
    cut pattern (c :: text) =
      (cut pattern text).map fun around => (c :: around.1, around.2) := by
  have hnone : pattern.isPrefixOf? (c :: text) = none := by
    cases hfound : pattern.isPrefixOf? (c :: text) with
    | none => rfl
    | some rest =>
        exact absurd ⟨rest, List.append_eq_of_isPrefixOf?_eq_some hfound⟩ hnot
  rw [cut, hnone]

/-- The search walks over what does not have the first character of the pattern. -/
theorem cut_skip {c : A} {front : List A} (hfront : c ∉ front) (text : List A) :
    cut (c :: pattern) (front ++ text) =
      (cut (c :: pattern) text).map fun around => (front ++ around.1, around.2) := by
  induction front with
  | nil => simp
  | cons first front ih =>
      have hne : c ≠ first := fun h => hfront (h ▸ List.mem_cons_self)
      have hnot : ¬ c :: pattern <+: first :: (front ++ text) :=
        fun hpre => hne (List.cons_prefix_cons.mp hpre).1
      rw [List.cons_append, cut_cons_of_not hnot,
        ih fun h => hfront (List.mem_cons_of_mem _ h)]
      simp [Function.comp_def]

/-- The pattern is found at once where the text begins with it. -/
theorem cut_here (hnil : pattern ≠ []) (rest : List A) :
    cut pattern (pattern ++ rest) = some ([], rest) := by
  have hpre : pattern.isPrefixOf? (pattern ++ rest) = some rest :=
    List.isPrefixOf?_eq_some_iff_append_eq.mpr rfl
  obtain ⟨c, tail, rfl⟩ := List.exists_cons_of_ne_nil hnil
  rw [List.cons_append] at hpre ⊢
  rw [cut, hpre]

/-- More text behind does not move the first occurrence. -/
theorem cut_more (hnil : pattern ≠ []) (hcut : cut pattern text = some (before, after))
    (more : List A) : cut pattern (text ++ more) = some (before, after ++ more) := by
  induction text generalizing before with
  | nil => simp [cut, hnil] at hcut
  | cons c text ih =>
      by_cases hpre : pattern <+: c :: text
      · obtain ⟨rest, hrest⟩ := hpre
        rw [← hrest, cut_here hnil] at hcut
        obtain ⟨rfl, rfl⟩ := Prod.mk.inj (Option.some.inj hcut)
        rw [← hrest, List.append_assoc, cut_here hnil]
      · rw [cut_cons_of_not hpre] at hcut
        obtain ⟨⟨front, tail⟩, hfound, hsame⟩ := Option.map_eq_some_iff.mp hcut
        obtain ⟨rfl, rfl⟩ := Prod.mk.inj hsame
        have hnot : ¬ pattern <+: c :: (text ++ more) := by
          intro h
          have hlonger : pattern.length ≤ (c :: text).length := by
            have hsplit := congrArg List.length (cut_append hfound)
            simp only [List.length_append, List.length_cons] at hsplit ⊢
            omega
          refine hpre (List.prefix_of_prefix_length_le h ?_ hlonger)
          rw [← List.cons_append]
          exact List.prefix_append _ _
        rw [List.cons_append, cut_cons_of_not hnot, ih hfound]
        rfl

/-- The first occurrence is found. -/
theorem cut_leftmost {front : List A} (hfound : cut pattern text = some (front, after))
    {left rest : List A}
    (hsplit : text = left ++ pattern ++ rest) : front.length ≤ left.length := by
  induction text generalizing front left with
  | nil =>
      have hfront := (List.append_eq_nil_iff.mp (cut_append hfound).symm).1
      rw [(List.append_eq_nil_iff.mp hfront).1]
      exact Nat.zero_le _
  | cons head text ih =>
      cases hhead : pattern.isPrefixOf? (head :: text) with
      | some found =>
          simp only [cut, hhead, Option.some.injEq, Prod.mk.injEq] at hfound
          rw [← hfound.1]
          exact Nat.zero_le _
      | none =>
          simp only [cut, hhead, Option.map_eq_some_iff, Prod.mk.injEq] at hfound
          obtain ⟨around, hcut, rfl, rfl⟩ := hfound
          cases left with
          | nil =>
              have hfront := List.isPrefixOf?_eq_some_iff_append_eq.mpr hsplit.symm
              rw [List.nil_append, hhead] at hfront
              cases hfront
          | cons first left =>
              have htail : text = left ++ pattern ++ rest := (List.cons.inj hsplit).2
              have hrest := ih hcut htail
              rw [List.length_cons, List.length_cons]
              omega

/-- What is not inside of what ends with the pattern is found there. -/
theorem cut_first (hfirst : ¬ pattern <:+: (before ++ pattern).dropLast) (after : List A) :
    cut pattern (before ++ pattern ++ after) = some (before, after) := by
  cases hcut : cut pattern (before ++ pattern ++ after) with
  | none =>
      refine absurd ?_ (cut_eq_none_iff.mp hcut)
      exact ⟨before, after, rfl⟩
  | some around =>
      obtain ⟨front, rest⟩ := around
      have hsplit := cut_append hcut
      have hle := cut_leftmost hcut rfl
      have hlength : front.length = before.length := by
        by_contra hne
        -- the occurrence would end inside of the text in front of the last character
        have hfront : front ++ pattern <+: before ++ pattern ++ after := by
          rw [hsplit]
          exact List.prefix_append _ _
        have hcutOff : (before ++ pattern).dropLast <+: before ++ pattern ++ after :=
          (List.dropLast_prefix _).trans (List.prefix_append _ _)
        have hshort : front ++ pattern <+: (before ++ pattern).dropLast := by
          refine List.prefix_of_prefix_length_le hfront hcutOff ?_
          rw [List.length_dropLast, List.length_append, List.length_append]
          omega
        exact hfirst ((List.suffix_append front pattern).isInfix.trans hshort.isInfix)
      rw [List.append_assoc, List.append_assoc] at hsplit
      obtain ⟨rfl, hrest⟩ := List.append_inj hsplit hlength.symm
      rw [List.append_cancel_left hrest]

theorem rsplitOnce_split {separator : A}
    (hsplit : rsplitOnce separator text = some (before, after)) :
    text = before ++ separator :: after := by
  obtain ⟨around, hcut, hparts⟩ := Option.map_eq_some_iff.mp hsplit
  obtain ⟨rfl, rfl⟩ := Prod.mk.inj hparts
  calc text = text.reverse.reverse := text.reverse_reverse.symm
    _ = (around.1 ++ [separator] ++ around.2).reverse := by rw [← cut_append hcut]
    _ = around.2.reverse ++ separator :: around.1.reverse := by simp

end Search

end PertiskKos.Strings
