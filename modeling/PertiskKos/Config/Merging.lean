import PertiskKos.Library.Yaml

/-!
# Patches that are applied again

A partial configuration is laid over the document on disk.  Laying it over the result once more
changes nothing, at whatever depth its mappings meet those of the document and in whatever
order the keys came.
-/

namespace PertiskKos.Config

open Yaml

/-- `deep_merge_yaml` -/
def deepMergeYaml (base patch : Value) : Value := merge base patch

section Entries

variable {key value : Value} {base patch : Entries}

theorem mergeEntries_cons_of_find {rest : Entries} {existing : Value}
    (hfind : base.find key = some existing) :
    mergeEntries base (.cons key value rest) =
      mergeEntries (base.set key (merge existing value)) rest := by
  rw [mergeEntries, hfind]

theorem mergeEntries_cons_of_none {rest : Entries} (hfind : base.find key = none) :
    mergeEntries base (.cons key value rest) = mergeEntries (base.push key value) rest := by
  rw [mergeEntries, hfind]

theorem set_of_find (hfind : base.find key = some value) : base.set key value = base := by
  induction base with
  | nil => rfl
  | cons head old rest ih =>
      by_cases hhead : head = key
      · rw [hhead, Entries.find_cons_self] at hfind
        rw [hhead, Entries.set_cons_self, Option.some.inj hfind]
      · rw [Entries.find_cons_ne hhead] at hfind
        rw [Entries.set_cons_ne hhead, ih hfind]

/-- Entries that are there, with values that their merge does not change. -/
theorem mergeEntries_of_settled (hpatch : patch.Distinct)
    (hsettled : ∀ key value, patch.find key = some value →
      ∃ existing, base.find key = some existing ∧ merge existing value = existing) :
    mergeEntries base patch = base := by
  induction patch with
  | nil => rfl
  | cons head value rest ih =>
      obtain ⟨existing, hfind, hsame⟩ :=
        hsettled head value (Entries.find_cons_self head value rest)
      rw [mergeEntries_cons_of_find hfind, hsame, set_of_find hfind]
      refine ih hpatch.2 fun key other hother => hsettled key other ?_
      have hne : head ≠ key := by
        rintro rfl
        cases hpatch.1.symm.trans hother
      rwa [Entries.find_cons_ne hne]

/-- Entries that are laid over none keep their order. -/
theorem mergeEntries_push (hpatch : patch.Distinct)
    (hfresh : ∀ key value, patch.find key = some value → base.find key = none) :
    (mergeEntries base patch).toList = base.toList ++ patch.toList := by
  induction patch generalizing base with
  | nil => exact (List.append_nil _).symm
  | cons head value rest ih =>
      have hhead : base.find head = none :=
        hfresh head value (Entries.find_cons_self head value rest)
      have htoList : (base.push head value).toList = base.toList ++ [(head, value)] := by
        clear ih hfresh hhead
        induction base with
        | nil => rfl
        | cons other old more ih =>
            change (other, old) :: (more.push head value).toList = _
            rw [ih]
            rfl
      rw [mergeEntries_cons_of_none hhead, ih hpatch.2, htoList, List.append_assoc]
      · rfl
      · intro key other hother
        have hne : head ≠ key := by
          rintro rfl
          cases hpatch.1.symm.trans hother
        rw [Entries.find_push_ne hne]
        exact hfresh key other (by rwa [Entries.find_cons_ne hne])

theorem toList_injective {left right : Entries} (hsame : left.toList = right.toList) :
    left = right := by
  induction left generalizing right with
  | nil =>
      cases right with
      | nil => rfl
      | cons key value rest => cases hsame
  | cons key value rest ih =>
      cases right with
      | nil => cases hsame
      | cons other old more =>
          obtain ⟨hhead, hrest⟩ := List.cons.inj hsame
          obtain ⟨rfl, rfl⟩ := Prod.mk.inj hhead
          rw [ih hrest]

theorem mergeEntries_nil_left (hpatch : patch.Distinct) : mergeEntries .nil patch = patch :=
  toList_injective ((mergeEntries_push hpatch fun _ _ _ => rfl).trans (List.nil_append _))

/-- Entries whose values can be laid over twice can be laid over twice. -/
theorem mergeEntries_again (hpatch : patch.Distinct)
    (hvalues : ∀ key value, patch.find key = some value →
      ∀ old, merge (mergeInto old value) value = mergeInto old value) (base : Entries) :
    mergeEntries (mergeEntries base patch) patch = mergeEntries base patch := by
  refine mergeEntries_of_settled hpatch fun key value hfind => ?_
  refine ⟨mergeInto (base.find key) value, ?_, hvalues key value hfind _⟩
  rw [find_mergeEntries hpatch, hfind]

end Entries

mutual

/-- A value that is laid over what may be absent, twice. -/
theorem mergeInto_again :
    (patch : Value) → patch.WellFormed → ∀ old : Option Value,
      merge (mergeInto old patch) patch = mergeInto old patch
  | .mapping entries, hpatch, old => by
      have hdistinct := Entries.WellFormed.distinct hpatch
      have hagain := mergeEntries_again hdistinct (mergeInto_again_of_find entries hpatch)
      have hself : merge (.mapping entries) (.mapping entries) = .mapping entries := by
        have hnil := hagain .nil
        rw [mergeEntries_nil_left hdistinct] at hnil
        rw [merge, hnil]
      cases old with
      | none => exact hself
      | some base =>
          cases base with
          | mapping base =>
              change merge (merge (.mapping base) (.mapping entries)) (.mapping entries) =
                merge (.mapping base) (.mapping entries)
              rw [merge, merge, hagain base]
          | null | bool _ | number _ | string _ | sequence _ => exact hself
  | .null, _, _ | .bool _, _, _ | .number _, _, _ | .string _, _, _ | .sequence _, _, _ => by
      rw [merge_not_mapping rfl, mergeInto_not_mapping rfl]

theorem mergeInto_again_of_find :
    (entries : Entries) → entries.WellFormed → ∀ key value, entries.find key = some value →
      ∀ old : Option Value, merge (mergeInto old value) value = mergeInto old value
  | .nil, _, _, _, hfind, _ => by cases hfind
  | .cons head first rest, hentries, key, value, hfind, old => by
      by_cases hhead : head = key
      · rw [hhead, Entries.find_cons_self] at hfind
        cases hfind
        exact mergeInto_again first hentries.2.1 old
      · rw [Entries.find_cons_ne hhead] at hfind
        exact mergeInto_again_of_find rest hentries.2.2 key value hfind old

end

/-- A partial configuration that is applied again changes nothing, and a document is not
changed by itself. -/
theorem deep_merge_again {patch : Value} (hpatch : patch.WellFormed) (base : Value) :
    deepMergeYaml (deepMergeYaml base patch) patch = deepMergeYaml base patch ∧
      deepMergeYaml patch patch = patch :=
  ⟨mergeInto_again patch hpatch (some base), mergeInto_again patch hpatch none⟩

def themePatch : Value :=
  .mapping (.cons (.string "machine".toList)
    (.mapping (.cons (.string "dashboard".toList)
      (.mapping (.cons (.string "theme".toList) (.string "nord".toList) .nil)) .nil)) .nil)

theorem deep_merge_again_theme :
    deepMergeYaml (deepMergeYaml .null themePatch) themePatch = deepMergeYaml .null themePatch :=
  (@deep_merge_again themePatch (by decide) .null).1

end PertiskKos.Config
