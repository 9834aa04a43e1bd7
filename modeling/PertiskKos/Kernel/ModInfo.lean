import PertiskKos.Library.Search
import PertiskKos.Library.Lossy

/-!
# What a kernel module depends on

A module file has a section of NUL terminated entries, one of which lists the modules that
have to be loaded first.  The list is looked for in the bytes of the whole file.
-/

namespace PertiskKos.Kernel

open Strings Utf8

/-! ## The list of a file -/

section Scanning

def KEY : Bytes := encode "depends=".toList

/-- What follows the first key, where something does. -/
def afterKey : Bytes → Option Bytes
  | [] => none
  | byte :: bytes =>
      if KEY.length < (byte :: bytes).length then
        match KEY.isPrefixOf? (byte :: bytes) with
        | some rest => some rest
        | none => afterKey bytes
      else none

/-- The name as it is spelled in the name of a file. -/
def underscored (name : Text) : Text := name.map fun c => if c = '-' then '_' else c

def listedNames (list : Bytes) : List Text :=
  (((lossy list).splitOn ',').map trim |>.filter (· ≠ [])).map underscored

def moduleDepends (bytes : Bytes) : List Text :=
  match afterKey bytes with
  | none => []
  | some rest => listedNames (rest.takeWhile (· ≠ 0))

theorem notMem_underscored (name : Text) : '-' ∉ underscored name := by
  rw [underscored, List.mem_map]
  rintro ⟨c, -, hc⟩
  split at hc
  · revert hc
    decide
  · next hne => exact hne hc

theorem underscored_eq_self {name : Text} (hname : '-' ∉ name) : underscored name = name := by
  have hsame : ∀ c ∈ name, (if c = '-' then '_' else c) = c := by
    intro c hc
    refine if_neg ?_
    rintro rfl
    exact hname hc
  calc underscored name = name.map id := List.map_congr_left hsame
    _ = name := List.map_id name

theorem listedNames_nil : listedNames [] = [] := by decide

theorem dash_notMem_listedNames {list : Bytes} {name : Text} (hname : name ∈ listedNames list) :
    '-' ∉ name := by
  obtain ⟨given, -, rfl⟩ := List.mem_map.mp hname
  exact notMem_underscored given

/-- The scan stops at the first key, unless it ends the file. -/
theorem afterKey_eq (bytes : Bytes) :
    afterKey bytes = ((cut KEY bytes).map Prod.snd).filter (· ≠ []) := by
  induction bytes with
  | nil => decide
  | cons byte bytes ih =>
      rw [afterKey]
      split
      · next hlong =>
          rw [cut]
          cases hfront : KEY.isPrefixOf? (byte :: bytes) with
          | some rest =>
              have hlength := congrArg List.length (List.append_eq_of_isPrefixOf?_eq_some hfront)
              rw [List.length_append] at hlength
              have hrest : rest ≠ [] := by
                rintro rfl
                rw [List.length_nil] at hlength
                omega
              rw [Option.map_some, Option.filter_some, if_pos (by simpa using hrest)]
          | none =>
              simp only [ih, Option.map_map]
              rfl
      · next hshort =>
          cases hcut : cut KEY (byte :: bytes) with
          | none => rfl
          | some around =>
              obtain ⟨before, after⟩ := around
              have hlength := congrArg List.length (cut_append hcut)
              simp only [List.length_append] at hlength
              have hafter : after = [] := List.length_eq_zero_iff.mp (by omega)
              rw [hafter]
              rfl

theorem moduleDepends_eq (bytes : Bytes) : moduleDepends bytes =
    (cut KEY bytes).elim [] fun around => listedNames (around.2.takeWhile (· ≠ 0)) := by
  rw [moduleDepends, afterKey_eq]
  cases cut KEY bytes with
  | none => rfl
  | some around =>
      obtain ⟨before, after⟩ := around
      cases after with
      | nil => exact listedNames_nil.symm
      | cons byte after => rfl

end Scanning

/-! ## The list of the section -/

section Section

/-- A module file, with its section of entries. -/
structure ModuleFile where
  front : Bytes
  modinfo : List Bytes
  back : Bytes
  closed : ∀ entry ∈ modinfo, 0 ∉ entry

variable {file : ModuleFile}

def ModuleFile.bytes (file : ModuleFile) : Bytes :=
  file.front ++ (file.modinfo.flatMap (· ++ [0]) ++ file.back)

/-- The entry that lists the dependencies. -/
def ModuleFile.dependsEntry (file : ModuleFile) : Option Bytes :=
  file.modinfo.find? (KEY.isPrefixOf ·)

/-- The names of that entry, spelled with underscores. -/
def ModuleFile.dependencies (file : ModuleFile) : List Text :=
  file.dependsEntry.elim [] fun entry => listedNames (entry.drop KEY.length)

/-- What is read first lists the names of the entry. -/
def ModuleFile.Unambiguous (file : ModuleFile) : Prop :=
  ∀ before after, cut KEY file.bytes = some (before, after) →
    listedNames (after.takeWhile (· ≠ 0)) = file.dependencies

theorem dash_notMem_dependencies {name : Text} (hname : name ∈ file.dependencies) :
    '-' ∉ name := by
  rw [ModuleFile.dependencies] at hname
  cases hentry : file.dependsEntry with
  | none => simp [hentry] at hname
  | some entry =>
      rw [hentry] at hname
      exact dash_notMem_listedNames hname

theorem cut_of_entry {entry : Bytes} (hentry : file.dependsEntry = some entry) :
    cut KEY file.bytes ≠ none := by
  rw [Ne, cut_eq_none_iff, not_not]
  have hmem := List.mem_of_find?_eq_some hentry
  have hkey : KEY <+: entry := List.isPrefixOf_iff_prefix.mp (List.find?_some hentry)
  obtain ⟨earlier, later, hsplit⟩ := List.append_of_mem hmem
  have hentries : entry <:+: file.modinfo.flatMap (· ++ [0]) := by
    rw [hsplit, List.flatMap_append, List.flatMap_cons]
    exact ⟨earlier.flatMap (· ++ [0]), 0 :: later.flatMap (· ++ [0]), by simp⟩
  have hbytes : file.modinfo.flatMap (· ++ [0]) <:+: file.bytes :=
    (List.infix_append' _ _ _)
  exact hkey.isInfix.trans (hentries.trans hbytes)

/-- The list of the section is read where the first key of the file is the one of the entry. -/
theorem unambiguous_of_first {earlier later : List Bytes} {list : Bytes}
    (hmodinfo : file.modinfo = earlier ++ (KEY ++ list) :: later)
    (hfirst : ¬ KEY <:+: (file.front ++ earlier.flatMap (· ++ [0]) ++ KEY).dropLast)
    (hentry : file.dependsEntry = some (KEY ++ list)) : file.Unambiguous := by
  have hbytes : file.bytes = file.front ++ earlier.flatMap (· ++ [0]) ++ KEY ++
      (list ++ 0 :: (later.flatMap (· ++ [0]) ++ file.back)) := by
    rw [ModuleFile.bytes, hmodinfo]
    simp
  have hlist : 0 ∉ list := by
    have hclosed := file.closed (KEY ++ list) (by simp [hmodinfo])
    exact fun h => hclosed (List.mem_append_right _ h)
  intro before after hcut
  rw [hbytes, cut_first hfirst] at hcut
  obtain ⟨-, rfl⟩ := Prod.mk.inj (Option.some.inj hcut)
  have htext : (list ++ 0 :: (later.flatMap (· ++ [0]) ++ file.back)).takeWhile (· ≠ 0) =
      list := by
    rw [List.takeWhile_append_of_pos (by
      intro byte hbyte
      rw [decide_eq_true_eq]
      rintro rfl
      exact hlist hbyte), List.takeWhile_cons_of_neg (by simp), List.append_nil]
  rw [htext, ModuleFile.dependencies, hentry, Option.elim_some, List.drop_left]

/-- The list of the section is what is read exactly if nothing that stands in front of it is
taken for another list. -/
theorem moduleDepends_eq_iff :
    moduleDepends file.bytes = file.dependencies ↔ file.Unambiguous := by
  rw [moduleDepends_eq, ModuleFile.Unambiguous]
  cases hcut : cut KEY file.bytes with
  | none =>
      have hnone : file.dependencies = [] := by
        rw [ModuleFile.dependencies]
        cases hentry : file.dependsEntry with
        | none => rfl
        | some entry => exact absurd hcut (cut_of_entry hentry)
      simp [hnone]
  | some around =>
      obtain ⟨before, after⟩ := around
      simp only [Option.elim_some, Option.some.injEq, Prod.mk.injEq, and_imp]
      constructor
      · rintro hread _ _ rfl rfl
        exact hread
      · intro hread
        exact hread before after rfl rfl

end Section

end PertiskKos.Kernel
