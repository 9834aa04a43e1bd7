import PertiskKos.Library.Strings

/-!
# Documents and their merge

A document is a tree of mappings, sequences and scalars.  `merge` lays one document
over another: mappings are merged key by key, and anything else replaces what is
there.  The keys of a mapping are distinct in every document that was parsed
(`WellFormed`), and then looking a key up commutes with the merge.
-/

namespace PertiskKos.Yaml

open Strings

inductive Number where
  | int (value : Int)
  | float (digits : Text)
  deriving DecidableEq, Repr

mutual

inductive Value where
  | null
  | bool (value : Bool)
  | number (value : Number)
  | string (text : Text)
  | sequence (items : Items)
  | mapping (entries : Entries)
  deriving DecidableEq, Repr

inductive Items where
  | nil
  | cons (head : Value) (rest : Items)
  deriving DecidableEq, Repr

inductive Entries where
  | nil
  | cons (key value : Value) (rest : Entries)
  deriving DecidableEq, Repr

end

-- Inductions over the entries of a mapping do not go down into the values.
@[induction_eliminator]
theorem Items.induct {motive : Items → Prop} (nil : motive .nil)
    (cons : ∀ head rest, motive rest → motive (.cons head rest)) (items : Items) :
    motive items :=
  match items with
  | .nil => nil
  | .cons head rest => cons head rest (Items.induct nil cons rest)

@[induction_eliminator]
theorem Entries.induct {motive : Entries → Prop} (nil : motive .nil)
    (cons : ∀ key value rest, motive rest → motive (.cons key value rest))
    (entries : Entries) : motive entries :=
  match entries with
  | .nil => nil
  | .cons key value rest => cons key value rest (Entries.induct nil cons rest)

namespace Value

def isMapping : Value → Bool
  | mapping _ => true
  | _ => false

def asText : Value → Option Text
  | string text => some text
  | _ => none

end Value

namespace Items

def toList : Items → List Value
  | nil => []
  | cons head rest => head :: rest.toList

def ofList : List Value → Items
  | [] => nil
  | head :: rest => cons head (ofList rest)

@[simp] theorem toList_ofList (values : List Value) : (ofList values).toList = values := by
  induction values with
  | nil => rfl
  | cons head rest ih => simp [ofList, toList, ih]

end Items

namespace Entries

/-- The value under a key. -/
def find (key : Value) : Entries → Option Value
  | nil => none
  | cons other value rest => if other = key then some value else rest.find key

/-- Replace the value under a key that is there. -/
def set (key new : Value) : Entries → Entries
  | nil => nil
  | cons other value rest =>
      if other = key then cons other new rest else cons other value (rest.set key new)

/-- Add an entry at the end. -/
def push (key value : Value) : Entries → Entries
  | nil => cons key value nil
  | cons other old rest => cons other old (rest.push key value)

def toList : Entries → List (Value × Value)
  | nil => []
  | cons key value rest => (key, value) :: rest.toList

/-- Every key is a text. -/
def textKeys : Entries → Bool
  | nil => true
  | cons key _ rest => key.asText.isSome && rest.textKeys

/-- No key occurs twice. -/
def Distinct : Entries → Prop
  | nil => True
  | cons key _ rest => rest.find key = none ∧ rest.Distinct

/-- What a struct reads: the value of each name. -/
def given (entries : Entries) (name : Text) : Option Value := entries.find (.string name)

end Entries

mutual

/-- No mapping that a merge can reach has a key twice. -/
def Value.WellFormed : Value → Prop
  | .mapping entries => entries.WellFormed
  | _ => True

def Entries.WellFormed : Entries → Prop
  | .nil => True
  | .cons key value rest => rest.find key = none ∧ value.WellFormed ∧ rest.WellFormed

end

mutual

def Value.decideWellFormed : (v : Value) → Decidable v.WellFormed
  | .null | .bool _ | .number _ | .string _ | .sequence _ => isTrue trivial
  | .mapping entries => entries.decideWellFormed

def Entries.decideWellFormed : (entries : Entries) → Decidable entries.WellFormed
  | .nil => isTrue trivial
  | .cons key value rest =>
      have := value.decideWellFormed
      have := rest.decideWellFormed
      inferInstanceAs (Decidable (rest.find key = none ∧ value.WellFormed ∧ rest.WellFormed))

end

instance (v : Value) : Decidable v.WellFormed := v.decideWellFormed

mutual

/-- Lay `patch` over `base`. -/
def merge : Value → Value → Value
  | .mapping base, .mapping patch => .mapping (mergeEntries base patch)
  | _, patch => patch

def mergeEntries : Entries → Entries → Entries
  | base, .nil => base
  | base, .cons key value rest =>
      match base.find key with
      | some existing => mergeEntries (base.set key (merge existing value)) rest
      | none => mergeEntries (base.push key value) rest

end

/-- A patch over what may be absent. -/
def mergeInto : Option Value → Value → Value
  | none, patch => patch
  | some base, patch => merge base patch

/-- Look a name up in a document and in the patch over it. -/
def mergeGiven (base patch : Text → Option Value) (name : Text) : Option Value :=
  match patch name with
  | none => base name
  | some value => some (mergeInto (base name) value)

@[simp] theorem merge_of_not_mapping {base : Value} (hbase : base.isMapping = false)
    (patch : Value) : merge base patch = patch := by
  cases base <;> simp_all [merge, Value.isMapping]

@[simp] theorem merge_not_mapping {patch : Value} (hpatch : patch.isMapping = false)
    (base : Value) : merge base patch = patch := by
  cases patch <;> cases base <;> simp_all [merge, Value.isMapping]

@[simp] theorem mergeInto_not_mapping {patch : Value} (hpatch : patch.isMapping = false)
    (base : Option Value) : mergeInto base patch = patch := by
  cases base with
  | none => rfl
  | some value => exact merge_not_mapping hpatch value

namespace Entries

variable {key other value new : Value} {entries : Entries}

theorem find_cons_self (key value : Value) (rest : Entries) :
    (cons key value rest).find key = some value := if_pos rfl

theorem find_cons_ne (hne : other ≠ key) (value : Value) (rest : Entries) :
    (cons other value rest).find key = rest.find key := if_neg hne

theorem set_cons_self (key value : Value) (rest : Entries) :
    (cons key value rest).set key new = cons key new rest := if_pos rfl

theorem set_cons_ne (hne : other ≠ key) (value : Value) (rest : Entries) :
    (cons other value rest).set key new = cons other value (rest.set key new) := if_neg hne

theorem push_cons (other old : Value) (rest : Entries) :
    (cons other old rest).push key value = cons other old (rest.push key value) := rfl

theorem textKeys_cons (key value : Value) (rest : Entries) :
    (cons key value rest).textKeys = (key.asText.isSome && rest.textKeys) := rfl

theorem find_set_self (hfind : entries.find key = some value) :
    (entries.set key new).find key = some new := by
  induction entries with
  | nil => cases hfind
  | cons head old rest ih =>
      by_cases hhead : head = key
      · rw [hhead, set_cons_self, find_cons_self]
      · rw [find_cons_ne hhead] at hfind
        rw [set_cons_ne hhead, find_cons_ne hhead]
        exact ih hfind

theorem find_set_ne (hne : key ≠ other) :
    (entries.set key new).find other = entries.find other := by
  induction entries with
  | nil => rfl
  | cons head old rest ih =>
      by_cases hhead : head = key
      · rw [hhead, set_cons_self, find_cons_ne hne, find_cons_ne hne]
      · rw [set_cons_ne hhead]
        by_cases hother : head = other
        · rw [hother, find_cons_self, find_cons_self]
        · rw [find_cons_ne hother, find_cons_ne hother, ih]

theorem find_push_self (hfind : entries.find key = none) :
    (entries.push key value).find key = some value := by
  induction entries with
  | nil => exact find_cons_self key value nil
  | cons head old rest ih =>
      by_cases hhead : head = key
      · rw [hhead, find_cons_self] at hfind
        cases hfind
      · rw [find_cons_ne hhead] at hfind
        rw [push_cons, find_cons_ne hhead]
        exact ih hfind

theorem find_push_ne (hne : key ≠ other) :
    (entries.push key value).find other = entries.find other := by
  induction entries with
  | nil => exact find_cons_ne hne value nil
  | cons head old rest ih =>
      rw [push_cons]
      by_cases hother : head = other
      · rw [hother, find_cons_self, find_cons_self]
      · rw [find_cons_ne hother, find_cons_ne hother, ih]

theorem textKeys_set : (entries.set key new).textKeys = entries.textKeys := by
  induction entries with
  | nil => rfl
  | cons head old rest ih =>
      by_cases hhead : head = key
      · rw [hhead, set_cons_self, textKeys_cons, textKeys_cons]
      · rw [set_cons_ne hhead, textKeys_cons, textKeys_cons, ih]

theorem textKeys_push :
    (entries.push key value).textKeys = (entries.textKeys && key.asText.isSome) := by
  induction entries with
  | nil => exact Bool.and_true _
  | cons head old rest ih => rw [push_cons, textKeys_cons, textKeys_cons, ih, Bool.and_assoc]

theorem isText_of_find (hkeys : entries.textKeys = true)
    (hfind : entries.find key = some value) : key.asText.isSome = true := by
  induction entries with
  | nil => cases hfind
  | cons head old rest ih =>
      rw [textKeys_cons, Bool.and_eq_true] at hkeys
      by_cases hhead : head = key
      · exact hhead ▸ hkeys.1
      · rw [find_cons_ne hhead] at hfind
        exact ih hkeys.2 hfind

theorem find_eq_none_set (hfind : entries.find other = none) :
    (entries.set key new).find other = none := by
  by_cases hsame : key = other
  · subst hsame
    induction entries with
    | nil => rfl
    | cons head old rest ih =>
        by_cases hhead : head = key
        · rw [hhead, find_cons_self] at hfind
          cases hfind
        · rw [find_cons_ne hhead] at hfind
          rw [set_cons_ne hhead, find_cons_ne hhead, ih hfind]
  · rw [find_set_ne hsame, hfind]

theorem Distinct.set (hdistinct : entries.Distinct) : (entries.set key new).Distinct := by
  induction entries with
  | nil => trivial
  | cons head old rest ih =>
      by_cases hhead : head = key
      · rw [hhead, set_cons_self]
        exact hhead ▸ hdistinct
      · rw [set_cons_ne hhead]
        exact ⟨find_eq_none_set hdistinct.1, ih hdistinct.2⟩

theorem Distinct.push (hdistinct : entries.Distinct) (hfind : entries.find key = none) :
    (entries.push key value).Distinct := by
  induction entries with
  | nil => exact ⟨rfl, trivial⟩
  | cons head old rest ih =>
      by_cases hhead : head = key
      · rw [hhead, find_cons_self] at hfind
        cases hfind
      · rw [find_cons_ne hhead] at hfind
        exact ⟨(find_push_ne (Ne.symm hhead)).trans hdistinct.1, ih hdistinct.2 hfind⟩

theorem WellFormed.distinct (hentries : entries.WellFormed) : entries.Distinct := by
  induction entries with
  | nil => trivial
  | cons head old rest ih => exact ⟨hentries.1, ih hentries.2.2⟩

theorem WellFormed.find (hentries : entries.WellFormed)
    (hfind : entries.find key = some value) : value.WellFormed := by
  induction entries with
  | nil => cases hfind
  | cons head old rest ih =>
      by_cases hhead : head = key
      · rw [hhead, find_cons_self, Option.some.injEq] at hfind
        exact hfind ▸ hentries.2.1
      · rw [find_cons_ne hhead] at hfind
        exact ih hentries.2.2 hfind

end Entries

section Merge

variable {base patch : Entries} {key : Value}

theorem distinct_mergeEntries (hbase : base.Distinct) :
    (mergeEntries base patch).Distinct := by
  induction patch generalizing base with
  | nil => rwa [mergeEntries]
  | cons head value rest ih =>
      cases hfind : base.find head with
      | some existing =>
          simp only [mergeEntries, hfind]
          exact ih hbase.set
      | none =>
          simp only [mergeEntries, hfind]
          exact ih (hbase.push hfind)

theorem textKeys_mergeEntries :
    (mergeEntries base patch).textKeys = (base.textKeys && patch.textKeys) := by
  induction patch generalizing base with
  | nil => simp [mergeEntries, Entries.textKeys]
  | cons head value rest ih =>
      cases hfind : base.find head with
      | some existing =>
          simp only [mergeEntries, hfind, Entries.textKeys]
          rw [ih, Entries.textKeys_set]
          cases hbase : base.textKeys with
          | true => simp [Entries.isText_of_find hbase hfind]
          | false => rfl
      | none =>
          simp only [mergeEntries, hfind, Entries.textKeys]
          rw [ih, Entries.textKeys_push, Bool.and_assoc]

/-- Looking a key up commutes with the merge. -/
theorem find_mergeEntries (hpatch : patch.Distinct) :
    (mergeEntries base patch).find key =
      match patch.find key with
      | none => base.find key
      | some value => some (mergeInto (base.find key) value) := by
  induction patch generalizing base with
  | nil => rfl
  | cons head value rest ih =>
      by_cases hhead : head = key
      · subst hhead
        rw [Entries.find_cons_self]
        cases hfind : base.find head with
        | some existing =>
            simp only [mergeEntries, hfind]
            rw [ih hpatch.2, hpatch.1]
            exact Entries.find_set_self hfind
        | none =>
            simp only [mergeEntries, hfind]
            rw [ih hpatch.2, hpatch.1]
            exact Entries.find_push_self hfind
      · rw [Entries.find_cons_ne hhead]
        cases hfind : base.find head with
        | some existing =>
            simp only [mergeEntries, hfind]
            rw [ih hpatch.2, Entries.find_set_ne hhead]
        | none =>
            simp only [mergeEntries, hfind]
            rw [ih hpatch.2, Entries.find_push_ne hhead]

theorem given_mergeEntries (hpatch : patch.Distinct) :
    (mergeEntries base patch).given = mergeGiven base.given patch.given := by
  funext name
  exact find_mergeEntries hpatch

end Merge

end PertiskKos.Yaml
