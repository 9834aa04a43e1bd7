import PertiskKos.Library.Records

/-!
# One field of a record

A document in which one field of a record is given another value is read as the record with
that field replaced, unless the field is also given under its other name.
-/

namespace PertiskKos.Yaml

open Strings

namespace Entries

variable {entries : Entries} {key value : Value} {name : Text}

/-- Replace the value under a key, or add the entry at the end. -/
def insert (key value : Value) (entries : Entries) : Entries :=
  if (entries.find key).isSome then entries.set key value else entries.push key value

theorem find_insert_self (key value : Value) (entries : Entries) :
    (entries.insert key value).find key = some value := by
  rw [insert]
  cases hfind : entries.find key with
  | none => exact find_push_self hfind
  | some old => exact find_set_self hfind

theorem find_insert_ne {other : Value} (hne : key ≠ other) (value : Value) (entries : Entries) :
    (entries.insert key value).find other = entries.find other := by
  rw [insert]
  split
  · exact find_set_ne hne
  · exact find_push_ne hne

theorem given_insert (name : Text) (value : Value) (entries : Entries) :
    (entries.insert (.string name) value).given =
      Function.update entries.given name (some value) := by
  funext other
  by_cases hsame : other = name
  · subst hsame
    rw [Function.update_self]
    exact find_insert_self _ value entries
  · have hne : Value.string name ≠ .string other := fun h => hsame (Value.string.inj h).symm
    rw [Function.update_of_ne hsame]
    exact find_insert_ne hne value entries

theorem textKeys_insert (name : Text) (value : Value) (entries : Entries) :
    (entries.insert (.string name) value).textKeys = entries.textKeys := by
  rw [insert]
  split
  · exact textKeys_set
  · rw [textKeys_push]
    exact Bool.and_true _

theorem Distinct.insert (hdistinct : entries.Distinct) : (entries.insert key value).Distinct := by
  rw [Entries.insert]
  split
  · exact hdistinct.set
  · next hnone => exact hdistinct.push (by simpa using hnone)

end Entries

namespace Record

/-- A field of the record with its names, and how it is read off and replaced. -/
inductive At {A : Type} (name : Text) (other : Option Text) (field : Field A) :
    {T : Type} → Record T → (T → A) → (A → T → T) → Prop
  | here {T : Type} {rest : Record T} (hfresh : name ∉ rest.names) :
      At name other field (.cons name other field rest) Prod.fst fun a t => (a, t.2)
  | there {B T : Type} {first : Text} {second : Option Text} {head : Field B} {rest : Record T}
      {get : T → A} {set : A → T → T} (hfirst : name ≠ first) (hsecond : second ≠ some name)
      (hrest : At name other field rest get set) :
      At name other field (.cons first second head rest) (fun t => get t.2)
        fun a t => (t.1, set a t.2)

variable {T A : Type} {r : Record T} {name : Text} {other : Option Text} {field : Field A}
variable {get : T → A} {set : A → T → T} {given : Given} {v : Value} {a : A} {t : T}

theorem bind_update {second : Option Text} (hsecond : second ≠ some name) (given : Given)
    (value : Option Value) :
    second.bind (Function.update given name value) = second.bind given := by
  cases second with
  | none => rfl
  | some text =>
      have hne : text ≠ name := fun h => hsecond (congrArg some h)
      exact Function.update_of_ne hne _ _

theorem pick_update {first : Text} {second : Option Text} (hfirst : name ≠ first)
    (hsecond : second ≠ some name) (given : Given) (value : Option Value) :
    pick first second (Function.update given name value) = pick first second given := by
  rw [pick, pick, Function.update_of_ne hfirst.symm, bind_update hsecond]

theorem read_update_fresh (hfresh : name ∉ r.names) (given : Given) (value : Option Value) :
    r.read (Function.update given name value) = r.read given := by
  induction r with
  | nil => rfl
  | cons first second head rest ih =>
      simp only [names, List.mem_cons, List.mem_append, not_or] at hfresh
      obtain ⟨hfirst, hsecond, hrest⟩ := hfresh
      have hnot : second ≠ some name := by
        rintro rfl
        exact hsecond (by simp)
      rw [read, read, pick_update hfirst hnot, ih hrest]

/-- What is read for a field. -/
theorem read_at (hat : r.At name other field get set) (hread : r.read given = some t) :
    (pick name other given).bind field.read = some (get t) := by
  induction hat with
  | here hfresh =>
      rw [read] at hread
      split at hread
      · next hfield hrest =>
          rw [hfield, ← Option.some.inj hread]
      · cases hread
  | there hfirst hsecond hrest ih =>
      rw [read] at hread
      split at hread
      · next hfield htail =>
          rw [ih htail, ← Option.some.inj hread]
      · cases hread

/-- A field that is given another value is read so, and the other fields as before. -/
theorem read_update (hat : r.At name other field get set) (hread : r.read given = some t)
    (hself : other ≠ some name) (hother : other.bind given = none)
    (hfield : field.read (some v) = some a) :
    r.read (Function.update given name (some v)) = some (set a t) := by
  induction hat with
  | here hfresh =>
      have hpick : pick name other (Function.update given name (some v)) = some (some v) := by
        rw [pick, Function.update_self, bind_update hself, hother]
      rw [read] at hread ⊢
      rw [hpick, Option.bind_some, hfield, read_update_fresh hfresh]
      split at hread
      · next hrest =>
          rw [hrest, ← Option.some.inj hread]
      · cases hread
  | there hfirst hsecond hrest ih =>
      rw [read] at hread ⊢
      rw [pick_update hfirst hsecond]
      split at hread
      · next hfield htail =>
          rw [hfield, ih htail, ← Option.some.inj hread]
      · cases hread

/-- A field that is also given under its other name cannot be read. -/
theorem read_update_clash (hat : r.At name other field get set) (hself : other ≠ some name)
    (hother : (other.bind given).isSome = true) :
    r.read (Function.update given name (some v)) = none := by
  induction hat with
  | here hfresh =>
      obtain ⟨second, hsecond⟩ := Option.isSome_iff_exists.mp hother
      have hpick : pick name other (Function.update given name (some v)) = none := by
        rw [pick, Function.update_self, bind_update hself, hsecond]
      rw [read, hpick]
      rfl
  | there hfirst hsecond hrest ih =>
      rw [read, ih]
      split
      · next hnone => cases hnone
      · rfl

section Documents

variable {X : Type} {hnodup : r.names.Nodup} {e : X ≃ T} {x : X} {base fields : Entries}

theorem mergeGiven_update (base given : Given) (name : Text) (v : Value) :
    mergeGiven base (Function.update given name (some v)) =
      Function.update (mergeGiven base given) name (some (mergeInto (base name) v)) := by
  funext text
  by_cases hsame : text = name
  · subst hsame
    simp [mergeGiven]
  · rw [mergeGiven, Function.update_of_ne hsame, Function.update_of_ne hsame]
    rfl

theorem codec_read_mapping :
    (r.codec hnodup e).read (.mapping fields) = some x ↔
      fields.textKeys = true ∧ r.read fields.given = some (e x) := by
  change (r.readStruct (.mapping fields)).map e.symm = some x ↔ _
  rw [readStruct]
  cases fields.textKeys with
  | false => simp
  | true => simp [Equiv.symm_apply_eq]

theorem codec_read_insert (hat : r.At name other field get set)
    (hread : (r.codec hnodup e).read (.mapping fields) = some x) (hself : other ≠ some name)
    (hother : other.bind fields.given = none) (hfield : field.read (some v) = some a) :
    (r.codec hnodup e).read (.mapping (fields.insert (.string name) v)) =
      some (e.symm (set a (e x))) := by
  obtain ⟨hkeys, hread⟩ := codec_read_mapping.mp hread
  rw [codec_read_mapping, Entries.textKeys_insert, Entries.given_insert, e.apply_symm_apply]
  exact ⟨hkeys, read_update hat hread hself hother hfield⟩

theorem codec_read_insert_clash (hat : r.At name other field get set) (hself : other ≠ some name)
    (hother : (other.bind fields.given).isSome = true) :
    (r.codec hnodup e).read (.mapping (fields.insert (.string name) v)) = none := by
  rw [Option.eq_none_iff_forall_ne_some]
  intro x hread
  obtain ⟨-, hread⟩ := codec_read_mapping.mp hread
  rw [Entries.given_insert, read_update_clash hat hself hother] at hread
  cases hread

theorem codec_read_merge :
    (r.codec hnodup e).read (merge (.mapping base) (.mapping fields)) = some x ↔
      (base.textKeys = true ∧ fields.textKeys = true) ∧
        r.read (mergeEntries base fields).given = some (e x) := by
  rw [merge, codec_read_mapping, textKeys_mergeEntries, Bool.and_eq_true]

/-- A field of the patch is given another value: the merged document is read with that value
laid over the base. -/
theorem codec_read_merge_insert (hat : r.At name none field get set) (hfields : fields.Distinct)
    (hread : (r.codec hnodup e).read (merge (.mapping base) (.mapping fields)) = some x)
    (hfield : field.read (some (mergeInto (base.given name) v)) = some a) :
    (r.codec hnodup e).read
        (merge (.mapping base) (.mapping (fields.insert (.string name) v))) =
      some (e.symm (set a (e x))) := by
  obtain ⟨hkeys, hread⟩ := codec_read_merge.mp hread
  rw [given_mergeEntries hfields] at hread
  rw [codec_read_merge, Entries.textKeys_insert, given_mergeEntries hfields.insert,
    Entries.given_insert, mergeGiven_update, e.apply_symm_apply]
  exact ⟨hkeys, read_update hat hread (by simp) rfl hfield⟩

theorem codec_read_merge_insert_none (hat : r.At name none field get set)
    (hfields : fields.Distinct)
    (hfield : field.read (some (mergeInto (base.given name) v)) = none) :
    (r.codec hnodup e).read
      (merge (.mapping base) (.mapping (fields.insert (.string name) v))) = none := by
  rw [Option.eq_none_iff_forall_ne_some]
  intro x hread
  obtain ⟨-, hread⟩ := codec_read_merge.mp hread
  rw [given_mergeEntries hfields.insert, Entries.given_insert, mergeGiven_update] at hread
  have hfound := read_at hat hread
  rw [pick_own rfl, Function.update_self, Option.bind_some, hfield] at hfound
  cases hfound

end Documents

end Record

end PertiskKos.Yaml
