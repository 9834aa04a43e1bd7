import PertiskKos.Library.Yaml

/-!
# Records in documents

A codec writes a value of some type into a document and reads it back.  Beside the
two it says what a patch should make of a value (`overlay`): a field that the patch
names gets the patch's value, a section goes on field by field, and everything else
stays.  The law `read_merge` connects it with the code's way, which is to merge the
untyped documents and to read the result.  The two part only where the merged
document has a field under two names (`clash`).

Codecs of records are put together from the codecs of their fields, and so are the
laws.
-/

namespace PertiskKos.Yaml

open Strings

/-- A type in a document.  A patch is acceptable over a value that is there
(`accepts`) also when it names only some of the fields. -/
structure Codec (T : Type) where
  write : T → Value
  read : Value → Option T
  overlay : T → Value → Option T
  accepts : Value → Prop
  clash : T → Value → Bool
  write_ne_null : ∀ t, write t ≠ .null
  read_write : ∀ t, read (write t) = some t
  accepts_of_read : ∀ v, (read v).isSome = true → accepts v
  overlay_isSome : ∀ t v, accepts v → (overlay t v).isSome = true
  read_merge : ∀ t v, v.WellFormed → accepts v →
    read (merge (write t) v) = if clash t v then none else overlay t v

/-- A field of a record: it may be left out of the document. -/
structure Field (T : Type) where
  write : T → Option Value
  read : Option Value → Option T
  overlay : T → Value → Option T
  accepts : Value → Prop
  clash : T → Value → Bool
  read_write : ∀ t, read (write t) = some t
  accepts_of_read : ∀ v, (read (some v)).isSome = true → accepts v
  overlay_isSome : ∀ t v, accepts v → (overlay t v).isSome = true
  read_merge : ∀ t v, v.WellFormed → accepts v →
    read (some (mergeInto (write t) v)) = if clash t v then none else overlay t v

section Leaves

variable {A T : Type}

/-- A codec whose values are never mappings: a patch replaces them. -/
def Codec.leaf (write : T → Value) (read : Value → Option T)
    (hmapping : ∀ t, (write t).isMapping = false) (hnull : ∀ t, write t ≠ .null)
    (hread : ∀ t, read (write t) = some t) : Codec T where
  write := write
  read := read
  overlay _ v := read v
  accepts v := (read v).isSome = true
  clash _ _ := false
  write_ne_null := hnull
  read_write := hread
  accepts_of_read _ haccepts := haccepts
  overlay_isSome _ _ haccepts := haccepts
  read_merge t v _ _ := congrArg read (merge_of_not_mapping (hmapping t) v)

def Codec.text : Codec Text :=
  .leaf .string Value.asText (fun _ => rfl) (fun _ => Value.noConfusion) fun _ => rfl

def Value.asBool : Value → Option Bool
  | .bool value => some value
  | _ => none

def Codec.bool : Codec Bool :=
  .leaf .bool Value.asBool (fun _ => rfl) (fun _ => Value.noConfusion) fun _ => rfl

/-- A number below `bound`. -/
def Value.asNat (bound : Nat) : Value → Option Nat
  | .number (.int value) =>
      if 0 ≤ value ∧ value < bound then some value.toNat else none
  | _ => none

theorem asNat_int {bound n : Nat} (hn : n < bound) :
    Value.asNat bound (.number (.int n)) = some n := by
  rw [Value.asNat, if_pos (by omega), Int.toNat_natCast]

def Codec.u16 : Codec UInt16 :=
  .leaf (fun n => .number (.int n.toNat)) (fun v => (v.asNat UInt16.size).map UInt16.ofNat)
    (fun _ => rfl) (fun _ => Value.noConfusion) fun n => by
      rw [asNat_int n.toNat_lt_size, Option.map_some, UInt16.ofNat_toNat]

def Codec.u32 : Codec UInt32 :=
  .leaf (fun n => .number (.int n.toNat)) (fun v => (v.asNat UInt32.size).map UInt32.ofNat)
    (fun _ => rfl) (fun _ => Value.noConfusion) fun n => by
      rw [asNat_int n.toNat_lt_size, Option.map_some, UInt32.ofNat_toNat]

/-- A type of finitely many named values. -/
def Codec.enum (name : A → Text) (all : List A)
    (hall : ∀ a, all.find? (name · = name a) = some a) : Codec A :=
  .leaf (.string ∘ name) (fun v => v.asText.bind fun text => all.find? (name · = text))
    (fun _ => rfl) (fun _ => Value.noConfusion) hall

/-- A sequence.  Nothing is the empty sequence. -/
def readSequence (read : Value → Option A) : Value → Option (List A)
  | .sequence items => items.toList.mapM read
  | .null => some []
  | _ => none

theorem readSequence_write (c : Codec A) (values : List A) :
    readSequence c.read (.sequence (.ofList (values.map c.write))) = some values := by
  rw [readSequence, Items.toList_ofList]
  induction values with
  | nil => rfl
  | cons head rest ih => simp [c.read_write, ih]

def Codec.sequence (c : Codec A) : Codec (List A) :=
  .leaf (fun values => .sequence (.ofList (values.map c.write))) (readSequence c.read)
    (fun _ => rfl) (fun _ => Value.noConfusion) (readSequence_write c)

end Leaves

section Fields

variable {T : Type}

/-- A field that has to be there. -/
def Codec.required (c : Codec T) : Field T where
  write t := some (c.write t)
  read value := value.bind c.read
  overlay := c.overlay
  accepts := c.accepts
  clash := c.clash
  read_write := c.read_write
  accepts_of_read := c.accepts_of_read
  overlay_isSome := c.overlay_isSome
  read_merge := c.read_merge

/-- A field with a default, always written. -/
def Codec.defaulted (c : Codec T) (default : T) : Field T where
  write t := some (c.write t)
  read
    | none => some default
    | some v => c.read v
  overlay := c.overlay
  accepts := c.accepts
  clash := c.clash
  read_write := c.read_write
  accepts_of_read := c.accepts_of_read
  overlay_isSome := c.overlay_isSome
  read_merge := c.read_merge

namespace Field

variable (c : Codec T)

/-- An optional value.  `null` stands for its absence. -/
def readOption : Option Value → Option (Option T)
  | none => some none
  | some .null => some none
  | some v => (c.read v).map some

def overlayOption : Option T → Value → Option (Option T)
  | _, .null => some none
  | none, v => (c.read v).map some
  | some t, v => (c.overlay t v).map some

def clashOption : Option T → Value → Bool
  | _, .null => false
  | none, _ => false
  | some t, v => c.clash t v

theorem readOption_of_ne {v : Value} (hv : v ≠ .null) :
    readOption c (some v) = (c.read v).map some := by
  cases v <;> first | rfl | exact absurd rfl hv

theorem merge_ne_null {v : Value} (hv : v ≠ .null) (base : Value) : merge base v ≠ .null := by
  cases base <;> cases v <;> simp_all [merge]

/-- `skip` leaves an absent value out, otherwise `null` is written. -/
def writeOption (skip : Bool) : Option T → Option Value
  | some t => some (c.write t)
  | none => if skip then none else some .null

theorem readOption_write (skip : Bool) (field : Option T) :
    readOption c (writeOption c skip field) = some field := by
  cases field with
  | none => cases skip <;> rfl
  | some t => rw [writeOption, readOption_of_ne c (c.write_ne_null t), c.read_write]; rfl

theorem overlayOption_isSome (field : Option T) (v : Value)
    (haccepts : v = .null ∨ (c.read v).isSome = true) :
    (overlayOption c field v).isSome = true := by
  by_cases hv : v = .null
  · subst hv
    rfl
  · have hread := haccepts.resolve_left hv
    cases field with
    | none => simpa [overlayOption] using hread
    | some t => simpa [overlayOption] using c.overlay_isSome t v (c.accepts_of_read v hread)

theorem mergeInto_absent (skip : Bool) (v : Value) :
    mergeInto (writeOption c skip none) v = v := by
  cases skip with
  | true => rfl
  | false => exact merge_of_not_mapping rfl v

theorem readOption_merge (skip : Bool) (field : Option T) (v : Value)
    (hwell : v.WellFormed) (haccepts : v = .null ∨ (c.read v).isSome = true) :
    readOption c (some (mergeInto (writeOption c skip field) v)) =
      if clashOption c field v then none else overlayOption c field v := by
  by_cases hv : v = .null
  · subst hv
    rw [mergeInto_not_mapping rfl]
    rfl
  · have hread := haccepts.resolve_left hv
    cases field with
    | none =>
        rw [mergeInto_absent, readOption_of_ne c hv]
        simp [clashOption, overlayOption]
    | some t =>
        rw [writeOption, mergeInto, readOption_of_ne c (merge_ne_null hv _),
          c.read_merge t v hwell (c.accepts_of_read v hread)]
        simp only [clashOption, overlayOption]
        cases c.clash t v <;> rfl

theorem accepts_of_readOption (v : Value) (hread : (readOption c (some v)).isSome = true) :
    v = .null ∨ (c.read v).isSome = true := by
  by_cases hv : v = .null
  · exact .inl hv
  · rw [readOption_of_ne c hv, Option.isSome_map] at hread
    exact .inr hread

end Field

def Codec.optional (c : Codec T) (skip : Bool) : Field (Option T) where
  write := Field.writeOption c skip
  read := Field.readOption c
  overlay := Field.overlayOption c
  accepts v := v = .null ∨ (c.read v).isSome = true
  clash := Field.clashOption c
  read_write := Field.readOption_write c skip
  accepts_of_read := Field.accepts_of_readOption c
  overlay_isSome := Field.overlayOption_isSome c
  read_merge := Field.readOption_merge c skip

namespace Field

variable [DecidableEq T] (c : Codec T) (empty : T)

def writeSkipping (t : T) : Option Value := if t = empty then none else some (c.write t)

def readSkipping : Option Value → Option T
  | none => some empty
  | some v => c.read v

def overlaySkipping (t : T) (v : Value) : Option T :=
  if t = empty then c.read v else c.overlay t v

def clashSkipping (t : T) (v : Value) : Bool := if t = empty then false else c.clash t v

theorem readSkipping_write (t : T) :
    readSkipping c empty (writeSkipping c empty t) = some t := by
  by_cases hempty : t = empty
  · rw [writeSkipping, if_pos hempty, hempty]
    rfl
  · rw [writeSkipping, if_neg hempty]
    exact c.read_write t

theorem overlaySkipping_isSome (t : T) (v : Value) (hread : (c.read v).isSome = true) :
    (overlaySkipping c empty t v).isSome = true := by
  by_cases hempty : t = empty
  · rwa [overlaySkipping, if_pos hempty]
  · rw [overlaySkipping, if_neg hempty]
    exact c.overlay_isSome t v (c.accepts_of_read v hread)

theorem readSkipping_merge (t : T) (v : Value) (hwell : v.WellFormed)
    (hread : (c.read v).isSome = true) :
    readSkipping c empty (some (mergeInto (writeSkipping c empty t) v)) =
      if clashSkipping c empty t v then none else overlaySkipping c empty t v := by
  by_cases hempty : t = empty
  · simp [writeSkipping, clashSkipping, overlaySkipping, hempty, readSkipping, mergeInto]
  · simp only [writeSkipping, clashSkipping, overlaySkipping, if_neg hempty]
    exact c.read_merge t v hwell (c.accepts_of_read v hread)

end Field

/-- A field that is left out when it is empty. -/
def Codec.skipping [DecidableEq T] (c : Codec T) (empty : T) : Field T where
  write := Field.writeSkipping c empty
  read := Field.readSkipping c empty
  overlay := Field.overlaySkipping c empty
  accepts v := (c.read v).isSome = true
  clash := Field.clashSkipping c empty
  read_write := Field.readSkipping_write c empty
  accepts_of_read _ hread := hread
  overlay_isSome := Field.overlaySkipping_isSome c empty
  read_merge := Field.readSkipping_merge c empty

/-- A field that the patch does not name keeps its value. -/
def Field.patched (f : Field T) (t : T) : Option Value → Option T
  | none => some t
  | some v => f.overlay t v

theorem Field.patched_isSome (f : Field T) (t : T) {value : Option Value}
    (haccepts : ∀ v ∈ value, f.accepts v) : (f.patched t value).isSome = true := by
  cases value with
  | none => rfl
  | some v => exact f.overlay_isSome t v (haccepts v rfl)

end Fields

/-- The fields of a record, one after the other, each with its names. -/
inductive Record : Type → Type 1
  | nil : Record Unit
  | cons {A T : Type} (name : Text) (other : Option Text) (field : Field A)
      (rest : Record T) : Record (A × T)

abbrev Given := Text → Option Value

/-- What is given for a field.  It may not be given under both its names. -/
def pick (name : Text) (other : Option Text) (given : Given) : Option (Option Value) :=
  match given name, other.bind given with
  | some _, some _ => none
  | some v, none => some (some v)
  | none, value => some value

namespace Record

def names {T : Type} : Record T → List Text
  | nil => []
  | cons name other _ rest => name :: (other.toList ++ rest.names)

def write {T : Type} : Record T → T → List (Text × Value)
  | nil, _ => []
  | cons name _ field rest, (a, t) =>
      match field.write a with
      | some v => (name, v) :: rest.write t
      | none => rest.write t

def read {T : Type} : Record T → Given → Option T
  | nil, _ => some ()
  | cons name other field rest, given =>
      match (pick name other given).bind field.read, rest.read given with
      | some a, some t => some (a, t)
      | _, _ => none

def overlay {T : Type} : Record T → T → Given → Option T
  | nil, _, _ => some ()
  | cons name other field rest, (a, t), given =>
      match (pick name other given).bind (field.patched a), rest.overlay t given with
      | some a', some t' => some (a', t')
      | _, _ => none

def accepts {T : Type} : Record T → Given → Prop
  | nil, _ => True
  | cons name other field rest, given =>
      (∃ value, pick name other given = some value ∧ ∀ v ∈ value, field.accepts v) ∧
        rest.accepts given

/-- A field is given under its other name, or something below it clashes. -/
def columnClash {A : Type} (name : Text) (other : Option Text) (field : Field A) (a : A)
    (given : Given) : Bool :=
  ((field.write a).isSome && (other.bind given).isSome) ||
    (pick name other given).any (·.any (field.clash a))

def clash {T : Type} : Record T → T → Given → Bool
  | nil, _, _ => false
  | cons name other field rest, (a, t), given =>
      columnClash name other field a given || rest.clash t given

/-- `given` is what was written for `t`. -/
def Writes {T : Type} : Record T → T → Given → Prop
  | nil, _, _ => True
  | cons name other field rest, (a, t), given =>
      given name = field.write a ∧ other.bind given = none ∧ rest.Writes t given

section Laws

variable {T : Type}

theorem read_writes {r : Record T} {t : T} {given : Given} (hwrites : r.Writes t given) :
    r.read given = some t := by
  induction r with
  | nil => rfl
  | cons name other field rest ih =>
      obtain ⟨a, t⟩ := t
      obtain ⟨hname, hother, hrest⟩ := hwrites
      have hpick : pick name other given = some (field.write a) := by
        rw [pick, hname, hother]
        cases field.write a <;> rfl
      rw [read, hpick, Option.bind_some, field.read_write, ih hrest]

theorem accepts_of_read {r : Record T} {given : Given}
    (hread : (r.read given).isSome = true) : r.accepts given := by
  induction r with
  | nil => trivial
  | cons name other field rest ih =>
      rw [read] at hread
      cases hpick : pick name other given with
      | none => simp [hpick] at hread
      | some value =>
          cases hrest : rest.read given with
          | none => simp [hrest] at hread
          | some t =>
              refine ⟨⟨value, hpick, ?_⟩, ih (by rw [hrest]; rfl)⟩
              intro v hv
              obtain rfl : value = some v := hv
              apply field.accepts_of_read
              cases hfield : field.read (some v) with
              | none => simp [hpick, hfield] at hread
              | some a => rfl

theorem overlay_isSome {r : Record T} (t : T) {given : Given} (haccepts : r.accepts given) :
    (r.overlay t given).isSome = true := by
  induction r with
  | nil => rfl
  | cons name other field rest ih =>
      obtain ⟨a, t⟩ := t
      obtain ⟨⟨value, hpick, hvalue⟩, hrest⟩ := haccepts
      obtain ⟨a', ha'⟩ := Option.isSome_iff_exists.mp (field.patched_isSome a hvalue)
      obtain ⟨t', ht'⟩ := Option.isSome_iff_exists.mp (ih t hrest)
      rw [overlay, hpick, Option.bind_some, ha', ht']
      rfl

theorem pick_wellFormed {name : Text} {other : Option Text} {given : Given} {v : Value}
    (hwell : ∀ name v, given name = some v → v.WellFormed)
    (hpick : pick name other given = some (some v)) : v.WellFormed := by
  unfold pick at hpick
  cases hname : given name with
  | none =>
      simp only [hname, Option.some.injEq] at hpick
      obtain ⟨text, -, htext⟩ := Option.bind_eq_some_iff.mp hpick
      exact hwell text v htext
  | some value =>
      cases hother : other.bind given with
      | none =>
          simp only [hname, hother, Option.some.injEq] at hpick
          exact hwell name v (hpick ▸ hname)
      | some second => simp [hname, hother] at hpick

section Column

variable {A : Type} {name : Text} {other : Option Text} {field : Field A} {a : A}
variable {base given : Given}

/-- A field given under its own name only. -/
theorem pick_own (hother : other.bind given = none) :
    pick name other given = some (given name) := by
  rw [pick, hother]
  cases given name <;> rfl

theorem bind_mergeGiven (hbase : other.bind base = none) :
    other.bind (mergeGiven base given) = other.bind given := by
  cases other with
  | none => rfl
  | some text =>
      simp only [Option.bind_some] at hbase ⊢
      rw [mergeGiven, hbase]
      cases given text <;> rfl

/-- One field read from the merged documents. -/
theorem column_merge (hname : base name = field.write a) (hbase : other.bind base = none)
    (hwell : ∀ name v, given name = some v → v.WellFormed) {value : Option Value}
    (hpick : pick name other given = some value) (haccepts : ∀ v ∈ value, field.accepts v) :
    (pick name other (mergeGiven base given)).bind field.read =
      if columnClash name other field a given then none else field.patched a value := by
  cases hother : other.bind given with
  | none =>
      have hvalue : given name = value := by
        rw [pick_own hother] at hpick
        exact Option.some.inj hpick
      have hmerged : pick name other (mergeGiven base given) =
          some (mergeGiven base given name) := by
        apply pick_own
        rw [bind_mergeGiven hbase, hother]
      rw [hmerged, Option.bind_some, mergeGiven, columnClash, hpick, hother, hname, hvalue]
      cases value with
      | none => simp [field.read_write, Field.patched]
      | some v =>
          have hv := pick_wellFormed hwell hpick
          simp only [field.read_merge a v hv (haccepts v rfl)]
          simp [Field.patched]
  | some v =>
      have hown : given name = none := by
        cases hgiven : given name with
        | none => rfl
        | some first => simp [pick, hgiven, hother] at hpick
      have hvalue : value = some v := by
        rw [pick, hown, hother] at hpick
        exact (Option.some.inj hpick).symm
      subst hvalue
      have hv := pick_wellFormed hwell hpick
      have hread := field.read_merge a v hv (haccepts v rfl)
      have hmerged : mergeGiven base given name = field.write a := by
        rw [mergeGiven, hown, hname]
      rw [pick, hmerged, bind_mergeGiven hbase, hother, columnClash, hpick, hother]
      cases hwrite : field.write a with
      | some old => simp
      | none =>
          rw [hwrite, mergeInto] at hread
          simpa [Field.patched] using hread

end Column

/-- A record read from the merged documents is the record with the patch laid over
it, unless a field has two names there. -/
theorem read_merge {r : Record T} {t : T} {base given : Given} (hwrites : r.Writes t base)
    (hwell : ∀ name v, given name = some v → v.WellFormed) (haccepts : r.accepts given) :
    r.read (mergeGiven base given) =
      if r.clash t given then none else r.overlay t given := by
  induction r with
  | nil => rfl
  | cons name other field rest ih =>
      obtain ⟨a, t⟩ := t
      obtain ⟨hname, hother, hrest⟩ := hwrites
      obtain ⟨⟨value, hpick, hvalue⟩, haccepts⟩ := haccepts
      rw [read, column_merge hname hother hwell hpick hvalue, ih hrest haccepts, clash,
        overlay, hpick, Option.bind_some]
      cases columnClash name other field a given with
      | true => rfl
      | false =>
          cases rest.clash t given with
          | true => cases field.patched a value <;> rfl
          | false => rfl

end Laws

section Stub

variable {T : Type}

/-- Whatever can be read over `base` is acceptable. -/
def Admits {T : Type} : Record T → Given → Prop
  | nil, _ => True
  | cons name other field rest, base =>
      (∀ v, v.WellFormed →
        (field.read (some (mergeInto (base name) v))).isSome = true → field.accepts v) ∧
        other.bind base = none ∧ rest.Admits base

/-- A base that is no mapping adds nothing to what is read over it. -/
theorem admits_field {A : Type} (field : Field A) {base : Option Value}
    (hbase : ∀ b ∈ base, b.isMapping = false) (v : Value)
    (hread : (field.read (some (mergeInto base v))).isSome = true) : field.accepts v := by
  apply field.accepts_of_read
  cases base with
  | none => exact hread
  | some b => rwa [mergeInto, merge_of_not_mapping (hbase b rfl)] at hread

/-- What could be read over an incomplete document is acceptable over a complete one. -/
theorem accepts_of_read_merge {r : Record T} {base given : Given} (hadmits : r.Admits base)
    (hwell : ∀ name v, given name = some v → v.WellFormed)
    (hread : (r.read (mergeGiven base given)).isSome = true) : r.accepts given := by
  induction r with
  | nil => trivial
  | cons name other field rest ih =>
      obtain ⟨hfield, hother, hrest⟩ := hadmits
      rw [read] at hread
      cases hpick : pick name other (mergeGiven base given) with
      | none => simp [hpick] at hread
      | some merged =>
          cases htail : rest.read (mergeGiven base given) with
          | none => simp [htail] at hread
          | some t =>
              refine ⟨?_, ih hrest (by rw [htail]; rfl)⟩
              have hvalue : (field.read merged).isSome = true := by
                cases hmerged : field.read merged with
                | none => simp [hpick, hmerged] at hread
                | some a => rfl
              have hgiven : other.bind (mergeGiven base given) = other.bind given :=
                bind_mergeGiven hother
              rw [pick, hgiven] at hpick
              cases hname : given name with
              | none =>
                  refine ⟨other.bind given, by rw [pick, hname], ?_⟩
                  intro v hv
                  obtain hv : other.bind given = some v := hv
                  rw [mergeGiven, hname, hv] at hpick
                  cases hbase : base name with
                  | some old => simp [hbase] at hpick
                  | none =>
                      simp only [hbase, Option.some.injEq] at hpick
                      obtain ⟨text, -, htext⟩ := Option.bind_eq_some_iff.mp hv
                      apply hfield v (hwell text v htext)
                      rwa [hbase, mergeInto, hpick]
              | some first =>
                  rw [mergeGiven, hname] at hpick
                  cases hsecond : other.bind given with
                  | some second => simp [hsecond] at hpick
                  | none =>
                      simp only [hsecond, Option.some.injEq] at hpick
                      refine ⟨some first, by rw [pick, hname, hsecond], ?_⟩
                      intro v hv
                      obtain rfl : first = v := Option.some.inj hv
                      apply hfield first (hwell name first hname)
                      rwa [hpick]

section Head

variable {A : Type} {name : Text} {field : Field A} {rest : Record T} {given : Given}

theorem read_head {result : A × T}
    (hread : (cons name none field rest).read given = some result) :
    field.read (given name) = some result.1 := by
  rw [read, pick_own rfl, Option.bind_some] at hread
  cases hfield : field.read (given name) with
  | none => simp [hfield] at hread
  | some a =>
      cases hrest : rest.read given with
      | none => simp [hrest] at hread
      | some t =>
          simp only [hfield, hrest, Option.some.injEq] at hread
          rw [← hread]

theorem overlay_head {a : A} {t : T} {result : A × T}
    (hoverlay : (cons name none field rest).overlay (a, t) given = some result) :
    field.patched a (given name) = some result.1 := by
  rw [overlay, pick_own rfl, Option.bind_some] at hoverlay
  cases hfield : field.patched a (given name) with
  | none => simp [hfield] at hoverlay
  | some a' =>
      cases hrest : rest.overlay t given with
      | none => simp [hrest] at hoverlay
      | some t' =>
          simp only [hfield, hrest, Option.some.injEq] at hoverlay
          rw [← hoverlay]

end Head

theorem columnClash_eq {A : Type} {field : Field A} (hfield : ∀ a v, field.clash a v = false)
    (name : Text) (other : Option Text) (a : A) (given : Given) :
    columnClash name other field a given =
      ((field.write a).isSome && (other.bind given).isSome) := by
  have hnone : (pick name other given).any (·.any (field.clash a)) = false := by
    cases pick name other given with
    | none => rfl
    | some value => cases value <;> simp [hfield]
  rw [columnClash, hnone, Bool.or_false]

/-- A record whose fields have one name each and never clash. -/
def Plain {T : Type} : Record T → Prop
  | nil => True
  | cons _ other field rest =>
      other = none ∧ (∀ a v, field.clash a v = false) ∧ rest.Plain

theorem clash_plain {r : Record T} (hplain : r.Plain) (t : T) (given : Given) :
    r.clash t given = false := by
  induction r with
  | nil => rfl
  | cons name other field rest ih =>
      obtain ⟨a, t⟩ := t
      obtain ⟨rfl, hfield, hrest⟩ := hplain
      rw [clash, columnClash_eq hfield, ih hrest t]
      simp

end Stub

section Codec

variable {T : Type}

theorem lookup_eq_none_of_notMem {r : Record T} (t : T) {name : Text}
    (hname : name ∉ r.names) : (r.write t).lookup name = none := by
  induction r with
  | nil => rfl
  | cons first other field rest ih =>
      obtain ⟨a, t⟩ := t
      simp only [names, List.mem_cons, List.mem_append, not_or] at hname
      obtain ⟨hfirst, -, hrest⟩ := hname
      cases hwrite : field.write a with
      | none => simpa [write, hwrite] using ih t hrest
      | some v =>
          have hne : (name == first) = false := beq_eq_false_iff_ne.mpr hfirst
          simpa [write, hwrite, List.lookup_cons, hne] using ih t hrest

theorem writes_of_agree {r : Record T} {t : T} {given : Given} (hnodup : r.names.Nodup)
    (hagree : ∀ name ∈ r.names, given name = (r.write t).lookup name) :
    r.Writes t given := by
  induction r with
  | nil => trivial
  | cons name other field rest ih =>
      obtain ⟨a, t⟩ := t
      simp only [names, List.nodup_cons, List.nodup_append, List.mem_append, not_or] at hnodup
      obtain ⟨⟨hself, hfresh⟩, -, hrest, hdisjoint⟩ := hnodup
      have htail : ∀ text ≠ name, ((cons name other field rest).write (a, t)).lookup text =
          (rest.write t).lookup text := by
        intro text hne
        have hbeq : (text == name) = false := beq_eq_false_iff_ne.mpr hne
        cases hwrite : field.write a <;> simp [write, hwrite, List.lookup_cons, hbeq]
      refine ⟨?_, ?_, ih hrest ?_⟩
      · rw [hagree name (by simp [names])]
        cases hwrite : field.write a with
        | none => simpa [write, hwrite] using lookup_eq_none_of_notMem t hfresh
        | some v => simp [write, hwrite]
      · cases other with
        | none => rfl
        | some text =>
            have hne : text ≠ name := fun h => hself (by simp [h])
            have hnot : text ∉ rest.names := fun h => hdisjoint text (by simp) text h rfl
            rw [Option.bind_some, hagree text (by simp [names]), htail text hne]
            exact lookup_eq_none_of_notMem t hnot
      · intro text htext
        have hne : text ≠ name := fun h => hfresh (h ▸ htext)
        rw [hagree text (by simp [names, htext]), htail text hne]

/-- The entries of a mapping with text keys. -/
def entries : List (Text × Value) → Entries
  | [] => .nil
  | (name, v) :: rest => .cons (.string name) v (entries rest)

theorem given_entries (fields : List (Text × Value)) :
    (entries fields).given = fun name => fields.lookup name := by
  funext name
  induction fields with
  | nil => rfl
  | cons field rest ih =>
      obtain ⟨first, v⟩ := field
      by_cases hname : first = name
      · subst hname
        rw [entries, Entries.given, Entries.find_cons_self]
        simp
      · have hne : Value.string first ≠ .string name := fun h => hname (Value.string.inj h)
        have hbeq : (name == first) = false := beq_eq_false_iff_ne.mpr (Ne.symm hname)
        rw [entries, Entries.given, Entries.find_cons_ne hne, List.lookup_cons, hbeq]
        exact ih

theorem textKeys_entries (fields : List (Text × Value)) :
    (entries fields).textKeys = true := by
  induction fields with
  | nil => rfl
  | cons field rest ih => exact ih

theorem writes_entries {r : Record T} (hnodup : r.names.Nodup) (t : T) :
    r.Writes t (entries (r.write t)).given := by
  rw [given_entries]
  exact writes_of_agree hnodup fun _ _ => rfl

variable (r : Record T)

/-- Read a struct.  Nothing is the empty mapping; a field with a name that is not known
is ignored, a key that is no text is an error. -/
def readStruct : Value → Option T
  | .null => r.read fun _ => none
  | .mapping fields => if fields.textKeys then r.read fields.given else none
  | _ => none

def overlayStruct (t : T) : Value → Option T
  | .mapping fields => r.overlay t fields.given
  | v => readStruct r v

def acceptsStruct : Value → Prop
  | .mapping fields => fields.textKeys = true ∧ r.accepts fields.given
  | v => (readStruct r v).isSome = true

def clashStruct (t : T) : Value → Bool
  | .mapping fields => r.clash t fields.given
  | _ => false

theorem readStruct_write {r : Record T} (hnodup : r.names.Nodup) (t : T) :
    readStruct r (.mapping (entries (r.write t))) = some t := by
  rw [readStruct, textKeys_entries, if_pos rfl, read_writes (writes_entries hnodup t)]

theorem acceptsStruct_of_read {r : Record T} (v : Value)
    (hread : (readStruct r v).isSome = true) : acceptsStruct r v := by
  cases v with
  | mapping fields =>
      cases hkeys : fields.textKeys with
      | true =>
          rw [readStruct, hkeys, if_pos rfl] at hread
          exact ⟨hkeys, accepts_of_read hread⟩
      | false => simp [readStruct, hkeys] at hread
  | _ => exact hread

theorem overlayStruct_isSome {r : Record T} (t : T) (v : Value)
    (haccepts : acceptsStruct r v) : (overlayStruct r t v).isSome = true := by
  cases v with
  | mapping fields => exact overlay_isSome t haccepts.2
  | _ => exact haccepts

theorem readStruct_merge {r : Record T} (hnodup : r.names.Nodup) (t : T) (v : Value)
    (hwell : v.WellFormed) (haccepts : acceptsStruct r v) :
    readStruct r (merge (.mapping (entries (r.write t))) v) =
      if clashStruct r t v then none else overlayStruct r t v := by
  cases v with
  | mapping fields =>
      have hfields : ∀ name v, fields.given name = some v → v.WellFormed :=
        fun name v hv => Entries.WellFormed.find hwell hv
      rw [merge, readStruct, textKeys_mergeEntries, textKeys_entries, haccepts.1,
        given_mergeEntries (Entries.WellFormed.distinct hwell)]
      exact read_merge (writes_entries hnodup t) hfields haccepts.2
  | _ => rfl

end Codec

end Record

/-- The codec of a struct from its fields. -/
def Record.codec {T X : Type} (r : Record T) (hnodup : r.names.Nodup) (e : X ≃ T) :
    Codec X where
  write x := .mapping (Record.entries (r.write (e x)))
  read v := (r.readStruct v).map e.symm
  overlay x v := (r.overlayStruct (e x) v).map e.symm
  accepts := r.acceptsStruct
  clash x v := r.clashStruct (e x) v
  write_ne_null _ := Value.noConfusion
  read_write x := by rw [readStruct_write hnodup, Option.map_some, Equiv.symm_apply_apply]
  accepts_of_read v hread := acceptsStruct_of_read v (by rwa [Option.isSome_map] at hread)
  overlay_isSome x v haccepts := by
    rw [Option.isSome_map]
    exact overlayStruct_isSome (e x) v haccepts
  read_merge x v hwell haccepts := by
    rw [readStruct_merge hnodup (e x) v hwell haccepts]
    cases r.clashStruct (e x) v <;> rfl

section Clash

variable {T : Type} {c : Codec T}

theorem Codec.optional_clash (hclash : ∀ t v, c.clash t v = false) (skip : Bool)
    (field : Option T) (v : Value) : (c.optional skip).clash field v = false := by
  change Field.clashOption c field v = false
  cases field <;> cases v <;> first | rfl | exact hclash _ _

theorem Codec.skipping_clash [DecidableEq T] (hclash : ∀ t v, c.clash t v = false)
    (empty t : T) (v : Value) : (c.skipping empty).clash t v = false := by
  change Field.clashSkipping c empty t v = false
  rw [Field.clashSkipping, hclash, ite_self]

theorem Record.codec_clash {X : Type} {r : Record T} (hplain : r.Plain)
    (hnodup : r.names.Nodup) (e : X ≃ T) (x : X) (v : Value) :
    (r.codec hnodup e).clash x v = false := by
  cases v with
  | mapping fields => exact Record.clash_plain hplain (e x) fields.given
  | _ => rfl

end Clash

section TextMap

/-- A map from texts to texts, in the order of its keys. -/
abbrev TextMap := Std.ExtTreeMap Text Text compare

namespace TextMap

/-- Insert the entries one after the other.  Keys and values have to be texts. -/
def collect : TextMap → Entries → Option TextMap
  | m, .nil => some m
  | m, .cons key value rest =>
      match key.asText, value.asText with
      | some name, some text => collect (m.insert name text) rest
      | _, _ => none

def entries (m : TextMap) : List (Text × Value) :=
  m.toList.map fun entry => (entry.1, .string entry.2)

def read : Value → Option TextMap
  | .mapping fields => collect ∅ fields
  | .null => some ∅
  | _ => none

def overlay (m : TextMap) : Value → Option TextMap
  | .mapping fields => collect m fields
  | v => read v

variable {m m' : TextMap} {fields base patch : Entries}

theorem asText_eq_some {v : Value} {text : Text} : v.asText = some text ↔ v = .string text := by
  cases v <;> simp [Value.asText]

/-- What is collected: the entries, over what was there. -/
theorem collect_getElem? (hdistinct : fields.Distinct) (hcollect : collect m fields = some m')
    (name : Text) :
    m'[name]? = match fields.given name with
      | some v => v.asText
      | none => m[name]? := by
  induction fields generalizing m with
  | nil =>
      rw [collect, Option.some.injEq] at hcollect
      rw [hcollect]
      rfl
  | cons key value rest ih =>
      cases hkey : key.asText with
      | none => simp [collect, hkey] at hcollect
      | some first =>
          cases hvalue : value.asText with
          | none => simp [collect, hvalue] at hcollect
          | some text =>
              simp only [collect, hkey, hvalue] at hcollect
              rw [ih hdistinct.2 hcollect]
              obtain rfl := asText_eq_some.mp hkey
              by_cases hname : first = name
              · subst hname
                have hrest : rest.given first = none := hdistinct.1
                rw [hrest, Entries.given, Entries.find_cons_self]
                simp [hvalue]
              · have hne : Value.string first ≠ .string name :=
                  fun h => hname (Value.string.inj h)
                rw [Entries.given, Entries.given, Entries.find_cons_ne hne,
                  Std.ExtTreeMap.getElem?_insert, if_neg (by simpa using hname)]

theorem collect_isSome_iff (hdistinct : fields.Distinct) :
    (collect m fields).isSome = true ↔
      ∀ key v, fields.find key = some v →
        key.asText.isSome = true ∧ v.asText.isSome = true := by
  induction fields generalizing m with
  | nil => simp [collect, Entries.find]
  | cons first value rest ih =>
      constructor
      · intro hcollect key v hfind
        cases hfirst : first.asText with
        | none => simp [collect, hfirst] at hcollect
        | some name =>
            cases hvalue : value.asText with
            | none => simp [collect, hvalue] at hcollect
            | some text =>
                simp only [collect, hfirst, hvalue] at hcollect
                by_cases hkey : first = key
                · rw [Entries.find, if_pos hkey, Option.some.injEq] at hfind
                  subst hkey hfind
                  exact ⟨by rw [hfirst]; rfl, by rw [hvalue]; rfl⟩
                · rw [Entries.find_cons_ne hkey] at hfind
                  exact (ih hdistinct.2).mp hcollect key v hfind
      · intro htexts
        have hhead := htexts first value (Entries.find_cons_self first value rest)
        obtain ⟨name, hfirst⟩ := Option.isSome_iff_exists.mp hhead.1
        obtain ⟨text, hvalue⟩ := Option.isSome_iff_exists.mp hhead.2
        simp only [collect, hfirst, hvalue]
        apply (ih hdistinct.2).mpr
        intro key v hfind
        have hkey : first ≠ key := by
          intro hsame
          rw [← hsame, hdistinct.1] at hfind
          cases hfind
        exact htexts key v (by rwa [Entries.find_cons_ne hkey])

theorem lookup_map_string (pairs : List (Text × Text)) (name : Text) :
    (pairs.map fun entry => (entry.1, Value.string entry.2)).lookup name =
      (pairs.lookup name).map Value.string := by
  induction pairs with
  | nil => rfl
  | cons entry rest ih =>
      obtain ⟨first, text⟩ := entry
      simp only [List.map_cons, List.lookup_cons]
      cases name == first with
      | true => rfl
      | false => exact ih

theorem lookup_toList (m : TextMap) (name : Text) : m.toList.lookup name = m[name]? := by
  cases hget : m[name]? with
  | none =>
      rw [List.lookup_eq_none_iff]
      intro entry hentry
      rw [bne_iff_ne]
      intro hname
      have hsome := Std.ExtTreeMap.mem_toList_iff_getElem?_eq_some.mp hentry
      rw [← hname, hget] at hsome
      cases hsome
  | some text =>
      have hmem := Std.ExtTreeMap.mem_toList_iff_getElem?_eq_some.mpr hget
      obtain ⟨before, after, hsplit⟩ := List.append_of_mem hmem
      refine List.lookup_eq_some_iff.mpr ⟨before, after, hsplit, ?_⟩
      intro entry hentry
      have hordered := Std.ExtTreeMap.distinct_keys_toList (t := m)
      rw [hsplit, List.pairwise_append] at hordered
      have hne := hordered.2.2 entry hentry (name, text) List.mem_cons_self
      rw [bne_iff_ne]
      intro hsame
      exact hne (by simp [hsame])

theorem given_entries (m : TextMap) (name : Text) :
    (Record.entries (entries m)).given name = m[name]?.map Value.string := by
  rw [Record.given_entries, ← lookup_toList, ← lookup_map_string, entries]

theorem distinct_of_pairwise (pairs : List (Text × Text))
    (hpairs : pairs.Pairwise fun a b => ¬ compare a.1 b.1 = .eq) :
    (Record.entries (pairs.map fun entry => (entry.1, .string entry.2))).Distinct := by
  induction pairs with
  | nil => trivial
  | cons entry rest ih =>
      rw [List.pairwise_cons] at hpairs
      refine ⟨?_, ih hpairs.2⟩
      change (Record.entries _).given entry.1 = none
      rw [Record.given_entries, List.lookup_eq_none_iff]
      intro other hother
      obtain ⟨pair, hpair, rfl⟩ := List.mem_map.mp hother
      rw [bne_iff_ne]
      intro hsame
      exact hpairs.1 pair hpair (by simp [hsame])

theorem distinct_entries (m : TextMap) : (Record.entries (entries m)).Distinct :=
  distinct_of_pairwise m.toList Std.ExtTreeMap.distinct_keys_toList

theorem find_entries {m : TextMap} {key v : Value}
    (hfind : (Record.entries (entries m)).find key = some v) :
    ∃ name text, key = .string name ∧ v = .string text ∧ m[name]? = some text := by
  have htext := Entries.isText_of_find (Record.textKeys_entries _) hfind
  obtain ⟨name, hname⟩ := Option.isSome_iff_exists.mp htext
  obtain rfl := asText_eq_some.mp hname
  have hgiven := given_entries m name
  rw [Entries.given, hfind] at hgiven
  obtain ⟨text, htext, rfl⟩ := Option.map_eq_some_iff.mp hgiven.symm
  exact ⟨name, text, rfl, rfl, htext⟩

theorem read_write (m : TextMap) :
    read (.mapping (Record.entries (entries m))) = some m := by
  have hsome : (collect ∅ (Record.entries (entries m))).isSome = true := by
    apply (collect_isSome_iff (distinct_entries m)).mpr
    intro key v hfind
    obtain ⟨name, text, rfl, rfl, -⟩ := find_entries hfind
    exact ⟨rfl, rfl⟩
  obtain ⟨m', hcollect⟩ := Option.isSome_iff_exists.mp hsome
  rw [read, hcollect, Option.some.injEq]
  apply Std.ExtTreeMap.ext_getElem?
  intro name
  rw [collect_getElem? (distinct_entries m) hcollect, given_entries]
  cases m[name]? with
  | some text => rfl
  | none => simp

theorem collect_isSome_congr (m m' : TextMap) (fields : Entries) :
    (collect m fields).isSome = (collect m' fields).isSome := by
  induction fields generalizing m m' with
  | nil => rfl
  | cons key value rest ih =>
      cases hkey : key.asText with
      | none => simp [collect, hkey]
      | some name =>
          cases hvalue : value.asText with
          | none => simp [collect, hvalue]
          | some text => simpa [collect, hkey, hvalue] using ih _ _

theorem overlay_isSome (m : TextMap) (v : Value) (hread : (read v).isSome = true) :
    (overlay m v).isSome = true := by
  cases v with
  | mapping fields => exact (collect_isSome_congr m ∅ fields).trans hread
  | _ => exact hread

theorem mergeInto_text {v : Value} (hv : v.asText.isSome = true) (base : Option Value) :
    mergeInto base v = v := by
  obtain ⟨text, htext⟩ := Option.isSome_iff_exists.mp hv
  rw [asText_eq_some.mp htext]
  exact mergeInto_not_mapping rfl base

/-- The entries of a map with a patch over them. -/
theorem read_merge (m : TextMap) (v : Value) (hwell : v.WellFormed)
    (hread : (read v).isSome = true) :
    read (merge (.mapping (Record.entries (entries m))) v) = overlay m v := by
  cases v with
  | mapping fields =>
      have hfields := Entries.WellFormed.distinct hwell
      have hmerged :
          Entries.Distinct (mergeEntries (Record.entries (entries m)) fields) :=
        distinct_mergeEntries (distinct_entries m)
      have htexts := (collect_isSome_iff hfields).mp hread
      have hsome : (collect ∅ (mergeEntries (Record.entries (entries m)) fields)).isSome =
          true := by
        apply (collect_isSome_iff hmerged).mpr
        intro key v hfind
        rw [find_mergeEntries hfields] at hfind
        cases hpatch : fields.find key with
        | none =>
            simp only [hpatch] at hfind
            obtain ⟨name, text, rfl, rfl, -⟩ := find_entries hfind
            exact ⟨rfl, rfl⟩
        | some new =>
            simp only [hpatch, Option.some.injEq] at hfind
            have hnew := htexts key new hpatch
            rw [mergeInto_text hnew.2] at hfind
            exact hfind ▸ hnew
      obtain ⟨left, hleft⟩ := Option.isSome_iff_exists.mp hsome
      obtain ⟨right, hright⟩ := Option.isSome_iff_exists.mp (overlay_isSome m _ hread)
      rw [merge, read, hleft, hright, Option.some.injEq]
      apply Std.ExtTreeMap.ext_getElem?
      intro name
      rw [collect_getElem? hmerged hleft, collect_getElem? hfields hright,
        given_mergeEntries hfields, mergeGiven]
      cases hpatch : fields.given name with
      | none =>
          rw [given_entries]
          cases m[name]? with
          | some text => rfl
          | none => simp
      | some new => simp [mergeInto_text (htexts _ new hpatch).2]
  | _ => rfl

end TextMap

def Codec.textMap : Codec TextMap where
  write m := .mapping (Record.entries (TextMap.entries m))
  read := TextMap.read
  overlay := TextMap.overlay
  accepts v := (TextMap.read v).isSome = true
  clash _ _ := false
  write_ne_null _ := Value.noConfusion
  read_write := TextMap.read_write
  accepts_of_read _ hread := hread
  overlay_isSome := TextMap.overlay_isSome
  read_merge := TextMap.read_merge

end TextMap

end PertiskKos.Yaml
