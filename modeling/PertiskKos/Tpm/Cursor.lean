import PertiskKos.Tpm.Wire

/-!
# Reading at a position

The reader keeps the whole buffer and a position in it, and takes slices by their offsets.  A
slice that reaches outside the buffer would be a panic; that there is none is proved, by
following the reader that takes bytes off the front.
-/

namespace PertiskKos.Tpm

open Strings Hex

/-- How a command fails: on the way to the device, by a response code, or in parsing. -/
inductive CommandError where
  | io (message : Text)
  | tpmRc (code : Nat)
  | wire (err : Error)
  deriving DecidableEq

structure Cursor where
  data : Bytes
  pos : Nat
  deriving DecidableEq

/-- No slice is longer than `isize::MAX`. -/
structure Cursor.Valid (c : Cursor) : Prop where
  pos_le : c.pos ≤ c.data.length
  short : c.data.length < 2 ^ 63

abbrev Scan (A : Type) := StateT Cursor (Except CommandError) A

/-- `&data[low..high]` -/
def slice (data : Bytes) (low high : Nat) : Except CommandError Bytes :=
  if low ≤ high ∧ high ≤ data.length then .ok ((data.take high).drop low)
  else .error (.wire .panics)

/-- The bytes of a number, by their indices. -/
def fixed (width : Nat) (bytes : Bytes) : Except CommandError Nat :=
  if bytes.length = width then .ok (beNat bytes) else .error (.wire .panics)

namespace Scan

/-- The sum of the offsets is a `usize`. -/
def take (n : Nat) : Scan Bytes := fun c =>
  if 2 ^ 64 ≤ c.pos + n then .error (.wire .panics)
  else if c.data.length < c.pos + n then
    .error (.wire (.parse "truncated TPM buffer".toList))
  else do
    let taken ← slice c.data c.pos (c.pos + n)
    pure (taken, { c with pos := c.pos + n })

def number (width : Nat) : Scan Nat := do
  let bytes ← take width
  fixed width bytes

def u8 : Scan Nat := number 1

def u16 : Scan Nat := number 2

def u32 : Scan Nat := number 4

def u64 : Scan Nat := number 8

def tpm2b : Scan Bytes := do
  let size ← u16
  take size

end Scan

def Cursor.remaining (c : Cursor) : Nat := c.data.length - c.pos

/-! ## Following the front of the buffer -/

/-- What has not been read. -/
def Cursor.rest (c : Cursor) : Bytes := c.data.drop c.pos

def Cursor.advance (c : Cursor) (n : Nat) : Cursor := { c with pos := c.pos + n }

/-- Both find the same value or the same error, and go on at the same byte. -/
def Follows {A : Type} (scan : Scan A) (reader : Reader A) (post : A → Prop) : Prop :=
  ∀ c : Cursor, c.Valid → match reader c.rest with
    | .ok (value, rest) => post value ∧
        ∃ n, n ≤ c.rest.length ∧ rest = c.rest.drop n ∧ scan c = .ok (value, c.advance n)
    | .error err => err ≠ .panics ∧ scan c = .error (.wire err)

section Position

variable {c : Cursor} {n : Nat}

theorem Cursor.length_rest (c : Cursor) : c.rest.length = c.data.length - c.pos :=
  List.length_drop

theorem Cursor.rest_advance (c : Cursor) (n : Nat) : (c.advance n).rest = c.rest.drop n := by
  rw [rest, rest, advance, List.drop_drop]

theorem Cursor.advance_advance (c : Cursor) (n m : Nat) :
    (c.advance n).advance m = c.advance (n + m) := by
  rw [advance, advance, advance, Nat.add_assoc]

theorem Cursor.Valid.advance (hvalid : c.Valid) (hn : n ≤ c.rest.length) :
    (c.advance n).Valid := by
  rw [length_rest] at hn
  have hpos := hvalid.pos_le
  exact ⟨by rw [Cursor.advance]; dsimp only; omega, hvalid.short⟩

theorem Cursor.Valid.start {data : Bytes} (hshort : data.length < 2 ^ 63) :
    (Cursor.mk data 0).Valid := ⟨Nat.zero_le _, hshort⟩

end Position

namespace Follows

variable {A B : Type} {scan : Scan A} {reader : Reader A} {post later : A → Prop}

theorem weaken (hscan : Follows scan reader post) (hpost : ∀ value, post value → later value) :
    Follows scan reader later := by
  intro c hvalid
  have hstep := hscan c hvalid
  cases hread : reader c.rest with
  | error err =>
      rw [hread] at hstep
      exact hstep
  | ok found =>
      rw [hread] at hstep
      exact ⟨hpost _ hstep.1, hstep.2⟩

theorem pure {value : A} (hpost : post value) : Follows (pure value) (pure value) post := by
  intro c _
  exact ⟨hpost, 0, Nat.zero_le _, rfl, rfl⟩

theorem throw {err : Error} (herr : err ≠ .panics) :
    Follows (MonadExcept.throw (.wire err) : Scan A) (MonadExcept.throw err) post := by
  intro c _
  exact ⟨herr, rfl⟩

theorem bind {next : A → Scan B} {more : A → Reader B} {last : B → Prop}
    (hscan : Follows scan reader post)
    (hnext : ∀ value, post value → Follows (next value) (more value) last) :
    Follows (scan >>= next) (reader >>= more) last := by
  intro c hvalid
  have hstep := hscan c hvalid
  have hreader : (reader >>= more) c.rest =
      (reader c.rest >>= fun found => more found.1 found.2) := rfl
  have hscanned : (scan >>= next) c = (scan c >>= fun found => next found.1 found.2) := rfl
  cases hread : reader c.rest with
  | error err =>
      rw [hread] at hstep
      rw [hreader, hread, hscanned, hstep.2]
      exact ⟨hstep.1, rfl⟩
  | ok found =>
      obtain ⟨value, rest⟩ := found
      rw [hread] at hstep
      obtain ⟨hvalue, n, hn, rfl, hfound⟩ := hstep
      have hthen := hnext value hvalue (c.advance n) (hvalid.advance hn)
      rw [c.rest_advance] at hthen
      have hready : (reader >>= more) c.rest = more value (c.rest.drop n) := by
        rw [hreader, hread]
        rfl
      have hrun : (scan >>= next) c = next value (c.advance n) := by
        rw [hscanned, hfound]
        rfl
      rw [hready, hrun]
      cases hmore : more value (c.rest.drop n) with
      | error err =>
          rw [hmore] at hthen
          exact hthen
      | ok final =>
          rw [hmore] at hthen
          obtain ⟨hlast, m, hm, hrest, hdone⟩ := hthen
          rw [List.length_drop] at hm
          refine ⟨hlast, n + m, by omega, ?_, ?_⟩
          · rw [hrest, List.drop_drop]
          · rw [hdone, c.advance_advance]

theorem ite {p : Prop} [Decidable p] {other : Scan A} {otherwise : Reader A}
    (hthen : Follows scan reader post) (helse : Follows other otherwise post) :
    Follows (if p then scan else other) (if p then reader else otherwise) post := by
  split
  · exact hthen
  · exact helse

end Follows

section Primitives

theorem take_follows {n : Nat} (hn : n < 2 ^ 63) :
    Follows (Scan.take n) (Reader.take n) fun taken => taken.length = n := by
  intro c hvalid
  have hpos := hvalid.pos_le
  have hshort := hvalid.short
  have hfits : ¬ 2 ^ 64 ≤ c.pos + n := by omega
  have hrest := c.length_rest
  by_cases hlong : n ≤ c.rest.length
  · have hinside : ¬ c.data.length < c.pos + n := by omega
    have hslice : slice c.data c.pos (c.pos + n) = .ok (c.rest.take n) := by
      rw [slice, if_pos ⟨by omega, by omega⟩, Cursor.rest, List.drop_take, Nat.add_sub_cancel_left]
    rw [Reader.take, if_pos hlong]
    refine ⟨List.length_take_of_le hlong, n, hlong, rfl, ?_⟩
    rw [Scan.take, if_neg hfits, if_neg hinside, hslice]
    rfl
  · rw [Reader.take, if_neg hlong]
    refine ⟨fun h => Error.noConfusion h, ?_⟩
    rw [Scan.take, if_neg hfits, if_pos (by omega)]

theorem beNat_lt (bytes : Bytes) : beNat bytes < 256 ^ bytes.length := by
  have hfold : ∀ start, bytes.foldl (fun n byte => 256 * n + byte.toNat) start <
      256 ^ bytes.length * (start + 1) := by
    induction bytes with
    | nil => simp
    | cons byte bytes ih =>
        intro start
        have hbyte := byte.toNat_lt
        calc (byte :: bytes).foldl (fun n byte => 256 * n + byte.toNat) start
            < 256 ^ bytes.length * (256 * start + byte.toNat + 1) := ih _
          _ ≤ 256 ^ bytes.length * (256 * (start + 1)) :=
              Nat.mul_le_mul_left _ (by omega)
          _ = 256 ^ (byte :: bytes).length * (start + 1) := by
              rw [List.length_cons, Nat.pow_succ, Nat.mul_assoc]
  simpa [beNat] using hfold 0

theorem number_follows {width : Nat} (hwidth : width < 2 ^ 63) :
    Follows (Scan.number width) (do Pure.pure (beNat (← Reader.take width)))
      fun n => n < 256 ^ width := by
  apply Follows.bind (take_follows hwidth)
  rintro bytes rfl
  intro c _
  refine ⟨beNat_lt bytes, 0, Nat.zero_le _, rfl, ?_⟩
  change (fixed bytes.length bytes >>= fun n => Except.ok (n, c)) = _
  rw [fixed, if_pos rfl]
  rfl

theorem u8_follows : Follows Scan.u8 Reader.u8 fun n => n < 2 ^ 8 := number_follows (by decide)

theorem u16_follows : Follows Scan.u16 Reader.u16 fun n => n < 2 ^ 16 := number_follows (by decide)

theorem u32_follows : Follows Scan.u32 Reader.u32 fun n => n < 2 ^ 32 := number_follows (by decide)

theorem u64_follows : Follows Scan.u64 Reader.u64 fun n => n < 2 ^ 64 := number_follows (by decide)

theorem tpm2b_follows : Follows Scan.tpm2b Reader.tpm2b fun bytes => bytes.length < 2 ^ 16 := by
  apply Follows.bind u16_follows
  intro size hsize
  exact (take_follows (by omega)).weaken fun bytes hbytes => hbytes ▸ hsize

end Primitives

end PertiskKos.Tpm
