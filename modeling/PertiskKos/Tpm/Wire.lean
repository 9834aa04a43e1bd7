import PertiskKos.Library.Hex

/-!
# Wire format of the TPM

A reader takes big-endian numbers and sized buffers off the front of a byte string; the
only thing that can go wrong is that the bytes run out.
-/

namespace PertiskKos.Tpm

open Strings Hex

abbrev Bytes := List UInt8

inductive Error where
  | parse (message : Text)
  | verify (message : Text)
  /-- The thread panics: a text is cut in the middle of a character. -/
  | panics
  deriving DecidableEq

def tpmStAttestQuote : Nat := 0x8018

def tpmAlgSha256 : Nat := 0x000B

def tpmAlgNull : Nat := 0x0010

def tpmAlgEcdsa : Nat := 0x0018

def tpmAlgEcc : Nat := 0x0023

def tpmAlgAes : Nat := 0x0006

def tpmGeneratedValue : Nat := 0xff544347

theorem bind_ok {A B E : Type} {first : Except E A} {next : A → Except E B} {value : B}
    (hbind : first >>= next = .ok value) :
    ∃ found, first = .ok found ∧ next found = .ok value := by
  cases first with
  | error err => cases hbind
  | ok found => exact ⟨found, rfl, hbind⟩

abbrev Reader (A : Type) := StateT Bytes (Except Error) A

def beNat (bytes : Bytes) : Nat := bytes.foldl (fun n byte => 256 * n + byte.toNat) 0

namespace Reader

def take (n : Nat) : Reader Bytes := fun data =>
  if n ≤ data.length then .ok (data.take n, data.drop n)
  else .error (.parse "truncated TPM buffer".toList)

def u8 : Reader Nat := do pure (beNat (← take 1))

def u16 : Reader Nat := do pure (beNat (← take 2))

def u32 : Reader Nat := do pure (beNat (← take 4))

def u64 : Reader Nat := do pure (beNat (← take 8))

def tpm2b : Reader Bytes := do
  let size ← u16
  take size

end Reader

/-- The number in so many big-endian bytes. -/
def beBytes : Nat → Nat → Bytes
  | 0, _ => []
  | width + 1, n => beBytes width (n / 256) ++ [UInt8.ofNat n]

@[simp]
theorem length_beBytes (width n : Nat) : (beBytes width n).length = width := by
  induction width generalizing n with
  | zero => rfl
  | succ width ih => rw [beBytes, List.length_append, ih, List.length_singleton]

/-- Bytes are read back as the number that they were made of. -/
theorem beNat_beBytes {width n : Nat} (hn : n < 256 ^ width) : beNat (beBytes width n) = n := by
  induction width generalizing n with
  | zero =>
      rw [Nat.pow_zero, Nat.lt_one_iff] at hn
      rw [hn]
      rfl
  | succ width ih =>
      have hfront : n / 256 < 256 ^ width := by
        rw [Nat.pow_succ] at hn
        exact Nat.div_lt_of_lt_mul (by rwa [Nat.mul_comm] at hn)
      have hlast : (UInt8.ofNat n).toNat = n % 256 := by simp
      have hsplit : beNat (beBytes width (n / 256) ++ [UInt8.ofNat n]) =
          256 * beNat (beBytes width (n / 256)) + (UInt8.ofNat n).toNat := by
        simp only [beNat, List.foldl_append, List.foldl_cons, List.foldl_nil]
      rw [beBytes, hsplit, ih hfront, hlast]
      omega

namespace Reader

variable {A B : Type} {reader : Reader A} {next : A → Reader B} {data rest front : Bytes}
  {value : A}

theorem bind_of_ok (hread : reader data = .ok (value, rest)) :
    (reader >>= next) data = next value rest := by
  change (reader data >>= fun found => next found.1 found.2) = _
  rw [hread]
  rfl

theorem take_append {n : Nat} (hfront : front.length = n) (rest : Bytes) :
    take n (front ++ rest) = .ok (front, rest) := by
  subst hfront
  rw [take, if_pos (by rw [List.length_append]; omega), List.take_left, List.drop_left]

theorem number_append {n width : Nat} (hn : n < 256 ^ width) (rest : Bytes) :
    (do pure (beNat (← take width)) : Reader Nat) (beBytes width n ++ rest) =
      .ok (n, rest) := by
  rw [bind_of_ok (take_append (length_beBytes width n) rest), beNat_beBytes hn]
  rfl

theorem u8_append {n : Nat} (hn : n < 2 ^ 8) (rest : Bytes) :
    u8 (beBytes 1 n ++ rest) = .ok (n, rest) := number_append (by omega) rest

theorem u16_append {n : Nat} (hn : n < 2 ^ 16) (rest : Bytes) :
    u16 (beBytes 2 n ++ rest) = .ok (n, rest) := number_append (by omega) rest

theorem u32_append {n : Nat} (hn : n < 2 ^ 32) (rest : Bytes) :
    u32 (beBytes 4 n ++ rest) = .ok (n, rest) := number_append (by omega) rest

theorem tpm2b_append (hfront : front.length < 2 ^ 16) (rest : Bytes) :
    tpm2b (beBytes 2 front.length ++ front ++ rest) = .ok (front, rest) := by
  rw [tpm2b, List.append_assoc, bind_of_ok (u16_append hfront (front ++ rest))]
  exact take_append rfl rest

end Reader

section Numbers

variable {front : Bytes}

theorem number_of_length {width : Nat} (hfront : front.length = width) (rest : Bytes) :
    (do pure (beNat (← Reader.take width)) : Reader Nat) (front ++ rest) =
      .ok (beNat front, rest) := by
  rw [Reader.bind_of_ok (Reader.take_append hfront rest)]
  rfl

theorem u8_of_length (hfront : front.length = 1) (rest : Bytes) :
    Reader.u8 (front ++ rest) = .ok (beNat front, rest) := number_of_length hfront rest

theorem u16_of_length (hfront : front.length = 2) (rest : Bytes) :
    Reader.u16 (front ++ rest) = .ok (beNat front, rest) := number_of_length hfront rest

theorem u32_of_length (hfront : front.length = 4) (rest : Bytes) :
    Reader.u32 (front ++ rest) = .ok (beNat front, rest) := number_of_length hfront rest

theorem u64_of_length (hfront : front.length = 8) (rest : Bytes) :
    Reader.u64 (front ++ rest) = .ok (beNat front, rest) := number_of_length hfront rest

end Numbers

/-- Byte `byte` of the bitmap of a selection. -/
def bitmapByte (indices : List Nat) (byte : Nat) : UInt8 :=
  UInt8.ofNat (((List.range 8).map fun bit =>
    if indices.contains (byte * 8 + bit) then 2 ^ bit else 0).sum)

/-- The selection of SHA-256 registers that a Quote is asked for. -/
def marshalPcrSelection (indices : List Nat) : Bytes :=
  beBytes 4 1 ++ beBytes 2 tpmAlgSha256 ++ [3] ++
    [bitmapByte indices 0, bitmapByte indices 1, bitmapByte indices 2]

end PertiskKos.Tpm
