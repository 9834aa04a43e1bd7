import PertiskKos.Tpm.PcrBinding

/-!
# Selections of registers

A selection is a bitmap of registers.  What is written for a list of registers is read back as
the list in order and without repetitions, and from a Quote the registers of its selection of
SHA-256 registers are read, however long the bitmap is.
-/

namespace PertiskKos.Tpm

/-- `bitmap[byte] |= 1 << bit`, for a register below 24. -/
def setPcrBit (bitmap : Bytes) (index : Nat) : Bytes :=
  if index < 24 then
    bitmap.modify (index / 8) (· ||| 1 <<< UInt8.ofNat (index % 8))
  else bitmap

/-- The selection as `marshal_pcr_selection` writes it, one register after the other. -/
def writePcrSelection (indices : List Nat) : Bytes :=
  beBytes 4 1 ++ beBytes 2 tpmAlgSha256 ++ [3] ++ indices.foldl setPcrBit [0, 0, 0]

/-- A selection of registers of one hash. -/
structure Selection where
  hash : Nat
  bitmap : Bytes
  hash_lt : hash < 2 ^ 16
  bitmap_lt : bitmap.length < 2 ^ 8

namespace Selection

variable (selection : Selection)

def bytes : Bytes :=
  beBytes 2 selection.hash ++ beBytes 1 selection.bitmap.length ++ selection.bitmap

def indices : List Nat :=
  if selection.hash ≠ tpmAlgSha256 then [] else bitmapIndices 0 selection.bitmap

end Selection

/-- The register is in the bitmap. -/
def inBitmap (bitmap : Bytes) (index : Nat) : Bool :=
  (bitmap.getD (index / 8) 0).toNat.testBit (index % 8)

/-- A signed structure whose selection has one bitmap of SHA-256 registers, among any of other
hashes. -/
structure QuoteParts where
  magic : Bytes
  type : Bytes
  signer : Bytes
  extraData : Bytes
  clock : Bytes
  resetCount : Bytes
  restartCount : Bytes
  safe : Bytes
  firmwareVersion : Bytes
  before : List Selection
  bitmap : Bytes
  after : List Selection
  digest : Bytes
  rest : Bytes
  magic_length : magic.length = 4
  type_length : type.length = 2
  signer_lt : signer.length < 2 ^ 16
  extraData_lt : extraData.length < 2 ^ 16
  clock_length : clock.length = 8
  resetCount_length : resetCount.length = 4
  restartCount_length : restartCount.length = 4
  safe_length : safe.length = 1
  firmwareVersion_length : firmwareVersion.length = 8
  before_other : ∀ selection ∈ before, selection.hash ≠ tpmAlgSha256
  bitmap_lt : bitmap.length < 2 ^ 8
  after_other : ∀ selection ∈ after, selection.hash ≠ tpmAlgSha256
  count_lt : before.length + 1 + after.length < 2 ^ 32
  digest_lt : digest.length < 2 ^ 16

namespace QuoteParts

variable (parts : QuoteParts)

def sha256 : Selection := ⟨tpmAlgSha256, parts.bitmap, by decide, parts.bitmap_lt⟩

def selections : List Selection := parts.before ++ parts.sha256 :: parts.after

def bytes : Bytes :=
  parts.magic ++ (parts.type ++ (beBytes 2 parts.signer.length ++ parts.signer ++
    (beBytes 2 parts.extraData.length ++ parts.extraData ++ (parts.clock ++
      (parts.resetCount ++ (parts.restartCount ++ (parts.safe ++ (parts.firmwareVersion ++
        (beBytes 4 parts.selections.length ++ (parts.selections.flatMap Selection.bytes ++
          (beBytes 2 parts.digest.length ++ parts.digest ++ parts.rest)))))))))))

end QuoteParts

section Write

variable {indices : List Nat}

/-- A bit that is set. -/
theorem testBit_setBit (byte : UInt8) {bit other : Nat} (hbit : bit < 8) (hother : other < 8) :
    (byte ||| 1 <<< UInt8.ofNat bit).toNat.testBit other =
      (byte.toNat.testBit other || decide (other = bit)) := by
  have hmask : ∀ bit other : Fin 8,
      (1 <<< UInt8.ofNat bit : UInt8).toNat.testBit other = decide (other = bit) := by
    decide +kernel
  have hone := hmask ⟨bit, hbit⟩ ⟨other, hother⟩
  simp only [Fin.mk.injEq] at hone
  rw [UInt8.toNat_or, Nat.testBit_or, hone]

theorem byte_ext {left right : UInt8}
    (hbits : ∀ bit < 8, left.toNat.testBit bit = right.toNat.testBit bit) : left = right := by
  apply UInt8.toNat_inj.mp
  apply Nat.eq_of_testBit_eq
  intro bit
  by_cases hbit : bit < 8
  · exact hbits bit hbit
  · have hlarge : ∀ byte : UInt8, byte.toNat.testBit bit = false := by
      intro byte
      apply Nat.testBit_lt_two_pow
      calc byte.toNat < 2 ^ 8 := byte.toNat_lt
        _ ≤ 2 ^ bit := Nat.pow_le_pow_right (by decide) (by omega)
    rw [hlarge, hlarge]

/-- One more register in a byte of the bitmap. -/
theorem bitmapByte_append (indices : List Nat) (index byte : Nat) :
    bitmapByte (indices ++ [index]) byte =
      if index / 8 = byte then bitmapByte indices byte ||| 1 <<< UInt8.ofNat (index % 8)
      else bitmapByte indices byte := by
  have hlast : index % 8 < 8 := Nat.mod_lt _ (by decide)
  apply byte_ext
  intro bit hbit
  rw [testBit_bitmapByte _ _ hbit]
  have hmem : (indices ++ [index]).contains (byte * 8 + bit) =
      (indices.contains (byte * 8 + bit) || decide (byte * 8 + bit = index)) := by
    simp [List.contains_eq_mem]
  split
  · rename_i hbyte
    have hsame : (byte * 8 + bit = index) = (bit = index % 8) := by
      apply propext
      omega
    rw [testBit_setBit _ hlast hbit, testBit_bitmapByte _ _ hbit, hmem]
    simp only [hsame]
  · rename_i hbyte
    have hother : byte * 8 + bit ≠ index := by omega
    rw [testBit_bitmapByte _ _ hbit, hmem]
    simp [hother]

/-- The bitmap of a list of registers. -/
def bitmapOf (indices : List Nat) : Bytes :=
  [bitmapByte indices 0, bitmapByte indices 1, bitmapByte indices 2]

theorem setPcrBit_bitmapOf (indices : List Nat) (index : Nat) :
    setPcrBit (bitmapOf indices) index = bitmapOf (indices ++ [index]) := by
  rw [setPcrBit, bitmapOf, bitmapOf, bitmapByte_append, bitmapByte_append, bitmapByte_append]
  split
  · rename_i hindex
    obtain hbyte | hbyte | hbyte : index / 8 = 0 ∨ index / 8 = 1 ∨ index / 8 = 2 := by omega
    all_goals simp [hbyte, List.modify]
  · rename_i hindex
    have h0 : index / 8 ≠ 0 := by omega
    have h1 : index / 8 ≠ 1 := by omega
    have h2 : index / 8 ≠ 2 := by omega
    simp [h0, h1, h2]

/-- Setting one bit after the other makes the bitmap of the list. -/
theorem foldl_setPcrBit (indices before : List Nat) :
    indices.foldl setPcrBit (bitmapOf before) = bitmapOf (before ++ indices) := by
  induction indices generalizing before with
  | nil => rw [List.foldl_nil, List.append_nil]
  | cons index indices ih =>
      rw [List.foldl_cons, setPcrBit_bitmapOf, ih, List.append_assoc, List.singleton_append]

theorem writePcrSelection_eq (indices : List Nat) :
    writePcrSelection indices = marshalPcrSelection indices := by
  have hempty : bitmapOf [] = [0, 0, 0] := by decide
  rw [writePcrSelection, ← hempty, foldl_setPcrBit, List.nil_append, marshalPcrSelection,
    bitmapOf]

end Write

section Read

/-- Which registers a bitmap names, the first byte being byte `start`. -/
theorem mem_bitmapIndices (start : Nat) (bitmap : Bytes) (index : Nat) :
    index ∈ bitmapIndices start bitmap ↔
      start * 8 ≤ index ∧ inBitmap bitmap (index - start * 8) = true := by
  induction bitmap generalizing start with
  | nil => simp [bitmapIndices, inBitmap]
  | cons byte bitmap ih =>
      rw [bitmapIndices, List.mem_append, ih]
      simp only [List.mem_map, List.mem_filter, List.mem_range]
      constructor
      · rintro (⟨bit, ⟨hbit, htest⟩, rfl⟩ | ⟨hlow, htest⟩)
        · have hbyte : (start * 8 + bit - start * 8) / 8 = 0 := by omega
          have hmod : (start * 8 + bit - start * 8) % 8 = bit := by omega
          refine ⟨by omega, ?_⟩
          rw [inBitmap, hbyte, hmod]
          exact htest
        · have hbyte : (index - start * 8) / 8 = (index - (start + 1) * 8) / 8 + 1 := by omega
          have hmod : (index - start * 8) % 8 = (index - (start + 1) * 8) % 8 := by omega
          refine ⟨by omega, ?_⟩
          rw [inBitmap, hbyte, hmod]
          exact htest
      · rintro ⟨hlow, htest⟩
        by_cases hindex : index < start * 8 + 8
        · have hbyte : (index - start * 8) / 8 = 0 := by omega
          have hmod : (index - start * 8) % 8 = index - start * 8 := by omega
          rw [inBitmap, hbyte, hmod] at htest
          exact .inl ⟨index - start * 8, ⟨by omega, htest⟩, by omega⟩
        · have hbyte : (index - start * 8) / 8 = (index - (start + 1) * 8) / 8 + 1 := by omega
          have hmod : (index - start * 8) % 8 = (index - (start + 1) * 8) % 8 := by omega
          rw [inBitmap, hbyte, hmod] at htest
          exact .inr ⟨by omega, htest⟩

theorem sorted_bitmapIndices (start : Nat) (bitmap : Bytes) :
    (bitmapIndices start bitmap).Pairwise (· < ·) := by
  induction bitmap generalizing start with
  | nil => exact List.Pairwise.nil
  | cons byte bitmap ih =>
      rw [bitmapIndices, List.pairwise_append]
      refine ⟨?_, ih (start + 1), ?_⟩
      · rw [List.pairwise_map]
        exact (List.pairwise_lt_range.filter _).imp fun h => by omega
      · intro left hleft right hright
        rw [List.mem_map] at hleft
        obtain ⟨bit, hbit, rfl⟩ := hleft
        have hlow := ((mem_bitmapIndices (start + 1) bitmap right).mp hright).1
        have hsmall := List.mem_range.mp (List.mem_of_mem_filter hbit)
        omega

/-- The registers of a list of selections are those of its selections of SHA-256. -/
theorem parseSelections_append (selections : List Selection) (rest : Bytes) :
    parseSelections selections.length (selections.flatMap Selection.bytes ++ rest) =
      .ok (selections.flatMap Selection.indices, rest) := by
  induction selections with
  | nil => rfl
  | cons selection selections ih =>
      have hbytes : (selection :: selections).flatMap Selection.bytes ++ rest =
          beBytes 2 selection.hash ++ (beBytes 1 selection.bitmap.length ++
            (selection.bitmap ++ (selections.flatMap Selection.bytes ++ rest))) := by
        simp only [List.flatMap_cons, Selection.bytes, List.append_assoc]
      rw [hbytes, List.length_cons, parseSelections,
        Reader.bind_of_ok (Reader.u16_append selection.hash_lt _),
        Reader.bind_of_ok (Reader.u8_append selection.bitmap_lt _),
        Reader.bind_of_ok (Reader.take_append rfl _), Reader.bind_of_ok ih,
        List.flatMap_cons, Selection.indices]
      split <;> rfl

theorem parsePcrSelectionIndices_append {selections : List Selection}
    (hcount : selections.length < 2 ^ 32) (rest : Bytes) :
    parsePcrSelectionIndices
        (beBytes 4 selections.length ++ (selections.flatMap Selection.bytes ++ rest)) =
      .ok ((selections.flatMap Selection.indices).insertionSort (· ≤ ·), rest) := by
  rw [parsePcrSelectionIndices, Reader.bind_of_ok (Reader.u32_append hcount _),
    Reader.bind_of_ok (parseSelections_append selections rest)]
  rfl

/-- One selection of SHA-256 registers gives the registers of its bitmap in order. -/
theorem indices_of_single {before after : List Selection} {selection : Selection}
    (hhash : selection.hash = tpmAlgSha256)
    (hbefore : ∀ other ∈ before, other.hash ≠ tpmAlgSha256)
    (hafter : ∀ other ∈ after, other.hash ≠ tpmAlgSha256) :
    ((before ++ selection :: after).flatMap Selection.indices).insertionSort (· ≤ ·) =
      bitmapIndices 0 selection.bitmap := by
  have hnone : ∀ others : List Selection, (∀ other ∈ others, other.hash ≠ tpmAlgSha256) →
      others.flatMap Selection.indices = [] := by
    intro others hothers
    rw [List.flatMap_eq_nil_iff]
    intro other hother
    rw [Selection.indices, if_pos (hothers other hother)]
  have hown : selection.indices = bitmapIndices 0 selection.bitmap := by
    rw [Selection.indices, if_neg (not_not.mpr hhash)]
  rw [List.flatMap_append, List.flatMap_cons, hnone before hbefore, hnone after hafter, hown,
    List.nil_append, List.append_nil]
  exact ((sorted_bitmapIndices 0 selection.bitmap).imp le_of_lt).insertionSort_eq

/-- What is read from what was written. -/
theorem parse_writePcrSelection (indices : List Nat) (rest : Bytes) :
    parsePcrSelectionIndices (writePcrSelection indices ++ rest) =
      .ok (bitmapIndices 0 (bitmapOf indices), rest) := by
  let selection : Selection := ⟨tpmAlgSha256, bitmapOf indices, by decide, by
    rw [bitmapOf]
    exact of_decide_eq_true rfl⟩
  have hbytes : writePcrSelection indices ++ rest =
      beBytes 4 [selection].length ++ ([selection].flatMap Selection.bytes ++ rest) := by
    rw [writePcrSelection_eq]
    rfl
  have hcount : [selection].length < 2 ^ 32 := by
    rw [List.length_singleton]
    decide
  rw [hbytes, parsePcrSelectionIndices_append hcount]
  have hsingle := @indices_of_single [] [] selection rfl
    (by simp) (by simp)
  rw [List.nil_append] at hsingle
  rw [hsingle]

theorem inBitmap_bitmapOf (indices : List Nat) (index : Nat) :
    inBitmap (bitmapOf indices) index = true ↔ index ∈ indices ∧ index < 24 := by
  have hmem := mem_bitmapIndices_bitmap indices 0 3 index
  have hbitmap : (List.range' 0 3).map (bitmapByte indices) = bitmapOf indices := rfl
  rw [hbitmap, mem_bitmapIndices] at hmem
  simp only [Nat.zero_mul, Nat.zero_le, Nat.sub_zero, true_and] at hmem
  rw [hmem]
  constructor
  · exact fun h => ⟨h.2, by omega⟩
  · exact fun h => ⟨by omega, h.1⟩

/-- The registers of a Quote are those of its one bitmap of SHA-256 registers. -/
theorem QuoteParts.parse (parts : QuoteParts) :
    ∃ attest, parseTpmsAttest parts.bytes = .ok attest ∧
      attest.pcrSelect = bitmapIndices 0 parts.bitmap := by
  have hcount : parts.selections.length < 2 ^ 32 := by
    have hlt := parts.count_lt
    rw [QuoteParts.selections, List.length_append, List.length_cons]
    omega
  have hselect := parsePcrSelectionIndices_append hcount
    (beBytes 2 parts.digest.length ++ parts.digest ++ parts.rest)
  rw [QuoteParts.selections, indices_of_single rfl parts.before_other parts.after_other,
    ← QuoteParts.selections] at hselect
  refine ⟨⟨beNat parts.magic, beNat parts.type, parts.extraData, bitmapIndices 0 parts.bitmap,
    parts.digest⟩, ?_, rfl⟩
  rw [parseTpmsAttest, StateT.run', QuoteParts.bytes,
    Reader.bind_of_ok (u32_of_length parts.magic_length _),
    Reader.bind_of_ok (u16_of_length parts.type_length _),
    Reader.bind_of_ok (Reader.tpm2b_append parts.signer_lt _),
    Reader.bind_of_ok (Reader.tpm2b_append parts.extraData_lt _),
    Reader.bind_of_ok (u64_of_length parts.clock_length _),
    Reader.bind_of_ok (u32_of_length parts.resetCount_length _),
    Reader.bind_of_ok (u32_of_length parts.restartCount_length _),
    Reader.bind_of_ok (u8_of_length parts.safe_length _),
    Reader.bind_of_ok (u64_of_length parts.firmwareVersion_length _),
    Reader.bind_of_ok hselect,
    Reader.bind_of_ok (Reader.tpm2b_append parts.digest_lt _)]
  rfl

/-- A selection that was written is read back as the registers below 24 in order, and a Quote
is read as the registers that the bits of its bitmap stand for, in order. -/
theorem pcr_selection_round_trip :
    (∀ (indices : List Nat) (rest : Bytes), ∃ found,
      parsePcrSelectionIndices (writePcrSelection indices ++ rest) = .ok (found, rest) ∧
        found.Pairwise (· < ·) ∧ ∀ index, index ∈ found ↔ index ∈ indices ∧ index < 24) ∧
    ∀ parts : QuoteParts, ∃ attest, parseTpmsAttest parts.bytes = .ok attest ∧
      attest.pcrSelect.Pairwise (· < ·) ∧
        ∀ index, index ∈ attest.pcrSelect ↔ inBitmap parts.bitmap index = true := by
  have hmem : ∀ (bitmap : Bytes) (index : Nat),
      index ∈ bitmapIndices 0 bitmap ↔ inBitmap bitmap index = true := by
    intro bitmap index
    rw [mem_bitmapIndices]
    simp
  constructor
  · intro indices rest
    refine ⟨_, parse_writePcrSelection indices rest, sorted_bitmapIndices 0 _, ?_⟩
    intro index
    rw [hmem, inBitmap_bitmapOf]
  · intro parts
    obtain ⟨attest, hparse, hselect⟩ := parts.parse
    refine ⟨attest, hparse, ?_, ?_⟩
    · rw [hselect]
      exact sorted_bitmapIndices 0 parts.bitmap
    · rw [hselect]
      exact hmem parts.bitmap

end Read

end PertiskKos.Tpm
