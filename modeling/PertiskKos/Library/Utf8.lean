import Mathlib.Data.List.Basic
import Mathlib.Tactic.Common

/-!
# UTF-8

A text is encoded character by character.  The decoder reads a length and a code off the
first bytes and accepts them if they are what the character is encoded as, so that it accepts
exactly the encodings of texts.
-/

namespace PertiskKos.Utf8

abbrev Bytes := List UInt8

def encode (text : List Char) : Bytes := text.flatMap String.utf8EncodeChar

@[simp] theorem encode_nil : encode [] = [] := rfl

@[simp] theorem encode_cons (c : Char) (text : List Char) :
    encode (c :: text) = String.utf8EncodeChar c ++ encode text := rfl

@[simp] theorem encode_append (left right : List Char) :
    encode (left ++ right) = encode left ++ encode right :=
  List.flatMap_append

/-- The number of bytes of the first character and its code. -/
def leading (bytes : Bytes) : Nat × Nat :=
  let at_ := fun i => (bytes.getD i 0).toNat
  if at_ 0 < 0x80 then (1, at_ 0)
  else if at_ 0 < 0xe0 then (2, at_ 0 % 0x20 * 0x40 + at_ 1 % 0x40)
  else if at_ 0 < 0xf0 then (3, at_ 0 % 0x10 * 0x1000 + at_ 1 % 0x40 * 0x40 + at_ 2 % 0x40)
  else (4, at_ 0 % 0x8 * 0x40000 + at_ 1 % 0x40 * 0x1000 + at_ 2 % 0x40 * 0x40 + at_ 3 % 0x40)

def decodeChar (bytes : Bytes) : Option (Char × Bytes) :=
  let c := Char.ofNat (leading bytes).2
  if String.utf8EncodeChar c = bytes.take (leading bytes).1 then
    some (c, bytes.drop (leading bytes).1)
  else none

theorem decodeChar_sound {bytes rest : Bytes} {c : Char}
    (hdecode : decodeChar bytes = some (c, rest)) : bytes = String.utf8EncodeChar c ++ rest := by
  rw [decodeChar] at hdecode
  split at hdecode
  · next htake =>
      obtain ⟨rfl, rfl⟩ := Prod.mk.inj (Option.some.inj hdecode)
      rw [htake, List.take_append_drop]
  · cases hdecode

theorem toNat_ofNat {n : Nat} (hn : n < 256) : (UInt8.ofNat n).toNat = n := by
  rw [UInt8.toNat_ofNat', Nat.mod_eq_of_lt hn]

/-- The length and the code come back from what a character is encoded as. -/
theorem leading_encode (c : Char) (rest : Bytes) :
    leading (String.utf8EncodeChar c ++ rest) =
      ((String.utf8EncodeChar c).length, c.toNat) := by
  have hvalid : c.toNat < 0x110000 := by
    have h := c.valid
    simp only [UInt32.isValidChar, Nat.isValidChar] at h
    simp only [Char.toNat]
    omega
  simp only [Char.toNat] at hvalid ⊢
  rw [String.utf8EncodeChar]
  generalize c.val.toNat = v at hvalid ⊢
  split
  · next h1 =>
      simp only [leading, List.cons_append, List.getD_cons_zero]
      rw [toNat_ofNat (by omega), if_pos (by omega)]
      rfl
  · split
    · next h1 h2 =>
        simp only [leading, List.cons_append, List.getD_cons_zero, List.getD_cons_succ]
        rw [toNat_ofNat (by omega), toNat_ofNat (by omega), if_neg (by omega),
          if_pos (by omega)]
        exact Prod.ext rfl (by dsimp only; omega)
    · split
      · next h1 h2 h3 =>
          simp only [leading, List.cons_append, List.getD_cons_zero, List.getD_cons_succ]
          rw [toNat_ofNat (by omega), toNat_ofNat (by omega), toNat_ofNat (by omega),
            if_neg (by omega), if_neg (by omega), if_pos (by omega)]
          exact Prod.ext rfl (by dsimp only; omega)
      · next h1 h2 h3 =>
          simp only [leading, List.cons_append, List.getD_cons_zero, List.getD_cons_succ]
          rw [toNat_ofNat (by omega), toNat_ofNat (by omega), toNat_ofNat (by omega),
            toNat_ofNat (by omega), if_neg (by omega), if_neg (by omega), if_neg (by omega)]
          exact Prod.ext rfl (by dsimp only; omega)

theorem decodeChar_encode (c : Char) (rest : Bytes) :
    decodeChar (String.utf8EncodeChar c ++ rest) = some (c, rest) := by
  rw [decodeChar, leading_encode]
  simp only [Char.ofNat_toNat, List.take_left, List.drop_left, if_true]

theorem encodeChar_ne_nil (c : Char) : String.utf8EncodeChar c ≠ [] := by
  intro hnil
  have hlength := String.length_utf8EncodeChar c
  rw [hnil] at hlength
  exact Nat.ne_of_gt c.utf8Size_pos hlength.symm

theorem encode_eq_nil_iff {text : List Char} : encode text = [] ↔ text = [] := by
  cases text with
  | nil => exact iff_of_true rfl rfl
  | cons c text =>
      refine ⟨fun hnil => ?_, fun hnil => by cases hnil⟩
      exact absurd (List.append_eq_nil_iff.mp hnil).1 (encodeChar_ne_nil c)

/-- As many characters as fit. -/
def decodeSome : Nat → Bytes → Option (List Char)
  | _, [] => some []
  | 0, _ => none
  | fuel + 1, bytes =>
      match decodeChar bytes with
      | some (c, rest) => (decodeSome fuel rest).map (c :: ·)
      | none => none

def decode (bytes : Bytes) : Option (List Char) := decodeSome bytes.length bytes

theorem decodeSome_sound {fuel : Nat} {bytes : Bytes} {text : List Char}
    (hdecode : decodeSome fuel bytes = some text) : bytes = encode text := by
  induction fuel generalizing bytes text with
  | zero =>
      cases bytes with
      | nil =>
          cases hdecode
          rfl
      | cons byte bytes => cases hdecode
  | succ fuel ih =>
      cases bytes with
      | nil =>
          cases hdecode
          rfl
      | cons byte bytes =>
          rw [decodeSome] at hdecode
          split at hdecode
          · next c rest hchar =>
              obtain ⟨tail, htail, rfl⟩ := Option.map_eq_some_iff.mp hdecode
              rw [decodeChar_sound hchar, ih htail, encode_cons]
          · cases hdecode
          · exact fun h => by cases h

theorem decodeSome_encode (text : List Char) {fuel : Nat}
    (hfuel : (encode text).length ≤ fuel) : decodeSome fuel (encode text) = some text := by
  induction text generalizing fuel with
  | nil => cases fuel <;> rfl
  | cons c text ih =>
      have hpos : 0 < (String.utf8EncodeChar c).length :=
        List.length_pos_iff.mpr (encodeChar_ne_nil c)
      rw [encode_cons, List.length_append] at hfuel
      cases fuel with
      | zero => omega
      | succ fuel =>
          rw [encode_cons, decodeSome]
          · have hrest : decodeSome fuel (encode text) = some text := ih (by omega)
            rw [decodeChar_encode]
            dsimp only
            rw [hrest]
            rfl
          · intro hnil
            exact encodeChar_ne_nil c (List.append_eq_nil_iff.mp hnil).1

/-- The decoder accepts exactly the encodings of texts. -/
theorem decode_eq_some_iff {bytes : Bytes} {text : List Char} :
    decode bytes = some text ↔ bytes = encode text := by
  constructor
  · exact decodeSome_sound
  · rintro rfl
    exact decodeSome_encode text (Nat.le_refl _)

/-! ## Bytes that are no text -/

def isContinuation (byte : UInt8) : Bool := 0x80 ≤ byte.toNat && byte.toNat < 0xc0

/-- The second bytes that a first byte of a long sequence allows. -/
def secondAllowed (first second : UInt8) : Bool :=
  isContinuation second &&
    match first.toNat with
    | 0xe0 => 0xa0 ≤ second.toNat
    | 0xed => second.toNat < 0xa0
    | 0xf0 => 0x90 ≤ second.toNat
    | 0xf4 => second.toNat < 0x90
    | _ => true

/-- The length of the longest beginning of a character that the bytes start with, or one,
where they do not start with a character. -/
def badLength (bytes : Bytes) : Nat :=
  match bytes with
  | first :: second :: third :: _ =>
      if first.toNat < 0xe0 ∨ 0xf5 ≤ first.toNat ∨ !secondAllowed first second then 1
      else if first.toNat < 0xf0 ∨ !isContinuation third then 2
      else 3
  | [first, second] =>
      if first.toNat < 0xe0 ∨ 0xf5 ≤ first.toNat ∨ !secondAllowed first second then 1 else 2
  | _ => 1

/-- U+FFFD -/
def replacement : Char := Char.ofNat 0xfffd

def lossySome : Nat → Bytes → List Char
  | _, [] => []
  | 0, _ => []
  | fuel + 1, bytes =>
      match decodeChar bytes with
      | some (c, rest) => c :: lossySome fuel rest
      | none => replacement :: lossySome fuel (bytes.drop (badLength bytes))

/-- Decode with a replacement character for whatever is no character. -/
def lossy (bytes : Bytes) : List Char := lossySome bytes.length bytes

theorem lossySome_of_decodeSome {fuel : Nat} {bytes : Bytes} {text : List Char}
    (hdecode : decodeSome fuel bytes = some text) : lossySome fuel bytes = text := by
  induction fuel generalizing bytes text with
  | zero =>
      cases bytes with
      | nil =>
          cases hdecode
          rfl
      | cons byte bytes => cases hdecode
  | succ fuel ih =>
      cases bytes with
      | nil =>
          cases hdecode
          rfl
      | cons byte bytes =>
          rw [decodeSome] at hdecode
          · split at hdecode
            · next c rest hchar =>
                obtain ⟨tail, htail, rfl⟩ := Option.map_eq_some_iff.mp hdecode
                rw [lossySome, hchar]
                · exact congrArg (c :: ·) (ih htail)
                · exact fun h => by cases h
            · cases hdecode
          · exact fun h => by cases h

/-- Nothing is replaced in a text. -/
theorem lossy_encode (text : List Char) : lossy (encode text) = text :=
  lossySome_of_decodeSome (decodeSome_encode text (Nat.le_refl _))

/-! ## Cutting a text after a number of bytes -/

/-- The longest front part of at most `limit` bytes. -/
def clip : Nat → List Char → List Char
  | _, [] => []
  | limit, c :: text =>
      if c.utf8Size ≤ limit then c :: clip (limit - c.utf8Size) text else []

/-- `String::truncate`, which panics inside a character. -/
def truncate (limit : Nat) (text : List Char) : Option (List Char) :=
  if (encode text).length < limit then some text
  else if (encode (clip limit text)).length = limit then some (clip limit text) else none

theorem length_encode_cons (c : Char) (text : List Char) :
    (encode (c :: text)).length = c.utf8Size + (encode text).length := by
  rw [encode_cons, List.length_append, String.length_utf8EncodeChar]

theorem clip_cons (limit : Nat) (c : Char) (text : List Char) :
    clip limit (c :: text) =
      if c.utf8Size ≤ limit then c :: clip (limit - c.utf8Size) text else [] := rfl

theorem clip_prefix (limit : Nat) (text : List Char) : clip limit text <+: text := by
  induction text generalizing limit with
  | nil => exact List.prefix_refl _
  | cons c text ih =>
      rw [clip_cons]
      split
      · exact List.cons_prefix_cons.mpr ⟨rfl, ih _⟩
      · exact List.nil_prefix

theorem length_encode_clip (limit : Nat) (text : List Char) :
    (encode (clip limit text)).length ≤ limit := by
  induction text generalizing limit with
  | nil => exact Nat.zero_le _
  | cons c text ih =>
      rw [clip_cons]
      split
      · next hfits =>
          have hrest := ih (limit - c.utf8Size)
          rw [length_encode_cons]
          omega
      · exact Nat.zero_le _

theorem clip_of_length_le {limit : Nat} {text : List Char}
    (hfits : (encode text).length ≤ limit) : clip limit text = text := by
  induction text generalizing limit with
  | nil => rfl
  | cons c text ih =>
      rw [length_encode_cons] at hfits
      rw [clip_cons, if_pos (by omega), ih (by omega)]

end PertiskKos.Utf8
