import PertiskKos.Library.Strings

/-!
# Hexadecimal

Numbers and bytes in hexadecimal.  Bytes are read from pieces of two bytes of the text, as
slices of it, so that a text with other than ASCII characters can be cut in the middle of
one.
-/

namespace PertiskKos.Hex

open Strings

def hex (n : Nat) : Text := Nat.toDigits 16 n

def hexValue (c : Char) : Nat :=
  if c.isDigit then c.toNat - '0'.toNat
  else if 'a' ≤ c ∧ c ≤ 'f' then c.toNat - 'a'.toNat + 10
  else c.toNat - 'A'.toNat + 10

def isHexDigit (c : Char) : Bool :=
  c.isDigit || ('a' ≤ c && c ≤ 'f') || ('A' ≤ c && c ≤ 'F')

def ofHex (digits : Text) : Nat := digits.foldl (fun n c => 16 * n + hexValue c) 0

/-- Hexadecimal digits, at least so many. -/
def hexPad (width n : Nat) : Text := List.replicate (width - (hex n).length) '0' ++ hex n

def hexEncode (bytes : List UInt8) : Text := bytes.flatMap fun byte => hexPad 2 byte.toNat

inductive HexError where
  | odd
  | invalidDigit
  /-- A slice begins or ends in the middle of a character. -/
  | panics
  deriving DecidableEq, Repr

/-- Two characters as a byte.  A plus sign in front is accepted. -/
def fromStrRadix (first second : Char) : Except HexError UInt8 :=
  if first = '+' then
    if isHexDigit second then .ok (UInt8.ofNat (hexValue second)) else .error .invalidDigit
  else if isHexDigit first ∧ isHexDigit second then
    .ok (UInt8.ofNat (16 * hexValue first + hexValue second))
  else .error .invalidDigit

/-- Pieces of two bytes, of a text whose length in bytes is even. -/
def hexPairs : Text → Except HexError (List UInt8)
  | [] => .ok []
  | [c] => if c.utf8Size = 2 then .error .invalidDigit else .error .panics
  | first :: second :: rest =>
      if first.utf8Size = 1 ∧ second.utf8Size = 1 then do
        pure ((← fromStrRadix first second) :: (← hexPairs rest))
      else if first.utf8Size = 2 then .error .invalidDigit
      else .error .panics

def utf8Length (text : Text) : Nat := (text.map Char.utf8Size).sum

def decodeHex (text : Text) : Except HexError (List UInt8) :=
  if utf8Length (trim text) % 2 ≠ 0 then .error .odd else hexPairs (trim text)

theorem hexValue_digitChar {n : Nat} (hn : n < 16) : hexValue n.digitChar = n := by
  have hall : ∀ n : Fin 16, hexValue (Nat.digitChar n) = n := by decide
  exact hall ⟨n, hn⟩

theorem isHexDigit_digitChar {n : Nat} (hn : n < 16) : isHexDigit n.digitChar = true := by
  have hall : ∀ n : Fin 16, isHexDigit (Nat.digitChar n) = true := by decide
  exact hall ⟨n, hn⟩

/-- The last digit apart. -/
theorem hex_step {n : Nat} (hn : 16 ≤ n) :
    hex n = hex (n / 16) ++ [(n % 16).digitChar] :=
  Nat.toDigits_of_base_le (by decide) hn

theorem hex_of_lt {n : Nat} (hn : n < 16) : hex n = [n.digitChar] :=
  Nat.toDigits_of_lt_base hn

theorem ofHex_hex (n : Nat) : ofHex (hex n) = n := by
  induction n using Nat.strongRecOn with
  | ind n ih =>
      by_cases hn : n < 16
      · rw [hex_of_lt hn]
        simp [ofHex, hexValue_digitChar hn]
      · have hrest := ih (n / 16) (by omega)
        rw [ofHex] at hrest
        rw [hex_step (by omega), ofHex, List.foldl_append, hrest, List.foldl_cons,
          List.foldl_nil, hexValue_digitChar (Nat.mod_lt n (by decide))]
        omega

theorem isHexDigit_of_mem_hex {n : Nat} {c : Char} (hc : c ∈ hex n) :
    isHexDigit c = true := by
  induction n using Nat.strongRecOn with
  | ind n ih =>
      by_cases hn : n < 16
      · rw [hex_of_lt hn, List.mem_singleton] at hc
        rw [hc, isHexDigit_digitChar hn]
      · rw [hex_step (by omega), List.mem_append, List.mem_singleton] at hc
        rcases hc with hrest | rfl
        · exact ih (n / 16) (by omega) hrest
        · exact isHexDigit_digitChar (Nat.mod_lt n (by decide))

theorem hex_ne_nil (n : Nat) : hex n ≠ [] :=
  List.ne_nil_of_length_pos Nat.length_toDigits_pos

section Digits

theorem isHexDigit_cases {c : Char} (hdigit : isHexDigit c = true) :
    (48 ≤ c.toNat ∧ c.toNat ≤ 57) ∨ (97 ≤ c.toNat ∧ c.toNat ≤ 102) ∨
      (65 ≤ c.toNat ∧ c.toNat ≤ 70) := by
  simp only [isHexDigit, Char.isDigit, Bool.or_eq_true, Bool.and_eq_true, decide_eq_true_eq,
    ge_iff_le, Char.le_def, UInt32.le_iff_toNat_le] at hdigit
  rcases hdigit with (⟨hlow, hhigh⟩ | ⟨hlow, hhigh⟩) | ⟨hlow, hhigh⟩
  · exact .inl ⟨hlow, hhigh⟩
  · exact .inr (.inl ⟨hlow, hhigh⟩)
  · exact .inr (.inr ⟨hlow, hhigh⟩)

theorem hexValue_lt {c : Char} (hdigit : isHexDigit c = true) : hexValue c < 16 := by
  have hcases := isHexDigit_cases hdigit
  simp only [hexValue, Char.isDigit, Bool.and_eq_true, decide_eq_true_eq, ge_iff_le,
    Char.le_def, UInt32.le_iff_toNat_le]
  split
  · next h =>
      have hhigh : c.toNat ≤ 57 := h.2
      have hzero : '0'.toNat = 48 := rfl
      omega
  · split
    · next h =>
        have hhigh : c.toNat ≤ 102 := h.2
        have ha : 'a'.toNat = 97 := rfl
        omega
    · next hdigit hlower =>
        have hrange : ¬ (48 ≤ c.toNat ∧ c.toNat ≤ 57) := hdigit
        have hrange' : ¬ (97 ≤ c.toNat ∧ c.toNat ≤ 102) := hlower
        have hA : 'A'.toNat = 65 := rfl
        omega

theorem not_white_of_hex {c : Char} (hdigit : isHexDigit c = true) : isWhite c = false := by
  have hcases := isHexDigit_cases hdigit
  simp [isWhite]
  omega

/-- Sixteen digits fit sixty-four bits. -/
theorem ofHex_lt {digits : Text} (hshort : digits.length ≤ 16)
    (hhex : ∀ c ∈ digits, isHexDigit c = true) : ofHex digits < 2 ^ 64 := by
  have hpow : ofHex digits < 16 ^ digits.length := by
    clear hshort
    rw [ofHex]
    induction digits using List.reverseRecOn with
    | nil => simp
    | append_singleton digits c ih =>
        have hlast : hexValue c < 16 := hexValue_lt (hhex c (by simp))
        have hrest := ih fun d hd => hhex d (by simp [hd])
        rw [List.foldl_append, List.length_append, List.length_singleton, pow_succ]
        simp only [List.foldl_cons, List.foldl_nil]
        omega
  calc ofHex digits < 16 ^ digits.length := hpow
    _ ≤ 16 ^ 16 := Nat.pow_le_pow_right (by decide) hshort
    _ = 2 ^ 64 := by decide

end Digits

end PertiskKos.Hex
