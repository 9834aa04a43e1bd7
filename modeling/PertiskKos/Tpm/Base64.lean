import PertiskKos.Tpm.Ek

/-!
# Base64

The decoder looks for padding in every group of four digits.  It undoes the standard encoding;
the other way round, what it accepts is a standard encoding only if the padding stands where
an encoder puts it and the bits that padding leaves over are zero.
-/

namespace PertiskKos.Tpm.Ek

open Strings

/-- The digit of a value below 64. -/
def base64Digit (value : Nat) : UInt8 :=
  if value < 26 then UInt8.ofNat (65 + value)
  else if value < 52 then UInt8.ofNat (97 + (value - 26))
  else if value < 62 then UInt8.ofNat (48 + (value - 52))
  else if value = 62 then 43
  else 47

/-- The standard encoding with padding, three bytes at a time. -/
def base64Encode : Bytes → Bytes
  | a :: b :: c :: rest =>
      let n := a.toNat * 2 ^ 16 + b.toNat * 2 ^ 8 + c.toNat
      base64Digit (n / 2 ^ 18) :: base64Digit (n / 2 ^ 12 % 64) ::
        base64Digit (n / 2 ^ 6 % 64) :: base64Digit (n % 64) :: base64Encode rest
  | [a, b] =>
      let n := a.toNat * 2 ^ 16 + b.toNat * 2 ^ 8
      [base64Digit (n / 2 ^ 18), base64Digit (n / 2 ^ 12 % 64),
        base64Digit (n / 2 ^ 6 % 64), padding]
  | [a] =>
      let n := a.toNat * 2 ^ 16
      [base64Digit (n / 2 ^ 18), base64Digit (n / 2 ^ 12 % 64), padding, padding]
  | [] => []

def isDigit64 (c : UInt8) : Bool := (base64Value c).isSome

/-- Groups of four, each of two digits and two digits or signs of padding. -/
def readable : Bytes → Bool
  | a :: b :: c :: d :: rest =>
      isDigit64 a && isDigit64 b && (c = padding || isDigit64 c) &&
        (d = padding || isDigit64 d) && readable rest
  | [] => true
  | _ => false

/-- Padding is the end of the text, and the digit in front of it has no bits that count for
nothing. -/
def paddedAtEnd : Bytes → Bool
  | _ :: b :: c :: d :: rest =>
      (if c = padding then d = padding && (base64Value b).any (· % 16 = 0)
        else if d = padding then (base64Value c).any (· % 4 = 0) else true) &&
      (d ≠ padding || rest = []) && paddedAtEnd rest
  | _ => true

section Digits

theorem base64Value_digit {value : Nat} (hvalue : value < 64) :
    base64Value (base64Digit value) = some value := by
  have hall : ∀ value : Fin 64, base64Value (base64Digit value) = some value.val := by
    decide +kernel
  exact hall ⟨value, hvalue⟩

theorem digit_of_value {c : UInt8} {value : Nat} (hvalue : base64Value c = some value) :
    value < 64 ∧ base64Digit value = c := by
  have hall : ∀ n : Fin 256, (base64Value (UInt8.ofNat n)).all
      fun value => value < 64 && base64Digit value = UInt8.ofNat n := by decide +kernel
  have hc := hall ⟨c.toNat, c.toNat_lt⟩
  simp only [UInt8.ofNat_toNat, hvalue, Option.all_some, Bool.and_eq_true,
    decide_eq_true_eq] at hc
  exact hc

theorem digit_ne_padding {c : UInt8} (hc : isDigit64 c = true) : c ≠ padding := by
  rintro rfl
  exact absurd hc (by decide)

theorem base64Digit_ne_padding {value : Nat} (hvalue : value < 64) :
    base64Digit value ≠ padding := by
  apply digit_ne_padding
  rw [isDigit64, base64Value_digit hvalue]
  rfl

theorem digit_ok {c : UInt8} {value : Nat} (hvalue : base64Value c = some value) :
    digit c = .ok value := by rw [digit, hvalue]

theorem digitOrPad_ok {c : UInt8} {value : Nat} (hvalue : base64Value c = some value) :
    digitOrPad c = .ok value := by
  have hc : c ≠ padding := digit_ne_padding (by rw [isDigit64, hvalue]; rfl)
  rw [digitOrPad, if_neg hc, digit_ok hvalue]

theorem digitOrPad_padding : digitOrPad padding = .ok 0 := rfl

end Digits

/-- The bytes of one group. -/
def groupBytes (n pad : Nat) : Bytes :=
  [UInt8.ofNat (n / 2 ^ 16)] ++ (if pad < 2 then [UInt8.ofNat (n / 2 ^ 8)] else []) ++
    if pad < 1 then [UInt8.ofNat n] else []

def padCount (c d : UInt8) : Nat := (if c = padding then 1 else 0) + if d = padding then 1 else 0

section Decode

variable {a b c d : UInt8} {rest out : Bytes}

theorem base64Chunks_group {av bv cv dv n : Nat} (ha : digit a = .ok av) (hb : digit b = .ok bv)
    (hc : digitOrPad c = .ok cv) (hd : digitOrPad d = .ok dv)
    (hn : av * 2 ^ 18 + bv * 2 ^ 12 + cv * 2 ^ 6 + dv = n) :
    base64Chunks (a :: b :: c :: d :: rest) =
      (base64Chunks rest).map fun tail => groupBytes n (padCount c d) ++ tail := by
  rw [base64Chunks, ha, hb, hc, hd, ← hn]
  cases base64Chunks rest <;> rfl

theorem ofNat_toNat_div (n k : Nat) : (UInt8.ofNat (n / k)).toNat = n / k % 256 := by simp

theorem sum_three_bytes {n : Nat} (hn : n < 2 ^ 24) :
    n / 2 ^ 16 % 256 * 2 ^ 16 + n / 2 ^ 8 % 256 * 2 ^ 8 + n % 2 ^ 8 = n := by
  omega

theorem byte_of_nat (byte : UInt8) {n : Nat} (hn : n % 256 = byte.toNat) :
    UInt8.ofNat n = byte := by
  apply UInt8.toNat_inj.mp
  simpa using hn

/-- Two bytes leave the last digit at zero. -/
theorem sum_three_digits {n : Nat} (hn : n % 64 = 0) :
    n / 2 ^ 18 * 2 ^ 18 + n / 2 ^ 12 % 64 * 2 ^ 12 + n / 2 ^ 6 % 64 * 2 ^ 6 + 0 = n := by
  omega

theorem sum_two_digits {n : Nat} (hn : n % 4096 = 0) :
    n / 2 ^ 18 * 2 ^ 18 + n / 2 ^ 12 % 64 * 2 ^ 12 + 0 * 2 ^ 6 + 0 = n := by
  omega

/-- Three bytes in four digits. -/
theorem base64Chunks_digits {n : Nat} (hn : n < 2 ^ 24) (rest : Bytes) :
    base64Chunks (base64Digit (n / 2 ^ 18) :: base64Digit (n / 2 ^ 12 % 64) ::
        base64Digit (n / 2 ^ 6 % 64) :: base64Digit (n % 64) :: rest) =
      (base64Chunks rest).map fun tail => groupBytes n 0 ++ tail := by
  have hfirst := @base64Value_digit (n / 2 ^ 18) (by omega)
  have hsecond := @base64Value_digit (n / 2 ^ 12 % 64) (by omega)
  have hthird := @base64Value_digit (n / 2 ^ 6 % 64) (by omega)
  have hfourth := @base64Value_digit (n % 64) (by omega)
  have hpad : padCount (base64Digit (n / 2 ^ 6 % 64)) (base64Digit (n % 64)) = 0 := by
    rw [padCount, if_neg (base64Digit_ne_padding (by omega)),
      if_neg (base64Digit_ne_padding (by omega))]
  rw [base64Chunks_group (digit_ok hfirst) (digit_ok hsecond) (digitOrPad_ok hthird)
    (digitOrPad_ok hfourth) (n := n) (by omega), hpad]

/-- The decoder undoes the standard encoding. -/
theorem base64Chunks_encode (bytes : Bytes) : base64Chunks (base64Encode bytes) = .ok bytes := by
  induction bytes using base64Encode.induct with
  | case1 a b c rest ih =>
      have ha := a.toNat_lt
      have hb := b.toNat_lt
      have hc := c.toNat_lt
      have hbytes : groupBytes (a.toNat * 2 ^ 16 + b.toNat * 2 ^ 8 + c.toNat) 0 = [a, b, c] := by
        simp only [groupBytes, Nat.zero_lt_succ, if_true, List.cons_append, List.nil_append]
        rw [byte_of_nat a (by omega), byte_of_nat b (by omega), byte_of_nat c (by omega)]
      rw [base64Encode, base64Chunks_digits (by omega), ih, hbytes]
      rfl
  | case2 a b =>
      have ha := a.toNat_lt
      have hb := b.toNat_lt
      rw [base64Encode]
      generalize hn : a.toNat * 2 ^ 16 + b.toNat * 2 ^ 8 = n
      have hfirst := @base64Value_digit (n / 2 ^ 18) (by omega)
      have hsecond := @base64Value_digit (n / 2 ^ 12 % 64) (by omega)
      have hthird := @base64Value_digit (n / 2 ^ 6 % 64) (by omega)
      have hpad : padCount (base64Digit (n / 2 ^ 6 % 64)) padding = 1 := by
        rw [padCount, if_neg (base64Digit_ne_padding (by omega)), if_pos rfl]
      have hbytes : groupBytes n 1 = [a, b] := by
        rw [groupBytes, byte_of_nat a (by omega), byte_of_nat b (by omega)]
        rfl
      rw [base64Chunks_group (digit_ok hfirst) (digit_ok hsecond) (digitOrPad_ok hthird)
        digitOrPad_padding (sum_three_digits (by omega)), hpad, hbytes]
      rfl
  | case3 a =>
      have ha := a.toNat_lt
      rw [base64Encode]
      generalize hn : a.toNat * 2 ^ 16 = n
      have hfirst := @base64Value_digit (n / 2 ^ 18) (by omega)
      have hsecond := @base64Value_digit (n / 2 ^ 12 % 64) (by omega)
      have hbytes : groupBytes n (padCount padding padding) = [a] := by
        rw [groupBytes, byte_of_nat a (by omega)]
        rfl
      rw [base64Chunks_group (digit_ok hfirst) (digit_ok hsecond) digitOrPad_padding
        digitOrPad_padding (sum_two_digits (by omega)), hbytes]
      rfl
  | case4 => rfl

end Decode

section Strict

variable {a b c d : UInt8} {rest out : Bytes}

theorem base64Digit_eq_iff {value other : Nat} (hvalue : base64Value c = some value)
    (hother : other < 64) : base64Digit other = c ↔ other = value := by
  constructor
  · intro hdigit
    have hread := base64Value_digit hother
    rw [hdigit, hvalue] at hread
    exact (Option.some.inj hread).symm
  · rintro rfl
    exact (digit_of_value hvalue).2

/-- What is readable is decoded, a group at a time. -/
theorem exists_chunks (hread : readable rest = true) : ∃ out, base64Chunks rest = .ok out := by
  induction rest using base64Chunks.induct with
  | case1 a b c d rest ih =>
      simp only [readable, Bool.and_eq_true, Bool.or_eq_true, decide_eq_true_eq] at hread
      obtain ⟨⟨⟨⟨ha, hb⟩, hc⟩, hd⟩, hrest⟩ := hread
      obtain ⟨tail, htail⟩ := ih hrest
      have hdigit : ∀ {e : UInt8}, isDigit64 e = true → ∃ value, digit e = .ok value := by
        intro e he
        obtain ⟨value, hvalue⟩ := Option.isSome_iff_exists.mp he
        exact ⟨value, digit_ok hvalue⟩
      have hpad : ∀ {e : UInt8}, e = padding ∨ isDigit64 e = true →
          ∃ value, digitOrPad e = .ok value := by
        intro e he
        rcases he with rfl | he
        · exact ⟨0, rfl⟩
        · obtain ⟨value, hvalue⟩ := Option.isSome_iff_exists.mp he
          exact ⟨value, digitOrPad_ok hvalue⟩
      obtain ⟨av, ha⟩ := hdigit ha
      obtain ⟨bv, hb⟩ := hdigit hb
      obtain ⟨cv, hc⟩ := hpad hc
      obtain ⟨dv, hd⟩ := hpad hd
      rw [base64Chunks_group ha hb hc hd rfl, htail]
      exact ⟨_, rfl⟩
  | case2 bytes hshort =>
      refine ⟨[], ?_⟩
      rw [base64Chunks]
      · rfl
      · exact hshort

theorem length_of_readable (hread : readable rest = true) : rest.length % 4 = 0 := by
  induction rest using base64Chunks.induct with
  | case1 a b c d rest ih =>
      simp only [readable, Bool.and_eq_true] at hread
      have hrest := ih hread.2
      simp only [List.length_cons]
      omega
  | case2 bytes hshort =>
      rcases bytes with _ | ⟨a, _ | ⟨b, _ | ⟨c, _ | ⟨d, bytes⟩⟩⟩⟩
      · rfl
      · simp [readable] at hread
      · simp [readable] at hread
      · simp [readable] at hread
      · exact absurd rfl (hshort a b c d bytes)

theorem readable_of_chunks (hlength : rest.length % 4 = 0) (hout : base64Chunks rest = .ok out) :
    readable rest = true := by
  induction rest using base64Chunks.induct generalizing out with
  | case1 a b c d rest ih =>
      rw [base64Chunks] at hout
      obtain ⟨av, ha, hout⟩ := bind_ok hout
      obtain ⟨bv, hb, hout⟩ := bind_ok hout
      obtain ⟨cv, hc, hout⟩ := bind_ok hout
      obtain ⟨dv, hd, hout⟩ := bind_ok hout
      obtain ⟨tail, htail, -⟩ := bind_ok hout
      have hdigit : ∀ {e : UInt8} {value : Nat}, digit e = .ok value → isDigit64 e = true := by
        intro e value he
        rw [digit] at he
        rw [isDigit64]
        cases hvalue : base64Value e with
        | none => rw [hvalue] at he; cases he
        | some value => rfl
      have hpad : ∀ {e : UInt8} {value : Nat}, digitOrPad e = .ok value →
          e = padding ∨ isDigit64 e = true := by
        intro e value he
        rw [digitOrPad] at he
        split at he
        · exact .inl (by assumption)
        · exact .inr (hdigit he)
      have hshorter : rest.length % 4 = 0 := by
        simp only [List.length_cons] at hlength
        omega
      simp only [readable, Bool.and_eq_true, Bool.or_eq_true, decide_eq_true_eq]
      exact ⟨⟨⟨⟨hdigit ha, hdigit hb⟩, hpad hc⟩, hpad hd⟩, ih hshorter htail⟩
  | case2 bytes hshort =>
      rcases bytes with _ | ⟨a, _ | ⟨b, _ | ⟨c, _ | ⟨d, bytes⟩⟩⟩⟩
      · rfl
      · simp at hlength
      · simp at hlength
      · simp at hlength
      · exact absurd rfl (hshort a b c d bytes)

theorem chunks_eq_nil_iff (hread : readable rest = true) (hout : base64Chunks rest = .ok out) :
    out = [] ↔ rest = [] := by
  constructor
  · rintro rfl
    rcases rest with _ | ⟨a, _ | ⟨b, _ | ⟨c, _ | ⟨d, rest⟩⟩⟩⟩
    · rfl
    · simp [readable] at hread
    · simp [readable] at hread
    · simp [readable] at hread
    · rw [base64Chunks] at hout
      obtain ⟨av, -, hout⟩ := bind_ok hout
      obtain ⟨bv, -, hout⟩ := bind_ok hout
      obtain ⟨cv, -, hout⟩ := bind_ok hout
      obtain ⟨dv, -, hout⟩ := bind_ok hout
      obtain ⟨tail, -, hout⟩ := bind_ok hout
      have hbytes := Except.ok.inj hout
      simp only [List.append_assoc, List.cons_append] at hbytes
      cases hbytes
  · rintro rfl
    cases hout
    rfl

/-- A value that a sign of padding stands for is zero. -/
theorem base64Encode_third (x y : UInt8) (tail : Bytes) :
    ∃ first second third, base64Encode (x :: y :: tail) = first :: second :: third ∧
      third.head? ≠ some padding := by
  cases tail with
  | nil =>
      refine ⟨_, _, _, by rw [base64Encode], ?_⟩
      rw [List.head?_cons, Ne, Option.some.injEq]
      exact base64Digit_ne_padding (by omega)
  | cons z tail =>
      refine ⟨_, _, _, by rw [base64Encode], ?_⟩
      rw [List.head?_cons, Ne, Option.some.injEq]
      exact base64Digit_ne_padding (by omega)

theorem base64Encode_fourth (x y z : UInt8) (tail : Bytes) :
    ∃ first second third fourth, base64Encode (x :: y :: z :: tail) =
        first :: second :: third :: fourth ∧ fourth.head? ≠ some padding := by
  refine ⟨_, _, _, _, by rw [base64Encode], ?_⟩
  rw [List.head?_cons, Ne, Option.some.injEq]
  exact base64Digit_ne_padding (by omega)

/-- What has been read is the standard encoding of what it was read as exactly when it is
padded at its end. -/
theorem base64Encode_chunks_iff (hread : readable rest = true)
    (hout : base64Chunks rest = .ok out) :
    base64Encode out = rest ↔ paddedAtEnd rest = true := by
  induction rest using base64Chunks.induct generalizing out with
  | case1 a b c d rest ih =>
      simp only [readable, Bool.and_eq_true, Bool.or_eq_true, decide_eq_true_eq] at hread
      obtain ⟨⟨⟨⟨ha, hb⟩, hc⟩, hd⟩, hrest⟩ := hread
      obtain ⟨av, ha⟩ := Option.isSome_iff_exists.mp ha
      obtain ⟨bv, hb⟩ := Option.isSome_iff_exists.mp hb
      obtain ⟨tail, htail⟩ := exists_chunks hrest
      have hnil := chunks_eq_nil_iff hrest htail
      have hav := (digit_of_value ha).1
      have hbv := (digit_of_value hb).1
      rcases hc with rfl | hc <;> rcases hd with rfl | hd
      · -- `xx==` stands for one byte
        generalize hn : av * 2 ^ 18 + bv * 2 ^ 12 = n
        have hgroup := @base64Chunks_group _ _ _ _ rest _ _ _ _ n (digit_ok ha) (digit_ok hb)
          digitOrPad_padding digitOrPad_padding
          (by rw [Nat.zero_mul, Nat.add_zero, hn])
        have hbytes : groupBytes n (padCount padding padding) = [UInt8.ofNat (n / 2 ^ 16)] := rfl
        have hbyte : (UInt8.ofNat (n / 2 ^ 16)).toNat = n / 2 ^ 16 % 256 := ofNat_toNat_div _ _
        rw [hgroup, htail, hbytes] at hout
        have hout : UInt8.ofNat (n / 2 ^ 16) :: tail = out := Except.ok.inj hout
        subst hout
        cases htailCase : tail with
        | nil =>
            have hfirst := (@base64Digit_eq_iff _ _
              (n / 2 ^ 16 % 256 * 2 ^ 16 / 2 ^ 18) ha (by omega)).mpr (by omega)
            have hsecond := @base64Digit_eq_iff _ _
              (n / 2 ^ 16 % 256 * 2 ^ 16 / 2 ^ 12 % 64) hb (by omega)
            rw [hnil.mp htailCase, base64Encode, hbyte, hfirst]
            simp only [List.cons.injEq, true_and, and_true, hsecond, paddedAtEnd, hb,
              Option.any_some, if_true, decide_true, Bool.true_and, Bool.or_true,
              decide_eq_true_eq, Bool.and_true]
            omega
        | cons y tail =>
            have hrestNe : rest ≠ [] := fun h => by
              rw [hnil.mpr h] at htailCase
              cases htailCase
            obtain ⟨first, second, third, hthird, hplain⟩ :=
              base64Encode_third (UInt8.ofNat (n / 2 ^ 16)) y tail
            rw [hthird]
            constructor
            · intro hsame
              simp only [List.cons.injEq] at hsame
              rw [hsame.2.2] at hplain
              exact absurd rfl hplain
            · intro hpadded
              simp [paddedAtEnd, hrestNe] at hpadded
      · -- `xx=x` is written by no encoder
        obtain ⟨dv, hdv⟩ := Option.isSome_iff_exists.mp hd
        have hplainD := digit_ne_padding hd
        generalize hn : av * 2 ^ 18 + bv * 2 ^ 12 + 0 * 2 ^ 6 + dv = n
        have hgroup := @base64Chunks_group _ _ _ _ rest _ _ _ _ n (digit_ok ha) (digit_ok hb)
          digitOrPad_padding (digitOrPad_ok hdv) hn
        have hbytes : groupBytes n (padCount padding d) =
            [UInt8.ofNat (n / 2 ^ 16), UInt8.ofNat (n / 2 ^ 8)] := by
          rw [padCount, if_pos rfl, if_neg hplainD]
          rfl
        rw [hgroup, htail, hbytes] at hout
        have hout : UInt8.ofNat (n / 2 ^ 16) :: UInt8.ofNat (n / 2 ^ 8) :: tail = out :=
          Except.ok.inj hout
        subst hout
        obtain ⟨first, second, third, hthird, hplain⟩ :=
          base64Encode_third (UInt8.ofNat (n / 2 ^ 16)) (UInt8.ofNat (n / 2 ^ 8)) tail
        rw [hthird]
        constructor
        · intro hsame
          simp only [List.cons.injEq] at hsame
          rw [hsame.2.2] at hplain
          exact absurd rfl hplain
        · intro hpadded
          simp [paddedAtEnd, hplainD] at hpadded
      · -- `xxx=` stands for two bytes
        obtain ⟨cv, hcv⟩ := Option.isSome_iff_exists.mp hc
        have hplainC := digit_ne_padding hc
        have hcvLt := (digit_of_value hcv).1
        generalize hn : av * 2 ^ 18 + bv * 2 ^ 12 + cv * 2 ^ 6 = n
        have hgroup := @base64Chunks_group _ _ _ _ rest _ _ _ _ n (digit_ok ha) (digit_ok hb)
          (digitOrPad_ok hcv) digitOrPad_padding (by rw [Nat.add_zero, hn])
        have hbytes : groupBytes n (padCount c padding) =
            [UInt8.ofNat (n / 2 ^ 16), UInt8.ofNat (n / 2 ^ 8)] := by
          rw [padCount, if_neg hplainC, if_pos rfl]
          rfl
        have hbyte : (UInt8.ofNat (n / 2 ^ 16)).toNat = n / 2 ^ 16 % 256 := ofNat_toNat_div _ _
        have hbyte' : (UInt8.ofNat (n / 2 ^ 8)).toNat = n / 2 ^ 8 % 256 := ofNat_toNat_div _ _
        rw [hgroup, htail, hbytes] at hout
        have hout : UInt8.ofNat (n / 2 ^ 16) :: UInt8.ofNat (n / 2 ^ 8) :: tail = out :=
          Except.ok.inj hout
        subst hout
        cases htailCase : tail with
        | nil =>
            generalize hm : n / 2 ^ 16 % 256 * 2 ^ 16 + n / 2 ^ 8 % 256 * 2 ^ 8 = m
            have hfirst := (@base64Digit_eq_iff _ _ (m / 2 ^ 18) ha (by omega)).mpr (by omega)
            have hsecond := (@base64Digit_eq_iff _ _ (m / 2 ^ 12 % 64) hb (by omega)).mpr
              (by omega)
            have hthird := @base64Digit_eq_iff _ _ (m / 2 ^ 6 % 64) hcv (by omega)
            rw [hnil.mp htailCase, base64Encode, hbyte, hbyte', hm, hfirst, hsecond]
            simp only [List.cons.injEq, true_and, and_true, hthird, paddedAtEnd, hcv, hplainC,
              Option.any_some, if_true, if_false, decide_true, Bool.or_true,
              decide_eq_true_eq, Bool.and_true]
            omega
        | cons y tail =>
            have hrestNe : rest ≠ [] := fun h => by
              rw [hnil.mpr h] at htailCase
              cases htailCase
            obtain ⟨first, second, third, fourth, hfourth, hplain⟩ :=
              base64Encode_fourth (UInt8.ofNat (n / 2 ^ 16)) (UInt8.ofNat (n / 2 ^ 8)) y tail
            rw [hfourth]
            constructor
            · intro hsame
              simp only [List.cons.injEq] at hsame
              rw [hsame.2.2.2] at hplain
              exact absurd rfl hplain
            · intro hpadded
              simp [paddedAtEnd, hrestNe] at hpadded
      · -- four digits stand for three bytes
        obtain ⟨cv, hcv⟩ := Option.isSome_iff_exists.mp hc
        obtain ⟨dv, hdv⟩ := Option.isSome_iff_exists.mp hd
        have hplainC := digit_ne_padding hc
        have hplainD := digit_ne_padding hd
        have hcvLt := (digit_of_value hcv).1
        have hdvLt := (digit_of_value hdv).1
        generalize hn : av * 2 ^ 18 + bv * 2 ^ 12 + cv * 2 ^ 6 + dv = n
        have hgroup := @base64Chunks_group _ _ _ _ rest _ _ _ _ n (digit_ok ha) (digit_ok hb)
          (digitOrPad_ok hcv) (digitOrPad_ok hdv) hn
        have hbytes : groupBytes n (padCount c d) =
            [UInt8.ofNat (n / 2 ^ 16), UInt8.ofNat (n / 2 ^ 8), UInt8.ofNat n] := by
          rw [padCount, if_neg hplainC, if_neg hplainD]
          rfl
        have hvalue : (UInt8.ofNat (n / 2 ^ 16)).toNat * 2 ^ 16 +
            (UInt8.ofNat (n / 2 ^ 8)).toNat * 2 ^ 8 + (UInt8.ofNat n).toNat = n := by
          rw [ofNat_toNat_div, ofNat_toNat_div, UInt8.toNat_ofNat']
          exact sum_three_bytes (by omega)
        rw [hgroup, htail, hbytes] at hout
        have hout : UInt8.ofNat (n / 2 ^ 16) :: UInt8.ofNat (n / 2 ^ 8) :: UInt8.ofNat n :: tail =
            out := Except.ok.inj hout
        subst hout
        have hfirst := (@base64Digit_eq_iff _ _ (n / 2 ^ 18) ha (by omega)).mpr (by omega)
        have hsecond := (@base64Digit_eq_iff _ _ (n / 2 ^ 12 % 64) hb (by omega)).mpr
          (by omega)
        have hthird := (@base64Digit_eq_iff _ _ (n / 2 ^ 6 % 64) hcv (by omega)).mpr
          (by omega)
        have hfourth := (@base64Digit_eq_iff _ _ (n % 64) hdv (by omega)).mpr (by omega)
        rw [base64Encode, hvalue, hfirst, hsecond, hthird, hfourth, paddedAtEnd, if_neg hplainC,
          if_neg hplainD, decide_eq_true hplainD, Bool.true_or, Bool.true_and, Bool.true_and,
          ← ih hrest htail]
        simp only [List.cons.injEq, true_and]
  | case2 bytes hshort =>
      rcases bytes with _ | ⟨a, _ | ⟨b, _ | ⟨c, _ | ⟨d, bytes⟩⟩⟩⟩
      · cases hout
        simp [base64Encode, paddedAtEnd]
      · simp [readable] at hread
      · simp [readable] at hread
      · simp [readable] at hread
      · exact absurd rfl (hshort a b c d bytes)

end Strict

end PertiskKos.Tpm.Ek
