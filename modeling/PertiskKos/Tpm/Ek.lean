import PertiskKos.Library.Utf8
import PertiskKos.Tpm.Wire

/-!
# Certificates of the endorsement key

The certificate is read from an NV index of the TPM, which may be longer than what was
written to it.  It is DER, which starts with a sequence, or PEM; certificates of the
manufacturers come from files of either kind.
-/

namespace PertiskKos.Tpm.Ek

open Strings Hex

/-- `-----BEGIN` -/
def pemBegin : Bytes := [45, 45, 45, 45, 45, 66, 69, 71, 73, 78]

/-- Some window of ten bytes begins a PEM block. -/
def hasPem (raw : Bytes) : Bool := contains pemBegin raw

def trimNulls (raw : Bytes) : Bytes := raw.rdropWhile (· = 0)

/-- The value of a base64 digit. -/
def base64Value (c : UInt8) : Option Nat :=
  let n := c.toNat
  if 65 ≤ n ∧ n ≤ 90 then some (n - 65)
  else if 97 ≤ n ∧ n ≤ 122 then some (n - 97 + 26)
  else if 48 ≤ n ∧ n ≤ 57 then some (n - 48 + 52)
  else if n = 43 then some 62
  else if n = 47 then some 63
  else none

/-- `=` -/
def padding : UInt8 := 61

def isAsciiWhitespace (b : UInt8) : Bool := b ∈ [9, 10, 12, 13, 32]

def digit (c : UInt8) : Except Error Nat :=
  match base64Value c with
  | some value => .ok value
  | none => .error (.parse "base64".toList)

def digitOrPad (c : UInt8) : Except Error Nat :=
  if c = padding then pure 0 else digit c

def base64Chunks : Bytes → Except Error Bytes
  | a :: b :: c :: d :: rest => do
      let pad := (if c = padding then 1 else 0) + if d = padding then 1 else 0
      let av ← digit a
      let bv ← digit b
      let cv ← digitOrPad c
      let dv ← digitOrPad d
      let n := av * 2 ^ 18 + bv * 2 ^ 12 + cv * 2 ^ 6 + dv
      let out := [UInt8.ofNat (n / 2 ^ 16)] ++ (if pad < 2 then [UInt8.ofNat (n / 2 ^ 8)] else []) ++
        if pad < 1 then [UInt8.ofNat n] else []
      pure (out ++ (← base64Chunks rest))
  | _ => pure []

def b64Decode (s : Text) : Except Error Bytes :=
  let bytes := (Utf8.encode s).filter fun b => !isAsciiWhitespace b
  if bytes.length % 4 = 0 then base64Chunks bytes else .error (.parse "base64 length".toList)

/-- The certificates found so far, the open block, and whether one is open. -/
structure Split where
  out : List Bytes
  b64 : Text
  inBody : Bool

def splitLine (split : Split) (line : Text) : Except Error Split :=
  let line := trim line
  if startsWith line "-----BEGIN".toList then pure { split with inBody := true, b64 := [] }
  else if startsWith line "-----END".toList then
    if split.b64 = [] then pure { split with inBody := false }
    else do
      let der ← b64Decode split.b64
      pure { split with out := split.out ++ [der], inBody := false }
  else if split.inBody then pure { split with b64 := split.b64 ++ line }
  else pure split

def splitCerts (raw : Bytes) : Except Error (List Bytes) :=
  if hasPem raw then
    match Utf8.decode raw with
    | none => .error (.parse "CA PEM utf8".toList)
    | some text => do
        let split ← (lines text).foldlM splitLine { out := [], b64 := [], inBody := false }
        if split.out = [] then .error (.parse "CA PEM contained no certificates".toList)
        else pure split.out
  else if raw.head? = some 0x30 then pure [raw]
  else .error (.parse "CA file is not PEM or DER".toList)

def pemToDer (pem : Bytes) : Except Error Bytes := do
  match (← splitCerts pem).head? with
  | some der => pure der
  | none => .error (.parse "EK PEM missing body".toList)

/-- Accept DER or PEM-wrapped certificate bytes from NV. -/
def normalizeToDer (raw : Bytes) : Except Error Bytes :=
  match trimNulls raw with
  | [] => .error (.parse "empty EK certificate".toList)
  | first :: rest =>
      if hasPem (first :: rest) then pemToDer (first :: rest)
      else if first = 0x30 then pure (first :: rest)
      else .error (.parse ("EK NV data is not DER/PEM (first byte 0x".toList ++
        hexPad 2 first.toNat ++ ", ".toList ++ Nat.toDigits 10 (first :: rest).length ++
        " bytes)".toList))

/-! ## What is read from NV -/

section Length

theorem length_ite_singleton (p : Prop) [Decidable p] (byte : UInt8) :
    (if p then [byte] else []).length ≤ 1 := by
  split
  · exact Nat.le_refl 1
  · exact Nat.zero_le 1

theorem base64Chunks_length {bytes out : Bytes} (hout : base64Chunks bytes = .ok out) :
    out.length * 4 ≤ 3 * bytes.length := by
  induction bytes using base64Chunks.induct generalizing out with
  | case1 a b c d rest ih =>
      rw [base64Chunks] at hout
      obtain ⟨av, -, hout⟩ := bind_ok hout
      obtain ⟨bv, -, hout⟩ := bind_ok hout
      obtain ⟨cv, -, hout⟩ := bind_ok hout
      obtain ⟨dv, -, hout⟩ := bind_ok hout
      obtain ⟨tail, htail, hout⟩ := bind_ok hout
      cases hout
      have hrest := ih htail
      have hsecond := length_ite_singleton
        (((if c = padding then 1 else 0) + if d = padding then 1 else 0) < 2)
        (UInt8.ofNat ((av * 2 ^ 18 + bv * 2 ^ 12 + cv * 2 ^ 6 + dv) / 2 ^ 8))
      have hthird := length_ite_singleton
        (((if c = padding then 1 else 0) + if d = padding then 1 else 0) < 1)
        (UInt8.ofNat (av * 2 ^ 18 + bv * 2 ^ 12 + cv * 2 ^ 6 + dv))
      simp only [List.length_append, List.length_cons, List.length_nil]
      omega
  | case2 bytes hshort =>
      rw [base64Chunks] at hout
      · cases hout
        exact Nat.zero_le _
      · exact hshort

theorem b64Decode_length {s : Text} {out : Bytes} (hout : b64Decode s = .ok out) :
    out.length * 4 ≤ 3 * (Utf8.encode s).length := by
  rw [b64Decode] at hout
  split at hout
  · have hkept := List.length_filter_le (fun b => !isAsciiWhitespace b) (Utf8.encode s)
    have hchunks := base64Chunks_length hout
    omega
  · cases hout

/-- No certificate is longer than the text in which it was found. -/
theorem splitLine_length {bound : Nat} (hbound : 0 < bound) {split after : Split} {line : Text}
    {later : Nat} (hfound : ∀ der ∈ split.out, der.length < bound)
    (hopen : (Utf8.encode split.b64).length + (Utf8.encode line).length + later ≤ bound)
    (hline : splitLine split line = .ok after) :
    (∀ der ∈ after.out, der.length < bound) ∧ (Utf8.encode after.b64).length + later ≤ bound := by
  have htrim : (Utf8.encode (trim line)).length ≤ (Utf8.encode line).length :=
    ((trim_sublist line).flatMap _).length_le
  rw [splitLine] at hline
  split at hline
  · cases hline
    exact ⟨hfound, by simp only [Utf8.encode_nil, List.length_nil]; omega⟩
  · split at hline
    · split at hline
      · cases hline
        exact ⟨hfound, by dsimp only; omega⟩
      · obtain ⟨der, hder, hline⟩ := bind_ok hline
        cases hline
        refine ⟨fun other hother => ?_, by dsimp only; omega⟩
        rcases List.mem_append.mp hother with hold | hnew
        · exact hfound other hold
        · cases List.mem_singleton.mp hnew
          have hlength := b64Decode_length hder
          omega
    · split at hline
      · cases hline
        refine ⟨hfound, ?_⟩
        rw [Utf8.encode_append, List.length_append]
        omega
      · cases hline
        exact ⟨hfound, by omega⟩

theorem foldlM_splitLine_length {bound : Nat} (hbound : 0 < bound) {texts : List Text}
    {split after : Split} (hfound : ∀ der ∈ split.out, der.length < bound)
    (hopen : (Utf8.encode split.b64).length + (Utf8.encode texts.flatten).length ≤ bound)
    (hfold : texts.foldlM splitLine split = .ok after) : ∀ der ∈ after.out, der.length < bound := by
  induction texts generalizing split with
  | nil =>
      cases hfold
      exact hfound
  | cons line texts ih =>
      rw [List.foldlM_cons] at hfold
      obtain ⟨middle, hmiddle, hfold⟩ := bind_ok hfold
      rw [List.flatten_cons, Utf8.encode_append, List.length_append, ← Nat.add_assoc] at hopen
      obtain ⟨hfound', hopen'⟩ := splitLine_length hbound hfound hopen hmiddle
      exact ih hfound' hopen' hfold

theorem pemToDer_length {pem der : Bytes} (hpem : hasPem pem = true)
    (hder : pemToDer pem = .ok der) : der.length < pem.length := by
  obtain ⟨certs, hcerts, hder⟩ := bind_ok hder
  rw [splitCerts, if_pos hpem] at hcerts
  have hmem : der ∈ certs := by
    split at hder
    · next first hfirst =>
        cases hder
        exact List.mem_of_head? hfirst
    · cases hder
  cases htext : Utf8.decode pem with
  | none =>
      rw [htext] at hcerts
      cases hcerts
  | some text =>
      rw [htext] at hcerts
      obtain ⟨split, hsplit, hcerts⟩ := bind_ok hcerts
      have hbytes := Utf8.decode_eq_some_iff.mp htext
      have hlines : (Utf8.encode (lines text).flatten).length ≤ pem.length := by
        rw [hbytes]
        exact ((lines_sublist text).flatMap _).length_le
      have hpos : 0 < pem.length := by
        have hwindow := (contains_iff.mp hpem).length_le
        rw [pemBegin] at hwindow
        simp only [List.length_cons, List.length_nil] at hwindow
        omega
      have hfound := foldlM_splitLine_length hpos
        (by simp) (by simpa using hlines) hsplit
      split at hcerts
      · cases hcerts
      · cases hcerts
        exact hfound der hmem

/-- What is left of the certificate is no longer than the bytes up to the padding, and
shorter if they are taken for PEM. -/
theorem normalizeToDer_length {raw der : Bytes} (hder : normalizeToDer raw = .ok der) :
    der.length ≤ (trimNulls raw).length ∧
      (hasPem (trimNulls raw) = true → der.length < (trimNulls raw).length) := by
  rw [normalizeToDer] at hder
  cases htrim : trimNulls raw with
  | nil =>
      rw [htrim] at hder
      cases hder
  | cons first rest =>
      rw [htrim] at hder
      dsimp only at hder
      by_cases hpem : hasPem (first :: rest) = true
      · rw [if_pos hpem] at hder
        have hshort := pemToDer_length hpem hder
        exact ⟨Nat.le_of_lt hshort, fun _ => hshort⟩
      · rw [if_neg hpem] at hder
        split at hder
        · cases hder
          exact ⟨Nat.le_refl _, fun h => absurd h hpem⟩
        · cases hder

end Length

section Padding

theorem trimNulls_replicate (raw : Bytes) (n : Nat) :
    trimNulls (raw ++ List.replicate n 0) = trimNulls raw := by
  induction n with
  | zero => rw [List.replicate_zero, List.append_nil]
  | succ n ih =>
      rw [List.replicate_succ', ← List.append_assoc, trimNulls,
        List.rdropWhile_concat_pos _ _ _ (by simp)]
      exact ih

/-- How much longer the index is makes no difference. -/
theorem normalizeToDer_replicate (raw : Bytes) (n : Nat) :
    normalizeToDer (raw ++ List.replicate n 0) = normalizeToDer raw := by
  rw [normalizeToDer, trimNulls_replicate, normalizeToDer]

/-- Padding is told from the certificate by its value: a DER certificate comes back as it
is if and only if its last byte is not zero and no window of it begins a PEM block. -/
theorem normalize_to_der_lossless_iff (rest : Bytes) (n : Nat) :
    normalizeToDer (0x30 :: rest ++ List.replicate n 0) = .ok (0x30 :: rest) ↔
      (0x30 :: rest).getLast (List.cons_ne_nil _ _) ≠ 0 ∧ ¬ pemBegin <:+: 0x30 :: rest := by
  rw [normalizeToDer_replicate]
  have htrim : trimNulls (0x30 :: rest) = 0x30 :: rest ↔
      (0x30 :: rest).getLast (List.cons_ne_nil _ _) ≠ 0 := by
    rw [trimNulls, List.rdropWhile_eq_self_iff]
    simp
  constructor
  · intro hder
    obtain ⟨hle, hlt⟩ := normalizeToDer_length hder
    have hkept : trimNulls (0x30 :: rest) = 0x30 :: rest :=
      (List.rdropWhile_prefix _ _).eq_of_length_le hle
    refine ⟨htrim.mp hkept, fun hpem => ?_⟩
    rw [hkept] at hlt
    exact Nat.lt_irrefl _ (hlt (contains_iff.mpr hpem))
  · rintro ⟨hlast, hpem⟩
    have hnot : hasPem (0x30 :: rest) = false :=
      Bool.eq_false_iff.mpr fun h => hpem (contains_iff.mp h)
    rw [normalizeToDer, htrim.mpr hlast]
    dsimp only
    rw [hnot]
    rfl

end Padding

/-! ## Certificates on P-256 -/

section Sample

/-- One element of DER. -/
def der (tag : UInt8) (content : Bytes) : Bytes :=
  tag :: (if content.length < 0x80 then beBytes 1 content.length
    else if content.length < 0x100 then 0x81 :: beBytes 1 content.length
    else 0x82 :: beBytes 2 content.length) ++ content

def derInteger (n : Nat) : Bytes :=
  der 0x02 ((if n < 2 ^ 255 then [] else [0]) ++ beBytes 32 n)

/-- A name with at most a common name in it. -/
def derName (commonName : Bytes) : Bytes :=
  der 0x30 (if commonName = [] then []
    else der 0x31 (der 0x30 (der 0x06 [0x55, 4, 3] ++ der 0x0c commonName)))

/-- A certificate without extensions, signed with ECDSA over SHA-256. -/
structure Sample where
  serial : UInt8
  issuer : Bytes
  subject : Bytes
  key : Nat × Nat
  signature : Nat × Nat
  deriving DecidableEq

def Sample.der (cert : Sample) : Bytes :=
  let ecdsaWithSha256 := Ek.der 0x30 (Ek.der 0x06 [0x2a, 0x86, 0x48, 0xce, 0x3d, 4, 3, 2])
  let algorithm := Ek.der 0x30 (Ek.der 0x06 [0x2a, 0x86, 0x48, 0xce, 0x3d, 2, 1] ++
    Ek.der 0x06 [0x2a, 0x86, 0x48, 0xce, 0x3d, 3, 1, 7])
  let notBefore := Ek.der 0x17 (Utf8.encode "260101000000Z".toList)
  let notAfter := Ek.der 0x17 (Utf8.encode "360101000000Z".toList)
  let point := [0, 4] ++ beBytes 32 cert.key.1 ++ beBytes 32 cert.key.2
  let toBeSigned := Ek.der 0x30 (Ek.der 0xa0 (Ek.der 0x02 [2]) ++ Ek.der 0x02 [cert.serial] ++
    ecdsaWithSha256 ++ derName cert.issuer ++ Ek.der 0x30 (notBefore ++ notAfter) ++
    derName cert.subject ++ Ek.der 0x30 (algorithm ++ Ek.der 0x03 point))
  Ek.der 0x30 (toBeSigned ++ ecdsaWithSha256 ++ Ek.der 0x03 (0 ::
    Ek.der 0x30 (derInteger cert.signature.1 ++ derInteger cert.signature.2)))

/-- The base point of the curve, which belongs to the private key 1. -/
def basePoint : Nat × Nat :=
  (0x6b17d1f2e12c4247f8bce6e563a440f277037d812deb33a0f4a13945d898c296,
    0x4fe342e2fe1a7f9b8ee7eb4a7c0f9e162bce33576b315ececbb6406837bf51f5)

/-- A certificate that is signed with its own key; the signature ends in a zero byte. -/
def zeroEnding : Sample where
  serial := 1
  issuer := []
  subject := []
  key := basePoint
  signature := (0x52910a011565810be90d03a299cb55851bab33236b7459b21db82b9f5c1874fe,
    0x3817f75a149c0e8ed278182e7038ed73ce1255706274b627f177a914561ed100)

end Sample

theorem normalize_to_der_drops_last_byte :
    ¬ ∀ (rest : Bytes) (n : Nat),
      normalizeToDer (0x30 :: rest ++ List.replicate n 0) = .ok (0x30 :: rest) := by
  intro hclaim
  have hstart : 0x30 :: zeroEnding.der.tail = zeroEnding.der := by decide +kernel
  have hread := hclaim zeroEnding.der.tail 2
  rw [hstart] at hread
  have hshort : normalizeToDer (zeroEnding.der ++ List.replicate 2 0) = .ok zeroEnding.der.dropLast := by
    decide +kernel
  have hsame : zeroEnding.der.dropLast = zeroEnding.der := Except.ok.inj (hshort.symm.trans hread)
  exact absurd hsame (by decide +kernel)

end PertiskKos.Tpm.Ek
