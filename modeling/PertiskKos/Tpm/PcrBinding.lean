import PertiskKos.Tpm.Verify

/-!
# What an accepted Quote says about the registers

The digest is computed over the registers that the signed selection names, in the
reported values.  A reported value is therefore bound exactly when the selection names
its register.
-/

namespace PertiskKos.Tpm

open Strings

/-- The registers that the selection in a signed structure names. -/
def pcrSelection (quoted : Bytes) : List Nat :=
  match parseTpmsAttest quoted with
  | .ok attest => attest.pcrSelect
  | .error _ => []

/-- Another digest for a register. -/
def replaceDigest (index : Nat) (digestHex : Text) (pcrs : List PcrDigest) :
    List PcrDigest :=
  pcrs.map fun pcr => if pcr.index = index then { pcr with digestHex } else pcr

/-- The digest that a list of registers reports for one of them. -/
def reported (pcrs : List PcrDigest) (index : Nat) : Option (Except Error Bytes) :=
  (pcrs.find? (·.index = index)).map fun pcr => hexDecode pcr.digestHex

/-- Text of 32 bytes that differ from the ones reported for a register. -/
def Differs (pcrs : List PcrDigest) (index : Nat) (digestHex : Text) : Prop :=
  ∃ digest, hexDecode digestHex = .ok digest ∧ digest.length = 32 ∧
    reported pcrs index ≠ some (.ok digest)

section Replace

variable {index other : Nat} {digestHex : Text} {pcrs : List PcrDigest}

theorem find_replace_self (hmem : index ∈ pcrs.map PcrDigest.index) :
    (replaceDigest index digestHex pcrs).find? (·.index = index) =
      some { index, digestHex } := by
  induction pcrs with
  | nil => simp at hmem
  | cons pcr rest ih =>
      rw [replaceDigest, List.map_cons, ← replaceDigest, List.find?_cons]
      by_cases hindex : pcr.index = index
      · simp [hindex]
      · have hrest : index ∈ rest.map PcrDigest.index := by
          rw [List.map_cons, List.mem_cons] at hmem
          exact hmem.resolve_left (Ne.symm hindex)
        simp [hindex, ih hrest]

theorem find_replace_other (hother : other ≠ index) :
    (replaceDigest index digestHex pcrs).find? (·.index = other) =
      pcrs.find? (·.index = other) := by
  induction pcrs with
  | nil => rfl
  | cons pcr rest ih =>
      rw [replaceDigest, List.map_cons, ← replaceDigest, List.find?_cons, List.find?_cons,
        ih]
      by_cases hindex : pcr.index = index
      · simp [hindex, Ne.symm hother]
      · simp [hindex]

theorem pcrValue_replace_self {digest : Bytes} (hmem : index ∈ pcrs.map PcrDigest.index)
    (hdecode : hexDecode digestHex = .ok digest) (hlength : digest.length = 32) :
    pcrValue (replaceDigest index digestHex pcrs) index = .ok digest := by
  rw [pcrValue, find_replace_self hmem]
  simp only [hdecode]
  change (if digest.length ≠ 32 then _ else _) = _
  rw [if_neg (not_not_intro hlength)]
  rfl

theorem pcrValue_replace_other (hother : other ≠ index) :
    pcrValue (replaceDigest index digestHex pcrs) other = pcrValue pcrs other := by
  rw [pcrValue, pcrValue, find_replace_other hother]

/-- A value that counts is what is reported, and has 32 bytes. -/
theorem pcrValue_spec {digest : Bytes} (hvalue : pcrValue pcrs index = .ok digest) :
    digest.length = 32 ∧ reported pcrs index = some (.ok digest) := by
  rw [pcrValue] at hvalue
  rw [reported]
  cases hfind : pcrs.find? (·.index = index) with
  | none =>
      rw [hfind] at hvalue
      cases hvalue
  | some pcr =>
      rw [hfind] at hvalue
      cases hdecode : hexDecode pcr.digestHex with
      | error err =>
          simp only [hdecode] at hvalue
          cases hvalue
      | ok bytes =>
          simp only [hdecode] at hvalue
          change (if bytes.length ≠ 32 then _ else _) = _ at hvalue
          split at hvalue
          · cases hvalue
          · next hlength =>
              cases hvalue
              exact ⟨not_not.mp hlength, by simp [hdecode]⟩

theorem replace_ne_nil (hpcrs : pcrs ≠ []) : replaceDigest index digestHex pcrs ≠ [] := by
  simpa [replaceDigest] using hpcrs

end Replace

section Values

variable {pcrs pcrs' : List PcrDigest} {indices : List Nat} {values values' : List Bytes}

theorem mapM_cons_ok {A B E : Type} {f : A → Except E B} {first : A} {rest : List A}
    {found : List B} (hmap : (first :: rest).mapM f = .ok found) :
    ∃ value others, f first = .ok value ∧ rest.mapM f = .ok others ∧
      found = value :: others := by
  rw [List.mapM_cons] at hmap
  cases hfirst : f first with
  | error err =>
      rw [hfirst] at hmap
      cases hmap
  | ok value =>
      rw [hfirst] at hmap
      cases hrest : rest.mapM f with
      | error err =>
          rw [hrest] at hmap
          cases hmap
      | ok others =>
          rw [hrest] at hmap
          cases hmap
          exact ⟨value, others, rfl, rfl, rfl⟩

/-- Values that are taken into the digest all have 32 bytes. -/
theorem map_length_values (hvalues : indices.mapM (pcrValue pcrs) = .ok values) :
    values.map List.length = List.replicate indices.length 32 := by
  induction indices generalizing values with
  | nil =>
      cases hvalues
      rfl
  | cons first rest ih =>
      obtain ⟨value, others, hfirst, hrest, rfl⟩ := mapM_cons_ok hvalues
      rw [List.map_cons, ih hrest, (pcrValue_spec hfirst).1]
      rfl

/-- What is hashed determines the value of every register that is named. -/
theorem value_of_flatten (hvalues : indices.mapM (pcrValue pcrs) = .ok values)
    (hvalues' : indices.mapM (pcrValue pcrs') = .ok values')
    (hflatten : values.flatten = values'.flatten) {index : Nat} (hindex : index ∈ indices) :
    pcrValue pcrs index = pcrValue pcrs' index := by
  have heq : values = values' := by
    rw [List.eq_iff_flatten_eq]
    exact ⟨hflatten, by rw [map_length_values hvalues, map_length_values hvalues']⟩
  subst heq
  clear hflatten
  induction indices generalizing values with
  | nil => cases hindex
  | cons first rest ih =>
      obtain ⟨value, others, hfirst, hrest, rfl⟩ := mapM_cons_ok hvalues
      obtain ⟨_, _, hfirst', hrest', hsame⟩ := mapM_cons_ok hvalues'
      cases hsame
      rcases List.mem_cons.mp hindex with rfl | hmem
      · rw [hfirst, hfirst']
      · exact ih hrest hmem hrest'

theorem mapM_congr (hsame : ∀ index ∈ indices, pcrValue pcrs index = pcrValue pcrs' index) :
    indices.mapM (pcrValue pcrs) = indices.mapM (pcrValue pcrs') := by
  induction indices with
  | nil => rfl
  | cons first rest ih =>
      rw [List.mapM_cons, List.mapM_cons, hsame first List.mem_cons_self,
        ih fun index hindex => hsame index (List.mem_cons_of_mem _ hindex)]

end Values

section Accepted

variable {crypto : Crypto} {quoted signature akPublic nonce : Bytes}
variable {pcrs : List PcrDigest} {attest : AttestQuote}

/-- Every check of an accepted Quote. -/
theorem verifyQuote_ok
    (hok : verifyQuote crypto quoted signature akPublic nonce pcrs = .ok ()) :
    ∃ attest, parseTpmsAttest quoted = .ok attest ∧ checkAttest attest nonce = .ok () ∧
      checkPcrs crypto attest pcrs = .ok () ∧
      checkSignature crypto quoted signature akPublic = .ok () := by
  obtain ⟨attest, hparse, hrest⟩ := bind_ok hok
  obtain ⟨_, hattest, hrest⟩ := bind_ok hrest
  obtain ⟨_, hcheck, hsignature⟩ := bind_ok hrest
  exact ⟨attest, hparse, hattest, hcheck, hsignature⟩

/-- With the other checks passed, the registers decide. -/
theorem verifyQuote_of_checks (hparse : parseTpmsAttest quoted = .ok attest)
    (hattest : checkAttest attest nonce = .ok ())
    (hsignature : checkSignature crypto quoted signature akPublic = .ok ())
    (pcrs : List PcrDigest) :
    verifyQuote crypto quoted signature akPublic nonce pcrs =
      checkPcrs crypto attest pcrs := by
  rw [verifyQuote, hparse]
  change (checkAttest attest nonce >>= fun _ => _) = _
  rw [hattest]
  change (checkPcrs crypto attest pcrs >>= fun _ => _) = _
  cases hpcrs : checkPcrs crypto attest pcrs with
  | error err => rfl
  | ok _ => exact hsignature

theorem checkPcrs_ok (hpcrs : pcrs ≠ []) (hcheck : checkPcrs crypto attest pcrs = .ok ()) :
    ∃ values, attest.pcrSelect.mapM (pcrValue pcrs) = .ok values ∧
      crypto.sha256 values.flatten = attest.pcrDigest := by
  rw [checkPcrs, if_neg hpcrs] at hcheck
  obtain ⟨expected, hdigest, hcompare⟩ := bind_ok hcheck
  obtain ⟨values, hvalues, hsha⟩ := bind_ok hdigest
  cases hsha
  refine ⟨values, hvalues, ?_⟩
  by_contra hne
  rw [if_pos hne] at hcompare
  cases hcompare

/-- A register that the selection does not name plays no part. -/
theorem checkPcrs_replace_other {index : Nat} (hindex : index ∉ attest.pcrSelect)
    (digestHex : Text) (hpcrs : pcrs ≠ []) :
    checkPcrs crypto attest (replaceDigest index digestHex pcrs) =
      checkPcrs crypto attest pcrs := by
  have hvalues : attest.pcrSelect.mapM (pcrValue (replaceDigest index digestHex pcrs)) =
      attest.pcrSelect.mapM (pcrValue pcrs) :=
    mapM_congr fun other hother =>
      pcrValue_replace_other fun h => hindex (h ▸ hother)
  rw [checkPcrs, checkPcrs, if_neg hpcrs, if_neg (replace_ne_nil hpcrs), computePcrDigest,
    computePcrDigest, hvalues]

/-- A register that the selection names cannot have another value. -/
theorem checkPcrs_replace_self (hsha : Function.Injective crypto.sha256) {index : Nat}
    (hindex : index ∈ attest.pcrSelect) (hmem : index ∈ pcrs.map PcrDigest.index)
    {digestHex : Text} (hdiffers : Differs pcrs index digestHex) (hpcrs : pcrs ≠ [])
    (hcheck : checkPcrs crypto attest pcrs = .ok ()) :
    ∃ err, checkPcrs crypto attest (replaceDigest index digestHex pcrs) = .error err := by
  cases hreplaced : checkPcrs crypto attest (replaceDigest index digestHex pcrs) with
  | error err => exact ⟨err, rfl⟩
  | ok _ =>
      obtain ⟨values, hvalues, hdigest⟩ := checkPcrs_ok hpcrs hcheck
      obtain ⟨values', hvalues', hdigest'⟩ := checkPcrs_ok (replace_ne_nil hpcrs) hreplaced
      obtain ⟨digest, hdecode, hlength, hne⟩ := hdiffers
      have hflatten : values.flatten = values'.flatten :=
        hsha (hdigest.trans hdigest'.symm)
      have hvalue := value_of_flatten hvalues hvalues' hflatten hindex
      rw [pcrValue_replace_self hmem hdecode hlength] at hvalue
      exact absurd (pcrValue_spec hvalue).2 hne

/-- There is always another value. -/
theorem exists_differs (pcrs : List PcrDigest) (index : Nat) :
    ∃ digestHex, Differs pcrs index digestHex := by
  have hzero : hexDecode (List.replicate 64 '0') = .ok (List.replicate 32 0) := by decide
  have hone : hexDecode (List.replicate 64 '1') = .ok (List.replicate 32 17) := by decide
  by_cases hreported : reported pcrs index = some (.ok (List.replicate 32 0))
  · refine ⟨List.replicate 64 '1', List.replicate 32 17, hone, rfl, ?_⟩
    rw [hreported]
    decide
  · exact ⟨List.replicate 64 '0', List.replicate 32 0, hzero, rfl, hreported⟩

/-- The reported registers of a Quote are bound: with another value for one of them the
Quote is not accepted. -/
def PcrsBound (crypto : Crypto) (quoted signature akPublic nonce : Bytes)
    (pcrs : List PcrDigest) : Prop :=
  ∀ index ∈ quotePcrIndices, index ∈ pcrs.map PcrDigest.index →
    ∀ digestHex, Differs pcrs index digestHex →
      ∃ err, verifyQuote crypto quoted signature akPublic nonce
        (replaceDigest index digestHex pcrs) = .error err

/-- The registers of an accepted Quote are bound exactly when its selection names each of
those that are reported. -/
theorem pcrs_bound_iff (hsha : Function.Injective crypto.sha256) (hpcrs : pcrs ≠ [])
    (hok : verifyQuote crypto quoted signature akPublic nonce pcrs = .ok ()) :
    PcrsBound crypto quoted signature akPublic nonce pcrs ↔
      ∀ index ∈ quotePcrIndices, index ∈ pcrs.map PcrDigest.index →
        index ∈ pcrSelection quoted := by
  obtain ⟨attest, hparse, hattest, hcheck, hsignature⟩ := verifyQuote_ok hok
  have hselection : pcrSelection quoted = attest.pcrSelect := by
    rw [pcrSelection, hparse]
  have hverify := verifyQuote_of_checks hparse hattest hsignature
  rw [hselection]
  constructor
  · intro hbound index hindex hmem
    by_contra hnot
    obtain ⟨digestHex, hdiffers⟩ := exists_differs pcrs index
    obtain ⟨err, herr⟩ := hbound index hindex hmem digestHex hdiffers
    rw [hverify, checkPcrs_replace_other hnot digestHex hpcrs, hcheck] at herr
    cases herr
  · intro hcovers index hindex hmem digestHex hdiffers
    rw [hverify]
    exact checkPcrs_replace_self hsha (hcovers index hindex hmem) hmem hdiffers hpcrs hcheck

end Accepted

section Selection

variable {indices : List Nat}

/-- A bit of the bitmap. -/
theorem testBit_bitmapByte (indices : List Nat) (byte : Nat) {bit : Nat} (hbit : bit < 8) :
    (bitmapByte indices byte).toNat.testBit bit = indices.contains (byte * 8 + bit) := by
  have hall : ∀ c : Fin 8 → Bool, ∀ bit : Fin 8,
      (UInt8.ofNat (((List.finRange 8).map fun k => if c k then 2 ^ (k : Nat) else 0).sum)
        ).toNat.testBit bit = c bit := by decide +kernel
  exact hall (fun k => indices.contains (byte * 8 + k)) ⟨bit, hbit⟩

theorem mem_bitmapIndices_bitmap (indices : List Nat) (start count : Nat) (index : Nat) :
    index ∈ bitmapIndices start ((List.range' start count).map (bitmapByte indices)) ↔
      start * 8 ≤ index ∧ index < (start + count) * 8 ∧ index ∈ indices := by
  induction count generalizing start with
  | zero =>
      simp [bitmapIndices]
      omega
  | succ count ih =>
      rw [List.range'_succ, List.map_cons, bitmapIndices, List.mem_append, ih]
      simp only [List.mem_map, List.mem_filter, List.mem_range]
      constructor
      · rintro (⟨bit, ⟨hbit, htest⟩, rfl⟩ | ⟨hlow, hhigh, hmem⟩)
        · rw [testBit_bitmapByte indices start hbit, List.contains_iff_mem] at htest
          exact ⟨by omega, by omega, htest⟩
        · exact ⟨by omega, by omega, hmem⟩
      · rintro ⟨hlow, hhigh, hmem⟩
        by_cases hindex : index < start * 8 + 8
        · refine .inl ⟨index - start * 8, ⟨by omega, ?_⟩, by omega⟩
          rw [testBit_bitmapByte indices start (by omega), List.contains_iff_mem]
          have hsame : start * 8 + (index - start * 8) = index := by omega
          rwa [hsame]
        · exact .inr ⟨by omega, by omega, hmem⟩

/-- The selection a Quote is asked for is read back as the registers it was made of. -/
theorem parse_marshal_selection (hindices : ∀ index ∈ indices, index < 24) (rest : Bytes) :
    ∃ found, parsePcrSelectionIndices (marshalPcrSelection indices ++ rest) =
        .ok (found, rest) ∧ ∀ index, index ∈ found ↔ index ∈ indices := by
  refine ⟨(bitmapIndices 0 ((List.range' 0 3).map (bitmapByte indices)) ++ []).insertionSort
    (· ≤ ·), rfl, ?_⟩
  intro index
  rw [List.mem_insertionSort, List.append_nil, mem_bitmapIndices_bitmap]
  constructor
  · exact fun hmem => hmem.2.2
  · exact fun hmem => ⟨by omega, by simpa using hindices index hmem, hmem⟩

end Selection
section Lab

/-- The public area of the attestation key of a lab node. -/
def labAkPublic : Bytes :=
  [0, 35, 0, 11, 0, 5, 4, 114, 0, 0, 0, 16, 0, 24, 0, 11, 0, 3, 0, 16, 0, 32, 163, 98,
    123, 54, 49, 9, 122, 141, 228, 170, 149, 44, 216, 42, 81, 113, 21, 22, 244, 162,
    78, 81, 103, 98, 70, 42, 208, 149, 204, 173, 74, 113, 0, 32, 42, 107, 156, 130,
    132, 80, 143, 48, 247, 146, 61, 235, 249, 210, 151, 200, 8, 33, 126, 180, 143, 203,
    90, 42, 232, 98, 247, 7, 243, 175, 83, 212]

/-- A hash that is right on one message and has no collision, and a scheme that accepts one
signature of the lab key. -/
def labCrypto (hashed digest signed signature : Bytes) : Crypto where
  sha256 := fun message =>
    if message = hashed then digest else List.replicate 33 0 ++ message
  Key := Bytes × Bytes
  Sig := Bytes × Bytes
  fromEncodedPoint := fun x y => .ok (x, y)
  fromScalars := fun r s => .ok (r, s)
  verify := fun key message sig =>
    if extractEccXy labAkPublic = .ok key ∧ message = signed ∧
        parseEcdsaSignature signature = .ok sig then .ok ()
    else .error "signature error".toList

theorem labCrypto_injective {hashed digest : Bytes} (hlength : digest.length = 32)
    (signed signature : Bytes) :
    Function.Injective (labCrypto hashed digest signed signature).sha256 := by
  intro left right heq
  simp only [labCrypto] at heq
  split at heq <;> split at heq
  · next hleft hright => rw [hleft, hright]
  · have hlen := congrArg List.length heq
    simp only [List.length_append, List.length_replicate] at hlen
    omega
  · have hlen := congrArg List.length heq
    simp only [List.length_append, List.length_replicate] at hlen
    omega
  · exact List.append_cancel_left heq

def labNonce : Bytes :=
  [120, 55, 123, 82, 87, 87, 180, 148, 66, 127, 137, 1, 79, 151, 215, 153, 40, 243,
    147, 141, 20, 235, 81, 226, 15, 181, 222, 201, 131, 78, 179, 4]

/-- Every register of a Quote reported as zero. -/
def labPcrs : List PcrDigest :=
  quotePcrIndices.map fun index => { index, digestHex := List.replicate 64 '0' }

/-- A Quote over all of them. -/
def labQuoted : Bytes :=
  [255, 84, 67, 71, 128, 24, 0, 0, 0, 32, 120, 55, 123, 82, 87, 87, 180, 148, 66, 127,
    137, 1, 79, 151, 215, 153, 40, 243, 147, 141, 20, 235, 81, 226, 15, 181, 222, 201,
    131, 78, 179, 4, 0, 0, 0, 0, 0, 0, 3, 232, 0, 0, 0, 1, 0, 0, 0, 0, 1, 0, 0, 0, 0,
    0, 0, 0, 1, 0, 0, 0, 1, 0, 11, 3, 255, 8, 0, 0, 32, 45, 85, 101, 251, 72, 61, 142,
    164, 82, 90, 122, 146, 41, 103, 125, 16, 56, 173, 52, 182, 226, 44, 141, 81, 82,
    225, 215, 247, 185, 129, 117, 151]

def labSignature : Bytes :=
  [0, 24, 0, 11, 0, 32, 102, 208, 150, 98, 11, 172, 126, 208, 24, 156, 150, 249, 240,
    122, 64, 95, 17, 27, 116, 181, 142, 224, 38, 16, 195, 158, 19, 112, 215, 250, 93,
    209, 0, 32, 17, 84, 143, 110, 19, 64, 232, 249, 172, 66, 51, 144, 100, 195, 208,
    200, 0, 197, 109, 235, 255, 8, 0, 109, 10, 130, 17, 229, 185, 125, 231, 165]

def labDigest : Bytes :=
  [45, 85, 101, 251, 72, 61, 142, 164, 82, 90, 122, 146, 41, 103, 125, 16, 56, 173,
    52, 182, 226, 44, 141, 81, 82, 225, 215, 247, 185, 129, 117, 151]

theorem pcrs_bound_lab :
    PcrsBound (labCrypto (List.replicate 288 0) labDigest labQuoted labSignature) labQuoted
      labSignature labAkPublic labNonce labPcrs :=
  (pcrs_bound_iff (labCrypto_injective (by decide) _ _) (by decide)
    (by decide +kernel)).mpr (by decide +kernel)

/-- A Quote over no register. -/
def emptyQuoted : Bytes :=
  [255, 84, 67, 71, 128, 24, 0, 0, 0, 32, 120, 55, 123, 82, 87, 87, 180, 148, 66, 127,
    137, 1, 79, 151, 215, 153, 40, 243, 147, 141, 20, 235, 81, 226, 15, 181, 222, 201,
    131, 78, 179, 4, 0, 0, 0, 0, 0, 0, 3, 232, 0, 0, 0, 1, 0, 0, 0, 0, 1, 0, 0, 0, 0,
    0, 0, 0, 1, 0, 0, 0, 1, 0, 11, 3, 0, 0, 0, 0, 32, 227, 176, 196, 66, 152, 252, 28,
    20, 154, 251, 244, 200, 153, 111, 185, 36, 39, 174, 65, 228, 100, 155, 147, 76,
    164, 149, 153, 27, 120, 82, 184, 85]

def emptySignature : Bytes :=
  [0, 24, 0, 11, 0, 32, 82, 239, 107, 205, 37, 13, 170, 29, 164, 198, 237, 74, 78, 40,
    149, 69, 10, 134, 218, 143, 203, 8, 111, 187, 102, 79, 74, 119, 212, 33, 22, 94, 0,
    32, 206, 0, 198, 247, 192, 209, 73, 14, 159, 79, 112, 74, 37, 83, 47, 214, 98, 229,
    207, 68, 166, 155, 189, 168, 191, 18, 107, 209, 119, 125, 52, 214]

/-- The hash of nothing. -/
def emptyDigest : Bytes :=
  [227, 176, 196, 66, 152, 252, 28, 20, 154, 251, 244, 200, 153, 111, 185, 36, 39,
    174, 65, 228, 100, 155, 147, 76, 164, 149, 153, 27, 120, 82, 184, 85]

/-- A Quote over no register is accepted with all of them reported, and with any values. -/
theorem empty_selection_accepted :
    let crypto := labCrypto [] emptyDigest emptyQuoted emptySignature
    verifyQuote crypto emptyQuoted emptySignature labAkPublic labNonce labPcrs = .ok () ∧
      pcrSelection emptyQuoted = [] ∧
      ¬ PcrsBound crypto emptyQuoted emptySignature labAkPublic labNonce labPcrs := by
  refine ⟨by decide +kernel, by decide +kernel, ?_⟩
  intro hbound
  have hdiffers : Differs labPcrs 0 (List.replicate 64 '1') :=
    ⟨List.replicate 32 17, by decide +kernel, by decide, by decide +kernel⟩
  obtain ⟨err, herr⟩ := hbound 0 (by decide) (by decide) _ hdiffers
  have haccepted : verifyQuote (labCrypto [] emptyDigest emptyQuoted emptySignature)
      emptyQuoted emptySignature labAkPublic labNonce
      (replaceDigest 0 (List.replicate 64 '1') labPcrs) = .ok () := by decide +kernel
  rw [haccepted] at herr
  cases herr

end Lab

end PertiskKos.Tpm
