import PertiskKos.Tpm.Command
import PertiskKos.Tpm.Verify

/-!
# Hostile bytes

The parsers of a Quote, at the level of positions, follow the ones that take bytes off the
front, so none of them panics.  What can panic is the hexadecimal decoder, which slices a
text by its bytes: where a reported digest is cut inside a character.
-/

namespace PertiskKos.Tpm

open Strings Hex Ip

/-! ## Parsers by position -/

namespace Scan

/-- One pass of the loop over the selections. -/
def selection (indices : List Nat) : Scan (List Nat) := do
  let hash ← u16
  let size ← u8
  let bitmap ← take size
  pure (if hash ≠ tpmAlgSha256 then indices else indices ++ bitmapIndices 0 bitmap)

/-- The passes that were begun, and what came of them. -/
def selectionLoop : Nat → List Nat → Cursor →
    Nat × Except CommandError (List Nat × Cursor)
  | 0, indices, c => (0, .ok (indices, c))
  | count + 1, indices, c =>
      match selection indices c with
      | .error err => (1, .error err)
      | .ok (indices, c) =>
          let (passes, result) := selectionLoop count indices c
          (passes + 1, result)

def parsePcrSelectionIndices : Scan (List Nat) := do
  let count ← u32
  let indices ← fun c => (selectionLoop count [] c).2
  pure (indices.insertionSort (· ≤ ·))

def parseTpmsAttest (data : Bytes) : Except CommandError AttestQuote :=
  StateT.run' (do
    let magic ← u32
    let type ← u16
    let _qualifiedSigner ← tpm2b
    let extraData ← tpm2b
    let _clock ← u64
    let _resetCount ← u32
    let _restartCount ← u32
    let _safe ← u8
    let _firmwareVersion ← u64
    let pcrSelect ← parsePcrSelectionIndices
    let pcrDigest ← tpm2b
    pure { magic, type, extraData, pcrSelect, pcrDigest }) { data, pos := 0 }

def extractEccXy (tpmtPublic : Bytes) : Except CommandError (Bytes × Bytes) :=
  StateT.run' (do
    let type ← u16
    if type ≠ tpmAlgEcc then
      throw (.wire (.verify ("AK type 0x".toList ++ hexPad 4 type ++ " not ECC".toList)))
    let _nameAlg ← u16
    let _attrs ← u32
    let _authPolicy ← tpm2b
    let sym ← u16
    if sym = tpmAlgAes then
      let _keyBits ← u16
      let _mode ← u16
    else if sym ≠ tpmAlgNull then
      throw (.wire (.verify ("unexpected symmetric 0x".toList ++ hexPad 4 sym)))
    let scheme ← u16
    if scheme = tpmAlgEcdsa ∨ scheme ≠ tpmAlgNull then
      let _hash ← u16
    let _curve ← u16
    let kdf ← u16
    if kdf ≠ tpmAlgNull then
      let _kdfHash ← u16
    let x ← tpm2b
    let y ← tpm2b
    if x = [] ∨ y = [] then
      throw (.wire (.verify "AK unique point empty".toList))
    pure (pad32 x, pad32 y)) { data := tpmtPublic, pos := 0 }

def parseEcdsaSignature (signature : Bytes) : Except CommandError (Bytes × Bytes) :=
  StateT.run' (do
    let alg ← u16
    if alg ≠ tpmAlgEcdsa then
      throw (.wire (.verify ("sig alg 0x".toList ++ hexPad 4 alg)))
    let _hash ← u16
    let r ← tpm2b
    let s ← tpm2b
    pure (pad32 r, pad32 s)) { data := signature, pos := 0 }

end Scan

section Selections

variable {c later : Cursor}

theorem Scan.take_advance {n : Nat} {taken : Bytes} (hread : Scan.take n c = .ok (taken, later)) :
    later = c.advance n ∧ c.pos + n ≤ c.data.length := by
  rw [Scan.take] at hread
  split at hread
  · cases hread
  · split at hread
    · cases hread
    · obtain ⟨slice, -, hread⟩ := bind_ok hread
      cases hread
      exact ⟨rfl, by omega⟩

theorem Scan.number_advance {width n : Nat} (hread : Scan.number width c = .ok (n, later)) :
    later = c.advance width ∧ c.pos + width ≤ c.data.length := by
  obtain ⟨⟨bytes, r⟩, htake, hread⟩ := bind_ok hread
  change (fixed width bytes >>= fun m => Except.ok (m, r)) = .ok (n, later) at hread
  obtain ⟨m, -, hread⟩ := bind_ok hread
  cases hread
  exact Scan.take_advance htake

/-- A pass takes three bytes at least. -/
theorem Scan.selection_advance {indices found : List Nat}
    (hread : Scan.selection indices c = .ok (found, later)) :
    later.data = c.data ∧ c.pos + 3 ≤ later.pos ∧ later.pos ≤ later.data.length := by
  obtain ⟨⟨hash, r₁⟩, hhash, hread⟩ := bind_ok hread
  obtain ⟨⟨size, r₂⟩, hsize, hread⟩ := bind_ok hread
  obtain ⟨⟨bitmap, r₃⟩, hbitmap, hread⟩ := bind_ok hread
  cases hread
  obtain ⟨rfl, -⟩ := Scan.number_advance hhash
  obtain ⟨rfl, -⟩ := Scan.number_advance hsize
  obtain ⟨rfl, hinside⟩ := Scan.take_advance hbitmap
  simp only [Cursor.advance] at hinside ⊢
  exact ⟨trivial, by omega, hinside⟩

/-- The count that is sent does not matter: every pass but the last one takes three bytes. -/
theorem selectionLoop_passes (count : Nat) (indices : List Nat) (hpos : c.pos ≤ c.data.length) :
    (Scan.selectionLoop count indices c).1 ≤ (c.data.length - c.pos) / 3 + 1 := by
  induction count generalizing indices c with
  | zero => exact Nat.zero_le _
  | succ count ih =>
      rw [Scan.selectionLoop]
      cases hpass : Scan.selection indices c with
      | error err => exact Nat.le_add_left 1 _
      | ok found =>
          obtain ⟨indices', c'⟩ := found
          obtain ⟨hdata, hthree, hpos'⟩ := Scan.selection_advance hpass
          have hrest := @ih c' indices' hpos'
          dsimp only
          rw [hdata] at hrest hpos'
          omega

theorem selectionLoop_succ (count : Nat) (indices : List Nat) :
    (fun c => (Scan.selectionLoop (count + 1) indices c).2 : Scan (List Nat)) =
      Scan.selection indices >>= fun indices c => (Scan.selectionLoop count indices c).2 := by
  funext c
  rw [Scan.selectionLoop]
  change _ = (Scan.selection indices c >>= fun found => (Scan.selectionLoop count found.1 found.2).2)
  cases Scan.selection indices c with
  | error err => rfl
  | ok found => rfl

theorem parseSelections_succ (count : Nat) (indices : List Nat) :
    (do let rest ← parseSelections (count + 1); pure (indices ++ rest) : Reader (List Nat)) =
      (do
        let hash ← Reader.u16
        let size ← Reader.u8
        let bitmap ← Reader.take size
        let rest ← parseSelections count
        pure ((if hash ≠ tpmAlgSha256 then indices else indices ++ bitmapIndices 0 bitmap) ++
          rest)) := by
  simp only [parseSelections, bind_assoc, pure_bind]
  congr 1
  funext hash
  congr 1
  funext size
  congr 1
  funext bitmap
  congr 1
  funext rest
  split <;> simp

theorem selectionLoop_follows (count : Nat) (indices : List Nat) :
    Follows (fun c => (Scan.selectionLoop count indices c).2)
      (do let rest ← parseSelections count; pure (indices ++ rest)) fun _ => True := by
  induction count generalizing indices with
  | zero =>
      rw [parseSelections, pure_bind, List.append_nil]
      exact Follows.pure trivial
  | succ count ih =>
      rw [selectionLoop_succ, parseSelections_succ, Scan.selection]
      simp only [bind_assoc, pure_bind]
      apply Follows.bind u16_follows
      intro hash _
      apply Follows.bind u8_follows
      intro size hsize
      apply Follows.bind (take_follows (by omega))
      intro bitmap _
      exact ih _

end Selections

section Parsers

variable {A : Type} {data : Bytes}

/-- A parser by position gives what the one from the front gives, and does not panic. -/
theorem Follows.run {scan : Scan A} {reader : Reader A} {post : A → Prop}
    (hscan : Follows scan reader post) (hshort : data.length < 2 ^ 63) :
    StateT.run' scan { data, pos := 0 } = (StateT.run' reader data).mapError .wire ∧
      StateT.run' reader data ≠ .error .panics := by
  have hstep := hscan ⟨data, 0⟩ (Cursor.Valid.start hshort)
  have hrest : (Cursor.mk data 0).rest = data := rfl
  rw [hrest] at hstep
  change ((fun found => found.1) <$> scan ⟨data, 0⟩) =
      ((fun found => found.1) <$> reader data).mapError .wire ∧
    ((fun found => found.1) <$> reader data) ≠ .error .panics
  cases hread : reader data with
  | error err =>
      rw [hread] at hstep
      rw [hstep.2]
      exact ⟨rfl, fun h => hstep.1 (Except.error.inj h)⟩
  | ok found =>
      rw [hread] at hstep
      obtain ⟨-, n, -, -, hfound⟩ := hstep
      rw [hfound]
      exact ⟨rfl, fun h => by cases h⟩

theorem Follows.throw_bind {B : Type} {err : Error} {next : A → Scan B} {more : A → Reader B}
    {post : B → Prop} (herr : err ≠ .panics) :
    Follows (MonadExcept.throw (.wire err) >>= next) (MonadExcept.throw err >>= more) post :=
  fun _ _ => ⟨herr, rfl⟩

theorem parsePcrSelectionIndices_follows :
    Follows Scan.parsePcrSelectionIndices parsePcrSelectionIndices fun _ => True := by
  apply Follows.bind u32_follows
  intro count _
  have hloop := selectionLoop_follows count []
  simp only [List.nil_append, bind_pure] at hloop
  apply Follows.bind hloop
  intro indices _
  exact Follows.pure trivial

theorem parseTpmsAttest_follows (hshort : data.length < 2 ^ 63) :
    Scan.parseTpmsAttest data = (parseTpmsAttest data).mapError .wire ∧
      parseTpmsAttest data ≠ .error .panics := by
  apply Follows.run ?_ hshort
  · exact fun _ => True
  · apply Follows.bind u32_follows
    intro magic _
    apply Follows.bind u16_follows
    intro type _
    apply Follows.bind tpm2b_follows
    intro signer _
    apply Follows.bind tpm2b_follows
    intro extraData _
    apply Follows.bind u64_follows
    intro clock _
    apply Follows.bind u32_follows
    intro resetCount _
    apply Follows.bind u32_follows
    intro restartCount _
    apply Follows.bind u8_follows
    intro safe _
    apply Follows.bind u64_follows
    intro firmwareVersion _
    apply Follows.bind parsePcrSelectionIndices_follows
    intro pcrSelect _
    apply Follows.bind tpm2b_follows
    intro pcrDigest _
    exact Follows.pure trivial

theorem verify_ne_panics (message : Text) : Error.verify message ≠ .panics :=
  fun h => Error.noConfusion h

theorem parseEcdsaSignature_follows (hshort : data.length < 2 ^ 63) :
    Scan.parseEcdsaSignature data = (parseEcdsaSignature data).mapError .wire ∧
      parseEcdsaSignature data ≠ .error .panics := by
  apply Follows.run ?_ hshort
  · exact fun _ => True
  · apply Follows.bind u16_follows
    intro alg _
    apply Follows.ite
    · exact Follows.throw_bind (verify_ne_panics _)
    · apply Follows.bind u16_follows
      intro hash _
      apply Follows.bind tpm2b_follows
      intro r _
      apply Follows.bind tpm2b_follows
      intro s _
      exact Follows.pure trivial

/-- Something may be skipped before both go on. -/
theorem Follows.skip {B : Type} {p : Prop} [Decidable p] {scan : Scan B} {reader : Reader B}
    {post : B → Prop} {next : Scan A} {more : Reader A} {last : A → Prop}
    (hscan : Follows scan reader post) (hnext : Follows next more last) :
    Follows (if p then scan >>= fun _ => next else next)
      (if p then reader >>= fun _ => more else more) last :=
  Follows.ite (Follows.bind hscan fun _ _ => hnext) hnext

/-- The parameters of the symmetric algorithm, if there is one. -/
theorem Follows.symmetric {p q : Prop} [Decidable p] [Decidable q] {err : Error}
    {next : Scan A} {more : Reader A} {last : A → Prop} (herr : err ≠ .panics)
    (hnext : Follows next more last) :
    Follows
      (if p then Scan.u16 >>= fun _ => Scan.u16 >>= fun _ => next
        else if q then MonadExcept.throw (.wire err) >>= fun _ : Unit => next else next)
      (if p then Reader.u16 >>= fun _ => Reader.u16 >>= fun _ => more
        else if q then MonadExcept.throw err >>= fun _ : Unit => more else more) last := by
  apply Follows.ite
  · exact Follows.bind u16_follows fun _ _ => Follows.bind u16_follows fun _ _ => hnext
  · exact Follows.ite (Follows.throw_bind herr) hnext

theorem extractEccXy_follows (hshort : data.length < 2 ^ 63) :
    Scan.extractEccXy data = (extractEccXy data).mapError .wire ∧
      extractEccXy data ≠ .error .panics := by
  apply Follows.run ?_ hshort
  · exact fun _ => True
  · apply Follows.bind u16_follows
    intro type _
    apply Follows.ite
    · exact Follows.throw_bind (verify_ne_panics _)
    · apply Follows.bind u16_follows
      intro nameAlg _
      apply Follows.bind u32_follows
      intro attrs _
      apply Follows.bind tpm2b_follows
      intro authPolicy _
      apply Follows.bind u16_follows
      intro sym _
      apply Follows.symmetric (verify_ne_panics _)
      apply Follows.bind u16_follows
      intro scheme _
      apply Follows.skip u16_follows
      apply Follows.bind u16_follows
      intro curve _
      apply Follows.bind u16_follows
      intro kdf _
      apply Follows.skip u16_follows
      apply Follows.bind tpm2b_follows
      intro x _
      apply Follows.bind tpm2b_follows
      intro y _
      apply Follows.ite
      · exact Follows.throw_bind (verify_ne_panics _)
      · exact Follows.pure trivial

end Parsers

/-! ## Where a digest is cut -/

/-- A slice of two bytes from here on ends, or has its end, inside a character. -/
def cutsCharacter : Text → Prop
  | [] => False
  | c :: rest => 3 ≤ c.utf8Size ∨ c.utf8Size = 1 ∧ ∃ d tail, rest = d :: tail ∧ d.utf8Size ≠ 1

/-- Behind pairs that are bytes comes one that is cut inside a character. -/
def CutsPair (text : Text) : Prop :=
  ∃ pairs rest bytes, text = pairs ++ rest ∧ hexPairs pairs = .ok bytes ∧ cutsCharacter rest

section Digests

theorem fromStrRadix_ne_panics (first second : Char) :
    fromStrRadix first second ≠ .error .panics := by
  rw [fromStrRadix]
  split
  · split <;> simp
  · split <;> simp

theorem utf8Size_of_isHexDigit {c : Char} (hc : isHexDigit c = true) : c.utf8Size = 1 := by
  rw [Char.utf8Size_eq_one_iff, UInt32.le_iff_toNat_le]
  simp only [isHexDigit, Char.isDigit, Bool.or_eq_true, Bool.and_eq_true, decide_eq_true_eq,
    Char.le_def, UInt32.le_iff_toNat_le] at hc
  have hnine : '9'.val.toNat = 57 := rfl
  have hsmall : 'f'.val.toNat = 102 := rfl
  have hcapital : 'F'.val.toNat = 70 := rfl
  have hlast : (127 : UInt32).toNat = 127 := rfl
  rcases hc with (⟨-, hc⟩ | ⟨-, hc⟩) | ⟨-, hc⟩ <;> omega

theorem utf8Size_of_fromStrRadix {first second : Char} {byte : UInt8}
    (hbyte : fromStrRadix first second = .ok byte) :
    first.utf8Size = 1 ∧ second.utf8Size = 1 := by
  rw [fromStrRadix] at hbyte
  split at hbyte
  · next hplus =>
      split at hbyte
      · next hsecond => exact ⟨hplus ▸ by decide, utf8Size_of_isHexDigit hsecond⟩
      · cases hbyte
  · split at hbyte
    · next hdigits =>
        exact ⟨utf8Size_of_isHexDigit hdigits.1, utf8Size_of_isHexDigit hdigits.2⟩
    · cases hbyte

theorem utf8Length_cons (c : Char) (text : Text) :
    utf8Length (c :: text) = c.utf8Size + utf8Length text := by
  rw [utf8Length, utf8Length, List.map_cons, List.sum_cons]

/-- Pairs that are bytes are pairs of digits. -/
theorem pairs_cases {pairs : Text} {bytes : Bytes} (hpairs : hexPairs pairs = .ok bytes) :
    pairs = [] ∨ ∃ first second more byte later, pairs = first :: second :: more ∧
      fromStrRadix first second = .ok byte ∧ hexPairs more = .ok later := by
  cases pairs using hexPairs.fun_cases with
  | case1 => exact .inl rfl
  | case2 c hsize =>
      rw [hexPairs, if_pos hsize] at hpairs
      cases hpairs
  | case3 c hsize =>
      rw [hexPairs, if_neg hsize] at hpairs
      cases hpairs
  | case4 first second more hone =>
      rw [hexPairs, if_pos hone] at hpairs
      obtain ⟨byte, hbyte, hpairs⟩ := bind_ok hpairs
      obtain ⟨later, hlater, -⟩ := bind_ok hpairs
      exact .inr ⟨first, second, more, byte, later, rfl, hbyte, hlater⟩
  | case5 first second more hone htwo =>
      rw [hexPairs, if_neg hone, if_pos htwo] at hpairs
      cases hpairs
  | case6 first second more hone htwo =>
      rw [hexPairs, if_neg hone, if_neg htwo] at hpairs
      cases hpairs

theorem cutsPair_iff (text : Text) :
    CutsPair text ↔ cutsCharacter text ∨ ∃ first second more byte,
      text = first :: second :: more ∧ fromStrRadix first second = .ok byte ∧ CutsPair more := by
  constructor
  · rintro ⟨pairs, rest, bytes, rfl, hpairs, hcut⟩
    rcases pairs_cases hpairs with rfl | ⟨first, second, more, byte, later, rfl, hbyte, hlater⟩
    · exact .inl hcut
    · exact .inr ⟨first, second, more ++ rest, byte, rfl, hbyte, more, rest, later, rfl, hlater,
        hcut⟩
  · rintro (hcut | ⟨first, second, more, byte, rfl, hbyte, pairs, rest, bytes, rfl, hpairs, hcut⟩)
    · exact ⟨[], text, [], rfl, rfl, hcut⟩
    · refine ⟨first :: second :: pairs, rest, byte :: bytes, rfl, ?_, hcut⟩
      rw [hexPairs, if_pos (utf8Size_of_fromStrRadix hbyte), hbyte, hpairs]
      rfl

theorem hexPairs_panics_iff {text : Text} (heven : utf8Length text % 2 = 0) :
    hexPairs text = .error .panics ↔ CutsPair text := by
  induction text using hexPairs.induct with
  | case1 =>
      rw [cutsPair_iff]
      simp [hexPairs, cutsCharacter]
  | case2 c hsize =>
      rw [cutsPair_iff, hexPairs, if_pos hsize]
      simp [cutsCharacter, hsize]
  | case3 c hsize =>
      have hlength : utf8Length [c] = c.utf8Size := by rw [utf8Length_cons]; rfl
      have hwide : 3 ≤ c.utf8Size := by
        have hpos := c.utf8Size_pos
        omega
      rw [cutsPair_iff, hexPairs, if_neg hsize]
      exact ⟨fun _ => .inl (.inl hwide), fun _ => rfl⟩
  | case4 first second rest hone ih =>
      have hrest : utf8Length rest % 2 = 0 := by
        rw [utf8Length_cons, utf8Length_cons, hone.1, hone.2] at heven
        omega
      have hwhole : ¬ cutsCharacter (first :: second :: rest) := by
        rintro (hwide | ⟨-, d, tail, hsplit, hd⟩)
        · omega
        · cases hsplit
          exact hd hone.2
      rw [cutsPair_iff, hexPairs, if_pos hone]
      constructor
      · intro hpanics
        cases hbyte : fromStrRadix first second with
        | error err =>
            rw [hbyte] at hpanics
            have herr : err = .panics := Except.error.inj hpanics
            exact absurd (herr ▸ hbyte) (fromStrRadix_ne_panics first second)
        | ok byte =>
            rw [hbyte] at hpanics
            refine .inr ⟨first, second, rest, byte, rfl, hbyte, (ih hrest).mp ?_⟩
            cases hmore : hexPairs rest with
            | error err =>
                rw [hmore] at hpanics
                exact hpanics
            | ok bytes =>
                rw [hmore] at hpanics
                cases hpanics
      · rintro (hcut | ⟨first', second', more, byte, hsplit, hbyte, hcut⟩)
        · exact absurd hcut hwhole
        · cases hsplit
          rw [hbyte, (ih hrest).mpr hcut]
          rfl
  | case5 first second rest hone htwo =>
      rw [cutsPair_iff, hexPairs, if_neg hone, if_pos htwo]
      constructor
      · intro h
        cases h
      · rintro (hcut | ⟨first', second', more, byte, hsplit, hbyte, -⟩)
        · rcases hcut with hwide | ⟨hfirst, -⟩ <;> omega
        · cases hsplit
          exact absurd (utf8Size_of_fromStrRadix hbyte) hone
  | case6 first second rest hone htwo =>
      rw [cutsPair_iff, hexPairs, if_neg hone, if_neg htwo]
      refine ⟨fun _ => .inl ?_, fun _ => rfl⟩
      by_cases hfirst : first.utf8Size = 1
      · exact .inr ⟨hfirst, second, rest, rfl, fun h => hone ⟨hfirst, h⟩⟩
      · have hpos := first.utf8Size_pos
        exact .inl (by omega)

/-- A digest that makes the decoder slice inside a character. -/
def CutInside (text : Text) : Prop := utf8Length (trim text) % 2 = 0 ∧ CutsPair (trim text)

theorem hexDecode_panics_iff (text : Text) : hexDecode text = .error .panics ↔ CutInside text := by
  rw [hexDecode, decodeHex, CutInside]
  by_cases heven : utf8Length (trim text) % 2 = 0
  · rw [if_neg (not_not_intro heven), ← hexPairs_panics_iff heven]
    cases hexPairs (trim text) with
    | ok bytes => simp
    | error err => cases err <;> simp [heven]
  · rw [if_pos heven]
    simp [heven]

theorem pcrValue_panics_iff (pcrs : List PcrDigest) (index : Nat) :
    pcrValue pcrs index = .error .panics ↔
      ∃ pcr, pcrs.find? (·.index = index) = some pcr ∧ CutInside pcr.digestHex := by
  rw [pcrValue]
  cases pcrs.find? (·.index = index) with
  | none => simp
  | some pcr =>
      have hsome : (∃ other, some pcr = some other ∧ CutInside other.digestHex) ↔
          CutInside pcr.digestHex := by simp
      rw [hsome, ← hexDecode_panics_iff]
      dsimp only
      cases hexDecode pcr.digestHex with
      | error err => rfl
      | ok bytes =>
          change (if bytes.length ≠ 32 then _ else _) = _ ↔ _
          split <;> simp [pure, Except.pure]

theorem mapM_panics_iff {A B : Type} (value : A → Except Error B) (items : List A) :
    items.mapM value = .error .panics ↔ ∃ front item back, items = front ++ item :: back ∧
      (∀ earlier ∈ front, ∃ found, value earlier = .ok found) ∧ value item = .error .panics := by
  induction items with
  | nil => simp [pure, Except.pure]
  | cons first items ih =>
      rw [List.mapM_cons]
      cases hfirst : value first with
      | error err =>
          have hstop : (do
              let found ← (Except.error err : Except Error B)
              let found' ← items.mapM value
              pure (found :: found')) = .error err := rfl
          rw [hstop]
          constructor
          · intro herr
            refine ⟨[], first, items, rfl, by simp, ?_⟩
            rw [hfirst, Except.error.inj herr]
          · rintro ⟨front, item, back, hsplit, hearlier, hitem⟩
            cases front with
            | nil =>
                cases hsplit
                rw [Except.error.inj (hfirst.symm.trans hitem)]
            | cons other front =>
                cases hsplit
                obtain ⟨found, hfound⟩ := hearlier first List.mem_cons_self
                rw [hfirst] at hfound
                cases hfound
      | ok found =>
          have hstep : (do
              let found ← (Except.ok found : Except Error B)
              let found' ← items.mapM value
              pure (found :: found')) = .error .panics ↔ items.mapM value = .error .panics := by
            cases items.mapM value with
            | error err => exact Iff.rfl
            | ok later => simp [bind, Except.bind, pure, Except.pure]
          rw [hstep, ih]
          constructor
          · rintro ⟨front, item, back, rfl, hearlier, hitem⟩
            exact ⟨first :: front, item, back, rfl,
              List.forall_mem_cons.mpr ⟨⟨found, hfirst⟩, hearlier⟩, hitem⟩
          · rintro ⟨front, item, back, hsplit, hearlier, hitem⟩
            cases front with
            | nil =>
                cases hsplit
                rw [hfirst] at hitem
                cases hitem
            | cons other front =>
                cases hsplit
                exact ⟨front, item, back, rfl, (List.forall_mem_cons.mp hearlier).2, hitem⟩

end Digests

/-! ## Every parser -/

/-- What a buffer can do to the parsers that read it. -/
structure ParsersTotal (bytes : Bytes) : Prop where
  response : Returns (parseResponse bytes) fun found =>
    found.2.data = bytes ∧ found.2.pos ≤ bytes.length
  params : ∀ tag pos, pos ≤ bytes.length → Returns (responseParams tag { data := bytes, pos })
    fun found => found.1.pos = 0 ∧ found.2.data = bytes ∧ found.2.pos ≤ bytes.length
  createPrimary : Returns (parseCreatePrimary bytes) fun _ => True
  create : Returns (parseCreate bytes) fun _ => True
  load : Returns (parseLoad bytes) fun _ => True
  readPublic : Returns (parseReadPublic bytes) fun _ => True
  quote : Returns (parseQuote bytes) fun _ => True
  attest : Returns (Scan.parseTpmsAttest bytes) fun _ => True
  signature : Returns (Scan.parseEcdsaSignature bytes) fun _ => True
  eccXy : Returns (Scan.extractEccXy bytes) fun _ => True
  /-- Nothing else moves the position of a reader. -/
  position : ∀ n pos, n < 2 ^ 63 → pos ≤ bytes.length →
    Returns (Scan.take n { data := bytes, pos }) fun found =>
      found.2.data = bytes ∧ found.2.pos ≤ bytes.length
  /-- Whatever the count says and wherever the loop begins. -/
  passes : ∀ count indices pos, pos ≤ bytes.length →
    (Scan.selectionLoop count indices { data := bytes, pos }).1 ≤ bytes.length / 3 + 1

section Total

variable {bytes : Bytes}

theorem returns_of_mapError {A : Type} {scanned : Except CommandError A} {read : Except Error A}
    (hfollows : scanned = read.mapError .wire ∧ read ≠ .error .panics) :
    Returns scanned fun _ => True := by
  rw [hfollows.1]
  cases read with
  | error err => exact fun h => hfollows.2 (congrArg _ (CommandError.wire.inj h))
  | ok value => trivial

theorem parsersTotal (hshort : bytes.length < 2 ^ 63) : ParsersTotal bytes where
  response := (parseResponse_returns hshort).weaken fun found hfound =>
    ⟨hfound.2, hfound.2 ▸ hfound.1.pos_le⟩
  params tag pos hpos :=
    (responseParams_returns tag ⟨hpos, hshort⟩).weaken fun _ hfound =>
      ⟨hfound.2.1, hfound.2.2.inside⟩
  createPrimary := parseCreatePrimary_returns hshort
  create := parseCreate_returns hshort
  load := parseLoad_returns hshort
  readPublic := parseReadPublic_returns hshort
  quote := parseQuote_returns hshort
  attest := returns_of_mapError (parseTpmsAttest_follows hshort)
  signature := returns_of_mapError (parseEcdsaSignature_follows hshort)
  eccXy := returns_of_mapError (extractEccXy_follows hshort)
  position n pos hn hpos :=
    ((take_follows hn).returns ⟨hpos, hshort⟩).weaken fun _ hfound => hfound.2.inside
  passes count indices pos hpos := by
    have hpasses := @selectionLoop_passes { data := bytes, pos } count indices hpos
    dsimp only at hpasses
    omega

theorem parseTpmsAttest_ne_panics (hshort : bytes.length < 2 ^ 63) :
    parseTpmsAttest bytes ≠ .error .panics := (parseTpmsAttest_follows hshort).2

theorem checkAttest_ne_panics (attest : AttestQuote) (nonce : Bytes) :
    checkAttest attest nonce ≠ .error .panics := by
  rw [checkAttest]
  repeat' split
  all_goals simp

theorem verifyErr_ne_panics {A : Type} (step : Text) (result : Except Text A) :
    verifyErr step result ≠ .error .panics := by
  cases result <;> simp [verifyErr]

theorem fieldBytes_ne_panics (bytes : Bytes) : fieldBytes bytes ≠ .error .panics := by
  rw [fieldBytes]
  split <;> simp

/-- A panic comes from one of the two. -/
theorem bind_ne_panics {A B : Type} {first : Except Error A} {next : A → Except Error B}
    (hfirst : first ≠ .error .panics) (hnext : ∀ value, next value ≠ .error .panics) :
    first >>= next ≠ .error .panics := by
  cases first with
  | error err => exact fun h => hfirst (congrArg _ (Except.error.inj h))
  | ok value => exact hnext value

theorem checkSignature_ne_panics (crypto : Crypto) (quoted : Bytes) {signature akPublic : Bytes}
    (hsignature : signature.length < 2 ^ 63) (hpublic : akPublic.length < 2 ^ 63) :
    checkSignature crypto quoted signature akPublic ≠ .error .panics := by
  apply bind_ne_panics (extractEccXy_follows hpublic).2
  rintro ⟨x, y⟩
  apply bind_ne_panics (fieldBytes_ne_panics x)
  intro x
  apply bind_ne_panics (fieldBytes_ne_panics y)
  intro y
  apply bind_ne_panics (verifyErr_ne_panics _ _)
  intro key
  apply bind_ne_panics (parseEcdsaSignature_follows hsignature).2
  rintro ⟨r, s⟩
  apply bind_ne_panics (fieldBytes_ne_panics r)
  intro r
  apply bind_ne_panics (fieldBytes_ne_panics s)
  intro s
  apply bind_ne_panics (verifyErr_ne_panics _ _)
  intro sig
  exact verifyErr_ne_panics _ _

/-- Of the registers that the Quote names the first one without 32 bytes has a digest that is
cut. -/
def DigestsCut (attest : AttestQuote) (pcrs : List PcrDigest) : Prop :=
  ∃ front index back pcr, attest.pcrSelect = front ++ index :: back ∧
    (∀ earlier ∈ front, ∃ value, pcrValue pcrs earlier = .ok value) ∧
    pcrs.find? (·.index = index) = some pcr ∧ CutInside pcr.digestHex

theorem checkPcrs_panics_iff (crypto : Crypto) (attest : AttestQuote) (pcrs : List PcrDigest) :
    checkPcrs crypto attest pcrs = .error .panics ↔ DigestsCut attest pcrs := by
  have hvalues : attest.pcrSelect.mapM (pcrValue pcrs) = .error .panics ↔
      DigestsCut attest pcrs := by
    rw [mapM_panics_iff]
    simp only [pcrValue_panics_iff]
    constructor
    · rintro ⟨front, index, back, hselect, hearlier, pcr, hfind, hcut⟩
      exact ⟨front, index, back, pcr, hselect, hearlier, hfind, hcut⟩
    · rintro ⟨front, index, back, pcr, hselect, hearlier, hfind, hcut⟩
      exact ⟨front, index, back, hselect, hearlier, pcr, hfind, hcut⟩
  by_cases hnil : pcrs = []
  · rw [checkPcrs, if_pos hnil]
    constructor
    · intro h
      cases h
    · rintro ⟨front, index, back, pcr, -, -, hfind, -⟩
      rw [hnil] at hfind
      cases hfind
  · rw [← hvalues, checkPcrs, if_neg hnil, computePcrDigest]
    cases attest.pcrSelect.mapM (pcrValue pcrs) with
    | error err => simp [bind, Except.bind]
    | ok values =>
        change (if crypto.sha256 values.flatten ≠ attest.pcrDigest then _ else _) = _ ↔ _
        split <;> simp [pure, Except.pure]

theorem verifyQuote_panics_iff (crypto : Crypto) {quoted signature akPublic : Bytes}
    (hquoted : quoted.length < 2 ^ 63) (hsignature : signature.length < 2 ^ 63)
    (hpublic : akPublic.length < 2 ^ 63) (nonce : Bytes) (pcrs : List PcrDigest) :
    verifyQuote crypto quoted signature akPublic nonce pcrs = .error .panics ↔
      ∃ attest, parseTpmsAttest quoted = .ok attest ∧ checkAttest attest nonce = .ok () ∧
        DigestsCut attest pcrs := by
  have hparse := parseTpmsAttest_ne_panics hquoted
  rw [verifyQuote]
  cases hattest : parseTpmsAttest quoted with
  | error err =>
      rw [hattest] at hparse
      constructor
      · exact fun h => absurd (congrArg _ (Except.error.inj h)) hparse
      · rintro ⟨attest, hfound, -, -⟩
        cases hfound
  | ok attest =>
      have hsome : (∃ other, (Except.ok attest : Except Error AttestQuote) = .ok other ∧
          checkAttest other nonce = .ok () ∧ DigestsCut other pcrs) ↔
            checkAttest attest nonce = .ok () ∧ DigestsCut attest pcrs := by
        constructor
        · rintro ⟨other, hother, hcheck, hcut⟩
          cases hother
          exact ⟨hcheck, hcut⟩
        · rintro ⟨hcheck, hcut⟩
          exact ⟨attest, rfl, hcheck, hcut⟩
      have hcheck := checkAttest_ne_panics attest nonce
      rw [hsome]
      change (checkAttest attest nonce >>= fun _ => checkPcrs crypto attest pcrs >>= fun _ =>
        checkSignature crypto quoted signature akPublic) = _ ↔ _
      cases hresult : checkAttest attest nonce with
      | error err =>
          rw [hresult] at hcheck
          constructor
          · exact fun h => absurd (congrArg _ (Except.error.inj h)) hcheck
          · rintro ⟨hok, -⟩
            cases hok
      | ok done =>
          rw [← checkPcrs_panics_iff crypto]
          change (checkPcrs crypto attest pcrs >>= fun _ =>
            checkSignature crypto quoted signature akPublic) = _ ↔ _
          cases hpcrs : checkPcrs crypto attest pcrs with
          | error err =>
              constructor
              · exact fun h => ⟨rfl, h⟩
              · exact fun h => h.2
          | ok done =>
              constructor
              · exact fun h => absurd h
                  (checkSignature_ne_panics crypto quoted hsignature hpublic)
              · rintro ⟨-, h⟩
                cases h

/-- Bytes that are in memory: no slice is longer than `isize::MAX`. -/
structure Buffer where
  bytes : Bytes
  short : bytes.length < 2 ^ 63

/-- Every parser of bytes returns or fails, and verification panics exactly if the signed
selection comes to a register whose reported digest is cut inside a character. -/
theorem tpm_parsers_total_iff (crypto : Crypto) (input quoted signature akPublic nonce : Buffer)
    (pcrs : List PcrDigest) :
    ParsersTotal input.bytes ∧
      (verifyQuote crypto quoted.bytes signature.bytes akPublic.bytes nonce.bytes pcrs ≠
          .error .panics ↔
        ¬ ∃ attest, parseTpmsAttest quoted.bytes = .ok attest ∧
          checkAttest attest nonce.bytes = .ok () ∧ DigestsCut attest pcrs) :=
  ⟨parsersTotal input.short, not_congr
    (verifyQuote_panics_iff crypto quoted.short signature.short akPublic.short nonce.bytes pcrs)⟩

end Total

section Sample

/-- A hash and a scheme that accept everything. -/
def lenient : Crypto where
  sha256 bytes := bytes
  Key := Unit
  Sig := Unit
  fromEncodedPoint _ _ := .ok ()
  fromScalars _ _ := .ok ()
  verify _ _ _ := .ok ()

/-- A Quote over register 0 with an empty nonce. -/
def quoteOfFirst : Buffer where
  bytes := beBytes 4 tpmGeneratedValue ++ beBytes 2 tpmStAttestQuote ++ beBytes 2 0 ++
    beBytes 2 0 ++ beBytes 8 0 ++ beBytes 4 0 ++ beBytes 4 0 ++ [1] ++ beBytes 8 0 ++
    marshalPcrSelection [0] ++ beBytes 2 0
  short := by decide +kernel

def noBytes : Buffer := ⟨[], by decide⟩

theorem digest_cut_in_character :
    ¬ ∀ (crypto : Crypto) (quoted signature akPublic nonce : Buffer) (pcrs : List PcrDigest),
      verifyQuote crypto quoted.bytes signature.bytes akPublic.bytes nonce.bytes pcrs ≠
        .error .panics := by
  intro hclaim
  have hpanics : verifyQuote lenient quoteOfFirst.bytes [] [] [] [⟨0, "aéb".toList⟩] =
      .error .panics := by decide +kernel
  exact hclaim lenient quoteOfFirst noBytes noBytes noBytes _ hpanics

end Sample

end PertiskKos.Tpm
