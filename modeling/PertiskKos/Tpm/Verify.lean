import PertiskKos.Library.Ip
import PertiskKos.Tpm.Wire

/-!
# Verification of a Quote

What the TPM has signed is parsed, the nonce is compared, the digest over the registers is
computed again over the ones that the signed selection names, and the signature is
checked.
-/

namespace PertiskKos.Tpm

open Strings Hex Ip

/-- The hash and the signature scheme, with the texts of their errors. -/
structure Crypto where
  sha256 : Bytes → Bytes
  Key : Type
  Sig : Type
  /-- The key at a point with the given coordinates. -/
  fromEncodedPoint : Bytes → Bytes → Except Text Key
  fromScalars : Bytes → Bytes → Except Text Sig
  /-- Check a signature over the hash of a message. -/
  verify : Key → Bytes → Sig → Except Text Unit

structure PcrDigest where
  index : Nat
  digestHex : Text
  deriving DecidableEq

/-- Firmware 0 to 7, and 11 for the stub. -/
def quotePcrIndices : List Nat := [0, 1, 2, 3, 4, 5, 6, 7, 11]

structure AttestQuote where
  magic : Nat
  type : Nat
  extraData : Bytes
  pcrSelect : List Nat
  pcrDigest : Bytes
  deriving DecidableEq

section Parsing

def hexDecode (text : Text) : Except Error Bytes :=
  match decodeHex text with
  | .ok bytes => .ok bytes
  | .error .odd => .error (.verify "odd hex length".toList)
  | .error .invalidDigit => .error (.verify "hex: invalid digit found in string".toList)
  | .error .panics => .error .panics

/-- The registers that a bitmap names, the first byte being byte `start`. -/
def bitmapIndices (start : Nat) : Bytes → List Nat
  | [] => []
  | byte :: rest =>
      ((List.range 8).filter fun bit => byte.toNat.testBit bit).map (start * 8 + ·) ++
        bitmapIndices (start + 1) rest

/-- So many selections, of which those of SHA-256 count. -/
def parseSelections : Nat → Reader (List Nat)
  | 0 => pure []
  | count + 1 => do
      let hash ← Reader.u16
      let size ← Reader.u8
      let bitmap ← Reader.take size
      let rest ← parseSelections count
      pure (if hash ≠ tpmAlgSha256 then rest else bitmapIndices 0 bitmap ++ rest)

def parsePcrSelectionIndices : Reader (List Nat) := do
  let count ← Reader.u32
  let indices ← parseSelections count
  pure (indices.insertionSort (· ≤ ·))

def parseTpmsAttest (data : Bytes) : Except Error AttestQuote :=
  StateT.run' (do
    let magic ← Reader.u32
    let type ← Reader.u16
    let _qualifiedSigner ← Reader.tpm2b
    let extraData ← Reader.tpm2b
    let _clock ← Reader.u64
    let _resetCount ← Reader.u32
    let _restartCount ← Reader.u32
    let _safe ← Reader.u8
    let _firmwareVersion ← Reader.u64
    let pcrSelect ← parsePcrSelectionIndices
    let pcrDigest ← Reader.tpm2b
    pure { magic, type, extraData, pcrSelect, pcrDigest }) data

end Parsing

section Digest

/-- The digest that is reported for a register. -/
def pcrValue (pcrs : List PcrDigest) (index : Nat) : Except Error Bytes :=
  match pcrs.find? (·.index = index) with
  | none =>
      .error (.verify ("missing PCR ".toList ++ decimal index ++
        " for digest check".toList))
  | some pcr => do
      let bytes ← hexDecode pcr.digestHex
      if bytes.length ≠ 32 then
        .error (.verify ("PCR ".toList ++ decimal index ++ " digest length ".toList ++
          decimal bytes.length ++ " (want 32)".toList))
      else pure bytes

def computePcrDigest (crypto : Crypto) (indices : List Nat) (pcrs : List PcrDigest) :
    Except Error Bytes := do
  let values ← indices.mapM (pcrValue pcrs)
  pure (crypto.sha256 values.flatten)

end Digest

section Keys

/-- Exactly 32 bytes, unless there are more that count. -/
def pad32 (bytes : Bytes) : Bytes :=
  let trimmed := if 32 < bytes.length then trimZeros bytes else bytes
  List.replicate (32 - trimmed.length) 0 ++ trimmed
where
  /-- Without leading zeros, as long as there are more than 32 bytes. -/
  trimZeros : Bytes → Bytes
    | [] => []
    | byte :: rest =>
        if 32 ≤ rest.length ∧ byte = 0 then trimZeros rest else byte :: rest

def fieldBytes (bytes : Bytes) : Except Error Bytes :=
  if bytes.length ≠ 32 then
    .error (.verify ("expected 32 bytes, got ".toList ++ decimal bytes.length))
  else .ok bytes

def extractEccXy (tpmtPublic : Bytes) : Except Error (Bytes × Bytes) :=
  StateT.run' (do
    let type ← Reader.u16
    if type ≠ tpmAlgEcc then
      throw (.verify ("AK type 0x".toList ++ hexPad 4 type ++ " not ECC".toList))
    let _nameAlg ← Reader.u16
    let _attrs ← Reader.u32
    let _authPolicy ← Reader.tpm2b
    let sym ← Reader.u16
    if sym = tpmAlgAes then
      let _keyBits ← Reader.u16
      let _mode ← Reader.u16
    else if sym ≠ tpmAlgNull then
      throw (.verify ("unexpected symmetric 0x".toList ++ hexPad 4 sym))
    let scheme ← Reader.u16
    if scheme = tpmAlgEcdsa ∨ scheme ≠ tpmAlgNull then
      let _hash ← Reader.u16
    let _curve ← Reader.u16
    let kdf ← Reader.u16
    if kdf ≠ tpmAlgNull then
      let _kdfHash ← Reader.u16
    let x ← Reader.tpm2b
    let y ← Reader.tpm2b
    if x = [] ∨ y = [] then
      throw (.verify "AK unique point empty".toList)
    pure (pad32 x, pad32 y)) tpmtPublic

def parseEcdsaSignature (signature : Bytes) : Except Error (Bytes × Bytes) :=
  StateT.run' (do
    let alg ← Reader.u16
    if alg ≠ tpmAlgEcdsa then
      throw (.verify ("sig alg 0x".toList ++ hexPad 4 alg))
    let _hash ← Reader.u16
    let r ← Reader.tpm2b
    let s ← Reader.tpm2b
    pure (pad32 r, pad32 s)) signature

/-- An error of the signature scheme under the text of the step it came from. -/
def verifyErr {A : Type} (step : Text) : Except Text A → Except Error A
  | .ok value => .ok value
  | .error message => .error (.verify (step ++ message))

/-- The signature over `quoted` by the attestation key. -/
def checkSignature (crypto : Crypto) (quoted signature akPublic : Bytes) :
    Except Error Unit := do
  let (x, y) ← extractEccXy akPublic
  let x ← fieldBytes x
  let y ← fieldBytes y
  let key ← verifyErr "AK public key: ".toList (crypto.fromEncodedPoint x y)
  let (r, s) ← parseEcdsaSignature signature
  let r ← fieldBytes r
  let s ← fieldBytes s
  let sig ← verifyErr "signature scalars: ".toList (crypto.fromScalars r s)
  verifyErr "ECDSA verify failed: ".toList (crypto.verify key quoted sig)

end Keys

/-- The digest in the Quote against the reported registers, if any are reported. -/
def checkPcrs (crypto : Crypto) (attest : AttestQuote) (pcrs : List PcrDigest) :
    Except Error Unit :=
  if pcrs = [] then .ok ()
  else do
    let expected ← computePcrDigest crypto attest.pcrSelect pcrs
    if expected ≠ attest.pcrDigest then
      .error (.verify ("pcrDigest mismatch: quote=".toList ++ hexEncode attest.pcrDigest ++
        " recomputed=".toList ++ hexEncode expected))
    else pure ()

/-- Magic, type and nonce of what the TPM signed. -/
def checkAttest (attest : AttestQuote) (nonce : Bytes) : Except Error Unit :=
  if attest.magic ≠ tpmGeneratedValue then
    .error (.verify ("bad attest magic 0x".toList ++ hexPad 8 attest.magic))
  else if attest.type ≠ tpmStAttestQuote then
    .error (.verify ("attest type 0x".toList ++ hexPad 4 attest.type ++
      " is not Quote".toList))
  else if attest.extraData ≠ nonce then
    .error (.verify "nonce / extraData mismatch".toList)
  else .ok ()

def verifyQuote (crypto : Crypto) (quoted signature akPublic nonce : Bytes)
    (pcrs : List PcrDigest) : Except Error Unit := do
  let attest ← parseTpmsAttest quoted
  checkAttest attest nonce
  checkPcrs crypto attest pcrs
  checkSignature crypto quoted signature akPublic

end PertiskKos.Tpm
