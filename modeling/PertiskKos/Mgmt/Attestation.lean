import PertiskKos.Tpm.Verify

/-!
# Attestation of a node by the management server

The server runs the command line client, which draws a nonce, asks the node for a Quote
and prints the answer.  The printed lines are parsed again, compared with what was
enrolled for the node and verified.
-/

namespace PertiskKos.Mgmt

open Strings Hex Ip Tpm

/-- Base64 with the standard alphabet, and the texts of its errors. -/
structure Base64 where
  encode : Bytes → Text
  decode : Text → Except Text Bytes

structure Services where
  crypto : Crypto
  base64 : Base64

structure PcrValue where
  index : Nat
  algo : Text
  digestHex : Text
  deriving DecidableEq

/-- The answer of a node to a request for a Quote. -/
structure QuoteResponse where
  available : Bool
  message : Text
  nonce : Bytes
  quoted : Bytes
  signature : Bytes
  akPublic : Bytes
  pcrs : List PcrValue
  activeSlot : Text
  version : Text
  ekCertDer : Bytes
  ekNvIndex : Nat
  ekSubject : Text
  ekIssuer : Text
  ekFingerprint : Text
  ekChainStatus : Text
  ekChainMessage : Text
  deriving DecidableEq

section Printing

def dash : Text := ['—']

/-- A text, or a dash for none. -/
def orDash (text : Text) : Text := if text = [] then dash else text

def padRight (width : Nat) (text : Text) : Text :=
  text ++ List.replicate (width - text.length) ' '

def boolText (value : Bool) : Text := if value then "true".toList else "false".toList

def b64Line (base64 : Base64) (name : Text) (bytes : Bytes) : Text :=
  name ++ ['='] ++ base64.encode bytes ++ " (".toList ++ decimal bytes.length ++
    " bytes)".toList

def pcrLine (index algo digest : Text) : Text :=
  padRight 6 index ++ [' '] ++ padRight 8 algo ++ [' '] ++ digest

def ekLines (base64 : Base64) (resp : QuoteResponse) : List Text :=
  if resp.ekCertDer = [] ∧ resp.ekChainStatus = [] then []
  else
    [['e', 'k', '_', 'n', 'v', '=', '0', 'x'] ++ hexPad 8 resp.ekNvIndex ++
      " chain=".toList ++ orDash resp.ekChainStatus ++ " fingerprint=".toList ++
      orDash resp.ekFingerprint] ++
    (if resp.ekSubject = [] then [] else ["ek_subject=".toList ++ resp.ekSubject]) ++
    (if resp.ekIssuer = [] then [] else ["ek_issuer=".toList ++ resp.ekIssuer]) ++
    (if resp.ekChainMessage = [] then []
      else ["ek_chain_message=".toList ++ resp.ekChainMessage]) ++
    (if resp.ekCertDer = [] then []
      else [b64Line base64 "ek_cert_b64".toList resp.ekCertDer])

/-- What the client prints. -/
def printQuote (base64 : Base64) (resp : QuoteResponse) : Text :=
  unlines
    ([['a', 'v', 'a', 'i', 'l', 'a', 'b', 'l', 'e', '='] ++ boolText resp.available ++
        " slot=".toList ++ resp.activeSlot ++ " version=".toList ++ resp.version ++ [' '] ++
        dash ++ [' '] ++ resp.message,
      "nonce=".toList ++ hexEncode resp.nonce] ++
    (if resp.quoted = [] then []
      else
        [b64Line base64 "quoted_b64".toList resp.quoted,
          b64Line base64 "signature_b64".toList resp.signature,
          b64Line base64 "ak_public_b64".toList resp.akPublic]) ++
    ekLines base64 resp ++
    (if resp.pcrs = [] then []
      else
        pcrLine "PCR".toList "ALGO".toList "DIGEST".toList ::
          resp.pcrs.map fun pcr => pcrLine (decimal pcr.index) pcr.algo pcr.digestHex))

end Printing

section Reading

structure QuoteParse where
  available : Bool := false
  message : Text := []
  nonceHex : Text := []
  quotedB64 : Text := []
  signatureB64 : Text := []
  akPublicB64 : Text := []
  ekFingerprint : Text := []
  ekChainStatus : Text := []
  ekChainMessage : Text := []
  pcrs : List (Nat × Text) := []
  deriving DecidableEq

def firstWord (text : Text) : Text := (splitWhitespace text).headD []

def parseU32 (text : Text) : Option Nat :=
  let digits := if text.head? = some '+' then text.tail else text
  if isDigits digits ∧ ofDigits digits < 2 ^ 32 then some (ofDigits digits) else none

/-- The message behind a dash.  Two hyphens are taken for a character of three bytes. -/
def messagePart (rest : Text) : Option Text :=
  let clean := fun text => trim (trimStartMatches ['-'] (trim text))
  match cut dash rest with
  | some (_, after) => some (clean after)
  | none =>
      match cut ['-', '-'] rest with
      | some (_, next :: after) => if next.utf8Size = 1 then some (clean after) else none
      | some (_, []) => none
      | none => none

def ekPart (q : QuoteParse) (part : Text) : QuoteParse :=
  match "chain=".toList.isPrefixOf? part with
  | some status => { q with ekChainStatus := status }
  | none =>
      match "fingerprint=".toList.isPrefixOf? part with
      | some fingerprint =>
          if fingerprint ≠ dash then { q with ekFingerprint := fingerprint } else q
      | none => q

def pcrPart (q : QuoteParse) (line : Text) : QuoteParse :=
  match splitWhitespace line with
  | index :: _algo :: digest :: _ =>
      match parseU32 index with
      | some i =>
          if 32 ≤ utf8Length digest ∧ digest.all isHexDigit then
            { q with pcrs := q.pcrs ++ [(i, digest)] }
          else q
      | none => q
  | _ => q

/-- The lines with a name in front, each with what it sets. -/
def namedLines : List (Text × (QuoteParse → Text → QuoteParse)) :=
  [("available=".toList, fun q rest =>
      { q with
        available := firstWord rest = "true".toList
        message := (messagePart rest).getD q.message }),
    ("nonce=".toList, fun q rest => { q with nonceHex := trim rest }),
    ("quoted_b64=".toList, fun q rest => { q with quotedB64 := firstWord rest }),
    ("signature_b64=".toList, fun q rest => { q with signatureB64 := firstWord rest }),
    ("ak_public_b64=".toList, fun q rest => { q with akPublicB64 := firstWord rest }),
    ("ek_nv=".toList, fun q rest => (splitWhitespace rest).foldl ekPart q),
    ("ek_chain_message=".toList, fun q rest => { q with ekChainMessage := trim rest })]

def parseLine (q : QuoteParse) (line : Text) : QuoteParse :=
  let line := trim line
  let named := namedLines.findSome? fun (name, set) =>
    (name.isPrefixOf? line).map fun rest => set q rest
  named.getD (pcrPart q line)

def parseQuoteOutput (stdout : Text) : QuoteParse := (lines stdout).foldl parseLine {}

end Reading

section Verify

inductive AppError where
  | badRequest (message : Text)
  | panics
  deriving DecidableEq

structure AttestationOut where
  enrolled : Bool
  akEnrolledAt : Option Text
  akFingerprint : Option Text
  ekFingerprint : Option Text
  ekChainStatus : Option Text
  ok : Option Bool
  message : Text
  deriving DecidableEq

/-- What is stored for a node. -/
structure NodeRow where
  akPublicB64 : Option Text
  akEnrolledAt : Option Text
  ekFingerprint : Option Text
  deriving DecidableEq

/-- How a run of the client ends. -/
inductive Reply where
  | timedOut
  | notStarted (message : Text)
  | failed (stdout stderr : Text)
  | answer (resp : QuoteResponse)
  deriving DecidableEq

/-- A node, with the network in front of it: what it answers to a nonce. -/
abbrev Peer := Bytes → Reply

variable (services : Services)

/-- Run the client, which draws the nonce `challenge`. -/
def runQuote (challenge : Bytes) (peer : Peer) : Except AppError QuoteParse :=
  match peer challenge with
  | .timedOut => .error (.badRequest "pertiskctl quote timed out".toList)
  | .notStarted message => .error (.badRequest ("pertiskctl quote: ".toList ++ message))
  | .failed stdout stderr =>
      .error (.badRequest ("pertiskctl quote failed: ".toList ++ trim stdout ++ [' '] ++
        trim stderr))
  | .answer resp => .ok (parseQuoteOutput (printQuote services.base64 resp))

def fingerprintB64 (akB64 : Text) : Option Text :=
  match services.base64.decode (trim akB64) with
  | .ok raw => some (hexEncode ((services.crypto.sha256 raw).take 8))
  | .error _ => none

def ekFpShort (full : Text) : Option Text :=
  if trim full = [] ∨ trim full = dash then none else some ((trim full).take 16)

def decodeB64 (name : Text) (text : Text) : Except AppError Bytes :=
  match services.base64.decode (trim text) with
  | .ok bytes => .ok bytes
  | .error message => .error (.badRequest (name ++ ": ".toList ++ message))

def decodeNonce (text : Text) : Except AppError Bytes :=
  match decodeHex text with
  | .ok bytes => .ok bytes
  | .error .odd => .error (.badRequest "odd hex length".toList)
  | .error .invalidDigit =>
      .error (.badRequest "hex: invalid digit found in string".toList)
  | .error .panics => .error .panics

def nonEmpty (text : Text) : Option Text := if text = [] then none else some text

/-- The outcome of the checks against what is enrolled, if they reject. -/
def enrolledMismatch (stored : AttestationOut) (storedB64 : Text) (storedEk : Option Text)
    (quote : QuoteParse) : Option AttestationOut :=
  if quote.available = false then some { stored with message := quote.message }
  else if quote.akPublicB64 ≠ storedB64 then
    some
      { stored with
        ekChainStatus := nonEmpty quote.ekChainStatus
        message :=
          "Quote AK does not match enrolled key (re-enroll after AK reset?)".toList }
  else
    match storedEk with
    | none => none
    | some wantEk =>
        if wantEk = [] then none
        else if quote.ekFingerprint = [] then
          some
            { stored with
              ekFingerprint := ekFpShort wantEk
              message := "enrolled EK fingerprint present but Quote has no EK cert".toList }
        else if quote.ekFingerprint ≠ wantEk then
          some
            { stored with
              ekFingerprint := ekFpShort wantEk
              ekChainStatus := some quote.ekChainStatus
              message := "Quote EK fingerprint does not match enrolled EK".toList }
        else none

def okMessage (quote : QuoteParse) : Text :=
  let ek := if quote.ekFingerprint = [] then []
    else "; EK ok chain=".toList ++ orDash quote.ekChainStatus
  ['v', 'e', 'r', 'i', 'f', 'y', '=', 'o', 'k'] ++
    " (signature + nonce + PCR digest)".toList ++ ek

/-- The outcome of a verification of the Quote. -/
def verified (stored : AttestationOut) (quote : QuoteParse) :
    Except Error Unit → Except AppError AttestationOut
  | .ok () =>
      .ok
        { stored with
          ekFingerprint := (ekFpShort quote.ekFingerprint).or stored.ekFingerprint
          ekChainStatus := nonEmpty quote.ekChainStatus
          ok := some true
          message := okMessage quote }
  | .error (.verify message) =>
      .ok
        { stored with
          ekChainStatus := nonEmpty quote.ekChainStatus
          message := "verify failed: verify: ".toList ++ message }
  | .error (.parse message) =>
      .ok
        { stored with
          ekChainStatus := nonEmpty quote.ekChainStatus
          message := "verify failed: parse: ".toList ++ message }
  | .error .panics => .error .panics

def checkQuote (stored : AttestationOut) (storedB64 : Text) (storedEk : Option Text)
    (quote : QuoteParse) : Except AppError AttestationOut :=
  match enrolledMismatch stored storedB64 storedEk quote with
  | some out => .ok out
  | none => do
      let quoted ← decodeB64 services "quoted_b64".toList quote.quotedB64
      let signature ← decodeB64 services "signature_b64".toList quote.signatureB64
      let akPublic ← decodeB64 services "ak_public_b64".toList storedB64
      let nonce ← decodeNonce quote.nonceHex
      let pcrs := quote.pcrs.map fun (index, digestHex) => { index, digestHex }
      verified stored quote
        (verifyQuote services.crypto quoted signature akPublic nonce pcrs)

/-- Nothing is enrolled. -/
def notEnrolled : AttestationOut where
  enrolled := false
  akEnrolledAt := none
  akFingerprint := none
  ekFingerprint := none
  ekChainStatus := none
  ok := some false
  message := "no AK enrolled — POST …/attestation/enroll first".toList

/-- One call for a node with the given row, in which the client draws `challenge`. -/
def verify (row : Option NodeRow) (challenge : Bytes) (peer : Peer) :
    Except AppError AttestationOut :=
  match row with
  | none => .ok notEnrolled
  | some row =>
      match row.akPublicB64 with
      | none => .ok notEnrolled
      | some storedB64 => do
          let quote ← runQuote services challenge peer
          let stored : AttestationOut :=
            { enrolled := true
              akEnrolledAt := row.akEnrolledAt
              akFingerprint := fingerprintB64 services storedB64
              ekFingerprint := row.ekFingerprint.bind ekFpShort
              ekChainStatus := none
              ok := some false
              message := [] }
          checkQuote services stored storedB64 row.ekFingerprint quote

end Verify

end PertiskKos.Mgmt
