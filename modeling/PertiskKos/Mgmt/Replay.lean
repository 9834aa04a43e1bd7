import PertiskKos.Mgmt.Attestation
import PertiskKos.Tpm.PcrBinding

/-!
# Replay of a Quote

The nonce that a Quote is compared with is the one in the answer, not the one the client
has drawn.  So whatever was accepted once is accepted again.
-/

namespace PertiskKos.Mgmt

open Strings Hex Tpm

section Replay

variable {services : Services} {row : Option NodeRow} {first second : Bytes}
variable {peer peer' : Peer} {resp : QuoteResponse}

/-- A call accepts what the node answers. -/
def Accepts (services : Services) (row : Option NodeRow) (challenge : Bytes) (peer : Peer) :
    Prop :=
  ∃ out, verify services row challenge peer = .ok out ∧ out.ok = some true

/-- A call sees nothing of the node but its answer, and nothing of the nonce. -/
theorem verify_eq_of_reply (hreply : peer first = peer' second) :
    verify services row first peer = verify services row second peer' := by
  have hrun : runQuote services first peer = runQuote services second peer' := by
    rw [runQuote, runQuote, hreply]
  simp only [verify, hrun]

/-- A transcript that one call accepts is accepted by every other call on the same node,
whatever nonce that call draws. -/
theorem replay_accepted (hfirst : peer first = .answer resp)
    (haccepts : Accepts services row first peer) (hsecond : peer' second = .answer resp) :
    Accepts services row second peer' := by
  obtain ⟨out, hverify, hok⟩ := haccepts
  refine ⟨out, ?_, hok⟩
  rw [← hverify]
  exact verify_eq_of_reply (hsecond.trans hfirst.symm)

end Replay

section Lab

def base64Char (n : Nat) : Char :=
  if n < 26 then Char.ofNat ('A'.toNat + n)
  else if n < 52 then Char.ofNat ('a'.toNat + (n - 26))
  else if n < 62 then Char.ofNat ('0'.toNat + (n - 52))
  else if n = 62 then '+'
  else '/'

/-- Four characters for every three bytes, filled up with equals signs. -/
def base64Encode : Bytes → Text
  | [] => []
  | [a] => [base64Char (a.toNat / 4), base64Char (a.toNat % 4 * 16), '=', '=']
  | [a, b] =>
      [base64Char (a.toNat / 4), base64Char (a.toNat % 4 * 16 + b.toNat / 16),
        base64Char (b.toNat % 16 * 4), '=']
  | a :: b :: c :: rest =>
      base64Char (a.toNat / 4) :: base64Char (a.toNat % 4 * 16 + b.toNat / 16) ::
        base64Char (b.toNat % 16 * 4 + c.toNat / 64) :: base64Char (c.toNat % 64) ::
        base64Encode rest

/-- The parts of the transcript of a lab node, decoded. -/
def labBase64 : Base64 where
  encode := base64Encode
  decode := fun text =>
    match [labQuoted, labSignature, labAkPublic].find? (base64Encode · = text) with
    | some bytes => .ok bytes
    | none => .error "Invalid padding".toList

def labAkDigest : Bytes :=
  [167, 207, 81, 59, 35, 227, 250, 107, 190, 101, 164, 52, 6, 246, 87, 48, 169, 138,
    6, 27, 36, 49, 152, 168, 255, 78, 213, 97, 241, 126, 167, 172]

def labServices : Services where
  crypto :=
    { labCrypto (List.replicate 288 0) labDigest labQuoted labSignature with
      sha256 := fun message =>
        if message = labAkPublic then labAkDigest
        else if message = List.replicate 288 0 then labDigest
        else message }
  base64 := labBase64

def labRow : NodeRow where
  akPublicB64 := some (base64Encode labAkPublic)
  akEnrolledAt := some "2026-01-01T00:00:00Z".toList
  ekFingerprint := none

/-- The answer of a node with a soft TPM to the nonce `labNonce`. -/
def labResponse : QuoteResponse where
  available := true
  message := "quoted 9 PCR(s) via /dev/tpmrm0".toList
  nonce := labNonce
  quoted := labQuoted
  signature := labSignature
  akPublic := labAkPublic
  pcrs := labPcrs.map fun pcr => ⟨pcr.index, "sha256".toList, pcr.digestHex⟩
  activeSlot := "A".toList
  version := "v0.1.0".toList
  ekCertDer := []
  ekNvIndex := 0
  ekSubject := []
  ekIssuer := []
  ekFingerprint := []
  ekChainStatus := "missing".toList
  ekChainMessage := []

/-- A node that gives the same answer to every nonce. -/
def replaying : Peer := fun _ => .answer labResponse

theorem accepts_lab : Accepts labServices (some labRow) labNonce replaying := by
  have hok : (verify labServices (some labRow) labNonce replaying).toOption.bind
      AttestationOut.ok = some true := by decide +kernel
  obtain ⟨out, hout, hsome⟩ := Option.bind_eq_some_iff.mp hok
  refine ⟨out, ?_, hsome⟩
  cases hverify : verify labServices (some labRow) labNonce replaying with
  | error err =>
      rw [hverify] at hout
      cases hout
  | ok found =>
      rw [hverify] at hout
      cases hout
      rfl

theorem replay_accepted_lab :
    Accepts labServices (some labRow) (List.replicate 32 0) replaying :=
  @replay_accepted labServices (some labRow) labNonce (List.replicate 32 0) replaying
    replaying labResponse rfl accepts_lab rfl

/-- The transcript of one nonce is accepted under another one. -/
theorem quote_replayed :
    ¬ ∀ first second : Bytes, first ≠ second →
      Accepts labServices (some labRow) first replaying →
        ¬ Accepts labServices (some labRow) second replaying := by
  intro hfresh
  apply hfresh labNonce (List.replicate 32 0) (by decide) accepts_lab
  obtain ⟨out, hverify, hok⟩ := accepts_lab
  exact ⟨out, hverify, hok⟩

end Lab

end PertiskKos.Mgmt
