import PertiskKos.Tpm.Ek

/-!
# The chain of an endorsement key

The certificates of a directory are the anchors.  A leaf is accepted if it is one of them
or if one of them issued it; the text that is reported is the subject of an anchor.  The
names and the signatures of a certificate are read by a library.
-/

namespace PertiskKos.Tpm.Ek

open Strings

/-- The X.509 library: what a certificate parses to, and what is asked of it. -/
structure X509 where
  Cert : Type
  Name : Type
  [decName : DecidableEq Name]
  fromDer : Bytes → Except Text Cert
  subject : Cert → Name
  issuer : Cert → Name
  display : Name → Text
  /-- The signature of the first verifies with the key of the second. -/
  verifySignature : Cert → Cert → Bool

instance (x509 : X509) : DecidableEq x509.Name := x509.decName

/-- An anchor parses, and goes by its subject. -/
structure OwnedCa (x509 : X509) where
  der : Bytes
  subject : Text
  parsed : ∃ cert, x509.fromDer der = .ok cert ∧ subject = x509.display (x509.subject cert)
  deriving DecidableEq

/-- A file of the directory, with what reading it gives. -/
structure Entry where
  name : Text
  raw : Except Text Bytes

section Code

variable (x509 : X509)

/-- What follows the last dot, unless the name begins with it. -/
def extension (name : Text) : Text :=
  match rsplitOnce '.' name with
  | some ([], _) => []
  | some (_, after) => after
  | none => []

def isCertificateFile (name : Text) : Bool :=
  (extension name).map Char.toLower ∈
    ["pem".toList, "crt".toList, "cer".toList, "der".toList]

def Error.text : Error → Text
  | .parse message => "parse: ".toList ++ message
  | .verify message => "verify: ".toList ++ message
  | .panics => []

def ownCa (name : Text) (der : Bytes) : Except Text (OwnedCa x509) :=
  match hparse : x509.fromDer der with
  | .error err => .error (name ++ ": ".toList ++ err)
  | .ok cert => .ok ⟨der, x509.display (x509.subject cert), cert, hparse, rfl⟩

def loadCaFile (entry : Entry) : Except Text (List (OwnedCa x509)) := do
  let raw ← entry.raw
  let certs ← (splitCerts raw).mapError Error.text
  certs.mapM (ownCa x509 entry.name)

def loadCaCerts (dir : Except Text (List Entry)) : Except Text (List (OwnedCa x509)) := do
  let entries ← dir
  let found ← (entries.filter (isCertificateFile ·.name)).mapM (loadCaFile x509)
  pure found.flatten

variable {x509}

def parseCa (der : Bytes) : Except Text x509.Cert :=
  (x509.fromDer der).mapError ("CA parse: ".toList ++ ·)

/-- The names fit and the signature is valid. -/
def issuedBy (cert caCert : x509.Cert) : Bool :=
  x509.issuer cert = x509.subject caCert && x509.verifySignature cert caCert

/-- The first search: an anchor that is the leaf, or issued it. -/
def directAnchor (leafDer : Bytes) (leaf : x509.Cert) :
    List (OwnedCa x509) → Except Text (Option Text)
  | [] => .ok none
  | ca :: rest => do
      let caCert ← parseCa ca.der
      if x509.subject leaf = x509.subject caCert ∧ leafDer = ca.der then pure (some ca.subject)
      else if issuedBy leaf caCert then pure (some ca.subject)
      else directAnchor leafDer leaf rest

def rootOf (midCert : x509.Cert) : List (OwnedCa x509) → Except Text (Option Text)
  | [] => .ok none
  | root :: rest => do
      let rootCert ← parseCa root.der
      if issuedBy midCert rootCert then pure (some root.subject) else rootOf midCert rest

/-- The second search: an anchor that issued the leaf, and the one that issued it. -/
def throughIntermediate (leaf : x509.Cert) (anchors : List (OwnedCa x509)) :
    List (OwnedCa x509) → Except Text (Option Text)
  | [] => .ok none
  | mid :: rest => do
      let midCert ← parseCa mid.der
      if issuedBy leaf midCert then
        match ← rootOf midCert anchors with
        | some subject => pure (some subject)
        -- listed as trust material, which is enough
        | none => pure (some mid.subject)
      else throughIntermediate leaf anchors rest

def verifyAnchors (caDir : Text) (leafDer : Bytes) (anchors : List (OwnedCa x509)) :
    Except Text Text := do
  if anchors = [] then .error ("no PEM certificates in ".toList ++ caDir)
  else
    let leaf ← (x509.fromDer leafDer).mapError ("leaf parse: ".toList ++ ·)
    match ← directAnchor leafDer leaf anchors with
    | some subject => pure subject
    | none =>
        match ← throughIntermediate leaf anchors anchors with
        | some subject => pure subject
        | none => .error ("EK issuer [".toList ++ x509.display (x509.issuer leaf) ++
            "] not chained to any of ".toList ++ Nat.toDigits 10 anchors.length ++
            " CA(s) in ".toList ++ caDir)

/-- Verify a leaf against the certificates of a directory. -/
def verifyEkChain (x509 : X509) (leafDer : Bytes) (caDir : Text)
    (dir : Except Text (List Entry)) : Except Text Text := do
  let anchors ← loadCaCerts x509 dir
  verifyAnchors caDir leafDer anchors

end Code

section Search

variable {x509 : X509} {leafDer : Bytes} {leaf : x509.Cert} {anchors : List (OwnedCa x509)}

variable (x509) in
/-- The second certificate issued the first. -/
def issued (der caDer : Bytes) : Bool :=
  match x509.fromDer der, x509.fromDer caDer with
  | .ok cert, .ok caCert => issuedBy cert caCert
  | _, _ => false

variable (x509) in
def subjectText (der : Bytes) : Text :=
  match x509.fromDer der with
  | .ok cert => x509.display (x509.subject cert)
  | .error _ => []

variable (x509) in
def issuerText (der : Bytes) : Text :=
  match x509.fromDer der with
  | .ok cert => x509.display (x509.issuer cert)
  | .error _ => []

/-- The anchor is the leaf, or issued it. -/
def Vouches (leafDer : Bytes) (ca : OwnedCa x509) : Prop :=
  ca.der = leafDer ∨ issued x509 leafDer ca.der = true

instance (ca : OwnedCa x509) : Decidable (Vouches leafDer ca) :=
  inferInstanceAs (Decidable (_ ∨ _))

theorem issued_eq {der caDer : Bytes} {cert caCert : x509.Cert}
    (hcert : x509.fromDer der = .ok cert) (hca : x509.fromDer caDer = .ok caCert) :
    issued x509 der caDer = issuedBy cert caCert := by
  simp only [issued, hcert, hca]

theorem parseCa_eq {der : Bytes} {cert : x509.Cert} (hcert : x509.fromDer der = .ok cert) :
    parseCa der = .ok cert := by
  rw [parseCa, hcert]
  rfl

theorem directAnchor_eq (hleaf : x509.fromDer leafDer = .ok leaf) :
    directAnchor leafDer leaf anchors =
      .ok ((anchors.find? (Vouches leafDer ·)).map (·.subject)) := by
  induction anchors with
  | nil => rfl
  | cons ca rest ih =>
      obtain ⟨caCert, hca, -⟩ := ca.parsed
      have hcopy : x509.subject leaf = x509.subject caCert ∧ leafDer = ca.der ↔
          ca.der = leafDer := by
        constructor
        · exact fun h => h.2.symm
        · intro hder
          rw [hder, hleaf] at hca
          cases hca
          exact ⟨rfl, hder.symm⟩
      rw [directAnchor, parseCa_eq hca, List.find?_cons]
      by_cases hder : ca.der = leafDer
      · have hvouches : Vouches leafDer ca := .inl hder
        simp only [bind, Except.bind]
        rw [if_pos (hcopy.mpr hder), decide_eq_true hvouches]
        rfl
      · by_cases hissued : issuedBy leaf caCert = true
        · have hvouches : Vouches leafDer ca := .inr (issued_eq hleaf hca ▸ hissued)
          simp only [bind, Except.bind, hcopy, hder, if_false, hissued, if_true, hvouches,
            decide_true]
          rfl
        · have hnot : ¬ Vouches leafDer ca := by
            rintro (hsame | hother)
            · exact hder hsame
            · exact hissued (issued_eq hleaf hca ▸ hother)
          simp only [bind, Except.bind, hcopy, hder, if_false, hissued, hnot, decide_false]
          exact ih

/-- After the first search has found nothing, the second finds nothing either. -/
theorem throughIntermediate_eq_none (hleaf : x509.fromDer leafDer = .ok leaf)
    {rest : List (OwnedCa x509)} (hnone : ∀ ca ∈ rest, ¬ Vouches leafDer ca) :
    throughIntermediate leaf anchors rest = .ok none := by
  induction rest with
  | nil => rfl
  | cons mid rest ih =>
      obtain ⟨midCert, hmid, -⟩ := mid.parsed
      have hnot : ¬ issuedBy leaf midCert = true := fun hissued =>
        hnone mid List.mem_cons_self (.inr (issued_eq hleaf hmid ▸ hissued))
      rw [throughIntermediate, parseCa_eq hmid]
      simp only [bind, Except.bind, hnot]
      exact ih fun ca hca => hnone ca (List.mem_cons_of_mem _ hca)

/-- The first anchor that vouches for the leaf decides. -/
theorem verifyAnchors_eq (caDir : Text) (hleaf : x509.fromDer leafDer = .ok leaf)
    {ca : OwnedCa x509} (hfind : anchors.find? (Vouches leafDer ·) = some ca) :
    verifyAnchors caDir leafDer anchors = .ok ca.subject := by
  have hne : anchors ≠ [] := by
    rintro rfl
    cases hfind
  rw [verifyAnchors, if_neg hne, hleaf]
  simp only [Except.mapError, bind, Except.bind, directAnchor_eq hleaf, hfind]
  rfl

theorem verifyAnchors_not_ok (caDir : Text) (hnone : ∀ ca ∈ anchors, ¬ Vouches leafDer ca)
    (subject : Text) : verifyAnchors caDir leafDer anchors ≠ .ok subject := by
  intro hok
  rw [verifyAnchors] at hok
  split at hok
  · cases hok
  · obtain ⟨leaf, hleaf, hok⟩ := bind_ok hok
    cases hparse : x509.fromDer leafDer with
    | error err =>
        rw [hparse] at hleaf
        cases hleaf
    | ok other =>
        rw [hparse] at hleaf
        cases hleaf
        have hfind : anchors.find? (Vouches leafDer ·) = none := by
          simpa [List.find?_eq_none] using hnone
        simp only [directAnchor_eq hparse, hfind, throughIntermediate_eq_none hparse hnone,
          bind, Except.bind, Option.map_none] at hok
        cases hok

/-- An anchor that vouches for a leaf has been read, so the leaf has been. -/
theorem Vouches.parses {ca : OwnedCa x509} (hvouches : Vouches leafDer ca) :
    ∃ leaf, x509.fromDer leafDer = .ok leaf := by
  rcases hvouches with rfl | hissued
  · obtain ⟨cert, hcert, -⟩ := ca.parsed
    exact ⟨cert, hcert⟩
  · cases hparse : x509.fromDer leafDer with
    | ok leaf => exact ⟨leaf, rfl⟩
    | error err =>
        rw [issued, hparse] at hissued
        cases hissued

theorem verifyAnchors_ok_iff (caDir : Text) :
    (∃ subject, verifyAnchors caDir leafDer anchors = .ok subject) ↔
      ∃ ca ∈ anchors, Vouches leafDer ca := by
  constructor
  · rintro ⟨subject, hok⟩
    by_contra hnone
    push Not at hnone
    exact verifyAnchors_not_ok caDir hnone subject hok
  · rintro ⟨ca, hca, hvouches⟩
    obtain ⟨leaf, hleaf⟩ := hvouches.parses
    cases hfind : anchors.find? (Vouches leafDer ·) with
    | none =>
        rw [List.find?_eq_none] at hfind
        exact absurd (decide_eq_true hvouches) (hfind ca hca)
    | some first => exact ⟨first.subject, verifyAnchors_eq caDir hleaf hfind⟩

/-- The leaf stands among the anchors before every one that issued it. -/
def LeafFirst (leafDer : Bytes) (anchors : List (OwnedCa x509)) : Prop :=
  ∃ before ca after, anchors = before ++ ca :: after ∧ ca.der = leafDer ∧
    ∀ other ∈ before, ¬ issued x509 leafDer other.der = true

theorem LeafFirst.der_eq {ca : OwnedCa x509} (hfirst : LeafFirst leafDer anchors)
    (hfind : anchors.find? (Vouches leafDer ·) = some ca) : ca.der = leafDer := by
  obtain ⟨before, copy, after, rfl, hcopy, hbefore⟩ := hfirst
  rw [List.find?_append] at hfind
  cases hearlier : before.find? (Vouches leafDer ·) with
  | some other =>
      rw [hearlier, Option.some_or] at hfind
      cases hfind
      have hvouches : Vouches leafDer ca := by simpa using List.find?_some hearlier
      exact hvouches.resolve_right (hbefore ca (List.mem_of_find?_eq_some hearlier))
  | none =>
      have hvouches : Vouches leafDer copy := .inl hcopy
      rw [hearlier, Option.none_or, List.find?_cons, decide_eq_true hvouches] at hfind
      cases hfind
      exact hcopy

/-- The first anchor that vouches goes by the leaf's subject or by its issuer. -/
theorem subject_of_find {ca : OwnedCa x509}
    (hfind : anchors.find? (Vouches leafDer ·) = some ca) :
    (LeafFirst leafDer anchors → ca.subject = subjectText x509 leafDer) ∧
      (¬ LeafFirst leafDer anchors → ca.subject = issuerText x509 leafDer) := by
  obtain ⟨cert, hcert, hsubject⟩ := ca.parsed
  have hvouches : Vouches leafDer ca := by simpa using List.find?_some hfind
  obtain ⟨leaf, hleaf⟩ := hvouches.parses
  constructor
  · intro hfirst
    rw [hfirst.der_eq hfind, hleaf] at hcert
    cases hcert
    simp only [subjectText, hleaf, hsubject]
  · intro hnot
    obtain ⟨-, before, after, hsplit, hbefore⟩ := List.find?_eq_some_iff_append.mp hfind
    have hearlier : ∀ other ∈ before, ¬ Vouches leafDer other := by simpa using hbefore
    have hissued : issued x509 leafDer ca.der = true := by
      refine hvouches.resolve_left fun hder => hnot ?_
      exact ⟨before, ca, after, hsplit, hder, fun other hother h => hearlier other hother (.inr h)⟩
    rw [issued_eq hleaf hcert, issuedBy, Bool.and_eq_true, decide_eq_true_eq] at hissued
    simp only [issuerText, hleaf, hsubject, hissued.1]

end Search

section Report

variable {x509 : X509}

/-- A leaf, the anchor that issued it, and one that issued that anchor. -/
structure Chain (leafDer : Bytes) (anchors : List (OwnedCa x509)) where
  mid : OwnedCa x509
  root : OwnedCa x509
  mid_mem : mid ∈ anchors
  root_mem : root ∈ anchors
  issued_leaf : issued x509 leafDer mid.der = true
  issued_mid : issued x509 mid.der root.der = true

/-- What verification promises: to accept the leaf if and only if an anchor vouches for it,
and to report the root if there is one behind an intermediate. -/
def ReportsRoot (x509 : X509) (leafDer : Bytes) (caDir : Text) (dir : Except Text (List Entry))
    (anchors : List (OwnedCa x509)) : Prop :=
  ((∃ subject, verifyEkChain x509 leafDer caDir dir = .ok subject) ↔
      ∃ ca ∈ anchors, Vouches leafDer ca) ∧
    (Nonempty (Chain leafDer anchors) → ∃ chain : Chain leafDer anchors,
      verifyEkChain x509 leafDer caDir dir = .ok chain.root.subject)

/-- The first anchor that vouches is reported, which the intermediate does before its root is
looked for.  The root is named only where it goes by the same name: that of the leaf's issuer,
or the leaf's own if the leaf stands in the directory before every anchor that issued it. -/
theorem verify_ek_chain_reports_root_iff (x509 : X509) (leafDer : Bytes) (caDir : Text)
    (dir : Except Text (List Entry)) (anchors : List (OwnedCa x509))
    (hanchors : loadCaCerts x509 dir = .ok anchors) :
    ReportsRoot x509 leafDer caDir dir anchors ↔
      (Nonempty (Chain leafDer anchors) → ∃ chain : Chain leafDer anchors,
        (LeafFirst leafDer anchors → chain.root.subject = subjectText x509 leafDer) ∧
        (¬ LeafFirst leafDer anchors → chain.root.subject = issuerText x509 leafDer)) := by
  have hverify : verifyEkChain x509 leafDer caDir dir = verifyAnchors caDir leafDer anchors := by
    rw [verifyEkChain, hanchors]
    rfl
  rw [ReportsRoot, hverify, and_iff_right (verifyAnchors_ok_iff caDir)]
  refine imp_congr_right fun ⟨witness⟩ => exists_congr fun chain => ?_
  have hvouches : Vouches leafDer witness.mid := .inr witness.issued_leaf
  obtain ⟨leaf, hleaf⟩ := hvouches.parses
  cases hfind : anchors.find? (Vouches leafDer ·) with
  | none =>
      rw [List.find?_eq_none] at hfind
      exact absurd (decide_eq_true hvouches) (hfind witness.mid witness.mid_mem)
  | some ca =>
      obtain ⟨hfirst, hlater⟩ := subject_of_find hfind
      rw [verifyAnchors_eq caDir hleaf hfind, Except.ok.injEq]
      by_cases hleafFirst : LeafFirst leafDer anchors
      · rw [hfirst hleafFirst]
        exact ⟨fun h => ⟨fun _ => h.symm, fun hnot => absurd hleafFirst hnot⟩,
          fun h => (h.1 hleafFirst).symm⟩
      · rw [hlater hleafFirst]
        exact ⟨fun h => ⟨fun hnot => absurd hnot hleafFirst, fun _ => h.symm⟩,
          fun h => (h.2 hleafFirst).symm⟩

end Report

/-! ## An intermediate and its root -/

section Sample

def rootCert : Sample where
  serial := 1
  issuer := Utf8.encode "Root".toList
  subject := Utf8.encode "Root".toList
  key := basePoint
  signature := (0x7cf27b188d034f7e8a52380304b51ac3c08969e277f21b35a60b48fc47669978,
    0xbf99da8b7cdb7e15c307c09a6349040a1cbfadce4400dae0945958bab79edb91)

def midCert : Sample where
  serial := 2
  issuer := Utf8.encode "Root".toList
  subject := Utf8.encode "Mid".toList
  key := (0x7cf27b188d034f7e8a52380304b51ac3c08969e277f21b35a60b48fc47669978,
    0x07775510db8ed040293d9ac69f7430dbba7dade63ce982299e04b79d227873d1)
  signature := (0x7cf27b188d034f7e8a52380304b51ac3c08969e277f21b35a60b48fc47669978,
    0x195bb9acbb0f6d277168accc3ce56efe5b13e24cb860b0949de0e120d1857c05)

def leafCert : Sample where
  serial := 3
  issuer := Utf8.encode "Mid".toList
  subject := Utf8.encode "EK".toList
  key := (0x5ecbe4d1a6330a44c8f7ef951d4bf165e6c6b721efada985fb41661bc6e7fd6c,
    0x8734640c4998ff7e374b06ce1a64a2ecd82ab036384fb83d9a79b127a27d5032)
  signature := (0x7cf27b188d034f7e8a52380304b51ac3c08969e277f21b35a60b48fc47669978,
    0xebd025865a9f362f8812f3026e8ea211bf2ba712ea0308f2ba4f1b7659ffb0ff)

@[irreducible] def sampleFromDer (der : Bytes) : Except Text Sample :=
  match [rootCert, midCert, leafCert].find? (·.der = der) with
  | some cert => .ok cert
  | none => .error "parsing error".toList

/-- The library on these three certificates: what they contain, and which signature is
valid under which key. -/
def sampleX509 : X509 where
  Cert := Sample
  Name := Bytes
  fromDer := sampleFromDer
  subject := Sample.subject
  issuer := Sample.issuer
  display name := "CN=".toList ++ name.map fun byte => Char.ofNat byte.toNat
  verifySignature cert caCert :=
    (cert, caCert) ∈ [(rootCert, rootCert), (midCert, rootCert), (leafCert, midCert)]

def ownSample (cert : Sample) (hparse : sampleFromDer cert.der = .ok cert) :
    OwnedCa sampleX509 :=
  ⟨cert.der, sampleX509.display (sampleX509.subject cert), cert, hparse, rfl⟩

def rootCa : OwnedCa sampleX509 := ownSample rootCert (by decide +kernel)

def midCa : OwnedCa sampleX509 := ownSample midCert (by decide +kernel)

def sampleDir : List Entry :=
  [⟨"mid.der".toList, .ok midCert.der⟩, ⟨"root.der".toList, .ok rootCert.der⟩]

theorem loadCaCerts_sample :
    loadCaCerts sampleX509 (.ok sampleDir) = .ok [midCa, rootCa] := by
  decide +kernel

theorem issued_sample :
    issued sampleX509 leafCert.der midCert.der = true ∧
      issued sampleX509 midCert.der rootCert.der = true := by
  decide +kernel

/-- The intermediate is reported, although the root that issued it is in the directory. -/
theorem verify_ek_chain_reports_intermediate :
    ¬ ∀ (x509 : X509) (leafDer : Bytes) (caDir : Text) (dir : Except Text (List Entry))
      (anchors : List (OwnedCa x509)), loadCaCerts x509 dir = .ok anchors →
      ReportsRoot x509 leafDer caDir dir anchors := by
  intro hclaim
  obtain ⟨-, hroot⟩ := hclaim sampleX509 leafCert.der "/etc/pertisk/tpm-ek-cas".toList (.ok sampleDir)
    [midCa, rootCa] loadCaCerts_sample
  obtain ⟨⟨mid, root, hmid, hmem, hleaf, hissued⟩, hverify⟩ :=
    hroot ⟨⟨midCa, rootCa, by simp, by simp, issued_sample.1, issued_sample.2⟩⟩
  have hreported : verifyEkChain sampleX509 leafCert.der "/etc/pertisk/tpm-ek-cas".toList
      (.ok sampleDir) = .ok midCa.subject := by
    decide +kernel
  have hsubject : root.subject = midCa.subject := Except.ok.inj (hverify.symm.trans hreported)
  have hnone : ∀ first ∈ [midCa, rootCa], ∀ second ∈ [midCa, rootCa],
      issued sampleX509 leafCert.der first.der = true →
      issued sampleX509 first.der second.der = true → second.subject ≠ midCa.subject := by
    decide +kernel
  exact hnone mid hmid root hmem hleaf hissued hsubject

/-- With the intermediate alone there is no chain, and its name is the right one. -/
theorem verify_ek_chain_reports_mid :
    ReportsRoot sampleX509 leafCert.der "/etc/pertisk/tpm-ek-cas".toList
      (.ok (sampleDir.take 1)) [midCa] := by
  have hload : loadCaCerts sampleX509 (.ok (sampleDir.take 1)) = .ok [midCa] := by
    decide +kernel
  refine (verify_ek_chain_reports_root_iff sampleX509 leafCert.der _ _ [midCa] hload).mpr ?_
  rintro ⟨⟨mid, root, hmid, hroot, -, hissued⟩⟩
  rw [List.mem_singleton] at hmid hroot
  subst hmid hroot
  have hnot : issued sampleX509 midCa.der midCa.der = false := by decide +kernel
  exact absurd hissued (by rw [hnot]; exact Bool.false_ne_true)

end Sample

end PertiskKos.Tpm.Ek
