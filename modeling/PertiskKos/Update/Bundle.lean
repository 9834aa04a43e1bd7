import PertiskKos.Update.Disk

/-!
# Verifying an upgrade bundle

A bundle directory holds `manifest.json`, `manifest.sig` and the artifacts the
manifest lists.  Verification only reads.  The signature scheme, the digest and
the JSON reader are third-party code and enter as the fields of `Codec`.
-/

namespace PertiskKos.Update

open PertiskKos.Fallible

structure BundleManifest where
  version : String
  /-- Relative artifact paths with their sha256 hex, in key order. -/
  artifacts : List (String × String)
  deriving DecidableEq, Repr

structure VerifiedBundle where
  root : SlotDir
  manifest : BundleManifest

inductive KeyError where
  | io (err : IoError)
  | invalid (message : String)
  | verifyFailed
  deriving DecidableEq, Repr

inductive BundleError where
  | io (err : IoError)
  | json
  | key (err : KeyError)
  | hashMismatch (name expected actual : String)
  deriving DecidableEq, Repr

abbrev VerifyingKey := Bytes

/-- What the crate is built with: its release version and the third-party
functions that `verify_bundle` calls. -/
structure Codec where
  releaseVersion : String
  loadVerifyingKey : Bytes → Except KeyError VerifyingKey
  verifyManifest : VerifyingKey → Bytes → Bytes → Except KeyError Unit
  parseManifest : Bytes → Option BundleManifest
  sha256 : Bytes → String

variable (codec : Codec)

/-- The hash check of one manifest entry. -/
def checkArtifact (bundleDir : SlotDir) (entry : String × String) :
    Prog Site BundleError Disk Unit := do
  let content ← read (.hashArtifact entry.1) (.io .notFound) (.io .failed)
    (bundleDir entry.1)
  let actual := codec.sha256 content
  if actual = entry.2 then
    pure ()
  else
    stop (.hashMismatch entry.1 entry.2 actual)

/-- `verify_bundle`. -/
def verifyBundle (bundleDir : SlotDir) :
    Prog Site BundleError Disk VerifiedBundle := do
  let manifestBytes ← read .readManifest (.io .notFound) (.io .failed)
    (bundleDir "manifest.json")
  let signature ← read .readSignature (.io .notFound) (.io .failed)
    (bundleDir "manifest.sig")
  let keyText ← read .readTrustKey (.key (.io .notFound)) (.key (.io .failed))
    (← inspect Disk.trustKey)
  let verifying ← ofExcept .key (codec.loadVerifyingKey keyText)
  ofExcept .key (codec.verifyManifest verifying manifestBytes signature)
  match codec.parseManifest manifestBytes with
  | none => stop .json
  | some manifest =>
      manifest.artifacts.forM (checkArtifact codec bundleDir)
      pure ⟨bundleDir, manifest⟩

/-- The files a verified bundle is staged from are all there. -/
structure VerifiedBundle.Whole (bundle : VerifiedBundle) : Prop where
  artifacts : ∀ entry ∈ bundle.manifest.artifacts,
    (bundle.root entry.1).isPresent = true
  manifest : (bundle.root "manifest.json").isPresent = true
  signature : (bundle.root "manifest.sig").isPresent = true

theorem checkArtifact_spec (faults : Faults Site) (bundleDir : SlotDir)
    (entry : String × String) (before : Disk) :
    Triple faults (· = before) (checkArtifact codec bundleDir entry)
      (fun _ after => (bundleDir entry.1).isPresent = true ∧ after = before)
      (fun _ after => after = before) := by
  apply Triple.bindFact (fun _ => (bundleDir entry.1).isPresent = true) (· = before)
  · exact Triple.read (fun _ _ hfile _ h => ⟨by rw [hfile]; rfl, h⟩) fun _ _ h => h
  intro content hpresent
  by_cases hhash : codec.sha256 content = entry.2
  · simp only [hhash, if_true]
    exact Triple.pure fun _ h => ⟨hpresent, h⟩
  · simp only [hhash, if_false]
    exact Triple.stop fun _ h => h

/-- All hash checks pass only over artifacts that are there. -/
theorem checkArtifacts_spec (faults : Faults Site) (bundleDir : SlotDir)
    (entries : List (String × String)) (before : Disk) :
    Triple faults (· = before) (entries.forM (checkArtifact codec bundleDir))
      (fun _ after => (∀ entry ∈ entries, (bundleDir entry.1).isPresent = true) ∧
        after = before)
      (fun _ after => after = before) := by
  induction entries with
  | nil => exact Triple.pure fun _ h => ⟨by simp, h⟩
  | cons entry entries ih =>
      apply Triple.bindFact (fun _ => (bundleDir entry.1).isPresent = true)
        (· = before) (checkArtifact_spec codec faults bundleDir entry before)
      intro _ hpresent
      refine ih.weaken (fun _ h => h) ?_ (fun _ _ h => h)
      intro _ after hafter
      exact ⟨List.forall_mem_cons.2 ⟨hpresent, hafter.1⟩, hafter.2⟩

/-- Verification changes nothing, and what it accepts can be staged. -/
theorem verifyBundle_spec (faults : Faults Site) (bundleDir : SlotDir)
    (before : Disk) :
    Triple faults (· = before) (verifyBundle codec bundleDir)
      (fun verified after => verified.Whole ∧ after = before)
      (fun _ after => after = before) := by
  apply Triple.bindFact (fun _ => (bundleDir "manifest.json").isPresent = true)
    (· = before)
  · exact Triple.read (fun _ _ hfile _ h => ⟨by rw [hfile]; rfl, h⟩) fun _ _ h => h
  intro manifestBytes hmanifest
  apply Triple.bindFact (fun _ => (bundleDir "manifest.sig").isPresent = true)
    (· = before)
  · exact Triple.read (fun _ _ hfile _ h => ⟨by rw [hfile]; rfl, h⟩) fun _ _ h => h
  intro signature hsignature
  apply Triple.bind (fun _ => (· = before)) (Triple.inspect fun _ h => h)
  intro keyFile
  apply Triple.bind (fun _ => (· = before))
    (Triple.read (fun _ _ _ _ h => h) fun _ _ h => h)
  intro keyText
  apply Triple.bind (fun _ => (· = before))
    (Triple.ofExcept (fun _ _ _ h => h) fun _ _ _ h => h)
  intro verifying
  apply Triple.bind (fun _ => (· = before))
    (Triple.ofExcept (fun _ _ _ h => h) fun _ _ _ h => h)
  intro _
  cases codec.parseManifest manifestBytes with
  | none => exact Triple.stop fun _ h => h
  | some manifest =>
      apply Triple.bindFact (fun _ => ∀ entry ∈ manifest.artifacts,
        (bundleDir entry.1).isPresent = true) (· = before)
        (checkArtifacts_spec codec faults bundleDir manifest.artifacts before)
      intro _ hartifacts
      exact Triple.pure fun _ h => ⟨⟨hartifacts, hmanifest, hsignature⟩, h⟩

end PertiskKos.Update
