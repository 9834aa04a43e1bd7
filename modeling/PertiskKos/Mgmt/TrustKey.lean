import Mathlib.Data.List.Nodup
import PertiskKos.Mgmt.OsBundle
import PertiskKos.Mgmt.OsUpgrade

/-!
# The trust anchor of a node

An upgrade copies the key of the bundle to every node that it reaches.  This module
compares what a node holds before and after, and the anchors that two archives leave which
differ only in the key.
-/

namespace PertiskKos.TrustKey

open Strings OsBundle OsUpgrade

/-- The keys that the service finds on its host. -/
structure Config where
  /-- The file at `MGMT_OS_TRUST_PK`, or in the data directory. -/
  osTrustPk : Option Bytes
  etcTrustPk : Option Bytes

def Config.fallbacks (config : Config) : List (Option Bytes) :=
  [config.osTrustPk, config.etcTrustPk]

def Config.operatorKey (config : Config) : Option Bytes := config.fallbacks.findSome? id

/-- How the staging of a bundle on a node goes. -/
inductive Staging where
  /-- A step before the copy of the key fails. -/
  | failed
  /-- The copy stops after some bytes. -/
  | torn (written : Nat)
  /-- The key is copied, and a step after that fails. -/
  | unfinished
  | done
  deriving DecidableEq, Repr

/-- The key that each node holds, under the node's name. -/
abbrev Anchors := Text → Option Bytes

structure World where
  parse : Bytes → Option Text
  /-- The kernel fits the architecture of the upload and of the cluster. -/
  archMatches : BundleDir → Bool
  /-- What the earlier jobs of the package found on the host, the oldest first. -/
  earlier : List Config
  config : Config
  /-- Nothing fails between the check of the key and the first node. -/
  proceeds : Bool
  nodes : List NodeRow
  /-- The table of nodes has each name of a cluster once. -/
  apart : (nodes.map NodeRow.name).Nodup
  held : Anchors
  staging : Text → Staging
  /-- What comes after the staging succeeds on the node. -/
  upgraded : Text → Bool

section Run

variable (fields : List Field) (world : World)

/-- The directory of the package.  Earlier jobs may have put a key there. -/
def packageDir : Option BundleDir := do
  let dir ← (ingest world.parse fields).bind (copyBundleDir world.parse)
  some (world.earlier.foldl (fun dir config =>
    (ensureTrustPk dir config.fallbacks).getD dir) dir)

/-- The directory from which the nodes are staged. -/
def bundleDir : Option BundleDir := do
  let dir ← packageDir fields world
  if (validateBundleDir world.parse dir).isSome && world.archMatches dir then
    ensureTrustPk dir world.config.fallbacks
  else none

/-- The key that the nodes get from a directory that passes the check. -/
def dirKey (dir : BundleDir) : Option Bytes :=
  if (validateBundleDir world.parse dir).isSome then bundleTrustPk dir else none

def stageOsBundle (dir : BundleDir) (name : Text) (anchors : Anchors) : Anchors × Bool :=
  match dirKey world dir with
  | none => (anchors, false)
  | some key =>
      match world.staging name with
      | .failed => (anchors, false)
      | .torn written => (Function.update anchors name (some (key.take written)), false)
      | .unfinished => (Function.update anchors name (some key), false)
      | .done => (Function.update anchors name (some key), true)

def upgradeOsNodes (dir : BundleDir) : List Text → Anchors → Anchors
  | [], anchors => anchors
  | name :: names, anchors =>
      let (staged, ok) := stageOsBundle world dir name anchors
      if ok && world.upgraded name then upgradeOsNodes dir names staged else staged

def nodeNames : List Text := (ordered world.nodes).map NodeRow.name

def runUpgradeOs : Anchors :=
  match bundleDir fields world with
  | some dir =>
      if world.proceeds then upgradeOsNodes world dir (nodeNames world) world.held
      else world.held
  | none => world.held

end Run

/-! ## What an upgrade is to leave alone -/

section Claim

variable (fields first second : List Field) (world : World)

/-- A key that a node holds stays, and a node without one gets the operator's if there is
one. -/
structure KeepsAnchor : Prop where
  held : ∀ name key, world.held name = some key → runUpgradeOs fields world name = some key
  installed : ∀ name key, world.held name = none → world.config.operatorKey = some key →
    runUpgradeOs fields world name = none ∨ runUpgradeOs fields world name = some key

def others (dir : BundleDir) : BundleDir := Function.update dir .osTrustPk none

def DifferOnlyInKey : Prop :=
  (ingest world.parse first).map others = (ingest world.parse second).map others

structure AnchorsKept : Prop where
  keptFirst : KeepsAnchor first world
  keptSecond : KeepsAnchor second world
  equal : DifferOnlyInKey first second world →
    runUpgradeOs first world = runUpgradeOs second world

/-! ## When it does -/

/-- The key with which the nodes are staged. -/
def stagedKey : Option Bytes :=
  if world.proceeds then (bundleDir fields world).bind (dirKey world) else none

/-- What a staging leaves in the file of the key, if it gets that far. -/
def left (key : Bytes) : Staging → Option Bytes
  | .failed => none
  | .torn written => some (key.take written)
  | .unfinished => some key
  | .done => some key

/-- The nodes up to the first on which something fails. -/
def reached : List Text → List Text
  | [] => []
  | name :: names =>
      name :: if world.staging name = .done ∧ world.upgraded name = true then reached names
        else []

/-- What is written on a node is what it holds, or it holds none and it is not a key other
than the operator's. -/
def KeyWelcome : Prop :=
  ∀ key, stagedKey fields world = some key → ∀ name ∈ reached world (nodeNames world),
    ∀ bytes, left key (world.staging name) = some bytes →
      world.held name = some bytes ∨
        world.held name = none ∧ ∀ operator, world.config.operatorKey = some operator →
          bytes = operator

structure KeysWelcome : Prop where
  welcomeFirst : KeyWelcome first world
  welcomeSecond : KeyWelcome second world
  same : DifferOnlyInKey first second world → ∀ name ∈ reached world (nodeNames world),
    world.held name = none →
      (stagedKey first world).bind (left · (world.staging name)) =
        (stagedKey second world).bind (left · (world.staging name))

end Claim

/-! ## The proof -/

section Proof

variable {fields first second : List Field} {world : World}

theorem ordered_perm (nodes : List NodeRow) : (ordered nodes).Perm nodes := by
  have hsplit : (nodes.filter (·.role ≠ .controlplane) ++
      nodes.filter (·.role = .controlplane)).Perm nodes := by
    have hboth := List.filter_append_perm (fun row : NodeRow => row.role ≠ .controlplane) nodes
    simpa using hboth
  exact ((List.perm_insertionSort _ _).append (List.perm_insertionSort _ _)).trans hsplit

theorem nodeNames_nodup : (nodeNames world).Nodup :=
  ((ordered_perm world.nodes).map NodeRow.name).nodup_iff.mpr world.apart

section Stage

variable {dir : BundleDir} {names : List Text} {name : Text} {anchors : Anchors}

theorem stageOsBundle_ok (anchors : Anchors) :
    (stageOsBundle world dir name anchors).2 =
      ((dirKey world dir).isSome && world.staging name = .done) := by
  unfold stageOsBundle
  cases dirKey world dir with
  | none => rfl
  | some key => cases world.staging name <;> rfl

theorem stageOsBundle_self :
    (stageOsBundle world dir name anchors).1 name =
      ((dirKey world dir).bind (left · (world.staging name))).or (anchors name) := by
  unfold stageOsBundle
  cases dirKey world dir with
  | none => rfl
  | some key => cases world.staging name <;> simp [left]

/-- The staging on one node leaves the other nodes alone. -/
theorem stageOsBundle_other {other : Text} (hother : other ≠ name) :
    (stageOsBundle world dir name anchors).1 other = anchors other := by
  unfold stageOsBundle
  cases dirKey world dir with
  | none => rfl
  | some key => cases world.staging name <;> simp [hother]

theorem reached_subset : reached world names ⊆ names := by
  induction names with
  | nil => exact List.Subset.refl []
  | cons name names ih =>
      rw [reached]
      refine List.cons_subset_cons name ?_
      split
      · exact ih
      · exact List.nil_subset names

theorem upgradeOsNodes_cons :
    upgradeOsNodes world dir (name :: names) anchors =
      if (dirKey world dir).isSome && world.staging name = .done && world.upgraded name then
        upgradeOsNodes world dir names (stageOsBundle world dir name anchors).1
      else (stageOsBundle world dir name anchors).1 := by
  rw [← stageOsBundle_ok anchors]
  rfl

/-- Induction on the nodes that are left.  As each name is there once, what a node gets is
not written again. -/
theorem upgradeOsNodes_apply (hnodup : names.Nodup) (anchors : Anchors) (name : Text) :
    upgradeOsNodes world dir names anchors name =
      (if name ∈ reached world names then
        (dirKey world dir).bind (left · (world.staging name)) else none).or
        (anchors name) := by
  induction names generalizing anchors with
  | nil => simp [upgradeOsNodes, reached]
  | cons other names ih =>
      obtain ⟨hother, htail⟩ := List.nodup_cons.mp hnodup
      have hrest : other ∉ reached world names := fun hmem => hother (reached_subset hmem)
      rw [upgradeOsNodes_cons, reached]
      by_cases hsame : name = other
      · subst hsame
        rw [if_pos List.mem_cons_self, ← stageOsBundle_self]
        split
        · rw [ih htail, if_neg hrest, Option.none_or]
        · rfl
      · have hkept : (stageOsBundle world dir other anchors).1 name = anchors name :=
          stageOsBundle_other hsame
        simp only [List.mem_cons, hsame, false_or]
        cases hkey : dirKey world dir with
        | none => simp [hkept]
        | some key =>
            by_cases hgoes : world.staging other = .done ∧ world.upgraded other = true
            · simp [hgoes, ih htail, hkept, hkey]
            · rw [if_neg hgoes, if_neg List.not_mem_nil, Option.none_or, ← hkept, if_neg]
              simpa using hgoes

end Stage

theorem runUpgradeOs_apply (fields : List Field) (world : World) (name : Text) :
    runUpgradeOs fields world name =
      (if name ∈ reached world (nodeNames world) then
        (stagedKey fields world).bind (left · (world.staging name)) else none).or
        (world.held name) := by
  unfold runUpgradeOs stagedKey
  cases bundleDir fields world with
  | none => simp
  | some dir =>
      cases world.proceeds with
      | false => simp
      | true => exact upgradeOsNodes_apply nodeNames_nodup world.held name

theorem keepsAnchor_iff : KeepsAnchor fields world ↔ KeyWelcome fields world := by
  constructor
  · intro hkeeps key hkey name hname bytes hbytes
    have hafter : runUpgradeOs fields world name = some bytes := by
      rw [runUpgradeOs_apply, if_pos hname, hkey, Option.bind_some, hbytes, Option.some_or]
    cases hheld : world.held name with
    | some before =>
        have hbefore := hkeeps.held name before hheld
        exact .inl (hbefore.symm.trans hafter)
    | none =>
        refine .inr ⟨rfl, fun operator hoperator => ?_⟩
        rcases hkeeps.installed name operator hheld hoperator with hnone | hsome
        · simp [hafter] at hnone
        · simpa [hafter] using hsome
  · intro hwelcome
    have hafter : ∀ name, runUpgradeOs fields world name = world.held name ∨
        world.held name = none ∧ ∀ operator, world.config.operatorKey = some operator →
          runUpgradeOs fields world name = some operator := by
      intro name
      rw [runUpgradeOs_apply]
      split
      next hname =>
        cases hkey : stagedKey fields world with
        | none => exact .inl rfl
        | some key =>
            cases hleft : left key (world.staging name) with
            | none => exact .inl (by simp [hleft])
            | some bytes =>
                simp only [Option.bind_some, hleft, Option.some_or]
                rcases hwelcome key hkey name hname bytes hleft with hsame | ⟨hnone, honly⟩
                · exact .inl hsame.symm
                · exact .inr ⟨hnone, fun operator hoperator => by
                    rw [honly operator hoperator]⟩
      next => exact .inl rfl
    refine ⟨fun name key hheld => ?_, fun name key hheld hoperator => ?_⟩
    · rcases hafter name with hsame | ⟨hnone, -⟩
      · rw [hsame, hheld]
      · simp [hheld] at hnone
    · rcases hafter name with hsame | ⟨-, honly⟩
      · exact .inl (hsame.trans hheld)
      · exact .inr (honly key hoperator)

/-- Two archives that differ only in the key leave the trust anchors of all nodes as they
were, and equal, if and only if what each writes on a node is what the node holds, or the
node holds none and it is the operator's key where there is one, and both write the same
where none is held. -/
theorem anchorsKept_iff :
    AnchorsKept first second world ↔ KeysWelcome first second world := by
  constructor
  · rintro ⟨hfirst, hsecond, hequal⟩
    refine ⟨keepsAnchor_iff.mp hfirst, keepsAnchor_iff.mp hsecond, ?_⟩
    intro hdiffer name hname hnone
    have hsame := congrFun (hequal hdiffer) name
    rwa [runUpgradeOs_apply, runUpgradeOs_apply, if_pos hname, if_pos hname, hnone,
      Option.or_none, Option.or_none] at hsame
  · rintro ⟨hfirst, hsecond, hsame⟩
    have hkeptFirst := keepsAnchor_iff.mpr hfirst
    have hkeptSecond := keepsAnchor_iff.mpr hsecond
    refine ⟨hkeptFirst, hkeptSecond, fun hdiffer => funext fun name => ?_⟩
    cases hheld : world.held name with
    | some key => rw [hkeptFirst.held name key hheld, hkeptSecond.held name key hheld]
    | none =>
        rw [runUpgradeOs_apply, runUpgradeOs_apply, hheld, Option.or_none, Option.or_none]
        split
        next hname => exact hsame hdiffer name hname hheld
        next => rfl

end Proof

def member (name : String) (bytes : Bytes) : Entry where
  isFile := true
  base := some name.toList
  bytes := bytes
  opened := true
  copied := true

def signedArchive (key : Bytes) : Field :=
  .archive [member "bzImage" [1], member "initramfs-amd64.cpio.gz" [1],
    member "manifest.json" [1], member "manifest.sig" [1], member "os-trust.pk" key]

/-- One node, on which everything succeeds and which holds a key already. -/
def enrolled : World where
  parse := fun _ => some "0.2.87".toList
  archMatches := fun _ => true
  earlier := []
  config := { osTrustPk := some [7], etcTrustPk := none }
  proceeds := true
  nodes := [{ id := 1, name := "lab-cp-1".toList, role := .controlplane, ip := none }]
  apart := List.nodup_singleton _
  held := fun _ => some [7]
  staging := fun _ => .done
  upgraded := fun _ => true

/-- The archive's key replaces the operator's, which the node holds. -/
theorem anchor_replaced : ¬ ∀ first second world, AnchorsKept first second world := by
  intro hclaim
  have hkept := (hclaim [signedArchive [8]] [signedArchive [9]] enrolled).keptFirst.held
    "lab-cp-1".toList [7] rfl
  have hreplaced : runUpgradeOs [signedArchive [8]] enrolled "lab-cp-1".toList = some [8] := by
    decide +kernel
  rw [hreplaced] at hkept
  exact absurd hkept (by decide)

end PertiskKos.TrustKey
