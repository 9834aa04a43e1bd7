import PertiskKos.Library.Fallible

/-!
# What an update reads and writes

The data of the update crate: the boot metadata on STATE, the slot directories
on STATE, the EFI system partition, and the sites at which an operation on them
can fail.  Paths are fields: `bootMeta` is `boot-meta.json`, `slots` is the
directory `slots/`, the fields of `Esp` are the paths `EspPaths` names.
-/

namespace PertiskKos.Update

open PertiskKos.Fallible

abbrev Bytes := List UInt8

inductive BootSlot where
  | A
  | B
  deriving DecidableEq, Repr

namespace BootSlot

def other : BootSlot → BootSlot
  | A => B
  | B => A

def asStr : BootSlot → String
  | A => "A"
  | B => "B"

/-- `as_str().to_lowercase()`, the spelling used in entry and image names. -/
def lower : BootSlot → String
  | A => "a"
  | B => "b"

@[simp]
theorem other_other (slot : BootSlot) : slot.other.other = slot := by
  cases slot <;> rfl

@[simp]
theorem other_ne (slot : BootSlot) : slot.other ≠ slot := by
  cases slot <;> decide

@[simp]
theorem ne_other (slot : BootSlot) : slot ≠ slot.other :=
  (other_ne slot).symm

theorem eq_other_of_ne {left right : BootSlot} (hne : left ≠ right) :
    left = right.other := by
  cases left <;> cases right <;> simp_all [other]

end BootSlot

/-- `MAX_BOOT_ATTEMPTS`. -/
def maxBootAttempts : ℕ := 3

/-- `u32::saturating_add(1)`. -/
def saturatingSucc (attempts : ℕ) : ℕ := min (attempts + 1) (2 ^ 32 - 1)

structure BootMeta where
  active : BootSlot
  /-- Slot to boot on next reboot (may equal `active`). -/
  next : BootSlot
  /-- Previous known-good slot for rollback. -/
  previousGood : BootSlot
  bootAttempts : ℕ
  bootOk : Bool
  pendingVersion : Option String
  activeVersion : Option String
  deriving DecidableEq, Repr

/-- `BootMeta::default`; `release` is the crate's `release_version()`. -/
def BootMeta.default (release : String) : BootMeta where
  active := .A
  next := .A
  previousGood := .A
  bootAttempts := 0
  bootOk := true
  pendingVersion := none
  activeVersion := some release

/-- A directory of artifacts, by file name. -/
abbrev SlotDir := String → File Bytes

def emptyDir : SlotDir := fun _ => .absent

/-- The mounted EFI system partition. -/
structure Esp where
  /-- `loader/loader.conf` -/
  loaderConf : File String
  /-- `loader/entries/pertisk-<slot>.conf` -/
  entry : BootSlot → File String
  /-- `pertisk/<SLOT>/` -/
  slotImage : BootSlot → SlotDir
  /-- `EFI/Linux/pertisk-<slot>.efi` -/
  slotUki : BootSlot → File Bytes
  /-- `EFI/BOOT/BOOT*.EFI` -/
  bootEfi : File Bytes
  /-- `EFI/systemd/systemd-boot*.efi` -/
  systemdEfi : File Bytes
  /-- `.bootstrap-slot` -/
  staging : Option SlotDir

/-- Everything an update touches.  `esp` is what `EspPaths::discover` finds. -/
structure Disk where
  bootMeta : File BootMeta
  slots : BootSlot → Option SlotDir
  esp : Option Esp
  /-- `os-trust.pk` on STATE -/
  trustKey : File Bytes

namespace Disk

def putMeta (file : File BootMeta) (disk : Disk) : Disk :=
  { disk with bootMeta := file }

def putSlot (slot : BootSlot) (dir : Option SlotDir) (disk : Disk) : Disk :=
  { disk with slots := Function.update disk.slots slot dir }

/-- `slots/<slot>`; nothing exists below a directory that does not exist. -/
def slotDir (slot : BootSlot) (disk : Disk) : SlotDir :=
  (disk.slots slot).getD emptyDir

def putSlotFile (slot : BootSlot) (name : String) (file : File Bytes)
    (disk : Disk) : Disk :=
  disk.putSlot slot (some (Function.update (disk.slotDir slot) name file))

def onEsp (act : Esp → Esp) (disk : Disk) : Disk :=
  { disk with esp := disk.esp.map act }

@[simp]
theorem putMeta_bootMeta (file : File BootMeta) (disk : Disk) :
    (disk.putMeta file).bootMeta = file := rfl

@[simp]
theorem putMeta_slots (file : File BootMeta) (disk : Disk) :
    (disk.putMeta file).slots = disk.slots := rfl

@[simp]
theorem putMeta_esp (file : File BootMeta) (disk : Disk) :
    (disk.putMeta file).esp = disk.esp := rfl

@[simp]
theorem putSlot_bootMeta (slot : BootSlot) (dir : Option SlotDir) (disk : Disk) :
    (disk.putSlot slot dir).bootMeta = disk.bootMeta := rfl

@[simp]
theorem putSlot_esp (slot : BootSlot) (dir : Option SlotDir) (disk : Disk) :
    (disk.putSlot slot dir).esp = disk.esp := rfl

@[simp]
theorem onEsp_bootMeta (act : Esp → Esp) (disk : Disk) :
    (disk.onEsp act).bootMeta = disk.bootMeta := rfl

@[simp]
theorem onEsp_slots (act : Esp → Esp) (disk : Disk) :
    (disk.onEsp act).slots = disk.slots := rfl

@[simp]
theorem putSlot_putSlot (slot : BootSlot) (first second : Option SlotDir)
    (disk : Disk) :
    (disk.putSlot slot first).putSlot slot second = disk.putSlot slot second := by
  simp [putSlot]

@[simp]
theorem slotDir_putSlot_some (slot : BootSlot) (dir : SlotDir) (disk : Disk) :
    (disk.putSlot slot (some dir)).slotDir slot = dir := by
  simp [slotDir, putSlot]

/-- Writing a file of a directory that is there. -/
theorem putSlotFile_putSlot (slot : BootSlot) (dir : SlotDir) (name : String)
    (file : File Bytes) (disk : Disk) :
    (disk.putSlot slot (some dir)).putSlotFile slot name file =
      disk.putSlot slot (some (Function.update dir name file)) := by
  rw [putSlotFile, slotDir_putSlot_some, putSlot_putSlot]

end Disk

/-- Which write of `boot-meta.json` a save is: the default that `load` seeds, or
the record an operation ends with. -/
inductive SavePhase where
  | seed
  | record
  deriving DecidableEq, Repr

/-- The fallible operations of the update crate. -/
inductive Site where
  | readManifest
  | readSignature
  | readTrustKey
  | hashArtifact (name : String)
  | readMeta
  | makeStateRoot (phase : SavePhase)
  | writeMeta (phase : SavePhase)
  | clearSlot
  | makeSlot
  | makeArtifactDir (name : String)
  | copyArtifact (name : String)
  | copyManifest
  | copySignature
  | makeImageDir
  | makeEntriesDir
  | makeUkiDir
  | copyUki
  | copyClassic (name : String)
  | writeEntry
  | makeLoaderDir
  | writeLoader
  | makeBootDir
  | copyBootEfi
  | makeSystemdDir
  | copySystemdEfi
  | clearStaging
  | makeStaging
  | copyStaging (name : String)
  | removeStaging
  deriving DecidableEq, Repr

/-- The stretches of `apply_bundle`, in the order it goes through them. -/
inductive Phase where
  | verify
  | load
  | stage
  | install
  | flip
  | record
  | bootstrap
  deriving DecidableEq, Repr

def Site.phase : Site → Phase
  | readManifest | readSignature | readTrustKey | hashArtifact _ => .verify
  | readMeta | makeStateRoot .seed | writeMeta .seed => .load
  | clearSlot | makeSlot | makeArtifactDir _ | copyArtifact _ => .stage
  | copyManifest | copySignature => .stage
  | makeImageDir | makeEntriesDir | makeUkiDir | copyUki => .install
  | copyClassic _ | writeEntry => .install
  | makeLoaderDir | writeLoader => .flip
  | makeStateRoot .record | writeMeta .record => .record
  | makeBootDir | copyBootEfi | makeSystemdDir | copySystemdEfi => .bootstrap
  | clearStaging | makeStaging | copyStaging _ | removeStaging => .bootstrap

/-- Nothing goes wrong at a site of this phase. -/
def QuietIn (faults : Faults Site) (phase : Phase) : Prop :=
  ∀ site : Site, site.phase = phase → faults site = none

theorem calm_quietIn (phase : Phase) : QuietIn calm phase := fun _ _ => rfl

theorem only_quietIn {site : Site} {phase : Phase} (hphase : site.phase ≠ phase)
    (fault : Fault) : QuietIn (only site fault) phase := by
  intro other hother
  have hne : other ≠ site := fun heq => hphase (heq ▸ hother)
  simp only [only, if_neg hne]

inductive IoError where
  | notFound
  | failed
  deriving DecidableEq, Repr

end PertiskKos.Update
