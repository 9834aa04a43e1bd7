import PertiskKos.Disk.Plan

/-!
# Growing EPHEMERAL

After the disk has become longer the entry of EPHEMERAL is deleted and made again, from the
same start to the end of the free block.  Each command may fail; what the kernel shows of the
table is what it read last.
-/

namespace PertiskKos.Disk

open Strings

/-- A disk with its table, the entries the kernel has read, and how often `sgdisk` has
written. -/
structure DiskState where
  sectors : Nat
  gpt : Gpt
  seen : List PartEntry
  writes : Nat
  deriving DecidableEq

/-- How the reads and the commands of one call turn out, and after which of the writes
`sgdisk` gets the kernel to read the table again. -/
structure Outcomes where
  resolved : Bool
  readSectors : Bool
  readStart : Bool
  readSize : Bool
  moveBackup : Bool
  delete : Bool
  create : Bool
  rereadMove : Bool
  rereadDelete : Bool
  rereadCreate : Bool
  probe : Bool
  reprobe : Bool
  deriving DecidableEq

section Code

def saturatingAdd (a b : Nat) : Nat := min (a + b) (2 ^ 64 - 1)

/-- What `/sys/class/block` shows of a partition. -/
def DiskState.shown (disk : DiskState) (number : Nat) : Option PartEntry :=
  disk.seen.find? (·.number = number)

def DiskState.reread (disk : DiskState) (succeeds : Bool) : DiskState :=
  if succeeds then { disk with seen := disk.gpt.entries } else disk

def DiskState.write (disk : DiskState) (gpt : Gpt) (reread : Bool) : DiskState :=
  DiskState.reread { disk with gpt, writes := disk.writes + 1 } reread

def PartEntry.size (entry : PartEntry) : Nat := entry.last + 1 - entry.start

/-- The partition ends within 2048 sectors of what is taken for the usable end. -/
def alreadyFull (sectors start size : Nat) : Bool :=
  let usableEnd := sectors - 2048
  let partEnd := saturatingAdd start size
  usableEnd ≤ (partEnd + 2048) % 2 ^ 64

def Outcomes.reads (outcomes : Outcomes) : Bool :=
  outcomes.resolved && outcomes.readSectors && outcomes.readStart && outcomes.readSize

/-- Expand the partition to the end of the disk; true when it has been made again. -/
def growEphemeralPartition (disk : DiskState) (number : Nat) (outcomes : Outcomes) :
    DiskState × Bool :=
  match disk.shown number with
  | none => (disk, false)
  | some part =>
      if !outcomes.reads then (disk, false)
      else if alreadyFull disk.sectors part.start part.size then (disk, false)
      else if !outcomes.moveBackup then (disk, false)
      else
        let moved := disk.write (disk.gpt.moveBackup disk.sectors) outcomes.rereadMove
        if !outcomes.delete then (moved, false)
        else
          let deleted := moved.write (moved.gpt.delete number) outcomes.rereadDelete
          if !outcomes.create then (deleted, false)
          else
            let created := deleted.write (deleted.gpt.fill number part.start "8300".toList
              partlabelEphemeral) outcomes.rereadCreate
            let probed := created.reread outcomes.probe
            -- the second `partprobe` runs if the size of the partition can still be read
            (probed.reread ((probed.shown number).isSome && outcomes.reprobe), true)

end Code

section Commands

variable {disk : DiskState} {number : Nat} {part : PartEntry} {outcomes : Outcomes}

@[simp] theorem reread_gpt (disk : DiskState) (succeeds : Bool) :
    (disk.reread succeeds).gpt = disk.gpt := by
  cases succeeds <;> rfl

@[simp] theorem reread_writes (disk : DiskState) (succeeds : Bool) :
    (disk.reread succeeds).writes = disk.writes := by
  cases succeeds <;> rfl

@[simp] theorem reread_sectors (disk : DiskState) (succeeds : Bool) :
    (disk.reread succeeds).sectors = disk.sectors := by
  cases succeeds <;> rfl

@[simp] theorem write_gpt (disk : DiskState) (gpt : Gpt) (reread : Bool) :
    (disk.write gpt reread).gpt = gpt := reread_gpt _ _

@[simp] theorem write_writes (disk : DiskState) (gpt : Gpt) (reread : Bool) :
    (disk.write gpt reread).writes = disk.writes + 1 := reread_writes _ _

@[simp] theorem write_sectors (disk : DiskState) (gpt : Gpt) (reread : Bool) :
    (disk.write gpt reread).sectors = disk.sectors := reread_sectors _ _

def Gpt.entry (gpt : Gpt) (number : Nat) : Option PartEntry :=
  gpt.entries.find? (·.number = number)

@[simp] theorem shown_reread (disk : DiskState) (succeeds : Bool) (number : Nat) :
    (disk.reread succeeds).shown number =
      if succeeds then disk.gpt.entry number else disk.shown number := by
  cases succeeds <;> rfl

@[simp] theorem shown_write (disk : DiskState) (gpt : Gpt) (reread : Bool) (number : Nat) :
    (disk.write gpt reread).shown number =
      if reread then gpt.entry number else disk.shown number := by
  cases reread <;> rfl

/-- The call gets past the reads, the test and the first command. -/
def Starts (sectors : Nat) (part : PartEntry) (outcomes : Outcomes) : Prop :=
  outcomes.reads = true ∧ alreadyFull sectors part.start part.size = false ∧
    outcomes.moveBackup = true

instance (sectors : Nat) (part : PartEntry) (outcomes : Outcomes) :
    Decidable (Starts sectors part outcomes) :=
  inferInstanceAs (Decidable (_ ∧ _))

/-- What three commands make of the table. -/
def regrown (disk : DiskState) (number start : Nat) : Gpt :=
  ((disk.gpt.moveBackup disk.sectors).delete number).fill number start "8300".toList
    partlabelEphemeral

theorem grow_of_not_starts (hstarts : ∀ part, disk.shown number = some part →
    ¬ Starts disk.sectors part outcomes) :
    growEphemeralPartition disk number outcomes = (disk, false) := by
  rw [growEphemeralPartition]
  cases hshown : disk.shown number with
  | none => rfl
  | some part =>
      have hnot := hstarts part hshown
      dsimp only
      by_cases hreads : outcomes.reads = true
      · by_cases hfull : alreadyFull disk.sectors part.start part.size = true
        · simp [hreads, hfull]
        · have hmove : outcomes.moveBackup = false := by
            by_contra h
            exact hnot ⟨hreads, by simpa using hfull, by simpa using h⟩
          simp [hreads, hfull, hmove]
      · simp [hreads]

/-- Once it has started the call has written the table. -/
theorem grow_of_starts (hshown : disk.shown number = some part)
    (hstarts : Starts disk.sectors part outcomes) :
    (growEphemeralPartition disk number outcomes).2 = (outcomes.delete && outcomes.create) ∧
      disk.writes < (growEphemeralPartition disk number outcomes).1.writes ∧
      (growEphemeralPartition disk number outcomes).1.gpt =
        if outcomes.delete then
          if outcomes.create then regrown disk number part.start
          else (disk.gpt.moveBackup disk.sectors).delete number
        else disk.gpt.moveBackup disk.sectors := by
  obtain ⟨hreads, hfull, hmove⟩ := hstarts
  rw [growEphemeralPartition, hshown]
  simp only [hreads, hfull, hmove, Bool.not_true, Bool.false_eq_true, if_false]
  cases outcomes.delete with
  | false => exact ⟨rfl, by simp, by simp⟩
  | true =>
      cases outcomes.create with
      | false =>
          refine ⟨rfl, ?_, by simp⟩
          simp only [write_writes, Bool.not_true, Bool.false_eq_true, if_false, Bool.not_false,
            if_true]
          omega
      | true =>
          refine ⟨rfl, ?_, by simp [regrown]⟩
          simp only [reread_writes, write_writes, Bool.not_true, Bool.false_eq_true, if_false]
          omega

end Commands

section Kept

/-- A table with an entry of EPHEMERAL on an alignment boundary.  A block device has fewer
than `2 ^ 54` sectors. -/
structure Layout where
  gpt : Gpt
  entry : PartEntry
  mem : entry ∈ gpt.entries
  label : entry.label = partlabelEphemeral
  aligned : entry.start % alignment = 0
  numbers : gpt.entries.Pairwise fun first second => first.number ≠ second.number
  apart : gpt.entries.Pairwise fun first second =>
    first.last < second.start ∨ second.last < first.start
  ordered : ∀ entry ∈ gpt.entries, entry.start ≤ entry.last
  small : entry.last < 2 ^ 54

variable (layout : Layout) (sectors : Nat) (first second : Outcomes)

/-- The kernel has read the table; the disk may have any length by now. -/
def Layout.booted : DiskState where
  sectors := sectors
  gpt := layout.gpt
  seen := layout.gpt.entries
  writes := 0

/-- The entry once it has been made again. -/
def Layout.grown : PartEntry where
  number := layout.entry.number
  typecode := "8300".toList
  label := partlabelEphemeral
  start := layout.entry.start
  last := ((layout.gpt.moveBackup sectors).delete layout.entry.number).freeLast layout.entry.start

/-- EPHEMERAL is still there, no shorter than it was, and so is everything else. -/
def Kept (gpt : Gpt) : Prop :=
  (∃ entry ∈ gpt.entries, entry.number = layout.entry.number ∧
    entry.label = partlabelEphemeral ∧ entry.start = layout.entry.start ∧
    layout.entry.last ≤ entry.last) ∧
  gpt.entries.filter (·.number ≠ layout.entry.number) =
    layout.gpt.entries.filter (·.number ≠ layout.entry.number)

variable {layout sectors first second}

theorem entry_deleted (gpt : Gpt) (number : Nat) : (gpt.delete number).entry number = none := by
  simp [Gpt.entry, Gpt.delete]

end Kept

/-- The table of a disk of 8 GiB. -/
def layoutOf8Gib : Layout where
  gpt := {
    entries := [⟨1, "EF00".toList, "EFI".toList, 2048, 1050623⟩,
      ⟨2, "8300".toList, "BOOT_A".toList, 1050624, 2623487⟩,
      ⟨3, "8300".toList, "BOOT_B".toList, 2623488, 4196351⟩,
      ⟨4, "8300".toList, "META".toList, 4196352, 4261887⟩,
      ⟨5, "8300".toList, "STATE".toList, 4261888, 6359039⟩,
      ⟨6, "8300".toList, partlabelEphemeral, 6359040, 16775167⟩]
    lastUsable := 16777182 }
  entry := ⟨6, "8300".toList, partlabelEphemeral, 6359040, 16775167⟩
  mem := by decide
  label := rfl
  aligned := by decide
  numbers := by decide
  apart := by decide
  ordered := by decide
  small := by decide

end PertiskKos.Disk
