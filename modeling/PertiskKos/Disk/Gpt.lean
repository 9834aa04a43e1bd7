import PertiskKos.Library.Strings

/-!
# GUID partition tables

A table has entries and a last sector that an entry may use; sectors have 512 bytes.  The
commands of `sgdisk` do what its manual says: one without a start places an entry at the next
aligned sector after the others, one without an end fills the free block it starts in.
-/

namespace PertiskKos.Disk

open Strings

/-- The number of sectors that partitions are aligned to. -/
def alignment : Nat := 2048

/-- The backup of the table takes the last 33 sectors. -/
def backupSectors : Nat := 33

structure PartEntry where
  number : Nat
  typecode : Text
  label : Text
  start : Nat
  last : Nat
  deriving DecidableEq

structure Gpt where
  entries : List PartEntry
  lastUsable : Nat
  deriving DecidableEq

namespace Gpt

variable {gpt : Gpt} {number start : Nat}

def alignUp (sector : Nat) : Nat := (sector + (alignment - 1)) / alignment * alignment

/-- `-o` on a disk of so many sectors: the last usable one is before the backup. -/
def clear (sectors : Nat) : Gpt where
  entries := []
  lastUsable := sectors - backupSectors - 1

/-- `-e`: the backup of the table goes to the end of the disk. -/
def moveBackup (gpt : Gpt) (sectors : Nat) : Gpt :=
  { gpt with lastUsable := sectors - backupSectors - 1 }

/-- `-d number` -/
def delete (gpt : Gpt) (number : Nat) : Gpt :=
  { gpt with entries := gpt.entries.filter (·.number ≠ number) }

/-- The first sector after the entries; the main table takes the first 34. -/
def nextStart (gpt : Gpt) : Nat :=
  alignUp (match gpt.entries.getLast? with
    | some previous => previous.last + 1
    | none => 34)

/-- `-n number:0:+mibM -t number:typecode -c number:label` -/
def append (gpt : Gpt) (number mib : Nat) (typecode label : Text) : Gpt :=
  let start := gpt.nextStart
  let last := start + mib * 2048 - 1
  { gpt with entries := gpt.entries ++ [{ number, typecode, label, start, last }] }

/-- The last sector of the free block around a free sector. -/
def freeLast (gpt : Gpt) (start : Nat) : Nat :=
  (gpt.entries.filter (start < ·.start)).foldl (fun last next => min last (next.start - 1))
    gpt.lastUsable

/-- `-n number:start:0 -t number:typecode -c number:label` -/
def fill (gpt : Gpt) (number start : Nat) (typecode label : Text) : Gpt :=
  let start := alignUp start
  let last := gpt.freeLast start
  { gpt with entries := gpt.entries ++ [{ number, typecode, label, start, last }] }

theorem alignUp_eq {sector : Nat} (haligned : sector % alignment = 0) :
    alignUp sector = sector := by
  rw [alignment] at haligned
  rw [alignUp, alignment]
  omega

/-- The entries stand in order and end on an alignment boundary, so many MiB after the
first one. -/
structure Packed (gpt : Gpt) (total : Nat) : Prop where
  next : gpt.nextStart = (total + 1) * 2048
  below : ∀ entry ∈ gpt.entries, entry.last < (total + 1) * 2048
  ordered : gpt.entries.Pairwise fun first second => first.last < second.start

theorem packed_clear (sectors : Nat) : (clear sectors).Packed 0 where
  next := by simp [nextStart, clear, alignUp, alignment]
  below := by simp [clear]
  ordered := .nil

theorem append_entries (gpt : Gpt) (number size : Nat) (typecode label : Text) :
    (gpt.append number size typecode label).entries =
      gpt.entries ++ [⟨number, typecode, label, gpt.nextStart,
        gpt.nextStart + size * 2048 - 1⟩] := rfl

theorem Packed.append {total : Nat} (hpacked : gpt.Packed total) {size : Nat} (hsize : 0 < size)
    (number : Nat) (typecode label : Text) :
    (gpt.append number size typecode label).Packed (total + size) where
  next := by
    rw [nextStart, append_entries]
    simp only [List.getLast?_concat, hpacked.next, alignUp, alignment]
    omega
  below := by
    intro entry hentry
    rw [append_entries, List.mem_append] at hentry
    rcases hentry with hold | hnew
    · have hend : (total + 1) * 2048 ≤ (total + size + 1) * 2048 :=
        Nat.mul_le_mul_right 2048 (by omega)
      exact Nat.lt_of_lt_of_le (hpacked.below entry hold) hend
    · rw [List.mem_singleton] at hnew
      subst hnew
      dsimp only
      rw [hpacked.next]
      omega
  ordered := by
    rw [append_entries]
    refine List.pairwise_append.mpr ⟨hpacked.ordered, List.pairwise_singleton _ _, ?_⟩
    intro old hold new hnew
    rw [List.mem_singleton] at hnew
    subst hnew
    rw [hpacked.next]
    exact hpacked.below old hold

end Gpt

end PertiskKos.Disk
