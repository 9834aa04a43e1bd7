import PertiskKos.Disk.Gpt

/-!
# The plan of a disk

Five partitions of a fixed size, and the rest of the disk.  The plan is made in bytes, two
MiB less than the disk; it is written in whole MiB.
-/

namespace PertiskKos.Disk

open Strings

@[irreducible] def mib : Nat := 1024 * 1024

def gib : Nat := 1024 * mib

inductive PartitionRole where
  | efi
  | bootA
  | bootB
  | metaPart
  | state
  | ephemeral
  deriving DecidableEq

def partlabelEphemeral : Text := "EPHEMERAL".toList

def PartitionRole.partlabel : PartitionRole → Text
  | .efi => "EFI".toList
  | .bootA => "BOOT_A".toList
  | .bootB => "BOOT_B".toList
  | .metaPart => "META".toList
  | .state => "STATE".toList
  | .ephemeral => partlabelEphemeral

inductive FsType where
  | vfat
  | ext4
  deriving DecidableEq

def PartitionRole.name : PartitionRole → Text
  | .efi => "Efi".toList
  | .bootA => "BootA".toList
  | .bootB => "BootB".toList
  | .metaPart => "Meta".toList
  | .state => "State".toList
  | .ephemeral => "Ephemeral".toList

/-- Without a size the partition takes what is left. -/
structure PartitionSpec where
  role : PartitionRole
  size : Option Nat
  fstype : FsType
  deriving DecidableEq

structure DiskPlan where
  diskSize : Nat
  partitions : List PartitionSpec
  deriving DecidableEq

inductive PlanError where
  | tooSmall (diskSize minimum : Nat)
  /-- A sum does not fit in 64 bits. -/
  | overflow
  deriving DecidableEq

section Plan

def defaultFixedPartitions : List PartitionSpec :=
  [⟨.efi, some (512 * mib), .vfat⟩, ⟨.bootA, some (768 * mib), .ext4⟩,
    ⟨.bootB, some (768 * mib), .ext4⟩, ⟨.metaPart, some (32 * mib), .ext4⟩,
    ⟨.state, some gib, .ext4⟩, ⟨.ephemeral, none, .ext4⟩]

def add64 (a b : Nat) : Except PlanError Nat :=
  if a + b < 2 ^ 64 then .ok (a + b) else .error .overflow

def fixedSize (partitions : List PartitionSpec) : Except PlanError Nat :=
  (partitions.filterMap (·.size)).foldlM add64 0

def minimumDiskSize : Except PlanError Nat := do
  let fixed ← fixedSize defaultFixedPartitions
  let withEphemeral ← add64 fixed (256 * mib)
  add64 withEphemeral (2 * mib)

def planDisk (diskSize : Nat) : Except PlanError DiskPlan := do
  let min ← minimumDiskSize
  if diskSize < min then .error (.tooSmall diskSize min)
  else
    let fixed ← fixedSize defaultFixedPartitions
    let taken ← add64 fixed (2 * mib)
    let remaining := diskSize - taken
    pure ⟨diskSize, defaultFixedPartitions.map fun part =>
      { part with size := some (part.size.getD remaining) }⟩

def typecode : PartitionRole → Text
  | .efi => "EF00".toList
  | _ => "8300".toList

def divCeil (n d : Nat) : Nat := if n % d > 0 then n / d + 1 else n / d

/-- One run of `sgdisk` for each partition. -/
def writePartition (gpt : Gpt) (request : PartitionSpec × Nat) :
    Except Text Gpt :=
  match request.1.size with
  | none => .error ("partition ".toList ++ request.1.role.name ++ " missing size".toList)
  | some size =>
      .ok (gpt.append (request.2 + 1) (divCeil size mib) (typecode request.1.role)
        request.1.role.partlabel)

/-- The table on a disk that holds as many whole sectors as fit. -/
def writeGptSgdisk (plan : DiskPlan) : Except Text Gpt :=
  plan.partitions.zipIdx.foldlM writePartition (Gpt.clear (plan.diskSize / 512))

end Plan

section Fits

variable {diskSize : Nat}

theorem mib_eq : mib = 1048576 := by
  rw [mib]

theorem ok_bind {E A B : Type} (value : A) (next : A → Except E B) :
    (Except.ok value >>= next) = next value := rfl

theorem minimumDiskSize_eq : minimumDiskSize = .ok (3362 * mib) := by
  decide +kernel

theorem fixedSize_eq : fixedSize defaultFixedPartitions = .ok (3104 * mib) := by
  decide +kernel

theorem add64_allowance : add64 (3104 * mib) (2 * mib) = .ok (3106 * mib) := by
  decide +kernel

/-- The partitions once the last one has a size. -/
def sized (remaining : Nat) : List PartitionSpec :=
  defaultFixedPartitions.map fun part =>
    { part with size := some (part.size.getD remaining) }

theorem planDisk_of {min fixed taken : Nat} (hmin : minimumDiskSize = .ok min)
    (hfixed : fixedSize defaultFixedPartitions = .ok fixed)
    (htaken : add64 fixed (2 * mib) = .ok taken) (diskSize : Nat) :
    planDisk diskSize =
      if diskSize < min then .error (.tooSmall diskSize min)
      else .ok ⟨diskSize, sized (diskSize - taken)⟩ := by
  rw [planDisk, hmin, hfixed, ok_bind, ok_bind, htaken, ok_bind]
  rfl

/-- What the five partitions and the allowance leave is the size of the sixth. -/
theorem planDisk_eq (diskSize : Nat) :
    planDisk diskSize =
      if diskSize < 3362 * mib then .error (.tooSmall diskSize (3362 * mib))
      else .ok ⟨diskSize, sized (diskSize - 3106 * mib)⟩ :=
  planDisk_of minimumDiskSize_eq fixedSize_eq add64_allowance diskSize

/-- One partition after the other. -/
def writeAll (gpt : Gpt) (specs : List ((PartitionRole × Nat × FsType) × Nat)) : Gpt :=
  specs.foldl (fun gpt spec => gpt.append (spec.2 + 1) (divCeil spec.1.2.1 mib)
    (typecode spec.1.1) spec.1.1.partlabel) gpt

/-- Partitions that have a size are all written. -/
theorem foldlM_writePartition (gpt : Gpt) (index : Nat)
    (specs : List (PartitionRole × Nat × FsType)) :
    ((specs.map fun spec => PartitionSpec.mk spec.1 (some spec.2.1) spec.2.2).zipIdx
        index).foldlM writePartition gpt = .ok (writeAll gpt (specs.zipIdx index)) := by
  induction specs generalizing gpt index with
  | nil => rfl
  | cons spec specs ih =>
      rw [List.map_cons, List.zipIdx_cons, List.foldlM_cons, List.zipIdx_cons, writeAll,
        List.foldl_cons]
      exact ih _ _

theorem packed_writeAll {gpt : Gpt} {total : Nat} (hpacked : gpt.Packed total)
    {specs : List ((PartitionRole × Nat × FsType) × Nat)}
    (hsizes : ∀ spec ∈ specs, 0 < divCeil spec.1.2.1 mib) :
    (writeAll gpt specs).Packed (total + (specs.map fun spec => divCeil spec.1.2.1 mib).sum) := by
  induction specs generalizing gpt total with
  | nil => exact hpacked
  | cons spec specs ih =>
      have hfirst := hpacked.append (hsizes spec List.mem_cons_self) (spec.2 + 1)
        (typecode spec.1.1) spec.1.1.partlabel
      rw [List.map_cons, List.sum_cons, ← Nat.add_assoc]
      exact ih hfirst fun other hother => hsizes other (List.mem_cons_of_mem _ hother)

def fixedSpecs : List (PartitionRole × Nat × FsType) :=
  [(.efi, 512 * mib, .vfat), (.bootA, 768 * mib, .ext4), (.bootB, 768 * mib, .ext4),
    (.metaPart, 32 * mib, .ext4), (.state, gib, .ext4)]

theorem packed_fixedSpecs (sectors : Nat) :
    (writeAll (Gpt.clear sectors) fixedSpecs.zipIdx).Packed 3104 := by
  have hsum : 0 + (fixedSpecs.zipIdx.map fun spec => divCeil spec.1.2.1 mib).sum = 3104 := by
    decide +kernel
  exact hsum ▸ packed_writeAll (Gpt.packed_clear sectors) (by decide +kernel)

theorem map_getD (efi bootA bootB metaPart state remaining : Nat) :
    [PartitionSpec.mk .efi (some efi) .vfat, ⟨.bootA, some bootA, .ext4⟩,
      ⟨.bootB, some bootB, .ext4⟩, ⟨.metaPart, some metaPart, .ext4⟩,
      ⟨.state, some state, .ext4⟩, ⟨.ephemeral, none, .ext4⟩].map
        (fun part => { part with size := some (part.size.getD remaining) }) =
      ([(PartitionRole.efi, efi, FsType.vfat), (.bootA, bootA, .ext4), (.bootB, bootB, .ext4),
        (.metaPart, metaPart, .ext4), (.state, state, .ext4)] ++
        [(PartitionRole.ephemeral, remaining, FsType.ext4)]).map
        fun spec => PartitionSpec.mk spec.1 (some spec.2.1) spec.2.2 := rfl

theorem sized_eq (remaining : Nat) :
    sized remaining = (fixedSpecs ++ [(PartitionRole.ephemeral, remaining, FsType.ext4)]).map
      fun spec => PartitionSpec.mk spec.1 (some spec.2.1) spec.2.2 := by
  rw [sized, defaultFixedPartitions, fixedSpecs]
  exact map_getD (512 * mib) (768 * mib) (768 * mib) (32 * mib) gib remaining

theorem writeAll_concat (gpt : Gpt) (specs : List (PartitionRole × Nat × FsType))
    (role : PartitionRole) (size : Nat) (fstype : FsType) :
    writeAll gpt (specs ++ [(role, size, fstype)]).zipIdx =
      (writeAll gpt specs.zipIdx).append (0 + specs.length + 1) (divCeil size mib)
        (typecode role) role.partlabel := by
  rw [List.zipIdx_append, writeAll, List.foldl_append, List.zipIdx_cons, List.zipIdx_nil,
    List.foldl_cons, List.foldl_nil, writeAll]

/-- The last partition comes after the five others, as long as its size rounds up to. -/
theorem writeGptSgdisk_sized (diskSize remaining : Nat) :
    writeGptSgdisk ⟨diskSize, sized remaining⟩ =
      .ok ((writeAll (Gpt.clear (diskSize / 512)) fixedSpecs.zipIdx).append
        (0 + fixedSpecs.length + 1) (divCeil remaining mib) (typecode .ephemeral)
        PartitionRole.ephemeral.partlabel) := by
  rw [writeGptSgdisk, sized_eq, foldlM_writePartition, writeAll_concat]

/-- The six partitions are apart and before the backup of the table, and the last one has its
256 MiB. -/
structure Fits (diskSize : Nat) (gpt : Gpt) : Prop where
  six : gpt.entries.length = 6
  apart : gpt.entries.Pairwise fun first second => first.last < second.start
  inside : ∀ entry ∈ gpt.entries, entry.last + 34 ≤ diskSize / 512
  ephemeral : ∃ entry ∈ gpt.entries, entry.label = partlabelEphemeral ∧
    256 * mib ≤ (entry.last + 1 - entry.start) * 512

/-- What a plan promises: no sum overflows, and the table it is written to fits the disk. -/
def PlanFits (diskSize : Nat) : Prop :=
  planDisk diskSize ≠ .error .overflow ∧
    ∀ plan, planDisk diskSize = .ok plan → ∃ gpt, writeGptSgdisk plan = .ok gpt ∧ Fits diskSize gpt

theorem length_writeAll (gpt : Gpt) (specs : List ((PartitionRole × Nat × FsType) × Nat)) :
    (writeAll gpt specs).entries.length = gpt.entries.length + specs.length := by
  induction specs generalizing gpt with
  | nil => rfl
  | cons spec specs ih =>
      have hrest := ih (gpt.append (spec.2 + 1) (divCeil spec.1.2.1 mib) (typecode spec.1.1)
        spec.1.1.partlabel)
      rw [Gpt.append_entries, List.length_append, List.length_singleton] at hrest
      rw [List.length_cons, ← Nat.add_assoc, Nat.add_right_comm]
      exact hrest

/-- Six partitions in a row, of which the last has so many MiB. -/
theorem fits_iff {gpt : Gpt} {size : Nat} (hpacked : gpt.Packed 3104)
    (hlength : gpt.entries.length = 5) (hsize : 256 ≤ size) (number : Nat) (typecode : Text) :
    Fits diskSize (gpt.append number size typecode partlabelEphemeral) ↔
      (3105 + size) * 2048 + 33 ≤ diskSize / 512 := by
  have hlast : PartEntry.mk number typecode partlabelEphemeral (3105 * 2048)
      (3105 * 2048 + size * 2048 - 1) ∈
        (gpt.append number size typecode partlabelEphemeral).entries := by
    rw [Gpt.append_entries, hpacked.next]
    exact List.mem_append_right _ List.mem_cons_self
  constructor
  · intro hfits
    have hinside := hfits.inside _ hlast
    dsimp only at hinside
    omega
  · intro hroom
    have hall := hpacked.append (Nat.lt_of_lt_of_le (by decide) hsize) number typecode
      partlabelEphemeral
    refine ⟨?_, hall.ordered, fun entry hentry => ?_, _, hlast, rfl, ?_⟩
    · rw [Gpt.append_entries, List.length_append, hlength, List.length_singleton]
    · have hbelow := hall.below entry hentry
      omega
    · rw [mib_eq]
      dsimp only
      omega

theorem room_iff (hsize : 3362 * mib ≤ diskSize) :
    (3105 + divCeil (diskSize - 3106 * mib) mib) * 2048 + 33 ≤ diskSize / 512 ↔
      diskSize % mib = 0 ∨ 33 * 512 ≤ diskSize % mib := by
  rw [mib_eq] at *
  rw [divCeil]
  split <;> omega

theorem planFits_iff_room (hlarge : 3362 * mib ≤ diskSize) :
    PlanFits diskSize ↔ diskSize % mib = 0 ∨ 33 * 512 ≤ diskSize % mib := by
  have hlength : (writeAll (Gpt.clear (diskSize / 512)) fixedSpecs.zipIdx).entries.length = 5 :=
    length_writeAll _ _
  have hsize : 256 ≤ divCeil (diskSize - 3106 * mib) mib := by
    rw [divCeil, mib_eq]
    rw [mib_eq] at hlarge
    split <;> omega
  have hfits : Fits diskSize _ ↔ _ := fits_iff (packed_fixedSpecs (diskSize / 512)) hlength
    hsize (0 + fixedSpecs.length + 1) (typecode .ephemeral)
  have hwrite := writeGptSgdisk_sized diskSize (diskSize - 3106 * mib)
  rw [room_iff hlarge] at hfits
  rw [PlanFits, planDisk_eq, if_neg (Nat.not_lt.mpr hlarge)]
  constructor
  · rintro ⟨-, hall⟩
    obtain ⟨gpt, hgpt, hfit⟩ := hall _ rfl
    rw [hwrite] at hgpt
    exact hfits.mp (Except.ok.inj hgpt ▸ hfit)
  · intro hroom
    refine ⟨by simp, fun plan hplan => ?_⟩
    cases hplan
    exact ⟨_, hwrite, hfits.mpr hroom⟩

/-- The allowance of 2 MiB covers the first MiB of the disk and the rounding, but then not
always the backup of the table: it has no room where the disk is longer than whole MiB by less
than 33 sectors. -/
theorem planned_gpt_fits_iff (diskSize : Nat) :
    PlanFits diskSize ↔
      diskSize < 3362 * mib ∨ diskSize % mib = 0 ∨ 33 * 512 ≤ diskSize % mib := by
  by_cases hsmall : diskSize < 3362 * mib
  · rw [PlanFits, planDisk_eq, if_pos hsmall]
    exact iff_of_true ⟨by simp, fun plan hplan => by cases hplan⟩ (.inl hsmall)
  · rw [planFits_iff_room (Nat.le_of_not_lt hsmall), or_iff_right hsmall]

/-- A disk of 4 GiB and one sector. -/
theorem planned_gpt_beyond_disk : ¬ ∀ diskSize < 2 ^ 64, PlanFits diskSize := by
  intro hclaim
  have hlarge : 3362 * mib ≤ 2 ^ 32 + 512 := by
    rw [mib_eq]
    decide
  have hroom := (planFits_iff_room hlarge).mp (hclaim _ (by decide))
  rw [mib_eq] at hroom
  exact absurd hroom (by decide)

end Fits

end PertiskKos.Disk
