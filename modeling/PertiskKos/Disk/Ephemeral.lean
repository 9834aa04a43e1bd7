import PertiskKos.Disk.Grow
import PertiskKos.Library.Ip

/-!
# The filesystem of EPHEMERAL

The device is found by its label, or else guessed.  The partition grows, and then the
filesystem on it is made anew, resized or left alone, by what `blkid` and `tune2fs` say of it
and by the size that the kernel shows.  What is on a disk is found at the sector it starts at.
-/

namespace PertiskKos.Disk

open Strings Ip

/-- The geometry in a superblock. -/
structure Ext4 where
  blockCount : Nat
  blockSize : Nat
  inodeCount : Nat
  deriving DecidableEq

/-- What `blkid` calls another filesystem. -/
abbrev OtherType := { name : Text // trim name ≠ "ext4".toList }

inductive Content where
  | ext4 (fs : Ext4)
  | other (name : OtherType)
  | blank

/-- A disk, and what is found at each of its sectors. -/
structure BlockDevice where
  state : DiskState
  content : Nat → Content

structure Node where
  disk : Text
  number : Nat
  deriving DecidableEq

def Machine := Text → Option BlockDevice

/-- The link that udev makes for a label, or the node itself. -/
inductive DevicePath where
  | byPartlabel (node : Node)
  | dev (node : Node)
  deriving DecidableEq

def DevicePath.node : DevicePath → Node
  | .byPartlabel node => node
  | .dev node => node

/-- What `tune2fs -l` prints besides the geometry. -/
structure Listing where
  header : List Text
  middle : List Text
  footer : List Text
  unbroken : ∀ line ∈ header ++ middle ++ footer, '\n' ∉ line ∧ '\r' ∉ line
  unrelated : ∀ line ∈ header ++ middle ++ footer,
    ∀ name ∈ ["Inode count:".toList, "Block count:".toList, "Block size:".toList],
      ¬ name <+: line

/-- A directory entry of `/sys/class/block`: whether its `uevent` can be read, and whether the
node in `/dev` is there or can be made. -/
structure SysEntry where
  node : Node
  readable : Bool
  made : Bool

/-- One look for a label: the partition that udev has made a link for, and the entries in the
order of the directory. -/
structure Look where
  link : Option Node
  entries : List SysEntry

/-- The looks during the five seconds, and the one after. -/
structure Search where
  looks : List Look
  final : Look

/-- How the reads of one look at the size and the geometry turn out.  Without a listing
`tune2fs` is missing or has failed. -/
structure Probe where
  resolved : Bool
  readSize : Bool
  tune2fs : Option Listing

structure Tools where
  blkid : Bool
  inodes : Probe
  blocks : Probe
  mkfs : Bool
  resize2fs : Bool

structure Call where
  search : Search
  grow : Outcomes
  again : Search
  tools : Tools
  mounts : Bool

inductive EphemeralError where
  | deviceNotFound
  | mount
  deriving DecidableEq

structure GrowEphemeralResult where
  partitionGrew : Bool
  filesystemGrew : Bool
  deriving DecidableEq

inductive Command where
  | mkfs (device : DevicePath)
  | resize2fs (device : DevicePath)
  deriving DecidableEq

section Code

variable (machine : Machine)

/-- What the kernel shows of a partition. -/
def Machine.shown (node : Node) : Option PartEntry :=
  (machine node.disk).bind (·.state.shown node.number)

/-- What is at the first sector of a partition. -/
def Machine.held (node : Node) : Option Content := do
  let disk ← machine node.disk
  let entry ← disk.state.shown node.number
  pure (disk.content entry.start)

def Machine.carries (label : Text) (node : Node) : Bool :=
  (machine.shown node).any (·.label = label)

def findViaSysfs (label : Text) (entries : List SysEntry) : Option DevicePath :=
  match entries.find? fun entry => entry.readable && machine.carries label entry.node with
  | some entry => if entry.made then some (.dev entry.node) else none
  | none => none

def findByPartlabel (label : Text) (look : Look) : Option DevicePath :=
  -- udev makes the link for a partition that has the label
  match look.link.filter (machine.carries label) with
  | some node => some (.byPartlabel node)
  | none => findViaSysfs machine label look.entries

def waitForPartlabel (label : Text) (looks : List Look) : Option DevicePath :=
  looks.findSome? (findByPartlabel machine label)

/-- Fallback nodes (cloud layout: EFI=1 … STATE=5, EPHEMERAL=6). -/
def guessEphemeralNodes : List Node :=
  ["vda", "sda", "nvme0n1", "xvda"].map fun disk => ⟨disk.toList, 6⟩

def findEphemeralDevice (search : Search) : Option DevicePath :=
  match waitForPartlabel machine partlabelEphemeral search.looks with
  | some device => some device
  | none =>
      match findByPartlabel machine partlabelEphemeral search.final with
      | some device => some device
      | none => (guessEphemeralNodes.find? fun node => (machine.shown node).isSome).map .dev

/-- A link has no entry in `/sys/class/block`. -/
def partitionSysfs (device : DevicePath) (resolved : Bool) : Option PartEntry :=
  match device with
  | .byPartlabel _ => none
  | .dev node => if resolved then machine.shown node else none

/-- Expand the partition behind a device. -/
def growDevice (device : DevicePath) (outcomes : Outcomes) : Machine × Bool :=
  match device with
  | .byPartlabel _ => (machine, false)
  | .dev node =>
      match machine node.disk with
      | none => (machine, false)
      | some disk =>
          let (state, grew) := growEphemeralPartition disk.state node.number outcomes
          (fun name => if name = node.disk then some { disk with state } else machine name, grew)

def blkidOutput : Content → Option Text
  | .ext4 _ => some "ext4\n".toList
  | .other name => some (name.val ++ ['\n'])
  | .blank => none

def blkidType (device : DevicePath) (answers : Bool) : Option Text :=
  if answers then do
    let output ← (machine.held device.node).bind blkidOutput
    if trim output = [] then none else some (trim output)
  else none

def field (name : Text) (value : Nat) : Text :=
  name ++ List.replicate (26 - name.length) ' ' ++ decimal value

def tune2fsOutput (fs : Ext4) (listing : Listing) : Text :=
  unlines (listing.header ++
    [field "Inode count:".toList fs.inodeCount, field "Block count:".toList fs.blockCount] ++
    listing.middle ++ [field "Block size:".toList fs.blockSize] ++ listing.footer)

def runTune2fs (device : DevicePath) (outcome : Option Listing) : Option Text :=
  match machine.held device.node, outcome with
  | some (.ext4 fs), some listing => some (tune2fsOutput fs listing)
  | _, _ => none

def parseU64 (text : Text) : Option Nat :=
  let digits := if text.head? = some '+' then text.tail else text
  if isDigits digits ∧ ofDigits digits < 2 ^ 64 then some (ofDigits digits) else none

def saturatingMul (a b : Nat) : Nat := min (a * b) (2 ^ 64 - 1)

def partBytes (entry : PartEntry) : Nat := saturatingMul entry.size 512

/-- True when inode density is too low for the partition. -/
def inodeStarvedForPartition (device : DevicePath) (probe : Probe) : Bool :=
  match partitionSysfs machine device probe.resolved with
  | none => false
  | some entry =>
      if !probe.readSize then false
      else
        match runTune2fs machine device probe.tune2fs with
        | none => false
        | some text =>
            match ((lines text).findSome? ("Inode count:".toList.isPrefixOf? ·)).bind
                fun rest => parseU64 (trim rest) with
            | none => false
            | some inodes => 0 < inodes && 128 * 1024 < partBytes entry / inodes

/-- The last line that begins so decides. -/
def lastField (name text : Text) : Option Nat :=
  ((lines text).filterMap (name.isPrefixOf? ·)).getLast?.bind fun rest => parseU64 (trim rest)

/-- True when ext4 is smaller than the partition (e.g. GPT grew but FS did not). -/
def filesystemSmallerThanPartition (device : DevicePath) (probe : Probe) : Bool :=
  match partitionSysfs machine device probe.resolved with
  | none => false
  | some entry =>
      if !probe.readSize then false
      else
        match runTune2fs machine device probe.tune2fs with
        | none => false
        | some text =>
            match lastField "Block count:".toList text, lastField "Block size:".toList text with
            | some bc, some bs =>
                (saturatingMul bc bs + 16 * 1024 * 1024) % 2 ^ 64 < partBytes entry
            | _, _ => false

/-- Create or repair EPHEMERAL ext4: the command that is run, and whether the size of the
filesystem has changed. -/
def ensureEphemeralFilesystem (device : DevicePath) (grew : Bool) (tools : Tools) :
    List Command × Bool :=
  let hasExt4 := blkidType machine device tools.blkid = some "ext4".toList
  let starved := hasExt4 && inodeStarvedForPartition machine device tools.inodes
  if !hasExt4 || starved then ([.mkfs device], tools.mkfs)
  else
    let needs := grew || filesystemSmallerThanPartition machine device tools.blocks
    if !needs then ([], false) else ([.resize2fs device], tools.resize2fs)

/-- Grow GPT if the disk was resized, then mkfs/resize so `/var` has usable inodes.  The
machine is the one that the commands are run on. -/
def prepareEphemeralDevice (device : DevicePath) (call : Call) :
    Machine × List Command × GrowEphemeralResult :=
  let (grown, partitionGrew) := growDevice machine device call.grow
  let device :=
    if partitionGrew then (findEphemeralDevice grown call.again).getD device else device
  let (commands, filesystemGrew) :=
    ensureEphemeralFilesystem grown device partitionGrew call.tools
  (grown, commands, { partitionGrew, filesystemGrew })

/-- Expand EPHEMERAL to fill a resized disk (safe while `/var` is mounted). -/
def growEphemeralStorage (call : Call) :
    Machine × List Command × Except EphemeralError GrowEphemeralResult :=
  match findEphemeralDevice machine call.search with
  | none => (machine, [], .error .deviceNotFound)
  | some device =>
      let (grown, commands, result) := prepareEphemeralDevice machine device call
      (grown, commands, .ok result)

/-- Mount EPHEMERAL; without a device `/var` stays as it is. -/
def prepareEphemeralAt (call : Call) :
    Machine × List Command × Except EphemeralError Bool :=
  match findEphemeralDevice machine call.search with
  | none => (machine, [], .ok false)
  | some device =>
      let (grown, commands, _) := prepareEphemeralDevice machine device call
      (grown, commands, if call.mounts then .ok true else .error .mount)

end Code

section Numbers

theorem trim_spaces (count : Nat) {text : Text} (htext : ∀ c ∈ text, isWhite c = false) :
    trim (List.replicate count ' ' ++ text) = text := by
  have hstart : trimStart (List.replicate count ' ' ++ text) = trimStart text :=
    List.dropWhile_append_of_pos fun c hc => by
      rw [List.eq_of_mem_replicate hc]
      decide
  rw [trim, hstart]
  exact trim_of_noWhite htext

theorem parseU64_decimal (n : Nat) :
    parseU64 (decimal n) = if n < 2 ^ 64 then some n else none := by
  have hsign : (decimal n).head? ≠ some '+' := by
    intro hhead
    exact absurd (isDigit_decimal (List.mem_of_head? hhead)) (by decide)
  simp [parseU64, hsign, isDigits_decimal, ofDigits_decimal]

end Numbers

section Listing

variable (fs : Ext4) (listing : Listing)

theorem lines_tune2fsOutput : lines (tune2fsOutput fs listing) = listing.header ++
    [field "Inode count:".toList fs.inodeCount, field "Block count:".toList fs.blockCount] ++
    listing.middle ++ [field "Block size:".toList fs.blockSize] ++ listing.footer := by
  have hdecimal : ∀ n c, c ∈ decimal n → c ≠ '\n' ∧ c ≠ '\r' := by
    intro n c hc
    have hdigit := isDigit_decimal hc
    constructor <;> (rintro rfl; exact absurd hdigit (by decide))
  have hfield : ∀ name ∈ ["Inode count:".toList, "Block count:".toList, "Block size:".toList],
      ∀ n, '\n' ∉ field name n ∧ '\r' ∉ field name n := by
    intro name hname n
    have hplain : '\n' ∉ name ∧ '\r' ∉ name := by
      revert name
      decide
    simp only [field, List.mem_append, List.mem_replicate, not_or]
    refine ⟨⟨⟨hplain.1, by simp⟩, fun h => (hdecimal n _ h).1 rfl⟩,
      ⟨hplain.2, by simp⟩, fun h => (hdecimal n _ h).2 rfl⟩
  have hall : ∀ line ∈ listing.header ++
      [field "Inode count:".toList fs.inodeCount, field "Block count:".toList fs.blockCount] ++
      listing.middle ++ [field "Block size:".toList fs.blockSize] ++ listing.footer,
      '\n' ∉ line ∧ '\r' ∉ line := by
    intro line hline
    simp only [List.mem_append, List.mem_cons, List.not_mem_nil, or_false] at hline
    rcases hline with ((((hheader | rfl | rfl) | hmiddle) | rfl) | hfooter)
    · exact listing.unbroken line (by simp [hheader])
    · exact hfield _ (by simp) _
    · exact hfield _ (by simp) _
    · exact listing.unbroken line (by simp [hmiddle])
    · exact hfield _ (by simp) _
    · exact listing.unbroken line (by simp [hfooter])
  exact lines_unlines (fun line hline => (hall line hline).1) fun line hline => (hall line hline).2

theorem isPrefixOf?_field (name : Text) (n : Nat) :
    name.isPrefixOf? (field name n) =
      some (List.replicate (26 - name.length) ' ' ++ decimal n) := by
  rw [List.isPrefixOf?_eq_some_iff_append_eq, field, List.append_assoc]

theorem isPrefixOf?_unrelated {name line : Text}
    (hname : name ∈ ["Inode count:".toList, "Block count:".toList, "Block size:".toList])
    (hline : line ∈ listing.header ++ listing.middle ++ listing.footer) :
    name.isPrefixOf? line = none :=
  isPrefixOf?_eq_none (listing.unrelated line hline name hname)

theorem filterMap_unrelated {name : Text} {texts : List Text}
    (hname : name ∈ ["Inode count:".toList, "Block count:".toList, "Block size:".toList])
    (htexts : texts ⊆ listing.header ++ listing.middle ++ listing.footer) :
    texts.filterMap (name.isPrefixOf? ·) = [] :=
  List.filterMap_eq_nil_iff.mpr fun _ hline => isPrefixOf?_unrelated listing hname (htexts hline)

/-- Each of the three names begins one line. -/
theorem filterMap_listing {name : Text} {n : Nat}
    (hname : (name, n) ∈ [("Inode count:".toList, fs.inodeCount),
      ("Block count:".toList, fs.blockCount), ("Block size:".toList, fs.blockSize)]) :
    (lines (tune2fsOutput fs listing)).filterMap (name.isPrefixOf? ·) =
      [List.replicate (26 - name.length) ' ' ++ decimal n] := by
  have hmem : name ∈ ["Inode count:".toList, "Block count:".toList, "Block size:".toList] :=
    List.mem_map_of_mem (f := Prod.fst) hname
  have hheader : listing.header.filterMap (name.isPrefixOf? ·) = [] :=
    filterMap_unrelated listing hmem fun line hline => by simp [hline]
  have hmiddle : listing.middle.filterMap (name.isPrefixOf? ·) = [] :=
    filterMap_unrelated listing hmem fun line hline => by simp [hline]
  have hfooter : listing.footer.filterMap (name.isPrefixOf? ·) = [] :=
    filterMap_unrelated listing hmem fun line hline => by simp [hline]
  rw [lines_tune2fsOutput]
  simp only [List.filterMap_append, hheader, hmiddle, hfooter, List.nil_append, List.append_nil]
  simp only [List.mem_cons, Prod.mk.injEq, List.not_mem_nil, or_false] at hname
  rcases hname with ⟨rfl, rfl⟩ | ⟨rfl, rfl⟩ | ⟨rfl, rfl⟩
  · rw [List.filterMap_cons_some (isPrefixOf?_field _ _)]
    rfl
  · rw [List.filterMap_cons_none rfl, List.filterMap_cons_some (isPrefixOf?_field _ _)]
    rfl
  · rw [List.filterMap_cons_none rfl, List.filterMap_cons_none rfl,
      List.filterMap_cons_some (isPrefixOf?_field _ _)]
    rfl

theorem parseU64_field (name : Text) (n : Nat) :
    parseU64 (trim (List.replicate (26 - name.length) ' ' ++ decimal n)) =
      if n < 2 ^ 64 then some n else none := by
  rw [trim_spaces _ fun c hc => isWhite_of_isDigit (isDigit_decimal hc), parseU64_decimal]

theorem lastField_listing {name : Text} {n : Nat}
    (hname : (name, n) ∈ [("Inode count:".toList, fs.inodeCount),
      ("Block count:".toList, fs.blockCount), ("Block size:".toList, fs.blockSize)]) :
    lastField name (tune2fsOutput fs listing) = if n < 2 ^ 64 then some n else none := by
  rw [lastField, filterMap_listing fs listing hname]
  exact parseU64_field name n

theorem inodes_listing :
    ((lines (tune2fsOutput fs listing)).findSome? ("Inode count:".toList.isPrefixOf? ·)).bind
        (fun rest => parseU64 (trim rest)) =
      if fs.inodeCount < 2 ^ 64 then some fs.inodeCount else none := by
  rw [← List.head?_filterMap, filterMap_listing fs listing List.mem_cons_self]
  exact parseU64_field "Inode count:".toList fs.inodeCount

end Listing

section Spec

/-- No more than 128 KiB for each inode. -/
def Ext4.Normal (fs : Ext4) : Prop := fs.blockCount * fs.blockSize ≤ 128 * 1024 * fs.inodeCount

/-- The size and the geometry can be read, and the partition has more than 128 KiB for each
inode of the filesystem. -/
def Starved (device : DevicePath) (entry : PartEntry) (fs : Ext4) (probe : Probe) : Prop :=
  device = .dev device.node ∧ probe.resolved = true ∧ probe.readSize = true ∧
    probe.tune2fs.isSome = true ∧ 0 < fs.inodeCount ∧ fs.inodeCount < 2 ^ 64 ∧
    128 * 1024 < partBytes entry / fs.inodeCount

/-- The size and the geometry can be read, and the partition is longer than the filesystem. -/
def Longer (device : DevicePath) (entry : PartEntry) (fs : Ext4) (probe : Probe) : Prop :=
  device = .dev device.node ∧ probe.resolved = true ∧ probe.readSize = true ∧
    probe.tune2fs.isSome = true ∧ fs.blockCount < 2 ^ 64 ∧ fs.blockSize < 2 ^ 64 ∧
    (saturatingMul fs.blockCount fs.blockSize + 16 * 1024 * 1024) % 2 ^ 64 < partBytes entry

variable {machine : Machine} {device : DevicePath} {entry : PartEntry} {fs : Ext4} {probe : Probe}

theorem inodeStarved_iff (hshown : machine.shown device.node = some entry)
    (hheld : machine.held device.node = some (.ext4 fs)) :
    inodeStarvedForPartition machine device probe = true ↔ Starved device entry fs probe := by
  rw [inodeStarvedForPartition, Starved]
  cases device with
  | byPartlabel node => simp [partitionSysfs]
  | dev node =>
      have hshown' : machine.shown node = some entry := hshown
      have hheld' : machine.held (DevicePath.dev node).node = some (.ext4 fs) := hheld
      cases hresolved : probe.resolved with
      | false => simp [partitionSysfs]
      | true =>
          cases hlisting : probe.tune2fs with
          | none => simp [partitionSysfs, hshown', runTune2fs, hheld']
          | some listing =>
              simp only [partitionSysfs, if_true, hshown', runTune2fs, hheld', inodes_listing]
              by_cases hcount : fs.inodeCount < 2 ^ 64
              · simp only [hcount, if_true]
                cases probe.readSize <;> simp [DevicePath.node]
              · simp only [hcount, if_false]
                cases probe.readSize <;> simp

theorem filesystemSmaller_iff (hshown : machine.shown device.node = some entry)
    (hheld : machine.held device.node = some (.ext4 fs)) :
    filesystemSmallerThanPartition machine device probe = true ↔
      Longer device entry fs probe := by
  rw [filesystemSmallerThanPartition, Longer]
  cases device with
  | byPartlabel node => simp [partitionSysfs]
  | dev node =>
      have hshown' : machine.shown node = some entry := hshown
      have hheld' : machine.held (DevicePath.dev node).node = some (.ext4 fs) := hheld
      cases hresolved : probe.resolved with
      | false => simp [partitionSysfs]
      | true =>
          cases hlisting : probe.tune2fs with
          | none => simp [partitionSysfs, hshown', runTune2fs, hheld']
          | some listing =>
              have hcount := @lastField_listing fs listing "Block count:".toList
                fs.blockCount (by simp)
              have hsize := @lastField_listing fs listing "Block size:".toList
                fs.blockSize (by simp)
              simp only [partitionSysfs, if_true, hshown', runTune2fs, hheld', hcount, hsize]
              by_cases hblocks : fs.blockCount < 2 ^ 64
              · by_cases hbytes : fs.blockSize < 2 ^ 64
                · simp only [hblocks, hbytes, if_true]
                  cases probe.readSize <;> simp [DevicePath.node]
                · simp only [hblocks, hbytes, if_true, if_false]
                  cases probe.readSize <;> simp
              · simp only [hblocks, if_false]
                cases probe.readSize <;> simp

theorem hasExt4_iff {answers : Bool} :
    blkidType machine device answers = some "ext4".toList ↔
      answers = true ∧ ∃ fs, machine.held device.node = some (.ext4 fs) := by
  have htrim : ∀ name : Text, trim (name ++ ['\n']) = trim name := by
    intro name
    rw [trim, trim, trimStart, trimStart, List.dropWhile_append]
    split
    · next hempty =>
        have hnil : name.dropWhile isWhite = [] := List.isEmpty_iff.mp hempty
        rw [hnil]
        rfl
    · exact List.rdropWhile_concat_pos _ _ _ (by decide)
  cases answers with
  | false => simp [blkidType]
  | true =>
      rw [blkidType, if_pos rfl]
      cases hheld : machine.held device.node with
      | none => simp
      | some content =>
          cases content with
          | ext4 fs => exact iff_of_true rfl ⟨rfl, fs, rfl⟩
          | blank => simp [blkidOutput]
          | other name =>
              have hother : ¬ trim name.val = ['e', 'x', 't', '4'] := name.property
              simp [blkidOutput, htrim, hother]

theorem mem_ensure {command : Command} {grew : Bool} {tools : Tools}
    (hmem : command ∈ (ensureEphemeralFilesystem machine device grew tools).1) :
    command = .mkfs device ∨ command = .resize2fs device := by
  rw [ensureEphemeralFilesystem] at hmem
  dsimp only at hmem
  split at hmem
  · exact .inl (List.mem_singleton.mp hmem)
  · split at hmem
    · cases hmem
    · exact .inr (List.mem_singleton.mp hmem)

variable {tools : Tools} {grew : Bool}

/-- What keeps a filesystem from being made anew. -/
def Recognised (machine : Machine) (device : DevicePath) (entry : PartEntry) (tools : Tools)
    (fs : Ext4) : Prop :=
  machine.held device.node = some (.ext4 fs) ∧ tools.blkid = true ∧
    ¬ Starved device entry fs tools.inodes

theorem recognised_unique {first second : Ext4}
    (hfirst : Recognised machine device entry tools first)
    (hsecond : machine.held device.node = some (.ext4 second)) : first = second := by
  have hsame := hfirst.1.symm.trans hsecond
  cases hsame
  rfl

/-- At most one command is run, on the device. -/
theorem ensure_cases (hshown : machine.shown device.node = some entry) :
    (¬ (∃ fs, Recognised machine device entry tools fs) ∧
      (ensureEphemeralFilesystem machine device grew tools).1 = [.mkfs device]) ∨
    (∃ fs, Recognised machine device entry tools fs ∧
      (grew = true ∨ Longer device entry fs tools.blocks) ∧
      (ensureEphemeralFilesystem machine device grew tools).1 = [.resize2fs device]) ∨
    (∃ fs, Recognised machine device entry tools fs ∧ grew = false ∧
      ¬ Longer device entry fs tools.blocks ∧
      (ensureEphemeralFilesystem machine device grew tools).1 = []) := by
  rw [ensureEphemeralFilesystem]
  by_cases hext4 : blkidType machine device tools.blkid = some "ext4".toList
  · obtain ⟨hblkid, fs, hheld⟩ := hasExt4_iff.mp hext4
    by_cases hstarved : inodeStarvedForPartition machine device tools.inodes = true
    · refine .inl ⟨?_, by simp [hext4, hstarved]⟩
      rintro ⟨other, hother⟩
      obtain rfl := recognised_unique hother hheld
      exact hother.2.2 ((inodeStarved_iff hshown hheld).mp hstarved)
    · have hrecognised : Recognised machine device entry tools fs :=
        ⟨hheld, hblkid, fun h => hstarved ((inodeStarved_iff hshown hheld).mpr h)⟩
      by_cases hneeds : grew = true ∨
          filesystemSmallerThanPartition machine device tools.blocks = true
      · refine .inr (.inl ⟨fs, hrecognised, ?_, ?_⟩)
        · exact hneeds.imp_right (filesystemSmaller_iff hshown hheld).mp
        · have : (grew || filesystemSmallerThanPartition machine device tools.blocks) = true := by
            simpa using hneeds
          simp [hext4, hstarved, this]
      · rw [not_or] at hneeds
        refine .inr (.inr ⟨fs, hrecognised, by simpa using hneeds.1, ?_, ?_⟩)
        · exact fun h => hneeds.2 ((filesystemSmaller_iff hshown hheld).mpr h)
        · simp [hext4, hstarved, hneeds.1, hneeds.2]
  · refine .inl ⟨?_, by
      simp only [hext4, decide_false, Bool.not_false, Bool.true_or, if_true]⟩
    rintro ⟨fs, hheld, hblkid, -⟩
    exact hext4 (hasExt4_iff.mpr ⟨hblkid, fs, hheld⟩)

end Spec

section Grown

/-- A disk whose table the kernel has read.  Entries have different numbers, and `sgdisk` has
put EPHEMERAL on an alignment boundary. -/
structure BootedDisk where
  sectors : Nat
  gpt : Gpt
  content : Nat → Content
  numbers : gpt.entries.Pairwise fun first second => first.number ≠ second.number
  aligned : ∀ entry ∈ gpt.entries, entry.label = partlabelEphemeral → entry.start % alignment = 0

def BootedDisk.device (disk : BootedDisk) : BlockDevice where
  state := { sectors := disk.sectors, gpt := disk.gpt, seen := disk.gpt.entries, writes := 0 }
  content := disk.content

def booted (disks : Text → Option BootedDisk) : Machine := fun name =>
  (disks name).map BootedDisk.device

variable {disks : Text → Option BootedDisk} {disk : BootedDisk} {device : DevicePath}
variable {node : Node} {entry part : PartEntry} {outcomes : Outcomes} {number : Nat}

/-- The kernel shows an entry of one of the tables that were written. -/
theorem shown_grow_cases (disk : BootedDisk) (number : Nat) (outcomes : Outcomes)
    {part : PartEntry} (hpart : disk.gpt.entry number = some part) (other : Nat) :
    let shown := (growEphemeralPartition disk.device.state number outcomes).1.shown other
    shown = disk.gpt.entry other ∨
      Starts disk.sectors part outcomes ∧ outcomes.delete = true ∧
        (shown = (disk.gpt.delete number).entry other ∨
          shown = (regrown disk.device.state number part.start).entry other) := by
  intro shown
  have hseen : disk.device.state.shown number = some part := hpart
  by_cases hstarts : Starts disk.sectors part outcomes
  · obtain ⟨hreads, hfull, hmove⟩ := hstarts
    have hstarts' : Starts disk.sectors part outcomes := ⟨hreads, hfull, hmove⟩
    have hfull' : alreadyFull disk.device.state.sectors part.start part.size = false := hfull
    have hmoved : ∀ n, (disk.device.state.gpt.moveBackup disk.device.state.sectors).entry n =
        disk.gpt.entry n := fun _ => rfl
    have hold : ∀ n, disk.device.state.shown n = disk.gpt.entry n := fun _ => rfl
    have hdeleted : ∀ n, ((disk.device.state.gpt.moveBackup
        disk.device.state.sectors).delete number).entry n = (disk.gpt.delete number).entry n :=
      fun _ => rfl
    cases hdelete : outcomes.delete with
    | false =>
        left
        simp only [shown, growEphemeralPartition, hseen, hreads, hfull', hmove, hdelete,
          Bool.not_true, Bool.not_false, Bool.false_eq_true, if_false, if_true, shown_write,
          hmoved, hold, ite_self]
    | true =>
        cases hcreate : outcomes.create with
        | false =>
            simp only [shown, growEphemeralPartition, hseen, hreads, hfull', hmove, hdelete,
              hcreate, Bool.not_true, Bool.not_false, Bool.false_eq_true, if_false, if_true,
              shown_write, write_gpt, hmoved, hold, hdeleted, ite_self]
            cases outcomes.rereadDelete with
            | false => exact .inl rfl
            | true => exact .inr ⟨hstarts', trivial, .inl rfl⟩
        | true =>
            have hregrown : shown = disk.gpt.entry other ∨
                shown = (disk.gpt.delete number).entry other ∨
                shown = (regrown disk.device.state number part.start).entry other := by
              simp only [shown, growEphemeralPartition, hseen, hreads, hfull', hmove, hdelete,
                hcreate, Bool.not_true, Bool.false_eq_true, if_false, shown_reread, shown_write,
                reread_gpt, write_gpt, hmoved, hold, hdeleted, ite_self, regrown]
              grind
            exact hregrown.imp_right fun h => ⟨hstarts', rfl, h⟩
  · left
    have hsame : growEphemeralPartition disk.device.state number outcomes =
        (disk.device.state, false) :=
      grow_of_not_starts fun other hother => by
        rw [hseen] at hother
        cases hother
        exact hstarts
    simp only [shown, hsame]
    rfl

/-- The entry is deleted in the course of growing. -/
def Deletes (disk : BootedDisk) (number : Nat) (outcomes : Outcomes) (part : PartEntry) : Prop :=
  disk.gpt.entry number = some part ∧ Starts disk.sectors part outcomes ∧ outcomes.delete = true

theorem entry_mem (hpart : disk.gpt.entry number = some part) :
    part ∈ disk.gpt.entries ∧ part.number = number :=
  ⟨List.mem_of_find?_eq_some hpart, by simpa using List.find?_some hpart⟩

theorem entry_delete_ne {other : Nat} (hne : other ≠ number) (gpt : Gpt) :
    (gpt.delete number).entry other = gpt.entry other := by
  rw [Gpt.entry, Gpt.delete, List.find?_filter]
  refine congrArg (List.find? · gpt.entries) (funext fun entry => ?_)
  by_cases hentry : entry.number = other
  · simp [hentry, hne]
  · simp [hentry]

theorem entry_regrown_cases {other : Nat} {state : DiskState} {start : Nat}
    (hentry : (regrown state number start).entry other = some entry) :
    (state.gpt.delete number).entry other = some entry ∨
      other = number ∧ entry.label = partlabelEphemeral ∧ entry.start = Gpt.alignUp start := by
  rw [Gpt.entry, regrown, Gpt.fill, List.find?_append, Option.or_eq_some_iff] at hentry
  refine hentry.imp id ?_
  rintro ⟨-, hlast⟩
  obtain ⟨hmem, hnumber⟩ : _ ∧ _ := ⟨List.mem_of_find?_eq_some hlast, List.find?_some hlast⟩
  obtain rfl := List.mem_singleton.mp hmem
  exact ⟨(of_decide_eq_true hnumber).symm, rfl, rfl⟩

theorem growDevice_dev (hdisk : disks node.disk = some disk) :
    growDevice (booted disks) (.dev node) outcomes =
      (fun name => if name = node.disk then
        some { disk.device with
          state := (growEphemeralPartition disk.device.state node.number outcomes).1 }
        else booted disks name,
        (growEphemeralPartition disk.device.state node.number outcomes).2) := by
  have hbooted : booted disks node.disk = some disk.device := by simp [booted, hdisk]
  rw [growDevice, hbooted]
  rfl

/-- Growing changes what the kernel shows of no partition but its own. -/
theorem shown_growDevice_cases (disks : Text → Option BootedDisk) (device : DevicePath)
    (outcomes : Outcomes) {other : Node}
    (hshown : (growDevice (booted disks) device outcomes).1.shown other = some entry) :
    (booted disks).shown other = some entry ∨
      ∃ disk part, device = .dev other ∧ disks other.disk = some disk ∧
        Deletes disk other.number outcomes part ∧ entry.label = partlabelEphemeral ∧
        entry.start = Gpt.alignUp part.start := by
  cases device with
  | byPartlabel node => exact .inl hshown
  | dev node =>
      cases hdisk : disks node.disk with
      | none =>
          have hbooted : booted disks node.disk = none := by simp [booted, hdisk]
          rw [growDevice, hbooted] at hshown
          exact .inl hshown
      | some disk =>
          rw [growDevice_dev hdisk] at hshown
          by_cases hsame : other.disk = node.disk
          · have hold : ∀ n, (booted disks).shown ⟨node.disk, n⟩ = disk.gpt.entry n := by
              intro n
              simp only [Machine.shown, booted, hdisk]
              rfl
            obtain ⟨otherDisk, number⟩ := other
            obtain rfl : otherDisk = node.disk := hsame
            rw [hold]
            simp only [Machine.shown, if_true, Option.bind_some] at hshown
            cases hpart : disk.gpt.entry node.number with
            | none =>
                have hquiet : growEphemeralPartition disk.device.state node.number outcomes =
                    (disk.device.state, false) :=
                  grow_of_not_starts fun part hsome => by
                    have hnone : disk.device.state.shown node.number = none := hpart
                    rw [hnone] at hsome
                    cases hsome
                rw [hquiet] at hshown
                exact .inl hshown
            | some part =>
                rcases shown_grow_cases disk node.number outcomes hpart number with
                  heq | ⟨hstarts, hdelete, hafter⟩
                · exact .inl (heq.symm.trans hshown)
                · have hcases : (disk.gpt.delete node.number).entry number = some entry ∨
                      number = node.number ∧ entry.label = partlabelEphemeral ∧
                        entry.start = Gpt.alignUp part.start := by
                    rcases hafter with heq | heq
                    · exact .inl (heq.symm.trans hshown)
                    · exact entry_regrown_cases (heq.symm.trans hshown)
                  rcases hcases with hkept | ⟨rfl, hlabel, hstart⟩
                  · have hne : number ≠ node.number := by
                      rintro rfl
                      rw [entry_deleted] at hkept
                      cases hkept
                    rw [entry_delete_ne hne] at hkept
                    exact .inl hkept
                  · exact .inr ⟨disk, part, rfl, hdisk, ⟨hpart, hstarts, hdelete⟩, hlabel, hstart⟩
          · left
            simpa only [Machine.shown, if_neg hsame] using hshown

/-- Disks keep what is on them. -/
theorem content_growDevice (disks : Text → Option BootedDisk) (device : DevicePath)
    (outcomes : Outcomes) (name : Text) :
    ((growDevice (booted disks) device outcomes).1 name).map BlockDevice.content =
      (disks name).map BootedDisk.content := by
  have hbooted : ∀ other, (booted disks other).map BlockDevice.content =
      (disks other).map BootedDisk.content := by
    intro other
    rw [booted, Option.map_map]
    rfl
  cases device with
  | byPartlabel node => exact hbooted name
  | dev node =>
      cases hdisk : disks node.disk with
      | none =>
          have hnone : booted disks node.disk = none := by simp [booted, hdisk]
          rw [growDevice, hnone]
          exact hbooted name
      | some disk =>
          rw [growDevice_dev hdisk]
          by_cases hsame : name = node.disk
          · simp [hsame, hdisk, BootedDisk.device]
          · simpa only [if_neg hsame] using hbooted name

theorem held_eq {machine : Machine} (hshown : machine.shown node = some entry) :
    machine.held node =
      ((machine node.disk).map BlockDevice.content).map (· entry.start) := by
  obtain ⟨disk, hdisk, hentry⟩ := Option.bind_eq_some_iff.mp hshown
  simp [Machine.held, hdisk, hentry]

theorem held_growDevice (hshown :
    (growDevice (booted disks) device outcomes).1.shown node = some entry) :
    (growDevice (booted disks) device outcomes).1.held node =
      ((disks node.disk).map BootedDisk.content).map (· entry.start) := by
  rw [held_eq hshown, content_growDevice]

theorem held_booted (hshown : (booted disks).shown node = some entry) :
    (booted disks).held node = ((disks node.disk).map BootedDisk.content).map (· entry.start) := by
  rw [held_eq hshown, booted]
  cases disks node.disk <;> rfl

end Grown

section Safe

/-- What growing promises of the commands that are run and of the tables that are left:
nothing but EPHEMERAL is formatted, deleted or resized, and no ext4 of normal density is
formatted.  A command on a device without a partition behind it reaches no data. -/
structure NothingDestroyed (before after : Machine) (commands : List Command) : Prop where
  formats : ∀ device entry, .mkfs device ∈ commands → after.shown device.node = some entry →
    entry.label = partlabelEphemeral ∧
      ∀ fs, before.held device.node = some (.ext4 fs) → ¬ fs.Normal
  resizes : ∀ device entry, .resize2fs device ∈ commands →
    after.shown device.node = some entry → entry.label = partlabelEphemeral
  keeps : ∀ name disk, before name = some disk → ∀ entry ∈ disk.state.gpt.entries,
    entry.label ≠ partlabelEphemeral →
      ∃ later, after name = some later ∧ entry ∈ later.state.gpt.entries

/-- The device once the partition has grown. -/
def refound (machine : Machine) (device : DevicePath) (call : Call) : DevicePath :=
  if (growDevice machine device call.grow).2 then
    (findEphemeralDevice (growDevice machine device call.grow).1 call.again).getD device
  else device

/-- An entry that is deleted has the label; an ext4 of normal density on a device with the
label is recognised, and the partition has no more than 128 KiB for each of its inodes, or this
cannot be read; and on a device without the label there is nothing to do. -/
structure Harmless (disks : Text → Option BootedDisk) (device : DevicePath) (call : Call) :
    Prop where
  deletes : ∀ node disk part, device = .dev node → disks node.disk = some disk →
    Deletes disk node.number call.grow part → part.label = partlabelEphemeral
  labelled : ∀ entry, (growDevice (booted disks) device call.grow).1.shown
      (refound (booted disks) device call).node = some entry → entry.label = partlabelEphemeral →
    ∀ fs, (booted disks).held (refound (booted disks) device call).node = some (.ext4 fs) →
      fs.Normal → call.tools.blkid = true ∧
        ¬ Starved (refound (booted disks) device call) entry fs call.tools.inodes
  unlabelled : ∀ entry, (growDevice (booted disks) device call.grow).1.shown
      (refound (booted disks) device call).node = some entry → entry.label ≠ partlabelEphemeral →
    ∃ fs, Recognised (booted disks) (refound (booted disks) device call) entry call.tools fs ∧
      (growDevice (booted disks) device call.grow).2 = false ∧
      ¬ Longer (refound (booted disks) device call) entry fs call.tools.blocks

variable {disks : Text → Option BootedDisk} {device : DevicePath} {call : Call}
variable {disk : BootedDisk} {node : Node} {entry part : PartEntry} {outcomes : Outcomes}

/-- Where only entries with the label are deleted, a partition still holds what it held. -/
theorem held_unchanged (hdeletes : ∀ node disk part, device = .dev node →
      disks node.disk = some disk → Deletes disk node.number outcomes part →
      part.label = partlabelEphemeral)
    (hshown : (growDevice (booted disks) device outcomes).1.shown node = some entry) :
    (growDevice (booted disks) device outcomes).1.held node = (booted disks).held node := by
  rw [held_growDevice hshown]
  rcases shown_growDevice_cases disks device outcomes hshown with
    hsame | ⟨disk, part, hdevice, hdisk, hdeleted, -, hstart⟩
  · rw [held_booted hsame]
  · have hmem := (entry_mem hdeleted.1).1
    have hlabel := hdeletes node disk part hdevice hdisk hdeleted
    have hbefore : (booted disks).shown node = some part := by
      simp only [Machine.shown, booted, hdisk]
      exact hdeleted.1
    rw [held_booted hbefore, hstart, Gpt.alignUp_eq (disk.aligned part hmem hlabel)]

theorem gpt_growDevice (hdisk : disks node.disk = some disk)
    (hdeleted : Deletes disk node.number outcomes part) :
    ∃ later, (growDevice (booted disks) (.dev node) outcomes).1 node.disk = some later ∧
      (later.state.gpt.entries = (disk.gpt.delete node.number).entries ∨
        ∃ entry, entry.label = partlabelEphemeral ∧
          later.state.gpt.entries = (disk.gpt.delete node.number).entries ++ [entry]) := by
  obtain ⟨hpart, hstarts, hdelete⟩ := hdeleted
  have hgpt := (@grow_of_starts disk.device.state node.number _ _ hpart hstarts).2.2
  rw [growDevice_dev hdisk]
  refine ⟨_, if_pos rfl, ?_⟩
  dsimp only
  rw [hgpt, hdelete, if_pos rfl]
  cases outcomes.create with
  | false => exact .inl rfl
  | true => exact .inr ⟨_, rfl, rfl⟩

/-- Entries without the label are kept if and only if only entries with the label are
deleted. -/
theorem keeps_iff (disks : Text → Option BootedDisk) (device : DevicePath) (outcomes : Outcomes) :
    (∀ name disk, booted disks name = some disk → ∀ entry ∈ disk.state.gpt.entries,
      entry.label ≠ partlabelEphemeral →
        ∃ later, (growDevice (booted disks) device outcomes).1 name = some later ∧
          entry ∈ later.state.gpt.entries) ↔
    ∀ node disk part, device = .dev node → disks node.disk = some disk →
      Deletes disk node.number outcomes part → part.label = partlabelEphemeral := by
  constructor
  · rintro hkeeps node disk part rfl hdisk hdeleted
    by_contra hlabel
    obtain ⟨hmem, hnumber⟩ := entry_mem hdeleted.1
    have hbooted : booted disks node.disk = some disk.device := by simp [booted, hdisk]
    obtain ⟨later, hlater, hpart⟩ := hkeeps node.disk disk.device hbooted part hmem hlabel
    obtain ⟨same, hsame, hentries⟩ := gpt_growDevice hdisk hdeleted
    obtain rfl : later = same := Option.some.inj (hlater.symm.trans hsame)
    have hgone : part ∉ (disk.gpt.delete node.number).entries := by
      simp [Gpt.delete, hnumber]
    rcases hentries with heq | ⟨entry, hentry, heq⟩
    · exact hgone (heq ▸ hpart)
    · rw [heq, List.mem_append, List.mem_singleton] at hpart
      exact hpart.elim hgone fun h => hlabel (h ▸ hentry)
  · intro hdeletes name found hfound entry hentry hlabel
    obtain ⟨disk, hdisk, rfl⟩ := Option.map_eq_some_iff.mp hfound
    cases device with
    | byPartlabel node => exact ⟨_, hfound, hentry⟩
    | dev node =>
        by_cases hname : name = node.disk
        · subst hname
          by_cases hdeleted : ∃ part, Deletes disk node.number outcomes part
          · obtain ⟨part, hdeleted⟩ := hdeleted
            obtain ⟨hmem, hnumber⟩ := entry_mem hdeleted.1
            obtain ⟨later, hlater, hentries⟩ := gpt_growDevice hdisk hdeleted
            have hne : entry.number ≠ node.number := by
              have hpart : entry ≠ part := fun h =>
                hlabel (h ▸ hdeletes node disk part rfl hdisk hdeleted)
              have : Std.Symm fun first second : PartEntry => first.number ≠ second.number :=
                ⟨fun _ _ hdistinct => hdistinct.symm⟩
              exact fun h => disk.numbers.forall hentry hmem hpart (h.trans hnumber.symm)
            have hkept : entry ∈ (disk.gpt.delete node.number).entries :=
              List.mem_filter.mpr ⟨hentry, by simpa using hne⟩
            refine ⟨later, hlater, ?_⟩
            rcases hentries with heq | ⟨_, -, heq⟩
            · exact heq ▸ hkept
            · exact heq ▸ List.mem_append_left _ hkept
          · rw [growDevice_dev hdisk]
            refine ⟨_, if_pos rfl, ?_⟩
            have hentries : (growEphemeralPartition disk.device.state node.number
                outcomes).1.gpt.entries = disk.gpt.entries := by
              by_cases hstarts : ∃ part, disk.gpt.entry node.number = some part ∧
                  Starts disk.sectors part outcomes
              · obtain ⟨part, hpart, hstarts⟩ := hstarts
                have hdelete : outcomes.delete = false := by
                  by_contra h
                  exact hdeleted ⟨part, hpart, hstarts, by simpa using h⟩
                rw [(@grow_of_starts disk.device.state _ _ _ hpart hstarts).2.2, hdelete]
                rfl
              · have hquiet : growEphemeralPartition disk.device.state node.number outcomes =
                    (disk.device.state, false) :=
                  grow_of_not_starts fun part hpart hstarts' => hstarts ⟨part, hpart, hstarts'⟩
                rw [hquiet]
                rfl
            exact hentries ▸ hentry
        · refine ⟨_, ?_, hentry⟩
          cases hnode : disks node.disk with
          | none =>
              have hnone : booted disks node.disk = none := by simp [booted, hnode]
              rw [growDevice, hnone]
              exact hfound
          | some other =>
              rw [growDevice_dev hnode]
              exact (if_neg hname).trans hfound

theorem nothingDestroyed_iff (disks : Text → Option BootedDisk) (device : DevicePath)
    (call : Call) :
    NothingDestroyed (booted disks) (prepareEphemeralDevice (booted disks) device call).1
      (prepareEphemeralDevice (booted disks) device call).2.1 ↔ Harmless disks device call := by
  have hrun : prepareEphemeralDevice (booted disks) device call =
      ((growDevice (booted disks) device call.grow).1,
        (ensureEphemeralFilesystem (growDevice (booted disks) device call.grow).1
          (refound (booted disks) device call) (growDevice (booted disks) device call.grow).2
          call.tools).1, _) := rfl
  rw [hrun]
  dsimp only
  by_cases hdeletes : ∀ node disk part, device = .dev node → disks node.disk = some disk →
      Deletes disk node.number call.grow part → part.label = partlabelEphemeral
  · constructor
    · rintro ⟨hformats, hresizes, -⟩
      refine ⟨hdeletes, fun entry hshown hlabel fs hheld hnormal => ?_,
        fun entry hshown hlabel => ?_⟩
      · rcases ensure_cases hshown with ⟨-, hrun⟩ | ⟨same, hsame, -⟩ | ⟨same, hsame, -⟩
        · have hmem : Command.mkfs (refound (booted disks) device call) ∈ [_] :=
            List.mem_singleton_self _
          rw [← hrun] at hmem
          exact absurd hnormal ((hformats _ entry hmem hshown).2 fs hheld)
        all_goals
          obtain rfl := recognised_unique hsame ((held_unchanged hdeletes hshown).trans hheld)
          exact hsame.2
      · rcases ensure_cases hshown with ⟨-, hrun⟩ | ⟨-, -, -, hrun⟩ | ⟨fs, hsame, hgrew, hlonger, -⟩
        · have hmem : Command.mkfs (refound (booted disks) device call) ∈ [_] :=
            List.mem_singleton_self _
          rw [← hrun] at hmem
          exact absurd (hformats _ entry hmem hshown).1 hlabel
        · have hmem : Command.resize2fs (refound (booted disks) device call) ∈ [_] :=
            List.mem_singleton_self _
          rw [← hrun] at hmem
          exact absurd (hresizes _ entry hmem hshown) hlabel
        · exact ⟨fs, ⟨(held_unchanged hdeletes hshown).symm.trans hsame.1, hsame.2⟩, hgrew, hlonger⟩
    · rintro ⟨-, hlabelled, hunlabelled⟩
      -- a command is run on the device, which has the label
      have hlabel : ∀ entry, (growDevice (booted disks) device call.grow).1.shown
          (refound (booted disks) device call).node = some entry → ∀ command ∈
          (ensureEphemeralFilesystem (growDevice (booted disks) device call.grow).1
            (refound (booted disks) device call) (growDevice (booted disks) device call.grow).2
            call.tools).1, entry.label = partlabelEphemeral := by
        intro entry hshown command hmem
        by_contra hother
        obtain ⟨fs, hsame, hgrew, hlonger⟩ := hunlabelled entry hshown hother
        have hgrown : Recognised _ _ entry call.tools fs :=
          ⟨(held_unchanged hdeletes hshown).trans hsame.1, hsame.2⟩
        rcases ensure_cases hshown with ⟨hnot, -⟩ | ⟨other, hother, hneeds, -⟩ | ⟨-, -, -, -, hrun⟩
        · exact hnot ⟨fs, hgrown⟩
        · obtain rfl := recognised_unique hother hgrown.1
          exact hneeds.elim (fun h => Bool.false_ne_true (hgrew.symm.trans h)) hlonger
        · rw [hrun] at hmem
          cases hmem
      refine ⟨fun final entry hmem hshown => ?_, fun final entry hmem hshown => ?_,
        (keeps_iff disks device call.grow).mpr hdeletes⟩
      · have hfinal : final = refound (booted disks) device call := by
          rcases mem_ensure hmem with h | h <;> cases h
          rfl
        subst hfinal
        refine ⟨hlabel entry hshown _ hmem, fun fs hheld hnormal => ?_⟩
        have hkept := hlabelled entry hshown (hlabel entry hshown _ hmem) fs hheld hnormal
        have hgrown : Recognised _ _ entry call.tools fs :=
          ⟨(held_unchanged hdeletes hshown).trans hheld, hkept⟩
        rcases ensure_cases hshown with ⟨hnot, -⟩ | ⟨-, -, -, hrun⟩ | ⟨-, -, -, -, hrun⟩
        · exact hnot ⟨fs, hgrown⟩
        · rw [hrun] at hmem
          cases List.mem_singleton.mp hmem
        · rw [hrun] at hmem
          cases hmem
      · have hfinal : final = refound (booted disks) device call := by
          rcases mem_ensure hmem with h | h <;> cases h
          rfl
        subst hfinal
        exact hlabel entry hshown _ hmem
  · refine iff_of_false (fun h => hdeletes ?_) fun h => hdeletes h.deletes
    exact (keeps_iff disks device call.grow).mp h.keeps

/-- Without a device nothing is done. -/
theorem nothingDestroyed_quiet (machine : Machine) : NothingDestroyed machine machine [] where
  formats := fun _ _ hmem => by cases hmem
  resizes := fun _ _ hmem => by cases hmem
  keeps := fun _ disk hdisk _ hentry _ => ⟨disk, hdisk, hentry⟩

/-- Both ways to grow destroy nothing if and only if what is done with the device that is found
is harmless. -/
theorem growing_destroys_nothing_iff (disks : Text → Option BootedDisk) (call : Call) :
    (NothingDestroyed (booted disks) (growEphemeralStorage (booted disks) call).1
        (growEphemeralStorage (booted disks) call).2.1 ↔
      ∀ device, findEphemeralDevice (booted disks) call.search = some device →
        Harmless disks device call) ∧
    (NothingDestroyed (booted disks) (prepareEphemeralAt (booted disks) call).1
        (prepareEphemeralAt (booted disks) call).2.1 ↔
      ∀ device, findEphemeralDevice (booted disks) call.search = some device →
        Harmless disks device call) := by
  rw [growEphemeralStorage, prepareEphemeralAt]
  cases findEphemeralDevice (booted disks) call.search with
  | none =>
      have hquiet := nothingDestroyed_quiet (booted disks)
      have hnone : ∀ device, none = some device → Harmless disks device call :=
        fun _ h => by cases h
      exact ⟨iff_of_true hquiet hnone, iff_of_true hquiet hnone⟩
  | some device =>
      have hiff := nothingDestroyed_iff disks device call
      have hfound : Harmless disks device call ↔
          ∀ found, some device = some found → Harmless disks found call :=
        ⟨fun h _ hsome => Option.some.inj hsome ▸ h, fun h => h device rfl⟩
      exact ⟨hiff.trans hfound, hiff.trans hfound⟩

end Safe

/-- A disk of 8 GiB that has been in use, with one inode for 16 KiB. -/
def usedDisk : BootedDisk where
  sectors := 16777216
  gpt := layoutOf8Gib.gpt
  content := fun sector => if sector = 6359040 then .ext4 ⟨1302016, 4096, 325632⟩ else .blank
  numbers := layoutOf8Gib.numbers
  aligned := by decide

/-- The label is found, `blkid` fails, and EPHEMERAL is formatted. -/
theorem silent_blkid_formats :
    ¬ ∀ (disks : Text → Option BootedDisk) (call : Call),
      NothingDestroyed (booted disks) (prepareEphemeralAt (booted disks) call).1
        (prepareEphemeralAt (booted disks) call).2.1 := by
  intro hclaim
  let disks : Text → Option BootedDisk := fun name =>
    if name = "vda".toList then some usedDisk else none
  let node : Node := ⟨"vda".toList, 6⟩
  let search : Search := { looks := [⟨none, [⟨node, true, true⟩]⟩], final := ⟨none, []⟩ }
  let call : Call := {
    search
    grow := ⟨true, true, true, true, true, true, true, true, true, true, true, true⟩
    again := search
    tools := ⟨false, ⟨true, true, none⟩, ⟨true, true, none⟩, true, true⟩
    mounts := true }
  have hmkfs : (prepareEphemeralAt (booted disks) call).2.1 = [.mkfs (.dev node)] := by
    decide +kernel
  have hshown : (prepareEphemeralAt (booted disks) call).1.shown node =
      some ⟨6, "8300".toList, partlabelEphemeral, 6359040, 16775167⟩ := by
    decide +kernel
  have hheld : (booted disks).held node = some (.ext4 ⟨1302016, 4096, 325632⟩) := rfl
  have hformat := (hclaim disks call).formats (.dev node) _ (hmkfs ▸ List.mem_cons_self) hshown
  exact hformat.2 _ hheld (by unfold Ext4.Normal; decide)

end PertiskKos.Disk
