import PertiskKos.Library.Ip

/-!
# The machines of a deleted cluster

A hypervisor lists machines by name.  The machines of a cluster are looked up by the
names of its nodes, and once more by the numbers that older names ended in.
-/

namespace PertiskKos.Mgmt

open Strings Ip

inductive ProviderKind where
  | vsphere
  | nutanix
  | pertiskVms
  /-- Any other kind is taken for this one. -/
  | proxmox
  deriving DecidableEq, Repr

/-- A machine in the inventory of a hypervisor; on Proxmox the id is its VMID. -/
structure Vm where
  id : Text
  name : Text
  deriving DecidableEq, Repr

structure PlannedCluster where
  name : Text
  kind : ProviderKind
  cpVmid : Option Int
  controlplanes : Int
  workers : Int
  deriving DecidableEq, Repr

structure NodeEntry where
  name : Text
  vmid : Option Int
  deriving DecidableEq, Repr

/-- What a hypervisor answers while one machine is deleted; `none` is an error. -/
structure Answers where
  byId : Option (List Vm)
  byName : Option (List Vm)
  /-- The machine is still there once it is off, and the last request is sent. -/
  persists : Bool
  deriving DecidableEq, Repr

structure Hypervisor where
  named : Text → Answers
  numbered : Int → Answers

/-- Which of the lookups before the first deletion succeed. -/
structure Reads where
  provider : Bool
  clusterName : Bool
  nodes : Bool
  deriving DecidableEq, Repr

def number (n : Int) : Text :=
  match n with
  | .ofNat n => decimal n
  | .negSucc n => '-' :: decimal (n + 1)

/-- The name that a machine had before names told the role. -/
def vmName (clusterName : Option Text) (vmid : Int) : Text :=
  match (clusterName.map trim).filter (· ≠ []) with
  | some name => name ++ '-' :: number vmid
  | none => number vmid

/-- The test for a machine of the given number. -/
def isForVmid (kind : ProviderKind) (clusterName : Option Text) (vmid : Int) (vm : Vm) :
    Bool :=
  vm.name = vmName clusterName vmid || vm.name = number vmid ||
    endsWith vm.name ('-' :: number vmid) ||
    (kind = .pertiskVms && vm.id = number vmid)

def findVm (name : Text) (answers : Answers) : Option Vm :=
  answers.byName.bind fun vms => vms.find? fun vm => vm.name = name

def findVmForVmid (kind : ProviderKind) (clusterName : Option Text) (vmid : Int)
    (answers : Answers) : Option Vm :=
  answers.byId.bind fun vms => vms.find? (isForVmid kind clusterName vmid)

/-- The machine whose destruction is requested, if one is. -/
def deleteVmByName (name : Text) (answers : Answers) : Option Vm :=
  (findVm name answers).filter fun _ => answers.persists

def deleteVm (kind : ProviderKind) (clusterName : Option Text) (vmid : Int)
    (answers : Answers) : Option Vm :=
  (findVmForVmid kind clusterName vmid answers).bind fun vm =>
    deleteVmByName vm.name answers

/-- Deletion on Proxmox, which knows its machines by their numbers. -/
def deleteVmid (vmid : Int) (answers : Answers) : Option Vm :=
  (answers.byId.bind fun vms => vms.find? fun vm => vm.id = number vmid).filter
    fun _ => answers.persists

/-- Deletions in order, none for a name that has been tried. -/
def tryEach (tried : List Text) : List (Text × Option Vm) → List Vm
  | [] => []
  | (name, deleted) :: rest =>
      if name ∈ tried then tryEach tried rest
      else deleted.toList ++ tryEach (name :: tried) rest

/-- The numbers of the recorded nodes or, when none has one, those that were planned. -/
def purgeVmids (cluster : PlannedCluster) (nodes : List NodeEntry) : List Int :=
  let recorded := nodes.filterMap NodeEntry.vmid
  let vmids :=
    if recorded = [] then
      match cluster.cpVmid with
      | some base =>
          (List.range (cluster.controlplanes + cluster.workers).toNat).map (base + ·)
      | none => []
    else recorded
  (vmids.insertionSort (· ≤ ·)).destutter (· ≠ ·)

/-- The machines whose destruction is requested when a cluster is deleted. -/
def purgeCluster (cluster : PlannedCluster) (rows : List NodeEntry) (reads : Reads)
    (hypervisor : Hypervisor) : List Vm :=
  let clusterName := if reads.clusterName then some cluster.name else none
  let nodes := if reads.nodes then rows else []
  let vmids := purgeVmids cluster nodes
  if reads.provider = false then []
  else if cluster.kind = .proxmox then
    vmids.filterMap fun vmid => deleteVmid vmid (hypervisor.numbered vmid)
  else
    tryEach []
      (nodes.map (fun node =>
          (node.name, deleteVmByName node.name (hypervisor.named node.name))) ++
        vmids.map fun vmid =>
          (vmName clusterName vmid,
            deleteVm cluster.kind clusterName vmid (hypervisor.numbered vmid)))

/-- The machines whose destruction is requested when a node is removed. -/
def removeOneNode (cluster : PlannedCluster) (node : NodeEntry) (reads : Reads)
    (hypervisor : Hypervisor) : List Vm :=
  let clusterName := if reads.clusterName then cluster.name else []
  match node.vmid with
  | none => []
  | some vmid =>
      if reads.provider = false then []
      else if cluster.kind = .proxmox then
        (deleteVmid vmid (hypervisor.numbered vmid)).toList
      else
        (deleteVmByName node.name (hypervisor.named node.name)).toList ++
          if vmName (some clusterName) vmid = node.name then []
          else
            (deleteVm cluster.kind (some clusterName) vmid
              (hypervisor.numbered vmid)).toList

/-- The machine is one of the given rows of the cluster. -/
def IsOwn (cluster : PlannedCluster) (rows : List NodeEntry) (vm : Vm) : Prop :=
  (∃ row ∈ rows, vm.name = row.name) ∨
  (∃ row ∈ rows, ∃ vmid ∈ row.vmid, vm.name = cluster.name ++ '-' :: number vmid) ∨
  (cluster.kind = .proxmox ∧ ∃ row ∈ rows, ∃ vmid ∈ row.vmid, vm.id = number vmid)

instance (cluster : PlannedCluster) (rows : List NodeEntry) (vm : Vm) :
    Decidable (IsOwn cluster rows vm) :=
  inferInstanceAs (Decidable (_ ∨ _ ∨ _))

/-- The machine bears the name of a row, or the name that it had before. -/
def HasOwnName (cluster : PlannedCluster) (rows : List NodeEntry) (vm : Vm) : Prop :=
  (∃ row ∈ rows, vm.name = row.name) ∨
  ∃ row ∈ rows, ∃ vmid ∈ row.vmid, vm.name = cluster.name ++ '-' :: number vmid

/-- A machine that is found by its number, and then again by the name it has there, bears
a name of the cluster. -/
def FindsOwn (cluster : PlannedCluster) (rows : List NodeEntry) (clusterName : Option Text)
    (vmid : Int) (answers : Answers) : Prop :=
  ∀ vm ∈ findVmForVmid cluster.kind clusterName vmid answers,
    findVm vm.name answers ≠ none → answers.persists = true →
      HasOwnName cluster rows vm

/-- A machine of the given number is a recorded one, or bears a name of the cluster. -/
def NumbersOwn (cluster : PlannedCluster) (rows : List NodeEntry) (vmid : Int)
    (answers : Answers) : Prop :=
  (∃ row ∈ rows, row.vmid = some vmid) ∨
    ∀ vm ∈ deleteVmid vmid answers, HasOwnName cluster rows vm

/-- The lookups of a deletion come upon machines of the cluster only. -/
def PurgeFindsOwn (cluster : PlannedCluster) (rows : List NodeEntry) (reads : Reads)
    (hypervisor : Hypervisor) : Prop :=
  let clusterName := if reads.clusterName then some cluster.name else none
  let nodes := if reads.nodes then rows else []
  reads.provider = true → ∀ vmid ∈ purgeVmids cluster nodes,
    if cluster.kind = .proxmox then
      NumbersOwn cluster rows vmid (hypervisor.numbered vmid)
    else
      vmName clusterName vmid ∉ nodes.map NodeEntry.name →
        FindsOwn cluster rows clusterName vmid (hypervisor.numbered vmid)

/-- The lookup by number of a removal comes upon the node's machine only. -/
def RemovalFindsOwn (cluster : PlannedCluster) (node : NodeEntry) (reads : Reads)
    (hypervisor : Hypervisor) : Prop :=
  let clusterName := if reads.clusterName then cluster.name else []
  reads.provider = true → cluster.kind ≠ .proxmox → ∀ vmid ∈ node.vmid,
    vmName (some clusterName) vmid ≠ node.name →
      FindsOwn cluster [node] (some clusterName) vmid (hypervisor.numbered vmid)

section Names

theorem decimal_injective : Function.Injective decimal := by
  intro n m hsame
  have hvalue := congrArg (fun digits => Nat.ofDigitChars 10 digits 0) hsame
  simpa only [decimal, Nat.ofDigitChars_ten_toDigits] using hvalue

theorem decimal_ne_negative (n : Nat) (rest : Text) : decimal n ≠ '-' :: rest := by
  intro hsame
  have hdigit : '-'.isDigit = true := by
    apply Nat.isDigit_of_mem_toDigits (b := 10) (n := n) (by decide) (by decide)
    change '-' ∈ decimal n
    rw [hsame]
    exact List.mem_cons_self
  exact absurd hdigit (by decide)

theorem number_injective : Function.Injective number := by
  intro n m hsame
  cases n with
  | ofNat n =>
      cases m with
      | ofNat m => rw [decimal_injective hsame]
      | negSucc m => exact absurd hsame (decimal_ne_negative n _)
  | negSucc n =>
      cases m with
      | ofNat m => exact absurd hsame.symm (decimal_ne_negative m _)
      | negSucc m =>
          have hsucc := decimal_injective (List.cons_inj_right _ |>.mp hsame)
          rw [Nat.succ.inj hsucc]

theorem vmName_injective (clusterName : Option Text) :
    Function.Injective (vmName clusterName) := by
  intro n m hsame
  simp only [vmName] at hsame
  split at hsame
  · exact number_injective (List.cons_inj_right _ |>.mp (List.append_cancel_left hsame))
  · exact number_injective hsame

end Names

section Deletions

variable {name : Text} {answers : Answers} {vm : Vm}

theorem findVm_name (hvm : vm ∈ findVm name answers) : vm.name = name := by
  obtain ⟨vms, -, hfind⟩ := Option.bind_eq_some_iff.mp hvm
  simpa using List.find?_some hfind

theorem deleteVmByName_name (hvm : vm ∈ deleteVmByName name answers) : vm.name = name := by
  obtain ⟨hfind, -⟩ := Option.filter_eq_some_iff.mp hvm
  exact findVm_name hfind

theorem deleteVmid_id {vmid : Int} (hvm : vm ∈ deleteVmid vmid answers) :
    vm.id = number vmid := by
  obtain ⟨hfind, -⟩ := Option.filter_eq_some_iff.mp hvm
  obtain ⟨vms, -, hfirst⟩ := Option.bind_eq_some_iff.mp hfind
  simpa using List.find?_some hfirst

/-- The machines of a sequence of deletions: those that the first try for a name gives. -/
theorem mem_tryEach {tries : List (Text × Option Vm)} {tried : List Text} :
    vm ∈ tryEach tried tries ↔
      ∃ before name deleted after, tries = before ++ (name, deleted) :: after ∧
        name ∉ tried ∧ name ∉ before.map Prod.fst ∧ vm ∈ deleted := by
  induction tries generalizing tried with
  | nil => simp [tryEach]
  | cons first rest ih =>
      obtain ⟨first, deleted⟩ := first
      rw [tryEach]
      constructor
      · split
        · next hfirst =>
            rw [ih]
            rintro ⟨before, name, deleted', after, rfl, htried, hbefore, hvm⟩
            refine ⟨(first, deleted) :: before, name, deleted', after, rfl, htried, ?_, hvm⟩
            rw [List.map_cons, List.mem_cons]
            rintro (rfl | hmem)
            · exact htried hfirst
            · exact hbefore hmem
        · next hfirst =>
            rw [List.mem_append, ih]
            rintro (hvm | ⟨before, name, deleted', after, rfl, htried, hbefore, hvm⟩)
            · exact ⟨[], first, deleted, rest, rfl, hfirst, List.not_mem_nil,
                Option.mem_toList.mp hvm⟩
            · rw [List.mem_cons, not_or] at htried
              refine ⟨(first, deleted) :: before, name, deleted', after, rfl, htried.2, ?_,
                hvm⟩
              rw [List.map_cons, List.mem_cons]
              rintro (rfl | hmem)
              · exact htried.1 rfl
              · exact hbefore hmem
      · rintro ⟨before, name, deleted', after, hsplit, htried, hbefore, hvm⟩
        cases before with
        | nil =>
            cases hsplit
            rw [if_neg htried]
            exact List.mem_append_left _ (Option.mem_toList.mpr hvm)
        | cons head before =>
            cases hsplit
            rw [List.map_cons, List.mem_cons, not_or] at hbefore
            split
            · exact ih.mpr ⟨before, name, deleted', after, rfl, htried, hbefore.2, hvm⟩
            · refine List.mem_append_right _ (ih.mpr
                ⟨before, name, deleted', after, rfl, ?_, hbefore.2, hvm⟩)
              rw [List.mem_cons, not_or]
              exact ⟨hbefore.1, htried⟩

end Deletions

section Ownership

variable {cluster : PlannedCluster} {rows : List NodeEntry} {vm : Vm}

theorem isOwn_iff_hasOwnName (hkind : cluster.kind ≠ .proxmox) :
    IsOwn cluster rows vm ↔ HasOwnName cluster rows vm := by
  simp [IsOwn, HasOwnName, hkind]

/-- A deletion by number spares the others exactly when its lookup does. -/
theorem deleteVm_own_iff (hkind : cluster.kind ≠ .proxmox) {clusterName : Option Text}
    {vmid : Int} {answers : Answers} :
    (∀ vm ∈ deleteVm cluster.kind clusterName vmid answers, IsOwn cluster rows vm) ↔
      FindsOwn cluster rows clusterName vmid answers := by
  constructor
  · intro hown vm hvm hagain hpersists
    obtain ⟨again, hfind⟩ := Option.ne_none_iff_exists'.mp hagain
    have hdeleted : again ∈ deleteVm cluster.kind clusterName vmid answers :=
      Option.bind_eq_some_iff.mpr
        ⟨vm, hvm, Option.filter_eq_some_iff.mpr ⟨hfind, hpersists⟩⟩
    have hname := (isOwn_iff_hasOwnName hkind).mp (hown again hdeleted)
    rwa [HasOwnName, findVm_name hfind] at hname
  · intro hfinds vm hvm
    obtain ⟨found, hfound, hdeleted⟩ := Option.bind_eq_some_iff.mp hvm
    obtain ⟨hfind, hpersists⟩ := Option.filter_eq_some_iff.mp hdeleted
    have hagain : findVm found.name answers ≠ none := by
      rw [hfind]
      exact Option.some_ne_none vm
    have hname := hfinds found hfound hagain hpersists
    rw [isOwn_iff_hasOwnName hkind, HasOwnName, findVm_name hfind]
    exact hname

theorem deleteVmid_own_iff (hkind : cluster.kind = .proxmox) {vmid : Int}
    {answers : Answers} :
    (∀ vm ∈ deleteVmid vmid answers, IsOwn cluster rows vm) ↔
      NumbersOwn cluster rows vmid answers := by
  constructor
  · intro hown
    by_cases hrow : ∃ row ∈ rows, row.vmid = some vmid
    · exact .inl hrow
    · refine .inr fun vm hvm => ?_
      obtain hname | hlegacy | ⟨-, row, hmem, other, hother, hid⟩ := hown vm hvm
      · exact .inl hname
      · exact .inr hlegacy
      · rw [deleteVmid_id hvm] at hid
        rw [number_injective hid] at hrow
        exact absurd ⟨row, hmem, hother⟩ hrow
  · rintro (⟨row, hmem, hvmid⟩ | hnames) vm hvm
    · exact .inr (.inr ⟨hkind, row, hmem, vmid, hvmid, deleteVmid_id hvm⟩)
    · obtain hname | hlegacy := hnames vm hvm
      · exact .inl hname
      · exact .inr (.inl hlegacy)

/-- Where the first try for a name stands in two sequences of deletions. -/
theorem first_try_cases {first second before after : List (Text × Option Vm)}
    {name : Text} {deleted : Option Vm}
    (hsplit : first ++ second = before ++ (name, deleted) :: after)
    (hbefore : name ∉ before.map Prod.fst) :
    (name, deleted) ∈ first ∨
      (name, deleted) ∈ second ∧ name ∉ first.map Prod.fst := by
  obtain ⟨rest, rfl, rfl⟩ | ⟨rest, rfl, hrest⟩ := List.append_eq_append_iff.mp hsplit
  · refine .inr ⟨List.mem_append_right _ List.mem_cons_self, fun hmem => hbefore ?_⟩
    rw [List.map_append]
    exact List.mem_append_left _ hmem
  · cases rest with
    | nil =>
        rw [List.append_nil]
        rw [List.nil_append] at hrest
        exact .inr ⟨hrest ▸ List.mem_cons_self, hbefore⟩
    | cons head rest =>
        cases hrest
        exact .inl (List.mem_append_right _ List.mem_cons_self)

/-- The deletion of a cluster destroys its own machines exactly when its lookups come upon
them only. -/
theorem purge_own_iff (reads : Reads) (hypervisor : Hypervisor) :
    (∀ vm ∈ purgeCluster cluster rows reads hypervisor, IsOwn cluster rows vm) ↔
      PurgeFindsOwn cluster rows reads hypervisor := by
  rw [purgeCluster, PurgeFindsOwn]
  by_cases hprovider : reads.provider = true
  · rw [if_neg (by simp [hprovider]), forall_prop_of_true hprovider]
    by_cases hkind : cluster.kind = .proxmox
    · simp only [if_pos hkind, List.mem_filterMap]
      constructor
      · intro hown vmid hvmid
        exact (deleteVmid_own_iff hkind).mp fun vm hvm => hown vm ⟨vmid, hvmid, hvm⟩
      · rintro hfinds vm ⟨vmid, hvmid, hvm⟩
        exact (deleteVmid_own_iff hkind).mpr (hfinds vmid hvmid) vm hvm
    · simp only [if_neg hkind]
      generalize hnodes : (if reads.nodes then rows else []) = nodes
      generalize (if reads.clusterName then some cluster.name else none) = clusterName
      constructor
      · intro hown vmid hvmid hname
        rw [← deleteVm_own_iff hkind]
        intro vm hvm
        obtain ⟨before, after, hsplit, hbefore⟩ := List.eq_append_cons_of_mem hvmid
        apply hown vm
        rw [mem_tryEach, hsplit, List.map_append, List.map_cons, ← List.append_assoc]
        refine ⟨_, _, _, _, rfl, List.not_mem_nil, ?_, hvm⟩
        rw [List.map_append, List.map_map, List.map_map, List.mem_append, not_or]
        refine ⟨hname, fun hmem => ?_⟩
        obtain ⟨other, hother, hsame⟩ := List.mem_map.mp hmem
        exact hbefore (vmName_injective clusterName hsame ▸ hother)
      · intro hfinds vm hvm
        obtain ⟨before, name, deleted, after, hsplit, -, hbefore, hdeleted⟩ :=
          mem_tryEach.mp hvm
        obtain hnamed | ⟨hnumbered, hother⟩ := first_try_cases hsplit hbefore
        · obtain ⟨node, hnode, heq⟩ := List.mem_map.mp hnamed
          cases heq
          have hrow : node ∈ rows := by
            rw [← hnodes] at hnode
            split at hnode
            · exact hnode
            · cases hnode
          exact .inl ⟨node, hrow, deleteVmByName_name hdeleted⟩
        · obtain ⟨vmid, hvmid, heq⟩ := List.mem_map.mp hnumbered
          cases heq
          rw [List.map_map] at hother
          exact (deleteVm_own_iff hkind).mpr (hfinds vmid hvmid hother) vm hdeleted
  · simp [hprovider]

theorem removal_own_iff (node : NodeEntry) (reads : Reads) (hypervisor : Hypervisor) :
    (∀ vm ∈ removeOneNode cluster node reads hypervisor, IsOwn cluster [node] vm) ↔
      RemovalFindsOwn cluster node reads hypervisor := by
  rw [removeOneNode, RemovalFindsOwn]
  cases hvmid : node.vmid with
  | none => simp
  | some vmid =>
      by_cases hprovider : reads.provider = true
      · by_cases hkind : cluster.kind = .proxmox
        · refine iff_of_true ?_ fun _ hother => absurd hkind hother
          simp only [hprovider, hkind, Bool.true_eq_false, if_false, if_true]
          intro vm hvm
          exact (deleteVmid_own_iff hkind).mpr
            (.inl ⟨node, List.mem_singleton_self node, hvmid⟩) vm (Option.mem_toList.mp hvm)
        · simp only [hprovider, hkind, Bool.true_eq_false, if_false, List.mem_append,
            forall_prop_of_true, ne_eq, not_false_eq_true, Option.mem_some_iff]
          generalize (if reads.clusterName then cluster.name else []) = clusterName
          constructor
          · rintro hown _ rfl hname
            rw [← deleteVm_own_iff hkind]
            intro vm hvm
            rw [if_neg hname] at hown
            exact hown vm (.inr (Option.mem_toList.mpr hvm))
          · rintro hfinds vm (hnamed | hnumbered)
            · have hname := deleteVmByName_name (Option.mem_toList.mp hnamed)
              exact .inl ⟨node, List.mem_singleton_self node, hname⟩
            · split at hnumbered
              · cases hnumbered
              · next hname =>
                  exact (deleteVm_own_iff hkind).mpr (hfinds vmid rfl hname) vm
                    (Option.mem_toList.mp hnumbered)
      · simp [hprovider]

/-- A deletion and a removal destroy machines of their cluster only, exactly when their
lookups come upon such machines only. -/
theorem destroys_own_iff (reads : Reads) (hypervisor : Hypervisor) :
    ((∀ vm ∈ purgeCluster cluster rows reads hypervisor, IsOwn cluster rows vm) ↔
      PurgeFindsOwn cluster rows reads hypervisor) ∧
    ∀ node,
      (∀ vm ∈ removeOneNode cluster node reads hypervisor, IsOwn cluster [node] vm) ↔
        RemovalFindsOwn cluster node reads hypervisor :=
  ⟨purge_own_iff reads hypervisor, fun node => removal_own_iff node reads hypervisor⟩

end Ownership

/-- A cluster whose machines are numbered from one. -/
def firstLab : PlannedCluster where
  name := ['a']
  kind := .vsphere
  cpVmid := some 1
  controlplanes := 1
  workers := 0

def firstLabNodes : List NodeEntry := [{ name := "a-cp-1".toList, vmid := some 1 }]

/-- An inventory in which the other cluster's machine is left once `a-cp-1` is gone. -/
def sharedHost : Hypervisor where
  named := fun _ =>
    { byId := none
      byName := some [⟨"vm-7".toList, "a-cp-1".toList⟩, ⟨"vm-9".toList, "b-cp-1".toList⟩]
      persists := true }
  numbered := fun _ =>
    { byId := some [⟨"vm-9".toList, "b-cp-1".toList⟩]
      byName := some [⟨"vm-9".toList, "b-cp-1".toList⟩]
      persists := true }

/-- The machine of cluster `b` ends in the number of the deleted node. -/
theorem foreign_vm_destroyed :
    ¬ ∀ vm ∈ purgeCluster firstLab firstLabNodes ⟨true, true, true⟩ sharedHost,
      IsOwn firstLab firstLabNodes vm := by
  intro hown
  have hforeign := hown ⟨"vm-9".toList, "b-cp-1".toList⟩ (by decide +kernel)
  revert hforeign
  decide +kernel

end PertiskKos.Mgmt
