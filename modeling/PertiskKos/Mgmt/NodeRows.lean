import PertiskKos.Library.Runs
import PertiskKos.Mgmt.Purge

/-!
# Names and numbers of nodes

The jobs that create a cluster and that add, adopt and remove nodes compute the names and
the VMIDs of nodes from counters in the row of the cluster.  The rows below are those of
one provider; each cluster has at most one such job at work, and the jobs of different
clusters may be at any of their statements.
-/

namespace PertiskKos.Nodes

open Strings Mgmt Runs

inductive Role where
  | controlplane
  | worker
  deriving DecidableEq, Repr

structure ClusterRow where
  name : Text
  cpVmid : Option Int
  controlplanes : Int
  workers : Int
  deriving DecidableEq, Repr

structure NodeRow where
  role : Role
  vmid : Option Int
  deriving DecidableEq, Repr

/-- The cluster and the name of a node. -/
abbrev Key := Nat × Text

/-- A row that the creation of a cluster writes. -/
structure Seed where
  name : Text
  role : Role
  vmid : Option Int
  deriving DecidableEq, Repr

/-- The local variables of the job at work on a cluster. -/
inductive Work where
  /-- Creation, with the rows left to write. -/
  | creating (row : ClusterRow) (todo : List Seed)
  /-- Nodes left to add; the base is read when the job starts. -/
  | adding (row : ClusterRow) (role : Role) (left : Nat)
  /-- The counter is written, the row is not. -/
  | inserting (row : ClusterRow) (role : Role) (left : Nat) (name : Text) (vmid : Int)
  | adopting (row : ClusterRow) (role : Role) (custom : Option Text)
  | checking (role : Role) (name : Text)
  | removing (names : List Text)
  /-- The counter is written, the row is still there. -/
  | deleting (name : Text) (names : List Text)
  deriving DecidableEq, Repr

structure State where
  clusters : AList fun _ : Nat => ClusterRow
  nodes : AList fun _ : Key => NodeRow
  work : AList fun _ : Nat => Work
  nextCluster : Nat
  /-- A node could not be added because its name was taken. -/
  clashed : Bool

/-- The VMID in a row. -/
def State.vmid (state : State) (key : Key) : Option Int :=
  (state.nodes.lookup key).bind NodeRow.vmid

def cpName (cluster : Text) (index : Int) : Text := cluster ++ "-cp-".toList ++ number index

def wkName (cluster : Text) (index : Int) : Text := cluster ++ "-wk-".toList ++ number index

/-- The base of the numbers when none is recorded. -/
def defaultBase : Int := 210

/-- The rows of a new cluster, control planes first. -/
def seedStubNodes (row : ClusterRow) : List Seed :=
  (List.range row.controlplanes.toNat).map (fun i : Nat =>
      { name := cpName row.name (i + 1)
        role := .controlplane
        vmid := row.cpVmid.map (· + (i : Int)) }) ++
    (List.range row.workers.toNat).map fun i : Nat =>
      { name := wkName row.name (i + 1)
        role := .worker
        vmid := some (row.cpVmid.getD defaultBase + row.controlplanes + i) }

namespace State

/-- `INSERT … ON CONFLICT DO UPDATE`: a number that is not given stays as it is. -/
def upsert (state : State) (key : Key) (role : Role) (vmid : Option Int) : State :=
  match state.nodes.lookup key with
  | some row => { state with nodes := state.nodes.insert key ⟨row.role, vmid.or row.vmid⟩ }
  | none => { state with nodes := state.nodes.insert key ⟨role, vmid⟩ }

/-- Some row of the cluster has the number. -/
def hasVmid (state : State) (cluster : Nat) (vmid : Option Int) : Bool :=
  vmid.isSome &&
    state.nodes.entries.any fun row => row.1.1 = cluster && row.2.vmid = vmid

/-- A line of the creation's log names a node: by its name, else by its number. -/
def touchNodeProgress (state : State) (key : Key) (role : Role) (vmid : Option Int) :
    State :=
  match state.nodes.lookup key with
  | some row => { state with nodes := state.nodes.insert key ⟨role, vmid.or row.vmid⟩ }
  | none => if state.hasVmid key.1 vmid then state else state.upsert key role vmid

def setCluster (state : State) (cluster : Nat) (row : ClusterRow) : State :=
  { state with clusters := state.clusters.insert cluster row }

def setWork (state : State) (cluster : Nat) (work : Work) : State :=
  { state with work := state.work.insert cluster work }

def stop (state : State) (cluster : Nat) : State :=
  { state with work := state.work.erase cluster }

end State

namespace State

/-- A job starts on a cluster that has none at work. -/
def begins (state : State) (cluster : Nat) (start : ClusterRow → ClusterRow × Work) :
    Option State :=
  match state.clusters.lookup cluster, state.work.lookup cluster with
  | some row, none =>
      some ((state.setCluster cluster (start row).1).setWork cluster (start row).2)
  | _, _ => none

/-- The first statements of a creation: the base is made up if it has to be, and kept. -/
def planned (payload : Option Int) (row : ClusterRow) : ClusterRow :=
  { row with cpVmid := some (row.cpVmid.getD (payload.getD defaultBase)) }

/-- A counter goes up; the name and the number of the next node. -/
def choose (base : ClusterRow) (role : Role) (row : ClusterRow) : ClusterRow × Text × Int :=
  match role with
  | .controlplane =>
      let index := row.controlplanes + 1
      ({ row with controlplanes := index }, cpName base.name index,
        base.cpVmid.getD defaultBase + index - 1)
  | .worker =>
      let index := row.workers + 1
      ({ row with workers := index }, wkName base.name index,
        base.cpVmid.getD defaultBase + row.controlplanes + index - 1)

/-- A counter goes down, that of the workers not below zero. -/
def uncount (role : Role) (row : ClusterRow) : ClusterRow :=
  match role with
  | .controlplane => { row with controlplanes := row.controlplanes - 1 }
  | .worker => { row with workers := max (row.workers - 1) 0 }

/-- The control planes that are left would be a majority of those there. -/
def removable (role : Role) (row : ClusterRow) : Bool :=
  match role with
  | .controlplane =>
      1 ≤ row.controlplanes - 1 ∧
        (row.controlplanes / 2 + 1 ≤ row.controlplanes - 1 ∨ row.controlplanes ≤ 1)
  | .worker => true

/-- The insert of a node to add; it fails if the name is taken. -/
def insertNode (state : State) (cluster : Nat) (row : ClusterRow) (role : Role) (left : Nat)
    (name : Text) (vmid : Int) : State :=
  if (state.nodes.lookup (cluster, name)).isSome then
    { state.stop cluster with clashed := true }
  else
    { state with nodes := state.nodes.insert (cluster, name) ⟨role, some vmid⟩ }.setWork
      cluster (.adding row role left)

/-- The check of an adopted node's name, after the counter has gone up. -/
def checkName (state : State) (cluster : Nat) (row : ClusterRow) (role : Role)
    (name : Text) : State :=
  if (state.nodes.lookup (cluster, name)).isSome then
    (state.setCluster cluster (uncount role row)).stop cluster
  else
    { state with nodes := state.nodes.insert (cluster, name) ⟨role, none⟩ }.stop cluster

/-- The start of the removal of a node. -/
def countNode (state : State) (cluster : Nat) (row : ClusterRow) (name : Text)
    (names : List Text) : State :=
  match state.nodes.lookup (cluster, name) with
  | none => state.stop cluster
  | some node =>
      if removable node.role row then
        (state.setCluster cluster (uncount node.role row)).setWork cluster
          (.deleting name names)
      else state.stop cluster

/-- The next statement of the job at work on a cluster. -/
def advance (state : State) (cluster : Nat) (row : ClusterRow) : Work → Option State
  | .creating _ [] => none
  | .creating snapshot (seed :: todo) =>
      some ((state.upsert (cluster, seed.name) seed.role seed.vmid).setWork cluster
        (.creating snapshot todo))
  | .adding _ _ 0 => none
  | .adding base role (left + 1) =>
      let chosen := choose base role row
      some ((state.setCluster cluster chosen.1).setWork cluster
        (.inserting base role left chosen.2.1 chosen.2.2))
  | .inserting base role left name vmid =>
      some (state.insertNode cluster base role left name vmid)
  | .adopting base role custom =>
      let chosen := choose base role row
      some ((state.setCluster cluster chosen.1).setWork cluster
        (.checking role (custom.getD chosen.2.1)))
  | .checking role name => some (state.checkName cluster row role name)
  | .removing [] => none
  | .removing (name :: names) => some (state.countNode cluster row name names)
  | .deleting name names =>
      some ({ state with nodes := state.nodes.erase (cluster, name) }.setWork cluster
        (.removing names))

end State

inductive Event where
  | request (name : Text) (cpVmid : Int) (controlplanes workers : Int)
  | creates (cluster : Nat) (payload : Option Int)
  | adds (cluster : Nat) (role : Role) (count : Nat)
  | adopts (cluster : Nat) (role : Role) (custom : Option Text)
  | removes (cluster : Nat) (names : List Text)
  /-- The job at work on the cluster runs its next statement. -/
  | advances (cluster : Nat)
  /-- The creation's script writes a line about a node. -/
  | progress (cluster : Nat) (name : Text) (role : Role) (vmid : Option Int)
  /-- The script is done, and the rows are written again. -/
  | reseeds (cluster : Nat)
  /-- The job ends, fails or is stopped. -/
  | stops (cluster : Nat)
  deriving DecidableEq

def step (state : State) : Event → Option State
  | .request name cpVmid controlplanes workers =>
      if state.clusters.entries.any fun row => row.2.name = name then none
      else
        some { state.setCluster state.nextCluster
            { name, cpVmid := some cpVmid, controlplanes, workers } with
          nextCluster := state.nextCluster + 1 }
  | .creates cluster payload =>
      state.begins cluster fun row =>
        let row := State.planned payload row
        (row, .creating row (seedStubNodes row))
  | .adds cluster role count =>
      state.begins cluster fun row => (row, .adding row role (min (max count 1) 16))
  | .adopts cluster role custom =>
      state.begins cluster fun row => (row, .adopting row role custom)
  | .removes cluster names => state.begins cluster fun row => (row, .removing names)
  | .advances cluster =>
      match state.clusters.lookup cluster, state.work.lookup cluster with
      | some row, some work => state.advance cluster row work
      | _, _ => none
  | .progress cluster name role vmid =>
      match state.work.lookup cluster with
      | some (.creating _ []) => some (state.touchNodeProgress (cluster, name) role vmid)
      | _ => none
  | .reseeds cluster =>
      match state.work.lookup cluster with
      | some (.creating row []) =>
          some (state.setWork cluster (.creating row (seedStubNodes row)))
      | _ => none
  | .stops cluster =>
      if (state.work.lookup cluster).isSome then some (state.stop cluster) else none

/-- Every VMID is in one row at most. -/
def Distinct (state : State) : Prop :=
  ∀ key other vmid, state.vmid key = some vmid → state.vmid other = some vmid → key = other

/-- No two rows share a VMID, and every added node had a name of its own. -/
def Good (state : State) : Prop := Distinct state ∧ state.clashed = false

/-- No other row has the number. -/
def FreeFor (state : State) (key : Key) (vmid : Option Int) : Prop :=
  ∀ number ∈ vmid, ∀ other, other ≠ key → state.vmid other ≠ some number

/-- The next row that the event writes has a name of its own if it is an added node, and a
number that no other row has. -/
def Kept (state : State) : Event → Prop
  | .advances cluster =>
      match state.work.lookup cluster with
      | some (.creating _ (seed :: _)) => FreeFor state (cluster, seed.name) seed.vmid
      | some (.inserting _ _ _ name vmid) =>
          state.nodes.lookup (cluster, name) = none ∧
            FreeFor state (cluster, name) (some vmid)
      | _ => True
  | .progress cluster name _ vmid =>
      (state.nodes.lookup (cluster, name)).isSome ∨ state.hasVmid cluster vmid = false →
        FreeFor state (cluster, name) vmid
  | _ => True

/-- Read off the rows. -/
theorem freeFor_iff (state : State) (key : Key) (vmid : Option Int) :
    FreeFor state key vmid ↔
      ∀ entry ∈ state.nodes.entries, entry.1 ≠ key → ∀ number ∈ vmid,
        entry.2.vmid ≠ some number := by
  constructor
  · intro hfree entry hentry hother number hnumber htaken
    have hlookup := AList.mem_lookup_iff.mpr hentry
    apply hfree number hnumber entry.1 hother
    rw [State.vmid, hlookup]
    exact htaken
  · intro hentries number hnumber other hother htaken
    obtain ⟨row, hrow, hvmid⟩ := Option.bind_eq_some_iff.mp htaken
    exact hentries ⟨other, row⟩ (AList.mem_lookup_iff.mp hrow) hother number hnumber hvmid

instance (state : State) (key : Key) (vmid : Option Int) :
    Decidable (FreeFor state key vmid) :=
  decidable_of_iff _ (freeFor_iff state key vmid).symm

instance : ∀ state event, Decidable (Kept state event)
  | state, .advances cluster =>
      match hwork : state.work.lookup cluster with
      | some (.creating _ (seed :: _)) =>
          decidable_of_iff (FreeFor state (cluster, seed.name) seed.vmid)
            (by rw [Kept, hwork])
      | some (.inserting _ _ _ name vmid) =>
          decidable_of_iff
            (state.nodes.lookup (cluster, name) = none ∧
              FreeFor state (cluster, name) (some vmid))
            (by rw [Kept, hwork])
      | some (.creating _ []) | some (.adding _ _ _) | some (.adopting _ _ _)
      | some (.checking _ _) | some (.removing _) | some (.deleting _ _) | none =>
          isTrue (by rw [Kept, hwork]; trivial)
  | state, .progress cluster name _ vmid => inferInstanceAs
      (Decidable ((state.nodes.lookup (cluster, name)).isSome ∨
        state.hasVmid cluster vmid = false → FreeFor state (cluster, name) vmid))
  | _, .request _ _ _ _ | _, .creates _ _ | _, .adds _ _ _ | _, .adopts _ _ _
  | _, .removes _ _ | _, .reseeds _ | _, .stops _ => isTrue trivial

section Rows

variable {state : State} {key : Key} {row : NodeRow}

theorem vmid_insert_self : State.vmid { state with nodes := state.nodes.insert key row } key =
    row.vmid := by
  rw [State.vmid, AList.lookup_insert]
  rfl

theorem vmid_insert_other {other : Key} (hother : other ≠ key) :
    State.vmid { state with nodes := state.nodes.insert key row } other =
      state.vmid other := by
  rw [State.vmid, State.vmid, AList.lookup_insert_ne hother]

theorem distinct_erase (hdistinct : Distinct state) :
    Distinct { state with nodes := state.nodes.erase key } := by
  have hlookup : ∀ other vmid,
      State.vmid { state with nodes := state.nodes.erase key } other = some vmid →
        state.vmid other = some vmid := by
    intro other vmid hvmid
    by_cases hkey : other = key
    · rw [State.vmid, hkey, AList.lookup_erase] at hvmid
      cases hvmid
    · rwa [State.vmid, AList.lookup_erase_ne hkey] at hvmid
  intro one other vmid hone hother
  exact hdistinct one other vmid (hlookup one vmid hone) (hlookup other vmid hother)

/-- A row is written without harm exactly when no other row has its number. -/
theorem distinct_insert_iff (hdistinct : Distinct state) :
    Distinct { state with nodes := state.nodes.insert key row } ↔
      FreeFor state key row.vmid := by
  constructor
  · intro hnext vmid hvmid other hother htaken
    have hself : State.vmid { state with nodes := state.nodes.insert key row } key = some vmid :=
      vmid_insert_self.trans hvmid
    have hkept : State.vmid { state with nodes := state.nodes.insert key row } other =
        some vmid := (vmid_insert_other hother).trans htaken
    exact hother (hnext other key vmid hkept hself)
  · intro hfree one other vmid hone hother
    by_cases hsame : one = other
    · exact hsame
    · by_cases hkey : one = key
      · subst hkey
        rw [vmid_insert_self] at hone
        rw [vmid_insert_other (Ne.symm hsame)] at hother
        exact absurd hother (hfree vmid hone other (Ne.symm hsame))
      · rw [vmid_insert_other hkey] at hone
        by_cases hkey' : other = key
        · subst hkey'
          rw [vmid_insert_self] at hother
          exact absurd hone (hfree vmid hother one hkey)
        · rw [vmid_insert_other hkey'] at hother
          exact hdistinct one other vmid hone hother

/-- The number that a row has already is free for it. -/
theorem freeFor_or_iff (hdistinct : Distinct state) (hrow : state.nodes.lookup key = some row)
    (vmid : Option Int) : FreeFor state key (vmid.or row.vmid) ↔ FreeFor state key vmid := by
  cases vmid with
  | some vmid => exact Iff.rfl
  | none =>
      refine iff_of_true ?_ fun number hnumber => by cases hnumber
      intro number hnumber other hother htaken
      have hown : state.vmid key = some number := by
        rw [State.vmid, hrow]
        exact hnumber
      exact hother (hdistinct other key number htaken hown)

theorem upsert_distinct_iff (hdistinct : Distinct state) (key : Key) (role : Role)
    (vmid : Option Int) :
    Distinct (state.upsert key role vmid) ↔ FreeFor state key vmid := by
  rw [State.upsert]
  cases hrow : state.nodes.lookup key with
  | none => exact distinct_insert_iff hdistinct
  | some row => exact (distinct_insert_iff hdistinct).trans (freeFor_or_iff hdistinct hrow vmid)

theorem touch_distinct_iff (hdistinct : Distinct state) (key : Key) (role : Role)
    (vmid : Option Int) :
    Distinct (state.touchNodeProgress key role vmid) ↔
      ((state.nodes.lookup key).isSome ∨ state.hasVmid key.1 vmid = false →
        FreeFor state key vmid) := by
  rw [State.touchNodeProgress]
  cases hrow : state.nodes.lookup key with
  | none =>
      simp only [Option.isSome_none, Bool.false_eq_true, false_or]
      cases hvmid : state.hasVmid key.1 vmid with
      | false => simp [upsert_distinct_iff hdistinct]
      | true => simpa using hdistinct
  | some row =>
      simp only [Option.isSome_some, true_or, forall_true_left]
      exact (distinct_insert_iff hdistinct).trans (freeFor_or_iff hdistinct hrow vmid)

end Rows

section Steps

variable {state next : State} {cluster : Nat}

/-- A step that leaves the rows of the nodes alone. -/
theorem good_of_same (hgood : Good state) (hnodes : next.nodes = state.nodes)
    (hclashed : next.clashed = state.clashed) : Good next := by
  refine ⟨?_, hclashed.trans hgood.2⟩
  have hvmid : next.vmid = state.vmid := by
    funext key
    rw [State.vmid, State.vmid, hnodes]
  rw [Distinct, hvmid]
  exact hgood.1

theorem begins_good {start : ClusterRow → ClusterRow × Work} (hgood : Good state)
    (hbegins : state.begins cluster start = some next) : Good next := by
  rw [State.begins] at hbegins
  split at hbegins
  · cases hbegins
    exact good_of_same hgood rfl rfl
  · cases hbegins

theorem checkName_good (hgood : Good state) (row : ClusterRow) (role : Role) (name : Text) :
    Good (state.checkName cluster row role name) := by
  rw [State.checkName]
  split
  · exact good_of_same hgood rfl rfl
  · refine ⟨(distinct_insert_iff hgood.1).mpr ?_, hgood.2⟩
    intro number hnumber
    cases hnumber

theorem countNode_good (hgood : Good state) (row : ClusterRow) (name : Text)
    (names : List Text) : Good (state.countNode cluster row name names) := by
  rw [State.countNode]
  repeat' split
  all_goals exact good_of_same hgood rfl rfl

theorem insertNode_good_iff (hgood : Good state) (base : ClusterRow) (role : Role)
    (left : Nat) (name : Text) (vmid : Int) :
    Good (state.insertNode cluster base role left name vmid) ↔
      state.nodes.lookup (cluster, name) = none ∧
        FreeFor state (cluster, name) (some vmid) := by
  rw [State.insertNode]
  cases hrow : state.nodes.lookup (cluster, name) with
  | none =>
      simp only [Option.isSome_none, Bool.false_eq_true, if_false, true_and]
      exact ⟨fun hnext => (distinct_insert_iff hgood.1).mp hnext.1,
        fun hfree => ⟨(distinct_insert_iff hgood.1).mpr hfree, hgood.2⟩⟩
  | some row =>
      simp only [Option.isSome_some, if_true, reduceCtorEq, false_and, iff_false]
      exact fun hnext => absurd hnext.2 (by simp)

theorem advance_good_iff (hgood : Good state) {row : ClusterRow} {work : Work}
    (hadvance : state.advance cluster row work = some next)
    (hwork : state.work.lookup cluster = some work) :
    Good next ↔ Kept state (.advances cluster) := by
  rw [Kept, hwork]
  cases work with
  | creating snapshot todo =>
      cases todo with
      | nil => cases hadvance
      | cons seed todo =>
          cases hadvance
          have hiff := upsert_distinct_iff hgood.1 (cluster, seed.name) seed.role
            seed.vmid
          have hclashed : (state.upsert (cluster, seed.name) seed.role seed.vmid).clashed =
              false := by
            rw [State.upsert]
            split <;> exact hgood.2
          exact ⟨fun hnext => hiff.mp hnext.1, fun hfree => ⟨hiff.mpr hfree, hclashed⟩⟩
  | adding base role left =>
      cases left with
      | zero => cases hadvance
      | succ left =>
          cases hadvance
          exact iff_of_true (good_of_same hgood rfl rfl) trivial
  | inserting base role left name vmid =>
      cases hadvance
      exact insertNode_good_iff hgood base role left name vmid
  | adopting base role custom =>
      cases hadvance
      exact iff_of_true (good_of_same hgood rfl rfl) trivial
  | checking role name =>
      cases hadvance
      exact iff_of_true (checkName_good hgood row role name) trivial
  | removing names =>
      cases names with
      | nil => cases hadvance
      | cons name names =>
          cases hadvance
          exact iff_of_true (countNode_good hgood row name names) trivial
  | deleting name names =>
      cases hadvance
      exact iff_of_true ⟨distinct_erase hgood.1, hgood.2⟩ trivial

theorem good_step_iff {event : Event} (hgood : Good state)
    (hstep : step state event = some next) : Good next ↔ Kept state event := by
  cases event with
  | request name cpVmid controlplanes workers =>
      rw [step] at hstep
      split at hstep
      · cases hstep
      · cases hstep
        exact iff_of_true (good_of_same hgood rfl rfl) trivial
  | creates cluster payload => exact iff_of_true (begins_good hgood hstep) trivial
  | adds cluster role count => exact iff_of_true (begins_good hgood hstep) trivial
  | adopts cluster role custom => exact iff_of_true (begins_good hgood hstep) trivial
  | removes cluster names => exact iff_of_true (begins_good hgood hstep) trivial
  | advances cluster =>
      rw [step] at hstep
      split at hstep
      · next row work _ hwork => exact advance_good_iff hgood hstep hwork
      · cases hstep
  | progress cluster name role vmid =>
      rw [step] at hstep
      split at hstep
      · cases hstep
        have hiff := touch_distinct_iff hgood.1 (cluster, name) role vmid
        have hclashed : (state.touchNodeProgress (cluster, name) role vmid).clashed =
            false := by
          rw [State.touchNodeProgress, State.upsert]
          repeat' split
          all_goals exact hgood.2
        exact ⟨fun hnext => hiff.mp hnext.1, fun hkept => ⟨hiff.mpr hkept, hclashed⟩⟩
      · cases hstep
  | reseeds cluster =>
      rw [step] at hstep
      split at hstep
      · cases hstep
        exact iff_of_true (good_of_same hgood rfl rfl) trivial
      · cases hstep
  | stops cluster =>
      rw [step] at hstep
      split at hstep
      · cases hstep
        exact iff_of_true (good_of_same hgood rfl rfl) trivial
      · cases hstep

end Steps

def State.empty : State where
  clusters := ∅
  nodes := ∅
  work := ∅
  nextCluster := 0
  clashed := false

end PertiskKos.Nodes
