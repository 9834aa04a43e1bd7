import PertiskKos.Mgmt.NodeRows

/-!
# The Kubernetes upgrade of a cluster

The job upgrades the control planes one by one and then the workers, and stores for each
node the version it was to reach.  In between it refreshes all rows from what `kubectl`
reports.  Any step may fail, and a kubelet may report any version whenever it is asked.
-/

namespace PertiskKos.K8sUpgrade

open Strings Nodes

/-- A row of the cluster's nodes, which have different names. -/
structure NodeRow where
  name : Text
  role : Role
  version : Option Text
  deriving DecidableEq, Repr

/-- What an observer of the job sees. -/
inductive Event where
  /-- The upgrade of a node begins. -/
  | touched (name : Text) (role : Role)
  /-- The kubelet of a node reports its version. -/
  | seen (name version : Text)
  /-- The row of a node gets the new version. -/
  | finished (name : Text)
  deriving DecidableEq, Repr

/-- The rows of the cluster, and what has been seen so far. -/
structure Table where
  rows : List NodeRow
  k8sVersion : Text
  trace : List Event
  deriving DecidableEq, Repr

/-! ## What the job meets -/

/-- The nodes that `kubectl` lists, each with its kubelet's version, and how many of their
rows are written before one cannot be. -/
structure Refresh where
  snapshots : List (Text × Option Text)
  written : Nat
  deriving DecidableEq, Repr

structure Poll where
  stdout : Option Text
  logged : Bool
  deriving DecidableEq, Repr

/-- Everything that happens around one node.  A stage covers its writes to the log. -/
structure Meeting where
  /-- The node's line is logged and, for a control plane, the API answers. -/
  announced : Bool
  /-- The row is set to `upgrading`. -/
  recorded : Bool
  /-- The node is drained and its configuration is patched and applied. -/
  applied : Bool
  apiReady : Bool
  already : Option Text
  /-- What the kubelet reports while the agent is at work. -/
  agent : List (Option Text)
  agentLogged : Bool
  polls : List Poll
  uncordoned : Bool
  refresh : Refresh
  /-- The row is set to `ready`. -/
  stored : Bool
  deriving DecidableEq, Repr

/-- What the job finds besides its payload. -/
structure Surroundings where
  clusterRead : Bool
  kubeconfigPath : Option Text
  opened : Bool
  refresh : Refresh
  nodesRead : Bool
  meets : Text → Meeting
  clusterWritten : Bool
  closed : Bool

/-! ## The job -/

def normalizeK8sVersion (v : Text) : Text :=
  let v := trim v
  if startsWith v ['v'] then v else 'v' :: v

def nonempty (s : Text) : Option Text :=
  let t := trim s
  if t = [] then none else some t

def nodeKubeletVersion (stdout : Option Text) : Option Text := stdout.bind nonempty

def Table.see (table : Table) (name : Text) (version : Option Text) : Table :=
  { table with trace := table.trace ++ (version.map (Event.seen name)).toList }

/-- One row of a refresh; a version that is missing leaves the stored one. -/
def persistSnapshotByName (rows : List NodeRow) (snapshot : Text × Option Text) :
    List NodeRow :=
  rows.map fun row =>
    if row.name = snapshot.1 then
      { row with version := (nodeKubeletVersion snapshot.2).or row.version }
    else row

/-- The rows as `kubectl` reports the nodes. -/
def syncClusterNodes (refresh : Refresh) (table : Table) : Table where
  rows := (refresh.snapshots.take refresh.written).foldl persistSnapshotByName table.rows
  k8sVersion := table.k8sVersion
  trace := table.trace ++ refresh.snapshots.filterMap fun snapshot =>
    (nodeKubeletVersion snapshot.2).map (Event.seen snapshot.1)

/-- The polls until the deadline. -/
def waitNodeKubeletVersion (name want : Text) : List Poll → Table → Table × Bool
  | [], table => (table, false)
  | poll :: polls, table =>
      let got := nodeKubeletVersion poll.stdout
      let table := table.see name got
      if got = some want then (table, poll.logged)
      else if got.isSome && !poll.logged then (table, false)
      else waitNodeKubeletVersion name want polls table

/-- Store the version of a node that is done. -/
def Table.store (table : Table) (name want : Text) : Table :=
  { table with
    rows := table.rows.map fun row =>
      if row.name = name then { row with version := some want } else row
    trace := table.trace ++ [.finished name] }

/-- The part of an upgrade that talks to the cluster. -/
def observeNode (want name : Text) (meeting : Meeting) (table : Table) : Table × Bool :=
  if !meeting.apiReady then (table, false)
  else
    let already := nodeKubeletVersion meeting.already
    let table := table.see name already
    let agent := if already = some want then [] else meeting.agent
    let table := agent.foldl (fun table got => table.see name (nodeKubeletVersion got)) table
    if !meeting.agentLogged then (table, false)
    else
      let waited := waitNodeKubeletVersion name want meeting.polls table
      if !waited.2 || !meeting.uncordoned then (waited.1, false)
      else (syncClusterNodes meeting.refresh waited.1, true)

def Table.touch (table : Table) (row : NodeRow) : Table :=
  { table with trace := table.trace ++ [.touched row.name row.role] }

def upgradeNodeZeroDowntime (kubeconfig : Bool) (want : Text) (row : NodeRow)
    (meeting : Meeting) (table : Table) : Table × Bool :=
  let table := table.touch row
  if !meeting.recorded || !meeting.applied then (table, false)
  else
    let observed :=
      if kubeconfig then observeNode want row.name meeting table else (table, true)
    if !observed.2 || !meeting.stored then (observed.1, false)
    else (observed.1.store row.name want, true)

/-- The nodes in turn, up to the first that fails. -/
def upgradeNodes (kubeconfig : Bool) (want : Text) (meets : Text → Meeting) :
    List NodeRow → Table → Table × Bool
  | [], table => (table, true)
  | row :: rows, table =>
      if !(meets row.name).announced then (table, false)
      else
        let upgraded := upgradeNodeZeroDowntime kubeconfig want row (meets row.name) table
        if !upgraded.2 then upgraded else upgradeNodes kubeconfig want meets rows upgraded.1

def byName (rows : List NodeRow) : List NodeRow :=
  rows.insertionSort fun left right => left.name ≤ right.name

def ofRole (role : Role) (rows : List NodeRow) : List NodeRow :=
  byName (rows.filter (·.role = role))

/-- Control planes first. -/
def upgradeCluster (kubeconfig : Bool) (want : Text) (meets : Text → Meeting)
    (table : Table) : Table × Bool :=
  let nodes := table.rows
  let controlplanes := upgradeNodes kubeconfig want meets (ofRole .controlplane nodes) table
  if !controlplanes.2 then controlplanes
  else upgradeNodes kubeconfig want meets (ofRole .worker nodes) controlplanes.1

def requestedVersion (version : Option Text) : Text := version.getD "latest".toList

def hasKubeconfig (world : Surroundings) : Bool :=
  (world.kubeconfigPath.filter (· ≠ [])).isSome

/-- The job, for the `version` of its payload. -/
def runUpgrade (version : Option Text) (world : Surroundings) (table : Table) :
    Table × Bool :=
  let version := requestedVersion version
  if !world.clusterRead || !world.opened then (table, false)
  else
    let table := if hasKubeconfig world then syncClusterNodes world.refresh table else table
    if !world.nodesRead then (table, false)
    else
      let upgraded :=
        upgradeCluster (hasKubeconfig world) (normalizeK8sVersion version) world.meets table
      if !upgraded.2 || !world.clusterWritten then (upgraded.1, false)
      else ({ upgraded.1 with k8sVersion := version }, world.closed)

/-! ## What is true of the rows -/

/-- A worker is touched only once every control plane is done. -/
def WorkersLast (rows : List NodeRow) (trace : List Event) : Prop :=
  ∀ before name after, trace = before ++ .touched name .worker :: after →
    ∀ row ∈ rows, row.role = .controlplane → .finished row.name ∈ before

/-- The job records the truth: a job that succeeds has seen every node at the version that
it has stored for the cluster and the nodes, and a job that fails has not changed the
stored version of a node that it has not seen there. -/
structure RecordsTarget (want : Text) (rows : List NodeRow) (after : Table × Bool) : Prop where
  seen : after.2 = true → ∀ row ∈ rows, .seen row.name want ∈ after.1.trace
  order : after.2 = true → WorkersLast rows after.1.trace
  equal : after.2 = true → ∀ row ∈ after.1.rows, row.version = some after.1.k8sVersion
  unchanged : after.2 = false → List.Forall₂
    (fun old row => row.version = old.version ∨ .seen row.name want ∈ after.1.trace)
      rows after.1.rows

/-- The kubelet reports the version when the node is done already. -/
def SeenLater (trace : List Event) (name version : Text) : Prop :=
  ∃ before after, trace = before ++ after ∧ .finished name ∈ before ∧
    .seen name version ∈ after

/-- The version was seen on the node, or it is the target of a job that has no kubeconfig
to see anything with. -/
def Known (kubeconfig : Bool) (want : Text) (trace : List Event) (name version : Text) :
    Prop :=
  .seen name version ∈ trace ∨ kubeconfig = false ∧ version = want

/-- The row is that of the same node, with the old version or one that is known. -/
structure Follows (kubeconfig : Bool) (want : Text) (trace : List Event)
    (old row : NodeRow) : Prop where
  name : row.name = old.name
  role : row.role = old.role
  version : row.version = old.version ∨
    ∃ version, row.version = some version ∧ Known kubeconfig want trace row.name version

/-- What was seen is recorded: a refresh stores what it sees, and the target is stored only
for a node that has been seen there, if the job has a kubeconfig. -/
structure RecordsSightings (kubeconfig : Bool) (want : Text) (rows : List NodeRow)
    (after : Table × Bool) : Prop where
  seen : kubeconfig = true → after.2 = true →
    ∀ row ∈ rows, .seen row.name want ∈ after.1.trace
  order : after.2 = true → WorkersLast rows after.1.trace
  equal : after.2 = true → normalizeK8sVersion after.1.k8sVersion = want ∧
    ∀ row ∈ after.1.rows, row.version = some want ∨
      ∃ version, row.version = some version ∧ SeenLater after.1.trace row.name version
  follows : List.Forall₂ (Follows kubeconfig want after.1.trace) rows after.1.rows

section Rows

variable {A : Type} {R S T : A → A → Prop} {first second third : List A}

theorem forall₂_trans (htrans : ∀ a b c, R a b → S b c → T a c)
    (hfirst : List.Forall₂ R first second) (hsecond : List.Forall₂ S second third) :
    List.Forall₂ T first third := by
  induction hfirst generalizing third with
  | nil =>
      cases hsecond
      exact .nil
  | cons hhead _ ih =>
      cases hsecond with
      | cons hnext hrest => exact .cons (htrans _ _ _ hhead hnext) (ih hrest)

theorem exists_of_forall₂ (hall : List.Forall₂ R first second) {b : A} (hb : b ∈ second) :
    ∃ a ∈ first, R a b := by
  induction hall with
  | nil => cases hb
  | cons hhead _ ih =>
      rcases List.mem_cons.mp hb with rfl | hrest
      · exact ⟨_, List.mem_cons_self, hhead⟩
      · obtain ⟨a, ha, hrel⟩ := ih hrest
        exact ⟨a, List.mem_cons_of_mem _ ha, hrel⟩

end Rows

section Recorded

variable {kubeconfig : Bool} {rows : List NodeRow} {want : Text} {table : Table}

theorem SeenLater.append {trace : List Event} {name version : Text}
    (hlater : SeenLater trace name version) (added : List Event) :
    SeenLater (trace ++ added) name version := by
  obtain ⟨before, after, rfl, hfinished, hseen⟩ := hlater
  exact ⟨before, after ++ added, List.append_assoc _ _ _, hfinished,
    List.mem_append_left _ hseen⟩

theorem Known.append {trace : List Event} {name version : Text}
    (hknown : Known kubeconfig want trace name version) (added : List Event) :
    Known kubeconfig want (trace ++ added) name version :=
  hknown.imp_left fun hseen => List.mem_append_left _ hseen

theorem Follows.append {trace : List Event} {old row : NodeRow}
    (hfollows : Follows kubeconfig want trace old row) (added : List Event) :
    Follows kubeconfig want (trace ++ added) old row where
  name := hfollows.name
  role := hfollows.role
  version := hfollows.version.imp_right fun ⟨version, hversion, hknown⟩ =>
    ⟨version, hversion, hknown.append added⟩

/-- What holds of the rows at every moment of the job. -/
structure Recorded (kubeconfig : Bool) (rows : List NodeRow) (want : Text) (table : Table) :
    Prop where
  follows : List.Forall₂ (Follows kubeconfig want table.trace) rows table.rows
  target : ∀ name, .finished name ∈ table.trace → Known kubeconfig want table.trace name want
  stored : ∀ row ∈ table.rows, .finished row.name ∈ table.trace →
    row.version = some want ∨
      ∃ version, row.version = some version ∧ SeenLater table.trace row.name version

theorem Recorded.append (hrecorded : Recorded kubeconfig rows want table) {added : List Event}
    (hadded : ∀ name, .finished name ∉ added) :
    Recorded kubeconfig rows want { table with trace := table.trace ++ added } where
  follows := hrecorded.follows.imp fun _ _ hfollows => hfollows.append added
  target := by
    intro name hfinished
    have hold := (List.mem_append.mp hfinished).resolve_right (hadded name)
    exact (hrecorded.target name hold).append added
  stored := by
    intro row hrow hfinished
    have hold := (List.mem_append.mp hfinished).resolve_right (hadded row.name)
    exact (hrecorded.stored row hrow hold).imp_right fun ⟨version, hversion, hlater⟩ =>
      ⟨version, hversion, hlater.append added⟩

theorem Recorded.see (hrecorded : Recorded kubeconfig rows want table) (name : Text)
    (version : Option Text) : Recorded kubeconfig rows want (table.see name version) := by
  apply hrecorded.append
  intro other
  cases version <;> simp

theorem Recorded.touch (hrecorded : Recorded kubeconfig rows want table) (row : NodeRow) :
    Recorded kubeconfig rows want (table.touch row) := by
  apply hrecorded.append
  simp

/-- Storing the target for a node that is known to be there. -/
theorem Recorded.store (hrecorded : Recorded kubeconfig rows want table) {name : Text}
    (hknown : Known kubeconfig want table.trace name want) : Recorded kubeconfig rows want (table.store name want) where
  follows := by
    rw [Table.store, List.forall₂_map_right_iff]
    apply hrecorded.follows.imp
    intro old row hfollows
    split
    · next hname =>
        exact ⟨hfollows.name, hfollows.role,
          .inr ⟨want, rfl, (hname ▸ hknown).append _⟩⟩
    · exact hfollows.append _
  target := by
    intro other hfinished
    rcases List.mem_append.mp hfinished with hold | hnew
    · exact (hrecorded.target other hold).append _
    · cases List.mem_singleton.mp hnew
      exact hknown.append _
  stored := by
    intro row hrow hfinished
    obtain ⟨source, hsource, rfl⟩ := List.mem_map.mp hrow
    by_cases hname : source.name = name
    · rw [if_pos hname]
      exact .inl rfl
    · rw [if_neg hname] at hfinished ⊢
      rcases List.mem_append.mp hfinished with hold | hnew
      · exact (hrecorded.stored source hsource hold).imp_right
          fun ⟨version, hversion, hlater⟩ => ⟨version, hversion, hlater.append _⟩
      · cases List.mem_singleton.mp hnew
        exact absurd rfl hname

/-- What a refresh reports about the kubelets. -/
def reports (snapshots : List (Text × Option Text)) : List Event :=
  snapshots.filterMap fun snapshot =>
    (nodeKubeletVersion snapshot.2).map (Event.seen snapshot.1)

/-- A row after some snapshots: as before, or with a version that one of them reports. -/
structure Refreshed (snapshots : List (Text × Option Text)) (old row : NodeRow) : Prop where
  name : row.name = old.name
  role : row.role = old.role
  version : row.version = old.version ∨
    ∃ version, row.version = some version ∧ .seen row.name version ∈ reports snapshots

/-- One snapshot changes no row but that of its node. -/
theorem persist_refreshed (snapshot : Text × Option Text) (old : NodeRow) :
    Refreshed [snapshot] old (if old.name = snapshot.1 then
      { old with version := (nodeKubeletVersion snapshot.2).or old.version } else old) := by
  split
  · next hname =>
      refine ⟨rfl, rfl, ?_⟩
      cases hversion : nodeKubeletVersion snapshot.2 with
      | none => exact .inl rfl
      | some version => exact .inr ⟨version, rfl, by simp [reports, hversion, hname]⟩
  · exact ⟨rfl, rfl, .inl rfl⟩

theorem Refreshed.trans {first second : List (Text × Option Text)} {old middle row : NodeRow}
    (hfirst : Refreshed first old middle) (hsecond : Refreshed second middle row) :
    Refreshed (first ++ second) old row where
  name := hsecond.name.trans hfirst.name
  role := hsecond.role.trans hfirst.role
  version := by
    rw [reports, List.filterMap_append]
    rcases hsecond.version with hsame | ⟨version, hversion, hseen⟩
    · rw [hsame, hsecond.name]
      exact hfirst.version.imp_right fun ⟨version, hversion, hseen⟩ =>
        ⟨version, hversion, List.mem_append_left _ hseen⟩
    · exact .inr ⟨version, hversion, List.mem_append_right _ hseen⟩

/-- Induction on the snapshots. -/
theorem foldl_refreshed (snapshots : List (Text × Option Text)) (rows : List NodeRow) :
    List.Forall₂ (Refreshed snapshots) rows
      (snapshots.foldl persistSnapshotByName rows) := by
  induction snapshots generalizing rows with
  | nil => exact List.forall₂_same.mpr fun row _ => ⟨rfl, rfl, .inl rfl⟩
  | cons snapshot snapshots ih =>
      have hfirst : List.Forall₂ (Refreshed [snapshot]) rows
          (persistSnapshotByName rows snapshot) := by
        rw [persistSnapshotByName, List.forall₂_map_right_iff]
        exact List.forall₂_same.mpr fun row _ => persist_refreshed snapshot row
      exact forall₂_trans (fun _ _ _ hone hmore => hone.trans hmore) hfirst
        (ih (persistSnapshotByName rows snapshot))

theorem reports_take {snapshots : List (Text × Option Text)} {count : Nat} {event : Event}
    (hmem : event ∈ reports (snapshots.take count)) : event ∈ reports snapshots := by
  obtain ⟨snapshot, hsnapshot, hevent⟩ := List.mem_filterMap.mp hmem
  exact List.mem_filterMap.mpr ⟨snapshot, List.mem_of_mem_take hsnapshot, hevent⟩

/-- A refresh stores what it sees. -/
theorem Recorded.sync (hrecorded : Recorded kubeconfig rows want table) (refresh : Refresh) :
    Recorded kubeconfig rows want (syncClusterNodes refresh table) := by
  have hplain : ∀ name, .finished name ∉ reports refresh.snapshots := by simp [reports]
  have hold := hrecorded.append hplain
  have hrefreshed := foldl_refreshed (refresh.snapshots.take refresh.written) table.rows
  refine ⟨?_, hold.target, ?_⟩
  · apply forall₂_trans _ hold.follows hrefreshed
    intro old middle row hfollows hrow
    refine ⟨hrow.name.trans hfollows.name, hrow.role.trans hfollows.role, ?_⟩
    rcases hrow.version with hsame | ⟨version, hversion, hseen⟩
    · rw [hsame, hrow.name]
      exact hfollows.version
    · exact .inr ⟨version, hversion, .inl (List.mem_append_right _ (reports_take hseen))⟩
  · intro row hmem hfinished
    obtain ⟨middle, hmiddle, hrow⟩ := exists_of_forall₂ hrefreshed hmem
    have hbefore := (List.mem_append.mp hfinished).resolve_right (hplain row.name)
    rcases hrow.version with hsame | ⟨version, hversion, hseen⟩
    · rw [hsame, hrow.name]
      rw [hrow.name] at hfinished
      exact hold.stored middle hmiddle hfinished
    · exact .inr ⟨version, hversion, table.trace, reports refresh.snapshots, rfl, hbefore,
        reports_take hseen⟩

variable {name : Text}

/-- The wait ends well only when the target has been seen. -/
theorem wait_recorded (polls : List Poll) (hrecorded : Recorded kubeconfig rows want table) :
    Recorded kubeconfig rows want (waitNodeKubeletVersion name want polls table).1 ∧
      ((waitNodeKubeletVersion name want polls table).2 = true →
        .seen name want ∈ (waitNodeKubeletVersion name want polls table).1.trace) := by
  induction polls generalizing table with
  | nil => exact ⟨hrecorded, fun h => absurd h (by simp [waitNodeKubeletVersion])⟩
  | cons poll polls ih =>
      have hnext := hrecorded.see name (nodeKubeletVersion poll.stdout)
      rw [waitNodeKubeletVersion]
      split
      · next hgot =>
          refine ⟨hnext, fun _ => ?_⟩
          simp [Table.see, hgot]
      · split
        · exact ⟨hnext, fun h => absurd h (by simp)⟩
        · exact ih hnext

theorem foldl_see_recorded (readings : List (Option Text))
    (hrecorded : Recorded kubeconfig rows want table) :
    Recorded kubeconfig rows want (readings.foldl
      (fun table got => table.see name (nodeKubeletVersion got)) table) := by
  induction readings generalizing table with
  | nil => exact hrecorded
  | cons got readings ih => exact ih (hrecorded.see name (nodeKubeletVersion got))

theorem seen_sync {event : Event} {refresh : Refresh} (hmem : event ∈ table.trace) :
    event ∈ (syncClusterNodes refresh table).trace := List.mem_append_left _ hmem

theorem observe_recorded (meeting : Meeting) (hrecorded : Recorded kubeconfig rows want table) :
    Recorded kubeconfig rows want (observeNode want name meeting table).1 ∧
      ((observeNode want name meeting table).2 = true →
        .seen name want ∈ (observeNode want name meeting table).1.trace) := by
  unfold observeNode
  split
  · exact ⟨hrecorded, fun h => absurd h (by simp)⟩
  · dsimp only
    generalize (if nodeKubeletVersion meeting.already = some want then [] else meeting.agent) =
      readings
    have hagent := @foldl_see_recorded kubeconfig rows want _ name readings
      (hrecorded.see name (nodeKubeletVersion meeting.already))
    split
    · exact ⟨hagent, fun h => absurd h (by simp)⟩
    · obtain ⟨hwaited, hseen⟩ := @wait_recorded kubeconfig rows want _ name meeting.polls hagent
      split
      · exact ⟨hwaited, fun h => absurd h (by simp)⟩
      · next hgoes =>
          simp only [Bool.or_eq_true, Bool.not_eq_true', not_or, Bool.not_eq_false] at hgoes
          exact ⟨hwaited.sync meeting.refresh, fun _ => seen_sync (hseen hgoes.1)⟩

/-- With a kubeconfig, a node is done only once it has been seen at the target. -/
theorem upgradeNode_recorded (row : NodeRow) (meeting : Meeting)
    (hrecorded : Recorded kubeconfig rows want table) :
    Recorded kubeconfig rows want
      (upgradeNodeZeroDowntime kubeconfig want row meeting table).1 := by
  have htouched := hrecorded.touch row
  unfold upgradeNodeZeroDowntime
  split
  · exact htouched
  · cases hkubeconfig : kubeconfig with
    | true =>
        obtain ⟨hobserved, hseen⟩ := @observe_recorded kubeconfig rows want _ row.name meeting
          htouched
        rw [hkubeconfig] at hobserved
        simp only [if_true]
        split
        · exact hobserved
        · next hgoes =>
            simp only [Bool.or_eq_true, Bool.not_eq_true', not_or, Bool.not_eq_false] at hgoes
            exact hobserved.store (.inl (hseen hgoes.1))
    | false =>
        rw [hkubeconfig] at htouched
        simp only [Bool.false_eq_true, if_false]
        split
        · exact htouched
        · exact htouched.store (.inr ⟨rfl, rfl⟩)

/-- Induction on the nodes. -/
theorem upgradeNodes_recorded (meets : Text → Meeting) (nodes : List NodeRow)
    (hrecorded : Recorded kubeconfig rows want table) :
    Recorded kubeconfig rows want (upgradeNodes kubeconfig want meets nodes table).1 := by
  induction nodes generalizing table with
  | nil => exact hrecorded
  | cons row nodes ih =>
      rw [upgradeNodes]
      split
      · exact hrecorded
      · have hnext := upgradeNode_recorded row (meets row.name) hrecorded
        dsimp only
        split
        · exact hnext
        · exact ih hnext

end Recorded

section Order

variable {want : Text} {before middle after : Table} {role : Role}

/-- The trace grows, and no node of another role is touched. -/
def Grows (role : Role) (before after : Table) : Prop :=
  ∃ added, after.trace = before.trace ++ added ∧
    ∀ name other, .touched name other ∈ added → other = role

theorem Grows.refl (role : Role) (table : Table) : Grows role table table :=
  ⟨[], (List.append_nil _).symm, fun _ _ hmem => absurd hmem List.not_mem_nil⟩

theorem Grows.trans (hfirst : Grows role before middle) (hsecond : Grows role middle after) :
    Grows role before after := by
  obtain ⟨first, hone, hroles⟩ := hfirst
  obtain ⟨second, htwo, hothers⟩ := hsecond
  refine ⟨first ++ second, by rw [htwo, hone, List.append_assoc], ?_⟩
  intro name other hmem
  rcases List.mem_append.mp hmem with h | h
  · exact hroles name other h
  · exact hothers name other h

theorem Grows.mem {event : Event} (hgrows : Grows role before after)
    (hmem : event ∈ before.trace) : event ∈ after.trace := by
  obtain ⟨added, htrace, -⟩ := hgrows
  rw [htrace]
  exact List.mem_append_left _ hmem

theorem see_grows (table : Table) (name : Text) (version : Option Text) :
    Grows role table (table.see name version) :=
  ⟨_, rfl, by cases version <;> simp⟩

theorem sync_grows (refresh : Refresh) (table : Table) :
    Grows role table (syncClusterNodes refresh table) :=
  ⟨_, rfl, by simp⟩

theorem foldl_see_grows (name : Text) (readings : List (Option Text)) (table : Table) :
    Grows role table (readings.foldl
      (fun table got => table.see name (nodeKubeletVersion got)) table) := by
  induction readings generalizing table with
  | nil => exact .refl role table
  | cons got readings ih => exact (see_grows table name _).trans (ih _)

theorem wait_grows (name : Text) (polls : List Poll) (table : Table) :
    Grows role table (waitNodeKubeletVersion name want polls table).1 := by
  induction polls generalizing table with
  | nil => exact .refl role table
  | cons poll polls ih =>
      have hnext := @see_grows role table name (nodeKubeletVersion poll.stdout)
      rw [waitNodeKubeletVersion]
      split
      · exact hnext
      · split
        · exact hnext
        · exact hnext.trans (ih _)

theorem observe_grows (name : Text) (meeting : Meeting) (table : Table) :
    Grows role table (observeNode want name meeting table).1 := by
  unfold observeNode
  split
  · exact .refl role table
  · dsimp only
    generalize (if nodeKubeletVersion meeting.already = some want then [] else meeting.agent) =
      readings
    have hagent := (@see_grows role table name (nodeKubeletVersion meeting.already)).trans
      (foldl_see_grows name readings _)
    split
    · exact hagent
    · have hwaited := hagent.trans (@wait_grows want role name meeting.polls _)
      split
      · exact hwaited
      · exact hwaited.trans (sync_grows meeting.refresh _)

theorem upgradeNode_grows (kubeconfig : Bool) (row : NodeRow) (meeting : Meeting)
    (table : Table) :
    Grows row.role table (upgradeNodeZeroDowntime kubeconfig want row meeting table).1 := by
  have htouch : Grows row.role table (table.touch row) := ⟨_, rfl, by simp⟩
  have hstore : ∀ table : Table, Grows row.role table (table.store row.name want) :=
    fun table => ⟨_, rfl, by simp⟩
  unfold upgradeNodeZeroDowntime
  split
  · exact htouch
  · cases kubeconfig with
    | true =>
        have hobserved := htouch.trans (@observe_grows want row.role row.name meeting _)
        simp only [if_true]
        split
        · exact hobserved
        · exact hobserved.trans (hstore _)
    | false =>
        simp only [Bool.false_eq_true, if_false]
        split
        · exact htouch
        · exact htouch.trans (hstore _)

/-- Upgrading the nodes of one role touches no other node. -/
theorem upgradeNodes_grows {kubeconfig : Bool} {meets : Text → Meeting}
    {nodes : List NodeRow} (hrole : ∀ row ∈ nodes, row.role = role) (table : Table) :
    Grows role table (upgradeNodes kubeconfig want meets nodes table).1 := by
  induction nodes generalizing table with
  | nil => exact .refl role table
  | cons row nodes ih =>
      have hfirst := hrole row List.mem_cons_self
      have hrest := fun other hmem => hrole other (List.mem_cons_of_mem _ hmem)
      have hnext := @upgradeNode_grows want kubeconfig row (meets row.name) table
      rw [hfirst] at hnext
      rw [upgradeNodes]
      split
      · exact .refl role table
      · dsimp only
        split
        · exact hnext
        · exact hnext.trans (ih hrest _)

theorem upgradeNode_finished {kubeconfig : Bool} {row : NodeRow} {meeting : Meeting}
    {table : Table}
    (hok : (upgradeNodeZeroDowntime kubeconfig want row meeting table).2 = true) :
    .finished row.name ∈
      (upgradeNodeZeroDowntime kubeconfig want row meeting table).1.trace := by
  unfold upgradeNodeZeroDowntime at hok ⊢
  split
  · next hfails => simp [hfails] at hok
  · next hgoes =>
      rw [if_neg hgoes] at hok
      dsimp only at hok ⊢
      generalize (if kubeconfig then observeNode want row.name meeting (table.touch row)
        else (table.touch row, true)) = observed at hok ⊢
      split
      · next hfails => simp [hfails] at hok
      · simp [Table.store]

/-- If the upgrade of some nodes succeeds, each of them is done. -/
theorem upgradeNodes_finished {kubeconfig : Bool} {meets : Text → Meeting}
    {nodes : List NodeRow} (hrole : ∀ row ∈ nodes, row.role = role) {table : Table}
    (hok : (upgradeNodes kubeconfig want meets nodes table).2 = true) :
    ∀ row ∈ nodes, .finished row.name ∈
      (upgradeNodes kubeconfig want meets nodes table).1.trace := by
  induction nodes generalizing table with
  | nil => exact fun _ hmem => absurd hmem List.not_mem_nil
  | cons first nodes ih =>
      have hrest := fun other hmem => hrole other (List.mem_cons_of_mem _ hmem)
      rw [upgradeNodes] at hok ⊢
      split
      · next hfails => simp [hfails] at hok
      · next hannounced =>
          rw [if_neg hannounced] at hok
          dsimp only at hok ⊢
          split
          · next hfails =>
              rw [if_pos hfails] at hok
              simp [hok] at hfails
          · next hgoes =>
              rw [if_neg hgoes] at hok
              intro row hmem
              rcases List.mem_cons.mp hmem with rfl | hlater
              · exact (upgradeNodes_grows hrest _).mem (upgradeNode_finished (by simpa using hgoes))
              · exact ih hrest hok row hlater

theorem mem_ofRole {row : NodeRow} {rows : List NodeRow} :
    row ∈ ofRole role rows ↔ row ∈ rows ∧ row.role = role := by
  rw [ofRole, byName, List.mem_insertionSort]
  simp

/-- A cluster that is upgraded: every node is done, and every control plane was done
before a worker was touched. -/
theorem upgradeCluster_ok {kubeconfig : Bool} {meets : Text → Meeting} {table : Table}
    (hclean : ∀ name role, .touched name role ∉ table.trace)
    (hok : (upgradeCluster kubeconfig want meets table).2 = true) :
    (∀ row ∈ table.rows,
        .finished row.name ∈ (upgradeCluster kubeconfig want meets table).1.trace) ∧
      WorkersLast table.rows (upgradeCluster kubeconfig want meets table).1.trace := by
  have hroles : ∀ role, ∀ row ∈ ofRole role table.rows, row.role = role :=
    fun role row hmem => (mem_ofRole.mp hmem).2
  unfold upgradeCluster at hok ⊢
  dsimp only at hok ⊢
  split
  · next hfails =>
      rw [if_pos hfails] at hok
      simp [hok] at hfails
  · next hgoes =>
      rw [if_neg hgoes] at hok
      have hcps := upgradeNodes_finished (hroles .controlplane) (by simpa using hgoes)
      have hworkers := upgradeNodes_finished (hroles .worker) hok
      obtain ⟨first, hfirst, hfirstRole⟩ := @upgradeNodes_grows want .controlplane kubeconfig
        meets _ (hroles .controlplane) table
      generalize hmiddle : (upgradeNodes kubeconfig want meets (ofRole .controlplane table.rows)
        table).1 = middle at hcps hworkers hfirst hok ⊢
      obtain ⟨second, hsecond, -⟩ := @upgradeNodes_grows want .worker kubeconfig
        meets _ (hroles .worker) middle
      constructor
      · intro row hrow
        cases hrole : row.role with
        | controlplane =>
            rw [hsecond]
            exact List.mem_append_left _ (hcps row (mem_ofRole.mpr ⟨hrow, hrole⟩))
        | worker => exact hworkers row (mem_ofRole.mpr ⟨hrow, hrole⟩)
      · intro before name after htrace row hrow hrole
        have hdone := hcps row (mem_ofRole.mpr ⟨hrow, hrole⟩)
        have hfree : .touched name .worker ∉ middle.trace := by
          rw [hfirst]
          intro hmem
          rcases List.mem_append.mp hmem with hold | hnew
          · exact hclean name .worker hold
          · exact absurd (hfirstRole name .worker hnew) (by decide)
        rw [hsecond, List.append_eq_append_iff] at htrace
        rcases htrace with ⟨rest, rfl, -⟩ | ⟨rest, hmiddle, htail⟩
        · exact List.mem_append_left _ hdone
        · cases rest with
          | nil => rwa [hmiddle, List.append_nil] at hdone
          | cons event rest =>
              cases (List.cons.inj htail).1
              exact absurd (hmiddle ▸ List.mem_append_right _ List.mem_cons_self) hfree

end Order

section Result

variable {kubeconfig : Bool} {rows : List NodeRow} {want : Text}

theorem recorded_start (kubeconfig : Bool) (rows : List NodeRow) (want k8sVersion : Text) :
    Recorded kubeconfig rows want ⟨rows, k8sVersion, []⟩ where
  follows := List.forall₂_same.mpr fun _ _ => ⟨rfl, rfl, .inl rfl⟩
  target := fun _ hmem => absurd hmem List.not_mem_nil
  stored := fun _ _ hmem => absurd hmem List.not_mem_nil

/-- What was recorded stays true when the job stops. -/
theorem Recorded.sightings_of_error {table : Table}
    (hrecorded : Recorded kubeconfig rows want table) :
    RecordsSightings kubeconfig want rows (table, false) where
  seen := fun _ h => absurd h (by simp)
  order := fun h => absurd h (by simp)
  equal := fun h => absurd h (by simp)
  follows := hrecorded.follows

theorem Recorded.cluster {table : Table} (hrecorded : Recorded kubeconfig rows want table)
    (meets : Text → Meeting) :
    Recorded kubeconfig rows want (upgradeCluster kubeconfig want meets table).1 := by
  have hcps := upgradeNodes_recorded meets (ofRole .controlplane table.rows) hrecorded
  unfold upgradeCluster
  dsimp only
  split
  · exact hcps
  · exact upgradeNodes_recorded meets (ofRole .worker table.rows) hcps

/-- Every node of the cluster is still there, under its name and in its role. -/
theorem Recorded.row {table : Table} (hrecorded : Recorded kubeconfig rows want table)
    {old : NodeRow} (hold : old ∈ rows) :
    ∃ row ∈ table.rows, row.name = old.name ∧ row.role = old.role := by
  have hflip : List.Forall₂ (flip (Follows kubeconfig want table.trace)) table.rows rows :=
    hrecorded.follows.flip
  obtain ⟨row, hrow, hfollows⟩ := exists_of_forall₂ hflip hold
  exact ⟨row, hrow, hfollows.name, hfollows.role⟩

/-- What the job records once it has read the nodes. -/
theorem cluster_records {table : Table} (hrecorded : Recorded kubeconfig rows want table)
    (hclean : ∀ name role, .touched name role ∉ table.trace) {meets : Text → Meeting}
    (hok : (upgradeCluster kubeconfig want meets table).2 = true) {version : Text}
    (hversion : normalizeK8sVersion version = want) (closed : Bool) :
    RecordsSightings kubeconfig want rows
      ({ (upgradeCluster kubeconfig want meets table).1 with k8sVersion := version },
        closed) := by
  have hcluster := hrecorded.cluster meets
  obtain ⟨hfinished, horder⟩ := upgradeCluster_ok hclean hok
  refine ⟨fun hkubeconfig _ old hold => ?_, fun _ => ?_,
    fun _ => ⟨hversion, fun row hrow => ?_⟩, hcluster.follows⟩
  · obtain ⟨row, hrow, hname, -⟩ := hrecorded.row hold
    rcases hcluster.target row.name (hfinished row hrow) with hseen | ⟨hnone, -⟩
    · exact hname ▸ hseen
    · rw [hkubeconfig] at hnone
      cases hnone
  · intro before name after htrace old hold hrole
    obtain ⟨row, hrow, hname, hsame⟩ := hrecorded.row hold
    exact hname ▸ horder before name after htrace row hrow (hsame.trans hrole)
  · apply hcluster.stored row hrow
    obtain ⟨old, hold, hfollows⟩ := exists_of_forall₂ hcluster.follows hrow
    obtain ⟨middle, hmiddle, hname, -⟩ := hrecorded.row hold
    rw [hfollows.name, ← hname]
    exact hfinished middle hmiddle

/-- The job records what it has seen, whatever it meets. -/
theorem upgrade_records (version : Option Text) (world : Surroundings)
    (rows : List NodeRow) (k8sVersion : Text) :
    RecordsSightings (hasKubeconfig world) (normalizeK8sVersion (requestedVersion version))
      rows (runUpgrade version world ⟨rows, k8sVersion, []⟩) := by
  generalize hwant : normalizeK8sVersion (requestedVersion version) = want
  generalize hkubeconfig : hasKubeconfig world = kubeconfig
  have hstart := recorded_start kubeconfig rows want k8sVersion
  generalize hrefresh : (if kubeconfig then
    syncClusterNodes world.refresh ⟨rows, k8sVersion, []⟩ else ⟨rows, k8sVersion, []⟩) = table
  have hrecorded : Recorded kubeconfig rows want table := by
    rw [← hrefresh]
    split
    · exact hstart.sync world.refresh
    · exact hstart
  have hclean : ∀ name role, .touched name role ∉ table.trace := by
    rw [← hrefresh]
    split <;> simp [syncClusterNodes]
  unfold runUpgrade
  simp only [hkubeconfig, hwant, hrefresh]
  split
  · exact hstart.sightings_of_error
  · split
    · exact hrecorded.sightings_of_error
    · split
      · exact (hrecorded.cluster world.meets).sightings_of_error
      · next hgoes =>
          simp only [Bool.or_eq_true, Bool.not_eq_true', not_or, Bool.not_eq_false] at hgoes
          exact cluster_records hrecorded hclean hgoes.1 hwant world.closed

end Result

section Lab

def labNode : NodeRow :=
  { name := "lab-cp-1".toList, role := .controlplane, version := some "v1.30.0".toList }

def labRefresh (version : Text) : Refresh :=
  { snapshots := [("lab-cp-1".toList, some version)], written := 1 }

/-- The API does not answer before the node's turn. -/
def labMeeting : Meeting where
  announced := false
  recorded := true
  applied := true
  apiReady := true
  already := none
  agent := []
  agentLogged := true
  polls := [{ stdout := some "v1.31.0".toList, logged := true }]
  uncordoned := true
  refresh := labRefresh "v1.31.0".toList
  stored := true

/-- The node has been moved to another patch release, unknown to the database. -/
def labWorld : Surroundings where
  clusterRead := true
  kubeconfigPath := some "/data/lab".toList
  opened := true
  refresh := labRefresh "v1.30.2".toList
  nodesRead := true
  meets := fun _ => labMeeting
  clusterWritten := true
  closed := true

/-- The rows after a job that got as far as its first refresh. -/
def refreshedTable : Table where
  rows := [{ labNode with version := some "v1.30.2".toList }]
  k8sVersion := "v1.30.0".toList
  trace := [.seen "lab-cp-1".toList "v1.30.2".toList]

/-- The job stops before it touches the node, but its first refresh has stored the version
that the node has had all along. -/
theorem refresh_stored :
    ¬ ∀ (version : Option Text) (world : Surroundings) (rows : List NodeRow)
      (k8sVersion : Text), RecordsTarget (normalizeK8sVersion (requestedVersion version)) rows
        (runUpgrade version world ⟨rows, k8sVersion, []⟩) := by
  intro hclaim
  have hrecords := hclaim (some "v1.31.0".toList) labWorld [labNode] "v1.30.0".toList
  have hafter : runUpgrade (some "v1.31.0".toList) labWorld ⟨[labNode], "v1.30.0".toList, []⟩ =
      (refreshedTable, false) := by decide +kernel
  rw [hafter] at hrecords
  have hnode := (List.forall₂_cons.mp (hrecords.unchanged rfl)).1
  exact absurd hnode (by decide +kernel)

end Lab

end PertiskKos.K8sUpgrade
