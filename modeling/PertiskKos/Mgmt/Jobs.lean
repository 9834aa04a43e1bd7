import PertiskKos.Library.Runs

/-!
# Jobs and clusters

The tables of jobs and clusters, and the statements that job tasks and requests run on
them.  A statement is atomic; what a task or a request still has to do is a list of
statements, and one that reads can decide on more.
-/

namespace PertiskKos.Jobs

inductive Kind where
  | createCluster
  | deleteCluster
  | addNode
  | adoptNode
  | removeNode
  | resizeNode
  | rebootNode
  | upgradeCluster
  | upgradeOs
  | updateConfig
  | installAddon
  deriving DecidableEq, Repr

inductive JobStatus where
  | queued
  | running
  | succeeded
  | failed
  | cancelled
  deriving DecidableEq, Repr

inductive ClusterStatus where
  | pending
  | provisioning
  | ready
  | error
  | deleting
  deriving DecidableEq, Repr

/-- Rows are kept in the order in which they were created. -/
structure JobRow where
  id : Nat
  cluster : Option Nat
  kind : Kind
  status : JobStatus
  deriving DecidableEq, Repr

structure ClusterRow where
  id : Nat
  status : ClusterStatus
  /-- There is a text in the error column. -/
  error : Bool
  deriving DecidableEq, Repr

/-- Jobs that touch single nodes only. -/
def isNodeMaintenanceJob : Kind → Bool
  | .resizeNode | .removeNode | .addNode | .rebootNode | .updateConfig | .installAddon =>
      true
  | .createCluster | .deleteCluster | .adoptNode | .upgradeCluster | .upgradeOs => false

/-- One statement, or one section under the lock of the running map. -/
inductive Stmt where
  /-- `UPDATE clusters` without a look at the status; `none` leaves the error, and the
  error of one that is not required is ignored. -/
  | writeStatus (required : Bool) (cluster : Nat) (status : ClusterStatus)
      (error : Option Bool)
  /-- The `ready` that the body of a creation writes. -/
  | writeCreated (cluster : Nat) (error : Option Bool)
  /-- The `ready` that spares clusters being deleted. -/
  | keepReady (cluster : Nat)
  | markDeleting (cluster : Nat)
  /-- A new cluster, and the job that creates it. -/
  | insertCluster
  | insertJob (cluster : Nat) (kind : Kind)
  /-- The check of the route that upgrades from a package. -/
  | checkNotDeleting (cluster : Nat)
  /-- The latest job decides whether the status that was read is repaired. -/
  | latestJob (cluster : Nat) (status : ClusterStatus) (error : Bool)
  /-- A job is recorded as succeeded, or as failed. -/
  | record (id : Nat) (cluster : Option Nat) (kind : Kind) (ok : Bool)
  | removeJob (id : Nat)
  | abortJobs (cluster : Nat)
  | selectJobs (cluster : Nat) (victims : List Nat)
  /-- The loop over the selected rows. -/
  | cancelJobs (ids : List Nat) (victims : List Nat)
  /-- A purge goes on only if the cluster's row is there. -/
  | readCluster (cluster : Nat)
  | dropJobs (cluster : Nat)
  | dropCluster (cluster : Nat)
  | dropDeletes
  /-- The watcher of a task waits for its end. -/
  | join (id : Nat)
  | unregister (id : Nat)
  | closeAborted (id : Nat)
  | watched (id : Nat)
  deriving DecidableEq, Repr

/-- A job as it was selected or registered. -/
structure Entry where
  id : Nat
  cluster : Option Nat
  kind : Kind
  deriving DecidableEq, Repr

structure Task where
  entry : Entry
  program : List Stmt
  /-- The abort handle was used; the task stops at some later point. -/
  aborted : Bool
  deriving DecidableEq, Repr

/-- The job worker, between its statements. -/
inductive Worker where
  | idle
  | fetched (rows : List Entry)
  /-- The rows left, those looked at, the running map as it was, and whether a stale row
  was cancelled. -/
  | scanning (rows seen : List Entry) (running : List Entry) (dropped : Bool)
  | dropping (row : Entry) (rows seen running : List Entry)
  | claiming (row : Entry) (rows seen running : List Entry) (dropped : Bool)
  | provisioning (row : Entry)
  | logging (row : Entry)
  | returned (row : Entry)
  | spawned (row : Entry)
  deriving DecidableEq, Repr

/-- What has happened, for an observer. -/
structure History where
  /-- The changes of job statuses. -/
  moves : List (JobStatus × JobStatus)
  /-- The jobs whose task has ended and whose watcher is done. -/
  ended : List Nat
  /-- The jobs that a cancellation which has returned was to stop. -/
  barred : List Nat
  /-- Jobs that went on although they were barred. -/
  overrun : List Nat
  /-- The jobs that were queued when the worker last read the queue. -/
  asked : List Nat
  /-- The clusters that were marked for deletion. -/
  doomed : List Nat
  /-- Jobs other than deletions that were queued or claimed for a doomed cluster. -/
  admitted : List Nat
  /-- The clusters that a creation has called ready. -/
  built : List Nat
  /-- The clusters a creation of which has succeeded. -/
  created : List Nat
  deriving DecidableEq, Repr

structure State where
  clusters : List ClusterRow
  jobs : List JobRow
  /-- The running map. -/
  running : List Entry
  tasks : List Task
  /-- Requests and watchers. -/
  threads : List (List Stmt)
  /-- Tasks that have ended, and whether they were aborted. -/
  finished : List (Nat × Bool)
  worker : Worker
  nextCluster : Nat
  nextJob : Nat
  history : History
  deriving DecidableEq, Repr

namespace State

/-- `UPDATE jobs SET status` of one row, where the old status allows it. -/
def moveJob (state : State) (id : Nat) (move : JobStatus → Option JobStatus) : State :=
  { state with
    jobs := state.jobs.map fun row =>
      if row.id = id then { row with status := (move row.status).getD row.status } else row
    history :=
      { state.history with
        moves := state.history.moves ++ state.jobs.filterMap fun row =>
          if row.id = id then (move row.status).map (row.status, ·) else none } }

/-- `UPDATE clusters` of one row, where its status allows it. -/
def setStatus (state : State) (cluster : Nat) (allowed : ClusterStatus → Bool)
    (status : ClusterStatus) (error : Option Bool) : State :=
  { state with
    clusters := state.clusters.map fun row =>
      if row.id = cluster ∧ allowed row.status = true then
        { row with status, error := error.getD row.error }
      else row }

/-- The row of a cluster. -/
def cluster? (state : State) (cluster : Nat) : Option ClusterRow :=
  state.clusters.find? fun row => row.id = cluster

/-- The cluster was marked for deletion, and its row is still there. -/
def isDoomed (state : State) (cluster : Option Nat) : Bool :=
  state.clusters.any fun row => some row.id = cluster && row.id ∈ state.history.doomed

/-- A job other than a deletion comes into the queue, or out of it. -/
def admitJob (state : State) (id : Nat) (cluster : Option Nat) (kind : Kind) : State :=
  if kind ≠ .deleteCluster ∧ state.isDoomed cluster = true then
    { state with
      history := { state.history with admitted := state.history.admitted ++ [id] } }
  else state

/-- The foreign key: a job needs the row of its cluster. -/
def insertJob (state : State) (cluster : Nat) (kind : Kind) : State :=
  if (state.cluster? cluster).isSome then
    let row : JobRow := ⟨state.nextJob, some cluster, kind, .queued⟩
    let next := { state with jobs := state.jobs ++ [row], nextJob := state.nextJob + 1 }
    next.admitJob state.nextJob (some cluster) kind
  else state

end State

/-- A cancelled row was queued or running. -/
def toCancelled : JobStatus → Option JobStatus
  | .queued | .running => some .cancelled
  | _ => none

def whenQueued (status : JobStatus) : JobStatus → Option JobStatus
  | .queued => some status
  | _ => none

def whenRunning (status : JobStatus) : JobStatus → Option JobStatus
  | .running => some status
  | _ => none

/-- The row is one that a cancellation is about. -/
def isVictim (cluster : Nat) (row : JobRow) : Bool :=
  row.cluster = some cluster && row.kind ≠ .deleteCluster &&
    (row.status = .queued || row.status = .running)

def victims (state : State) (cluster : Nat) : List Nat :=
  (state.jobs.filter (isVictim cluster)).map JobRow.id

/-- The statements of a purge after its first. -/
def isPurge : Stmt → Bool
  | .abortJobs _ | .selectJobs _ _ | .cancelJobs _ _ | .dropJobs _ | .dropCluster _
  | .dropDeletes => true
  | _ => false

def purgeDb (cluster : Nat) : List Stmt := [.dropJobs cluster, .dropCluster cluster, .dropDeletes]

def purge (cluster : Nat) : List Stmt :=
  [.readCluster cluster, .abortJobs cluster] ++ purgeDb cluster

/-- The status is repaired for the one who reads it. -/
def heals (latest : Option JobStatus) (status : ClusterStatus) (error : Bool) : Bool :=
  (match latest with
    | some .succeeded | some .running | some .queued => true
    | some .failed | some .cancelled | none => status = .ready && error) &&
  (status = .error || error)

def latest (state : State) (cluster : Nat) : Option JobStatus :=
  ((state.jobs.filter fun row => row.cluster = some cluster).getLast?).map JobRow.status

/-- One statement: the new state, and the statements that take its place. -/
def exec (state : State) : Stmt → List Stmt → Option (State × List Stmt)
  | .writeStatus _ cluster status error, rest =>
      some (state.setStatus cluster (fun _ => true) status error, rest)
  | .writeCreated cluster error, rest =>
      some
        ({ state.setStatus cluster (fun _ => true) .ready error with
          history := { state.history with built := state.history.built ++ [cluster] } },
        rest)
  | .keepReady cluster, rest =>
      some (state.setStatus cluster (· ≠ .deleting) .ready (some false), rest)
  | .markDeleting cluster, rest =>
      some
        ({ state.setStatus cluster (fun _ => true) .deleting none with
          history :=
            { state.history with
              doomed := state.history.doomed ++
                (state.cluster? cluster).toList.map ClusterRow.id } },
        rest)
  | .insertCluster, rest =>
      some
        ({ state with
          clusters := state.clusters ++ [⟨state.nextCluster, .pending, false⟩]
          nextCluster := state.nextCluster + 1 },
        .insertJob state.nextCluster .createCluster :: rest)
  | .insertJob cluster kind, rest => some (state.insertJob cluster kind, rest)
  | .checkNotDeleting cluster, rest =>
      match state.cluster? cluster with
      | some row => some (state, if row.status = .deleting then [] else rest)
      | none => some (state, [])
  | .latestJob cluster status error, rest =>
      some (state,
        if heals (latest state cluster) status error then .keepReady cluster :: rest
        else rest)
  | .record id cluster kind ok, rest =>
      let moved := state.moveJob id fun _ => some (if ok then .succeeded else .failed)
      some
        ({ moved with
          history :=
            { moved.history with
              created := moved.history.created ++
                if kind = .createCluster ∧ ok = true then cluster.toList else [] } },
        rest)
  | .removeJob id, rest =>
      some ({ state with jobs := state.jobs.filter fun row => row.id ≠ id }, rest)
  | .abortJobs cluster, rest =>
      let reached := (state.running.filter fun entry =>
        entry.kind ≠ .deleteCluster ∧ entry.cluster = some cluster).map Entry.id
      some
        ({ state with
          tasks := state.tasks.map fun task =>
            if task.entry.id ∈ reached then { task with aborted := true } else task },
        .selectJobs cluster (victims state cluster) :: rest)
  | .selectJobs cluster stopped, rest =>
      some (state, .cancelJobs (victims state cluster) stopped :: rest)
  | .cancelJobs [] stopped, rest =>
      some
        ({ state with
          history := { state.history with barred := state.history.barred ++ stopped } },
        rest)
  | .cancelJobs (id :: ids) stopped, rest =>
      some (state.moveJob id toCancelled, .cancelJobs ids stopped :: rest)
  | .readCluster cluster, rest =>
      some (state,
        if (state.cluster? cluster).isSome then rest else rest.dropWhile isPurge)
  | .dropJobs cluster, rest =>
      some
        ({ state with
          jobs := state.jobs.filter fun row =>
            ¬ (row.cluster = some cluster ∧ row.kind ≠ .deleteCluster) }, rest)
  | .dropCluster cluster, rest =>
      some
        ({ state with
          clusters := state.clusters.filter fun row => row.id ≠ cluster
          jobs := state.jobs.map fun row =>
            if row.cluster = some cluster then { row with cluster := none } else row }, rest)
  | .dropDeletes, rest =>
      some
        ({ state with
          jobs := state.jobs.filter fun row =>
            ¬ (row.cluster = none ∧ row.kind = .deleteCluster ∧ row.status ≠ .running) },
        rest)
  | .join id, rest =>
      match state.finished.lookup id with
      | some true => some (state, [.unregister id, .closeAborted id, .watched id] ++ rest)
      | some false => some (state, [.unregister id, .watched id] ++ rest)
      | none => none
  | .unregister id, rest =>
      some ({ state with running := state.running.filter fun entry => entry.id ≠ id }, rest)
  | .closeAborted id, rest => some (state.moveJob id (whenRunning .cancelled), rest)
  | .watched id, rest =>
      some
        ({ state with
          history := { state.history with ended := state.history.ended ++ [id] } }, rest)

/-- What follows when the error of a statement is ignored. -/
def skip : Stmt → List Stmt → Option (List Stmt)
  | .writeStatus false _ _ _, rest | .keepReady _, rest | .removeJob _, rest
  | .closeAborted _, rest | .selectJobs _ _, rest | .cancelJobs _ _, rest => some rest
  | _, _ => none

end PertiskKos.Jobs
