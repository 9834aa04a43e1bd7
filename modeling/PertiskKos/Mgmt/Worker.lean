import PertiskKos.Mgmt.Jobs

/-!
# The job worker

One worker claims queued jobs and spawns a task for each.  Its steps, those of the tasks
and those of requests come in any order.
-/

namespace PertiskKos.Jobs

def jobIsExclusive (kind : Kind) : Bool := kind ≠ .installAddon

def maxParallelAddonJobs : Nat := 8

def sameClusterHasExclusive (running : List Entry) (cluster : Nat) : Bool :=
  running.any fun entry => entry.cluster = some cluster && jobIsExclusive entry.kind

def sameClusterHasAny (running : List Entry) (cluster : Nat) : Bool :=
  running.any fun entry => entry.cluster = some cluster

def addons (running : List Entry) : Nat :=
  running.countP fun entry => entry.kind = .installAddon

/-- Whether a queued job can start beside those in the running map. -/
def jobCanStart (row : Entry) (running : List Entry) : Bool :=
  if row.kind = .deleteCluster then true
  else if row.kind = .installAddon then
    match row.cluster with
    | none => false
    | some cluster =>
        if maxParallelAddonJobs ≤ addons running then false
        else !sameClusterHasExclusive running cluster
  else
    match row.cluster with
    | none => !running.any fun entry => jobIsExclusive entry.kind
    | some cluster => !sameClusterHasAny running cluster

/-- The job's cluster is gone or about to go. -/
def jobIsStale (state : State) (row : Entry) : Bool :=
  if row.kind = .deleteCluster then false
  else
    match row.cluster with
    | none => true
    | some cluster =>
        match (state.cluster? cluster).map ClusterRow.status with
        | none => true
        | some status => status = .deleting

def JobRow.entry (row : JobRow) : Entry := ⟨row.id, row.cluster, row.kind⟩

/-- The queued rows, deletions first. -/
def queuedRows (state : State) : List Entry :=
  let queued := state.jobs.filter fun row => row.status = .queued
  (queued.filter (fun row => row.kind = .deleteCluster) ++
    queued.filter fun row => row.kind ≠ .deleteCluster).map JobRow.entry

/-- How the body of a job ends. -/
inductive Outcome where
  | ok
  /-- The statements that it runs before it fails, whether the error has a text, and the
  statements of the purge that follows a failed deletion. -/
  | fails (reach : Nat) (message : Bool) (purged : Nat)
  deriving DecidableEq, Repr

/-- The statements of a job's body; the add-ons are those that a creation queues. -/
def body (kind : Kind) (cluster : Nat) (addons : Nat) : List Stmt :=
  match kind with
  | .createCluster =>
      .writeCreated cluster none ::
        List.replicate addons (.insertJob cluster .installAddon)
  | .deleteCluster => purge cluster
  | .addNode | .adoptNode =>
      [.writeStatus true cluster .provisioning none,
        .writeStatus true cluster .ready (some false)]
  | _ => []

/-- The body of a job that fails; one that adds a node may write why. -/
def failedBody (kind : Kind) (cluster : Nat) (addons reach : Nat) (message : Bool) :
    List Stmt :=
  match kind with
  | .addNode | .adoptNode =>
      [.writeStatus true cluster .provisioning none,
        .writeStatus false cluster .ready (some message)].take reach
  | _ => (body kind cluster addons).take reach

/-- The statements after the body. -/
def ending (entry : Entry) : Outcome → List Stmt
  | .ok =>
      if entry.kind = .deleteCluster then [.removeJob entry.id]
      else
        .record entry.id entry.cluster entry.kind true ::
          entry.cluster.toList.map fun cluster =>
            if isNodeMaintenanceJob entry.kind then .keepReady cluster
            else .writeStatus false cluster .ready (some false)
  | .fails _ message purged =>
      .record entry.id entry.cluster entry.kind false ::
        if entry.kind = .deleteCluster then
          (entry.cluster.toList.flatMap purgeDb).take purged ++ [.removeJob entry.id]
        else
          entry.cluster.toList.map fun cluster =>
            if isNodeMaintenanceJob entry.kind then .keepReady cluster
            else .writeStatus false cluster .error (some message)

/-- What the task of a job runs.  Without a cluster there is nothing to do. -/
def executeJob (entry : Entry) (addons : Nat) (outcome : Outcome) : List Stmt :=
  match entry.cluster, outcome with
  | none, _ => ending entry (.fails 0 true 0)
  | some cluster, .ok => body entry.kind cluster addons ++ ending entry .ok
  | some cluster, .fails reach message purged =>
      failedBody entry.kind cluster addons reach message ++
        ending entry (.fails reach message purged)

/-- A request that changes the tables. -/
inductive Request where
  | create
  | queue (cluster : Nat) (kind : Kind)
  | upgrade (cluster : Nat)
  | delete (cluster : Nat)
  | getOne (cluster : Nat)
  deriving DecidableEq, Repr

/-- A deletion is carried out at once. -/
def isImmediate (status : ClusterStatus) : Bool := status ≠ .ready

def State.begin (state : State) (program : List Stmt) : State :=
  { state with threads := state.threads ++ [program] }

/-- The first statement of a request, and what it is to do. -/
def State.request (state : State) : Request → State
  | .create => state.begin [.insertCluster]
  | .queue cluster kind =>
      if kind = .deleteCluster ∨ kind = .createCluster then state
      else state.begin [.insertJob cluster kind]
  | .upgrade cluster =>
      state.begin [.checkNotDeleting cluster, .insertJob cluster .upgradeOs]
  | .delete cluster =>
      match state.cluster? cluster with
      | none => state
      | some row =>
          state.begin
            ([.markDeleting cluster, .abortJobs cluster] ++
              if isImmediate row.status then purge cluster
              else [.insertJob cluster .deleteCluster])
  | .getOne cluster =>
      match state.cluster? cluster with
      | none => state
      | some row => state.begin [.latestJob cluster row.status row.error]

inductive Event where
  | requests (request : Request)
  /-- The next statement of a request or a watcher; its error is ignored; or the request
  is over. -/
  | thread (index : Nat)
  | threadSkips (index : Nat)
  | threadDies (index : Nat)
  /-- The next statement of a task; its error is ignored; a step that touches no table. -/
  | task (index : Nat)
  | taskSkips (index : Nat)
  | taskLabours (index : Nat)
  /-- A task ends: at its last statement, by a panic or an error on the way, or because it
  was aborted. -/
  | taskReturns (index : Nat)
  | taskDies (index : Nat)
  | taskStops (index : Nat)
  /-- The worker's next statement; its error ends the claim, or is ignored. -/
  | works
  | workerSkips
  | workerFails
  | spawns (addons : Nat) (outcome : Outcome)
  deriving DecidableEq, Repr

namespace State

/-- A barred job goes on. -/
def note (state : State) (id : Nat) : State :=
  if id ∈ state.history.barred then
    { state with
      history := { state.history with overrun := state.history.overrun ++ [id] } }
  else state

def setThread (state : State) (index : Nat) (program : List Stmt) : State :=
  { state with threads := state.threads.set index program }

def setTask (state : State) (index : Nat) (task : Task) : State :=
  { state with tasks := state.tasks.set index task }

/-- A task is over, and its watcher can see how it ended. -/
def finish (state : State) (index : Nat) (id : Nat) (aborted : Bool) : State :=
  { state with
    tasks := state.tasks.eraseIdx index
    finished := state.finished ++ [(id, aborted)] }

/-- A row is claimed if it is still queued. -/
def claim (state : State) (row : Entry) (otherwise : Worker) : State :=
  if state.jobs.any fun job => job.id = row.id && job.status = .queued then
    { (state.moveJob row.id (whenQueued .running)).admitJob row.id row.cluster row.kind with
      worker :=
        if row.cluster.isSome ∧ row.kind ≠ .deleteCluster ∧
            isNodeMaintenanceJob row.kind = false then .provisioning row
        else .logging row }
  else { state with worker := otherwise }

/-- The worker's next statement. -/
def work (state : State) : Worker → Option State
  | .idle =>
      some
        { state with
          worker := .fetched (queuedRows state)
          history :=
            { state.history with asked := (queuedRows state).map Entry.id } }
  | .fetched [] => some { state with worker := .idle }
  | .fetched (row :: rows) =>
      some { state with worker := .scanning (row :: rows) [] state.running false }
  | .scanning [] _ _ _ => some { state with worker := .idle }
  | .scanning (row :: rows) seen running dropped =>
      some
        { state with
          worker :=
            if jobIsStale state row then .dropping row rows seen running
            else if jobCanStart row running then .claiming row rows seen running dropped
            else .scanning rows (seen ++ [row]) running dropped }
  | .dropping row rows seen running =>
      some
        { state.moveJob row.id (whenQueued .cancelled) with
          worker := .scanning rows (seen ++ [row]) running true }
  | .claiming row rows seen running dropped =>
      some (state.claim row (.scanning rows (seen ++ [row]) running dropped))
  | .provisioning row =>
      some
        { row.cluster.elim state fun cluster =>
            state.setStatus cluster (fun _ => true) .provisioning (some false) with
          worker := .logging row }
  | .logging row => some { state with worker := .returned row }
  | .returned _ => none
  | .spawned row =>
      some
        { state with
          running := state.running.filter (fun entry => entry.id ≠ row.id) ++ [row]
          threads := state.threads ++ [[.join row.id]]
          worker := .idle }

/-- The worker's next statement fails. -/
def failWork (state : State) : Worker → Option State
  | .returned _ | .spawned _ => none
  | _ => some { state with worker := .idle }

end State

def step (state : State) : Event → Option State
  | .requests request => some (state.request request)
  | .thread index =>
      match state.threads[index]? with
      | some (stmt :: rest) =>
          (exec state stmt rest).map fun next => next.1.setThread index next.2
      | _ => none
  | .threadSkips index =>
      match state.threads[index]? with
      | some (stmt :: rest) => (skip stmt rest).map (state.setThread index)
      | _ => none
  | .threadDies index =>
      match state.threads[index]? with
      | some (stmt :: _) =>
          match stmt with
          | .join _ | .unregister _ | .closeAborted _ | .watched _ => none
          | _ => some (state.setThread index [])
      | _ => none
  | .task index =>
      match state.tasks[index]? with
      | some task =>
          match task.program with
          | stmt :: rest =>
              (exec state stmt rest).map fun next =>
                ((next.1.setTask index
                  { task with
                    program := next.2
                    aborted := (next.1.tasks[index]?).elim task.aborted Task.aborted }).note
                  task.entry.id)
          | [] => none
      | none => none
  | .taskSkips index =>
      match state.tasks[index]? with
      | some task =>
          match task.program with
          | stmt :: rest =>
              (skip stmt rest).map fun program =>
                (state.setTask index { task with program }).note task.entry.id
          | [] => none
      | none => none
  | .taskLabours index =>
      (state.tasks[index]?).map fun task => state.note task.entry.id
  | .taskReturns index =>
      match state.tasks[index]? with
      | some task =>
          if task.program = [] then some (state.finish index task.entry.id false) else none
      | none => none
  | .taskDies index =>
      (state.tasks[index]?).map fun task => state.finish index task.entry.id false
  | .taskStops index =>
      match state.tasks[index]? with
      | some task =>
          if task.aborted then some (state.finish index task.entry.id true) else none
      | none => none
  | .works => state.work state.worker
  | .workerSkips =>
      match state.worker with
      | .provisioning row => some { state with worker := .logging row }
      | _ => none
  | .workerFails => state.failWork state.worker
  | .spawns addons outcome =>
      match state.worker with
      | .returned row =>
          some
            { state with
              tasks := state.tasks ++ [⟨row, executeJob row addons outcome, false⟩]
              worker := .spawned row }
      | _ => none

/-- The state in which the worker starts: jobs that a crash had left running are queued
again, and the clusters that are being deleted or are ready are on record as such. -/
structure Booted (state : State) : Prop where
  worker : state.worker = .idle
  tasks : state.tasks = []
  threads : state.threads = []
  running : state.running = []
  finished : state.finished = []
  fresh : ∀ row ∈ state.jobs, row.id < state.nextJob
  distinct : (state.jobs.map JobRow.id).Nodup
  requeued : ∀ row ∈ state.jobs, row.status ≠ .running
  owners : ∀ row ∈ state.jobs, ∀ cluster, row.cluster = some cluster →
    cluster < state.nextCluster
  freshClusters : ∀ row ∈ state.clusters, row.id < state.nextCluster
  distinctClusters : (state.clusters.map ClusterRow.id).Nodup
  moves : state.history.moves = []
  ended : state.history.ended = []
  barred : state.history.barred = []
  overrun : state.history.overrun = []
  admitted : state.history.admitted = []
  doomed : state.history.doomed =
    (state.clusters.filter fun row => row.status = .deleting).map ClusterRow.id
  built : state.history.built = []
  created : state.history.created =
    (state.clusters.filter fun row => row.status = .ready).map ClusterRow.id

/-- Nothing has been created yet. -/
def bare : State where
  clusters := []
  jobs := []
  running := []
  tasks := []
  threads := []
  finished := []
  worker := .idle
  nextCluster := 0
  nextJob := 0
  history := ⟨[], [], [], [], [], [], [], [], []⟩

theorem bare_booted : Booted bare := by
  constructor <;> decide

end PertiskKos.Jobs
