import PertiskKos.Mgmt.Steps

/-!
# The exclusion of jobs

What the worker decides on is a snapshot of the running map.  An entry is in the map
before the next snapshot is taken and until its task has ended, so what a snapshot rules
out is not executing.
-/

namespace PertiskKos.Jobs

/-- A job that must be the only one of its cluster. -/
def isLone (entry : Entry) (cluster : Nat) : Bool :=
  entry.cluster = some cluster && entry.kind ≠ .installAddon && entry.kind ≠ .deleteCluster

/-- The tasks that are executing keep apart. -/
structure Exclusion (state : State) : Prop where
  lone : ∀ cluster, state.tasks.countP (fun task => isLone task.entry cluster) ≤ 1
  alone : ∀ cluster, ∀ task ∈ state.tasks, isLone task.entry cluster = true →
    ∀ other ∈ state.tasks, other.entry.cluster = some cluster →
      other.entry.kind ≠ .installAddon
  limit : addons (state.tasks.map Task.entry) ≤ maxParallelAddonJobs

/-- A claim has come to its end and returns nothing: the snapshot it decided on. -/
def State.nothingFound (state : State) : Option (List Entry) :=
  match state.worker with
  | .fetched [] => some []
  | .scanning [] _ running false => some running
  | _ => none

/-- A job has to wait for one of its own cluster, or for the limit. -/
def Blocked (row : JobRow) (running : List Entry) : Prop :=
  (∃ entry ∈ running, entry.cluster = row.cluster) ∨
    row.kind = .installAddon ∧ maxParallelAddonJobs ≤ addons running

instance (row : JobRow) (running : List Entry) : Decidable (Blocked row running) :=
  inferInstanceAs (Decidable (_ ∨ _))

/-- Of the jobs that were queued when a claim read the queue, those it leaves there have
to wait. -/
def Waiting (state : State) : Prop :=
  ∀ running, state.nothingFound = some running →
    ∀ row ∈ state.jobs, row.status = .queued → row.id ∈ state.history.asked →
      jobIsStale state row.entry = false → Blocked row running

/-- Nothing that could start is left when a claim returns nothing. -/
def NothingLeft (state : State) : Prop :=
  ∀ running, state.nothingFound = some running →
    ∀ row ∈ state.jobs, row.status = .queued → jobIsStale state row.entry = false →
      Blocked row state.running

namespace Worker

/-- The row that was claimed and is not in the running map yet. -/
def pending : Worker → List Entry
  | .provisioning row | .logging row | .returned row | .spawned row => [row]
  | .idle | .fetched _ | .scanning _ _ _ _ | .dropping _ _ _ _ | .claiming _ _ _ _ _ => []

/-- The pending row has a task. -/
def started : Worker → List Entry
  | .spawned row => [row]
  | _ => []

/-- The pending row has no task yet. -/
def claimed : Worker → List Entry
  | .provisioning row | .logging row | .returned row => [row]
  | _ => []

end Worker

/-- A job that must be alone has only deletions of its cluster beside it. -/
def Compatible (left right : Entry) : Prop :=
  ∀ cluster, isLone left cluster = true → right.cluster = some cluster →
    right.kind = .deleteCluster

/-- Both ways round. -/
def Apart (left right : Entry) : Prop := Compatible left right ∧ Compatible right left

variable {row entry : Entry} {running : List Entry}

theorem isLone_iff {cluster : Nat} : isLone entry cluster = true ↔
    entry.cluster = some cluster ∧ entry.kind ≠ .installAddon ∧
      entry.kind ≠ .deleteCluster := by
  simp [isLone, and_assoc]

/-- What may start keeps apart from all that is in the snapshot. -/
theorem apart_of_jobCanStart (hstart : jobCanStart row running = true)
    (hentry : entry ∈ running) : Apart entry row := by
  unfold jobCanStart at hstart
  split at hstart
  · rename_i hdelete
    exact ⟨fun _ _ _ => hdelete, fun _ hlone _ => absurd hdelete (isLone_iff.mp hlone).2.2⟩
  · split at hstart
    · rename_i haddon
      split at hstart
      · cases hstart
      · rename_i cluster hcluster
        split at hstart
        · cases hstart
        · have hnone : ∀ other ∈ running, other.cluster = some cluster →
              other.kind = .installAddon := by
            simpa [sameClusterHasExclusive, jobIsExclusive] using hstart
          refine ⟨fun other hlone hother => ?_,
            fun _ hlone _ => absurd haddon (isLone_iff.mp hlone).2.1⟩
          obtain rfl : cluster = other := Option.some.inj (hcluster.symm.trans hother)
          obtain ⟨hsame, hkind, -⟩ := isLone_iff.mp hlone
          exact absurd (hnone entry hentry hsame) hkind
    · split at hstart
      · rename_i hcluster
        refine ⟨fun cluster _ hother => ?_, fun cluster hlone _ => ?_⟩
        · rw [hcluster] at hother
          cases hother
        · simp [isLone, hcluster] at hlone
      · rename_i cluster hcluster
        have hnone : ∀ other ∈ running, other.cluster ≠ some cluster := by
          simpa [sameClusterHasAny] using hstart
        refine ⟨fun other hlone hother => ?_, fun other hlone hother => ?_⟩
        · obtain rfl : cluster = other := Option.some.inj (hcluster.symm.trans hother)
          exact absurd (isLone_iff.mp hlone).1 (hnone entry hentry)
        · obtain rfl : cluster = other :=
            Option.some.inj (hcluster.symm.trans (isLone_iff.mp hlone).1)
          exact absurd hother (hnone entry hentry)

theorem addons_append (left right : List Entry) :
    addons (left ++ right) = addons left + addons right :=
  List.countP_append

theorem addons_sublist {left right : List Entry} (hsub : left.Sublist right) :
    addons left ≤ addons right := hsub.countP_le

/-- An add-on starts below the limit. -/
theorem addons_of_jobCanStart (hstart : jobCanStart row running = true)
    {current : List Entry} (hsub : current.Sublist running)
    (hfew : addons current ≤ maxParallelAddonJobs) :
    addons (current ++ [row]) ≤ maxParallelAddonJobs := by
  rw [addons_append]
  by_cases haddon : row.kind = .installAddon
  · have hbelow : addons running < maxParallelAddonJobs := by
      unfold jobCanStart at hstart
      rw [if_neg (by simp [haddon]), if_pos haddon] at hstart
      split at hstart
      · cases hstart
      · split at hstart
        · cases hstart
        · omega
    have hle := addons_sublist hsub
    have hone : addons [row] ≤ 1 := List.countP_le_length
    omega
  · have hzero : addons [row] = 0 := by simp [addons, haddon]
    omega

/-- A row that cannot start is not a deletion, and waits for its own cluster or for the
limit. -/
theorem blocked_of_not_jobCanStart {cluster : Nat} (hcluster : row.cluster = some cluster)
    (hwait : jobCanStart row running = false) :
    row.kind ≠ .deleteCluster ∧
      ((∃ entry ∈ running, entry.cluster = some cluster) ∨
        row.kind = .installAddon ∧ maxParallelAddonJobs ≤ addons running) := by
  unfold jobCanStart at hwait
  split at hwait
  · cases hwait
  · rename_i hdelete
    refine ⟨hdelete, ?_⟩
    rw [hcluster] at hwait
    split at hwait
    · rename_i haddon
      by_cases hlimit : maxParallelAddonJobs ≤ addons running
      · exact .inr ⟨haddon, hlimit⟩
      · have hbusy : sameClusterHasExclusive running cluster = true := by
          simpa [hlimit] using hwait
        obtain ⟨entry, hentry, hsame⟩ := List.any_eq_true.mp hbusy
        simp only [Bool.and_eq_true, decide_eq_true_eq] at hsame
        exact .inl ⟨entry, hentry, hsame.1⟩
    · have hbusy : sameClusterHasAny running cluster = true := by simpa using hwait
      obtain ⟨entry, hentry, hsame⟩ := List.any_eq_true.mp hbusy
      exact .inl ⟨entry, hentry, by simpa using hsame⟩

/-! ## The invariant -/

namespace State

variable (state : State)

/-- The entries that exclude others. -/
def held : List Entry := state.running ++ state.worker.pending

/-- No row with this number is queued, now or later. -/
def Taken (id : Nat) : Prop :=
  id < state.nextJob ∧ ∀ row ∈ state.jobs, row.id = id → row.status ≠ .queued

/-- The row is still the one that was read, if it is there. -/
def Agrees (entry : Entry) : Prop :=
  entry.id < state.nextJob ∧ ∀ row ∈ state.jobs, row.id = entry.id →
    row.kind = entry.kind ∧ (row.cluster = entry.cluster ∨ row.cluster = none)

/-- The row is not queued, or is stale, or has to wait. -/
def Settled (running : List Entry) (id : Nat) : Prop :=
  id < state.nextJob ∧ ∀ row ∈ state.jobs, row.id = id → row.status = .queued →
    row.kind ≠ .deleteCluster ∧ (row.cluster = none ∨ Blocked row running)

/-- A claim on its way: the rows that are left, and the snapshot. -/
structure Scan (left : List Entry) (running : List Entry) : Prop where
  agrees : ∀ entry ∈ left, state.Agrees entry
  settled : ∀ id ∈ state.history.asked, id ∈ left.map Entry.id ∨ state.Settled running id
  snapshot : state.running.Sublist running

/-- What a claim has found out so far. -/
def Reading : Worker → Prop
  | .fetched rows =>
      (∀ entry ∈ rows, state.Agrees entry) ∧
        ∀ id ∈ state.history.asked, id ∈ rows.map Entry.id
  | .scanning rows _ running _ => state.Scan rows running
  | .dropping row rows _ running => state.Scan (row :: rows) running
  | .claiming row rows _ running _ =>
      state.Scan (row :: rows) running ∧ jobCanStart row running = true
  | .idle | .provisioning _ | .logging _ | .returned _ | .spawned _ => True

end State

/-- What holds between any two steps. -/
structure Scheduled (state : State) : Prop where
  carried : ∀ task ∈ state.tasks, task.entry ∈ state.running ++ state.worker.started
  single : ((state.tasks.map Task.entry).map Entry.id).Nodup
  apart : ∀ left ∈ state.held, ∀ right ∈ state.held, left ≠ right → Apart left right
  few : addons state.held ≤ maxParallelAddonJobs
  distinct : (state.held.map Entry.id).Nodup
  taken : ∀ entry ∈ state.held, state.Taken entry.id
  retired : ∀ id, state.Retired id → state.Taken id ∧
    (∀ task ∈ state.tasks, task.entry.id ≠ id) ∧
      ∀ entry ∈ state.worker.claimed, entry.id ≠ id
  fresh : ∀ row ∈ state.jobs, row.id < state.nextJob
  rows : (state.jobs.map JobRow.id).Nodup
  reading : state.Reading state.worker

section Evolution

variable {state next : State} {id : Nat}

theorem State.Taken.evolves (htaken : state.Taken id) (hevolves : Evolves state next) :
    next.Taken id := by
  refine ⟨htaken.1.trans_le hevolves.nextJob, fun row hrow hid hqueued => ?_⟩
  rcases hevolves.rows row hrow with ⟨old, hold, hfollows⟩ | hnew
  · exact htaken.2 old hold (hfollows.id ▸ hid) (hfollows.queued hqueued)
  · have hlt := htaken.1
    omega

theorem State.Agrees.evolves (hagrees : state.Agrees entry) (hevolves : Evolves state next) :
    next.Agrees entry := by
  refine ⟨hagrees.1.trans_le hevolves.nextJob, fun row hrow hid => ?_⟩
  rcases hevolves.rows row hrow with ⟨old, hold, hfollows⟩ | hnew
  · obtain ⟨hkind, hcluster⟩ := hagrees.2 old hold (hfollows.id ▸ hid)
    refine ⟨hfollows.kind.trans hkind, ?_⟩
    rcases hfollows.cluster with hsame | hnone
    · rwa [hsame]
    · exact .inr hnone
  · have hlt := hagrees.1
    omega

theorem State.Settled.evolves (hsettled : state.Settled running id)
    (hevolves : Evolves state next) : next.Settled running id := by
  refine ⟨hsettled.1.trans_le hevolves.nextJob, fun row hrow hid hqueued => ?_⟩
  rcases hevolves.rows row hrow with ⟨old, hold, hfollows⟩ | hnew
  · obtain ⟨hkind, hwait⟩ :=
      hsettled.2 old hold (hfollows.id ▸ hid) (hfollows.queued hqueued)
    refine ⟨hfollows.kind ▸ hkind, ?_⟩
    rcases hfollows.cluster with hsame | hnone
    · simpa only [Blocked, hsame, hfollows.kind] using hwait
    · exact .inl hnone
  · have hlt := hsettled.1
    omega

theorem State.Taken.settled (htaken : state.Taken id) : state.Settled running id :=
  ⟨htaken.1, fun row hrow hid hqueued => absurd hqueued (htaken.2 row hrow hid)⟩

theorem State.Scan.evolves {left : List Entry} (hscan : state.Scan left running)
    (hevolves : Evolves state next) (hasked : next.history.asked = state.history.asked)
    (hrunning : next.running.Sublist state.running) : next.Scan left running where
  agrees entry hentry := (hscan.agrees entry hentry).evolves hevolves
  settled id hid := (hscan.settled id (hasked ▸ hid)).imp_right fun h => h.evolves hevolves
  snapshot := hrunning.trans hscan.snapshot

/-- The first of the rows that are left is settled. -/
theorem State.Scan.tail {row : Entry} {left : List Entry} (hscan : state.Scan (row :: left) running)
    (hsettled : state.Settled running row.id) : state.Scan left running where
  agrees entry hentry := hscan.agrees entry (List.mem_cons_of_mem _ hentry)
  settled id hid := by
    rcases hscan.settled id hid with hleft | hdone
    · rcases List.mem_cons.mp hleft with rfl | hrest
      · exact .inr hsettled
      · exact .inl hrest
    · exact .inr hdone
  snapshot := hscan.snapshot

theorem State.Reading.evolves {worker : Worker} (hreading : state.Reading worker)
    (hevolves : Evolves state next) (hasked : next.history.asked = state.history.asked)
    (hrunning : next.running.Sublist state.running) : next.Reading worker := by
  cases worker with
  | fetched rows =>
      exact ⟨fun entry hentry => (hreading.1 entry hentry).evolves hevolves,
        fun id hid => hreading.2 id (hasked ▸ hid)⟩
  | scanning rows seen running dropped =>
      exact State.Scan.evolves hreading hevolves hasked hrunning
  | dropping row rows seen running =>
      exact State.Scan.evolves hreading hevolves hasked hrunning
  | claiming row rows seen running dropped =>
      exact ⟨hreading.1.evolves hevolves hasked hrunning, hreading.2⟩
  | idle | provisioning | logging | returned | spawned => trivial

end Evolution

variable {state next : State}

theorem Worker.started_sublist (worker : Worker) : worker.started.Sublist worker.pending := by
  cases worker <;> simp [Worker.started, Worker.pending]

/-- A task is of an entry that excludes others. -/
theorem Scheduled.held (hstate : Scheduled state) {task : Task} (htask : task ∈ state.tasks) :
    task.entry ∈ state.held :=
  ((List.Sublist.refl _).append state.worker.started_sublist).mem (hstate.carried task htask)

/-- A row that was claimed has no task yet. -/
theorem Scheduled.unstarted (hstate : Scheduled state) {task : Task}
    (htask : task ∈ state.tasks) : ∀ claimed ∈ state.worker.claimed,
      claimed.id ≠ task.entry.id := by
  have hcarried := hstate.carried task htask
  have hdistinct := hstate.distinct
  cases hworker : state.worker with
  | provisioning row | logging row | returned row =>
      simp only [State.held, hworker, Worker.pending, Worker.started, Worker.claimed,
        List.append_nil, List.map_append, List.map_cons, List.map_nil,
        List.mem_singleton, forall_eq] at hcarried hdistinct ⊢
      intro hsame
      refine (List.nodup_append.mp hdistinct).2.2 _ (List.mem_map_of_mem hcarried) row.id ?_
        hsame.symm
      exact List.mem_singleton_self _
  | _ => simp [Worker.claimed]

theorem Scheduled.calm (hstate : Scheduled state) (hcalm : Calm state next) :
    Scheduled next := by
  obtain ⟨gone, hrunning, hgone⟩ := hcalm.running
  have hsub : next.running.Sublist state.running := hrunning ▸ List.filter_sublist
  have hheld : next.held.Sublist state.held := by
    unfold State.held
    rw [hcalm.worker]
    exact hsub.append (List.Sublist.refl _)
  have hentry : ∀ task ∈ next.tasks, ∃ old ∈ state.tasks, old.entry = task.entry := by
    intro task htask
    have hmem : task.entry ∈ state.tasks.map Task.entry :=
      hcalm.entries ▸ List.mem_map_of_mem htask
    simpa using hmem
  exact
    { carried := fun task htask => by
        obtain ⟨old, hold, hsame⟩ := hentry task htask
        rw [← hsame, hcalm.worker]
        rcases List.mem_append.mp (hstate.carried old hold) with hmap | hstarted
        · refine List.mem_append_left _ (hrunning ▸ List.mem_filter.mpr ⟨hmap, ?_⟩)
          have hlive : old.entry.id ∉ gone := fun hid =>
            (hstate.retired _ (hgone _ hid)).2.1 old hold rfl
          simpa using hlive
        · exact List.mem_append_right _ hstarted
      single := hcalm.entries ▸ hstate.single
      apart := fun left hleft right hright =>
        hstate.apart left (hheld.mem hleft) right (hheld.mem hright)
      few := (addons_sublist hheld).trans hstate.few
      distinct := hstate.distinct.sublist (hheld.map Entry.id)
      taken := fun entry hentry =>
        (hstate.taken entry (hheld.mem hentry)).evolves hcalm.evolves
      retired := fun id hid => by
        obtain ⟨htaken, hlive, hclaimed⟩ := hstate.retired id (hcalm.retired id hid)
        refine ⟨htaken.evolves hcalm.evolves, fun task htask => ?_, hcalm.worker ▸ hclaimed⟩
        obtain ⟨old, hold, hsame⟩ := hentry task htask
        exact hsame ▸ hlive old hold
      fresh := hcalm.evolves.fresh hstate.fresh
      rows := hcalm.evolves.distinct hstate.fresh hstate.rows
      reading := hcalm.worker ▸ hstate.reading.evolves hcalm.evolves hcalm.asked hsub }

theorem Scheduled.ends (hstate : Scheduled state) {index : Nat} {task : Task}
    (htask : state.tasks[index]? = some task) (aborted : Bool) :
    Scheduled (state.finish index task.entry.id aborted) := by
  have hmem : task ∈ state.tasks := List.mem_of_getElem? htask
  have hsub : (state.tasks.eraseIdx index).Sublist state.tasks := List.eraseIdx_sublist _ _
  have hother : ∀ other ∈ state.tasks.eraseIdx index, other.entry.id ≠ task.entry.id := by
    intro other hother hsame
    obtain ⟨position, hne, hposition⟩ := List.mem_eraseIdx_iff_getElem?.mp hother
    have hboth : ((state.tasks.map Task.entry).map Entry.id)[position]? =
        ((state.tasks.map Task.entry).map Entry.id)[index]? := by
      simp [hposition, htask, hsame]
    have hshort : position < ((state.tasks.map Task.entry).map Entry.id).length := by
      simpa using (List.getElem?_eq_some_iff.mp hposition).1
    exact hne ((List.getElem?_inj hshort hstate.single).mp hboth)
  exact
    { carried := fun other hother => hstate.carried other (hsub.mem hother)
      single := hstate.single.sublist ((hsub.map Task.entry).map Entry.id)
      apart := hstate.apart
      few := hstate.few
      distinct := hstate.distinct
      taken := hstate.taken
      retired := fun id hid => by
        have hcases : id = task.entry.id ∨ state.Retired id := by
          rcases hid with hdone | ⟨program, hprogram, hmem⟩
          · simp only [State.finish, List.map_append, List.map_cons, List.map_nil,
              List.mem_append, List.mem_singleton] at hdone
            rcases hdone with hold | hnew
            · exact .inr (.inl hold)
            · exact .inl hnew
          · refine .inr (.inr ⟨program, ?_, hmem⟩)
            rcases List.mem_append.mp hprogram with hthread | hrest
            · exact List.mem_append_left _ hthread
            · exact List.mem_append_right _ ((hsub.map Task.program).mem hrest)
        rcases hcases with rfl | hold
        · exact ⟨hstate.taken _ (hstate.held hmem), hother, hstate.unstarted hmem⟩
        · obtain ⟨htaken, hlive, hclaimed⟩ := hstate.retired id hold
          exact ⟨htaken, fun other hother => hlive other (hsub.mem hother), hclaimed⟩
      fresh := hstate.fresh
      rows := hstate.rows
      reading :=
        State.Reading.evolves hstate.reading (.of_same rfl rfl) rfl (List.Sublist.refl _) }

/-- A step of the worker that neither claims a row nor registers one. -/
theorem Scheduled.of_worker (hstate : Scheduled state) (hevolves : Evolves state next)
    (htasks : next.tasks = state.tasks) (hthreads : next.threads = state.threads)
    (hrunning : next.running = state.running) (hfinished : next.finished = state.finished)
    (hpending : next.worker.pending.Sublist state.worker.pending)
    (hstarted : next.worker.started = state.worker.started)
    (hclaimed : next.worker.claimed.Sublist state.worker.claimed)
    (hreading : next.Reading next.worker) : Scheduled next := by
  have hheld : next.held.Sublist state.held := by
    unfold State.held
    rw [hrunning]
    exact (List.Sublist.refl _).append hpending
  exact
    { carried := by
        rw [htasks, hrunning, hstarted]
        exact hstate.carried
      single := htasks ▸ hstate.single
      apart := fun left hleft right hright =>
        hstate.apart left (hheld.mem hleft) right (hheld.mem hright)
      few := (addons_sublist hheld).trans hstate.few
      distinct := hstate.distinct.sublist (hheld.map Entry.id)
      taken := fun entry hentry => (hstate.taken entry (hheld.mem hentry)).evolves hevolves
      retired := fun id hid => by
        have hold : state.Retired id := by
          simpa only [State.Retired, State.programs, hfinished, hthreads, htasks] using hid
        obtain ⟨htaken, hlive, hunclaimed⟩ := hstate.retired id hold
        exact ⟨htaken.evolves hevolves, htasks ▸ hlive,
          fun entry hentry => hunclaimed entry (hclaimed.mem hentry)⟩
      fresh := hevolves.fresh hstate.fresh
      rows := hevolves.distinct hstate.fresh hstate.rows
      reading := hreading }

/-- The row of the table that was read is the only one with its number. -/
theorem agrees_of_queuedRows (hfresh : ∀ row ∈ state.jobs, row.id < state.nextJob)
    (hdistinct : (state.jobs.map JobRow.id).Nodup) (hentry : entry ∈ queuedRows state) :
    state.Agrees entry := by
  obtain ⟨row, hrow, rfl⟩ := List.mem_map.mp hentry
  have hmem : row ∈ state.jobs := by
    rcases List.mem_append.mp hrow with hdelete | hother
    · exact (List.mem_filter.mp (List.mem_filter.mp hdelete).1).1
    · exact (List.mem_filter.mp (List.mem_filter.mp hother).1).1
  refine ⟨hfresh row hmem, fun other hother hid => ?_⟩
  obtain rfl := List.inj_on_of_nodup_map hdistinct hother hmem hid
  exact ⟨rfl, .inl rfl⟩

/-- A row that cannot start now, and is not stale, is settled. -/
theorem settled_of_blocked (hagrees : state.Agrees row)
    (hstale : jobIsStale state row = false) (hwait : jobCanStart row running = false) :
    state.Settled running row.id := by
  refine ⟨hagrees.1, fun other hother hid hqueued => ?_⟩
  obtain ⟨hkind, hcluster⟩ := hagrees.2 other hother hid
  cases howner : row.cluster with
  | none =>
      have hdelete : row.kind = .deleteCluster := by
        by_contra hkind
        simp [jobIsStale, hkind, howner] at hstale
      simp [jobCanStart, hdelete] at hwait
  | some cluster =>
      obtain ⟨hother, hblocked⟩ := blocked_of_not_jobCanStart howner hwait
      refine ⟨hkind ▸ hother, ?_⟩
      rcases hcluster with hsame | hnone
      · right
        simpa only [Blocked, hsame, howner, hkind] using hblocked
      · exact .inl hnone

/-- A queued row is claimed: it keeps apart from the whole running map. -/
theorem Scheduled.claims (hstate : Scheduled state) {rows seen : List Entry} {dropped : Bool}
    (hworker : state.worker = .claiming row rows seen running dropped)
    (hqueued : ∃ job ∈ state.jobs, job.id = row.id ∧ job.status = .queued)
    {history : History} {worker : Worker} (hnew : worker = .provisioning row ∨ worker = .logging row) :
    Scheduled { state.moveJob row.id (whenQueued .running) with history, worker } := by
  obtain ⟨job, hjob, hid, hstatus⟩ := hqueued
  have hreading := hstate.reading
  rw [hworker] at hreading
  obtain ⟨hscan, hstart⟩ := hreading
  have hagrees := hscan.agrees row List.mem_cons_self
  have hevolves : Evolves state (state.moveJob row.id (whenQueued .running)) :=
    state.moveJob_evolves row.id _ (by decide)
  have hpending : worker.pending = [row] := by rcases hnew with rfl | rfl <;> rfl
  have hclaimed : worker.claimed = [row] := by rcases hnew with rfl | rfl <;> rfl
  have hheld : state.held = state.running := by
    simp [State.held, hworker, Worker.pending]
  have huntaken : ¬ state.Taken row.id := fun htaken => htaken.2 job hjob hid hstatus
  have hapart : ∀ entry ∈ state.running, Apart entry row := fun entry hentry =>
    apart_of_jobCanStart hstart (hscan.snapshot.mem hentry)
  have hfew : addons state.running ≤ maxParallelAddonJobs := hheld ▸ hstate.few
  set next : State :=
    { state.moveJob row.id (whenQueued .running) with history, worker } with hnext
  have htaken : next.Taken row.id :=
    ⟨hagrees.1, fun other hother hsame =>
      state.moveJob_unqueued row.id (by decide) rfl hother hsame⟩
  have hnextHeld : next.held = state.running ++ [row] := by
    simp [hnext, State.held, hpending]
  exact
    { carried := fun task htask => by
        have hold := hstate.carried task htask
        simp only [hworker, Worker.started, List.append_nil] at hold
        exact List.mem_append_left _ hold
      single := hstate.single
      apart := by
        rw [hnextHeld]
        intro left hleft right hright hne
        simp only [List.mem_append, List.mem_singleton] at hleft hright
        rcases hleft with hleft | rfl <;> rcases hright with hright | rfl
        · exact hstate.apart left (hheld ▸ hleft) right (hheld ▸ hright) hne
        · exact hapart left hleft
        · exact (hapart right hright).symm
        · exact absurd rfl hne
      few := hnextHeld ▸ addons_of_jobCanStart hstart hscan.snapshot hfew
      distinct := by
        rw [hnextHeld, List.map_append, List.map_cons, List.map_nil]
        refine List.nodup_append.mpr ⟨hheld ▸ hstate.distinct, List.nodup_singleton _, ?_⟩
        intro old hold new hnewId hsame
        obtain ⟨entry, hentry, rfl⟩ := List.mem_map.mp hold
        rw [List.mem_singleton.mp hnewId] at hsame
        exact huntaken (hsame ▸ hstate.taken entry (hheld ▸ hentry))
      taken := by
        rw [hnextHeld]
        intro entry hentry
        rcases List.mem_append.mp hentry with hold | hsame
        · exact (hstate.taken entry (hheld ▸ hold)).evolves
            ⟨hevolves.rows, hevolves.nextJob, hevolves.distinct⟩
        · exact List.mem_singleton.mp hsame ▸ htaken
      retired := fun id hid => by
        obtain ⟨hold, hlive, -⟩ := hstate.retired id hid
        refine ⟨hold.evolves ⟨hevolves.rows, hevolves.nextJob, hevolves.distinct⟩, hlive, ?_⟩
        intro entry hentry
        rw [show next.worker.claimed = [row] from hclaimed] at hentry
        rw [List.mem_singleton.mp hentry]
        rintro rfl
        exact huntaken hold
      fresh := hevolves.fresh hstate.fresh
      rows := hevolves.distinct hstate.fresh hstate.rows
      reading := by rcases hnew with rfl | rfl <;> trivial }

/-- A spawned task is put into the running map. -/
theorem Scheduled.registers (hstate : Scheduled state) (hworker : state.worker = .spawned row) :
    Scheduled
      { state with
        running := state.running.filter (fun entry => entry.id ≠ row.id) ++ [row]
        threads := state.threads ++ [[.join row.id]]
        worker := .idle } := by
  have hheld : state.held = state.running ++ [row] := by
    simp [State.held, hworker, Worker.pending]
  have hdistinct := hstate.distinct
  rw [hheld, List.map_append, List.map_cons, List.map_nil] at hdistinct
  have hfilter : state.running.filter (fun entry => entry.id ≠ row.id) = state.running := by
    refine List.filter_eq_self.mpr fun entry hentry => ?_
    have hne := (List.nodup_append.mp hdistinct).2.2 _ (List.mem_map_of_mem hentry) row.id
      (List.mem_singleton_self _)
    simpa using hne
  rw [hfilter]
  set next : State :=
    { state with
      running := state.running ++ [row]
      threads := state.threads ++ [[.join row.id]]
      worker := .idle } with hnext
  have hnextHeld : next.held = state.held := by
    simp [hnext, State.held, hworker, Worker.pending]
  exact
    { carried := fun task htask => by
        have hold := hstate.carried task htask
        simpa [hnext, hworker, Worker.started] using hold
      single := hstate.single
      apart := hnextHeld ▸ hstate.apart
      few := hnextHeld ▸ hstate.few
      distinct := hnextHeld ▸ hstate.distinct
      taken := hnextHeld ▸ hstate.taken
      retired := fun id hid => by
        have hold : state.Retired id := by
          rcases hid with hdone | ⟨program, hprogram, hmem⟩
          · exact .inl hdone
          · refine .inr ⟨program, ?_, hmem⟩
            simp only [hnext, State.programs, List.mem_append, List.mem_singleton] at hprogram
            rcases hprogram with (hthread | rfl) | htask
            · exact List.mem_append_left _ hthread
            · simp at hmem
            · exact List.mem_append_right _ htask
        obtain ⟨htaken, hlive, -⟩ := hstate.retired id hold
        exact ⟨htaken, hlive, by simp [hnext, Worker.claimed]⟩
      fresh := hstate.fresh
      rows := hstate.rows
      reading := trivial }

theorem Scheduled.spawns (hstate : Scheduled state) (hworker : state.worker = .returned row)
    (addons : Nat) (outcome : Outcome) :
    Scheduled
      { state with
        tasks := state.tasks ++ [⟨row, executeJob row addons outcome, false⟩]
        worker := .spawned row } := by
  have hheld : state.held = state.running ++ [row] := by
    simp [State.held, hworker, Worker.pending]
  set next : State :=
    { state with
      tasks := state.tasks ++ [⟨row, executeJob row addons outcome, false⟩]
      worker := .spawned row } with hnext
  have hnextHeld : next.held = state.held := by
    simp [hnext, State.held, hworker, Worker.pending]
  have hunstarted : ∀ task ∈ state.tasks, task.entry.id ≠ row.id := fun task htask hsame =>
    hstate.unstarted htask row (by simp [hworker, Worker.claimed]) hsame.symm
  exact
    { carried := fun task htask => by
        rcases List.mem_append.mp htask with hold | hnew
        · have hcarried := hstate.carried task hold
          simp only [hworker, Worker.started, List.append_nil] at hcarried
          exact List.mem_append_left _ hcarried
        · rw [List.mem_singleton.mp hnew]
          exact List.mem_append_right _ (List.mem_singleton_self _)
      single := by
        simp only [hnext, List.map_append, List.map_cons, List.map_nil]
        refine List.nodup_append.mpr ⟨hstate.single, List.nodup_singleton _, ?_⟩
        intro old hold new hnew
        obtain ⟨entry, hentry, rfl⟩ := List.mem_map.mp hold
        obtain ⟨task, htask, rfl⟩ := List.mem_map.mp hentry
        rw [List.mem_singleton.mp hnew]
        exact hunstarted task htask
      apart := hnextHeld ▸ hstate.apart
      few := hnextHeld ▸ hstate.few
      distinct := hnextHeld ▸ hstate.distinct
      taken := hnextHeld ▸ hstate.taken
      retired := fun id hid => by
        have hold : state.Retired id := by
          rcases hid with hdone | ⟨program, hprogram, hmem⟩
          · exact .inl hdone
          · refine .inr ⟨program, ?_, hmem⟩
            simp only [hnext, State.programs, List.map_append, List.map_cons, List.map_nil,
              List.mem_append, List.mem_singleton] at hprogram
            rcases hprogram with hthread | htask | rfl
            · exact List.mem_append_left _ hthread
            · exact List.mem_append_right _ htask
            · exact absurd (isPlain_executeJob row addons outcome _ hmem)
                (by simp [isPlain, isWatch])
        obtain ⟨htaken, hlive, hunclaimed⟩ := hstate.retired id hold
        refine ⟨htaken, fun task htask => ?_, by simp [hnext, Worker.claimed]⟩
        rcases List.mem_append.mp htask with hrest | hnew
        · exact hlive task hrest
        · rw [List.mem_singleton.mp hnew]
          exact hunclaimed row (by simp [hworker, Worker.claimed])
      fresh := hstate.fresh
      rows := hstate.rows
      reading := trivial }

/-- The worker goes on without a change of the tables. -/
theorem Scheduled.reads (hstate : Scheduled state) {worker : Worker}
    (hpending : worker.pending.Sublist state.worker.pending)
    (hstarted : worker.started = state.worker.started)
    (hclaimed : worker.claimed.Sublist state.worker.claimed)
    (hreading : state.Reading worker) : Scheduled { state with worker } :=
  hstate.of_worker (.of_same rfl rfl) rfl rfl rfl rfl hpending hstarted hclaimed
    (State.Reading.evolves hreading (.of_same rfl rfl) rfl (List.Sublist.refl _))

/-- One case for each place the worker can be at. -/
theorem Scheduled.works (hstate : Scheduled state) (hwork : state.work state.worker = some next) :
    Scheduled next := by
  have hreading := hstate.reading
  cases hworker : state.worker with
  | idle =>
      rw [hworker] at hwork
      obtain rfl := Option.some.inj hwork
      refine hstate.of_worker (.of_same rfl rfl) rfl rfl rfl rfl
        (by simp [Worker.pending]) (by simp [hworker, Worker.started])
        (by simp [Worker.claimed]) ⟨fun entry hentry => ?_, fun id hid => hid⟩
      exact (agrees_of_queuedRows hstate.fresh hstate.rows hentry).evolves (.of_same rfl rfl)
  | fetched rows =>
      rw [hworker] at hwork hreading
      cases rows with
      | nil =>
          obtain rfl := Option.some.inj hwork
          exact hstate.reads (by simp [Worker.pending]) (by simp [hworker, Worker.started])
            (by simp [Worker.claimed]) trivial
      | cons row rows =>
          obtain rfl := Option.some.inj hwork
          exact hstate.reads (by simp [Worker.pending]) (by simp [hworker, Worker.started])
            (by simp [Worker.claimed])
            ⟨hreading.1, fun id hid => .inl (hreading.2 id hid), List.Sublist.refl _⟩
  | scanning rows seen running dropped =>
      rw [hworker] at hwork hreading
      cases rows with
      | nil =>
          obtain rfl := Option.some.inj hwork
          exact hstate.reads (by simp [Worker.pending]) (by simp [hworker, Worker.started])
            (by simp [Worker.claimed]) trivial
      | cons row rows =>
          obtain rfl := Option.some.inj hwork
          refine hstate.reads ?_ ?_ ?_ ?_
          · split_ifs <;> simp [Worker.pending]
          · split_ifs <;> simp [hworker, Worker.started]
          · split_ifs <;> simp [Worker.claimed]
          · split_ifs with hstale hstart
            · exact hreading
            · exact ⟨hreading, hstart⟩
            · refine State.Scan.tail hreading (settled_of_blocked ?_ ?_ ?_)
              · exact hreading.agrees row List.mem_cons_self
              · simpa using hstale
              · simpa using hstart
  | dropping row rows seen running =>
      rw [hworker] at hwork hreading
      obtain rfl := Option.some.inj hwork
      have hevolves : Evolves state (state.moveJob row.id (whenQueued .cancelled)) :=
        state.moveJob_evolves row.id _ (by decide)
      refine hstate.of_worker ⟨hevolves.rows, hevolves.nextJob, hevolves.distinct⟩
        rfl rfl rfl rfl (by simp [Worker.pending]) (by simp [hworker, Worker.started])
        (by simp [Worker.claimed]) ?_
      refine State.Scan.tail (?_ : State.Scan _ (row :: rows) running) ?_
      · exact State.Scan.evolves hreading ⟨hevolves.rows, hevolves.nextJob, hevolves.distinct⟩
          rfl (List.Sublist.refl _)
      · refine State.Taken.settled ⟨(hreading.agrees row List.mem_cons_self).1, ?_⟩
        exact fun other hother hsame =>
          state.moveJob_unqueued row.id (by decide) rfl hother hsame
  | claiming row rows seen running dropped =>
      rw [hworker] at hwork hreading
      obtain rfl := Option.some.inj hwork
      unfold State.claim
      split
      · rename_i hany
        obtain ⟨job, hjob, hqueued⟩ := List.any_eq_true.mp hany
        obtain ⟨admitted, hadmitted⟩ := State.admitJob_eq
          (state.moveJob row.id (whenQueued .running)) row.id row.cluster row.kind
        rw [hadmitted]
        refine hstate.claims hworker ⟨job, hjob, by simpa using hqueued⟩ ?_
        split
        · exact .inl rfl
        · exact .inr rfl
      · rename_i hnone
        have hsettled : state.Settled running row.id := by
          refine State.Taken.settled
            ⟨(hreading.1.agrees row List.mem_cons_self).1, fun other hother hid hqueued => ?_⟩
          exact hnone (List.any_eq_true.mpr ⟨other, hother, by simp [hid, hqueued]⟩)
        exact hstate.reads (by simp [Worker.pending]) (by simp [hworker, Worker.started])
          (by simp [Worker.claimed]) (State.Scan.tail hreading.1 hsettled)
  | provisioning row =>
      rw [hworker] at hwork
      obtain rfl := Option.some.inj hwork
      cases hcluster : row.cluster with
      | none =>
          exact hstate.reads (by simp [hworker, Worker.pending])
            (by simp [hworker, Worker.started]) (by simp [hworker, Worker.claimed]) trivial
      | some cluster =>
          exact hstate.of_worker (.of_same rfl rfl) rfl rfl rfl rfl
            (by simp [hworker, Worker.pending]) (by simp [hworker, Worker.started])
            (by simp [hworker, Worker.claimed]) trivial
  | logging row =>
      rw [hworker] at hwork
      obtain rfl := Option.some.inj hwork
      exact hstate.reads (by simp [hworker, Worker.pending])
        (by simp [hworker, Worker.started]) (by simp [hworker, Worker.claimed]) trivial
  | returned row =>
      rw [hworker] at hwork
      cases hwork
  | spawned row =>
      rw [hworker] at hwork
      obtain rfl := Option.some.inj hwork
      exact hstate.registers hworker

theorem Scheduled.fails (hstate : Scheduled state)
    (hfail : state.failWork state.worker = some next) : Scheduled next := by
  unfold State.failWork at hfail
  split at hfail
  · cases hfail
  · cases hfail
  · rename_i hreturned hspawned
    obtain rfl := Option.some.inj hfail
    have hstarted : state.worker.started = [] := by
      cases hworker : state.worker <;> simp_all [Worker.started]
    exact hstate.reads (by simp [Worker.pending]) hstarted.symm
      (by simp [Worker.claimed]) trivial

/-- Whoever takes a step, the invariant stays. -/
theorem Scheduled.step (hstate : Scheduled state) {event : Event}
    (hstep : step state event = some next) : Scheduled next := by
  cases step_move hstep with
  | calm hcalm => exact hstate.calm hcalm
  | ends aborted htask => exact hstate.ends htask aborted
  | works hwork => exact hstate.works hwork
  | skips hworker =>
      exact hstate.reads (by simp [hworker, Worker.pending])
        (by simp [hworker, Worker.started]) (by simp [hworker, Worker.claimed]) trivial
  | fails hfail => exact hstate.fails hfail
  | spawns addons outcome hworker => exact hstate.spawns hworker addons outcome

theorem Booted.scheduled (hboot : Booted state) : Scheduled state where
  carried := by simp [hboot.tasks]
  single := by simp [hboot.tasks]
  apart := by simp [State.held, hboot.running, hboot.worker, Worker.pending]
  few := by simp [State.held, hboot.running, hboot.worker, Worker.pending, addons]
  distinct := by simp [State.held, hboot.running, hboot.worker, Worker.pending]
  taken := by simp [State.held, hboot.running, hboot.worker, Worker.pending]
  retired := by
    simp [State.Retired, State.programs, hboot.tasks, hboot.threads, hboot.finished]
  fresh := hboot.fresh
  rows := hboot.distinct
  reading := by simp [hboot.worker, State.Reading]

theorem countP_le_one {α : Type*} {test : α → Bool} {xs : List α} (hnodup : xs.Nodup)
    (hsame : ∀ left ∈ xs, test left = true → ∀ right ∈ xs, test right = true →
      left = right) : xs.countP test ≤ 1 := by
  rw [List.countP_eq_length_filter]
  have hfilter := hnodup.filter test
  match hxs : xs.filter test with
  | [] => simp
  | [_] => simp
  | first :: second :: rest =>
      have hmem : ∀ x ∈ [first, second], x ∈ xs ∧ test x = true := by
        intro x hx
        refine List.mem_filter.mp (hxs ▸ ?_)
        simp only [List.mem_cons, List.not_mem_nil, or_false] at hx
        rcases hx with rfl | rfl <;> simp
      obtain ⟨hfirst, hfirstTest⟩ := hmem first (by simp)
      obtain ⟨hsecond, hsecondTest⟩ := hmem second (by simp)
      rw [hxs, hsame first hfirst hfirstTest second hsecond hsecondTest] at hfilter
      simp at hfilter

/-- The tasks are a part of what is held, so they keep apart as well. -/
theorem Scheduled.exclusion (hstate : Scheduled state) : Exclusion state where
  lone cluster := by
    have hnodup : (state.tasks.map Task.entry).Nodup := .of_map _ hstate.single
    have hmap : state.tasks.countP (fun task => isLone task.entry cluster) =
        (state.tasks.map Task.entry).countP (isLone · cluster) := by
      rw [List.countP_map]
      rfl
    rw [hmap]
    refine countP_le_one hnodup fun left hleft hlone right hright hother => ?_
    obtain ⟨task, htask, rfl⟩ := List.mem_map.mp hleft
    obtain ⟨other, hother', rfl⟩ := List.mem_map.mp hright
    by_contra hne
    have hapart := hstate.apart _ (hstate.held htask) _ (hstate.held hother') hne
    exact (isLone_iff.mp hother).2.2 (hapart.1 cluster hlone (isLone_iff.mp hother).1)
  alone cluster task htask hlone other hother hcluster := by
    by_cases hsame : task.entry = other.entry
    · exact hsame ▸ (isLone_iff.mp hlone).2.1
    · have hapart := hstate.apart _ (hstate.held htask) _ (hstate.held hother) hsame
      rw [hapart.1 cluster hlone hcluster]
      decide
  limit := by
    have hnodup : (state.tasks.map Task.entry).Nodup := .of_map _ hstate.single
    have hsub : (state.tasks.map Task.entry) ⊆ state.held := by
      intro entry hentry
      obtain ⟨task, htask, rfl⟩ := List.mem_map.mp hentry
      exact hstate.held htask
    exact ((hnodup.subperm hsub).countP_le _).trans hstate.few

theorem Scheduled.waiting (hstate : Scheduled state) : Waiting state := by
  intro running hfound row hrow hqueued hasked hstale
  have hreading := hstate.reading
  unfold State.nothingFound at hfound
  split at hfound
  · rename_i hworker
    rw [hworker] at hreading
    exact absurd (hreading.2 row.id hasked) (by simp)
  · rename_i seen snapshot hworker
    rw [hworker] at hreading
    obtain rfl := Option.some.inj hfound
    rcases hreading.settled row.id hasked with hleft | hsettled
    · simp at hleft
    · obtain ⟨hdelete, hnone | hblocked⟩ := hsettled.2 row hrow rfl hqueued
      · simp [jobIsStale, JobRow.entry, hdelete, hnone] at hstale
      · exact hblocked
  · cases hfound

/-- Whatever the interleaving of the worker, the tasks and the requests: in every state
the executing tasks keep apart, and when a claim returns nothing, each job that was queued
when it read the queue, and still is, had to wait for its own cluster or for the limit. -/
theorem scheduling_exclusion (hboot : Booted state) (events : List Event) :
    Runs.Throughout PertiskKos.Jobs.step (fun state => Exclusion state ∧ Waiting state)
      state events :=
  Runs.throughout_of_inv (fun _ hstate => ⟨hstate.exclusion, hstate.waiting⟩)
    (fun _ _ _ hstate hstep => Scheduled.step hstate hstep) hboot.scheduled events

/-- A creation that is requested, claimed and spawned, and an add-on beside it. -/
theorem creation_keeps_apart :
    Runs.Throughout PertiskKos.Jobs.step (fun state => Exclusion state ∧ Waiting state) bare
      [.requests .create, .thread 0, .thread 0, .requests (.queue 0 .installAddon), .works,
        .thread 1, .works, .works, .works, .works, .works, .spawns 0 .ok, .works, .works,
        .works, .works] :=
  scheduling_exclusion bare_booted _

/-- A creation is queued after the worker has read the empty queue. -/
theorem late_job_left : ¬ ∀ state, Booted state → ∀ events,
    Runs.Throughout PertiskKos.Jobs.step (fun state => Exclusion state ∧ NothingLeft state)
      state events := by
  intro hclaim
  have hlast := (hclaim bare bare_booted
    [.requests .create, .works, .thread 0, .thread 0]).last rfl
  have hblocked := hlast.2 [] rfl ⟨0, some 0, .createCluster, .queued⟩ (by decide) rfl
    (by decide)
  exact absurd hblocked (by decide)

end PertiskKos.Jobs
