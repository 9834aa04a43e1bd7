import PertiskKos.Library.Tables
import PertiskKos.Mgmt.NodeRows

/-!
# Counters and rows of nodes

The row of a cluster counts its control planes and its workers.  The jobs that create the
cluster and that add, adopt and remove nodes change the counters in one statement and the
rows in another, and any statement may fail.  At most one of these jobs is at work on a
cluster; the names and numbers of the next nodes are made from the counters.
-/

namespace PertiskKos.Counters

open Strings Mgmt Nodes Runs

/-- The rows of the cluster's nodes, by name. -/
abbrev Rows := AList fun _ : Text => NodeRow

/-- Where the job at work on the cluster stands. -/
inductive Work where
  /-- Creation, with the rows left to write. -/
  | creating (row : ClusterRow) (todo : List Seed)
  | adding (base : ClusterRow) (role : Role) (left : Nat)
  /-- The counter is written, the row is not. -/
  | inserting (base : ClusterRow) (role : Role) (left : Nat) (name : Text) (vmid : Int)
  | adopting (base : ClusterRow) (role : Role) (custom : Option Text)
  /-- The counter is written, the name not yet looked for. -/
  | checking (role : Role) (name : Text)
  /-- The name is taken: the counter goes back. -/
  | rollingBack (role : Role)
  /-- The number of workers is computed and not yet written. -/
  | restoring (workers : Int)
  | entering (role : Role) (name : Text)
  | removing (names : List Text)
  /-- The counter is written, the row is still there. -/
  | deleting (name : Text) (names : List Text)
  deriving DecidableEq, Repr

structure State where
  cluster : ClusterRow
  nodes : Rows
  work : Option Work

/-- `INSERT … ON CONFLICT DO UPDATE`: the role of a row that is there stays. -/
def upsert (nodes : Rows) (name : Text) (role : Role) (vmid : Option Int) : Rows :=
  match nodes.lookup name with
  | some row => nodes.insert name ⟨row.role, vmid.or row.vmid⟩
  | none => nodes.insert name ⟨role, vmid⟩

def hasVmid (nodes : Rows) (vmid : Option Int) : Bool :=
  vmid.isSome && nodes.entries.any fun row => row.2.vmid = vmid

/-- A line of the creation's log names a node: by its name, else by its number. -/
def touchNodeProgress (nodes : Rows) (name : Text) (role : Role) (vmid : Option Int) : Rows :=
  match nodes.lookup name with
  | some row => nodes.insert name ⟨role, vmid.or row.vmid⟩
  | none => if hasVmid nodes vmid then nodes else upsert nodes name role vmid

namespace State

def stop (state : State) : State := { state with work := none }

def goOn (state : State) (work : Work) : State := { state with work := some work }

/-- The creation has read the row of the cluster. -/
def creates (state : State) (payload : Option Int) : State :=
  let row := Nodes.State.planned payload state.cluster
  state.goOn (.creating row (seedStubNodes row))

/-- A counter goes up, and the job goes on with the name and the number of the node. -/
def counted (state : State) (base : ClusterRow) (role : Role) (next : Text → Int → Work) :
    State :=
  let chosen := Nodes.State.choose base role state.cluster
  { state with cluster := chosen.1, work := some (next chosen.2.1 chosen.2.2) }

/-- The start of the removal of a node. -/
def countNode (state : State) (name : Text) (names : List Text) : State :=
  match state.nodes.lookup name with
  | none => state.stop
  | some node =>
      if Nodes.State.removable node.role state.cluster then
        { state with
          cluster := Nodes.State.uncount node.role state.cluster
          work := some (.deleting name names) }
      else state.stop

/-- The next statement of the job succeeds or fails.  The errors of the rows that a creation
writes, and of the way back of a counter, are dropped; all others end the job. -/
def advance (state : State) (ok : Bool) : Work → Option State
  | .creating _ [] => none
  | .creating row (seed :: todo) =>
      let nodes := if ok then upsert state.nodes seed.name seed.role seed.vmid else state.nodes
      some { state with nodes, work := some (.creating row todo) }
  | .adding _ _ 0 => none
  | .adding base role (left + 1) =>
      some (if ok then state.counted base role (.inserting base role left) else state.stop)
  | .inserting base role left name vmid =>
      some (if ok ∧ state.nodes.lookup name = none then
          { state with
            nodes := state.nodes.insert name ⟨role, some vmid⟩
            work := some (.adding base role left) }
        else state.stop)
  | .adopting base role custom =>
      some (if ok then
          state.counted base role fun name _ => .checking role (custom.getD name)
        else state.stop)
  | .checking role name =>
      some (if ok then
          state.goOn (if (state.nodes.lookup name).isSome then .rollingBack role
            else .entering role name)
        else state.stop)
  | .rollingBack .controlplane =>
      some (if ok then
          { state.stop with cluster := Nodes.State.uncount .controlplane state.cluster }
        else state.stop)
  | .rollingBack .worker =>
      -- a counter that cannot be read is taken for 1
      some (state.goOn (.restoring (max ((if ok then state.cluster.workers else 1) - 1) 0)))
  | .restoring workers =>
      some (if ok then { state.stop with cluster := { state.cluster with workers } }
        else state.stop)
  | .entering role name =>
      some (if ok ∧ state.nodes.lookup name = none then
          { state.stop with nodes := state.nodes.insert name ⟨role, none⟩ }
        else state.stop)
  | .removing [] => none
  | .removing (name :: names) => some (if ok then state.countNode name names else state.stop)
  | .deleting name names =>
      some (if ok then
          { state with nodes := state.nodes.erase name, work := some (.removing names) }
        else state.stop)

end State

inductive Event where
  | creates (payload : Option Int)
  | adds (role : Role) (count : Nat)
  | adopts (role : Role) (custom : Option Text)
  | removes (names : List Text)
  /-- The next statement of the job at work. -/
  | advances (ok : Bool)
  /-- The creation keeps the base of the numbers in the row of the cluster. -/
  | keepsBase
  /-- The creation's script writes a line about a node. -/
  | progress (name : Text) (role : Role) (vmid : Option Int)
  /-- The script is done, and the rows are written again. -/
  | reseeds
  /-- The job ends, fails between two of the statements above, or is stopped. -/
  | stops
  deriving DecidableEq

def step (state : State) : Event → Option State
  | .creates payload => if state.work.isNone then some (state.creates payload) else none
  | .adds role count =>
      if state.work.isNone then
        some (state.goOn (.adding state.cluster role (min (max count 1) 16)))
      else none
  | .adopts role custom =>
      if state.work.isNone then some (state.goOn (.adopting state.cluster role custom))
      else none
  | .removes names => if state.work.isNone then some (state.goOn (.removing names)) else none
  | .advances ok => state.work.bind (state.advance ok)
  | .keepsBase =>
      match state.work with
      | some (.creating row _) =>
          some { state with cluster := { state.cluster with cpVmid := row.cpVmid } }
      | _ => none
  | .progress name role vmid =>
      match state.work with
      | some (.creating _ []) =>
          some { state with nodes := touchNodeProgress state.nodes name role vmid }
      | _ => none
  | .reseeds =>
      match state.work with
      | some (.creating row []) => some (state.goOn (.creating row (seedStubNodes row)))
      | _ => none
  | .stops => if state.work.isSome then some state.stop else none

/-- A cluster that was requested, and its creation. -/
def requested (name : Text) (cpVmid : Option Int) (controlplanes workers : Nat)
    (payload : Option Int) : State :=
  State.creates ⟨{ name, cpVmid, controlplanes, workers }, ∅, none⟩ payload

/-! ## What is to hold -/

def counter (cluster : ClusterRow) : Role → Int
  | .controlplane => cluster.controlplanes
  | .worker => cluster.workers

def count (role : Role) (nodes : Rows) : Nat := Tables.count (fun row => row.role = role) nodes

/-- The counters are the numbers of the rows. -/
def Counted (cluster : ClusterRow) (nodes : Rows) : Prop :=
  ∀ role, counter cluster role = count role nodes

/-- As soon as no job is at work, the counters are right. -/
def Settled (state : State) : Prop := state.work = none → Counted state.cluster state.nodes

/-! ## When it does -/

/-- The row of a node that is to be written is there. -/
def Written (nodes : Rows) (seeds : List Seed) : Prop :=
  ∀ seed ∈ seeds, (nodes.lookup seed.name).isSome

/-- Every row is one that the creation writes. -/
def OnlySeeds (nodes : Rows) (seeds : List Seed) : Prop :=
  ∀ row ∈ nodes.entries, ∃ seed ∈ seeds, seed.name = row.1 ∧ seed.role = row.2.role

/-- No statement fails between the change of a counter and that of the rows, and no job ends
there; the name of an added node is not in use; and a creation starts without rows of others,
ends with all of its own, and its script speaks of these only. -/
def Heeds (state : State) : Event → Prop
  | .creates payload =>
      OnlySeeds state.nodes (seedStubNodes (Nodes.State.planned payload state.cluster))
  | .advances ok =>
      match state.work with
      | some (.creating _ (seed :: _)) => ok = true ∨ Written state.nodes [seed]
      | some (.inserting _ _ _ name _) => ok = true ∧ state.nodes.lookup name = none
      | some (.checking _ _) | some (.rollingBack _) | some (.restoring _)
      | some (.entering _ _) | some (.deleting _ _) => ok = true
      | _ => True
  | .progress name role vmid =>
      match state.nodes.lookup name with
      | some row => row.role = role
      | none => hasVmid state.nodes vmid = true
  | .stops =>
      match state.work with
      | some (.creating _ todo) => Written state.nodes todo
      | some (.inserting _ _ _ _ _) | some (.checking _ _) | some (.rollingBack _)
      | some (.restoring _) | some (.entering _ _) | some (.deleting _ _) => False
      | _ => True
  | _ => True

instance (nodes : Rows) (seeds : List Seed) : Decidable (Written nodes seeds) :=
  inferInstanceAs (Decidable (∀ seed ∈ seeds, (nodes.lookup seed.name).isSome))

instance (nodes : Rows) (seeds : List Seed) : Decidable (OnlySeeds nodes seeds) :=
  inferInstanceAs (Decidable (∀ row ∈ nodes.entries, ∃ seed ∈ seeds, seed.name = row.1 ∧
    seed.role = row.2.role))

instance : ∀ state event, Decidable (Heeds state event)
  | state, .creates payload => inferInstanceAs (Decidable (OnlySeeds state.nodes
      (seedStubNodes (Nodes.State.planned payload state.cluster))))
  | ⟨_, nodes, some (.creating _ (seed :: _))⟩, .advances ok =>
      inferInstanceAs (Decidable (ok = true ∨ Written nodes [seed]))
  | ⟨_, nodes, some (.inserting _ _ _ name _)⟩, .advances ok =>
      inferInstanceAs (Decidable (ok = true ∧ nodes.lookup name = none))
  | ⟨_, _, some (.checking _ _)⟩, .advances ok | ⟨_, _, some (.rollingBack _)⟩, .advances ok
  | ⟨_, _, some (.restoring _)⟩, .advances ok | ⟨_, _, some (.entering _ _)⟩, .advances ok
  | ⟨_, _, some (.deleting _ _)⟩, .advances ok => inferInstanceAs (Decidable (ok = true))
  | ⟨_, _, none⟩, .advances _ | ⟨_, _, some (.creating _ [])⟩, .advances _
  | ⟨_, _, some (.adding _ _ _)⟩, .advances _ | ⟨_, _, some (.adopting _ _ _)⟩, .advances _
  | ⟨_, _, some (.removing _)⟩, .advances _ => .isTrue trivial
  | state, .progress name role vmid =>
      match hrow : state.nodes.lookup name with
      | some row => decidable_of_iff (row.role = role) (by rw [Heeds, hrow])
      | none => decidable_of_iff (hasVmid state.nodes vmid = true) (by rw [Heeds, hrow])
  | ⟨_, nodes, some (.creating _ todo)⟩, .stops =>
      inferInstanceAs (Decidable (Written nodes todo))
  | ⟨_, _, some (.inserting _ _ _ _ _)⟩, .stops | ⟨_, _, some (.checking _ _)⟩, .stops
  | ⟨_, _, some (.rollingBack _)⟩, .stops | ⟨_, _, some (.restoring _)⟩, .stops
  | ⟨_, _, some (.entering _ _)⟩, .stops | ⟨_, _, some (.deleting _ _)⟩, .stops => .isFalse id
  | ⟨_, _, none⟩, .stops | ⟨_, _, some (.adding _ _ _)⟩, .stops
  | ⟨_, _, some (.adopting _ _ _)⟩, .stops | ⟨_, _, some (.removing _)⟩, .stops =>
      .isTrue trivial
  | _, .adds _ _ | _, .adopts _ _ | _, .removes _ | _, .keepsBase | _, .reseeds =>
      .isTrue trivial

/-! ## The rows of a creation -/

section Seeds

variable {row : ClusterRow} {nodes : Rows}

theorem cpName_injective (cluster : Text) : Function.Injective (cpName cluster) := by
  intro i j hsame
  rw [cpName, cpName] at hsame
  exact number_injective (List.append_cancel_left hsame)

theorem wkName_injective (cluster : Text) : Function.Injective (wkName cluster) := by
  intro i j hsame
  rw [wkName, wkName] at hsame
  exact number_injective (List.append_cancel_left hsame)

theorem cpName_ne_wkName (cluster : Text) (i j : Int) : cpName cluster i ≠ wkName cluster j := by
  intro hsame
  rw [cpName, wkName, List.append_assoc, List.append_assoc] at hsame
  have hrest := List.append_cancel_left hsame
  simp at hrest

theorem seedStubNodes_nodup (row : ClusterRow) :
    ((seedStubNodes row).map Seed.name).Nodup := by
  rw [seedStubNodes, List.map_append, List.map_map, List.map_map, List.nodup_append]
  refine ⟨?_, ?_, ?_⟩
  · apply List.nodup_range.map
    intro i j hsame
    have hindex := cpName_injective row.name hsame
    omega
  · apply List.nodup_range.map
    intro i j hsame
    have hindex := wkName_injective row.name hsame
    omega
  · intro one hone other hother
    obtain ⟨i, -, rfl⟩ := List.mem_map.mp hone
    obtain ⟨j, -, rfl⟩ := List.mem_map.mp hother
    exact cpName_ne_wkName row.name _ _

theorem countP_seedStubNodes (hcps : 0 ≤ row.controlplanes) (hworkers : 0 ≤ row.workers)
    (role : Role) :
    ((seedStubNodes row).countP fun seed => seed.role = role : Int) = counter row role := by
  rw [seedStubNodes, List.countP_append, List.countP_map, List.countP_map]
  cases role with
  | controlplane =>
      rw [List.countP_eq_length.mpr (by simp), List.countP_eq_zero.mpr (by simp)]
      simp [counter, hcps]
  | worker =>
      rw [List.countP_eq_zero.mpr (by simp), List.countP_eq_length.mpr (by simp)]
      simp [counter, hworkers]

/-- The rows that a creation writes, all of them and no others, are as many as it was asked
for. -/
theorem counted_of_written (hcps : 0 ≤ row.controlplanes) (hworkers : 0 ≤ row.workers)
    (honly : OnlySeeds nodes (seedStubNodes row))
    (hwritten : Written nodes (seedStubNodes row)) : Counted row nodes := by
  intro role
  rw [← countP_seedStubNodes hcps hworkers role, count, Tables.count,
    List.countP_eq_length_filter, List.countP_eq_length_filter]
  have hperm : (((seedStubNodes row).filter fun seed => seed.role = role).map Seed.name).Perm
      ((nodes.entries.filter fun row => row.2.role = role).map Sigma.fst) := by
    rw [List.perm_ext_iff_of_nodup]
    · intro name
      simp only [List.mem_map, List.mem_filter, decide_eq_true_eq]
      constructor
      · rintro ⟨seed, ⟨hseed, hrole⟩, rfl⟩
        obtain ⟨node, hnode⟩ := Option.isSome_iff_exists.mp (hwritten seed hseed)
        have hentry := AList.mem_lookup_iff.mp hnode
        obtain ⟨other, hother, hname, hsame⟩ := honly _ hentry
        have hseedOther : other = seed :=
          List.inj_on_of_nodup_map (seedStubNodes_nodup row) hother hseed hname
        exact ⟨_, ⟨hentry, hsame.symm.trans (hseedOther ▸ hrole)⟩, rfl⟩
      · rintro ⟨entry, ⟨hentry, hrole⟩, rfl⟩
        obtain ⟨seed, hseed, hname, hsame⟩ := honly entry hentry
        exact ⟨seed, ⟨hseed, hsame.trans hrole⟩, hname⟩
    · exact (seedStubNodes_nodup row).sublist (List.filter_sublist.map _)
    · have hkeys : nodes.entries.keys.Nodup := nodes.nodupKeys
      exact hkeys.sublist (List.filter_sublist.map _)
  have hlength := hperm.length_eq
  rw [List.length_map, List.length_map] at hlength
  rw [hlength]

theorem OnlySeeds.insert {seeds : List Seed} (honly : OnlySeeds nodes seeds) {name : Text}
    {node : NodeRow} (hnode : ∃ seed ∈ seeds, seed.name = name ∧ seed.role = node.role) :
    OnlySeeds (nodes.insert name node) seeds := by
  intro entry hentry
  rw [AList.entries_insert] at hentry
  rcases List.mem_cons.mp hentry with rfl | hold
  · exact hnode
  · exact honly entry ((List.kerase_sublist _ _).subset hold)

theorem OnlySeeds.lookup {seeds : List Seed} (honly : OnlySeeds nodes seeds) {name : Text}
    {node : NodeRow} (hnode : nodes.lookup name = some node) :
    ∃ seed ∈ seeds, seed.name = name ∧ seed.role = node.role :=
  honly _ (AList.mem_lookup_iff.mp hnode)

theorem isSome_lookup_insert {name other : Text} {node : NodeRow} :
    ((nodes.insert name node).lookup other).isSome ↔
      other = name ∨ (nodes.lookup other).isSome := by
  by_cases hsame : other = name
  · subst hsame
    simp
  · simp [AList.lookup_insert_ne hsame, hsame]

/-- A creation at work: the rows are its own, and what is not left to write is there. -/
structure Creation (cluster row : ClusterRow) (todo : List Seed) (nodes : Rows) : Prop where
  counters : ∀ role, counter row role = counter cluster role
  natural : ∀ role, 0 ≤ counter cluster role
  only : OnlySeeds nodes (seedStubNodes row)
  ours : todo ⊆ seedStubNodes row
  written : ∀ seed ∈ seedStubNodes row, seed ∈ todo ∨ (nodes.lookup seed.name).isSome

variable {cluster : ClusterRow} {todo : List Seed}

theorem Creation.counted (hcreation : Creation cluster row todo nodes)
    (hwritten : Written nodes todo) : Counted cluster nodes := by
  have hnatural : ∀ role, 0 ≤ counter row role := fun role =>
    hcreation.counters role ▸ hcreation.natural role
  have hall : Written nodes (seedStubNodes row) := fun seed hseed =>
    (hcreation.written seed hseed).elim (hwritten seed) id
  intro role
  rw [← hcreation.counters role]
  exact counted_of_written (hnatural .controlplane) (hnatural .worker) hcreation.only hall role

/-- The next row is written, or was there already. -/
theorem Creation.seed {seed : Seed} (hcreation : Creation cluster row (seed :: todo) nodes)
    {ok : Bool} (hok : ok = true ∨ Written nodes [seed]) :
    Creation cluster row todo
      (if ok then upsert nodes seed.name seed.role seed.vmid else nodes) := by
  have hseed : seed ∈ seedStubNodes row := hcreation.ours List.mem_cons_self
  have htodo : todo ⊆ seedStubNodes row := fun _ hmem =>
    hcreation.ours (List.mem_cons_of_mem _ hmem)
  have hstays : ∀ rows : Rows, (rows.lookup seed.name).isSome →
      (∀ name, (nodes.lookup name).isSome → (rows.lookup name).isSome) →
      ∀ other ∈ seedStubNodes row, other ∈ todo ∨ (rows.lookup other.name).isSome := by
    intro rows hthere hkept other hother
    rcases hcreation.written other hother with hmem | hwritten
    · rcases List.mem_cons.mp hmem with rfl | hlater
      · exact .inr hthere
      · exact .inl hlater
    · exact .inr (hkept other.name hwritten)
  cases ok with
  | true =>
      simp only [if_true, upsert]
      cases hlookup : nodes.lookup seed.name with
      | none =>
          exact ⟨hcreation.counters, hcreation.natural,
            hcreation.only.insert ⟨seed, hseed, rfl, rfl⟩, htodo,
            hstays _ (isSome_lookup_insert.mpr (.inl rfl))
              fun _ h => isSome_lookup_insert.mpr (.inr h)⟩
      | some node =>
          obtain ⟨other, hother, hname, hrole⟩ := hcreation.only.lookup hlookup
          exact ⟨hcreation.counters, hcreation.natural,
            hcreation.only.insert ⟨other, hother, hname, hrole⟩, htodo,
            hstays _ (isSome_lookup_insert.mpr (.inl rfl))
              fun _ h => isSome_lookup_insert.mpr (.inr h)⟩
  | false =>
      have hthere := hok.resolve_left (by simp) seed (List.mem_singleton_self seed)
      exact ⟨hcreation.counters, hcreation.natural, hcreation.only, htodo,
        hstays nodes hthere fun _ h => h⟩

end Seeds

/-! ## What holds at every statement -/

section Invariant

/-- The counter of `role` is one ahead of the rows. -/
def Ahead (role : Role) (cluster : ClusterRow) (nodes : Rows) : Prop :=
  ∀ other, counter cluster other = count other nodes + if role = other then 1 else 0

/-- The counter of `role` is one behind the rows. -/
def Behind (role : Role) (cluster : ClusterRow) (nodes : Rows) : Prop :=
  ∀ other, (counter cluster other + if role = other then 1 else 0) = count other nodes

/-- The counters and the rows at each statement of a job. -/
def At (cluster : ClusterRow) (nodes : Rows) : Option Work → Prop
  | some (.creating row todo) => Creation cluster row todo nodes
  | some (.inserting _ role _ _ _) | some (.checking role _) | some (.rollingBack role) =>
      Ahead role cluster nodes
  | some (.entering role name) => Ahead role cluster nodes ∧ nodes.lookup name = none
  | some (.restoring workers) => Counted { cluster with workers } nodes
  | some (.deleting name _) =>
      ∃ node, nodes.lookup name = some node ∧ Behind node.role cluster nodes
  | none | some (.adding _ _ _) | some (.adopting _ _ _) | some (.removing _) =>
      Counted cluster nodes

def Inv (state : State) : Prop := At state.cluster state.nodes state.work

variable {cluster : ClusterRow} {nodes : Rows} {role : Role} {name : Text}

theorem Counted.choose (hcounted : Counted cluster nodes) (base : ClusterRow) (role : Role) :
    Ahead role (Nodes.State.choose base role cluster).1 nodes := by
  intro other
  have hother := hcounted other
  cases role <;> cases other <;>
    simp only [Nodes.State.choose, counter] at hother ⊢ <;> simp [hother]

theorem Ahead.insert {vmid : Option Int} (hahead : Ahead role cluster nodes)
    (hnew : nodes.lookup name = none) :
    Counted cluster (nodes.insert name ⟨role, vmid⟩) := by
  intro other
  rw [hahead other, count, count, Tables.count_insert_new hnew]
  push_cast
  simp only [decide_eq_true_eq]

theorem Ahead.uncount (hahead : Ahead .controlplane cluster nodes) :
    Counted (Nodes.State.uncount .controlplane cluster) nodes := by
  intro other
  have hother := hahead other
  cases other <;> simp only [Nodes.State.uncount, counter] at hother ⊢ <;> simp [hother]

theorem Ahead.restore (hahead : Ahead .worker cluster nodes) :
    Counted { cluster with workers := max (cluster.workers - 1) 0 } nodes := by
  intro other
  have hother := hahead other
  cases other with
  | controlplane => simpa [counter] using hother
  | worker =>
      simp only [counter, if_true] at hother ⊢
      omega

theorem Counted.uncount {node : NodeRow} (hcounted : Counted cluster nodes)
    (hnode : nodes.lookup name = some node) :
    Behind node.role (Nodes.State.uncount node.role cluster) nodes := by
  intro other
  have hother := hcounted other
  have hrow : count node.role nodes = count node.role (nodes.erase name) + 1 := by
    rw [count, Tables.count_of_lookup hnode, if_pos (by simp)]
    rfl
  cases hrole : node.role <;> rw [hrole] at hrow <;> cases other <;>
    simp only [Nodes.State.uncount, counter] at hother ⊢ <;> simp <;> omega

theorem Behind.erase {node : NodeRow} (hnode : nodes.lookup name = some node)
    (hbehind : Behind node.role cluster nodes) : Counted cluster (nodes.erase name) := by
  intro other
  have hother := hbehind other
  rw [count, Tables.count_of_lookup hnode] at hother
  push_cast at hother
  simp only [decide_eq_true_eq] at hother
  exact add_right_cancel hother

/-- The counters of a cluster with right ones are not negative. -/
theorem Counted.natural (hcounted : Counted cluster nodes) (role : Role) :
    0 ≤ counter cluster role := by
  rw [hcounted role]
  exact Int.natCast_nonneg _

theorem counter_planned (payload : Option Int) (role : Role) :
    counter (Nodes.State.planned payload cluster) role = counter cluster role := by
  cases role <;> rfl

theorem creation_begins (payload : Option Int) (hnatural : ∀ role, 0 ≤ counter cluster role)
    (honly : OnlySeeds nodes (seedStubNodes (Nodes.State.planned payload cluster))) :
    Creation cluster (Nodes.State.planned payload cluster)
      (seedStubNodes (Nodes.State.planned payload cluster)) nodes where
  counters := counter_planned payload
  natural := hnatural
  only := honly
  ours := fun _ hseed => hseed
  written := fun _ hseed => .inl hseed

variable {state next : State}

theorem idle_counted (hinv : Inv state) (hidle : state.work.isNone = true) :
    Counted state.cluster state.nodes := by
  rw [Inv, Option.isNone_iff_eq_none.mp hidle] at hinv
  exact hinv

/-- A job starts while no other is at work. -/
theorem begins_inv {work : Work} (hinv : Inv state)
    (hat : Counted state.cluster state.nodes → At state.cluster state.nodes (some work))
    (hnext : (if state.work.isNone then some (state.goOn work) else none) = some next) :
    Inv next := by
  split at hnext
  · next hidle =>
      have hcounted := idle_counted hinv hidle
      cases hnext
      exact hat hcounted
  · cases hnext

/-- Every statement of a job, under the condition. -/
theorem advance_inv {ok : Bool} {work : Work} (hwork : state.work = some work)
    (hinv : Inv state) (hheeds : Heeds state (.advances ok))
    (hnext : state.advance ok work = some next) : Inv next := by
  rw [Inv, hwork] at hinv
  rw [Heeds, hwork] at hheeds
  cases work with
  | creating row todo =>
      cases todo with
      | nil => cases hnext
      | cons seed todo =>
          cases hnext
          exact Creation.seed hinv hheeds
  | adding base role left =>
      cases left with
      | zero => cases hnext
      | succ left =>
          cases hnext
          cases ok with
          | true => exact Counted.choose hinv base role
          | false => exact hinv
  | inserting base role left name vmid =>
      cases hnext
      rw [if_pos hheeds]
      exact Ahead.insert hinv hheeds.2
  | adopting base role custom =>
      cases hnext
      cases ok with
      | true => exact Counted.choose hinv base role
      | false => exact hinv
  | checking role name =>
      cases hnext
      rw [if_pos hheeds]
      cases hlookup : state.nodes.lookup name with
      | none => exact ⟨hinv, hlookup⟩
      | some node => exact hinv
  | rollingBack role =>
      cases hheeds
      cases role with
      | controlplane =>
          cases hnext
          exact Ahead.uncount hinv
      | worker =>
          cases hnext
          exact Ahead.restore hinv
  | restoring workers =>
      cases hheeds
      cases hnext
      exact hinv
  | entering role name =>
      cases hnext
      rw [if_pos ⟨hheeds, hinv.2⟩]
      exact hinv.1.insert hinv.2
  | removing names =>
      cases names with
      | nil => cases hnext
      | cons name names =>
          cases hnext
          cases ok with
          | false => exact hinv
          | true =>
              simp only [if_true, State.countNode]
              cases hlookup : state.nodes.lookup name with
              | none => exact hinv
              | some node =>
                  dsimp only
                  split
                  · exact ⟨node, hlookup, Counted.uncount hinv hlookup⟩
                  · exact hinv
  | deleting name names =>
      cases hheeds
      cases hnext
      obtain ⟨node, hnode, hbehind⟩ := hinv
      exact hbehind.erase hnode

/-- A line of the script changes nothing that is counted. -/
theorem progress_inv {row : ClusterRow} {vmid : Option Int}
    (hcreation : Creation state.cluster row [] state.nodes)
    (hheeds : Heeds state (.progress name role vmid)) :
    Creation state.cluster row [] (touchNodeProgress state.nodes name role vmid) := by
  rw [Heeds] at hheeds
  rw [touchNodeProgress]
  cases hlookup : state.nodes.lookup name with
  | none =>
      simp only [hlookup] at hheeds
      simpa [hheeds] using hcreation
  | some node =>
      simp only [hlookup] at hheeds
      obtain ⟨seed, hseed, hname, hrole⟩ := hcreation.only.lookup hlookup
      refine ⟨hcreation.counters, hcreation.natural,
        hcreation.only.insert ⟨seed, hseed, hname, hrole.trans hheeds⟩, hcreation.ours, ?_⟩
      intro other hother
      exact (hcreation.written other hother).imp_right fun h => isSome_lookup_insert.mpr (.inr h)

theorem step_inv {event : Event} (hinv : Inv state) (hheeds : Heeds state event)
    (hnext : step state event = some next) : Inv next := by
  cases event with
  | creates payload =>
      let row := Nodes.State.planned payload state.cluster
      have hat : Counted state.cluster state.nodes →
          At state.cluster state.nodes (some (.creating row (seedStubNodes row))) :=
        fun hcounted => creation_begins payload hcounted.natural hheeds
      exact begins_inv hinv hat hnext
  | adds role count => exact begins_inv hinv id hnext
  | adopts role custom => exact begins_inv hinv id hnext
  | removes names => exact begins_inv hinv id hnext
  | advances ok =>
      rw [step] at hnext
      obtain ⟨work, hwork, hadvance⟩ := Option.bind_eq_some_iff.mp hnext
      exact advance_inv hwork hinv hheeds hadvance
  | keepsBase =>
      rw [step] at hnext
      split at hnext
      · next row todo hwork =>
          cases hnext
          rw [Inv, hwork] at hinv
          rw [Inv, hwork]
          have hsame : ∀ role, counter { state.cluster with cpVmid := row.cpVmid } role =
              counter state.cluster role := by
            intro role
            cases role <;> rfl
          exact ⟨fun role => (hinv.counters role).trans (hsame role).symm,
            fun role => (hsame role).symm ▸ hinv.natural role, hinv.only, hinv.ours,
            hinv.written⟩
      · cases hnext
  | progress name role vmid =>
      rw [step] at hnext
      split at hnext
      · next row hwork =>
          cases hnext
          rw [Inv, hwork] at hinv
          rw [Inv, hwork]
          exact progress_inv hinv hheeds
      · cases hnext
  | reseeds =>
      rw [step] at hnext
      split at hnext
      · next row hwork =>
          cases hnext
          rw [Inv, hwork] at hinv
          exact ⟨hinv.counters, hinv.natural, hinv.only, fun _ hseed => hseed,
            fun _ hseed => .inl hseed⟩
      · cases hnext
  | stops =>
      rw [step] at hnext
      split at hnext
      · next hbusy =>
          cases hnext
          obtain ⟨work, hwork⟩ := Option.isSome_iff_exists.mp hbusy
          rw [Inv, hwork] at hinv
          rw [Heeds, hwork] at hheeds
          cases work with
          | creating row todo => exact hinv.counted hheeds
          | adding base role left => exact hinv
          | adopting base role custom => exact hinv
          | removing names => exact hinv
          | inserting base role left name vmid => exact hheeds.elim
          | checking role name => exact hheeds.elim
          | rollingBack role => exact hheeds.elim
          | restoring workers => exact hheeds.elim
          | entering role name => exact hheeds.elim
          | deleting name names => exact hheeds.elim
      · cases hnext

end Invariant

/-- The counters of a cluster are right whenever no job is at work on it, as long as no
statement fails between a counter and its row. -/
theorem counters_match (name : Text) (cpVmid : Option Int) (controlplanes workers : Nat)
    (payload : Option Int) (events : List Event)
    (hheeds : Guarded step Heeds (requested name cpVmid controlplanes workers payload) events) :
    Throughout step Settled (requested name cpVmid controlplanes workers payload) events := by
  have hstart : Inv (requested name cpVmid controlplanes workers payload) := by
    apply creation_begins payload
    · intro role
      cases role <;> exact Int.natCast_nonneg _
    · intro row hrow
      cases hrow
  have hsettled : ∀ state, Inv state → Settled state := by
    intro state hinv hidle
    exact idle_counted hinv (Option.isNone_iff_eq_none.mpr hidle)
  exact throughout_of_guarded hsettled (fun _ _ _ => step_inv) hstart hheeds

section Lab

def labName : Text := ['l', 'a', 'b']

/-- A cluster of one control plane and two workers. -/
def labStart : State := requested labName (some 210) 1 2 none

/-- All its rows are written, and once more when the script is done. -/
def labCreation : List Event :=
  [.advances true, .advances true, .advances true, .reseeds, .advances true, .advances true,
    .advances true, .stops]

/-- A worker is added, and an adopted node with a name that is taken is turned away. -/
theorem counters_match_lab :
    Throughout step Settled labStart (labCreation ++
      [.adds .worker 1, .advances true, .advances true, .stops,
        .adopts .worker (some (wkName labName 1)), .advances true, .advances true,
        .advances true, .advances true]) :=
  counters_match labName (some 210) 1 2 none _ (by decide +kernel)

/-- The first worker is removed and one is added: the new one's name is that of the second,
its row cannot be written, and the counter stays one ahead. -/
def labReplacement : List Event :=
  labCreation ++ [.removes [wkName labName 1], .advances true, .advances true, .stops,
    .adds .worker 1, .advances true, .advances true]

theorem counter_ahead :
    ¬ ∀ (name : Text) (cpVmid : Option Int) (controlplanes workers : Nat)
      (payload : Option Int) (events : List Event),
      Throughout step Settled (requested name cpVmid controlplanes workers payload) events := by
  intro hclaim
  have hends : (run step labStart labReplacement).isSome = true := by decide +kernel
  have hidle : ∀ final ∈ run step labStart labReplacement, final.work = none ∧
      final.cluster.workers = 2 ∧ count .worker final.nodes = 1 := by decide +kernel
  obtain ⟨final, hfinal⟩ := Option.isSome_iff_exists.mp hends
  obtain ⟨hwork, hcounter, hcount⟩ := hidle final hfinal
  have hsettled := (hclaim labName (some 210) 1 2 none labReplacement).last hfinal
  have hworkers := hsettled hwork .worker
  rw [counter, hcounter, hcount] at hworkers
  cases hworkers

end Lab

end PertiskKos.Counters
