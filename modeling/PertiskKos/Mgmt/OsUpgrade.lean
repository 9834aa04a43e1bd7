import Mathlib.Data.List.Sort
import PertiskKos.Mgmt.Attestation

/-!
# The OS upgrade of a cluster

The job takes the nodes one by one: it stages and applies the bundle, waits for the reboot,
marks the boot good and asks for the version.  A node may run any image whenever it is
asked, and any step may fail.
-/

namespace PertiskKos.OsUpgrade

open Strings Mgmt

inductive Role where
  | controlplane
  | worker
  deriving DecidableEq, Repr

structure NodeRow where
  id : Nat
  name : Text
  role : Role
  ip : Option Text
  deriving DecidableEq

/-- The part of the text that follows `version=`. -/
def versionPart (part : Text) : Option Text :=
  match "version=".toList.isPrefixOf? part with
  | some v => if trim v ≠ [] ∧ trim v ≠ ['-'] then some (trim v) else none
  | none => none

def parseUpgradeStatusVersion (stdout : Text) : Option Text :=
  (splitWhitespace stdout).findSome? versionPart

example : parseUpgradeStatusVersion
    "active=A next=B attempts=0 version=0.2.86 pending=".toList = some "0.2.86".toList := by
  repeat rw [String.toList_ofList]
  decide

/-! ## What a node answers -/

/-- How a request to mark the boot good ends. -/
inductive MarkReply where
  /-- The client could not be started, so nothing was sent. -/
  | unsent
  | refused
  | accepted
  /-- The request was sent, and the job's log cannot be written afterwards. -/
  | unlogged
  deriving DecidableEq, Repr

structure Attempt where
  /-- The node runs the image of the bundle when the request is sent. -/
  bundle : Bool
  reply : MarkReply
  deriving DecidableEq, Repr

/-- Everything that happens around one node.  A stage covers its writes to the job's log
and to the table of nodes. -/
structure Replies where
  /-- The row is set to `upgrading`. -/
  recorded : Bool
  pertiskctl : Bool
  apiReady : Bool
  staged : Bool
  /-- The apply request succeeds. -/
  upgraded : Bool
  /-- Whether the port is open, at each poll of the two waits. -/
  openBefore : Nat → Bool
  openAfter : Nat → Bool
  attempts : Nat → Attempt
  /-- The warning after eight attempts is written. -/
  warned : Bool
  /-- What the client prints for the last status request, if it can be started. -/
  status : Option Text
  statusLogged : Bool
  /-- The API answers again, and the row is set to `ready`. -/
  settled : Bool

/-- What an observer of the nodes sees. -/
inductive Contact where
  /-- A request to mark the boot good is sent. -/
  | mark (node : Nat) (bundle : Bool)
  /-- The version that a node's last status answer names. -/
  | seen (node : Nat) (version : Option Text)
  /-- The version that the row of the node gets. -/
  | wrote (node : Nat) (version : Text)
  deriving DecidableEq

/-! ## The job -/

/-- The port has to close within the attempts. -/
def waitGuestApiDown (isOpen : Nat → Bool) : Nat → Nat → Bool
  | 0, _ => false
  | left + 1, i => if isOpen i then waitGuestApiDown isOpen left (i + 1) else true

/-- The port has to open within the attempts; the address may change in between. -/
def waitGuestApiUp (isOpen : Nat → Bool) : Nat → Nat → Bool
  | 0, _ => false
  | left + 1, i => if isOpen i then true else waitGuestApiUp isOpen left (i + 1)

def waitGuestAfterOsReboot (r : Replies) : Bool :=
  waitGuestApiDown r.openBefore 45 1 && waitGuestApiUp r.openAfter 180 1

/-- The attempts to mark the boot good, and whether the job goes on. -/
def markBootGood (node : Nat) (r : Replies) : Nat → Nat → List Contact × Bool
  | 0, _ => ([], r.warned)
  | left + 1, i =>
      let sent := Contact.mark node (r.attempts i).bundle
      match (r.attempts i).reply with
      | .unsent => markBootGood node r left (i + 1)
      | .accepted => ([sent], true)
      | .unlogged => ([sent], false)
      | .refused =>
          let (contacts, ok) := markBootGood node r left (i + 1)
          (sent :: contacts, ok)

/-- Everything up to the apply request. -/
def prepares (row : NodeRow) (r : Replies) : Bool :=
  r.recorded && (row.ip.filter (· ≠ [])).isSome && r.pertiskctl && r.apiReady && r.staged

def upgradeOsNode (version : Text) (reboot : Bool) (row : NodeRow) (r : Replies) :
    List Contact × Bool :=
  if !(prepares row r && r.upgraded) then ([], false)
  else if reboot && !waitGuestAfterOsReboot r then ([], false)
  else
    let (marks, marked) := markBootGood row.id r 8 1
    if !marked then (marks, false)
    else if r.status.isSome && !r.statusLogged then (marks, false)
    else
      let seen := r.status.bind parseUpgradeStatusVersion
      if !r.settled then (marks ++ [.seen row.id seen], false)
      else (marks ++ [.seen row.id seen, .wrote row.id (seen.getD version)], true)

/-- The nodes in turn, up to the first that fails. -/
def upgradeOsNodes (version : Text) (reboot : Bool) (replies : Nat → Replies) :
    List NodeRow → List Contact × Bool
  | [] => ([], true)
  | row :: rows =>
      match upgradeOsNode version reboot row (replies row.id) with
      | (contacts, false) => (contacts, false)
      | (contacts, true) =>
          let (more, ok) := upgradeOsNodes version reboot replies rows
          (contacts ++ more, ok)

structure Payload where
  bundleDir : Option Text
  reboot : Option Bool
  nodeIds : Option (List Nat)

/-- What the job finds besides its payload. -/
structure Surroundings where
  /-- The version of a bundle directory that is complete. -/
  validateBundleDir : Text → Option Text
  /-- The architecture, the trust key, the log, the cluster's row and its kubeconfig. -/
  ready : Bool
  nodes : Option (List NodeRow)
  /-- The API answers, if need be after a recovery of etcd. -/
  apiReady : Bool
  replies : Nat → Replies
  /-- The closing line is written to the log. -/
  closed : Bool

def targeted (payload : Payload) (nodes : List NodeRow) : List NodeRow :=
  match payload.nodeIds with
  | some ids => nodes.filter fun row => row.id ∈ ids
  | none => nodes

def byName (rows : List NodeRow) : List NodeRow :=
  rows.insertionSort fun left right => left.name ≤ right.name

/-- Workers first. -/
def ordered (nodes : List NodeRow) : List NodeRow :=
  byName (nodes.filter (·.role ≠ .controlplane)) ++ byName (nodes.filter (·.role = .controlplane))

def runUpgradeOs (payload : Payload) (world : Surroundings) : List Contact × Bool :=
  match payload.bundleDir.bind world.validateBundleDir, world.nodes with
  | some version, some nodes =>
      let targets := targeted payload nodes
      if !world.ready || payload.nodeIds.isSome && targets = [] || !world.apiReady then
        ([], false)
      else
        let (contacts, ok) :=
          upgradeOsNodes version (payload.reboot.getD true) world.replies (ordered targets)
        (contacts, ok && world.closed)
  | _, _ => ([], false)

/-! ## What the job is to confirm -/

/-- The versions that the last status answers of a node named. -/
def sightings (contacts : List Contact) (node : Nat) : List (Option Text) :=
  contacts.filterMap fun
    | .seen other version => if other = node then some version else none
    | _ => none

def lastSeen (contacts : List Contact) (node : Nat) : Option Text :=
  (sightings contacts node).getLast?.join

/-- A boot is marked good only of the image of the bundle, and if the job succeeds, each
node was last seen with the version of the bundle. -/
structure ConfirmsBundle (payload : Payload) (world : Surroundings) : Prop where
  marks : ∀ node bundle, .mark node bundle ∈ (runUpgradeOs payload world).1 → bundle = true
  seen : (runUpgradeOs payload world).2 = true → ∃ version nodes,
    payload.bundleDir.bind world.validateBundleDir = some version ∧
      world.nodes = some nodes ∧ ∀ row ∈ targeted payload nodes,
        lastSeen (runUpgradeOs payload world).1 row.id = some version

/-! ## When it does -/

def Attempt.sent (attempt : Attempt) : Bool := attempt.reply ≠ .unsent

/-- No attempt follows. -/
def Attempt.ends (attempt : Attempt) : Bool :=
  attempt.reply = .accepted || attempt.reply = .unlogged

/-- Whenever a request is sent, up to the first that is accepted, the node runs the image
of the bundle. -/
def runsBundle (r : Replies) (left i : Nat) : Prop :=
  ∀ k, i ≤ k → k < i + left → (∀ j, i ≤ j → j < k → (r.attempts j).ends = false) →
    (r.attempts k).sent = true → (r.attempts k).bundle = true

/-- The node has applied the bundle, and has come back. -/
def applies (reboot : Bool) (row : NodeRow) (r : Replies) : Bool :=
  prepares row r && r.upgraded && (!reboot || waitGuestAfterOsReboot r)

/-- The log can be written as long as the boot is being marked. -/
def marksLogged (r : Replies) (left i : Nat) : Bool :=
  match (List.range' i left).find? fun k => (r.attempts k).ends with
  | some k => (r.attempts k).reply = .accepted
  | none => r.warned

/-- Nothing fails on the node. -/
def completes (reboot : Bool) (row : NodeRow) (r : Replies) : Bool :=
  applies reboot row r && marksLogged r 8 1 && (r.status.isNone || r.statusLogged) && r.settled

def answer (r : Replies) : Option Text := r.status.bind parseUpgradeStatusVersion

/-- A property of the nodes up to the first on which something fails. -/
def eachReached (reboot : Bool) (replies : Nat → Replies) : List NodeRow → Prop
  | [] => True
  | row :: rows =>
      (applies reboot row (replies row.id) = true → runsBundle (replies row.id) 8 1) ∧
        (completes reboot row (replies row.id) = true → eachReached reboot replies rows)

/-- The job gets to the nodes. -/
def starts (payload : Payload) (world : Surroundings) (nodes : List NodeRow) : Bool :=
  world.ready && !(payload.nodeIds.isSome && targeted payload nodes = []) && world.apiReady

structure RunsBundle (payload : Payload) (world : Surroundings) (version : Text)
    (nodes : List NodeRow) : Prop where
  marked : eachReached (payload.reboot.getD true) world.replies
    (ordered (targeted payload nodes))
  answered : world.closed = true → (∀ row ∈ targeted payload nodes,
      completes (payload.reboot.getD true) row (world.replies row.id) = true) →
    ∀ row ∈ targeted payload nodes, answer (world.replies row.id) = some version

/-! ## The proof -/

section Marks

variable {node : Nat} {r : Replies}

/-- Induction on the attempts that are left. -/
theorem markBootGood_marks (left i : Nat) :
    (∀ other bundle, .mark other bundle ∈ (markBootGood node r left i).1 → bundle = true) ↔
      runsBundle r left i := by
  induction left generalizing i with
  | zero =>
      simp only [markBootGood, List.not_mem_nil, false_imp_iff, implies_true, true_iff]
      intro k hfrom hto
      omega
  | succ left ih =>
      have hfirst : runsBundle r (left + 1) i ↔
          ((r.attempts i).sent = true → (r.attempts i).bundle = true) ∧
            ((r.attempts i).ends = false → runsBundle r left (i + 1)) := by
        constructor
        · intro hruns
          refine ⟨hruns i le_rfl (by omega) (fun j _ _ => by omega), fun hends => ?_⟩
          intro k hfrom hto hearlier
          refine hruns k (by omega) (by omega) fun j hj hjk => ?_
          by_cases hsame : j = i
          · exact hsame ▸ hends
          · exact hearlier j (by omega) hjk
        · rintro ⟨hone, hrest⟩ k hfrom hto hearlier
          by_cases hsame : k = i
          · exact hsame ▸ hone
          · exact hrest (hearlier i le_rfl (by omega)) k (by omega) (by omega)
              fun j hj hjk => hearlier j (by omega) hjk
      rw [hfirst]
      unfold markBootGood
      cases hreply : (r.attempts i).reply with
      | unsent =>
          simp only [Attempt.sent, Attempt.ends, hreply]
          simpa using ih (i + 1)
      | accepted => simp [Attempt.sent, Attempt.ends, hreply]
      | unlogged => simp [Attempt.sent, Attempt.ends, hreply]
      | refused =>
          simp only [Attempt.sent, Attempt.ends, hreply, List.mem_cons, Contact.mark.injEq]
          rw [← ih (i + 1)]
          constructor
          · intro hall
            exact ⟨fun _ => hall node _ (.inl ⟨rfl, rfl⟩),
              fun _ other bundle hmem => hall other bundle (.inr hmem)⟩
          · rintro ⟨hone, hrest⟩ other bundle (⟨-, rfl⟩ | hmem)
            · exact hone (by simp)
            · exact hrest (by simp) other bundle hmem

theorem markBootGood_logged (left i : Nat) :
    (markBootGood node r left i).2 = marksLogged r left i := by
  induction left generalizing i with
  | zero => simp [markBootGood, marksLogged]
  | succ left ih =>
      unfold markBootGood marksLogged
      rw [List.range'_succ, List.find?_cons]
      cases hreply : (r.attempts i).reply with
      | accepted => simp [Attempt.ends, hreply]
      | unlogged => simp [Attempt.ends, hreply]
      | unsent =>
          simp only [Attempt.ends, hreply]
          simpa [marksLogged, Attempt.ends] using ih (i + 1)
      | refused =>
          simp only [Attempt.ends, hreply]
          simpa [marksLogged, Attempt.ends] using ih (i + 1)

/-- Nothing is asked for while the boot is being marked. -/
theorem sightings_markBootGood (left i other : Nat) :
    sightings (markBootGood node r left i).1 other = [] := by
  induction left generalizing i with
  | zero => rfl
  | succ left ih =>
      unfold markBootGood
      cases (r.attempts i).reply with
      | unsent => exact ih (i + 1)
      | accepted => rfl
      | unlogged => rfl
      | refused => exact ih (i + 1)

end Marks

section Node

variable {version : Text} {reboot : Bool} {row : NodeRow} {r : Replies}

/-- Nothing is sent to a node that has not applied the bundle. -/
theorem upgradeOsNode_of_not_applies (happlies : applies reboot row r = false) :
    upgradeOsNode version reboot row r = ([], false) := by
  unfold upgradeOsNode
  by_cases hupgraded : (prepares row r && r.upgraded) = true
  · have hwait : (reboot && !waitGuestAfterOsReboot r) = true := by
      simpa [applies, hupgraded] using happlies
    simp [hupgraded, hwait]
  · simp [hupgraded]

theorem upgradeOsNode_of_applies (happlies : applies reboot row r = true) :
    upgradeOsNode version reboot row r =
      if !marksLogged r 8 1 || (r.status.isSome && !r.statusLogged) then
        ((markBootGood row.id r 8 1).1, false)
      else if !r.settled then
        ((markBootGood row.id r 8 1).1 ++ [.seen row.id (answer r)], false)
      else
        ((markBootGood row.id r 8 1).1 ++
          [.seen row.id (answer r), .wrote row.id ((answer r).getD version)], true) := by
  obtain ⟨hupgraded, hback⟩ : (prepares row r && r.upgraded) = true ∧
      (!reboot || waitGuestAfterOsReboot r) = true := by
    simpa only [applies, Bool.and_eq_true] using happlies
  have hwait : (reboot && !waitGuestAfterOsReboot r) = false := by
    rw [← Bool.not_eq_true', Bool.not_and, Bool.not_not]
    exact hback
  simp only [upgradeOsNode, hupgraded, hwait, Bool.not_true, Bool.false_eq_true, if_false,
    markBootGood_logged, answer]
  cases marksLogged r 8 1 <;> simp

theorem upgradeOsNode_ok (version : Text) :
    (upgradeOsNode version reboot row r).2 = completes reboot row r := by
  cases happlies : applies reboot row r with
  | false => simp [upgradeOsNode_of_not_applies happlies, completes, happlies]
  | true =>
      rw [upgradeOsNode_of_applies happlies]
      cases hlogged : marksLogged r 8 1 <;> cases hsettled : r.settled <;>
        cases hstatus : r.status <;> cases hasked : r.statusLogged <;>
          simp [completes, happlies, hlogged, hsettled, hstatus, hasked]

/-- The requests to mark the boot good are those of the attempts. -/
theorem mem_upgradeOsNode_mark (happlies : applies reboot row r = true) (node : Nat)
    (bundle : Bool) :
    .mark node bundle ∈ (upgradeOsNode version reboot row r).1 ↔
      .mark node bundle ∈ (markBootGood row.id r 8 1).1 := by
  rw [upgradeOsNode_of_applies happlies]
  split
  · rfl
  split
  · simp
  · simp

theorem upgradeOsNode_marks (version : Text) :
    (∀ node bundle, .mark node bundle ∈ (upgradeOsNode version reboot row r).1 →
        bundle = true) ↔
      (applies reboot row r = true → runsBundle r 8 1) := by
  cases happlies : applies reboot row r with
  | false => simp [upgradeOsNode_of_not_applies happlies]
  | true =>
      simp only [mem_upgradeOsNode_mark happlies, true_imp_iff]
      exact markBootGood_marks 8 1

theorem sightings_append (first second : List Contact) (node : Nat) :
    sightings (first ++ second) node = sightings first node ++ sightings second node :=
  List.filterMap_append

/-- A node on which nothing fails answers once. -/
theorem sightings_upgradeOsNode (hcompletes : completes reboot row r = true) (node : Nat) :
    sightings (upgradeOsNode version reboot row r).1 node =
      if row.id = node then [answer r] else [] := by
  obtain ⟨⟨⟨happlies, hlogged⟩, hstatus⟩, hsettled⟩ :
      ((applies reboot row r = true ∧ marksLogged r 8 1 = true) ∧
        (r.status.isNone || r.statusLogged) = true) ∧ r.settled = true := by
    simpa only [completes, Bool.and_eq_true] using hcompletes
  have hasked : (r.status.isSome && !r.statusLogged) = false := by
    cases hcase : r.status <;> simp_all
  rw [upgradeOsNode_of_applies happlies]
  simp only [hlogged, hasked, hsettled, Bool.not_true, Bool.or_false, Bool.false_eq_true,
    if_false, sightings_append, sightings_markBootGood, List.nil_append]
  by_cases hsame : row.id = node <;> simp [sightings, hsame]

end Node

section Nodes

variable {version : Text} {reboot : Bool} {replies : Nat → Replies}

theorem upgradeOsNodes_cons (row : NodeRow) (rows : List NodeRow) :
    upgradeOsNodes version reboot replies (row :: rows) =
      if completes reboot row (replies row.id) then
        ((upgradeOsNode version reboot row (replies row.id)).1 ++
          (upgradeOsNodes version reboot replies rows).1,
          (upgradeOsNodes version reboot replies rows).2)
      else ((upgradeOsNode version reboot row (replies row.id)).1, false) := by
  rw [upgradeOsNodes]
  have hok : (upgradeOsNode version reboot row (replies row.id)).2 =
      completes reboot row (replies row.id) := upgradeOsNode_ok version
  rcases hresult : upgradeOsNode version reboot row (replies row.id) with ⟨contacts, ok⟩
  rw [hresult] at hok
  subst hok
  cases completes reboot row (replies row.id) <;> rfl

theorem upgradeOsNodes_ok (rows : List NodeRow) :
    (upgradeOsNodes version reboot replies rows).2 =
      rows.all fun row => completes reboot row (replies row.id) := by
  induction rows with
  | nil => rfl
  | cons row rows ih =>
      rw [upgradeOsNodes_cons, List.all_cons]
      cases completes reboot row (replies row.id) with
      | false => rfl
      | true => simpa using ih

/-- Induction on the nodes that are left. -/
theorem upgradeOsNodes_marks (version : Text) (rows : List NodeRow) :
    (∀ node bundle, .mark node bundle ∈ (upgradeOsNodes version reboot replies rows).1 →
        bundle = true) ↔
      eachReached reboot replies rows := by
  induction rows with
  | nil => simp [upgradeOsNodes, eachReached]
  | cons row rows ih =>
      rw [upgradeOsNodes_cons, eachReached, ← ih, ← upgradeOsNode_marks version]
      cases completes reboot row (replies row.id) with
      | false => simp
      | true =>
          simp only [if_true, List.mem_append, true_imp_iff]
          constructor
          · intro hall
            exact ⟨fun node bundle hmem => hall node bundle (.inl hmem),
              fun node bundle hmem => hall node bundle (.inr hmem)⟩
          · rintro ⟨hfirst, hrest⟩ node bundle (hmem | hmem)
            · exact hfirst node bundle hmem
            · exact hrest node bundle hmem

theorem sightings_upgradeOsNodes {rows : List NodeRow}
    (hall : ∀ row ∈ rows, completes reboot row (replies row.id) = true) (node : Nat) :
    sightings (upgradeOsNodes version reboot replies rows).1 node =
      (rows.filter (·.id = node)).map fun row => answer (replies row.id) := by
  induction rows with
  | nil => rfl
  | cons row rows ih =>
      have hcompletes := hall row List.mem_cons_self
      have hrest := ih fun other hmem => hall other (List.mem_cons_of_mem row hmem)
      rw [upgradeOsNodes_cons, if_pos hcompletes, sightings_append, hrest,
        sightings_upgradeOsNode hcompletes]
      by_cases hsame : row.id = node <;> simp [hsame]

/-- If nothing fails, what was last seen of a node is its answer. -/
theorem lastSeen_upgradeOsNodes {rows : List NodeRow}
    (hall : ∀ row ∈ rows, completes reboot row (replies row.id) = true) {row : NodeRow}
    (hrow : row ∈ rows) :
    lastSeen (upgradeOsNodes version reboot replies rows).1 row.id =
      answer (replies row.id) := by
  rw [lastSeen, sightings_upgradeOsNodes hall]
  have hsame : (rows.filter (·.id = row.id)).map (fun other => answer (replies other.id)) =
      (rows.filter (·.id = row.id)).map fun _ => answer (replies row.id) := by
    refine List.map_congr_left fun other hother => ?_
    have hid : other.id = row.id := by simpa using (List.mem_filter.mp hother).2
    rw [hid]
  have hsome : rows.filter (·.id = row.id) ≠ [] :=
    List.ne_nil_of_mem (List.mem_filter.mpr ⟨hrow, by simp⟩)
  rw [hsame, List.map_const', List.getLast?_replicate]
  simp [hsome]

end Nodes

/-- The order of the nodes leaves none out. -/
theorem mem_ordered {nodes : List NodeRow} {row : NodeRow} :
    row ∈ ordered nodes ↔ row ∈ nodes := by
  simp only [ordered, byName, List.mem_append, List.mem_insertionSort, List.mem_filter]
  by_cases hrole : row.role = .controlplane <;> simp [hrole]

section Job

variable {payload : Payload} {world : Surroundings} {version : Text} {nodes : List NodeRow}

theorem runUpgradeOs_of_starts
    (hversion : payload.bundleDir.bind world.validateBundleDir = some version)
    (hnodes : world.nodes = some nodes) (hstarts : starts payload world nodes = true) :
    runUpgradeOs payload world =
      ((upgradeOsNodes version (payload.reboot.getD true) world.replies
          (ordered (targeted payload nodes))).1,
        (upgradeOsNodes version (payload.reboot.getD true) world.replies
          (ordered (targeted payload nodes))).2 && world.closed) := by
  simp only [starts, Bool.and_eq_true, Bool.not_eq_true'] at hstarts
  obtain ⟨⟨hready, hsome⟩, hapi⟩ := hstarts
  simp only [runUpgradeOs, hversion, hnodes, hready, hsome, hapi, Bool.not_true,
    Bool.or_false, Bool.false_eq_true, if_false]

theorem runUpgradeOs_of_not_starts
    (hnot : ∀ version nodes,
      payload.bundleDir.bind world.validateBundleDir = some version →
        world.nodes = some nodes → starts payload world nodes = false) :
    runUpgradeOs payload world = ([], false) := by
  unfold runUpgradeOs
  split
  next version nodes hversion hnodes =>
    have hstarts := hnot version nodes hversion hnodes
    by_cases hready : world.ready = true <;> by_cases hapi : world.apiReady = true <;>
      simp_all [starts]
  next => rfl

/-- The job confirms only the image of the bundle if and only if each node that it reaches
runs that image whenever a request to mark its boot good is sent to it, and, where nothing
fails, each node's last answer names the version of the bundle.  The job itself checks
neither. -/
theorem confirmsBundle_iff :
    ConfirmsBundle payload world ↔
      ∀ version nodes, payload.bundleDir.bind world.validateBundleDir = some version →
        world.nodes = some nodes → starts payload world nodes = true →
          RunsBundle payload world version nodes := by
  constructor
  · intro hconfirms version nodes hversion hnodes hstarts
    have hrun := runUpgradeOs_of_starts hversion hnodes hstarts
    refine ⟨?_, ?_⟩
    · rw [← upgradeOsNodes_marks version]
      have hmarks := hconfirms.marks
      rw [hrun] at hmarks
      exact hmarks
    · intro hclosed hall row hrow
      have hall' : ∀ row ∈ ordered (targeted payload nodes),
          completes (payload.reboot.getD true) row (world.replies row.id) = true :=
        fun row hrow => hall row (mem_ordered.mp hrow)
      have hok : (runUpgradeOs payload world).2 = true := by
        rw [hrun, hclosed, Bool.and_true, upgradeOsNodes_ok, List.all_eq_true]
        exact hall'
      obtain ⟨version', nodes', hversion', hnodes', hseen⟩ := hconfirms.seen hok
      obtain rfl : version = version' := by simpa [hversion] using hversion'
      obtain rfl : nodes = nodes' := by simpa [hnodes] using hnodes'
      have hlast := hseen row hrow
      rw [hrun, lastSeen_upgradeOsNodes hall' (mem_ordered.mpr hrow)] at hlast
      exact hlast
  · intro hruns
    by_cases hstarted : ∃ version nodes,
        payload.bundleDir.bind world.validateBundleDir = some version ∧
          world.nodes = some nodes ∧ starts payload world nodes = true
    · obtain ⟨version, nodes, hversion, hnodes, hstarts⟩ := hstarted
      have hrun := runUpgradeOs_of_starts hversion hnodes hstarts
      obtain ⟨hmarked, hanswered⟩ := hruns version nodes hversion hnodes hstarts
      refine ⟨?_, ?_⟩
      · rw [hrun]
        exact (upgradeOsNodes_marks version _).mpr hmarked
      · rw [hrun, Bool.and_eq_true, upgradeOsNodes_ok, List.all_eq_true]
        rintro ⟨hall, hclosed⟩
        refine ⟨version, nodes, hversion, hnodes, fun row hrow => ?_⟩
        rw [lastSeen_upgradeOsNodes hall (mem_ordered.mpr hrow)]
        exact hanswered hclosed (fun row hrow => hall row (mem_ordered.mpr hrow)) row hrow
    · have hidle : runUpgradeOs payload world = ([], false) := by
        refine runUpgradeOs_of_not_starts fun version nodes hversion hnodes => ?_
        rw [← Bool.not_eq_true]
        exact fun hstarts => hstarted ⟨version, nodes, hversion, hnodes, hstarts⟩
      refine ⟨?_, ?_⟩ <;> simp [hidle]

end Job

/-- Nothing fails, and the node runs the image that it had all the time. -/
def keptImage : Replies where
  recorded := true
  pertiskctl := true
  apiReady := true
  staged := true
  upgraded := true
  openBefore := fun _ => true
  openAfter := fun _ => true
  attempts := fun _ => { bundle := false, reply := .accepted }
  warned := true
  status := some ("active=A next=B previous_good=A boot_ok=true attempts=0 " ++
    "version=0.2.86 pending=0.2.87").toList
  statusLogged := true
  settled := true

/-- Without a reboot, the image that was there before is marked good. -/
theorem old_image_marked : ¬ ∀ payload world, ConfirmsBundle payload world := by
  intro hclaim
  let row : NodeRow :=
    { id := 1, name := "lab-cp-1".toList, role := .controlplane, ip := some "10.0.0.5".toList }
  let world : Surroundings :=
    { validateBundleDir := fun _ => some "0.2.87".toList
      ready := true
      nodes := some [row]
      apiReady := true
      replies := fun _ => keptImage
      closed := true }
  have hconfirms := hclaim
    { bundleDir := some "/bundles/1".toList, reboot := some false, nodeIds := none } world
  exact absurd (hconfirms.marks 1 false (by decide +kernel)) (by decide)

end PertiskKos.OsUpgrade
