import PertiskKos.Etcd.Membership

/-!
# Joining a control plane and the etcd log

`join_control_plane` erases the node's etcd data directory in two places: when it
finishes a first join, and, before it has asked anyone, when a node that already
joined does not answer on the etcd port.  Both assume that the node is not yet a
voting member, and neither looks.
-/

namespace PertiskKos.Etcd

open Strings Fallible

structure JoinCluster where
  endpoint : Text
  ca : Option Text
  caKey : Option Text
  saKey : Option Text
  deriving DecidableEq, Repr

/-- The machine configuration and the arguments of the call. -/
structure JoinRequest where
  isControlplane : Bool
  hostname : Option Text
  cluster : Option JoinCluster
  advertiseAddress : Option Text
  etcdEndpoints : List Text
  deriving DecidableEq, Repr

/-- What the call finds on the node. -/
structure JoinNode where
  bootstrapped : Bool
  detectedIp : Option Text
  localEtcdListening : Bool
  /-- The etcd certificates on STATE are there and not empty. -/
  etcdPkiReadable : Bool
  pkiLiveExists : Bool
  /-- How often the promotion is tried before its deadline. -/
  promoteRounds : Nat
  finalizeError : Text
  deriving DecidableEq, Repr

inductive JoinError where
  | message (text : Text)
  | io (step : JoinStep)
  deriving DecidableEq, Repr

structure JoinResult where
  alreadyJoined : Bool
  message : Text
  deriving DecidableEq, Repr

abbrev JoinProg (A : Type) := Prog JoinSite JoinError JoinStore A

def endpointHost (endpoint : Text) : Text :=
  let rest := trimStartMatches "http://".toList
    (trimStartMatches https (trim endpoint))
  (((rest.splitOn '/').headD endpoint).splitOn ':').headD endpoint

def required (text : Option Text) (field : String) : Except JoinError Text :=
  match text.filter fun text => trim text ≠ [] with
  | some text => .ok text
  | none => .error (.message
      ("cluster.".toList ++ field.toList ++ " required for control-plane join".toList))

/-- The checks of the configuration, before anything is done. -/
def checkRequest (request : JoinRequest) : Except JoinError JoinCluster :=
  if !request.isControlplane then
    .error (.message "join-controlplane requires machine.type: controlplane".toList)
  else
    match request.cluster with
    | none => .error (.message "cluster block required for join-controlplane".toList)
    | some cluster => do
        let _ ← required cluster.ca "ca"
        let _ ← required cluster.caKey "caKey"
        let _ ← required cluster.saKey "saKey"
        if request.etcdEndpoints = [] then
          .error (.message
            "etcd_endpoints required (existing member https://<ip>:2379)".toList)
        else .ok cluster

def advertiseOf (request : JoinRequest) (node : JoinNode) : Option Text :=
  (request.advertiseAddress.filter (· ≠ [])).or node.detectedIp

def localStep (step : JoinStep) : JoinProg Unit := guardSite (.step step) (.io step)

def localSteps (steps : List JoinStep) : JoinProg Unit := steps.forM localStep

/-- Erase the data directory; the errors of the removal are dropped. -/
def wipeEtcdDatadir : JoinProg Unit :=
  change fun store => { store with wipes := store.wipes ++ [store.members] }

def waitLocalEtcd : JoinProg Unit :=
  guardSite .waitLocalEtcd (.message
    ("local etcd :2379 not up within 480s after join (static pod / registry.k8s.io " ++
      "pull). Not returning success: etcd allows only one learner").toList)

/-- Wait for the API server and label the node; a failure is only reported. -/
def finalizeJoin (node : JoinNode) (already : Bool) (done : Text) :
    JoinProg JoinResult := do
  let finalized ← outcome (guardSite .finalize node.finalizeError)
  match finalized with
  | .ok () => pure ⟨already, done⟩
  | .error err =>
      pure ⟨already, done ++ " (finalize pending: ".toList ++ err ++ ")".toList⟩

section Join

variable (server : EtcdServer) (node : JoinNode)

/-- The node lost its etcd: erase what is there and join the member list again. -/
def readdEtcd (name url : Text) : JoinProg Unit := do
  wipeEtcdDatadir
  whenever node.etcdPkiReadable do
    ignore (etcdMemberAdd server name url)
    ignore (localStep .restore)
    ignore waitLocalEtcd
    ignore (etcdPromoteLearnerRetry server url node.promoteRounds)

/-- The branch of a node that is already bootstrapped. -/
def rejoin (name advertise vip : Text) : JoinProg JoinResult := do
  ignore (localStep .restore)
  whenever (vip ≠ [] && advertise ≠ [] && advertise = vip)
    (stop (.message ("already-joined node advertise ".toList ++ advertise ++
      (" equals cluster.endpoint VIP — DHCP assigned the kube-vip to this guest. " ++
        "Delete the cluster and recreate with a VIP outside the DHCP pool").toList)))
  whenever (advertise ≠ [] && !node.localEtcdListening)
    (readdEtcd server node name (peerUrl advertise))
  finalizeJoin node true "already bootstrapped / joined".toList

/-- The files that are written once the node is in the member list. -/
def joinFiles : List JoinStep :=
  [.adminKubeconfig, .adminLocalKubeconfig, .controllerManagerConf, .schedulerConf,
    .kubeletConf, .liveDir, .liveAdminConf, .liveControllerManagerConf,
    .liveSchedulerConf, .liveKubeletConf, .kubeletCredentials, .staticPods, .kubeVip,
    .linkLive] ++ if node.pkiLiveExists then [] else [.copyPki]

/-- A first join, up to the point where the data directory is erased. -/
def prepareJoin (name : Text) (vip : Text) (advertise : Option Text) :
    JoinProg (Text × Text) := do
  localStep .ensureDirs
  match advertise with
  | none => stop (.message "could not determine advertise address".toList)
  | some advertise => do
      whenever (vip ≠ [] && advertise = vip)
        (stop (.message ("advertise address ".toList ++ advertise ++
          (" equals cluster.endpoint host (VIP) — this guest was given the kube-vip IP " ++
            "by DHCP. Pick a VIP outside the DHCP pool, delete the cluster, and " ++
            "recreate (do not reuse this node)").toList)))
      localSteps [.generatePki, .writePki]
      let initial ← mapErr JoinError.message
        (etcdMemberAdd server name (peerUrl advertise))
      localSteps (joinFiles node)
      pure (advertise, initial)

/-- The rest of a first join. -/
def completeJoin (advertise initial : Text) : JoinProg JoinResult := do
  localSteps [.advertise, .marker]
  waitLocalEtcd
  mapErr (fun _ => .message
      ("etcd learner not promoted — another control-plane cannot join until this " ++
        "member votes").toList)
    (etcdPromoteLearnerRetry server (peerUrl advertise) node.promoteRounds)
  finalizeJoin node false ("control-plane joined advertise=".toList ++ advertise ++
    " etcd_initial_cluster=".toList ++ initial)

def firstJoin (name vip : Text) (advertise : Option Text) : JoinProg JoinResult := do
  let (advertise, initial) ← prepareJoin server node name vip advertise
  wipeEtcdDatadir
  completeJoin server node advertise initial

def joinControlPlane (request : JoinRequest) : JoinProg JoinResult := do
  let cluster ← ofExcept id (checkRequest request)
  let name := request.hostname.getD "pertisk-cp".toList
  let vip := endpointHost cluster.endpoint
  let advertise := advertiseOf request node
  if node.bootstrapped then rejoin server node name (advertise.getD []) vip
  else firstJoin server node name vip advertise

end Join

/-- The steps on the node's own files that a first join takes before it erases. -/
def preparation (node : JoinNode) : List JoinStep :=
  [.ensureDirs, .generatePki, .writePki] ++ joinFiles node

/-- The call comes to the erasure, given that the node is in the member list. -/
def ReachesWipe (faults : Faults JoinSite) (node : JoinNode) (request : JoinRequest) :
    Prop :=
  ∃ cluster advertise, checkRequest request = .ok cluster ∧
    advertiseOf request node = some advertise ∧
    (endpointHost cluster.endpoint = [] ∨ advertise ≠ endpointHost cluster.endpoint) ∧
    if node.bootstrapped then advertise ≠ [] ∧ node.localEtcdListening = false
    else (∀ step ∈ preparation node, faults (.step step) = none) ∧
      ∃ attempt ∈ attempts, Answered faults attempt

/-- The URL under which the cluster reaches this node. -/
def nodePeerUrl (node : JoinNode) (request : JoinRequest) : Text :=
  peerUrl ((advertiseOf request node).getD [])

/-- The data directory was only erased while the node had no vote. -/
def SparesVoter (url : Text) (store : JoinStore) : Prop :=
  ∀ members ∈ store.wipes, ¬ IsVoter members url

theorem sparesVoter_of_nil {url : Text} {store : JoinStore} (hwipes : store.wipes = []) :
    SparesVoter url store := by
  simp [SparesVoter, hwipes]

/-- The data directory was erased once if `ready` holds, and not at all otherwise. -/
def ErasedIf (ready : Prop) (members : List Member) (store : JoinStore) : Prop :=
  ready ∧ store.wipes = [members] ∨ ¬ ready ∧ store.wipes = []

section Steps

variable {server : EtcdServer} {node : JoinNode} {faults : Faults JoinSite}
variable {inv : JoinStore → Prop}

theorem localStep_spec (step : JoinStep) :
    Triple faults inv (localStep step)
      (fun _ store => inv store ∧ faults (.step step) = none)
      fun _ store => inv store ∧ faults (.step step) ≠ none :=
  Triple.guardSite (fun hquiet _ h => ⟨h, hquiet⟩) fun hfault _ h => ⟨h, hfault⟩

/-- The steps on the node's own files go through exactly when each of them does. -/
theorem localSteps_spec (steps : List JoinStep) :
    Triple faults inv (localSteps steps)
      (fun _ store => inv store ∧ ∀ step ∈ steps, faults (.step step) = none)
      fun _ store => inv store ∧ ¬ ∀ step ∈ steps, faults (.step step) = none := by
  induction steps generalizing inv with
  | nil => exact Triple.pure fun _ h => ⟨h, by simp⟩
  | cons step steps ih =>
      apply Triple.bind fun _ store => inv store ∧ faults (.step step) = none
      · apply (localStep_spec step).weaken (fun _ h => h) (fun _ _ h => h)
        exact fun _ store h => ⟨h.1, fun hall => h.2 (hall step List.mem_cons_self)⟩
      · intro _
        apply ih.weaken (fun _ h => h)
        · rintro _ store ⟨⟨hinv, hquiet⟩, hrest⟩
          exact ⟨hinv, List.forall_mem_cons.mpr ⟨hquiet, hrest⟩⟩
        · rintro _ store ⟨⟨hinv, -⟩, hfault⟩
          exact ⟨hinv, fun hall => hfault (List.forall_mem_cons.mp hall).2⟩

theorem Keeps.localSteps (steps : List JoinStep) :
    Keeps faults inv (localSteps steps) :=
  (localSteps_spec steps).weaken (fun _ h => h) (fun _ _ h => h.1) fun _ _ h => h.1

theorem Keeps.finalizeJoin (already : Bool) (done : Text) :
    Keeps faults inv (finalizeJoin node already done) := by
  apply Keeps.bind
  · exact Triple.outcome (Keeps.guardSite _ _)
  · intro finalized
    cases finalized with
    | ok _ => exact Keeps.pure _
    | error err => exact Keeps.pure _

end Steps

section Rejoin

variable {server : EtcdServer} (node : JoinNode) (faults : Faults JoinSite)
variable (members : List Member)

/-- A node that lost its etcd erases its data directory before it asks anyone. -/
theorem readdEtcd_wipes (hlawful : LawfulServer server) (name url : Text) :
    Triple faults (· = ⟨members, []⟩) (readdEtcd server node name url)
      (fun _ store => store.wipes = [members]) fun _ store => store.wipes = [members] := by
  apply Triple.bind fun _ store => store.wipes = [members]
  · apply Triple.change
    rintro store rfl
    rfl
  intro _
  apply Keeps.whenever
  apply Keeps.bind
  · exact Triple.ignore
      ((addInvariant_wipes url [members] hlawful).etcdMemberAdd faults name)
  intro _
  apply Keeps.bind
  · exact Triple.ignore (Keeps.guardSite _ _)
  intro _
  apply Keeps.bind
  · exact Triple.ignore (Keeps.guardSite _ _)
  intro _
  exact Triple.ignore (promoteRounds_wipes url [members] faults _ _)

/-- A bootstrapped node has an address that is not the VIP, and nothing answers on its
etcd port. -/
def RejoinReady (advertise vip : Text) : Prop :=
  (vip = [] ∨ advertise ≠ vip) ∧ advertise ≠ [] ∧ node.localEtcdListening = false

theorem rejoin_wipes (hlawful : LawfulServer server) (name advertise vip : Text) :
    Triple faults (· = ⟨members, []⟩) (rejoin server node name advertise vip)
      (fun _ => ErasedIf (RejoinReady node advertise vip) members)
      fun _ => ErasedIf (RejoinReady node advertise vip) members := by
  apply Triple.bind fun _ store => store = ⟨members, []⟩
  · exact Triple.ignore (Keeps.guardSite _ _)
  intro _
  apply Triple.bind fun _ store =>
    store = ⟨members, []⟩ ∧ ¬ (vip ≠ [] ∧ advertise ≠ [] ∧ advertise = vip)
  · cases hvip : (vip ≠ [] && advertise ≠ [] && advertise = vip : Bool) with
    | true =>
        apply Triple.stop
        rintro store rfl
        refine .inr ⟨fun hready => ?_, rfl⟩
        have hfree := hready.1
        simp at hvip
        tauto
    | false =>
        apply Triple.pure
        rintro store rfl
        refine ⟨rfl, fun hvip' => ?_⟩
        simp [hvip'.1, hvip'.2.2] at hvip
  intro _
  apply Triple.bind fun _ => ErasedIf (RejoinReady node advertise vip) members
  · cases hreadd : (advertise ≠ [] && !node.localEtcdListening : Bool) with
    | true =>
        rintro store ⟨hstore, hvip⟩
        have hready : RejoinReady node advertise vip := by
          simp at hreadd
          exact ⟨by tauto, hreadd⟩
        apply (readdEtcd_wipes node faults members hlawful name _).weaken
          (fun _ h => h) _ _ store hstore
        · exact fun _ _ hwipes => .inl ⟨hready, hwipes⟩
        · exact fun _ _ hwipes => .inl ⟨hready, hwipes⟩
    | false =>
        apply Triple.pure
        rintro store ⟨rfl, _⟩
        refine .inr ⟨fun hready => ?_, rfl⟩
        simp [hready.2.1, hready.2.2] at hreadd
  · exact fun _ => Keeps.finalizeJoin _ _

end Rejoin

section FirstJoin

variable {server : EtcdServer} (node : JoinNode) (faults : Faults JoinSite)

/-- A first join of a node that the cluster knows already: what has to go right before
it erases its data directory. -/
def FirstJoinReady (advertise vip : Text) : Prop :=
  (vip = [] ∨ advertise ≠ vip) ∧
    (∀ step ∈ preparation node, faults (.step step) = none) ∧
    ∃ attempt ∈ attempts, Answered faults attempt

theorem etcdMemberAdd_spec_present (hlawful : LawfulServer server) {store : JoinStore}
    {url : Text} (hmember : IsMember store.members url) (name : Text) :
    Triple faults (· = store) (etcdMemberAdd server name url)
      (fun _ after => after = store ∧ ∃ attempt ∈ attempts, Answered faults attempt)
      fun _ after => after = store ∧
        ¬ ∃ attempt ∈ attempts, Answered faults attempt := by
  rintro _ rfl
  have hrun := @etcdMemberAdd_present server faults _ url hlawful hmember name
  by_cases hanswered : ∃ attempt ∈ attempts, Answered faults attempt
  · rw [if_pos hanswered] at hrun
    obtain ⟨initial, hok⟩ := hrun
    rw [hok]
    exact ⟨rfl, hanswered⟩
  · rw [if_neg hanswered] at hrun
    obtain ⟨err, herror⟩ := hrun
    rw [herror]
    exact ⟨rfl, hanswered⟩

theorem prepareJoin_present (hlawful : LawfulServer server) {store : JoinStore}
    {advertise : Text} (hmember : IsMember store.members (peerUrl advertise))
    (name vip : Text) :
    Triple faults (· = store) (prepareJoin server node name vip (some advertise))
      (fun result after => after = store ∧ result.1 = advertise ∧
        FirstJoinReady node faults advertise vip)
      fun _ after => after = store ∧ ¬ FirstJoinReady node faults advertise vip := by
  let quiet : List JoinStep → Prop := fun steps =>
    ∀ step ∈ steps, faults (.step step) = none
  have hquiet : quiet (preparation node) ↔
      faults (.step .ensureDirs) = none ∧ quiet [.generatePki, .writePki] ∧
        quiet (joinFiles node) := by
    simp only [quiet, preparation, List.mem_append, List.mem_cons, List.not_mem_nil,
      or_false, or_imp, forall_and, forall_eq]
    tauto
  apply Triple.bind fun _ after =>
    after = store ∧ faults (.step .ensureDirs) = none
  · apply (localStep_spec .ensureDirs).weaken (fun _ h => h) (fun _ _ h => h)
    exact fun _ _ h => ⟨h.1, fun hready => h.2 (hquiet.mp hready.2.1).1⟩
  intro _
  apply Triple.bind fun _ after =>
    (after = store ∧ faults (.step .ensureDirs) = none) ∧ (vip = [] ∨ advertise ≠ vip)
  · cases hvip : (vip ≠ [] && advertise = vip : Bool) with
    | true =>
        apply Triple.stop
        rintro after ⟨hafter, -⟩
        refine ⟨hafter, fun hready => ?_⟩
        have hfree := hready.1
        simp at hvip
        tauto
    | false =>
        apply Triple.pure
        intro after hafter
        refine ⟨hafter, ?_⟩
        simp at hvip
        tauto
  intro _
  apply Triple.bind fun _ after =>
    ((after = store ∧ faults (.step .ensureDirs) = none) ∧
      (vip = [] ∨ advertise ≠ vip)) ∧ quiet [.generatePki, .writePki]
  · apply (localSteps_spec [.generatePki, .writePki]).weaken (fun _ h => h)
      (fun _ _ h => h)
    exact fun _ _ h => ⟨h.1.1.1, fun hready => h.2 (hquiet.mp hready.2.1).2.1⟩
  intro _
  apply Triple.bind fun _ after =>
    after = store ∧ (faults (.step .ensureDirs) = none ∧
      (vip = [] ∨ advertise ≠ vip) ∧ quiet [.generatePki, .writePki]) ∧
      ∃ attempt ∈ attempts, Answered faults attempt
  · apply Triple.mapErr
    rintro _ ⟨⟨⟨rfl, hdirs⟩, hvip⟩, hpki⟩
    have hadd := etcdMemberAdd_spec_present faults hlawful hmember name
    apply hadd.weaken (fun _ h => h) _ _ _ rfl
    · exact fun _ _ h => ⟨h.1, ⟨hdirs, hvip, hpki⟩, h.2⟩
    · exact fun _ _ h => ⟨h.1, fun hready => h.2 hready.2.2⟩
  intro initial
  apply Triple.bind fun _ after =>
    (after = store ∧ (faults (.step .ensureDirs) = none ∧
      (vip = [] ∨ advertise ≠ vip) ∧ quiet [.generatePki, .writePki]) ∧
      ∃ attempt ∈ attempts, Answered faults attempt) ∧ quiet (joinFiles node)
  · apply (localSteps_spec (joinFiles node)).weaken (fun _ h => h) (fun _ _ h => h)
    exact fun _ _ h => ⟨h.1.1, fun hready => h.2 (hquiet.mp hready.2.1).2.2⟩
  · intro _
    apply Triple.pure
    rintro after ⟨⟨hafter, ⟨hdirs, hvip, hpki⟩, hanswered⟩, hfiles⟩
    exact ⟨hafter, rfl, hvip, hquiet.mpr ⟨hdirs, hpki, hfiles⟩, hanswered⟩

theorem completeJoin_wipes (wipes : List (List Member)) (advertise initial : Text) :
    Keeps faults (fun store => store.wipes = wipes)
      (completeJoin server node advertise initial) := by
  apply Keeps.bind (Keeps.localSteps _)
  intro _
  apply Keeps.bind (Keeps.guardSite _ _)
  intro _
  apply Keeps.bind
  · exact Triple.mapErr (promoteRounds_wipes _ wipes faults _ _)
  · exact fun _ => Keeps.finalizeJoin _ _

/-- A first join erases the data directory of a node that the cluster knows already
exactly when everything before goes right. -/
theorem firstJoin_wipes_present (hlawful : LawfulServer server) {members : List Member}
    {advertise : Text} (hmember : IsMember members (peerUrl advertise))
    (name vip : Text) :
    Triple faults (· = ⟨members, []⟩) (firstJoin server node name vip (some advertise))
      (fun _ => ErasedIf (FirstJoinReady node faults advertise vip) members)
      fun _ => ErasedIf (FirstJoinReady node faults advertise vip) members := by
  apply Triple.bind fun result store => store = ⟨members, []⟩ ∧
    result.1 = advertise ∧ FirstJoinReady node faults advertise vip
  · apply (prepareJoin_present node faults hlawful hmember name vip).weaken
      (fun _ h => h) (fun _ _ h => h)
    rintro _ store ⟨rfl, hnot⟩
    exact .inr ⟨hnot, rfl⟩
  rintro ⟨_, initial⟩
  apply Triple.bind fun _ store =>
    FirstJoinReady node faults advertise vip ∧ store.wipes = [members]
  · apply Triple.change
    rintro store ⟨rfl, -, hready⟩
    exact ⟨hready, rfl⟩
  · rintro _ store ⟨hready, hwipes⟩
    apply (completeJoin_wipes node faults [members] _ initial).weaken
      (fun _ h => h) _ _ store hwipes
    · exact fun _ _ hafter => .inl ⟨hready, hafter⟩
    · exact fun _ _ hafter => .inl ⟨hready, hafter⟩

/-- A first join of a node without a vote erases only while it has none. -/
theorem firstJoin_spares (hlawful : LawfulServer server) {members : List Member}
    {advertise : Text} (hvoter : ¬ IsVoter members (peerUrl advertise))
    (name vip : Text) :
    Triple faults (· = ⟨members, []⟩) (firstJoin server node name vip (some advertise))
      (fun _ => SparesVoter (peerUrl advertise))
      fun _ => SparesVoter (peerUrl advertise) := by
  have hprepare : Keeps faults
      (fun store => ¬ IsVoter store.members (peerUrl advertise) ∧ store.wipes = [])
      (prepareJoin server node name vip (some advertise)) := by
    apply Keeps.bind (Keeps.guardSite _ _)
    intro _
    apply Keeps.bind (Keeps.whenever (Keeps.stop _))
    intro _
    apply Keeps.bind (Keeps.localSteps _)
    intro _
    apply Keeps.bind
    · exact Triple.mapErr
        ((addInvariant_notVoter (peerUrl advertise) [] hlawful).etcdMemberAdd faults name)
    intro initial
    apply Keeps.bind (Keeps.localSteps _)
    exact fun _ => Keeps.pure _
  apply Triple.bind fun _ store =>
    ¬ IsVoter store.members (peerUrl advertise) ∧ store.wipes = []
  · apply hprepare.weaken
    · rintro store rfl
      exact ⟨hvoter, rfl⟩
    · exact fun _ _ h => h
    · exact fun _ _ h => sparesVoter_of_nil h.2
  rintro ⟨joined, initial⟩
  apply Triple.bind fun _ store =>
    ∃ wiped, ¬ IsVoter wiped (peerUrl advertise) ∧ store.wipes = [wiped]
  · apply Triple.change
    rintro store ⟨hnot, hwipes⟩
    exact ⟨store.members, hnot, by simp [hwipes]⟩
  · rintro _ store ⟨wiped, hnot, hwipes⟩
    have hspares : ∀ after : JoinStore, after.wipes = [wiped] →
        SparesVoter (peerUrl advertise) after := by
      intro after hafter
      simpa [SparesVoter, hafter] using hnot
    exact (completeJoin_wipes node faults [wiped] joined initial).weaken
      (fun _ h => h) (fun _ => hspares) (fun _ => hspares) store hwipes

/-- Without an address a first join stops before it erases anything. -/
theorem firstJoin_no_address (members : List Member) (name vip : Text) :
    Triple faults (· = ⟨members, []⟩) (firstJoin server node name vip none)
      (fun _ store => store.wipes = []) fun _ store => store.wipes = [] := by
  apply Triple.bind fun _ _ => False
  · apply Triple.bind fun _ store => store.wipes = []
    · apply Triple.guardSite
      · rintro _ store rfl
        rfl
      · rintro _ store rfl
        rfl
    · exact fun _ => Triple.stop fun _ h => h
  · exact fun _ _ h => h.elim

end FirstJoin

section JoinControlPlane

variable {server : EtcdServer} (node : JoinNode) (faults : Faults JoinSite)
variable (request : JoinRequest) (members : List Member)

/-- The call either does what a bootstrapped node does, or what a first join does. -/
theorem joinControlPlane_cases {erased : JoinStore → Prop}
    (hchecked : (∀ cluster, checkRequest request ≠ .ok cluster) →
      ∀ store : JoinStore, store.wipes = [] → erased store)
    (hrejoin : ∀ cluster name, checkRequest request = .ok cluster →
      node.bootstrapped = true → Triple faults (· = ⟨members, []⟩)
        (rejoin server node name ((advertiseOf request node).getD [])
          (endpointHost cluster.endpoint)) (fun _ => erased) fun _ => erased)
    (hfirst : ∀ cluster name, checkRequest request = .ok cluster →
      node.bootstrapped = false → Triple faults (· = ⟨members, []⟩)
        (firstJoin server node name (endpointHost cluster.endpoint)
          (advertiseOf request node)) (fun _ => erased) fun _ => erased) :
    Triple faults (· = ⟨members, []⟩) (joinControlPlane server node request)
      (fun _ => erased) fun _ => erased := by
  apply Triple.bindFact (fun cluster => checkRequest request = .ok cluster)
    (· = ⟨members, []⟩)
  · apply Triple.ofExcept
    · exact fun cluster hcluster _ hstore => ⟨hcluster, hstore⟩
    · rintro err herr store rfl
      apply hchecked _ _ rfl
      exact fun cluster hcluster => nomatch herr.symm.trans hcluster
  intro cluster hcluster
  cases hbootstrapped : node.bootstrapped with
  | true => exact hrejoin cluster _ hcluster hbootstrapped
  | false => exact hfirst cluster _ hcluster hbootstrapped

/-- What the call does to the data directory of a voting member. -/
theorem joinControlPlane_wipes_voter (hlawful : LawfulServer server)
    (hvoter : IsVoter members (nodePeerUrl node request)) :
    Triple faults (· = ⟨members, []⟩) (joinControlPlane server node request)
      (fun _ => ErasedIf (ReachesWipe faults node request) members)
      fun _ => ErasedIf (ReachesWipe faults node request) members := by
  apply joinControlPlane_cases
  · intro hrejected store hwipes
    refine .inr ⟨?_, hwipes⟩
    rintro ⟨cluster, _, hcluster, _⟩
    exact hrejected cluster hcluster
  · intro cluster name hcluster hbootstrapped
    have hready : ReachesWipe faults node request ↔
        RejoinReady node ((advertiseOf request node).getD [])
          (endpointHost cluster.endpoint) := by
      simp only [ReachesWipe, RejoinReady, hcluster, hbootstrapped, if_true]
      cases advertiseOf request node <;> simp
    rw [hready]
    exact rejoin_wipes node faults members hlawful name _ _
  · intro cluster name hcluster hbootstrapped
    cases hadvertise : advertiseOf request node with
    | none =>
        have hnot : ¬ ReachesWipe faults node request := by
          rintro ⟨_, _, _, hsome, _⟩
          exact nomatch hadvertise.symm.trans hsome
        exact (firstJoin_no_address node faults members name _).weaken (fun _ h => h)
          (fun _ _ hwipes => .inr ⟨hnot, hwipes⟩) fun _ _ hwipes => .inr ⟨hnot, hwipes⟩
    | some advertise =>
        have hready : ReachesWipe faults node request ↔
            FirstJoinReady node faults advertise (endpointHost cluster.endpoint) := by
          simp [ReachesWipe, FirstJoinReady, hcluster, hbootstrapped, hadvertise]
        have hmember : IsMember members (peerUrl advertise) := by
          simpa [nodePeerUrl, hadvertise] using hvoter.isMember
        rw [hready]
        exact firstJoin_wipes_present node faults hlawful hmember name _

theorem joinControlPlane_spares (hlawful : LawfulServer server)
    (hvoter : ¬ IsVoter members (nodePeerUrl node request)) :
    Triple faults (· = ⟨members, []⟩) (joinControlPlane server node request)
      (fun _ => SparesVoter (nodePeerUrl node request))
      fun _ => SparesVoter (nodePeerUrl node request) := by
  apply joinControlPlane_cases
  · exact fun _ store => sparesVoter_of_nil
  · intro cluster name _ _
    have hspares : ∀ store, ErasedIf (RejoinReady node
        ((advertiseOf request node).getD []) (endpointHost cluster.endpoint)) members
          store → SparesVoter (nodePeerUrl node request) store := by
      rintro store (⟨-, hwipes⟩ | ⟨-, hwipes⟩)
      · simpa [SparesVoter, hwipes] using hvoter
      · exact sparesVoter_of_nil hwipes
    exact (rejoin_wipes node faults members hlawful name _ _).weaken (fun _ h => h)
      (fun _ => hspares) fun _ => hspares
  · intro cluster name _ _
    cases hadvertise : advertiseOf request node with
    | none =>
        exact (firstJoin_no_address node faults members name _).weaken (fun _ h => h)
          (fun _ _ => sparesVoter_of_nil) fun _ _ => sparesVoter_of_nil
    | some advertise =>
        have hurl : nodePeerUrl node request = peerUrl advertise := by
          simp [nodePeerUrl, hadvertise]
        rw [hurl] at hvoter ⊢
        exact firstJoin_spares node faults hlawful hvoter name _

/-- A voting member whose join gets to the erasure loses its log. -/
theorem joinControlPlane_erases (hlawful : LawfulServer server)
    (hvoter : IsVoter members (nodePeerUrl node request))
    (hreach : ReachesWipe faults node request) :
    ¬ Triple faults (· = ⟨members, []⟩) (joinControlPlane server node request)
      (fun _ => SparesVoter (nodePeerUrl node request))
      (fun _ => SparesVoter (nodePeerUrl node request)) := by
  intro hspares
  have herased := joinControlPlane_wipes_voter node faults request members hlawful hvoter
  have himpossible : ∀ store, SparesVoter (nodePeerUrl node request) store ∧
      ErasedIf (ReachesWipe faults node request) members store → False := by
    rintro store ⟨hspared, ⟨-, hwipes⟩ | ⟨hnot, -⟩⟩
    · exact hspared members (by simp [hwipes]) hvoter
    · exact hnot hreach
  exact ((hspares.both herased).weaken (fun _ h => h) (fun _ => himpossible)
    fun _ => himpossible).elim ⟨rfl, rfl⟩

/-- A join erases the log of a voting member exactly when it finds one and gets to the
erasure: neither place where it erases looks at the member list for a vote. -/
theorem join_spares_voter_iff (hlawful : LawfulServer server) :
    Triple faults (· = ⟨members, []⟩) (joinControlPlane server node request)
      (fun _ => SparesVoter (nodePeerUrl node request))
      (fun _ => SparesVoter (nodePeerUrl node request)) ↔
    ¬ (IsVoter members (nodePeerUrl node request) ∧ ReachesWipe faults node request) := by
  constructor
  · rintro hspares ⟨hvoter, hreach⟩
    exact joinControlPlane_erases node faults request members hlawful hvoter hreach hspares
  · intro hnot
    by_cases hvoter : IsVoter members (nodePeerUrl node request)
    · have hreach : ¬ ReachesWipe faults node request := fun h => hnot ⟨hvoter, h⟩
      have hspares : ∀ store, ErasedIf (ReachesWipe faults node request) members store →
          SparesVoter (nodePeerUrl node request) store := by
        rintro store (⟨hready, -⟩ | ⟨-, hwipes⟩)
        · exact absurd hready hreach
        · exact sparesVoter_of_nil hwipes
      exact (joinControlPlane_wipes_voter node faults request members hlawful
        hvoter).weaken (fun _ h => h) (fun _ => hspares) fun _ => hspares
    · exact joinControlPlane_spares node faults request members hlawful hvoter

end JoinControlPlane

section Lab

/-- A server that keeps the rules: one entry for each URL, one learner at a time. -/
def labServer : EtcdServer where
  memberAdd members url :=
    if IsMember members url then .error "etcdserver: Peer URLs already exists".toList
    else if members.any Member.isLearner then
      .error "etcdserver: too many learner members in cluster".toList
    else .ok (members ++ [⟨members.length + 1, [], [url], true⟩])
  memberPromote members id :=
    .ok (members.map fun member =>
      if member.id = id then { member with isLearner := false } else member)
  unavailable := "transport error".toList

theorem labServer_lawful : LawfulServer labServer where
  add_present members url hmember := by
    refine ⟨"etcdserver: Peer URLs already exists".toList, if_pos hmember, ?_, ?_⟩
    · decide
    · decide
  add_voters members url after hadd other := by
    simp only [labServer] at hadd
    split at hadd
    · cases hadd
    · split at hadd
      · cases hadd
      · simp only [Except.ok.injEq] at hadd
        simp [← hadd, IsVoter, List.mem_append, or_and_right, exists_or]
  promote_members members id after hpromote url := by
    simp only [labServer, Except.ok.injEq] at hpromote
    have hurls : ∀ member : Member,
        (if member.id = id then { member with isLearner := false } else member).peerUrls =
          member.peerUrls := by
      intro member
      split <;> rfl
    simp [← hpromote, IsMember, hurls]
  unavailable_plain := by decide

def labVoters : List Member :=
  [⟨1, "lab-cp-1".toList, ["https://10.0.0.1:2380".toList], false⟩,
    ⟨2, "lab-cp-2".toList, ["https://10.0.0.2:2380".toList], false⟩]

def labRequest : JoinRequest where
  isControlplane := true
  hostname := some "lab-cp-2".toList
  cluster := some
    { endpoint := "https://10.0.0.250:6443".toList
      ca := some "ca".toList
      caKey := some "key".toList
      saKey := some "key".toList }
  advertiseAddress := some "10.0.0.2".toList
  etcdEndpoints := ["https://10.0.0.1:2379".toList]

/-- A member of the cluster whose etcd is `listening` or still on its way up. -/
def labNode (listening : Bool) : JoinNode where
  bootstrapped := true
  detectedIp := none
  localEtcdListening := listening
  etcdPkiReadable := true
  pkiLiveExists := true
  promoteRounds := 90
  finalizeError := []

theorem labNode_votes (listening : Bool) :
    IsVoter labVoters (nodePeerUrl (labNode listening) labRequest) := by
  refine ⟨_, List.mem_cons_of_mem _ List.mem_cons_self, ?_, rfl⟩
  cases listening <;> decide

theorem join_spares_voter_lab :
    Triple calm (· = ⟨labVoters, []⟩) (joinControlPlane labServer (labNode true) labRequest)
      (fun _ => SparesVoter (nodePeerUrl (labNode true) labRequest))
      (fun _ => SparesVoter (nodePeerUrl (labNode true) labRequest)) := by
  apply (join_spares_voter_iff (labNode true) calm labRequest labVoters
    labServer_lawful).mpr
  rintro ⟨-, _, _, -, -, -, hready⟩
  exact absurd hready.2 (by decide)

/-- The call is repeated on a voting member while its etcd is still on its way up:
nothing answers on the port, and the log is erased. -/
theorem join_erases_slow_voter :
    ¬ Triple calm (· = ⟨labVoters, []⟩)
      (joinControlPlane labServer (labNode false) labRequest)
      (fun _ => SparesVoter (nodePeerUrl (labNode false) labRequest))
      (fun _ => SparesVoter (nodePeerUrl (labNode false) labRequest)) := by
  apply joinControlPlane_erases (labNode false) calm labRequest labVoters
    labServer_lawful (labNode_votes false)
  refine ⟨_, "10.0.0.2".toList, rfl, rfl, .inr ?_, ?_⟩
  · decide
  · exact ⟨by decide, rfl⟩

end Lab

end PertiskKos.Etcd
