import PertiskKos.Config.Cluster
import PertiskKos.Config.Partial

/-!
# The configuration of a joining control plane

A bootstrapped control plane exports a configuration for the next one.  It writes its
networks as lists, whichever way they were given, and leaves the older fields out.  The
next control plane normalises the lists again, so the two run with the same flags when
the second pass changes nothing.
-/

namespace PertiskKos.Bootstrap

open Strings Yaml Config

def defaultK8sVersion : Text := "v1.36.3".toList

/-- What a control plane derives from its cluster block, at bootstrap and at a join. -/
structure ClusterFlags where
  clusterCidr : Text
  serviceCidr : Text
  serviceSubnet : Text
  sans : List Text
  networkMode : NetworkMode
  k8sVersion : Text
  deriving DecidableEq, Repr

def clusterFlags (c : Cluster) : ClusterFlags where
  clusterCidr := c.clusterCidr
  serviceCidr := c.serviceClusterIpRange
  serviceSubnet := c.ipv4ServiceSubnet
  sans := c.pkiExtraSans
  networkMode := c.networkMode
  k8sVersion := c.kubernetesVersion.getD defaultK8sVersion

/-- What `get_join_config` finds on the node. -/
structure ExportState where
  bootstrapped : Bool
  caCrt : Option Text
  caKey : Option Text
  saKey : Option Text
  advertise : Option Text
  detected : Option Text

structure JoinConfigs where
  worker : MachineConfig
  controlplane : MachineConfig
  etcdEndpoints : List Text
  caPem : Text
  deriving DecidableEq

/-- The machine block of an exported configuration. -/
def joinMachine (applied : MachineConfig) (machineType : MachineType) (hostname : Text) :
    Machine where
  machineType := machineType
  network :=
    { hostname := some hostname
      interfaces :=
        [{ interface := "eth0".toList, dhcp := true, addresses := [], gateway := none }]
      nameservers := ["1.1.1.1".toList] }
  install := none
  dashboard := applied.machine.dashboard.or (some Dashboard.builtin)
  kubelet := applied.machine.kubelet
  observability := applied.machine.observability

/-- The cluster block of an exported configuration. -/
def joinCluster (c : Cluster) (clusterName token ca : Text) (caKey saKey : Option Text)
    (cni : CniMode) : Cluster where
  name := some clusterName
  endpoint := c.endpoint
  token := some token
  ca := some ca
  caKey := caKey
  saKey := saKey
  network := some
    { podSubnets := c.effectivePodSubnets, serviceSubnets := c.effectiveServiceSubnets }
  podSubnet := none
  serviceSubnet := none
  podCidrIpv6 := none
  serviceCidrIpv6 := none
  networkMode := c.networkMode
  vip6 := c.vip6
  kubernetesVersion := some (c.kubernetesVersion.getD defaultK8sVersion)
  podCidr := none
  cni := cni
  certSans := c.certSans

def joinHostname (clusterName : Text) (controlplaneIndex : UInt32) : Text :=
  if controlplaneIndex = 0 then clusterName ++ "-cp-join".toList
  else clusterName ++ "-cp-".toList ++ (Nat.repr controlplaneIndex.toNat).toList

/-- The value of an option, or the error that it is missing. -/
def context {A : Type} (message : Text) : Option A → Except Text A
  | some a => .ok a
  | none => .error message

theorem context_bind {A B : Type} {message : Text} {value : Option A}
    {next : A → Except Text B} {b : B} (hok : (context message value >>= next) = .ok b) :
    ∃ a, value = some a ∧ next a = .ok b := by
  cases value with
  | some a => exact ⟨a, rfl, hok⟩
  | none => cases hok

def workerConfig (applied : MachineConfig) (c : Cluster) (clusterName token ca : Text) :
    MachineConfig where
  version := configVersion
  machine := joinMachine applied .worker (clusterName ++ "-wk-1".toList)
  cluster := some (joinCluster c clusterName token ca none none .none)

def controlplaneConfig (applied : MachineConfig) (c : Cluster)
    (clusterName token ca caKey saKey : Text) (controlplaneIndex : UInt32) :
    MachineConfig where
  version := configVersion
  machine := joinMachine applied .controlplane (joinHostname clusterName controlplaneIndex)
  cluster := some (joinCluster c clusterName token ca (some caKey) (some saKey) c.cni)

def etcdEndpoint (state : ExportState) : Text :=
  'h' :: "ttps://".toList ++
    (state.advertise.or state.detected).getD "127.0.0.1".toList ++ ":2379".toList

/-- The configurations that `get_join_config` exports. -/
def joinConfigs (state : ExportState) (applied : MachineConfig) (clusterName : Text)
    (controlplaneIndex : UInt32) : Except Text JoinConfigs := do
  let _ ← context "node is not bootstrapped; run bootstrap first".toList
    (if state.bootstrapped then some () else none)
  let c ← context "applied config missing cluster".toList applied.cluster
  let ca ← context "read ca.crt".toList state.caCrt
  let caKey ← context "read ca.key".toList state.caKey
  let saKey ← context "read sa.key".toList state.saKey
  let token ← context "applied config missing cluster.token".toList c.token
  pure
    { worker := workerConfig applied c clusterName token ca
      controlplane :=
        controlplaneConfig applied c clusterName token ca caKey saKey controlplaneIndex
      etcdEndpoints := [etcdEndpoint state]
      caPem := ca }

structure JoinConfigResult where
  workerYaml : Text
  controlplaneYaml : Text
  etcdEndpoints : List Text
  caPem : Text

/-- Export the configurations as documents. -/
def getJoinConfig (yaml : SerdeYaml) (state : ExportState) (applied : MachineConfig)
    (clusterName : Text) (controlplaneIndex : UInt32) : Except Text JoinConfigResult := do
  let configs ← joinConfigs state applied clusterName controlplaneIndex
  pure
    { workerYaml := serialize yaml configs.worker
      controlplaneYaml := serialize yaml configs.controlplane
      etcdEndpoints := configs.etcdEndpoints
      caPem := configs.caPem }

section Lists

/-- The length of a list as it is joined, with one more separator. -/
def joinedLength (texts : List Text) : Nat := (texts.map fun text => text.length + 1).sum

theorem length_joinWith {texts : List Text} (separator : Char) (hne : texts ≠ []) :
    (joinWith separator texts).length + 1 = joinedLength texts := by
  induction texts with
  | nil => exact absurd rfl hne
  | cons first rest ih =>
      cases rest with
      | nil => simp [joinWith, joinedLength]
      | cons second rest =>
          have hrest := ih (List.cons_ne_nil _ _)
          simp only [joinWith, joinedLength, List.intercalate_cons_cons, List.length_append,
            List.map_cons, List.sum_cons, List.length_singleton] at hrest ⊢
          omega

theorem joinedLength_trimmed_le (texts : List Text) :
    joinedLength (trimmed texts) ≤ joinedLength texts := by
  induction texts with
  | nil => exact le_rfl
  | cons text rest ih =>
      have hlength := (trim_sublist text).length_le
      by_cases hblank : trim text = [] <;>
        simp_all [joinedLength, trimmed] <;> omega

/-- Trimming shortens every list that it changes. -/
theorem trimmed_eq_of_length {texts : List Text}
    (hlength : joinedLength (trimmed texts) = joinedLength texts) : trimmed texts = texts := by
  induction texts with
  | nil => rfl
  | cons text rest ih =>
      have hrest := joinedLength_trimmed_le rest
      have htext := (trim_sublist text).length_le
      by_cases hblank : trim text = []
      · simp only [joinedLength, trimmed, List.map_cons, hblank, List.sum_cons] at *
        simp at *
        omega
      · have hcons : trimmed (text :: rest) = trim text :: trimmed rest := by
          simp [trimmed, hblank]
        rw [hcons] at hlength ⊢
        simp only [joinedLength, List.map_cons, List.sum_cons] at hlength hrest ih
        rw [ih (by omega), (trim_sublist text).eq_of_length (by omega)]

/-- Reading the exported list again changes the joined text exactly when it changes the
list. -/
theorem joinWith_again {subnets : List Text} (hne : subnets ≠ []) (legacy legacyIpv6 : Text)
    (dualStack : Bool) (hlegacy : '0' ∈ legacy) :
    joinWith ',' (effectiveSubnets (some subnets) legacy legacyIpv6 dualStack) =
      joinWith ',' subnets ↔ trimmed subnets = subnets := by
  have hlisted : listedSubnets (some subnets) =
      if trimmed subnets = [] then none else some (trimmed subnets) := by
    by_cases hblank : trimmed subnets = [] <;>
      simp [listedSubnets, Option.filter, hblank]
  by_cases hblank : trimmed subnets = []
  · rw [if_pos hblank] at hlisted
    have hwhite : ∀ text ∈ subnets, ∀ c ∈ text, isWhite c = true := by
      intro text htext
      rw [← trim_eq_nil_iff]
      simpa using List.filter_eq_nil_iff.mp hblank (trim text) (List.mem_map_of_mem htext)
    rw [effectiveSubnets_legacy hlisted, hblank]
    constructor
    · intro hjoin
      have hzero : '0' ∈ joinWith ',' subnets := hjoin ▸ joinWith_head hlegacy
      rcases mem_joinWith hzero with hcomma | ⟨text, htext, hmem⟩
      · exact absurd hcomma (by decide)
      · exact absurd (hwhite text htext '0' hmem) (by decide)
    · intro hnil
      exact absurd hnil.symm hne
  · rw [if_neg hblank] at hlisted
    rw [effectiveSubnets_listed hlisted]
    constructor
    · intro hjoin
      apply trimmed_eq_of_length
      rw [← length_joinWith ',' hblank, ← length_joinWith ',' hne, hjoin]
    · intro hsame
      rw [hsame]

theorem effectiveSubnets_again {subnets : List Text} (hne : subnets ≠ [])
    (hsame : trimmed subnets = subnets) (legacy legacyIpv6 : Text) (dualStack : Bool) :
    effectiveSubnets (some subnets) legacy legacyIpv6 dualStack = subnets := by
  apply effectiveSubnets_listed
  simp [listedSubnets, Option.filter, hsame, hne]

end Lists

section Tidy

/-- An older field has no white space around it. -/
def TidyField (field : Option Text) : Prop :=
  ∀ text, field = some text → text ≠ [] → trim text = text

/-- The networks of one kind come from the list, or from older fields without white
space around them. -/
def TidySubnets (listed : Option (List Text)) (legacy legacyIpv6 : Option Text)
    (dualStack : Bool) : Prop :=
  (listedSubnets listed).isSome = true ∨
    TidyField legacy ∧ (dualStack = true → TidyField legacyIpv6)

/-- Nothing is left to be trimmed in the networks of the cluster. -/
def Tidy (c : Cluster) : Prop :=
  TidySubnets (c.network.map ClusterNetwork.podSubnets) c.podSubnet c.podCidrIpv6
      c.isDualStack ∧
    TidySubnets (c.network.map ClusterNetwork.serviceSubnets) c.serviceSubnet
      c.serviceCidrIpv6 c.isDualStack

variable {listed : Option (List Text)} {legacy legacyIpv6 : Option Text}

theorem tidyField_iff {field : Option Text} {default : Text} (hdefault : trim default = default) :
    TidyField field ↔ trim (orDefault field default) = orDefault field default := by
  rw [TidyField]
  cases field with
  | none => simpa [orDefault] using hdefault
  | some text =>
      by_cases hempty : text = []
      · simpa [orDefault, Option.filter, hempty] using hdefault
      · simp [orDefault, Option.filter, hempty]

theorem orDefault_ne_nil {field : Option Text} {default : Text} (hdefault : default ≠ []) :
    orDefault field default ≠ [] := by
  cases field with
  | none => exact hdefault
  | some text =>
      by_cases hempty : text = []
      · simpa [orDefault, Option.filter, hempty] using hdefault
      · simp [orDefault, Option.filter, hempty]

theorem trimmed_singleton {text : Text} (hne : text ≠ []) :
    trimmed [text] = [text] ↔ trim text = text := by
  by_cases hblank : trim text = []
  · simp [trimmed, hblank, hne.symm]
  · simp [trimmed, hblank]

theorem trimmed_pair {first second : Text} (hfirst : first ≠ []) (hsecond : second ≠ []) :
    trimmed [first, second] = [first, second] ↔
      trim first = first ∧ trim second = second := by
  by_cases hblank : trim first = []
  · by_cases hother : trim second = [] <;>
      simp [trimmed, hblank, hother, hfirst.symm, hsecond.symm]
  · by_cases hother : trim second = [] <;> simp [trimmed, hblank, hother, hsecond.symm]

theorem trimmed_trimmed (texts : List Text) : trimmed (trimmed texts) = trimmed texts := by
  induction texts with
  | nil => rfl
  | cons text rest ih =>
      by_cases hblank : trim text = []
      · simpa [trimmed, hblank] using ih
      · have hcons : ∀ others, trimmed (trim text :: others) = trim text :: trimmed others := by
          intro others
          simp [trimmed, trim_trim, hblank]
        have hsplit : trimmed (text :: rest) = trim text :: trimmed rest := by
          simp [trimmed, hblank]
        rw [hsplit, hcons, ih]

/-- The networks are tidy exactly when trimming them does nothing. -/
theorem tidySubnets_iff {default defaultIpv6 : Text} (dualStack : Bool)
    (hdefault : trim default = default) (hne : default ≠ [])
    (hdefaultIpv6 : trim defaultIpv6 = defaultIpv6) (hneIpv6 : defaultIpv6 ≠ []) :
    TidySubnets listed legacy legacyIpv6 dualStack ↔
      trimmed (effectiveSubnets listed (orDefault legacy default)
          (orDefault legacyIpv6 defaultIpv6) dualStack) =
        effectiveSubnets listed (orDefault legacy default)
          (orDefault legacyIpv6 defaultIpv6) dualStack := by
  rw [TidySubnets]
  cases hlisted : listedSubnets listed with
  | some subnets =>
      rw [effectiveSubnets_listed hlisted]
      obtain ⟨texts, -, hfilter⟩ := Option.map_eq_some_iff.mp
        (Option.filter_eq_some_iff.mp hlisted).1
      rw [← hfilter, trimmed_trimmed]
      simp
  | none =>
      rw [effectiveSubnets_legacy hlisted, tidyField_iff hdefault, tidyField_iff hdefaultIpv6]
      cases dualStack with
      | false => simpa using (trimmed_singleton (orDefault_ne_nil hne)).symm
      | true =>
          simpa using
            (trimmed_pair (orDefault_ne_nil hne) (orDefault_ne_nil hneIpv6)).symm

end Tidy

section Joined

variable {c : Cluster} {clusterName token ca : Text} {caKey saKey : Option Text}
variable {cni : CniMode}

theorem tidy_iff : Tidy c ↔
    trimmed c.effectivePodSubnets = c.effectivePodSubnets ∧
      trimmed c.effectiveServiceSubnets = c.effectiveServiceSubnets := by
  have hpods := @tidySubnets_iff (c.network.map ClusterNetwork.podSubnets) c.podSubnet
    c.podCidrIpv6 defaultPodSubnet defaultPodCidrIpv6 c.isDualStack (by decide) (by decide)
    (by decide) (by decide)
  have hservices := @tidySubnets_iff (c.network.map ClusterNetwork.serviceSubnets)
    c.serviceSubnet c.serviceCidrIpv6 defaultServiceSubnet defaultServiceCidrIpv6
    c.isDualStack (by decide) (by decide) (by decide) (by decide)
  rw [Tidy, hpods, hservices]
  rfl

theorem clusterFlags_joinCluster :
    clusterFlags (joinCluster c clusterName token ca caKey saKey cni) = clusterFlags c ↔
      Tidy c := by
  have hpods := effectiveSubnets_ne_nil (c.network.map ClusterNetwork.podSubnets)
    (orDefault c.podSubnet defaultPodSubnet) (orDefault c.podCidrIpv6 defaultPodCidrIpv6)
    c.isDualStack
  have hservices := effectiveSubnets_ne_nil (c.network.map ClusterNetwork.serviceSubnets)
    (orDefault c.serviceSubnet defaultServiceSubnet)
    (orDefault c.serviceCidrIpv6 defaultServiceCidrIpv6) c.isDualStack
  rw [tidy_iff]
  constructor
  · intro hflags
    have hcidr : joinWith ',' _ = joinWith ',' _ := congrArg ClusterFlags.clusterCidr hflags
    have hrange : joinWith ',' _ = joinWith ',' _ := congrArg ClusterFlags.serviceCidr hflags
    exact ⟨(joinWith_again hpods defaultPodSubnet _ _ (by decide)).mp hcidr,
      (joinWith_again hservices defaultServiceSubnet _ _ (by decide)).mp hrange⟩
  · rintro ⟨htidyPods, htidyServices⟩
    have hsamePods : (joinCluster c clusterName token ca caKey saKey cni).effectivePodSubnets =
        c.effectivePodSubnets := effectiveSubnets_again hpods htidyPods _ _ _
    have hsameServices :
        (joinCluster c clusterName token ca caKey saKey cni).effectiveServiceSubnets =
          c.effectiveServiceSubnets := effectiveSubnets_again hservices htidyServices _ _ _
    rw [clusterFlags, clusterFlags, Cluster.clusterCidr, Cluster.serviceClusterIpRange,
      Cluster.ipv4ServiceSubnet, hsamePods, hsameServices]
    rfl

theorem joinConfigs_controlplane {state : ExportState} {applied : MachineConfig}
    {index : UInt32} {configs : JoinConfigs} (hcluster : applied.cluster = some c)
    (hconfigs : joinConfigs state applied clusterName index = .ok configs) :
    ∃ token ca caKey saKey, configs.controlplane =
      controlplaneConfig applied c clusterName token ca caKey saKey index := by
  obtain ⟨-, -, hconfigs⟩ := context_bind hconfigs
  obtain ⟨found, hfound, hconfigs⟩ := context_bind hconfigs
  obtain ⟨ca, -, hconfigs⟩ := context_bind hconfigs
  obtain ⟨caKey, -, hconfigs⟩ := context_bind hconfigs
  obtain ⟨saKey, -, hconfigs⟩ := context_bind hconfigs
  obtain ⟨token, -, hconfigs⟩ := context_bind hconfigs
  rw [hcluster, Option.some.injEq] at hfound
  cases hconfigs
  exact ⟨token, ca, caKey, saKey, hfound ▸ rfl⟩

/-- The exported configuration gives the next control plane the flags of this one
exactly when nothing is left to be trimmed in the networks. -/
theorem joined_flags_iff {yaml : SerdeYaml} {state : ExportState} {applied : MachineConfig}
    {index : UInt32} {result : JoinConfigResult} (hcluster : applied.cluster = some c)
    (hyaml : ∀ configs, joinConfigs state applied clusterName index = .ok configs →
      yaml.fromStr (serialize yaml configs.controlplane) =
        .ok (machineConfigCodec.write configs.controlplane))
    (hexport : getJoinConfig yaml state applied clusterName index = .ok result) :
    (∃ cfg joined, fromYaml yaml result.controlplaneYaml = .ok cfg ∧
        cfg.cluster = some joined ∧ clusterFlags joined = clusterFlags c) ↔ Tidy c := by
  obtain ⟨configs, hconfigs, hresult⟩ : ∃ configs,
      joinConfigs state applied clusterName index = .ok configs ∧
        result.controlplaneYaml = serialize yaml configs.controlplane := by
    rw [getJoinConfig] at hexport
    cases hconfigs : joinConfigs state applied clusterName index with
    | error message =>
        rw [hconfigs] at hexport
        cases hexport
    | ok configs =>
        rw [hconfigs] at hexport
        cases hexport
        exact ⟨configs, rfl, rfl⟩
  obtain ⟨token, ca, caKey, saKey, hcontrolplane⟩ := joinConfigs_controlplane hcluster hconfigs
  have hread : fromYaml yaml result.controlplaneYaml = .ok configs.controlplane := by
    rw [hresult, fromYaml_eq (hyaml configs hconfigs), fromValue_eq_ok,
      machineConfigCodec.read_write, hcontrolplane]
    exact ⟨rfl, rfl⟩
  constructor
  · rintro ⟨cfg, joined, hcfg, hjoined, hflags⟩
    rw [hread, Except.ok.injEq] at hcfg
    rw [← hcfg, hcontrolplane, controlplaneConfig, Option.some.injEq] at hjoined
    rw [← hjoined] at hflags
    exact clusterFlags_joinCluster.mp hflags
  · intro htidy
    have hjoined : configs.controlplane.cluster =
        some (joinCluster c clusterName token ca (some caKey) (some saKey) c.cni) := by
      rw [hcontrolplane]
      rfl
    exact ⟨_, _, hread, hjoined, clusterFlags_joinCluster.mpr htidy⟩

end Joined

section Lab

def labExportState : ExportState where
  bootstrapped := true
  caCrt := some "CA".toList
  caKey := some "CA KEY".toList
  saKey := some "SA KEY".toList
  advertise := some "10.0.0.1".toList
  detected := none

/-- A bootstrapped control plane with the given older field for its pods. -/
def labApplied (podSubnet : Option Text) : MachineConfig :=
  { labConfig with cluster := some { labCluster with podSubnet := podSubnet } }

/-- The exported document for `lab-cp-2`, with its pod network as it is printed. -/
def labExport (podSubnet : Text) : Text :=
  unlines ["version: v1alpha1".toList, "machine:".toList, "  type: controlplane".toList,
    "  network:".toList, "    hostname: lab-cp-2".toList, "    interfaces:".toList,
    "    - interface: eth0".toList, "      dhcp: true".toList,
    "      addresses: []".toList, "      gateway: null".toList,
    "    nameservers:".toList, "    - 1.1.1.1".toList, "  dashboard:".toList,
    "    mgmt_url: https://mgmt.lab".toList, "cluster:".toList, "  name: lab".toList,
    "  endpoint: https://10.0.0.5:6443".toList,
    "  token: abcdef.0123456789abcdef".toList, "  ca: CA".toList, "  caKey: CA KEY".toList,
    "  saKey: SA KEY".toList, "  network:".toList, "    podSubnets:".toList,
    ' ' :: ' ' :: ' ' :: ' ' :: '-' :: ' ' :: podSubnet, "    serviceSubnets:".toList,
    "    - 10.96.0.0/12".toList, "  networkMode: ipv4".toList,
    "  kubernetesVersion: v1.36.3".toList, "  cni: none".toList]

def labControlplane (podSubnet : Option Text) : MachineConfig :=
  controlplaneConfig (labApplied podSubnet) { labCluster with podSubnet := podSubnet }
    "lab".toList "abcdef.0123456789abcdef".toList "CA".toList "CA KEY".toList
    "SA KEY".toList 2

/-- The YAML library on one document. -/
def labPrinter (cfg : MachineConfig) (document : Text) : SerdeYaml where
  fromStr text :=
    if text = document then .ok (machineConfigCodec.write cfg)
    else .error "unexpected end of stream".toList
  toString _ := document

theorem labPrinter_fromStr (cfg : MachineConfig) (document : Text) :
    (labPrinter cfg document).fromStr document = .ok (machineConfigCodec.write cfg) :=
  if_pos rfl

def labResult (document : Text) : JoinConfigResult where
  workerYaml := document
  controlplaneYaml := document
  etcdEndpoints := ["https://10.0.0.1:2379".toList]
  caPem := "CA".toList

theorem labPrinter_reads {podSubnet : Option Text} {document : Text} {configs : JoinConfigs}
    (hconfigs : joinConfigs labExportState (labApplied podSubnet) "lab".toList 2 =
      .ok configs) :
    (labPrinter (labControlplane podSubnet) document).fromStr
        (serialize (labPrinter (labControlplane podSubnet) document)
          configs.controlplane) =
      .ok (machineConfigCodec.write configs.controlplane) := by
  cases hconfigs
  exact labPrinter_fromStr _ document

theorem labPrinter_export (cfg : MachineConfig) (podSubnet : Option Text)
    (document : Text) :
    getJoinConfig (labPrinter cfg document) labExportState (labApplied podSubnet)
      "lab".toList 2 = .ok (labResult document) := rfl

theorem joined_flags_lab :
    ∃ cfg joined,
      fromYaml (labPrinter (labControlplane none) (labExport "10.244.0.0/16".toList))
          (labExport "10.244.0.0/16".toList) = .ok cfg ∧
        cfg.cluster = some joined ∧ clusterFlags joined = clusterFlags labCluster :=
  (joined_flags_iff rfl (fun _ => labPrinter_reads)
    (labPrinter_export (labControlplane none) none _)).mpr
    ⟨.inr ⟨nofun, nofun⟩, .inr ⟨nofun, nofun⟩⟩

/-- A blank behind the pod network: the first control plane keeps it, the next one does
not. -/
def untidyPods : Text := "10.244.0.0/16 ".toList

def untidyDocument : Text := labExport "'10.244.0.0/16 '".toList

theorem joined_flags_differ :
    getJoinConfig (labPrinter (labControlplane (some untidyPods)) untidyDocument)
        labExportState (labApplied (some untidyPods)) "lab".toList 2 =
      .ok (labResult untidyDocument) ∧
    ¬ ∃ cfg joined,
      fromYaml (labPrinter (labControlplane (some untidyPods)) untidyDocument)
          untidyDocument = .ok cfg ∧
        cfg.cluster = some joined ∧
          clusterFlags joined = clusterFlags { labCluster with podSubnet := untidyPods } := by
  refine ⟨labPrinter_export _ _ _, ?_⟩
  rintro ⟨cfg, joined, hcfg, hjoined, hflags⟩
  rw [fromYaml_eq (labPrinter_fromStr _ untidyDocument), fromValue_eq_ok,
    machineConfigCodec.read_write, Option.some.injEq] at hcfg
  rw [← hcfg.1] at hjoined
  cases hjoined
  exact absurd hflags (by decide)

end Lab

end PertiskKos.Bootstrap
