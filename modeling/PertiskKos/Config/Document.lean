import PertiskKos.Config.Duplicates
import PertiskKos.Config.Machine
import PertiskKos.Library.Records

/-!
# The machine configuration as a document

Each record has its table of fields, with the names they have in the document and
what stands for an absent field.  An apply merges the incoming document onto the one
on the disk and reads the result.
-/

namespace PertiskKos.Config

open Strings Yaml

/-- The text of an optional field, left out when it is absent. -/
def skippedText : Yaml.Field (Option Text) := Codec.text.optional true

/-- The text of an optional field, `null` when it is absent. -/
def nullableText : Yaml.Field (Option Text) := Codec.text.optional false

def texts : Codec (List Text) := Codec.text.sequence

section Kubelet

def kubeletExtraConfigFields : KubeletExtraConfig ≃ Option UInt32 × Unit where
  toFun k := (k.maxPods, ())
  invFun fields := { maxPods := fields.1 }
  left_inv _ := rfl
  right_inv _ := rfl

def kubeletExtraConfigRecord : Record (Option UInt32 × Unit) :=
  .cons "maxPods".toList none (Codec.u32.optional true) .nil

theorem kubeletExtraConfig_nodup : kubeletExtraConfigRecord.names.Nodup := by decide

def kubeletExtraConfigCodec : Codec KubeletExtraConfig :=
  kubeletExtraConfigRecord.codec kubeletExtraConfig_nodup kubeletExtraConfigFields

def machineKubeletFields : MachineKubelet ≃ Option KubeletExtraConfig × Unit where
  toFun k := (k.extraConfig, ())
  invFun fields := { extraConfig := fields.1 }
  left_inv _ := rfl
  right_inv _ := rfl

def machineKubeletRecord : Record (Option KubeletExtraConfig × Unit) :=
  .cons "extraConfig".toList none (kubeletExtraConfigCodec.optional true) .nil

theorem machineKubelet_nodup : machineKubeletRecord.names.Nodup := by decide

def machineKubeletCodec : Codec MachineKubelet :=
  machineKubeletRecord.codec machineKubelet_nodup machineKubeletFields

end Kubelet

section Observability

def observabilityFields :
    Observability ≃ Option Text × Option Text × Option Text × Labels × Unit where
  toFun o := (o.lokiUrl, o.lokiToken, o.prometheusPushUrl, o.extraLabels, ())
  invFun
    | (lokiUrl, lokiToken, prometheusPushUrl, extraLabels, ()) =>
        { lokiUrl, lokiToken, prometheusPushUrl, extraLabels }
  left_inv _ := rfl
  right_inv _ := rfl

def observabilityRecord :
    Record (Option Text × Option Text × Option Text × Labels × Unit) :=
  .cons "lokiUrl".toList none skippedText <|
  .cons "lokiToken".toList none skippedText <|
  .cons "prometheusPushUrl".toList none skippedText <|
  .cons "extraLabels".toList none (Codec.textMap.skipping ∅) .nil

theorem observability_nodup : observabilityRecord.names.Nodup := by decide

def observabilityCodec : Codec Observability :=
  observabilityRecord.codec observability_nodup observabilityFields

end Observability

section Dashboard

def dashboardFields :
    Dashboard ≃ Option Text × Option Text × Option Text × Option UInt16 ×
      Option UInt16 × Option Bool × Option Text × Unit where
  toFun d := (d.theme, d.border, d.background, d.cols, d.rows, d.utf8, d.mgmtUrl, ())
  invFun
    | (theme, border, background, cols, rows, utf8, mgmtUrl, ()) =>
        { theme, border, background, cols, rows, utf8, mgmtUrl }
  left_inv _ := rfl
  right_inv _ := rfl

def dashboardRecord :
    Record (Option Text × Option Text × Option Text × Option UInt16 ×
      Option UInt16 × Option Bool × Option Text × Unit) :=
  .cons "theme".toList none skippedText <|
  .cons "border".toList none skippedText <|
  .cons "background".toList none skippedText <|
  .cons "cols".toList none (Codec.u16.optional true) <|
  .cons "rows".toList none (Codec.u16.optional true) <|
  .cons "utf8".toList none (Codec.bool.optional true) <|
  .cons "mgmt_url".toList (some "mgmtUrl".toList) skippedText .nil

theorem dashboard_nodup : dashboardRecord.names.Nodup := by decide

def dashboardCodec : Codec Dashboard :=
  dashboardRecord.codec dashboard_nodup dashboardFields

end Dashboard

section Network

def interfaceFields : Interface ≃ Text × Bool × List Text × Option Text × Unit where
  toFun i := (i.interface, i.dhcp, i.addresses, i.gateway, ())
  invFun
    | (interface, dhcp, addresses, gateway, ()) => { interface, dhcp, addresses, gateway }
  left_inv _ := rfl
  right_inv _ := rfl

def interfaceRecord : Record (Text × Bool × List Text × Option Text × Unit) :=
  .cons "interface".toList none Codec.text.required <|
  .cons "dhcp".toList none (Codec.bool.defaulted false) <|
  .cons "addresses".toList none (texts.defaulted []) <|
  .cons "gateway".toList none nullableText .nil

theorem interface_nodup : interfaceRecord.names.Nodup := by decide

def interfaceCodec : Codec Interface :=
  interfaceRecord.codec interface_nodup interfaceFields

def networkFields : Network ≃ Option Text × List Interface × List Text × Unit where
  toFun n := (n.hostname, n.interfaces, n.nameservers, ())
  invFun
    | (hostname, interfaces, nameservers, ()) => { hostname, interfaces, nameservers }
  left_inv _ := rfl
  right_inv _ := rfl

def networkRecord : Record (Option Text × List Interface × List Text × Unit) :=
  .cons "hostname".toList none nullableText <|
  .cons "interfaces".toList none (interfaceCodec.sequence.defaulted []) <|
  .cons "nameservers".toList none (texts.defaulted []) .nil

theorem network_nodup : networkRecord.names.Nodup := by decide

def networkCodec : Codec Network := networkRecord.codec network_nodup networkFields

end Network

section Machine

def installFields : Install ≃ Text × Bool × Unit where
  toFun i := (i.disk, i.wipe, ())
  invFun
    | (disk, wipe, ()) => { disk, wipe }
  left_inv _ := rfl
  right_inv _ := rfl

def installRecord : Record (Text × Bool × Unit) :=
  .cons "disk".toList none Codec.text.required <|
  .cons "wipe".toList none (Codec.bool.defaulted false) .nil

theorem install_nodup : installRecord.names.Nodup := by decide

def installCodec : Codec Install := installRecord.codec install_nodup installFields

def MachineType.name : MachineType → Text
  | .controlplane => "controlplane".toList
  | .worker => "worker".toList

theorem machineType_named (a : MachineType) :
    [MachineType.controlplane, .worker].find? (·.name = a.name) = some a := by
  cases a <;> decide

def machineTypeCodec : Codec MachineType :=
  .enum MachineType.name [.controlplane, .worker] machineType_named

def machineFields :
    Machine ≃ MachineType × Network × Option Install × Option Dashboard ×
      Option MachineKubelet × Option Observability × Unit where
  toFun m := (m.machineType, m.network, m.install, m.dashboard, m.kubelet,
    m.observability, ())
  invFun
    | (machineType, network, install, dashboard, kubelet, observability, ()) =>
        { machineType, network, install, dashboard, kubelet, observability }
  left_inv _ := rfl
  right_inv _ := rfl

def machineRecord :
    Record (MachineType × Network × Option Install × Option Dashboard ×
      Option MachineKubelet × Option Observability × Unit) :=
  .cons "type".toList none machineTypeCodec.required <|
  .cons "network".toList none (networkCodec.defaulted Network.default) <|
  .cons "install".toList none (installCodec.optional true) <|
  .cons "dashboard".toList none (dashboardCodec.optional true) <|
  .cons "kubelet".toList none (machineKubeletCodec.optional true) <|
  .cons "observability".toList none (observabilityCodec.optional true) .nil

theorem machine_nodup : machineRecord.names.Nodup := by decide

def machineCodec : Codec Machine := machineRecord.codec machine_nodup machineFields

end Machine

section Cluster

def clusterNetworkFields : ClusterNetwork ≃ List Text × List Text × Unit where
  toFun n := (n.podSubnets, n.serviceSubnets, ())
  invFun
    | (podSubnets, serviceSubnets, ()) => { podSubnets, serviceSubnets }
  left_inv _ := rfl
  right_inv _ := rfl

def clusterNetworkRecord : Record (List Text × List Text × Unit) :=
  .cons "podSubnets".toList none (texts.skipping []) <|
  .cons "serviceSubnets".toList none (texts.skipping []) .nil

theorem clusterNetwork_nodup : clusterNetworkRecord.names.Nodup := by decide

def clusterNetworkCodec : Codec ClusterNetwork :=
  clusterNetworkRecord.codec clusterNetwork_nodup clusterNetworkFields

def NetworkMode.name : NetworkMode → Text
  | .ipv4 => "ipv4".toList
  | .dualStack => "dual-stack".toList

theorem networkMode_named (a : NetworkMode) :
    [NetworkMode.ipv4, .dualStack].find? (·.name = a.name) = some a := by
  cases a <;> decide

def networkModeCodec : Codec NetworkMode :=
  .enum NetworkMode.name [.ipv4, .dualStack] networkMode_named

def CniMode.name : CniMode → Text
  | .bridge => "bridge".toList
  | .none => "none".toList

theorem cniMode_named (a : CniMode) :
    [CniMode.bridge, .none].find? (·.name = a.name) = some a := by
  cases a <;> decide

def cniModeCodec : Codec CniMode := .enum CniMode.name [.bridge, .none] cniMode_named

/-- The fields of a cluster block, in the order of the source. -/
abbrev ClusterFields :=
  Option Text × Text × Option Text × Option Text × Option Text × Option Text ×
    Option ClusterNetwork × Option Text × Option Text × Option Text × Option Text ×
    NetworkMode × Option Text × Option Text × Option Text × CniMode × List Text × Unit

def clusterFields : Cluster ≃ ClusterFields where
  toFun c := (c.name, c.endpoint, c.token, c.ca, c.caKey, c.saKey, c.network,
    c.podSubnet, c.serviceSubnet, c.podCidrIpv6, c.serviceCidrIpv6, c.networkMode,
    c.vip6, c.kubernetesVersion, c.podCidr, c.cni, c.certSans, ())
  invFun
    | (name, endpoint, token, ca, caKey, saKey, network, podSubnet, serviceSubnet,
        podCidrIpv6, serviceCidrIpv6, networkMode, vip6, kubernetesVersion, podCidr, cni,
        certSans, ()) =>
        { name, endpoint, token, ca, caKey, saKey, network, podSubnet, serviceSubnet,
          podCidrIpv6, serviceCidrIpv6, networkMode, vip6, kubernetesVersion, podCidr, cni,
          certSans }
  left_inv _ := rfl
  right_inv _ := rfl

def clusterRecord : Record ClusterFields :=
  .cons "name".toList none skippedText <|
  .cons "endpoint".toList none Codec.text.required <|
  .cons "token".toList none nullableText <|
  .cons "ca".toList none nullableText <|
  .cons "caKey".toList none nullableText <|
  .cons "saKey".toList none nullableText <|
  .cons "network".toList none (clusterNetworkCodec.optional true) <|
  .cons "podSubnet".toList none skippedText <|
  .cons "serviceSubnet".toList none skippedText <|
  .cons "podCidrIPv6".toList none skippedText <|
  .cons "serviceCidrIPv6".toList none skippedText <|
  .cons "networkMode".toList none (networkModeCodec.defaulted .ipv4) <|
  .cons "vip6".toList none skippedText <|
  .cons "kubernetesVersion".toList none nullableText <|
  .cons "podCidr".toList none skippedText <|
  .cons "cni".toList none (cniModeCodec.defaulted .bridge) <|
  .cons "certSANs".toList none (texts.skipping []) .nil

theorem cluster_nodup : clusterRecord.names.Nodup := by decide

def clusterCodec : Codec Cluster := clusterRecord.codec cluster_nodup clusterFields

end Cluster

def machineConfigFields : MachineConfig ≃ Text × Machine × Option Cluster × Unit where
  toFun c := (c.version, c.machine, c.cluster, ())
  invFun
    | (version, machine, cluster, ()) => { version, machine, cluster }
  left_inv _ := rfl
  right_inv _ := rfl

def machineConfigRecord : Record (Text × Machine × Option Cluster × Unit) :=
  .cons "version".toList none Codec.text.required <|
  .cons "machine".toList none machineCodec.required <|
  .cons "cluster".toList none (clusterCodec.optional false) .nil

theorem machineConfig_nodup : machineConfigRecord.names.Nodup := by decide

def machineConfigCodec : Codec MachineConfig :=
  machineConfigRecord.codec machineConfig_nodup machineConfigFields

section Clash

theorem network_clash (n : Network) (v : Value) : networkCodec.clash n v = false :=
  Record.codec_clash (r := networkRecord)
    ⟨rfl, Codec.optional_clash (fun _ _ => rfl) _, rfl, fun _ _ => rfl, rfl, fun _ _ => rfl,
      trivial⟩ _ _ n v

theorem install_clash (i : Install) (v : Value) : installCodec.clash i v = false :=
  Record.codec_clash (r := installRecord)
    ⟨rfl, fun _ _ => rfl, rfl, fun _ _ => rfl, trivial⟩ _ _ i v

theorem kubeletExtraConfig_clash (k : KubeletExtraConfig) (v : Value) :
    kubeletExtraConfigCodec.clash k v = false :=
  Record.codec_clash (r := kubeletExtraConfigRecord)
    ⟨rfl, Codec.optional_clash (fun _ _ => rfl) _, trivial⟩ _ _ k v

theorem machineKubelet_clash (k : MachineKubelet) (v : Value) :
    machineKubeletCodec.clash k v = false :=
  Record.codec_clash (r := machineKubeletRecord)
    ⟨rfl, Codec.optional_clash kubeletExtraConfig_clash _, trivial⟩ _ _ k v

theorem skippedText_clash (field : Option Text) (v : Value) :
    skippedText.clash field v = false := Codec.optional_clash (fun _ _ => rfl) true field v

theorem nullableText_clash (field : Option Text) (v : Value) :
    nullableText.clash field v = false := Codec.optional_clash (fun _ _ => rfl) false field v

theorem observability_clash (o : Observability) (v : Value) :
    observabilityCodec.clash o v = false :=
  Record.codec_clash (r := observabilityRecord)
    ⟨rfl, skippedText_clash, rfl, skippedText_clash, rfl, skippedText_clash, rfl,
      Codec.skipping_clash (fun _ _ => rfl) ∅, trivial⟩ _ _ o v

theorem clusterNetwork_clash (n : ClusterNetwork) (v : Value) :
    clusterNetworkCodec.clash n v = false :=
  Record.codec_clash (r := clusterNetworkRecord)
    ⟨rfl, Codec.skipping_clash (fun _ _ => rfl) [], rfl,
      Codec.skipping_clash (fun _ _ => rfl) [], trivial⟩ _ _ n v

theorem cluster_clash (c : Cluster) (v : Value) : clusterCodec.clash c v = false :=
  Record.codec_clash (r := clusterRecord)
    ⟨rfl, skippedText_clash, rfl, fun _ _ => rfl, rfl, nullableText_clash, rfl,
      nullableText_clash, rfl, nullableText_clash, rfl, nullableText_clash, rfl,
      Codec.optional_clash clusterNetwork_clash _, rfl, skippedText_clash, rfl,
      skippedText_clash, rfl, skippedText_clash, rfl, skippedText_clash, rfl,
      fun _ _ => rfl, rfl, skippedText_clash, rfl, nullableText_clash, rfl,
      skippedText_clash, rfl, fun _ _ => rfl, rfl,
      Codec.skipping_clash (fun _ _ => rfl) [], trivial⟩ _ _ c v

end Clash

end PertiskKos.Config
