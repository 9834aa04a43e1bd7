import Mathlib
import PertiskKos.Library.Strings

/-!
# The machine configuration

The records of a machine configuration, field by field.  A text is the value of a
YAML string, and an absent optional field is `none`.
-/

namespace PertiskKos.Config

open Strings

def configVersion : Text := "v1alpha1".toList

inductive MachineType where
  | controlplane
  | worker
  deriving DecidableEq, Repr

inductive NetworkMode where
  | ipv4
  | dualStack
  deriving DecidableEq, Repr

inductive CniMode where
  | bridge
  | none
  deriving DecidableEq, Repr

structure KubeletExtraConfig where
  maxPods : Option UInt32
  deriving DecidableEq, Repr

structure MachineKubelet where
  extraConfig : Option KubeletExtraConfig
  deriving DecidableEq, Repr

/-- A map from texts to texts, in the order of its keys. -/
abbrev Labels := Std.ExtTreeMap Text Text compare

structure Observability where
  lokiUrl : Option Text
  lokiToken : Option Text
  prometheusPushUrl : Option Text
  extraLabels : Labels
  deriving DecidableEq

structure Dashboard where
  theme : Option Text
  border : Option Text
  background : Option Text
  cols : Option UInt16
  rows : Option UInt16
  utf8 : Option Bool
  mgmtUrl : Option Text
  deriving DecidableEq, Repr

structure Interface where
  interface : Text
  dhcp : Bool
  addresses : List Text
  gateway : Option Text
  deriving DecidableEq, Repr

structure Network where
  hostname : Option Text
  interfaces : List Interface
  nameservers : List Text
  deriving DecidableEq, Repr

structure Install where
  disk : Text
  wipe : Bool
  deriving DecidableEq, Repr

structure Machine where
  machineType : MachineType
  network : Network
  install : Option Install
  dashboard : Option Dashboard
  kubelet : Option MachineKubelet
  observability : Option Observability
  deriving DecidableEq

structure ClusterNetwork where
  podSubnets : List Text
  serviceSubnets : List Text
  deriving DecidableEq, Repr

structure Cluster where
  name : Option Text
  endpoint : Text
  token : Option Text
  ca : Option Text
  caKey : Option Text
  saKey : Option Text
  network : Option ClusterNetwork
  podSubnet : Option Text
  serviceSubnet : Option Text
  podCidrIpv6 : Option Text
  serviceCidrIpv6 : Option Text
  networkMode : NetworkMode
  vip6 : Option Text
  kubernetesVersion : Option Text
  podCidr : Option Text
  cni : CniMode
  certSans : List Text
  deriving DecidableEq, Repr

structure MachineConfig where
  version : Text
  machine : Machine
  cluster : Option Cluster
  deriving DecidableEq

/-- The built-in look of the console. -/
def Dashboard.builtin : Dashboard where
  theme := some "catppuccin".toList
  border := some "line".toList
  background := none
  cols := none
  rows := none
  utf8 := none
  mgmtUrl := none

def Network.default : Network := { hostname := none, interfaces := [], nameservers := [] }

end PertiskKos.Config
