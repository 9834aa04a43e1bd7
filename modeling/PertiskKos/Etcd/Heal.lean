import PertiskKos.Etcd.Manifest
import PertiskKos.Library.Runs

/-!
# The control plane and its self-healing

Each node keeps what it was started with: its name, its advertise address and the
initial cluster of its manifest.  Joining adds a row to etcd's member list and a
node with a list of its own; a new address rewrites one node's list.  A node that
sees no leader decides alone, from these data, whether to force a new cluster.
-/

namespace PertiskKos.Etcd

open Strings

/-- What heal reports, or the command it goes on to run. -/
inductive HealDecision where
  | done (message : String)
  | failed (message : String)
  | forceNewCluster (name advertise : Text)
  deriving DecidableEq, Repr

def HealDecision.forces : HealDecision → Bool
  | .forceNewCluster _ _ => true
  | _ => false

/-- The decision of a node that has waited for a leader in vain. -/
def healDecision (name initial advertise : Text) (ipChangedMark localUp : Bool) :
    HealDecision :=
  let memberCount := (parseEtcdInitialCluster initial).length
  if !isEtcdHealLeader name initial then
    .done ("etcd has no leader; " ++ String.ofList name ++
      " waits for *-cp-1 to recover")
  else
    let ipChanged := ipChangedMark || !initialClusterContainsIp initial advertise
    if !shouldForceNewCluster memberCount ipChanged localUp then
      if !localUp then .done "skip force-new-cluster: local etcd :2379 is not up"
      else .done ("skip force-new-cluster: 2-member initial-cluster with stable IP " ++
        "(likely in-progress control-plane join, not a full HA reboot)")
    else .forceNewCluster name advertise

/-- A control plane node, as its own disk describes it. -/
structure Node where
  hostname : Hostname
  advertise : Address
  initialCluster : Text
  initialClusterState : Text
  ipChanged : Bool

def Node.params (node : Node) : StaticPodParams where
  advertiseIp := node.advertise.text
  hostname := node.hostname.text
  etcdImage := defaultEtcdImage
  pkiHostPath := defaultPkiHostPath
  etcdInitialCluster := node.initialCluster
  etcdInitialClusterState := node.initialClusterState

def Node.manifest (node : Node) : Text := etcdPod node.params

def bootstrappedNode (peer : Peer) : Node where
  hostname := peer.name
  advertise := peer.address
  initialCluster := peer.entry
  initialClusterState := "new".toList
  ipChanged := false

def joinedNode (peers : List Peer) (joining : Peer) : Node where
  hostname := joining.name
  advertise := joining.address
  initialCluster := initialClusterFromMembers (memberListAfterAdd peers joining)
    joining.name.text (peerUrl joining.address.text)
  initialClusterState := "existing".toList
  ipChanged := false

/-- Should `detected` replace `stored` as the node's advertise address? -/
def pickRebaseIp (stored detected : Text) (vip : Option Text) : Option Text :=
  let stored := trim stored
  let detected := trim detected
  if detected = [] ∨ detected = stored then none
  else if vip.any fun vip => trim vip ≠ [] ∧ trim vip = detected then none
  else some detected

/-- Rewrite the manifest for a new address and leave the mark for heal. -/
def rebaseAdvertiseAddress (node : Node) (newIp : Address) (vip : Option Text) : Node :=
  match pickRebaseIp node.advertise.text newIp.text vip with
  | none => node
  | some _ =>
      { node with
        hostname := node.hostname.rewrite node.advertise newIp
        advertise := newIp
        initialCluster :=
          replaceIpToken node.initialCluster node.advertise.text newIp.text
        ipChanged := true }

/-- A boot clears the mark, which is kept in memory only, and then looks for a new
address. -/
def reboot (node : Node) (detected : Option Address) (vip : Option Text) : Node :=
  let node := { node with ipChanged := false }
  match detected with
  | none => node
  | some newIp => rebaseAdvertiseAddress node newIp vip

/-- etcd's member list and the nodes, in the order they came. -/
structure Cluster where
  peers : List Peer
  nodes : List Node

def bootstrapped (peer : Peer) : Cluster :=
  { peers := [peer], nodes := [bootstrappedNode peer] }

inductive Op where
  | join (joining : Peer)
  | rebase (index : Nat) (newIp : Address) (vip : Option Text)
  | reboot (index : Nat) (detected : Option Address) (vip : Option Text)
  /-- Heal finds a leader and updates the peer URL of its own member. -/
  | sync (index : Nat)

def Peer.sync (node : Node) (peer : Peer) : Peer :=
  if peer.name.text = node.hostname.text then { peer with address := node.advertise }
  else peer

/-- Replace one node by what `act` makes of it. -/
def Cluster.onNode (cluster : Cluster) (index : Nat) (act : Node → Node) :
    Option Cluster :=
  cluster.nodes[index]?.map fun node =>
    { cluster with nodes := cluster.nodes.set index (act node) }

/-- One step of a cluster's history; host names are never used twice. -/
def step (cluster : Cluster) : Op → Option Cluster
  | .join joining =>
      if joining.name.text ∈ cluster.peers.map fun peer => peer.name.text then none
      else some
        { peers := cluster.peers ++ [joining]
          nodes := cluster.nodes ++ [joinedNode cluster.peers joining] }
  | .rebase index newIp vip =>
      cluster.onNode index fun node => rebaseAdvertiseAddress node newIp vip
  | .reboot index detected vip =>
      cluster.onNode index fun node => reboot node detected vip
  | .sync index =>
      cluster.nodes[index]?.map fun node =>
        { cluster with peers := cluster.peers.map (Peer.sync node) }

/-- What a join does, and when it is possible. -/
theorem step_join {cluster next : Cluster} {joining : Peer}
    (hstep : step cluster (.join joining) = some next) :
    joining.name.text ∉ cluster.peers.map (fun peer => peer.name.text) ∧
      next =
        { peers := cluster.peers ++ [joining]
          nodes := cluster.nodes ++ [joinedNode cluster.peers joining] } := by
  by_cases hused : joining.name.text ∈ cluster.peers.map fun peer => peer.name.text
  · rw [step, if_pos hused] at hstep
    cases hstep
  · rw [step, if_neg hused] at hstep
    exact ⟨hused, (Option.some.inj hstep).symm⟩

end PertiskKos.Etcd
