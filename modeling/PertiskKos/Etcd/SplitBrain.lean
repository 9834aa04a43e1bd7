import PertiskKos.Etcd.Heal

/-!
# At most one node forces a new cluster

A node that joined is not to take the healer's role: neither by a name that ends
like the first control plane's nor by standing first in the list it was given.
Rewriting an address keeps the order of a list, so what holds of the list at the
join holds of it later, unless the rewriting reaches into the host names.
-/

namespace PertiskKos.Etcd

open Strings Runs

/-- Does the node at `index` force a new cluster, when no member sees a leader and
the local etcd answers?  `live` is the address each node detects. -/
def forces (cluster : Cluster) (live : Nat → Text) (index : Nat) : Bool :=
  cluster.nodes[index]?.any fun node =>
    (healDecision node.hostname.text node.initialCluster (live index) node.ipChanged
      true).forces

/-- Whatever addresses the nodes have, at most one of them forces a new cluster. -/
def NoSplitBrain (cluster : Cluster) : Prop :=
  ∀ live left right, forces cluster live left = true →
    forces cluster live right = true → left = right

/-- The node's new address leaves the host names in its list alone. -/
def KeepsNames (node : Node) (newIp : Address) : Prop :=
  replaceIpToken node.hostname.text node.advertise.text newIp.text =
      node.hostname.text ∧
    ∀ member ∈ parseEtcdInitialCluster node.initialCluster,
      replaceIpToken member.1 node.advertise.text newIp.text = member.1

/-- The first node may be renamed: it is the healer anyway. -/
def KeepsNamesAt (cluster : Cluster) (index : Nat) (newIp : Address) : Prop :=
  index = 0 ∨ ∀ node ∈ cluster.nodes[index]?, KeepsNames node newIp

/-- No joining node takes the healer's role: its name does not end like that of a
first control plane, and the entry of some member sorts before its own. -/
def Heeds (cluster : Cluster) : Op → Prop
  | .join joining =>
      healerName joining.name.text = false ∧
        ∃ peer ∈ cluster.peers, peer.entry < joining.entry
  | .rebase index newIp _ => KeepsNamesAt cluster index newIp
  | .reboot index detected _ => ∀ newIp ∈ detected, KeepsNamesAt cluster index newIp
  | .sync _ => True

instance (node : Node) (newIp : Address) : Decidable (KeepsNames node newIp) :=
  inferInstanceAs (Decidable (_ ∧ _))

instance (cluster : Cluster) (index : Nat) (newIp : Address) :
    Decidable (KeepsNamesAt cluster index newIp) :=
  inferInstanceAs (Decidable (_ ∨ _))

instance (cluster : Cluster) (op : Op) : Decidable (Heeds cluster op) :=
  match op with
  | .join _ => inferInstanceAs (Decidable (_ ∧ _))
  | .rebase index newIp _ => inferInstanceAs (Decidable (KeepsNamesAt cluster index newIp))
  | .reboot index detected _ =>
      inferInstanceAs (Decidable (∀ newIp ∈ detected, KeepsNamesAt cluster index newIp))
  | .sync _ => inferInstanceAs (Decidable True)

/-- A node that is not the healer, and whose list says so. -/
structure Follower (node : Node) : Prop where
  name : healerName node.hostname.text = false
  list : ∃ first : Hostname, ListedFirst node.initialCluster first ∧
    first.text ≠ node.hostname.text

theorem Follower.not_healer {node : Node} (hfollower : Follower node) :
    isEtcdHealLeader node.hostname.text node.initialCluster = false := by
  obtain ⟨first, hfirst, hother⟩ := hfollower.list
  rw [Bool.eq_false_iff, ne_eq, isEtcdHealLeader_iff hfirst, hfollower.name]
  simp [hother]

theorem Follower.not_forces {node : Node} (hfollower : Follower node)
    (advertise : Text) (mark localUp : Bool) :
    (healDecision node.hostname.text node.initialCluster advertise mark
      localUp).forces = false := by
  rw [healDecision, hfollower.not_healer]
  rfl

theorem Follower.rebase {node : Node} (hfollower : Follower node) {newIp : Address}
    (hkeeps : KeepsNames node newIp) (vip : Option Text) :
    Follower (rebaseAdvertiseAddress node newIp vip) := by
  unfold rebaseAdvertiseAddress
  cases pickRebaseIp node.advertise.text newIp.text vip with
  | none => exact hfollower
  | some _ =>
      obtain ⟨first, hfirst, hother⟩ := hfollower.list
      obtain ⟨address, rest, hparse⟩ := parse_of_listedFirst hfirst
      have hsame : (first.rewrite node.advertise newIp).text = first.text := by
        have hmember : (first.text, address) ∈
            parseEtcdInitialCluster node.initialCluster := by simp [hparse]
        exact hkeeps.2 _ hmember
      have hname : (node.hostname.rewrite node.advertise newIp).text =
          node.hostname.text := hkeeps.1
      constructor
      · change healerName (node.hostname.rewrite node.advertise newIp).text = false
        rw [hname]
        exact hfollower.name
      · refine ⟨first.rewrite node.advertise newIp, hfirst.rewrite _ _, ?_⟩
        change _ ≠ (node.hostname.rewrite node.advertise newIp).text
        rw [hsame, hname]
        exact hother

theorem Follower.unmark {node : Node} (hfollower : Follower node) :
    Follower { node with ipChanged := false } :=
  ⟨hfollower.name, hfollower.list⟩

theorem Follower.reboot {node : Node} (hfollower : Follower node)
    {detected : Option Address} (hkeeps : ∀ newIp ∈ detected, KeepsNames node newIp)
    (vip : Option Text) : Follower (reboot node detected vip) := by
  cases detected with
  | none => exact hfollower.unmark
  | some newIp => exact hfollower.unmark.rebase (hkeeps newIp rfl) vip

theorem Follower.joined {peers : List Peer} {joining : Peer}
    (hname : healerName joining.name.text = false)
    (hearlier : ∃ peer ∈ peers, peer.entry < joining.entry)
    (hnew : joining.name.text ∉ peers.map fun peer => peer.name.text) :
    Follower (joinedNode peers joining) := by
  obtain ⟨earlier, hmem, hlt⟩ := hearlier
  obtain ⟨first, hfirst, hlisted⟩ := listedFirst_after_add hmem hlt
  refine ⟨hname, first.name, hlisted, ?_⟩
  intro hsame
  exact hnew (List.mem_map.mpr ⟨first, hfirst, hsame⟩)

/-- Every node but the first one is a follower. -/
def OneHealer (cluster : Cluster) : Prop :=
  ∀ index, index ≠ 0 → ∀ node ∈ cluster.nodes[index]?, Follower node

theorem OneHealer.bootstrapped (peer : Peer) : OneHealer (bootstrapped peer) := by
  intro index hindex node hnode
  cases index with
  | zero => exact absurd rfl hindex
  | succ index => simp [Etcd.bootstrapped] at hnode

theorem OneHealer.noSplitBrain {cluster : Cluster} (hone : OneHealer cluster) :
    NoSplitBrain cluster := by
  have hfirst : ∀ live index, forces cluster live index = true → index = 0 := by
    intro live index hforces
    by_contra hindex
    cases hnode : cluster.nodes[index]? with
    | none => simp [forces, hnode] at hforces
    | some node =>
        have hquiet := (hone index hindex node hnode).not_forces (live index)
          node.ipChanged true
        rw [forces, hnode, Option.any_some, hquiet] at hforces
        exact absurd hforces (by decide)
  intro live left right hleft hright
  rw [hfirst live left hleft, hfirst live right hright]

/-- What a step does to one node carries over to the cluster. -/
theorem OneHealer.onNode {cluster next : Cluster} {index : Nat} {act : Node → Node}
    (hone : OneHealer cluster)
    (hact : index ≠ 0 → ∀ node ∈ cluster.nodes[index]?, Follower node →
      Follower (act node))
    (hnext : cluster.onNode index act = some next) : OneHealer next := by
  obtain ⟨node, hnode, rfl⟩ := Option.map_eq_some_iff.mp hnext
  intro other hother found hfound
  by_cases hsame : other = index
  · subst hsame
    have hbound : other < cluster.nodes.length := (List.getElem?_eq_some_iff.mp hnode).1
    have hfoundAct : found = act node := by
      simpa [List.getElem?_set_self hbound, eq_comm] using hfound
    rw [hfoundAct]
    exact hact hother node hnode (hone other hother node hnode)
  · rw [Option.mem_def, List.getElem?_set_ne (Ne.symm hsame)] at hfound
    exact hone other hother found hfound

theorem OneHealer.step {cluster next : Cluster} {op : Op} (hone : OneHealer cluster)
    (hheeds : Heeds cluster op) (hstep : step cluster op = some next) :
    OneHealer next := by
  cases op with
  | join joining =>
      obtain ⟨hnew, rfl⟩ := step_join hstep
      intro index hindex node hnode
      by_cases hbound : index < cluster.nodes.length
      · rw [Option.mem_def, List.getElem?_append_left hbound] at hnode
        exact hone index hindex node hnode
      · rw [Option.mem_def, List.getElem?_append_right (by omega)] at hnode
        rw [List.mem_singleton.mp (List.mem_of_getElem? hnode)]
        exact Follower.joined hheeds.1 hheeds.2 hnew
  | rebase index newIp vip =>
      apply hone.onNode _ hstep
      intro hindex node hnode hfollower
      exact hfollower.rebase (hheeds.resolve_left hindex node hnode) vip
  | reboot index detected vip =>
      apply hone.onNode _ hstep
      intro hindex node hnode hfollower
      exact hfollower.reboot
        (fun newIp hnew => (hheeds newIp hnew).resolve_left hindex node hnode) vip
  | sync index =>
      obtain ⟨node, -, rfl⟩ := Option.map_eq_some_iff.mp hstep
      exact hone

/-- No split brain from self-healing: in a history whose joining nodes leave the
healer's role alone, at most one node forces a new cluster, in whatever situation
without a leader. -/
theorem no_split_brain (peer : Peer) (ops : List Op) (cluster : Cluster)
    (hrun : run step (bootstrapped peer) ops = some cluster)
    (hheeds : Guarded step Heeds (bootstrapped peer) ops) : NoSplitBrain cluster := by
  have hstep : ∀ cluster op next, OneHealer cluster → Heeds cluster op →
      step cluster op = some next → OneHealer next :=
    fun _ _ _ hone hop hnext => hone.step hop hnext
  exact (inv_run hstep (OneHealer.bootstrapped peer) hheeds hrun).noSplitBrain

def labAddress : Address := .ofText "10.0.0.1".toList (Eq.refl true)

def labNewAddress : Address := .ofText "10.0.0.9".toList (Eq.refl true)

def labCp1 : Peer :=
  { id := 1, name := .ofText "lab-cp-1".toList (Eq.refl true), address := labAddress }

def labCp2 : Peer where
  id := 2
  name := .ofText "lab-cp-2".toList (Eq.refl true)
  address := .ofText "10.0.0.2".toList (Eq.refl true)

def labCp10 : Peer where
  id := 3
  name := .ofText "lab-cp-10".toList (Eq.refl true)
  address := .ofText "10.0.0.3".toList (Eq.refl true)

def labOps : List Op := [.join labCp2, .reboot 0 (some labNewAddress) none]

def labCluster : Cluster :=
  (run step (bootstrapped labCp1) labOps).getD (bootstrapped labCp1)

theorem no_split_brain_lab :
    forces labCluster (fun _ => labNewAddress.text) 0 = true ∧
      NoSplitBrain labCluster :=
  ⟨by decide, no_split_brain labCp1 labOps labCluster rfl (by decide)⟩

def splitOps : List Op :=
  [.join labCp2, .join labCp10, .reboot 0 (some labNewAddress) none]

def splitCluster : Cluster :=
  (run step (bootstrapped labCp1) splitOps).getD (bootstrapped labCp1)

/-- In the list of `lab-cp-10` its own entry comes first, since `0` sorts before the
equals sign.  It heals on its own after any full reboot, and `lab-cp-1` heals too once
its address has changed. -/
theorem two_nodes_force :
    ¬ ∀ (peer : Peer) (ops : List Op) (cluster : Cluster),
      run step (bootstrapped peer) ops = some cluster → NoSplitBrain cluster := by
  intro hclaim
  have hrun : run step (bootstrapped labCp1) splitOps = some splitCluster := rfl
  have hsame := hclaim _ _ _ hrun
    (fun index => if index = 0 then labNewAddress.text else labCp10.address.text) 0 2
    (by decide) (by decide)
  exact absurd hsame (by decide)

end PertiskKos.Etcd
