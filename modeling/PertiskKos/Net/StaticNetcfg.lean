import PertiskKos.Net.ProviderNet

/-!
# A static address and the DHCP client

The address goes to the interface that the configured name is resolved to, and the DHCP
client is stopped under the configured name.
-/

namespace PertiskKos.Net

open Strings Ip Fallible

variable {faults : Faults Site} {lan : Lan}

/-- No DHCP client is registered for an interface, and no lease of it is saved. -/
def Silent (dhcp : DhcpState) (iface : Text) : Prop :=
  iface ∉ dhcp.maintainers ∧ leaseFile iface ∉ dhcp.leaseFiles.map Prod.fst

instance (dhcp : DhcpState) (iface : Text) : Decidable (Silent dhcp iface) :=
  instDecidableAnd

section Frame

variable {dhcp : DhcpState} {nics : List Text}

/-- The DHCP client and the interfaces are as given. -/
def Same (dhcp : DhcpState) (nics : List Text) (node : NodeNet) : Prop :=
  node.dhcp = dhcp ∧ node.nics = nics

theorem addNicAddress_keeps (name cidr : Text) :
    Keeps faults (Same dhcp nics) (addNicAddress name cidr) := by
  rw [addNicAddress]
  split
  · exact Keeps.stop _
  · exact Keeps.attempt (fun _ => id) fun _ => id

theorem addDefaultRoute_keeps (gateway : Text) :
    Keeps faults (Same dhcp nics) (addDefaultRoute gateway) := by
  rw [addDefaultRoute]
  split
  · exact Keeps.stop _
  · exact Keeps.guardSite _ _

theorem applyStatic_keeps (name : Text) (iface : Config.Interface) :
    Keeps faults (Same dhcp nics) (applyStatic name iface) := by
  apply Keeps.bind (Keeps.forM fun cidr _ => addNicAddress_keeps name cidr)
  intro _
  cases iface.gateway with
  | none => exact Keeps.pure _
  | some gateway => exact addDefaultRoute_keeps gateway

theorem resolve_keeps (configured : Text) :
    Keeps faults (Same dhcp nics) (resolve configured) := by
  apply Keeps.bind (Keeps.guardSite _ _)
  intro _
  apply Keeps.bind (Keeps.inspect _)
  intro found
  cases found with
  | some name => exact Keeps.pure _
  | none => exact Keeps.stop _

theorem applyInterface_keeps {iface : Config.Interface} (hstatic : iface.dhcp = false) :
    Keeps faults (Same dhcp nics) (applyInterface lan iface) := by
  apply Keeps.bind (Triple.outcome (resolve_keeps iface.interface))
  intro result
  cases result with
  | error _ => exact Keeps.pure _
  | ok name =>
      apply Keeps.bind (Keeps.guardSite _ _)
      intro _
      rw [hstatic]
      exact applyStatic_keeps name iface

theorem applyNetwork_keeps {network : Config.Network}
    (hstatic : ∀ iface ∈ network.interfaces, iface.dhcp = false) :
    Keeps faults (Same dhcp nics) (applyNetwork lan network) := by
  apply Keeps.bind (Keeps.forM fun iface hiface => applyInterface_keeps (hstatic iface hiface))
  intro _
  exact Keeps.whenever (Keeps.guardSite _ _)

end Frame

section Received

variable {name cidr configured : Text} {gateway : Option Text}

/-- The record's interface. -/
def staticInterface (configured cidr : Text) (gateway : Option Text) : Config.Interface where
  interface := configured
  dhcp := false
  addresses := [cidr]
  gateway := gateway

/-- The address is on the interface. -/
def Received (name cidr : Text) (node : NodeNet) : Prop := cidr ∈ node.addresses name

instance (name cidr : Text) (node : NodeNet) : Decidable (Received name cidr node) :=
  inferInstanceAs (Decidable (cidr ∈ node.addresses name))

theorem addNicAddress_received :
    Triple faults (fun _ => True) (addNicAddress name cidr) (fun _ => Received name cidr)
      fun _ _ => True := by
  rw [addNicAddress]
  split
  · exact Triple.stop fun _ => id
  · apply Triple.attempt
    · intro _ node _
      simp [Received, NodeNet.setAddresses]
    · exact fun _ _ => id
    · exact fun _ _ => id

theorem applyStatic_received :
    Triple faults (fun _ => True) (applyStatic name (staticInterface configured cidr gateway))
      (fun _ => Received name cidr) fun _ _ => True := by
  have hkeeps : ∀ prog : Task Unit, Keeps faults (Received name cidr) prog →
      Triple faults (Received name cidr) prog (fun _ => Received name cidr)
        fun _ _ => True :=
    fun _ hprog => hprog.weaken (fun _ => id) (fun _ _ => id) fun _ _ _ => trivial
  apply Triple.bind fun _ => Received name cidr
  · apply Triple.bind fun _ => Received name cidr
    · exact addNicAddress_received
    · exact fun _ => Triple.pure fun _ => id
  · intro _
    cases gateway with
    | none => exact Triple.pure fun _ => id
    | some gateway =>
        apply hkeeps
        change Keeps faults _ (addDefaultRoute gateway)
        rw [addDefaultRoute]
        exact Keeps.ite (Keeps.stop _) (Keeps.guardSite _ _)

/-- The address goes to the interface that the configured name is resolved to. -/
theorem applyInterface_received (hlisted : faults .listInterfaces = none) :
    Triple faults (fun node => resolveIface node.nics configured = some name)
      (applyInterface lan (staticInterface configured cidr gateway))
      (fun _ => Received name cidr) fun _ _ => True := by
  intro node hresolve
  have hresolved : resolve configured faults node = .ok name node := by
    rw [resolve, bind_apply, guardSite_of_quiet faults node hlisted]
    simp only [bind_apply, inspect_apply, hresolve]
    rfl
  have hfound : outcome (resolve configured) faults node =
      (.ok (.ok name) node : EStateM.Result NetError NodeNet (Except NetError Text)) := by
    rw [outcome_apply, hresolved]
  have hrun : applyInterface lan (staticInterface configured cidr gateway) faults node =
      (guardSite Site.setLinkUp NetError.msg >>= fun _ =>
        applyStatic name (staticInterface configured cidr gateway)) faults node := by
    have hname : (staticInterface configured cidr gateway).interface = configured := rfl
    rw [applyInterface, bind_apply, hname, hfound]
    rfl
  rw [hrun]
  have htriple : Triple faults (fun _ => True)
      (guardSite Site.setLinkUp NetError.msg >>= fun _ =>
        applyStatic name (staticInterface configured cidr gateway))
      (fun _ => Received name cidr) fun _ _ => True := by
    apply Triple.bind fun _ _ => True
    · exact Triple.always (fun _ _ => trivial) fun _ _ => trivial
    · exact fun _ => applyStatic_received
  exact htriple node trivial

end Received

section Silence

/-- What is left of the DHCP client's state once it was silenced under a name. -/
def silenced (faults : Faults Site) (dhcp : DhcpState) (iface : Text) : DhcpState :=
  if dhcp.leaseDirSet = true ∧ faults .removeLease = none then
    (dhcp.stop iface).removeFile (leaseFile iface)
  else dhcp.stop iface

theorem removeFile_of_notMem {dhcp : DhcpState} {file : Text}
    (hfile : file ∉ dhcp.leaseFiles.map Prod.fst) : dhcp.removeFile file = dhcp := by
  have hkeep : dhcp.leaseFiles.filter (fun entry => entry.1 ≠ file) = dhcp.leaseFiles := by
    rw [List.filter_eq_self]
    intro entry hentry
    rw [decide_eq_true_eq]
    rintro rfl
    exact hfile (List.mem_map_of_mem hentry)
  rw [DhcpState.removeFile, hkeep]

theorem silence_run (iface : Config.Interface) (node : NodeNet) :
    silence iface faults node =
      .ok () (node.mapDhcp fun dhcp => silenced faults dhcp iface.interface) := by
  have hstop : silence iface faults node =
      clearPersistedLease iface.interface faults (node.mapDhcp (·.stop iface.interface)) := by
    rw [silence, bind_apply, stopMaintainer, change_apply]
  rw [hstop, clearPersistedLease, bind_apply, inspect_apply]
  simp only [NodeNet.mapDhcp, silenced, DhcpState.stop]
  cases hset : node.dhcp.leaseDirSet with
  | false => simp [whenever]
  | true =>
      by_cases hfile : leaseFile iface.interface ∈ node.dhcp.leaseFiles.map Prod.fst
      · have hcontains : (node.dhcp.leaseFiles.map Prod.fst).contains
            (leaseFile iface.interface) = true := List.contains_iff_mem.mpr hfile
        rw [hcontains, Bool.and_true, whenever_true, ignore_apply]
        cases hfault : faults .removeLease with
        | none => simp [attempt, hfault]
        | some fault => cases fault <;> simp [attempt, hfault]
      · have hcontains : (node.dhcp.leaseFiles.map Prod.fst).contains
            (leaseFile iface.interface) = false := by
          rw [Bool.eq_false_iff]
          exact fun hmem => hfile (List.contains_iff_mem.mp hmem)
        rw [hcontains, Bool.and_false, whenever_false]
        split
        · rw [removeFile_of_notMem]
          · rfl
          · exact hfile
        · rfl

/-- Silenced under one name, the client is silent on an interface exactly when nothing is
registered for it under another name, and nothing is left of its lease. -/
theorem silent_silenced_iff (dhcp : DhcpState) (configured name : Text) :
    Silent (silenced faults dhcp configured) name ↔
      (name = configured ∨ name ∉ dhcp.maintainers) ∧
        (leaseFile name ∉ dhcp.leaseFiles.map Prod.fst ∨
          leaseFile name = leaseFile configured ∧ dhcp.leaseDirSet = true ∧
            faults .removeLease = none) := by
  have hmaintainers : name ∉ (silenced faults dhcp configured).maintainers ↔
      name = configured ∨ name ∉ dhcp.maintainers := by
    have hkept : (silenced faults dhcp configured).maintainers =
        dhcp.maintainers.filter (· ≠ configured) := by
      rw [silenced]
      split <;> rfl
    rw [hkept, List.mem_filter, decide_eq_true_eq]
    tauto
  rw [Silent, hmaintainers]
  apply and_congr_right
  intro _
  rw [silenced]
  split
  · next hremoved =>
      have hgone : leaseFile name ∉
          ((dhcp.stop configured).removeFile (leaseFile configured)).leaseFiles.map Prod.fst ↔
          leaseFile name ∉ dhcp.leaseFiles.map Prod.fst ∨
            leaseFile name = leaseFile configured := by
        simp only [DhcpState.removeFile, DhcpState.stop, List.mem_map, List.mem_filter,
          decide_eq_true_eq, not_exists, not_and]
        constructor
        · intro hnone
          by_cases hsame : leaseFile name = leaseFile configured
          · exact .inr hsame
          · exact .inl fun entry hentry hfile =>
              hnone entry ⟨hentry, hfile ▸ hsame⟩ hfile
        · rintro (hnone | hsame) entry ⟨hentry, hne⟩ hfile
          · exact hnone entry hentry hfile
          · exact hne (hfile.trans hsame)
      rw [hgone]
      tauto
  · next hkept =>
      change leaseFile name ∉ dhcp.leaseFiles.map Prod.fst ↔ _
      tauto

end Silence

section Netcfg

variable {cfg : ProviderNetcfg} {scan : Nat → Option ProviderNetcfg} {attempts : Nat}
variable {node after : NodeNet} {configured cidr name : Text} {gateway : Option Text}

/-- The steps of an application that found a record. -/
theorem applyAttempts_ok (hload : load attempts scan = some cfg)
    (hsingle : cfg.network.interfaces = [staticInterface configured cidr gateway])
    (hrun : applyAttempts lan attempts scan faults node = .ok true after) :
    ∃ before middle, Same node.dhcp node.nics before ∧
      applyNetwork lan cfg.network faults before = .ok () middle ∧
      after = middle.mapDhcp fun dhcp => silenced faults dhcp configured := by
  rw [applyAttempts, hload] at hrun
  simp only [bind_apply] at hrun
  have hdual : ∃ before, Same node.dhcp node.nics before ∧
      whenever cfg.dualStack (change fun node => { node with ipv6Enabled := true }) faults
        node = (.ok () before : EStateM.Result NetError NodeNet Unit) := by
    cases cfg.dualStack with
    | false => exact ⟨node, ⟨rfl, rfl⟩, rfl⟩
    | true => exact ⟨{ node with ipv6Enabled := true }, ⟨rfl, rfl⟩, rfl⟩
  obtain ⟨before, hsame, hbefore⟩ := hdual
  rw [hbefore] at hrun
  simp only at hrun
  cases hnetwork : applyNetwork lan cfg.network faults before with
  | error err middle =>
      rw [hnetwork] at hrun
      cases hrun
  | ok _ middle =>
      rw [hnetwork, hsingle] at hrun
      simp only [List.forM_eq_forM, List.forM_cons, List.forM_nil, bind_apply, silence_run,
        pure_apply] at hrun
      cases hrun
      exact ⟨before, middle, hsame, hnetwork, rfl⟩

/-- After an application that found a record, the address is on the interface that the
configured name was resolved to; and the DHCP client is silent on that interface exactly
when it is the configured one or nothing was registered for it, and it had no saved lease
or the lease file of the configured name is the same one and was removed. -/
theorem netcfg_silent_iff (hload : load attempts scan = some cfg)
    (hsingle : cfg.network.interfaces = [staticInterface configured cidr gateway])
    (hlisted : faults .listInterfaces = none)
    (hresolve : resolveIface node.nics configured = some name)
    (hrun : applyAttempts lan attempts scan faults node = .ok true after) :
    Received name cidr after ∧
      (Silent after.dhcp name ↔
        (name = configured ∨ name ∉ node.dhcp.maintainers) ∧
          (leaseFile name ∉ node.dhcp.leaseFiles.map Prod.fst ∨
            leaseFile name = leaseFile configured ∧ node.dhcp.leaseDirSet = true ∧
              faults .removeLease = none)) := by
  obtain ⟨before, middle, hsame, hnetwork, rfl⟩ := applyAttempts_ok hload hsingle hrun
  have hstatic : ∀ iface ∈ cfg.network.interfaces, iface.dhcp = false := by
    rw [hsingle]
    intro iface hiface
    rw [List.mem_singleton.mp hiface]
    rfl
  have hkept : Same node.dhcp node.nics middle :=
    (applyNetwork_keeps hstatic).of_ok hsame hnetwork
  have hreceived : Triple faults (fun node => resolveIface node.nics configured = some name)
      (applyNetwork lan cfg.network) (fun _ => Received name cidr) fun _ _ => True := by
    rw [applyNetwork, hsingle]
    apply Triple.bind fun _ => Received name cidr
    · apply Triple.bind fun _ => Received name cidr
      · exact applyInterface_received hlisted
      · exact fun _ => Triple.pure fun _ => id
    · intro _
      exact (Keeps.whenever (Keeps.guardSite _ _)).weaken (fun _ => id) (fun _ _ => id)
        fun _ _ _ => trivial
  constructor
  · change Received name cidr middle
    exact hreceived.of_ok (by rw [hsame.2]; exact hresolve) hnetwork
  · rw [← silent_silenced_iff]
    change Silent (silenced faults middle.dhcp configured) name ↔ _
    rw [hkept.1]

end Netcfg

section Lab

/-- The record of a provider's disk that names no interface. -/
def labNetcfg : ProviderNetcfg where
  network :=
    { hostname := none
      interfaces :=
        [staticInterface "eth0".toList "10.1.1.124/24".toList (some "10.1.1.1".toList)]
      nameservers := [] }
  dualStack := false
  single := ⟨_, _, _, rfl⟩

/-- A node with one interface that runs on a DHCP lease. -/
def labNode (nic : Text) : NodeNet where
  nics := [nic]
  addresses := fun iface => if iface = nic then ["10.1.1.57/24".toList] else []
  ipv6Enabled := false
  dhcp :=
    { maintainers := [nic]
      seeded := []
      leaseDirSet := true
      leaseFiles := [(leaseFile nic, some ⟨10, 1, 1, 57⟩)] }

/-- The node once the record was applied. -/
def labApplied (nic : Text) : NodeNet :=
  ((labNode nic).setAddresses nic
    ["10.1.1.57/24".toList, "10.1.1.124/24".toList]).mapDhcp
      fun dhcp => silenced calm dhcp "eth0".toList

theorem netcfg_silent_lab : Silent (labApplied "eth0".toList).dhcp "eth0".toList :=
  (@netcfg_silent_iff calm (fun _ => none) labNetcfg (fun _ => some labNetcfg) 1
    (labNode "eth0".toList) (labApplied "eth0".toList) "eth0".toList "10.1.1.124/24".toList
    "eth0".toList (some "10.1.1.1".toList) rfl rfl rfl (by decide) rfl).2.mpr (by decide)

/-- On a node whose interface has another name, the address goes to that interface, its
client stays registered and its lease stays saved. -/
theorem renamed_nic_not_silent :
    applyAttempts (fun _ => none) 1 (fun _ => some labNetcfg) calm
        (labNode "ens3".toList) = .ok true (labApplied "ens3".toList) ∧
      Received "ens3".toList "10.1.1.124/24".toList (labApplied "ens3".toList) ∧
      "ens3".toList ∈ (labApplied "ens3".toList).dhcp.maintainers ∧
      ¬ Silent (labApplied "ens3".toList).dhcp "ens3".toList :=
  ⟨rfl, by decide, by decide, by decide⟩

end Lab

end PertiskKos.Net
