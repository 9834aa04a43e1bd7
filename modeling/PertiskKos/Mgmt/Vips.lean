import PertiskKos.Mgmt.LanIp

/-!
# Checking the addresses of a new cluster

The virtual addresses of a cluster are compared with those of the other clusters, with the
addresses of their nodes and with the providers.  Clusters that are being deleted do not
count.  What is in a table may be written in any way, and is found if it is written in one of
those that the comparison reads.
-/

namespace PertiskKos.LanIp

open Strings Ip Addresses

section Code

structure ClusterRow where
  id : Text
  name : Text
  status : Text
  vip : Option Text
  vip6 : Option Text
  endpoint : Option Text
  deriving DecidableEq, Repr

structure NodeRow where
  name : Text
  role : Text
  ip : Option Text
  ip6 : Option Text
  clusterId : Text
  deriving DecidableEq, Repr

structure Database where
  clusters : List ClusterRow
  nodes : List NodeRow
  /-- The URLs of the providers, if they can be read. -/
  urls : Option (List Text)
  deriving DecidableEq, Repr

structure VipConflict where
  address : Text
  reason : Text
  clusterId : Option Text
  clusterName : Option Text
  deriving DecidableEq, Repr

structure VipCheck where
  ok : Bool
  message : Text
  conflicts : List VipConflict
  deriving DecidableEq, Repr

/-- What the check finds: the tables, the guests of the hypervisors, and which addresses
answer. -/
structure Surroundings where
  database : Database
  hypervisorIps : List Text
  inUse : Text → Bool

def ClusterRow.live (row : ClusterRow) : Bool :=
  row.status ∉ ["deleting".toList, "deleted".toList]

/-- `status NOT IN (…) AND (? IS NULL OR id != ?)` -/
def Database.clusterVips (db : Database) (exclude : Option Text) : List ClusterRow :=
  db.clusters.filter fun row => row.live && exclude ≠ some row.id

/-- Nodes with the clusters that they are joined to. -/
def Database.nodeRows (db : Database) : List (NodeRow × ClusterRow) :=
  db.nodes.flatMap fun node =>
    (db.clusters.filter fun row => row.id = node.clusterId && row.live).map fun row => (node, row)

variable (addr : Text)

def clusterConflicts (row : ClusterRow) : List VipConflict :=
  (if row.vip.any (ipsEqual addr) || row.vip6.any (ipsEqual addr) then
    [{ address := addr
       reason := "claimed as VIP by cluster ".toList ++ row.name ++ " (".toList ++ row.status ++
         [')']
       clusterId := some row.id
       clusterName := some row.name }] else []) ++
  if row.endpoint.any (ipsEqual addr) then
    [{ address := addr
       reason := "cluster ".toList ++ row.name ++ " API endpoint (".toList ++ row.status ++ [')']
       clusterId := some row.id
       clusterName := some row.name }] else []

def nodeConflicts (row : NodeRow × ClusterRow) : List VipConflict :=
  if row.1.ip.any (ipsEqual addr) || row.1.ip6.any (ipsEqual addr) then
    [{ address := addr
       reason := "used by cluster node ".toList ++ row.1.name ++ " (".toList ++ row.1.role ++
         ") on ".toList ++ row.2.name
       clusterId := some row.2.id
       clusterName := some row.2.name }] else []

def urlConflicts (url : Text) : List VipConflict :=
  match ipFromProviderUrl url with
  | none => []
  | some hip =>
      if ipsEqual addr hip then
        [{ address := addr
           reason := "this is a provider/hypervisor address (".toList ++ hip ++ [')']
           clusterId := none
           clusterName := none }] else []

/-- All conflicts of an address.  A guest or an answer on the LAN is told only if nothing has
been named that explains it. -/
def conflictsOf (env : Surroundings) (exclude : Option Text) : List VipConflict :=
  let clusters := (env.database.clusterVips exclude).flatMap (clusterConflicts addr)
  let nodes := env.database.nodeRows.flatMap (nodeConflicts addr)
  let urls := (env.database.urls.getD []).flatMap (urlConflicts addr)
  let named := !nodes.isEmpty || !urls.isEmpty
  let guest := env.hypervisorIps.any (ipsEqual addr)
  clusters ++ nodes ++ urls ++
    (if guest && !named then
      [{ address := addr
         reason := "in use by a hypervisor VM (cluster node or leftover guest)".toList
         clusterId := none
         clusterName := none }] else []) ++
    if env.inUse addr && !(named || guest) then
      [{ address := addr
         reason := "in use on the LAN (ICMP or TCP — likely a cluster node)".toList
         clusterId := none
         clusterName := none }] else []

def invalidCheck : VipCheck where
  ok := false
  message := "VIP not available — ".toList ++ addr ++
    ": not a valid IP address (IPv4 octets must be 0–255)".toList
  conflicts :=
    [{ address := addr, reason := "invalid IP address".toList, clusterId := none,
       clusterName := none }]

def checkAddresses (env : Surroundings) (exclude : Option Text) :
    List Text → Except VipCheck (List VipConflict)
  | [] => .ok []
  | addr :: rest =>
      if parseIpAddr addr = none then .error (invalidCheck addr)
      else (checkAddresses env exclude rest).map (conflictsOf addr env exclude ++ ·)

def validateVips (env : Surroundings) (vip vip6 exclude : Option Text) : VipCheck :=
  let addresses := vip.toList ++ vip6.toList
  match checkAddresses env exclude addresses with
  | .error check => check
  | .ok conflicts =>
      { ok := conflicts.isEmpty
        message :=
          if conflicts.isEmpty then
            "VIP OK (".toList ++
              ", ".toList.intercalate (addresses.map (· ++ " free".toList)) ++ [')']
          else
            "VIP not available — ".toList ++
              "; ".toList.intercalate
                (conflicts.map fun c => c.address ++ ": ".toList ++ c.reason)
        conflicts := conflicts }

end Code

section Checked

variable {env : Surroundings} {exclude : Option Text}

theorem checkAddresses_error {addresses : List Text} {check : VipCheck}
    (hcheck : checkAddresses env exclude addresses = .error check) : check.ok = false := by
  induction addresses with
  | nil => cases hcheck
  | cons first rest ih =>
      rw [checkAddresses] at hcheck
      split at hcheck
      · rw [← Except.error.inj hcheck]
        rfl
      · cases hrest : checkAddresses env exclude rest with
        | error later =>
            rw [hrest] at hcheck
            exact ih (hrest.trans hcheck)
        | ok later =>
            rw [hrest] at hcheck
            cases hcheck

theorem checkAddresses_ok {addresses : List Text}
    (hcheck : checkAddresses env exclude addresses = .ok []) :
    ∀ addr ∈ addresses,
      (∃ ip, parseIpAddr addr = some ip) ∧ conflictsOf addr env exclude = [] := by
  induction addresses with
  | nil => exact List.forall_mem_nil _
  | cons first rest ih =>
      rw [checkAddresses] at hcheck
      split at hcheck
      · cases hcheck
      · next hread =>
          cases hrest : checkAddresses env exclude rest with
          | error check =>
              rw [hrest] at hcheck
              cases hcheck
          | ok later =>
              rw [hrest] at hcheck
              obtain ⟨hfirst, rfl⟩ := List.append_eq_nil_iff.mp (Except.ok.inj hcheck)
              exact List.forall_mem_cons.mpr
                ⟨⟨Option.ne_none_iff_exists'.mp hread, hfirst⟩, ih hrest⟩

/-- What a check that is ok has checked are addresses without conflicts. -/
theorem conflictsOf_eq_nil {vip vip6 : Option Text}
    (hok : (validateVips env vip vip6 exclude).ok = true) :
    ∀ addr ∈ vip.toList ++ vip6.toList,
      (∃ ip, parseIpAddr addr = some ip) ∧ conflictsOf addr env exclude = [] := by
  rw [validateVips] at hok
  cases hcheck : checkAddresses env exclude (vip.toList ++ vip6.toList) with
  | error check =>
      simp only [hcheck, checkAddresses_error hcheck] at hok
      cases hok
  | ok conflicts =>
      simp only [hcheck] at hok
      rw [List.isEmpty_iff.mp hok] at hcheck
      exact checkAddresses_ok hcheck

/-- What a row gives to something else: the columns of clusters that are not being deleted and
not left out, and those of the nodes of clusters that are not being deleted. -/
inductive Given (db : Database) (exclude : Option Text) : Text → Prop where
  | cluster {row : ClusterRow} (hrow : row ∈ db.clusters) (hlive : row.live = true)
      (hother : exclude ≠ some row.id) {text : Text}
      (htext : text ∈ row.vip.toList ++ row.vip6.toList ++ row.endpoint.toList) :
      Given db exclude text
  | node {node : NodeRow} {row : ClusterRow} (hnode : node ∈ db.nodes)
      (hrow : row ∈ db.clusters) (hcluster : row.id = node.clusterId) (hlive : row.live = true)
      {text : Text} (htext : text ∈ node.ip.toList ++ node.ip6.toList) : Given db exclude text

variable {addr text : Text}

theorem any_of_mem {column : Option Text} (htext : text ∈ column.toList)
    (hequal : ipsEqual addr text = true) : column.any (ipsEqual addr) = true := by
  rw [Option.mem_toList.mp htext]
  exact hequal

theorem conflict_of_given (hgiven : Given env.database exclude text)
    (hequal : ipsEqual addr text = true) : conflictsOf addr env exclude ≠ [] := by
  intro hnil
  rw [conflictsOf] at hnil
  simp only [List.append_eq_nil_iff] at hnil
  obtain ⟨⟨⟨⟨hclusters, hnodes⟩, -⟩, -⟩, -⟩ := hnil
  cases hgiven with
  | @cluster row hrow hlive hother text htext =>
      have hmem : row ∈ env.database.clusterVips exclude :=
        List.mem_filter.mpr ⟨hrow, by simp [hlive, hother]⟩
      have hrowNil := List.flatMap_eq_nil_iff.mp hclusters row hmem
      rw [clusterConflicts, List.append_eq_nil_iff] at hrowNil
      obtain ⟨hvips, hendpoint⟩ := hrowNil
      simp only [List.mem_append] at htext
      rcases htext with (h | h) | h
      · rw [any_of_mem h hequal] at hvips
        cases hvips
      · rw [any_of_mem h hequal, Bool.or_true] at hvips
        cases hvips
      · rw [any_of_mem h hequal] at hendpoint
        cases hendpoint
  | @node node row hnode hrow hcluster hlive text htext =>
      have hmem : (node, row) ∈ env.database.nodeRows :=
        List.mem_flatMap.mpr ⟨node, hnode, List.mem_map.mpr
          ⟨row, List.mem_filter.mpr ⟨hrow, by simp [hlive, hcluster]⟩, rfl⟩⟩
      have hrowNil := List.flatMap_eq_nil_iff.mp hnodes (node, row) hmem
      rw [nodeConflicts] at hrowNil
      rcases List.mem_append.mp htext with h | h
      · rw [any_of_mem h hequal] at hrowNil
        cases hrowNil
      · rw [any_of_mem h hequal, Bool.or_true] at hrowNil
        cases hrowNil

theorem conflict_of_url {urls : List Text} {url host : Text} (hurls : env.database.urls = some urls)
    (hurl : url ∈ urls) (hhost : ipFromProviderUrl url = some host)
    (hequal : ipsEqual addr host = true) : conflictsOf addr env exclude ≠ [] := by
  intro hnil
  rw [conflictsOf] at hnil
  simp only [List.append_eq_nil_iff] at hnil
  obtain ⟨⟨⟨⟨-, -⟩, hproviders⟩, -⟩, -⟩ := hnil
  rw [hurls] at hproviders
  have hurlNil := List.flatMap_eq_nil_iff.mp hproviders url hurl
  rw [urlConflicts, hhost] at hurlNil
  simp only [hequal, if_true] at hurlNil
  cases hurlNil

end Checked

/-- An address that nothing else has: no column gives it in a spelling that is read, and no
URL of a provider is a URL of it that is read. -/
structure Free (env : Surroundings) (exclude : Option Text) (ip : IpAddr) : Prop where
  not_given : ∀ spelling : Spelling ip, spelling.Understood →
    ¬ Given env.database exclude spelling.text
  no_provider : ∀ urls, env.database.urls = some urls → ∀ scheme literal port path,
    isV6 ip = false → (.url scheme literal port path : Spelling ip).text ∉ urls

/-- Equality of texts is an equivalence on those that are not blank, makes all spellings of an
address equal that are read, and none of different addresses.  So a check that is ok leaves
both addresses to the new cluster. -/
theorem spellings_agree :
    (∀ a, trim a ≠ [] → ipsEqual a a = true) ∧
    (∀ a b, ipsEqual a b = true → ipsEqual b a = true) ∧
    (∀ a b c, ipsEqual a b = true → ipsEqual b c = true → ipsEqual a c = true) ∧
    (∀ (ip : IpAddr) (first second : Spelling ip), first.Understood → second.Understood →
      ipsEqual first.text second.text = true) ∧
    (∀ (ip other : IpAddr) (first : Spelling ip) (second : Spelling other),
      ipsEqual first.text second.text = true → ip = other) ∧
    ∀ env vip vip6 exclude, (validateVips env vip vip6 exclude).ok = true →
      ∀ addr ∈ vip.toList ++ vip6.toList, ∃ ip, parseIpAddr addr = some ip ∧
        Free env exclude ip := by
  refine ⟨fun a => ipsEqual_refl, fun a b => ipsEqual_symm, fun a b c => ipsEqual_trans,
    fun ip first second => ipsEqual_of_understood, fun ip other first second => eq_of_ipsEqual,
    ?_⟩
  intro env vip vip6 exclude hok addr haddr
  obtain ⟨⟨ip, hip⟩, hnone⟩ := conflictsOf_eq_nil hok addr haddr
  have hplain : ∀ spelling : Spelling ip, spelling.Understood →
      ipsEqual addr spelling.text = true := fun spelling hunderstood =>
    @ipsEqual_of_understood ip (.plain ⟨addr, hip⟩) spelling trivial hunderstood
  refine ⟨ip, hip, fun spelling hunderstood hgiven =>
    conflict_of_given hgiven (hplain spelling hunderstood) hnone, ?_⟩
  intro urls hurls scheme literal port path hv4 hurl
  rw [Spelling.text, hv4, if_neg Bool.false_ne_true] at hurl
  exact conflict_of_url hurls hurl (ipFromProviderUrl_url scheme port path literal hv4)
    (hplain (.plain literal) trivial) hnone

section Examples

def sixIp : IpAddr := .v6 ⟨[0xfd00, 0, 0, 0, 0, 0, 0, 1], rfl⟩

def sixLiteral : Literal sixIp := ⟨"fd00::1".toList, by decide +kernel⟩

/-- `https://[fd00::1]:6443` -/
def sixUrl : Spelling sixIp :=
  .url .https sixLiteral (some 6443)
    ⟨[], fun _ h => absurd h (Option.not_mem_none _), List.forall_mem_nil _⟩

theorem spellings_agree_prefixed : ipsEqual "fd00::1".toList "fd00::1/64".toList = true :=
  spellings_agree.2.2.2.1 sixIp (.plain sixLiteral) (.prefixed sixLiteral 64) trivial trivial

def labCluster (status : Text) (vip6 endpoint : Option Text) : ClusterRow where
  id := "7".toList
  name := "lab".toList
  status := status
  vip := none
  vip6 := vip6
  endpoint := endpoint

def labSurroundings (row : ClusterRow) : Surroundings where
  database := { clusters := [row], nodes := [], urls := some [] }
  hypervisorIps := []
  inUse _ := false

/-- If the check is ok, no column of another cluster is a spelling of one of the addresses. -/
def LeavesOthers (env : Surroundings) (vip vip6 exclude : Option Text) : Prop :=
  (validateVips env vip vip6 exclude).ok = true →
    ∀ addr ∈ vip.toList ++ vip6.toList, ∀ ip, parseIpAddr addr = some ip →
      ∀ row ∈ env.database.clusters, exclude ≠ some row.id →
        ∀ text ∈ row.vip.toList ++ row.vip6.toList ++ row.endpoint.toList,
          ∀ spelling : Spelling ip, text ≠ spelling.text

theorem not_leavesOthers {row : ClusterRow} (spelling : Spelling sixIp)
    (hcolumn : spelling.text ∈ row.vip.toList ++ row.vip6.toList ++ row.endpoint.toList)
    (hok : (validateVips (labSurroundings row) none (some sixLiteral.text) none).ok = true) :
    ¬ LeavesOthers (labSurroundings row) none (some sixLiteral.text) none := by
  intro hleaves
  exact hleaves hok sixLiteral.text (List.mem_singleton_self _) sixIp sixLiteral.read row
    (List.mem_singleton_self _) (by simp) _ hcolumn spelling rfl

/-- A URL of an IPv6 address is not equal to the address, so that the endpoint of a cluster is
given to another one.  So is what a cluster has that is being deleted. -/
theorem address_given_twice :
    ipsEqual (Spelling.plain sixLiteral).text sixUrl.text = false ∧
    ¬ LeavesOthers (labSurroundings (labCluster "ready".toList none (some sixUrl.text))) none
      (some sixLiteral.text) none ∧
    ¬ LeavesOthers (labSurroundings (labCluster "deleting".toList (some sixLiteral.text) none))
      none (some sixLiteral.text) none :=
  ⟨by decide +kernel,
    not_leavesOthers sixUrl (by simp [labCluster]) (by decide +kernel),
    not_leavesOthers (.plain sixLiteral) (by simp [labCluster, Spelling.text])
      (by decide +kernel)⟩

end Examples

end PertiskKos.LanIp
