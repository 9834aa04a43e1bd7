import PertiskKos.Config.Machine

/-!
# The addresses of a cluster

A cluster block gives its pod and service networks in one of two ways: as lists
under `network`, or in the older fields for one network of each family.  Six
functions read the networks, each for another component.  The lists win when they
have an entry that is not blank; otherwise the older fields count, with a default
where they are missing or empty.
-/

namespace PertiskKos.Config

open Strings

def defaultPodSubnet : Text := "10.244.0.0/16".toList

def defaultServiceSubnet : Text := "10.96.0.0/12".toList

def defaultPodCidrIpv6 : Text := "2001:db8:10:0::/56".toList

def defaultServiceCidrIpv6 : Text := "2001:db8:96:1::/112".toList

/-- The entries of a list, trimmed and without the blank ones. -/
def trimmed (texts : List Text) : List Text := (texts.map trim).filter (· ≠ [])

/-- An optional field with its default.  Only the empty text counts as missing. -/
def orDefault (field : Option Text) (default : Text) : Text :=
  (field.filter (· ≠ [])).getD default

def looksLikeIpv4Cidr (text : Text) : Bool :=
  let ip := text.takeWhile (· ≠ '/')
  ip.contains '.' && !ip.contains ':'

def looksLikeIpv6Cidr (text : Text) : Bool :=
  (text.takeWhile (· ≠ '/')).contains ':'

/-- The list of networks, if it has an entry that is not blank. -/
def listedSubnets (listed : Option (List Text)) : Option (List Text) :=
  (listed.map trimmed).filter (· ≠ [])

/-- The networks of one kind: the list, or else the two older fields. -/
def effectiveSubnets (listed : Option (List Text)) (legacy : Text) (legacyIpv6 : Text)
    (dualStack : Bool) : List Text :=
  match listedSubnets listed with
  | some subnets => subnets
  | none => legacy :: if dualStack then [legacyIpv6] else []

namespace Cluster

def isDualStack (c : Cluster) : Bool := c.networkMode = .dualStack

def effectivePodSubnets (c : Cluster) : List Text :=
  effectiveSubnets (c.network.map ClusterNetwork.podSubnets)
    (orDefault c.podSubnet defaultPodSubnet)
    (orDefault c.podCidrIpv6 defaultPodCidrIpv6) c.isDualStack

def effectiveServiceSubnets (c : Cluster) : List Text :=
  effectiveSubnets (c.network.map ClusterNetwork.serviceSubnets)
    (orDefault c.serviceSubnet defaultServiceSubnet)
    (orDefault c.serviceCidrIpv6 defaultServiceCidrIpv6) c.isDualStack

def ipv4PodSubnet (c : Cluster) : Text :=
  (c.effectivePodSubnets.find? looksLikeIpv4Cidr).getD defaultPodSubnet

def ipv4ServiceSubnet (c : Cluster) : Text :=
  (c.effectiveServiceSubnets.find? looksLikeIpv4Cidr).getD defaultServiceSubnet

def serviceClusterIpRange (c : Cluster) : Text :=
  joinWith ',' c.effectiveServiceSubnets

def effectivePodCidrIpv6 (c : Cluster) : Option Text :=
  (c.effectivePodSubnets.find? looksLikeIpv6Cidr).or <|
    if c.isDualStack then some (orDefault c.podCidrIpv6 defaultPodCidrIpv6) else none

def clusterCidr (c : Cluster) : Text := joinWith ',' c.effectivePodSubnets

def vip6San (c : Cluster) : Option Text := (c.vip6.map trim).filter (· ≠ [])

def pkiExtraSans (c : Cluster) : List Text :=
  match c.vip6San with
  | some vip => if vip ∈ c.certSans then c.certSans else c.certSans ++ [vip]
  | none => c.certSans

end Cluster

variable {listed : Option (List Text)} {subnets : List Text}

theorem effectiveSubnets_listed (hlisted : listedSubnets listed = some subnets)
    (legacy legacyIpv6 : Text) (dualStack : Bool) :
    effectiveSubnets listed legacy legacyIpv6 dualStack = subnets := by
  rw [effectiveSubnets, hlisted]

theorem effectiveSubnets_legacy (hlisted : listedSubnets listed = none)
    (legacy legacyIpv6 : Text) (dualStack : Bool) :
    effectiveSubnets listed legacy legacyIpv6 dualStack =
      legacy :: if dualStack then [legacyIpv6] else [] := by
  rw [effectiveSubnets, hlisted]

theorem listedSubnets_ne_nil (hlisted : listedSubnets listed = some subnets) :
    subnets ≠ [] := by
  simpa using (Option.filter_eq_some_iff.mp hlisted).2

/-- There is always a network. -/
theorem effectiveSubnets_ne_nil (listed : Option (List Text)) (legacy legacyIpv6 : Text)
    (dualStack : Bool) : effectiveSubnets listed legacy legacyIpv6 dualStack ≠ [] := by
  cases hlisted : listedSubnets listed with
  | some subnets =>
      rw [effectiveSubnets_listed hlisted]
      exact listedSubnets_ne_nil hlisted
  | none =>
      rw [effectiveSubnets_legacy hlisted]
      exact List.cons_ne_nil _ _

/-- A search in a list with a default finds a member, or the list has none. -/
theorem find?_getD_mem {A : Type} (test : A → Bool) (items : List A) (default : A) :
    (items.find? test).getD default ∈ items ∨
      (∀ item ∈ items, test item = false) ∧ (items.find? test).getD default = default := by
  cases hfind : items.find? test with
  | some item => exact .inl (List.mem_of_find?_eq_some hfind)
  | none => exact .inr ⟨by simpa using hfind, rfl⟩

section Families

/-- The list has a network of each family. -/
def BothFamilies (subnets : List Text) : Prop :=
  (∃ subnet ∈ subnets, looksLikeIpv4Cidr subnet = true) ∧
    ∃ subnet ∈ subnets, looksLikeIpv6Cidr subnet = true

instance (subnets : List Text) : Decidable (BothFamilies subnets) :=
  inferInstanceAs (Decidable (_ ∧ _))

/-- A nonempty older field is a network of its own family. -/
def OwnFamily (looksLike : Text → Bool) (field : Option Text) : Prop :=
  ∀ text, field = some text → text ≠ [] → looksLike text = true

variable {looksLike : Text → Bool} {field : Option Text} {default : Text}

theorem OwnFamily.orDefault (hown : OwnFamily looksLike field)
    (hdefault : looksLike default = true) :
    looksLike (orDefault field default) = true := by
  cases hfield : field with
  | none => exact hdefault
  | some text =>
      by_cases hempty : text = []
      · simpa [Config.orDefault, Option.filter, hempty] using hdefault
      · simpa [Config.orDefault, Option.filter, hempty] using hown text hfield hempty

/-- The configured networks are of both families: the entries of the list, or the
older fields where the list has none. -/
def NamesBoth (listed : Option (List Text)) (legacy legacyIpv6 : Option Text) : Prop :=
  match listedSubnets listed with
  | some subnets => BothFamilies subnets
  | none => OwnFamily looksLikeIpv4Cidr legacy ∧ OwnFamily looksLikeIpv6Cidr legacyIpv6

theorem bothFamilies_effectiveSubnets {legacy legacyIpv6 : Option Text}
    {default defaultIpv6 : Text} (hnames : NamesBoth listed legacy legacyIpv6)
    (hdefault : looksLikeIpv4Cidr default = true)
    (hdefaultIpv6 : looksLikeIpv6Cidr defaultIpv6 = true) :
    BothFamilies (effectiveSubnets listed (orDefault legacy default)
      (orDefault legacyIpv6 defaultIpv6) true) := by
  cases hlisted : listedSubnets listed with
  | some subnets =>
      rw [effectiveSubnets_listed hlisted]
      rwa [NamesBoth, hlisted] at hnames
  | none =>
      rw [NamesBoth, hlisted] at hnames
      rw [effectiveSubnets_legacy hlisted]
      have hlegacy := hnames.1.orDefault hdefault
      have hlegacyIpv6 := hnames.2.orDefault hdefaultIpv6
      exact ⟨⟨_, by simp, hlegacy⟩, _, by simp, hlegacyIpv6⟩

end Families

/-- The derived networks are members of the lists they are derived from, and a
dual-stack cluster has both families in each list. -/
structure ConsistentCidrs (c : Cluster) : Prop where
  ipv6Pod : ∀ cidr, c.effectivePodCidrIpv6 = some cidr → cidr ∈ c.effectivePodSubnets
  ipv4Pod : c.ipv4PodSubnet ∈ c.effectivePodSubnets
  ipv4Service : c.ipv4ServiceSubnet ∈ c.effectiveServiceSubnets
  dualStack : c.isDualStack = true →
    BothFamilies c.effectivePodSubnets ∧ BothFamilies c.effectiveServiceSubnets

/-- The cluster of the examples. -/
def labCluster : Cluster where
  name := some "lab".toList
  endpoint := "https://10.0.0.5:6443".toList
  token := some "abcdef.0123456789abcdef".toList
  ca := none
  caKey := none
  saKey := none
  network := none
  podSubnet := none
  serviceSubnet := none
  podCidrIpv6 := none
  serviceCidrIpv6 := none
  networkMode := .ipv4
  vip6 := none
  kubernetesVersion := none
  podCidr := none
  cni := .none
  certSans := []

/-- A dual-stack cluster whose pod list names an IPv4 network only. -/
def labIpv4Pods : Cluster :=
  { labCluster with
    networkMode := .dualStack
    network := some
      { podSubnets := ["10.244.0.0/16".toList]
        serviceSubnets := ["10.96.0.0/12".toList, "2001:db8:96:1::/112".toList] } }

theorem ipv4_pods_inconsistent : ¬ ConsistentCidrs labIpv4Pods := by
  intro hconsistent
  have hipv6 := hconsistent.ipv6Pod defaultPodCidrIpv6 (by decide)
  exact absurd hipv6 (by decide)

/-- What the accessors really keep: a derived network is a member of its list unless
the list has no network of that family, and then it is the older field or the
default.  A dual-stack cluster has both families in a list whose configured networks
are of both families. -/
structure DerivedCidrs (c : Cluster) : Prop where
  ipv6Pod : ∀ cidr, c.effectivePodCidrIpv6 = some cidr →
    cidr ∈ c.effectivePodSubnets ∨
      (∀ subnet ∈ c.effectivePodSubnets, looksLikeIpv6Cidr subnet = false) ∧
        c.isDualStack = true ∧ cidr = orDefault c.podCidrIpv6 defaultPodCidrIpv6
  ipv4Pod : c.ipv4PodSubnet ∈ c.effectivePodSubnets ∨
    (∀ subnet ∈ c.effectivePodSubnets, looksLikeIpv4Cidr subnet = false) ∧
      c.ipv4PodSubnet = defaultPodSubnet
  ipv4Service : c.ipv4ServiceSubnet ∈ c.effectiveServiceSubnets ∨
    (∀ subnet ∈ c.effectiveServiceSubnets, looksLikeIpv4Cidr subnet = false) ∧
      c.ipv4ServiceSubnet = defaultServiceSubnet
  dualStackPod : c.isDualStack = true →
    NamesBoth (c.network.map ClusterNetwork.podSubnets) c.podSubnet c.podCidrIpv6 →
    BothFamilies c.effectivePodSubnets
  dualStackService : c.isDualStack = true →
    NamesBoth (c.network.map ClusterNetwork.serviceSubnets) c.serviceSubnet
      c.serviceCidrIpv6 →
    BothFamilies c.effectiveServiceSubnets

theorem derivedCidrs_ipv6Pod (c : Cluster) {cidr : Text}
    (hcidr : c.effectivePodCidrIpv6 = some cidr) :
    cidr ∈ c.effectivePodSubnets ∨
      (∀ subnet ∈ c.effectivePodSubnets, looksLikeIpv6Cidr subnet = false) ∧
        c.isDualStack = true ∧ cidr = orDefault c.podCidrIpv6 defaultPodCidrIpv6 := by
  cases hfind : c.effectivePodSubnets.find? looksLikeIpv6Cidr with
  | some found =>
      rw [Cluster.effectivePodCidrIpv6, hfind, Option.some_or, Option.some.injEq] at hcidr
      exact .inl (hcidr ▸ List.mem_of_find?_eq_some hfind)
  | none =>
      rw [Cluster.effectivePodCidrIpv6, hfind, Option.none_or] at hcidr
      cases hdual : c.isDualStack with
      | false => simp [hdual] at hcidr
      | true =>
          simp only [hdual, if_true, Option.some.injEq] at hcidr
          exact .inr ⟨by simpa using hfind, rfl, hcidr.symm⟩

/-- The derived networks of every cluster block. -/
theorem derived_cidrs (c : Cluster) : DerivedCidrs c where
  ipv6Pod _ hcidr := derivedCidrs_ipv6Pod c hcidr
  ipv4Pod := find?_getD_mem looksLikeIpv4Cidr c.effectivePodSubnets defaultPodSubnet
  ipv4Service :=
    find?_getD_mem looksLikeIpv4Cidr c.effectiveServiceSubnets defaultServiceSubnet
  dualStackPod hdual hnames := by
    rw [Cluster.effectivePodSubnets, hdual]
    exact bothFamilies_effectiveSubnets hnames (by decide) (by decide)
  dualStackService hdual hnames := by
    rw [Cluster.effectiveServiceSubnets, hdual]
    exact bothFamilies_effectiveSubnets hnames (by decide) (by decide)

end PertiskKos.Config
