import PertiskKos.Config.Cluster
import PertiskKos.Etcd.Manifest
import PertiskKos.Library.Ip

/-!
# The service address of the API server

The serving certificate of the API server names the address of the `kubernetes`
Service, the first usable address of the service network.  At bootstrap it is derived
from the first IPv4 network of the cluster block, and when the node's address has
changed, from the flag in the manifest.  Both derivations add one to the last octet of
what is written before the first slash and the first comma.
-/

namespace PertiskKos.Bootstrap

open Strings Config Ip

/-- The command of the API server's container. -/
def apiserverCommand (advertiseIp serviceCidr : Text) : List Text :=
  ["kube-apiserver".toList,
    "--advertise-address=".toList ++ advertiseIp,
    "--allow-privileged=true".toList,
    "--authorization-mode=Node,RBAC".toList,
    "--client-ca-file=/etc/kubernetes/pki/ca.crt".toList,
    "--enable-admission-plugins=NodeRestriction".toList,
    "--enable-bootstrap-token-auth=true".toList,
    "--etcd-cafile=/etc/kubernetes/pki/etcd/ca.crt".toList,
    "--etcd-certfile=/etc/kubernetes/pki/etcd/server.crt".toList,
    "--etcd-keyfile=/etc/kubernetes/pki/etcd/server.key".toList,
    "--etcd-servers=https://127.0.0.1:2379".toList,
    "--kubelet-client-certificate=/etc/kubernetes/pki/apiserver.crt".toList,
    "--kubelet-client-key=/etc/kubernetes/pki/apiserver.key".toList,
    "--kubelet-preferred-address-types=InternalIP,Hostname,ExternalIP".toList,
    "--proxy-client-cert-file=/etc/kubernetes/pki/front-proxy-client.crt".toList,
    "--proxy-client-key-file=/etc/kubernetes/pki/front-proxy-client.key".toList,
    "--requestheader-allowed-names=front-proxy-client".toList,
    "--requestheader-client-ca-file=/etc/kubernetes/pki/front-proxy-ca.crt".toList,
    "--requestheader-extra-headers-prefix=X-Remote-Extra-".toList,
    "--requestheader-group-headers=X-Remote-Group".toList,
    "--requestheader-username-headers=X-Remote-User".toList,
    "--secure-port=6443".toList,
    "--service-cluster-ip-range=".toList ++ serviceCidr,
    "--service-account-issuer=https://kubernetes.default.svc.cluster.local".toList,
    "--service-account-key-file=/etc/kubernetes/pki/sa.pub".toList,
    "--service-account-signing-key-file=/etc/kubernetes/pki/sa.key".toList,
    "--tls-cert-file=/etc/kubernetes/pki/apiserver.crt".toList,
    "--tls-private-key-file=/etc/kubernetes/pki/apiserver.key".toList,
    "--feature-gates=UserNamespacesSupport=true".toList]

def apiserverHead : List Text :=
  ["apiVersion: v1".toList, "kind: Pod".toList, "metadata:".toList,
    "  labels:".toList, "    component: kube-apiserver".toList,
    "    tier: control-plane".toList, "  name: kube-apiserver".toList,
    "  namespace: kube-system".toList, "spec:".toList, "  containers:".toList,
    "  - command:".toList]

def apiserverTail (version pki : Text) : List Text :=
  ["    image: registry.k8s.io/kube-apiserver:".toList ++ version,
    "    name: kube-apiserver".toList, "    volumeMounts:".toList,
    "    - mountPath: /etc/kubernetes/pki".toList, "      name: pki".toList,
    "  hostNetwork: true".toList, "  priorityClassName: system-node-critical".toList,
    "  volumes:".toList, "  - hostPath:".toList, "      path: ".toList ++ pki,
    "      type: Directory".toList, "    name: pki".toList]

/-- The manifest of the API server as it is written. -/
def apiserverPod (advertiseIp version serviceCidr pki : Text) : Text :=
  unlines (apiserverHead ++ (apiserverCommand advertiseIp serviceCidr).map Etcd.item ++
    apiserverTail version pki)

def flagValue (yaml flag : Text) : Option Text := Etcd.etcdFlagValue yaml flag

def kubernetesServiceIp (serviceCidr : Text) : Text :=
  let first := serviceCidr.takeWhile (· ≠ ',')
  match parseIpv4 (first.takeWhile (· ≠ '/')) with
  | some v4 => v4.next.print
  | none => "10.96.0.1".toList

def serviceRangeFlag : Text :=
  ['-', '-', 's', 'e', 'r', 'v', 'i', 'c', 'e', '-', 'c', 'l', 'u', 's', 't', 'e', 'r', '-',
    'i', 'p', '-', 'r', 'a', 'n', 'g', 'e', '=']

/-- The service address in the certificate that bootstrap issues. -/
def bootstrapServiceIp (c : Cluster) : Text := kubernetesServiceIp c.ipv4ServiceSubnet

/-- The service address in the certificate that a rebase issues. -/
def rebaseServiceIp (apiYaml : Text) : Text :=
  kubernetesServiceIp ((flagValue apiYaml serviceRangeFlag).getD defaultServiceSubnet)

section Networks

variable {text : Text} {address : Ipv4Addr} {prefixLength : Nat}

theorem splitOnce_spec {separator : Char} {before after : Text}
    (hsplit : splitOnce separator text = some (before, after)) :
    text = before ++ separator :: after := by
  simpa using cut_append hsplit

/-- What an IPv4 network looks like. -/
theorem parseIpv4Cidr_spec (hparse : parseIpv4Cidr text = some (address, prefixLength)) :
    ∃ ip digits, text = ip ++ '/' :: digits ∧ parseIpv4 ip = some address ∧
      isDigits digits = true := by
  unfold parseIpv4Cidr at hparse
  split at hparse
  · next ip digits hsplit =>
      split at hparse
      · next hdigits =>
          obtain ⟨found, hfound, hpair⟩ := Option.map_eq_some_iff.mp hparse
          cases hpair
          exact ⟨ip, digits, splitOnce_spec hsplit, hfound, hdigits.1⟩
      · cases hparse
  · cases hparse

theorem isIpv6Cidr_spec (hcidr : isIpv6Cidr text = true) :
    ∃ ip digits, text = ip ++ '/' :: digits ∧ ':' ∈ ip ∧
      (∀ c ∈ ip, isIpv6Char c = true) ∧ isDigits digits = true := by
  unfold isIpv6Cidr at hcidr
  split at hcidr
  · next ip digits hsplit =>
      simp only [Bool.and_eq_true, List.contains_iff_mem, List.all_eq_true] at hcidr
      exact ⟨ip, digits, splitOnce_spec hsplit, hcidr.1.1, hcidr.1.2, hcidr.2⟩
  · cases hcidr

theorem notMem_of_parseIpv4 {c : Char} (hc : c.isDigit = false) (hdot : c ≠ '.')
    (hparse : parseIpv4 text = some address) : c ∉ text := by
  intro hmem
  rcases (parseIpv4_chars hparse).2 c hmem with hdigit | hsame
  · simp [hdigit] at hc
  · exact hdot hsame

theorem isCidrChar_range {c : Char} (hc : isCidrChar c = true) :
    46 ≤ c.toNat ∧ c.toNat ≤ 102 := by
  have hle : ∀ {x y : Char}, x ≤ y → x.toNat ≤ y.toNat := fun h => h
  simp only [isCidrChar, isIpv6Char, Bool.or_eq_true, Bool.and_eq_true, decide_eq_true_eq,
    Char.isDigit, ge_iff_le, UInt32.le_iff_toNat_le] at hc
  rcases hc with ((((hdigit | hlower) | hupper) | rfl) | rfl) | rfl
  · have hlow : 48 ≤ c.toNat := hdigit.1
    have hhigh : c.toNat ≤ 57 := hdigit.2
    omega
  · have hlow : 97 ≤ c.toNat := hle hlower.1
    have hhigh : c.toNat ≤ 102 := hle hlower.2
    omega
  · have hlow : 65 ≤ c.toNat := hle hupper.1
    have hhigh : c.toNat ≤ 70 := hle hupper.2
    omega
  · decide
  · decide
  · decide

/-- No network has white space, a quote or a comma in it. -/
theorem isCidrChar_plain {c : Char} (hc : isCidrChar c = true) :
    isWhite c = false ∧ c ≠ '"' ∧ c ≠ ',' := by
  obtain ⟨hlow, hhigh⟩ := isCidrChar_range hc
  refine ⟨?_, ?_, ?_⟩
  · simp [isWhite]
    omega
  · rintro rfl
    exact absurd hlow (by decide)
  · rintro rfl
    exact absurd hlow (by decide)

theorem isCidrChar_of_isDigit {c : Char} (hc : c.isDigit = true) : isCidrChar c = true := by
  simp [isCidrChar, isIpv6Char, hc]

theorem isCidrChar_append {ip digits : Text} (hip : ∀ c ∈ ip, isCidrChar c = true)
    (hdigits : isDigits digits = true) : ∀ c ∈ ip ++ '/' :: digits, isCidrChar c = true := by
  intro c hc
  rcases List.mem_append.mp hc with hleft | hright
  · exact hip c hleft
  · rcases List.mem_cons.mp hright with rfl | hdigit
    · decide
    · exact isCidrChar_of_isDigit (isDigits_isDigit hdigits c hdigit)

theorem chars_of_ipv4 (hparse : parseIpv4Cidr text = some (address, prefixLength)) :
    ∀ c ∈ text, isCidrChar c = true := by
  obtain ⟨ip, digits, rfl, hip, hdigits⟩ := parseIpv4Cidr_spec hparse
  apply isCidrChar_append _ hdigits
  intro c hc
  rcases (parseIpv4_chars hip).2 c hc with hdigit | rfl
  · exact isCidrChar_of_isDigit hdigit
  · decide

theorem chars_of_ipv6 (hcidr : isIpv6Cidr text = true) :
    ∀ c ∈ text, isCidrChar c = true := by
  obtain ⟨ip, digits, rfl, -, hip, hdigits⟩ := isIpv6Cidr_spec hcidr
  apply isCidrChar_append _ hdigits
  intro c hc
  rw [isCidrChar, hip c hc, Bool.true_or]

theorem looksLike_of_ipv4 (hparse : parseIpv4Cidr text = some (address, prefixLength)) :
    looksLikeIpv4Cidr text = true := by
  obtain ⟨ip, digits, rfl, hip, -⟩ := parseIpv4Cidr_spec hparse
  have hslash : '/' ∉ ip := notMem_of_parseIpv4 (by decide) (by decide) hip
  have hcolon : ':' ∉ ip := notMem_of_parseIpv4 (by decide) (by decide) hip
  rw [looksLikeIpv4Cidr, takeWhile_separator hslash]
  simp [(parseIpv4_chars hip).1, hcolon]

theorem slash_notMem_ipv6 {ip : Text} (hip : ∀ c ∈ ip, isIpv6Char c = true) : '/' ∉ ip :=
  fun hmem => absurd (hip '/' hmem) (by decide)

theorem looksLike_of_ipv6 (hcidr : isIpv6Cidr text = true) :
    looksLikeIpv4Cidr text = false := by
  obtain ⟨ip, digits, rfl, hcolon, hip, -⟩ := isIpv6Cidr_spec hcidr
  rw [looksLikeIpv4Cidr, takeWhile_separator (slash_notMem_ipv6 hip)]
  simp [hcolon]

/-- The service address from a list that starts with an IPv4 network. -/
theorem kubernetesServiceIp_ipv4 (hparse : parseIpv4Cidr text = some (address, prefixLength))
    (rest : List Text) :
    kubernetesServiceIp (joinWith ',' (text :: rest)) = address.next.print := by
  have hcomma : ',' ∉ text := fun hmem =>
    (isCidrChar_plain (chars_of_ipv4 hparse ',' hmem)).2.2 rfl
  obtain ⟨ip, digits, rfl, hip, -⟩ := parseIpv4Cidr_spec hparse
  have hslash : '/' ∉ ip := notMem_of_parseIpv4 (by decide) (by decide) hip
  rw [kubernetesServiceIp, takeWhile_joinWith hcomma]
  simp only [takeWhile_separator hslash, hip]

/-- The service address from a list that starts with an IPv6 network. -/
theorem kubernetesServiceIp_ipv6 (hcidr : isIpv6Cidr text = true) (rest : List Text) :
    kubernetesServiceIp (joinWith ',' (text :: rest)) = "10.96.0.1".toList := by
  have hcomma : ',' ∉ text := fun hmem =>
    (isCidrChar_plain (chars_of_ipv6 hcidr ',' hmem)).2.2 rfl
  obtain ⟨ip, digits, rfl, hcolon, hip, -⟩ := isIpv6Cidr_spec hcidr
  have hnone : parseIpv4 ip = none := by
    cases hparse : parseIpv4 ip with
    | none => rfl
    | some v4 => exact absurd hcolon (notMem_of_parseIpv4 (by decide) (by decide) hparse)
  rw [kubernetesServiceIp, takeWhile_joinWith hcomma]
  simp only [takeWhile_separator (slash_notMem_ipv6 hip), hnone]

end Networks

section Reading

open Etcd

variable (advertise : Address)

theorem equals_notMem_apiserverHead : ∀ line ∈ apiserverHead, '=' ∉ line := by
  simp only [apiserverHead, List.forall_mem_cons]
  repeat rw [String.toList_ofList]
  decide

theorem not_occurs_advertise : ¬ serviceRangeFlag <:+:
    item ("--advertise-address=".toList ++ advertise.text) :=
  @not_occurs_of_left "--service-cluster-ip-range".toList
    "    - --advertise-address".toList advertise.text (by decide) (by decide)
    (advertise.notMem (by decide) (by decide)) (by decide) []

theorem notFlag_before (range : Text) :
    ∀ argument ∈ (apiserverCommand advertise.text range).take 22,
      flagOf serviceRangeFlag (item argument) = none := by
  have hadvertise := flagOf_eq_none (not_occurs_advertise advertise)
  simp only [apiserverCommand, List.take, List.forall_mem_cons, hadvertise, true_and]
  repeat rw [String.toList_ofList]
  decide

theorem oneLine_before {range : Text} (hrange : oneLine range = true) :
    ((apiserverHead ++ ((apiserverCommand advertise.text range).take 22).map item) ++
      [item (serviceRangeFlag ++ range)]).all oneLine = true := by
  have hadvertise := oneLine_of_noWhite advertise.noWhite
  have hhead : apiserverHead.all oneLine = true := by
    rw [apiserverHead]
    repeat rw [String.toList_ofList]
    decide
  have hcommand : (((apiserverCommand advertise.text range).take 22).map item).all
      oneLine = true := by
    simp only [apiserverCommand, List.take, List.map_cons, List.map_nil, List.all_cons,
      List.all_nil, oneLine_item, oneLine_append, hadvertise]
    repeat rw [String.toList_ofList]
    decide
  have hflag : oneLine serviceRangeFlag = true := by decide
  rw [List.all_append, List.all_append, hhead, hcommand, List.all_cons, oneLine_item,
    oneLine_append, hflag, hrange]
  rfl

/-- The service range is read back from the manifest. -/
theorem read_serviceRange (version pki : Text) {range : Text} (hne : range ≠ [])
    (hrange : ∀ c ∈ range, isWhite c = false ∧ c ≠ '"')
    (hcomma : range.getLast? ≠ some ',') :
    flagValue (apiserverPod advertise.text version range pki) serviceRangeFlag =
      some range := by
  have hsplit : apiserverHead ++ (apiserverCommand advertise.text range).map item ++
        apiserverTail version pki =
      (apiserverHead ++ ((apiserverCommand advertise.text range).take 22).map item) ++
        item (serviceRangeFlag ++ range) ::
          (((apiserverCommand advertise.text range).drop 23).map item ++
            apiserverTail version pki) := by
    have hget : (apiserverCommand advertise.text range)[22]? =
        some (serviceRangeFlag ++ range) := rfl
    obtain ⟨hlt, hargument⟩ := List.getElem?_eq_some_iff.mp hget
    rw [← hargument, List.append_assoc, List.append_assoc, ← List.cons_append,
      ← List.map_cons, List.getElem_cons_drop, ← List.append_assoc (List.map _ _),
      ← List.map_append, List.take_append_drop]
  have hone := oneLine_of_noWhite fun c hc => (hrange c hc).1
  rw [flagValue, apiserverPod, hsplit]
  apply etcdFlagValue_of_line (oneLine_before advertise hone)
  · intro line hline
    rcases List.mem_append.mp hline with hhead | hargument
    · apply flagOf_eq_none
      intro hoccurs
      exact equals_notMem_apiserverHead line hhead (hoccurs.subset (by decide))
    · obtain ⟨argument, hmem, rfl⟩ := List.mem_map.mp hargument
      exact notFlag_before advertise range argument hmem
  · exact flagOf_item_last rfl hne hrange hcomma

end Reading

section Equal

/-- Every service network is an IPv4 or an IPv6 network. -/
def ServiceCidrs (c : Cluster) : Prop :=
  ∀ subnet ∈ c.effectiveServiceSubnets,
    (parseIpv4Cidr subnet).isSome = true ∨ isIpv6Cidr subnet = true

instance (c : Cluster) : Decidable (ServiceCidrs c) := List.decidableBAll _ _

/-- The first IPv4 network of the service range. -/
def firstIpv4Service (c : Cluster) : Option (Ipv4Addr × Nat) :=
  c.effectiveServiceSubnets.findSome? parseIpv4Cidr

/-- The service range starts with an IPv4 network. -/
def StartsWithIpv4 (c : Cluster) : Prop :=
  (c.effectiveServiceSubnets.head?.bind parseIpv4Cidr).isSome = true

variable {c : Cluster} {address : Ipv4Addr} {prefixLength : Nat}

theorem chars_of_cidr {subnet : Text}
    (hcidr : (parseIpv4Cidr subnet).isSome = true ∨ isIpv6Cidr subnet = true) :
    subnet ≠ [] ∧ ∀ c ∈ subnet, isCidrChar c = true := by
  rcases hcidr with hipv4 | hipv6
  · obtain ⟨⟨address, prefixLength⟩, hparse⟩ := Option.isSome_iff_exists.mp hipv4
    obtain ⟨ip, digits, htext, -⟩ := parseIpv4Cidr_spec hparse
    exact ⟨by simp [htext], chars_of_ipv4 hparse⟩
  · obtain ⟨ip, digits, htext, -⟩ := isIpv6Cidr_spec hipv6
    exact ⟨by simp [htext], chars_of_ipv6 hipv6⟩

/-- What the manifest gives back is the service range. -/
theorem rebaseServiceIp_eq (hcidrs : ServiceCidrs c) (advertise : Etcd.Address)
    (version pki : Text) :
    rebaseServiceIp (apiserverPod advertise.text version c.serviceClusterIpRange pki) =
      kubernetesServiceIp c.serviceClusterIpRange := by
  have hne : c.serviceClusterIpRange ≠ [] :=
    joinWith_ne_nil (effectiveSubnets_ne_nil _ _ _ _)
      fun subnet hsubnet => (chars_of_cidr (hcidrs subnet hsubnet)).1
  have hrange : ∀ ch ∈ c.serviceClusterIpRange, isWhite ch = false ∧ ch ≠ '"' := by
    intro ch hch
    rcases mem_joinWith hch with rfl | ⟨subnet, hsubnet, hmem⟩
    · decide
    · have hplain :=
        isCidrChar_plain ((chars_of_cidr (hcidrs subnet hsubnet)).2 ch hmem)
      exact ⟨hplain.1, hplain.2.1⟩
  have hcomma : c.serviceClusterIpRange.getLast? ≠ some ',' := by
    intro hlast
    obtain ⟨subnet, hsubnet, hend⟩ := getLast?_joinWith
      (fun subnet hsubnet => (chars_of_cidr (hcidrs subnet hsubnet)).1) hlast
    have hchar := (chars_of_cidr (hcidrs subnet hsubnet)).2 ',' (List.mem_of_getLast? hend)
    exact absurd hchar (by decide)
  rw [rebaseServiceIp, read_serviceRange advertise version pki hne hrange hcomma]
  rfl

/-- Bootstrap derives the address from the first IPv4 network. -/
theorem bootstrapServiceIp_eq (hcidrs : ServiceCidrs c)
    (hfirst : firstIpv4Service c = some (address, prefixLength)) :
    bootstrapServiceIp c = address.next.print := by
  obtain ⟨before, subnet, after, hsplit, hparse, hbefore⟩ :=
    List.findSome?_eq_some_iff.mp hfirst
  have hnot : before.find? looksLikeIpv4Cidr = none := by
    rw [List.find?_eq_none]
    intro other hother
    have hcidr := hcidrs other (by rw [hsplit]; simp [hother])
    rw [hbefore other hother] at hcidr
    have hipv6 := hcidr.resolve_left (by simp)
    simp [looksLike_of_ipv6 hipv6]
  have hsubnet : c.ipv4ServiceSubnet = subnet := by
    rw [Cluster.ipv4ServiceSubnet, hsplit, List.find?_append, hnot, Option.none_or,
      List.find?_cons, looksLike_of_ipv4 hparse]
    rfl
  rw [bootstrapServiceIp, hsubnet]
  simpa [joinWith] using kubernetesServiceIp_ipv4 hparse []

/-- A rebase derives it from the first network of the range. -/
theorem rangeServiceIp_eq (hcidrs : ServiceCidrs c)
    (hfirst : firstIpv4Service c = some (address, prefixLength)) :
    StartsWithIpv4 c ∧ kubernetesServiceIp c.serviceClusterIpRange = address.next.print ∨
      ¬ StartsWithIpv4 c ∧
        kubernetesServiceIp c.serviceClusterIpRange = "10.96.0.1".toList := by
  rw [firstIpv4Service] at hfirst
  rw [StartsWithIpv4, Cluster.serviceClusterIpRange]
  cases hlist : c.effectiveServiceSubnets with
  | nil => simp [hlist] at hfirst
  | cons subnet rest =>
      rw [hlist, List.findSome?_cons] at hfirst
      have hcidr := hcidrs subnet (by rw [hlist]; exact List.mem_cons_self)
      cases hparse : parseIpv4Cidr subnet with
      | some pair =>
          rw [hparse, Option.some.injEq] at hfirst
          subst hfirst
          exact .inl ⟨by simp [hparse], kubernetesServiceIp_ipv4 hparse rest⟩
      | none =>
          rw [hparse] at hcidr
          have hipv6 := hcidr.resolve_left (by simp)
          exact .inr ⟨by simp [hparse], kubernetesServiceIp_ipv6 hipv6 rest⟩

/-- The network of the default range. -/
def defaultServiceNetwork : Ipv4Addr := { a := 10, b := 96, c := 0, d := 0 }

theorem defaultIp_eq_firstUsable_iff (ip : Ipv4Addr) (hlength : prefixLength ≤ 30) :
    "10.96.0.1".toList = (ip.firstUsable prefixLength).print ↔
      ip.network prefixLength = defaultServiceNetwork.toNat := by
  have hdefault : "10.96.0.1".toList =
      (Ipv4Addr.ofNat (defaultServiceNetwork.toNat + 1)).print := by decide
  have hlt : ip.network prefixLength + 1 < 2 ^ 32 := network_succ_lt ip hlength
  rw [hdefault]
  constructor
  · intro hprint
    have hnat := congrArg Ipv4Addr.toNat (print_injective hprint)
    rw [Ipv4Addr.firstUsable, toNat_ofNat hlt, toNat_ofNat (by decide)] at hnat
    omega
  · intro hnetwork
    rw [Ipv4Addr.firstUsable, hnetwork]

/-- Both certificates name the first usable address of the first IPv4 network exactly
when that network is written without host bits, and either comes first in the range or is
the default network. -/
theorem service_ip_iff (hcidrs : ServiceCidrs c)
    (hfirst : firstIpv4Service c = some (address, prefixLength))
    (hlength : prefixLength ≤ 30) (advertise : Etcd.Address) (version pki : Text) :
    (bootstrapServiceIp c = (address.firstUsable prefixLength).print ∧
        rebaseServiceIp (apiserverPod advertise.text version c.serviceClusterIpRange pki) =
          (address.firstUsable prefixLength).print) ↔
      address.toNat % 2 ^ (32 - prefixLength) = 0 ∧
        (StartsWithIpv4 c ∨
          address.network prefixLength = defaultServiceNetwork.toNat) := by
  have hnext : address.next.print = (address.firstUsable prefixLength).print ↔
      address.toNat % 2 ^ (32 - prefixLength) = 0 := by
    rw [← next_eq_firstUsable_iff address hlength]
    exact ⟨print_injective, congrArg Ipv4Addr.print⟩
  rw [rebaseServiceIp_eq hcidrs, bootstrapServiceIp_eq hcidrs hfirst, hnext]
  rcases rangeServiceIp_eq hcidrs hfirst with ⟨hstarts, hip⟩ | ⟨hstarts, hip⟩
  · rw [hip, hnext]
    simp [hstarts]
  · rw [hip, defaultIp_eq_firstUsable_iff address hlength]
    simp [hstarts]

end Equal

section Lab

def labAdvertise : Etcd.Address := Etcd.Address.ofText "10.0.0.1".toList (Eq.refl true)

theorem service_ip_lab :
    bootstrapServiceIp labCluster = "10.96.0.1".toList ∧
      rebaseServiceIp (apiserverPod labAdvertise.text "v1.36.3".toList
        labCluster.serviceClusterIpRange Etcd.defaultPkiHostPath) = "10.96.0.1".toList :=
  (@service_ip_iff labCluster defaultServiceNetwork 12 (by decide) (by decide) (by decide)
    labAdvertise _ _).mpr ⟨by decide, .inr (by decide)⟩

/-- A dual-stack cluster with its IPv6 service network first. -/
def labIpv6First : Cluster :=
  { labCluster with
    networkMode := .dualStack
    network := some
      { podSubnets := ["10.244.0.0/16".toList, "2001:db8:10:0::/56".toList]
        serviceSubnets := ["2001:db8:96:1::/112".toList, "10.100.0.0/16".toList] } }

/-- The rebase issues the certificate for the default address, not for that of the
service. -/
theorem service_ip_differs :
    bootstrapServiceIp labIpv6First = "10.100.0.1".toList ∧
      rebaseServiceIp (apiserverPod labAdvertise.text "v1.36.3".toList
        labIpv6First.serviceClusterIpRange Etcd.defaultPkiHostPath) =
          "10.96.0.1".toList := by
  rw [rebaseServiceIp_eq (by decide)]
  decide

end Lab

end PertiskKos.Bootstrap
