import PertiskKos.Bootstrap.ServiceIp
import PertiskKos.Etcd.Heal
import PertiskKos.Etcd.Rewriting
import PertiskKos.Library.Margins
import PertiskKos.Library.Runs

/-!
# Moving a control plane to a new address

A control plane keeps its address in three places: the manifests of etcd and of the API
server, and the file `advertise-address`.  A rebase searches the manifests for the stored
address and stores the new one last.  After a rebase that stopped on the way, a manifest
may therefore advertise an address that no later rebase searches for.
-/

namespace PertiskKos.Bootstrap

open Strings Ip Etcd Runs

/-- What a control plane has on its disk about its address. -/
structure ControlPlane where
  etcd : Text
  apiserver : Text
  advertise : Text
  deriving DecidableEq, Repr

/-- What becomes of a file that is written.  A write that fails leaves the file as it
was or, once the file has been truncated, a front part of the new content. -/
inductive Written where
  | done
  | kept
  | torn (length : Nat)
  deriving DecidableEq, Repr

def Written.file : Written → Text → Text → Text
  | .done, _, content => content
  | .kept, before, _ => before
  | .torn length, _, content => content.take length

def Written.ok : Written → Bool
  | .done => true
  | _ => false

/-- One entry of the manifests' directory, as the rewriting meets it. -/
inductive Entry where
  | failed
  | etcd (readable : Bool) (written : Written)
  | apiserver (readable : Bool) (written : Written)
  | other (ok : Bool)
  deriving DecidableEq, Repr

/-- A call, with what it meets on its way. -/
structure Call where
  newIp : Ipv4Addr
  advertiseReadable : Bool
  /-- The host of the admin kubeconfig's server. -/
  serverHost : Option Text
  entries : List Entry
  listenReadable : Bool
  listenWritten : Written
  reissued : Bool
  kubeconfigWritten : Bool
  advertiseWritten : Written
  deriving DecidableEq, Repr

/-- The manifest after the rewriting, and whether the loop goes on.  A file that cannot
be read is passed over. -/
def rewriteFile (readable : Bool) (written : Written) (raw old new : Text) : Text × Bool :=
  let next := replaceIpToken raw old new
  if !readable || next = raw then (raw, true)
  else (written.file raw next, written.ok)

/-- The loop over the directory. -/
def rewriteEntries (old new : Text) : ControlPlane → List Entry → ControlPlane × Bool
  | cp, [] => (cp, true)
  | cp, .failed :: _ => (cp, false)
  | cp, .other ok :: rest => if ok then rewriteEntries old new cp rest else (cp, false)
  | cp, .etcd readable written :: rest =>
      let file := rewriteFile readable written cp.etcd old new
      let cp := { cp with etcd := file.1 }
      if file.2 then rewriteEntries old new cp rest else (cp, false)
  | cp, .apiserver readable written :: rest =>
      let file := rewriteFile readable written cp.apiserver old new
      let cp := { cp with apiserver := file.1 }
      if file.2 then rewriteEntries old new cp rest else (cp, false)

def rewriteIpInDir (old new : Text) (cp : ControlPlane) (entries : List Entry) :
    ControlPlane × Bool :=
  if old = [] then (cp, true) else rewriteEntries old new cp entries

/-- Bind etcd to all addresses: the manifest, and whether it was changed. -/
def ensureListenAll (call : Call) (etcd : Text) : Text × Option Bool :=
  if !call.listenReadable then (etcd, none)
  else
    match ensureEtcdListenAll etcd with
    | none => (etcd, some false)
    | some out =>
        (call.listenWritten.file etcd out, if call.listenWritten.ok then some true else none)

def readAdvertise (call : Call) (cp : ControlPlane) : Text :=
  if call.advertiseReadable then trim cp.advertise else []

/-- Only a server host that is not the stored address can be a virtual address. -/
def vip (call : Call) (cp : ControlPlane) : Option Text :=
  call.serverHost.filter fun host => host ≠ [] ∧ host ≠ readAdvertise call cp

/-- The disk after the call, and what the call returns; `none` is an error. -/
def rebaseAdvertiseAddress (call : Call) (cp : ControlPlane) : ControlPlane × Option Bool :=
  let stored := readAdvertise call cp
  match pickRebaseIp stored call.newIp.print (vip call cp) with
  | none =>
      let bound := ensureListenAll call cp.etcd
      ({ cp with etcd := bound.1 }, bound.2)
  | some _ =>
      let rewritten := rewriteIpInDir stored call.newIp.print cp call.entries
      if !rewritten.2 then (rewritten.1, none)
      else
        let cp := { rewritten.1 with etcd := (ensureListenAll call rewritten.1.etcd).1 }
        if !call.reissued then (cp, none)
        else if call.serverHost = some stored ∧ stored ≠ [] ∧ !call.kubeconfigWritten then
          (cp, none)
        else
          ({ cp with
              advertise :=
                call.advertiseWritten.file cp.advertise (call.newIp.print ++ ['\n']) },
            if call.advertiseWritten.ok then some true else none)

/-- The disk, and the address of the last call if that call returned `Ok(true)`. -/
structure State where
  disk : ControlPlane
  result : Option Ipv4Addr
  deriving DecidableEq, Repr

def step (state : State) (call : Call) : Option State :=
  let outcome := rebaseAdvertiseAddress call state.disk
  some { disk := outcome.1,
         result := if outcome.2 = some true then some call.newIp else none }

def peerFlag : Text :=
  ['-', '-', 'i', 'n', 'i', 't', 'i', 'a', 'l', '-', 'a', 'd', 'v', 'e', 'r', 't',
    'i', 's', 'e', '-', 'p', 'e', 'e', 'r', '-', 'u', 'r', 'l', 's', '=']

def clientFlag : Text :=
  ['-', '-', 'a', 'd', 'v', 'e', 'r', 't', 'i', 's', 'e', '-', 'c', 'l', 'i', 'e',
    'n', 't', '-', 'u', 'r', 'l', 's', '=']

def clusterFlag : Text :=
  ['-', '-', 'i', 'n', 'i', 't', 'i', 'a', 'l', '-', 'c', 'l', 'u', 's', 't', 'e',
    'r', '=']

def addressFlag : Text :=
  ['-', '-', 'a', 'd', 'v', 'e', 'r', 't', 'i', 's', 'e', '-', 'a', 'd', 'd', 'r',
    'e', 's', 's', '=']

/-- The manifest of etcd advertises the address: to peers, to clients, and in the node's
own entry, at `position`, of the initial cluster. -/
def AdvertisesEtcd (position : Nat) (etcd address : Text) : Prop :=
  etcdFlagValue etcd peerFlag = some (peerUrl address) ∧
    (etcdFlagValue etcd clientFlag).any (startsWith · (https ++ address ++ ":2379,".toList)) ∧
    ((etcdFlagValue etcd clusterFlag).bind fun spec =>
      (parseEtcdInitialCluster spec)[position]?.map Prod.snd) = some address

def AdvertisesApiserver (apiserver address : Text) : Prop :=
  flagValue apiserver addressFlag = some address

/-- The whole node is at the address. -/
def ConvergedTo (position : Nat) (cp : ControlPlane) (address : Text) : Prop :=
  AdvertisesEtcd position cp.etcd address ∧ AdvertisesApiserver cp.apiserver address ∧
    cp.advertise = address ++ ['\n']

/-- After a call that returned `Ok(true)` the node is at its address. -/
def Converged (position : Nat) (state : State) : Prop :=
  ∀ address ∈ state.result, ConvergedTo position state.disk address.print

def Untorn : Written → Prop
  | .torn _ => False
  | _ => True

instance (written : Written) : Decidable (Untorn written) :=
  match written with
  | .done => .isTrue trivial
  | .kept => .isTrue trivial
  | .torn _ => .isFalse id

def Entry.Whole : Entry → Prop
  | .etcd _ written => Untorn written
  | .apiserver _ written => Untorn written
  | _ => True

instance (entry : Entry) : Decidable entry.Whole :=
  match entry with
  | .etcd _ written => inferInstanceAs (Decidable (Untorn written))
  | .apiserver _ written => inferInstanceAs (Decidable (Untorn written))
  | .failed => .isTrue trivial
  | .other _ => .isTrue trivial

/-- No write of the call leaves a part of a file. -/
def Whole (call : Call) : Prop :=
  (∀ entry ∈ call.entries, entry.Whole) ∧ Untorn call.listenWritten ∧
    Untorn call.advertiseWritten

def Entry.readsEtcd : Entry → Bool
  | .etcd readable _ => readable
  | _ => false

def Entry.readsApiserver : Entry → Bool
  | .apiserver readable _ => readable
  | _ => false

/-- The call has a new address for the node. -/
def Moves (call : Call) (cp : ControlPlane) : Bool :=
  (pickRebaseIp (readAdvertise call cp) call.newIp.print (vip call cp)).isSome

/-- The rebase finds nothing to do but to bind etcd to all addresses. -/
def Rebinds (call : Call) (cp : ControlPlane) : Prop :=
  call.listenReadable = true ∧ (ensureEtcdListenAll cp.etcd).isSome = true ∧
    call.listenWritten.ok = true

/-- Nothing that the rebase meets makes it fail. -/
def Unhindered (call : Call) (cp : ControlPlane) : Prop :=
  (rewriteIpInDir (readAdvertise call cp) call.newIp.print cp call.entries).2 = true ∧
    call.reissued = true ∧
    (call.serverHost = some (readAdvertise call cp) → readAdvertise call cp ≠ [] →
      call.kubeconfigWritten = true) ∧
    call.advertiseWritten.ok = true

/-- Each manifest is at the new address already, or it is at the stored address, where
the rewriting finds it. -/
def Searched (position : Nat) (call : Call) (cp : ControlPlane) : Prop :=
  (AdvertisesEtcd position cp.etcd call.newIp.print ∨
      AdvertisesEtcd position cp.etcd (readAdvertise call cp) ∧
        call.entries.any Entry.readsEtcd = true) ∧
    (AdvertisesApiserver cp.apiserver call.newIp.print ∨
      AdvertisesApiserver cp.apiserver (readAdvertise call cp) ∧
        call.entries.any Entry.readsApiserver = true)

/-- No write is torn, and a call that goes through finds the addresses in the manifests. -/
def Steady (position : Nat) (state : State) (call : Call) : Prop :=
  Whole call ∧
    (Moves call state.disk = false → Rebinds call state.disk →
      ConvergedTo position state.disk call.newIp.print) ∧
    (Moves call state.disk = true → Unhindered call state.disk →
      Searched position call state.disk)

section Decide

variable (position : Nat) (cp : ControlPlane) (state : State) (call : Call)

instance (etcd address : Text) : Decidable (AdvertisesEtcd position etcd address) :=
  inferInstanceAs (Decidable (_ ∧ _ ∧ _))

instance (apiserver address : Text) : Decidable (AdvertisesApiserver apiserver address) :=
  inferInstanceAs (Decidable (_ = _))

instance (address : Text) : Decidable (ConvergedTo position cp address) :=
  inferInstanceAs (Decidable (_ ∧ _ ∧ _))

instance : Decidable (Converged position state) :=
  inferInstanceAs (Decidable (∀ address ∈ state.result, _))

instance : Decidable (Whole call) := inferInstanceAs (Decidable (_ ∧ _ ∧ _))

instance : Decidable (Rebinds call cp) := inferInstanceAs (Decidable (_ ∧ _ ∧ _))

instance : Decidable (Unhindered call cp) := inferInstanceAs (Decidable (_ ∧ _ ∧ _ ∧ _))

instance : Decidable (Searched position call cp) := inferInstanceAs (Decidable (_ ∧ _))

instance : Decidable (Steady position state call) :=
  inferInstanceAs (Decidable (_ ∧ _ ∧ _))

end Decide

section Manifests

/-- The value of `--advertise-client-urls`. -/
def clientValue (address loopback : Address) : Text :=
  https ++ (address.text ++ (":2379,https://".toList ++ (loopback.text ++ ":2379".toList)))

/-- Where the manifest of etcd is, and that it can be rewritten. -/
structure EtcdAt (position : Nat) (etcd : Text) (ip : Ipv4Addr) : Prop where
  noReturn : '\r' ∉ etcd
  peerApart : Apart peerFlag etcd
  clientApart : Apart clientFlag etcd
  clusterApart : Apart clusterFlag etcd
  peer : flagLine etcd peerFlag = some (item (peerFlag ++ peerUrl ip.print))
  client : ∃ loopback, flagLine etcd clientFlag =
    some (item (clientFlag ++ clientValue (printed ip) loopback))
  cluster : ∃ members, (∀ member ∈ members, '"' ∉ member.1.text) ∧
    members[position]?.map (fun member => member.2.text) = some ip.print ∧
    flagLine etcd clusterFlag = some (item (clusterFlag ++ clusterSpec members))

structure ApiserverAt (apiserver : Text) (ip : Ipv4Addr) : Prop where
  noReturn : '\r' ∉ apiserver
  address : flagLine apiserver addressFlag = some (item (addressFlag ++ ip.print))

theorem replaceIpToken_item {flag : Text} (hplain : Plain flag) (old new : Address)
    (value : Text) : replaceIpToken (item (flag ++ value)) old.text new.text =
      item (flag ++ replaceIpToken value old.text new.text) := by
  have hitem : Plain "    - ".toList := by decide
  have hline : ∀ value, item (flag ++ value) = "    - ".toList ++ (flag ++ value) :=
    fun _ => rfl
  rw [hline, replaceIpToken_plain_append old new hitem,
    replaceIpToken_plain_append old new hplain, ← hline]

variable {position : Nat} {etcd apiserver : Text} {ip : Ipv4Addr}

/-- A rewriting moves a flag's value where the flag is. -/
theorem flagLine_moved {yaml flag value : Text} (hplain : Plain flag) (hnil : flag ≠ [])
    (hyaml : '\r' ∉ yaml) (hline : flagLine yaml flag = some (item (flag ++ value)))
    (old new : Ipv4Addr) :
    flagLine (replaceIpToken yaml old.print new.print) flag =
      some (item (flag ++ replaceIpToken value old.print new.print)) := by
  have hkept := flagLine_replaceIpToken (printed old) (printed new) hnil hplain hyaml
  rw [hline, Option.map_some, replaceIpToken_item hplain] at hkept
  exact hkept

theorem apart_moved {yaml flag : Text} (hplain : Plain flag) (hnil : flag ≠ [])
    (hyaml : '\r' ∉ yaml) (hapart : Apart flag yaml) (old new : Ipv4Addr) :
    Apart flag (replaceIpToken yaml old.print new.print) := by
  intro line hmem hbinding
  have hlines := lines_replaceIpToken (printed old) (printed new) hyaml
  rw [printed_text, printed_text] at hlines
  rw [hlines] at hmem
  obtain ⟨source, hsource, rfl⟩ := List.mem_map.mp hmem
  have hkept := contains_replaceIpToken (printed old) (printed new) hnil hplain source
  have hbound : contains (bindingStem ++ ['=']) (replaceIpToken source
      (printed old).text (printed new).text) = contains (bindingStem ++ ['=']) source :=
    contains_replaceIpToken (printed old) (printed new) (by decide) (by decide) source
  rw [printed_text, printed_text] at hkept hbound
  rw [hkept]
  exact hapart source hsource (hbound ▸ hbinding)

theorem noReturn_moved {yaml : Text} (hyaml : '\r' ∉ yaml) (old new : Ipv4Addr) :
    '\r' ∉ replaceIpToken yaml old.print new.print :=
  notMem_replaceIpToken (printed old) (printed new) (by decide) (by decide) hyaml

theorem peerUrl_moved (old new ip : Ipv4Addr) :
    replaceIpToken (peerUrl ip.print) old.print new.print =
      peerUrl (moved old new ip).print := by
  have hurl := replaceIpToken_peerUrl (printed old) (printed new) (printed ip)
  rwa [rewrite_printed] at hurl

theorem clientValue_eq (address loopback : Address) :
    clientValue address loopback =
      https ++ (address.text ++ ':' :: ("2379".toList ++ ',' ::
        (https ++ (loopback.text ++ ':' :: "2379".toList)))) := rfl

theorem clientValue_moved (old new ip : Ipv4Addr) (loopback : Address) :
    replaceIpToken (clientValue (printed ip) loopback) old.print new.print =
      clientValue (printed (moved old new ip)) (loopback.rewrite (printed old) (printed new)) := by
  have hport : replaceIpToken "2379".toList (printed old).text (printed new).text =
      "2379".toList := replaceIpToken_noDot (printed old) (printed new) (by decide)
  have hsplit := replaceIpToken_split (printed old) (printed new)
  have hscheme := replaceIpToken_plain_append (printed old) (printed new)
    (show Plain https by decide)
  rw [clientValue_eq, ← printed_text old, ← printed_text new, hscheme,
    hsplit ':' (by decide) (by decide), hsplit ',' (by decide) (by decide), hscheme,
    hsplit ':' (by decide) (by decide), hport, printed_text, printed_text, printed_text,
    replaceIpToken_print]
  rfl

/-- A rewriting of the manifest moves its address. -/
theorem EtcdAt.rewrite (hat : EtcdAt position etcd ip) (old new : Ipv4Addr) :
    EtcdAt position (replaceIpToken etcd old.print new.print) (moved old new ip) where
  noReturn := noReturn_moved hat.noReturn old new
  peerApart := apart_moved (by decide) (by decide) hat.noReturn hat.peerApart old new
  clientApart := apart_moved (by decide) (by decide) hat.noReturn hat.clientApart old new
  clusterApart := apart_moved (by decide) (by decide) hat.noReturn hat.clusterApart old new
  peer := by
    rw [flagLine_moved (by decide) (by decide) hat.noReturn hat.peer, peerUrl_moved]
  client := by
    obtain ⟨loopback, hclient⟩ := hat.client
    refine ⟨loopback.rewrite (printed old) (printed new), ?_⟩
    rw [flagLine_moved (by decide) (by decide) hat.noReturn hclient, clientValue_moved]
  cluster := by
    obtain ⟨members, hquote, hown, hcluster⟩ := hat.cluster
    refine ⟨members.map (rewriteMember (printed old) (printed new)),
      rewriteMember_quote _ _ hquote, ?_, ?_⟩
    · obtain ⟨member, hmember, haddress⟩ := Option.map_eq_some_iff.mp hown
      rw [List.getElem?_map, hmember, Option.map_some, Option.map_some, rewriteMember,
        Address.rewrite_text, haddress, printed_text, printed_text, replaceIpToken_print]
    · rw [flagLine_moved (by decide) (by decide) hat.noReturn hcluster,
        ← replaceIpToken_clusterSpec, printed_text, printed_text]

theorem ApiserverAt.rewrite (hat : ApiserverAt apiserver ip) (old new : Ipv4Addr) :
    ApiserverAt (replaceIpToken apiserver old.print new.print) (moved old new ip) where
  noReturn := noReturn_moved hat.noReturn old new
  address := by
    rw [flagLine_moved (by decide) (by decide) hat.noReturn hat.address,
      replaceIpToken_print]

theorem unlike_flags : Unlike peerFlag ∧ Unlike clientFlag ∧ Unlike clusterFlag := by
  refine ⟨⟨"--initial-advertise-peer-urls".toList, ?_⟩,
    ⟨"--advertise-client-urls".toList, ?_⟩, ⟨"--initial-cluster".toList, ?_⟩⟩ <;>
    decide

/-- Binding etcd to all addresses leaves it where it is. -/
theorem EtcdAt.listenAll {out : Text} (hat : EtcdAt position etcd ip)
    (hout : ensureEtcdListenAll etcd = some out) : EtcdAt position out ip := by
  obtain ⟨hpeer, hclient, hcluster⟩ := unlike_flags
  have hpeerLine := flagLine_listenAll hpeer hat.noReturn hat.peerApart hout
  have hclientLine := flagLine_listenAll hclient hat.noReturn hat.clientApart hout
  have hclusterLine := flagLine_listenAll hcluster hat.noReturn hat.clusterApart hout
  exact
    { noReturn := (lines_listenAll hat.noReturn hout).2
      peerApart := hpeerLine.2
      clientApart := hclientLine.2
      clusterApart := hclusterLine.2
      peer := by rw [hpeerLine.1, hat.peer]
      client := by rw [hclientLine.1]; exact hat.client
      cluster := by rw [hclusterLine.1]; exact hat.cluster }

theorem clientValue_plain (address loopback : Address) {c : Char}
    (hdigit : c.isDigit = false) (hdot : c ≠ '.')
    (htext : c ∉ https ++ ":2379,https://:2379".toList) :
    c ∉ clientValue address loopback := by
  have haddress := address.notMem hdigit hdot
  have hloopback := loopback.notMem hdigit hdot
  intro hmem
  simp only [clientValue, List.mem_append] at hmem
  rcases hmem with h | h | h | h | h
  · exact htext (List.mem_append_left _ h)
  · exact haddress h
  · exact htext (List.mem_append_right _ (List.mem_append_left ":2379".toList h))
  · exact hloopback h
  · exact htext (List.mem_append_right _ (List.mem_append_right ":2379,https://".toList h))

theorem clientValue_noWhite (address loopback : Address) :
    ∀ c ∈ clientValue address loopback, isWhite c = false ∧ c ≠ '"' := by
  have hscheme : ∀ c ∈ https, isWhite c = false := by decide
  have hmiddle : ∀ c ∈ ":2379,https://".toList, isWhite c = false := by decide
  have hport : ∀ c ∈ ":2379".toList, isWhite c = false := by decide
  intro c hmem
  constructor
  · simp only [clientValue, List.mem_append] at hmem
    rcases hmem with h | h | h | h | h
    · exact hscheme c h
    · exact address.noWhite c h
    · exact hmiddle c h
    · exact loopback.noWhite c h
    · exact hport c h
  · rintro rfl
    exact clientValue_plain address loopback (by decide) (by decide) (by decide) hmem

/-- The manifest advertises the address at which it is. -/
theorem EtcdAt.advertises (hat : EtcdAt position etcd ip) :
    AdvertisesEtcd position etcd ip.print := by
  refine ⟨?_, ?_, ?_⟩
  · apply etcdFlagValue_of_flagLine hat.peer
    apply flagOf_item rfl
    · simp [peerUrl, https]
    · intro c hmem
      have hplain : ∀ c : Char, c.isDigit = false → c ≠ '.' → c ∉ https →
          c ∉ ":2380".toList → c ∉ peerUrl ip.print := fun c hdigit hdot =>
        (printed ip).notMem_peerUrl ⟨hdigit, hdot⟩
      refine ⟨peerUrl_noWhite (printed ip) c hmem, ?_, ?_⟩
      · rintro rfl
        exact hplain '"' (by decide) (by decide) (by decide) (by decide) hmem
      · rintro rfl
        exact hplain ',' (by decide) (by decide) (by decide) (by decide) hmem
  · obtain ⟨loopback, hclient⟩ := hat.client
    have hvalue := @flagOf_item_last clientFlag (clientValue (printed ip) loopback) rfl
      (by simp [clientValue, https]) (clientValue_noWhite _ _)
      (by simp [clientValue, List.getLast?_append, List.getLast?_cons])
    rw [etcdFlagValue_of_flagLine hclient hvalue, Option.any_some, startsWith,
      List.isPrefixOf_iff_prefix]
    refine ⟨https ++ (loopback.text ++ ":2379".toList), ?_⟩
    rw [clientValue_eq]
    simp only [List.append_assoc, printed_text]
    rfl
  · obtain ⟨members, hquote, hown, hcluster⟩ := hat.cluster
    have hne : members ≠ [] := by
      rintro rfl
      simp at hown
    obtain ⟨hnil, hchars, hlast⟩ := clusterSpec_value hne hquote
    rw [etcdFlagValue_of_flagLine hcluster (flagOf_item_last rfl hnil hchars hlast),
      Option.bind_some, parse_clusterSpec hne, List.getElem?_map, Option.map_map]
    exact hown

theorem ApiserverAt.advertises (hat : ApiserverAt apiserver ip) :
    AdvertisesApiserver apiserver ip.print := by
  apply etcdFlagValue_of_flagLine hat.address
  apply flagOf_item rfl (printed ip).ne_nil
  intro c hmem
  refine ⟨(printed ip).noWhite c hmem, ?_, ?_⟩
  · rintro rfl
    exact (printed ip).notMem (by decide) (by decide) hmem
  · rintro rfl
    exact (printed ip).notMem (by decide) (by decide) hmem

theorem peerUrl_injective {left right : Text} (hurl : peerUrl left = peerUrl right) :
    left = right := by
  simpa [peerUrl] using hurl

/-- It advertises no other address. -/
theorem EtcdAt.eq_of_advertises {address : Text} (hat : EtcdAt position etcd ip)
    (hadvertises : AdvertisesEtcd position etcd address) : address = ip.print := by
  have hpeer := hat.advertises.1
  rw [hadvertises.1, Option.some.injEq] at hpeer
  exact peerUrl_injective hpeer

theorem ApiserverAt.eq_of_advertises {address : Text} (hat : ApiserverAt apiserver ip)
    (hadvertises : AdvertisesApiserver apiserver address) : address = ip.print := by
  have haddress := hat.advertises
  rw [AdvertisesApiserver, hadvertises, Option.some.injEq] at haddress
  exact haddress

end Manifests

section Loop

/-- An address after a rewriting that has surely reached it if `found` holds. -/
def Shifted (old new before after : Ipv4Addr) (found : Prop) : Prop :=
  (after = before ∨ after = moved old new before) ∧ (found → after = moved old new before)

variable {old new first second third : Ipv4Addr} {found later : Prop}

theorem moved_moved (ip : Ipv4Addr) : moved old new (moved old new ip) = moved old new ip := by
  by_cases hip : ip = old
  · rw [hip, show moved old new old = new from if_pos rfl, moved_new]
  · have hsame : moved old new ip = ip := if_neg hip
    rw [hsame, hsame]

theorem Shifted.refl (hfound : ¬ found) (ip : Ipv4Addr) : Shifted old new ip ip found :=
  ⟨.inl rfl, fun h => absurd h hfound⟩

theorem Shifted.trans (hfirst : Shifted old new first second found)
    (hsecond : Shifted old new second third later) :
    Shifted old new first third (found ∨ later) := by
  have hmoved : moved old new second = moved old new first := by
    rcases hfirst.1 with rfl | rfl
    · rfl
    · exact moved_moved first
  constructor
  · rcases hsecond.1 with rfl | hthird
    · exact hfirst.1
    · exact .inr (hthird.trans hmoved)
  · rintro (hfound | hlater)
    · rcases hsecond.1 with rfl | hthird
      · exact hfirst.2 hfound
      · exact hthird.trans hmoved
    · exact (hsecond.2 hlater).trans hmoved

theorem Shifted.mono (hshifted : Shifted old new first second found) (himp : later → found) :
    Shifted old new first second later :=
  ⟨hshifted.1, fun h => hshifted.2 (himp h)⟩

/-- A manifest that goes through the loop and is read has been searched. -/
theorem rewriteFile_shifted {At : Text → Ipv4Addr → Prop}
    (hrewrite : ∀ raw ip, At raw ip → At (replaceIpToken raw old.print new.print)
      (moved old new ip))
    {readable : Bool} {written : Written} (huntorn : Untorn written) {raw : Text}
    (hraw : At raw first) :
    ∃ second, At (rewriteFile readable written raw old.print new.print).1 second ∧
      Shifted old new first second
        ((rewriteFile readable written raw old.print new.print).2 = true ∧
          readable = true) := by
  have hnext := hrewrite raw first hraw
  cases readable with
  | false => exact ⟨first, hraw, .refl (by simp) first⟩
  | true =>
      simp only [rewriteFile, Bool.not_true, Bool.false_or]
      by_cases hsame : replaceIpToken raw old.print new.print = raw
      · rw [if_pos (decide_eq_true hsame)]
        rw [hsame] at hnext
        exact ⟨moved old new first, hnext, .inr rfl, fun _ => rfl⟩
      · rw [if_neg (by simpa using hsame)]
        cases written with
        | done => exact ⟨moved old new first, hnext, .inr rfl, fun _ => rfl⟩
        | kept => exact ⟨first, hraw, .refl (by simp [Written.ok]) first⟩
        | torn length => exact absurd huntorn id

/-- The two manifests are at these addresses. -/
def Placed (position : Nat) (cp : ControlPlane) (etcdIp apiserverIp : Ipv4Addr) : Prop :=
  EtcdAt position cp.etcd etcdIp ∧ ApiserverAt cp.apiserver apiserverIp

variable {position : Nat} {cp : ControlPlane} {etcdIp apiserverIp : Ipv4Addr}

/-- What the loop has done to the manifests when it ends. -/
theorem rewriteEntries_placed {entries : List Entry}
    (hwhole : ∀ entry ∈ entries, entry.Whole)
    (hplaced : Placed position cp etcdIp apiserverIp) :
    ∃ etcdNext apiserverNext,
      Placed position (rewriteEntries old.print new.print cp entries).1 etcdNext
        apiserverNext ∧
      (rewriteEntries old.print new.print cp entries).1.advertise = cp.advertise ∧
      Shifted old new etcdIp etcdNext
        ((rewriteEntries old.print new.print cp entries).2 = true ∧
          entries.any Entry.readsEtcd = true) ∧
      Shifted old new apiserverIp apiserverNext
        ((rewriteEntries old.print new.print cp entries).2 = true ∧
          entries.any Entry.readsApiserver = true) := by
  induction entries generalizing cp etcdIp apiserverIp with
  | nil =>
      exact ⟨etcdIp, apiserverIp, hplaced, rfl, .refl (by simp) etcdIp,
        .refl (by simp) apiserverIp⟩
  | cons entry rest ih =>
      have hentry := hwhole entry List.mem_cons_self
      have hrest := fun other hmem => hwhole other (List.mem_cons_of_mem _ hmem)
      cases entry with
      | failed =>
          exact ⟨etcdIp, apiserverIp, hplaced, rfl, .refl (by simp [rewriteEntries]) etcdIp,
            .refl (by simp [rewriteEntries]) apiserverIp⟩
      | other ok =>
          cases ok with
          | false =>
              exact ⟨etcdIp, apiserverIp, hplaced, rfl,
                .refl (by simp [rewriteEntries]) etcdIp,
                .refl (by simp [rewriteEntries]) apiserverIp⟩
          | true =>
              simpa [rewriteEntries, Entry.readsEtcd, Entry.readsApiserver] using
                ih hrest hplaced
      | etcd readable written =>
          obtain ⟨second, hsecond, hshifted⟩ := @rewriteFile_shifted old new etcdIp
            (EtcdAt position) (fun _ _ hat => hat.rewrite old new) readable written hentry
            cp.etcd hplaced.1
          rw [rewriteEntries]
          generalize hfile : rewriteFile readable written cp.etcd old.print new.print = file
            at hsecond hshifted
          obtain ⟨text, ok⟩ := file
          cases ok with
          | false =>
              exact ⟨second, apiserverIp, ⟨hsecond, hplaced.2⟩, rfl,
                hshifted.mono (by simp), .refl (by simp) apiserverIp⟩
          | true =>
              obtain ⟨etcdNext, apiserverNext, hnext, hadvertise, hetcd, hapiserver⟩ :=
                @ih { cp with etcd := text } second apiserverIp hrest ⟨hsecond, hplaced.2⟩
              refine ⟨etcdNext, apiserverNext, hnext, hadvertise, ?_, hapiserver⟩
              apply (hshifted.trans hetcd).mono
              rintro ⟨hok, hreads⟩
              rw [List.any_cons, Bool.or_eq_true] at hreads
              exact hreads.imp (fun h => ⟨rfl, h⟩) fun h => ⟨hok, h⟩
      | apiserver readable written =>
          obtain ⟨second, hsecond, hshifted⟩ := @rewriteFile_shifted old new apiserverIp
            ApiserverAt (fun _ _ hat => hat.rewrite old new) readable written hentry
            cp.apiserver hplaced.2
          rw [rewriteEntries]
          generalize hfile : rewriteFile readable written cp.apiserver old.print new.print =
            file at hsecond hshifted
          obtain ⟨text, ok⟩ := file
          cases ok with
          | false =>
              exact ⟨etcdIp, second, ⟨hplaced.1, hsecond⟩, rfl, .refl (by simp) etcdIp,
                hshifted.mono (by simp)⟩
          | true =>
              obtain ⟨etcdNext, apiserverNext, hnext, hadvertise, hetcd, hapiserver⟩ :=
                @ih { cp with apiserver := text } etcdIp second hrest ⟨hplaced.1, hsecond⟩
              refine ⟨etcdNext, apiserverNext, hnext, hadvertise, hetcd, ?_⟩
              apply (hshifted.trans hapiserver).mono
              rintro ⟨hok, hreads⟩
              rw [List.any_cons, Bool.or_eq_true] at hreads
              exact hreads.imp (fun h => ⟨rfl, h⟩) fun h => ⟨hok, h⟩

end Loop

section Steps

variable {position : Nat} {cp : ControlPlane} {etcdIp apiserverIp stored : Ipv4Addr}
variable {call : Call}

theorem trim_advertise (ip : Ipv4Addr) : trim (ip.print ++ ['\n']) = ip.print := by
  have hfeed : White ['\n'] := by decide
  rw [trim_append_white hfeed]
  exact trim_of_noWhite (printed ip).noWhite

theorem EtcdAt.ensureListenAll {etcd : Text} (hat : EtcdAt position etcd etcdIp)
    (huntorn : Untorn call.listenWritten) :
    EtcdAt position (ensureListenAll call etcd).1 etcdIp := by
  rw [Bootstrap.ensureListenAll]
  split
  · exact hat
  · cases hbound : ensureEtcdListenAll etcd with
    | none => exact hat
    | some out =>
        cases hwritten : call.listenWritten with
        | done => exact hat.listenAll hbound
        | kept => exact hat
        | torn length =>
            rw [hwritten] at huntorn
            exact absurd huntorn id

/-- A bootstrapped control plane, wherever the addresses have got to. -/
structure Located (position : Nat) (cp : ControlPlane) : Prop where
  placed : ∃ etcdIp apiserverIp, Placed position cp etcdIp apiserverIp
  stored : ∃ stored : Ipv4Addr, cp.advertise = stored.print ++ ['\n']

/-- A rebase that has nothing to move. -/
theorem rebase_nothing (hpick : pickRebaseIp (readAdvertise call cp) call.newIp.print
      (vip call cp) = none) :
    rebaseAdvertiseAddress call cp =
      ({ cp with etcd := (ensureListenAll call cp.etcd).1 },
        (ensureListenAll call cp.etcd).2) := by
  simp only [rebaseAdvertiseAddress, hpick]

theorem rebinds_of_true (hbound : (ensureListenAll call cp.etcd).2 = some true) :
    Rebinds call cp := by
  rw [ensureListenAll] at hbound
  split at hbound
  · cases hbound
  · next hreadable =>
      cases hout : ensureEtcdListenAll cp.etcd with
      | none => simp [hout] at hbound
      | some out =>
          rw [hout] at hbound
          refine ⟨by simpa using hreadable, by simp [hout], ?_⟩
          by_contra hwritten
          simp [hwritten] at hbound

/-- What a rebase that moves the node does to its disk: it rewrites the manifests, and it
stores the new address if it goes through. -/
theorem rebase_moves {picked : Text}
    (hpick : pickRebaseIp (readAdvertise call cp) call.newIp.print (vip call cp) =
      some picked)
    (hwhole : Whole call) {rewritten : ControlPlane × Bool}
    (hrewritten : rewriteIpInDir (readAdvertise call cp) call.newIp.print cp call.entries =
      rewritten) :
    ((rebaseAdvertiseAddress call cp).1.etcd = rewritten.1.etcd ∨
        (rebaseAdvertiseAddress call cp).1.etcd =
          (ensureListenAll call rewritten.1.etcd).1) ∧
      (rebaseAdvertiseAddress call cp).1.apiserver = rewritten.1.apiserver ∧
      ((rebaseAdvertiseAddress call cp).1.advertise = rewritten.1.advertise ∨
        (rebaseAdvertiseAddress call cp).1.advertise = call.newIp.print ++ ['\n']) ∧
      ((rebaseAdvertiseAddress call cp).2 = some true →
        Unhindered call cp ∧
          (rebaseAdvertiseAddress call cp).1.advertise = call.newIp.print ++ ['\n']) := by
  have hfile := hwhole.2.2
  simp only [rebaseAdvertiseAddress, hpick, hrewritten, Unhindered]
  split
  · simp
  · next hloop =>
      split
      · simp
      · next hreissued =>
          split
          · simp
          · next hkubeconfig =>
              have hkept : call.serverHost = some (readAdvertise call cp) →
                  readAdvertise call cp ≠ [] → call.kubeconfigWritten = true := by
                intro hhost hne
                by_contra hwritten
                exact hkubeconfig ⟨hhost, hne, by simp [hwritten]⟩
              cases hwritten : call.advertiseWritten with
              | done =>
                  refine ⟨.inr rfl, rfl, .inr rfl, fun _ => ⟨⟨?_, ?_, hkept, rfl⟩, rfl⟩⟩
                  · simpa using hloop
                  · simpa using hreissued
              | kept => simp [Written.file, Written.ok]
              | torn length =>
                  rw [hwritten] at hfile
                  exact absurd hfile id

/-- The rewriting of the whole directory; without a stored address it does nothing. -/
theorem rewriteIpInDir_placed (hwhole : Whole call)
    (hstored : cp.advertise = stored.print ++ ['\n'])
    (hplaced : Placed position cp etcdIp apiserverIp) :
    ∃ etcdNext apiserverNext,
      Placed position (rewriteIpInDir (readAdvertise call cp) call.newIp.print cp
        call.entries).1 etcdNext apiserverNext ∧
      (rewriteIpInDir (readAdvertise call cp) call.newIp.print cp call.entries).1.advertise =
        cp.advertise ∧
      Shifted stored call.newIp etcdIp etcdNext
        (call.advertiseReadable = true ∧
          (rewriteIpInDir (readAdvertise call cp) call.newIp.print cp call.entries).2 = true ∧
          call.entries.any Entry.readsEtcd = true) ∧
      Shifted stored call.newIp apiserverIp apiserverNext
        (call.advertiseReadable = true ∧
          (rewriteIpInDir (readAdvertise call cp) call.newIp.print cp call.entries).2 = true ∧
          call.entries.any Entry.readsApiserver = true) := by
  cases hreadable : call.advertiseReadable with
  | false =>
      have hnil : readAdvertise call cp = [] := by simp [readAdvertise, hreadable]
      rw [hnil, rewriteIpInDir, if_pos rfl]
      exact ⟨etcdIp, apiserverIp, hplaced, rfl, .refl (by simp) etcdIp,
        .refl (by simp) apiserverIp⟩
  | true =>
      have hread : readAdvertise call cp = stored.print := by
        rw [readAdvertise, hreadable, hstored, trim_advertise]
        rfl
      have hnonempty : stored.print ≠ [] := (printed stored).ne_nil
      rw [hread, rewriteIpInDir, if_neg hnonempty]
      obtain ⟨etcdNext, apiserverNext, hnext, hadvertise, hetcd, hapiserver⟩ :=
        @rewriteEntries_placed stored call.newIp position cp etcdIp apiserverIp call.entries
          hwhole.1 hplaced
      exact ⟨etcdNext, apiserverNext, hnext, hadvertise, hetcd.mono fun h => h.2,
        hapiserver.mono fun h => h.2⟩

/-- The addresses of a call that goes through. -/
theorem shifted_new {next : Ipv4Addr} {found : Prop}
    (hshifted : Shifted stored call.newIp etcdIp next found)
    (hsearched : etcdIp = call.newIp ∨ etcdIp = stored ∧ found) : next = call.newIp := by
  rcases hsearched with rfl | ⟨rfl, hfound⟩
  · rcases hshifted.1 with rfl | rfl
    · rfl
    · exact moved_new
  · exact (hshifted.2 hfound).trans (if_pos rfl)

theorem readAdvertise_eq_print {ip : Ipv4Addr}
    (hstored : cp.advertise = stored.print ++ ['\n'])
    (hread : readAdvertise call cp = ip.print) :
    call.advertiseReadable = true ∧ ip = stored := by
  rw [readAdvertise, hstored, trim_advertise] at hread
  split at hread
  · next hreadable => exact ⟨hreadable, (print_injective hread).symm⟩
  · exact absurd hread.symm (printed ip).ne_nil

/-- One step: the addresses stay where a rebase can find them, and a rebase that goes
through has the node at its address. -/
theorem step_converged {state next : State} (hlocated : Located position state.disk)
    (hsteady : Steady position state call) (hstep : step state call = some next) :
    Located position next.disk ∧ Converged position next := by
  obtain ⟨hwhole, hrebinds, hsearches⟩ := hsteady
  obtain ⟨⟨etcdIp, apiserverIp, hplaced⟩, stored, hstored⟩ := hlocated
  cases Option.some.inj hstep
  cases hpick : pickRebaseIp (readAdvertise call state.disk) call.newIp.print
      (vip call state.disk) with
  | none =>
      have hguard := hrebinds (by rw [Moves, hpick]; rfl)
      have hetcd := @EtcdAt.ensureListenAll position etcdIp call state.disk.etcd hplaced.1
        hwhole.2.1
      rw [rebase_nothing hpick]
      refine ⟨⟨⟨etcdIp, apiserverIp, hetcd, hplaced.2⟩, stored, hstored⟩, ?_⟩
      intro address haddress
      simp only [Option.mem_def, Option.ite_none_right_eq_some, Option.some.injEq] at haddress
      obtain ⟨hbound, rfl⟩ := haddress
      obtain ⟨hetcdOld, hapiserverOld, hadvertiseOld⟩ := hguard (rebinds_of_true hbound)
      have hsame := print_injective (hplaced.1.eq_of_advertises hetcdOld)
      rw [← hsame] at hetcd
      exact ⟨hetcd.advertises, hapiserverOld, hadvertiseOld⟩
  | some picked =>
      have hguard := hsearches (by rw [Moves, hpick]; rfl)
      obtain ⟨hetcd, hapiserver, hadvertise, hresult⟩ := rebase_moves hpick hwhole rfl
      obtain ⟨etcdNext, apiserverNext, hnext, hkept, hetcdShift, hapiserverShift⟩ :=
        rewriteIpInDir_placed hwhole hstored hplaced
      have hetcdAt : EtcdAt position (rebaseAdvertiseAddress call state.disk).1.etcd
          etcdNext := by
        rcases hetcd with h | h
        · rw [h]
          exact hnext.1
        · rw [h]
          exact hnext.1.ensureListenAll hwhole.2.1
      have hapiserverAt : ApiserverAt (rebaseAdvertiseAddress call state.disk).1.apiserver
          apiserverNext := by
        rw [hapiserver]
        exact hnext.2
      constructor
      · refine ⟨⟨etcdNext, apiserverNext, hetcdAt, hapiserverAt⟩, ?_⟩
        rcases hadvertise with h | h
        · exact ⟨stored, by rw [h, hkept, hstored]⟩
        · exact ⟨call.newIp, h⟩
      · intro address haddress
        simp only [Option.mem_def, Option.ite_none_right_eq_some, Option.some.injEq]
          at haddress
        obtain ⟨hok, rfl⟩ := haddress
        obtain ⟨hunhindered, hnew⟩ := hresult hok
        obtain ⟨hetcdFound, hapiserverFound⟩ := hguard hunhindered
        have hetcdNew : etcdNext = call.newIp := by
          apply shifted_new hetcdShift
          rcases hetcdFound with h | ⟨h, hreads⟩
          · exact .inl (print_injective (hplaced.1.eq_of_advertises h)).symm
          · obtain ⟨hreadable, hsame⟩ := readAdvertise_eq_print hstored
              (hplaced.1.eq_of_advertises h)
            exact .inr ⟨hsame, hreadable, hunhindered.1, hreads⟩
        have hapiserverNew : apiserverNext = call.newIp := by
          apply shifted_new hapiserverShift
          rcases hapiserverFound with h | ⟨h, hreads⟩
          · exact .inl (print_injective (hplaced.2.eq_of_advertises h)).symm
          · obtain ⟨hreadable, hsame⟩ := readAdvertise_eq_print hstored
              (hplaced.2.eq_of_advertises h)
            exact .inr ⟨hsame, hreadable, hunhindered.1, hreads⟩
        rw [hetcdNew] at hetcdAt
        rw [hapiserverNew] at hapiserverAt
        exact ⟨hetcdAt.advertises, hapiserverAt.advertises, hnew⟩

end Steps

/-- A control plane as bootstrapping or joining leaves it: at one address. -/
structure Settled (position : Nat) (cp : ControlPlane) (ip : Ipv4Addr) : Prop where
  placed : Placed position cp ip ip
  stored : cp.advertise = ip.print ++ ['\n']

/-- Rebases converge: in a run of rebases that tear no file, and that find the addresses in
the manifests whenever they go through, each one that goes through moves the whole node. -/
theorem rebases_converge (position : Nat) (cp : ControlPlane) (ip : Ipv4Addr)
    (calls : List Call) (hsettled : Settled position cp ip)
    (hsteady : Guarded step (Steady position) ⟨cp, none⟩ calls) :
    Throughout step (Converged position) ⟨cp, none⟩ calls := by
  have hstep : ∀ state call next,
      (Located position state.disk ∧ Converged position state) → Steady position state call →
        step state call = some next → (Located position next.disk ∧ Converged position next) :=
    fun _ _ _ hinv hcall hnext => step_converged hinv.1 hcall hnext
  have hlocated : Located position cp := ⟨⟨ip, ip, hsettled.placed⟩, ip, hsettled.stored⟩
  have hstart : Converged position ⟨cp, none⟩ := by
    intro address haddress
    cases haddress
  exact throughout_of_guarded (fun _ hinv => hinv.2) hstep ⟨hlocated, hstart⟩ hsteady

section Fresh

variable (name : Hostname) (ip : Ipv4Addr)

/-- A flag is found on the first argument that has it. -/
theorem flagLine_command {flag argument : Text} {index : Nat} {head tail command : List Text}
    (hhead : ∀ line ∈ head, ¬ flag <:+: line)
    (hbefore : ∀ other ∈ command.take index, ¬ flag <:+: item other)
    (hargument : command[index]? = some argument) (hfound : flag <:+: argument) :
    (head ++ command.map item ++ tail).find? (contains flag) = some (item argument) := by
  obtain ⟨hindex, hget⟩ := List.getElem?_eq_some_iff.mp hargument
  have hnone : ∀ text : Text, ¬ flag <:+: text → (!contains flag text) = true := by
    intro text htext
    rw [Bool.not_eq_true', Bool.eq_false_iff, ne_eq, contains_iff]
    exact htext
  have hitem : contains flag (item argument) = true :=
    contains_iff.mpr (hfound.trans (List.suffix_append "    - ".toList argument).isInfix)
  rw [List.find?_eq_some_iff_append]
  refine ⟨hitem, head ++ (command.take index).map item,
    (command.drop (index + 1)).map item ++ tail, ?_, ?_⟩
  · have hcommand : command = command.take index ++ argument :: command.drop (index + 1) := by
      rw [← hget, List.getElem_cons_drop, List.take_append_drop]
    conv_lhs => rw [hcommand]
    simp only [List.map_append, List.map_cons, List.append_assoc, List.cons_append]
  · intro line hline
    rcases List.mem_append.mp hline with hmem | hmem
    · exact hnone line (hhead line hmem)
    · obtain ⟨other, hother, rfl⟩ := List.mem_map.mp hmem
      exact hnone _ (hbefore other hother)

theorem flagLine_etcdPod {flag argument : Text} {index : Nat} (hflag : '=' ∈ flag)
    (hbefore : ∀ other ∈ (etcdCommand (bootstrapParams name (printed ip))).take index,
      ¬ flag <:+: item other)
    (hargument : (etcdCommand (bootstrapParams name (printed ip)))[index]? = some argument)
    (hfound : flag <:+: argument) :
    flagLine (etcdPod (bootstrapParams name (printed ip))) flag = some (item argument) := by
  rw [flagLine, lines_etcdPod, etcdPodLines]
  apply flagLine_command _ hbefore hargument hfound
  exact fun line hline hoccurs =>
    equals_notMem_manifestHead line hline (hoccurs.subset hflag)

/-- The one line of a freshly written manifest that binds etcd to its client port. -/
theorem binding_line (hname : ¬ bindingStem <:+ name.text) {line : Text}
    (hline : line ∈ etcdPodLines (bootstrapParams name (printed ip)))
    (hbinding : contains (bindingStem ++ ['=']) line = true) : line = item Etcd.listenAll := by
  have hflag : '=' ∉ bindingStem := by decide
  have hoccurs := contains_iff.mp hbinding
  have hequals : '=' ∈ line := hoccurs.subset (by decide)
  rcases List.mem_append.mp hline with hfront | htail
  · rcases List.mem_append.mp hfront with hhead | hcommand
    · exact absurd hequals (equals_notMem_manifestHead line hhead)
    · obtain ⟨argument, hargument, rfl⟩ := List.mem_map.mp hcommand
      have hclient := not_occurs_clientUrls (printed ip) hflag (by decide) []
      have hpeer := not_occurs_peerUrls (printed ip) hflag (by decide) []
      have hlist := not_occurs_initialCluster name (printed ip) hflag (by decide) hname []
      have hown := not_occurs_name name hflag (by decide) []
      have hall : ∀ argument ∈ etcdCommand (bootstrapParams name (printed ip)),
          (bindingStem ++ '=' :: []) <:+: item argument → argument = Etcd.listenAll := by
        simp only [etcdCommand, bootstrapParams, List.forall_mem_cons]
        refine ⟨?_, fun h => absurd h hclient, ?_, ?_, ?_, fun h => absurd h hpeer,
          fun h => absurd h hlist, ?_, ?_, ?_, ?_, fun h => absurd h hown, ?_⟩
        all_goals repeat rw [String.toList_ofList]
        all_goals decide
      exact congrArg item (hall argument hargument hoccurs)
  · have himage : '=' ∉ defaultEtcdImage := by decide
    have hpath : '=' ∉ defaultPkiHostPath := by decide
    exact absurd hequals (equals_notMem_manifestTail himage hpath line htail)

theorem apart_etcdPod (hname : ¬ bindingStem <:+ name.text) {flag : Text}
    (hflag : contains flag (item Etcd.listenAll) = false) :
    Apart flag (etcdPod (bootstrapParams name (printed ip))) := by
  intro line hmem hbinding
  rw [lines_etcdPod] at hmem
  rw [binding_line name ip hname hmem hbinding]
  exact hflag

def loopback : Ipv4Addr := { a := 127, b := 0, c := 0, d := 1 }

theorem clientValue_loopback : clientValue (printed ip) (printed loopback) =
    clientUrls ip.print := by
  have htail : ":2379,https://".toList ++ ((printed loopback).text ++ ":2379".toList) =
      ":2379,https://127.0.0.1:2379".toList := by decide
  rw [clientValue, htail, clientUrls, List.append_assoc, printed_text]

/-- A manifest of etcd that was written at bootstrap, with the node's own entry first. -/
theorem etcdAt_etcdPod (hquote : '"' ∉ name.text)
    (hnames : ∀ flag ∈ [bindingStem, "--initial-cluster".toList], ¬ flag <:+ name.text) :
    EtcdAt 0 (etcdPod (bootstrapParams name (printed ip))) ip where
  noReturn := return_notMem_of_oneLine (oneLine_etcdPodLines name (printed ip))
  peerApart := apart_etcdPod name ip (hnames _ (by simp)) (by decide)
  clientApart := apart_etcdPod name ip (hnames _ (by simp)) (by decide)
  clusterApart := apart_etcdPod name ip (hnames _ (by simp)) (by decide)
  peer := by
    have hclient := @not_occurs_clientUrls (printed ip)
      "--initial-advertise-peer-urls".toList (by decide) (by decide) []
    apply @flagLine_etcdPod name ip peerFlag _ 5 (by decide)
    · simp only [etcdCommand, bootstrapParams, List.take, List.forall_mem_cons]
      exact ⟨by decide, hclient, by decide, by decide, by decide, by simp⟩
    · rfl
    · exact (List.prefix_append _ _).isInfix
  client := by
    refine ⟨printed loopback, ?_⟩
    rw [clientValue_loopback]
    apply @flagLine_etcdPod name ip clientFlag _ 1 (by decide)
    · simp only [etcdCommand, bootstrapParams, List.take, List.forall_mem_cons]
      exact ⟨by decide, by simp⟩
    · rfl
    · exact (List.prefix_append _ _).isInfix
  cluster := by
    have hclient := @not_occurs_clientUrls (printed ip) "--initial-cluster".toList
      (by decide) (by decide) []
    have hpeer := @not_occurs_peerUrls (printed ip) "--initial-cluster".toList
      (by decide) (by decide) []
    have hspec : clusterSpec [(name, printed ip)] = nodeEntry name (printed ip) := by
      simp [clusterSpec, joinWith]
    refine ⟨[(name, printed ip)], by simpa using hquote, rfl, ?_⟩
    rw [hspec]
    apply @flagLine_etcdPod name ip clusterFlag _ 6 (by decide)
    · simp only [etcdCommand, bootstrapParams, List.take, List.forall_mem_cons]
      exact ⟨by decide, hclient, by decide, by decide, by decide, hpeer, by simp⟩
    · rfl
    · exact (List.prefix_append _ _).isInfix

theorem apiserverAt_apiserverPod {version service pki : Text}
    (hversion : oneLine version = true) (hservice : oneLine service = true)
    (hpki : oneLine pki = true) :
    ApiserverAt (apiserverPod ip.print version service pki) ip := by
  have hone : (apiserverHead ++ (apiserverCommand ip.print service).map item ++
      apiserverTail version pki).all oneLine = true := by
    have haddress := oneLine_of_noWhite (printed ip).noWhite
    rw [printed_text] at haddress
    simp only [apiserverHead, apiserverCommand, apiserverTail, List.map_cons, List.map_nil,
      List.all_append, List.all_cons, List.all_nil, oneLine_item, oneLine_append, haddress,
      hversion, hservice, hpki]
    repeat rw [String.toList_ofList]
    decide
  constructor
  · exact return_notMem_of_oneLine hone
  · rw [flagLine, apiserverPod, lines_of_oneLine hone]
    apply @flagLine_command addressFlag _ 1
    · exact fun line hline hoccurs =>
        equals_notMem_apiserverHead line hline (hoccurs.subset (by decide))
    · simp only [apiserverCommand, List.take, List.forall_mem_cons]
      exact ⟨by decide, by simp⟩
    · rfl
    · exact (List.prefix_append _ _).isInfix

/-- The disk of a control plane that has bootstrapped. -/
def freshPlane (version service pki : Text) : ControlPlane where
  etcd := etcdPod (bootstrapParams name (printed ip))
  apiserver := apiserverPod ip.print version service pki
  advertise := ip.print ++ ['\n']

theorem settled_freshPlane (hquote : '"' ∉ name.text)
    (hnames : ∀ flag ∈ [bindingStem, "--initial-cluster".toList], ¬ flag <:+ name.text)
    {version service pki : Text} (hversion : oneLine version = true)
    (hservice : oneLine service = true) (hpki : oneLine pki = true) :
    Settled 0 (freshPlane name ip version service pki) ip where
  placed := ⟨etcdAt_etcdPod name ip hquote hnames,
    apiserverAt_apiserverPod ip hversion hservice hpki⟩
  stored := rfl

end Fresh

def rebaseName : Hostname := .ofText "lab-cp-1".toList (Eq.refl true)

def rebaseIp (last : UInt8) : Ipv4Addr := { a := 10, b := 0, c := 0, d := last }

/-- A control plane whose manifests have no more than the flags that name its address. -/
def rebasePlane : ControlPlane where
  etcd := unlines
    [item (clientFlag ++ clientUrls (rebaseIp 5).print),
      item (peerFlag ++ peerUrl (rebaseIp 5).print),
      item (clusterFlag ++ nodeEntry rebaseName (printed (rebaseIp 5)))]
  apiserver := unlines [item (addressFlag ++ (rebaseIp 5).print)]
  advertise := (rebaseIp 5).print ++ ['\n']

theorem settled_rebasePlane : Settled 0 rebasePlane (rebaseIp 5) where
  placed :=
    ⟨{ noReturn := by decide +kernel
       peerApart := by decide +kernel
       clientApart := by decide +kernel
       clusterApart := by decide +kernel
       peer := by decide +kernel
       client := ⟨printed loopback, by decide +kernel⟩
       cluster := ⟨[(rebaseName, printed (rebaseIp 5))], by decide +kernel,
        by decide +kernel, by decide +kernel⟩ },
      { noReturn := by decide +kernel
        address := by decide +kernel }⟩
  stored := rfl

def rebaseCall (newIp : Ipv4Addr) (reissued : Bool) : Call where
  newIp := newIp
  advertiseReadable := true
  serverHost := none
  entries := [.etcd true .done, .other true, .apiserver true .done]
  listenReadable := true
  listenWritten := .done
  reissued := reissued
  kubeconfigWritten := true
  advertiseWritten := .done

/-- A call that fails after it has rewritten the manifests, the same call again, and a call
with another address. -/
def steadyCalls : List Call :=
  [rebaseCall (rebaseIp 6) false, rebaseCall (rebaseIp 6) true, rebaseCall (rebaseIp 7) true]

theorem rebases_converge_lab : Throughout step (Converged 0) ⟨rebasePlane, none⟩ steadyCalls :=
  rebases_converge 0 rebasePlane (rebaseIp 5) steadyCalls settled_rebasePlane (by decide +kernel)

/-- The first call fails once the manifests are rewritten.  The second one, with another
address, searches them for the stored address, which they no longer have. -/
def strandedCalls : List Call :=
  [rebaseCall (rebaseIp 6) false, rebaseCall (rebaseIp 7) true]

/-- The second call returns `Ok(true)`, and the manifests are at the address of the first. -/
theorem address_stranded :
    ¬ ∀ (position : Nat) (cp : ControlPlane) (ip : Ipv4Addr) (calls : List Call),
      Settled position cp ip → Throughout step (Converged position) ⟨cp, none⟩ calls := by
  intro hclaim
  have hends : (run step ⟨rebasePlane, none⟩ strandedCalls).isSome = true := by
    decide +kernel
  obtain ⟨final, hfinal⟩ := Option.isSome_iff_exists.mp hends
  have hbroken : ∀ final ∈ run step ⟨rebasePlane, none⟩ strandedCalls,
      ¬ Converged 0 final := by decide +kernel
  exact hbroken final hfinal
    ((hclaim 0 rebasePlane (rebaseIp 5) strandedCalls settled_rebasePlane).last hfinal)

end PertiskKos.Bootstrap
