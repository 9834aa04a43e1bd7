import PertiskKos.Etcd.Address

/-!
# The initial cluster and the healer

A control plane starts etcd with a list of `name=url` entries.  The list is put
together from the member list of the running cluster when the node joins, and is
read again when the node decides whether it is the one to recover a cluster that
has no leader.
-/

namespace PertiskKos.Etcd

open Strings

/-- A row of etcd's member list.  The name is empty until the member has started. -/
structure Member where
  id : Nat
  name : Text
  peerUrls : List Text
  isLearner : Bool
  deriving DecidableEq, Repr

def entry (name url : Text) : Text := name ++ '=' :: url

/-- The entry for one member, in the list that node `name` is given. -/
def memberPart (name url : Text) (member : Member) : Text :=
  let peer := member.peerUrls.head?.getD url
  if member.name = [] then
    if url ∈ member.peerUrls then entry name url
    else entry (Nat.toDigits 10 member.id) peer
  else entry member.name peer

def initialClusterFromMembers (members : List Member) (name url : Text) : Text :=
  let parts := members.map (memberPart name url)
  let parts :=
    if parts.any (startsWith · (name ++ ['='])) then parts
    else parts ++ [entry name url]
  joinWith ',' (dedup (sort parts))

def parseHost (hostport : Text) : Text :=
  match ['['].isPrefixOf? hostport with
  | some rest => (rest.splitOn ']').headD rest
  | none =>
      match rsplitOnce ':' hostport with
      | some (host, _) => host
      | none => hostport

def parsePart (part : Text) : Option (Text × Text) :=
  match splitOnce '=' (trim part) with
  | none => none
  | some (name, url) =>
      let rest := trimStartMatches "http://".toList
        (trimStartMatches https (trim url))
      let host := parseHost ((rest.splitOn '/').headD [])
      if name ≠ [] ∧ host ≠ [] then some (name, host) else none

/-- The names and hosts of a list; parts that are no entry are passed over. -/
def parseEtcdInitialCluster (spec : Text) : List (Text × Text) :=
  (spec.splitOn ',').filterMap parsePart

/-- Is the node the one to recover the cluster? -/
def isEtcdHealLeader (name spec : Text) : Bool :=
  let name := trim name
  if endsWith name "-cp-1".toList || endsWith name "-cp1".toList then true
  else (parseEtcdInitialCluster spec).head?.any fun member => member.1 = name

def initialClusterContainsIp (spec ip : Text) : Bool :=
  let ip := trim ip
  if ip = [] then false
  else (parseEtcdInitialCluster spec).any fun member => member.2 = ip

def shouldForceNewCluster (memberCount : Nat) (ipChanged localEtcdUp : Bool) : Bool :=
  if !localEtcdUp then false
  else if ipChanged then true
  else decide (3 ≤ memberCount)

/-- The entry of a node that is called `name` and reached at `address`. -/
def nodeEntry (name : Hostname) (address : Address) : Text :=
  entry name.text (peerUrl address.text)

section Parse

variable (name : Hostname) (address : Address)

theorem peerUrl_noWhite : ∀ c ∈ peerUrl address.text, isWhite c = false := by
  have hscheme : ∀ c ∈ https, isWhite c = false := by decide
  have hport : ∀ c ∈ ":2380".toList, isWhite c = false := by decide
  intro c hmem
  rw [peerUrl] at hmem
  rcases List.mem_append.mp hmem with hfront | hback
  · rcases List.mem_append.mp hfront with h | h
    · exact hscheme c h
    · exact address.noWhite c h
  · exact hport c hback

theorem nodeEntry_noWhite : ∀ c ∈ nodeEntry name address, isWhite c = false := by
  intro c hmem
  rcases List.mem_append.mp hmem with hname | htail
  · exact name.noWhite c hname
  · rcases List.mem_cons.mp htail with rfl | hurl
    · decide
    · exact peerUrl_noWhite address c hurl

theorem comma_notMem_nodeEntry : ',' ∉ nodeEntry name address := by
  have hurl : ',' ∉ peerUrl address.text :=
    address.notMem_peerUrl (by decide) (by decide) (by decide)
  simp only [nodeEntry, entry, List.mem_append, List.mem_cons, not_or]
  exact ⟨name.comma_notMem, by decide, hurl⟩

/-- An address starts with no pattern that starts with neither digit nor dot. -/
theorem not_prefix_of_address {head : Char} {pattern : Text}
    (hhead : head.isDigit = false ∧ head ≠ '.') (tail : Text) :
    ¬ (head :: pattern) <+: address.text ++ tail := by
  rintro ⟨rest, htext⟩
  cases haddress : address.text with
  | nil => exact address.ne_nil haddress
  | cons first text =>
      rw [haddress] at htext
      have hfirst : head = first := (List.cons.inj htext).1
      have hmem : head ∈ address.text := by simp [haddress, hfirst]
      exact address.notMem hhead.1 hhead.2 hmem

/-- Without its scheme a peer URL is host and port. -/
theorem stripScheme_peerUrl :
    trimStartMatches "http://".toList (trimStartMatches https (peerUrl address.text)) =
      address.text ++ ":2380".toList := by
  have hscheme : trimStartMatches https (peerUrl address.text) =
      address.text ++ ":2380".toList := by
    rw [peerUrl, List.append_assoc]
    exact trimStartMatches_append (by decide)
      (not_prefix_of_address address (by decide) _)
  rw [hscheme]
  exact trimStartMatches_of_not_prefix (not_prefix_of_address address (by decide) _)

theorem rsplitOnce_hostport :
    rsplitOnce ':' (address.text ++ ":2380".toList) =
      some (address.text, "2380".toList) :=
  rsplitOnce_append (by decide) address.text

/-- An entry is read back as the name and the address it is made of. -/
theorem parsePart_nodeEntry :
    parsePart (nodeEntry name address) = some (name.text, address.text) := by
  have hslash : (address.text ++ ":2380".toList).splitOn '/' =
      [address.text ++ ":2380".toList] := by
    apply List.splitOn_eq_singleton
    have haddress : '/' ∉ address.text := address.notMem (by decide) (by decide)
    have hport : '/' ∉ ":2380".toList := by decide
    simp only [List.mem_append, haddress, hport, or_self, not_false_eq_true]
  have hhost : parseHost (address.text ++ ":2380".toList) = address.text := by
    have hbracket : ['['].isPrefixOf? (address.text ++ ":2380".toList) = none :=
      isPrefixOf?_eq_none (not_prefix_of_address address (by decide) _)
    rw [parseHost, hbracket, rsplitOnce_hostport]
  rw [parsePart, trim_of_noWhite (nodeEntry_noWhite name address), nodeEntry, entry,
    splitOnce_append name.equals_notMem]
  simp only [trim_of_noWhite (peerUrl_noWhite address), stripScheme_peerUrl, hslash,
    List.headD_cons, hhost]
  rw [if_pos ⟨name.nonempty, address.ne_nil⟩]

end Parse

/-- The list starts with the entry of `name`. -/
def ListedFirst (spec : Text) (name : Hostname) : Prop :=
  ∃ address tail, spec = nodeEntry name address ++ tail ∧
    (tail = [] ∨ ∃ rest, tail = ',' :: rest)

theorem parse_of_listedFirst {spec : Text} {name : Hostname}
    (hfirst : ListedFirst spec name) :
    ∃ address rest, parseEtcdInitialCluster spec = (name.text, address) :: rest := by
  obtain ⟨address, tail, rfl, htail⟩ := hfirst
  have hcomma := comma_notMem_nodeEntry name address
  rcases htail with rfl | ⟨rest, rfl⟩
  · refine ⟨address.text, [], ?_⟩
    rw [parseEtcdInitialCluster, List.append_nil, List.splitOn_eq_singleton hcomma,
      List.filterMap_cons_some (parsePart_nodeEntry name address), List.filterMap_nil]
  · refine ⟨address.text, (rest.splitOn ',').filterMap parsePart, ?_⟩
    rw [parseEtcdInitialCluster, List.splitOn_append_cons_self_of_not_mem hcomma,
      List.filterMap_cons_some (parsePart_nodeEntry name address)]

/-- The name alone makes the node the healer. -/
def healerName (name : Text) : Bool :=
  endsWith name "-cp-1".toList || endsWith name "-cp1".toList

theorem isEtcdHealLeader_iff {spec : Text} {first : Hostname}
    (hfirst : ListedFirst spec first) (name : Hostname) :
    isEtcdHealLeader name.text spec = true ↔
      healerName name.text = true ∨ first.text = name.text := by
  obtain ⟨address, rest, hparse⟩ := parse_of_listedFirst hfirst
  rw [isEtcdHealLeader, trim_of_noWhite name.noWhite, hparse, healerName]
  cases endsWith name.text "-cp-1".toList || endsWith name.text "-cp1".toList <;> simp

theorem replaceIpToken_nodeEntry (old new : Address) (name : Hostname)
    (address : Address) :
    replaceIpToken (nodeEntry name address) old.text new.text =
      nodeEntry (name.rewrite old new) (address.rewrite old new) := by
  rw [nodeEntry, entry, replaceIpToken_split old new '=' (by decide) (by decide),
    replaceIpToken_peerUrl, nodeEntry, entry, Hostname.rewrite_text]

/-- Rewriting an address keeps the first entry in its place. -/
theorem ListedFirst.rewrite {spec : Text} {name : Hostname}
    (hfirst : ListedFirst spec name) (old new : Address) :
    ListedFirst (replaceIpToken spec old.text new.text) (name.rewrite old new) := by
  have hentry := replaceIpToken_nodeEntry old new name
  obtain ⟨address, tail, rfl, htail⟩ := hfirst
  rcases htail with rfl | ⟨rest, rfl⟩
  · refine ⟨address.rewrite old new, [], ?_, .inl rfl⟩
    rw [List.append_nil, List.append_nil, hentry]
  · refine ⟨address.rewrite old new,
      ',' :: replaceIpToken rest old.text new.text, ?_, .inr ⟨_, rfl⟩⟩
    rw [replaceIpToken_split old new ',' (by decide) (by decide), hentry]

/-- A member that has started. -/
structure Peer where
  id : Nat
  name : Hostname
  address : Address

def Peer.member (peer : Peer) : Member :=
  { id := peer.id, name := peer.name.text, peerUrls := [peerUrl peer.address.text],
    isLearner := false }

/-- A member that was just added has no name yet. -/
def Peer.learner (peer : Peer) : Member :=
  { id := peer.id, name := [], peerUrls := [peerUrl peer.address.text],
    isLearner := true }

def memberListAfterAdd (peers : List Peer) (joining : Peer) : List Member :=
  peers.map Peer.member ++ [joining.learner]

def Peer.entry (peer : Peer) : Text := nodeEntry peer.name peer.address

theorem initialClusterFromMembers_after_add (peers : List Peer) (joining : Peer) :
    initialClusterFromMembers (memberListAfterAdd peers joining) joining.name.text
        (peerUrl joining.address.text) =
      joinWith ',' (dedup (sort ((peers ++ [joining]).map Peer.entry))) := by
  have hpeer : memberPart joining.name.text (peerUrl joining.address.text) ∘
      Peer.member = Peer.entry := by
    funext peer
    have hname : ¬ peer.member.name = [] := peer.name.nonempty
    rw [Function.comp_apply, memberPart, if_neg hname]
    rfl
  have hjoining : memberPart joining.name.text (peerUrl joining.address.text)
      joining.learner = joining.entry := by
    simp [memberPart, Peer.learner, Peer.entry, nodeEntry]
  have hparts : (memberListAfterAdd peers joining).map
      (memberPart joining.name.text (peerUrl joining.address.text)) =
        (peers ++ [joining]).map Peer.entry := by
    rw [memberListAfterAdd, List.map_append, List.map_append, List.map_map, hpeer,
      List.map_singleton, List.map_singleton, hjoining]
  have hown : startsWith joining.entry (joining.name.text ++ ['=']) = true := by
    rw [startsWith, List.isPrefixOf_iff_prefix]
    exact ⟨peerUrl joining.address.text, by simp [Peer.entry, nodeEntry, Etcd.entry]⟩
  have hany : ((peers ++ [joining]).map Peer.entry).any
      (startsWith · (joining.name.text ++ ['='])) = true := by
    simp [hown]
  simp only [initialClusterFromMembers, hparts, hany, if_true]

/-- A node that joins is first in its own list unless some member's entry sorts
before its own. -/
theorem listedFirst_after_add {peers : List Peer} {joining earlier : Peer}
    (hearlier : earlier ∈ peers) (hlt : earlier.entry < joining.entry) :
    ∃ first ∈ peers,
      ListedFirst (initialClusterFromMembers (memberListAfterAdd peers joining)
        joining.name.text (peerUrl joining.address.text)) first.name := by
  have hne : (peers ++ [joining]).map Peer.entry ≠ [] := by simp
  obtain ⟨first, rest, hsorted, hmem, hleast⟩ := dedup_sort_cons hne
  have hle : first ≤ earlier.entry :=
    hleast _ (List.mem_map_of_mem (List.mem_append_left _ hearlier))
  obtain ⟨peer, hpeer, rfl⟩ := List.mem_map.mp hmem
  have hpeers : peer ∈ peers := by
    rcases List.mem_append.mp hpeer with h | h
    · exact h
    · rw [List.mem_singleton.mp h] at hle
      exact absurd hlt hle
  refine ⟨peer, hpeers, peer.address, ?_⟩
  rw [initialClusterFromMembers_after_add, hsorted]
  cases rest with
  | nil => exact ⟨[], by simp [joinWith, Peer.entry], .inl rfl⟩
  | cons second rest =>
      refine ⟨',' :: joinWith ',' (second :: rest), ?_, .inr ⟨_, rfl⟩⟩
      simp [joinWith, List.intercalate_cons_cons, Peer.entry]

end PertiskKos.Etcd
