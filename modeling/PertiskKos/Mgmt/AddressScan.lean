import Mathlib.Data.List.AList
import PertiskKos.Library.Ip
import PertiskKos.Library.Runs

/-!
# The scan for free addresses

A job that creates a cluster looks for addresses in the network of its provider.  It reads
what is known to be taken, passes over the addresses that answer, and hands the rest to the
guests it creates.  The addresses get into the tables only when the guests have come up, so
the jobs of several clusters, which run at the same time, may be handed the same ones.
-/

namespace PertiskKos.Addresses

open Strings Ip Runs

/-! ## How addresses are written -/

/-- Extract the host from a provider's URL; only hosts with a digit are of interest. -/
def ipFromProviderUrl (url : Text) : Option Text :=
  let rest := match "https://".toList.isPrefixOf? url with
    | some rest => some rest
    | none => "http://".toList.isPrefixOf? url
  match rest with
  | none => none
  | some rest =>
      let host := trim (rest.takeWhile fun c => c ≠ '/' && c ≠ ':')
      if host = [] || !host.any Char.isDigit then none else some host

/-- The network of 256 addresses around a provider. -/
def subnetFromProviderIp (ip : Text) : Option Text :=
  match ip.splitOn '.' with
  | [a, b, c, _] => some (joinWith '.' [a, b, c, "0/24".toList])
  | _ => none

/-- The IPv4 address that a text denotes, with or without prefix length, brackets or port. -/
def parseLanIp (s : Text) : Option Ipv4Addr :=
  let raw := trim s
  match ipFromProviderUrl raw with
  | some ip => parseIpv4 ip
  | none =>
      let host := trim (raw.takeWhile (· ≠ '/'))
      let host := trimEndMatches [']'] (trimStartMatches ['['] host)
      match parseIpv4 host with
      | some ip => some ip
      | none => if host.count '.' = 3 then parseIpv4 (host.takeWhile (· ≠ ':')) else none

/-- The address that the scan takes a text for. -/
def scannedIp (exclude : Text) : Option Ipv4Addr :=
  parseIpv4 (trim ((trim exclude).takeWhile (· ≠ '/')))

/-! ## The tables -/

structure NodeRow where
  ip : Option Text
  ip6 : Option Text
  deriving DecidableEq, Repr

structure ClusterRow where
  vip : Option Text
  vip6 : Option Text
  /-- The status is `deleting` or `deleted`. -/
  deleting : Bool
  deriving DecidableEq, Repr

structure Tables where
  providerUrls : List Text
  nodes : List NodeRow
  clusters : List ClusterRow
  deriving DecidableEq, Repr

def written (columns : List (Option Text)) : List Text :=
  columns.filterMap fun column => (column.map trim).filter (· ≠ [])

def providerHosts (tables : Tables) : List Text :=
  tables.providerUrls.filterMap ipFromProviderUrl

def inventoryGuestIps (tables : Tables) : List Text :=
  tables.nodes.flatMap fun row => written [row.ip, row.ip6]

def inventoryClusterVips (tables : Tables) : List Text :=
  (tables.clusters.filter fun row => !row.deleting).flatMap fun row => written [row.vip, row.vip6]

/-! ## The addresses of a network -/

abbrev Network := Ipv4Addr × Nat

def Network.size (net : Network) : Nat := 2 ^ (32 - net.2)

/-- All addresses, in ascending order. -/
def Network.addresses (net : Network) : List Ipv4Addr :=
  (List.range net.size).map fun i => Ipv4Addr.ofNat (net.1.network net.2 + i)

/-- Network, broadcast, `.1` and `.254`. -/
def subnetReservedIps (net : Network) : List Ipv4Addr :=
  let network := Ipv4Addr.ofNat (net.1.network net.2)
  let broadcast := Ipv4Addr.ofNat (net.1.network net.2 + net.size - 1)
  let dot1 := network.next
  let dot254 : Ipv4Addr := { network with d := 254 }
  [network, broadcast] ++
    (if dot1 ≠ network ∧ dot1 ≠ broadcast then [dot1] else []) ++
    if dot254 ∈ net.addresses ∧ dot254 ≠ network ∧ dot254 ≠ broadcast then [dot254] else []

/-- The addresses that the scan looks at, from the highest down. -/
def scanCandidates (net : Network) (exclude : List Text) (gateway : Option Text) :
    List Ipv4Addr :=
  let excluded := exclude.filterMap scannedIp ++ subnetReservedIps net ++
    (gateway.bind fun gateway => parseIpv4 (trim gateway)).toList
  (net.addresses.filter fun ip => ip ∉ excluded).reverse

/-- The addresses of one chunk that do not answer, until there are enough. -/
def collectFree (count : Nat) (inUse : Ipv4Addr → Bool) :
    List Ipv4Addr → List Ipv4Addr → List Ipv4Addr × Bool
  | [], free => (free, false)
  | ip :: rest, free =>
      if inUse ip then collectFree count inUse rest free
      else if count ≤ (free ++ [ip]).length then (free ++ [ip], true)
      else collectFree count inUse rest (free ++ [ip])

/-! ## The jobs -/

/-- How far a job has come. -/
inductive Stage where
  | urls
  | guests
  | vips
  | others
  | ready
  | probing (left free : List Ipv4Addr)
  /-- The job goes on with what the scan has returned. -/
  | assigned (ips : List Ipv4Addr)
  | over
  deriving DecidableEq, Repr

/-- The scan of a job. -/
structure Scan where
  need : Nat
  subnet : Text
  /-- What the scan is told to leave out. -/
  exclude : List Text
  /-- What the tables had when they were read. -/
  known : List Text
  stage : Stage
  deriving DecidableEq, Repr

structure State where
  tables : Tables
  /-- The jobs that create clusters, by cluster. -/
  jobs : AList fun _ : Nat => Scan

inductive Event where
  /-- Whatever else the server does to its tables. -/
  | tables (next : Tables)
  /-- The job has read its rows; `need` guests are to be created. -/
  | begin (cluster : Nat) (providerUrl : Text) (need : Nat)
  /-- The tables are read one after another; a read that fails yields nothing. -/
  | readUrls (cluster : Nat) (ok : Bool)
  | readGuests (cluster : Nat) (ok : Bool)
  | readVips (cluster : Nat) (ok : Bool)
  /-- The guests of the hypervisors, the gateway and the hops of the routes. -/
  | readOthers (cluster : Nat) (texts : List Text)
  | scan (cluster : Nat) (gateway : Option Text)
  /-- The next addresses are probed at the same time. -/
  | probe (cluster : Nat) (inUse : Ipv4Addr → Bool)
  /-- The job fails, or goes on without addresses; what was assigned stays with the guests. -/
  | fail (cluster : Nat)
  /-- The cluster is gone, with its guests. -/
  | release (cluster : Nat)

def State.put (state : State) (cluster : Nat) (scan : Scan) : State :=
  { state with jobs := state.jobs.insert cluster scan }

/-- Addresses that were found are handed to the guests. -/
def settle (free : List Ipv4Addr) : Stage :=
  if free = [] then .over else .assigned free

/-- A table is read. -/
def readTable (state : State) (cluster : Nat) (ok : Bool) (texts : List Text)
    (from_ to_ : Stage) : Option State :=
  match state.jobs.lookup cluster with
  | none => none
  | some scan =>
      if scan.stage = from_ then
        some (state.put cluster
          { scan with
            exclude := if ok then scan.exclude ++ texts else scan.exclude
            known := scan.known ++ texts
            stage := to_ })
      else none

def beginScan (state : State) (cluster : Nat) (providerUrl : Text) (need : Nat) : State :=
  let subnet := (ipFromProviderUrl providerUrl).bind subnetFromProviderIp
  state.put cluster
    { need, subnet := subnet.getD [], exclude := [], known := [],
      stage := if subnet.isSome then .urls else .over }

def startProbing (scan : Scan) (gateway : Option Text) : Scan :=
  match parseIpv4Cidr scan.subnet with
  | none => { scan with stage := .over }
  | some net =>
      let candidates := scanCandidates net scan.exclude gateway
      { scan with stage := if candidates = [] then .over else .probing candidates [] }

/-- One chunk of 32 addresses. -/
def probeChunk (scan : Scan) (left free : List Ipv4Addr) (inUse : Ipv4Addr → Bool) : Scan :=
  let found := collectFree scan.need inUse (left.take 32) free
  { scan with
    stage := if found.2 || (left.drop 32).isEmpty then settle found.1
      else .probing (left.drop 32) found.1 }

def step (state : State) : Event → Option State
  | .tables next => some { state with tables := next }
  | .begin cluster providerUrl need => some (beginScan state cluster providerUrl need)
  | .readUrls cluster ok =>
      readTable state cluster ok (providerHosts state.tables) .urls .guests
  | .readGuests cluster ok =>
      readTable state cluster ok (inventoryGuestIps state.tables) .guests .vips
  | .readVips cluster ok =>
      readTable state cluster ok (inventoryClusterVips state.tables) .vips .others
  | .readOthers cluster texts => readTable state cluster true texts .others .ready
  | .scan cluster gateway =>
      match state.jobs.lookup cluster with
      | none => none
      | some scan =>
          if scan.stage = .ready then some (state.put cluster (startProbing scan gateway))
          else none
  | .probe cluster inUse =>
      match state.jobs.lookup cluster with
      | some scan =>
          match scan.stage with
          | .probing left free => some (state.put cluster (probeChunk scan left free inUse))
          | _ => none
      | none => none
  | .fail cluster =>
      match state.jobs.lookup cluster with
      | some scan =>
          match scan.stage with
          | .assigned _ => none
          | _ => some (state.put cluster { scan with stage := .over })
      | none => none
  | .release cluster => some { state with jobs := state.jobs.erase cluster }

/-! ## What is to hold of the addresses -/

def Scan.assigned (scan : Scan) : List Ipv4Addr :=
  match scan.stage with
  | .assigned ips => ips
  | _ => []

/-- The addresses that are handed out, or will be when the scan ends. -/
def Scan.held (scan : Scan) : List Ipv4Addr :=
  match scan.stage with
  | .probing _ free => free
  | .assigned ips => ips
  | _ => []

/-- A host address of the network that nothing in the tables and no exclusion denotes. -/
def Free (scan : Scan) (ip : Ipv4Addr) : Prop :=
  (∃ net, parseIpv4Cidr scan.subnet = some net ∧ ip ∈ Network.addresses net ∧
      ip ∉ subnetReservedIps net) ∧
    ∀ text ∈ scan.exclude ++ scan.known, parseLanIp text ≠ some ip

/-- The scan takes the text for the address that it denotes. -/
def Readable (text : Text) : Prop := parseLanIp text = none ∨ scannedIp text = parseLanIp text

instance (text : Text) : Decidable (Readable text) := inferInstanceAs (Decidable (_ ∨ _))

def ReadsAll (ok : Bool) (texts : List Text) : Prop := ok = true ∧ ∀ text ∈ texts, Readable text

instance (ok : Bool) (texts : List Text) : Decidable (ReadsAll ok texts) :=
  inferInstanceAs (Decidable (_ ∧ _))

/-- The address answers, or enough others of the chunk do not. -/
def PassedOver (scan : Scan) (left free : List Ipv4Addr) (inUse : Ipv4Addr → Bool)
    (ip : Ipv4Addr) : Prop :=
  inUse ip = true ∨ max scan.need 1 ≤ free.length +
    (((left.take 32).takeWhile (· ≠ ip)).filter fun other => !inUse other).length

instance (scan : Scan) (left free : List Ipv4Addr) (inUse : Ipv4Addr → Bool)
    (ip : Ipv4Addr) : Decidable (PassedOver scan left free inUse ip) :=
  inferInstanceAs (Decidable (_ ∨ _))

/-- The chunk passes over what the other jobs hold. -/
def Avoids (state : State) (cluster : Nat) (inUse : Ipv4Addr → Bool) (scan : Scan) : Prop :=
  match scan.stage with
  | .probing left free => ∀ entry ∈ state.jobs.entries, entry.1 ≠ cluster →
      ∀ ip ∈ entry.2.held, ip ∈ left.take 32 → PassedOver scan left free inUse ip
  | _ => True

instance (state : State) (cluster : Nat) (inUse : Ipv4Addr → Bool) (scan : Scan) :
    Decidable (Avoids state cluster inUse scan) :=
  match hstage : scan.stage with
  | .probing left free =>
      decidable_of_iff (∀ entry ∈ state.jobs.entries, entry.1 ≠ cluster →
        ∀ ip ∈ entry.2.held, ip ∈ left.take 32 → PassedOver scan left free inUse ip)
        (by rw [Avoids, hstage])
  | .urls | .guests | .vips | .others | .ready | .assigned _ | .over =>
      .isTrue (by rw [Avoids, hstage]; trivial)

/-- The tables are read and all their addresses understood, and no scan takes an address
that another job holds. -/
def Heeds (state : State) : Event → Prop
  | .readUrls _ ok => ReadsAll ok (providerHosts state.tables)
  | .readGuests _ ok => ReadsAll ok (inventoryGuestIps state.tables)
  | .readVips _ ok => ReadsAll ok (inventoryClusterVips state.tables)
  | .readOthers _ texts => ReadsAll true texts
  | .probe cluster inUse => ∀ scan ∈ state.jobs.lookup cluster, Avoids state cluster inUse scan
  | _ => True

instance (state : State) (event : Event) : Decidable (Heeds state event) :=
  match event with
  | .readUrls _ _ | .readGuests _ _ | .readVips _ _ | .readOthers _ _ =>
      inferInstanceAs (Decidable (ReadsAll _ _))
  | .probe cluster inUse =>
      inferInstanceAs (Decidable (∀ scan ∈ state.jobs.lookup cluster,
        Avoids state cluster inUse scan))
  | .tables _ | .begin _ _ _ | .scan _ _ | .fail _ | .release _ => .isTrue trivial

/-! ## The proof -/

section Collect

variable {count : Nat} {inUse : Ipv4Addr → Bool}

/-- What a chunk adds to the addresses that were found. -/
theorem collectFree_spec (chunk free : List Ipv4Addr) :
    ∃ added, (collectFree count inUse chunk free).1 = free ++ added ∧
      added.Sublist chunk ∧
      (free.length < count → (free ++ added).length ≤ count ∧
        ((collectFree count inUse chunk free).2 = false → (free ++ added).length < count)) ∧
      (chunk.Nodup → ∀ ip ∈ added, inUse ip = false ∧ (free.length < count →
        free.length + ((chunk.takeWhile (· ≠ ip)).filter fun other => !inUse other).length <
          count)) := by
  induction chunk generalizing free with
  | nil => exact ⟨[], by simp [collectFree], .slnil, by simp; omega, by simp⟩
  | cons ip rest ih =>
      rw [collectFree]
      split
      · next hbusy =>
          obtain ⟨added, hfree, hsub, hlength, hquiet⟩ := ih free
          refine ⟨added, hfree, hsub.cons ip, hlength, fun hnodup other hmem => ?_⟩
          obtain ⟨hip, hrest⟩ := List.nodup_cons.mp hnodup
          have hne : ip ≠ other := fun h => hip (h ▸ hsub.subset hmem)
          simpa [hne, hbusy] using hquiet hrest other hmem
      · next hquietIp =>
          split
          · next henough =>
              refine ⟨[ip], rfl, (List.nil_sublist rest).cons_cons ip, fun hshort => ?_,
                fun _ other hmem => ?_⟩
              · simp only [List.length_append, List.length_singleton] at henough ⊢
                exact ⟨by omega, fun h => absurd h (by simp)⟩
              · cases List.mem_singleton.mp hmem
                exact ⟨by simpa using hquietIp, fun hshort => by simpa using hshort⟩
          · next hmore =>
              obtain ⟨added, hfree, hsub, hlength, hquiet⟩ := ih (free ++ [ip])
              have hshort : (free ++ [ip]).length < count := by omega
              refine ⟨ip :: added, ?_, hsub.cons_cons ip, fun _ => ?_,
                fun hnodup other hmem => ?_⟩
              · rw [hfree, List.append_assoc]
                rfl
              · simpa [List.append_assoc] using hlength hshort
              · obtain ⟨hip, hrest⟩ := List.nodup_cons.mp hnodup
                rcases List.mem_cons.mp hmem with rfl | hlater
                · exact ⟨by simpa using hquietIp, fun h => by simpa using h⟩
                · have hne : ip ≠ other := fun h => hip (h ▸ hsub.subset hlater)
                  obtain ⟨hother, hbefore⟩ := hquiet hrest other hlater
                  have hbound := hbefore hshort
                  rw [List.length_append, List.length_singleton] at hbound
                  refine ⟨hother, fun _ => ?_⟩
                  simp only [List.takeWhile_cons, hne, ne_eq, not_false_eq_true,
                    decide_true, if_true, List.filter_cons, hquietIp]
                  simp only [Bool.not_false, if_true, List.length_cons]
                  simp only [ne_eq] at hbound
                  omega

/-- At least one address is taken, also where none is asked for. -/
theorem collectFree_max (chunk free : List Ipv4Addr) :
    collectFree (max count 1) inUse chunk free = collectFree count inUse chunk free := by
  induction chunk generalizing free with
  | nil => rfl
  | cons ip rest ih =>
      have henough : max count 1 ≤ (free ++ [ip]).length ↔ count ≤ (free ++ [ip]).length := by
        rw [List.length_append, List.length_singleton]
        omega
      simp only [collectFree, henough, ih]

end Collect

section Candidates

theorem network_add_lt {n k i : Nat} (hn : n < 2 ^ 32) (hk : k ≤ 32) (hi : i < 2 ^ k) :
    n - n % 2 ^ k + i < 2 ^ 32 := by
  have hsplit : 2 ^ 32 = 2 ^ k * 2 ^ (32 - k) := by
    rw [← Nat.pow_add, Nat.add_sub_cancel' hk]
  have hquotient : n / 2 ^ k < 2 ^ (32 - k) := Nat.div_lt_of_lt_mul (hsplit ▸ hn)
  have hblock : 2 ^ k * (n / 2 ^ k) + 2 ^ k ≤ 2 ^ 32 := by
    rw [hsplit, ← Nat.mul_succ]
    exact Nat.mul_le_mul_left _ hquotient
  have hdiv := Nat.div_add_mod n (2 ^ k)
  omega

theorem addresses_nodup (net : Network) : (Network.addresses net).Nodup := by
  rw [Network.addresses, List.nodup_map_iff_inj_on List.nodup_range]
  intro i hi j hj hsame
  have hlt : ∀ i ∈ List.range (Network.size net), net.1.network net.2 + i < 2 ^ 32 := by
    intro i hi
    exact network_add_lt (toNat_lt net.1) (Nat.sub_le 32 net.2) (List.mem_range.mp hi)
  have hnat := congrArg Ipv4Addr.toNat hsame
  rw [toNat_ofNat (hlt i hi), toNat_ofNat (hlt j hj)] at hnat
  omega

/-- What the scan makes sure of before it probes an address. -/
def Candidate (scan : Scan) (ip : Ipv4Addr) : Prop :=
  (∃ net, parseIpv4Cidr scan.subnet = some net ∧ ip ∈ Network.addresses net ∧
      ip ∉ subnetReservedIps net) ∧
    ∀ text ∈ scan.exclude, scannedIp text ≠ some ip

theorem scanCandidates_spec {scan : Scan} {net : Network}
    (hnet : parseIpv4Cidr scan.subnet = some net) (gateway : Option Text) :
    (scanCandidates net scan.exclude gateway).Nodup ∧
      ∀ ip ∈ scanCandidates net scan.exclude gateway, Candidate scan ip := by
  constructor
  · exact List.nodup_reverse.mpr ((addresses_nodup net).filter _)
  · intro ip hmem
    rw [scanCandidates, List.mem_reverse, List.mem_filter] at hmem
    obtain ⟨haddress, hnot⟩ := hmem
    simp only [List.mem_append, not_or, decide_eq_true_eq, List.mem_filterMap, not_exists,
      not_and] at hnot
    exact ⟨⟨net, hnet, haddress, hnot.1.2⟩, hnot.1.1⟩

end Candidates

section Invariant

/-- What holds of a scan while it goes on. -/
def OnItsWay (scan : Scan) : Stage → Prop
  | .probing left free =>
      left.Nodup ∧ free.Nodup ∧ left.Disjoint free ∧
        (∀ ip ∈ left ++ free, Candidate scan ip) ∧ free.length < max scan.need 1
  | .assigned ips =>
      ips.Nodup ∧ (∀ ip ∈ ips, Candidate scan ip) ∧ ips.length ≤ max scan.need 1
  | _ => True

/-- Nothing has been found yet, or nothing is left. -/
def Stage.Idle : Stage → Prop
  | .probing _ _ | .assigned _ => False
  | _ => True

theorem Stage.Idle.onItsWay {stage : Stage} (hidle : stage.Idle) (scan : Scan) :
    OnItsWay scan stage := by
  cases stage with
  | probing left free => exact hidle.elim
  | assigned ips => exact hidle.elim
  | _ => trivial

theorem Stage.Idle.held {scan : Scan} (hidle : scan.stage.Idle) : scan.held = [] := by
  rw [Scan.held]
  cases hstage : scan.stage with
  | probing left free => exact (hstage ▸ hidle : Stage.Idle (.probing left free)).elim
  | assigned ips => exact (hstage ▸ hidle : Stage.Idle (.assigned ips)).elim
  | _ => rfl

structure Sound (scan : Scan) : Prop where
  readable : ∀ text ∈ scan.exclude, Readable text
  known : ∀ text ∈ scan.known, text ∈ scan.exclude
  stage : OnItsWay scan scan.stage

structure Inv (state : State) : Prop where
  sound : ∀ cluster scan, state.jobs.lookup cluster = some scan → Sound scan
  exclusive : ∀ cluster scan other scan', state.jobs.lookup cluster = some scan →
    state.jobs.lookup other = some scan' → cluster ≠ other → scan.held.Disjoint scan'.held

variable {state : State} {cluster : Nat} {scan : Scan}

theorem Candidate.free (hsound : Sound scan) {ip : Ipv4Addr} (hcandidate : Candidate scan ip) :
    Free scan ip := by
  refine ⟨hcandidate.1, fun text hmem hparse => ?_⟩
  have hexclude : text ∈ scan.exclude := by
    rcases List.mem_append.mp hmem with h | h
    · exact h
    · exact hsound.known text h
  rcases hsound.readable text hexclude with hnone | hsame
  · rw [hnone] at hparse
    cases hparse
  · exact hcandidate.2 text hexclude (hsame.trans hparse)

/-- A job's scan goes on: it stays sound, and what it newly holds no other job does. -/
theorem Inv.put (hinv : Inv state) (hsound : Sound scan)
    (hfresh : ∀ other scan', state.jobs.lookup other = some scan' → other ≠ cluster →
      scan.held.Disjoint scan'.held) : Inv (state.put cluster scan) where
  sound := by
    intro other scan' hscan
    by_cases hsame : other = cluster
    · subst hsame
      rw [State.put, AList.lookup_insert] at hscan
      exact Option.some.inj hscan ▸ hsound
    · rw [State.put, AList.lookup_insert_ne hsame] at hscan
      exact hinv.sound other scan' hscan
  exclusive := by
    intro first scan' second scan'' hscan hscan' hne
    by_cases hfirst : first = cluster
    · subst hfirst
      rw [State.put, AList.lookup_insert] at hscan
      rw [State.put, AList.lookup_insert_ne hne.symm] at hscan'
      exact Option.some.inj hscan ▸ hfresh second scan'' hscan' hne.symm
    · rw [State.put, AList.lookup_insert_ne hfirst] at hscan
      by_cases hsecond : second = cluster
      · subst hsecond
        rw [State.put, AList.lookup_insert] at hscan'
        exact Option.some.inj hscan' ▸ (hfresh first scan' hscan hne).symm
      · rw [State.put, AList.lookup_insert_ne hsecond] at hscan'
        exact hinv.exclusive first scan' second scan'' hscan hscan' hne

/-- A scan that holds nothing is in nobody's way. -/
theorem Inv.put_empty (hinv : Inv state) (hempty : scan.held = []) (hsound : Sound scan) :
    Inv (state.put cluster scan) := by
  apply hinv.put hsound
  intro _ _ _ _
  rw [hempty]
  exact List.disjoint_nil_left _

theorem Inv.readTable (hinv : Inv state) {ok : Bool} {texts : List Text} {from_ to_ : Stage}
    {next : State} (hnext : readTable state cluster ok texts from_ to_ = some next)
    (hto : to_.Idle) (hreads : ReadsAll ok texts) : Inv next := by
  rw [Addresses.readTable] at hnext
  cases hlookup : state.jobs.lookup cluster with
  | none => simp [hlookup] at hnext
  | some scan =>
      simp only [hlookup] at hnext
      split at hnext
      · cases hnext
        have hsound := hinv.sound cluster scan hlookup
        refine hinv.put_empty (Stage.Idle.held hto) ?_
        refine ⟨?_, ?_, hto.onItsWay _⟩
        · simp only [hreads.1, if_true]
          intro text hmem
          rcases List.mem_append.mp hmem with h | h
          · exact hsound.readable text h
          · exact hreads.2 text h
        · simp only [hreads.1, if_true]
          intro text hmem
          rcases List.mem_append.mp hmem with h | h
          · exact List.mem_append_left _ (hsound.known text h)
          · exact List.mem_append_right _ h
      · cases hnext

/-- A scan that has not found anything is sound as soon as what it was told is readable. -/
theorem Sound.startProbing (hsound : Sound scan) (gateway : Option Text) :
    Sound (startProbing scan gateway) ∧ (startProbing scan gateway).held = [] := by
  rw [Addresses.startProbing]
  cases hnet : parseIpv4Cidr scan.subnet with
  | none => exact ⟨⟨hsound.readable, hsound.known, trivial⟩, rfl⟩
  | some net =>
      obtain ⟨hnodup, hcandidate⟩ := scanCandidates_spec hnet gateway
      dsimp only
      split
      · exact ⟨⟨hsound.readable, hsound.known, trivial⟩, rfl⟩
      · refine ⟨⟨hsound.readable, hsound.known, hnodup, List.nodup_nil, ?_, ?_, ?_⟩, rfl⟩
        · exact List.disjoint_nil_right _
        · intro ip hmem
          rw [List.append_nil] at hmem
          exact hcandidate ip hmem
        · exact Nat.lt_of_lt_of_le Nat.zero_lt_one (Nat.le_max_right _ _)

/-- What a chunk of probes leaves: the scan is sound, and what it newly holds did not answer
while there was still need. -/
theorem Sound.probeChunk {left free : List Ipv4Addr} (hsound : Sound scan)
    (hstage : scan.stage = .probing left free) (inUse : Ipv4Addr → Bool) :
    Sound (probeChunk scan left free inUse) ∧
      ∀ ip ∈ (probeChunk scan left free inUse).held, ip ∈ free ∨
        ip ∈ left.take 32 ∧ ¬ PassedOver scan left free inUse ip := by
  have hway := hsound.stage
  rw [hstage] at hway
  obtain ⟨hleft, hfree, hdisjoint, hcandidate, hshort⟩ := hway
  obtain ⟨added, hfound, hsub, hlength, hquiet⟩ :=
    @collectFree_spec (max scan.need 1) inUse (left.take 32) free
  rw [collectFree_max] at hfound hlength
  obtain ⟨henough, hmore⟩ := hlength hshort
  have hfromLeft : ∀ ip ∈ added, ip ∈ left := fun ip hmem =>
    List.take_subset 32 left (hsub.subset hmem)
  have hnodup : (free ++ added).Nodup := by
    refine List.nodup_append.mpr ⟨hfree, hsub.nodup (hleft.take), ?_⟩
    rintro ip hold _ hnew rfl
    exact hdisjoint (hfromLeft ip hnew) hold
  have hall : ∀ ip ∈ free ++ added, Candidate scan ip := by
    intro ip hmem
    rcases List.mem_append.mp hmem with h | h
    · exact hcandidate ip (List.mem_append_right _ h)
    · exact hcandidate ip (List.mem_append_left _ (hfromLeft ip h))
  have hheld : ∀ ip ∈ free ++ added, ip ∈ free ∨
      ip ∈ left.take 32 ∧ ¬ PassedOver scan left free inUse ip := by
    intro ip hmem
    rcases List.mem_append.mp hmem with h | h
    · exact .inl h
    · obtain ⟨hfree, hbefore⟩ := hquiet hleft.take ip h
      refine .inr ⟨hsub.subset h, ?_⟩
      rintro (hbusy | hover)
      · rw [hfree] at hbusy
        cases hbusy
      · exact absurd hover (Nat.not_le.mpr (hbefore hshort))
  rw [Addresses.probeChunk, hfound]
  split
  · rw [settle]
    split
    · next hnone =>
        exact ⟨⟨hsound.readable, hsound.known, trivial⟩, fun _ hmem => by cases hmem⟩
    · exact ⟨⟨hsound.readable, hsound.known, hnodup, hall, henough⟩, hheld⟩
  · next hgoesOn =>
      have hmoreLeft : (collectFree scan.need inUse (left.take 32) free).2 = false := by
        cases hend : (collectFree scan.need inUse (left.take 32) free).2 with
        | false => rfl
        | true => simp [hend] at hgoesOn
      refine ⟨⟨hsound.readable, hsound.known, hleft.drop, hnodup, ?_, ?_, hmore hmoreLeft⟩, hheld⟩
      · intro ip hlater hfound
        rcases List.mem_append.mp hfound with h | h
        · exact hdisjoint (List.drop_subset 32 left hlater) h
        · exact (List.disjoint_take_drop hleft (Nat.le_refl 32)) (hsub.subset h) hlater
      · intro ip hmem
        rcases List.mem_append.mp hmem with h | h
        · exact hcandidate ip (List.mem_append_left _ (List.drop_subset 32 left h))
        · exact hall ip h

/-- Every event keeps the invariant. -/
theorem Inv.step (hinv : Inv state) {event : Event} {next : State}
    (hheeds : Heeds state event) (hnext : step state event = some next) : Inv next := by
  cases event with
  | tables tables =>
      cases hnext
      exact ⟨hinv.sound, hinv.exclusive⟩
  | begin cluster providerUrl need =>
      cases hnext
      rw [beginScan]
      have hidle : ∀ found : Bool, Stage.Idle (if found then .urls else .over) := by
        intro found
        cases found <;> trivial
      refine hinv.put_empty (Stage.Idle.held (hidle _)) ⟨?_, ?_, (hidle _).onItsWay _⟩
      · exact fun _ hmem => by cases hmem
      · exact fun _ hmem => by cases hmem
  | readUrls cluster ok => exact hinv.readTable hnext trivial hheeds
  | readGuests cluster ok => exact hinv.readTable hnext trivial hheeds
  | readVips cluster ok => exact hinv.readTable hnext trivial hheeds
  | readOthers cluster texts => exact hinv.readTable hnext trivial hheeds
  | scan cluster gateway =>
      rw [Addresses.step] at hnext
      cases hlookup : state.jobs.lookup cluster with
      | none => simp [hlookup] at hnext
      | some scan =>
          simp only [hlookup] at hnext
          split at hnext
          · cases hnext
            obtain ⟨hsound, hempty⟩ := (hinv.sound cluster scan hlookup).startProbing gateway
            exact hinv.put_empty hempty hsound
          · cases hnext
  | probe cluster inUse =>
      rw [Addresses.step] at hnext
      cases hlookup : state.jobs.lookup cluster with
      | none => simp [hlookup] at hnext
      | some scan =>
          simp only [hlookup] at hnext
          cases hstage : scan.stage with
          | probing left free =>
              simp only [hstage] at hnext
              cases hnext
              obtain ⟨hsound, hheld⟩ :=
                (hinv.sound cluster scan hlookup).probeChunk hstage inUse
              apply hinv.put hsound
              intro other scan' hother hne ip hmem hmem'
              rcases hheld ip hmem with hold | ⟨hchunk, hpassed⟩
              · refine hinv.exclusive cluster scan other scan' hlookup hother hne.symm ?_ hmem'
                rwa [Scan.held, hstage]
              · have havoids := hheeds scan hlookup
                rw [Avoids, hstage] at havoids
                have hentry : (⟨other, scan'⟩ : Sigma fun _ => Scan) ∈ state.jobs.entries :=
                  AList.mem_lookup_iff.mp hother
                exact hpassed (havoids _ hentry hne ip hmem' hchunk)
          | _ => simp [hstage] at hnext
  | fail cluster =>
      rw [Addresses.step] at hnext
      cases hlookup : state.jobs.lookup cluster with
      | none => simp [hlookup] at hnext
      | some scan =>
          simp only [hlookup] at hnext
          split at hnext
          · cases hnext
          · cases hnext
            have hsound := hinv.sound cluster scan hlookup
            exact hinv.put_empty rfl ⟨hsound.readable, hsound.known, trivial⟩
  | release cluster =>
      cases hnext
      have hkept : ∀ {other scan'}, (state.jobs.erase cluster).lookup other = some scan' →
          state.jobs.lookup other = some scan' := by
        intro other scan' hscan
        by_cases hsame : other = cluster
        · rw [hsame, AList.lookup_erase] at hscan
          cases hscan
        · rwa [AList.lookup_erase_ne hsame] at hscan
      exact ⟨fun other scan' hscan => hinv.sound other scan' (hkept hscan),
        fun first scan' second scan'' hscan hscan' hne =>
          hinv.exclusive first scan' second scan'' (hkept hscan) (hkept hscan') hne⟩

end Invariant

section Lab

/-- `https://10.1.1.5` -/
def labUrl : Text :=
  ['h', 't', 't', 'p', 's', ':', '/', '/', '1', '0', '.', '1', '.', '1', '.', '5']

/-- The job of a cluster reads the tables and starts to scan. -/
def labScan (cluster : Nat) : List Event :=
  [.begin cluster labUrl 1, .readUrls cluster true, .readGuests cluster true,
    .readVips cluster true, .readOthers cluster [], .scan cluster none]

/-- Two jobs, and nothing answers. -/
def labRun (answers : Ipv4Addr → Bool) : List Event :=
  labScan 1 ++ labScan 2 ++ [.probe 1 fun _ => false, .probe 2 answers]

end Lab

end PertiskKos.Addresses
