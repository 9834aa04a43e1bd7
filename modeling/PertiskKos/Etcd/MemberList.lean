import PertiskKos.Etcd.InitialCluster
import PertiskKos.Library.Lines

/-!
# Writing the initial cluster and reading it back

`initialClusterFromMembers` writes one `name=url` part for every row of etcd's member list
and adds the part of the node that joins unless a part with its name is there.  A row that an
earlier life of the node left behind counts as that part, whatever URL it has.
-/

namespace PertiskKos.Etcd

open Strings Lines

/-- A peer URL as etcd accepts it: scheme, host and port, no path.  An IPv6 address stands in
brackets. -/
structure PeerUrl where
  secure : Bool
  bracketed : Bool
  host : Text
  port : Text
  host_ne_nil : host ≠ []
  host_plain : ∀ c ∈ host, isWhite c = false ∧ c ≠ ',' ∧ c ≠ '/' ∧ c ≠ '[' ∧ c ≠ ']'
  host_colon : ':' ∈ host → bracketed = true
  port_ne_nil : port ≠ []
  port_digits : ∀ c ∈ port, c.isDigit = true
  deriving DecidableEq

namespace PeerUrl

variable (url : PeerUrl)

def scheme : Text := if url.secure then https else "http://".toList

def hostText : Text := if url.bracketed then '[' :: (url.host ++ [']']) else url.host

def hostport : Text := url.hostText ++ ':' :: url.port

def text : Text := url.scheme ++ url.hostport

theorem port_notMem {c : Char} (hc : c.isDigit = false) : c ∉ url.port := by
  intro hmem
  simp [url.port_digits c hmem] at hc

theorem host_notMem {c : Char} (hc : isWhite c = true ∨ c ∈ [',', '/', '[', ']']) :
    c ∉ url.host := by
  intro hmem
  obtain ⟨hwhite, hcomma, hslash, hopen, hclose⟩ := url.host_plain c hmem
  rcases hc with hc | hc
  · simp [hwhite] at hc
  · simp [hcomma, hslash, hopen, hclose] at hc

theorem hostport_notMem {c : Char} (hhost : c ∉ url.host) (hport : c.isDigit = false)
    (hmarks : c ∉ ['[', ']', ':']) : c ∉ url.hostport := by
  have hdigits := url.port_notMem hport
  simp only [List.mem_cons, List.not_mem_nil, or_false, not_or] at hmarks
  obtain ⟨hopen, hclose, hcolon⟩ := hmarks
  rw [hostport, hostText]
  split <;> simp [hhost, hdigits, hopen, hclose, hcolon]

theorem slash_notMem_hostport : '/' ∉ url.hostport :=
  url.hostport_notMem (url.host_notMem (.inr (by decide))) (by decide) (by decide)

theorem comma_notMem_text : ',' ∉ url.text := by
  have hscheme : ',' ∉ url.scheme := by
    rw [scheme]
    split <;> decide
  have hhostport : ',' ∉ url.hostport :=
    url.hostport_notMem (url.host_notMem (.inr (by decide))) (by decide) (by decide)
  simp only [text, List.mem_append, hscheme, hhostport, or_self, not_false_eq_true]

theorem text_noWhite : ∀ c ∈ url.text, isWhite c = false := by
  intro c hmem
  by_contra hwhite
  rw [Bool.not_eq_false] at hwhite
  have hscheme : c ∉ url.scheme := by
    have hplain : ∀ d ∈ url.scheme, isWhite d = false := by
      rw [scheme]
      split <;> decide
    intro hc
    simp [hplain c hc] at hwhite
  have hdigit : c.isDigit = false := by
    by_contra hdigit
    simp [isWhite_of_isDigit (Bool.not_eq_false _ ▸ hdigit)] at hwhite
  have hmarks : c ∉ ['[', ']', ':'] := by
    have hplain : ∀ d ∈ ['[', ']', ':'], isWhite d = false := by decide
    intro hc
    simp [hplain c hc] at hwhite
  rcases List.mem_append.mp hmem with hfront | hback
  · exact hscheme hfront
  · exact url.hostport_notMem (url.host_notMem (.inl hwhite)) hdigit hmarks hback

/-- Without its scheme a URL is host and port. -/
theorem stripScheme_text :
    trimStartMatches "http://".toList (trimStartMatches https url.text) = url.hostport := by
  have hslash : ∀ pattern : Text, '/' ∈ pattern → ¬ pattern <+: url.hostport :=
    fun pattern hmem hfront => url.slash_notMem_hostport (hfront.subset hmem)
  have hplain : trimStartMatches "http://".toList url.hostport = url.hostport :=
    trimStartMatches_of_not_prefix (hslash _ (by decide))
  cases hsecure : url.secure with
  | true =>
      have htext : url.text = https ++ url.hostport := by simp [text, scheme, hsecure]
      rw [htext, trimStartMatches_append (by decide) (hslash _ (by decide)), hplain]
  | false =>
      have htext : url.text = "http://".toList ++ url.hostport := by
        simp [text, scheme, hsecure]
      have hother : ¬ https <+: "http://".toList ++ url.hostport := by
        rintro ⟨rest, hrest⟩
        simp [https] at hrest
      rw [htext, trimStartMatches_of_not_prefix hother,
        trimStartMatches_append (by decide) (hslash _ (by decide))]

theorem rsplitOnce_hostport : rsplitOnce ':' url.hostport = some (url.hostText, url.port) :=
  rsplitOnce_append (url.port_notMem (by decide)) url.hostText

/-- The host is read off without port and brackets. -/
theorem parseHost_hostport : parseHost url.hostport = url.host := by
  cases hbracketed : url.bracketed with
  | true =>
      have htext : url.hostport = '[' :: (url.host ++ ']' :: (':' :: url.port)) := by
        simp [hostport, hostText, hbracketed]
      have hclose : ']' ∉ url.host := url.host_notMem (.inr (by decide))
      rw [htext, parseHost]
      simp [List.isPrefixOf?, List.splitOn_append_cons_self_of_not_mem hclose]
  | false =>
      have htext : url.hostText = url.host := by simp [hostText, hbracketed]
      have hopen : ['['].isPrefixOf? url.hostport = none := by
        apply isPrefixOf?_eq_none
        intro hfront
        have hmem : '[' ∈ url.hostport := hfront.subset List.mem_cons_self
        rw [hostport, htext] at hmem
        have hhost : '[' ∉ url.host := url.host_notMem (.inr (by decide))
        have hport : '[' ∉ url.port := url.port_notMem (by decide)
        simp [hhost, hport] at hmem
      rw [parseHost, hopen, rsplitOnce_hostport, htext]

/-- A URL is determined by its text. -/
theorem text_injective : Function.Injective text := by
  intro left right htext
  have hsecure : left.secure = right.secure := by
    have hfifth := congrArg (fun written : Text => written[4]?) htext
    cases hleft : left.secure <;> cases hright : right.secure <;>
      simp [text, scheme, hleft, hright, https] at hfifth ⊢
  have hhostport : left.hostport = right.hostport := by
    have hscheme : left.scheme = right.scheme := by rw [scheme, scheme, hsecure]
    rw [text, text, hscheme] at htext
    exact List.append_cancel_left htext
  have hparts : left.hostText = right.hostText ∧ left.port = right.port := by
    have hsplit := left.rsplitOnce_hostport
    rw [hhostport, right.rsplitOnce_hostport] at hsplit
    simpa [eq_comm] using hsplit
  have hhost : left.host = right.host := by
    rw [← left.parseHost_hostport, hhostport, right.parseHost_hostport]
  have hbracketed : left.bracketed = right.bracketed := by
    have hfirst := congrArg List.length hparts.1
    rw [hostText, hostText, hhost] at hfirst
    cases hleft : left.bracketed <;> cases hright : right.bracketed <;>
      simp [hleft, hright] at hfirst ⊢ <;> omega
  cases left
  cases right
  simp only [mk.injEq]
  exact ⟨hsecure, hbracketed, hhost, hparts.2⟩

end PeerUrl

/-- A row of the member list as etcd returns it. -/
structure MemberRow where
  id : Nat
  name : Text
  peerUrls : List PeerUrl
  isLearner : Bool

def MemberRow.member (row : MemberRow) : Member :=
  { id := row.id, name := row.name, peerUrls := row.peerUrls.map PeerUrl.text,
    isLearner := row.isLearner }

/-- The list that `initial_cluster_from_members` writes. -/
def writtenCluster (rows : List MemberRow) (name : Text) (url : PeerUrl) : Text :=
  initialClusterFromMembers (rows.map MemberRow.member) name url.text

/-- A name and a URL, written as an entry. -/
def pairEntry (pair : Text × PeerUrl) : Text := entry pair.1 pair.2.text

/-- A name and a host, read from an entry. -/
def pairHost (pair : Text × PeerUrl) : Text × Text := (pair.1, pair.2.host)

/-- The row is one of the node `name` that joins at `url`. -/
def MemberRow.IsJoiner (name : Text) (url : PeerUrl) (row : MemberRow) : Prop :=
  row.name = name ∨ (row.name = [] ∧ url ∈ row.peerUrls)

/-- The address of a member; a row without one gets the address of the node that joins. -/
def MemberRow.address (url : PeerUrl) (row : MemberRow) : PeerUrl := row.peerUrls.headD url

/-- The pair of another member; its id stands for the name of one that has not started. -/
def MemberRow.pair (url : PeerUrl) (row : MemberRow) : Text × PeerUrl :=
  (if row.name = [] then Nat.toDigits 10 row.id else row.name, row.address url)

/-- The pairs that belong in the list: the node that joins and every other member. -/
def Belongs (rows : List MemberRow) (name : Text) (url : PeerUrl) (pair : Text × PeerUrl) :
    Prop :=
  pair = (name, url) ∨ ∃ row ∈ rows, ¬ row.IsJoiner name url ∧ row.pair url = pair

/-- The list has each pair that belongs in it once, no name twice, and is read back as the
names and the hosts of these pairs. -/
def WellFormed (rows : List MemberRow) (name : Text) (url : PeerUrl) : Prop :=
  ∃ listed : List (Text × PeerUrl),
    (∀ pair, pair ∈ listed ↔ Belongs rows name url pair) ∧
    (listed.map Prod.fst).Nodup ∧
    (writtenCluster rows name url).splitOn ',' = listed.map pairEntry ∧
    parseEtcdInitialCluster (writtenCluster rows name url) = listed.map pairHost

/-- A name that survives the syntax of the list. -/
def ListName (name : Text) : Prop :=
  name ≠ [] ∧ ',' ∉ name ∧ '=' ∉ name ∧ name.head?.any isWhite = false

/-- The names can be written and tell the members apart, and no row that has the name of the
node that joins has another URL. -/
structure Unambiguous (rows : List MemberRow) (name : Text) (url : PeerUrl) : Prop where
  names : ∀ pair, Belongs rows name url pair → ListName pair.1
  distinct : ∀ left right, Belongs rows name url left → Belongs rows name url right →
    left.1 = right.1 → left = right
  noStale : ∀ row ∈ rows, row.name = name → row.address url = url

section Parse

variable {name : Text} {url : PeerUrl}

theorem comma_notMem_pairEntry {pair : Text × PeerUrl} (hname : ',' ∉ pair.1) :
    ',' ∉ pairEntry pair := by
  have hurl := pair.2.comma_notMem_text
  simp [pairEntry, entry, hname, hurl]

theorem pairEntry_inj {left right : Text × PeerUrl} (hleft : '=' ∉ left.1)
    (hright : '=' ∉ right.1) (hentry : pairEntry left = pairEntry right) : left = right := by
  obtain ⟨hname, hurl⟩ := append_separator_inj hleft hright hentry
  exact Prod.ext hname (PeerUrl.text_injective hurl)

/-- An entry is read back as its name and its host. -/
theorem parsePart_pairEntry {pair : Text × PeerUrl} (hname : ListName pair.1) :
    parsePart (pairEntry pair) = some (pairHost pair) := by
  obtain ⟨name, url⟩ := pair
  obtain ⟨hne, -, hequals, hhead⟩ := hname
  have htrim : trim (entry name url.text) = entry name url.text := by
    refine trim_of_ends ?_ fun c hc => ?_
    · cases name with
      | nil => exact absurd rfl hne
      | cons c name => simpa [entry] using hhead
    · have htext : url.text ≠ [] := by
        simp [PeerUrl.text, PeerUrl.hostport]
      have hback : (entry name url.text).getLast? = url.text.getLast? := by
        simp [entry, List.getLast?_append, List.getLast?_cons, List.getLast?_eq_some_getLast htext]
      exact url.text_noWhite c (List.mem_of_getLast? (hback ▸ hc))
  have hslash : url.hostport.splitOn '/' = [url.hostport] :=
    List.splitOn_eq_singleton url.slash_notMem_hostport
  rw [parsePart, pairEntry, htrim, entry, splitOnce_append hequals]
  simp only [trim_of_noWhite url.text_noWhite, url.stripScheme_text, hslash,
    List.headD_cons, url.parseHost_hostport]
  rw [if_pos ⟨hne, url.host_ne_nil⟩, pairHost]

theorem isWhite_head_trim {text : Text} {c : Char} (hhead : (trim text).head? = some c) :
    isWhite c = false := by
  obtain ⟨rest, hrest⟩ : trim text <+: trimStart text := List.rdropWhile_prefix isWhite _
  have hstart : (trimStart text).head? = some c := by
    rw [← hrest, List.head?_append, hhead]
    rfl
  have hnot := List.head?_dropWhile_not isWhite text
  rw [trimStart] at hstart
  simpa [hstart] using hnot

/-- What is read from a part has a name that can be written. -/
theorem listName_of_parsePart {part : Text} {pair : Text × Text} (hcomma : ',' ∉ part)
    (hparse : parsePart part = some pair) : ListName pair.1 := by
  rw [parsePart] at hparse
  rcases splitOnce_cases '=' (trim part) with ⟨-, hsplit⟩ | ⟨name, rest, hequals, htext, hsplit⟩
  · simp [hsplit] at hparse
  · have hname : pair.1 = name ∧ name ≠ [] := by
      simp only [hsplit] at hparse
      split at hparse
      · rename_i hplain
        exact ⟨by rw [← Option.some.inj hparse], hplain.1⟩
      · cases hparse
    obtain ⟨rfl, hne⟩ := hname
    have hsub : pair.1.Sublist part :=
      (htext ▸ List.sublist_append_left pair.1 _).trans (trim_sublist part)
    refine ⟨hne, fun hmem => hcomma (hsub.subset hmem), hequals, ?_⟩
    cases hc : pair.1.head? with
    | none => rfl
    | some c =>
        have hhead : (trim part).head? = some c := by
          rw [htext, List.head?_append, hc]
          rfl
        exact isWhite_head_trim hhead

theorem notMem_of_mem_splitOn {separator : Char} {text piece : Text}
    (hmem : piece ∈ text.splitOn separator) : separator ∉ piece := by
  revert hmem
  refine pieceByPiece separator (motive := fun text => piece ∈ text.splitOn separator → _)
    ?_ ?_ text
  · intro line hline hmem
    rw [List.splitOn_eq_singleton hline] at hmem
    exact List.mem_singleton.mp hmem ▸ hline
  · intro line rest hline ih hmem
    rw [List.splitOn_append_cons_self_of_not_mem hline] at hmem
    rcases List.mem_cons.mp hmem with rfl | hlater
    · exact hline
    · exact ih hlater

/-- Names that a list is read back with can be written. -/
theorem listName_of_parse {spec : Text} {pair : Text × Text}
    (hmem : pair ∈ parseEtcdInitialCluster spec) : ListName pair.1 := by
  obtain ⟨part, hpart, hparse⟩ := List.mem_filterMap.mp hmem
  exact listName_of_parsePart (notMem_of_mem_splitOn hpart) hparse

end Parse

section Sorted

variable {texts : List Text}

theorem mem_destutter' (first : Text) {text : Text} (rest : List Text) :
    text ∈ rest.destutter' (· ≠ ·) first ↔ text = first ∨ text ∈ rest := by
  induction rest generalizing first with
  | nil => simp
  | cons second rest ih =>
      by_cases hdistinct : first ≠ second
      · rw [List.destutter'_cons_pos rest hdistinct, List.mem_cons, ih, List.mem_cons]
      · rw [List.destutter'_cons_neg rest hdistinct, ih, List.mem_cons,
          ← not_not.mp hdistinct]
        tauto

theorem mem_dedup_sort {text : Text} : text ∈ dedup (sort texts) ↔ text ∈ texts := by
  have hsort : text ∈ sort texts ↔ text ∈ texts := List.mem_insertionSort (· ≤ ·)
  rw [← hsort]
  cases sort texts with
  | nil => rfl
  | cons first rest => rw [dedup, List.destutter_cons', mem_destutter', List.mem_cons]

/-- In a sorted list equal texts stand next to each other. -/
theorem nodup_of_sorted (hordered : texts.Pairwise (· ≤ ·)) (hchain : texts.IsChain (· ≠ ·)) :
    texts.Nodup := by
  induction texts with
  | nil => exact List.nodup_nil
  | cons first rest ih =>
      obtain ⟨hfirst, hrest⟩ := List.pairwise_cons.mp hordered
      refine List.nodup_cons.mpr ⟨?_, ih hrest hchain.tail⟩
      cases rest with
      | nil => exact List.not_mem_nil
      | cons second rest =>
          intro hmem
          have hne : first ≠ second := (List.isChain_cons_cons.mp hchain).1
          have hback : second ≤ first := by
            rcases List.mem_cons.mp hmem with rfl | hlater
            · exact List.le_refl _
            · exact (List.pairwise_cons.mp hrest).1 first hlater
          exact hne (List.le_antisymm (hfirst second List.mem_cons_self) hback)

theorem nodup_dedup_sort (texts : List Text) : (dedup (sort texts)).Nodup := by
  apply nodup_of_sorted
  · exact (List.pairwise_insertionSort _ texts).sublist (List.destutter_sublist (· ≠ ·) _)
  · exact List.isChain_destutter (· ≠ ·) _

end Sorted

section Written

variable {rows : List MemberRow} {name : Text} {url : PeerUrl}

/-- The parts before they are sorted. -/
def writtenParts (rows : List MemberRow) (name : Text) (url : PeerUrl) : List Text :=
  let parts := (rows.map MemberRow.member).map (memberPart name url.text)
  if parts.any (startsWith · (name ++ ['='])) then parts
  else parts ++ [entry name url.text]

theorem memberPart_member (row : MemberRow) :
    memberPart name url.text row.member =
      pairEntry (if row.name = [] ∧ url ∈ row.peerUrls then (name, url) else row.pair url) := by
  have hpeer : (row.member.peerUrls.head?.getD url.text) = (row.address url).text := by
    rw [MemberRow.member, MemberRow.address]
    cases row.peerUrls <;> rfl
  have hmem : url.text ∈ row.member.peerUrls ↔ url ∈ row.peerUrls := by
    rw [MemberRow.member, List.mem_map_of_injective PeerUrl.text_injective]
  have hname : row.member.name = row.name := rfl
  simp only [memberPart, hpeer, hmem, hname]
  by_cases hunnamed : row.name = []
  · by_cases hurl : url ∈ row.peerUrls
    · simp only [hunnamed, hurl, and_self, if_true, pairEntry]
    · simp only [hunnamed, hurl, and_false, if_true, if_false, pairEntry, MemberRow.pair]
      rfl
  · simp only [hunnamed, false_and, if_false, pairEntry, MemberRow.pair]

theorem writtenCluster_eq :
    writtenCluster rows name url = joinWith ',' (dedup (sort (writtenParts rows name url))) :=
  rfl

/-- What the list is made of: the pairs that belong in it and those of the rows that have the
name of the node that joins. -/
theorem pair_of_writtenPart {part : Text} (hmem : part ∈ writtenParts rows name url) :
    ∃ pair, (Belongs rows name url pair ∨ ∃ row ∈ rows, row.name = name ∧ row.pair url = pair) ∧
      pairEntry pair = part := by
  have hrows : part ∈ (rows.map MemberRow.member).map (memberPart name url.text) ∨
      part = entry name url.text := by
    rw [writtenParts] at hmem
    split at hmem
    · exact .inl hmem
    · simpa using hmem
  rcases hrows with hrow | rfl
  · simp only [List.mem_map, exists_exists_and_eq_and, memberPart_member] at hrow
    obtain ⟨row, hrow, hpart⟩ := hrow
    refine ⟨_, ?_, hpart⟩
    split
    · exact .inl (.inl rfl)
    · rename_i hother
      by_cases hsame : row.name = name
      · exact .inr ⟨row, hrow, hsame, rfl⟩
      · exact .inl (.inr ⟨row, hrow, not_or.mpr ⟨hsame, hother⟩, rfl⟩)
  · exact ⟨(name, url), .inl (.inl rfl), rfl⟩

theorem rowPart_mem {row : MemberRow} (hrow : row ∈ rows) :
    memberPart name url.text row.member ∈ writtenParts rows name url := by
  have hmem : memberPart name url.text row.member ∈
      (rows.map MemberRow.member).map (memberPart name url.text) :=
    List.mem_map_of_mem (List.mem_map_of_mem hrow)
  rw [writtenParts]
  split
  · exact hmem
  · exact List.mem_append_left _ hmem

/-- Some part carries the name of the node that joins. -/
theorem ownName_written : ∃ part ∈ writtenParts rows name url, (name ++ ['=']) <+: part := by
  rw [writtenParts]
  split
  · rename_i hany
    simpa only [List.any_eq_true, startsWith, List.isPrefixOf_iff_prefix] using hany
  · exact ⟨entry name url.text, by simp, url.text, by simp [entry]⟩

theorem otherPart_mem {row : MemberRow} (hrow : row ∈ rows)
    (hother : ¬ (row.name = [] ∧ url ∈ row.peerUrls)) :
    pairEntry (row.pair url) ∈ writtenParts rows name url := by
  have hmem := @rowPart_mem _ name url _ hrow
  rwa [memberPart_member, if_neg hother] at hmem

/-- Parts without a comma in a name are told apart again. -/
theorem splitOn_writtenCluster (hcomma : ∀ part ∈ writtenParts rows name url, ',' ∉ part) :
    (writtenCluster rows name url).splitOn ',' =
      dedup (sort (writtenParts rows name url)) := by
  obtain ⟨part, hpart, -⟩ := @ownName_written rows name url
  rw [writtenCluster_eq, joinWith]
  apply List.splitOn_intercalate
  · exact fun part hmem => hcomma part (mem_dedup_sort.mp hmem)
  · exact List.ne_nil_of_mem (mem_dedup_sort.mpr hpart)

theorem exists_pairs {texts : List Text} {P : Text × PeerUrl → Prop}
    (htexts : ∀ text ∈ texts, ∃ pair, P pair ∧ pairEntry pair = text) :
    ∃ pairs : List (Text × PeerUrl), texts = pairs.map pairEntry ∧ ∀ pair ∈ pairs, P pair := by
  induction texts with
  | nil => exact ⟨[], rfl, by simp⟩
  | cons text texts ih =>
      obtain ⟨pair, hpair, rfl⟩ := htexts text List.mem_cons_self
      obtain ⟨pairs, rfl, hpairs⟩ := ih fun other hother =>
        htexts other (List.mem_cons_of_mem _ hother)
      exact ⟨pair :: pairs, rfl, List.forall_mem_cons.mpr ⟨hpair, hpairs⟩⟩

/-- Without a stale row the parts are the entries of the pairs that belong in the list. -/
theorem Unambiguous.mem_writtenParts (hclear : Unambiguous rows name url) {part : Text} :
    part ∈ writtenParts rows name url ↔
      ∃ pair, Belongs rows name url pair ∧ pairEntry pair = part := by
  have hown : Belongs rows name url (name, url) := .inl rfl
  have hbelongs : ∀ part ∈ writtenParts rows name url,
      ∃ pair, Belongs rows name url pair ∧ pairEntry pair = part := by
    intro part hmem
    obtain ⟨pair, hpair | ⟨row, hrow, hname, rfl⟩, hentry⟩ := pair_of_writtenPart hmem
    · exact ⟨pair, hpair, hentry⟩
    · have hne : row.name ≠ [] := hname ▸ (hclear.names _ hown).1
      refine ⟨(name, url), hown, ?_⟩
      rw [← hentry, MemberRow.pair, if_neg hne, hname, hclear.noStale row hrow hname]
  refine ⟨hbelongs part, ?_⟩
  rintro ⟨pair, rfl | ⟨row, hrow, hother, rfl⟩, rfl⟩
  · obtain ⟨own, hmem, hfront⟩ := @ownName_written rows name url
    obtain ⟨pair, hpair, rfl⟩ := hbelongs own hmem
    obtain ⟨rest, hrest⟩ := hfront
    have hname : name = pair.1 := by
      have hsame : name ++ '=' :: rest = pair.1 ++ '=' :: pair.2.text := by
        simpa [pairEntry, entry] using hrest
      exact (append_separator_inj (hclear.names _ hown).2.2.1 (hclear.names _ hpair).2.2.1
        hsame).1
    rwa [hclear.distinct _ _ hown hpair hname]
  · exact otherPart_mem hrow fun h => hother (.inr h)

theorem Unambiguous.wellFormed (hclear : Unambiguous rows name url) :
    WellFormed rows name url := by
  have hcomma : ∀ part ∈ writtenParts rows name url, ',' ∉ part := by
    intro part hmem
    obtain ⟨pair, hpair, rfl⟩ := hclear.mem_writtenParts.mp hmem
    exact comma_notMem_pairEntry (hclear.names pair hpair).2.1
  have hsplit := splitOn_writtenCluster hcomma
  obtain ⟨listed, hlisted, hbelongs⟩ := exists_pairs fun part hmem =>
    hclear.mem_writtenParts.mp (mem_dedup_sort.mp hmem)
  have hmem : ∀ pair, pair ∈ listed ↔ Belongs rows name url pair := by
    refine fun pair => ⟨hbelongs pair, fun hpair => ?_⟩
    have hentry : pairEntry pair ∈ listed.map pairEntry := by
      rw [← hlisted, mem_dedup_sort]
      exact hclear.mem_writtenParts.mpr ⟨pair, hpair, rfl⟩
    obtain ⟨same, hsame, heq⟩ := List.mem_map.mp hentry
    rwa [← pairEntry_inj (hclear.names _ (hbelongs _ hsame)).2.2.1
      (hclear.names _ hpair).2.2.1 heq]
  have hnodup : listed.Nodup := by
    have hentries := nodup_dedup_sort (writtenParts rows name url)
    rw [hlisted] at hentries
    exact hentries.of_map
  refine ⟨listed, hmem, ?_, hsplit.trans hlisted, ?_⟩
  · exact hnodup.map_on fun left hleft right hright =>
      hclear.distinct left right (hbelongs _ hleft) (hbelongs _ hright)
  · rw [parseEtcdInitialCluster, hsplit, hlisted, List.filterMap_map]
    rw [← List.filterMap_eq_map]
    apply List.filterMap_congr
    intro pair hpair
    exact parsePart_pairEntry (hclear.names pair (hbelongs pair hpair))

/-- A list that is read back as it should be has no second row of the node that joins. -/
theorem WellFormed.unambiguous (hformed : WellFormed rows name url) :
    Unambiguous rows name url := by
  obtain ⟨listed, hlisted, hnodup, hsplit, hparse⟩ := hformed
  have hnames : ∀ pair, Belongs rows name url pair → ListName pair.1 := by
    intro pair hpair
    have hmem : pairHost pair ∈ parseEtcdInitialCluster (writtenCluster rows name url) :=
      hparse ▸ List.mem_map_of_mem ((hlisted pair).mpr hpair)
    exact listName_of_parse hmem
  have hown : Belongs rows name url (name, url) := .inl rfl
  have hsame : ∀ left ∈ listed, ∀ right ∈ listed, left.1 = right.1 → left = right :=
    fun left hleft right hright => List.inj_on_of_nodup_map hnodup hleft hright
  have hstaleName : ∀ row : MemberRow, row.name = name → (row.pair url).1 = name := by
    intro row hname
    rw [MemberRow.pair, if_neg (hname ▸ (hnames _ hown).1), hname]
  have hcomma : ∀ part ∈ writtenParts rows name url, ',' ∉ part := by
    intro part hmem
    obtain ⟨pair, hpair | ⟨row, -, hname, rfl⟩, rfl⟩ := pair_of_writtenPart hmem
    · exact comma_notMem_pairEntry (hnames pair hpair).2.1
    · apply comma_notMem_pairEntry
      rw [hstaleName row hname]
      exact (hnames _ hown).2.1
  refine ⟨hnames, ?_, ?_⟩
  · exact fun left right hleft hright =>
      hsame left ((hlisted left).mpr hleft) right ((hlisted right).mpr hright)
  · intro row hrow hname
    have hne : row.name ≠ [] := hname ▸ (hnames _ hown).1
    have hentry : pairEntry (row.pair url) ∈ listed.map pairEntry := by
      rw [← hsplit, splitOn_writtenCluster hcomma, mem_dedup_sort]
      exact otherPart_mem hrow fun h => hne h.1
    obtain ⟨stale, hstale, heq⟩ := List.mem_map.mp hentry
    have hrowEquals : '=' ∉ (row.pair url).1 := by
      rw [hstaleName row hname]
      exact (hnames _ hown).2.2.1
    have hpair : stale = row.pair url :=
      pairEntry_inj (hnames _ ((hlisted stale).mp hstale)).2.2.1 hrowEquals heq
    have hjoining : stale = (name, url) :=
      hsame stale hstale _ ((hlisted _).mpr hown) (hpair ▸ hstaleName row hname)
    exact congrArg Prod.snd (hpair.symm.trans hjoining)

/-- The list is what it should be exactly when its names can be written and tell the members
apart, and the node that joins is in it with its own URL alone. -/
theorem initial_cluster_well_formed_iff (rows : List MemberRow) (name : Text) (url : PeerUrl) :
    WellFormed rows name url ↔ Unambiguous rows name url :=
  ⟨WellFormed.unambiguous, Unambiguous.wellFormed⟩

end Written

section Stale

def earlierUrl : PeerUrl :=
  ⟨true, false, "10.0.0.2".toList, "2380".toList, by decide, by decide, by decide, by decide,
    by decide⟩

def joiningUrl : PeerUrl :=
  ⟨true, false, "10.0.0.9".toList, "2380".toList, by decide, by decide, by decide, by decide,
    by decide⟩

/-- A node was set up anew at another address while its earlier member is still listed. -/
def staleRows : List MemberRow :=
  [{ id := 7, name := "cp-2".toList, peerUrls := [earlierUrl], isLearner := false },
    { id := 9, name := [], peerUrls := [joiningUrl], isLearner := true }]

/-- The node that joins is listed twice, once with the URL of its earlier life. -/
theorem stale_member_listed_twice :
    ¬ ∀ (rows : List MemberRow) (name : Text) (url : PeerUrl), WellFormed rows name url := by
  intro hclaim
  have hclear := (hclaim staleRows "cp-2".toList joiningUrl).unambiguous
  have hstale := hclear.noStale _ List.mem_cons_self rfl
  exact absurd hstale (by decide)

example : writtenCluster staleRows "cp-2".toList joiningUrl =
    "cp-2=https://10.0.0.2:2380,cp-2=https://10.0.0.9:2380".toList := by decide +kernel

end Stale

end PertiskKos.Etcd
