import PertiskKos.Library.AddressText
import PertiskKos.Library.Lines
import PertiskKos.Mgmt.AddressScan

/-!
# Spellings of an address

Two texts are compared by the addresses they denote, and by their letters where one of them
cannot be read as an address.  Prefix lengths and schemes are taken off, brackets are taken
off at the ends of a text only, and a port is taken off behind an IPv4 address.
-/

namespace PertiskKos.LanIp

open Strings Lines Ip Hex Addresses

/-! ## Comparing -/

section Code

def parseIpAddr (text : Text) : Option IpAddr :=
  match parseIpv4 text with
  | some ip => some (.v4 ip)
  | none => (parseIpv6 text).map .v6

/-- Parse a LAN address for comparison (strip CIDR / brackets / `:port`). -/
def parseLanIp (s : Text) : Option IpAddr :=
  let raw := trim s
  if raw = [] then none
  else
    match ipFromProviderUrl raw with
    | some ip => parseIpAddr ip
    | none =>
        let host := trim (raw.takeWhile (· ≠ '/'))
        let host := trimEndMatches [']'] (trimStartMatches ['['] host)
        if host = [] then none
        else
          match parseIpAddr host with
          | some ip => some ip
          | none =>
              if host.count '.' = 3 then parseIpAddr (host.takeWhile (· ≠ ':')) else none

def ipsEqual (a b : Text) : Bool :=
  match parseLanIp a, parseLanIp b with
  | some x, some y => x = y
  | _, _ => trim a = trim b && trim a ≠ []

end Code

/-! ## Spellings -/

section Spellings

/-- A text of an address, with nothing around it. -/
structure Literal (ip : IpAddr) where
  text : Text
  read : parseIpAddr text = some ip

def isV6 : IpAddr → Bool
  | .v4 _ => false
  | .v6 _ => true

inductive Scheme where
  | http
  | https
  deriving DecidableEq, Repr

def Scheme.text : Scheme → Text
  | http => "http://".toList
  | https => "https://".toList

/-- The path of a URL. -/
structure Path where
  text : Text
  head_slash : ∀ c ∈ text.head?, c = '/'
  black : ∀ c ∈ text, isWhite c = false

inductive Spelling (ip : IpAddr) where
  | plain (literal : Literal ip)
  | prefixed (literal : Literal ip) (length : Nat)
  | bracketed (literal : Literal ip)
  | bracketedPort (literal : Literal ip) (port : Nat)
  | withPort (literal : Literal ip) (v4 : isV6 ip = false) (port : Nat)
  | url (scheme : Scheme) (literal : Literal ip) (port : Option Nat) (path : Path)

namespace Spelling

variable {ip : IpAddr}

def portText : Option Nat → Text
  | none => []
  | some port => ':' :: decimal port

def text : Spelling ip → Text
  | plain literal => literal.text
  | prefixed literal length => literal.text ++ '/' :: decimal length
  | bracketed literal => '[' :: (literal.text ++ [']'])
  | bracketedPort literal port => '[' :: (literal.text ++ ']' :: ':' :: decimal port)
  | withPort literal _ port => literal.text ++ ':' :: decimal port
  | url scheme literal port path =>
      scheme.text ++ ((if isV6 ip then '[' :: (literal.text ++ [']']) else literal.text) ++
        (portText port ++ path.text))

/-- The spellings that the parser reads: all but a port behind a bracket and URLs of IPv6
addresses. -/
def Understood : Spelling ip → Prop
  | bracketedPort .. => False
  | url .. => isV6 ip = false
  | _ => True

end Spelling

end Spellings

/-! ## The characters of addresses -/

section Characters

variable {ip : IpAddr} (literal : Literal ip)

theorem parseIpAddr_cases {text : Text} (hread : parseIpAddr text = some ip) :
    (∃ v4, ip = .v4 v4 ∧ parseIpv4 text = some v4) ∨
      ∃ v6, ip = .v6 v6 ∧ parseIpv4 text = none ∧ parseIpv6 text = some v6 := by
  rw [parseIpAddr] at hread
  cases hv4 : parseIpv4 text with
  | some v4 =>
      rw [hv4] at hread
      exact .inl ⟨v4, (Option.some.inj hread).symm, rfl⟩
  | none =>
      rw [hv4] at hread
      obtain ⟨v6, hv6, hip⟩ := Option.map_eq_some_iff.mp hread
      exact .inr ⟨v6, hip.symm, rfl, hv6⟩

theorem parseIpAddr_chars {text : Text} (hread : parseIpAddr text = some ip) :
    text ≠ [] ∧ ∀ c ∈ text, isIpv6Char c = true := by
  rcases parseIpAddr_cases hread with ⟨v4, -, hv4⟩ | ⟨v6, -, -, hv6⟩
  · exact ⟨List.ne_nil_of_mem (parseIpv4_chars hv4).1, parseIpv4_ipv6Chars hv4⟩
  · exact ⟨List.ne_nil_of_mem (parseIpv6_chars hv6).1, (parseIpv6_chars hv6).2⟩

/-- A text with another character is no address. -/
theorem parseIpAddr_eq_none {text : Text} {c : Char} (hmem : c ∈ text)
    (hc : isIpv6Char c = false) : parseIpAddr text = none := by
  cases hread : parseIpAddr text with
  | none => rfl
  | some ip =>
      rw [(parseIpAddr_chars hread).2 c hmem] at hc
      cases hc

theorem Literal.notMem {c : Char} (hc : isIpv6Char c = false) : c ∉ literal.text := fun hmem => by
  rw [(parseIpAddr_chars literal.read).2 c hmem] at hc
  cases hc

theorem Literal.ne_nil : literal.text ≠ [] := (parseIpAddr_chars literal.read).1

theorem Literal.black : ∀ c ∈ literal.text, isWhite c = false := fun c hc =>
  not_white_of_ipv6 ((parseIpAddr_chars literal.read).2 c hc)

theorem Literal.v4 (hv4 : isV6 ip = false) :
    ∃ address, ip = .v4 address ∧ parseIpv4 literal.text = some address := by
  rcases parseIpAddr_cases literal.read with h | ⟨v6, rfl, -⟩
  · exact h
  · cases hv4

theorem Literal.colon_mem (hv6 : isV6 ip = true) : ':' ∈ literal.text := by
  rcases parseIpAddr_cases literal.read with ⟨v4, rfl, -⟩ | ⟨v6, -, -, hread⟩
  · cases hv6
  · exact (parseIpv6_chars hread).1

theorem Literal.colon_notMem (hv4 : isV6 ip = false) : ':' ∉ literal.text := by
  obtain ⟨address, -, hread⟩ := literal.v4 hv4
  intro hmem
  rcases (parseIpv4_chars hread).2 _ hmem with hdigit | hdot
  · exact absurd hdigit (by decide)
  · exact absurd hdot (by decide)

theorem takeWhile_before (before after : Text) (separator : Char) :
    (before ++ separator :: after).takeWhile (· ≠ separator) =
      before.takeWhile (· ≠ separator) := by
  by_cases hmem : separator ∈ before
  · obtain ⟨first, rest, rfl, hfirst⟩ := List.eq_append_cons_of_mem hmem
    rw [List.append_assoc, List.cons_append, takeWhile_separator hfirst,
      takeWhile_separator hfirst]
  · rw [takeWhile_separator hmem]
    exact (takeWhile_of_notMem hmem).symm

/-- The first group of an IPv6 address has no dot. -/
theorem parseIpv6_first {text : Text} {address : Ipv6Addr}
    (hread : parseIpv6 text = some address) : '.' ∉ text.takeWhile (· ≠ ':') := by
  have hcolon := (parseIpv6_chars hread).1
  rw [parseIpv6] at hread
  cases hcut : cut [':', ':'] text with
  | some around =>
      obtain ⟨head, tail⟩ := around
      rw [hcut] at hread
      simp only [Option.bind_eq_bind, Option.bind_eq_some_iff] at hread
      obtain ⟨groups, hgroups, -⟩ := hread
      have htext : text = head ++ ':' :: ':' :: tail := by
        rw [cut_append hcut, List.append_assoc]
        rfl
      rw [htext, takeWhile_before, ← headD_splitOn ':' head []]
      rw [parseHead] at hgroups
      split at hgroups
      · next hnil =>
          rw [hnil]
          decide
      · obtain ⟨first, rest, hpieces⟩ :=
          List.exists_cons_of_ne_nil (List.splitOn_ne_nil ':' head)
        rw [hpieces, List.mapM_cons] at hgroups
        simp only [Option.bind_eq_bind, Option.bind_eq_some_iff] at hgroups
        obtain ⟨group, hgroup, -⟩ := hgroups
        rw [hpieces]
        exact parseGroup_noDot hgroup
  | none =>
      rw [hcut] at hread
      obtain ⟨groups, hgroups, -⟩ := Option.bind_eq_some_iff.mp hread
      obtain ⟨first, rest, rfl, hfirst⟩ := List.eq_append_cons_of_mem hcolon
      rw [takeWhile_separator hfirst]
      have hne : first ++ ':' :: rest ≠ [] := by simp
      rw [parseTail, if_neg hne, List.splitOn_append_cons_self_of_not_mem hfirst] at hgroups
      obtain ⟨second, more, hpieces⟩ :=
        List.exists_cons_of_ne_nil (List.splitOn_ne_nil ':' rest)
      rw [hpieces, parsePieces] at hgroups
      · simp only [Option.bind_eq_bind, Option.bind_eq_some_iff] at hgroups
        obtain ⟨group, hgroup, -⟩ := hgroups
        exact parseGroup_noDot hgroup
      · exact List.cons_ne_nil _ _

/-- What stands before the first colon of an address with a colon is no address. -/
theorem parseIpAddr_first (literal : Literal ip) (hv6 : isV6 ip = true) :
    parseIpAddr (literal.text.takeWhile (· ≠ ':')) = none := by
  have hcolon : ':' ∉ literal.text.takeWhile (· ≠ ':') := fun h =>
    absurd (List.mem_takeWhile_imp h) (by decide)
  have hdot : '.' ∉ literal.text.takeWhile (· ≠ ':') := by
    rcases parseIpAddr_cases literal.read with ⟨v4, rfl, -⟩ | ⟨v6, -, -, hread⟩
    · cases hv6
    · exact parseIpv6_first hread
  cases hread : parseIpAddr (literal.text.takeWhile (· ≠ ':')) with
  | none => rfl
  | some other =>
      rcases parseIpAddr_cases hread with ⟨v4, -, h⟩ | ⟨v6, -, -, h⟩
      · exact absurd (parseIpv4_chars h).1 hdot
      · exact absurd (parseIpv6_chars h).1 hcolon

/-- An IPv4 address with a port is no address. -/
theorem parseIpAddr_port (literal : Literal ip) (hv4 : isV6 ip = false) (rest : Text) :
    parseIpAddr (literal.text ++ ':' :: rest) = none := by
  obtain ⟨address, -, hv4read⟩ := literal.v4 hv4
  cases hread : parseIpAddr (literal.text ++ ':' :: rest) with
  | none => rfl
  | some other =>
      rcases parseIpAddr_cases hread with ⟨v4, -, h⟩ | ⟨v6, -, -, h⟩
      · rcases (parseIpv4_chars h).2 ':' (by simp) with hdigit | hdot
        · exact absurd hdigit (by decide)
        · exact absurd hdot (by decide)
      · have hfirst := parseIpv6_first h
        rw [takeWhile_separator (literal.colon_notMem hv4)] at hfirst
        exact absurd (parseIpv4_chars hv4read).1 hfirst

end Characters

/-! ## What the parser reads -/

section Reading

variable {ip : IpAddr}

theorem ipFromProviderUrl_of_head {url : Text} (hhead : url.head? ≠ some 'h') :
    ipFromProviderUrl url = none := by
  cases url with
  | nil => rfl
  | cons first rest =>
      have hne : 'h' ≠ first := fun h => hhead (by rw [← h]; rfl)
      have hnone : ∀ more : Text, ('h' :: more).isPrefixOf? (first :: rest) = none := by
        intro more
        simp [List.isPrefixOf?, hne]
      have hhttps : "https://".toList.isPrefixOf? (first :: rest) = none :=
        hnone "ttps://".toList
      have hhttp : "http://".toList.isPrefixOf? (first :: rest) = none := hnone "ttp://".toList
      simp only [ipFromProviderUrl, hhttps, hhttp]

theorem ipFromProviderUrl_scheme (scheme : Scheme) (rest : Text) :
    ipFromProviderUrl (scheme.text ++ rest) =
      (let host := trim (rest.takeWhile fun c => c ≠ '/' && c ≠ ':')
       if host = [] || !host.any Char.isDigit then none else some host) := by
  cases scheme <;> rfl

/-- What is read of a text that is no URL with a digit in its host. -/
theorem parseLanIp_eq {raw host : Text} (hblack : ∀ c ∈ raw, isWhite c = false)
    (hurl : ipFromProviderUrl raw = none)
    (hhost : trimEndMatches [']'] (trimStartMatches ['['] (raw.takeWhile (· ≠ '/'))) = host)
    (hne : host ≠ []) :
    parseLanIp raw = (parseIpAddr host).or
      (if host.count '.' = 3 then parseIpAddr (host.takeWhile (· ≠ ':')) else none) := by
  have hraw : raw ≠ [] := by
    rintro rfl
    exact hne hhost.symm
  have hwhile : ∀ c ∈ raw.takeWhile (· ≠ '/'), isWhite c = false := fun c hc =>
    hblack c ((List.takeWhile_sublist _).subset hc)
  rw [parseLanIp]
  simp only [trim_of_noWhite hblack, hraw, if_false, hurl, trim_of_noWhite hwhile, hhost, hne]
  cases parseIpAddr host <;> rfl

theorem trimStartMatches_of_head {text : Text} {c : Char} (hhead : ∀ d ∈ text.head?, d ≠ c) :
    trimStartMatches [c] text = text := by
  refine trimStartMatches_of_not_prefix fun hpre => ?_
  obtain ⟨rest, rfl⟩ := hpre
  exact hhead c rfl rfl

/-- Nothing is taken off an address. -/
theorem strip_literal (literal : Literal ip) :
    trimEndMatches [']'] (trimStartMatches ['['] literal.text) = literal.text := by
  rw [trimStartMatches_of_head, trimEndMatches_of_last]
  · intro d hd hbracket
    obtain rfl := List.mem_singleton.mp hbracket
    exact literal.notMem (by decide) (List.mem_of_getLast? hd)
  · rintro d hd rfl
    exact literal.notMem (by decide) (List.mem_of_head? hd)

theorem head_literal (literal : Literal ip) (rest : Text) :
    (literal.text ++ rest).head? ≠ some 'h' := by
  obtain ⟨first, more, htext⟩ := List.exists_cons_of_ne_nil literal.ne_nil
  rw [htext]
  intro h
  obtain rfl : first = 'h' := Option.some.inj h
  exact literal.notMem (by decide) (htext ▸ List.mem_cons_self)

theorem parseLanIp_plain (literal : Literal ip) : parseLanIp literal.text = some ip := by
  have hhost : trimEndMatches [']'] (trimStartMatches ['[']
      (literal.text.takeWhile (· ≠ '/'))) = literal.text := by
    rw [takeWhile_of_notMem (literal.notMem (by decide)), strip_literal]
  have hurl := head_literal literal []
  rw [List.append_nil] at hurl
  rw [parseLanIp_eq literal.black (ipFromProviderUrl_of_head hurl) hhost literal.ne_nil,
    literal.read]
  rfl

theorem black_decimal (n : Nat) : ∀ c ∈ decimal n, isWhite c = false := fun _ hc =>
  isWhite_of_isDigit (isDigit_decimal hc)

theorem parseLanIp_prefixed (literal : Literal ip) (length : Nat) :
    parseLanIp (literal.text ++ '/' :: decimal length) = some ip := by
  have hblack : ∀ c ∈ literal.text ++ '/' :: decimal length, isWhite c = false := by
    simp only [List.forall_mem_append, List.forall_mem_cons]
    exact ⟨literal.black, by decide, black_decimal length⟩
  have hhost : trimEndMatches [']'] (trimStartMatches ['[']
      ((literal.text ++ '/' :: decimal length).takeWhile (· ≠ '/'))) = literal.text := by
    rw [takeWhile_separator (literal.notMem (by decide)), strip_literal]
  rw [parseLanIp_eq hblack (ipFromProviderUrl_of_head (head_literal literal _)) hhost
    literal.ne_nil, literal.read]
  rfl

theorem trimStartMatches_bracket (literal : Literal ip) (rest : Text) :
    trimStartMatches ['['] ('[' :: (literal.text ++ rest)) = literal.text ++ rest := by
  refine trimStartMatches_append (List.cons_ne_nil _ _) ?_
  obtain ⟨first, more, htext⟩ := List.exists_cons_of_ne_nil literal.ne_nil
  rw [htext]
  intro hpre
  obtain rfl := (List.cons_prefix_cons.mp hpre).1
  exact literal.notMem (by decide) (htext ▸ List.mem_cons_self)

theorem parseLanIp_bracketed (literal : Literal ip) :
    parseLanIp ('[' :: (literal.text ++ [']'])) = some ip := by
  have hblack : ∀ c ∈ '[' :: (literal.text ++ [']']), isWhite c = false := by
    simp only [List.forall_mem_append, List.forall_mem_cons]
    exact ⟨by decide, literal.black, by decide, List.forall_mem_nil _⟩
  have hslash : '/' ∉ '[' :: (literal.text ++ [']']) := by
    have hnot : '/' ∉ literal.text := literal.notMem (by decide)
    simp [hnot]
  have hlast : trimEndMatches [']'] (literal.text ++ [']']) = literal.text := by
    have hrest : trimEndMatches [']'] literal.text = literal.text := by
      refine trimEndMatches_of_last fun d hd hbracket => ?_
      obtain rfl := List.mem_singleton.mp hbracket
      exact literal.notMem (by decide) (List.mem_of_getLast? hd)
    rw [trimEndMatches, List.rdropWhile_concat_pos _ _ _ (by decide)]
    exact hrest
  have hhost : trimEndMatches [']'] (trimStartMatches ['[']
      (('[' :: (literal.text ++ [']'])).takeWhile (· ≠ '/'))) = literal.text := by
    rw [takeWhile_of_notMem hslash, trimStartMatches_bracket, hlast]
  rw [parseLanIp_eq hblack (ipFromProviderUrl_of_head (by simp)) hhost literal.ne_nil,
    literal.read]
  rfl

theorem decimal_getLast (n : Nat) (front : Text) :
    ∃ digit, (front ++ decimal n).getLast? = some digit ∧ digit.isDigit = true := by
  have hne : decimal n ≠ [] := by
    have hdigits := isDigits_decimal n
    rw [isDigits, Bool.and_eq_true, decide_eq_true_eq] at hdigits
    exact hdigits.1
  refine ⟨(decimal n).getLast hne, ?_, isDigit_decimal (List.getLast_mem hne)⟩
  rw [List.getLast?_append, List.getLast?_eq_some_getLast hne]
  rfl

theorem slash_notMem_decimal (n : Nat) : '/' ∉ decimal n := fun h =>
  absurd (isDigit_decimal h) (by decide)

/-- An IPv4 address with a port behind it. -/
theorem parseLanIp_withPort (literal : Literal ip) (hv4 : isV6 ip = false) (port : Nat) :
    parseLanIp (literal.text ++ ':' :: decimal port) = some ip := by
  have hblack : ∀ c ∈ literal.text ++ ':' :: decimal port, isWhite c = false := by
    simp only [List.forall_mem_append, List.forall_mem_cons]
    exact ⟨literal.black, by decide, black_decimal port⟩
  have hslash : '/' ∉ literal.text ++ ':' :: decimal port := by
    have hnot : '/' ∉ literal.text := literal.notMem (by decide)
    simp [hnot, slash_notMem_decimal]
  have hhost : trimEndMatches [']'] (trimStartMatches ['[']
      ((literal.text ++ ':' :: decimal port).takeWhile (· ≠ '/'))) =
        literal.text ++ ':' :: decimal port := by
    rw [takeWhile_of_notMem hslash, trimStartMatches_of_head, trimEndMatches_of_last]
    · obtain ⟨digit, hlast, hdigit⟩ := decimal_getLast port (literal.text ++ [':'])
      rw [List.append_assoc, List.singleton_append] at hlast
      intro d hd hbracket
      obtain rfl := List.mem_singleton.mp hbracket
      rw [hlast] at hd
      obtain rfl := Option.some.inj hd
      exact absurd hdigit (by decide)
    · rintro d hd rfl
      rw [List.head?_append_of_ne_nil _ literal.ne_nil] at hd
      exact literal.notMem (by decide) (List.mem_of_head? hd)
  obtain ⟨address, -, hread⟩ := literal.v4 hv4
  have hcount : (literal.text ++ ':' :: decimal port).count '.' = 3 := by
    have hnone : (decimal port).count '.' = 0 := List.count_eq_zero.mpr fun h =>
      absurd (isDigit_decimal h) (by decide)
    rw [List.count_append, List.count_cons, (parseIpv4_count hread).1, hnone]
    rfl
  rw [parseLanIp_eq hblack (ipFromProviderUrl_of_head (head_literal literal _)) hhost
    (by simp), parseIpAddr_port literal hv4, if_pos hcount,
    takeWhile_separator (literal.colon_notMem hv4), literal.read]
  rfl

/-- Behind a bracket the port stays, and nothing is read. -/
theorem parseLanIp_bracketedPort (literal : Literal ip) (port : Nat) :
    parseLanIp ('[' :: (literal.text ++ ']' :: ':' :: decimal port)) = none := by
  have hblack : ∀ c ∈ '[' :: (literal.text ++ ']' :: ':' :: decimal port),
      isWhite c = false := by
    simp only [List.forall_mem_append, List.forall_mem_cons]
    exact ⟨by decide, literal.black, by decide, by decide, black_decimal port⟩
  have hslash : '/' ∉ '[' :: (literal.text ++ ']' :: ':' :: decimal port) := by
    have hnot : '/' ∉ literal.text := literal.notMem (by decide)
    simp [hnot, slash_notMem_decimal]
  have hhost : trimEndMatches [']'] (trimStartMatches ['[']
      (('[' :: (literal.text ++ ']' :: ':' :: decimal port)).takeWhile (· ≠ '/'))) =
        literal.text ++ ']' :: ':' :: decimal port := by
    rw [takeWhile_of_notMem hslash, trimStartMatches_bracket, trimEndMatches_of_last]
    obtain ⟨digit, hlast, hdigit⟩ := decimal_getLast port (literal.text ++ [']', ':'])
    rw [List.append_assoc] at hlast
    intro d hd hbracket
    obtain rfl := List.mem_singleton.mp hbracket
    rw [show literal.text ++ ']' :: ':' :: decimal port =
      literal.text ++ ([']', ':'] ++ decimal port) from rfl, hlast] at hd
    obtain rfl := Option.some.inj hd
    exact absurd hdigit (by decide)
  have hbracket : ']' ∈ literal.text ++ ']' :: ':' :: decimal port := by simp
  rw [parseLanIp_eq hblack (ipFromProviderUrl_of_head (by simp)) hhost (by simp),
    parseIpAddr_eq_none hbracket (by decide), Option.none_or]
  split
  · cases hv6 : isV6 ip with
    | true =>
        have hsame : (literal.text ++ ']' :: ':' :: decimal port).takeWhile (· ≠ ':') =
            literal.text.takeWhile (· ≠ ':') := by
          obtain ⟨first, rest, htext, hfirst⟩ :=
            List.eq_append_cons_of_mem (literal.colon_mem hv6)
          rw [htext, List.append_assoc, List.cons_append, takeWhile_separator hfirst,
            takeWhile_separator hfirst]
        rw [hsame, parseIpAddr_first literal hv6]
    | false =>
        have hcolon : ':' ∉ literal.text ++ [']'] := by
          simp [literal.colon_notMem hv6]
        have hsame : (literal.text ++ ']' :: ':' :: decimal port).takeWhile (· ≠ ':') =
            literal.text ++ [']'] := by
          have h := takeWhile_separator hcolon (decimal port)
          rwa [List.append_assoc] at h
        rw [hsame]
        exact parseIpAddr_eq_none (c := ']') (by simp) (by decide)
  · rfl

theorem takeWhile_host {host tail : Text} (hhost : ∀ c ∈ host, c ≠ '/' ∧ c ≠ ':')
    (htail : ∀ c ∈ tail.head?, c = '/' ∨ c = ':') :
    (host ++ tail).takeWhile (fun c => c ≠ '/' && c ≠ ':') = host := by
  rw [List.takeWhile_append_of_pos fun c hc => by simp [hhost c hc]]
  cases tail with
  | nil => simp
  | cons first rest =>
      rw [List.takeWhile_cons_of_neg, List.append_nil]
      rcases htail first rfl with rfl | rfl <;> decide

theorem tail_head (port : Option Nat) (path : Path) :
    ∀ c ∈ (Spelling.portText port ++ path.text).head?, c = '/' ∨ c = ':' := by
  cases port with
  | none => exact fun c hc => .inl (path.head_slash c hc)
  | some port =>
      intro c hc
      exact .inr (Option.some.inj hc).symm

theorem scheme_black (scheme : Scheme) : ∀ c ∈ scheme.text, isWhite c = false := by
  cases scheme <;> decide

theorem portText_black (port : Option Nat) : ∀ c ∈ Spelling.portText port, isWhite c = false := by
  cases port with
  | none => exact List.forall_mem_nil _
  | some port =>
      simp only [Spelling.portText, List.forall_mem_cons]
      exact ⟨by decide, black_decimal port⟩

variable (scheme : Scheme) (port : Option Nat) (path : Path)

theorem ipFromProviderUrl_url (literal : Literal ip) (hv4 : isV6 ip = false) :
    ipFromProviderUrl (scheme.text ++ (literal.text ++ (Spelling.portText port ++ path.text))) =
      some literal.text := by
  obtain ⟨address, -, hread⟩ := literal.v4 hv4
  obtain ⟨-, digit, hmem, hdigit⟩ := parseIpv4_count hread
  have hhost : ∀ c ∈ literal.text, c ≠ '/' ∧ c ≠ ':' := by
    intro c hc
    constructor
    · rintro rfl
      exact literal.notMem (by decide) hc
    · rintro rfl
      exact literal.colon_notMem hv4 hc
  have hany : literal.text.any Char.isDigit = true := List.any_eq_true.mpr ⟨digit, hmem, hdigit⟩
  rw [ipFromProviderUrl_scheme, takeWhile_host hhost (tail_head port path)]
  simp only [trim_of_noWhite literal.black, literal.ne_nil, hany, decide_false, Bool.not_true,
    Bool.or_self, Bool.false_eq_true, if_false]

theorem parseLanIp_url (literal : Literal ip) (hv4 : isV6 ip = false) :
    parseLanIp (scheme.text ++ (literal.text ++ (Spelling.portText port ++ path.text))) =
      some ip := by
  have hblack : ∀ c ∈ scheme.text ++ (literal.text ++ (Spelling.portText port ++ path.text)),
      isWhite c = false := by
    simp only [List.forall_mem_append]
    exact ⟨scheme_black scheme, literal.black, portText_black port, path.black⟩
  have hne : scheme.text ++ (literal.text ++ (Spelling.portText port ++ path.text)) ≠ [] := by
    cases scheme <;> exact List.cons_ne_nil _ _
  rw [parseLanIp]
  simp only [trim_of_noWhite hblack, hne, if_false,
    ipFromProviderUrl_url scheme port path literal hv4, literal.read]

/-- The host of an IPv6 URL is cut at its first colon, and nothing is read. -/
theorem parseLanIp_url6 (literal : Literal ip) (hv6 : isV6 ip = true) :
    parseLanIp (scheme.text ++ ('[' :: (literal.text ++ [']']) ++
      (Spelling.portText port ++ path.text))) = none := by
  obtain ⟨first, rest, htext, hfirst⟩ := List.eq_append_cons_of_mem (literal.colon_mem hv6)
  have hblack : ∀ c ∈ scheme.text ++ ('[' :: (literal.text ++ [']']) ++
      (Spelling.portText port ++ path.text)), isWhite c = false := by
    simp only [List.forall_mem_append, List.forall_mem_cons]
    exact ⟨scheme_black scheme, ⟨by decide, literal.black, by decide, List.forall_mem_nil _⟩,
      portText_black port, path.black⟩
  have hne : scheme.text ++ ('[' :: (literal.text ++ [']']) ++
      (Spelling.portText port ++ path.text)) ≠ [] := by
    cases scheme <;> exact List.cons_ne_nil _ _
  have hhost : ∀ c ∈ '[' :: first, c ≠ '/' ∧ c ≠ ':' := by
    refine List.forall_mem_cons.mpr ⟨by decide, fun c hc => ⟨?_, ?_⟩⟩
    · rintro rfl
      exact literal.notMem (by decide) (htext ▸ List.mem_append_left _ hc)
    · rintro rfl
      exact hfirst hc
  have hwhile : ('[' :: (literal.text ++ [']']) ++ (Spelling.portText port ++ path.text)).takeWhile
      (fun c => c ≠ '/' && c ≠ ':') = '[' :: first := by
    have hsplit : '[' :: (literal.text ++ [']']) ++ (Spelling.portText port ++ path.text) =
        ('[' :: first) ++ ':' :: (rest ++ [']'] ++ (Spelling.portText port ++ path.text)) := by
      rw [htext]
      simp
    rw [hsplit]
    exact takeWhile_host hhost fun c hc => .inr (Option.some.inj hc).symm
  have hfirstBlack : ∀ c ∈ '[' :: first, isWhite c = false :=
    List.forall_mem_cons.mpr ⟨by decide, fun c hc =>
      literal.black c (htext ▸ List.mem_append_left _ hc)⟩
  rw [parseLanIp]
  simp only [trim_of_noWhite hblack, hne, if_false, ipFromProviderUrl_scheme, hwhile,
    trim_of_noWhite hfirstBlack]
  by_cases hdigit : ('[' :: first).any Char.isDigit = true
  · simp only [hdigit, reduceCtorEq, decide_false, Bool.not_true, Bool.or_self,
      Bool.false_eq_true, if_false]
    exact parseIpAddr_eq_none List.mem_cons_self (by decide)
  · have hfront : ∀ tail : Text, ∃ host, trimEndMatches [']'] (trimStartMatches ['[']
        (trim ((scheme.text ++ tail).takeWhile (· ≠ '/')))) = host ∧ host ≠ [] ∧
          parseIpAddr host = none ∧ host.count '.' ≠ 3 := by
      intro tail
      cases scheme
      · exact ⟨"http:".toList, rfl, by decide, by decide, by decide⟩
      · exact ⟨"https:".toList, rfl, by decide, by decide, by decide⟩
    obtain ⟨host, hhead, hhostNe, hnone, hcount⟩ :=
      hfront ('[' :: (literal.text ++ [']']) ++ (Spelling.portText port ++ path.text))
    simp only [hdigit, Bool.not_false, Bool.or_true, if_true, hhead, hhostNe, if_false, hnone,
      hcount]

end Reading

/-! ## Equal texts -/

section Equality

variable {ip : IpAddr}

theorem Spelling.black (spelling : Spelling ip) : ∀ c ∈ spelling.text, isWhite c = false := by
  cases spelling with
  | plain literal => exact literal.black
  | prefixed literal length =>
      simp only [Spelling.text, List.forall_mem_append, List.forall_mem_cons]
      exact ⟨literal.black, by decide, black_decimal length⟩
  | bracketed literal =>
      simp only [Spelling.text, List.forall_mem_append, List.forall_mem_cons]
      exact ⟨by decide, literal.black, by decide, List.forall_mem_nil _⟩
  | bracketedPort literal port =>
      simp only [Spelling.text, List.forall_mem_append, List.forall_mem_cons]
      exact ⟨by decide, literal.black, by decide, by decide, black_decimal port⟩
  | withPort literal v4 port =>
      simp only [Spelling.text, List.forall_mem_append, List.forall_mem_cons]
      exact ⟨literal.black, by decide, black_decimal port⟩
  | url scheme literal port path =>
      simp only [Spelling.text, List.forall_mem_append]
      refine ⟨scheme_black scheme, ?_, portText_black port, path.black⟩
      split
      · simp only [List.forall_mem_append, List.forall_mem_cons]
        exact ⟨by decide, literal.black, by decide, List.forall_mem_nil _⟩
      · exact literal.black

/-- What the parser reads of a spelling. -/
theorem parseLanIp_spelling (spelling : Spelling ip) :
    spelling.Understood ∧ parseLanIp spelling.text = some ip ∨
      ¬ spelling.Understood ∧ parseLanIp spelling.text = none := by
  cases spelling with
  | plain literal => exact .inl ⟨trivial, parseLanIp_plain literal⟩
  | prefixed literal length => exact .inl ⟨trivial, parseLanIp_prefixed literal length⟩
  | bracketed literal => exact .inl ⟨trivial, parseLanIp_bracketed literal⟩
  | bracketedPort literal port => exact .inr ⟨id, parseLanIp_bracketedPort literal port⟩
  | withPort literal v4 port => exact .inl ⟨trivial, parseLanIp_withPort literal v4 port⟩
  | url scheme literal port path =>
      cases hv6 : isV6 ip with
      | false =>
          refine .inl ⟨hv6, ?_⟩
          rw [Spelling.text, hv6, if_neg Bool.false_ne_true]
          exact parseLanIp_url scheme port path literal hv6
      | true =>
          refine .inr ⟨?_, ?_⟩
          · rw [Spelling.Understood, hv6]
            exact Bool.true_eq_false.mp
          · rw [Spelling.text, hv6, if_pos rfl]
            exact parseLanIp_url6 scheme port path literal hv6

/-- The text between the brackets, behind a scheme if there is one. -/
def between (text : Text) : Text :=
  ((text.dropWhile (· ≠ '[')).drop 1).takeWhile (· ≠ ']')

theorem between_eq (literal : Literal ip) {front : Text} (hfront : '[' ∉ front) (rest : Text) :
    between (front ++ '[' :: (literal.text ++ ']' :: rest)) = literal.text := by
  have hdrop : (front ++ '[' :: (literal.text ++ ']' :: rest)).dropWhile (· ≠ '[') =
      '[' :: (literal.text ++ ']' :: rest) := by
    rw [List.dropWhile_append_of_pos fun c hc => ?_]
    · rfl
    · have hne : c ≠ '[' := fun h => hfront (h ▸ hc)
      simp [hne]
  rw [between, hdrop, List.drop_one, List.tail_cons,
    takeWhile_separator (literal.notMem (by decide))]

/-- A spelling that is not read has the address between brackets. -/
theorem between_spelling (spelling : Spelling ip) (hnot : ¬ spelling.Understood) :
    parseIpAddr (between spelling.text) = some ip := by
  cases spelling with
  | plain literal => exact absurd trivial hnot
  | prefixed literal length => exact absurd trivial hnot
  | bracketed literal => exact absurd trivial hnot
  | withPort literal v4 port => exact absurd trivial hnot
  | bracketedPort literal port =>
      have hbetween := between_eq literal (List.not_mem_nil (a := '[')) (':' :: decimal port)
      rw [List.nil_append] at hbetween
      rw [Spelling.text, hbetween, literal.read]
  | url scheme literal port path =>
      have hv6 : isV6 ip = true := by simpa [Spelling.Understood] using hnot
      have hfront : '[' ∉ scheme.text := by cases scheme <;> decide
      have hbetween := between_eq literal hfront (Spelling.portText port ++ path.text)
      rw [Spelling.text, hv6, if_pos rfl]
      simp only [List.cons_append, List.append_assoc, List.nil_append]
      rw [hbetween, literal.read]

theorem parseLanIp_trim (text : Text) : parseLanIp (trim text) = parseLanIp text := by
  rw [parseLanIp, parseLanIp, trim_trim]

/-- Two texts are equal if they denote the same address, or no address and have the same
letters. -/
theorem ipsEqual_iff {a b : Text} : ipsEqual a b = true ↔
    (∃ x, parseLanIp a = some x ∧ parseLanIp b = some x) ∨
      parseLanIp a = none ∧ trim a = trim b ∧ trim a ≠ [] := by
  have hsame : trim a = trim b → parseLanIp a = parseLanIp b := fun htrim => by
    rw [← parseLanIp_trim a, htrim, parseLanIp_trim]
  constructor
  · intro hequal
    rw [ipsEqual] at hequal
    split at hequal
    · next x y hx hy =>
        rw [of_decide_eq_true hequal] at hx
        exact .inl ⟨y, hx, hy⟩
    · next hnot =>
        rw [Bool.and_eq_true, decide_eq_true_eq, decide_eq_true_eq] at hequal
        refine .inr ⟨?_, hequal⟩
        cases ha : parseLanIp a with
        | none => rfl
        | some x => exact absurd ((hsame hequal.1).symm.trans ha) (hnot x x ha)
  · rintro (⟨x, ha, hb⟩ | ⟨ha, hletters⟩)
    · simp only [ipsEqual, ha, hb, decide_true]
    · rw [ipsEqual, ha]
      exact Bool.and_eq_true_iff.mpr ⟨decide_eq_true hletters.1, decide_eq_true hletters.2⟩

theorem ipsEqual_refl {a : Text} (hblack : trim a ≠ []) : ipsEqual a a = true := by
  rw [ipsEqual_iff]
  cases ha : parseLanIp a with
  | some x => exact .inl ⟨x, rfl, rfl⟩
  | none => exact .inr ⟨rfl, rfl, hblack⟩

theorem ipsEqual_symm {a b : Text} (hab : ipsEqual a b = true) : ipsEqual b a = true := by
  rw [ipsEqual_iff] at hab ⊢
  rcases hab with ⟨x, ha, hb⟩ | ⟨ha, htrim, hne⟩
  · exact .inl ⟨x, hb, ha⟩
  · refine .inr ⟨?_, htrim.symm, htrim ▸ hne⟩
    rw [← parseLanIp_trim, ← htrim, parseLanIp_trim, ha]

theorem ipsEqual_trans {a b c : Text} (hab : ipsEqual a b = true) (hbc : ipsEqual b c = true) :
    ipsEqual a c = true := by
  rw [ipsEqual_iff] at hab hbc ⊢
  rcases hab with ⟨x, ha, hb⟩ | ⟨ha, htrim, hne⟩
  · rcases hbc with ⟨y, hb', hc⟩ | ⟨hb', -, -⟩
    · rw [hb] at hb'
      exact .inl ⟨x, ha, by rw [hc, Option.some.inj hb']⟩
    · rw [hb] at hb'
      cases hb'
  · have hb : parseLanIp b = none := by rw [← parseLanIp_trim, ← htrim, parseLanIp_trim, ha]
    rcases hbc with ⟨y, hb', -⟩ | ⟨-, htrim', -⟩
    · rw [hb] at hb'
      cases hb'
    · exact .inr ⟨ha, htrim.trans htrim', hne⟩

/-- Spellings of one address are equal where both are read. -/
theorem ipsEqual_of_understood {first second : Spelling ip} (hfirst : first.Understood)
    (hsecond : second.Understood) : ipsEqual first.text second.text = true := by
  have hread : ∀ {spelling : Spelling ip}, spelling.Understood →
      parseLanIp spelling.text = some ip := fun {spelling} h =>
    (parseLanIp_spelling spelling).elim And.right fun hnot => absurd h hnot.1
  exact ipsEqual_iff.mpr (.inl ⟨ip, hread hfirst, hread hsecond⟩)

/-- Spellings of different addresses are never equal. -/
theorem eq_of_ipsEqual {other : IpAddr} {first : Spelling ip} {second : Spelling other}
    (hequal : ipsEqual first.text second.text = true) : ip = other := by
  rcases ipsEqual_iff.mp hequal with ⟨x, hx, hy⟩ | ⟨hnone, htrim, -⟩
  · rcases parseLanIp_spelling first with ⟨-, h⟩ | ⟨-, h⟩
    · rcases parseLanIp_spelling second with ⟨-, h'⟩ | ⟨-, h'⟩
      · rw [h] at hx
        rw [h'] at hy
        exact Option.some.inj (hx.trans hy.symm)
      · rw [h'] at hy
        cases hy
    · rw [h] at hx
      cases hx
  · rw [trim_of_noWhite first.black, trim_of_noWhite second.black] at htrim
    rcases parseLanIp_spelling first with ⟨-, h⟩ | ⟨hnot, -⟩
    · rw [h] at hnone
      cases hnone
    · rcases parseLanIp_spelling second with ⟨-, h'⟩ | ⟨hnot', -⟩
      · rw [htrim, h'] at hnone
        cases hnone
      · have hread := between_spelling first hnot
        rw [htrim, between_spelling second hnot'] at hread
        exact (Option.some.inj hread).symm

end Equality

end PertiskKos.LanIp
