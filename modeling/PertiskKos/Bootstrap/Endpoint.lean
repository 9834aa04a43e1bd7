import PertiskKos.Bootstrap.Kubeconfig
import PertiskKos.Etcd.Join
import PertiskKos.Library.AddressText

/-!
# The host of the endpoint

At bootstrap and join the host is cut out of the endpoint of the cluster, and afterwards out
of the kubeconfig that has been rendered with it.  The first ends at a slash and then at a
colon, and knows nothing of brackets; the second has them, and knows nothing of slashes.
-/

namespace PertiskKos.Bootstrap

open Strings Lines Ip Etcd

/-! ## What the host is for -/

def isIpAddr (text : Text) : Bool := (parseIpv4 text).isSome || (parseIpv6 text).isSome

/-- VIP address from `cluster.endpoint` when it is an IP (not a DNS name alone). -/
def vipFromEndpointHost (endpointHost : Text) : Option Text :=
  if isIpAddr (trim endpointHost) then some (trim endpointHost) else none

def uniqueSans (names : List Text) : List Text :=
  names.foldl (fun out name =>
    if trim name = [] then out
    else if trim name ∈ out then out
    else out ++ [trim name]) []

def apiserverSans (advertiseIp hostname endpointHost kubernetesSvcIp : Text)
    (extraSans : List Text) : List Text :=
  uniqueSans ([hostname, "kubernetes".toList, "kubernetes.default".toList,
    "kubernetes.default.svc".toList, "kubernetes.default.svc.cluster.local".toList,
    "localhost".toList, advertiseIp, endpointHost, "127.0.0.1".toList, kubernetesSvcIp] ++
      extraSans)

/-- The host that a rebase puts into the certificates. -/
def rebaseEndpointHost (serverHost : Option Text) (stored newIp : Text) : Text :=
  let vip := serverHost.filter fun host => host ≠ [] ∧ host ≠ stored
  ((serverHost.filter (· ≠ newIp)).or vip).getD newIp

/-- The server's host is used at every rebase, also where it is the new address. -/
theorem rebaseEndpointHost_some (host stored newIp : Text) :
    rebaseEndpointHost (some host) stored newIp = host := by
  rw [rebaseEndpointHost, Option.filter_some, Option.filter_some]
  by_cases hnew : host = newIp
  · subst hnew
    by_cases hvip : host ≠ [] ∧ host ≠ stored
    · simp [hvip]
    · simp [hvip]
  · simp [hnew]

/-! ## URLs of an endpoint -/

inductive Scheme where
  | http
  | https
  deriving DecidableEq, Repr

def Scheme.text : Scheme → Text
  | .http => "http://".toList
  | .https => "https://".toList

/-- The characters of a host name. -/
def isNameChar (c : Char) : Bool := c.isAlphanum || c = '-' || c = '.' || c = '_'

inductive Host where
  | dns (name : Text) (name_ne : name ≠ []) (name_chars : ∀ c ∈ name, isNameChar c = true)
  | ipv4 (address : Text) (legal : (parseIpv4 address).isSome = true)
  | ipv6 (address : Text) (legal : (parseIpv6 address).isSome = true)

namespace Host

/-- Without brackets. -/
def text : Host → Text
  | .dns name _ _ => name
  | .ipv4 address _ => address
  | .ipv6 address _ => address

def bracketed : Host → Bool
  | .ipv6 _ _ => true
  | _ => false

/-- As it stands in a URL. -/
def inUrl (host : Host) : Text :=
  if host.bracketed then '[' :: (host.text ++ [']']) else host.text

end Host

/-- A URL of the form `[http(s)://]host[:port][/path]`. -/
structure EndpointUrl where
  scheme : Option Scheme
  host : Host
  port : Option Text
  path : Option Text
  port_digits : ∀ digits ∈ port, isDigits digits = true
  path_slash : ∀ rest ∈ path, rest.head? = some '/'
  path_chars : ∀ rest ∈ path, ∀ c ∈ rest, isWhite c = false

namespace EndpointUrl

variable (url : EndpointUrl)

def portText : Text :=
  match url.port with
  | none => []
  | some digits => ':' :: digits

def pathText : Text := url.path.getD []

def text : Text :=
  (url.scheme.map Scheme.text).getD [] ++ (url.host.inUrl ++ (url.portText ++ url.pathText))

end EndpointUrl

/-! ## Characters of hosts -/

section Characters

theorem isNameChar_digit {c : Char} (hdigit : c.isDigit = true) : isNameChar c = true := by
  simp [isNameChar, Char.isAlphanum, hdigit]

theorem not_white_of_name {c : Char} (hc : isNameChar c = true) : isWhite c = false := by
  simp only [isNameChar, Char.isAlphanum, Char.isAlpha, Char.isUpper, Char.isLower,
    Char.isDigit, Bool.or_eq_true, Bool.and_eq_true, decide_eq_true_eq, ge_iff_le,
    UInt32.le_iff_toNat_le] at hc
  have hrange : 45 ≤ c.toNat ∧ c.toNat ≤ 122 := by
    rcases hc with ((((hc | hc) | hc) | rfl) | rfl) | rfl
    · exact ⟨le_trans (by decide) hc.1, le_trans hc.2 (by decide)⟩
    · exact ⟨le_trans (by decide) hc.1, le_trans hc.2 (by decide)⟩
    · exact ⟨le_trans (by decide) hc.1, le_trans hc.2 (by decide)⟩
    · decide
    · decide
    · decide
  simp [isWhite]
  omega

/-- A host without brackets. -/
theorem host_name_chars (host : Host) (hplain : host.bracketed = false) :
    host.text ≠ [] ∧ ∀ c ∈ host.text, isNameChar c = true := by
  cases host with
  | dns name hne hchars => exact ⟨hne, hchars⟩
  | ipv4 address legal =>
      obtain ⟨ip, hip⟩ := Option.isSome_iff_exists.mp legal
      obtain ⟨hdot, hchars⟩ := parseIpv4_chars hip
      refine ⟨List.ne_nil_of_mem hdot, fun c hc => ?_⟩
      rcases hchars c hc with hdigit | rfl
      · exact isNameChar_digit hdigit
      · decide
  | ipv6 address legal => cases hplain

/-- No character of a host, brackets apart, divides a URL, except the colons of IPv6. -/
theorem host_ipv6_chars (host : Host) (hbracketed : host.bracketed = true) :
    ':' ∈ host.text ∧ ∀ c ∈ host.text, isIpv6Char c = true := by
  cases host with
  | dns name hne hchars => cases hbracketed
  | ipv4 address legal => cases hbracketed
  | ipv6 address legal =>
      obtain ⟨ip, hip⟩ := Option.isSome_iff_exists.mp legal
      exact parseIpv6_chars hip

theorem notMem_of_chars {text : Text} {test : Char → Bool} {c : Char}
    (hall : ∀ d ∈ text, test d = true) (hc : test c = false) : c ∉ text := by
  intro hmem
  rw [hall c hmem] at hc
  cases hc

/-- A host as it stands in a URL has neither white space nor a slash. -/
theorem inUrl_chars (host : Host) :
    host.inUrl ≠ [] ∧ '/' ∉ host.inUrl ∧ ∀ c ∈ host.inUrl, isWhite c = false := by
  cases hbracketed : host.bracketed with
  | false =>
      obtain ⟨hne, hchars⟩ := host_name_chars host hbracketed
      rw [Host.inUrl, hbracketed, if_neg (by decide)]
      exact ⟨hne, notMem_of_chars hchars (by decide), fun c hc => not_white_of_name (hchars c hc)⟩
  | true =>
      obtain ⟨-, hchars⟩ := host_ipv6_chars host hbracketed
      have hslash := @notMem_of_chars _ _ '/' hchars (by decide)
      rw [Host.inUrl, hbracketed, if_pos rfl]
      refine ⟨List.cons_ne_nil _ _, by simp [hslash], ?_⟩
      intro c hc
      simp only [List.mem_cons, List.mem_append, List.not_mem_nil, or_false] at hc
      rcases hc with rfl | hc | rfl
      · decide
      · exact not_white_of_ipv6 (hchars c hc)
      · decide

end Characters

/-! ## The two ways to the host -/

section Splitting

variable (url : EndpointUrl)

/-- The URL without its scheme. -/
def EndpointUrl.rest : Text := url.host.inUrl ++ (url.portText ++ url.pathText)

theorem pathText_cases : url.pathText = [] ∧ url.path = none ∨
    ∃ more, url.pathText = '/' :: more ∧ url.path.isSome = true := by
  cases hpath : url.path with
  | none => exact .inl ⟨by rw [EndpointUrl.pathText, hpath]; rfl, rfl⟩
  | some rest =>
      right
      have hslash := url.path_slash rest hpath
      cases rest with
      | nil => cases hslash
      | cons c more =>
          obtain rfl : c = '/' := Option.some.inj hslash
          exact ⟨more, by rw [EndpointUrl.pathText, hpath]; rfl, rfl⟩

theorem portText_cases : url.portText = [] ∧ url.port = none ∨
    ∃ digit more, url.portText = ':' :: digit :: more ∧ digit.isDigit = true ∧
      (∀ c ∈ more, c.isDigit = true) ∧ url.port.isSome = true := by
  cases hport : url.port with
  | none => exact .inl ⟨by rw [EndpointUrl.portText, hport], rfl⟩
  | some digits =>
      right
      have hdigits := url.port_digits digits hport
      have hall := isDigits_isDigit hdigits
      cases digits with
      | nil => cases hdigits
      | cons digit more =>
          exact ⟨digit, more, by rw [EndpointUrl.portText, hport], hall digit List.mem_cons_self,
            fun c hc => hall c (List.mem_cons_of_mem _ hc), rfl⟩

theorem slash_notMem_portText : '/' ∉ url.portText := by
  rcases portText_cases url with ⟨h, -⟩ | ⟨digit, more, h, hdigit, hmore, -⟩
  · rw [h]
    exact List.not_mem_nil
  · rw [h]
    intro hmem
    rcases List.mem_cons.mp hmem with hc | hmem
    · exact absurd hc (by decide)
    · rcases List.mem_cons.mp hmem with rfl | hc
      · exact absurd hdigit (by decide)
      · exact absurd (hmore _ hc) (by decide)

theorem rest_chars : ∀ c ∈ url.rest, isWhite c = false := by
  intro c hc
  simp only [EndpointUrl.rest, List.mem_append] at hc
  rcases hc with hc | hc | hc
  · exact (inUrl_chars url.host).2.2 c hc
  · rcases portText_cases url with ⟨h, -⟩ | ⟨digit, more, h, hdigit, hmore, -⟩
    · rw [h] at hc
      cases hc
    · rw [h] at hc
      rcases List.mem_cons.mp hc with rfl | hc
      · decide
      · rcases List.mem_cons.mp hc with rfl | hc
        · exact isWhite_of_isDigit hdigit
        · exact isWhite_of_isDigit (hmore c hc)
  · cases hpath : url.path with
    | none =>
        rw [EndpointUrl.pathText, hpath] at hc
        cases hc
    | some rest =>
        rw [EndpointUrl.pathText, hpath] at hc
        exact url.path_chars rest hpath c hc

/-- No scheme follows the scheme. -/
theorem not_scheme_front {name : Text} (hslash : '/' ∉ name) (hbracket : '[' ∉ name) :
    ¬ name ++ [':', '/', '/'] <+: url.rest := by
  rintro ⟨tail, htail⟩
  obtain ⟨-, hhost, -⟩ := inUrl_chars url.host
  have hauthority : '/' ∉ url.host.inUrl ++ url.portText := by
    simp [hhost, slash_notMem_portText]
  have hsame : name ++ ':' :: '/' :: '/' :: tail =
      (url.host.inUrl ++ url.portText) ++ url.pathText := by
    simpa [EndpointUrl.rest] using htail
  have hcolon : url.host.inUrl ++ url.portText = name ++ [':'] := by
    rcases pathText_cases url with ⟨hpath, -⟩ | ⟨more, hpath, -⟩
    · exfalso
      rw [hpath, List.append_nil] at hsame
      exact hauthority (by rw [← hsame]; simp)
    · rw [hpath] at hsame
      have hsplit : (name ++ [':']) ++ '/' :: ('/' :: tail) =
          (url.host.inUrl ++ url.portText) ++ '/' :: more := by
        simpa using hsame
      have hname : '/' ∉ name ++ [':'] := by simp [hslash]
      exact (append_separator_inj hname hauthority hsplit).1.symm
  cases hbracketed : url.host.bracketed with
  | true =>
      rw [Host.inUrl, hbracketed, if_pos rfl] at hcolon
      cases name with
      | nil => simp at hcolon
      | cons c name =>
          have hfirst : '[' = c := (List.cons.inj hcolon).1
          exact hbracket (by rw [hfirst]; exact List.mem_cons_self)
  | false =>
      obtain ⟨-, hchars⟩ := host_name_chars url.host hbracketed
      have hnone : ':' ∉ url.host.text := notMem_of_chars hchars (by decide)
      rw [Host.inUrl, hbracketed, if_neg (by decide)] at hcolon
      rcases portText_cases url with ⟨hport, -⟩ | ⟨digit, more, hport, hdigit, hmore, -⟩
      · rw [hport, List.append_nil] at hcolon
        exact hnone (by rw [hcolon]; simp)
      · -- the last character of a port is a digit
        rw [hport] at hcolon
        have hlast : (url.host.text ++ ':' :: digit :: more).getLast? = some ':' := by
          rw [hcolon, List.getLast?_concat]
        have hmem : ':' ∈ digit :: more := by
          rw [List.getLast?_append_of_ne_nil _ (List.cons_ne_nil _ _),
            List.getLast?_cons_cons] at hlast
          exact List.mem_of_getLast? hlast
        rcases List.mem_cons.mp hmem with rfl | hmem
        · exact absurd hdigit (by decide)
        · exact absurd (hmore _ hmem) (by decide)

theorem not_https_front : ¬ "https://".toList <+: url.rest :=
  @not_scheme_front url "https".toList (by decide) (by decide)

theorem not_http_front : ¬ "http://".toList <+: url.rest :=
  @not_scheme_front url "http".toList (by decide) (by decide)

theorem stripScheme_rest : stripScheme url.rest = url.rest := by
  rw [stripScheme, trimStartMatches_of_not_prefix (not_https_front url),
    trimStartMatches_of_not_prefix (not_http_front url)]

theorem not_https_http (rest : Text) : ¬ "https://".toList <+: "http://".toList ++ rest := by
  rintro ⟨tail, htail⟩
  have hhttps : "https://".toList = ['h', 't', 't', 'p', 's', ':', '/', '/'] := by decide
  have hhttp : "http://".toList = ['h', 't', 't', 'p', ':', '/', '/'] := by decide
  rw [hhttps, hhttp] at htail
  have hfifth : some 's' = some ':' := congrArg (fun text : Text => text[4]?) htail
  exact absurd hfifth (by decide)

theorem stripScheme_text : stripScheme url.text = url.rest := by
  have htext : url.text = (url.scheme.map Scheme.text).getD [] ++ url.rest := rfl
  rw [htext]
  cases url.scheme with
  | none => exact stripScheme_rest url
  | some scheme =>
      cases scheme with
      | http =>
          have hhttp : (Option.map Scheme.text (some .http)).getD [] = "http://".toList := rfl
          rw [hhttp, stripScheme, trimStartMatches_of_not_prefix (not_https_http _),
            trimStartMatches_append (by decide) (not_http_front url)]
      | https =>
          have hhttps : (Option.map Scheme.text (some .https)).getD [] = "https://".toList := rfl
          rw [hhttps, stripScheme, trimStartMatches_append (by decide) (not_https_front url),
            trimStartMatches_of_not_prefix (not_http_front url)]

theorem text_chars : url.text ≠ [] ∧ ∀ c ∈ url.text, isWhite c = false := by
  have htext : url.text = (url.scheme.map Scheme.text).getD [] ++ url.rest := rfl
  constructor
  · rw [htext, EndpointUrl.rest]
    simp [(inUrl_chars url.host).1]
  · intro c hc
    rw [htext, List.mem_append] at hc
    rcases hc with hc | hc
    · cases hscheme : url.scheme with
      | none =>
          rw [hscheme] at hc
          cases hc
      | some scheme =>
          rw [hscheme] at hc
          have hall : ∀ scheme : Scheme, ∀ d ∈ scheme.text, isWhite d = false := by
            intro scheme
            cases scheme <;> decide
          exact hall scheme c hc
    · exact rest_chars url c hc

theorem authority_rest :
    url.rest.takeWhile (· ≠ '/') = url.host.inUrl ++ url.portText := by
  obtain ⟨-, hhost, -⟩ := inUrl_chars url.host
  have hauthority : '/' ∉ url.host.inUrl ++ url.portText := by
    simp [hhost, slash_notMem_portText]
  have hsplit : url.rest = (url.host.inUrl ++ url.portText) ++ url.pathText := by
    simp [EndpointUrl.rest]
  rw [hsplit]
  rcases pathText_cases url with ⟨h, -⟩ | ⟨more, h, -⟩
  · rw [h, List.append_nil]
    exact takeWhile_of_notMem hauthority
  · rw [h]
    exact takeWhile_separator hauthority more

/-- What bootstrap takes for the host. -/
theorem endpointHost_text :
    endpointHost url.text = (url.host.inUrl ++ url.portText).takeWhile (· ≠ ':') := by
  obtain ⟨-, hchars⟩ := text_chars url
  have hrest : trimStartMatches "http://".toList
      (trimStartMatches https (trim url.text)) = url.rest := by
    rw [trim_of_noWhite hchars]
    exact stripScheme_text url
  rw [endpointHost]
  simp only [hrest]
  rw [headD_splitOn, headD_splitOn, authority_rest]

/-- It is the host exactly if the host has no brackets. -/
theorem endpointHost_eq_iff :
    endpointHost url.text = url.host.text ↔ url.host.bracketed = false := by
  rw [endpointHost_text]
  cases hbracketed : url.host.bracketed with
  | true =>
      refine iff_of_false ?_ (by decide)
      obtain ⟨-, hchars⟩ := host_ipv6_chars url.host hbracketed
      have hbracket : '[' ∉ url.host.text := notMem_of_chars hchars (by decide)
      rw [Host.inUrl, hbracketed, if_pos rfl, List.cons_append,
        List.takeWhile_cons_of_pos (by decide)]
      intro hsame
      exact hbracket (by rw [← hsame]; exact List.mem_cons_self)
  | false =>
      refine iff_of_true ?_ rfl
      obtain ⟨-, hchars⟩ := host_name_chars url.host hbracketed
      have hcolon : ':' ∉ url.host.text := notMem_of_chars hchars (by decide)
      rw [Host.inUrl, hbracketed, if_neg (by decide)]
      rcases portText_cases url with ⟨h, -⟩ | ⟨digit, more, h, -⟩
      · rw [h, List.append_nil]
        exact takeWhile_of_notMem hcolon
      · rw [h]
        exact takeWhile_separator hcolon _

/-- What is read off the line with the server. -/
theorem serverHostOfLine_text :
    serverHostOfLine ("    server: ".toList ++ url.text) =
      some (if url.host.bracketed then url.host.text
        else url.rest.takeWhile (· ≠ ':')) := by
  obtain ⟨hne, hchars⟩ := text_chars url
  have hline : trimStart ("    server: ".toList ++ url.text) = "server: ".toList ++ url.text := rfl
  have hfront : "server:".toList.isPrefixOf? ("server: ".toList ++ url.text) =
      some (' ' :: url.text) := rfl
  have hstart : trimStart (' ' :: url.text) = trimStart url.text := rfl
  have htrim : trim (' ' :: url.text) = url.text := by
    rw [trim, hstart]
    exact trim_of_noWhite hchars
  rw [serverHostOfLine, hline, hfront]
  simp only [htrim, stripScheme_text]
  cases hbracketed : url.host.bracketed with
  | true =>
      obtain ⟨-, hall⟩ := host_ipv6_chars url.host hbracketed
      have hend : ']' ∉ url.host.text := notMem_of_chars hall (by decide)
      have hrest : url.rest =
          '[' :: (url.host.text ++ ']' :: (url.portText ++ url.pathText)) := by
        simp [EndpointUrl.rest, Host.inUrl, hbracketed]
      rw [hrest]
      simp only [if_true]
      rw [takeWhile_separator hend]
  | false =>
      obtain ⟨hhost, hall⟩ := host_name_chars url.host hbracketed
      obtain ⟨c, more, hc⟩ := List.exists_cons_of_ne_nil hhost
      have hbracket : c ≠ '[' := by
        rintro rfl
        have hname := hall '[' (by rw [hc]; exact List.mem_cons_self)
        exact absurd hname (by decide)
      have hcolon : c ≠ ':' := by
        rintro rfl
        have hname := hall ':' (by rw [hc]; exact List.mem_cons_self)
        exact absurd hname (by decide)
      have hrest : url.rest = c :: (more ++ (url.portText ++ url.pathText)) := by
        rw [EndpointUrl.rest, Host.inUrl, hbracketed, if_neg (by decide), hc, List.cons_append]
      have hwhite : ∀ d ∈ url.rest.takeWhile (· ≠ ':'), isWhite d = false :=
        fun d hd => rest_chars url d ((List.takeWhile_sublist _).subset hd)
      have htaken : url.rest.takeWhile (· ≠ ':') ≠ [] := by
        rw [hrest, List.takeWhile_cons_of_pos (by simp [hcolon])]
        exact List.cons_ne_nil _ _
      split
      · next tail hbad =>
          rw [hrest] at hbad
          exact absurd (List.cons.inj hbad).1 hbracket
      · rw [trim_of_noWhite hwhite, if_pos htaken]
        rfl

/-- Without brackets that is the host exactly if a port follows it, or no path. -/
theorem takeWhile_rest_iff (hplain : url.host.bracketed = false) :
    url.rest.takeWhile (· ≠ ':') = url.host.text ↔ url.port.isSome = true ∨ url.path = none := by
  obtain ⟨-, hchars⟩ := host_name_chars url.host hplain
  have hcolon : ':' ∉ url.host.text := notMem_of_chars hchars (by decide)
  have hall : ∀ c ∈ url.host.text, decide (c ≠ ':') = true := fun c hc => by
    have hne : c ≠ ':' := fun h => hcolon (h ▸ hc)
    simp [hne]
  rw [EndpointUrl.rest, Host.inUrl, hplain, if_neg (by decide)]
  rcases portText_cases url with ⟨h, hnone⟩ | ⟨digit, more, h, -, -, hsome⟩
  · rw [h, List.nil_append, List.takeWhile_append_of_pos hall, hnone]
    rcases pathText_cases url with ⟨hpath, hnone⟩ | ⟨more, hpath, hsome⟩
    · rw [hpath]
      exact iff_of_true (List.append_nil _) (.inr hnone)
    · rw [hpath, List.takeWhile_cons_of_pos (by decide)]
      refine iff_of_false (fun hsame => ?_) ?_
      · exact List.cons_ne_nil _ _ (List.append_right_eq_self.mp hsame)
      · rintro (hport | hpath)
        · cases hport
        · rw [hpath] at hsome
          cases hsome
  · rw [h]
    exact iff_of_true (takeWhile_separator hcolon _) (.inl hsome)

variable (caCrt clientCrt clientKey user clusterName : Text)

theorem lines_kubeconfig :
    ∃ rest, lines (renderKubeconfig url.text caCrt clientCrt clientKey user clusterName) =
      ["apiVersion: v1".toList, "kind: Config".toList, "clusters:".toList, "- cluster:".toList,
        "    certificate-authority-data: ".toList ++ base64Text caCrt,
        "    server: ".toList ++ url.text] ++ rest := by
  obtain ⟨-, hchars⟩ := text_chars url
  have hca : ∀ c, c.toNat < 43 → c ∉ base64Text caCrt :=
    fun c hlow hmem => absurd (base64Text_ge caCrt c hmem) (by omega)
  have hserver : ∀ c, isWhite c = true → c ∉ url.text := fun c hwhite hmem => by
    rw [hchars c hmem] at hwhite
    cases hwhite
  have hbreaks : ∀ c, c = '\n' ∨ c = '\r' → ∀ line ∈
      ["apiVersion: v1".toList, "kind: Config".toList, "clusters:".toList, "- cluster:".toList,
        "    certificate-authority-data: ".toList ++ base64Text caCrt,
        "    server: ".toList ++ url.text], c ∉ line := by
    rintro c (rfl | rfl)
    · simp only [List.forall_mem_cons, List.mem_append, not_or]
      exact ⟨by decide, by decide, by decide, by decide, ⟨by decide, hca _ (by decide)⟩,
        ⟨by decide, hserver _ (by decide)⟩, List.forall_mem_nil _⟩
    · simp only [List.forall_mem_cons, List.mem_append, not_or]
      exact ⟨by decide, by decide, by decide, by decide, ⟨by decide, hca _ (by decide)⟩,
        ⟨by decide, hserver _ (by decide)⟩, List.forall_mem_nil _⟩
  refine ⟨_, Eq.trans ?_ (lines_unlines_append (hbreaks '\n' (.inl rfl))
    (hbreaks '\r' (.inr rfl)) (unlines ((kubeconfigLines url.text caCrt clientCrt clientKey user
      clusterName).drop 6)))⟩
  rw [renderKubeconfig, ← unlines_append]
  rfl

/-- The host of the kubeconfig that is rendered with the URL. -/
theorem kubeconfigServerHost_render :
    kubeconfigServerHost (renderKubeconfig url.text caCrt clientCrt clientKey user clusterName) =
      some (if url.host.bracketed then url.host.text
        else url.rest.takeWhile (· ≠ ':')) := by
  obtain ⟨rest, hrest⟩ := lines_kubeconfig url caCrt clientCrt clientKey user clusterName
  have hca : serverHostOfLine
      ("    certificate-authority-data: ".toList ++ base64Text caCrt) = none := rfl
  have hfixed : ["apiVersion: v1".toList, "kind: Config".toList, "clusters:".toList,
      "- cluster:".toList].findSome? serverHostOfLine = none := by decide
  rw [kubeconfigServerHost, hrest, ← serverHostOfLine_text]
  have hserver := serverHostOfLine_text url
  have hsplit : ["apiVersion: v1".toList, "kind: Config".toList, "clusters:".toList,
      "- cluster:".toList, "    certificate-authority-data: ".toList ++ base64Text caCrt,
      "    server: ".toList ++ url.text] ++ rest = ["apiVersion: v1".toList,
      "kind: Config".toList, "clusters:".toList, "- cluster:".toList] ++
        (["    certificate-authority-data: ".toList ++ base64Text caCrt] ++
          (["    server: ".toList ++ url.text] ++ rest)) := rfl
  rw [hsplit, List.findSome?_append, hfixed, List.findSome?_append, List.findSome?_singleton, hca,
    List.findSome?_append, List.findSome?_singleton, hserver]
  rfl

end Splitting

/-! ## One host -/

/-- Both ways lead to the host of the URL, and so to the same virtual address and the same
names in the certificates, exactly if the host is not in brackets and a port follows it or no
path does. -/
theorem one_endpoint_host_iff (url : EndpointUrl)
    (caCrt clientCrt clientKey user clusterName : Text) :
    (endpointHost url.text = url.host.text ∧
        (let admin := renderKubeconfig url.text caCrt clientCrt clientKey user clusterName
         kubeconfigServerHost admin = some url.host.text ∧
          vipFromEndpointHost ((kubeconfigServerHost admin).getD []) =
            vipFromEndpointHost (endpointHost url.text) ∧
          ∀ stored newIp hostname kubernetesSvcIp extraSans,
            apiserverSans newIp hostname
                (rebaseEndpointHost (kubeconfigServerHost admin) stored newIp)
                kubernetesSvcIp extraSans =
              apiserverSans newIp hostname (endpointHost url.text) kubernetesSvcIp extraSans)) ↔
      url.host.bracketed = false ∧ (url.port.isSome = true ∨ url.path = none) := by
  constructor
  · rintro ⟨hendpoint, hkubeconfig, -⟩
    have hplain := (endpointHost_eq_iff url).mp hendpoint
    rw [kubeconfigServerHost_render, hplain, if_neg (by decide)] at hkubeconfig
    exact ⟨hplain, (takeWhile_rest_iff url hplain).mp (Option.some.inj hkubeconfig)⟩
  · rintro ⟨hplain, hend⟩
    have hendpoint := (endpointHost_eq_iff url).mpr hplain
    have hkubeconfig : kubeconfigServerHost
        (renderKubeconfig url.text caCrt clientCrt clientKey user clusterName) =
          some url.host.text := by
      rw [kubeconfigServerHost_render, hplain, if_neg (by decide),
        (takeWhile_rest_iff url hplain).mpr hend]
    refine ⟨hendpoint, hkubeconfig, ?_, fun stored newIp hostname kubernetesSvcIp extraSans => ?_⟩
    · rw [hkubeconfig, hendpoint]
      rfl
    · rw [hkubeconfig, hendpoint, rebaseEndpointHost_some]

/-- Brackets are not taken off, and a path without a port stays with the host. -/
theorem two_endpoint_hosts :
    endpointHost "https://[2001:db8::1]:6443".toList = "[2001".toList ∧
      kubeconfigServerHost (renderKubeconfig "https://[2001:db8::1]:6443".toList [] [] []
        "kubernetes-admin".toList []) = some "2001:db8::1".toList ∧
      endpointHost "https://10.0.0.1/k8s".toList = "10.0.0.1".toList ∧
      kubeconfigServerHost (renderKubeconfig "https://10.0.0.1/k8s".toList [] [] []
        "kubernetes-admin".toList []) = some "10.0.0.1/k8s".toList := by
  decide +kernel

end PertiskKos.Bootstrap
