import PertiskKos.Bootstrap.KubeVip

/-!
# What kube-vip announces after boots and rebases

The endpoint of the cluster gives the first address, the configuration the second.  Later
boots take the first from the kubeconfig of the administrator and the second from the
manifest, and rebases rewrite both files.
-/

namespace PertiskKos.Bootstrap

open Strings Ip Etcd Runs

/-! ## Names that show no address -/

section Names

variable {style : ScalarStyle} {value : Text}

theorem vip6OfValue_eq_none (hnot : ¬ [',', ':'].Sublist value) : vip6OfValue value = none := by
  rw [vip6OfValue, Option.bind_eq_none_iff]
  intro around hsplit
  refine if_neg fun hcolon => hnot ?_
  rw [cut_append hsplit]
  exact ((List.singleton_sublist.mpr (List.mem_singleton_self ',')).trans
    (List.sublist_append_right _ _)).append (List.singleton_sublist.mpr hcolon)

theorem trimMatches_sublist (c : Char) (text : Text) : (trimMatches c text).Sublist text :=
  (List.rdropWhile_prefix _ _).sublist.trans (List.dropWhile_suffix _).sublist

theorem unquoted_sublist (text : Text) : (unquoted text).Sublist text :=
  (trimMatches_sublist _ _).trans ((trimMatches_sublist _ _).trans (trim_sublist text))

theorem filter_flatMap_keeps {f : Char → Text} {test : Char → Bool}
    (hkeeps : ∀ c, (f c).filter test = [c].filter test) (text : Text) :
    (text.flatMap f).filter test = text.filter test := by
  induction text with
  | nil => rfl
  | cons c text ih =>
      rw [List.flatMap_cons, List.filter_append, hkeeps, ih, ← List.filter_append]
      rfl

def isMark (c : Char) : Bool := c = ',' || c = ':'

/-- Commas and colons stay as they are in all quotes. -/
theorem filter_shown (hvalue : Unbroken value) :
    (style.shown value).filter isMark = value.filter isMark := by
  have hdoubled : ∀ c, (doubled c).filter isMark = [c].filter isMark := by
    intro c
    rw [doubled]
    split
    · next hc =>
        rw [hc]
        decide
    · rfl
  have hescaped : ∀ c, (style.escaped c).filter isMark = [c].filter isMark := by
    intro c
    rcases style.escaped_cases c with hself | hescape
    · rw [hself]
    · by_cases hmark : isMark c = true
      · have hinert : isInert c = true := by
          rcases (by simpa [isMark] using hmark : c = ',' ∨ c = ':') with rfl | rfl <;> decide
        rw [style.escaped_inert c hinert]
      · have hnone : (style.escaped c).filter isMark = [] := by
          rw [List.filter_eq_nil_iff]
          intro d hd hdmark
          rcases (by simpa [isMark] using hdmark : d = ',' ∨ d = ':') with rfl | rfl
          · exact absurd (hescape _ hd) (by decide)
          · exact absurd (hescape _ hd) (by decide)
        rw [hnone, List.filter_cons_of_neg hmark, List.filter_nil]
  rcases style.forms value hvalue with h | h | h
  · rw [h]
  · have hquote : isMark '\'' = false := by decide
    rw [h, List.filter_cons_of_neg (by simp [hquote]), List.filter_append,
      filter_flatMap_keeps hdoubled, List.filter_cons_of_neg (by simp [hquote]),
      List.filter_nil, List.append_nil]
  · have hquote : isMark '"' = false := by decide
    rw [h, List.filter_cons_of_neg (by simp [hquote]), List.filter_append,
      filter_flatMap_keeps hescaped, List.filter_cons_of_neg (by simp [hquote]),
      List.filter_nil, List.append_nil]

theorem valueShows_eq_none (hvalue : Unbroken value) (hnot : ¬ [',', ':'].Sublist value) :
    valueShows style value = none := by
  rw [valueShows, vip6OfLine_eq, fieldOfLine_keyed (.inl rfl) word_value word_value, if_pos rfl,
    Option.bind_some]
  refine vip6OfValue_eq_none fun hmarks => hnot ?_
  have hshown : [',', ':'].Sublist (' ' :: style.shown value) :=
    hmarks.trans ((unquoted_sublist _).trans (List.rdropWhile_prefix _ _).sublist)
  have hfiltered := hshown.filter isMark
  have hmarked : [',', ':'].filter isMark = [',', ':'] := by decide
  have hspace : (' ' :: style.shown value).filter isMark =
      (style.shown value).filter isMark := List.filter_cons_of_neg (by decide)
  rw [hmarked, hspace, filter_shown hvalue] at hfiltered
  exact hfiltered.trans List.filter_sublist

/-- No name has a colon behind a comma. -/
theorem namesShow_eq_none {iface nodename : Text} (hiface : Unbroken iface)
    (hnodename : Unbroken nodename) (hifaceMarks : ¬ [',', ':'].Sublist iface)
    (hnodenameMarks : ¬ [',', ':'].Sublist nodename) :
    namesShow style iface nodename = none := by
  have hname : valueShows style (trim nodename) = none :=
    valueShows_eq_none (fun c hc => hnodename c ((trim_sublist nodename).subset hc))
      fun h => hnodenameMarks (h.trans (trim_sublist nodename))
  have hinterface : valueShows style
      (if iface = [] then DEFAULT_KUBE_VIP_INTERFACE else iface) = none := by
    split
    · exact valueShows_eq_none (by decide) (by decide)
    · exact valueShows_eq_none hiface hifaceMarks
  rw [namesShow, hname, hinterface, ite_self]
  rfl

end Names

/-! ## The addresses of a control plane -/

inductive Family where
  | v4
  | v6
  deriving DecidableEq, Repr

namespace Family

def parses : Family → Text → Bool
  | .v4, text => (parseIpv4 text).isSome
  | .v6, text => (parseIpv6 text).isSome

/-- The length of the prefix that is one address. -/
def length : Family → Text
  | .v4 => "32".toList
  | .v6 => "128".toList

end Family

structure Vip (family : Family) where
  text : Text
  legal : family.parses text = true

section Addresses

variable {family : Family} {style : ScalarStyle}

theorem Vip.chars (vip : Vip family) : ∀ c ∈ vip.text, isIpv6Char c = true := by
  have hlegal := vip.legal
  cases family with
  | v4 =>
      obtain ⟨ip, hip⟩ := Option.isSome_iff_exists.mp hlegal
      exact parseIpv4_ipv6Chars hip
  | v6 =>
      obtain ⟨ip, hip⟩ := Option.isSome_iff_exists.mp hlegal
      exact (parseIpv6_chars hip).2

theorem Vip.colon (vip : Vip .v6) : ':' ∈ vip.text := by
  obtain ⟨ip, hip⟩ := Option.isSome_iff_exists.mp vip.legal
  exact (parseIpv6_chars hip).1

theorem Vip.ne_nil (vip : Vip family) : vip.text ≠ [] := by
  intro hnil
  have hlegal := vip.legal
  rw [hnil] at hlegal
  cases family with
  | v4 => exact absurd hlegal (by decide)
  | v6 => exact absurd hlegal (by decide)

theorem Vip.inert (vip : Vip family) : Inert vip.text :=
  ⟨vip.ne_nil, fun c hc => inert_of_ipv6 (vip.chars c hc)⟩

theorem Vip.comma (vip : Vip family) : ',' ∉ vip.text := fun h =>
  absurd (vip.chars _ h) (by decide)

theorem Vip.trim_text (vip : Vip family) : trim vip.text = vip.text :=
  trim_of_noWhite fun c hc => not_white_of_inert (vip.inert.chars c hc)

theorem Vip.given (vip : Vip family) : given (some vip.text) = some vip.text := by
  rw [Bootstrap.given, Option.map_some, vip.trim_text, Option.filter_some,
    if_pos (by simpa using vip.ne_nil)]

/-- kube-vip announces the addresses with the lengths of their families, and the IPv6
address is found in the manifest. -/
structure Announces (host : Vip family) (vip6 : Option (Vip .v6)) (yaml : Text) : Prop where
  addresses : announced yaml = host.text :: (vip6.map Vip.text).toList
  lengths : announcedLengths yaml = family.length :: (vip6.map fun _ => Family.v6.length).toList
  found : vip6FromManifest yaml = vip6.map Vip.text

theorem vip6OfValue_pair (host : Vip family) (v6 : Vip .v6) :
    vip6OfValue (host.text ++ ',' :: v6.text) = some v6.text := by
  rw [vip6OfValue, splitOnce_append host.comma, Option.bind_some, if_pos v6.colon, v6.trim_text]

theorem vip6OfValue_single (host : Vip family) : vip6OfValue host.text = none :=
  vip6OfValue_eq_none fun h => host.comma (h.subset (by simp))

theorem or_eq_iff {found last : Option Text} :
    found.or last = last ↔ ∀ shown ∈ found, last = some shown := by
  cases found with
  | none => simp
  | some shown => simp [eq_comm]

variable {iface nodename : Text}

theorem announced_pod {address vipCidr : Text} (haddress : Inert address)
    (hcidr : Inert vipCidr) (hiface : Unbroken iface) (hnodename : Unbroken nodename) :
    announced (toYaml style (kubeVipPod address vipCidr iface nodename)) =
        address.splitOn ',' ∧
      announcedLengths (toYaml style (kubeVipPod address vipCidr iface nodename)) =
        vipCidr.splitOn ',' := by
  rw [announced, announcedLengths,
    lines_pod haddress.unbroken hcidr.unbroken hiface hnodename,
    envValue_address _ _ _ _ _ haddress, envValue_vipCidr _ _ _ _ _ hcidr]
  exact ⟨rfl, rfl⟩

theorem length_eq_iff : family.length = Family.v4.length ↔ family = .v4 := by
  cases family with
  | v4 => simp
  | v6 => exact ⟨fun h => absurd h (by decide), fun h => absurd h (by decide)⟩

theorem unbroken_trim (hnodename : Unbroken nodename) : Unbroken (trim nodename) := fun c hc =>
  hnodename c ((trim_sublist nodename).subset hc)

theorem unbroken_interface (hiface : Unbroken iface) :
    Unbroken (if iface = [] then DEFAULT_KUBE_VIP_INTERFACE else iface) := by
  split
  · decide
  · exact hiface

theorem announces_pod {address vipCidr : Text} {host : Vip family} {vip6 : Option (Vip .v6)}
    (haddress : Inert address) (hcidr : Inert vipCidr) (hplain : vip6OfValue vipCidr = none)
    (haddresses : address.splitOn ',' = host.text :: (vip6.map Vip.text).toList)
    (hlengths : vipCidr.splitOn ',' =
      Family.v4.length :: (vip6.map fun _ => Family.v6.length).toList)
    (hvalue : vip6OfValue address = vip6.map Vip.text)
    (hiface : Unbroken iface) (hnodename : Unbroken nodename) :
    Announces host vip6 (toYaml style (kubeVipPod address vipCidr
        (if iface = [] then DEFAULT_KUBE_VIP_INTERFACE else iface) (trim nodename))) ↔
      family = .v4 ∧ ∀ shown ∈ namesShow style iface nodename, vip6.map Vip.text = some shown := by
  have hname := unbroken_trim hnodename
  have hinterface := unbroken_interface hiface
  obtain ⟨hannounced, hannouncedLengths⟩ :=
    @announced_pod style _ _ _ _ haddress hcidr hinterface hname
  have hfound := @vip6FromManifest_pod style _ _ _ _ haddress hcidr hplain hinterface hname
  rw [haddresses] at hannounced
  rw [hlengths] at hannouncedLengths
  rw [hvalue, ← namesShow] at hfound
  rw [← or_eq_iff, ← length_eq_iff]
  constructor
  · intro hall
    have hlength := hall.lengths
    rw [hannouncedLengths] at hlength
    exact ⟨(List.cons.inj hlength).1.symm, hfound.symm.trans hall.found⟩
  · rintro ⟨hlength, hsame⟩
    exact ⟨hannounced, by rw [hannouncedLengths, hlength], hfound.trans hsame⟩

/-- The manifest announces its addresses exactly if the host is an IPv4 address and the
names in front of the addresses show no other. -/
theorem announces_iff (host : Vip family) (vip6 : Option (Vip .v6)) (hiface : Unbroken iface)
    (hnodename : Unbroken nodename) :
    Announces host vip6 (kubeVipManifest style host.text (vip6.map Vip.text) iface nodename) ↔
      family = .v4 ∧ ∀ shown ∈ namesShow style iface nodename, vip6.map Vip.text = some shown := by
  cases vip6 with
  | none =>
      have haddresses : host.text.splitOn ',' = [host.text] :=
        List.splitOn_eq_singleton host.comma
      have hcidr : Inert "32".toList := by decide
      have hplain : vip6OfValue "32".toList = none := by decide
      have hlengths : "32".toList.splitOn ',' = [Family.v4.length] := by decide
      exact announces_pod host.inert hcidr hplain haddresses hlengths
        (vip6OfValue_single host) hiface hnodename
  | some v6 =>
      have haddress : Inert (host.text ++ ',' :: v6.text) := by
        refine ⟨by simp, fun c hc => ?_⟩
        rcases List.mem_append.mp hc with h | h
        · exact host.inert.chars c h
        · rcases List.mem_cons.mp h with rfl | h
          · decide
          · exact v6.inert.chars c h
      have haddresses : (host.text ++ ',' :: v6.text).splitOn ',' = [host.text, v6.text] := by
        rw [List.splitOn_append_cons_self_of_not_mem host.comma,
          List.splitOn_eq_singleton v6.comma]
      have hcidr : Inert "32,128".toList := by decide
      have hplain : vip6OfValue "32,128".toList = none := by decide
      have hlengths : "32,128".toList.splitOn ',' =
          [Family.v4.length, Family.v6.length] := by decide
      rw [Option.map_some, kubeVipManifest, v6.given]
      exact announces_pod haddress hcidr hplain haddresses hlengths
        (vip6OfValue_pair host v6) hiface hnodename

end Addresses

/-! ## Boots and rebases -/

section Model

/-- Fix a historical raw-string bug that appended a lone `"` after current-context. -/
def sanitizeKubeconfig (kc : Text) : Text :=
  let s := trimEnd kc
  let without := trimEnd (trimEndMatches ['"'] s)
  let s :=
    if endsWith s ['"'] ∧
        ((lines without).getLast?.any (startsWith · "current-context:".toList)) then without
    else s
  if s = [] then s else s ++ ['\n']

/-- Replace the `server:` URL (indent preserved). -/
def rewriteKubeconfigServer (kc url : Text) : Text :=
  unlines <| (lines kc).map fun line =>
    if startsWith (trimStart line) "server:".toList then
      List.replicate (byteLength line - byteLength (trimStart line)) ' ' ++
        "server: ".toList ++ trim url
    else line

/-- What a bootstrapped node has on its disk about its addresses. -/
structure Node where
  disk : ControlPlane
  /-- The kubeconfig of the administrator. -/
  admin : Text
  kubeVip : Option Text

/-- A rebase, with what it meets on its way.  In the manifests' directory it meets the
manifest of kube-vip between other entries. -/
structure RebaseCall where
  newIp : Ipv4Addr
  advertiseReadable : Bool
  adminReadable : Bool
  before : List Entry
  kubeVipReadable : Bool
  kubeVipWritten : Written
  after : List Entry
  listenReadable : Bool
  listenWritten : Written
  reissued : Bool
  adminWritten : Written
  advertiseWritten : Written

namespace RebaseCall

variable (call : RebaseCall) (node : Node)

def stored : Text := if call.advertiseReadable then trim node.disk.advertise else []

def serverHost : Option Text :=
  kubeconfigServerHost (if call.adminReadable then node.admin else [])

/-- The manifest of kube-vip after the rewriting, and whether the loop goes on. -/
def rewritten (raw : Text) : Text × Bool :=
  rewriteFile call.kubeVipReadable call.kubeVipWritten raw (call.stored node) call.newIp.print

def entries : List Entry :=
  call.before ++ (node.kubeVip.toList.map fun raw => .other (call.rewritten node raw).2) ++
    call.after

/-- The call as it looks to the manifests of etcd and of the API server. -/
def plain : Call where
  newIp := call.newIp
  advertiseReadable := call.advertiseReadable
  serverHost := call.serverHost node
  entries := call.entries node
  listenReadable := call.listenReadable
  listenWritten := call.listenWritten
  reissued := call.reissued
  kubeconfigWritten := call.adminWritten.ok
  advertiseWritten := call.advertiseWritten

def moves : Bool := Moves (call.plain node) node.disk

def kubeVipAfter : Option Text :=
  if call.moves node ∧ call.stored node ≠ [] ∧
      (rewriteEntries (call.stored node) call.newIp.print node.disk call.before).2 then
    node.kubeVip.map fun raw => (call.rewritten node raw).1
  else node.kubeVip

def adminAfter : Text :=
  if call.moves node ∧
      (rewriteIpInDir (call.stored node) call.newIp.print node.disk (call.entries node)).2 ∧
      call.reissued ∧ call.serverHost node = some (call.stored node) ∧ call.stored node ≠ [] then
    call.adminWritten.file node.admin
      (rewriteKubeconfigServer node.admin (https ++ call.newIp.print ++ ":6443".toList))
  else node.admin

/-- `rebase_advertise_address` -/
def apply : Node where
  disk := (rebaseAdvertiseAddress (call.plain node) node.disk).1
  admin := call.adminAfter node
  kubeVip := call.kubeVipAfter node

end RebaseCall

/-- What the refreshing of kube-vip meets. -/
structure Refresh where
  /-- The manifest is seen to be a file. -/
  seen : Bool
  advertiseReadable : Bool
  detected : Option Ipv4Addr
  adminReadable : Bool
  manifestReadable : Bool
  etcdReadable : Bool
  iface : Text
  removed : Bool
  written : Written

namespace Refresh

variable (style : ScalarStyle) (refresh : Refresh) (node : Node)

/-- `read_advertise().or_else(detect_advertise_ip).unwrap_or_default()` -/
def advertise : Text :=
  let stored := if refresh.advertiseReadable then trim node.disk.advertise else []
  if stored ≠ [] then stored else (refresh.detected.map Ipv4Addr.print).getD []

def hostname : Text :=
  (flagValue (if refresh.etcdReadable then node.disk.etcd else []) "--name=".toList).getD []

/-- `refresh_kube_vip` -/
def apply : Node :=
  match node.kubeVip with
  | none => node
  | some existing =>
      if !refresh.seen ∨ refresh.advertise node = [] then node
      else
        let admin := if refresh.adminReadable then node.admin else []
        let host := (kubeconfigServerHost admin).getD []
        let vip := vipFromEndpointHost host
        let vip6 := vip6FromManifest (if refresh.manifestReadable then existing else [])
        { node with
          kubeVip := (maybeWriteKubeVip style node.kubeVip refresh.removed refresh.written vip
            vip6 (refresh.advertise node) refresh.iface (refresh.hostname node)).1 }

end Refresh

/-- A boot of a bootstrapped node. -/
structure Restore where
  /-- An address has been detected; the rebase is onto it. -/
  detects : Bool
  rebase : RebaseCall
  refresh : Refresh
  adminReadable : Bool
  adminWritten : Written

namespace Restore

variable (style : ScalarStyle) (restore : Restore) (node : Node)

/-- `maybe_rebase_advertise` -/
def rebased : Node :=
  if restore.detects then restore.rebase.apply node
  else
    { node with
      disk := { node.disk with
        etcd := (ensureListenAll (restore.rebase.plain node) node.disk.etcd).1 } }

/-- `repair_kubeconfig_files` -/
def repaired : Node :=
  if restore.adminReadable ∧ sanitizeKubeconfig node.admin ≠ node.admin then
    { node with admin := restore.adminWritten.file node.admin (sanitizeKubeconfig node.admin) }
  else node

/-- `restore_control_plane` -/
def apply : Node := restore.repaired (restore.refresh.apply style (restore.rebased node))

end Restore

inductive Op where
  | rebase (call : RebaseCall)
  | restore (restore : Restore)

def nodeStep (style : ScalarStyle) (node : Node) : Op → Option Node
  | .rebase call => some (call.apply node)
  | .restore restore => some (restore.apply style node)

end Model

/-! ## Rewriting a manifest -/

section Rewriting

variable {old new : Ipv4Addr}

theorem bare_replaceIpToken (line : Text) :
    bare (replaceIpToken line old.print new.print) =
      replaceIpToken (bare line) old.print new.print := by
  have hdash : Plain "- ".toList := by decide
  have htrim := @trim_replaceIpToken (printed old) (printed new)
  have hmatches := @trimStartMatches_replaceIpToken (printed old) (printed new) "- ".toList hdash
    (by decide)
  simp only [printed_text] at htrim hmatches
  rw [bare, htrim, hmatches, htrim, bare]

theorem trimMatches_replaceIpToken {c : Char} (hdigit : c.isDigit = false) (hdot : c ≠ '.')
    (text : Text) : trimMatches c (replaceIpToken text old.print new.print) =
      replaceIpToken (trimMatches c text) old.print new.print := by
  have htest : PlainTest (· == c) := fun d hd => by
    rw [eq_of_beq hd]
    exact ⟨hdigit, hdot⟩
  have hstart := @dropWhile_replaceIpToken (printed old) (printed new) _ htest
  have hend := @rdropWhile_replaceIpToken (printed old) (printed new) _ htest
  simp only [printed_text] at hstart hend
  rw [trimMatches, hstart, hend, trimMatches]

/-- What a line gives for a key is rewritten with the line. -/
theorem fieldOfLine_replaceIpToken {key : Text} (hkey : Plain (key ++ [':'])) (line : Text) :
    fieldOfLine key (replaceIpToken line old.print new.print) =
      (fieldOfLine key line).map fun text => replaceIpToken text old.print new.print := by
  have hfront := @isPrefixOf?_replaceIpToken (printed old) (printed new) _ hkey (bare line)
  have htrim := @trim_replaceIpToken (printed old) (printed new)
  simp only [printed_text] at hfront htrim
  have hunquoted : ∀ text, unquoted (replaceIpToken text old.print new.print) =
      replaceIpToken (unquoted text) old.print new.print := fun text => by
    rw [unquoted, htrim, trimMatches_replaceIpToken (by decide) (by decide),
      trimMatches_replaceIpToken (by decide) (by decide), unquoted]
  rw [fieldOfLine, bare_replaceIpToken, hfront, fieldOfLine, Option.map_map, Option.map_map]
  refine congrArg (fun f => Option.map f _) (funext fun text => ?_)
  simp only [Function.comp_apply, hunquoted]

theorem envValue_replaceIpToken {name : Text} (hname : Plain name) (texts : List Text) :
    envValue name (texts.map fun line => replaceIpToken line old.print new.print) =
      (envValue name texts).map fun text => replaceIpToken text old.print new.print := by
  have hkept : ∀ line, fieldOfLine "name".toList (replaceIpToken line old.print new.print) =
      some name ↔ fieldOfLine "name".toList line = some name := by
    intro line
    rw [fieldOfLine_replaceIpToken (by decide)]
    cases fieldOfLine "name".toList line with
    | none => simp
    | some found =>
        simpa using @replaceIpToken_eq_plain (printed old) (printed new) _ hname found
  induction texts with
  | nil => rfl
  | cons first texts ih =>
      cases texts with
      | nil => rfl
      | cons second texts =>
          by_cases hfirst : fieldOfLine "name".toList first = some name
          · have hvalue := @fieldOfLine_replaceIpToken old new "value".toList (by decide) second
            rw [List.map_cons, List.map_cons, envValue, envValue, if_pos hfirst,
              if_pos ((hkept first).mpr hfirst), hvalue]
          · rw [List.map_cons, envValue_skip (mt (hkept first).mp hfirst), ih,
              envValue_skip hfirst]

theorem mem_replaceIpToken_iff {c : Char} (hdigit : c.isDigit = false) (hdot : c ≠ '.')
    {text : Text} : c ∈ replaceIpToken text old.print new.print ↔ c ∈ text := by
  refine ⟨fun h => ?_, fun h => ?_⟩
  · by_contra hnot
    exact notMem_replaceIpToken (printed old) (printed new) hdigit hdot hnot h
  · obtain ⟨left, right, rfl⟩ := List.append_of_mem h
    have hsplit := replaceIpToken_split (printed old) (printed new) c hdigit hdot left right
    rw [printed_text, printed_text] at hsplit
    rw [hsplit]
    simp

theorem vip6OfValue_replaceIpToken (value : Text) :
    vip6OfValue (replaceIpToken value old.print new.print) =
      (vip6OfValue value).map fun text => replaceIpToken text old.print new.print := by
  have hsplit := @splitOnce_replaceIpToken (printed old) (printed new) ',' (by decide)
    (by decide) value
  have htrim := @trim_replaceIpToken (printed old) (printed new)
  simp only [printed_text] at hsplit htrim
  rw [vip6OfValue, vip6OfValue, hsplit]
  cases splitOnce ',' value with
  | none => rfl
  | some around =>
      have hcolon := @mem_replaceIpToken_iff old new ':' (by decide) (by decide) around.2
      simp only [Option.map_some, Option.bind_some, hcolon, htrim]
      split
      · rfl
      · rfl

theorem vip6OfLine_replaceIpToken (line : Text) :
    vip6OfLine (replaceIpToken line old.print new.print) =
      (vip6OfLine line).map fun text => replaceIpToken text old.print new.print := by
  rw [vip6OfLine_eq, vip6OfLine_eq, fieldOfLine_replaceIpToken (by decide)]
  cases fieldOfLine "value".toList line with
  | none => rfl
  | some value => exact vip6OfValue_replaceIpToken value

variable {yaml : Text}

theorem lines_rewritten (hreturn : '\r' ∉ yaml) :
    lines (replaceIpToken yaml old.print new.print) =
      (lines yaml).map fun line => replaceIpToken line old.print new.print :=
  lines_replaceIpToken (printed old) (printed new) hreturn

/-- The list behind a variable is rewritten entry by entry. -/
theorem splitValue_replaceIpToken {name : Text} (hname : Plain name) (hreturn : '\r' ∉ yaml) :
    ((envValue name (lines (replaceIpToken yaml old.print new.print))).map
        (List.splitOn ',')).getD [] =
      (((envValue name (lines yaml)).map (List.splitOn ',')).getD []).map
        fun text => replaceIpToken text old.print new.print := by
  rw [lines_rewritten hreturn, envValue_replaceIpToken hname]
  cases envValue name (lines yaml) with
  | none => rfl
  | some value =>
      exact @splitOn_replaceIpToken (printed old) (printed new) ',' (by decide) (by decide) value

theorem findSome?_map_map {texts : List Text} :
    (texts.map fun line => replaceIpToken line old.print new.print).findSome? vip6OfLine =
      (texts.findSome? vip6OfLine).map fun text => replaceIpToken text old.print new.print := by
  induction texts with
  | nil => rfl
  | cons first texts ih =>
      rw [List.map_cons, List.findSome?_cons, List.findSome?_cons, vip6OfLine_replaceIpToken]
      cases vip6OfLine first with
      | none => exact ih
      | some found => rfl

theorem Vip.rewrite_v4 (vip : Vip .v4) (hother : vip.text ≠ old.print) :
    replaceIpToken vip.text old.print new.print = vip.text := by
  obtain ⟨ip, hip⟩ := Option.isSome_iff_exists.mp vip.legal
  exact replaceIpToken_other old new (parseIpv4_count hip).1 (parseIpv4_chars hip).2 hother

/-- An IPv6 address is left alone unless it ends in the address that is looked for. -/
theorem Vip.rewrite_v6 (vip : Vip .v6) (hapart : ¬ (':' :: old.print) <:+ vip.text) :
    replaceIpToken vip.text old.print new.print = vip.text := by
  obtain ⟨ip, hip⟩ := Option.isSome_iff_exists.mp vip.legal
  obtain ⟨left, last, htext, hleft, hlast⟩ := parseIpv6_dotsLast hip
  have hnoDot : ∀ text : Text, '.' ∉ text → replaceIpToken text old.print new.print = text :=
    fun _ h => replaceIpToken_noDot (printed old) (printed new) h
  have hkept : replaceIpToken last old.print new.print = last := by
    rcases hlast with hdot | ⟨v4, hv4⟩
    · exact hnoDot last hdot
    · refine replaceIpToken_other old new (parseIpv4_count hv4).1 (parseIpv4_chars hv4).2 ?_
      rintro rfl
      exact hapart ⟨left, htext.symm⟩
  have hsplit := replaceIpToken_split (printed old) (printed new) ':' (by decide) (by decide)
    left last
  rw [printed_text, printed_text] at hsplit
  rw [htext, hsplit, hnoDot left hleft, hkept]

variable {vip : Vip .v4} {vip6 : Option (Vip .v6)}

/-- A rewriting that looks for neither address changes nothing that is announced. -/
theorem Announces.rewrite (hannounces : Announces vip vip6 yaml) (hreturn : '\r' ∉ yaml)
    (hother : vip.text ≠ old.print) (hapart : ∀ v6 ∈ vip6, ¬ (':' :: old.print) <:+ v6.text) :
    Announces vip vip6 (replaceIpToken yaml old.print new.print) := by
  have hv6 : ∀ v6 ∈ vip6, replaceIpToken v6.text old.print new.print = v6.text :=
    fun v6 hmem => v6.rewrite_v6 (hapart v6 hmem)
  have hlength : ∀ family : Family,
      replaceIpToken family.length old.print new.print = family.length := by
    intro family
    have hdot : '.' ∉ family.length := by
      cases family with
      | v4 => decide
      | v6 => decide
    exact replaceIpToken_noDot (printed old) (printed new) hdot
  refine ⟨?_, ?_, ?_⟩
  · rw [announced, splitValue_replaceIpToken (by decide) hreturn, ← announced,
      hannounces.addresses, List.map_cons, vip.rewrite_v4 hother]
    cases vip6 with
    | none => rfl
    | some v6 => simp [hv6 v6 rfl]
  · rw [announcedLengths, splitValue_replaceIpToken (by decide) hreturn, ← announcedLengths,
      hannounces.lengths, List.map_cons, hlength]
    cases vip6 with
    | none => rfl
    | some v6 => simp [hlength]
  · rw [vip6FromManifest, lines_rewritten hreturn, findSome?_map_map, ← vip6FromManifest,
      hannounces.found]
    cases vip6 with
    | none => rfl
    | some v6 => simp [hv6 v6 rfl]

end Rewriting

/-! ## Steps -/

section Steps

/-- The stored address ends an IPv6 address of the manifest. -/
def StandsIn (stored : Text) (vip6 : Option (Vip .v6)) : Prop :=
  stored ≠ [] ∧ ∃ v6 ∈ vip6, (':' :: stored) <:+ v6.text

/-- The rebase is not onto the virtual address, or it can read that it is; it leaves no part
of a file, and it does not search for an address that ends the IPv6 address. -/
structure RebaseCall.Spares (call : RebaseCall) (node : Node) (vip : Vip .v4)
    (vip6 : Option (Vip .v6)) : Prop where
  target : call.adminReadable = true ∨ call.newIp.print ≠ vip.text
  kubeVip : Untorn call.kubeVipWritten
  advertise : Untorn call.advertiseWritten
  apart : ¬ StandsIn (call.stored node) vip6

/-- The refreshing reads what it recovers the addresses from, leaves no part of a file, and
the names it writes show no address. -/
structure Refresh.Spares (style : ScalarStyle) (refresh : Refresh) (node : Node) (vip : Vip .v4)
    (vip6 : Option (Vip .v6)) : Prop where
  admin : refresh.adminReadable = true
  manifest : refresh.manifestReadable = true ∨ vip6 = none
  advertise : refresh.advertiseReadable = true ∨ vip6 ≠ none ∨
    ∀ ip ∈ refresh.detected, ip.print ≠ vip.text
  written : Untorn refresh.written
  iface : Unbroken refresh.iface
  hostname : Unbroken (refresh.hostname node)
  names : ∀ shown ∈ namesShow style refresh.iface (refresh.hostname node),
    vip6.map Vip.text = some shown

/-- Both parts of a boot spare the addresses. -/
def Restore.Spares (style : ScalarStyle) (restore : Restore) (node : Node) (vip : Vip .v4)
    (vip6 : Option (Vip .v6)) : Prop :=
  (restore.detects = true → restore.rebase.Spares node vip vip6) ∧
    (restore.refresh.seen = true →
      restore.refresh.Spares style (restore.rebased node) vip vip6)

def Op.Spares (style : ScalarStyle) (vip : Vip .v4) (vip6 : Option (Vip .v6)) (node : Node) :
    Op → Prop
  | .rebase call => call.Spares node vip vip6
  | .restore boot => boot.Spares style node vip vip6

/-- The manifest is there and announces the addresses. -/
def Announcing (vip : Vip .v4) (vip6 : Option (Vip .v6)) (node : Node) : Prop :=
  ∃ yaml, node.kubeVip = some yaml ∧ Announces vip vip6 yaml

/-- What every step keeps: the kubeconfig, an address of the node's own, and a manifest that
announces the addresses on lines of its own. -/
structure Kept (admin : Text) (vip : Vip .v4) (vip6 : Option (Vip .v6)) (node : Node) :
    Prop where
  admin : node.admin = admin
  advertise : ∃ ip : Ipv4Addr, node.disk.advertise = ip.print ++ ['\n'] ∧ ip.print ≠ vip.text
  manifest : ∃ yaml, node.kubeVip = some yaml ∧ '\r' ∉ yaml ∧ Announces vip vip6 yaml

/-- The kubeconfig has the virtual address and needs no repair. -/
structure AdminOf (vip : Vip .v4) (admin : Text) : Prop where
  host : kubeconfigServerHost admin = some vip.text
  sane : sanitizeKubeconfig admin = admin

variable {style : ScalarStyle} {admin : Text} {vip : Vip .v4} {vip6 : Option (Vip .v6)}
variable {node : Node} {call : RebaseCall}

theorem Written.file_cases {written : Written} (huntorn : Untorn written) (before content : Text) :
    written.file before content = before ∨ written.file before content = content := by
  cases written with
  | done => exact .inr rfl
  | kept => exact .inl rfl
  | torn length => exact absurd huntorn id

/-- The address that a rebase searches for: none, or the node's own. -/
theorem Kept.stored (hkept : Kept admin vip vip6 node) (call : RebaseCall) :
    call.stored node = [] ∨
      ∃ ip : Ipv4Addr, call.stored node = ip.print ∧ ip.print ≠ vip.text := by
  obtain ⟨ip, hadvertise, hother⟩ := hkept.advertise
  rw [RebaseCall.stored, hadvertise, trim_advertise]
  split
  · exact .inr ⟨ip, rfl, hother⟩
  · exact .inl rfl

theorem Kept.stored_ne (hkept : Kept admin vip vip6 node) (call : RebaseCall) :
    call.stored node ≠ vip.text := by
  rcases hkept.stored call with hnil | ⟨ip, hip, hother⟩
  · rw [hnil]
    exact vip.ne_nil.symm
  · rwa [hip]

theorem serverHost_cases (hadmin : AdminOf vip admin) (hkept : Kept admin vip vip6 node)
    (call : RebaseCall) :
    call.adminReadable = true ∧ call.serverHost node = some vip.text ∨
      call.adminReadable = false ∧ call.serverHost node = none := by
  rw [RebaseCall.serverHost, hkept.admin]
  cases call.adminReadable with
  | true => exact .inl ⟨rfl, hadmin.host⟩
  | false => exact .inr ⟨rfl, rfl⟩

/-- A rebase that moves the node does not move it onto the virtual address. -/
theorem newIp_ne (hadmin : AdminOf vip admin) (hkept : Kept admin vip vip6 node)
    (hspares : call.Spares node vip vip6) (hmoves : call.moves node = true) :
    call.newIp.print ≠ vip.text := by
  rcases serverHost_cases hadmin hkept call with ⟨-, hhost⟩ | ⟨hunread, -⟩
  · intro hsame
    have hvip : Bootstrap.vip (call.plain node) node.disk = some vip.text := by
      have hne : vip.text ≠ [] ∧ vip.text ≠ readAdvertise (call.plain node) node.disk :=
        ⟨vip.ne_nil, (hkept.stored_ne call).symm⟩
      have hfilter : Bootstrap.vip (call.plain node) node.disk =
          (call.serverHost node).filter fun host =>
            host ≠ [] ∧ host ≠ readAdvertise (call.plain node) node.disk := rfl
      rw [hfilter, hhost, Option.filter_some, if_pos (by simpa using hne)]
    have hpick : pickRebaseIp (readAdvertise (call.plain node) node.disk)
        (call.plain node).newIp.print (some vip.text) = none := by
      have hnew : (call.plain node).newIp.print = vip.text := hsame
      rw [pickRebaseIp, hnew]
      simp [vip.trim_text, vip.ne_nil]
    rw [RebaseCall.moves, Moves, hvip, hpick] at hmoves
    cases hmoves
  · exact hspares.target.resolve_left (by simp [hunread])

theorem rewriteEntries_advertise (old new : Text) (cp : ControlPlane) (entries : List Entry) :
    (rewriteEntries old new cp entries).1.advertise = cp.advertise := by
  induction entries generalizing cp with
  | nil => rfl
  | cons entry entries ih =>
      cases entry with
      | failed => rfl
      | other ok =>
          cases ok with
          | true => exact ih cp
          | false => rfl
      | etcd readable written =>
          simp only [rewriteEntries]
          split
          · rw [ih]
          · rfl
      | apiserver readable written =>
          simp only [rewriteEntries]
          split
          · rw [ih]
          · rfl

theorem rebaseAdvertise_cases (call : Call) (cp : ControlPlane) :
    (rebaseAdvertiseAddress call cp).1.advertise = cp.advertise ∨
      Moves call cp = true ∧ (rebaseAdvertiseAddress call cp).1.advertise =
        call.advertiseWritten.file cp.advertise (call.newIp.print ++ ['\n']) := by
  have hkept : (rewriteIpInDir (readAdvertise call cp) call.newIp.print cp
      call.entries).1.advertise = cp.advertise := by
    rw [rewriteIpInDir]
    split
    · rfl
    · exact rewriteEntries_advertise _ _ _ _
  cases hpick : pickRebaseIp (readAdvertise call cp) call.newIp.print (Bootstrap.vip call cp) with
  | none =>
      rw [rebase_nothing hpick]
      exact .inl rfl
  | some picked =>
      have hmoves : Moves call cp = true := by rw [Moves, hpick]; rfl
      simp only [rebaseAdvertiseAddress, hpick]
      split
      · exact .inl hkept
      · split
        · exact .inl hkept
        · split
          · exact .inl hkept
          · refine .inr ⟨hmoves, ?_⟩
            simp only [hkept]

theorem rewriteFile_cases {readable : Bool} {written : Written} (huntorn : Untorn written)
    (raw old new : Text) :
    (rewriteFile readable written raw old new).1 = raw ∨
      (rewriteFile readable written raw old new).1 = replaceIpToken raw old new := by
  rw [rewriteFile]
  split
  · exact .inl rfl
  · exact written.file_cases huntorn raw _

theorem Kept.rebase (hadmin : AdminOf vip admin) (hkept : Kept admin vip vip6 node)
    (hspares : call.Spares node vip vip6) : Kept admin vip vip6 (call.apply node) := by
  refine ⟨?_, ?_, ?_⟩
  · have hhost : call.serverHost node ≠ some (call.stored node) := by
      rcases serverHost_cases hadmin hkept call with ⟨-, h⟩ | ⟨-, h⟩
      · rw [h]
        exact fun hsame => hkept.stored_ne call (Option.some.inj hsame).symm
      · rw [h]
        simp
    have hafter : call.adminAfter node = node.admin := by
      rw [RebaseCall.adminAfter, if_neg]
      rintro ⟨-, -, -, hsame, -⟩
      exact hhost hsame
    exact hafter.trans hkept.admin
  · rcases rebaseAdvertise_cases (call.plain node) node.disk with hsame | ⟨hmoves, hfile⟩
    · obtain ⟨ip, hadvertise, hother⟩ := hkept.advertise
      exact ⟨ip, hsame.trans hadvertise, hother⟩
    · have hwritten : Untorn (call.plain node).advertiseWritten := hspares.advertise
      rcases Written.file_cases hwritten node.disk.advertise
          ((call.plain node).newIp.print ++ ['\n']) with h | h
      · obtain ⟨ip, hadvertise, hother⟩ := hkept.advertise
        exact ⟨ip, (hfile.trans h).trans hadvertise, hother⟩
      · exact ⟨call.newIp, hfile.trans h, newIp_ne hadmin hkept hspares hmoves⟩
  · obtain ⟨yaml, hyaml, hreturn, hannounces⟩ := hkept.manifest
    have hafter : (call.apply node).kubeVip = call.kubeVipAfter node := rfl
    rw [hafter, RebaseCall.kubeVipAfter]
    split
    · next hreached =>
        obtain ⟨ip, hstored, hother⟩ :=
          (hkept.stored call).resolve_left hreached.2.1
        have hapart : ∀ v6 ∈ vip6, ¬ (':' :: ip.print) <:+ v6.text := by
          intro v6 hmem hsuffix
          exact hspares.apart ⟨hreached.2.1, v6, hmem, hstored ▸ hsuffix⟩
        refine ⟨(call.rewritten node yaml).1, by rw [hyaml, Option.map_some], ?_⟩
        rw [RebaseCall.rewritten, hstored]
        rcases @rewriteFile_cases call.kubeVipReadable _ hspares.kubeVip yaml
            ip.print call.newIp.print with h | h
        · rw [h]
          exact ⟨hreturn, hannounces⟩
        · rw [h]
          exact ⟨notMem_replaceIpToken (printed ip) (printed call.newIp) (by decide) (by decide)
            hreturn, hannounces.rewrite hreturn hother.symm hapart⟩
    · exact ⟨yaml, hyaml, hreturn, hannounces⟩

theorem vipFromEndpointHost_text (vip : Vip .v4) :
    vipFromEndpointHost vip.text = some vip.text := by
  have hlegal : isIpAddr vip.text = true := by
    rw [isIpAddr, Bool.or_eq_true]
    exact .inl vip.legal
  rw [vipFromEndpointHost]
  simp only [vip.trim_text]
  rw [if_pos hlegal]

theorem given_map (vip6 : Option (Vip .v6)) : given (vip6.map Vip.text) = vip6.map Vip.text := by
  cases vip6 with
  | none => rfl
  | some v6 => exact v6.given

theorem return_notMem_manifest {iface nodename : Text} (vip : Vip .v4)
    (vip6 : Option (Vip .v6)) (hiface : Unbroken iface) (hnodename : Unbroken nodename) :
    '\r' ∉ kubeVipManifest style vip.text (vip6.map Vip.text) iface nodename := by
  have hname := unbroken_trim hnodename
  have hinterface := unbroken_interface hiface
  have hpod : ∀ {address vipCidr : Text}, Unbroken address → Unbroken vipCidr →
      '\r' ∉ toYaml style (kubeVipPod address vipCidr
        (if iface = [] then DEFAULT_KUBE_VIP_INTERFACE else iface) (trim nodename)) := by
    intro address vipCidr haddress hcidr
    rw [toYaml, fieldLines_pod]
    refine return_notMem_unlines (List.forall_mem_append.mpr ⟨fun line hline =>
      (quiet_front style line hline).feedless.2, List.forall_mem_append.mpr
        ⟨fun line hline => (feedless_env haddress hcidr hinterface hname line hline).2,
          fun line hline => (quiet_back style line hline).feedless.2⟩⟩)
  rw [kubeVipManifest, given_map]
  cases vip6 with
  | none =>
      have hcidr : Unbroken "32".toList := by decide
      exact hpod vip.inert.unbroken hcidr
  | some v6 =>
      have hcidr : Unbroken "32,128".toList := by decide
      refine hpod ?_ hcidr
      intro c hc
      rcases List.mem_append.mp hc with h | h
      · exact vip.inert.unbroken c h
      · rcases List.mem_cons.mp h with rfl | h
        · decide
        · exact v6.inert.unbroken c h

variable {fresh : Refresh}

/-- The IPv6 address comes back out of the manifest. -/
theorem vip6_recovered (hspares : fresh.Spares style node vip vip6) {yaml : Text}
    (hannounces : Announces vip vip6 yaml) :
    vip6FromManifest (if fresh.manifestReadable then yaml else []) = vip6.map Vip.text := by
  split
  · exact hannounces.found
  · next hunread => rw [hspares.manifest.resolve_left (by simpa using hunread)]; rfl

theorem refresh_advertise_ne (hkept : Kept admin vip vip6 node)
    (hspares : fresh.Spares style node vip vip6) (hnone : vip6 = none)
    (hne : fresh.advertise node ≠ []) : vip.text ≠ fresh.advertise node := by
  obtain ⟨ip, hadvertise, hother⟩ := hkept.advertise
  have hstored : ip.print ≠ [] := (printed ip).ne_nil
  cases hreadable : fresh.advertiseReadable with
  | true =>
      have hsame : fresh.advertise node = ip.print := by
        simp [Refresh.advertise, hreadable, hadvertise, trim_advertise, hstored]
      rw [hsame]
      exact hother.symm
  | false =>
      have hsame : fresh.advertise node = (fresh.detected.map Ipv4Addr.print).getD [] := by
        simp [Refresh.advertise, hreadable]
      have hdetected := (hspares.advertise.resolve_left (by simp [hreadable])).resolve_left
        (by simp [hnone])
      rw [hsame] at hne ⊢
      cases hip : fresh.detected with
      | none => simp [hip] at hne
      | some detected => exact (hdetected detected hip).symm

theorem Kept.refresh (hadmin : AdminOf vip admin) (hkept : Kept admin vip vip6 node)
    (hspares : fresh.seen = true → fresh.Spares style node vip vip6) :
    Kept admin vip vip6 (fresh.apply style node) := by
  obtain ⟨yaml, hyaml, hreturn, hannounces⟩ := hkept.manifest
  have happly : fresh.apply style node = match some yaml with
      | none => node
      | some existing =>
          if !fresh.seen ∨ fresh.advertise node = [] then node
          else
            { node with
              kubeVip := (maybeWriteKubeVip style node.kubeVip fresh.removed fresh.written
                (vipFromEndpointHost ((kubeconfigServerHost
                  (if fresh.adminReadable then node.admin else [])).getD []))
                (vip6FromManifest (if fresh.manifestReadable then existing else []))
                (fresh.advertise node) fresh.iface (fresh.hostname node)).1 } := by
    rw [Refresh.apply, hyaml]
  rw [happly]
  simp only
  split
  · exact hkept
  · next hreads =>
      rw [not_or] at hreads
      have hseen : fresh.seen = true := by simpa using hreads.1
      have hs := hspares hseen
      have hwrite : ¬ (vip.text = fresh.advertise node ∧ vip6.map Vip.text = none) := by
        rintro ⟨hsame, hnone⟩
        exact refresh_advertise_ne hkept hs (Option.map_eq_none_iff.mp hnone) hreads.2 hsame
      have hfile : (maybeWriteKubeVip style node.kubeVip fresh.removed fresh.written
          (vipFromEndpointHost ((kubeconfigServerHost
            (if fresh.adminReadable then node.admin else [])).getD []))
          (vip6FromManifest (if fresh.manifestReadable then yaml else []))
          (fresh.advertise node) fresh.iface (fresh.hostname node)).1 =
            fresh.written.fileOf node.kubeVip (kubeVipManifest style vip.text
              (vip6.map Vip.text) fresh.iface (fresh.hostname node)) := by
        rw [vip6_recovered hs hannounces, if_pos hs.admin, hkept.admin, hadmin.host,
          Option.getD_some, vipFromEndpointHost_text, maybeWriteKubeVip, vip.given]
        simp only [given_map, if_neg hwrite]
      refine ⟨hkept.admin, hkept.advertise, ?_⟩
      simp only [hfile]
      cases hwritten : fresh.written with
      | done =>
          exact ⟨_, rfl, return_notMem_manifest vip vip6 hs.iface hs.hostname,
            (announces_iff vip vip6 hs.iface hs.hostname).mpr ⟨rfl, hs.names⟩⟩
      | kept => exact ⟨yaml, hyaml, hreturn, hannounces⟩
      | torn length =>
          have huntorn := hs.written
          rw [hwritten] at huntorn
          exact absurd huntorn id

theorem Kept.step (hadmin : AdminOf vip admin) (hkept : Kept admin vip vip6 node) {op : Op}
    {next : Node} (hspares : op.Spares style vip vip6 node)
    (hnext : nodeStep style node op = some next) : Kept admin vip vip6 next := by
  cases op with
  | rebase call =>
      rw [← Option.some.inj hnext]
      exact hkept.rebase hadmin hspares
  | restore boot =>
      have hrebased : Kept admin vip vip6 (boot.rebased node) := by
        rw [Restore.rebased]
        split
        · next hdetects => exact hkept.rebase hadmin (hspares.1 hdetects)
        · exact ⟨hkept.admin, hkept.advertise, hkept.manifest⟩
      have hrefreshed := hrebased.refresh hadmin hspares.2
      have hrepaired : boot.repaired (boot.refresh.apply style (boot.rebased node)) =
          boot.refresh.apply style (boot.rebased node) := by
        rw [Restore.repaired, hrefreshed.admin, hadmin.sane, if_neg (by simp)]
      have hsame : next = boot.refresh.apply style (boot.rebased node) :=
        (Option.some.inj hnext).symm.trans hrepaired
      rw [hsame]
      exact hrefreshed

end Steps

/-! ## From the first boot on -/

section Start

/-- What a control plane is bootstrapped or joined with. -/
structure Start where
  url : EndpointUrl
  vip6 : Option (Vip .v6)
  advertise : Ipv4Addr
  iface : Text
  hostname : Text
  etcd : Text
  apiserver : Text
  caCrt : Text
  clientCrt : Text
  clientKey : Text
  clusterName : Text

def Start.admin (start : Start) : Text :=
  renderKubeconfig start.url.text start.caCrt start.clientCrt start.clientKey
    "kubernetes-admin".toList start.clusterName

/-- The control plane when it has been bootstrapped or joined. -/
def Start.node (style : ScalarStyle) (start : Start) : Node where
  disk :=
    { etcd := start.etcd
      apiserver := start.apiserver
      advertise := start.advertise.print ++ ['\n'] }
  admin := start.admin
  kubeVip := (maybeWriteKubeVip style none false .done
    (vipFromEndpointHost (endpointHost start.url.text)) (start.vip6.map Vip.text)
    start.advertise.print start.iface start.hostname).1

/-- The host of the endpoint is an IPv4 address, which is read the same on every boot and is
not the node's own, and the names show no address. -/
structure Start.Spares (style : ScalarStyle) (start : Start) (vip : Vip .v4) : Prop where
  host : start.url.host = .ipv4 vip.text vip.legal
  one : start.url.port.isSome = true ∨ start.url.path = none
  advertise : start.advertise.print ≠ vip.text
  iface : Unbroken start.iface
  hostname : Unbroken start.hostname
  names : ∀ shown ∈ namesShow style start.iface start.hostname,
    start.vip6.map Vip.text = some shown

variable {style : ScalarStyle} {start : Start} {vip : Vip .v4}

theorem sanitize_render (server caCrt clientCrt clientKey user clusterName : Text) :
    sanitizeKubeconfig (renderKubeconfig server caCrt clientCrt clientKey user clusterName) =
      renderKubeconfig server caCrt clientCrt clientKey user clusterName := by
  obtain ⟨init, last, hname⟩ : ∃ init last, sanitizeContextName clusterName = init ++ [last] :=
    ⟨_, _, (List.dropLast_append_getLast (sanitizeContextName_ne_nil clusterName)).symm⟩
  have hlast := sanitizeContextName_chars clusterName last (by simp [hname])
  have hrender : ∃ front,
      renderKubeconfig server caCrt clientCrt clientKey user clusterName =
        (front ++ [last]) ++ ['\n'] := by
    refine ⟨unlines ((kubeconfigLines server caCrt clientCrt clientKey user
      clusterName).dropLast) ++ "current-context: ".toList ++ init, ?_⟩
    have hlines : kubeconfigLines server caCrt clientCrt clientKey user clusterName =
        (kubeconfigLines server caCrt clientCrt clientKey user clusterName).dropLast ++
          ["current-context: ".toList ++ sanitizeContextName clusterName] := rfl
    rw [renderKubeconfig, hlines, unlines_append, hname]
    simp [unlines]
  obtain ⟨front, hrender⟩ := hrender
  have hname : isNameChar last = true := by
    rcases hlast with h | h | h | h
    · simp [isNameChar, h]
    · simp [isNameChar, h]
    · simp [isNameChar, h]
    · simp [isNameChar, h]
  have hblack : isWhite last = false := not_white_of_name hname
  have hquote : last ≠ '"' := by
    rintro rfl
    exact absurd hname (by decide)
  have hend : trimEnd ((front ++ [last]) ++ ['\n']) = front ++ [last] := by
    rw [trimEnd, List.rdropWhile_concat_pos _ _ _ (by decide),
      List.rdropWhile_concat_neg _ _ _ (by simp [hblack])]
  have hnot : endsWith (front ++ [last]) ['"'] = false := by
    rw [endsWith, Bool.eq_false_iff]
    intro hsuffix
    obtain ⟨left, hleft⟩ := List.isSuffixOf_iff_suffix.mp hsuffix
    exact hquote (List.singleton_inj.mp (List.append_inj' hleft rfl).2).symm
  rw [hrender, sanitizeKubeconfig]
  simp only [hend, hnot, Bool.false_eq_true, false_and, if_false]
  rw [if_neg (by simp)]

theorem Start.Spares.adminOf (hspares : start.Spares style vip) : AdminOf vip start.admin := by
  have hplain : start.url.host.bracketed = false := by rw [hspares.host]; rfl
  have htext : start.url.host.text = vip.text := by rw [hspares.host]; rfl
  refine ⟨?_, sanitize_render _ _ _ _ _ _⟩
  rw [Start.admin, kubeconfigServerHost_render, hplain, if_neg (by decide),
    (takeWhile_rest_iff start.url hplain).mpr hspares.one, htext]

/-- The first boot writes a manifest that announces the addresses. -/
theorem Start.Spares.kept (hspares : start.Spares style vip) :
    Kept start.admin vip start.vip6 (start.node style) := by
  have hplain : start.url.host.bracketed = false := by rw [hspares.host]; rfl
  have hhost : endpointHost start.url.text = vip.text := by
    rw [(endpointHost_eq_iff start.url).mpr hplain, hspares.host]
    rfl
  have hwrite : ¬ (vip.text = start.advertise.print ∧ start.vip6.map Vip.text = none) :=
    fun h => hspares.advertise h.1.symm
  have hmanifest : (start.node style).kubeVip = some (kubeVipManifest style vip.text
      (start.vip6.map Vip.text) start.iface start.hostname) := by
    rw [Start.node]
    simp only [hhost, vipFromEndpointHost_text]
    rw [maybeWriteKubeVip, vip.given]
    simp only [given_map, if_neg hwrite, Written.fileOf]
  exact ⟨rfl, ⟨start.advertise, rfl, hspares.advertise⟩, _, hmanifest,
    return_notMem_manifest vip start.vip6 hspares.iface hspares.hostname,
    (announces_iff vip start.vip6 hspares.iface hspares.hostname).mpr ⟨rfl, hspares.names⟩⟩

/-- A manifest announces the addresses it is written with exactly if the host is an IPv4
address and the names show no other address; and from such a start on, boots and rebases
that spare the addresses leave a manifest that announces them. -/
theorem kube_vip_announces_iff (style : ScalarStyle) :
    (∀ (family : Family) (host : Vip family) (vip6 : Option (Vip .v6)) (iface nodename : Text),
      Unbroken iface → Unbroken nodename →
        (Announces host vip6 (kubeVipManifest style host.text (vip6.map Vip.text) iface
            nodename) ↔
          family = .v4 ∧ ∀ shown ∈ namesShow style iface nodename,
            vip6.map Vip.text = some shown)) ∧
      ∀ (start : Start) (vip : Vip .v4), start.Spares style vip → ∀ ops,
        Guarded (nodeStep style) (Op.Spares style vip start.vip6) (start.node style) ops →
          Throughout (nodeStep style) (Announcing vip start.vip6) (start.node style) ops := by
  refine ⟨fun _ host vip6 _ _ hiface hnodename => announces_iff host vip6 hiface hnodename,
    fun start vip hspares ops hguarded => ?_⟩
  have hannouncing : ∀ node, Kept start.admin vip start.vip6 node →
      Announcing vip start.vip6 node := by
    intro node hkept
    obtain ⟨yaml, hyaml, -, hannounces⟩ := hkept.manifest
    exact ⟨yaml, hyaml, hannounces⟩
  exact throughout_of_guarded hannouncing
    (fun _ _ _ hkept hspared hnext => hkept.step hspares.adminOf hspared hnext)
    hspares.kept hguarded

def dualStart : Start where
  url :=
    { scheme := some .https
      host := .ipv4 "10.1.1.200".toList (by decide)
      port := some "6443".toList
      path := none
      port_digits := by decide
      path_slash := by decide
      path_chars := by decide }
  vip6 := some ⟨"fd00:1::210".toList, by decide⟩
  advertise := ⟨10, 1, 1, 11⟩
  iface := "eth0".toList
  hostname := "lab-cp-1".toList
  etcd := "    - --name=lab-cp-1\n    - --data-dir=/var/lib/etcd\n".toList
  apiserver := "    - --advertise-address=10.1.1.11\n".toList
  caCrt := []
  clientCrt := []
  clientKey := []
  clusterName := "lab".toList

/-- A boot on which another address is detected and another interface holds it. -/
def movingBoot : Restore where
  detects := true
  rebase :=
    { newIp := ⟨10, 1, 1, 12⟩
      advertiseReadable := true
      adminReadable := true
      before := [.etcd true .done]
      kubeVipReadable := true
      kubeVipWritten := .done
      after := [.apiserver true .done]
      listenReadable := true
      listenWritten := .done
      reissued := true
      adminWritten := .done
      advertiseWritten := .done }
  refresh :=
    { seen := true
      advertiseReadable := true
      detected := none
      adminReadable := true
      manifestReadable := true
      etcdReadable := true
      iface := "ens18".toList
      removed := true
      written := .done }
  adminReadable := true
  adminWritten := .done

theorem kube_vip_announces_iff_movingBoot :
    Throughout (nodeStep plainStyle) (Announcing ⟨"10.1.1.200".toList, by decide⟩ dualStart.vip6)
      (dualStart.node plainStyle) [.restore movingBoot] := by
  have hstart : dualStart.Spares plainStyle ⟨"10.1.1.200".toList, by decide⟩ :=
    { host := rfl
      one := .inl rfl
      advertise := by decide
      iface := by decide
      hostname := by decide
      names := by
        have hnone : namesShow plainStyle dualStart.iface dualStart.hostname = none :=
          namesShow_eq_none (by decide) (by decide) (by decide) (by decide)
        rw [hnone]
        simp }
  have hhostname : movingBoot.refresh.hostname (movingBoot.rebased (dualStart.node plainStyle)) =
      "lab-cp-1".toList := by decide +kernel
  refine (kube_vip_announces_iff plainStyle).2 dualStart _ hstart _ ⟨⟨fun _ => ?_, fun _ => ?_⟩,
    trivial⟩
  · refine ⟨.inl rfl, trivial, trivial, ?_⟩
    rintro ⟨-, v6, hv6, hsuffix⟩
    cases hv6
    exact absurd hsuffix (by decide +kernel)
  · refine ⟨rfl, .inl rfl, .inl rfl, trivial, by decide, ?_, ?_⟩
    · rw [hhostname]
      decide
    · have hnone : namesShow plainStyle movingBoot.refresh.iface "lab-cp-1".toList = none :=
        namesShow_eq_none (by decide) (by decide) (by decide) (by decide)
      rw [hhostname, hnone]
      simp

/-- An IPv6 host is announced with the length of an IPv4 address. -/
theorem ipv6_vip_length : ¬ ∀ (family : Family) (host : Vip family) (vip6 : Option (Vip .v6))
    (iface nodename : Text), Unbroken iface → Unbroken nodename →
      Announces host vip6 (kubeVipManifest plainStyle host.text (vip6.map Vip.text) iface
        nodename) := by
  intro hall
  have hannounces := hall .v6 ⟨"fd00:1::210".toList, by decide⟩ none "eth0".toList
    "lab-cp-1".toList (by decide) (by decide)
  obtain ⟨hfamily, -⟩ := (announces_iff ⟨"fd00:1::210".toList, by decide⟩ none (by decide)
    (by decide)).mp hannounces
  cases hfamily

/-- With an IPv6 host in the endpoint no manifest is written at all. -/
theorem Start.kubeVip_ipv6 {address : Text} {legal : (parseIpv6 address).isSome = true}
    (hhost : start.url.host = .ipv6 address legal) : (start.node style).kubeVip = none := by
  have hbracket : '[' ∈ endpointHost start.url.text := by
    rw [endpointHost_text, Host.inUrl, hhost]
    simp [Host.bracketed]
  have hkept : '[' ∈ trim (endpointHost start.url.text) := by
    obtain ⟨front, back, hfront, hback, hsplit⟩ := exists_margins (endpointHost start.url.text)
    rw [hsplit, List.mem_append, List.mem_append] at hbracket
    rcases hbracket with h | h | h
    · exact absurd (hfront _ h) (by decide)
    · exact h
    · exact absurd (hback _ h) (by decide)
  have hv4 : parseIpv4 (trim (endpointHost start.url.text)) = none := by
    refine Option.eq_none_iff_forall_ne_some.mpr fun ip hip => ?_
    exact absurd (parseIpv4_ipv6Chars hip _ hkept) (by decide)
  have hv6 : parseIpv6 (trim (endpointHost start.url.text)) = none := by
    refine Option.eq_none_iff_forall_ne_some.mpr fun ip hip => ?_
    exact absurd ((parseIpv6_chars hip).2 _ hkept) (by decide)
  have hvip : vipFromEndpointHost (endpointHost start.url.text) = none := by
    rw [vipFromEndpointHost]
    simp [isIpAddr, hv4, hv6]
  rw [Start.node]
  simp only [hvip]
  rfl

end Start

end PertiskKos.Bootstrap
