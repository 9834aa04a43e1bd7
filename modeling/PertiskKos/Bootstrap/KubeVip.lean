import PertiskKos.Bootstrap.Endpoint
import PertiskKos.Bootstrap.Rebase
import PertiskKos.Etcd.CommandFlags
import PertiskKos.Etcd.RewrittenFields
import PertiskKos.Library.AddressText
import PertiskKos.Library.Json

/-!
# The manifest of kube-vip

kube-vip announces the addresses in its environment variable `address`, with the lengths
that stand at the same places in `vip_cidr`.  After the first boot the manifest is the only
place where the IPv6 address is kept, and it is found there again by its shape.
-/

namespace PertiskKos.Bootstrap

open Strings Ip Etcd

/-- A text that YAML does not break into lines. -/
def Unbroken (text : Text) : Prop :=
  ∀ c ∈ text, c ∉ ['\n', '\r', '\u0085', '\u2028', '\u2029']

instance (text : Text) : Decidable (Unbroken text) := List.decidableBAll _ text

def doubled (c : Char) : Text := if c = '\'' then ['\'', '\''] else [c]

/-- Nothing but letters, digits and punctuation that means the same in all quotes. -/
def isInert (c : Char) : Bool :=
  0x20 < c.toNat && c.toNat < 0x7f && c ∉ ['"', '\'', '\\']

/-- How serde_yaml writes texts: as they are or in quotes. -/
structure ScalarStyle where
  shown : Text → Text
  escaped : Char → Text
  escaped_inert : ∀ c, isInert c = true → escaped c = [c]
  escaped_cases : ∀ c, escaped c = [c] ∨
    ∀ d ∈ escaped c, d.isAlphanum = true ∨ d ∈ ['\\', '"', '_']
  forms : ∀ text, Unbroken text → shown text = text ∨
    shown text = '\'' :: (text.flatMap doubled ++ ['\'']) ∨
    shown text = '"' :: (text.flatMap escaped ++ ['"'])

section Printing

variable (style : ScalarStyle)

def margin (n : Nat) : Text := List.replicate n ' '

/-- What stands behind a key or a dash. -/
def inlineText : Json.Value → Text
  | .null => " null".toList
  | .bool true => " true".toList
  | .bool false => " false".toList
  | .number text => ' ' :: text
  | .string text => ' ' :: style.shown text
  | .array [] => " []".toList
  | .object [] => " {}".toList
  | .array (_ :: _) => []
  | .object (_ :: _) => []

/-- A dash takes the place of two columns. -/
def dashed (n : Nat) (inline : Text) (below : List Text) : List Text :=
  if inline = [] then
    (margin n ++ '-' :: ' ' :: (below.headD []).drop (n + 2)) :: below.tail
  else (margin n ++ '-' :: inline) :: below

mutual

/-- The lines below a key or a dash.  Items stand at the indentation of their key; `json!`
keeps the keys of an object in their order. -/
def linesBelow (n : Nat) : Json.Value → List Text
  | .null => []
  | .bool _ => []
  | .number _ => []
  | .string _ => []
  | .array items => itemLines n items
  | .object fields => fieldLines (n + 2) fields

def itemLines (n : Nat) : List Json.Value → List Text
  | [] => []
  | item :: rest => dashed n (inlineText style item) (linesBelow n item) ++ itemLines n rest

def fieldLines (n : Nat) : List (Text × Json.Value) → List Text
  | [] => []
  | (key, value) :: rest =>
      (margin n ++ key ++ ':' :: inlineText style value) :: linesBelow n value ++ fieldLines n rest

end

/-- `serde_yaml::to_string` -/
def toYaml (fields : List (Text × Json.Value)) : Text := unlines (fieldLines style 0 fields)

end Printing

section Manifest

def DEFAULT_KUBE_VIP_IMAGE : Text := "ghcr.io/kube-vip/kube-vip:v0.8.9".toList

def DEFAULT_KUBE_VIP_INTERFACE : Text := "eth0".toList

def envVar (name : String) (value : Text) : Json.Value :=
  .object [("name".toList, .string name.toList), ("value".toList, .string value)]

def nodenameEnv (nodename : Text) : Json.Value :=
  if nodename = [] then
    .object [("name".toList, .string "vip_nodename".toList),
      ("valueFrom".toList, .object [("fieldRef".toList,
        .object [("fieldPath".toList, .string "spec.nodeName".toList)])])]
  else envVar "vip_nodename" nodename

def kubeVipEnv (address vipCidr iface nodename : Text) : List Json.Value :=
  [envVar "vip_arp" "true".toList, envVar "port" "6443".toList, nodenameEnv nodename,
    envVar "vip_interface" iface, envVar "vip_cidr" vipCidr,
    envVar "dns_mode" "first".toList, envVar "cp_enable" "true".toList,
    envVar "cp_namespace" "kube-system".toList, envVar "vip_leaderelection" "true".toList,
    envVar "vip_leasename" "plndr-cp-lock".toList, envVar "vip_leaseduration" "15".toList,
    envVar "vip_renewdeadline" "10".toList, envVar "vip_retryperiod" "2".toList,
    envVar "address" address, envVar "prometheus_server" ":2112".toList]

def kubeVipPod (address vipCidr iface nodename : Text) : List (Text × Json.Value) :=
  [("apiVersion".toList, .string "v1".toList),
    ("kind".toList, .string "Pod".toList),
    ("metadata".toList, .object
      [("labels".toList, .object
        [("component".toList, .string "kube-vip".toList),
          ("tier".toList, .string "control-plane".toList)]),
        ("name".toList, .string "kube-vip".toList),
        ("namespace".toList, .string "kube-system".toList)]),
    ("spec".toList, .object
      [("containers".toList, .array [.object
        [("args".toList, .array [.string "manager".toList]),
          ("env".toList, .array (kubeVipEnv address vipCidr iface nodename)),
          ("image".toList, .string DEFAULT_KUBE_VIP_IMAGE),
          ("imagePullPolicy".toList, .string "IfNotPresent".toList),
          ("name".toList, .string "kube-vip".toList),
          ("securityContext".toList, .object [("capabilities".toList, .object
            [("add".toList, .array
              [.string "NET_ADMIN".toList, .string "NET_RAW".toList])])]),
          ("volumeMounts".toList, .array [.object
            [("mountPath".toList, .string "/etc/kubernetes/admin.conf".toList),
              ("name".toList, .string "kubeconfig".toList)]])]]),
        ("hostAliases".toList, .array [.object
          [("hostnames".toList, .array [.string "kubernetes".toList]),
            ("ip".toList, .string "127.0.0.1".toList)]]),
        ("hostNetwork".toList, .bool true),
        ("priorityClassName".toList, .string "system-node-critical".toList),
        ("volumes".toList, .array [.object
          [("hostPath".toList, .object
            [("path".toList, .string "/etc/kubernetes/admin.conf".toList)]),
            ("name".toList, .string "kubeconfig".toList)]])])]

/-- The trimmed text, where it is not empty. -/
def given (text : Option Text) : Option Text := (text.map trim).filter (· ≠ [])

/-- What `write_kube_vip` writes. -/
def kubeVipManifest (style : ScalarStyle) (vip : Text) (vip6 : Option Text)
    (iface nodename : Text) : Text :=
  let iface := if iface = [] then DEFAULT_KUBE_VIP_INTERFACE else iface
  let addresses :=
    match given vip6 with
    | some v6 => (vip ++ ',' :: v6, "32,128".toList)
    | none => (vip, "32".toList)
  toYaml style (kubeVipPod addresses.1 addresses.2 iface (trim nodename))

/-- A file that may be absent, after it has been written. -/
def Written.fileOf : Written → Option Text → Text → Option Text
  | .done, _, content => some content
  | .kept, before, _ => before
  | .torn length, _, content => some (content.take length)

/-- The manifest after the call, and whether it has been written; `none` is an error. -/
def maybeWriteKubeVip (style : ScalarStyle) (before : Option Text) (removed : Bool)
    (written : Written) (vip vip6 : Option Text) (advertiseIp iface nodename : Text) :
    Option Text × Option Bool :=
  let remaining := if removed then none else before
  match given vip with
  | none => (remaining, some false)
  | some vip =>
      if vip = advertiseIp ∧ given vip6 = none then (remaining, some false)
      else
        (written.fileOf before (kubeVipManifest style vip (given vip6) iface nodename),
          if written.ok then some true else none)

/-- `trim_matches` -/
def trimMatches (c : Char) (text : Text) : Text :=
  (text.dropWhile (· == c)).rdropWhile (· == c)

/-- A line without its indentation and dash. -/
def bare (line : Text) : Text := trim (trimStartMatches "- ".toList (trim line))

def unquoted (text : Text) : Text := trimMatches '\'' (trimMatches '"' (trim text))

def vip6OfLine (line : Text) : Option Text :=
  match "value:".toList.isPrefixOf? (bare line) with
  | none => none
  | some v =>
      match splitOnce ',' (unquoted v) with
      | none => none
      | some (_, v6) => if ':' ∈ v6 then some (trim v6) else none

/-- IPv6 VIP from an existing kube-vip manifest (`address: v4,v6`). -/
def vip6FromManifest (yaml : Text) : Option Text := (lines yaml).findSome? vip6OfLine

end Manifest

/-- Digits alone and the words of truth stand in quotes. -/
def plainStyle : ScalarStyle where
  shown text :=
    if isDigits text ∨ text = "true".toList then '\'' :: (text.flatMap doubled ++ ['\''])
    else text
  escaped c := [c]
  escaped_inert _ _ := rfl
  escaped_cases _ := .inl rfl
  forms text _ := by
    split
    · exact .inr (.inl rfl)
    · exact .inl rfl

example : startsWith
    (kubeVipManifest plainStyle "10.1.1.200".toList (some "fd00:1::210".toList)
      "ens18".toList "lab-cp-1".toList)
    (unlines ["apiVersion: v1".toList, "kind: Pod".toList, "metadata:".toList,
      "  labels:".toList, "    component: kube-vip".toList, "    tier: control-plane".toList,
      "  name: kube-vip".toList, "  namespace: kube-system".toList, "spec:".toList,
      "  containers:".toList, "  - args:".toList, "    - manager".toList, "    env:".toList,
      "    - name: vip_arp".toList, "      value: 'true'".toList, "    - name: port".toList,
      "      value: '6443'".toList, "    - name: vip_nodename".toList,
      "      value: lab-cp-1".toList, "    - name: vip_interface".toList,
      "      value: ens18".toList, "    - name: vip_cidr".toList,
      "      value: 32,128".toList]) = true := by
  decide +kernel

/-! ## Reading a manifest -/

section Reading

/-- What a line gives for a key. -/
def fieldOfLine (key line : Text) : Option Text :=
  ((key ++ [':']).isPrefixOf? (bare line)).map unquoted

/-- The value of an environment variable: it stands on the line below the name. -/
def envValue (name : Text) : List Text → Option Text
  | first :: second :: rest =>
      if fieldOfLine "name".toList first = some name then fieldOfLine "value".toList second
      else envValue name (second :: rest)
  | _ => none

/-- The addresses that kube-vip announces. -/
def announced (yaml : Text) : List Text :=
  ((envValue "address".toList (lines yaml)).map (List.splitOn ',')).getD []

/-- The lengths it announces them with. -/
def announcedLengths (yaml : Text) : List Text :=
  ((envValue "vip_cidr".toList (lines yaml)).map (List.splitOn ',')).getD []

/-- The address behind a comma. -/
def vip6OfValue (value : Text) : Option Text :=
  (splitOnce ',' value).bind fun around =>
    if ':' ∈ around.2 then some (trim around.2) else none

theorem vip6OfLine_eq (line : Text) :
    vip6OfLine line = (fieldOfLine "value".toList line).bind vip6OfValue := by
  have hkey : "value".toList ++ [':'] = "value:".toList := rfl
  rw [vip6OfLine, fieldOfLine, hkey]
  cases "value:".toList.isPrefixOf? (bare line) with
  | none => rfl
  | some v =>
      simp only [Option.map_some, Option.bind_some, vip6OfValue]
      cases splitOnce ',' (unquoted v) <;> rfl

theorem envValue_skip {name first : Text} (hname : fieldOfLine "name".toList first ≠ some name)
    (rest : List Text) : envValue name (first :: rest) = envValue name rest := by
  cases rest with
  | nil => rfl
  | cons second rest => rw [envValue, if_neg hname]

end Reading

section Shapes

variable (style : ScalarStyle)

/-- A line with a key. -/
def keyed (n : Nat) (dash key rest : Text) : Text :=
  margin n ++ (dash ++ (key ++ ':' :: rest))

/-- A key's name. -/
structure Word (key : Text) : Prop where
  ne_nil : key ≠ []
  chars : ∀ c ∈ key, c.isAlpha = true

theorem margin_white (n : Nat) : White (margin n) := by
  intro c hc
  rw [List.eq_of_mem_replicate hc]
  decide

theorem not_white_of_alpha {c : Char} (halpha : c.isAlpha = true) : isWhite c = false :=
  not_white_of_name (by simp [isNameChar, Char.isAlphanum, halpha])

theorem bare_keyed {dash key : Text} (hdash : dash = [] ∨ dash = "- ".toList) (hkey : Word key)
    (n : Nat) (rest : Text) :
    bare (keyed n dash key rest) = key ++ ':' :: trimEnd rest := by
  have hcolon : isWhite ':' = false := by decide
  have hblack : ∀ c ∈ key, isWhite c = false := fun c hc => not_white_of_alpha (hkey.chars c hc)
  obtain ⟨first, tail, rfl⟩ := List.exists_cons_of_ne_nil hkey.ne_nil
  have hstart : trimStart (first :: tail) = first :: tail := by
    rw [trimStart, List.dropWhile_cons_of_neg (by simp [hblack first])]
  have hnot : ∀ rest, ¬ "- ".toList <+: (first :: tail) ++ ':' :: rest := by
    intro rest hpre
    have hfirst := (List.cons_prefix_cons.mp hpre).1
    have halpha := hkey.chars first List.mem_cons_self
    rw [← hfirst] at halpha
    exact absurd halpha (by decide)
  have htrim : trim ((first :: tail) ++ ':' :: trimEnd rest) =
      (first :: tail) ++ ':' :: trimEnd rest := by
    rw [trim_separator hcolon, hstart, trimEnd, trimEnd, List.rdropWhile_idempotent]
  rw [bare, keyed, trim_white_append (margin_white n)]
  rcases hdash with rfl | rfl
  · rw [List.nil_append, trim_separator hcolon, hstart,
      trimStartMatches_of_not_prefix (hnot _), htrim]
  · have hsplit : "- ".toList ++ ((first :: tail) ++ ':' :: rest) =
        ("- ".toList ++ (first :: tail)) ++ ':' :: rest := by simp
    have hdashed : trimStart ("- ".toList ++ (first :: tail)) =
        "- ".toList ++ (first :: tail) := rfl
    rw [hsplit, trim_separator hcolon, hdashed, List.append_assoc,
      trimStartMatches_append (by decide) (hnot _), htrim]

theorem isPrefixOf?_word {key other : Text} (hkey : ':' ∉ key) (hother : ':' ∉ other)
    (rest : Text) : (key ++ [':']).isPrefixOf? (other ++ ':' :: rest) =
      if key = other then some rest else none := by
  by_cases hsame : key = other
  · rw [if_pos hsame, hsame]
    exact List.isPrefixOf?_eq_some_iff_append_eq.mpr (by simp)
  · rw [if_neg hsame]
    refine isPrefixOf?_eq_none fun hpre => hsame ?_
    obtain ⟨tail, htail⟩ := hpre
    rw [List.append_assoc, List.singleton_append] at htail
    exact (append_separator_inj hkey hother htail).1

theorem Word.noColon {key : Text} (hkey : Word key) : ':' ∉ key :=
  fun h => absurd (hkey.chars _ h) (by decide)

theorem fieldOfLine_keyed {dash key other : Text} (hdash : dash = [] ∨ dash = "- ".toList)
    (hkey : Word key) (hother : Word other) (n : Nat) (rest : Text) :
    fieldOfLine other (keyed n dash key rest) =
      if other = key then some (unquoted (trimEnd rest)) else none := by
  rw [fieldOfLine, bare_keyed hdash hkey, isPrefixOf?_word hother.noColon hkey.noColon]
  split
  · rfl
  · rfl

end Shapes

section Scalars

variable (style : ScalarStyle)

structure Inert (text : Text) : Prop where
  ne_nil : text ≠ []
  chars : ∀ c ∈ text, isInert c = true

instance (text : Text) : Decidable (Inert text) :=
  decidable_of_iff (text ≠ [] ∧ ∀ c ∈ text, isInert c = true)
    ⟨fun h => ⟨h.1, h.2⟩, fun h => ⟨h.ne_nil, h.chars⟩⟩

theorem inert_range {c : Char} (hc : isInert c = true) :
    0x20 < c.toNat ∧ c.toNat < 0x7f ∧ c ∉ ['"', '\'', '\\'] := by
  simpa [isInert, and_assoc] using hc

theorem not_white_of_inert {c : Char} (hc : isInert c = true) : isWhite c = false := by
  obtain ⟨hlow, hhigh, -⟩ := inert_range hc
  simp [isWhite]
  omega

theorem inert_of_ipv6 {c : Char} (hc : isIpv6Char c = true) : isInert c = true := by
  rcases isIpv6Char_cases hc with hdigit | rfl | rfl
  · rcases Hex.isHexDigit_cases hdigit with h | h | h
    all_goals simp only [isInert, Bool.and_eq_true, decide_eq_true_eq]
    all_goals refine ⟨⟨by omega, by omega⟩, ?_⟩
    all_goals
      simp only [List.mem_cons, List.not_mem_nil, or_false, not_or]
      refine ⟨?_, ?_, ?_⟩ <;> rintro rfl <;> exact absurd h (by decide)
  · decide
  · decide

theorem Inert.unbroken {text : Text} (hinert : Inert text) : Unbroken text := by
  intro c hc hbreak
  have hblack := not_white_of_inert (hinert.chars c hc)
  have hwhite : ∀ d ∈ ['\n', '\r', '\u0085', '\u2028', '\u2029'], isWhite d = true := by decide
  exact absurd (hwhite c hbreak) (by simp [hblack])

theorem flatMap_singleton {text : Text} {f : Char → Text} (hsame : ∀ c ∈ text, f c = [c]) :
    text.flatMap f = text := by
  induction text with
  | nil => rfl
  | cons c text ih =>
      rw [List.flatMap_cons, hsame c List.mem_cons_self,
        ih fun d hd => hsame d (List.mem_cons_of_mem _ hd)]
      rfl

/-- An inert text is the same in all quotes. -/
theorem shown_cases {text : Text} (hinert : Inert text) :
    style.shown text = text ∨ ∃ quote ∈ ['\'', '"'],
      style.shown text = quote :: (text ++ [quote]) := by
  have hdoubled : text.flatMap doubled = text :=
    flatMap_singleton fun c hc => if_neg fun h =>
      (inert_range (hinert.chars c hc)).2.2 (by simp [h])
  have hescaped : text.flatMap style.escaped = text :=
    flatMap_singleton fun c hc => style.escaped_inert c (hinert.chars c hc)
  rcases style.forms text hinert.unbroken with h | h | h
  · exact .inl h
  · exact .inr ⟨'\'', by simp, by rw [h, hdoubled]⟩
  · exact .inr ⟨'"', by simp, by rw [h, hescaped]⟩

theorem trimMatches_of_notMem {c : Char} {text : Text} (hc : c ∉ text) :
    trimMatches c text = text := by
  have hne : ∀ d ∈ text, ¬ (d == c) = true := by
    intro d hd hsame
    exact hc (eq_of_beq hsame ▸ hd)
  have hstart : text.dropWhile (· == c) = text :=
    List.dropWhile_eq_self_iff.mpr fun hpos => hne _ (List.getElem_mem hpos)
  rw [trimMatches, hstart, List.rdropWhile_eq_self_iff]
  exact fun hnil => hne _ (List.getLast_mem hnil)

theorem trimMatches_quoted {c : Char} {text : Text} (hc : c ∉ text) (hne : text ≠ []) :
    trimMatches c (c :: (text ++ [c])) = text := by
  obtain ⟨first, rest, rfl⟩ := List.exists_cons_of_ne_nil hne
  have hfirst : ∀ rest, (first :: rest).dropWhile (· == c) = first :: rest := fun rest =>
    List.dropWhile_cons_of_neg fun h => hc (eq_of_beq h ▸ List.mem_cons_self)
  have hself := trimMatches_of_notMem hc
  rw [trimMatches, hfirst] at hself
  rw [trimMatches, List.dropWhile_cons_of_pos (by simp), List.cons_append, hfirst,
    ← List.cons_append, List.rdropWhile_concat_pos _ _ _ (by simp), hself]

theorem unquoted_shown {text : Text} (hinert : Inert text) :
    unquoted (trimEnd (' ' :: style.shown text)) = text := by
  have hspace : White [' '] := by decide
  have hnot : ∀ quote ∈ ['\'', '"'], quote ∉ text := by
    intro quote hquote hmem
    refine (inert_range (hinert.chars quote hmem)).2.2 ?_
    rcases List.mem_pair.mp hquote with rfl | rfl <;> simp
  have hblack : ∀ c ∈ style.shown text, isWhite c = false := by
    have htext : ∀ c ∈ text, isWhite c = false :=
      fun c hc => not_white_of_inert (hinert.chars c hc)
    rcases shown_cases style hinert with h | ⟨quote, hquote, h⟩
    · rwa [h]
    · have hquoted : isWhite quote = false := by
        rcases List.mem_pair.mp hquote with rfl | rfl <;> decide
      rw [h]
      exact List.forall_mem_cons.mpr ⟨hquoted,
        List.forall_mem_append.mpr ⟨htext, List.forall_mem_singleton.mpr hquoted⟩⟩
  have hsplit : ' ' :: style.shown text = [' '] ++ style.shown text := rfl
  rw [unquoted, trim_trimEnd, hsplit, trim_white_append hspace, trim_of_noWhite hblack]
  rcases shown_cases style hinert with h | ⟨quote, hquote, h⟩
  · rw [h, trimMatches_of_notMem (hnot '"' (by simp)),
      trimMatches_of_notMem (hnot '\'' (by simp))]
  · rcases List.mem_pair.mp hquote with rfl | rfl
    · have hinner : '"' ∉ '\'' :: (text ++ ['\'']) := by
        simp [hnot '"' (by simp)]
      rw [h, trimMatches_of_notMem hinner, trimMatches_quoted (hnot '\'' (by simp)) hinert.ne_nil]
    · rw [h, trimMatches_quoted (hnot '"' (by simp)) hinert.ne_nil,
        trimMatches_of_notMem (hnot '\'' (by simp))]

/-- What a key says comes back out of its line. -/
theorem fieldOfLine_shown {dash key other text : Text} (hdash : dash = [] ∨ dash = "- ".toList)
    (hkey : Word key) (hother : Word other) (hinert : Inert text) (n : Nat) :
    fieldOfLine other (keyed n dash key (' ' :: style.shown text)) =
      if other = key then some text else none := by
  rw [fieldOfLine_keyed hdash hkey hother, unquoted_shown style hinert]

theorem bare_subset (line : Text) : bare line ⊆ line := fun _ hc =>
  (trim_sublist line).subset
    ((trimStartMatches_suffix _ _).subset ((trim_sublist _).subset hc))

/-- An item without a colon has no key. -/
theorem fieldOfLine_item {text : Text} (hinert : Inert text) (hcolon : ':' ∉ text) (n : Nat)
    (key : Text) : fieldOfLine key (margin n ++ ("- ".toList ++ style.shown text)) = none := by
  have hshown : ':' ∉ style.shown text := by
    rcases shown_cases style hinert with h | ⟨quote, hquote, h⟩
    · rwa [h]
    · rcases List.mem_pair.mp hquote with rfl | rfl <;> simp [h, hcolon]
  have hbare : ':' ∉ bare (margin n ++ ("- ".toList ++ style.shown text)) := by
    refine fun h => ?_
    have hline := bare_subset _ h
    rw [List.mem_append, List.mem_append] at hline
    rcases hline with h | h | h
    · exact absurd (List.eq_of_mem_replicate h) (by decide)
    · exact absurd h (by decide)
    · exact hshown h
  have hnone : (key ++ [':']).isPrefixOf? (bare (margin n ++ ("- ".toList ++
      style.shown text))) = none :=
    isPrefixOf?_eq_none fun hpre => hbare (hpre.subset (by simp))
  rw [fieldOfLine, hnone]
  rfl

end Scalars

/-! ## The lines of the manifest -/

section Lines

variable (style : ScalarStyle)

def envPair (name : String) (value : Text) : List Text :=
  [keyed 4 "- ".toList "name".toList (' ' :: style.shown name.toList),
    keyed 6 [] "value".toList (' ' :: style.shown value)]

def nodenameLines (nodename : Text) : List Text :=
  if nodename = [] then
    [keyed 4 "- ".toList "name".toList (' ' :: style.shown "vip_nodename".toList),
      keyed 6 [] "valueFrom".toList [], keyed 8 [] "fieldRef".toList [],
      keyed 10 [] "fieldPath".toList (' ' :: style.shown "spec.nodeName".toList)]
  else envPair style "vip_nodename" nodename

/-- The lines before the environment. -/
def frontLines : List Text :=
  [keyed 0 [] "apiVersion".toList (' ' :: style.shown "v1".toList),
    keyed 0 [] "kind".toList (' ' :: style.shown "Pod".toList),
    keyed 0 [] "metadata".toList [], keyed 2 [] "labels".toList [],
    keyed 4 [] "component".toList (' ' :: style.shown "kube-vip".toList),
    keyed 4 [] "tier".toList (' ' :: style.shown "control-plane".toList),
    keyed 2 [] "name".toList (' ' :: style.shown "kube-vip".toList),
    keyed 2 [] "namespace".toList (' ' :: style.shown "kube-system".toList),
    keyed 0 [] "spec".toList [], keyed 2 [] "containers".toList [],
    keyed 2 "- ".toList "args".toList [],
    margin 4 ++ ("- ".toList ++ style.shown "manager".toList),
    keyed 4 [] "env".toList []]

/-- The lines behind the environment. -/
def backLines : List Text :=
  [keyed 4 [] "image".toList (' ' :: style.shown DEFAULT_KUBE_VIP_IMAGE),
    keyed 4 [] "imagePullPolicy".toList (' ' :: style.shown "IfNotPresent".toList),
    keyed 4 [] "name".toList (' ' :: style.shown "kube-vip".toList),
    keyed 4 [] "securityContext".toList [], keyed 6 [] "capabilities".toList [],
    keyed 8 [] "add".toList [],
    margin 8 ++ ("- ".toList ++ style.shown "NET_ADMIN".toList),
    margin 8 ++ ("- ".toList ++ style.shown "NET_RAW".toList),
    keyed 4 [] "volumeMounts".toList [],
    keyed 4 "- ".toList "mountPath".toList
      (' ' :: style.shown "/etc/kubernetes/admin.conf".toList),
    keyed 6 [] "name".toList (' ' :: style.shown "kubeconfig".toList),
    keyed 2 [] "hostAliases".toList [], keyed 2 "- ".toList "hostnames".toList [],
    margin 4 ++ ("- ".toList ++ style.shown "kubernetes".toList),
    keyed 4 [] "ip".toList (' ' :: style.shown "127.0.0.1".toList),
    keyed 2 [] "hostNetwork".toList " true".toList,
    keyed 2 [] "priorityClassName".toList
      (' ' :: style.shown "system-node-critical".toList),
    keyed 2 [] "volumes".toList [], keyed 2 "- ".toList "hostPath".toList [],
    keyed 6 [] "path".toList (' ' :: style.shown "/etc/kubernetes/admin.conf".toList),
    keyed 4 [] "name".toList (' ' :: style.shown "kubeconfig".toList)]

def envLines (address vipCidr iface nodename : Text) : List Text :=
  envPair style "vip_arp" "true".toList ++ (envPair style "port" "6443".toList ++
    (nodenameLines style nodename ++ (envPair style "vip_interface" iface ++
      (envPair style "vip_cidr" vipCidr ++ (envPair style "dns_mode" "first".toList ++
        (envPair style "cp_enable" "true".toList ++
          (envPair style "cp_namespace" "kube-system".toList ++
            (envPair style "vip_leaderelection" "true".toList ++
              (envPair style "vip_leasename" "plndr-cp-lock".toList ++
                (envPair style "vip_leaseduration" "15".toList ++
                  (envPair style "vip_renewdeadline" "10".toList ++
                    (envPair style "vip_retryperiod" "2".toList ++
                      (envPair style "address" address ++
                        envPair style "prometheus_server" ":2112".toList)))))))))))))

theorem fieldLines_pod (address vipCidr iface nodename : Text) :
    fieldLines style 0 (kubeVipPod address vipCidr iface nodename) =
      frontLines style ++ (envLines style address vipCidr iface nodename ++
        backLines style) := by
  by_cases hnodename : nodename = []
  · subst hnodename
    rfl
  · have hcons := List.exists_cons_of_ne_nil hnodename
    obtain ⟨c, rest, rfl⟩ := hcons
    rfl

end Lines

section Found

variable (style : ScalarStyle)

theorem word_name : Word "name".toList := ⟨by decide, by decide⟩

theorem word_value : Word "value".toList := ⟨by decide, by decide⟩

/-- The text is on one line of a file. -/
def Feedless (text : Text) : Prop := '\n' ∉ text ∧ '\r' ∉ text

instance (text : Text) : Decidable (Feedless text) := inferInstanceAs (Decidable (_ ∧ _))

theorem feedless_append {front back : Text} : Feedless (front ++ back) ↔ Feedless front ∧ Feedless back := by
  simp only [Feedless, List.mem_append, not_or]
  tauto

theorem feedless_of_chars {text : Text} (hchars : ∀ c ∈ text, c ≠ '\n' ∧ c ≠ '\r') : Feedless text :=
  ⟨fun h => (hchars _ h).1 rfl, fun h => (hchars _ h).2 rfl⟩

theorem feedless_shown {text : Text} (htext : Unbroken text) : Feedless (' ' :: style.shown text) := by
  have hbreak : ∀ c ∈ text, c ≠ '\n' ∧ c ≠ '\r' := by
    intro c hc
    constructor
    · rintro rfl
      exact htext _ hc (by simp)
    · rintro rfl
      exact htext _ hc (by simp)
  have hspace : ∀ {rest : Text}, Feedless rest → Feedless (' ' :: rest) := fun hrest =>
    (@feedless_append [' '] _).mpr ⟨by decide, hrest⟩
  apply hspace
  rcases style.forms text htext with h | h | h
  · rw [h]
    exact feedless_of_chars hbreak
  · rw [h]
    refine feedless_of_chars ?_
    simp only [List.forall_mem_cons, List.mem_append, List.mem_flatMap, doubled]
    refine ⟨by decide, fun d hd => ?_⟩
    rcases hd with ⟨c, hc, hd⟩ | hd
    · split at hd
      · rcases List.mem_pair.mp hd with rfl | rfl <;> decide
      · rw [List.mem_singleton.mp hd]
        exact hbreak c hc
    · rw [List.mem_singleton.mp hd]
      decide
  · rw [h]
    refine feedless_of_chars ?_
    simp only [List.forall_mem_cons, List.mem_append, List.mem_flatMap]
    refine ⟨by decide, fun d hd => ?_⟩
    rcases hd with ⟨c, hc, hd⟩ | hd
    · rcases style.escaped_cases c with hself | hescape
      · rw [hself] at hd
        rw [List.mem_singleton.mp hd]
        exact hbreak c hc
      · constructor
        · rintro rfl
          exact absurd (hescape _ hd) (by decide)
        · rintro rfl
          exact absurd (hescape _ hd) (by decide)
    · rw [List.mem_singleton.mp hd]
      decide

theorem feedless_margin (n : Nat) : Feedless (margin n) :=
  feedless_of_chars fun c hc => by
    rw [List.eq_of_mem_replicate hc]
    decide

theorem feedless_keyed {dash key rest : Text} (hdash : dash = [] ∨ dash = "- ".toList)
    (hkey : Word key) (hrest : Feedless rest) (n : Nat) : Feedless (keyed n dash key rest) := by
  have hword : Feedless key := feedless_of_chars fun c hc => by
    have halpha := hkey.chars c hc
    constructor
    · rintro rfl
      exact absurd halpha (by decide)
    · rintro rfl
      exact absurd halpha (by decide)
  have hsplit : key ++ ':' :: rest = key ++ ([':'] ++ rest) := rfl
  rw [keyed, hsplit]
  refine feedless_append.mpr ⟨feedless_margin n, feedless_append.mpr ⟨?_, feedless_append.mpr
    ⟨hword, feedless_append.mpr ⟨by decide, hrest⟩⟩⟩⟩
  rcases hdash with rfl | rfl
  · decide
  · decide

/-- The line names neither variable that is looked for, and shows no address. -/
structure Quiet (line : Text) : Prop where
  feedless : Feedless line
  name : ∀ name ∈ fieldOfLine "name".toList line,
    name ≠ "address".toList ∧ name ≠ "vip_cidr".toList
  shows : vip6OfLine line = none

/-- A key that is neither a name nor a value. -/
def SafeKey (dash key : Text) : Prop :=
  (dash = [] ∨ dash = "- ".toList) ∧ (key ≠ [] ∧ ∀ c ∈ key, c.isAlpha = true) ∧
    "name".toList ≠ key ∧ "value".toList ≠ key

instance (dash key : Text) : Decidable (SafeKey dash key) :=
  inferInstanceAs (Decidable (_ ∧ (_ ∧ _) ∧ _ ∧ _))

theorem quiet_keyed {dash key rest : Text} (hsafe : SafeKey dash key) (hrest : Feedless rest)
    (n : Nat) : Quiet (keyed n dash key rest) := by
  obtain ⟨hdash, ⟨hne, hchars⟩, hname, hvalue⟩ := hsafe
  have hword : Word key := ⟨hne, hchars⟩
  refine ⟨feedless_keyed hdash hword hrest n, ?_, ?_⟩
  · intro name hmem
    rw [fieldOfLine_keyed hdash hword word_name, if_neg hname] at hmem
    cases hmem
  · rw [vip6OfLine_eq, fieldOfLine_keyed hdash hword word_value, if_neg hvalue]
    rfl

theorem quiet_field {dash key text : Text} (hsafe : SafeKey dash key ∧ Inert text) (n : Nat) :
    Quiet (keyed n dash key (' ' :: style.shown text)) :=
  quiet_keyed hsafe.1 (feedless_shown style hsafe.2.unbroken) n

theorem quiet_item {text : Text} (hitem : Inert text ∧ ':' ∉ text) (n : Nat) :
    Quiet (margin n ++ ("- ".toList ++ style.shown text)) := by
  have hfeedless : Feedless (style.shown text) :=
    ((@feedless_append [' '] _).mp (feedless_shown style hitem.1.unbroken)).2
  refine ⟨feedless_append.mpr ⟨feedless_margin n, feedless_append.mpr ⟨by decide, hfeedless⟩⟩, ?_, ?_⟩
  · intro name hmem
    rw [fieldOfLine_item style hitem.1 hitem.2] at hmem
    cases hmem
  · rw [vip6OfLine_eq, fieldOfLine_item style hitem.1 hitem.2]
    rfl

theorem fieldOfLine_name {dash text : Text} (hdash : dash = [] ∨ dash = "- ".toList)
    (hinert : Inert text) (n : Nat) :
    fieldOfLine "name".toList (keyed n dash "name".toList (' ' :: style.shown text)) =
      some text := by
  rw [fieldOfLine_shown style hdash word_name word_name hinert, if_pos rfl]

theorem name_shows_nothing {dash : Text} (hdash : dash = [] ∨ dash = "- ".toList) (n : Nat)
    (rest : Text) : vip6OfLine (keyed n dash "name".toList rest) = none := by
  rw [vip6OfLine_eq, fieldOfLine_keyed hdash word_name word_value, if_neg (by decide)]
  rfl

theorem quiet_name {dash text : Text}
    (hname : (dash = [] ∨ dash = "- ".toList) ∧ Inert text ∧ text ≠ "address".toList ∧
      text ≠ "vip_cidr".toList) (n : Nat) :
    Quiet (keyed n dash "name".toList (' ' :: style.shown text)) := by
  obtain ⟨hdash, hinert, hother⟩ := hname
  refine ⟨feedless_keyed hdash word_name (feedless_shown style hinert.unbroken) n,
    fun name hmem => ?_, name_shows_nothing hdash n _⟩
  rw [fieldOfLine_name style hdash hinert] at hmem
  exact Option.some.inj hmem ▸ hother

theorem quiet_front : ∀ line ∈ frontLines style, Quiet line := by
  simp only [frontLines, List.forall_mem_cons]
  exact ⟨quiet_field style (by decide) _, quiet_field style (by decide) _,
    quiet_keyed (by decide) (by decide) _, quiet_keyed (by decide) (by decide) _,
    quiet_field style (by decide) _, quiet_field style (by decide) _,
    quiet_name style (by decide) _, quiet_field style (by decide) _,
    quiet_keyed (by decide) (by decide) _, quiet_keyed (by decide) (by decide) _,
    quiet_keyed (by decide) (by decide) _, quiet_item style (by decide) _,
    quiet_keyed (by decide) (by decide) _, List.forall_mem_nil _⟩

theorem quiet_back : ∀ line ∈ backLines style, Quiet line := by
  simp only [backLines, List.forall_mem_cons]
  exact ⟨quiet_field style (by decide) _, quiet_field style (by decide) _,
    quiet_name style (by decide) _, quiet_keyed (by decide) (by decide) _,
    quiet_keyed (by decide) (by decide) _, quiet_keyed (by decide) (by decide) _,
    quiet_item style (by decide) _, quiet_item style (by decide) _,
    quiet_keyed (by decide) (by decide) _, quiet_field style (by decide) _,
    quiet_name style (by decide) _, quiet_keyed (by decide) (by decide) _,
    quiet_keyed (by decide) (by decide) _, quiet_item style (by decide) _,
    quiet_field style (by decide) _, quiet_keyed (by decide) (by decide) _,
    quiet_field style (by decide) _, quiet_keyed (by decide) (by decide) _,
    quiet_keyed (by decide) (by decide) _, quiet_field style (by decide) _,
    quiet_name style (by decide) _, List.forall_mem_nil _⟩

theorem envValue_quiet {wanted : Text} (hwanted : wanted = "address".toList ∨
    wanted = "vip_cidr".toList) {front : List Text} (hfront : ∀ line ∈ front, Quiet line)
    (rest : List Text) : envValue wanted (front ++ rest) = envValue wanted rest := by
  induction front with
  | nil => rfl
  | cons line front ih =>
      have hline := hfront line List.mem_cons_self
      have hname : fieldOfLine "name".toList line ≠ some wanted := by
        intro hsome
        obtain ⟨haddress, hcidr⟩ := hline.name wanted hsome
        exact hwanted.elim haddress hcidr
      rw [List.cons_append, envValue_skip hname,
        ih fun other hother => hfront other (List.mem_cons_of_mem _ hother)]

variable {style}

theorem envValue_same {name : String} (hname : Inert name.toList) (value : Text)
    (rest : List Text) : envValue name.toList (envPair style name value ++ rest) =
      fieldOfLine "value".toList (keyed 6 [] "value".toList (' ' :: style.shown value)) := by
  rw [envPair, List.cons_append, List.cons_append, envValue,
    if_pos (fieldOfLine_name style (.inr rfl) hname 4)]

theorem envValue_other {wanted : Text} {name : String}
    (hname : Inert name.toList ∧ wanted ≠ name.toList) (value : Text) (rest : List Text) :
    envValue wanted (envPair style name value ++ rest) = envValue wanted rest := by
  have hfirst : fieldOfLine "name".toList
      (keyed 4 "- ".toList "name".toList (' ' :: style.shown name.toList)) ≠ some wanted := by
    rw [fieldOfLine_name style (.inr rfl) hname.1]
    exact fun h => hname.2 (Option.some.inj h).symm
  have hsecond : fieldOfLine "name".toList
      (keyed 6 [] "value".toList (' ' :: style.shown value)) ≠ some wanted := by
    rw [fieldOfLine_keyed (.inl rfl) word_value word_name, if_neg (by decide)]
    simp
  rw [envPair, List.cons_append, List.cons_append, List.nil_append, envValue_skip hfirst,
    envValue_skip hsecond]

theorem envValue_nodename {wanted : Text} (hwanted : wanted ≠ "vip_nodename".toList)
    (nodename : Text) (rest : List Text) :
    envValue wanted (nodenameLines style nodename ++ rest) = envValue wanted rest := by
  rw [nodenameLines]
  split
  · have hfirst : fieldOfLine "name".toList (keyed 4 "- ".toList "name".toList
        (' ' :: style.shown "vip_nodename".toList)) ≠ some wanted := by
      rw [fieldOfLine_name style (.inr rfl) (by decide)]
      exact fun h => hwanted (Option.some.inj h).symm
    have hkey : ∀ {key : Text} (n : Nat) (rest : Text), SafeKey [] key →
        fieldOfLine "name".toList (keyed n [] key rest) ≠ some wanted := by
      intro key n rest hsafe
      rw [fieldOfLine_keyed hsafe.1 ⟨hsafe.2.1.1, hsafe.2.1.2⟩ word_name,
        if_neg hsafe.2.2.1]
      simp
    rw [List.cons_append, List.cons_append, List.cons_append, List.cons_append,
      List.nil_append, envValue_skip hfirst, envValue_skip (hkey 6 _ (by decide)),
      envValue_skip (hkey 8 _ (by decide)), envValue_skip (hkey 10 _ (by decide))]
  · exact envValue_other ⟨by decide, hwanted⟩ nodename rest

variable (address vipCidr iface nodename : Text) (rest : List Text)

theorem envValue_address (haddress : Inert address) :
    envValue "address".toList (frontLines style ++ (envLines style address vipCidr iface
      nodename ++ rest)) = some address := by
  rw [envValue_quiet (.inl rfl) (quiet_front style)]
  simp only [envLines, List.append_assoc]
  rw [envValue_other (by decide), envValue_other (by decide), envValue_nodename (by decide),
    envValue_other (by decide), envValue_other (by decide), envValue_other (by decide),
    envValue_other (by decide), envValue_other (by decide), envValue_other (by decide),
    envValue_other (by decide), envValue_other (by decide), envValue_other (by decide),
    envValue_other (by decide), envValue_same (by decide),
    fieldOfLine_shown style (.inl rfl) word_value word_value haddress, if_pos rfl]

theorem envValue_vipCidr (hcidr : Inert vipCidr) :
    envValue "vip_cidr".toList (frontLines style ++ (envLines style address vipCidr iface
      nodename ++ rest)) = some vipCidr := by
  rw [envValue_quiet (.inr rfl) (quiet_front style)]
  simp only [envLines, List.append_assoc]
  rw [envValue_other (by decide), envValue_other (by decide), envValue_nodename (by decide),
    envValue_other (by decide), envValue_same (by decide),
    fieldOfLine_shown style (.inl rfl) word_value word_value hcidr, if_pos rfl]

end Found

/-! ## What the manifest announces -/

section Manifest

variable (style : ScalarStyle)

/-- The address that the line of a value shows. -/
def valueShows (value : Text) : Option Text :=
  vip6OfLine (keyed 6 [] "value".toList (' ' :: style.shown value))

/-- The address that the names in front of the addresses show. -/
def namesShow (iface nodename : Text) : Option Text :=
  (if trim nodename = [] then none else valueShows style (trim nodename)).or
    (valueShows style (if iface = [] then DEFAULT_KUBE_VIP_INTERFACE else iface))

theorem findSome?_quiet {quiet : List Text} (hquiet : ∀ line ∈ quiet, Quiet line) :
    quiet.findSome? vip6OfLine = none :=
  List.findSome?_eq_none_iff.mpr fun line hline => (hquiet line hline).shows

variable {style}

theorem valueShows_inert {value : Text} (hinert : Inert value) :
    valueShows style value = vip6OfValue value := by
  rw [valueShows, vip6OfLine_eq, fieldOfLine_shown style (.inl rfl) word_value word_value hinert,
    if_pos rfl, Option.bind_some]

theorem findSome?_pair (name : String) (value : Text) :
    (envPair style name value).findSome? vip6OfLine = valueShows style value := by
  rw [envPair, List.findSome?_cons, name_shows_nothing (.inr rfl), List.findSome?_singleton]
  rfl

theorem findSome?_nodename (nodename : Text) :
    (nodenameLines style nodename).findSome? vip6OfLine =
      if nodename = [] then none else valueShows style nodename := by
  rw [nodenameLines]
  split
  · have hkey : ∀ {key rest : Text} (n : Nat), SafeKey [] key → Feedless rest →
        vip6OfLine (keyed n [] key rest) = none :=
      fun n hsafe hrest => (quiet_keyed hsafe hrest n).shows
    have hvalueFrom := @hkey "valueFrom".toList [] 6 (by decide) (by decide)
    have hfieldRef := @hkey "fieldRef".toList [] 8 (by decide) (by decide)
    have hfieldPath := @hkey "fieldPath".toList (' ' :: style.shown "spec.nodeName".toList) 10
      (by decide) (feedless_shown style (by decide))
    simp only [List.findSome?_cons, name_shows_nothing (.inr rfl),
      hvalueFrom, hfieldRef, hfieldPath, List.findSome?_nil]
  · exact findSome?_pair "vip_nodename" nodename

theorem feedless_pair {name : String} {value : Text} (hname : Inert name.toList)
    (hvalue : Unbroken value) : ∀ line ∈ envPair style name value, Feedless line := by
  simp only [envPair, List.forall_mem_cons]
  exact ⟨feedless_keyed (.inr rfl) word_name (feedless_shown style hname.unbroken) 4,
    feedless_keyed (.inl rfl) word_value (feedless_shown style hvalue) 6,
    List.forall_mem_nil _⟩

theorem feedless_nodename {nodename : Text} (hnodename : Unbroken nodename) :
    ∀ line ∈ nodenameLines style nodename, Feedless line := by
  rw [nodenameLines]
  split
  · simp only [List.forall_mem_cons]
    exact ⟨feedless_keyed (.inr rfl) word_name (feedless_shown style (by decide)) 4,
      feedless_keyed (.inl rfl) ⟨by decide, by decide⟩ (by decide) 6,
      feedless_keyed (.inl rfl) ⟨by decide, by decide⟩ (by decide) 8,
      feedless_keyed (.inl rfl) ⟨by decide, by decide⟩ (feedless_shown style (by decide)) 10,
      List.forall_mem_nil _⟩
  · exact feedless_pair (by decide) hnodename

variable {address vipCidr iface nodename : Text}

theorem feedless_env (haddress : Unbroken address) (hcidr : Unbroken vipCidr)
    (hiface : Unbroken iface) (hnodename : Unbroken nodename) :
    ∀ line ∈ envLines style address vipCidr iface nodename, Feedless line := by
  simp only [envLines, List.forall_mem_append]
  exact ⟨feedless_pair (by decide) (by decide), feedless_pair (by decide) (by decide),
    feedless_nodename hnodename, feedless_pair (by decide) hiface,
    feedless_pair (by decide) hcidr, feedless_pair (by decide) (by decide),
    feedless_pair (by decide) (by decide), feedless_pair (by decide) (by decide),
    feedless_pair (by decide) (by decide), feedless_pair (by decide) (by decide),
    feedless_pair (by decide) (by decide), feedless_pair (by decide) (by decide),
    feedless_pair (by decide) (by decide), feedless_pair (by decide) haddress,
    feedless_pair (by decide) (by decide)⟩

theorem lines_pod (haddress : Unbroken address) (hcidr : Unbroken vipCidr)
    (hiface : Unbroken iface) (hnodename : Unbroken nodename) :
    lines (toYaml style (kubeVipPod address vipCidr iface nodename)) =
      frontLines style ++ (envLines style address vipCidr iface nodename ++
        backLines style) := by
  have hall : ∀ line ∈ frontLines style ++ (envLines style address vipCidr iface nodename ++
      backLines style), Feedless line :=
    List.forall_mem_append.mpr ⟨fun line hline => (quiet_front style line hline).feedless,
      List.forall_mem_append.mpr ⟨feedless_env haddress hcidr hiface hnodename,
        fun line hline => (quiet_back style line hline).feedless⟩⟩
  rw [toYaml, fieldLines_pod, lines_unlines (fun line hline => (hall line hline).1)
    fun line hline => (hall line hline).2]

theorem vip6FromManifest_pod (haddress : Inert address) (hcidr : Inert vipCidr)
    (hplain : vip6OfValue vipCidr = none) (hiface : Unbroken iface)
    (hnodename : Unbroken nodename) :
    vip6FromManifest (toYaml style (kubeVipPod address vipCidr iface nodename)) =
      ((if nodename = [] then none else valueShows style nodename).or
        (valueShows style iface)).or (vip6OfValue address) := by
  have hnone : ∀ value : Text, Inert value → vip6OfValue value = none →
      valueShows style value = none := fun value hinert hvalue =>
    (valueShows_inert hinert).trans hvalue
  rw [vip6FromManifest, lines_pod haddress.unbroken hcidr.unbroken hiface hnodename,
    List.findSome?_append, findSome?_quiet (quiet_front style)]
  simp only [envLines, List.findSome?_append, findSome?_pair, findSome?_nodename,
    findSome?_quiet (quiet_back style), hnone "true".toList (by decide) (by decide),
    hnone "6443".toList (by decide) (by decide), hnone vipCidr hcidr hplain,
    hnone "first".toList (by decide) (by decide),
    hnone "kube-system".toList (by decide) (by decide),
    hnone "plndr-cp-lock".toList (by decide) (by decide),
    hnone "15".toList (by decide) (by decide), hnone "10".toList (by decide) (by decide),
    hnone "2".toList (by decide) (by decide), hnone ":2112".toList (by decide) (by decide),
    valueShows_inert haddress, Option.none_or, Option.or_none, Option.or_assoc]

end Manifest

end PertiskKos.Bootstrap
