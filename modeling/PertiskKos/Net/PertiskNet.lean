import PertiskKos.Library.Margins
import PertiskKos.Net.ProviderNet

/-!
# The record on a provider's disk

A provider writes a node's address on a disk as a line `PERTISK-NET` and lines `KEY=VALUE`.
The node looks for these letters in the bytes of the disk, reads the text from there to the
first zero byte, and lets every line say what it sets.
-/

namespace PertiskKos.Net.PertiskNet

open Strings Lines Utf8

/-! ## Reading a record -/

section Reader

def magic : Text := "PERTISK-NET".toList

def lowerByte (byte : UInt8) : UInt8 :=
  if 65 ≤ byte.toNat ∧ byte.toNat ≤ 90 then byte + 32 else byte

def eqIgnoreAsciiCase (left right : Text) : Bool :=
  left.map Char.toLower = right.map Char.toLower

/-- The magic is in front of these bytes, in whatever case. -/
def magicHere (bytes : Bytes) : Bool :=
  (bytes.take (encode magic).length).map lowerByte = (encode magic).map lowerByte

/-- What a line can set. -/
inductive Setting where
  | address
  | gateway
  | interface
  | nameserver
  | dualStack
  | ipv6
  deriving DecidableEq, Repr

def settingOf (key : Text) : Option Setting :=
  if key ∈ ["IPV4".toList, "ADDRESS".toList, "IP".toList] then some .address
  else if key ∈ ["GATEWAY".toList, "GW".toList] then some .gateway
  else if key ∈ ["INTERFACE".toList, "IFACE".toList] then some .interface
  else if key ∈ ["NAMESERVER".toList, "DNS".toList] then some .nameserver
  else if key ∈ ["DUAL_STACK".toList, "DUALSTACK".toList] then some .dualStack
  else if key = "IPV6".toList then some .ipv6
  else none

/-- What the lines have said so far. -/
structure Reading where
  ipv4 : Option Text
  gateway : Option Text
  iface : Text
  nameservers : List Text
  dualStack : Bool

def Reading.start : Reading :=
  { ipv4 := none, gateway := none, iface := "eth0".toList, nameservers := [],
    dualStack := false }

def saysDualStack (value : Text) : Bool :=
  value.map Char.toLower ∈ ["1".toList, "true".toList, "yes".toList, "on".toList]

def asksIpv6 (value : Text) : Bool :=
  value.map Char.toLower ∈
    ["slaac".toList, "auto".toList, "dual".toList, "1".toList, "true".toList]

def Reading.set (reading : Reading) (setting : Setting) (value : Text) : Reading :=
  match setting with
  | .address => { reading with ipv4 := some value }
  | .gateway => { reading with gateway := some value }
  | .interface => { reading with iface := value }
  | .nameserver => { reading with nameservers := reading.nameservers ++ [value] }
  | .dualStack => { reading with dualStack := saysDualStack value }
  | .ipv6 => if asksIpv6 value then { reading with dualStack := true } else reading

def readLine (reading : Reading) (line : Text) : Reading :=
  if startsWith line ['#'] then reading
  else
    match splitOnce '=' line with
    | none => reading
    | some (k, v) =>
        if trim v = [] then reading
        else
          match settingOf ((trim k).map Char.toUpper) with
          | none => reading
          | some setting => reading.set setting (trim v)

def withPrefix (ipv4 : Text) : Text :=
  if '/' ∈ ipv4 then ipv4 else ipv4 ++ "/24".toList

def netcfg (ipv4 : Text) (reading : Reading) : ProviderNetcfg where
  network :=
    { hostname := none
      interfaces := [{ interface := reading.iface, dhcp := false, addresses := [withPrefix ipv4],
                       gateway := reading.gateway }]
      nameservers := reading.nameservers }
  dualStack := reading.dualStack
  single := ⟨_, _, _, rfl⟩

def Reading.finish (reading : Reading) : Option ProviderNetcfg :=
  match reading.ipv4 with
  | none => none
  | some ipv4 => if '.' ∈ ipv4 then some (netcfg ipv4 reading) else none

def parseLines : List Text → Option ProviderNetcfg
  | [] => none
  | first :: rest =>
      if eqIgnoreAsciiCase first magic then (rest.foldl readLine .start).finish else none

/-- Where the magic is, or the first byte if it is nowhere. -/
def findMagic (window : Bytes) : Nat := (window.tails.findIdx? magicHere).getD 0

/-- The text of a record: up to a zero byte, and no more than 4096 bytes. -/
def cutText (slice : Bytes) : Bytes := (slice.takeWhile (· ≠ 0)).take 4096

def parsePertiskNet (bytes : Bytes) : Option ProviderNetcfg :=
  let window := bytes.take 65536
  match decode (cutText (window.drop (findMagic window))) with
  | none => none
  | some text => parseLines (shown (lines text))

end Reader

/-! ## Records -/

section Records

/-- The keys of a setting. -/
def Setting.names : Setting → List Text
  | address => ["IPV4".toList, "ADDRESS".toList, "IP".toList]
  | gateway => ["GATEWAY".toList, "GW".toList]
  | interface => ["INTERFACE".toList, "IFACE".toList]
  | nameserver => ["NAMESERVER".toList, "DNS".toList]
  | dualStack => ["DUAL_STACK".toList, "DUALSTACK".toList]
  | ipv6 => ["IPV6".toList]

/-- A line `KEY=VALUE`, its key in any case and with white space around the key and the
value. -/
structure Statement where
  setting : Setting
  name : Text
  value : Text
  named : (trim name).map Char.toUpper ∈ setting.names

def Statement.text (statement : Statement) : Text := statement.name ++ '=' :: statement.value

inductive Line where
  | keyed (statement : Statement)
  | other (text : Text) (silent : ∀ statement : Statement, text ≠ statement.text)

namespace Line

def text : Line → Text
  | keyed statement => statement.text
  | other text _ => text

/-- The setting and the value that a line gives it. -/
def said : Line → Option (Setting × Text)
  | keyed statement =>
      if trim statement.value = [] then none else some (statement.setting, trim statement.value)
  | other _ _ => none

end Line

/-- Whether a line turns IPv6 on or off. -/
def dualStackOf : Setting × Text → Option Bool
  | (.dualStack, value) => some (saysDualStack value)
  | (.ipv6, value) => if asksIpv6 value then some true else none
  | _ => none

/-- All values that are given to a setting, in their order. -/
def values (setting : Setting) (said : List (Setting × Text)) : List Text :=
  (said.filter (·.1 = setting)).map Prod.snd

/-- A record: the magic and lines, the last of which may be empty, as it is where the text
ends with a line end.  A carriage return in front of a line end is white space. -/
structure Record where
  head : Text
  head_eq : eqIgnoreAsciiCase head magic = true
  gap : Text
  gap_white : White gap
  gap_feed : '\n' ∉ gap
  lines : List Line
  lines_feed : ∀ line ∈ lines, '\n' ∉ line.text
  /-- The address that the last line about it gives. -/
  address : Text
  address_eq : (values .address (lines.filterMap Line.said)).getLast? = some address
  address_dotted : '.' ∈ address

namespace Record

variable (record : Record)

def pieces : List Text := (record.head ++ record.gap) :: record.lines.map Line.text

def text : Text := joinWith '\n' record.pieces

def said : List (Setting × Text) := record.lines.filterMap Line.said

/-- What the record sets: of an address, a gateway, an interface and IPv6 the last that it
gives, and all of the name servers. -/
def settings : ProviderNetcfg where
  network :=
    { hostname := none
      interfaces :=
        [{ interface := (values .interface record.said).getLast?.getD "eth0".toList
           dhcp := false
           addresses := [withPrefix record.address]
           gateway := (values .gateway record.said).getLast? }]
      nameservers := values .nameserver record.said }
  dualStack := (record.said.filterMap dualStackOf).getLast?.getD false
  single := ⟨_, _, _, rfl⟩

end Record

/-- A record in an image, between the bytes in front of it and those behind. -/
structure Placed (record : Record) (image before behind : Bytes) : Prop where
  image_eq : image = before ++ (encode record.text ++ behind)
  plain : Char.ofNat 0 ∉ record.text
  short : (encode record.text).length ≤ 4096

/-- Filling bytes, and then the end, a zero byte or the limit of 4096 bytes. -/
def Filled (fillers : List UInt8) (record : Record) (behind : Bytes) : Prop :=
  ∃ fill rest, behind = fill ++ rest ∧ (∀ byte ∈ fill, byte ∈ fillers) ∧
    (rest = [] ∨ rest.head? = some 0 ∨ 4096 ≤ (encode record.text).length + fill.length)

end Records

/-! ## What the lines say -/

section Hearing

theorem settingOf_eq_some_iff {key : Text} {setting : Setting} :
    settingOf key = some setting ↔ key ∈ setting.names := by
  constructor
  · intro hkey
    rw [settingOf] at hkey
    split_ifs at hkey with h1 h2 h3 h4 h5 h6 <;> obtain rfl := Option.some.inj hkey
    · exact h1
    · exact h2
    · exact h3
    · exact h4
    · exact h5
    · exact List.mem_singleton.mpr h6
  · intro hmem
    cases setting <;> simp only [Setting.names, List.mem_cons, List.not_mem_nil, or_false] at hmem
    · rcases hmem with rfl | rfl | rfl <;> rfl
    · rcases hmem with rfl | rfl <;> rfl
    · rcases hmem with rfl | rfl <;> rfl
    · rcases hmem with rfl | rfl <;> rfl
    · rcases hmem with rfl | rfl <;> rfl
    · rw [hmem]
      rfl

theorem equals_notMem_name (statement : Statement) : '=' ∉ statement.name := by
  intro hmem
  have htrim : '=' ∈ trim statement.name := by
    obtain ⟨front, back, hfront, hback, hname⟩ := exists_margins statement.name
    rw [hname, List.mem_append, List.mem_append] at hmem
    rcases hmem with h | h | h
    · exact absurd (hfront _ h) (by decide)
    · exact h
    · exact absurd (hback _ h) (by decide)
  have hupper : '=' ∈ (trim statement.name).map Char.toUpper :=
    List.mem_map.mpr ⟨'=', htrim, rfl⟩
  have hnone : ∀ setting : Setting, ∀ name ∈ setting.names, '=' ∉ name := by
    intro setting
    cases setting <;> decide
  exact hnone _ _ statement.named hupper

theorem hash_notMem_names :
    ∀ setting : Setting, ∀ name ∈ setting.names, name.head? ≠ some '#' := by
  intro setting
  cases setting <;> decide

/-- A trimmed line that begins with a hash has no key. -/
theorem startsWith_hash (statement : Statement) :
    startsWith (trim statement.text) ['#'] = false := by
  have hhead := hash_notMem_names _ _ statement.named
  rw [Statement.text, trim_separator (by decide)]
  by_contra hstarts
  rw [Bool.not_eq_false, startsWith, List.isPrefixOf_iff_prefix] at hstarts
  cases hname : trimStart statement.name with
  | nil =>
      rw [hname] at hstarts
      exact absurd (List.cons_prefix_cons.mp hstarts).1 (by decide)
  | cons first rest =>
      rw [hname] at hstarts
      obtain rfl := (List.cons_prefix_cons.mp hstarts).1
      have hkey : trim statement.name = trim ([] ++ '#' :: rest) := by
        rw [← trim_trimStart, hname, List.nil_append]
      rw [trim_separator (by decide)] at hkey
      rw [hkey] at hhead
      exact hhead rfl

theorem readLine_keyed (reading : Reading) (statement : Statement) :
    readLine reading (trim statement.text) =
      if trim statement.value = [] then reading
      else reading.set statement.setting (trim statement.value) := by
  have hnot : '=' ∉ trimStart statement.name := fun h =>
    equals_notMem_name statement ((List.dropWhile_sublist _).subset h)
  have hsplit : splitOnce '=' (trim statement.text) =
      some (trimStart statement.name, trimEnd statement.value) := by
    rw [Statement.text, trim_separator (by decide), splitOnce_append hnot]
  rw [readLine, startsWith_hash, hsplit]
  simp only [Bool.false_eq_true, if_false, trim_trimStart, trim_trimEnd,
    settingOf_eq_some_iff.mpr statement.named]

theorem readLine_other (reading : Reading) {text : Text}
    (hsilent : ∀ statement : Statement, text ≠ statement.text) :
    readLine reading (trim text) = reading := by
  rw [readLine]
  split
  · rfl
  rcases splitOnce_cases '=' (trim text) with ⟨-, hnone⟩ | ⟨k, v, -, htext, hsome⟩
  · rw [hnone]
  rw [hsome]
  simp only
  split
  · rfl
  cases hkey : settingOf ((trim k).map Char.toUpper) with
  | none => rfl
  | some setting =>
      obtain ⟨front, back, hfront, -, hmargins⟩ := exists_margins text
      rw [← trim_white_append hfront] at hkey
      refine absurd ?_ (hsilent ⟨setting, front ++ k, v ++ back, settingOf_eq_some_iff.mp hkey⟩)
      rw [hmargins, htext]
      simp [Statement.text]

def Reading.hear (reading : Reading) (said : Setting × Text) : Reading :=
  reading.set said.1 said.2

theorem readLine_text (reading : Reading) (line : Line) :
    readLine reading (trim line.text) = line.said.toList.foldl Reading.hear reading := by
  cases line with
  | keyed statement =>
      rw [Line.text, readLine_keyed, Line.said]
      split <;> rfl
  | other text silent => exact readLine_other reading silent

theorem readLine_lines (reading : Reading) (lines : List Line) :
    (shown (lines.map Line.text)).foldl readLine reading =
      (lines.filterMap Line.said).foldl Reading.hear reading := by
  induction lines generalizing reading with
  | nil => rfl
  | cons line lines ih =>
      have hline := readLine_text reading line
      rw [List.map_cons, shown_cons, List.foldl_append, ih, List.filterMap_cons]
      have hfirst :
          (if trim line.text = [] then [] else [trim line.text]).foldl readLine reading =
            line.said.toList.foldl Reading.hear reading := by
        rw [← hline]
        split
        · next hnil => rw [hnil]; rfl
        · rfl
      rw [hfirst]
      cases line.said <;> rfl

theorem values_concat (setting : Setting) (said : List (Setting × Text)) (last : Setting × Text) :
    values setting (said ++ [last]) =
      values setting said ++ if last.1 = setting then [last.2] else [] := by
  rw [values, values, List.filter_append, List.map_append]
  by_cases hsame : last.1 = setting <;> simp [hsame]

/-- What the loop over the lines has at its end. -/
theorem hear_all (said : List (Setting × Text)) :
    said.foldl Reading.hear .start =
      { ipv4 := (values .address said).getLast?
        gateway := (values .gateway said).getLast?
        iface := (values .interface said).getLast?.getD "eth0".toList
        nameservers := values .nameserver said
        dualStack := (said.filterMap dualStackOf).getLast?.getD false } := by
  induction said using List.reverseRecOn with
  | nil => rfl
  | append_singleton said last ih =>
      obtain ⟨setting, value⟩ := last
      rw [List.foldl_append, ih]
      simp only [List.foldl_cons, List.foldl_nil, Reading.hear, values_concat]
      cases setting
      case ipv6 =>
        by_cases hasks : asksIpv6 value = true <;> simp [Reading.set, dualStackOf, hasks]
      all_goals simp [Reading.set, dualStackOf]

end Hearing

end PertiskKos.Net.PertiskNet
