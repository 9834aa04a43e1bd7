import PertiskKos.Etcd.InitialCluster

/-!
# The static pod manifest of etcd

The manifest is YAML text with one command line argument on each line.  The node
writes it once, when it bootstraps or joins, and from then on edits and reads it
line by line, looking for the text of a flag.
-/

namespace PertiskKos.Etcd

open Strings

/-- What the manifest is made of. -/
structure StaticPodParams where
  advertiseIp : Text
  hostname : Text
  etcdImage : Text
  pkiHostPath : Text
  etcdInitialCluster : Text
  etcdInitialClusterState : Text
  deriving DecidableEq, Repr

def defaultEtcdImage : Text := "registry.k8s.io/etcd:3.5.16-0".toList

def defaultPkiHostPath : Text := "/etc/kubernetes/pki".toList

def clientUrls (address : Text) : Text :=
  https ++ address ++ ":2379,https://127.0.0.1:2379".toList

/-- The command of the etcd container. -/
def etcdCommand (p : StaticPodParams) : List Text :=
  ["etcd".toList,
    "--advertise-client-urls=".toList ++ clientUrls p.advertiseIp,
    "--cert-file=/etc/kubernetes/pki/etcd/server.crt".toList,
    "--client-cert-auth=true".toList,
    "--data-dir=/var/lib/etcd".toList,
    "--initial-advertise-peer-urls=".toList ++ peerUrl p.advertiseIp,
    "--initial-cluster=".toList ++ p.etcdInitialCluster,
    "--initial-cluster-state=".toList ++ p.etcdInitialClusterState,
    "--listen-client-urls=https://0.0.0.0:2379".toList,
    "--listen-metrics-urls=http://127.0.0.1:2381".toList,
    "--listen-peer-urls=https://0.0.0.0:2380".toList,
    "--name=".toList ++ p.hostname,
    "--peer-cert-file=/etc/kubernetes/pki/etcd/peer.crt".toList,
    "--peer-client-cert-auth=true".toList,
    "--peer-key-file=/etc/kubernetes/pki/etcd/peer.key".toList,
    "--peer-trusted-ca-file=/etc/kubernetes/pki/etcd/ca.crt".toList,
    "--snapshot-count=10000".toList,
    "--key-file=/etc/kubernetes/pki/etcd/server.key".toList,
    "--trusted-ca-file=/etc/kubernetes/pki/etcd/ca.crt".toList]

def manifestHead : List Text :=
  ["apiVersion: v1".toList, "kind: Pod".toList, "metadata:".toList,
    "  labels:".toList, "    component: etcd".toList, "    tier: control-plane".toList,
    "  name: etcd".toList, "  namespace: kube-system".toList, "spec:".toList,
    "  containers:".toList, "  - command:".toList]

def manifestTail (etcdImage pkiHostPath : Text) : List Text :=
  ["    image: ".toList ++ etcdImage, "    name: etcd".toList,
    "    volumeMounts:".toList, "    - mountPath: /var/lib/etcd".toList,
    "      name: etcd-data".toList, "    - mountPath: /etc/kubernetes/pki".toList,
    "      name: pki".toList, "  hostNetwork: true".toList,
    "  priorityClassName: system-node-critical".toList, "  volumes:".toList,
    "  - hostPath:".toList, "      path: /var/lib/etcd".toList,
    "      type: DirectoryOrCreate".toList, "    name: etcd-data".toList,
    "  - hostPath:".toList, "      path: ".toList ++ pkiHostPath,
    "      type: Directory".toList, "    name: pki".toList]

/-- An argument as an item of the YAML list. -/
def item (argument : Text) : Text :=
  ' ' :: ' ' :: ' ' :: ' ' :: '-' :: ' ' :: argument

def etcdPodLines (p : StaticPodParams) : List Text :=
  manifestHead ++ (etcdCommand p).map item ++ manifestTail p.etcdImage p.pkiHostPath

/-- The manifest as it is written. -/
def etcdPod (p : StaticPodParams) : Text := unlines (etcdPodLines p)

/-- The value after `flag` on one line. -/
def flagOf (flag line : Text) : Option Text :=
  match cut flag line with
  | none => none
  | some (_, rest) =>
      let value := trimEndMatches ['"', ',', ' '] (trimStartMatches ['"'] (trim rest))
      if value = [] then none else some value

def etcdFlagValue (yaml flag : Text) : Option Text :=
  (lines yaml).findSome? (flagOf flag)

def byteLength (text : Text) : Nat := (text.map Char.utf8Size).sum

def yamlListPrefix (line : Text) : Text × Text :=
  let start := trimStart line
  let indent := List.replicate (byteLength line - byteLength start) ' '
  if startsWith start "- ".toList then (indent, "- ".toList) else (indent, [])

def trailingComma (line : Text) : Text :=
  if endsWith (trimEnd line) [','] then [','] else []

def replaceCommandFlag (yaml flag value : Text) : Text :=
  unlines <| (lines yaml).map fun line =>
    if contains flag line then
      (yamlListPrefix line).1 ++ (yamlListPrefix line).2 ++ flag ++ value ++
        trailingComma line
    else line

def forceNewClusterFlag : Text := "--force-new-cluster".toList

/-- The lines with the flag behind the first `--data-dir`. -/
def insertForceNewCluster : List Text → List Text
  | [] => ["        - --force-new-cluster".toList]
  | line :: rest =>
      if contains "--data-dir=".toList line then
        line :: ((yamlListPrefix line).1 ++ (yamlListPrefix line).2 ++
          forceNewClusterFlag ++ trailingComma line) :: rest
      else line :: insertForceNewCluster rest

def ensureForceNewClusterFlag (yaml : Text) : Text :=
  if (lines yaml).any (contains forceNewClusterFlag) then yaml
  else unlines (insertForceNewCluster (lines yaml))

def isForceNewClusterLine (line : Text) : Bool :=
  trimEndMatches ['"', ',', ' ']
    (trimStartMatches ['"'] (trimStartMatches "- ".toList (trimStart line))) =
    forceNewClusterFlag

def stripForceNewClusterFlag (yaml : Text) : Text :=
  unlines ((lines yaml).filter fun line => !isForceNewClusterLine line)

/-- Rewrite the command so that this member can start alone from its log. -/
def patchEtcdManifestForceNewCluster (yaml name advertiseIp : Text) : Text :=
  let peer := peerUrl advertiseIp
  let out := replaceCommandFlag yaml "--name=".toList name
  let out := replaceCommandFlag out "--advertise-client-urls=".toList
    (clientUrls advertiseIp)
  let out := replaceCommandFlag out "--initial-advertise-peer-urls=".toList peer
  let out := replaceCommandFlag out "--initial-cluster=".toList (entry name peer)
  let out := replaceCommandFlag out "--initial-cluster-state=".toList "new".toList
  ensureForceNewClusterFlag out

def finalizeEtcdManifestAfterForceNew (yaml name advertiseIp : Text) : Text :=
  let peer := peerUrl advertiseIp
  let out := stripForceNewClusterFlag yaml
  let out := replaceCommandFlag out "--initial-cluster=".toList (entry name peer)
  replaceCommandFlag out "--initial-cluster-state=".toList "existing".toList

def listenAll : Text := "--listen-client-urls=https://0.0.0.0:2379".toList

def listenLoopback : Text := "--listen-client-urls=https://127.0.0.1:2379".toList

/-- The manifest with etcd bound to all addresses; `none` when it already is. -/
def ensureEtcdListenAll (raw : Text) : Option Text :=
  if contains listenAll raw && !contains listenLoopback raw then none
  else
    let out := unlines <| (lines raw).map fun line =>
      if contains "--listen-client-urls=".toList line then
        List.replicate (byteLength line - byteLength (trimStart line)) ' ' ++
          listenAll ++ trailingComma line
      else line
    if out = raw then none else some out

def bootstrapParams (name : Hostname) (address : Address) : StaticPodParams where
  advertiseIp := address.text
  hostname := name.text
  etcdImage := defaultEtcdImage
  pkiHostPath := defaultPkiHostPath
  etcdInitialCluster := nodeEntry name address
  etcdInitialClusterState := "new".toList

section Lines

def oneLine (text : Text) : Bool := text.all fun c => c != '\n' && c != '\r'

theorem oneLine_append (left right : Text) :
    oneLine (left ++ right) = (oneLine left && oneLine right) :=
  List.all_append

theorem oneLine_item (argument : Text) : oneLine (item argument) = oneLine argument := by
  have hfront : oneLine "    - ".toList = true := by decide
  have hitem : item argument = "    - ".toList ++ argument := rfl
  rw [hitem, oneLine_append, hfront, Bool.true_and]

theorem oneLine_of_noWhite {text : Text} (htext : ∀ c ∈ text, isWhite c = false) :
    oneLine text = true := by
  rw [oneLine, List.all_eq_true]
  intro c hmem
  have hfeed : c ≠ '\n' := fun h => absurd (htext c hmem) (by rw [h]; decide)
  have hreturn : c ≠ '\r' := fun h => absurd (htext c hmem) (by rw [h]; decide)
  simp [hfeed, hreturn]

theorem oneLine_notMem {line : Text} (hline : oneLine line = true) : '\n' ∉ line ∧ '\r' ∉ line := by
  rw [oneLine, List.all_eq_true] at hline
  exact ⟨fun hfeed => absurd (hline _ hfeed) (by decide),
    fun hreturn => absurd (hline _ hreturn) (by decide)⟩

theorem return_notMem_of_oneLine {texts : List Text} (htexts : texts.all oneLine = true) :
    '\r' ∉ unlines texts :=
  return_notMem_unlines fun line hmem =>
    (oneLine_notMem (List.all_eq_true.mp htexts line hmem)).2

theorem lines_of_oneLine {texts : List Text} (htexts : texts.all oneLine = true) :
    lines (unlines texts) = texts := by
  have hline : ∀ line ∈ texts, '\n' ∉ line ∧ '\r' ∉ line := fun line hmem =>
    oneLine_notMem (List.all_eq_true.mp htexts line hmem)
  exact lines_unlines (fun line hmem => (hline line hmem).1)
    fun line hmem => (hline line hmem).2

theorem manifestTail_oneLine {image path : Text} (himage : oneLine image = true)
    (hpath : oneLine path = true) : (manifestTail image path).all oneLine = true := by
  simp only [manifestTail, List.all_cons, List.all_nil, oneLine_append, himage, hpath]
  repeat rw [String.toList_ofList]
  decide

theorem oneLine_etcdPodLines (name : Hostname) (address : Address) :
    (etcdPodLines (bootstrapParams name address)).all oneLine = true := by
  have hname := oneLine_of_noWhite name.noWhite
  have haddress := oneLine_of_noWhite address.noWhite
  have hentry := oneLine_of_noWhite (nodeEntry_noWhite name address)
  have hhead : manifestHead.all oneLine = true := by
    rw [manifestHead]
    repeat rw [String.toList_ofList]
    decide
  have himage : oneLine defaultEtcdImage = true := by decide
  have hpath : oneLine defaultPkiHostPath = true := by decide
  have htail : (manifestTail (bootstrapParams name address).etcdImage
      (bootstrapParams name address).pkiHostPath).all oneLine = true :=
    manifestTail_oneLine himage hpath
  have hpeer := oneLine_of_noWhite (peerUrl_noWhite address)
  have hclient : oneLine (clientUrls address.text) = true := by
    rw [clientUrls, oneLine_append, oneLine_append, haddress, String.toList_ofList]
    decide
  have hcommand : ((etcdCommand (bootstrapParams name address)).map item).all oneLine =
      true := by
    simp only [etcdCommand, bootstrapParams, List.map_cons, List.map_nil, List.all_cons,
      List.all_nil, oneLine_item, oneLine_append, hname, hpeer, hclient, hentry]
    repeat rw [String.toList_ofList]
    decide
  rw [etcdPodLines, List.all_append, List.all_append, hhead, hcommand, htail]
  rfl

theorem lines_etcdPod (name : Hostname) (address : Address) :
    lines (etcdPod (bootstrapParams name address)) =
      etcdPodLines (bootstrapParams name address) :=
  lines_of_oneLine (oneLine_etcdPodLines name address)

end Lines

section Reading

theorem flagOf_eq_none {flag line : Text} (hnot : ¬ flag <:+: line) :
    flagOf flag line = none := by
  rw [flagOf, cut_eq_none_iff.mpr hnot]

/-- A flag is not on a line with one equals sign that has something else before it. -/
theorem not_occurs_of_left {flag left right : Text} (hflag : '=' ∉ flag)
    (hleft : '=' ∉ left) (hright : '=' ∉ right) (hother : ¬ flag <:+ left)
    (value : Text) : ¬ (flag ++ '=' :: value) <:+: (left ++ '=' :: right) := by
  intro hoccurs
  rcases infix_separator hflag hleft hoccurs with hsuffix | hbehind
  · exact hother hsuffix
  · exact hright (hbehind.subset (by simp))

/-- A value without white space and quotes is read back, if it does not end in a
comma. -/
theorem flagOf_item_last {flag value : Text} (hcut : cut flag (item (flag ++ value)) =
      some ("    - ".toList, value))
    (hne : value ≠ []) (hvalue : ∀ c ∈ value, isWhite c = false ∧ c ≠ '"')
    (hcomma : value.getLast? ≠ some ',') :
    flagOf flag (item (flag ++ value)) = some value := by
  have htrim : trim value = value := trim_of_noWhite fun c hmem => (hvalue c hmem).1
  have hquote : trimStartMatches ['"'] value = value := by
    apply trimStartMatches_of_not_prefix
    exact fun hfront => (hvalue '"' (hfront.subset List.mem_cons_self)).2 rfl
  have hlast : trimEndMatches ['"', ',', ' '] value = value := by
    refine trimEndMatches_of_last fun c hc hend => ?_
    obtain ⟨hwhite, hquoted⟩ := hvalue c (List.mem_of_getLast? hc)
    simp only [List.mem_cons, List.not_mem_nil, or_false] at hend
    rcases hend with rfl | rfl | rfl
    · exact hquoted rfl
    · exact hcomma hc
    · exact absurd hwhite (by decide)
  simp only [flagOf, hcut, htrim, hquote, hlast, if_neg hne]

/-- A value without white space, quotes and commas is read back. -/
theorem flagOf_item {flag value : Text} (hcut : cut flag (item (flag ++ value)) =
      some ("    - ".toList, value))
    (hne : value ≠ [])
    (hvalue : ∀ c ∈ value, isWhite c = false ∧ c ≠ '"' ∧ c ≠ ',') :
    flagOf flag (item (flag ++ value)) = some value := by
  apply flagOf_item_last hcut hne fun c hc => ⟨(hvalue c hc).1, (hvalue c hc).2.1⟩
  intro hlast
  exact (hvalue ',' (List.mem_of_getLast? hlast)).2.2 rfl

/-- A flag is read off the first line it is found on. -/
theorem etcdFlagValue_of_line {flag value line : Text} {before after : List Text}
    (hlines : (before ++ [line]).all oneLine = true)
    (hbefore : ∀ other ∈ before, flagOf flag other = none)
    (hline : flagOf flag line = some value) :
    etcdFlagValue (unlines (before ++ line :: after)) flag = some value := by
  have hnewline : ∀ text ∈ before ++ [line], '\n' ∉ text ∧ '\r' ∉ text := fun text htext =>
    oneLine_notMem (List.all_eq_true.mp hlines text htext)
  have hsplit : unlines (before ++ line :: after) =
      unlines (before ++ [line]) ++ unlines after := by
    simp [unlines]
  rw [etcdFlagValue, hsplit,
    lines_unlines_append (fun text h => (hnewline text h).1) (fun text h => (hnewline text h).2),
    List.findSome?_append, List.findSome?_append,
    List.findSome?_eq_none_iff.mpr hbefore, List.findSome?_singleton, hline]
  rfl

variable (name : Hostname) (address : Address)

theorem equals_notMem_peerUrl : '=' ∉ peerUrl address.text :=
  address.notMem_peerUrl (by decide) (by decide) (by decide)

theorem quote_notMem_peerUrl : '"' ∉ peerUrl address.text :=
  address.notMem_peerUrl (by decide) (by decide) (by decide)

theorem equals_notMem_clientUrls : '=' ∉ clientUrls address.text := by
  have hscheme : '=' ∉ https := by decide
  have hport : '=' ∉ ":2379,https://127.0.0.1:2379".toList := by decide
  have haddress : '=' ∉ address.text := address.notMem (by decide) (by decide)
  simp only [clientUrls, List.mem_append, not_or]
  exact ⟨⟨hscheme, haddress⟩, hport⟩

theorem not_occurs_clientUrls {flag : Text} (hflag : '=' ∉ flag)
    (hother : ¬ flag <:+ "    - --advertise-client-urls".toList) (value : Text) :
    ¬ (flag ++ '=' :: value) <:+:
      item ("--advertise-client-urls=".toList ++ clientUrls address.text) :=
  not_occurs_of_left hflag (by decide) (equals_notMem_clientUrls address) hother value

theorem not_occurs_peerUrls {flag : Text} (hflag : '=' ∉ flag)
    (hother : ¬ flag <:+ "    - --initial-advertise-peer-urls".toList) (value : Text) :
    ¬ (flag ++ '=' :: value) <:+:
      item ("--initial-advertise-peer-urls=".toList ++ peerUrl address.text) :=
  not_occurs_of_left hflag (by decide) (equals_notMem_peerUrl address) hother value

theorem not_occurs_initialCluster {flag : Text} (hflag : '=' ∉ flag)
    (hother : ¬ flag <:+ "    - --initial-cluster".toList)
    (hname : ¬ flag <:+ name.text) (value : Text) :
    ¬ (flag ++ '=' :: value) <:+:
      item ("--initial-cluster=".toList ++ nodeEntry name address) := by
  have hleft : '=' ∉ "    - --initial-cluster".toList := by decide
  intro hoccurs
  rcases infix_separator hflag hleft hoccurs with hsuffix | hbehind
  · exact hother hsuffix
  · exact not_occurs_of_left hflag name.equals_notMem (equals_notMem_peerUrl address)
      hname value hbehind

theorem equals_notMem_manifestHead : ∀ line ∈ manifestHead, '=' ∉ line := by
  rw [manifestHead]
  repeat rw [String.toList_ofList]
  decide

theorem nodeEntry_value (hquote : '"' ∉ name.text) :
    ∀ c ∈ nodeEntry name address, isWhite c = false ∧ c ≠ '"' ∧ c ≠ ',' := by
  have hurl := quote_notMem_peerUrl address
  have hentry : '"' ∉ nodeEntry name address := by
    simp only [nodeEntry, entry, List.mem_append, List.mem_cons, not_or]
    exact ⟨hquote, by decide, hurl⟩
  intro c hmem
  refine ⟨nodeEntry_noWhite name address c hmem, ?_, ?_⟩
  · rintro rfl
    exact hentry hmem
  · rintro rfl
    exact comma_notMem_nodeEntry name address hmem

theorem not_occurs_name {flag : Text} (hflag : '=' ∉ flag)
    (hother : ¬ flag <:+ "    - --name".toList) (value : Text) :
    ¬ (flag ++ '=' :: value) <:+: item ("--name=".toList ++ name.text) :=
  not_occurs_of_left hflag (by decide) name.equals_notMem hother value

theorem equals_notMem_manifestTail {image path : Text} (himage : '=' ∉ image)
    (hpath : '=' ∉ path) : ∀ line ∈ manifestTail image path, '=' ∉ line := by
  simp only [manifestTail, List.forall_mem_cons, List.mem_append, not_or, himage, hpath]
  repeat rw [String.toList_ofList]
  decide

end Reading

end PertiskKos.Etcd
