import PertiskKos.Etcd.ListenAll

/-!
# The flags of the etcd command, line by line

What `replaceCommandFlag` makes of a line with a flag: where the flag is found again, which
other flags are found on the line, and what is read back.  A member name that ends in the stem
of another flag makes the entry of `--initial-cluster=` look like that flag.
-/

namespace PertiskKos.Etcd

open Strings Lines

/-- The flags that are written anew, in that order. -/
inductive CommandFlag
  | name | clientUrls | peerUrls | cluster | state
  deriving DecidableEq, Repr

namespace CommandFlag

def stem : CommandFlag → Text
  | name => "--name".toList
  | clientUrls => "--advertise-client-urls".toList
  | peerUrls => "--initial-advertise-peer-urls".toList
  | cluster => "--initial-cluster".toList
  | state => "--initial-cluster-state".toList

def text (flag : CommandFlag) : Text := flag.stem ++ ['=']

/-- What is written behind the flag. -/
def value (name ip clusterState : Text) : CommandFlag → Text
  | .name => name
  | .clientUrls => Etcd.clientUrls ip
  | .peerUrls => peerUrl ip
  | .cluster => entry name (peerUrl ip)
  | .state => clusterState

end CommandFlag

/-- An IP address as it stands in a URL. -/
structure IpText where
  text : Text
  chars : ∀ c ∈ text, c.isAlphanum = true ∨ c ∈ ['.', ':', '[', ']', '%']

/-- The item that `replaceCommandFlag` makes of a line. -/
def written (flag value line : Text) : Text :=
  (yamlListPrefix line).1 ++ (yamlListPrefix line).2 ++ flag ++ value ++ trailingComma line

def setFlag (flag value line : Text) : Text :=
  if contains flag line then written flag value line else line

def setFlags (values : CommandFlag → Text) (flags : List CommandFlag) (line : Text) : Text :=
  flags.foldl (fun line flag => setFlag flag.text (values flag) line) line

def replaceFlags (values : CommandFlag → Text) (flags : List CommandFlag) (yaml : Text) : Text :=
  flags.foldl (fun yaml flag => replaceCommandFlag yaml flag.text (values flag)) yaml

def aloneFlags : List CommandFlag := [.name, .clientUrls, .peerUrls, .cluster, .state]

def existingFlags : List CommandFlag := [.cluster, .state]

def newState : Text := "new".toList

def existingState : Text := "existing".toList

theorem flag_texts : CommandFlag.name.text = "--name=".toList ∧
    CommandFlag.clientUrls.text = "--advertise-client-urls=".toList ∧
    CommandFlag.peerUrls.text = "--initial-advertise-peer-urls=".toList ∧
    CommandFlag.cluster.text = "--initial-cluster=".toList ∧
    CommandFlag.state.text = "--initial-cluster-state=".toList := by decide

theorem patch_eq (yaml name ip : Text) :
    patchEtcdManifestForceNewCluster yaml name ip =
      ensureForceNewClusterFlag
        (replaceFlags (CommandFlag.value name ip newState) aloneFlags yaml) := by
  obtain ⟨hname, hclient, hpeer, hcluster, hstate⟩ := flag_texts
  simp only [replaceFlags, aloneFlags, List.foldl_cons, List.foldl_nil, hname, hclient, hpeer,
    hcluster, hstate, CommandFlag.value, newState, patchEtcdManifestForceNewCluster]

theorem finalize_eq (yaml name ip : Text) :
    finalizeEtcdManifestAfterForceNew yaml name ip =
      replaceFlags (CommandFlag.value name ip existingState) existingFlags
        (stripForceNewClusterFlag yaml) := by
  have hcluster := flag_texts.2.2.2.1
  have hstate := flag_texts.2.2.2.2
  rw [finalizeEtcdManifestAfterForceNew, replaceFlags, existingFlags, List.foldl_cons,
    List.foldl_cons, List.foldl_nil, hcluster, hstate]
  rfl

section Written

variable {flag other : CommandFlag} {line value : Text}

theorem equals_notMem_stem : ∀ flag : CommandFlag, '=' ∉ flag.stem := by
  intro flag
  cases flag <;> decide

/-- No stem ends in another one. -/
theorem stem_suffix (hsuffix : other.stem <:+ flag.stem) : other = flag := by
  have hstems : ∀ left right : CommandFlag, left.stem <:+ right.stem → left = right := by
    intro left right
    cases left <;> cases right <;> decide
  exact hstems other flag hsuffix

theorem stem_suffix_append {front : Text} (hsuffix : other.stem <:+ front ++ flag.stem) :
    other = flag := by
  rcases List.suffix_or_suffix_of_suffix hsuffix (List.suffix_append front flag.stem) with h | h
  · exact stem_suffix h
  · exact (stem_suffix h).symm

/-- The space and the marker in front of an item. -/
theorem yamlListPrefix_eq (line : Text) :
    ∃ indent marker, yamlListPrefix line = (List.replicate indent ' ', marker) ∧
      (marker = [] ∨ marker = "- ".toList) := by
  rw [yamlListPrefix]
  split
  · exact ⟨_, _, rfl, .inr rfl⟩
  · exact ⟨_, _, rfl, .inl rfl⟩

theorem notMem_prefix {c : Char} (hspace : c ≠ ' ') (hdash : c ≠ '-') (line : Text) :
    c ∉ (yamlListPrefix line).1 ++ (yamlListPrefix line).2 := by
  obtain ⟨indent, marker, hmarked, hmarker⟩ := yamlListPrefix_eq line
  have hitem : "- ".toList = ['-', ' '] := rfl
  rw [hmarked]
  rcases hmarker with rfl | rfl <;> simp [hspace, hdash, hitem]

theorem notMem_written {c : Char} (hspace : c ≠ ' ') (hdash : c ≠ '-') (hcomma : c ≠ ',')
    {flag : Text} (hflag : c ∉ flag) (hvalue : c ∉ value) (line : Text) :
    c ∉ written flag value line := by
  have hfront := notMem_prefix hspace hdash line
  have hback := notMem_trailingComma hcomma line
  simp only [List.mem_append, not_or] at hfront
  simp only [written, List.mem_append, not_or]
  exact ⟨⟨⟨hfront, hflag⟩, hvalue⟩, hback⟩

theorem written_eq (flag : CommandFlag) (value line : Text) :
    written flag.text value line =
      ((yamlListPrefix line).1 ++ (yamlListPrefix line).2 ++ flag.stem) ++
        '=' :: (value ++ trailingComma line) := by
  simp [written, CommandFlag.text]

theorem flag_infix_written : flag.text <:+: written flag.text value line := by
  rw [written]
  refine ⟨(yamlListPrefix line).1 ++ (yamlListPrefix line).2, value ++ trailingComma line, ?_⟩
  simp only [List.append_assoc]

theorem equals_notMem_tail (hvalue : '=' ∉ value) : '=' ∉ value ++ trailingComma line := by
  have hcomma := notMem_trailingComma (c := '=') (by decide) line
  simp [hvalue, hcomma]

/-- An item has its own flag and those in its value. -/
theorem infix_written_cases (hoccurs : other.text <:+: written flag.text value line) :
    other = flag ∨ other.text <:+: value ++ trailingComma line := by
  rw [written_eq] at hoccurs
  have hleft : '=' ∉ (yamlListPrefix line).1 ++ (yamlListPrefix line).2 ++ flag.stem := by
    have hfront := notMem_prefix (c := '=') (by decide) (by decide) line
    rw [List.mem_append, not_or]
    exact ⟨hfront, equals_notMem_stem flag⟩
  rcases infix_separator (equals_notMem_stem other) hleft hoccurs with hstem | hbehind
  · exact .inl (stem_suffix_append hstem)
  · exact .inr hbehind

theorem infix_written_iff (hvalue : '=' ∉ value) :
    other.text <:+: written flag.text value line ↔ other = flag := by
  constructor
  · intro hoccurs
    rcases infix_written_cases hoccurs with hsame | hbehind
    · exact hsame
    · exact absurd (hbehind.subset (by simp [CommandFlag.text])) (equals_notMem_tail hvalue)
  · rintro rfl
    exact flag_infix_written

/-- The entry of the cluster has one more equals sign, behind the name. -/
theorem infix_cluster_iff {name url : Text} (hname : '=' ∉ name) (hurl : '=' ∉ url) :
    other.text <:+: written CommandFlag.cluster.text (entry name url) line ↔
      other = .cluster ∨ other.stem <:+ name := by
  have htail : entry name url ++ trailingComma line =
      name ++ '=' :: (url ++ trailingComma line) := by simp [entry]
  constructor
  · intro hoccurs
    rcases infix_written_cases hoccurs with hsame | hbehind
    · exact .inl hsame
    · rw [htail] at hbehind
      rcases infix_separator (equals_notMem_stem other) hname hbehind with hstem | hlast
      · exact .inr hstem
      · exact absurd (hlast.subset (by simp)) (equals_notMem_tail hurl)
  · rintro (rfl | ⟨front, rfl⟩)
    · exact flag_infix_written
    · rw [written_eq, htail]
      refine List.infix_append_of_infix_right ?_
      exact ⟨'=' :: front, url ++ trailingComma line, by simp [CommandFlag.text]⟩

end Written

section Again

variable {flag : CommandFlag} {line value : Text}

theorem trimStart_replicate (indent : Nat) {c : Char} (hc : isWhite c = false) (rest : Text) :
    trimStart (List.replicate indent ' ' ++ c :: rest) = c :: rest := by
  have hspace : ∀ d ∈ List.replicate indent ' ', isWhite d = true := by
    intro d hd
    rw [List.eq_of_mem_replicate hd]
    decide
  rw [trimStart, List.dropWhile_append_of_pos hspace, List.dropWhile_cons, hc]
  rfl

theorem byteLength_replicate (indent : Nat) (rest : Text) :
    byteLength (List.replicate indent ' ' ++ rest) = indent + byteLength rest := by
  have hspace : Char.utf8Size ' ' = 1 := by decide
  simp [byteLength, hspace]

/-- Space and marker are found again in front of what starts with two dashes. -/
theorem yamlListPrefix_of_item (indent : Nat) {marker : Text}
    (hmarker : marker = [] ∨ marker = "- ".toList) (rest : Text) :
    yamlListPrefix (List.replicate indent ' ' ++ marker ++ '-' :: '-' :: rest) =
      (List.replicate indent ' ', marker) := by
  have hdash : isWhite '-' = false := by decide
  rcases hmarker with rfl | rfl
  · have hplain : startsWith ('-' :: '-' :: rest) "- ".toList = false := rfl
    rw [List.append_nil, yamlListPrefix, trimStart_replicate indent hdash,
      byteLength_replicate, Nat.add_sub_cancel]
    simp only [hplain, Bool.false_eq_true, if_false]
  · have hitem : List.replicate indent ' ' ++ "- ".toList ++ '-' :: '-' :: rest =
        List.replicate indent ' ' ++ '-' :: (' ' :: '-' :: '-' :: rest) := by
      rw [List.append_assoc]
      rfl
    have hstarts : startsWith ('-' :: ' ' :: '-' :: '-' :: rest) "- ".toList = true := by
      simp [startsWith]
    rw [hitem, yamlListPrefix, trimStart_replicate indent hdash, byteLength_replicate,
      Nat.add_sub_cancel]
    simp only [hstarts, if_true]

theorem stem_dashes (flag : CommandFlag) : ∃ rest, flag.stem = '-' :: '-' :: rest := by
  cases flag <;> exact ⟨_, rfl⟩

theorem yamlListPrefix_written : yamlListPrefix (written flag.text value line) =
    yamlListPrefix line := by
  obtain ⟨indent, marker, hmarked, hmarker⟩ := yamlListPrefix_eq line
  obtain ⟨rest, hstem⟩ := stem_dashes flag
  have hwritten : written flag.text value line = List.replicate indent ' ' ++ marker ++
      '-' :: '-' :: (rest ++ '=' :: (value ++ trailingComma line)) := by
    rw [written_eq, hmarked, hstem]
    simp
  rw [hwritten, yamlListPrefix_of_item indent hmarker, hmarked]

/-- A value that can stand at the end of a line. -/
def EndsPlain (value : Text) : Prop :=
  ∃ c, value.getLast? = some c ∧ isWhite c = false ∧ c ≠ ','

theorem trailingComma_written (hvalue : EndsPlain value) {flag : Text} :
    trailingComma (written flag value line) = trailingComma line := by
  obtain ⟨c, hlast, hwhite, hcomma⟩ := hvalue
  rcases trailingComma_cases line with hnone | hsome
  · have hend : (written flag value line).getLast? = some c := by
      rw [written, hnone, List.append_nil, List.getLast?_append, hlast]
      rfl
    have hnot : endsWith (written flag value line) [','] = false := by
      rw [endsWith, Bool.eq_false_iff, Ne, List.isSuffixOf_iff_suffix]
      rintro ⟨front, hfront⟩
      rw [← hfront, List.getLast?_append] at hend
      exact hcomma (Option.some.inj hend).symm
    rw [trailingComma, trimEnd_of_last (by simpa [hend] using hwhite), hnot, hnone]
    rfl
  · have hend : (written flag value line).getLast? = some ',' := by
      rw [written, hsome, List.getLast?_append]
      rfl
    have hcommas : endsWith (written flag value line) [','] = true := by
      rw [endsWith, List.isSuffixOf_iff_suffix, written, hsome]
      exact List.suffix_append _ _
    rw [trailingComma, trimEnd_of_last (by simp [hend]; decide), hcommas, hsome]
    rfl

/-- What is written over an item is what would have been written over its line. -/
theorem written_written (hvalue : EndsPlain value) {later : Text} :
    written flag.text later (written flag.text value line) = written flag.text later line := by
  rw [written, yamlListPrefix_written, trailingComma_written hvalue, written]

end Again

section Reading

variable {flag : CommandFlag} {line value : Text}

theorem mem_dropWhile_of_mem {test : Char → Bool} {text : Text} {c : Char} (hmem : c ∈ text)
    (hc : test c = false) : c ∈ text.dropWhile test := by
  rw [← List.takeWhile_append_dropWhile (p := test) (l := text), List.mem_append] at hmem
  rcases hmem with htaken | hleft
  · rw [List.mem_takeWhile_imp htaken] at hc
    cases hc
  · exact hleft

theorem mem_trimStartMatches {pattern text : Text} {c : Char} (hmem : c ∈ text)
    (hc : c ∉ pattern) : c ∈ trimStartMatches pattern text := by
  rw [trimStartMatches]
  generalize text.length = fuel
  induction fuel generalizing text with
  | zero => exact hmem
  | succ fuel ih =>
      rw [trimStartMatches.go]
      cases hfront : pattern.isPrefixOf? text with
      | none => exact hmem
      | some after =>
          have htext := List.isPrefixOf?_eq_some_iff_append_eq.mp hfront
          rw [← htext, List.mem_append] at hmem
          exact ih (hmem.resolve_left hc)

theorem cut_front {pattern : Text} (hnil : pattern ≠ []) (rest : Text) :
    cut pattern (pattern ++ rest) = some ([], rest) := by
  cases pattern with
  | nil => exact absurd rfl hnil
  | cons first pattern =>
      have hfront : (first :: pattern).isPrefixOf? (first :: (pattern ++ rest)) = some rest :=
        List.isPrefixOf?_eq_some_iff_append_eq.mpr rfl
      rw [List.cons_append, cut, hfront]

theorem head?_trimStartMatches_go {c : Char} {fuel : Nat} {text : Text}
    (hfuel : text.length ≤ fuel) : (trimStartMatches.go [c] fuel text).head? ≠ some c := by
  induction fuel generalizing text with
  | zero =>
      rw [List.length_eq_zero_iff.mp (Nat.le_zero.mp hfuel), trimStartMatches.go]
      exact (Option.some_ne_none c).symm
  | succ fuel ih =>
      rw [trimStartMatches.go]
      cases hfront : [c].isPrefixOf? text with
      | none =>
          cases text with
          | nil => exact (Option.some_ne_none c).symm
          | cons first text =>
              rintro ⟨rfl⟩
              simp [List.isPrefixOf?] at hfront
      | some after =>
          have htext := List.isPrefixOf?_eq_some_iff_append_eq.mp hfront
          rw [← htext, List.length_append, List.length_singleton] at hfuel
          exact ih (by omega)

theorem head?_trimStartMatches {c : Char} (text : Text) :
    (trimStartMatches [c] text).head? ≠ some c := head?_trimStartMatches_go (le_refl _)

/-- A flag is found behind the marker of its item. -/
theorem cut_written : cut flag.text (written flag.text value line) =
    some ((yamlListPrefix line).1 ++ (yamlListPrefix line).2, value ++ trailingComma line) := by
  obtain ⟨indent, marker, hmarked, hmarker⟩ := yamlListPrefix_eq line
  have hnil : flag.text ≠ [] := by simp [CommandFlag.text]
  have hspace : ' ' ∉ flag.text := by cases flag <;> decide
  have hfront : (List.replicate indent ' ' ++ marker = [] ∨
      ∃ front, List.replicate indent ' ' ++ marker = front ++ [' '] ∧ '=' ∉ front) := by
    rcases hmarker with rfl | rfl
    · cases indent with
      | zero => exact .inl rfl
      | succ indent =>
          refine .inr ⟨List.replicate indent ' ', by simp [List.replicate_succ'], ?_⟩
          exact fun hmem => absurd (List.eq_of_mem_replicate hmem) (by decide)
    · refine .inr ⟨List.replicate indent ' ' ++ ['-'], by simp, ?_⟩
      simp
  rw [written, hmarked, List.append_assoc, List.append_assoc]
  rcases hfront with hnone | ⟨front, hsome, hequals⟩
  · rw [hnone, List.nil_append, cut_front hnil]
  · have hcut : cut flag.text front = none := by
      rw [cut_eq_none_iff]
      exact fun hoccurs => hequals (hoccurs.subset (by simp [CommandFlag.text]))
    rw [hsome, List.append_assoc, List.singleton_append, cut_separator hnil hspace, hcut,
      cut_front hnil]
    rfl

/-- What is written behind a flag is read back. -/
theorem flagOf_written (hends : EndsPlain value) (hstart : value.head?.any isWhite = false)
    (hopen : value.head? ≠ some '"') (hclose : value.getLast? ≠ some '"') :
    flagOf flag.text (written flag.text value line) = some value := by
  obtain ⟨c, hlast, hwhite, hcomma⟩ := hends
  have hne : value ≠ [] := by
    rintro rfl
    cases hlast
  obtain ⟨first, rest, rfl⟩ := List.exists_cons_of_ne_nil hne
  have hfirst : isWhite first = false := by simpa using hstart
  have htrim : trim (first :: rest ++ trailingComma line) =
      first :: rest ++ trailingComma line := by
    refine trim_of_ends (by simpa using hfirst) ?_
    rcases trailingComma_cases line with hnone | hsome
    · rw [hnone, List.append_nil]
      simpa [hlast] using hwhite
    · rw [hsome, List.getLast?_append]
      simp
      decide
  have hquote : trimStartMatches ['"'] (first :: rest ++ trailingComma line) =
      first :: rest ++ trailingComma line := by
    apply trimStartMatches_of_not_prefix
    rintro ⟨tail, htail⟩
    exact hopen (by rw [(List.cons.inj htail).1]; rfl)
  have hplain : trimEndMatches ['"', ',', ' '] (first :: rest) = first :: rest := by
    refine trimEndMatches_of_last fun d hd hend => ?_
    obtain rfl := Option.some.inj (hlast.symm.trans hd)
    simp only [List.mem_cons, List.not_mem_nil, or_false] at hend
    rcases hend with rfl | rfl | rfl
    · exact hclose hlast
    · exact hcomma rfl
    · exact absurd hwhite (by decide)
  have hend : trimEndMatches ['"', ',', ' '] (first :: rest ++ trailingComma line) =
      first :: rest := by
    rcases trailingComma_cases line with hnone | hsome
    · rw [hnone, List.append_nil, hplain]
    · rw [hsome, trimEndMatches, List.rdropWhile_concat_pos _ _ _ (by decide)]
      exact hplain
  simp only [flagOf, cut_written, htrim, hquote, hend, if_neg hne]

/-- What is read from a flag neither starts nor ends in a quote. -/
theorem flagOf_plain {flag : Text} (hread : flagOf flag line = some value) :
    value.head? ≠ some '"' ∧ value.getLast? ≠ some '"' := by
  rw [flagOf] at hread
  cases hcut : cut flag line with
  | none => simp [hcut] at hread
  | some around =>
      simp only [hcut] at hread
      split at hread
      · cases hread
      · rename_i hne
        have hvalue := Option.some.inj hread
        constructor
        · intro hhead
          obtain ⟨tail, htail⟩ :
              value <+: trimStartMatches ['"'] (trim around.2) := by
            rw [← hvalue]
            exact List.rdropWhile_prefix _ _
          have hopen : (trimStartMatches ['"'] (trim around.2)).head? = some '"' := by
            rw [← htail, List.head?_append, hhead]
            rfl
          exact head?_trimStartMatches _ hopen
        · intro hlast
          have hend := List.rdropWhile_last_not (p := (· ∈ ['"', ',', ' ']))
            (l := trimStartMatches ['"'] (trim around.2)) hne
          rw [trimEndMatches] at hne
          rw [← hvalue, trimEndMatches, List.getLast?_eq_some_getLast hne] at hlast
          rw [Option.some.inj hlast] at hend
          exact hend (by decide)

end Reading

/-- No other flag of the command is found behind the name in the entry of the cluster. -/
def NameClear (name : Text) : Prop :=
  ∀ flag : CommandFlag, flag ≠ .cluster → ¬ flag.stem <:+ name

section Values

variable {name : Hostname} {ip : IpText} {clusterState line : Text} {flag other : CommandFlag}

theorem IpText.notMem {c : Char} (halnum : c.isAlphanum = false)
    (hmarks : c ∉ ['.', ':', '[', ']', '%']) : c ∉ ip.text := by
  intro hmem
  rcases ip.chars c hmem with h | h
  · simp [h] at halnum
  · exact hmarks h

/-- A character that no address and neither state has is in a value only if the name has it. -/
theorem notMem_value {c : Char} (halnum : c.isAlphanum = false)
    (hmarks : c ∉ ['.', ':', '[', ']', '%', '/', ',', '=']) (hname : c ∉ name.text)
    (hstate : clusterState ∈ [newState, existingState]) :
    c ∉ flag.value name.text ip.text clusterState := by
  have hip : c ∉ ip.text := ip.notMem halnum fun h => hmarks (by
    simp only [List.mem_cons, List.not_mem_nil, or_false] at h ⊢
    tauto)
  have hplain : ∀ text : Text, (text.all fun d => d.isAlphanum ||
      d ∈ ['.', ':', '[', ']', '%', '/', ',', '=']) = true → c ∉ text := by
    intro text hall hmem
    have hc := List.all_eq_true.mp hall c hmem
    simp [halnum] at hc
    exact hmarks (by simpa using hc)
  have hscheme : c ∉ https := hplain _ (by decide)
  have hport : c ∉ ":2380".toList := hplain _ (by decide)
  have hclient : c ∉ ":2379,https://127.0.0.1:2379".toList := hplain _ (by decide)
  have hpeer : c ∉ peerUrl ip.text := by
    simp only [peerUrl, List.mem_append, not_or]
    exact ⟨⟨hscheme, hip⟩, hport⟩
  have hequals : c ≠ '=' := fun h => hmarks (by simp [h])
  cases flag with
  | name => exact hname
  | clientUrls =>
      simp only [CommandFlag.value, clientUrls, List.mem_append, not_or]
      exact ⟨⟨hscheme, hip⟩, hclient⟩
  | peerUrls => exact hpeer
  | cluster =>
      simp only [CommandFlag.value, entry, List.mem_append, List.mem_cons, not_or]
      exact ⟨hname, hequals, hpeer⟩
  | state =>
      simp only [List.mem_cons, List.not_mem_nil, or_false] at hstate
      rcases hstate with rfl | rfl
      · exact hplain newState (by decide)
      · exact hplain existingState (by decide)

theorem equals_notMem_ip : '=' ∉ peerUrl ip.text := by
  have hscheme : '=' ∉ https := by decide
  have hport : '=' ∉ ":2380".toList := by decide
  have hip : '=' ∉ ip.text := ip.notMem (by decide) (by decide)
  simp only [peerUrl, List.mem_append, not_or]
  exact ⟨⟨hscheme, hip⟩, hport⟩

theorem equals_notMem_value (hflag : flag ≠ .cluster)
    (hstate : clusterState ∈ [newState, existingState]) :
    '=' ∉ flag.value name.text ip.text clusterState := by
  cases flag with
  | name => exact name.equals_notMem
  | clientUrls =>
      have hscheme : '=' ∉ https := by decide
      have hport : '=' ∉ ":2379,https://127.0.0.1:2379".toList := by decide
      have hip : '=' ∉ ip.text := ip.notMem (by decide) (by decide)
      simp only [CommandFlag.value, clientUrls, List.mem_append, not_or]
      exact ⟨⟨hscheme, hip⟩, hport⟩
  | peerUrls => exact equals_notMem_ip
  | cluster => exact absurd rfl hflag
  | state =>
      simp only [List.mem_cons, List.not_mem_nil, or_false] at hstate
      have hnew : '=' ∉ newState := by decide
      have hexisting : '=' ∉ existingState := by decide
      rcases hstate with rfl | rfl
      · exact hnew
      · exact hexisting

theorem value_endsPlain (hstate : clusterState ∈ [newState, existingState]) :
    EndsPlain (flag.value name.text ip.text clusterState) := by
  have hpeer : (peerUrl ip.text).getLast? = some '0' := by
    rw [peerUrl, List.getLast?_append]
    rfl
  cases flag with
  | name =>
      have hlast := List.getLast?_eq_some_getLast name.nonempty
      obtain ⟨hcomma, -, hwhite⟩ := name.plain _ (List.getLast_mem name.nonempty)
      exact ⟨_, hlast, hwhite, hcomma⟩
  | clientUrls =>
      refine ⟨'9', ?_, by decide, by decide⟩
      rw [CommandFlag.value, clientUrls, List.getLast?_append]
      rfl
  | peerUrls => exact ⟨'0', hpeer, by decide, by decide⟩
  | cluster =>
      refine ⟨'0', ?_, by decide, by decide⟩
      rw [CommandFlag.value, entry, List.getLast?_append, List.getLast?_cons, hpeer]
      rfl
  | state =>
      simp only [List.mem_cons, List.not_mem_nil, or_false] at hstate
      rcases hstate with rfl | rfl
      · have hnew : newState.getLast? = some 'w' := by decide
        exact ⟨'w', hnew, by decide, by decide⟩
      · have hexisting : existingState.getLast? = some 'g' := by decide
        exact ⟨'g', hexisting, by decide, by decide⟩

/-- Whose text an item has in it. -/
theorem contains_written (hstate : clusterState ∈ [newState, existingState]) :
    other.text <:+: written flag.text (flag.value name.text ip.text clusterState) line ↔
      other = flag ∨ (flag = .cluster ∧ other.stem <:+ name.text) := by
  by_cases hflag : flag = .cluster
  · subst hflag
    rw [CommandFlag.value, infix_cluster_iff name.equals_notMem equals_notMem_ip]
    simp
  · rw [infix_written_iff (equals_notMem_value hflag hstate)]
    simp [hflag]

theorem contains_written_clear (hclear : NameClear name.text)
    (hstate : clusterState ∈ [newState, existingState]) :
    contains other.text (written flag.text (flag.value name.text ip.text clusterState) line) =
      true ↔ other = flag := by
  rw [contains_iff, contains_written hstate]
  constructor
  · rintro (hsame | ⟨rfl, hstem⟩)
    · exact hsame
    · by_contra hother
      exact hclear other hother hstem
  · exact .inl

end Values

/-- Each line has at most one of the flags. -/
def OneFlag (texts : List Text) : Prop :=
  ∀ line ∈ texts, ∀ flag other : CommandFlag, contains flag.text line = true →
    contains other.text line = true → flag = other

/-- The texts are lines: neither a line feed nor a carriage return is in them. -/
def OneLine (texts : List Text) : Prop := ∀ line ∈ texts, '\n' ∉ line ∧ '\r' ∉ line

section Lines

variable {name : Hostname} {ip : IpText} {clusterState line : Text} {flag : CommandFlag}
  {flags : List CommandFlag} {yaml : Text} {texts : List Text}

theorem setFlag_of_not {value : Text} (hnot : contains flag.text line = false) :
    setFlag flag.text value line = line := by
  rw [setFlag, hnot]
  rfl

theorem setFlag_of_flag {value : Text} (hflag : contains flag.text line = true) :
    setFlag flag.text value line = written flag.text value line := by
  rw [setFlag, if_pos hflag]

theorem setFlags_cons (values : CommandFlag → Text) :
    setFlags values (flag :: flags) line =
      setFlags values flags (setFlag flag.text (values flag) line) := rfl

theorem setFlags_of_not {values : CommandFlag → Text}
    (hnot : ∀ flag ∈ flags, contains flag.text line = false) :
    setFlags values flags line = line := by
  induction flags with
  | nil => rfl
  | cons flag flags ih =>
      rw [setFlags_cons, setFlag_of_not (hnot flag List.mem_cons_self)]
      exact ih fun other hother => hnot other (List.mem_cons_of_mem _ hother)

/-- An item that has been written is written once more as it is. -/
theorem setFlags_written (hclear : NameClear name.text)
    (hstate : clusterState ∈ [newState, existingState]) (flags : List CommandFlag) :
    setFlags (CommandFlag.value name.text ip.text clusterState) flags
        (written flag.text (flag.value name.text ip.text clusterState) line) =
      written flag.text (flag.value name.text ip.text clusterState) line := by
  induction flags with
  | nil => rfl
  | cons other flags ih =>
      have hother := @contains_written_clear name ip _ line flag other hclear hstate
      by_cases hsame : other = flag
      · subst hsame
        rw [setFlags_cons, setFlag_of_flag (hother.mpr rfl),
          written_written (value_endsPlain hstate), ih]
      · rw [setFlags_cons, setFlag_of_not (Bool.eq_false_iff.mpr fun h => hsame (hother.mp h)),
          ih]

/-- The flag that a line has is set and no other one. -/
theorem setFlags_of_flag (hclear : NameClear name.text)
    (hstate : clusterState ∈ [newState, existingState]) (hmem : flag ∈ flags)
    (hline : ∀ other : CommandFlag, contains other.text line = true ↔ other = flag) :
    setFlags (CommandFlag.value name.text ip.text clusterState) flags line =
      written flag.text (flag.value name.text ip.text clusterState) line := by
  induction flags with
  | nil => exact absurd hmem List.not_mem_nil
  | cons other flags ih =>
      by_cases hsame : other = flag
      · subst hsame
        rw [setFlags_cons, setFlag_of_flag ((hline other).mpr rfl),
          setFlags_written hclear hstate]
      · have hlater : flag ∈ flags := (List.mem_cons.mp hmem).resolve_left fun h => hsame h.symm
        rw [setFlags_cons, setFlag_of_not (Bool.eq_false_iff.mpr fun h => hsame ((hline _).mp h)),
          ih hlater]

theorem oneLine_lines (hends : ∀ line ∈ lines yaml, '\r' ∉ line) : OneLine (lines yaml) :=
  fun line hmem => ⟨newline_notMem_lines hmem, hends line hmem⟩

theorem lines_of_oneLines (htexts : OneLine texts) : lines (unlines texts) = texts :=
  lines_unlines (fun line hmem => (htexts line hmem).1) fun line hmem => (htexts line hmem).2

theorem notMem_setFlag {c : Char} (halnum : c.isAlphanum = false) (hspace : c ≠ ' ')
    (hdash : c ≠ '-') (hmarks : c ∉ ['.', ':', '[', ']', '%', '/', ',', '='])
    (hname : c ∉ name.text) (hstate : clusterState ∈ [newState, existingState])
    (hline : c ∉ line) :
    c ∉ setFlag flag.text (flag.value name.text ip.text clusterState) line := by
  have hcomma : c ≠ ',' := fun h => hmarks (by simp [h])
  have hflag : c ∉ flag.text := by
    have hchars : ∀ d ∈ flag.text, d.isAlphanum = true ∨ d = '-' ∨ d = '=' := by
      cases flag <;> decide
    intro hmem
    rcases hchars c hmem with h | h | h
    · simp [h] at halnum
    · exact hdash h
    · exact hmarks (by simp [h])
  rw [setFlag]
  split
  · exact notMem_written hspace hdash hcomma hflag
      (notMem_value halnum hmarks hname hstate) line
  · exact hline

theorem oneLine_setFlag (hstate : clusterState ∈ [newState, existingState])
    (htexts : OneLine texts) :
    OneLine (texts.map (setFlag flag.text (flag.value name.text ip.text clusterState))) := by
  intro line hmem
  obtain ⟨old, hold, rfl⟩ := List.mem_map.mp hmem
  have hname : ∀ c, isWhite c = true → c ∉ name.text := by
    intro c hwhite hc
    simp [name.noWhite c hc] at hwhite
  constructor
  · exact notMem_setFlag (by decide) (by decide) (by decide) (by decide)
      (hname _ (by decide)) hstate (htexts old hold).1
  · exact notMem_setFlag (by decide) (by decide) (by decide) (by decide)
      (hname _ (by decide)) hstate (htexts old hold).2

theorem replaceCommandFlag_eq (yaml value : Text) (flag : CommandFlag) :
    replaceCommandFlag yaml flag.text value =
      unlines ((lines yaml).map (setFlag flag.text value)) := rfl

/-- The flags are set on each line. -/
theorem replaceFlags_lines (hstate : clusterState ∈ [newState, existingState])
    (hlines : OneLine (lines yaml)) (flags : List CommandFlag) :
    lines (replaceFlags (CommandFlag.value name.text ip.text clusterState) flags yaml) =
        (lines yaml).map (setFlags (CommandFlag.value name.text ip.text clusterState) flags) ∧
      OneLine ((lines yaml).map
        (setFlags (CommandFlag.value name.text ip.text clusterState) flags)) := by
  induction flags generalizing yaml with
  | nil =>
      have hnone : setFlags (CommandFlag.value name.text ip.text clusterState) [] = id := rfl
      rw [hnone, List.map_id]
      exact ⟨rfl, hlines⟩
  | cons flag flags ih =>
      have honce := @oneLine_setFlag name ip _ flag _ hstate hlines
      have hwritten := lines_of_oneLines honce
      rw [← replaceCommandFlag_eq] at hwritten
      have hrest := @ih (replaceCommandFlag yaml flag.text
        (flag.value name.text ip.text clusterState)) (by rw [hwritten]; exact honce)
      rw [hwritten, List.map_map] at hrest
      exact hrest

theorem replaceFlags_eq (hstate : clusterState ∈ [newState, existingState])
    (hlines : OneLine (lines yaml)) (hflags : flags ≠ []) :
    replaceFlags (CommandFlag.value name.text ip.text clusterState) flags yaml =
      unlines ((lines yaml).map
        (setFlags (CommandFlag.value name.text ip.text clusterState) flags)) := by
  induction flags generalizing yaml with
  | nil => exact absurd rfl hflags
  | cons flag flags ih =>
      have honce := @oneLine_setFlag name ip _ flag _ hstate hlines
      have hwritten := lines_of_oneLines honce
      rw [← replaceCommandFlag_eq] at hwritten
      cases flags with
      | nil => rfl
      | cons other flags =>
          have hrest := @ih (replaceCommandFlag yaml flag.text
            (flag.value name.text ip.text clusterState)) (by rw [hwritten]; exact honce)
            (List.cons_ne_nil _ _)
          rw [hwritten, List.map_map] at hrest
          exact hrest

end Lines

section Force

variable {name : Hostname} {ip : IpText} {clusterState line : Text} {flag : CommandFlag}
  {texts : List Text}

/-- What is left of a line when marker, quotes and commas are taken off is on the line. -/
theorem force_of_forceLine (hforce : isForceNewClusterLine line = true) :
    contains forceNewClusterFlag line = true := by
  rw [isForceNewClusterLine, decide_eq_true_eq] at hforce
  have hinner : trimStartMatches ['"'] (trimStartMatches "- ".toList (trimStart line)) <:+ line :=
    (trimStartMatches_suffix _ _).trans
      ((trimStartMatches_suffix _ _).trans (List.dropWhile_suffix _))
  rw [contains_iff, ← hforce]
  exact (List.rdropWhile_prefix _ _).isInfix.trans hinner.isInfix

theorem force_ne_nil : forceNewClusterFlag ≠ [] := by decide

/-- The flag does not reach over the space and the marker in front of an item. -/
theorem force_behind_prefix (line : Text) {rest : Text} :
    forceNewClusterFlag <:+: (yamlListPrefix line).1 ++ (yamlListPrefix line).2 ++ rest ↔
      forceNewClusterFlag <:+: rest := by
  have hspace : ' ' ∉ forceNewClusterFlag := by decide
  have hindent : ∀ (indent : Nat) (rest : Text),
      forceNewClusterFlag <:+: List.replicate indent ' ' ++ rest ↔
        forceNewClusterFlag <:+: rest := by
    intro indent rest
    induction indent with
    | zero => rfl
    | succ indent ih =>
        have hcons := infix_separator_iff force_ne_nil hspace [] (List.replicate indent ' ' ++ rest)
        have hnil : ¬ forceNewClusterFlag <:+: [] := by decide
        rw [List.nil_append] at hcons
        rw [List.replicate_succ, List.cons_append, hcons, ih]
        simp [hnil]
  obtain ⟨indent, marker, hmarked, hmarker⟩ := yamlListPrefix_eq line
  rw [hmarked, List.append_assoc, hindent]
  rcases hmarker with rfl | rfl
  · rw [List.nil_append]
  · have hitem : "- ".toList ++ rest = ['-'] ++ ' ' :: rest := rfl
    have hdash : ¬ forceNewClusterFlag <:+: ['-'] := by decide
    rw [hitem, infix_separator_iff force_ne_nil hspace]
    simp [hdash]

/-- The flag is in an item only if it is in the value. -/
theorem force_infix_written {value : Text} :
    forceNewClusterFlag <:+: written flag.text value line ↔ forceNewClusterFlag <:+: value := by
  have hequals : '=' ∉ forceNewClusterFlag := by decide
  have hcomma : ',' ∉ forceNewClusterFlag := by decide
  have hnil : ¬ forceNewClusterFlag <:+: [] := by decide
  have hstem : ¬ forceNewClusterFlag <:+: flag.stem := by cases flag <;> decide
  have hitem : written flag.text value line =
      (yamlListPrefix line).1 ++ (yamlListPrefix line).2 ++
        (flag.stem ++ '=' :: (value ++ trailingComma line)) := by
    rw [written_eq, List.append_assoc]
  rw [hitem, force_behind_prefix, infix_separator_iff force_ne_nil hequals]
  rcases trailingComma_cases line with hnone | hsome
  · rw [hnone, List.append_nil]
    simp [hstem]
  · rw [hsome, infix_separator_iff force_ne_nil hcomma]
    simp [hstem, hnil]

theorem force_infix_value (hstate : clusterState ∈ [newState, existingState]) :
    forceNewClusterFlag <:+: flag.value name.text ip.text clusterState ↔
      (flag = .name ∨ flag = .cluster) ∧ forceNewClusterFlag <:+: name.text := by
  have hequals : '=' ∉ forceNewClusterFlag := by decide
  have hdash : ∀ text : Text, '-' ∉ text → ¬ forceNewClusterFlag <:+: text := by
    intro text hnot hoccurs
    exact hnot (hoccurs.subset (by decide))
  have hip : '-' ∉ ip.text := ip.notMem (by decide) (by decide)
  have hscheme : '-' ∉ https := by decide
  have hpeer : '-' ∉ peerUrl ip.text := by
    have hport : '-' ∉ ":2380".toList := by decide
    simp only [peerUrl, List.mem_append, not_or]
    exact ⟨⟨hscheme, hip⟩, hport⟩
  cases flag with
  | name => simp [CommandFlag.value]
  | clientUrls =>
      have hport : '-' ∉ ":2379,https://127.0.0.1:2379".toList := by decide
      have hclient : '-' ∉ clientUrls ip.text := by
        simp only [clientUrls, List.mem_append, not_or]
        exact ⟨⟨hscheme, hip⟩, hport⟩
      simp [CommandFlag.value, hdash _ hclient]
  | peerUrls => simp [CommandFlag.value, hdash _ hpeer]
  | cluster =>
      rw [CommandFlag.value, entry, infix_separator_iff force_ne_nil hequals]
      simp [hdash _ hpeer]
  | state =>
      have hnew : '-' ∉ newState := by decide
      have hexisting : '-' ∉ existingState := by decide
      simp only [List.mem_cons, List.not_mem_nil, or_false] at hstate
      rcases hstate with rfl | rfl
      · simp [CommandFlag.value, hdash _ hnew]
      · simp [CommandFlag.value, hdash _ hexisting]

/-- A line that has been added: the flag is recognised on it, and it has no value. -/
structure ForceItem (line : Text) : Prop where
  recognised : isForceNewClusterLine line = true
  noValue : '=' ∉ line
  oneLine : '\n' ∉ line ∧ '\r' ∉ line

theorem forceItem_of_prefix (indent : Nat) {marker comma : Text}
    (hmarker : marker = [] ∨ marker = "- ".toList) (hcomma : comma = [] ∨ comma = [',']) :
    ForceItem (List.replicate indent ' ' ++ marker ++ forceNewClusterFlag ++ comma) := by
  have hplain : ∀ c : Char, c ≠ ' ' → c ∉ "- --force-new-cluster,".toList →
      c ∉ List.replicate indent ' ' ++ marker ++ forceNewClusterFlag ++ comma := by
    intro c hspace hnot
    have hindent : c ∉ List.replicate indent ' ' :=
      fun hmem => hspace (List.eq_of_mem_replicate hmem)
    have hpart : ∀ part : Text, part.Sublist "- --force-new-cluster,".toList → c ∉ part :=
      fun part hsub hmem => hnot (hsub.subset hmem)
    simp only [List.mem_append, not_or]
    refine ⟨⟨⟨hindent, ?_⟩, hpart _ (by decide)⟩, ?_⟩
    · rcases hmarker with rfl | rfl
      · exact List.not_mem_nil
      · exact hpart _ (by decide)
    · rcases hcomma with rfl | rfl
      · exact List.not_mem_nil
      · exact hpart _ (by decide)
  refine ⟨?_, hplain _ (by decide) (by decide), hplain _ (by decide) (by decide),
    hplain _ (by decide) (by decide)⟩
  have hdash : isWhite '-' = false := by decide
  have hforce : forceNewClusterFlag = '-' :: "-force-new-cluster".toList := by decide
  rw [List.append_assoc, List.append_assoc, isForceNewClusterLine]
  rcases hmarker with rfl | rfl
  · rw [List.nil_append, hforce, List.cons_append, trimStart_replicate indent hdash]
    rcases hcomma with rfl | rfl <;> decide
  · have hitem : "- ".toList = '-' :: [' '] := rfl
    rw [hitem, List.cons_append, trimStart_replicate indent hdash]
    rcases hcomma with rfl | rfl <;> decide

theorem forceItem_of_line (line : Text) : ForceItem ((yamlListPrefix line).1 ++
    (yamlListPrefix line).2 ++ forceNewClusterFlag ++ trailingComma line) := by
  obtain ⟨indent, marker, hmarked, hmarker⟩ := yamlListPrefix_eq line
  rw [hmarked]
  exact forceItem_of_prefix indent hmarker (trailingComma_cases line)

/-- One line is added. -/
theorem insertForceNewCluster_spec (texts : List Text) :
    ∃ before extra after, texts = before ++ after ∧
      insertForceNewCluster texts = before ++ extra :: after ∧ ForceItem extra := by
  induction texts with
  | nil =>
      refine ⟨[], _, [], rfl, rfl, ?_⟩
      have hitem := forceItem_of_prefix 8 (.inr rfl) (.inl rfl)
      have hline : "        - --force-new-cluster".toList =
          List.replicate 8 ' ' ++ "- ".toList ++ forceNewClusterFlag ++ [] := by decide
      rw [hline]
      exact hitem
  | cons line texts ih =>
      rw [insertForceNewCluster]
      split
      · exact ⟨[line], _, texts, rfl, rfl, forceItem_of_line line⟩
      · obtain ⟨before, extra, after, htexts, hinsert, hitem⟩ := ih
        exact ⟨line :: before, extra, after, by rw [htexts]; rfl, by rw [hinsert]; rfl, hitem⟩

theorem ForceItem.noFlag (hitem : ForceItem line) (flag : CommandFlag) :
    contains flag.text line = false := by
  rw [Bool.eq_false_iff, Ne, contains_iff]
  exact fun hoccurs => hitem.noValue (hoccurs.subset (by simp [CommandFlag.text]))

end Force

end PertiskKos.Etcd
