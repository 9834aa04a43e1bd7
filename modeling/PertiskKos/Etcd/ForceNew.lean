import PertiskKos.Etcd.CommandFlags

/-!
# Starting etcd alone and joining it up again

To start a member alone from its log, five flags of its command are written anew and
`--force-new-cluster` is added; when the member is up the flag is taken out and the cluster is
called an existing one.
-/

namespace PertiskKos.Etcd

open Strings Lines

/-- A manifest with each flag of the command on a line of its own.  `--force-new-cluster` may
be missing. -/
structure FlagManifest (yaml : Text) : Prop where
  lineEnds : ∀ line ∈ lines yaml, '\r' ∉ line
  once : ∀ flag : CommandFlag, (lines yaml).countP (contains flag.text) = 1
  apart : OneFlag (lines yaml)
  forceOnce : (lines yaml).countP (contains forceNewClusterFlag) ≤ 1
  forceApart : ∀ line ∈ lines yaml, contains forceNewClusterFlag line = true →
    ∀ flag : CommandFlag, contains flag.text line = false

/-- A line that neither function is to change. -/
def otherLine (line : Text) : Bool :=
  !contains forceNewClusterFlag line && aloneFlags.all fun flag => !contains flag.text line

/-- The flags whose values are read back. -/
def readFlags : List CommandFlag := [.name, .cluster, .state, .peerUrls]

/-- The member starts alone and is joined up again: the flags have the values that they should
have, the other lines are as they were, `--force-new-cluster` comes and goes, and nothing is
changed by doing either again. -/
structure StartsAlone (yaml name ip : Text) : Prop where
  newValues : ∀ flag ∈ readFlags,
    etcdFlagValue (patchEtcdManifestForceNewCluster yaml name ip) flag.text =
      some (flag.value name ip newState)
  existingValues : ∀ flag ∈ readFlags,
    etcdFlagValue (finalizeEtcdManifestAfterForceNew
        (patchEtcdManifestForceNewCluster yaml name ip) name ip) flag.text =
      some (flag.value name ip existingState)
  newOthers : (lines (patchEtcdManifestForceNewCluster yaml name ip)).filter otherLine =
    (lines yaml).filter otherLine
  existingOthers : (lines (finalizeEtcdManifestAfterForceNew
      (patchEtcdManifestForceNewCluster yaml name ip) name ip)).filter otherLine =
    (lines yaml).filter otherLine
  forced : (lines (patchEtcdManifestForceNewCluster yaml name ip)).countP
    (contains forceNewClusterFlag) = 1
  unforced : (lines (finalizeEtcdManifestAfterForceNew
      (patchEtcdManifestForceNewCluster yaml name ip) name ip)).countP
    (contains forceNewClusterFlag) = 0
  newStable : patchEtcdManifestForceNewCluster
      (patchEtcdManifestForceNewCluster yaml name ip) name ip =
    patchEtcdManifestForceNewCluster yaml name ip
  existingStable : finalizeEtcdManifestAfterForceNew
      (finalizeEtcdManifestAfterForceNew yaml name ip) name ip =
    finalizeEtcdManifestAfterForceNew yaml name ip
  againStable : finalizeEtcdManifestAfterForceNew
      (finalizeEtcdManifestAfterForceNew
        (patchEtcdManifestForceNewCluster yaml name ip) name ip) name ip =
    finalizeEtcdManifestAfterForceNew
      (patchEtcdManifestForceNewCluster yaml name ip) name ip

/-- The name hides no flag and no quotes, and a line that has `--force-new-cluster` already is
one that is taken out again. -/
structure Recognisable (yaml name : Text) : Prop where
  flags : NameClear name
  force : ¬ forceNewClusterFlag <:+: name
  quotes : name.head? ≠ some '"' ∧ name.getLast? ≠ some '"'
  line : ∀ line ∈ lines yaml, contains forceNewClusterFlag line = true →
    isForceNewClusterLine line = true

section Manifest

variable {name : Hostname} {ip : IpText} {texts : List Text} {line yaml : Text}
  {flag : CommandFlag}

def newLine (name ip line : Text) : Text :=
  setFlags (CommandFlag.value name ip newState) aloneFlags line

def existingLine (name ip line : Text) : Text :=
  setFlags (CommandFlag.value name ip existingState) existingFlags line

/-- The lines of the manifest that starts the member alone. -/
def newLines (name ip : Text) (texts : List Text) : List Text :=
  if (texts.map (newLine name ip)).any (contains forceNewClusterFlag) then
    texts.map (newLine name ip)
  else insertForceNewCluster (texts.map (newLine name ip))

/-- The lines of the manifest that joins the member up again. -/
def existingLines (name ip : Text) (texts : List Text) : List Text :=
  (texts.filter fun line => !isForceNewClusterLine line).map (existingLine name ip)

theorem newState_mem : newState ∈ [newState, existingState] := by simp

theorem existingState_mem : existingState ∈ [newState, existingState] := by simp

theorem oneLine_insert (htexts : OneLine texts) : OneLine (insertForceNewCluster texts) := by
  obtain ⟨before, extra, after, rfl, hinsert, hitem⟩ := insertForceNewCluster_spec texts
  intro line hmem
  rw [hinsert, List.mem_append, List.mem_cons] at hmem
  rcases hmem with h | rfl | h
  · exact htexts line (List.mem_append_left _ h)
  · exact hitem.oneLine
  · exact htexts line (List.mem_append_right _ h)

theorem lines_patch (hlines : OneLine (lines yaml)) :
    patchEtcdManifestForceNewCluster yaml name.text ip.text =
        unlines (newLines name.text ip.text (lines yaml)) ∧
      OneLine (newLines name.text ip.text (lines yaml)) := by
  obtain ⟨hset, hone⟩ :
      lines (replaceFlags (CommandFlag.value name.text ip.text newState) aloneFlags yaml) =
          (lines yaml).map (newLine name.text ip.text) ∧
        OneLine ((lines yaml).map (newLine name.text ip.text)) :=
    replaceFlags_lines newState_mem hlines aloneFlags
  have htext : replaceFlags (CommandFlag.value name.text ip.text newState) aloneFlags yaml =
      unlines ((lines yaml).map (newLine name.text ip.text)) :=
    replaceFlags_eq newState_mem hlines (by decide)
  rw [patch_eq, ensureForceNewClusterFlag, hset, newLines, htext]
  split
  · exact ⟨rfl, hone⟩
  · exact ⟨rfl, oneLine_insert hone⟩

theorem lines_finalize (hlines : OneLine (lines yaml)) :
    finalizeEtcdManifestAfterForceNew yaml name.text ip.text =
        unlines (existingLines name.text ip.text (lines yaml)) ∧
      OneLine (existingLines name.text ip.text (lines yaml)) := by
  have hkept : OneLine ((lines yaml).filter fun line => !isForceNewClusterLine line) :=
    fun line hmem => hlines line (List.mem_of_mem_filter hmem)
  have hstrip : lines (stripForceNewClusterFlag yaml) =
      (lines yaml).filter fun line => !isForceNewClusterLine line := lines_of_oneLines hkept
  rw [← hstrip] at hkept
  obtain ⟨-, hone⟩ := @replaceFlags_lines name ip _ _ existingState_mem hkept
    existingFlags
  have htext := @replaceFlags_eq name ip _ existingFlags _
    existingState_mem hkept (by decide)
  rw [hstrip] at hone htext
  rw [finalize_eq]
  exact ⟨htext, hone⟩

/-- A line has no flag or just one. -/
theorem flag_cases (hone : OneFlag texts) (hmem : line ∈ texts) :
    (∀ flag : CommandFlag, contains flag.text line = false) ∨
      ∃ flag : CommandFlag, ∀ other : CommandFlag,
        contains other.text line = true ↔ other = flag := by
  by_cases hnone : ∀ flag : CommandFlag, contains flag.text line = false
  · exact .inl hnone
  · push Not at hnone
    obtain ⟨flag, hflag⟩ := hnone
    rw [Ne, Bool.not_eq_false] at hflag
    refine .inr ⟨flag, fun other => ⟨fun h => hone line hmem other flag h hflag, ?_⟩⟩
    rintro rfl
    exact hflag

theorem aloneFlags_mem (flag : CommandFlag) : flag ∈ aloneFlags := by
  cases flag <;> decide

theorem newLine_of_none (hnone : ∀ flag : CommandFlag, contains flag.text line = false) :
    newLine name.text ip.text line = line := setFlags_of_not fun flag _ => hnone flag

theorem newLine_of_flag (hclear : NameClear name.text)
    (hline : ∀ other : CommandFlag, contains other.text line = true ↔ other = flag) :
    newLine name.text ip.text line =
      written flag.text (flag.value name.text ip.text newState) line :=
  setFlags_of_flag hclear newState_mem (aloneFlags_mem flag) hline

/-- Only the flag of the state has another value in the end. -/
theorem value_of_ne_state (hflag : flag ≠ .state) :
    flag.value name.text ip.text newState = flag.value name.text ip.text existingState := by
  cases flag with
  | state => exact absurd rfl hflag
  | _ => rfl

theorem existingLine_written (hclear : NameClear name.text) (line : Text) :
    existingLine name.text ip.text
        (written flag.text (flag.value name.text ip.text newState) line) =
      written flag.text (flag.value name.text ip.text existingState) line := by
  by_cases hflag : flag = .state
  · rw [hflag] at *
    have hline : ∀ other : CommandFlag, contains other.text (written CommandFlag.state.text
        (CommandFlag.state.value name.text ip.text newState) line) = true ↔ other = .state :=
      fun other => contains_written_clear hclear newState_mem
    rw [existingLine, setFlags_of_flag hclear existingState_mem (by decide) hline,
      written_written (value_endsPlain newState_mem)]
  · rw [value_of_ne_state hflag]
    exact setFlags_written hclear existingState_mem existingFlags

/-- The line that `--force-new-cluster` is found on is kept by both rewritings. -/
theorem written_noForce (hname : ¬ forceNewClusterFlag <:+: name.text) {clusterState : Text}
    (hstate : clusterState ∈ [newState, existingState]) (line : Text) :
    contains forceNewClusterFlag
      (written flag.text (flag.value name.text ip.text clusterState) line) = false := by
  rw [Bool.eq_false_iff, Ne, contains_iff, force_infix_written, force_infix_value hstate]
  exact fun hoccurs => hname hoccurs.2

theorem written_not_forceLine (hname : ¬ forceNewClusterFlag <:+: name.text)
    {clusterState : Text} (hstate : clusterState ∈ [newState, existingState]) (line : Text) :
    isForceNewClusterLine
      (written flag.text (flag.value name.text ip.text clusterState) line) = false := by
  rw [Bool.eq_false_iff]
  intro hforce
  have hoccurs := force_of_forceLine hforce
  rw [written_noForce hname hstate] at hoccurs
  cases hoccurs

/-- The lines in which the member starts alone. -/
theorem mem_newLines (hclear : NameClear name.text) (hone : OneFlag texts)
    (hmem : line ∈ newLines name.text ip.text texts) :
    (line ∈ texts ∧ ∀ flag : CommandFlag, contains flag.text line = false) ∨
      (∃ (flag : CommandFlag) (old : Text),
        line = written flag.text (flag.value name.text ip.text newState) old) ∨
      ForceItem line := by
  have hset : ∀ line ∈ texts.map (newLine name.text ip.text),
      (line ∈ texts ∧ ∀ flag : CommandFlag, contains flag.text line = false) ∨
        ∃ (flag : CommandFlag) (old : Text),
          line = written flag.text (flag.value name.text ip.text newState) old := by
    intro line hmem
    obtain ⟨old, hold, rfl⟩ := List.mem_map.mp hmem
    rcases flag_cases hone hold with hnone | ⟨flag, hflag⟩
    · rw [newLine_of_none hnone]
      exact .inl ⟨hold, hnone⟩
    · exact .inr ⟨flag, old, newLine_of_flag hclear hflag⟩
  rw [newLines] at hmem
  split at hmem
  · exact (hset line hmem).imp_right .inl
  · obtain ⟨before, extra, after, htexts, hinsert, hitem⟩ :=
      insertForceNewCluster_spec (texts.map (newLine name.text ip.text))
    rw [hinsert, List.mem_append, List.mem_cons] at hmem
    rw [htexts] at hset
    rcases hmem with h | rfl | h
    · exact (hset line (List.mem_append_left _ h)).imp_right .inl
    · exact .inr (.inr hitem)
    · exact (hset line (List.mem_append_right _ h)).imp_right .inl

theorem oneFlag_newLines (hclear : NameClear name.text) (hone : OneFlag texts) :
    OneFlag (newLines name.text ip.text texts) := by
  intro line hmem flag other hflag hother
  rcases mem_newLines hclear hone hmem with ⟨-, hnone⟩ | ⟨written, old, rfl⟩ | hitem
  · simp [hnone flag] at hflag
  · rw [contains_written_clear hclear newState_mem] at hflag hother
    rw [hflag, hother]
  · simp [hitem.noFlag flag] at hflag

/-- In the lines that start the member alone nothing is left to be done. -/
theorem newLine_newLines (hclear : NameClear name.text) (hone : OneFlag texts)
    (hmem : line ∈ newLines name.text ip.text texts) : newLine name.text ip.text line = line := by
  rcases mem_newLines hclear hone hmem with ⟨-, hnone⟩ | ⟨flag, old, rfl⟩ | hitem
  · exact newLine_of_none hnone
  · exact setFlags_written hclear newState_mem aloneFlags
  · exact newLine_of_none hitem.noFlag

theorem force_mem_newLines (name ip : Text) (texts : List Text) :
    ∃ line ∈ newLines name ip texts, contains forceNewClusterFlag line = true := by
  rw [newLines]
  split
  · rename_i hany
    exact List.any_eq_true.mp hany
  · obtain ⟨before, extra, after, -, hinsert, hitem⟩ :=
      insertForceNewCluster_spec (texts.map (newLine name ip))
    rw [hinsert]
    exact ⟨extra, by simp, force_of_forceLine hitem.recognised⟩

theorem newLine_mem_newLines (hmem : line ∈ texts) :
    newLine name.text ip.text line ∈ newLines name.text ip.text texts := by
  have hmap : newLine name.text ip.text line ∈ texts.map (newLine name.text ip.text) :=
    List.mem_map_of_mem hmem
  rw [newLines]
  split
  · exact hmap
  · obtain ⟨before, extra, after, htexts, hinsert, -⟩ :=
      insertForceNewCluster_spec (texts.map (newLine name.text ip.text))
    rw [htexts, List.mem_append] at hmap
    rw [hinsert, List.mem_append, List.mem_cons]
    tauto

theorem newLines_newLines (hclear : NameClear name.text) (hone : OneFlag texts) :
    newLines name.text ip.text (newLines name.text ip.text texts) =
      newLines name.text ip.text texts := by
  have hsame : (newLines name.text ip.text texts).map (newLine name.text ip.text) =
      newLines name.text ip.text texts :=
    (List.map_congr_left fun line hmem => newLine_newLines hclear hone hmem).trans (List.map_id _)
  obtain ⟨line, hmem, hforce⟩ := force_mem_newLines name.text ip.text texts
  have hany : (newLines name.text ip.text texts).any (contains forceNewClusterFlag) = true :=
    List.any_eq_true.mpr ⟨line, hmem, hforce⟩
  rw [newLines, hsame, if_pos hany]

/-- What `existingLines` makes of a line with at most one flag. -/
theorem existingLine_cases (hclear : NameClear name.text) (hone : OneFlag texts)
    (hmem : line ∈ texts) :
    existingLine name.text ip.text line = line ∧
        (∀ flag ∈ existingFlags, contains flag.text line = false) ∨
      ∃ flag ∈ existingFlags, contains flag.text line = true ∧
        existingLine name.text ip.text line =
          written flag.text (flag.value name.text ip.text existingState) line := by
  rcases flag_cases hone hmem with hnone | ⟨flag, hflag⟩
  · exact .inl ⟨setFlags_of_not fun flag _ => hnone flag, fun flag _ => hnone flag⟩
  · by_cases hexisting : flag ∈ existingFlags
    · exact .inr ⟨flag, hexisting, (hflag flag).mpr rfl,
        setFlags_of_flag hclear existingState_mem hexisting hflag⟩
    · have hnot : ∀ other ∈ existingFlags, contains other.text line = false := by
        intro other hother
        rw [Bool.eq_false_iff]
        intro hcontains
        exact hexisting ((hflag other).mp hcontains ▸ hother)
      exact .inl ⟨setFlags_of_not hnot, hnot⟩

/-- Taking the flag out and setting the state a second time changes nothing. -/
theorem existingLines_existingLines (hclear : NameClear name.text)
    (hname : ¬ forceNewClusterFlag <:+: name.text) (hone : OneFlag texts) :
    existingLines name.text ip.text (existingLines name.text ip.text texts) =
      existingLines name.text ip.text texts := by
  have hstable : ∀ line ∈ existingLines name.text ip.text texts,
      isForceNewClusterLine line = false ∧ existingLine name.text ip.text line = line := by
    intro line hmem
    obtain ⟨old, hold, rfl⟩ := List.mem_map.mp hmem
    obtain ⟨hold, hforce⟩ := List.mem_filter.mp hold
    rcases @existingLine_cases _ ip _ _ hclear hone hold with
      ⟨hsame, hnot⟩ | ⟨flag, -, -, hset⟩
    · rw [hsame]
      exact ⟨by simpa using hforce, hsame⟩
    · rw [hset]
      exact ⟨written_not_forceLine hname existingState_mem old,
        setFlags_written hclear existingState_mem existingFlags⟩
  have hkept : (existingLines name.text ip.text texts).filter
      (fun line => !isForceNewClusterLine line) = existingLines name.text ip.text texts := by
    rw [List.filter_eq_self]
    intro line hmem
    rw [(hstable line hmem).1]
    rfl
  conv => lhs; rw [existingLines, hkept]
  exact (List.map_congr_left fun line hmem => (hstable line hmem).2).trans (List.map_id _)

/-- The lines in which the member is joined up again. -/
theorem mem_existingLines (hclear : NameClear name.text) (hone : OneFlag texts)
    (hmem : line ∈ existingLines name.text ip.text (newLines name.text ip.text texts)) :
    (line ∈ texts ∧ isForceNewClusterLine line = false ∧
        ∀ flag : CommandFlag, contains flag.text line = false) ∨
      ∃ (flag : CommandFlag) (old : Text),
        line = written flag.text (flag.value name.text ip.text existingState) old := by
  obtain ⟨old, hold, rfl⟩ := List.mem_map.mp hmem
  obtain ⟨hold, hforce⟩ := List.mem_filter.mp hold
  rw [Bool.not_eq_true'] at hforce
  rcases mem_newLines hclear hone hold with ⟨hsource, hnone⟩ | ⟨flag, source, rfl⟩ | hitem
  · have hsame : existingLine name.text ip.text old = old :=
      setFlags_of_not fun flag _ => hnone flag
    rw [hsame]
    exact .inl ⟨hsource, hforce, hnone⟩
  · exact .inr ⟨flag, source, existingLine_written hclear source⟩
  · rw [hitem.recognised] at hforce
    cases hforce

theorem otherLine_of_flag (hflag : contains flag.text line = true) : otherLine line = false := by
  have hall : (aloneFlags.all fun flag => !contains flag.text line) = false := by
    rw [List.all_eq_false]
    exact ⟨flag, aloneFlags_mem flag, by simp [hflag]⟩
  rw [otherLine, hall, Bool.and_false]

theorem otherLine_of_force (hforce : contains forceNewClusterFlag line = true) :
    otherLine line = false := by
  rw [otherLine, hforce]
  rfl

theorem contains_written_own (value line : Text) :
    contains flag.text (written flag.text value line) = true :=
  contains_iff.mpr flag_infix_written

theorem filter_map_otherLine {step : Text → Text} (hstep : ∀ line ∈ texts,
    step line = line ∨ (otherLine line = false ∧ otherLine (step line) = false)) :
    (texts.map step).filter otherLine = texts.filter otherLine := by
  induction texts with
  | nil => rfl
  | cons line texts ih =>
      have hrest := ih fun other hother => hstep other (List.mem_cons_of_mem _ hother)
      rw [List.map_cons, List.filter_cons, List.filter_cons, hrest]
      rcases hstep line List.mem_cons_self with hsame | ⟨hold, hnew⟩
      · rw [hsame]
      · rw [hold, hnew]
        rfl

theorem filter_newLines (hclear : NameClear name.text) (hone : OneFlag texts) :
    (newLines name.text ip.text texts).filter otherLine = texts.filter otherLine := by
  have hmap : (texts.map (newLine name.text ip.text)).filter otherLine =
      texts.filter otherLine := by
    apply filter_map_otherLine
    intro line hmem
    rcases flag_cases hone hmem with hnone | ⟨flag, hflag⟩
    · exact .inl (newLine_of_none hnone)
    · rw [newLine_of_flag hclear hflag]
      exact .inr ⟨otherLine_of_flag ((hflag flag).mpr rfl),
        otherLine_of_flag (contains_written_own _ _)⟩
  rw [newLines]
  split
  · exact hmap
  · obtain ⟨before, extra, after, htexts, hinsert, hitem⟩ :=
      insertForceNewCluster_spec (texts.map (newLine name.text ip.text))
    have hextra : otherLine extra = false :=
      otherLine_of_force (force_of_forceLine hitem.recognised)
    rw [hinsert, List.filter_append, List.filter_cons, hextra, ← hmap, htexts,
      List.filter_append]
    rfl

theorem filter_existingLines (hclear : NameClear name.text) (hone : OneFlag texts) :
    (existingLines name.text ip.text texts).filter otherLine = texts.filter otherLine := by
  have hkept : (texts.filter fun line => !isForceNewClusterLine line).filter otherLine =
      texts.filter otherLine := by
    rw [List.filter_filter]
    apply List.filter_congr
    intro line _
    cases hforce : isForceNewClusterLine line with
    | false => simp
    | true => simp [otherLine_of_force (force_of_forceLine hforce)]
  rw [existingLines, filter_map_otherLine, hkept]
  intro line hmem
  rcases @existingLine_cases _ ip _ _ hclear hone (List.mem_of_mem_filter hmem) with
    ⟨hsame, -⟩ | ⟨flag, -, hcontains, hset⟩
  · exact .inl hsame
  · rw [hset]
    exact .inr ⟨otherLine_of_flag hcontains, otherLine_of_flag (contains_written_own _ _)⟩

/-- The value of a flag that is written on every line it is found on. -/
theorem findSome?_flagOf {value : Text} (hends : EndsPlain value)
    (hstart : value.head?.any isWhite = false) (hopen : value.head? ≠ some '"')
    (hclose : value.getLast? ≠ some '"')
    (hlines : ∀ line ∈ texts, contains flag.text line = true →
      ∃ old, line = written flag.text value old)
    (hmem : ∃ line ∈ texts, contains flag.text line = true) :
    texts.findSome? (flagOf flag.text) = some value := by
  induction texts with
  | nil =>
      obtain ⟨line, hline, -⟩ := hmem
      exact absurd hline List.not_mem_nil
  | cons line texts ih =>
      rw [List.findSome?_cons]
      by_cases hflag : contains flag.text line = true
      · obtain ⟨old, rfl⟩ := hlines line List.mem_cons_self hflag
        rw [flagOf_written hends hstart hopen hclose]
      · have hnone : flagOf flag.text line = none :=
          flagOf_eq_none fun hoccurs => hflag (contains_iff.mpr hoccurs)
        obtain ⟨later, hlater, hfound⟩ := hmem
        have hlater : later ∈ texts := by
          rcases List.mem_cons.mp hlater with rfl | h
          · exact absurd hfound hflag
          · exact h
        rw [hnone]
        exact ih (fun other hother => hlines other (List.mem_cons_of_mem _ hother))
          ⟨later, hlater, hfound⟩

/-- A value starts plainly and ends in no quote unless the name does not. -/
theorem value_plain (hquotes : name.text.head? ≠ some '"' ∧ name.text.getLast? ≠ some '"')
    {clusterState : Text} (hstate : clusterState ∈ [newState, existingState])
    (flag : CommandFlag) :
    (flag.value name.text ip.text clusterState).head?.any isWhite = false ∧
      (flag.value name.text ip.text clusterState).head? ≠ some '"' ∧
      (flag.value name.text ip.text clusterState).getLast? ≠ some '"' := by
  have hpeer : (peerUrl ip.text).getLast? = some '0' := by
    rw [peerUrl, List.getLast?_append]
    rfl
  have hwhite : name.text.head?.any isWhite = false := by
    cases hhead : name.text.head? with
    | none => rfl
    | some c => exact name.noWhite c (List.mem_of_head? hhead)
  have hhttps : ∀ text : Text, (https ++ text).head? = some 'h' := fun _ => rfl
  cases flag with
  | name => exact ⟨hwhite, hquotes⟩
  | clientUrls =>
      have hlast : (clientUrls ip.text).getLast? = some '9' := by
        rw [clientUrls, List.getLast?_append]
        rfl
      have hhead : (clientUrls ip.text).head? = some 'h' := by
        rw [clientUrls, List.append_assoc, hhttps]
      rw [CommandFlag.value, hhead, hlast]
      decide
  | peerUrls =>
      have hhead : (peerUrl ip.text).head? = some 'h' := by
        rw [peerUrl, List.append_assoc, hhttps]
      rw [CommandFlag.value, hhead, hpeer]
      decide
  | cluster =>
      obtain ⟨first, rest, hname⟩ := List.exists_cons_of_ne_nil name.nonempty
      have hhead : (entry name.text (peerUrl ip.text)).head? = name.text.head? := by
        rw [entry, hname]
        rfl
      have hlast : (entry name.text (peerUrl ip.text)).getLast? = some '0' := by
        rw [entry, List.getLast?_append, List.getLast?_cons, hpeer]
        rfl
      rw [CommandFlag.value, hhead, hlast]
      exact ⟨hwhite, hquotes.1, by decide⟩
  | state =>
      have hnew : newState.head?.any isWhite = false ∧ newState.head? ≠ some '"' ∧
          newState.getLast? ≠ some '"' := by decide
      have hexisting : existingState.head?.any isWhite = false ∧
          existingState.head? ≠ some '"' ∧ existingState.getLast? ≠ some '"' := by decide
      simp only [List.mem_cons, List.not_mem_nil, or_false] at hstate
      rcases hstate with rfl | rfl
      · exact hnew
      · exact hexisting

/-- Each flag is on a line of the manifest that starts the member alone. -/
theorem written_mem_newLines (hclear : NameClear name.text) (hone : OneFlag texts)
    (hmem : line ∈ texts) (hflag : contains flag.text line = true) :
    written flag.text (flag.value name.text ip.text newState) line ∈
      newLines name.text ip.text texts := by
  have hline : newLine name.text ip.text line =
      written flag.text (flag.value name.text ip.text newState) line :=
    newLine_of_flag hclear fun other =>
      ⟨fun hother => hone line hmem other flag hother hflag, fun h => h ▸ hflag⟩
  exact hline ▸ newLine_mem_newLines hmem

/-- The flag is on one line when the member starts alone. -/
theorem countP_newLines (hclear : NameClear name.text)
    (hname : ¬ forceNewClusterFlag <:+: name.text) (hone : OneFlag texts)
    (honce : texts.countP (contains forceNewClusterFlag) ≤ 1)
    (hapart : ∀ line ∈ texts, contains forceNewClusterFlag line = true →
      ∀ flag : CommandFlag, contains flag.text line = false) :
    (newLines name.text ip.text texts).countP (contains forceNewClusterFlag) = 1 := by
  have hsame : (texts.map (newLine name.text ip.text)).countP (contains forceNewClusterFlag) =
      texts.countP (contains forceNewClusterFlag) := by
    rw [List.countP_map]
    apply List.countP_congr
    intro line hmem
    rw [Function.comp_apply]
    rcases flag_cases hone hmem with hnone | ⟨flag, hflag⟩
    · rw [newLine_of_none hnone]
    · have hnot : contains forceNewClusterFlag line = false := by
        rw [Bool.eq_false_iff]
        intro hforce
        have hown := (hflag flag).mpr rfl
        rw [hapart line hmem hforce flag] at hown
        cases hown
      rw [newLine_of_flag hclear hflag, written_noForce hname newState_mem, hnot]
  rw [newLines]
  split
  · rename_i hany
    obtain ⟨line, hmem, hforce⟩ := List.any_eq_true.mp hany
    have hpos := List.countP_pos_iff.mpr ⟨line, hmem, hforce⟩
    omega
  · rename_i hany
    have hnone : (texts.map (newLine name.text ip.text)).countP
        (contains forceNewClusterFlag) = 0 := by
      rw [List.countP_eq_zero]
      intro line hmem hforce
      exact hany (List.any_eq_true.mpr ⟨line, hmem, hforce⟩)
    obtain ⟨before, extra, after, htexts, hinsert, hitem⟩ :=
      insertForceNewCluster_spec (texts.map (newLine name.text ip.text))
    rw [htexts, List.countP_append] at hnone
    rw [hinsert, List.countP_append,
      List.countP_cons_of_pos (force_of_forceLine hitem.recognised)]
    omega

/-- When the member is joined up again the flag is gone. -/
theorem countP_existingLines (hclear : NameClear name.text)
    (hname : ¬ forceNewClusterFlag <:+: name.text) (hone : OneFlag texts)
    (hrecognised : ∀ line ∈ texts, contains forceNewClusterFlag line = true →
      isForceNewClusterLine line = true) :
    (existingLines name.text ip.text (newLines name.text ip.text texts)).countP
      (contains forceNewClusterFlag) = 0 := by
  rw [List.countP_eq_zero]
  intro line hmem hforce
  rcases mem_existingLines hclear hone hmem with ⟨hsource, hnot, -⟩ | ⟨flag, old, rfl⟩
  · rw [hrecognised line hsource hforce] at hnot
    cases hnot
  · rw [written_noForce hname existingState_mem] at hforce
    cases hforce

/-- The values in the manifest that starts the member alone. -/
theorem values_newLines (hclear : NameClear name.text)
    (hquotes : name.text.head? ≠ some '"' ∧ name.text.getLast? ≠ some '"')
    (hone : OneFlag texts) (hmem : ∃ line ∈ texts, contains flag.text line = true) :
    (newLines name.text ip.text texts).findSome? (flagOf flag.text) =
      some (flag.value name.text ip.text newState) := by
  obtain ⟨hstart, hopen, hclose⟩ := @value_plain _ ip hquotes _ newState_mem flag
  obtain ⟨line, hline, hflag⟩ := hmem
  apply findSome?_flagOf (value_endsPlain newState_mem) hstart hopen hclose
  · intro other hother hcontains
    rcases mem_newLines hclear hone hother with ⟨-, hnone⟩ | ⟨owner, old, rfl⟩ | hitem
    · simp [hnone flag] at hcontains
    · rw [contains_written_clear hclear newState_mem] at hcontains
      exact ⟨old, by rw [hcontains]⟩
    · simp [hitem.noFlag flag] at hcontains
  · exact ⟨_, written_mem_newLines hclear hone hline hflag, contains_written_own _ _⟩

/-- The values in the manifest that joins the member up again. -/
theorem values_existingLines (hclear : NameClear name.text)
    (hforce : ¬ forceNewClusterFlag <:+: name.text)
    (hquotes : name.text.head? ≠ some '"' ∧ name.text.getLast? ≠ some '"')
    (hone : OneFlag texts) (hmem : ∃ line ∈ texts, contains flag.text line = true) :
    (existingLines name.text ip.text (newLines name.text ip.text texts)).findSome?
        (flagOf flag.text) = some (flag.value name.text ip.text existingState) := by
  obtain ⟨hstart, hopen, hclose⟩ := @value_plain _ ip hquotes _ existingState_mem flag
  obtain ⟨line, hline, hflag⟩ := hmem
  apply findSome?_flagOf (value_endsPlain existingState_mem) hstart hopen hclose
  · intro other hother hcontains
    rcases mem_existingLines hclear hone hother with ⟨-, -, hnone⟩ | ⟨owner, old, rfl⟩
    · simp [hnone flag] at hcontains
    · rw [contains_written_clear hclear existingState_mem] at hcontains
      exact ⟨old, by rw [hcontains]⟩
  · refine ⟨written flag.text (flag.value name.text ip.text existingState) line, ?_,
      contains_written_own _ _⟩
    rw [← existingLine_written hclear line]
    apply List.mem_map_of_mem
    rw [List.mem_filter, written_not_forceLine hforce newState_mem]
    exact ⟨written_mem_newLines hclear hone hline hflag, rfl⟩

end Manifest

section Texts

variable {yaml : Text} {name : Hostname} {ip : IpText}

theorem FlagManifest.oneLine (hyaml : FlagManifest yaml) : OneLine (lines yaml) :=
  oneLine_lines hyaml.lineEnds

/-- The lines of the two manifests. -/
theorem FlagManifest.rewritten (hyaml : FlagManifest yaml) :
    lines (patchEtcdManifestForceNewCluster yaml name.text ip.text) =
        newLines name.text ip.text (lines yaml) ∧
      lines (finalizeEtcdManifestAfterForceNew
          (patchEtcdManifestForceNewCluster yaml name.text ip.text) name.text ip.text) =
        existingLines name.text ip.text (newLines name.text ip.text (lines yaml)) := by
  obtain ⟨hpatch, hpatchOne⟩ := @lines_patch name ip _ hyaml.oneLine
  have hnew : lines (patchEtcdManifestForceNewCluster yaml name.text ip.text) =
      newLines name.text ip.text (lines yaml) := by rw [hpatch, lines_of_oneLines hpatchOne]
  rw [← hnew] at hpatchOne
  obtain ⟨hfinal, hfinalOne⟩ := @lines_finalize name ip _ hpatchOne
  rw [hfinal, lines_of_oneLines hfinalOne, hnew]
  exact ⟨rfl, rfl⟩

theorem finalize_finalize {manifest : Text} (hclear : NameClear name.text)
    (hforce : ¬ forceNewClusterFlag <:+: name.text) (hlines : OneLine (lines manifest))
    (hone : OneFlag (lines manifest)) :
    finalizeEtcdManifestAfterForceNew
        (finalizeEtcdManifestAfterForceNew manifest name.text ip.text) name.text ip.text =
      finalizeEtcdManifestAfterForceNew manifest name.text ip.text := by
  obtain ⟨hfinal, hfinalOne⟩ := @lines_finalize name ip _ hlines
  have htext : lines (finalizeEtcdManifestAfterForceNew manifest name.text ip.text) =
      existingLines name.text ip.text (lines manifest) := by
    rw [hfinal, lines_of_oneLines hfinalOne]
  rw [← htext] at hfinalOne
  obtain ⟨hagain, -⟩ := @lines_finalize name ip _ hfinalOne
  rw [hagain, htext, existingLines_existingLines hclear hforce hone, ← hfinal]

theorem Recognisable.startsAlone (hyaml : FlagManifest yaml)
    (hgood : Recognisable yaml name.text) : StartsAlone yaml name.text ip.text := by
  obtain ⟨hnew, hexisting⟩ := @FlagManifest.rewritten yaml name ip hyaml
  obtain ⟨hpatch, hpatchOne⟩ := @lines_patch name ip _ hyaml.oneLine
  have hmem : ∀ flag : CommandFlag, ∃ line ∈ lines yaml, contains flag.text line = true := by
    intro flag
    rw [← List.countP_pos_iff, hyaml.once flag]
    exact Nat.one_pos
  have honeNew := @oneFlag_newLines _ ip _ hgood.flags hyaml.apart
  refine ⟨?_, ?_, ?_, ?_, ?_, ?_, ?_, ?_, ?_⟩
  · intro flag _
    rw [etcdFlagValue, hnew]
    exact values_newLines hgood.flags hgood.quotes hyaml.apart (hmem flag)
  · intro flag _
    rw [etcdFlagValue, hexisting]
    exact values_existingLines hgood.flags hgood.force hgood.quotes hyaml.apart (hmem flag)
  · rw [hnew, filter_newLines hgood.flags hyaml.apart]
  · rw [hexisting, filter_existingLines hgood.flags honeNew,
      filter_newLines hgood.flags hyaml.apart]
  · rw [hnew]
    exact countP_newLines hgood.flags hgood.force hyaml.apart hyaml.forceOnce hyaml.forceApart
  · rw [hexisting]
    exact countP_existingLines hgood.flags hgood.force hyaml.apart hgood.line
  · rw [← hnew] at hpatchOne
    obtain ⟨hagain, -⟩ := @lines_patch name ip _ hpatchOne
    rw [hagain, hnew, newLines_newLines hgood.flags hyaml.apart, ← hpatch]
  · exact finalize_finalize hgood.flags hgood.force hyaml.oneLine hyaml.apart
  · rw [← hnew] at hpatchOne honeNew
    exact finalize_finalize hgood.flags hgood.force hpatchOne honeNew

/-- An item of another flag than `--initial-cluster=` has no second flag on it. -/
theorem setFlags_written_plain {flag : CommandFlag} (hflag : flag ≠ .cluster)
    (flags : List CommandFlag) (line : Text) :
    setFlags (CommandFlag.value name.text ip.text newState) flags
        (written flag.text (flag.value name.text ip.text newState) line) =
      written flag.text (flag.value name.text ip.text newState) line := by
  induction flags with
  | nil => rfl
  | cons other flags ih =>
      have hother : contains other.text (written flag.text
          (flag.value name.text ip.text newState) line) = true ↔ other = flag := by
        rw [contains_iff, infix_written_iff (equals_notMem_value hflag newState_mem)]
      by_cases hsame : other = flag
      · subst hsame
        rw [setFlags_cons, setFlag_of_flag (hother.mpr rfl),
          written_written (value_endsPlain newState_mem), ih]
      · rw [setFlags_cons, setFlag_of_not (Bool.eq_false_iff.mpr fun h => hsame (hother.mp h)),
          ih]

/-- A line with a flag whose stem the name ends in becomes an item of some other flag than
`--initial-cluster=`. -/
theorem setFlags_lost {flag : CommandFlag} (hflag : flag ≠ .cluster)
    (hstem : flag.stem <:+ name.text) {flags : List CommandFlag} (hmem : flag ∈ flags)
    {line : Text} (hline : contains flag.text line = true) :
    ∃ (other : CommandFlag) (old : Text), other ≠ .cluster ∧
      setFlags (CommandFlag.value name.text ip.text newState) flags line =
        written other.text (other.value name.text ip.text newState) old := by
  induction flags generalizing line with
  | nil => exact absurd hmem List.not_mem_nil
  | cons first flags ih =>
      rw [setFlags_cons]
      by_cases hfirst : contains first.text line = true
      · rw [setFlag_of_flag hfirst]
        by_cases hcluster : first = .cluster
        · have hlater : flag ∈ flags :=
            (List.mem_cons.mp hmem).resolve_left fun h => hflag (h.trans hcluster)
          apply ih hlater
          rw [contains_iff, contains_written newState_mem]
          exact .inr ⟨hcluster, hstem⟩
        · exact ⟨first, line, hcluster, setFlags_written_plain hcluster flags line⟩
      · have hlater : flag ∈ flags := (List.mem_cons.mp hmem).resolve_left fun h =>
          hfirst (h ▸ hline)
        rw [setFlag_of_not (Bool.eq_false_iff.mpr hfirst)]
        exact ih hlater hline

/-- What the flag's value is read from has the value on it. -/
theorem value_infix_of_flagOf {flag line value : Text} (hread : flagOf flag line = some value) :
    flag <:+: line ∧ value <:+: line := by
  rw [flagOf] at hread
  cases hcut : cut flag line with
  | none => simp [hcut] at hread
  | some around =>
      have hline : line = around.1 ++ flag ++ around.2 := (cut_append hcut).trans (by simp)
      simp only [hcut] at hread
      split at hread
      · cases hread
      · have hsuffix : trimStartMatches ['"'] (trim around.2) <:+: line := by
          refine (trimStartMatches_suffix _ _).isInfix.trans ?_
          have htrim : trim around.2 <:+: around.2 :=
            (List.rdropWhile_prefix _ _).isInfix.trans (List.dropWhile_suffix _).isInfix
          exact htrim.trans ⟨around.1 ++ flag, [], by rw [hline, List.append_nil]⟩
        rw [← Option.some.inj hread]
        exact ⟨⟨around.1, around.2, hline.symm⟩, (List.rdropWhile_prefix _ _).isInfix.trans hsuffix⟩

/-- Nothing is left to be done on the lines of a manifest that is not changed again. -/
theorem newLine_of_stable (hyaml : FlagManifest yaml)
    (hstable : patchEtcdManifestForceNewCluster
        (patchEtcdManifestForceNewCluster yaml name.text ip.text) name.text ip.text =
      patchEtcdManifestForceNewCluster yaml name.text ip.text) {line : Text}
    (hmem : line ∈ newLines name.text ip.text (lines yaml)) :
    newLine name.text ip.text line = line := by
  obtain ⟨hpatch, hpatchOne⟩ := @lines_patch name ip _ hyaml.oneLine
  have hnew := (@FlagManifest.rewritten yaml name ip hyaml).1
  have hagain : newLines name.text ip.text (newLines name.text ip.text (lines yaml)) =
      newLines name.text ip.text (lines yaml) := by
    rw [← hnew] at hpatchOne
    obtain ⟨htext, hone⟩ := @lines_patch name ip _ hpatchOne
    rw [hnew] at htext hone
    rw [← lines_of_oneLines hone, ← htext, hstable, hnew]
  have hsame : (newLines name.text ip.text (lines yaml)).map (newLine name.text ip.text) =
      newLines name.text ip.text (lines yaml) := by
    conv at hagain => lhs; rw [newLines]
    split at hagain
    · exact hagain
    · obtain ⟨before, extra, after, htexts, hinsert, -⟩ := insertForceNewCluster_spec
        ((newLines name.text ip.text (lines yaml)).map (newLine name.text ip.text))
      have hlonger := congrArg List.length hagain
      have hlength := congrArg List.length htexts
      rw [hinsert] at hlonger
      simp only [List.length_append, List.length_cons, List.length_map] at hlonger hlength
      omega
  exact List.map_inj_left.mp (hsame.trans (List.map_id _).symm) line hmem

theorem StartsAlone.nameClear (hyaml : FlagManifest yaml)
    (hstarts : StartsAlone yaml name.text ip.text) : NameClear name.text := by
  intro flag hflag hstem
  have hvalue := hstarts.newValues .cluster (by decide)
  rw [etcdFlagValue, (@FlagManifest.rewritten yaml name ip hyaml).1] at hvalue
  obtain ⟨line, hmem, hread⟩ := List.exists_of_findSome?_eq_some hvalue
  obtain ⟨hcluster, hentry⟩ := value_infix_of_flagOf hread
  have hcontains : contains flag.text line = true := by
    obtain ⟨front, hname⟩ := hstem
    rw [contains_iff]
    refine List.IsInfix.trans ?_ hentry
    exact ⟨front, peerUrl ip.text, by
      simp [CommandFlag.value, entry, CommandFlag.text, ← hname]⟩
  obtain ⟨other, old, hother, hlost⟩ := @setFlags_lost _ ip _ hflag hstem _
    (aloneFlags_mem flag) _ hcontains
  have hsame := newLine_of_stable hyaml hstarts.newStable hmem
  rw [newLine, hlost] at hsame
  rw [← hsame, infix_written_iff (equals_notMem_value hother newState_mem)] at hcluster
  exact hother hcluster.symm

/-- A line that the flag is recognised on has no value. -/
theorem noValue_of_forceLine {line : Text} (hforce : isForceNewClusterLine line = true) :
    '=' ∉ line := by
  rw [isForceNewClusterLine, decide_eq_true_eq] at hforce
  intro hmem
  have hstart : '=' ∈ trimStart line := mem_dropWhile_of_mem hmem (by decide)
  have hmarker := @mem_trimStartMatches "- ".toList _ _ hstart (by decide)
  have hquote := @mem_trimStartMatches ['"'] _ _ hmarker (by decide)
  have hend : '=' ∈ forceNewClusterFlag := by
    rw [← hforce, trimEndMatches, List.rdropWhile, List.mem_reverse]
    exact mem_dropWhile_of_mem (List.mem_reverse.mpr hquote) (by decide)
  exact absurd hend (by decide)

theorem StartsAlone.recognisable (hyaml : FlagManifest yaml)
    (hstarts : StartsAlone yaml name.text ip.text) : Recognisable yaml name.text := by
  have hclear := hstarts.nameClear hyaml
  obtain ⟨hnew, hexisting⟩ := @FlagManifest.rewritten yaml name ip hyaml
  have hgone : ∀ line ∈ newLines name.text ip.text (lines yaml),
      isForceNewClusterLine line = false →
      contains forceNewClusterFlag (existingLine name.text ip.text line) = false := by
    intro line hmem hnot
    have hnone := hstarts.unforced
    rw [hexisting, List.countP_eq_zero] at hnone
    apply Bool.eq_false_iff.mpr
    apply hnone
    apply List.mem_map_of_mem
    rw [List.mem_filter, hnot]
    exact ⟨hmem, rfl⟩
  refine ⟨hclear, ?_, ?_, ?_⟩
  · intro hforce
    obtain ⟨line, hmem, hflag⟩ : ∃ line ∈ lines yaml,
        contains CommandFlag.name.text line = true := by
      rw [← List.countP_pos_iff, hyaml.once .name]
      exact Nat.one_pos
    have hwritten := @written_mem_newLines _ ip _ _ _ hclear hyaml.apart hmem hflag
    have hnot : isForceNewClusterLine (written CommandFlag.name.text
        (CommandFlag.name.value name.text ip.text newState) line) = false := by
      rw [Bool.eq_false_iff]
      intro hrecognised
      apply noValue_of_forceLine hrecognised
      rw [written_eq]
      simp
    have hafter := hgone _ hwritten hnot
    rw [existingLine_written hclear, Bool.eq_false_iff, Ne, contains_iff,
      force_infix_written] at hafter
    exact hafter hforce
  · have hvalue := hstarts.newValues .name (by decide)
    rw [etcdFlagValue] at hvalue
    obtain ⟨line, -, hread⟩ := List.exists_of_findSome?_eq_some hvalue
    exact flagOf_plain hread
  · intro line hmem hforce
    by_contra hnot
    rw [Bool.not_eq_true] at hnot
    have hnone := hyaml.forceApart line hmem hforce
    have hkept := @newLine_mem_newLines name ip _ _ hmem
    rw [newLine_of_none hnone] at hkept
    have hafter := hgone line hkept hnot
    rw [existingLine, setFlags_of_not fun flag _ => hnone flag, hforce] at hafter
    cases hafter

/-- The two functions do what they should exactly when the name hides no flag and no quotes,
and a `--force-new-cluster` that is there already is one that is taken out again. -/
theorem starts_alone_iff (yaml : Text) (hyaml : FlagManifest yaml) (name : Hostname)
    (ip : IpText) : StartsAlone yaml name.text ip.text ↔ Recognisable yaml name.text :=
  ⟨StartsAlone.recognisable hyaml, Recognisable.startsAlone hyaml⟩

end Texts

section Sample

/-- The command of a member that is one of three. -/
def sampleManifest : Text := unlines
  ["- --advertise-client-urls=https://10.1.1.178:2379".toList,
    "- --data-dir=/var/lib/etcd".toList,
    "- --initial-advertise-peer-urls=https://10.1.1.178:2380".toList,
    "- --initial-cluster=cp-1=https://10.1.1.178:2380,cp-2=https://10.1.1.179:2380".toList,
    "- --initial-cluster-state=existing".toList,
    "- --name=cp-1".toList]

theorem oneFlag_of_all {texts : List Text} (hall : (texts.all fun line =>
    (aloneFlags.filter fun flag => contains flag.text line).length ≤ 1) = true) :
    OneFlag texts := by
  intro line hmem flag other hflag hother
  have hone := List.all_eq_true.mp hall line hmem
  rw [decide_eq_true_eq] at hone
  have hfirst : flag ∈ aloneFlags.filter fun flag => contains flag.text line :=
    List.mem_filter.mpr ⟨aloneFlags_mem flag, hflag⟩
  have hsecond : other ∈ aloneFlags.filter fun flag => contains flag.text line :=
    List.mem_filter.mpr ⟨aloneFlags_mem other, hother⟩
  obtain ⟨only, honly⟩ := List.length_eq_one_iff.mp
    (le_antisymm hone (List.length_pos_of_mem hfirst))
  rw [honly, List.mem_singleton] at hfirst hsecond
  rw [hfirst, hsecond]

theorem sampleManifest_flags : FlagManifest sampleManifest where
  lineEnds := by decide +kernel
  once := by
    have honce : ∀ flag ∈ aloneFlags,
        (lines sampleManifest).countP (contains flag.text) = 1 := by decide +kernel
    exact fun flag => honce flag (aloneFlags_mem flag)
  apart := oneFlag_of_all (by decide +kernel)
  forceOnce := by decide +kernel
  forceApart := by
    have hnone : ∀ line ∈ lines sampleManifest, contains forceNewClusterFlag line = false := by
      decide +kernel
    intro line hmem hforce
    simp [hnone line hmem] at hforce

def sampleIp : IpText := ⟨"10.1.1.180".toList, by decide⟩

theorem starts_alone_iff_sample :
    StartsAlone sampleManifest "cp-1".toList sampleIp.text ↔
      Recognisable sampleManifest "cp-1".toList :=
  starts_alone_iff sampleManifest sampleManifest_flags
    (Hostname.ofText "cp-1".toList (by decide)) sampleIp

/-- The entry of a member that is called `db--name` is taken for the flag of the name. -/
theorem name_hides_flag : ¬ ∀ (yaml : Text) (name : Hostname) (ip : IpText),
    FlagManifest yaml → StartsAlone yaml name.text ip.text := by
  intro hclaim
  have hstarts := hclaim sampleManifest (Hostname.ofText "db--name".toList (by decide)) sampleIp
    sampleManifest_flags
  have hclear := hstarts.nameClear sampleManifest_flags
  exact hclear .name (by decide) ⟨"db".toList, by decide⟩

end Sample

end PertiskKos.Etcd
