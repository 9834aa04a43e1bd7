import PertiskKos.Bootstrap.Kubeconfig

/-!
# Renaming the cluster of a kubeconfig

A kubeconfig in block style is a list of sections whose entries have a name and a body, in
either order and at any indentation.  Renaming puts the new name into every reference to a
cluster and into `current-context`, but into an entry only where its name is on a line of its
own in the third column.  What is left refers to entries that exist exactly if such an entry
is there or an entry had the new name already.
-/

namespace PertiskKos.Bootstrap.Rename

open Strings Lines

/-! ## Kubeconfigs in block style -/

def spaces (n : Nat) : Text := List.replicate n ' '

def sectionWords : List Text :=
  ["clusters:".toList, "users:".toList, "contexts:".toList, "current-context:".toList]

/-- A line that is no key of the format by which entries refer to each other: another key with
its value, a part of a longer value, a comment, an empty line. -/
structure InertLine where
  indent : Nat
  content : Text
  starts : ∀ c ∈ content.head?, isWhite c = false
  no_section : ∀ word ∈ sectionWords, startsWith content word = false
  no_cluster : startsWith content "cluster:".toList = false
  no_name : startsWith content "name:".toList = true → indent ≠ 2

def InertLine.text (line : InertLine) : Text := spaces line.indent ++ line.content

/-- A line in the body of an entry. -/
inductive BodyLine where
  /-- The cluster of a context: what follows the colon. -/
  | cluster (indent : Nat) (value : Text)
  | inert (line : InertLine)

namespace BodyLine

def text : BodyLine → Text
  | cluster indent value => spaces indent ++ ("cluster:".toList ++ value)
  | inert line => line.text

def reference : BodyLine → Option Text
  | cluster _ value => some value
  | inert _ => none

def rename (name : Text) : BodyLine → BodyLine
  | cluster indent _ => cluster indent (' ' :: name)
  | inert line => inert line

end BodyLine

inductive Kind where
  | clusters
  | users
  | contexts
  deriving DecidableEq, Repr

namespace Kind

def header : Kind → Text
  | clusters => "clusters:".toList
  | users => "users:".toList
  | contexts => "contexts:".toList

/-- The key of the body of an entry. -/
def key : Kind → Text
  | clusters => "cluster:".toList
  | users => "user:".toList
  | contexts => "context:".toList

end Kind

/-- An entry: what follows the colons of its name and of its body's key, and the lines behind
each of them. -/
structure Entry where
  item : Nat
  gap : Nat
  gap_pos : 0 < gap
  nameFirst : Bool
  name : Text
  nameLines : List InertLine
  body : Text
  bodyLines : List BodyLine

namespace Entry

variable (entry : Entry)

def column : Nat := entry.item + 1 + entry.gap

def dash : Text := spaces entry.item ++ '-' :: spaces entry.gap

def lines (kind : Kind) : List Text :=
  if entry.nameFirst then
    (entry.dash ++ ("name:".toList ++ entry.name)) :: entry.nameLines.map InertLine.text ++
      (spaces entry.column ++ (kind.key ++ entry.body)) :: entry.bodyLines.map BodyLine.text
  else
    (entry.dash ++ (kind.key ++ entry.body)) :: entry.bodyLines.map BodyLine.text ++
      (spaces entry.column ++ ("name:".toList ++ entry.name)) ::
        entry.nameLines.map InertLine.text

def references : List Text := entry.bodyLines.filterMap BodyLine.reference

/-- The name is on a line of its own, in the third column. -/
def Found : Prop := entry.nameFirst = false ∧ entry.column = 2

instance : Decidable entry.Found := inferInstanceAs (Decidable (_ ∧ _))

def withName (name : Text) : Entry := { entry with name := ' ' :: name }

def withCluster (name : Text) : Entry :=
  { entry with bodyLines := entry.bodyLines.map (BodyLine.rename name) }

end Entry

/-- The first entry whose name is found gets the new one. -/
def renameFirst (name : Text) : List Entry → List Entry
  | [] => []
  | entry :: rest =>
      if entry.Found then entry.withName name :: rest else entry :: renameFirst name rest

inductive Item where
  | block (kind : Kind) (header : Text) (entries : List Entry)
  | currentContext (value : Text)
  | other (line : InertLine)

namespace Item

def lines : Item → List Text
  | .block kind header entries =>
      (kind.header ++ header) :: entries.flatMap (Entry.lines · kind)
  | currentContext value => ["current-context:".toList ++ value]
  | other line => [line.text]

def rename (name : Text) : Item → Item
  | .block .clusters header entries => .block .clusters header (renameFirst name entries)
  | .block .users header entries => .block .users header entries
  | .block .contexts header entries =>
      .block .contexts header (renameFirst name (entries.map (Entry.withCluster · name)))
  | currentContext _ => currentContext (' ' :: name)
  | other line => other line

def entries (kind : Kind) : Item → List Entry
  | .block found _ entries => if found = kind then entries else []
  | _ => []

def current : Item → Option Text
  | currentContext value => some value
  | _ => none

end Item

abbrev Items := List Item

def itemLines (items : Items) : List Text := items.flatMap Item.lines

def entriesOf (kind : Kind) (items : Items) : List Entry := items.flatMap (Item.entries kind)

def renameItems (name : Text) (items : Items) : Items := items.map (Item.rename name)

/-- A kubeconfig with contexts, each of which has a cluster, and with a current context. -/
structure Kubeconfig where
  items : Items
  contexts_ne : entriesOf .contexts items ≠ []
  contexts_cluster : ∀ entry ∈ entriesOf .contexts items, entry.references ≠ []
  current_ne : items.filterMap Item.current ≠ []

/-- Each context refers to a cluster entry, and the current context is an entry.  Values are
compared as they are read. -/
def Resolves {A : Type} (read : Text → A) (items : Items) : Prop :=
  (∀ entry ∈ entriesOf .contexts items, ∀ value ∈ entry.references,
      ∃ cluster ∈ entriesOf .clusters items, read cluster.name = read value) ∧
    ∀ value ∈ items.filterMap Item.current,
      ∃ context ∈ entriesOf .contexts items, read context.name = read value

/-! ## What the loop does to a line -/

section Lines

variable {name content : Text} {k : Nat} {state : RenameState}

theorem trimStart_spaces (hstarts : ∀ c ∈ content.head?, isWhite c = false) :
    trimStart (spaces k ++ content) = content := by
  have hall : ∀ c ∈ spaces k, isWhite c = true := fun c hc => by
    rw [List.eq_of_mem_replicate hc]
    decide
  rw [trimStart, List.dropWhile_append_of_pos hall]
  cases content with
  | nil => rfl
  | cons c content => exact List.dropWhile_cons_of_neg (by simp [hstarts c rfl])

theorem length_encode_spaces (k : Nat) : (Utf8.encode (spaces k)).length = k := by
  induction k with
  | zero => rfl
  | succ k ih =>
      have hcons : spaces (k + 1) = ' ' :: spaces k := rfl
      have hone : ' '.utf8Size = 1 := rfl
      rw [hcons, Utf8.length_encode_cons, ih, hone]
      omega

theorem indentOf_spaces (hstarts : ∀ c ∈ content.head?, isWhite c = false) :
    indentOf (spaces k ++ content) = k := by
  rw [indentOf, trimStart_spaces hstarts, Utf8.encode_append, List.length_append,
    length_encode_spaces]
  omega

/-- A line that is none of the keys is left alone. -/
theorem renameLine_inert (line : InertLine) : renameLine name state line.text = (state, line.text) := by
  have hwords := line.no_section
  simp only [sectionWords, List.forall_mem_cons] at hwords
  obtain ⟨hclusters, husers, hcontexts, hcurrent, -⟩ := hwords
  have htrim : trimStart line.text = line.content := trimStart_spaces line.starts
  have hindent : indentOf line.text = line.indent := indentOf_spaces line.starts
  simp only [renameLine, htrim, hindent, hclusters, husers, hcontexts, hcurrent,
    line.no_cluster, Bool.false_eq_true, if_false]
  cases hname : startsWith line.content "name:".toList with
  | false => simp
  | true => simp [line.no_name hname]

theorem renameLine_dash (item gap : Nat) (rest : Text) :
    renameLine name state (spaces item ++ '-' :: spaces gap ++ rest) =
      (state, spaces item ++ '-' :: spaces gap ++ rest) := by
  have hstarts : ∀ c ∈ ('-' :: (spaces gap ++ rest)).head?, isWhite c = false := by
    intro c hc
    obtain rfl : '-' = c := Option.some.inj hc
    decide
  have hline : spaces item ++ '-' :: spaces gap ++ rest =
      spaces item ++ '-' :: (spaces gap ++ rest) := by
    simp
  exact hline ▸ @renameLine_inert name state
    { indent := item, content := '-' :: (spaces gap ++ rest), starts := hstarts
      no_section := by
        simp only [sectionWords, List.forall_mem_cons]
        exact ⟨rfl, rfl, rfl, rfl, List.forall_mem_nil _⟩
      no_cluster := rfl
      no_name := fun h => by cases h }

/-- The flags inside a section. -/
def inSection (kind : Kind) (sawCluster sawContext : Bool) : RenameState :=
  { inClusters := kind = .clusters, inContexts := kind = .contexts
    sawClusterEntryName := sawCluster, sawContextEntryName := sawContext }

theorem renameLine_header (kind : Kind) (rest : Text) :
    (renameLine name state (kind.header ++ rest)).2 = kind.header ++ rest ∧
      (renameLine name state (kind.header ++ rest)).1 =
        inSection kind (kind ≠ .clusters && state.sawClusterEntryName)
          (kind ≠ .contexts && state.sawContextEntryName) := by
  cases kind with
  | clusters => exact ⟨rfl, rfl⟩
  | users => exact ⟨rfl, rfl⟩
  | contexts => exact ⟨rfl, rfl⟩

theorem renameLine_current (value : Text) :
    renameLine name state ("current-context:".toList ++ value) =
      (state, "current-context:".toList ++ ' ' :: name) := rfl

variable {sawCluster sawContext : Bool}

theorem key_head (kind : Kind) (rest : Text) :
    ∀ c ∈ (kind.key ++ rest).head?, isWhite c = false := by
  cases kind with
  | clusters => exact fun c hc => by obtain rfl : 'c' = c := Option.some.inj hc; decide
  | users => exact fun c hc => by obtain rfl : 'u' = c := Option.some.inj hc; decide
  | contexts => exact fun c hc => by obtain rfl : 'c' = c := Option.some.inj hc; decide

/-- The key of a body is left alone. -/
theorem renameLine_key (kind : Kind) (rest : Text) :
    renameLine name (inSection kind sawCluster sawContext) (spaces k ++ (kind.key ++ rest)) =
      (inSection kind sawCluster sawContext, spaces k ++ (kind.key ++ rest)) := by
  have htrim : trimStart (spaces k ++ (kind.key ++ rest)) = kind.key ++ rest :=
    trimStart_spaces (key_head kind rest)
  rw [renameLine, htrim]
  cases kind with
  | clusters => cases sawCluster <;> rfl
  | users => rfl
  | contexts => cases sawContext <;> rfl

/-- The name of an entry on a line of its own. -/
theorem renameLine_name (kind : Kind) (value : Text) :
    renameLine name (inSection kind sawCluster sawContext)
        (spaces k ++ ("name:".toList ++ value)) =
      match kind with
      | .clusters =>
          if sawCluster = false ∧ k = 2 then
            (inSection kind true sawContext, spaces 2 ++ ("name:".toList ++ ' ' :: name))
          else (inSection kind sawCluster sawContext, spaces k ++ ("name:".toList ++ value))
      | .users => (inSection kind sawCluster sawContext, spaces k ++ ("name:".toList ++ value))
      | .contexts =>
          if sawContext = false ∧ k = 2 then
            (inSection kind sawCluster true, spaces 2 ++ ("name:".toList ++ ' ' :: name))
          else (inSection kind sawCluster sawContext, spaces k ++ ("name:".toList ++ value)) := by
  have hstarts : ∀ c ∈ ("name:".toList ++ value).head?, isWhite c = false := by
    intro c hc
    obtain rfl : 'n' = c := Option.some.inj hc
    decide
  have htrim : trimStart (spaces k ++ ("name:".toList ++ value)) = "name:".toList ++ value :=
    trimStart_spaces hstarts
  have hindent : indentOf (spaces k ++ ("name:".toList ++ value)) = k := indentOf_spaces hstarts
  have hclusters : startsWith ("name:".toList ++ value) "clusters:".toList = false := rfl
  have husers : startsWith ("name:".toList ++ value) "users:".toList = false := rfl
  have hcontexts : startsWith ("name:".toList ++ value) "contexts:".toList = false := rfl
  have hcurrent : startsWith ("name:".toList ++ value) "current-context:".toList = false := rfl
  have hcluster : startsWith ("name:".toList ++ value) "cluster:".toList = false := rfl
  have hname : startsWith ("name:".toList ++ value) "name:".toList = true := rfl
  simp only [renameLine, htrim, hindent, hclusters, husers, hcontexts, hcurrent, hcluster, hname,
    Bool.false_eq_true, if_false]
  cases kind with
  | clusters =>
      cases sawCluster with
      | true => rfl
      | false =>
          by_cases hk : k = 2
          · subst hk
            rfl
          · simp [inSection, hk]
  | users => rfl
  | contexts =>
      cases sawContext with
      | true => rfl
      | false =>
          by_cases hk : k = 2
          · subst hk
            rfl
          · simp [inSection, hk]

/-- The key of a reference, which only contexts have. -/
theorem renameLine_cluster (kind : Kind) (value : Text) :
    renameLine name (inSection kind sawCluster sawContext)
        (spaces k ++ ("cluster:".toList ++ value)) =
      (inSection kind sawCluster sawContext,
        spaces k ++ ("cluster:".toList ++ if kind = .contexts then ' ' :: name else value)) := by
  have hstarts : ∀ c ∈ ("cluster:".toList ++ value).head?, isWhite c = false := by
    intro c hc
    obtain rfl : 'c' = c := Option.some.inj hc
    decide
  have htrim : trimStart (spaces k ++ ("cluster:".toList ++ value)) = "cluster:".toList ++ value :=
    trimStart_spaces hstarts
  have hindent : indentOf (spaces k ++ ("cluster:".toList ++ value)) = k :=
    indentOf_spaces hstarts
  rw [renameLine, htrim, hindent]
  cases kind with
  | clusters => cases sawCluster <;> rfl
  | users => rfl
  | contexts =>
      change (_, List.replicate k ' ' ++ "cluster: ".toList ++ name) = _
      rw [List.append_assoc]
      rfl

end Lines

/-! ## What it does to a kubeconfig -/

section Loop

variable {name : Text} {state : RenameState} {rest : List Text}

theorem renameLines_block {block : List Text}
    (hblock : ∀ line ∈ block, renameLine name state line = (state, line)) :
    renameLines name state (block ++ rest) = block ++ renameLines name state rest := by
  induction block with
  | nil => rfl
  | cons line block ih =>
      obtain ⟨hline, hblock⟩ := List.forall_mem_cons.mp hblock
      rw [List.cons_append, renameLines, hline, ih hblock]
      rfl

theorem renameLines_inert (lines : List InertLine) :
    renameLines name state (lines.map InertLine.text ++ rest) =
      lines.map InertLine.text ++ renameLines name state rest :=
  renameLines_block fun line hline => by
    obtain ⟨inert, -, rfl⟩ := List.mem_map.mp hline
    exact renameLine_inert inert

/-- What becomes of the body of an entry. -/
def bodyAfter (kind : Kind) (name : Text) (lines : List BodyLine) : List BodyLine :=
  if kind = .contexts then lines.map (BodyLine.rename name) else lines

variable {sawCluster sawContext : Bool}

theorem renameLines_body (kind : Kind) (lines : List BodyLine) :
    renameLines name (inSection kind sawCluster sawContext)
        (lines.map BodyLine.text ++ rest) =
      (bodyAfter kind name lines).map BodyLine.text ++
        renameLines name (inSection kind sawCluster sawContext) rest := by
  induction lines with
  | nil => cases kind <;> rfl
  | cons line lines ih =>
      have hline : renameLine name (inSection kind sawCluster sawContext) line.text =
          (inSection kind sawCluster sawContext,
            (if kind = .contexts then line.rename name else line).text) := by
        cases line with
        | inert inert =>
            have hsame : (if kind = .contexts then (BodyLine.inert inert).rename name
                else .inert inert) = .inert inert := by split <;> rfl
            rw [hsame]
            exact renameLine_inert inert
        | cluster indent value =>
            rw [BodyLine.text, renameLine_cluster]
            cases kind <;> rfl
      rw [List.map_cons, List.cons_append, renameLines, hline, ih]
      cases kind <;> rfl

/-- What becomes of an entry, in a section in which an entry has been found before or not. -/
def entryAfter (kind : Kind) (name : Text) (saw : Bool) (entry : Entry) : Entry :=
  let entry := { entry with bodyLines := bodyAfter kind name entry.bodyLines }
  if kind ≠ .users ∧ saw = false ∧ entry.Found then entry.withName name else entry

/-- The flags in a section, with whether an entry has been found in it. -/
def sectionState (kind : Kind) (saw other : Bool) : RenameState :=
  inSection kind (if kind = .clusters then saw else other) (if kind = .clusters then other else saw)

theorem renameLine_entryName (kind : Kind) (k : Nat) (value : Text) (saw other : Bool) :
    renameLine name (sectionState kind saw other) (spaces k ++ ("name:".toList ++ value)) =
      (sectionState kind (saw || (kind ≠ .users && k = 2)) other,
        spaces k ++ ("name:".toList ++
          if kind ≠ .users ∧ saw = false ∧ k = 2 then ' ' :: name else value)) := by
  rw [sectionState, renameLine_name]
  by_cases hk : k = 2
  · subst hk
    cases kind <;> cases saw <;> rfl
  · cases kind <;> cases saw <;> simp [hk, sectionState]

theorem renameLines_cons {next : RenameState} {line after : Text}
    (hline : renameLine name state line = (next, after)) :
    renameLines name state (line :: rest) = after :: renameLines name next rest := by
  rw [renameLines, hline]

theorem lines_nameFirst {entry : Entry} (hfirst : entry.nameFirst = true) (kind : Kind)
    (rest : List Text) :
    entry.lines kind ++ rest =
      (entry.dash ++ ("name:".toList ++ entry.name)) :: (entry.nameLines.map InertLine.text ++
        ((spaces entry.column ++ (kind.key ++ entry.body)) ::
          (entry.bodyLines.map BodyLine.text ++ rest))) := by
  rw [Entry.lines, hfirst, if_pos rfl, List.append_assoc]
  rfl

theorem lines_bodyFirst {entry : Entry} (hfirst : entry.nameFirst = false) (kind : Kind)
    (rest : List Text) :
    entry.lines kind ++ rest =
      (entry.dash ++ (kind.key ++ entry.body)) :: (entry.bodyLines.map BodyLine.text ++
        ((spaces entry.column ++ ("name:".toList ++ entry.name)) ::
          (entry.nameLines.map InertLine.text ++ rest))) := by
  rw [Entry.lines, hfirst, if_neg (by decide), List.append_assoc]
  rfl

/-- One entry of a section. -/
theorem renameLines_entry (kind : Kind) (entry : Entry) (saw other : Bool) :
    renameLines name (sectionState kind saw other) (entry.lines kind ++ rest) =
      (entryAfter kind name saw entry).lines kind ++
        renameLines name
          (sectionState kind (saw || (kind ≠ .users && decide entry.Found)) other) rest := by
  have hdash : ∀ state : RenameState, ∀ rest : Text,
      renameLine name state (entry.dash ++ rest) = (state, entry.dash ++ rest) :=
    fun _ => renameLine_dash entry.item entry.gap
  have hbody : ∀ saw, ∀ rest, renameLines name (sectionState kind saw other)
      (entry.bodyLines.map BodyLine.text ++ rest) =
        (bodyAfter kind name entry.bodyLines).map BodyLine.text ++
          renameLines name (sectionState kind saw other) rest :=
    fun saw rest => renameLines_body kind entry.bodyLines
  cases hfirst : entry.nameFirst with
  | true =>
      have hfound : ¬ entry.Found := fun h => by
        rw [h.1] at hfirst
        cases hfirst
      have hafter : entryAfter kind name saw entry =
          { entry with bodyLines := bodyAfter kind name entry.bodyLines } :=
        if_neg fun h => hfound h.2.2
      have hstate : (saw || (kind ≠ .users && decide entry.Found)) = saw := by simp [hfound]
      have hkey : renameLine name (sectionState kind saw other)
          (spaces entry.column ++ (kind.key ++ entry.body)) =
            (sectionState kind saw other, spaces entry.column ++ (kind.key ++ entry.body)) :=
        renameLine_key kind entry.body
      have hsame : ({ entry with bodyLines := bodyAfter kind name entry.bodyLines } :
          Entry).nameFirst = true := hfirst
      rw [hafter, hstate, lines_nameFirst hfirst, lines_nameFirst hsame,
        renameLines_cons (hdash _ _), renameLines_inert, renameLines_cons hkey, hbody]
      rfl
  | false =>
      have hfound : entry.Found ↔ entry.column = 2 := and_iff_right hfirst
      have hsame : (entryAfter kind name saw entry).nameFirst = false := by
        rw [entryAfter]
        split <;> exact hfirst
      have hname := @renameLine_entryName name kind entry.column entry.name saw other
      rw [lines_bodyFirst hfirst, lines_bodyFirst hsame, renameLines_cons (hdash _ _), hbody,
        renameLines_cons hname, renameLines_inert]
      have hdecide : decide entry.Found = decide (entry.column = 2) := decide_eq_decide.mpr hfound
      rw [hdecide]
      by_cases hrenamed : kind ≠ .users ∧ saw = false ∧ entry.column = 2
      · have hafter : entryAfter kind name saw entry =
            ({ entry with bodyLines := bodyAfter kind name entry.bodyLines } : Entry).withName name :=
          if_pos ⟨hrenamed.1, hrenamed.2.1, hfirst, hrenamed.2.2⟩
        rw [if_pos hrenamed, hafter]
        rfl
      · have hafter : entryAfter kind name saw entry =
            { entry with bodyLines := bodyAfter kind name entry.bodyLines } :=
          if_neg fun h => hrenamed ⟨h.1, h.2.1, h.2.2.2⟩
        rw [if_neg hrenamed, hafter]
        rfl

def entriesAfter (kind : Kind) (name : Text) : Bool → List Entry → List Entry
  | _, [] => []
  | saw, entry :: rest =>
      entryAfter kind name saw entry ::
        entriesAfter kind name (saw || (kind ≠ .users && decide entry.Found)) rest

theorem renameLines_entries (kind : Kind) (entries : List Entry) (saw other : Bool) :
    ∃ last, ∀ rest, renameLines name (sectionState kind saw other)
        (entries.flatMap (Entry.lines · kind) ++ rest) =
      (entriesAfter kind name saw entries).flatMap (Entry.lines · kind) ++
        renameLines name (sectionState kind last other) rest := by
  induction entries generalizing saw with
  | nil => exact ⟨saw, fun rest => rfl⟩
  | cons entry entries ih =>
      obtain ⟨last, hlast⟩ := ih (saw || (kind ≠ .users && decide entry.Found))
      refine ⟨last, fun rest => ?_⟩
      rw [List.flatMap_cons, List.append_assoc, renameLines_entry, hlast, ← List.append_assoc]
      rfl

theorem entriesAfter_saw (kind : Kind) (name : Text) (entries : List Entry) :
    entriesAfter kind name true entries =
      if kind = .contexts then entries.map (Entry.withCluster · name) else entries := by
  induction entries with
  | nil => cases kind <;> rfl
  | cons entry entries ih =>
      rw [entriesAfter, Bool.true_or, ih]
      cases kind <;> rfl

theorem entriesAfter_users (saw : Bool) (name : Text) (entries : List Entry) :
    entriesAfter .users name saw entries = entries := by
  induction entries generalizing saw with
  | nil => rfl
  | cons entry entries ih =>
      rw [entriesAfter, ih]
      rfl

theorem entriesAfter_clusters (name : Text) (entries : List Entry) :
    entriesAfter .clusters name false entries = renameFirst name entries := by
  induction entries with
  | nil => rfl
  | cons entry entries ih =>
      rw [entriesAfter, renameFirst]
      by_cases hfound : entry.Found
      · rw [if_pos hfound, decide_eq_true hfound, Bool.false_or]
        change _ :: entriesAfter .clusters name true entries = _
        rw [entriesAfter_saw]
        exact congrArg (· :: entries) (if_pos ⟨by decide, rfl, hfound⟩)
      · rw [if_neg hfound, decide_eq_false hfound, Bool.false_or]
        change _ :: entriesAfter .clusters name false entries = _
        rw [ih]
        exact congrArg (· :: renameFirst name entries) (if_neg fun h => hfound h.2.2)

theorem entriesAfter_contexts (name : Text) (entries : List Entry) :
    entriesAfter .contexts name false entries =
      renameFirst name (entries.map (Entry.withCluster · name)) := by
  induction entries with
  | nil => rfl
  | cons entry entries ih =>
      have hsame : (entry.withCluster name).Found ↔ entry.Found := Iff.rfl
      rw [entriesAfter, List.map_cons, renameFirst]
      by_cases hfound : entry.Found
      · rw [if_pos (hsame.mpr hfound), decide_eq_true hfound, Bool.false_or]
        change _ :: entriesAfter .contexts name true entries = _
        rw [entriesAfter_saw, if_pos rfl]
        exact congrArg (· :: _) (if_pos ⟨by decide, rfl, hfound⟩)
      · rw [if_neg fun h => hfound (hsame.mp h), decide_eq_false hfound, Bool.false_or]
        change _ :: entriesAfter .contexts name false entries = _
        rw [ih]
        exact congrArg (· :: _) (if_neg fun h => hfound h.2.2)

/-- After the header of a section no entry of it has been found. -/
theorem renameLine_section (kind : Kind) (header : Text) (state : RenameState) :
    ∃ saw other, (kind ≠ .users → saw = false) ∧
      renameLine name state (kind.header ++ header) =
        (sectionState kind saw other, kind.header ++ header) := by
  obtain ⟨htext, hstate⟩ := @renameLine_header name state kind header
  cases kind with
  | clusters => exact ⟨false, state.sawContextEntryName, fun _ => rfl, Prod.ext hstate htext⟩
  | users =>
      exact ⟨state.sawContextEntryName, state.sawClusterEntryName, fun h => absurd rfl h,
        Prod.ext hstate htext⟩
  | contexts => exact ⟨false, state.sawClusterEntryName, fun _ => rfl, Prod.ext hstate htext⟩

theorem rename_section (kind : Kind) (header : Text) (entries : List Entry) {saw : Bool}
    (hsaw : kind ≠ .users → saw = false) :
    Item.rename name (.block kind header entries) =
      .block kind header (entriesAfter kind name saw entries) := by
  cases kind with
  | clusters =>
      rw [hsaw (by decide), entriesAfter_clusters]
      rfl
  | users =>
      rw [entriesAfter_users]
      rfl
  | contexts =>
      rw [hsaw (by decide), entriesAfter_contexts]
      rfl

/-- One item of a kubeconfig, with whatever flags the lines before it have left. -/
theorem renameLines_item (state : RenameState) (item : Item) :
    ∃ last, ∀ rest, renameLines name state (item.lines ++ rest) =
      (item.rename name).lines ++ renameLines name last rest := by
  cases item with
  | currentContext value =>
      exact ⟨state, fun rest => renameLines_cons (renameLine_current value)⟩
  | other line => exact ⟨state, fun rest => renameLines_cons (renameLine_inert line)⟩
  | block kind header entries =>
      obtain ⟨saw, other, hsaw, hheader⟩ := @renameLine_section name kind header state
      obtain ⟨last, hlast⟩ := @renameLines_entries name kind entries saw other
      refine ⟨sectionState kind last other, fun rest => ?_⟩
      rw [rename_section kind header entries hsaw, Item.lines, List.cons_append,
        renameLines_cons hheader, hlast]
      rfl

/-- Renaming writes the lines of the renamed kubeconfig. -/
theorem renameLines_items (state : RenameState) (items : Items) :
    renameLines name state (itemLines items) = itemLines (renameItems name items) := by
  induction items generalizing state with
  | nil => rfl
  | cons item items ih =>
      obtain ⟨last, hlast⟩ := renameLines_item state item
      have hsplit : itemLines (item :: items) = item.lines ++ itemLines items := rfl
      rw [hsplit, hlast, ih]
      rfl

end Loop

/-! ## What refers to what afterwards -/

section Resolving

variable {A : Type} {read : Text → A} {name : Text}

theorem exists_renameFirst (entries : List Entry) :
    (∃ entry ∈ renameFirst name entries, read entry.name = read (' ' :: name)) ↔
      ∃ entry ∈ entries, entry.Found ∨ read entry.name = read (' ' :: name) := by
  induction entries with
  | nil => simp [renameFirst]
  | cons entry entries ih =>
      rw [renameFirst]
      by_cases hfound : entry.Found
      · rw [if_pos hfound]
        exact iff_of_true ⟨_, List.mem_cons_self, rfl⟩
          ⟨entry, List.mem_cons_self, .inl hfound⟩
      · rw [if_neg hfound, List.exists_mem_cons_iff, List.exists_mem_cons_iff, ih,
          or_iff_right hfound]

theorem exists_withCluster (entries : List Entry) :
    (∃ entry ∈ entries.map (Entry.withCluster · name),
        entry.Found ∨ read entry.name = read (' ' :: name)) ↔
      ∃ entry ∈ entries, entry.Found ∨ read entry.name = read (' ' :: name) := by
  simp only [List.mem_map, exists_exists_and_eq_and]
  exact Iff.rfl

/-- An entry has the new name afterwards if one is found or had it. -/
theorem exists_renameItems {kind : Kind} (hkind : kind ≠ .users) (items : Items) :
    (∃ entry ∈ entriesOf kind (renameItems name items), read entry.name = read (' ' :: name)) ↔
      ∃ entry ∈ entriesOf kind items, entry.Found ∨ read entry.name = read (' ' :: name) := by
  have hitem : ∀ item : Item,
      (∃ entry ∈ (item.rename name).entries kind, read entry.name = read (' ' :: name)) ↔
        ∃ entry ∈ item.entries kind, entry.Found ∨ read entry.name = read (' ' :: name) := by
    intro item
    cases item with
    | currentContext value => simp [Item.rename, Item.entries]
    | other line => simp [Item.rename, Item.entries]
    | block found header entries =>
        cases found with
        | clusters =>
            by_cases h : Kind.clusters = kind
            · simp only [Item.rename, Item.entries, if_pos h]
              exact exists_renameFirst entries
            · simp [Item.rename, Item.entries, if_neg h]
        | users =>
            have h : ¬ Kind.users = kind := fun h => hkind h.symm
            simp [Item.rename, Item.entries, if_neg h]
        | contexts =>
            by_cases h : Kind.contexts = kind
            · simp only [Item.rename, Item.entries, if_pos h]
              exact (exists_renameFirst _).trans (exists_withCluster entries)
            · simp [Item.rename, Item.entries, if_neg h]
  constructor
  · rintro ⟨entry, hentry, hname⟩
    obtain ⟨renamed, hrenamed, hmem⟩ := List.mem_flatMap.mp hentry
    obtain ⟨item, hitem', rfl⟩ := List.mem_map.mp hrenamed
    obtain ⟨before, hbefore, hor⟩ := (hitem item).mp ⟨entry, hmem, hname⟩
    exact ⟨before, List.mem_flatMap.mpr ⟨item, hitem', hbefore⟩, hor⟩
  · rintro ⟨entry, hentry, hor⟩
    obtain ⟨item, hitem', hmem⟩ := List.mem_flatMap.mp hentry
    obtain ⟨after, hafter, hname⟩ := (hitem item).mpr ⟨entry, hmem, hor⟩
    exact ⟨after, List.mem_flatMap.mpr ⟨_, List.mem_map.mpr ⟨item, hitem', rfl⟩, hafter⟩, hname⟩

theorem references_withCluster (entry : Entry) :
    (entry.withCluster name).references = entry.references.map fun _ => ' ' :: name := by
  rw [Entry.references, Entry.references, Entry.withCluster, List.filterMap_map, List.map_filterMap]
  congr 1
  funext line
  cases line <;> rfl

/-- The references are those of before with the new name. -/
theorem map_references_renameFirst (entries : List Entry) :
    (renameFirst name entries).map Entry.references = entries.map Entry.references := by
  induction entries with
  | nil => rfl
  | cons entry entries ih =>
      rw [renameFirst]
      split
      · rfl
      · rw [List.map_cons, ih, List.map_cons]

theorem references_renameItems (items : Items) :
    (entriesOf .contexts (renameItems name items)).map Entry.references =
      (entriesOf .contexts items).map fun entry =>
        entry.references.map fun _ => ' ' :: name := by
  induction items with
  | nil => rfl
  | cons item items ih =>
      have hitem : ((item.rename name).entries .contexts).map Entry.references =
          (item.entries .contexts).map fun entry =>
            entry.references.map fun _ => ' ' :: name := by
        cases item with
        | currentContext value => rfl
        | other line => rfl
        | block kind header entries =>
            cases kind with
            | clusters => rfl
            | users => rfl
            | contexts =>
                change (renameFirst name (entries.map (Entry.withCluster · name))).map
                  Entry.references = entries.map _
                rw [map_references_renameFirst, List.map_map]
                exact List.map_congr_left fun entry _ => references_withCluster entry
      have hsplit : entriesOf .contexts (renameItems name (item :: items)) =
          (item.rename name).entries .contexts ++
            entriesOf .contexts (renameItems name items) := rfl
      have hbefore : entriesOf .contexts (item :: items) =
          item.entries .contexts ++ entriesOf .contexts items := rfl
      rw [hsplit, hbefore, List.map_append, List.map_append, hitem, ih]

theorem current_renameItems (items : Items) :
    (renameItems name items).filterMap Item.current =
      (items.filterMap Item.current).map fun _ => ' ' :: name := by
  rw [renameItems, List.filterMap_map, List.map_filterMap]
  congr 1
  funext item
  cases item with
  | block kind header entries => cases kind <;> rfl
  | currentContext value => rfl
  | other line => rfl

/-- What is left refers to entries that exist exactly if in each of the two sections an entry
is found or has the new name. -/
theorem resolves_renameItems_iff (kubeconfig : Kubeconfig) :
    Resolves read (renameItems name kubeconfig.items) ↔
      ∀ kind, kind ≠ .users → ∃ entry ∈ entriesOf kind kubeconfig.items,
        entry.Found ∨ read entry.name = read (' ' :: name) := by
  have hmap := @references_renameItems name kubeconfig.items
  have hrefs : ∀ entry ∈ entriesOf .contexts (renameItems name kubeconfig.items),
      ∀ value ∈ entry.references, value = ' ' :: name := by
    intro entry hentry value hvalue
    have hmem := List.mem_map_of_mem (f := Entry.references) hentry
    rw [hmap] at hmem
    obtain ⟨before, -, hsame⟩ := List.mem_map.mp hmem
    rw [← hsame] at hvalue
    obtain ⟨-, -, rfl⟩ := List.mem_map.mp hvalue
    rfl
  have hsome : ∃ entry ∈ entriesOf .contexts (renameItems name kubeconfig.items),
      ' ' :: name ∈ entry.references := by
    obtain ⟨before, hbefore⟩ := List.exists_mem_of_ne_nil _ kubeconfig.contexts_ne
    obtain ⟨value, hvalue⟩ :=
      List.exists_mem_of_ne_nil _ (kubeconfig.contexts_cluster before hbefore)
    have hmem := List.mem_map_of_mem (f := fun entry : Entry =>
      entry.references.map fun _ => ' ' :: name) hbefore
    rw [← hmap] at hmem
    obtain ⟨entry, hentry, hsame⟩ := List.mem_map.mp hmem
    exact ⟨entry, hentry, by rw [hsame]; exact List.mem_map.mpr ⟨value, hvalue, rfl⟩⟩
  have hcurrent : ∀ value ∈ (renameItems name kubeconfig.items).filterMap Item.current,
      value = ' ' :: name := by
    intro value hvalue
    rw [current_renameItems] at hvalue
    obtain ⟨-, -, rfl⟩ := List.mem_map.mp hvalue
    rfl
  have hthere : ' ' :: name ∈ (renameItems name kubeconfig.items).filterMap Item.current := by
    obtain ⟨value, hvalue⟩ := List.exists_mem_of_ne_nil _ kubeconfig.current_ne
    rw [current_renameItems]
    exact List.mem_map.mpr ⟨value, hvalue, rfl⟩
  constructor
  · rintro ⟨hclusters, hcontexts⟩ kind hkind
    refine (exists_renameItems hkind _).mp ?_
    cases kind with
    | clusters =>
        obtain ⟨entry, hentry, hmem⟩ := hsome
        exact hclusters entry hentry _ hmem
    | users => exact absurd rfl hkind
    | contexts => exact hcontexts _ hthere
  · intro hboth
    constructor
    · intro entry hentry value hvalue
      rw [hrefs entry hentry value hvalue]
      exact (exists_renameItems (by decide) _).mpr (hboth .clusters (by decide))
    · intro value hvalue
      rw [hcurrent value hvalue]
      exact (exists_renameItems (by decide) _).mpr (hboth .contexts (by decide))

end Resolving

/-! ## Rendered kubeconfigs -/

section Rendered

variable (server caCrt clientCrt clientKey user clusterName : Text)

def templateKeys : List Text :=
  ["apiVersion: ".toList, "kind: ".toList, "certificate-authority-data: ".toList,
    "server: ".toList, "client-certificate-data: ".toList, "client-key-data: ".toList,
    "user: ".toList]

theorem templateKeys_inert (value : Text) : ∀ key ∈ templateKeys,
    (∀ c ∈ (key ++ value).head?, isWhite c = false) ∧
      (∀ word ∈ sectionWords, startsWith (key ++ value) word = false) ∧
      startsWith (key ++ value) "cluster:".toList = false ∧
      startsWith (key ++ value) "name:".toList = false := by
  intro key hkey
  simp only [templateKeys, List.mem_cons, List.not_mem_nil, or_false] at hkey
  simp only [sectionWords, List.forall_mem_cons]
  rcases hkey with rfl | rfl | rfl | rfl | rfl | rfl | rfl
  all_goals
    refine ⟨fun c hc => ?_, ⟨rfl, rfl, rfl, rfl, List.forall_mem_nil _⟩, rfl, rfl⟩
    obtain rfl := Option.some.inj hc
    rfl

/-- A line of the template that has a key of its own. -/
def templateLine (indent : Nat) (key value : Text) (hkey : key ∈ templateKeys) : InertLine where
  indent := indent
  content := key ++ value
  starts := (templateKeys_inert value key hkey).1
  no_section := (templateKeys_inert value key hkey).2.1
  no_cluster := (templateKeys_inert value key hkey).2.2.1
  no_name := fun h => by
    rw [(templateKeys_inert value key hkey).2.2.2] at h
    cases h

/-- The template, with the name as it is written. -/
def renderedItems (name : Text) : Items :=
  [.other (templateLine 0 "apiVersion: ".toList "v1".toList (by decide)),
    .other (templateLine 0 "kind: ".toList "Config".toList (by decide)),
    .block .clusters []
      [{ item := 0, gap := 1, gap_pos := Nat.one_pos, nameFirst := false, name := ' ' :: name,
         nameLines := [], body := []
         bodyLines :=
          [.inert (templateLine 4 "certificate-authority-data: ".toList (base64Text caCrt)
              (by decide)),
            .inert (templateLine 4 "server: ".toList server (by decide))] }],
    .block .users []
      [{ item := 0, gap := 1, gap_pos := Nat.one_pos, nameFirst := true, name := ' ' :: user,
         nameLines := [], body := []
         bodyLines :=
          [.inert (templateLine 4 "client-certificate-data: ".toList (base64Text clientCrt)
              (by decide)),
            .inert (templateLine 4 "client-key-data: ".toList (base64Text clientKey)
              (by decide))] }],
    .block .contexts []
      [{ item := 0, gap := 1, gap_pos := Nat.one_pos, nameFirst := false, name := ' ' :: name,
         nameLines := [], body := []
         bodyLines :=
          [.cluster 4 (' ' :: name), .inert (templateLine 4 "user: ".toList user (by decide))] }],
    .currentContext (' ' :: name)]

theorem itemLines_rendered :
    itemLines (renderedItems server caCrt clientCrt clientKey user
        (sanitizeContextName clusterName)) =
      kubeconfigLines server caCrt clientCrt clientKey user clusterName := by
  rfl

theorem renameItems_rendered (name next : Text) :
    renameItems next (renderedItems server caCrt clientCrt clientKey user name) =
      renderedItems server caCrt clientCrt clientKey user next := by
  rfl

def OneLine (text : Text) : Prop := '\n' ∉ text ∧ '\r' ∉ text

theorem kubeconfigLines_oneLine {server user : Text} (hserver : OneLine server)
    (huser : OneLine user) {c : Char} (hc : c = '\n' ∨ c = '\r') :
    ∀ line ∈ kubeconfigLines server caCrt clientCrt clientKey user clusterName, c ∉ line := by
  have hserver' : c ∉ server := by
    rcases hc with rfl | rfl
    · exact hserver.1
    · exact hserver.2
  have huser' : c ∉ user := by
    rcases hc with rfl | rfl
    · exact huser.1
    · exact huser.2
  have hbase64 : ∀ text, c ∉ base64Text text := by
    intro text hmem
    have hge := base64Text_ge text c hmem
    rcases hc with rfl | rfl
    · exact absurd hge (by decide)
    · exact absurd hge (by decide)
  have hname : c ∉ sanitizeContextName clusterName := by
    intro hmem
    have hchars := sanitizeContextName_chars clusterName c hmem
    rcases hc with rfl | rfl
    · exact absurd hchars (by decide)
    · exact absurd hchars (by decide)
  simp only [kubeconfigLines, List.forall_mem_cons, List.mem_append, not_or]
  rcases hc with rfl | rfl
  all_goals
    exact ⟨by decide, by decide, by decide, by decide, ⟨by decide, hbase64 _⟩,
      ⟨by decide, hserver'⟩, ⟨by decide, hname⟩, by decide, ⟨by decide, huser'⟩, by decide,
      ⟨by decide, hbase64 _⟩, ⟨by decide, hbase64 _⟩, by decide, by decide, ⟨by decide, hname⟩,
      ⟨by decide, huser'⟩, ⟨by decide, hname⟩, ⟨by decide, hname⟩, List.forall_mem_nil _⟩

/-- A rendered kubeconfig is renamed to the one that is rendered with the new name. -/
theorem rename_rendered {server user : Text} (hserver : OneLine server) (huser : OneLine user)
    (newName : Text) :
    renameKubeconfigContext (renderKubeconfig server caCrt clientCrt clientKey user clusterName)
        newName =
      renderKubeconfig server caCrt clientCrt clientKey user newName := by
  have hlines : lines (renderKubeconfig server caCrt clientCrt clientKey user clusterName) =
      kubeconfigLines server caCrt clientCrt clientKey user clusterName :=
    lines_unlines
      (kubeconfigLines_oneLine caCrt clientCrt clientKey clusterName hserver huser (.inl rfl))
      (kubeconfigLines_oneLine caCrt clientCrt clientKey clusterName hserver huser (.inr rfl))
  rw [renameKubeconfigContext, hlines, ← itemLines_rendered, renameLines_items,
    renameItems_rendered, itemLines_rendered]
  rfl

end Rendered

/-! ## Which kubeconfigs stay resolvable -/

/-- Renaming writes the kubeconfig in which every reference has the new name.  Its contexts
refer to entries that exist, and so does the current context, exactly if a cluster and a
context have their name on a line of its own in the third column, or had the new name already.
Rendered kubeconfigs become those that are rendered with the new name. -/
theorem rename_resolves_iff {A : Type} (read : Text → A) (kubeconfig : Kubeconfig)
    (kc clusterName : Text) (hkc : lines kc = itemLines kubeconfig.items) :
    (renameKubeconfigContext kc clusterName =
        unlines (itemLines (renameItems (sanitizeContextName clusterName) kubeconfig.items)) ∧
      (Resolves read (renameItems (sanitizeContextName clusterName) kubeconfig.items) ↔
        ∀ kind, kind ≠ .users → ∃ entry ∈ entriesOf kind kubeconfig.items,
          entry.Found ∨ read entry.name = read (' ' :: sanitizeContextName clusterName))) ∧
      ∀ server caCrt clientCrt clientKey user oldName, OneLine server → OneLine user →
        renameKubeconfigContext (renderKubeconfig server caCrt clientCrt clientKey user oldName)
            clusterName =
          renderKubeconfig server caCrt clientCrt clientKey user clusterName := by
  refine ⟨⟨?_, resolves_renameItems_iff kubeconfig⟩, ?_⟩
  · rw [renameKubeconfigContext, hkc, renameLines_items]
  · intro server caCrt clientCrt clientKey user oldName hserver huser
    exact rename_rendered caCrt clientCrt clientKey oldName hserver huser clusterName

section Examples

def nameFirstText : Text :=
  ("clusters:\n- name: lab\n  cluster:\n    server: https://10.0.0.1:6443\n" ++
    "contexts:\n- name: lab\n  context:\n    cluster: lab\n    user: admin\n" ++
    "current-context: lab\n").toList

/-- Every entry begins with its name. -/
def nameFirstKubeconfig : Kubeconfig where
  items :=
    [.block .clusters []
        [{ item := 0, gap := 1, gap_pos := Nat.one_pos, nameFirst := true
           name := " lab".toList, nameLines := [], body := []
           bodyLines := [.inert (templateLine 4 "server: ".toList "https://10.0.0.1:6443".toList
             (by decide))] }],
      .block .contexts []
        [{ item := 0, gap := 1, gap_pos := Nat.one_pos, nameFirst := true
           name := " lab".toList, nameLines := [], body := []
           bodyLines := [.cluster 4 " lab".toList,
             .inert (templateLine 4 "user: ".toList "admin".toList (by decide))] }],
      .currentContext " lab".toList]
  contexts_ne := List.cons_ne_nil _ _
  contexts_cluster := List.forall_mem_singleton.mpr (List.cons_ne_nil _ _)
  current_ne := List.cons_ne_nil _ _

instance {A : Type} [DecidableEq A] (read : Text → A) (items : Items) :
    Decidable (Resolves read items) :=
  inferInstanceAs (Decidable (_ ∧ _))

theorem rename_resolves_iff_nameFirst :
    (renameKubeconfigContext nameFirstText "prod".toList =
        unlines (itemLines (renameItems (sanitizeContextName "prod".toList)
          nameFirstKubeconfig.items)) ∧
      (Resolves id (renameItems (sanitizeContextName "prod".toList) nameFirstKubeconfig.items) ↔
        ∀ kind, kind ≠ .users → ∃ entry ∈ entriesOf kind nameFirstKubeconfig.items,
          entry.Found ∨ id entry.name = id (' ' :: sanitizeContextName "prod".toList))) ∧
      ∀ server caCrt clientCrt clientKey user oldName, OneLine server → OneLine user →
        renameKubeconfigContext (renderKubeconfig server caCrt clientCrt clientKey user oldName)
            "prod".toList =
          renderKubeconfig server caCrt clientCrt clientKey user "prod".toList :=
  rename_resolves_iff id nameFirstKubeconfig nameFirstText "prod".toList (by decide +kernel)

/-- Its references are renamed and its entries are not. -/
theorem name_first_not_resolvable :
    lines nameFirstText = itemLines nameFirstKubeconfig.items ∧
      Resolves id nameFirstKubeconfig.items ∧
      renameKubeconfigContext nameFirstText "prod".toList =
        ("clusters:\n- name: lab\n  cluster:\n    server: https://10.0.0.1:6443\n" ++
          "contexts:\n- name: lab\n  context:\n    cluster: prod\n    user: admin\n" ++
          "current-context: prod\n").toList ∧
      ¬ Resolves id (renameItems "prod".toList nameFirstKubeconfig.items) := by
  decide +kernel

end Examples

end PertiskKos.Bootstrap.Rename
