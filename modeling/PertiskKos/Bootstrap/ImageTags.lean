import PertiskKos.Library.Lines

/-!
# Image tags of the control plane

An upgrade rewrites the image tags of three static pod manifests, line by line.  Only what
follows the first colon behind the registry's name is replaced, up to a blank, a quote or a
comment.
-/

namespace PertiskKos.ImageTags

open Strings

def registry : Text := "registry.k8s.io/kube-".toList

def endsTag (c : Char) : Bool := isWhite c || c == '#' || c == '"'

def bumpLine (ver line : Text) : Text :=
  match cut registry line with
  | some (before, after) =>
      -- the search for the colon starts at the registry
      match splitOnce ':' (registry ++ after) with
      | some (image, rest) =>
          before ++ image ++ ':' :: (ver ++ rest.dropWhile (!endsTag ·))
      | none => line
  | none => line

/-- `bump_registry_k8s_image_tags` -/
def bumpRegistryK8sImageTags (yaml ver : Text) : Text := unlines ((lines yaml).map (bumpLine ver))

/-- `normalize_k8s_version` -/
def normalizeK8sVersion (v : Text) : Text :=
  if (trim v).head? = some 'v' then trim v else 'v' :: trim v

def controlPlaneFiles : List Text :=
  ["kube-apiserver.yaml".toList, "kube-controller-manager.yaml".toList,
    "kube-scheduler.yaml".toList]

/-- A directory of manifests. -/
abbrev Manifests := Text → Option Text

/-- The manifest of one name, and how many files have changed. -/
def bumpFile (ver : Text) (dir : Manifests) (name : Text) : Manifests × Nat :=
  match dir name with
  | none => (dir, 0)
  | some old =>
      if bumpRegistryK8sImageTags old ver = old then (dir, 0)
      else (Function.update dir name (some (bumpRegistryK8sImageTags old ver)), 1)

/-- `bump_control_plane_images` -/
def bumpControlPlaneImages (dir : Manifests) (kubernetesVersion : Text) : Manifests × Nat :=
  controlPlaneFiles.foldl
    (fun bumped name =>
      let file := bumpFile (normalizeK8sVersion kubernetesVersion) bumped.1 name
      (file.1, bumped.2 + file.2))
    (dir, 0)

/-! ## One line -/

section Line

variable {ver other line before after image rest : Text}

theorem colon_notMem_registry : ':' ∉ registry := by decide

/-- The parts of a line that is rewritten. -/
structure Tagged (line before image rest : Text) : Prop where
  found : cut registry line = some (before, image ++ ':' :: rest)
  image : ':' ∉ image

theorem bumpLine_cases (line : Text) :
    (∀ ver, bumpLine ver line = line) ∨
      ∃ before image rest, Tagged line before image rest := by
  cases hcut : cut registry line with
  | none =>
      left
      intro ver
      rw [bumpLine, hcut]
  | some around =>
      obtain ⟨before, after⟩ := around
      rcases Lines.splitOnce_cases ':' (registry ++ after) with
        ⟨-, hnone⟩ | ⟨front, rest, hfront, hsplit, -⟩
      · left
        intro ver
        rw [bumpLine, hcut]
        change (match splitOnce ':' (registry ++ after) with
          | some (image, rest) => before ++ image ++ ':' :: (ver ++ rest.dropWhile (!endsTag ·))
          | none => line) = line
        rw [hnone]
      · right
        obtain ⟨image, rfl, himage⟩ : ∃ image, front = registry ++ image ∧
            after = image ++ ':' :: rest := by
          rcases List.append_eq_append_iff.mp hsplit with ⟨image, hfront', hafter⟩ |
            ⟨tail, hregistry, hcolon⟩
          · exact ⟨image, hfront', hafter⟩
          · cases tail with
            | nil =>
                rw [List.append_nil] at hregistry
                exact ⟨[], by rw [List.append_nil, hregistry], hcolon.symm⟩
            | cons c tail =>
                obtain ⟨rfl, -⟩ := List.cons.inj hcolon
                exact absurd (hregistry ▸ List.mem_append_right _ List.mem_cons_self)
                  colon_notMem_registry
        exact ⟨before, image, rest, himage ▸ hcut,
          fun hmem => hfront (List.mem_append_right _ hmem)⟩

theorem Tagged.bumpLine (htagged : Tagged line before image rest) (ver : Text) :
    bumpLine ver line =
      before ++ (registry ++ image) ++ ':' :: (ver ++ rest.dropWhile (!endsTag ·)) := by
  have hcolon : ':' ∉ registry ++ image := by
    rw [List.mem_append, not_or]
    exact ⟨colon_notMem_registry, htagged.image⟩
  rw [ImageTags.bumpLine, htagged.found]
  change (match splitOnce ':' (registry ++ (image ++ ':' :: rest)) with
    | some (image, rest) => before ++ image ++ ':' :: (ver ++ rest.dropWhile (!endsTag ·))
    | none => line) = _
  rw [← List.append_assoc, splitOnce_append hcolon]

/-- The registry is found where it was, whatever comes behind the colon. -/
theorem Tagged.of_rest (htagged : Tagged line before image rest) (tail : Text) :
    Tagged (before ++ (registry ++ image) ++ ':' :: tail) before image tail := by
  refine ⟨?_, htagged.image⟩
  have hline : line = before ++ (registry ++ image) ++ ':' :: rest := by
    rw [cut_append htagged.found]
    simp only [List.append_assoc]
  have hfound := htagged.found
  rw [hline, cut_separator (by decide) colon_notMem_registry] at hfound
  rw [cut_separator (by decide) colon_notMem_registry]
  cases hcut : cut registry (before ++ (registry ++ image)) with
  | none =>
      rw [cut_eq_none_iff] at hcut
      exact absurd ⟨before, image, by rw [List.append_assoc]⟩ hcut
  | some around =>
      obtain ⟨first, last⟩ := around
      rw [hcut] at hfound
      obtain ⟨rfl, hafter⟩ := Prod.mk.inj (Option.some.inj hfound)
      obtain rfl := List.append_cancel_right hafter
      rfl

/-- The later of two bumps stands. -/
theorem bumpLine_bumpLine (hver : ∀ c ∈ ver, endsTag c = false) (other line : Text) :
    bumpLine other (bumpLine ver line) = bumpLine other line := by
  rcases bumpLine_cases line with hsame | ⟨before, image, rest, htagged⟩
  · rw [hsame ver]
  · rw [htagged.bumpLine ver, (htagged.of_rest _).bumpLine other, htagged.bumpLine other,
      List.dropWhile_append_of_pos fun c hc => by rw [hver c hc]; rfl,
      List.dropWhile_idempotent]

theorem mem_bumpLine {c : Char} (hc : c ∈ bumpLine ver line) : c ∈ ver ∨ c ∈ line := by
  rcases bumpLine_cases line with hsame | ⟨before, image, rest, htagged⟩
  · exact .inr (hsame ver ▸ hc)
  · have hline : line = before ++ (registry ++ image) ++ ':' :: rest := by
      rw [cut_append htagged.found]
      simp only [List.append_assoc]
    rw [htagged.bumpLine] at hc
    rw [hline]
    rcases List.mem_append.mp hc with hfront | hback
    · exact .inr (List.mem_append_left _ hfront)
    rcases List.mem_cons.mp hback with rfl | hback
    · exact .inr (List.mem_append_right _ List.mem_cons_self)
    rcases List.mem_append.mp hback with hver | hrest
    · exact .inl hver
    · have hmem := (List.dropWhile_suffix _).sublist.mem hrest
      exact .inr (List.mem_append_right _ (List.mem_cons_of_mem _ hmem))

end Line

/-! ## The directory -/

section Directory

variable {ver other yaml : Text} {dir : Manifests}

/-- A version that stands in a tag: no blank, quote or comment in it. -/
def IsTag (ver : Text) : Prop := ∀ c ∈ normalizeK8sVersion ver, endsTag c = false

instance (ver : Text) : Decidable (IsTag ver) :=
  inferInstanceAs (Decidable (∀ c ∈ normalizeK8sVersion ver, endsTag c = false))

theorem bumpTags_bumpTags (hver : ∀ c ∈ ver, endsTag c = false) (hreturn : '\r' ∉ yaml)
    (other : Text) :
    bumpRegistryK8sImageTags (bumpRegistryK8sImageTags yaml ver) other =
      bumpRegistryK8sImageTags yaml other := by
  have hnewline : '\n' ∉ ver := fun hmem => absurd (hver '\n' hmem) (by decide)
  have hreturnVer : '\r' ∉ ver := fun hmem => absurd (hver '\r' hmem) (by decide)
  rw [bumpRegistryK8sImageTags, bumpRegistryK8sImageTags, bumpRegistryK8sImageTags, lines_unlines,
    List.map_map]
  · congr 1
    exact List.map_congr_left fun line _ => bumpLine_bumpLine hver other line
  · intro line hline hmem
    obtain ⟨old, hold, rfl⟩ := List.mem_map.mp hline
    exact (mem_bumpLine hmem).elim hnewline (Lines.newline_notMem_lines hold)
  · intro line hline hmem
    obtain ⟨old, hold, rfl⟩ := List.mem_map.mp hline
    refine (mem_bumpLine hmem).elim hreturnVer fun hreturnOld => hreturn ?_
    exact (lines_sublist yaml).mem (List.mem_flatten.mpr ⟨old, hold, hreturnOld⟩)

theorem bumpFile_dir (ver : Text) (dir : Manifests) (name : Text) :
    (bumpFile ver dir name).1 =
      Function.update dir name ((dir name).map (bumpRegistryK8sImageTags · ver)) := by
  rw [bumpFile]
  cases hname : dir name with
  | none => exact (Function.update_eq_self_iff.mpr hname.symm).symm
  | some old =>
      by_cases hsame : bumpRegistryK8sImageTags old ver = old
      · dsimp only
        rw [if_pos hsame, Option.map_some, hsame]
        exact (Function.update_eq_self_iff.mpr hname.symm).symm
      · dsimp only
        rw [if_neg hsame]
        rfl

theorem bumpFile_count {name : Text}
    (hsame : ∀ old, dir name = some old → bumpRegistryK8sImageTags old ver = old) :
    bumpFile ver dir name = (dir, 0) := by
  rw [bumpFile]
  cases hname : dir name with
  | none => rfl
  | some old => exact if_pos (hsame old hname)

def bumpAll (ver : Text) (names : List Text) (bumped : Manifests × Nat) : Manifests × Nat :=
  names.foldl
    (fun bumped name =>
      let file := bumpFile ver bumped.1 name
      (file.1, bumped.2 + file.2))
    bumped

theorem bumpAll_dir {names : List Text} (hnames : names.Nodup) (dir : Manifests) (n : Nat)
    (name : Text) :
    (bumpAll ver names (dir, n)).1 name =
      if name ∈ names then (dir name).map (bumpRegistryK8sImageTags · ver) else dir name := by
  induction names generalizing dir n with
  | nil => rfl
  | cons first names ih =>
      obtain ⟨hfirst, hrest⟩ := List.nodup_cons.mp hnames
      rw [bumpAll, List.foldl_cons]
      refine (ih hrest _ _).trans ?_
      rw [bumpFile_dir]
      by_cases hname : name = first
      · subst hname
        rw [if_neg hfirst, if_pos List.mem_cons_self, Function.update_self]
      · rw [Function.update_of_ne hname]
        by_cases hmem : name ∈ names
        · rw [if_pos hmem, if_pos (List.mem_cons_of_mem _ hmem)]
        · rw [if_neg hmem, if_neg fun h => (List.mem_cons.mp h).elim hname hmem]

theorem bumpAll_count {names : List Text} (dir : Manifests) (n : Nat)
    (hsame : ∀ name ∈ names, ∀ old, dir name = some old →
      bumpRegistryK8sImageTags old ver = old) : bumpAll ver names (dir, n) = (dir, n) := by
  induction names with
  | nil => rfl
  | cons first names ih =>
      rw [bumpAll, List.foldl_cons, bumpFile_count (hsame first List.mem_cons_self)]
      exact ih fun name hname => hsame name (List.mem_cons_of_mem _ hname)

/-- Two upgrades one after the other leave the manifests as the later one would alone, an
upgrade that is repeated rewrites no file, and no other manifest is touched. -/
theorem bump_control_plane_images {v : Text} (hv : IsTag v) {dir : Manifests}
    (hreturn : ∀ name ∈ controlPlaneFiles, ∀ yaml, dir name = some yaml → '\r' ∉ yaml)
    (w : Text) :
    (bumpControlPlaneImages (bumpControlPlaneImages dir v).1 w).1 =
        (bumpControlPlaneImages dir w).1 ∧
      bumpControlPlaneImages (bumpControlPlaneImages dir v).1 v =
        ((bumpControlPlaneImages dir v).1, 0) ∧
      ∀ name ∉ controlPlaneFiles, (bumpControlPlaneImages dir v).1 name = dir name := by
  have hnodup : controlPlaneFiles.Nodup := by decide
  have hdir : ∀ (dir : Manifests) (v name : Text), (bumpControlPlaneImages dir v).1 name =
      if name ∈ controlPlaneFiles then
        (dir name).map (bumpRegistryK8sImageTags · (normalizeK8sVersion v))
      else dir name := fun dir v name => bumpAll_dir hnodup dir 0 name
  refine ⟨funext fun name => ?_, ?_, fun name hname => by rw [hdir, if_neg hname]⟩
  · rw [hdir, hdir, hdir]
    by_cases hname : name ∈ controlPlaneFiles
    · rw [if_pos hname, if_pos hname, if_pos hname]
      cases hyaml : dir name with
      | none => rfl
      | some yaml =>
          exact congrArg some (bumpTags_bumpTags hv (hreturn name hname yaml hyaml) _)
    · rw [if_neg hname, if_neg hname, if_neg hname]
  · refine bumpAll_count _ 0 fun name hname old hold => ?_
    rw [hdir, if_pos hname] at hold
    obtain ⟨yaml, hyaml, rfl⟩ := Option.map_eq_some_iff.mp hold
    exact bumpTags_bumpTags hv (hreturn name hname yaml hyaml) _

end Directory

section Lab

def schedulerYaml : Text :=
  unlines ["spec:".toList, "  - image: registry.k8s.io/kube-scheduler:v1.31.0".toList]

def labManifests : Manifests :=
  Function.update (fun _ => none) "kube-scheduler.yaml".toList (some schedulerYaml)

theorem bump_control_plane_images_lab :
    bumpControlPlaneImages (bumpControlPlaneImages labManifests "1.32.0".toList).1
        "1.32.0".toList =
      ((bumpControlPlaneImages labManifests "1.32.0".toList).1, 0) := by
  refine (@bump_control_plane_images "1.32.0".toList (by decide) labManifests ?_ []).2.1
  intro name _ yaml hyaml
  by_cases hname : name = "kube-scheduler.yaml".toList
  · rw [labManifests, hname, Function.update_self] at hyaml
    cases hyaml
    exact return_notMem_unlines (by decide)
  · rw [labManifests, Function.update_of_ne hname] at hyaml
    cases hyaml

end Lab

end PertiskKos.ImageTags
