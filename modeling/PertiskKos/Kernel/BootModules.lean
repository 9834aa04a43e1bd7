import Mathlib.Data.List.AList
import PertiskKos.Kernel.ModInfo
import PertiskKos.Library.Visits

/-!
# Loading the modules of the boot

The modules of a fixed list are loaded one after the other, each after the modules that it
depends on.  A dependency is looked up under its spelling with underscores.
-/

namespace PertiskKos.Kernel

open Relation Strings Visits

/-! ## The directory -/

section Directory

/-- The module directory.  Files are named by what stands in front of `.ko`. -/
structure Dir where
  files : AList fun _ : Text => ModuleFile
  /-- A file that is only called `.ko` is no module. -/
  named : [] ∉ files
  /-- Whether the path leads from the directory back to it.  No module lies elsewhere. -/
  leadsBack : Text → Bool

/-- The module that a path from the directory names, where it stays in the directory. -/
def Dir.moduleOf (dir : Dir) (path : Text) : Option Text :=
  match rsplitOnce '/' path with
  | none => some path
  | some (front, name) => if dir.leadsBack front then some name else none

/-- The module whose file is found. -/
def Dir.locate (dir : Dir) (path : Text) : Option Text :=
  (dir.moduleOf path).filter (· ∈ dir.files)

def Dir.read (dir : Dir) (name : Text) : List Text :=
  (dir.files.lookup name).elim [] fun file => moduleDepends file.bytes

end Directory

/-! ## Loading -/

section Loading

def BOOT_MODULES : List Text :=
  ["fbdev", "fb_io_fops", "fb", "fb_sys_fops", "syscopyarea", "sysfillrect", "sysimgblt",
    "drm_panel_orientation_quirks", "i2c-core", "drm", "drm_kms_helper", "drm_shmem_helper",
    "simpledrm", "ttm", "drm_ttm_helper", "vmwgfx", "failover", "net_failover", "virtio_net",
    "e1000e", "vmxnet3", "af_packet", "scsi_common", "scsi_mod", "virtio_scsi", "virtio_blk",
    "cdrom", "sr_mod", "isofs", "ata_piix", "ahci", "scsi_transport_spi", "mptbase",
    "mptscsih", "mptspi", "crc64", "crc64-rocksoft", "t10-pi", "sd_mod", "crc16", "mbcache",
    "jbd2", "crc32c_generic", "ext4", "fat", "nls_cp437", "nls_iso8859-1", "vfat", "overlay",
    "llc", "stp", "bridge", "br_netfilter", "veth", "tunnel4", "ipip", "libcrc32c",
    "nfnetlink", "nf_defrag_ipv4", "nf_defrag_ipv6", "nf_conntrack", "nf_nat", "ip_set",
    "ip_set_hash_ip", "ip_set_hash_net", "x_tables", "xt_set", "xt_tcpudp", "xt_comment",
    "xt_mark", "xt_conntrack", "nf_socket_ipv4", "nf_socket_ipv6", "xt_socket", "xt_nat",
    "xt_statistic", "xt_multiport", "xt_MASQUERADE", "xt_addrtype", "xt_CT", "nf_tproxy_ipv4",
    "nf_tproxy_ipv6", "xt_TPROXY", "xt_REDIRECT", "xt_rpfilter", "ip_tables", "iptable_filter",
    "iptable_nat", "iptable_mangle", "iptable_raw", "ip6_tables", "ip6table_filter",
    "ip6table_nat", "ip6table_mangle", "ip6table_raw", "nf_tables", "nft_compat", "udp_tunnel",
    "ip6_udp_tunnel", "vxlan", "geneve", "xfrm_algo", "xfrm_user", "inet_diag", "tcp_diag",
    "udp_diag", "cls_bpf", "act_bpf", "sch_fq", "netfs", "fscache", "sunrpc", "lockd", "grace",
    "auth_rpcgss", "nfs", "nfsv2", "nfsv3", "nfsv4"].map String.toList

/-- `load_module`: the load attempts, in their order.  What comes of them is only logged.  The
stack has the modules that are being loaded. -/
def loadModule (dir : Dir) (fuel : Nat) (stack : List Text) (path : Text) :
    Option (List Text) :=
  match dir.locate path with
  | none => some []
  | some name =>
      match fuel with
      | 0 => none
      | fuel + 1 =>
          if name ∈ stack then some []
          else
            (gather (loadModule dir fuel (name :: stack)) (dir.read name)).map (· ++ [name])

def loadBootModules (fuel : Nat) : Option Dir → Option (List Text)
  | none => some []
  | some dir => gather (loadModule dir fuel []) BOOT_MODULES

end Loading

/-! ## What a module needs -/

section Needs

variable (dir : Dir)

/-- The names of the entry in the file of the module. -/
def Dir.dependencies (name : Text) : List Text :=
  (dir.files.lookup name).elim [] ModuleFile.dependencies

/-- The module that the dependency names has this file, in whichever spelling. -/
def Dir.Spelled (dep name : Text) : Prop :=
  name ∈ dir.files ∧ dir.moduleOf dep = some (underscored name)

def Dir.Needs (name other : Text) : Prop := ∃ dep ∈ dir.dependencies name, dir.Spelled dep other

/-- The dependency needs the module itself. -/
def Dir.Cyclic (dep name : Text) : Prop :=
  ∃ other, dir.Spelled dep other ∧ ReflTransGen dir.Needs other name

/-- A dependency that has to be loaded before the module. -/
def Dir.Required (name dep : Text) : Prop :=
  dep ∈ dir.dependencies name ∧ (∃ other, dir.Spelled dep other) ∧ ¬ dir.Cyclic dep name

/-- Before the first attempt to load a module, each dependency has been attempted. -/
def Dir.Ordered (attempts : List Text) : Prop :=
  ∀ name ∈ BOOT_MODULES, name ∈ dir.files → ∀ dep, dir.Required name dep →
    ∃ other ∈ ahead name attempts, dir.Spelled dep other

/-- What is needed in the spelling with underscores. -/
def Dir.Finds (name other : Text) : Prop :=
  ∃ dep ∈ dir.dependencies name, dir.locate dep = some other

/-- A file of the dependency is a module of the boot, and no module up to it leads to the
other one. -/
def Dir.ListedBefore (dep name : Text) : Prop :=
  ∃ other, dir.Spelled dep other ∧ ∃ front back, BOOT_MODULES = front ++ other :: back ∧
    ∀ root ∈ front ++ [other], root ∈ dir.files → ¬ ReflTransGen dir.Finds root name

end Needs

/-! ## The order of the attempts -/

section Order

variable {dir : Dir} {fuel : Nat} {attempts : List Text}

def Dir.next (dir : Dir) (name : Text) : List Text := (dir.read name).filterMap dir.locate

theorem loadModule_eq (dir : Dir) (fuel : Nat) (stack : List Text) (path : Text) :
    loadModule dir fuel stack path =
      (dir.locate path).elim (some []) (visit dir.next fuel stack) := by
  induction fuel generalizing stack path with
  | zero =>
      rw [loadModule]
      cases dir.locate path with
      | none => rfl
      | some name => rfl
  | succ fuel ih =>
      rw [loadModule]
      cases dir.locate path with
      | none => rfl
      | some name =>
          have hbelow : loadModule dir fuel (name :: stack) = fun path =>
              (dir.locate path).elim (some []) (visit dir.next fuel (name :: stack)) :=
            funext (ih (name :: stack))
          simp only [Option.elim_some, visit, hbelow, gather_filterMap]
          by_cases hmem : name ∈ stack
          · rw [if_pos hmem, if_pos hmem]
          · rw [if_neg hmem, if_neg hmem]
            rfl

theorem locate_eq_some {path name : Text} :
    dir.locate path = some name ↔ name ∈ dir.files ∧ dir.moduleOf path = some name := by
  rw [Dir.locate, Option.filter_eq_some_iff, decide_eq_true_eq, and_comm]

/-- The modules of the boot that are there. -/
def Dir.roots (dir : Dir) : List Text := BOOT_MODULES.filter (· ∈ dir.files)

theorem moduleOf_boot {name : Text} (hname : name ∈ BOOT_MODULES) :
    dir.moduleOf name = some name := by
  have hplain : ∀ name ∈ BOOT_MODULES, rsplitOnce '/' name = none := by
    decide +kernel
  rw [Dir.moduleOf, hplain name hname]

theorem loadBootModules_eq (dir : Dir) (fuel : Nat) :
    loadBootModules fuel (some dir) = gather (visit dir.next fuel []) dir.roots := by
  have hload : loadModule dir fuel [] = fun path =>
      (dir.locate path).elim (some []) (visit dir.next fuel []) :=
    funext (loadModule_eq dir fuel [])
  have hroots : BOOT_MODULES.filterMap dir.locate = dir.roots := by
    rw [Dir.roots, ← List.filterMap_eq_filter]
    refine List.filterMap_congr fun name hname => ?_
    rw [Dir.locate, moduleOf_boot hname, Option.filter_some, Option.guard_apply]
  rw [loadBootModules, hload, gather_filterMap, hroots]

theorem next_mem {name other : Text} (hother : other ∈ dir.next name) : other ∈ dir.files := by
  obtain ⟨path, -, hlocate⟩ := List.mem_filterMap.mp hother
  exact (locate_eq_some.mp hlocate).1

/-- More fuel than there are files is enough, and more makes no difference. -/
theorem loadBootModules_total (dir : Dir) : ∃ attempts, ∀ fuel,
    dir.files.keys.length < fuel → loadBootModules fuel (some dir) = some attempts := by
  have hclosed : ∀ name ∈ dir.files.keys, ∀ other ∈ dir.next name, other ∈ dir.files.keys :=
    fun _ _ other hother => AList.mem_keys.mp (next_mem hother)
  obtain ⟨attempts, hattempts⟩ := @gather_total _ _
    (visit dir.next (dir.files.keys.length + 1) []) dir.roots fun name hname =>
      visit_total hclosed List.nodup_nil (List.nil_subset _)
        (AList.mem_keys.mp (by simpa using (List.mem_filter.mp hname).2)) (Nat.lt_succ_self _)
  refine ⟨attempts, fun fuel hfuel => ?_⟩
  rw [loadBootModules_eq]
  exact gather_mono (fun _ _ h => visit_of_le hfuel h) hattempts

/-- Every module of the boot that is there is attempted. -/
theorem attempted_of_present (hload : loadBootModules fuel (some dir) = some attempts)
    {name : Text} (hname : name ∈ BOOT_MODULES) (hpresent : name ∈ dir.files) :
    name ∈ attempts := by
  rw [loadBootModules_eq] at hload
  have hroot : name ∈ dir.roots := List.mem_filter.mpr ⟨hname, by simpa using hpresent⟩
  obtain ⟨found, hfound⟩ := gather_found hload hroot
  exact (mem_gather hload).mpr ⟨name, hroot, found, hfound, (mem_visit_root hfound).mpr .refl⟩

theorem plain_of_required {name dep : Text} (hdep : dep ∈ dir.dependencies name) : '-' ∉ dep := by
  rw [Dir.dependencies] at hdep
  cases hfile : dir.files.lookup name with
  | none => simp [hfile] at hdep
  | some file =>
      rw [hfile] at hdep
      exact dash_notMem_dependencies hdep

theorem moduleOf_plain {dep other : Text} (hdep : '-' ∉ dep)
    (hmodule : dir.moduleOf dep = some other) : '-' ∉ other := by
  rw [Dir.moduleOf] at hmodule
  cases hsplit : rsplitOnce '/' dep with
  | none =>
      rw [hsplit] at hmodule
      cases hmodule
      exact hdep
  | some around =>
      obtain ⟨front, last⟩ := around
      simp only [hsplit, Option.ite_none_right_eq_some, Option.some.injEq] at hmodule
      rw [rsplitOnce_split hsplit] at hdep
      rw [← hmodule.2]
      exact fun h => hdep (List.mem_append_right _ (List.mem_cons_of_mem _ h))

/-- The file that is found for a dependency is one of its module, spelled with underscores. -/
theorem spelled_of_locate {dep other : Text} (hdep : '-' ∉ dep)
    (hlocate : dir.locate dep = some other) : dir.Spelled dep other := by
  obtain ⟨hmem, hmodule⟩ := locate_eq_some.mp hlocate
  rw [Dir.Spelled, underscored_eq_self (moduleOf_plain hdep hmodule)]
  exact ⟨hmem, hmodule⟩

/-- A file of a dependency that is not found is found for no dependency. -/
theorem locate_ne_of_none {dep other path : Text} (hspelled : dir.Spelled dep other)
    (hnone : dir.locate dep = none) (hpath : '-' ∉ path) : dir.locate path ≠ some other := by
  intro hlocate
  obtain ⟨hmem, hmodule⟩ := locate_eq_some.mp hlocate
  have hsame := hspelled.2
  rw [underscored_eq_self (moduleOf_plain hpath hmodule)] at hsame
  rw [locate_eq_some.mpr ⟨hmem, hsame⟩] at hnone
  cases hnone

/-- A split of what is left of a list, in terms of the whole list. -/
theorem split_filter_iff {names : List Text} {there : Text → Bool} {good : Text → Prop}
    {name : Text} (hname : there name = true) :
    (∃ front back, names.filter there = front ++ name :: back ∧
        ∀ root ∈ front ++ [name], good root) ↔
      ∃ front back, names = front ++ name :: back ∧
        ∀ root ∈ front ++ [name], there root = true → good root := by
  constructor
  · rintro ⟨front, back, hfilter, hgood⟩
    obtain ⟨first, rest, rfl, rfl, hrest⟩ := List.filter_eq_append_iff.mp hfilter
    obtain ⟨skipped, last, rfl, hskipped, -, -⟩ := List.filter_eq_cons_iff.mp hrest
    refine ⟨first ++ skipped, last, by rw [List.append_assoc], fun root hroot hthere => ?_⟩
    simp only [List.append_assoc, List.mem_append, List.mem_singleton] at hroot
    rcases hroot with hfirst | hskip | rfl
    · exact hgood root (List.mem_append_left _ (List.mem_filter.mpr ⟨hfirst, hthere⟩))
    · exact absurd hthere (hskipped root hskip)
    · exact hgood root (by simp)
  · rintro ⟨front, back, rfl, hgood⟩
    refine ⟨front.filter there, back.filter there, ?_, fun root hroot => ?_⟩
    · rw [List.filter_append, List.filter_cons_of_pos hname]
    · rcases List.mem_append.mp hroot with hfront | hlast
      · obtain ⟨hmem, hthere⟩ := List.mem_filter.mp hfront
        exact hgood root (List.mem_append_left _ hmem) hthere
      · rw [List.mem_singleton.mp hlast]
        exact hgood name (by simp) hname

section Reading

variable (hreads : ∀ name ∈ dir.files, dir.read name = dir.dependencies name)

include hreads

theorem mem_next_iff {name other : Text} : other ∈ dir.next name ↔ dir.Finds name other := by
  have hsame : dir.read name = dir.dependencies name := by
    by_cases hname : name ∈ dir.files
    · exact hreads name hname
    · rw [Dir.read, Dir.dependencies, AList.lookup_eq_none.mpr hname]
      rfl
  rw [Dir.next, hsame, List.mem_filterMap, Dir.Finds]

theorem reach_iff {name other : Text} :
    Reach dir.next name other ↔ ReflTransGen dir.Finds name other := by
  have hstep : (fun name other => other ∈ dir.next name) = dir.Finds := by
    funext name other
    exact propext (mem_next_iff hreads)
  rw [Reach, hstep]

theorem cyclic_of_reach {name dep other : Text} (hspelled : dir.Spelled dep other)
    (hreach : Reach dir.next other name) : dir.Cyclic dep name := by
  refine ⟨other, hspelled, ReflTransGen.mono ?_ _ _ ((reach_iff hreads).mp hreach)⟩
  rintro a b ⟨path, hpath, hlocate⟩
  exact ⟨path, hpath, spelled_of_locate (plain_of_required hpath) hlocate⟩

/-- A file that is not found is only attempted where the boot lists it. -/
theorem ahead_of_listed_iff (hload : loadBootModules fuel (some dir) = some attempts)
    {name dep other : Text} (hspelled : dir.Spelled dep other) (hnone : dir.locate dep = none)
    (hne : other ≠ name) : other ∈ ahead name attempts ↔
      ∃ front back, BOOT_MODULES = front ++ other :: back ∧
        ∀ root ∈ front ++ [other], root ∈ dir.files → ¬ ReflTransGen dir.Finds root name := by
  have hunneeded : ∀ above, Reach dir.next above other → above = other := by
    intro above hreach
    rcases ReflTransGen.cases_tail hreach with rfl | ⟨last, -, hstep⟩
    · rfl
    · obtain ⟨path, hpath, hlocate⟩ := (mem_next_iff hreads).mp hstep
      exact absurd hlocate (locate_ne_of_none hspelled hnone (plain_of_required hpath))
  rw [loadBootModules_eq] at hload
  rw [ahead_of_unneeded_iff hload hunneeded hne]
  simp only [reach_iff hreads]
  have hthere : decide (other ∈ dir.files) = true := decide_eq_true hspelled.1
  rw [Dir.roots, split_filter_iff hthere]
  simp only [decide_eq_true_eq]

theorem ordered_iff (hload : loadBootModules fuel (some dir) = some attempts) :
    dir.Ordered attempts ↔ ∀ name ∈ BOOT_MODULES, name ∈ dir.files → ∀ dep,
      dir.Required name dep → dir.locate dep ≠ none ∨ dir.ListedBefore dep name := by
  rw [Dir.Ordered]
  refine forall₃_congr fun name hname hpresent => forall₂_congr fun dep hrequired => ?_
  obtain ⟨hdep, -, hacyclic⟩ := hrequired
  cases hlocate : dir.locate dep with
  | some other =>
      refine iff_of_true ?_ (.inl (by simp))
      have hspelled := spelled_of_locate (plain_of_required hdep) hlocate
      have hinOrder : InOrder dir.next attempts := by
        rw [loadBootModules_eq] at hload
        exact inOrder_roots hload
      have hnext : other ∈ dir.next name := (mem_next_iff hreads).mpr ⟨dep, hdep, hlocate⟩
      rcases hinOrder name (attempted_of_present hload hname hpresent) other hnext with
        hbefore | hreach
      · exact ⟨other, hbefore, hspelled⟩
      · exact absurd (cyclic_of_reach hreads hspelled hreach) hacyclic
  | none =>
      have hne : ∀ other, dir.Spelled dep other → other ≠ name := by
        rintro other hspelled rfl
        exact hacyclic ⟨other, hspelled, .refl⟩
      rw [Ne, eq_self_iff_true, not_true, false_or, Dir.ListedBefore]
      constructor
      · rintro ⟨other, hbefore, hspelled⟩
        exact ⟨other, hspelled,
          (ahead_of_listed_iff hreads hload hspelled hlocate (hne other hspelled)).mp hbefore⟩
      · rintro ⟨other, hspelled, hlisted⟩
        exact ⟨other, (ahead_of_listed_iff hreads hload hspelled hlocate
          (hne other hspelled)).mpr hlisted, hspelled⟩

end Reading

/-- Every file's list is read as it stands in its section, and what a module of the boot
depends on is attempted before it, exactly if nothing that stands in front of a list is taken
for it, and each such dependency has a file spelled with underscores or one that the boot
lists early enough. -/
theorem boot_modules_ordered_iff (dir : Dir) : ∃ attempts,
    (∀ fuel, dir.files.keys.length < fuel → loadBootModules fuel (some dir) = some attempts) ∧
    (∀ name ∈ BOOT_MODULES, name ∈ dir.files → name ∈ attempts) ∧
    ((∀ name ∈ dir.files, dir.read name = dir.dependencies name) ∧ dir.Ordered attempts ↔
      (∀ name, ∀ file ∈ dir.files.lookup name, file.Unambiguous) ∧
        ∀ name ∈ BOOT_MODULES, name ∈ dir.files → ∀ dep, dir.Required name dep →
          dir.locate dep ≠ none ∨ dir.ListedBefore dep name) := by
  obtain ⟨attempts, hload⟩ := loadBootModules_total dir
  have hone := hload _ (Nat.lt_succ_self _)
  refine ⟨attempts, hload, fun _ => attempted_of_present hone, ?_⟩
  have hreading : (∀ name ∈ dir.files, dir.read name = dir.dependencies name) ↔
      ∀ name, ∀ file ∈ dir.files.lookup name, file.Unambiguous := by
    refine forall_congr' fun name => ?_
    cases hfile : dir.files.lookup name with
    | none =>
        have habsent : name ∉ dir.files := AList.lookup_eq_none.mp hfile
        simp [habsent]
    | some file =>
        have hpresent : name ∈ dir.files := by
          rw [← AList.lookup_isSome, hfile]
          rfl
        simp only [hpresent, forall_true_left, Dir.read, Dir.dependencies, hfile,
          Option.elim_some, moduleDepends_eq_iff, Option.mem_some, forall_eq']
  rw [hreading]
  exact and_congr_right fun hclear => ordered_iff (hreading.mpr hclear) hone

/-- A module file that has just these entries. -/
def fileOf (entries : List Text) (hclosed : ∀ entry ∈ entries, 0 ∉ Utf8.encode entry) :
    ModuleFile where
  front := [0x7f, 0x45, 0x4c, 0x46]
  modinfo := entries.map Utf8.encode
  back := []
  closed := by
    rintro _ hentry
    obtain ⟨text, htext, rfl⟩ := List.mem_map.mp hentry
    exact hclosed text htext

/-- A description with the key in it. -/
def described : ModuleFile :=
  fileOf ["description=depends=nothing".toList, "depends=libahci".toList] (by decide +kernel)

/-- One module depends on another one whose file is spelled with dashes. -/
def dashed : Dir where
  files := (AList.singleton "i2c-algo-bit".toList
      (fileOf ["depends=".toList] (by decide +kernel))).insert "drm_kms_helper".toList
    (fileOf ["depends=i2c-algo-bit".toList] (by decide +kernel))
  named := by decide +kernel
  leadsBack := fun _ => false

theorem dashed_required :
    dashed.Required "drm_kms_helper".toList "i2c_algo_bit".toList := by
  have hspelled : dashed.Spelled "i2c_algo_bit".toList "i2c-algo-bit".toList := by
    constructor <;> decide +kernel
  refine ⟨by decide +kernel, ⟨_, hspelled⟩, ?_⟩
  rintro ⟨other, ⟨hother, hmodule⟩, hreach⟩
  have hname : other = "i2c-algo-bit".toList := by
    revert hmodule
    rcases AList.mem_keys.mp hother with _ | ⟨_, hrest⟩
    · decide +kernel
    · intro _
      exact List.mem_singleton.mp hrest
  rcases ReflTransGen.cases_head hreach with hsame | ⟨next, ⟨dep, hdep, -⟩, -⟩
  · rw [hname] at hsame
    revert hsame
    decide +kernel
  · have hnone : dashed.dependencies "i2c-algo-bit".toList = [] := by decide +kernel
    rw [hname, hnone] at hdep
    cases hdep

/-- The dependency is never attempted, and the description is read for the list. -/
theorem dashed_dependency_skipped :
    (∀ fuel, 2 < fuel → loadBootModules fuel (some dashed) =
        some ["drm_kms_helper".toList]) ∧
      ¬ dashed.Ordered ["drm_kms_helper".toList] ∧
      moduleDepends described.bytes ≠ described.dependencies := by
  refine ⟨?_, ?_, by decide +kernel⟩
  · intro fuel hfuel
    obtain ⟨attempts, hload⟩ := loadBootModules_total dashed
    have hthree := hload 3 (by decide)
    rw [hload fuel hfuel, ← hthree]
    decide +kernel
  · intro hordered
    obtain ⟨other, hother, -⟩ := hordered _ (by decide +kernel) (by decide +kernel) _
      dashed_required
    have hnone : ahead "drm_kms_helper".toList ["drm_kms_helper".toList] = [] := by
      decide +kernel
    rw [hnone] at hother
    cases hother

end Order

end PertiskKos.Kernel
