import Mathlib.Data.List.Perm.Subperm
import Mathlib.Logic.Relation
import Mathlib.Order.Nat
import Mathlib.Tactic.Common

/-!
# Visiting first what a node needs

A node is visited after the nodes that it needs, and those in the same way.  Only the nodes
that are being visited are known: one of them is passed over, and a node is visited again for
every way that leads to it.
-/

namespace PertiskKos.Visits

open Relation

/-! ## Runs one after the other -/

section Gather

variable {A B : Type}

/-- The results for the items, put together. -/
def gather (f : A → Option (List B)) : List A → Option (List B)
  | [] => some []
  | item :: items => (f item).bind fun first => (gather f items).map (first ++ ·)

theorem gather_cons {f : A → Option (List B)} {item : A} {items : List A} {all : List B} :
    gather f (item :: items) = some all ↔
      ∃ first rest, f item = some first ∧ gather f items = some rest ∧ first ++ rest = all := by
  simp only [gather, Option.bind_eq_some_iff, Option.map_eq_some_iff]
  constructor
  · rintro ⟨first, hfirst, rest, hrest, rfl⟩
    exact ⟨first, rest, hfirst, hrest, rfl⟩
  · rintro ⟨first, rest, hfirst, hrest, rfl⟩
    exact ⟨first, hfirst, rest, hrest, rfl⟩

theorem gather_total {f : A → Option (List B)} {items : List A}
    (htotal : ∀ item ∈ items, ∃ found, f item = some found) :
    ∃ all, gather f items = some all := by
  induction items with
  | nil => exact ⟨[], rfl⟩
  | cons item items ih =>
      obtain ⟨first, hfirst⟩ := htotal item List.mem_cons_self
      obtain ⟨rest, hrest⟩ := ih fun other hother => htotal other (List.mem_cons_of_mem _ hother)
      exact ⟨first ++ rest, gather_cons.mpr ⟨first, rest, hfirst, hrest, rfl⟩⟩

theorem gather_mono {f g : A → Option (List B)} {items : List A} {all : List B}
    (hmono : ∀ item found, f item = some found → g item = some found)
    (hall : gather f items = some all) : gather g items = some all := by
  induction items generalizing all with
  | nil => exact hall
  | cons item items ih =>
      obtain ⟨first, rest, hfirst, hrest, rfl⟩ := gather_cons.mp hall
      exact gather_cons.mpr ⟨first, rest, hmono item first hfirst, ih hrest, rfl⟩

theorem mem_gather {f : A → Option (List B)} {items : List A} {all : List B}
    (hall : gather f items = some all) {x : B} :
    x ∈ all ↔ ∃ item ∈ items, ∃ found, f item = some found ∧ x ∈ found := by
  induction items generalizing all with
  | nil =>
      cases hall
      simp
  | cons item items ih =>
      obtain ⟨first, rest, hfirst, hrest, rfl⟩ := gather_cons.mp hall
      simp only [List.mem_append, List.mem_cons, exists_eq_or_imp, ih hrest, hfirst,
        Option.some.injEq, exists_eq_left']

theorem gather_found {f : A → Option (List B)} {items : List A} {all : List B}
    (hall : gather f items = some all) {item : A} (hitem : item ∈ items) :
    ∃ found, f item = some found := by
  induction items generalizing all with
  | nil => cases hitem
  | cons first items ih =>
      obtain ⟨found, rest, hfound, hrest, -⟩ := gather_cons.mp hall
      rcases List.mem_cons.mp hitem with rfl | hitem
      · exact ⟨found, hfound⟩
      · exact ih hrest hitem

/-- Items without a result of their own may be left out. -/
theorem gather_filterMap {C : Type} (find : C → Option A) (f : A → Option (List B))
    (items : List C) :
    gather (fun item => (find item).elim (some []) f) items =
      gather f (items.filterMap find) := by
  induction items with
  | nil => rfl
  | cons item items ih =>
      cases hfind : find item with
      | none =>
          rw [List.filterMap_cons_none hfind, ← ih, gather, hfind]
          simp
      | some found => rw [List.filterMap_cons_some hfind, gather, gather, hfind, ih]; rfl

end Gather

/-! ## What comes before the first occurrence -/

section Ahead

variable {A : Type} [DecidableEq A] {x : A} {left right : List A}

def ahead (x : A) (items : List A) : List A := items.takeWhile (· ≠ x)

theorem ahead_sublist (items : List A) : (ahead x items).Sublist items :=
  List.takeWhile_sublist _

theorem ahead_append_right (hleft : x ∉ left) (right : List A) :
    ahead x (left ++ right) = left ++ ahead x right := by
  refine List.takeWhile_append_of_pos fun y hy => ?_
  rw [decide_eq_true_eq]
  rintro rfl
  exact hleft hy

theorem ahead_append_left (hleft : x ∈ left) (right : List A) :
    ahead x (left ++ right) = ahead x left := by
  obtain ⟨front, back, rfl, hfront⟩ := List.eq_append_cons_of_mem hleft
  rw [List.append_assoc, ahead_append_right hfront, ahead_append_right hfront, List.cons_append,
    ahead, ahead, List.takeWhile_cons_of_neg (by simp), List.takeWhile_cons_of_neg (by simp)]

end Ahead

/-! ## Visits -/

section Visit

variable {A : Type} [DecidableEq A] (next : A → List A)

/-- The nodes that are visited for this one, while those on the stack are being visited. -/
def visit : Nat → List A → A → Option (List A)
  | 0, _, _ => none
  | fuel + 1, stack, node =>
      if node ∈ stack then some []
      else (gather (visit fuel (node :: stack)) (next node)).map (· ++ [node])

abbrev Reach : A → A → Prop := ReflTransGen fun node other => other ∈ next node

variable {next} {fuel : Nat} {stack nodes : List A} {node x : A} {visited : List A}

theorem visit_cases (hvisit : visit next (fuel + 1) stack node = some visited) :
    node ∈ stack ∧ visited = [] ∨ node ∉ stack ∧ ∃ below,
      gather (visit next fuel (node :: stack)) (next node) = some below ∧
        visited = below ++ [node] := by
  rw [visit] at hvisit
  split at hvisit
  · next hmem => exact .inl ⟨hmem, (Option.some.inj hvisit).symm⟩
  · next hmem =>
      obtain ⟨below, hbelow, rfl⟩ := Option.map_eq_some_iff.mp hvisit
      exact .inr ⟨hmem, below, hbelow, rfl⟩

theorem visit_mono (hvisit : visit next fuel stack node = some visited) :
    visit next (fuel + 1) stack node = some visited := by
  induction fuel generalizing stack node visited with
  | zero => cases hvisit
  | succ fuel ih =>
      rw [visit]
      rcases visit_cases hvisit with ⟨hmem, rfl⟩ | ⟨hmem, below, hbelow, rfl⟩
      · rw [if_pos hmem]
      · rw [if_neg hmem, gather_mono (fun _ _ h => ih h) hbelow]
        rfl

theorem visit_of_le {more : Nat} (hle : fuel ≤ more)
    (hvisit : visit next fuel stack node = some visited) :
    visit next more stack node = some visited := by
  induction more, hle using Nat.le_induction with
  | base => exact hvisit
  | succ more _ ih => exact visit_mono ih

/-- The stack grows with every call and repeats no node, so the calls come to an end. -/
theorem visit_total (hclosed : ∀ node ∈ nodes, ∀ other ∈ next node, other ∈ nodes)
    (hnodup : stack.Nodup) (hstack : stack ⊆ nodes) (hnode : node ∈ nodes)
    (hfuel : nodes.length < fuel + stack.length) :
    ∃ visited, visit next fuel stack node = some visited := by
  induction fuel generalizing stack node with
  | zero =>
      have hle := (List.subperm_of_subset hnodup hstack).length_le
      omega
  | succ fuel ih =>
      rw [visit]
      split
      · exact ⟨[], rfl⟩
      · next hmem =>
          have hbelow := gather_total fun other hother =>
            ih (List.nodup_cons.mpr ⟨hmem, hnodup⟩)
              (List.cons_subset.mpr ⟨hnode, hstack⟩) (hclosed node hnode other hother)
              (by rw [List.length_cons]; omega)
          obtain ⟨below, hbelow⟩ := hbelow
          exact ⟨below ++ [node], by rw [hbelow]; rfl⟩

theorem notMem_stack (hvisit : visit next fuel stack node = some visited) (hx : x ∈ visited) :
    x ∉ stack := by
  induction fuel generalizing stack node visited with
  | zero => cases hvisit
  | succ fuel ih =>
      rcases visit_cases hvisit with ⟨-, rfl⟩ | ⟨hmem, below, hbelow, rfl⟩
      · cases hx
      · rcases List.mem_append.mp hx with hx | hx
        · obtain ⟨other, -, found, hfound, hx⟩ := (mem_gather hbelow).mp hx
          exact fun h => ih hfound hx (List.mem_cons_of_mem _ h)
        · rwa [List.mem_singleton.mp hx]

theorem reach_of_mem (hvisit : visit next fuel stack node = some visited) (hx : x ∈ visited) :
    Reach next node x := by
  induction fuel generalizing stack node visited with
  | zero => cases hvisit
  | succ fuel ih =>
      rcases visit_cases hvisit with ⟨-, rfl⟩ | ⟨hmem, below, hbelow, rfl⟩
      · cases hx
      · rcases List.mem_append.mp hx with hx | hx
        · obtain ⟨other, hother, found, hfound, hx⟩ := (mem_gather hbelow).mp hx
          exact ReflTransGen.head hother (ih hfound hx)
        · rw [List.mem_singleton.mp hx]

/-- A way that avoids the nodes of the stack. -/
abbrev ReachOff (next : A → List A) (stack : List A) : A → A → Prop :=
  ReflTransGen fun node other => other ∈ next node ∧ other ∉ stack

/-- A way can be taken up where it leaves its first node for good. -/
theorem ReachOff.leave (hreach : ReachOff next stack node x) (hne : x ≠ node) :
    ∃ other ∈ next node, other ∉ node :: stack ∧
      ReachOff next (node :: stack) other x := by
  induction hreach with
  | refl => exact absurd rfl hne
  | @tail y z _ hstep ih =>
      have hz : z ∉ node :: stack := by
        rw [List.mem_cons, not_or]
        exact ⟨hne, hstep.2⟩
      by_cases hy : y = node
      · exact ⟨z, hy ▸ hstep.1, hz, .refl⟩
      · obtain ⟨other, hother, hoff, hway⟩ := ih hy
        exact ⟨other, hother, hoff, hway.tail ⟨hstep.1, hz⟩⟩

theorem mem_of_reachOff (hvisit : visit next fuel stack node = some visited)
    (hnode : node ∉ stack) (hreach : ReachOff next stack node x) : x ∈ visited := by
  induction fuel generalizing stack node visited with
  | zero => cases hvisit
  | succ fuel ih =>
      rcases visit_cases hvisit with ⟨hmem, -⟩ | ⟨-, below, hbelow, rfl⟩
      · exact absurd hmem hnode
      · by_cases hx : x = node
        · exact List.mem_append_right _ (List.mem_singleton.mpr hx)
        · obtain ⟨other, hother, hoff, hway⟩ := hreach.leave hx
          refine List.mem_append_left _ ?_
          obtain ⟨found, hfound⟩ := gather_found hbelow hother
          exact (mem_gather hbelow).mpr ⟨other, hother, found, hfound, ih hfound hoff hway⟩

/-! ## The order of the visits -/

/-- What a node needs is visited before its first visit, or needs the node itself. -/
def InOrder (next : A → List A) (visited : List A) : Prop :=
  ∀ node ∈ visited, ∀ other ∈ next node, other ∈ ahead node visited ∨ Reach next other node

theorem InOrder.append {left right : List A} (hleft : InOrder next left)
    (hright : InOrder next right) : InOrder next (left ++ right) := by
  intro node hnode other hother
  by_cases hmem : node ∈ left
  · rw [ahead_append_left hmem]
    exact hleft node hmem other hother
  · rw [ahead_append_right hmem]
    have hnode := (List.mem_append.mp hnode).resolve_left hmem
    exact (hright node hnode other hother).imp_left (List.mem_append_right _)

theorem inOrder_gather {f : A → Option (List A)} {items all : List A}
    (hitems : ∀ item ∈ items, ∀ found, f item = some found → InOrder next found)
    (hall : gather f items = some all) : InOrder next all := by
  induction items generalizing all with
  | nil =>
      cases hall
      intro node hnode
      cases hnode
  | cons item items ih =>
      obtain ⟨first, rest, hfirst, hrest, rfl⟩ := gather_cons.mp hall
      exact (hitems item List.mem_cons_self first hfirst).append
        (ih (fun other hother => hitems other (List.mem_cons_of_mem _ hother)) hrest)

theorem inOrder_visit (hstack : ∀ above ∈ stack, Reach next above node)
    (hvisit : visit next fuel stack node = some visited) : InOrder next visited := by
  induction fuel generalizing stack node visited with
  | zero => cases hvisit
  | succ fuel ih =>
      rcases visit_cases hvisit with ⟨-, rfl⟩ | ⟨-, below, hbelow, rfl⟩
      · intro other hother
        cases hother
      · have hallBelow : InOrder next below := by
          refine inOrder_gather (fun other hother found hfound => ih ?_ hfound) hbelow
          exact List.forall_mem_cons.mpr ⟨.single hother,
            fun above habove => (hstack above habove).tail hother⟩
        have hnode : node ∉ below := by
          intro h
          obtain ⟨other, -, found, hfound, hmem⟩ := (mem_gather hbelow).mp h
          exact notMem_stack hfound hmem List.mem_cons_self
        intro m hm other hother
        by_cases hmem : m ∈ below
        · rw [ahead_append_left hmem]
          exact hallBelow m hmem other hother
        · obtain rfl := List.mem_singleton.mp ((List.mem_append.mp hm).resolve_left hmem)
          -- `m` is the node itself: its turn comes after all that it needs
          obtain ⟨found, hfound⟩ := gather_found hbelow hother
          by_cases hon : other ∈ m :: stack
          · rcases List.mem_cons.mp hon with rfl | habove
            · exact .inr .refl
            · exact .inr (hstack other habove)
          · refine .inl ?_
            rw [ahead_append_right hnode]
            have hmem := mem_of_reachOff hfound hon .refl
            exact List.mem_append_left _
              ((mem_gather hbelow).mpr ⟨other, hother, found, hfound, hmem⟩)

end Visit

/-! ## Several roots -/

section Roots

variable {A : Type} [DecidableEq A] {next : A → List A} {fuel : Nat} {roots visited : List A}
variable {node x : A}

theorem mem_visit_root (hvisit : visit next fuel [] node = some visited) :
    x ∈ visited ↔ Reach next node x := by
  refine ⟨reach_of_mem hvisit, fun hreach => mem_of_reachOff hvisit List.not_mem_nil ?_⟩
  exact ReflTransGen.mono (fun _ _ hstep => ⟨hstep, List.not_mem_nil⟩) _ _ hreach

theorem inOrder_roots (hroots : gather (visit next fuel []) roots = some visited) :
    InOrder next visited :=
  inOrder_gather (fun _ _ _ hfound => inOrder_visit (List.forall_mem_nil _) hfound) hroots

theorem root_last (hvisit : visit next fuel [] node = some visited) :
    ∃ below, visited = below ++ [node] ∧ node ∉ below := by
  cases fuel with
  | zero => cases hvisit
  | succ fuel =>
      rcases visit_cases hvisit with ⟨hmem, -⟩ | ⟨-, below, hbelow, rfl⟩
      · cases hmem
      · refine ⟨below, rfl, fun h => ?_⟩
        obtain ⟨other, -, found, hfound, hmem⟩ := (mem_gather hbelow).mp h
        exact notMem_stack hfound hmem List.mem_cons_self

/-- A node that nothing else needs is visited before another one exactly if it is one of the
roots, and neither it nor a root in front of it needs the other. -/
theorem ahead_of_unneeded_iff (hroots : gather (visit next fuel []) roots = some visited)
    (hunneeded : ∀ other, Reach next other x → other = x) (hne : x ≠ node) :
    x ∈ ahead node visited ↔
      ∃ front back, roots = front ++ x :: back ∧
        ∀ root ∈ front ++ [x], ¬ Reach next root node := by
  induction roots generalizing visited with
  | nil =>
      cases hroots
      simp [ahead]
  | cons root roots ih =>
      obtain ⟨first, rest, hfirst, hrest, rfl⟩ := gather_cons.mp hroots
      have hsplit : (∃ front back, root :: roots = front ++ x :: back ∧
          ∀ other ∈ front ++ [x], ¬ Reach next other node) ↔
            ¬ Reach next root node ∧ (root = x ∨ ∃ front back, roots = front ++ x :: back ∧
              ∀ other ∈ front ++ [x], ¬ Reach next other node) := by
        constructor
        · rintro ⟨front, back, hroots, hall⟩
          cases front with
          | nil =>
              obtain ⟨rfl, rfl⟩ := List.cons.inj hroots
              exact ⟨hall root (by simp), .inl rfl⟩
          | cons other front =>
              obtain ⟨rfl, rfl⟩ := List.cons.inj hroots
              exact ⟨hall root (by simp),
                .inr ⟨front, back, rfl, fun other hother => hall other (by simp_all)⟩⟩
        · rintro ⟨hroot, rfl | ⟨front, back, rfl, hall⟩⟩
          · exact ⟨[], roots, rfl, by simpa using hroot⟩
          · exact ⟨root :: front, back, rfl, List.forall_mem_cons.mpr ⟨hroot, hall⟩⟩
      rw [hsplit, ← ih hrest]
      by_cases hnode : node ∈ first
      · rw [ahead_append_left hnode]
        refine iff_of_false ?_ fun h => h.1 ((mem_visit_root hfirst).mp hnode)
        intro hx
        -- `x` can only be the root, and the root is the last of its own visits
        have hmem : x ∈ first := (ahead_sublist first).subset hx
        obtain rfl := hunneeded root ((mem_visit_root hfirst).mp hmem)
        obtain ⟨below, rfl, hroot⟩ := root_last hfirst
        have hbelow : node ∈ below :=
          (List.mem_append.mp hnode).resolve_right fun h => hne (List.mem_singleton.mp h).symm
        rw [ahead_append_left hbelow] at hx
        exact hroot ((ahead_sublist below).subset hx)
      · rw [ahead_append_right hnode, List.mem_append]
        have hroot : ¬ Reach next root node := fun h => hnode ((mem_visit_root hfirst).mpr h)
        have hfirstIff : x ∈ first ↔ root = x := by
          constructor
          · exact fun hx => hunneeded root ((mem_visit_root hfirst).mp hx)
          · rintro rfl
            exact (mem_visit_root hfirst).mpr .refl
        rw [hfirstIff, and_iff_right hroot]

end Roots

end PertiskKos.Visits
