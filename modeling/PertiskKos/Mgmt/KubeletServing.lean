import PertiskKos.Library.Json

/-!
# Approving serving certificates

A kubelet asks for its serving certificate with a request that nobody approves by itself.
The dashboard approves those that come from registered nodes, one command after the other,
and a job waits until the list shows a certificate for its node.
-/

namespace PertiskKos.Mgmt.KubeletServing

open Strings Json

/-! ## The list of requests -/

section Parsing

def SIGNER : Text := "kubernetes.io/kubelet-serving".toList

structure ServingCsr where
  name : Text
  node : Text
  issued : Bool
  terminal : Bool
  deriving DecidableEq, Repr

def nameOf (object : Value) : Option Text :=
  (object.pointer ["metadata".toList, "name".toList]).bind Value.asStr

def inSystemNodes (spec : Value) : Bool :=
  ((spec.get "groups".toList).bind Value.asArray).any fun groups =>
    groups.any fun group => group.asStr = some "system:nodes".toList

/-- A condition that ends the request. -/
def isTerminal (condition : Value) : Bool :=
  (condition.get "type".toList).bind Value.asStr ∈
    [some "Approved".toList, some "Denied".toList]

def hasCertificate (csr : Value) : Bool :=
  ((csr.pointer ["status".toList, "certificate".toList]).bind Value.asStr).any (· ≠ [])

/-- One entry of the list, where it is a request of a node for this signer. -/
def servingCsr (csr : Value) : Option ServingCsr :=
  match (nameOf csr).filter (· ≠ []) with
  | none => none
  | some name =>
      let spec := (csr.get "spec".toList).getD .null
      if (spec.get "signerName".toList).bind Value.asStr ≠ some SIGNER then none
      else
        let username := ((spec.get "username".toList).bind Value.asStr).getD []
        match "system:node:".toList.isPrefixOf? username with
        | none => none
        | some node =>
            if !inSystemNodes spec then none
            else
              let conditions := ((csr.pointer ["status".toList, "conditions".toList]).bind
                Value.asArray).getD []
              some
                { name := name
                  node := node
                  issued := hasCertificate csr
                  terminal := conditions.any isTerminal }

def itemsOf (list : Value) : List Value := ((list.get "items".toList).bind Value.asArray).getD []

def parseKubeletServingCsrs (list : Value) : List ServingCsr :=
  (itemsOf list).filterMap servingCsr

def pendingForRegistered (csrs : List ServingCsr) (registered : List Text) : List ServingCsr :=
  csrs.filter fun csr => !csr.terminal && csr.node ∈ registered

def nodeServingIssued (csrs : List ServingCsr) (node : Text) : Bool :=
  csrs.any fun csr => csr.node = node && csr.issued && csr.terminal

/-- `list_nodes`, once kubectl has answered. -/
def nodeNames (doc : Value) : List Text := (itemsOf doc).filterMap nameOf

end Parsing

/-! ## Commands -/

section Commands

inductive CallError where
  | getNodes
  | getCsr
  | approve (name : Text)
  deriving DecidableEq, Repr

/-- A call, with what it meets: whether the kubeconfig is there, what kubectl prints, and
whether it can approve a request.  The API server keeps requests by their names. -/
structure Call where
  isFile : Bool
  nodes : Option Value
  csrs : Option Value
  approves : Text → Bool
  distinct : ∀ doc ∈ csrs, ((itemsOf doc).filterMap nameOf).Nodup

/-- The requests that are tried, and whether all could be approved. -/
def approveEach (approves : Text → Bool) : List ServingCsr → List Text × Except CallError Unit
  | [] => ([], .ok ())
  | csr :: rest =>
      if approves csr.name then
        let tail := approveEach approves rest
        (csr.name :: tail.1, tail.2)
      else ([csr.name], .error (.approve csr.name))

/-- `approve_pending_kubelet_serving_csrs`: the requests that are tried, and what is
returned.  Only a request that is tried can be approved. -/
def approvePending (call : Call) : List Text × Except CallError (List Text) :=
  if !call.isFile then ([], .ok [])
  else
    match call.nodes with
    | none => ([], .error .getNodes)
    | some nodes =>
        match call.csrs with
        | none => ([], .error .getCsr)
        | some csrs =>
            let tried := approveEach call.approves
              (pendingForRegistered (parseKubeletServingCsrs csrs) (nodeNames nodes))
            (tried.1, tried.2.map fun _ => tried.1)

/-- One round of waiting: a call, the list that is looked at, and the key that the node has
at that time. -/
structure Poll (Key : Type) where
  call : Call
  listed : Option Value
  key : Key

inductive WaitError where
  | notIssued (last : CallError)
  | timeout
  deriving DecidableEq, Repr

variable {Key : Type}

/-- The list of the poll shows a certificate of the node. -/
def Poll.shows (node : Text) (poll : Poll Key) : Bool :=
  poll.listed.any fun list => nodeServingIssued (parseKubeletServingCsrs list) node

/-- The last error after the poll. -/
def Poll.lastError (poll : Poll Key) (last : Option CallError) : Option CallError :=
  match poll.listed with
  | none => some .getCsr
  | some _ =>
      match (approvePending poll.call).2 with
      | .error error => some error
      | .ok _ => last

/-- `wait_kubelet_serving_cert`, with the polls there is time for. -/
def waitKubeletServingCert (node : Text) :
    Option CallError → List (Poll Key) → Except WaitError Unit
  | some error, [] => .error (.notIssued error)
  | none, [] => .error .timeout
  | last, poll :: rest =>
      if poll.shows node then .ok ()
      else waitKubeletServingCert node (poll.lastError last) rest

end Commands

/-! ## What a request has to be -/

section Requests

/-- A request for a serving certificate that comes from the node. -/
structure Requests (node : Text) (csr : Value) : Prop where
  signer : csr.pointer ["spec".toList, "signerName".toList] = some (.string SIGNER)
  requester : csr.pointer ["spec".toList, "username".toList] =
    some (.string ("system:node:".toList ++ node))
  group : ∃ groups, csr.pointer ["spec".toList, "groups".toList] = some (.array groups) ∧
    .string "system:nodes".toList ∈ groups

/-- The request has been approved or denied. -/
def Decided (csr : Value) : Prop :=
  ∃ conditions, csr.pointer ["status".toList, "conditions".toList] = some (.array conditions) ∧
    ∃ condition ∈ conditions, ∃ kind ∈ ["Approved".toList, "Denied".toList],
      condition.get "type".toList = some (.string kind)

/-- A certificate has been issued. -/
def Issued (csr : Value) : Prop :=
  ∃ certificate, csr.pointer ["status".toList, "certificate".toList] =
    some (.string certificate) ∧ certificate ≠ []

structure Named (name : Text) (csr : Value) : Prop where
  given : nameOf csr = some name
  ne_nil : name ≠ []

/-- The request may be approved: it waits, and its node is registered. -/
def Eligible (registered : List Text) (csr : Value) : Prop :=
  ¬ Decided csr ∧ ∃ node ∈ registered, Requests node csr

variable {csr : Value}

theorem inSystemNodes_iff {spec : Value} : inSystemNodes spec = true ↔
    ∃ groups, spec.get "groups".toList = some (.array groups) ∧
      .string "system:nodes".toList ∈ groups := by
  rw [inSystemNodes, Option.any_eq_true]
  simp only [Value.bind_asArray, List.any_eq_true, decide_eq_true_eq, Value.asStr_eq_some]
  constructor
  · rintro ⟨groups, hgroups, group, hmem, rfl⟩
    exact ⟨groups, hgroups, hmem⟩
  · rintro ⟨groups, hgroups, hmem⟩
    exact ⟨groups, hgroups, _, hmem, rfl⟩

theorem isTerminal_iff {condition : Value} : isTerminal condition = true ↔
    ∃ kind ∈ ["Approved".toList, "Denied".toList],
      condition.get "type".toList = some (.string kind) := by
  rw [isTerminal, decide_eq_true_eq, List.mem_pair]
  simp only [Value.bind_asStr, List.mem_cons, List.not_mem_nil, or_false]
  constructor
  · rintro (h | h)
    · exact ⟨_, .inl rfl, h⟩
    · exact ⟨_, .inr rfl, h⟩
  · rintro ⟨kind, rfl | rfl, h⟩
    · exact .inl h
    · exact .inr h

theorem decided_iff : (((csr.pointer ["status".toList, "conditions".toList]).bind
    Value.asArray).getD []).any isTerminal = true ↔ Decided csr := by
  rw [Decided, List.any_eq_true]
  simp only [isTerminal_iff]
  cases hfound : (csr.pointer ["status".toList, "conditions".toList]).bind Value.asArray with
  | none =>
      simp only [Option.getD_none, List.not_mem_nil, false_and, exists_false, false_iff]
      rintro ⟨conditions, hconditions, -⟩
      rw [Value.bind_asArray.mpr hconditions] at hfound
      cases hfound
  | some conditions =>
      have hconditions := Value.bind_asArray.mp hfound
      simp only [Option.getD_some, hconditions, Option.some.injEq, Value.array.injEq,
        exists_eq_left']

theorem hasCertificate_iff : hasCertificate csr = true ↔ Issued csr := by
  rw [hasCertificate, Option.any_eq_true, Issued]
  simp only [Value.bind_asStr, decide_eq_true_eq]

theorem requests_iff {node : Text} : Requests node csr ↔
    let spec := (csr.get "spec".toList).getD .null
    (spec.get "signerName".toList).bind Value.asStr = some SIGNER ∧
      "system:node:".toList.isPrefixOf?
        (((spec.get "username".toList).bind Value.asStr).getD []) = some node ∧
      inSystemNodes spec = true := by
  have hspec : ∀ key, csr.pointer ["spec".toList, key] =
      ((csr.get "spec".toList).getD .null).get key := fun key => Value.pointer_pair _ key csr
  simp only [Value.bind_asStr, inSystemNodes_iff, ← hspec]
  constructor
  · rintro ⟨hsigner, hrequester, hgroup⟩
    refine ⟨hsigner, ?_, hgroup⟩
    rw [Value.bind_asStr.mpr hrequester, Option.getD_some]
    exact List.isPrefixOf?_eq_some_iff_append_eq.mpr rfl
  · rintro ⟨hsigner, hfront, hgroup⟩
    refine ⟨hsigner, ?_, hgroup⟩
    have husername := List.isPrefixOf?_eq_some_iff_append_eq.mp hfront
    cases hfound : (csr.pointer ["spec".toList, "username".toList]).bind Value.asStr with
    | none =>
        rw [hfound] at husername
        cases husername
    | some username =>
        rw [hfound, Option.getD_some] at husername
        rw [husername]
        exact Value.bind_asStr.mp hfound

/-- An entry of the list is read exactly if it is a named request of a node, and it is read as
it is. -/
theorem servingCsr_eq_some {found : ServingCsr} : servingCsr csr = some found ↔
    Named found.name csr ∧ Requests found.node csr ∧ (found.issued = true ↔ Issued csr) ∧
      (found.terminal = true ↔ Decided csr) := by
  rw [← hasCertificate_iff, ← decided_iff, requests_iff]
  obtain ⟨name, node, issued, terminal⟩ := found
  have hbool : ∀ {a b : Bool}, (a = true ↔ b = true) ↔ b = a := by
    intro a b
    cases a <;> cases b <;> simp
  simp only [hbool]
  rw [servingCsr]
  cases hname : (nameOf csr).filter (· ≠ []) with
  | none =>
      simp only [reduceCtorEq, false_iff]
      rintro ⟨hnamed, -⟩
      rw [hnamed.given, Option.filter_some, if_pos (by simpa using hnamed.ne_nil)] at hname
      cases hname
  | some given =>
      obtain ⟨hgiven, hne⟩ := Option.filter_eq_some_iff.mp hname
      have hnamed : Named name csr ↔ given = name := by
        constructor
        · intro h
          rw [h.given] at hgiven
          exact (Option.some.inj hgiven).symm
        · rintro rfl
          exact ⟨hgiven, by simpa using hne⟩
      simp only [hnamed]
      generalize (csr.get "spec".toList).getD .null = spec
      generalize (spec.get "signerName".toList).bind Value.asStr = signer
      generalize "system:node:".toList.isPrefixOf?
        (((spec.get "username".toList).bind Value.asStr).getD []) = requester
      generalize inSystemNodes spec = grouped
      generalize (((csr.pointer ["status".toList, "conditions".toList]).bind
        Value.asArray).getD []).any isTerminal = decided
      generalize hasCertificate csr = certified
      by_cases hsigner : signer = some SIGNER
      · rw [if_neg (not_not_intro hsigner)]
        cases requester with
        | none => simp only [reduceCtorEq, false_and, and_false]
        | some other =>
            cases grouped with
            | false => simp only [Bool.not_false, if_true, reduceCtorEq, and_false, false_and]
            | true =>
                simp only [Bool.not_true, Bool.false_eq_true, if_false, Option.some.injEq,
                  ServingCsr.mk.injEq, hsigner, true_and, and_true]
      · rw [if_pos hsigner]
        simp only [reduceCtorEq, hsigner, false_and, and_false]

end Requests

/-! ## Approvals -/

section Approvals

variable {call : Call}

/-- What a call works on, where it gets that far: the entries of the list and the names of
the nodes. -/
def Call.listed (call : Call) : Option (List Value × List Text) :=
  if call.isFile then
    call.nodes.bind fun nodes => call.csrs.map fun csrs => (itemsOf csrs, nodeNames nodes)
  else none

/-- The requests that a call has to try. -/
def Call.pending (call : Call) : List Text :=
  match call.listed with
  | none => []
  | some (items, registered) =>
      (pendingForRegistered (items.filterMap servingCsr) registered).map ServingCsr.name

theorem listed_eq_some {items : List Value} {registered : List Text}
    (hlisted : call.listed = some (items, registered)) :
    call.isFile = true ∧ ∃ nodes csrs, call.nodes = some nodes ∧ call.csrs = some csrs ∧
      itemsOf csrs = items ∧ nodeNames nodes = registered := by
  rw [Call.listed] at hlisted
  split at hlisted
  · next hfile =>
      obtain ⟨nodes, hnodes, hfound⟩ := Option.bind_eq_some_iff.mp hlisted
      obtain ⟨csrs, hcsrs, hpair⟩ := Option.map_eq_some_iff.mp hfound
      obtain ⟨hitems, hregistered⟩ := Prod.mk.inj hpair
      exact ⟨hfile, nodes, csrs, hnodes, hcsrs, hitems, hregistered⟩
  · cases hlisted

theorem attempted_eq {items : List Value} {registered : List Text}
    (hlisted : call.listed = some (items, registered)) :
    (approvePending call).1 = (approveEach call.approves
      (pendingForRegistered (items.filterMap servingCsr) registered)).1 := by
  obtain ⟨hfile, nodes, csrs, hnodes, hcsrs, rfl, rfl⟩ := listed_eq_some hlisted
  rw [approvePending, hfile, hnodes, hcsrs]
  rfl

theorem attempted_none (hlisted : call.listed = none) : (approvePending call).1 = [] := by
  rw [Call.listed] at hlisted
  rw [approvePending]
  cases hfile : call.isFile with
  | false => rfl
  | true =>
      cases hnodes : call.nodes with
      | none => rfl
      | some nodes =>
          cases hcsrs : call.csrs with
          | none => rfl
          | some csrs => simp [hfile, hnodes, hcsrs] at hlisted

theorem attempted_front (approves : Text → Bool) (csrs : List ServingCsr) :
    (approveEach approves csrs).1 <+: csrs.map ServingCsr.name := by
  induction csrs with
  | nil => exact List.nil_prefix
  | cons csr rest ih =>
      rw [approveEach]
      split
      · exact List.cons_prefix_cons.mpr ⟨rfl, ih⟩
      · exact List.cons_prefix_cons.mpr ⟨rfl, List.nil_prefix⟩

/-- All requests are tried exactly if none fails before the last. -/
theorem attempted_all_iff (approves : Text → Bool) (csrs : List ServingCsr) :
    (approveEach approves csrs).1 = csrs.map ServingCsr.name ↔
      ∀ csr ∈ csrs.dropLast, approves csr.name = true := by
  induction csrs with
  | nil => simp [approveEach]
  | cons csr rest ih =>
      rw [approveEach]
      cases rest with
      | nil =>
          split
          · simp [approveEach]
          · simp
      | cons second rest =>
          rw [List.dropLast_cons_cons, List.forall_mem_cons, ← ih]
          split
          · next happroves => simp [happroves]
          · next hfails => simp [hfails]

theorem mem_pending_iff {items : List Value} {registered : List Text} {name : Text} :
    name ∈ (pendingForRegistered (items.filterMap servingCsr) registered).map
        ServingCsr.name ↔
      ∃ csr ∈ items, Named name csr ∧ Eligible registered csr := by
  simp only [pendingForRegistered, List.mem_map, List.mem_filter, List.mem_filterMap,
    Bool.and_eq_true, Bool.not_eq_true', decide_eq_true_eq]
  constructor
  · rintro ⟨found, ⟨⟨csr, hmem, hcsr⟩, hopen, hnode⟩, rfl⟩
    obtain ⟨hnamed, hrequests, -, hdecided⟩ := servingCsr_eq_some.mp hcsr
    refine ⟨csr, hmem, hnamed, fun hdone => ?_, found.node, hnode, hrequests⟩
    rw [hdecided.mpr hdone] at hopen
    cases hopen
  · rintro ⟨csr, hmem, hnamed, hopen, node, hnode, hrequests⟩
    have hfound : servingCsr csr = some
        { name := name, node := node, issued := hasCertificate csr, terminal := false } :=
      servingCsr_eq_some.mpr ⟨hnamed, hrequests, hasCertificate_iff, by simpa using hopen⟩
    exact ⟨_, ⟨⟨csr, hmem, hfound⟩, rfl, hnode⟩, rfl⟩

/-- The names that are read from the list are names of its entries. -/
theorem parsed_names_sublist (items : List Value) :
    ((items.filterMap servingCsr).map ServingCsr.name).Sublist (items.filterMap nameOf) := by
  induction items with
  | nil => exact List.Sublist.refl []
  | cons csr rest ih =>
      cases hfound : servingCsr csr with
      | none =>
          rw [List.filterMap_cons_none hfound]
          cases hname : nameOf csr with
          | none => rwa [List.filterMap_cons_none hname]
          | some name =>
              rw [List.filterMap_cons_some hname]
              exact ih.cons name
      | some found =>
          have hname := (servingCsr_eq_some.mp hfound).1.given
          rw [List.filterMap_cons_some hfound, List.filterMap_cons_some hname, List.map_cons]
          exact ih.cons_cons found.name

theorem listed_nodup {items : List Value} {registered : List Text}
    (hlisted : call.listed = some (items, registered)) : (items.filterMap nameOf).Nodup := by
  obtain ⟨-, -, csrs, -, hcsrs, rfl, -⟩ := listed_eq_some hlisted
  exact call.distinct csrs hcsrs

theorem pending_nodup {items : List Value} {registered : List Text}
    (hlisted : call.listed = some (items, registered)) :
    ((pendingForRegistered (items.filterMap servingCsr) registered).map
      ServingCsr.name).Nodup := by
  have hsublist : ((pendingForRegistered (items.filterMap servingCsr) registered).map
      ServingCsr.name).Sublist ((items.filterMap servingCsr).map ServingCsr.name) :=
    List.filter_sublist.map _
  exact (listed_nodup hlisted).sublist (hsublist.trans (parsed_names_sublist items))

/-- Entries of one name are one entry. -/
theorem named_unique {items : List Value} (hnodup : (items.filterMap nameOf).Nodup)
    {name : Text} {first second : Value} (hfirst : first ∈ items) (hsecond : second ∈ items)
    (hone : nameOf first = some name) (htwo : nameOf second = some name) : first = second := by
  induction items with
  | nil => cases hfirst
  | cons csr rest ih =>
      have hrest : (rest.filterMap nameOf).Nodup :=
        hnodup.sublist ((List.sublist_cons_self csr rest).filterMap nameOf)
      have hother : ∀ other ∈ rest, nameOf csr = some name → nameOf other ≠ some name := by
        intro other hmem hcsr hsame
        rw [List.filterMap_cons_some hcsr] at hnodup
        exact (List.nodup_cons.mp hnodup).1 (List.mem_filterMap.mpr ⟨other, hmem, hsame⟩)
      rcases List.mem_cons.mp hfirst with rfl | hfirstRest
      · rcases List.mem_cons.mp hsecond with rfl | hsecondRest
        · rfl
        · exact absurd htwo (hother second hsecondRest hone)
      · rcases List.mem_cons.mp hsecond with rfl | hsecondRest
        · exact absurd hone (hother first hfirstRest htwo)
        · exact ih hrest hfirstRest hsecondRest

/-- A call tries every request that may be approved, whatever becomes of the others. -/
def Call.Independent (call : Call) : Prop :=
  ∀ items registered, call.listed = some (items, registered) →
    ∀ csr ∈ items, ∀ name, Named name csr → Eligible registered csr →
      name ∈ (approvePending call).1

/-- What is tried was listed by this call, and may be approved. -/
theorem attempted_eligible {name : Text} (htried : name ∈ (approvePending call).1) :
    ∃ items registered, call.listed = some (items, registered) ∧
      (∃ csr ∈ items, Named name csr) ∧
        ∀ csr ∈ items, Named name csr → Eligible registered csr := by
  cases hlisted : call.listed with
  | none =>
      rw [attempted_none hlisted] at htried
      cases htried
  | some found =>
      obtain ⟨items, registered⟩ := found
      rw [attempted_eq hlisted] at htried
      obtain ⟨csr, hmem, hnamed, heligible⟩ :=
        mem_pending_iff.mp ((attempted_front _ _).subset htried)
      refine ⟨items, registered, rfl, ⟨csr, hmem, hnamed⟩, ?_⟩
      intro other hother hsame
      rwa [named_unique (listed_nodup hlisted) hother hmem hsame.given hnamed.given]

/-- Every request is tried exactly if no approval fails before the last one. -/
theorem independent_iff :
    call.Independent ↔ ∀ name ∈ call.pending.dropLast, call.approves name = true := by
  rw [Call.Independent, Call.pending]
  cases hlisted : call.listed with
  | none => simp
  | some found =>
      obtain ⟨items, registered⟩ := found
      have hall := attempted_all_iff call.approves
        (pendingForRegistered (items.filterMap servingCsr) registered)
      have hfront := attempted_front call.approves
        (pendingForRegistered (items.filterMap servingCsr) registered)
      simp only [← List.map_dropLast, List.forall_mem_map, ← hall, attempted_eq hlisted]
      constructor
      · intro htried
        have hsubset : (pendingForRegistered (items.filterMap servingCsr) registered).map
            ServingCsr.name ⊆ (approveEach call.approves
              (pendingForRegistered (items.filterMap servingCsr) registered)).1 := by
          intro name hname
          obtain ⟨csr, hmem, hnamed, heligible⟩ := mem_pending_iff.mp hname
          exact htried items registered rfl csr hmem name hnamed heligible
        exact hfront.eq_of_length_le
          (List.subperm_of_subset (pending_nodup hlisted) hsubset).length_le
      · rintro hsame _ _ hpair csr hmem name hnamed heligible
        cases hpair
        rw [hsame]
        exact mem_pending_iff.mpr ⟨csr, hmem, hnamed, heligible⟩

end Approvals

/-! ## Waiting for the certificate -/

section Waiting

variable {Key : Type} {keyOf : Value → Key} {node : Text}

/-- The entries that the poll shows. -/
def Poll.items (poll : Poll Key) : List Value := poll.listed.elim [] itemsOf

/-- The poll shows an issued serving certificate of the node. -/
def Poll.Shows (node : Text) (poll : Poll Key) : Prop :=
  ∃ csr ∈ poll.items, (∃ name, Named name csr) ∧ Requests node csr ∧ Issued csr ∧ Decided csr

/-- The poll shows a serving certificate of the node that is for its key. -/
def Poll.Current (keyOf : Value → Key) (node : Text) (poll : Poll Key) : Prop :=
  ∃ csr ∈ poll.items, Requests node csr ∧ Issued csr ∧ keyOf csr = poll.key

theorem shows_iff {poll : Poll Key} : poll.shows node = true ↔ poll.Shows node := by
  rw [Poll.shows, Poll.Shows, Poll.items]
  cases poll.listed with
  | none => simp
  | some list =>
      simp only [Option.any_some, Option.elim_some, nodeServingIssued, parseKubeletServingCsrs,
        List.any_eq_true, List.mem_filterMap, Bool.and_eq_true, decide_eq_true_eq]
      constructor
      · rintro ⟨found, ⟨csr, hmem, hfound⟩, ⟨rfl, hissued⟩, hterminal⟩
        obtain ⟨hnamed, hrequests, hcertificate, hdecided⟩ := servingCsr_eq_some.mp hfound
        exact ⟨csr, hmem, ⟨_, hnamed⟩, hrequests, hcertificate.mp hissued,
          hdecided.mp hterminal⟩
      · rintro ⟨csr, hmem, ⟨name, hnamed⟩, hrequests, hissued, hdecided⟩
        have hfound : servingCsr csr = some
            { name := name, node := node, issued := true, terminal := true } :=
          servingCsr_eq_some.mpr ⟨hnamed, hrequests, by simpa using hissued,
            by simpa using hdecided⟩
        exact ⟨_, ⟨csr, hmem, hfound⟩, ⟨rfl, rfl⟩, rfl⟩

/-- The job succeeds exactly if one of its polls shows a certificate. -/
theorem wait_ok_iff (polls : List (Poll Key)) (last : Option CallError) :
    waitKubeletServingCert node last polls = .ok () ↔ ∃ poll ∈ polls, poll.Shows node := by
  induction polls generalizing last with
  | nil => cases last <;> simp [waitKubeletServingCert]
  | cons poll rest ih =>
      simp only [waitKubeletServingCert, List.mem_cons, exists_eq_or_imp]
      split
      · next hshows => exact iff_of_true rfl (.inl (shows_iff.mp hshows))
      · next hshows => rw [ih, or_iff_right (mt shows_iff.mpr hshows)]

/-- The job returns with success after this poll, and not before. -/
def ReturnsAt (node : Text) (polls : List (Poll Key)) (poll : Poll Key) : Prop :=
  ∃ before after, polls = before ++ poll :: after ∧
    waitKubeletServingCert node none before ≠ .ok () ∧
      waitKubeletServingCert node none (before ++ [poll]) = .ok ()

/-- No poll before this one shows a certificate of the node. -/
def FirstShown (node : Text) (polls : List (Poll Key)) (poll : Poll Key) : Prop :=
  ∃ before after, polls = before ++ poll :: after ∧ (∀ earlier ∈ before, ¬ earlier.Shows node) ∧
    poll.Shows node

theorem returnsAt_iff {polls : List (Poll Key)} {poll : Poll Key} :
    ReturnsAt node polls poll ↔ FirstShown node polls poll := by
  simp only [ReturnsAt, FirstShown, ne_eq, wait_ok_iff]
  constructor
  · rintro ⟨before, after, hpolls, hbefore, shown, hmem, hshown⟩
    have hnone : ∀ earlier ∈ before, ¬ earlier.Shows node :=
      fun earlier hearlier hshows => hbefore ⟨earlier, hearlier, hshows⟩
    rcases List.mem_append.mp hmem with hearlier | hlast
    · exact absurd hshown (hnone shown hearlier)
    · exact ⟨before, after, hpolls, hnone, List.mem_singleton.mp hlast ▸ hshown⟩
  · rintro ⟨before, after, hpolls, hbefore, hshows⟩
    refine ⟨before, after, hpolls, ?_, poll, by simp, hshows⟩
    rintro ⟨earlier, hearlier, hshown⟩
    exact hbefore earlier hearlier hshown

theorem firstShown_cons {first poll : Poll Key} {rest : List (Poll Key)} :
    FirstShown node (first :: rest) poll ↔
      first.Shows node ∧ poll = first ∨ ¬ first.Shows node ∧ FirstShown node rest poll := by
  constructor
  · rintro ⟨before, after, hpolls, hbefore, hshows⟩
    cases before with
    | nil =>
        obtain ⟨rfl, rfl⟩ := List.cons.inj hpolls
        exact .inl ⟨hshows, rfl⟩
    | cons other before =>
        obtain ⟨rfl, rfl⟩ := List.cons.inj hpolls
        obtain ⟨hfirst, hrest⟩ := List.forall_mem_cons.mp hbefore
        exact .inr ⟨hfirst, before, after, rfl, hrest, hshows⟩
  · rintro (⟨hshows, rfl⟩ | ⟨hfirst, before, after, rfl, hbefore, hshows⟩)
    · exact ⟨[], rest, rfl, by simp, hshows⟩
    · exact ⟨first :: before, after, rfl, List.forall_mem_cons.mpr ⟨hfirst, hbefore⟩, hshows⟩

/-- A job that succeeds returns at one of its polls. -/
theorem wait_ok_iff_firstShown {polls : List (Poll Key)} :
    waitKubeletServingCert node none polls = .ok () ↔ ∃ poll, FirstShown node polls poll := by
  rw [wait_ok_iff]
  induction polls with
  | nil => simp [FirstShown]
  | cons first rest ih =>
      simp only [List.mem_cons, exists_eq_or_imp, firstShown_cons, exists_or, exists_and_left,
        exists_eq, and_true, ih]
      by_cases hfirst : first.Shows node
      · simp [hfirst]
      · simp [hfirst]

theorem firstShown_unique {polls : List (Poll Key)} {poll other : Poll Key}
    (hpoll : FirstShown node polls poll) (hother : FirstShown node polls other) :
    poll = other := by
  induction polls with
  | nil =>
      obtain ⟨before, after, hnil, -⟩ := hpoll
      simp at hnil
  | cons first rest ih =>
      rcases firstShown_cons.mp hpoll with ⟨hshows, rfl⟩ | ⟨hfirst, hrest⟩
      · rcases firstShown_cons.mp hother with ⟨-, rfl⟩ | ⟨hnot, -⟩
        · rfl
        · exact absurd hshows hnot
      · rcases firstShown_cons.mp hother with ⟨hshows, -⟩ | ⟨-, hotherRest⟩
        · exact absurd hshows hfirst
        · exact ih hrest hotherRest

/-- What is tried was listed and may be approved; every such request is tried exactly if no
approval fails before the last one; and success means a certificate for the key of the node
exactly if the first list with a certificate of that node has one for the key. -/
theorem serving_approvals_iff (keyOf : Value → Key) (node : Text) (call : Call)
    (polls : List (Poll Key)) :
    (∀ name ∈ (approvePending call).1, ∃ items registered,
      call.listed = some (items, registered) ∧ (∃ csr ∈ items, Named name csr) ∧
        ∀ csr ∈ items, Named name csr → Eligible registered csr) ∧
    (call.Independent ↔ ∀ name ∈ call.pending.dropLast, call.approves name = true) ∧
    ((waitKubeletServingCert node none polls = .ok () →
        ∃ poll, ReturnsAt node polls poll ∧ poll.Current keyOf node) ↔
      ∀ poll, FirstShown node polls poll → poll.Current keyOf node) := by
  refine ⟨fun name htried => attempted_eligible htried, independent_iff, ?_⟩
  simp only [returnsAt_iff, wait_ok_iff_firstShown]
  constructor
  · intro hsound poll hfirst
    obtain ⟨found, hfound, hcurrent⟩ := hsound ⟨poll, hfirst⟩
    rwa [firstShown_unique hfirst hfound]
  · rintro hcurrent ⟨poll, hfirst⟩
    exact ⟨poll, hfirst, hcurrent poll hfirst⟩

/-- A request as kubectl prints it. -/
def servingRequest (name node key : Text) (status : List (Text × Value)) : Value :=
  .object [("metadata".toList, .object [("name".toList, .string name)]),
    ("spec".toList, .object [("signerName".toList, .string SIGNER),
      ("username".toList, .string ("system:node:".toList ++ node)),
      ("groups".toList, .array [.string "system:nodes".toList]),
      ("request".toList, .string key)]),
    ("status".toList, .object status)]

/-- The key of such a request. -/
def requestKey (csr : Value) : Option Text :=
  (csr.pointer ["spec".toList, "request".toList]).bind Value.asStr

def listOf (items : List Value) : Value := .object [("items".toList, .array items)]

def registeredNode (name : Text) : Value :=
  .object [("metadata".toList, .object [("name".toList, .string name)])]

/-- Two nodes wait, and the first request cannot be approved. -/
def refusedFirst : Call where
  isFile := true
  nodes := some (listOf [registeredNode "wk-1".toList, registeredNode "wk-2".toList])
  csrs := some (listOf [servingRequest "csr-1".toList "wk-1".toList "a".toList [],
    servingRequest "csr-2".toList "wk-2".toList "b".toList []])
  approves := fun name => name ≠ "csr-1".toList
  distinct := by
    rintro doc hdoc
    cases hdoc
    decide +kernel

/-- A node that came back with a new key, while the certificate of the old one is listed. -/
def cameBack : Poll (Option Text) where
  call := refusedFirst
  listed := some (listOf [servingRequest "csr-0".toList "wk-1".toList "old".toList
    [("conditions".toList,
        .array [.object [("type".toList, .string "Approved".toList)]]),
      ("certificate".toList, .string "LS0t".toList)]])
  key := some "new".toList

theorem cameBack_not_current : ¬ cameBack.Current requestKey "wk-1".toList := by
  rintro ⟨csr, hmem, -, -, hkey⟩
  obtain rfl := List.mem_singleton.mp hmem
  revert hkey
  decide +kernel

/-- The second node is not tried, and the job takes the certificate of the old key for the
new one. -/
theorem refused_request_blocks : ¬ refusedFirst.Independent ∧
    waitKubeletServingCert "wk-1".toList none [cameBack] = .ok () ∧
      ¬ ∃ poll, ReturnsAt "wk-1".toList [cameBack] poll ∧
        poll.Current requestKey "wk-1".toList := by
  have hfirst : FirstShown "wk-1".toList [cameBack] cameBack :=
    ⟨[], [], rfl, by simp, shows_iff.mp (by decide +kernel)⟩
  refine ⟨?_, by decide +kernel, ?_⟩
  · rw [independent_iff]
    decide +kernel
  · rintro ⟨poll, hreturns, hcurrent⟩
    rw [firstShown_unique (returnsAt_iff.mp hreturns) hfirst] at hcurrent
    exact cameBack_not_current hcurrent

end Waiting

end PertiskKos.Mgmt.KubeletServing
