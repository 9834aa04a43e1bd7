import PertiskKos.Etcd.InitialCluster
import PertiskKos.Library.Fallible

/-!
# Joining the member list

A node that joins talks to the running cluster: it lists the members, has learners
promoted that are ready, adds itself as a learner and retries.  The server is a
parameter; what the code relies on is `LawfulServer`.  The member list changes only
through these requests, and the store also records the list as it was whenever the
node's data directory was erased.
-/

namespace PertiskKos.Etcd

open Strings Fallible

/-- etcd as its client sees it.  `unavailable` is the client's error text when there
is no answer. -/
structure EtcdServer where
  memberAdd : List Member → Text → Except Text (List Member)
  memberPromote : List Member → Nat → Except Text (List Member)
  unavailable : Text

/-- Some member is reached at `url`. -/
def IsMember (members : List Member) (url : Text) : Prop :=
  ∃ member ∈ members, url ∈ member.peerUrls

/-- Some member with a vote is reached at `url`. -/
def IsVoter (members : List Member) (url : Text) : Prop :=
  ∃ member ∈ members, url ∈ member.peerUrls ∧ member.isLearner = false

instance (members : List Member) (url : Text) : Decidable (IsMember members url) :=
  inferInstanceAs (Decidable (∃ member ∈ members, url ∈ member.peerUrls))

instance (members : List Member) (url : Text) : Decidable (IsVoter members url) :=
  inferInstanceAs
    (Decidable (∃ member ∈ members, url ∈ member.peerUrls ∧ member.isLearner = false))

theorem IsVoter.isMember {members : List Member} {url : Text}
    (hvoter : IsVoter members url) : IsMember members url := by
  obtain ⟨member, hmember, hurl, _⟩ := hvoter
  exact ⟨member, hmember, hurl⟩

def toAsciiLowercase (text : Text) : Text := text.map Char.toLower

/-- The error text says that the member is there already. -/
def saysPresent (message : Text) : Bool :=
  contains "peerurl".toList (toAsciiLowercase message) ||
    contains "already".toList (toAsciiLowercase message)

/-- The error text is about learners. -/
def saysLearner (message : Text) : Bool :=
  contains "learner".toList (toAsciiLowercase message)

/-- What the code relies on: a URL is added once, a member is added as a learner, and
a promotion adds or removes nobody. -/
structure LawfulServer (server : EtcdServer) : Prop where
  add_present : ∀ members url, IsMember members url →
    ∃ message, server.memberAdd members url = .error message ∧
      saysPresent message = true ∧ saysLearner message = false
  add_voters : ∀ members url after, server.memberAdd members url = .ok after →
    ∀ other, IsVoter after other ↔ IsVoter members other
  promote_members : ∀ members id after, server.memberPromote members id = .ok after →
    ∀ url, IsMember after url ↔ IsMember members url
  unavailable_plain :
    saysPresent server.unavailable = false ∧ saysLearner server.unavailable = false

/-- The steps of a join that touch the node's own files. -/
inductive JoinStep where
  | ensureDirs | generatePki | writePki
  | adminKubeconfig | adminLocalKubeconfig | controllerManagerConf | schedulerConf
  | kubeletConf | liveDir | liveAdminConf | liveControllerManagerConf
  | liveSchedulerConf | liveKubeletConf | kubeletCredentials | staticPods | kubeVip
  | linkLive | copyPki | advertise | marker | restore
  deriving DecidableEq, Repr

inductive JoinSite where
  | step (step : JoinStep)
  | connect (attempt : Nat)
  | memberList (attempt : Nat)
  | memberAdd (attempt : Nat)
  | listAfterAdd (attempt : Nat)
  | listAfterError (attempt : Nat)
  /-- Promotion before the add, or after an error about learners. -/
  | promoteList (attempt : Nat) (afterError : Bool)
  | promote (attempt : Nat) (afterError : Bool) (id : Nat)
  | retryConnect (round : Nat)
  | retryList (round : Nat)
  | retryPromote (round : Nat)
  | waitLocalEtcd
  | finalize
  deriving DecidableEq, Repr

structure JoinStore where
  members : List Member
  /-- The member list at each time the data directory was erased. -/
  wipes : List (List Member)
  deriving DecidableEq, Repr

abbrev EtcdProg (A : Type) := Prog JoinSite Text JoinStore A

section Client

variable (server : EtcdServer)

def connect (site : JoinSite) : EtcdProg Unit := guardSite site server.unavailable

def memberList (site : JoinSite) : EtcdProg (List Member) := do
  guardSite site server.unavailable
  inspect JoinStore.members

/-- A request whose answer is the new member list. -/
def changeMembers (site : JoinSite)
    (act : List Member → Except Text (List Member)) : EtcdProg Unit :=
  request site server.unavailable fun store =>
    (act store.members).map fun members => { store with members := members }

def promoteReadyLearners (attempt : Nat) (afterError : Bool) : EtcdProg Unit := do
  let members ← memberList server (.promoteList attempt afterError)
  (members.filter Member.isLearner).forM fun member =>
    ignore (changeMembers server (.promote attempt afterError member.id)
      (server.memberPromote · member.id))

/-- How one attempt to join the member list ends. -/
inductive AddOutcome where
  | joined (initial : Text)
  | retry (lastErr : Text)
  deriving DecidableEq, Repr

/-- The member list, if the error says that the member is there already. -/
def listIfPresent (attempt : Nat) (err : Text) :
    EtcdProg (Except Text (List Member)) :=
  if saysPresent err then outcome (memberList server (.listAfterError attempt))
  else pure (.error err)

/-- After an error of `member_add`. -/
def afterAddError (attempt : Nat) (name url err : Text) : EtcdProg AddOutcome := do
  let listed ← listIfPresent server attempt err
  match listed with
  | .ok members => pure (.joined (initialClusterFromMembers members name url))
  | .error _ => do
      whenever (saysLearner err) (ignore (promoteReadyLearners server attempt true))
      pure (.retry ("member_add: ".toList ++ err))

def addAsLearner (attempt : Nat) (name url : Text) : EtcdProg AddOutcome := do
  let added ← outcome
    (changeMembers server (.memberAdd attempt) (server.memberAdd · url))
  match added with
  | .ok () => do
      let members ← mapErr (fun _ => "etcd member_list".toList)
        (memberList server (.listAfterAdd attempt))
      pure (.joined (initialClusterFromMembers members name url))
  | .error err => afterAddError server attempt name url err

/-- One round of the retry loop. -/
def addAttempt (name url : Text) (attempt : Nat) : EtcdProg AddOutcome := do
  let connected ← outcome (connect server (.connect attempt))
  match connected with
  | .error err => pure (.retry ("connect: ".toList ++ err))
  | .ok () => do
      let listed ← outcome (memberList server (.memberList attempt))
      match listed with
      | .error _ => addAsLearner server attempt name url
      | .ok members =>
          if IsMember members url then
            pure (.joined (initialClusterFromMembers members name url))
          else do
            whenever (members.any Member.isLearner)
              (ignore (promoteReadyLearners server attempt false))
            addAsLearner server attempt name url

/-- The retry loop over the attempts that are left. -/
def addAttempts (name url : Text) : List Nat → Option Text → EtcdProg Text
  | [], lastErr => stop (lastErr.getD "etcd MemberAdd failed".toList)
  | attempt :: rest, _ => do
      let added ← addAttempt server name url attempt
      match added with
      | .joined initial => pure initial
      | .retry err => addAttempts name url rest (some err)

/-- `for attempt in 1..=90` -/
def attempts : List Nat := List.range' 1 90

def etcdMemberAdd (name url : Text) : EtcdProg Text :=
  addAttempts server name url attempts none

/-- One round of the promotion at the end of a join. -/
def etcdPromoteLearner (url : Text) (round : Nat) : EtcdProg Unit := do
  mapErr (fun _ => "connect etcd to promote learner".toList)
    (connect server (.retryConnect round))
  let members ← mapErr (fun _ => "etcd member_list".toList)
    (memberList server (.retryList round))
  match members.find? fun member => url ∈ member.peerUrls with
  | none => stop ("etcd member ".toList ++ url ++ " not in member list yet".toList)
  | some member =>
      whenever member.isLearner
        (mapErr (fun _ => "promote learner ".toList ++ Nat.toDigits 10 member.id)
          (changeMembers server (.retryPromote round)
            (server.memberPromote · member.id)))

def promoteRounds (url : Text) : List Nat → Option Text → EtcdProg Unit
  | [], lastErr => stop (lastErr.getD "etcd learner promote timed out".toList)
  | round :: rest, _ => do
      let promoted ← outcome (etcdPromoteLearner server url round)
      match promoted with
      | .ok () => pure ()
      | .error err => promoteRounds url rest (some err)

/-- `rounds` is how often the promotion is tried before the deadline. -/
def etcdPromoteLearnerRetry (url : Text) (rounds : Nat) : EtcdProg Unit :=
  promoteRounds server url (List.range rounds) none

end Client

section Rules

variable {server : EtcdServer} {faults : Faults JoinSite} {inv : JoinStore → Prop}

theorem memberList_spec (site : JoinSite) :
    Triple faults inv (memberList server site)
      (fun members store => members = store.members ∧ inv store) fun _ => inv := by
  apply Triple.bind (fun _ => inv)
  · exact Triple.guardSite (fun _ _ h => h) fun _ _ h => h
  · exact fun _ => Triple.inspect fun _ h => ⟨rfl, h⟩

theorem Keeps.memberList (site : JoinSite) :
    Keeps faults inv (memberList server site) :=
  (memberList_spec site).weaken (fun _ h => h) (fun _ _ h => h.2) fun _ _ h => h

theorem Keeps.changeMembers {site : JoinSite}
    {act : List Member → Except Text (List Member)}
    (hact : ∀ store after, inv store → act store.members = .ok after →
      inv { store with members := after }) :
    Keeps faults inv (changeMembers server site act) := by
  have hnext : ∀ store after, inv store →
      (act store.members).map (fun members => { store with members := members }) =
        .ok after → inv after := by
    intro store after hstore hmap
    cases hanswer : act store.members with
    | error err => simp [hanswer, Except.map] at hmap
    | ok members =>
        simp only [hanswer, Except.map, Except.ok.injEq] at hmap
        exact hmap ▸ hact store members hstore hanswer
  exact Triple.request hnext (fun _ _ h _ => h) (fun _ h => h) hnext

end Rules

/-- What the retry loop keeps.  `absent` is what holds as long as the node is not in
the member list; only then are learners promoted. -/
structure AddInvariant (server : EtcdServer) (url : Text)
    (inv absent : JoinStore → Prop) : Prop where
  of_absent : ∀ store, absent store → inv store
  to_absent : ∀ store, inv store → ¬ IsMember store.members url → absent store
  add : ∀ store after, inv store → server.memberAdd store.members url = .ok after →
    inv { store with members := after }
  reject : ∀ store message, inv store →
    server.memberAdd store.members url = .error message → saysLearner message = true →
    absent store
  promote : ∀ store id after, absent store →
    server.memberPromote store.members id = .ok after →
    absent { store with members := after }
  plain : saysLearner server.unavailable = false

namespace AddInvariant

variable {server : EtcdServer} {url : Text} {inv absent : JoinStore → Prop}
variable (faults : Faults JoinSite)

theorem promoteReadyLearners (hinv : AddInvariant server url inv absent) (attempt : Nat)
    (afterError : Bool) :
    Keeps faults absent (promoteReadyLearners server attempt afterError) := by
  apply Keeps.bind (Keeps.memberList _)
  intro members
  apply Keeps.forM
  intro member _
  apply Triple.ignore
  exact Keeps.changeMembers fun store after hstore hact =>
    hinv.promote store member.id after hstore hact

theorem afterAddError (hinv : AddInvariant server url inv absent) (attempt : Nat)
    (name err : Text) :
    Triple faults (fun store => inv store ∧ (saysLearner err = true → absent store))
      (afterAddError server attempt name url err) (fun _ => inv) fun _ => inv := by
  apply Triple.bind fun _ store => inv store ∧ (saysLearner err = true → absent store)
  · unfold listIfPresent
    cases saysPresent err with
    | true =>
        exact Triple.outcome
          ((memberList_spec _).weaken (fun _ h => h) (fun _ _ h => h.2) fun _ _ h => h)
    | false => exact Triple.pure fun _ h => h
  · intro listed
    cases listed with
    | ok members => exact Triple.pure fun _ h => h.1
    | error _ =>
        apply Triple.bind fun _ => inv
        · cases hlearner : saysLearner err with
          | false => exact Triple.pure fun _ h => h.1
          | true =>
              apply Triple.ignore
              exact (hinv.promoteReadyLearners faults attempt true).weaken
                (fun _ h => h.2 rfl) (fun _ => hinv.of_absent) fun _ => hinv.of_absent
        · exact fun _ => Triple.pure fun _ h => h

theorem addAsLearner (hinv : AddInvariant server url inv absent) (attempt : Nat)
    (name : Text) : Keeps faults inv (addAsLearner server attempt name url) := by
  let mid : Except Text Unit → JoinStore → Prop := fun added store =>
    match added with
    | .ok () => inv store
    | .error err => inv store ∧ (saysLearner err = true → absent store)
  have hdone : ∀ store after, inv store →
      (server.memberAdd store.members url).map
        (fun members => { store with members := members }) = .ok after → inv after := by
    intro store after hstore hmap
    cases hanswer : server.memberAdd store.members url with
    | error err => simp [hanswer, Except.map] at hmap
    | ok members =>
        simp only [hanswer, Except.map, Except.ok.injEq] at hmap
        exact hmap ▸ hinv.add store members hstore hanswer
  have hplain : ∀ store, inv store →
      mid (.error server.unavailable) store := by
    intro store hstore
    exact ⟨hstore, fun hlearner => by simp [hinv.plain] at hlearner⟩
  apply Triple.bind mid
  · apply Triple.outcome
    apply Triple.request
    · exact hdone
    · intro store message hstore hmap
      refine ⟨hstore, fun hlearner => ?_⟩
      cases hanswer : server.memberAdd store.members url with
      | ok members => simp [hanswer, Except.map] at hmap
      | error err =>
          simp only [hanswer, Except.map, Except.error.injEq] at hmap
          exact hinv.reject store message hstore (hmap ▸ hanswer) hlearner
    · exact hplain
    · exact fun store after hstore hact => hplain after (hdone store after hstore hact)
  · intro added
    cases added with
    | error err => exact hinv.afterAddError faults attempt name err
    | ok _ =>
        apply Keeps.bind
        · exact Triple.mapErr (Keeps.memberList _)
        · exact fun _ => Keeps.pure _

theorem addAttempt (hinv : AddInvariant server url inv absent) (name : Text)
    (attempt : Nat) : Keeps faults inv (addAttempt server name url attempt) := by
  apply Keeps.bind
  · exact Triple.outcome (Keeps.guardSite _ _)
  intro connected
  cases connected with
  | error err => exact Keeps.pure _
  | ok _ =>
      apply Triple.bind fun listed store =>
        inv store ∧ ∀ members, listed = .ok members → members = store.members
      · apply Triple.outcome
        apply (memberList_spec _).weaken (fun _ h => h)
        · rintro members store ⟨rfl, hstore⟩
          exact ⟨hstore, fun _ h => (Except.ok.inj h).symm⟩
        · exact fun err store hstore => ⟨hstore, fun _ h => nomatch h⟩
      intro listed
      cases listed with
      | error err =>
          exact (hinv.addAsLearner faults attempt name).weaken (fun _ h => h.1)
            (fun _ _ h => h) fun _ _ h => h
      | ok members =>
          by_cases hmember : IsMember members url
          · simp only [if_pos hmember]
            exact Triple.pure fun _ h => h.1
          · simp only [if_neg hmember]
            apply Triple.bind fun _ => inv
            · cases members.any Member.isLearner with
              | false => exact Triple.pure fun _ h => h.1
              | true =>
                  apply Triple.ignore
                  apply (hinv.promoteReadyLearners faults attempt false).weaken
                  · rintro store ⟨hstore, hlisted⟩
                    exact hinv.to_absent store hstore (hlisted members rfl ▸ hmember)
                  · exact fun _ => hinv.of_absent
                  · exact fun _ => hinv.of_absent
            · exact fun _ => hinv.addAsLearner faults attempt name

theorem addAttempts (hinv : AddInvariant server url inv absent) (name : Text)
    (left : List Nat) (lastErr : Option Text) :
    Keeps faults inv (addAttempts server name url left lastErr) := by
  induction left generalizing lastErr with
  | nil => exact Keeps.stop _
  | cons attempt left ih =>
      apply Keeps.bind (hinv.addAttempt faults name attempt)
      intro added
      cases added with
      | joined initial => exact Keeps.pure _
      | retry err => exact ih (some err)

theorem etcdMemberAdd (hinv : AddInvariant server url inv absent) (name : Text) :
    Keeps faults inv (etcdMemberAdd server name url) :=
  hinv.addAttempts faults name attempts none

end AddInvariant

section Instances

variable {server : EtcdServer} (url : Text) (wipes : List (List Member))

/-- A node without a vote does not get one by adding itself. -/
theorem addInvariant_notVoter (hlawful : LawfulServer server) :
    AddInvariant server url
      (fun store => ¬ IsVoter store.members url ∧ store.wipes = wipes)
      (fun store => ¬ IsMember store.members url ∧ store.wipes = wipes) where
  of_absent _ h := ⟨fun hvoter => h.1 hvoter.isMember, h.2⟩
  to_absent _ h hnot := ⟨hnot, h.2⟩
  add store after h hadd :=
    ⟨fun hvoter => h.1 ((hlawful.add_voters _ _ _ hadd url).mp hvoter), h.2⟩
  reject store message h hreject hlearner := by
    refine ⟨fun hmember => ?_, h.2⟩
    obtain ⟨found, hfound, -, hnot⟩ := hlawful.add_present _ _ hmember
    have hsame : message = found := Except.error.inj (hreject.symm.trans hfound)
    rw [hsame, hnot] at hlearner
    exact absurd hlearner (by decide)
  promote store id after h hpromote :=
    ⟨fun hmember => h.1 ((hlawful.promote_members _ _ _ hpromote url).mp hmember), h.2⟩
  plain := hlawful.unavailable_plain.2

/-- The requests erase nothing. -/
theorem addInvariant_wipes (hlawful : LawfulServer server) :
    AddInvariant server url (fun store => store.wipes = wipes)
      (fun store => store.wipes = wipes) where
  of_absent _ h := h
  to_absent _ h _ := h
  add _ _ h _ := h
  reject _ _ h _ _ := h
  promote _ _ _ h _ := h
  plain := hlawful.unavailable_plain.2

theorem etcdPromoteLearner_wipes (faults : Faults JoinSite) (round : Nat) :
    Keeps faults (fun store => store.wipes = wipes)
      (etcdPromoteLearner server url round) := by
  apply Keeps.bind
  · exact Triple.mapErr (Keeps.guardSite _ _)
  intro _
  apply Keeps.bind
  · exact Triple.mapErr (Keeps.memberList _)
  intro members
  cases members.find? fun member => url ∈ member.peerUrls with
  | none => exact Keeps.stop _
  | some member =>
      apply Keeps.whenever
      apply Triple.mapErr
      exact Keeps.changeMembers fun _ _ hwipes _ => hwipes

theorem promoteRounds_wipes (faults : Faults JoinSite) (rounds : List Nat)
    (lastErr : Option Text) :
    Keeps faults (fun store => store.wipes = wipes)
      (promoteRounds server url rounds lastErr) := by
  induction rounds generalizing lastErr with
  | nil => exact Keeps.stop _
  | cons round rounds ih =>
      apply Keeps.bind
      · exact Triple.outcome (etcdPromoteLearner_wipes url wipes faults round)
      intro promoted
      cases promoted with
      | ok _ => exact Keeps.pure _
      | error err => exact ih (some err)

end Instances

def AddOutcome.isJoined : AddOutcome → Bool
  | .joined _ => true
  | .retry _ => false

/-- The attempt learns that the node is in the member list: from the list, or from the
error of the add and the list after it. -/
def Answered (faults : Faults JoinSite) (attempt : Nat) : Prop :=
  faults (.connect attempt) = none ∧
    (faults (.memberList attempt) = none ∨
      faults (.memberAdd attempt) = none ∧ faults (.listAfterError attempt) = none)

instance (faults : Faults JoinSite) (attempt : Nat) :
    Decidable (Answered faults attempt) :=
  inferInstanceAs (Decidable (_ ∧ (_ ∨ _ ∧ _)))

section Present

variable {server : EtcdServer} {faults : Faults JoinSite} {store : JoinStore}
variable {url : Text}

theorem memberList_of_quiet {site : JoinSite} (hquiet : faults site = none) :
    memberList server site faults store = .ok store.members store := by
  rw [memberList, bind_apply, guardSite_of_quiet faults store hquiet]
  rfl

theorem memberList_of_fault {site : JoinSite} (hfault : faults site ≠ none) :
    memberList server site faults store = .error server.unavailable store := by
  rw [memberList, bind_apply, guardSite_of_fault faults store hfault]

/-- Adding a member that is there already changes nothing. -/
theorem changeMembers_present (hlawful : LawfulServer server)
    (hmember : IsMember store.members url) (attempt : Nat) :
    ∃ err, changeMembers server (.memberAdd attempt) (server.memberAdd · url) faults
        store = .error err store ∧ saysLearner err = false ∧
      (saysPresent err = true ↔ faults (.memberAdd attempt) = none) := by
  obtain ⟨message, hreject, hpresent, hlearner⟩ :=
    hlawful.add_present store.members url hmember
  obtain ⟨hplainPresent, hplainLearner⟩ := hlawful.unavailable_plain
  cases hsite : faults (.memberAdd attempt) with
  | none =>
      refine ⟨message, ?_, hlearner, by simp [hpresent]⟩
      simp [changeMembers, request, hsite, hreject, Except.map]
  | some fault =>
      refine ⟨server.unavailable, ?_, hplainLearner, by simp [hplainPresent]⟩
      cases fault <;> simp [changeMembers, request, hsite, hreject, Except.map]

theorem afterAddError_present {err : Text} (hlearner : saysLearner err = false)
    (attempt : Nat) (name : Text) :
    ∃ result, afterAddError server attempt name url err faults store =
        .ok result store ∧
      (result.isJoined = true ↔
        saysPresent err = true ∧ faults (.listAfterError attempt) = none) := by
  cases hpresent : saysPresent err with
  | false =>
      refine ⟨.retry ("member_add: ".toList ++ err), ?_, by simp [AddOutcome.isJoined]⟩
      simp [afterAddError, listIfPresent, hpresent, hlearner]
  | true =>
      by_cases hlist : faults (.listAfterError attempt) = none
      · have hlisted := @memberList_of_quiet server faults store _ hlist
        refine ⟨.joined (initialClusterFromMembers store.members name url), ?_,
          by simp [AddOutcome.isJoined, hlist]⟩
        simp [afterAddError, listIfPresent, hpresent, hlisted]
      · have hfailed := @memberList_of_fault server faults store _ hlist
        refine ⟨.retry ("member_add: ".toList ++ err), ?_,
          by simp [AddOutcome.isJoined, hlist]⟩
        simp [afterAddError, listIfPresent, hpresent, hfailed, hlearner]

theorem addAsLearner_present (hlawful : LawfulServer server)
    (hmember : IsMember store.members url) (name : Text) (attempt : Nat) :
    ∃ result, addAsLearner server attempt name url faults store = .ok result store ∧
      (result.isJoined = true ↔ faults (.memberAdd attempt) = none ∧
        faults (.listAfterError attempt) = none) := by
  obtain ⟨err, hadd, hlearner, hpresent⟩ :=
    @changeMembers_present server faults store url hlawful hmember attempt
  obtain ⟨result, hresult, hjoined⟩ :=
    @afterAddError_present server faults store url err hlearner attempt name
  refine ⟨result, ?_, hjoined.trans (and_congr_left' hpresent)⟩
  simp [addAsLearner, hadd, hresult]

/-- With the node in the member list an attempt changes nothing, and it joins exactly
when it is answered. -/
theorem addAttempt_present (hlawful : LawfulServer server)
    (hmember : IsMember store.members url) (name : Text) (attempt : Nat) :
    ∃ result, addAttempt server name url attempt faults store = .ok result store ∧
      (result.isJoined = true ↔ Answered faults attempt) := by
  by_cases hconnect : faults (.connect attempt) = none
  · have hconnected := @guardSite_of_quiet JoinSite Text JoinStore faults store _ hconnect
      server.unavailable
    by_cases hlist : faults (.memberList attempt) = none
    · have hlisted := @memberList_of_quiet server faults store _ hlist
      refine ⟨.joined (initialClusterFromMembers store.members name url), ?_, ?_⟩
      · simp [addAttempt, connect, hconnected, hlisted, hmember]
      · simp [AddOutcome.isJoined, Answered, hconnect, hlist]
    · have hfailed := @memberList_of_fault server faults store _ hlist
      obtain ⟨result, hresult, hjoined⟩ :=
        @addAsLearner_present server faults store url hlawful hmember name attempt
      refine ⟨result, ?_, ?_⟩
      · simp [addAttempt, connect, hconnected, hfailed, hresult]
      · simp [hjoined, Answered, hconnect, hlist]
  · have hfailed := @guardSite_of_fault JoinSite Text JoinStore faults store _ hconnect
      server.unavailable
    refine ⟨.retry ("connect: ".toList ++ server.unavailable), ?_, ?_⟩
    · simp [addAttempt, connect, hfailed]
    · simp [AddOutcome.isJoined, Answered, hconnect]

/-- With the node in the member list the retry loop changes nothing, and it returns
exactly when one of its attempts is answered. -/
theorem addAttempts_present (hlawful : LawfulServer server)
    (hmember : IsMember store.members url) (name : Text) (left : List Nat)
    (lastErr : Option Text) :
    if ∃ attempt ∈ left, Answered faults attempt then
      ∃ initial, addAttempts server name url left lastErr faults store =
        .ok initial store
    else
      ∃ err, addAttempts server name url left lastErr faults store =
        .error err store := by
  induction left generalizing lastErr with
  | nil => exact ⟨lastErr.getD "etcd MemberAdd failed".toList, rfl⟩
  | cons attempt left ih =>
      obtain ⟨result, hresult, hjoined⟩ :=
        @addAttempt_present server faults store url hlawful hmember name attempt
      cases result with
      | joined initial =>
          have hanswered : Answered faults attempt := hjoined.mp rfl
          rw [if_pos ⟨attempt, List.mem_cons_self, hanswered⟩]
          exact ⟨initial, by simp [addAttempts, hresult]⟩
      | retry err =>
          have hnot : ¬ Answered faults attempt := fun h => nomatch hjoined.mpr h
          have hrest := ih (some err)
          simpa [addAttempts, hresult, hnot] using hrest

theorem etcdMemberAdd_present (hlawful : LawfulServer server)
    (hmember : IsMember store.members url) (name : Text) :
    if ∃ attempt ∈ attempts, Answered faults attempt then
      ∃ initial, etcdMemberAdd server name url faults store = .ok initial store
    else ∃ err, etcdMemberAdd server name url faults store = .error err store :=
  addAttempts_present hlawful hmember name attempts none

end Present

end PertiskKos.Etcd
