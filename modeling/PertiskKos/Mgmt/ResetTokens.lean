import PertiskKos.Library.Runs
import PertiskKos.Library.Strings
import PertiskKos.Library.Tables

/-!
# Tokens for new passwords

A link with a random token lets a user set a password once.  The table has the hash of each
token.  Making a token first marks the user's older ones as used; using it looks it up,
marks it as used and writes the password.  These are statements of their own, and the
requests that are served at the same time take turns between them.
-/

namespace PertiskKos.ResetTokens

open Strings Runs

/-- A row of the table of tokens, which is keyed by the hash. -/
structure Token where
  /-- The place in the order in which rows were inserted. -/
  rowid : Nat
  user : Nat
  expiresAt : Nat
  usedAt : Option Nat
  deriving DecidableEq, Repr

structure Account where
  /-- There is an identity at the identity provider. -/
  auth0 : Bool
  /-- The password; the source keeps its hash. -/
  password : Option Text
  disabled : Bool
  deriving DecidableEq, Repr

def Account.isAuth0Only (account : Account) : Bool := account.auth0 && account.password.isNone

/-- What was true of a token at the moment when it was marked as used. -/
structure Found where
  expired : Bool
  superseded : Bool
  deriving DecidableEq, Repr

/-- A password that was set, and the token that led to it. -/
structure Change where
  raw : Text
  user : Nat
  found : Found
  deriving DecidableEq, Repr

/-- The next statement of a request. -/
inductive Call where
  | invalidates (user : Nat) (startedAt : Nat)
  | inserts (user : Nat) (raw : Text) (expiresAt : Nat)
  | looksUp (raw password : Text)
  | marks (raw password : Text) (user : Nat)
  | readsUser (raw password : Text) (user : Nat) (found : Found)
  | setsPassword (raw password : Text) (user : Nat) (found : Found)
  deriving DecidableEq, Repr

structure State where
  now : Nat
  tokens : AList fun _ : Text => Token
  users : AList fun _ : Nat => Account
  calls : AList fun _ : Nat => Call
  nextRow : Nat
  /-- The passwords that were set, the last one first. -/
  changes : List Change

inductive Event where
  | tick (seconds : Nat)
  /-- One of the routes has found that the user may get a link. -/
  | creates (id user : Nat)
  | confirms (id : Nat) (token password : Text)
  /-- The next statement of a request, which may fail; `random` is the next random token. -/
  | statement (id : Nat) (ok : Bool) (random : Text)
  deriving DecidableEq, Repr

def resetTokenTtlSecs : Nat := 3600

/-- `len()` of a text -/
def byteLength (text : Text) : Nat := (text.map Char.utf8Size).sum

/-- `UPDATE … SET used_at = ? WHERE user_id = ? AND used_at IS NULL` -/
def Token.invalidate (user at_ : Nat) (token : Token) : Token :=
  if token.user = user ∧ token.usedAt = none then { token with usedAt := some at_ } else token

/-- A later token of the same user has been inserted. -/
def superseded (tokens : AList fun _ : Text => Token) (token : Token) : Bool :=
  tokens.entries.any fun entry => entry.2.user = token.user && token.rowid < entry.2.rowid

namespace State

def finish (state : State) (id : Nat) : State := { state with calls := state.calls.erase id }

def goOn (state : State) (id : Nat) (call : Call) : State :=
  { state with calls := state.calls.insert id call }

variable (hashToken : Text → Text)

/-- The token is inserted, unless its hash is there already. -/
def insertToken (state : State) (id user : Nat) (raw : Text) (expiresAt : Nat) : State :=
  if (state.tokens.lookup (hashToken raw)).isSome then state.finish id
  else
    { state with
      tokens := state.tokens.insert (hashToken raw)
        { rowid := state.nextRow, user, expiresAt, usedAt := none }
      nextRow := state.nextRow + 1 }.finish id

def lookUp (state : State) (id : Nat) (raw password : Text) : State :=
  match state.tokens.lookup (hashToken raw) with
  | some token =>
      if token.usedAt.isSome ∨ token.expiresAt < state.now then state.finish id
      else state.goOn id (.marks raw password token.user)
  | none => state.finish id

/-- `UPDATE … WHERE id = ? AND used_at IS NULL`, and how many rows it has changed. -/
def mark (state : State) (id : Nat) (raw password : Text) (user : Nat) : State :=
  match state.tokens.lookup (hashToken raw) with
  | some token =>
      if token.usedAt.isSome then state.finish id
      else
        { state with
          tokens := state.tokens.insert (hashToken raw)
            { token with usedAt := some state.now } }.goOn id
          (.readsUser raw password user
            { expired := token.expiresAt < state.now
              superseded := superseded state.tokens token })
  | none => state.finish id

def readUser (state : State) (id : Nat) (raw password : Text) (user : Nat) (found : Found) :
    State :=
  match state.users.lookup user with
  | some account =>
      if account.disabled || account.isAuth0Only then state.finish id
      else state.goOn id (.setsPassword raw password user found)
  | none => state.finish id

def setPassword (state : State) (id : Nat) (raw password : Text) (user : Nat) (found : Found) :
    State :=
  match state.users.lookup user with
  | some account =>
      { state with
        users := state.users.insert user { account with password := some password }
        changes := { raw, user, found } :: state.changes }.finish id
  | none => state.finish id

def execute (state : State) (id : Nat) (random : Text) : Call → State
  | .invalidates user startedAt =>
      { state with tokens := Tables.mapRows (Token.invalidate user startedAt) state.tokens }.goOn id
        (.inserts user random (state.now + resetTokenTtlSecs))
  | .inserts user raw expiresAt => state.insertToken hashToken id user raw expiresAt
  | .looksUp raw password => state.lookUp hashToken id raw password
  | .marks raw password user => state.mark hashToken id raw password user
  | .readsUser raw password user found => state.readUser id raw password user found
  | .setsPassword raw password user found => state.setPassword id raw password user found

/-- A statement that fails ends its request, except that of the invalidation. -/
def failed (state : State) (id : Nat) (random : Text) : Call → State
  | .invalidates user _ => state.goOn id (.inserts user random (state.now + resetTokenTtlSecs))
  | _ => state.finish id

end State

variable (hashToken : Text → Text)

def step (state : State) : Event → Option State
  | .tick seconds => some { state with now := state.now + seconds }
  | .creates id user =>
      if (state.calls.lookup id).isSome then none
      else some (state.goOn id (.invalidates user state.now))
  | .confirms id token password =>
      if (state.calls.lookup id).isSome then none
      else if byteLength (trim password) < 8 then some state
      else some (state.goOn id (.looksUp (trim token) (trim password)))
  | .statement id ok random =>
      (state.calls.lookup id).map fun call =>
        if ok then state.execute hashToken id random call else state.failed id random call

def start (now : Nat) (users : AList fun _ : Nat => Account) : State :=
  { now, tokens := ∅, users, calls := ∅, nextRow := 0, changes := [] }

/-! ## What is to hold -/

def Call.creator : Call → Option Nat
  | .invalidates user _ => some user
  | .inserts user _ _ => some user
  | _ => none

/-- No token of the user is being made. -/
def State.Quiet (state : State) (user : Nat) : Prop :=
  ∀ id call, state.calls.lookup id = some call → call.creator ≠ some user

/-- The invalidation, run again, would find nothing to mark. -/
def NothingUnused (tokens : AList fun _ : Text => Token) (user : Nat) : Prop :=
  ∀ entry ∈ tokens.entries, entry.2.user = user → entry.2.usedAt.isSome

instance (tokens : AList fun _ : Text => Token) (user : Nat) :
    Decidable (NothingUnused tokens user) :=
  inferInstanceAs (Decidable (∀ entry ∈ tokens.entries, entry.2.user = user →
    entry.2.usedAt.isSome))

/-- A token is inserted when all others of its user are used, and none expires between its
look-up and its marking. -/
def HeedsCall (state : State) : Call → Prop
  | .inserts user _ _ => NothingUnused state.tokens user
  | .marks raw _ _ => ∀ token ∈ state.tokens.lookup (hashToken raw), state.now ≤ token.expiresAt
  | _ => True

def Heeds (state : State) : Event → Prop
  | .statement id true _ => ∀ call ∈ state.calls.lookup id, HeedsCall hashToken state call
  | _ => True

instance (state : State) : ∀ call, Decidable (HeedsCall hashToken state call)
  | .inserts user _ _ => inferInstanceAs (Decidable (NothingUnused state.tokens user))
  | .marks raw _ _ => inferInstanceAs
      (Decidable (∀ token ∈ state.tokens.lookup (hashToken raw), state.now ≤ token.expiresAt))
  | .invalidates _ _ | .looksUp _ _ | .readsUser _ _ _ _ | .setsPassword _ _ _ _ =>
      .isTrue trivial

instance (state : State) : ∀ event, Decidable (Heeds hashToken state event)
  | .statement id true _ => inferInstanceAs
      (Decidable (∀ call ∈ state.calls.lookup id, HeedsCall hashToken state call))
  | .statement _ false _ | .tick _ | .creates _ _ | .confirms _ _ _ => .isTrue trivial

/-! ## At most once -/

section Once

/-- The token that a request has marked as used, and what was true of it. -/
def Call.spent : Call → Option (Text × Found)
  | .readsUser raw _ _ found => some (raw, found)
  | .setsPassword raw _ _ found => some (raw, found)
  | _ => none

def State.spent (state : State) (id : Nat) : Option (Text × Found) :=
  (state.calls.lookup id).bind Call.spent

/-- The token is in the table and used. -/
def Used (tokens : AList fun _ : Text => Token) (key : Text) : Prop :=
  ∃ token, tokens.lookup key = some token ∧ token.usedAt.isSome

/-- The requests that have marked a token and the passwords that were set belong to different
tokens, all used. -/
structure Once (state : State) : Prop where
  spentUsed : ∀ id raw found, state.spent id = some (raw, found) →
    Used state.tokens (hashToken raw)
  spentUnchanged : ∀ id raw found, state.spent id = some (raw, found) →
    ∀ change ∈ state.changes, hashToken change.raw ≠ hashToken raw
  apart : ∀ id raw found id' raw' found', state.spent id = some (raw, found) →
    state.spent id' = some (raw', found') → hashToken raw = hashToken raw' → id = id'
  changedUsed : ∀ change ∈ state.changes, Used state.tokens (hashToken change.raw)
  once : (state.changes.map fun change => hashToken change.raw).Nodup

variable {hashToken : Text → Text} {state : State} {id : Nat}

theorem Once.nodup (honce : Once hashToken state) : (state.changes.map Change.raw).Nodup := by
  have hhashes : ((state.changes.map Change.raw).map hashToken).Nodup := by
    rw [List.map_map]
    exact honce.once
  exact hhashes.of_map

/-- Tokens that are used stay so, and no request has newly marked one. -/
theorem Once.mono (honce : Once hashToken state) {next : State}
    (hused : ∀ key, Used state.tokens key → Used next.tokens key)
    (hspent : ∀ id spent, next.spent id = some spent → state.spent id = some spent)
    (hchanges : next.changes = state.changes) : Once hashToken next where
  spentUsed := fun id raw found h => hused _ (honce.spentUsed id raw found (hspent id _ h))
  spentUnchanged := fun id raw found h =>
    hchanges ▸ honce.spentUnchanged id raw found (hspent id _ h)
  apart := fun id raw found id' raw' found' h h' =>
    honce.apart id raw found id' raw' found' (hspent id _ h) (hspent id' _ h')
  changedUsed := fun change h => hused _ (honce.changedUsed change (hchanges ▸ h))
  once := hchanges ▸ honce.once

theorem spent_finish (state : State) (id : Nat) {other : Nat} {spent : Text × Found}
    (hspent : (state.finish id).spent other = some spent) : state.spent other = some spent := by
  obtain ⟨call, hcall, hcallSpent⟩ := Option.bind_eq_some_iff.mp hspent
  exact Option.bind_eq_some_iff.mpr ⟨call, (Tables.lookup_erase_cases hcall).2, hcallSpent⟩

/-- The request that goes on, and the others. -/
theorem spent_goOn {call : Call} {other : Nat} {spent : Text × Found}
    (hspent : (state.goOn id call).spent other = some spent) :
    other = id ∧ call.spent = some spent ∨ other ≠ id ∧ state.spent other = some spent := by
  obtain ⟨call', hcall, hcallSpent⟩ := Option.bind_eq_some_iff.mp hspent
  rcases Tables.lookup_insert_cases hcall with ⟨hsame, rfl⟩ | ⟨hne, hother⟩
  · exact .inl ⟨hsame, hcallSpent⟩
  · exact .inr ⟨hne, Option.bind_eq_some_iff.mpr ⟨call', hother, hcallSpent⟩⟩

theorem Once.finish (honce : Once hashToken state) (id : Nat) :
    Once hashToken (state.finish id) :=
  honce.mono (fun _ h => h) (fun _ _ h => spent_finish state id h) rfl

/-- A request goes on that has marked no more than before. -/
theorem Once.goOn (honce : Once hashToken state) {call : Call}
    (hcall : ∀ spent, call.spent = some spent → state.spent id = some spent) :
    Once hashToken (state.goOn id call) := by
  refine honce.mono (fun _ h => h) (fun other spent h => ?_) rfl
  rcases spent_goOn h with ⟨rfl, hspent⟩ | ⟨-, hother⟩
  · exact hcall spent hspent
  · exact hother

theorem Used.invalidate {tokens : AList fun _ : Text => Token} {key : Text}
    (hused : Used tokens key) (user at_ : Nat) :
    Used (Tables.mapRows (Token.invalidate user at_) tokens) key := by
  obtain ⟨token, hrow, hisUsed⟩ := hused
  refine ⟨token.invalidate user at_, by rw [Tables.lookup_mapRows, hrow]; rfl, ?_⟩
  rw [Token.invalidate]
  split
  · rfl
  · exact hisUsed

theorem Used.insert {tokens : AList fun _ : Text => Token} {key other : Text} {token : Token}
    (hused : Used tokens key) (htoken : other = key → token.usedAt.isSome) :
    Used (tokens.insert other token) key := by
  by_cases hsame : key = other
  · subst hsame
    exact ⟨token, AList.lookup_insert _, htoken rfl⟩
  · obtain ⟨row, hrow, hisUsed⟩ := hused
    exact ⟨row, (AList.lookup_insert_ne hsame).trans hrow, hisUsed⟩

theorem Once.tokens (honce : Once hashToken state) {next : State}
    (hused : ∀ key, Used state.tokens key → Used next.tokens key)
    (hcalls : next.calls = state.calls) (hchanges : next.changes = state.changes) :
    Once hashToken next := by
  refine honce.mono hused (fun other spent h => ?_) hchanges
  rwa [State.spent, hcalls] at h

/-- An unused token is marked: nobody else has marked it, and no password was set with it. -/
theorem Once.mark (honce : Once hashToken state) (id : Nat) (raw password : Text) (user : Nat) :
    Once hashToken (state.mark hashToken id raw password user) := by
  rw [State.mark]
  cases hrow : state.tokens.lookup (hashToken raw) with
  | none => exact honce.finish id
  | some token =>
      dsimp only
      split
      · exact honce.finish id
      · next hunused =>
          have hnew : ∀ key, Used state.tokens key → key ≠ hashToken raw := by
            rintro _ ⟨row, hlookup, hisUsed⟩ rfl
            rw [hrow] at hlookup
            exact hunused (Option.some.inj hlookup ▸ hisUsed)
          have hkept : ∀ key, Used state.tokens key → Used (state.tokens.insert (hashToken raw)
              { token with usedAt := some state.now }) key :=
            fun key hused => hused.insert fun _ => rfl
          have hmarked : Used (state.tokens.insert (hashToken raw)
              { token with usedAt := some state.now }) (hashToken raw) :=
            ⟨_, AList.lookup_insert _, rfl⟩
          refine ⟨?_, ?_, ?_, fun change h => hkept _ (honce.changedUsed change h), honce.once⟩
          · intro other raw' found' hspent
            rcases spent_goOn hspent with ⟨-, hcall⟩ | ⟨-, hother⟩
            · cases hcall
              exact hmarked
            · exact hkept _ (honce.spentUsed other raw' found' hother)
          · intro other raw' found' hspent change hchange
            rcases spent_goOn hspent with ⟨-, hcall⟩ | ⟨-, hother⟩
            · cases hcall
              exact hnew _ (honce.changedUsed change hchange)
            · exact honce.spentUnchanged other raw' found' hother change hchange
          · intro one raw' found' other raw'' found'' hone hother hsame
            rcases spent_goOn hone with ⟨hid, hcall⟩ | ⟨-, hbefore⟩ <;>
              rcases spent_goOn hother with ⟨hid', hcall'⟩ | ⟨-, hbefore'⟩
            · exact hid.trans hid'.symm
            · cases hcall
              exact absurd hsame.symm (hnew _ (honce.spentUsed other raw'' found'' hbefore'))
            · cases hcall'
              exact absurd hsame (hnew _ (honce.spentUsed one raw' found' hbefore))
            · exact honce.apart one raw' found' other raw'' found'' hbefore hbefore' hsame

/-- A password is set by a request that has marked its token. -/
theorem Once.setPassword (honce : Once hashToken state) {id : Nat} {raw password : Text}
    {user : Nat} {found : Found} (hspent : state.spent id = some (raw, found)) :
    Once hashToken (state.setPassword id raw password user found) := by
  rw [State.setPassword]
  cases hrow : state.users.lookup user with
  | none => exact honce.finish id
  | some account =>
      have hused := honce.spentUsed id raw found hspent
      have hother : ∀ {other raw' found'}, (state.finish id).spent other = some (raw', found') →
          state.spent other = some (raw', found') ∧ hashToken raw ≠ hashToken raw' := by
        intro other raw' found' h
        refine ⟨spent_finish state id h, fun hsame => ?_⟩
        obtain rfl := honce.apart id raw found other raw' found' hspent (spent_finish state id h)
          hsame
        rw [State.spent, State.finish, AList.lookup_erase] at h
        cases h
      refine ⟨?_, ?_, ?_, ?_, ?_⟩
      · exact fun other raw' found' h => honce.spentUsed other raw' found' (hother h).1
      · intro other raw' found' h change hchange
        rcases List.mem_cons.mp hchange with rfl | hold
        · exact (hother h).2
        · exact honce.spentUnchanged other raw' found' (hother h).1 change hold
      · exact fun one raw' found' other raw'' found'' h h' =>
          honce.apart one raw' found' other raw'' found'' (hother h).1 (hother h').1
      · intro change hchange
        rcases List.mem_cons.mp hchange with rfl | hold
        · exact hused
        · exact honce.changedUsed change hold
      · refine List.nodup_cons.mpr ⟨fun hmem => ?_, honce.once⟩
        obtain ⟨change, hchange, hsame⟩ := List.mem_map.mp hmem
        exact honce.spentUnchanged id raw found hspent change hchange hsame

theorem Once.execute (honce : Once hashToken state) {id : Nat} {call : Call} (random : Text)
    (hcall : state.calls.lookup id = some call) :
    Once hashToken (state.execute hashToken id random call) := by
  have hspent : state.spent id = call.spent := by rw [State.spent, hcall]; rfl
  cases call with
  | invalidates user startedAt =>
      have hmarked : Once hashToken { state with
          tokens := Tables.mapRows (Token.invalidate user startedAt) state.tokens } :=
        honce.tokens (fun key hused => hused.invalidate user startedAt) rfl rfl
      exact hmarked.goOn fun _ h => by cases h
  | inserts user raw expiresAt =>
      rw [State.execute, State.insertToken]
      split
      · exact honce.finish id
      · next hnew =>
          have hkept : ∀ key, Used state.tokens key → Used (state.tokens.insert (hashToken raw)
              { rowid := state.nextRow, user, expiresAt, usedAt := none }) key := by
            intro key hused
            refine hused.insert fun hsame => ?_
            obtain ⟨row, hrow, -⟩ := hused
            exact absurd (hsame ▸ Option.isSome_of_eq_some hrow) hnew
          have hinserted : Once hashToken { state with
              tokens := state.tokens.insert (hashToken raw)
                { rowid := state.nextRow, user, expiresAt, usedAt := none }
              nextRow := state.nextRow + 1 } := honce.tokens hkept rfl rfl
          exact hinserted.finish id
  | looksUp raw password =>
      rw [State.execute, State.lookUp]
      split
      · split
        · exact honce.finish id
        · exact honce.goOn fun _ h => by cases h
      · exact honce.finish id
  | marks raw password user => exact honce.mark id raw password user
  | readsUser raw password user found =>
      rw [State.execute, State.readUser]
      split
      · split
        · exact honce.finish id
        · exact honce.goOn fun _ h => hspent.trans h
      · exact honce.finish id
  | setsPassword raw password user found => exact honce.setPassword hspent

theorem Once.failed (honce : Once hashToken state) (id : Nat) (random : Text) (call : Call) :
    Once hashToken (state.failed id random call) := by
  cases call with
  | invalidates user startedAt => exact honce.goOn fun _ h => by cases h
  | _ => exact honce.finish id

theorem Once.step (honce : Once hashToken state) {event : Event} {next : State}
    (hnext : step hashToken state event = some next) : Once hashToken next := by
  cases event with
  | tick seconds =>
      cases hnext
      exact honce.tokens (fun _ h => h) rfl rfl
  | creates id user =>
      rw [ResetTokens.step] at hnext
      split at hnext
      · cases hnext
      · cases hnext
        exact honce.goOn fun _ h => by cases h
  | confirms id token password =>
      rw [ResetTokens.step] at hnext
      split at hnext
      · cases hnext
      · split at hnext <;> cases hnext
        · exact honce
        · exact honce.goOn fun _ h => by cases h
  | statement id ok random =>
      rw [ResetTokens.step] at hnext
      obtain ⟨call, hcall, rfl⟩ := Option.map_eq_some_iff.mp hnext
      cases ok with
      | true => exact honce.execute random hcall
      | false => exact honce.failed id random call

/-- Whatever requests are served at the same time, a token sets a password at most once. -/
theorem each_token_once (hashToken : Text → Text) (now : Nat)
    (users : AList fun _ : Nat => Account) (events : List Event) :
    Throughout (ResetTokens.step hashToken) (fun state => (state.changes.map Change.raw).Nodup)
      (start now users) events := by
  have hstart : Once hashToken (start now users) := by
    constructor <;> simp [start, State.spent]
  exact throughout_of_inv (fun _ honce => honce.nodup) (fun _ _ _ honce => honce.step) hstart
    events

end Once

/-! ## Neither expired nor superseded -/

section Sound

def Found.Valid (found : Found) : Prop := found.expired = false ∧ found.superseded = false

/-- Of a user's tokens only the last one may be unused. -/
structure Ordered (state : State) : Prop where
  below : ∀ key token, state.tokens.lookup key = some token → token.rowid < state.nextRow
  distinct : ∀ key token key' token', state.tokens.lookup key = some token →
    state.tokens.lookup key' = some token' → token.rowid = token'.rowid → key = key'
  older : ∀ key token key' token', state.tokens.lookup key = some token →
    state.tokens.lookup key' = some token' → token.user = token'.user →
      token.rowid < token'.rowid → token.usedAt.isSome

structure Sound (state : State) : Prop where
  once : Once hashToken state
  ordered : Ordered state
  found : ∀ id raw found, state.spent id = some (raw, found) → found.Valid
  changes : ∀ change ∈ state.changes, change.found.Valid

variable {hashToken : Text → Text} {state : State} {id : Nat}

/-- Rows are marked in place. -/
theorem Ordered.mono (hordered : Ordered state) {next : State}
    (hrows : ∀ key token', next.tokens.lookup key = some token' →
      ∃ token, state.tokens.lookup key = some token ∧ token.rowid = token'.rowid ∧
        token.user = token'.user ∧ (token.usedAt.isSome → token'.usedAt.isSome))
    (hnext : next.nextRow = state.nextRow) : Ordered next where
  below := by
    intro key token' hrow'
    obtain ⟨token, hrow, hid, -⟩ := hrows key token' hrow'
    rw [hnext, ← hid]
    exact hordered.below key token hrow
  distinct := by
    intro key one' key' other' hone' hother' hsame
    obtain ⟨one, hone, hid, -⟩ := hrows key one' hone'
    obtain ⟨other, hother, hid', -⟩ := hrows key' other' hother'
    exact hordered.distinct key one key' other hone hother (hid.trans (hsame.trans hid'.symm))
  older := by
    intro key one' key' other' hone' hother' huser hless
    obtain ⟨one, hone, hid, hof, hused⟩ := hrows key one' hone'
    obtain ⟨other, hother, hid', hof', -⟩ := hrows key' other' hother'
    apply hused
    apply hordered.older key one key' other hone hother (hof.trans (huser.trans hof'.symm))
    rw [hid, hid']
    exact hless

theorem Ordered.invalidate (hordered : Ordered state) (user at_ : Nat) :
    Ordered { state with tokens := Tables.mapRows (Token.invalidate user at_) state.tokens } := by
  refine hordered.mono (fun key token' hrow' => ?_) rfl
  rw [Tables.lookup_mapRows] at hrow'
  obtain ⟨token, hrow, rfl⟩ := Option.map_eq_some_iff.mp hrow'
  refine ⟨token, hrow, ?_⟩
  rw [Token.invalidate]
  split
  · exact ⟨rfl, rfl, fun _ => rfl⟩
  · exact ⟨rfl, rfl, id⟩

theorem Ordered.mark (hordered : Ordered state) {key : Text} {token : Token}
    (hrow : state.tokens.lookup key = some token) (at_ : Nat) :
    Ordered { state with
      tokens := state.tokens.insert key { token with usedAt := some at_ } } := by
  refine hordered.mono (fun other token' hother => ?_) rfl
  rcases Tables.lookup_insert_cases hother with ⟨rfl, rfl⟩ | ⟨-, hold⟩
  · exact ⟨token, hrow, rfl, rfl, fun _ => rfl⟩
  · exact ⟨token', hold, rfl, rfl, id⟩

/-- A new token is inserted when the user's others are used. -/
theorem Ordered.insert (hordered : Ordered state) {key : Text} (user expiresAt : Nat)
    (hunused : NothingUnused state.tokens user) :
    Ordered { state with
      tokens := state.tokens.insert key
        { rowid := state.nextRow, user, expiresAt, usedAt := none }
      nextRow := state.nextRow + 1 } where
  below := by
    intro other token hrow
    rcases Tables.lookup_insert_cases hrow with ⟨-, rfl⟩ | ⟨-, hold⟩
    · exact Nat.lt_succ_self _
    · exact Nat.lt_succ_of_lt (hordered.below other token hold)
  distinct := by
    intro one token other token' hone hother hsame
    rcases Tables.lookup_insert_cases hone with ⟨hkey, rfl⟩ | ⟨-, hone⟩ <;>
      rcases Tables.lookup_insert_cases hother with ⟨hkey', rfl⟩ | ⟨-, hother⟩
    · exact hkey.trans hkey'.symm
    · exact absurd hsame.symm (Nat.ne_of_lt (hordered.below other token' hother))
    · exact absurd hsame (Nat.ne_of_lt (hordered.below one token hone))
    · exact hordered.distinct one token other token' hone hother hsame
  older := by
    intro one token other token' hone hother huser hless
    rcases Tables.lookup_insert_cases hone with ⟨-, rfl⟩ | ⟨-, hold⟩ <;>
      rcases Tables.lookup_insert_cases hother with ⟨-, rfl⟩ | ⟨-, hold'⟩
    · exact absurd hless (Nat.lt_irrefl _)
    · exact absurd hless (Nat.lt_asymm (hordered.below other token' hold'))
    · exact hunused _ (AList.mem_lookup_iff.mp hold) huser
    · exact hordered.older one token other token' hold hold' huser hless

/-- An unused token is the last one of its user. -/
theorem Ordered.not_superseded (hordered : Ordered state) {key : Text} {token : Token}
    (hrow : state.tokens.lookup key = some token) (hunused : ¬ token.usedAt.isSome = true) :
    superseded state.tokens token = false := by
  rw [superseded, List.any_eq_false]
  intro entry hentry
  simp only [Bool.and_eq_true, decide_eq_true_eq, not_and]
  intro huser hless
  exact hunused (hordered.older key token entry.1 entry.2 hrow (AList.mem_lookup_iff.mpr hentry)
    huser.symm hless)

/-- The tokens stay as they are, and nothing is newly marked. -/
theorem Sound.mono (hsound : Sound hashToken state) {next : State}
    (honce : Once hashToken next) (hordered : Ordered next)
    (hspent : ∀ id spent, next.spent id = some spent → state.spent id = some spent)
    (hchanges : next.changes = state.changes) : Sound hashToken next where
  once := honce
  ordered := hordered
  found := fun id raw found h => hsound.found id raw found (hspent id _ h)
  changes := fun change h => hsound.changes change (hchanges ▸ h)

theorem Sound.finish (hsound : Sound hashToken state) (id : Nat) :
    Sound hashToken (state.finish id) :=
  hsound.mono (hsound.once.finish id) (hsound.ordered.mono
    (fun _ token h => ⟨token, h, rfl, rfl, fun h => h⟩) rfl)
    (fun _ _ h => spent_finish state id h) rfl

theorem Sound.goOn (hsound : Sound hashToken state) {call : Call}
    (hcall : ∀ spent, call.spent = some spent → state.spent id = some spent) :
    Sound hashToken (state.goOn id call) := by
  refine hsound.mono (hsound.once.goOn hcall) (hsound.ordered.mono
    (fun _ token h => ⟨token, h, rfl, rfl, fun h => h⟩) rfl) (fun other spent h => ?_) rfl
  rcases spent_goOn h with ⟨rfl, hspent⟩ | ⟨-, hother⟩
  · exact hcall spent hspent
  · exact hother

theorem Sound.execute (hsound : Sound hashToken state) {id : Nat} {call : Call}
    (random : Text) (hcall : state.calls.lookup id = some call)
    (hheeds : HeedsCall hashToken state call) :
    Sound hashToken (state.execute hashToken id random call) := by
  have hspent : state.spent id = call.spent := by rw [State.spent, hcall]; rfl
  have honce := hsound.once.execute random hcall
  cases call with
  | invalidates user startedAt =>
      refine hsound.mono honce ((hsound.ordered.invalidate user startedAt).mono
        (fun _ token h => ⟨token, h, rfl, rfl, fun h => h⟩) rfl) (fun other spent h => ?_) rfl
      rcases spent_goOn h with ⟨-, hnone⟩ | ⟨-, hother⟩
      · cases hnone
      · exact hother
  | inserts user raw expiresAt =>
      rw [State.execute, State.insertToken] at honce ⊢
      split at honce
      · next htaken =>
          rw [if_pos htaken]
          exact hsound.finish id
      · next hnew =>
          rw [if_neg hnew]
          exact hsound.mono honce ((hsound.ordered.insert user expiresAt hheeds).mono
            (fun _ token h => ⟨token, h, rfl, rfl, fun h => h⟩) rfl)
            (fun _ _ h => spent_finish state id h) rfl
  | looksUp raw password =>
      rw [State.execute, State.lookUp]
      split
      · split
        · exact hsound.finish id
        · exact hsound.goOn fun _ h => by cases h
      · exact hsound.finish id
  | marks raw password user =>
      rw [State.execute, State.mark] at honce ⊢
      cases hrow : state.tokens.lookup (hashToken raw) with
      | none => exact hsound.finish id
      | some token =>
          simp only [hrow] at honce ⊢
          split at honce
          · next hused =>
              rw [if_pos hused]
              exact hsound.finish id
          · next hunused =>
              rw [if_neg hunused]
              refine ⟨honce, (hsound.ordered.mark hrow state.now).mono
                (fun _ token h => ⟨token, h, rfl, rfl, fun h => h⟩) rfl, ?_, hsound.changes⟩
              intro other raw' found' h
              rcases spent_goOn h with ⟨-, hmarked⟩ | ⟨-, hother⟩
              · cases hmarked
                exact ⟨decide_eq_false (Nat.not_lt.mpr (hheeds token hrow)),
                  hsound.ordered.not_superseded hrow hunused⟩
              · exact hsound.found other raw' found' hother
  | readsUser raw password user found =>
      rw [State.execute, State.readUser]
      split
      · split
        · exact hsound.finish id
        · exact hsound.goOn fun _ h => hspent.trans h
      · exact hsound.finish id
  | setsPassword raw password user found =>
      rw [State.execute, State.setPassword] at honce ⊢
      cases hrow : state.users.lookup user with
      | none => exact hsound.finish id
      | some account =>
          simp only [hrow] at honce ⊢
          refine ⟨honce, hsound.ordered.mono
            (fun _ token h => ⟨token, h, rfl, rfl, fun h => h⟩) rfl,
            fun other raw' found' h =>
              hsound.found other raw' found' (spent_finish state id h), ?_⟩
          intro change hchange
          rcases List.mem_cons.mp hchange with rfl | hold
          · exact hsound.found id raw found hspent
          · exact hsound.changes change hold

theorem Sound.failed (hsound : Sound hashToken state) (id : Nat) (random : Text) (call : Call) :
    Sound hashToken (state.failed id random call) := by
  cases call with
  | invalidates user startedAt => exact hsound.goOn fun _ h => by cases h
  | _ => exact hsound.finish id

theorem Sound.step (hsound : Sound hashToken state) {event : Event} {next : State}
    (hheeds : Heeds hashToken state event)
    (hnext : step hashToken state event = some next) : Sound hashToken next := by
  cases event with
  | tick seconds =>
      have honce := hsound.once.step hnext
      cases hnext
      exact hsound.mono honce (hsound.ordered.mono
        (fun _ token h => ⟨token, h, rfl, rfl, fun h => h⟩) rfl) (fun _ _ h => h) rfl
  | creates id user =>
      rw [ResetTokens.step] at hnext
      split at hnext
      · cases hnext
      · cases hnext
        exact hsound.goOn fun _ h => by cases h
  | confirms id token password =>
      rw [ResetTokens.step] at hnext
      split at hnext
      · cases hnext
      · split at hnext <;> cases hnext
        · exact hsound
        · exact hsound.goOn fun _ h => by cases h
  | statement id ok random =>
      rw [ResetTokens.step] at hnext
      obtain ⟨call, hcall, rfl⟩ := Option.map_eq_some_iff.mp hnext
      cases ok with
      | true => exact hsound.execute random hcall (hheeds call hcall)
      | false => exact hsound.failed id random call

end Sound

section Lab

def labUsers : AList fun _ : Nat => Account :=
  AList.insert 1 { auth0 := false, password := some ['x'], disabled := false } ∅

/-- A link is asked for, a second one makes it void, and the second sets a password. -/
def labInTurn : List Event :=
  [.creates 10 1, .statement 10 true ['a'], .statement 10 true [], .creates 11 1,
    .statement 11 true ['b'], .statement 11 true [],
    .confirms 12 ['a'] ['n', 'e', 'w', '-', 's', 'e', 'c', 'r', 'e', 't'],
    .statement 12 true [],
    .confirms 13 ['b'] ['n', 'e', 'w', '-', 's', 'e', 'c', 'r', 'e', 't'],
    .statement 13 true [], .tick 3600, .statement 13 true [], .statement 13 true [],
    .statement 13 true []]

/-- The two links are asked for at the same time. -/
def labAtOnce : List Event :=
  [.creates 10 1, .creates 11 1, .statement 10 true ['a'], .statement 11 true ['b'],
    .statement 10 true [], .statement 11 true []]

end Lab

end PertiskKos.ResetTokens
