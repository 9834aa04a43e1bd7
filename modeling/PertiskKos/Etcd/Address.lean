import PertiskKos.Library.Strings

/-!
# Host names, addresses and the rewriting of addresses

A member of the etcd cluster has a name, its node's host name, and a peer URL made
of the node's advertise address.  Both are written into the static pod manifest.
When DHCP moves a node, `replaceIpToken` rewrites the old address wherever it
stands in the manifest; what that does to a text is described by the characters
that no address has, at which the text may be taken apart.
-/

namespace PertiskKos.Etcd

open Strings

/-- A host name, as far as the `--initial-cluster` syntax can carry it. -/
structure Hostname where
  text : Text
  nonempty : text ≠ []
  plain : ∀ c ∈ text, c ≠ ',' ∧ c ≠ '=' ∧ isWhite c = false

/-- An advertise address in dotted notation. -/
structure Address where
  text : Text
  dotted : '.' ∈ text
  charset : ∀ c ∈ text, c.isDigit = true ∨ c = '.'

theorem Hostname.plain_of_all {text : Text}
    (hok : (!text.isEmpty && text.all fun c => c != ',' && c != '=' && !isWhite c) = true) :
    text ≠ [] ∧ ∀ c ∈ text, c ≠ ',' ∧ c ≠ '=' ∧ isWhite c = false := by
  simpa [and_assoc] using hok

/-- A host name given in writing. -/
def Hostname.ofText (text : Text)
    (hok : (!text.isEmpty && text.all fun c => c != ',' && c != '=' && !isWhite c) = true) :
    Hostname :=
  ⟨text, (Hostname.plain_of_all hok).1, (Hostname.plain_of_all hok).2⟩

theorem Address.charset_of_all {text : Text}
    (hok : (text.contains '.' && text.all fun c => c.isDigit || c == '.') = true) :
    '.' ∈ text ∧ ∀ c ∈ text, c.isDigit = true ∨ c = '.' := by
  simpa using hok

/-- An address given in writing. -/
def Address.ofText (text : Text)
    (hok : (text.contains '.' && text.all fun c => c.isDigit || c == '.') = true) :
    Address :=
  ⟨text, (Address.charset_of_all hok).1, (Address.charset_of_all hok).2⟩

theorem Hostname.comma_notMem (name : Hostname) : ',' ∉ name.text :=
  fun hmem => (name.plain ',' hmem).1 rfl

theorem Hostname.equals_notMem (name : Hostname) : '=' ∉ name.text :=
  fun hmem => (name.plain '=' hmem).2.1 rfl

theorem Hostname.noWhite (name : Hostname) : ∀ c ∈ name.text, isWhite c = false :=
  fun c hmem => (name.plain c hmem).2.2

theorem Address.ne_nil (address : Address) : address.text ≠ [] :=
  List.ne_nil_of_mem address.dotted

/-- A character that is no digit and no dot is in no address. -/
theorem Address.notMem (address : Address) {c : Char} (hdigit : c.isDigit = false)
    (hdot : c ≠ '.') : c ∉ address.text := by
  intro hmem
  rcases address.charset c hmem with h | h
  · simp [hdigit] at h
  · exact hdot h

theorem Address.noWhite (address : Address) :
    ∀ c ∈ address.text, isWhite c = false := by
  intro c hmem
  rcases address.charset c hmem with hdigit | rfl
  · exact isWhite_of_isDigit hdigit
  · decide

def https : Text := ['h', 't', 't', 'p', 's', ':', '/', '/']

/-- `format!("https://{advertise}:2380")` -/
def peerUrl (address : Text) : Text := https ++ address ++ ":2380".toList

theorem peerUrl_eq (address : Text) :
    peerUrl address = "https:/".toList ++ '/' :: (address ++ ':' :: "2380".toList) := by
  rw [peerUrl, List.append_assoc]
  rfl

def endsInDigit (text : Text) : Bool := text.getLast?.any Char.isDigit

def startsWithDigit (text : Text) : Bool := text.head?.any Char.isDigit

theorem Address.notMem_peerUrl (address : Address) {c : Char}
    (hchar : c.isDigit = false ∧ c ≠ '.') (hscheme : c ∉ https)
    (hport : c ∉ ":2380".toList) : c ∉ peerUrl address.text := by
  have haddress : c ∉ address.text := address.notMem hchar.1 hchar.2
  simp only [peerUrl, List.mem_append, not_or]
  exact ⟨⟨hscheme, haddress⟩, hport⟩

/-- The loop of `replaceIpToken`; every round consumes an occurrence of `old`. -/
def replaceFrom (old new : Text) : Nat → Text → Text
  | 0, rest => rest
  | fuel + 1, rest =>
      match cut old rest with
      | none => rest
      | some (before, after) =>
          before ++
            (if !endsInDigit before && !startsWithDigit after then new else old) ++
            replaceFrom old new fuel after

/-- Replace `old` by `new` where no digit stands next to it. -/
def replaceIpToken (haystack old new : Text) : Text :=
  if old = [] ∨ old = new then haystack
  else replaceFrom old new haystack.length haystack

section Replace

variable {old new : Text}

/-- What stands in for one occurrence of `old`. -/
def token (old new before after : Text) : Text :=
  if !endsInDigit before && !startsWithDigit after then new else old

/-- More rounds than characters change nothing. -/
theorem replaceFrom_fuel (hold : old ≠ []) {rest : Text} {fuel other : Nat}
    (hfuel : rest.length ≤ fuel) (hother : rest.length ≤ other) :
    replaceFrom old new fuel rest = replaceFrom old new other rest := by
  induction fuel generalizing rest other with
  | zero =>
      have hnil : rest = [] := List.length_eq_zero_iff.mp (Nat.le_zero.mp hfuel)
      cases other with
      | zero => rfl
      | succ other => simp [hnil, replaceFrom, cut, hold]
  | succ fuel ih =>
      cases other with
      | zero =>
          have hnil : rest = [] := List.length_eq_zero_iff.mp (Nat.le_zero.mp hother)
          simp [hnil, replaceFrom, cut, hold]
      | succ other =>
          cases hcut : cut old rest with
          | none => simp [replaceFrom, hcut]
          | some around =>
              have hlength := congrArg List.length (cut_append hcut)
              have hpos := List.length_pos_of_ne_nil hold
              simp only [List.length_append] at hlength
              simp only [replaceFrom, hcut]
              have hafter : replaceFrom old new fuel around.2 =
                  replaceFrom old new other around.2 := ih (by omega) (by omega)
              rw [hafter]

/-- The rewriting of a text, taken apart at the first occurrence of `old`. -/
theorem replaceIpToken_cut (hold : old ≠ []) (hnew : old ≠ new) (text : Text) :
    replaceIpToken text old new =
      match cut old text with
      | none => text
      | some (before, after) =>
          before ++ token old new before after ++ replaceIpToken after old new := by
  have hrun : ∀ text, replaceIpToken text old new =
      replaceFrom old new (text.length + 1) text := by
    intro text
    rw [replaceIpToken, if_neg (by simp [hold, hnew])]
    exact replaceFrom_fuel hold (Nat.le_refl _) (Nat.le_succ _)
  rw [hrun, replaceFrom]
  cases hcut : cut old text with
  | none => rfl
  | some around =>
      have hlength := congrArg List.length (cut_append hcut)
      simp only [List.length_append] at hlength
      simp only
      have hfuel := @replaceFrom_fuel old new hold around.2 text.length
        (around.2.length + 1) (by omega) (by omega)
      rw [hrun, token, hfuel]

/-- The rewriting of a text, taken apart at a character that is neither a digit nor
part of the address. -/
theorem replaceIpToken_separator {separator : Char} (hold : separator ∉ old)
    (hdigit : separator.isDigit = false) (left right : Text) :
    replaceIpToken (left ++ separator :: right) old new =
      replaceIpToken left old new ++ separator :: replaceIpToken right old new := by
  by_cases htrivial : old = [] ∨ old = new
  · simp [replaceIpToken, htrivial]
  · push Not at htrivial
    obtain ⟨hnil, hnew⟩ := htrivial
    have hcut := fun text => replaceIpToken_cut hnil hnew text
    induction hlength : left.length using Nat.strong_induction_on generalizing left with
    | _ length ih =>
        rw [hcut, cut_separator hnil hold, hcut left]
        cases hleft : cut old left with
        | some around =>
            obtain ⟨before, after⟩ := around
            have hparts := congrArg List.length (cut_append hleft)
            have hpos := List.length_pos_of_ne_nil hnil
            simp only [List.length_append] at hparts
            have hafter : startsWithDigit (after ++ separator :: right) =
                startsWithDigit after := by
              cases after <;> simp [startsWithDigit, hdigit]
            have hrest := ih after.length (by omega) after rfl
            simp [token, hafter, hrest]
        | none =>
            rw [hcut right]
            cases hright : cut old right with
            | none => simp
            | some around =>
                obtain ⟨before, after⟩ := around
                have hbefore : endsInDigit (left ++ separator :: before) =
                    endsInDigit before := by
                  cases before <;> simp [endsInDigit, hdigit, List.getLast?_cons]
                simp [token, hbefore]

theorem replaceIpToken_of_not_occurs {text : Text} (htext : ¬ old <:+: text) :
    replaceIpToken text old new = text := by
  by_cases htrivial : old = [] ∨ old = new
  · simp [replaceIpToken, htrivial]
  · push Not at htrivial
    rw [replaceIpToken_cut htrivial.1 htrivial.2, cut_eq_none_iff.mpr htext]

/-- The rewriting brings in no character but those of the new address. -/
theorem mem_replaceIpToken {text : Text} {c : Char}
    (hmem : c ∈ replaceIpToken text old new) : c ∈ text ∨ c ∈ new := by
  by_cases htrivial : old = [] ∨ old = new
  · simp [replaceIpToken, htrivial] at hmem
    exact .inl hmem
  · push Not at htrivial
    induction hlength : text.length using Nat.strong_induction_on generalizing text with
    | _ length ih =>
        rw [replaceIpToken_cut htrivial.1 htrivial.2] at hmem
        cases hcut : cut old text with
        | none =>
            rw [hcut] at hmem
            exact .inl hmem
        | some around =>
            obtain ⟨before, after⟩ := around
            have htext := cut_append hcut
            have hpos := List.length_pos_of_ne_nil htrivial.1
            have hparts := congrArg List.length htext
            simp only [List.length_append] at hparts
            have hrest := @ih after.length (by omega) after
            simp only [hcut, List.mem_append, token] at hmem
            rw [htext]
            rcases hmem with (hbefore | htoken) | hafter
            · simp [hbefore]
            · split at htoken <;> simp [htoken]
            · rcases hrest hafter rfl with hmem | hmem <;> simp [hmem]

theorem replaceIpToken_ne_nil {text : Text} (hnew : new ≠ []) (htext : text ≠ []) :
    replaceIpToken text old new ≠ [] := by
  by_cases htrivial : old = [] ∨ old = new
  · simpa [replaceIpToken, htrivial] using htext
  · push Not at htrivial
    rw [replaceIpToken_cut htrivial.1 htrivial.2]
    cases cut old text with
    | none => exact htext
    | some around =>
        have htoken : token old new around.1 around.2 ≠ [] := by
          rw [token]
          split
          · exact hnew
          · exact htrivial.1
        simp [htoken]

end Replace

/-- The rewriting of a host name is a host name. -/
def Hostname.rewrite (name : Hostname) (old new : Address) : Hostname where
  text := replaceIpToken name.text old.text new.text
  nonempty := replaceIpToken_ne_nil new.ne_nil name.nonempty
  plain := by
    intro c hmem
    rcases mem_replaceIpToken hmem with hname | hnew
    · exact name.plain c hname
    · refine ⟨?_, ?_, new.noWhite c hnew⟩
      · rintro rfl
        exact new.notMem (by decide) (by decide) hnew
      · rintro rfl
        exact new.notMem (by decide) (by decide) hnew

/-- The rewriting of an address is an address. -/
def Address.rewrite (address old new : Address) : Address where
  text := replaceIpToken address.text old.text new.text
  dotted := by
    by_cases hsame : old.text = new.text
    · simpa [replaceIpToken, hsame] using address.dotted
    · rw [replaceIpToken_cut old.ne_nil hsame]
      cases cut old.text address.text with
      | none => exact address.dotted
      | some around =>
          have htoken : '.' ∈ token old.text new.text around.1 around.2 := by
            rw [token]
            split
            · exact new.dotted
            · exact old.dotted
          simp [htoken]
  charset := by
    intro c hmem
    rcases mem_replaceIpToken hmem with haddress | hnew
    · exact address.charset c haddress
    · exact new.charset c hnew

@[simp]
theorem Hostname.rewrite_text (name : Hostname) (old new : Address) :
    (name.rewrite old new).text = replaceIpToken name.text old.text new.text := rfl

@[simp]
theorem Address.rewrite_text (address old new : Address) :
    (address.rewrite old new).text =
      replaceIpToken address.text old.text new.text := rfl

section Rewrite

variable (old new : Address)

theorem replaceIpToken_noDot {text : Text} (htext : '.' ∉ text) :
    replaceIpToken text old.text new.text = text :=
  replaceIpToken_of_not_occurs fun hoccurs => htext (hoccurs.subset old.dotted)

/-- Characters that are no digit and no dot are where a rewriting may be split. -/
theorem replaceIpToken_split (separator : Char) (hdigit : separator.isDigit = false)
    (hdot : separator ≠ '.') (left right : Text) :
    replaceIpToken (left ++ separator :: right) old.text new.text =
      replaceIpToken left old.text new.text ++
        separator :: replaceIpToken right old.text new.text :=
  replaceIpToken_separator (old.notMem hdigit hdot) hdigit left right

theorem replaceIpToken_peerUrl (address : Address) :
    replaceIpToken (peerUrl address.text) old.text new.text =
      peerUrl (address.rewrite old new).text := by
  have hfront : replaceIpToken "https:/".toList old.text new.text = "https:/".toList :=
    replaceIpToken_noDot old new (by decide)
  have hport : replaceIpToken "2380".toList old.text new.text = "2380".toList :=
    replaceIpToken_noDot old new (by decide)
  rw [peerUrl_eq, peerUrl_eq, replaceIpToken_split old new '/' (by decide) (by decide),
    hfront, replaceIpToken_split old new ':' (by decide) (by decide), hport,
    Address.rewrite_text]

end Rewrite

end PertiskKos.Etcd
