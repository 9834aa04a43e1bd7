import PertiskKos.Library.Lines

/-!
# Bytes cut inside a character

`lossy` leaves a text in front alone.  A character that the bytes break off, at their end or
before a byte that continues nothing, is shown as one replacement character, however many of
its bytes there are.
-/

namespace PertiskKos.Utf8

/-! ## One step of the decoder -/

theorem decodeChar_nil : decodeChar [] = none := by decide

theorem badLength_pos (bytes : Bytes) : 0 < badLength bytes := by
  unfold badLength
  split
  · split
    · exact Nat.one_pos
    · split <;> decide
  · split <;> decide
  · exact Nat.one_pos

theorem lossySome_decoded {fuel : Nat} {bytes rest : Bytes} {c : Char}
    (hchar : decodeChar bytes = some (c, rest)) :
    lossySome (fuel + 1) bytes = c :: lossySome fuel rest := by
  cases bytes with
  | nil =>
      rw [decodeChar_nil] at hchar
      cases hchar
  | cons byte bytes =>
      rw [lossySome, hchar]
      exact fun h => by cases h

theorem lossySome_bad {fuel : Nat} {bytes : Bytes} (hne : bytes ≠ [])
    (hchar : decodeChar bytes = none) :
    lossySome (fuel + 1) bytes = replacement :: lossySome fuel (bytes.drop (badLength bytes)) := by
  cases bytes with
  | nil => exact absurd rfl hne
  | cons byte bytes =>
      rw [lossySome, hchar]
      exact fun h => by cases h

/-- Every step takes a byte at least. -/
theorem lossySome_eq {fuel : Nat} {bytes : Bytes} (hfuel : bytes.length ≤ fuel) :
    lossySome fuel bytes = lossy bytes := by
  rw [lossy]
  generalize hlength : bytes.length = length at hfuel
  have hboth : ∀ more, bytes.length ≤ more →
      lossySome more bytes = lossySome bytes.length bytes := by
    clear hfuel hlength
    induction hn : bytes.length using Nat.strong_induction_on generalizing bytes with
    | _ n ih =>
        subst hn
        intro more hmore
        cases bytes with
        | nil => cases more <;> rfl
        | cons byte bytes =>
            obtain ⟨more, rfl⟩ : ∃ less, more = less + 1 := ⟨more - 1, by
              rw [List.length_cons] at hmore
              omega⟩
            rw [List.length_cons] at hmore ⊢
            cases hchar : decodeChar (byte :: bytes) with
            | some next =>
                obtain ⟨c, rest⟩ := next
                have hpos := List.length_pos_iff.mpr (encodeChar_ne_nil c)
                have hsame := congrArg List.length (decodeChar_sound hchar)
                rw [List.length_append, List.length_cons] at hsame
                rw [lossySome_decoded hchar, lossySome_decoded hchar,
                  ih rest.length (by rw [List.length_cons]; omega) rfl more (by omega),
                  ih rest.length (by rw [List.length_cons]; omega) rfl bytes.length (by omega)]
            | none =>
                have hpos := badLength_pos (byte :: bytes)
                have hsame : ((byte :: bytes).drop (badLength (byte :: bytes))).length ≤
                    bytes.length := by
                  rw [List.length_drop, List.length_cons]
                  omega
                rw [lossySome_bad (List.cons_ne_nil _ _) hchar,
                  lossySome_bad (List.cons_ne_nil _ _) hchar,
                  ih _ (by rw [List.length_cons]; omega) rfl more (by omega),
                  ih _ (by rw [List.length_cons]; omega) rfl bytes.length (by omega)]
  rw [hboth fuel (by omega), hlength]

theorem lossy_decoded {bytes rest : Bytes} {c : Char}
    (hchar : decodeChar bytes = some (c, rest)) : lossy bytes = c :: lossy rest := by
  have hsame := congrArg List.length (decodeChar_sound hchar)
  have hpos := List.length_pos_iff.mpr (encodeChar_ne_nil c)
  rw [List.length_append] at hsame
  rw [← lossySome_eq (Nat.le_succ bytes.length), lossySome_decoded hchar,
    lossySome_eq (by omega)]

theorem lossy_bad {bytes : Bytes} (hne : bytes ≠ []) (hchar : decodeChar bytes = none) :
    lossy bytes = replacement :: lossy (bytes.drop (badLength bytes)) := by
  rw [← lossySome_eq (Nat.le_succ bytes.length), lossySome_bad hne hchar, lossySome_eq]
  rw [List.length_drop]
  omega

@[simp] theorem lossy_nil : lossy [] = [] := rfl

/-- A text in front is shown as it is. -/
theorem lossy_append (text : List Char) (rest : Bytes) :
    lossy (encode text ++ rest) = text ++ lossy rest := by
  induction text with
  | nil => rfl
  | cons c text ih =>
      rw [encode_cons, List.append_assoc, lossy_decoded (decodeChar_encode c _), ih]
      rfl

/-! ## A character that is broken off -/

/-- Some bytes of a character from its first on, but not all of them. -/
def BrokenOff (part : Bytes) : Prop :=
  part ≠ [] ∧ ∃ c, part <+: String.utf8EncodeChar c ∧ part ≠ String.utf8EncodeChar c

/-- Bytes that do not begin with one that continues a character. -/
def Fresh (bytes : Bytes) : Prop := ∀ byte ∈ bytes.head?, byte.toNat < 0x80

theorem leading_of_head {first : UInt8} {bytes other : Bytes} :
    (leading (first :: bytes)).1 = (leading (first :: other)).1 := by
  simp only [leading, List.getD_cons_zero]
  split
  · rfl
  · split
    · rfl
    · split <;> rfl

theorem decodeChar_brokenOff {part rest : Bytes} (hpart : BrokenOff part) (hrest : Fresh rest) :
    decodeChar (part ++ rest) = none := by
  obtain ⟨hne, c, ⟨missing, hwhole⟩, hproper⟩ := hpart
  obtain ⟨first, part, rfl⟩ := List.exists_cons_of_ne_nil hne
  have hmissing : missing ≠ [] := by
    rintro rfl
    exact hproper (by rw [← hwhole, List.append_nil])
  cases hchar : decodeChar (first :: part ++ rest) with
  | none => rfl
  | some next =>
      exfalso
      obtain ⟨other, after⟩ := next
      have hsound := decodeChar_sound hchar
      -- both characters begin with the same byte, so they have the same length
      have hlength : (String.utf8EncodeChar other).length =
          (String.utf8EncodeChar c).length := by
        have hother := congrArg Prod.fst (leading_encode other after)
        have hc := congrArg Prod.fst (leading_encode c [])
        rw [List.append_nil] at hc
        calc (String.utf8EncodeChar other).length
            = (leading (first :: part ++ rest)).1 := by rw [hsound, hother]
          _ = (leading (first :: part ++ missing)).1 := leading_of_head
          _ = (String.utf8EncodeChar c).length := by rw [hwhole, hc]
      rw [← hwhole, List.length_append] at hlength
      have hmore : 0 < missing.length := List.length_pos_iff.mpr hmissing
      obtain ⟨tail, htail⟩ : first :: part <+: String.utf8EncodeChar other := by
        refine List.prefix_of_prefix_length_le (List.prefix_append (first :: part) rest) ?_
          (by omega)
        rw [hsound]
        exact List.prefix_append _ _
      rw [← htail, List.append_assoc] at hsound
      have hrest' : rest = tail ++ after := List.append_cancel_left hsound
      cases tail with
      | nil =>
          rw [← htail, List.append_nil] at hlength
          omega
      | cons byte tail =>
          rw [hrest'] at hrest
          have hascii : byte.toNat < 0x80 := hrest byte rfl
          have hmem : byte ∈ String.utf8EncodeChar other := by
            rw [← htail]
            simp
          have hcode := Lines.encodeChar_of_ascii hmem hascii
          have hone : (String.utf8EncodeChar other).length = 1 := by
            rw [String.length_utf8EncodeChar, Char.utf8Size]
            have hval : other.val.toNat < 0x80 := by
              simp only [Char.toNat] at hcode
              omega
            rw [if_pos]
            rw [UInt32.le_iff_toNat_le]
            exact Nat.le_of_lt_succ hval
          rw [← htail] at hone
          simp at hone

theorem secondAllowed_of {first second : UInt8} (hlow : 0x80 ≤ second.toNat)
    (hhigh : second.toNat < 0xc0) (he0 : first.toNat = 0xe0 → 0xa0 ≤ second.toNat)
    (hed : first.toNat = 0xed → second.toNat < 0xa0)
    (hf0 : first.toNat = 0xf0 → 0x90 ≤ second.toNat)
    (hf4 : first.toNat = 0xf4 → second.toNat < 0x90) : secondAllowed first second = true := by
  rw [secondAllowed, Bool.and_eq_true, isContinuation, Bool.and_eq_true]
  refine ⟨⟨decide_eq_true hlow, decide_eq_true hhigh⟩, ?_⟩
  split
  · next h => exact decide_eq_true (he0 h)
  · next h => exact decide_eq_true (hed h)
  · next h => exact decide_eq_true (hf0 h)
  · next h => exact decide_eq_true (hf4 h)
  · rfl

/-- What begins a character of three bytes or more could have gone on. -/
theorem encodeChar_long {c : Char} {first second : UInt8} {more : Bytes}
    (hlong : String.utf8EncodeChar c = first :: second :: more) (hmore : more ≠ []) :
    0xe0 ≤ first.toNat ∧ first.toNat < 0xf5 ∧ secondAllowed first second = true ∧
      (∀ third ∈ more, isContinuation third = true) ∧
      (first.toNat < 0xf0 → more.length = 1) := by
  have hvalid := c.valid
  simp only [UInt32.isValidChar, Nat.isValidChar] at hvalid
  rw [String.utf8EncodeChar] at hlong
  generalize c.val.toNat = v at hvalid hlong
  split at hlong
  · cases hlong
  · split at hlong
    · cases hlong
      exact absurd rfl hmore
    · split at hlong
      · next h1 h2 h3 =>
          obtain ⟨hfirst, hsecond, rfl⟩ := by simpa only [List.cons.injEq] using hlong
          have hone : first.toNat = v / 4096 % 16 + 224 := by
            rw [← hfirst, toNat_ofNat (by omega)]
          have htwo : second.toNat = v / 64 % 64 + 128 := by
            rw [← hsecond, toNat_ofNat (by omega)]
          refine ⟨by omega, by omega, ?_, ?_, fun _ => rfl⟩
          · exact secondAllowed_of (by omega) (by omega) (by omega) (by omega) (by omega)
              (by omega)
          · intro third hthird
            rw [List.mem_singleton] at hthird
            rw [hthird, isContinuation, toNat_ofNat (by omega)]
            simp
            omega
      · next h1 h2 h3 =>
          obtain ⟨hfirst, hsecond, rfl⟩ := by simpa only [List.cons.injEq] using hlong
          have hone : first.toNat = v / 262144 % 8 + 240 := by
            rw [← hfirst, toNat_ofNat (by omega)]
          have htwo : second.toNat = v / 4096 % 64 + 128 := by
            rw [← hsecond, toNat_ofNat (by omega)]
          refine ⟨by omega, by omega, ?_, ?_, fun h => by omega⟩
          · exact secondAllowed_of (by omega) (by omega) (by omega) (by omega) (by omega)
              (by omega)
          · intro third hthird
            simp only [List.mem_cons, List.not_mem_nil, or_false] at hthird
            rcases hthird with rfl | rfl
            all_goals
              rw [isContinuation, toNat_ofNat (by omega)]
              simp
              omega

theorem not_isContinuation {byte : UInt8} (hascii : byte.toNat < 0x80) :
    isContinuation byte = false := by
  simp only [isContinuation, Bool.and_eq_false_iff, decide_eq_false_iff_not]
  omega

theorem not_secondAllowed {first second : UInt8} (hascii : second.toNat < 0x80) :
    secondAllowed first second = false := by
  rw [secondAllowed, not_isContinuation hascii, Bool.false_and]

/-- All the bytes of a character that is broken off are taken at once. -/
theorem badLength_brokenOff {part rest : Bytes} (hpart : BrokenOff part) (hrest : Fresh rest) :
    badLength (part ++ rest) = part.length := by
  obtain ⟨hne, c, ⟨missing, hwhole⟩, hproper⟩ := hpart
  have hmissing : missing ≠ [] := by
    rintro rfl
    exact hproper (by rw [← hwhole, List.append_nil])
  match part, hne, hwhole with
  | [first], _, _ =>
      match rest, hrest with
      | [], _ => rfl
      | [second], hrest =>
          have hsecond := @not_secondAllowed first second (hrest second rfl)
          simp [badLength, hsecond]
      | second :: third :: rest, hrest =>
          have hsecond := @not_secondAllowed first second (hrest second rfl)
          simp [badLength, hsecond]
  | [first, second], _, hwhole =>
      obtain ⟨hlow, hhigh, hallowed, -, -⟩ := encodeChar_long hwhole.symm hmissing
      match rest, hrest with
      | [], _ =>
          simp only [List.append_nil, badLength, hallowed, List.length_cons, List.length_nil]
          rw [if_neg]
          simp
          omega
      | third :: rest, hrest =>
          have hthird := not_isContinuation (hrest third rfl)
          simp only [List.cons_append, List.nil_append, badLength, hallowed, hthird]
          rw [if_neg, if_pos]
          · rfl
          · simp
          · simp
            omega
  | first :: second :: third :: part, _, hwhole =>
      obtain ⟨hlow, hhigh, hallowed, hcontinues, hshort⟩ := encodeChar_long hwhole.symm (by simp)
      have hthird : isContinuation third = true := hcontinues third (by simp)
      have hlong : 0xf0 ≤ first.toNat := by
        by_contra h
        have hone : (third :: part ++ missing).length = 1 := hshort (by omega)
        rw [List.length_append, List.length_cons] at hone
        have hmore := List.length_pos_iff.mpr hmissing
        omega
      have hfour : (first :: second :: third :: part ++ missing).length ≤ 4 := by
        rw [hwhole, String.length_utf8EncodeChar]
        exact c.utf8Size_le_four
      have hpos := List.length_pos_iff.mpr hmissing
      cases part with
      | cons byte part =>
          simp only [List.length_append, List.length_cons] at hfour
          omega
      | nil =>
          simp only [List.cons_append, List.nil_append, badLength, hallowed, hthird]
          rw [if_neg, if_neg]
          · rfl
          · simp
            omega
          · simp
            omega

/-- A character that is broken off is one replacement character. -/
theorem lossy_brokenOff {part rest : Bytes} (hpart : BrokenOff part) (hrest : Fresh rest) :
    lossy (part ++ rest) = replacement :: lossy rest := by
  have hne : part ++ rest ≠ [] := fun h => hpart.1 (List.append_eq_nil_iff.mp h).1
  rw [lossy_bad hne (decodeChar_brokenOff hpart hrest), badLength_brokenOff hpart hrest,
    List.drop_left]

theorem decodeChar_broken {part : Bytes} (hpart : BrokenOff part) : decodeChar part = none := by
  have hfresh : Fresh [] := fun byte hbyte => by cases hbyte
  have hnone := decodeChar_brokenOff hpart hfresh
  rwa [List.append_nil] at hnone

theorem lossy_broken {part : Bytes} (hpart : BrokenOff part) : lossy part = [replacement] := by
  have hfresh : Fresh [] := fun byte hbyte => by cases hbyte
  have hlossy := lossy_brokenOff hpart hfresh
  rwa [List.append_nil, lossy_nil] at hlossy

/-- Some bytes of a text from its first on: whole characters, and the beginning of another. -/
theorem exists_of_prefix_encode {bytes : Bytes} {text : List Char}
    (hpre : bytes <+: encode text) :
    ∃ whole part, whole <+: text ∧ bytes = encode whole ++ part ∧ (part = [] ∨ BrokenOff part) := by
  induction text generalizing bytes with
  | nil => exact ⟨[], [], List.nil_prefix, List.prefix_nil.mp hpre, .inl rfl⟩
  | cons c text ih =>
      rw [encode_cons] at hpre
      rcases Nat.lt_or_ge bytes.length (String.utf8EncodeChar c).length with hshort | hlong
      · have hpart : bytes <+: String.utf8EncodeChar c :=
          List.prefix_of_prefix_length_le hpre (List.prefix_append _ _) (by omega)
        refine ⟨[], bytes, List.nil_prefix, rfl, ?_⟩
        by_cases hne : bytes = []
        · exact .inl hne
        · refine .inr ⟨hne, c, hpart, ?_⟩
          rintro rfl
          exact Nat.lt_irrefl _ hshort
      · obtain ⟨rest, rfl⟩ : String.utf8EncodeChar c <+: bytes :=
          List.prefix_of_prefix_length_le (List.prefix_append _ _) hpre hlong
        obtain ⟨whole, part, hwhole, rfl, hpart⟩ :=
          ih ((List.prefix_append_right_inj _).mp hpre)
        refine ⟨c :: whole, part, List.cons_prefix_cons.mpr ⟨rfl, hwhole⟩, ?_, hpart⟩
        rw [encode_cons, List.append_assoc]

/-- The text that an encoded text begins with is the beginning of the text. -/
theorem exists_of_encode_append {front text : List Char} {rest : Bytes}
    (hsame : encode front ++ rest = encode text) :
    ∃ tail, text = front ++ tail ∧ rest = encode tail := by
  induction front generalizing text with
  | nil => exact ⟨text, rfl, hsame⟩
  | cons c front ih =>
      have hchar : decodeChar (encode text) = some (c, encode front ++ rest) := by
        rw [← hsame, encode_cons, List.append_assoc, decodeChar_encode]
      cases text with
      | nil =>
          rw [encode_nil, decodeChar_nil] at hchar
          cases hchar
      | cons first text =>
          rw [encode_cons, decodeChar_encode] at hchar
          obtain ⟨rfl, hrest⟩ := Prod.mk.inj (Option.some.inj hchar)
          obtain ⟨tail, rfl, htail⟩ := ih hrest.symm
          exact ⟨tail, rfl, htail⟩

/-- A character that is not the replacement character was there. -/
theorem exists_of_lossy_head {bytes : Bytes} {c : Char} (hhead : c ∈ (lossy bytes).head?)
    (hc : c ≠ replacement) : ∃ rest, bytes = String.utf8EncodeChar c ++ rest := by
  by_cases hne : bytes = []
  · subst hne
    cases hhead
  · cases hchar : decodeChar bytes with
    | none =>
        rw [lossy_bad hne hchar] at hhead
        exact absurd (Option.some.inj hhead).symm hc
    | some next =>
        obtain ⟨first, rest⟩ := next
        rw [lossy_decoded hchar] at hhead
        obtain rfl : first = c := Option.some.inj hhead
        exact ⟨rest, decodeChar_sound hchar⟩

end PertiskKos.Utf8
