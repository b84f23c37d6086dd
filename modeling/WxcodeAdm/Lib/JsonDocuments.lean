import Mathlib.Data.List.Count
import WxcodeAdm.Lib.JsonText

/-! Which texts are read as JSON documents: those that were written for an object are, and those with
three dashes are not, short of strings and nesting. -/

namespace WxcodeAdm.Lib.JsonText

/-! ### Dashes -/

section Dashes

variable {text rest name : List Char} {value : Value} {p : Char → Bool}

theorem count_dropWhile (h : p '-' = false) (text : List Char) :
    (text.dropWhile p).count '-' = text.count '-' := by
  have hNone : (text.takeWhile p).count '-' = 0 :=
    List.count_eq_zero.mpr fun hMem => by simpa [h] using List.mem_takeWhile_imp hMem
  calc (text.dropWhile p).count '-'
      = (text.takeWhile p).count '-' + (text.dropWhile p).count '-' := by rw [hNone, Nat.zero_add]
    _ = text.count '-' := by rw [← List.count_append, List.takeWhile_append_dropWhile]

theorem matchInteger_count (h : matchInteger text = some (name, rest)) :
    rest.count '-' = text.count '-' := by
  unfold matchInteger at h
  split at h
  · cases h
  · rename_i ch more
    split at h
    · rename_i hZero
      cases h
      rw [hZero, List.count_cons_of_ne (by decide)]
    · split at h
      · rename_i hDigit
        cases h
        have hDash : ch ≠ '-' := fun hSame => by simp [hSame, isDigit] at hDigit
        rw [count_dropWhile (by decide), List.count_cons_of_ne hDash]
      · cases h

theorem matchFraction_count (text : List Char) :
    (matchFraction text).2.count '-' = text.count '-' := by
  unfold matchFraction
  split
  · rfl
  · split
    · rename_i hPoint
      rw [count_dropWhile (by decide), hPoint.1, List.count_cons_of_ne (by decide)]
    · rfl

theorem matchSign_count (text : List Char) :
    text.count '-' ≤ (matchSign text).2.count '-' + 1 := by
  unfold matchSign
  split
  · exact Nat.zero_le _
  · split
    · rw [List.count_cons]
      dsimp only
      split <;> omega
    · exact Nat.le_succ _

theorem matchExponent_count (text : List Char) :
    text.count '-' ≤ (matchExponent text).2.count '-' + 1 := by
  unfold matchExponent
  split
  · exact Nat.zero_le _
  · rename_i ch more
    dsimp only
    split
    · rename_i hExponent
      have hDash : ch ≠ '-' := by
        rintro rfl
        exact absurd hExponent.1 (by decide)
      rw [count_dropWhile (by decide), List.count_cons_of_ne hDash]
      exact matchSign_count more
    · exact Nat.le_succ _

theorem matchUnsigned_count {minus : Bool} (h : matchUnsigned minus text = some (value, rest)) :
    text.count '-' ≤ rest.count '-' + 1 := by
  obtain ⟨⟨integer, more⟩, hInteger, hRest⟩ := Option.bind_eq_some_iff.mp h
  obtain ⟨-, rfl⟩ := Prod.mk.inj (Option.some.inj hRest)
  calc text.count '-'
      = (matchFraction more).2.count '-' := by
        rw [matchFraction_count, matchInteger_count hInteger]
    _ ≤ _ := matchExponent_count _

/-- A number has a dash in front, and one in the exponent. -/
theorem matchNumber_count (h : matchNumber text = some (value, rest)) :
    text.count '-' ≤ rest.count '-' + 2 := by
  unfold matchNumber at h
  split at h
  · cases h
  · split at h
    · rename_i hDash
      have hCount := matchUnsigned_count h
      rw [hDash, List.count_cons_self]
      omega
    · exact Nat.le_succ_of_le (matchUnsigned_count h)

theorem scanScalar_count (h : scanScalar text = some (value, rest)) :
    text.count '-' ≤ rest.count '-' + 2 := by
  unfold scanScalar at h
  split at h
  · rename_i name constant hFound
    obtain ⟨-, rfl⟩ := Prod.mk.inj (Option.some.inj h)
    have hIs := List.find?_some hFound
    have hPrefix : name <+: text := List.isPrefixOf_iff_prefix.mp hIs
    have hName : name.count '-' ≤ 1 :=
      (by decide : ∀ c ∈ constants.map Prod.fst, c.count '-' ≤ 1) name
        (List.mem_map_of_mem (List.mem_of_find?_eq_some hFound))
    have hSplit : text = name ++ text.drop name.length := (List.prefix_iff_eq_append.mp hPrefix).symm
    calc text.count '-'
        = name.count '-' + (text.drop name.length).count '-' := by
          rw [← List.count_append, ← hSplit]
      _ ≤ (text.drop name.length).count '-' + 2 := by omega
  · exact matchNumber_count h

/-- A text with three dashes is no document, unless a string or something nested comes first. -/
theorem loads_of_dashes {text : String}
    (hFirst : ∀ ch ∈ (skipSpaces text.toList).head?, ch ≠ '"' ∧ ch ≠ '{' ∧ ch ≠ '[')
    (hDashes : 3 ≤ text.toList.count '-') : loads text = none := by
  cases hLoads : loads text with
  | none => rfl
  | some value =>
    obtain ⟨-, fuel, rest, hScan, hEnd⟩ := loads_eq_some_iff.mp hLoads
    have hScalar : scanScalar (skipSpaces text.toList) = some (value, rest) := by
      cases fuel with
      | zero => cases hScan
      | succ fuel =>
        cases hText : skipSpaces text.toList with
        | nil =>
          rw [hText, scanValue] at hScan
          cases hScan
        | cons ch more =>
          obtain ⟨hQuote, hBrace, hBracket⟩ := hFirst ch (by rw [hText]; rfl)
          rwa [hText, scanValue, if_neg hQuote, if_neg hBrace, if_neg hBracket] at hScan
    have hCount : text.toList.count '-' ≤ (skipSpaces rest).count '-' + 2 := by
      have hScanned := scanScalar_count hScalar
      rwa [skipSpaces, count_dropWhile (by decide), ← count_dropWhile (p := isSpace) (by decide)
        rest] at hScanned
    rw [hEnd, List.count_nil] at hCount
    omega

end Dashes

/-! ### Strings -/

section Strings

/-- A character of a string that stands for itself. -/
def Plain (ch : Char) : Prop := (32 ≤ ch.toNat ∧ ch.toNat < 127) ∧ ch ≠ '"' ∧ ch ≠ '\\'

instance (ch : Char) : Decidable (Plain ch) :=
  inferInstanceAs (Decidable ((32 ≤ ch.toNat ∧ ch.toNat < 127) ∧ ch ≠ '"' ∧ ch ≠ '\\'))

variable {text rest : List Char} {ch : Char}

theorem plain_of_all (h : (text.all fun ch => decide (Plain ch)) = true) : ∀ ch ∈ text, Plain ch :=
  fun ch hMem => of_decide_eq_true (List.all_eq_true.mp h ch hMem)

theorem encodeCode_plain (h : Plain ch) : encodeCode ch.toNat = [ch] := by
  obtain ⟨hPrintable, hQuote, hBackslash⟩ := h
  have hQuote : ch.toNat ≠ 34 := fun hSame => hQuote (Char.toNat_inj.mp hSame)
  have hBackslash : ch.toNat ≠ 92 := fun hSame => hBackslash (Char.toNat_inj.mp hSame)
  rw [encodeCode, if_neg hQuote, if_neg hBackslash, if_pos hPrintable, Char.ofNat_toNat]

theorem encodeString_plain (h : ∀ ch ∈ text, Plain ch) :
    encodeString (codePoints text) = '"' :: (text ++ ['"']) := by
  have hSelf : (codePoints text).flatMap encodeCode = text := by
    rw [codePoints, List.flatMap_map]
    induction text with
    | nil => rfl
    | cons ch rest ih =>
      rw [List.forall_mem_cons] at h
      rw [List.flatMap_cons, encodeCode_plain h.1, ih h.2]
      rfl
  rw [encodeString, hSelf]

theorem scanString_plain (h : ∀ ch ∈ text, Plain ch) :
    scanString (text ++ '"' :: rest) = some (codePoints text, rest) := by
  induction text with
  | nil => rfl
  | cons ch more ih =>
    rw [List.forall_mem_cons] at h
    obtain ⟨⟨hPrintable, hQuote, hBackslash⟩, hMore⟩ := h
    rw [List.cons_append, scanString, if_neg (Nat.not_lt_of_le hPrintable.1), ih hMore]
    · rfl
    · exact hQuote
    · intro _ _ _ _ _ hSame
      exact absurd hSame hBackslash
    · intro _ _ hSame
      exact absurd hSame hBackslash

/-- The characters of a text are no surrogates. -/
theorem joinSurrogates_codePoints (text : List Char) :
    joinSurrogates (codePoints text) = codePoints text := by
  induction text with
  | nil => rfl
  | cons ch rest ih =>
    cases rest with
    | nil => rfl
    | cons ch' rest =>
      have hValid : ¬((0xD800 ≤ ch.toNat ∧ ch.toNat < 0xDC00) ∧
          0xDC00 ≤ ch'.toNat ∧ ch'.toNat < 0xE000) := by
        have hScalar := ch.valid
        simp only [UInt32.isValidChar, Nat.isValidChar] at hScalar
        have hNat : ch.val.toNat = ch.toNat := rfl
        omega
      rw [codePoints, List.map_cons, List.map_cons, joinSurrogates, if_neg hValid]
      exact congrArg _ ih

end Strings

/-! ### Reading what was written -/

section RoundTrip

/-- The text, whatever comes after it, is read as a value. -/
structure Reads (text : List Char) (value : Value) : Prop where
  starts : ∀ ch ∈ text.head?, isSpace ch = false ∧ ch.toNat < 128
  scans : ∀ fuel rest, text.length ≤ fuel → scanValue fuel (text ++ rest) = some (value, rest)

/-- The key of a field stands for itself, and its value is read from its text. -/
def ReadsField (text : List Nat × List Char) (field : List Nat × Value) : Prop :=
  (∃ key, (∀ ch ∈ key, Plain ch) ∧ text.1 = codePoints key ∧ field.1 = codePoints key) ∧
    Reads text.2 field.2

variable {text rest key : List Char} {value : Value} {fuel : Nat}
  {texts : List (List Nat × List Char)} {fields : List (List Nat × Value)}

theorem Reads.skipSpaces_append (h : Reads text value) (rest : List Char)
    (hRest : ∀ ch ∈ rest.head?, isSpace ch = false) :
    skipSpaces (text ++ rest) = text ++ rest := by
  cases text with
  | nil =>
    cases rest with
    | nil => rfl
    | cons ch rest => exact List.dropWhile_cons_of_neg (by simp [hRest ch rfl])
  | cons ch text => exact List.dropWhile_cons_of_neg (by simp [(h.starts ch rfl).1])

theorem reads_string (h : ∀ ch ∈ text, Plain ch) :
    Reads (encodeString (codePoints text)) (.str (codePoints text)) where
  starts := by
    rw [encodeString]
    rintro ch ⟨⟩
    decide
  scans fuel rest hFuel := by
    rw [encodeString_plain h] at hFuel ⊢
    obtain ⟨k, rfl⟩ := Nat.exists_eq_add_of_le' (Nat.le_trans (Nat.succ_pos _) hFuel)
    rw [List.cons_append, List.append_assoc, List.singleton_append, scanValue, if_pos rfl,
      scanString_plain h]
    simp only [Option.bind_eq_bind, Option.bind_some, joinSurrogates_codePoints]
    rfl

theorem reads_true : Reads "true".toList (.bool true) where
  starts := by
    rintro ch ⟨⟩
    decide
  scans fuel rest hFuel := by
    obtain ⟨k, rfl⟩ := Nat.exists_eq_add_of_le' (Nat.le_trans (Nat.succ_pos 3) hFuel)
    rfl

theorem encodeFields_head (h : texts ≠ []) : ∃ rest, encodeFields texts = '"' :: rest := by
  match texts with
  | [(key, value)] => exact ⟨_, rfl⟩
  | (key, value) :: field :: more => exact ⟨_, rfl⟩

theorem scanFields_last (rest : List Char) (hKey : ∀ ch ∈ key, Plain ch) (h : Reads text value)
    (hFuel : text.length ≤ fuel) :
    scanFields (fuel + 1) ('"' :: (key ++ '"' :: ':' :: ' ' :: (text ++ '}' :: rest))) =
      some ([(codePoints key, value)], rest) := by
  have hColon : skipSpaces (':' :: ' ' :: (text ++ '}' :: rest)) =
      ':' :: ' ' :: (text ++ '}' :: rest) := rfl
  have hSpaces : skipSpaces (' ' :: (text ++ '}' :: rest)) = text ++ '}' :: rest :=
    h.skipSpaces_append _ (by rintro ch ⟨⟩; decide)
  have hBrace : skipSpaces ('}' :: rest) = '}' :: rest := rfl
  rw [scanFields, scanString_plain hKey]
  simp only [Option.bind_eq_bind, Option.bind_some, hColon, hSpaces, h.scans fuel _ hFuel, hBrace,
    joinSurrogates_codePoints]
  rfl

theorem scanFields_cons {more : List Char} (hKey : ∀ ch ∈ key, Plain ch) (h : Reads text value)
    (hFuel : text.length ≤ fuel) (hMore : scanFields fuel (skipSpaces more) = some (fields, rest)) :
    scanFields (fuel + 1) ('"' :: (key ++ '"' :: ':' :: ' ' :: (text ++ ',' :: more))) =
      some ((codePoints key, value) :: fields, rest) := by
  have hColon : skipSpaces (':' :: ' ' :: (text ++ ',' :: more)) =
      ':' :: ' ' :: (text ++ ',' :: more) := rfl
  have hSpaces : skipSpaces (' ' :: (text ++ ',' :: more)) = text ++ ',' :: more :=
    h.skipSpaces_append _ (by rintro ch ⟨⟩; decide)
  have hComma : skipSpaces (',' :: more) = ',' :: more := rfl
  rw [scanFields, scanString_plain hKey]
  simp only [Option.bind_eq_bind, Option.bind_some, hColon, hSpaces, h.scans fuel _ hFuel, hComma,
    hMore, joinSurrogates_codePoints]
  rfl

theorem scanFields_encode (h : List.Forall₂ ReadsField texts fields) (hNe : texts ≠ []) (fuel : Nat)
    (rest : List Char) (hFuel : (encodeFields texts).length ≤ fuel) :
    scanFields fuel (encodeFields texts ++ rest) = some (fields, rest) := by
  induction h generalizing fuel with
  | nil => exact absurd rfl hNe
  | @cons text field texts fields hField hFields ih =>
    obtain ⟨keyText, valueText⟩ := text
    obtain ⟨_, value⟩ := field
    obtain ⟨⟨key, hKey, rfl, rfl⟩, hReads⟩ := hField
    cases hFields with
    | nil =>
      rw [encodeFields, encodeString_plain hKey] at hFuel ⊢
      simp only [List.length_append, List.length_cons] at hFuel
      obtain ⟨k, rfl⟩ := Nat.exists_eq_add_of_le' (m := 1) (n := fuel) (by omega)
      have hValue : valueText.length ≤ k := by omega
      simpa using scanFields_last rest hKey hReads hValue
    | @cons next field' texts fields hNext hRest =>
      rw [encodeFields, encodeString_plain hKey] at hFuel ⊢
      simp only [List.length_append, List.length_cons] at hFuel
      obtain ⟨k, rfl⟩ := Nat.exists_eq_add_of_le' (m := 1) (n := fuel) (by omega)
      obtain ⟨more, hHead⟩ := encodeFields_head (List.cons_ne_nil next texts)
      have hMore : scanFields k (skipSpaces (' ' :: (encodeFields (next :: texts) ++ rest))) =
          some (field' :: fields, rest) := by
        have hSpaces : skipSpaces (' ' :: (encodeFields (next :: texts) ++ rest)) =
            encodeFields (next :: texts) ++ rest := by
          rw [hHead]
          rfl
        rw [hSpaces]
        exact ih (List.cons_ne_nil next texts) k (by omega)
      have hValue : valueText.length ≤ k := by omega
      simpa using scanFields_cons hKey hReads hValue hMore

theorem reads_object (h : List.Forall₂ ReadsField texts fields) (hNe : texts ≠ []) :
    Reads (encodeObject texts) (.obj fields) where
  starts := by
    rintro ch ⟨⟩
    decide
  scans fuel rest hFuel := by
    obtain ⟨more, hHead⟩ := encodeFields_head hNe
    have hSpaces : skipSpaces (encodeFields texts ++ rest) = encodeFields texts ++ rest := by
      rw [hHead]
      rfl
    have hBrace : (encodeFields texts ++ rest).head? ≠ some '}' := by
      rw [hHead]
      exact fun hSame => absurd (Option.some.inj hSame) (by decide)
    rw [encodeObject, List.length_cons] at hFuel
    obtain ⟨k, rfl⟩ := Nat.exists_eq_add_of_le' (Nat.le_trans (Nat.succ_pos _) hFuel)
    rw [encodeObject, List.cons_append, scanValue, if_neg (by decide), if_pos rfl, hSpaces,
      if_neg hBrace, scanFields_encode h hNe k rest (Nat.le_of_succ_le_succ hFuel)]
    rfl

theorem loads_of_reads (h : Reads text value) : loads (.ofList text) = some value := by
  have hBom : text.head? ≠ some (Char.ofNat 0xFEFF) := fun hHead =>
    absurd (h.starts _ hHead).2 (by decide)
  have hSpaces : skipSpaces text = text := by
    have hAppend := h.skipSpaces_append [] fun _ hNone => by cases hNone
    rwa [List.append_nil] at hAppend
  have hScan := h.scans text.length [] (Nat.le_refl _)
  rw [List.append_nil] at hScan
  refine loads_eq_some_iff.mpr ?_
  rw [String.toList_ofList, hSpaces]
  exact ⟨hBom, _, [], hScan, rfl⟩

end RoundTrip

end WxcodeAdm.Lib.JsonText
