import Mathlib.Data.List.TakeWhile
import WxcodeAdm.Lib.Numeral

/-! The texts of JSON documents, as the `json` module of Python reads and writes them, short of its
limits on the depth of a document and on the digits of an integer. -/

namespace WxcodeAdm.Lib.JsonText

/-- What `json.loads` returns.  A `str` is a list of code points, which may be lone surrogates.  A
float is kept as its literal, and a dictionary as the fields that were read. -/
inductive Value where
  | null
  | bool (b : Bool)
  | int (n : Int)
  | float (literal : List Char)
  | str (codePoints : List Nat)
  | arr (items : List Value)
  | obj (fields : List (List Nat × Value))

def codePoints (text : List Char) : List Nat := text.map Char.toNat

/-- The value of a key, which is the last one that was read. -/
def field (key : String) (fields : List (List Nat × Value)) : Option Value :=
  fields.reverse.lookup (codePoints key.toList)

/-! ### Reading -/

def isSpace (ch : Char) : Bool := ch ∈ [' ', '\t', '\n', '\r']

def skipSpaces (text : List Char) : List Char := text.dropWhile isSpace

/-- The characters after a backslash, other than those of `\uXXXX`. -/
def escaped : Char → Option Nat
  | '"' => some 34
  | '\\' => some 92
  | '/' => some 47
  | 'b' => some 8
  | 'f' => some 12
  | 'n' => some 10
  | 'r' => some 13
  | 't' => some 9
  | _ => none

def hex4 (a b c d : Char) : Option Nat := do
  return (((← hexValue a) * 16 + (← hexValue b)) * 16 + (← hexValue c)) * 16 + (← hexValue d)

/-- A string after its first quote, up to the last one. -/
def scanString : List Char → Option (List Nat × List Char)
  | [] => none
  | '"' :: rest => some ([], rest)
  | '\\' :: 'u' :: a :: b :: c :: d :: rest => do
    let code ← hex4 a b c d
    let (codes, rest) ← scanString rest
    return (code :: codes, rest)
  | '\\' :: ch :: rest => do
    let code ← escaped ch
    let (codes, rest) ← scanString rest
    return (code :: codes, rest)
  | ch :: rest =>
    if ch.toNat < 32 then none
    else do
      let (codes, rest) ← scanString rest
      return (ch.toNat :: codes, rest)

/-- Surrogates in pairs become one code point.  Only escapes make surrogates. -/
def joinSurrogates : List Nat → List Nat
  | [] => []
  | [code] => [code]
  | high :: low :: rest =>
    if (0xD800 ≤ high ∧ high < 0xDC00) ∧ 0xDC00 ≤ low ∧ low < 0xE000 then
      (0x10000 + (high - 0xD800) * 0x400 + (low - 0xDC00)) :: joinSurrogates rest
    else high :: joinSurrogates (low :: rest)

def isDigit (ch : Char) : Bool := '0' ≤ ch ∧ ch ≤ '9'

def natOfDigits (digits : List Char) : Nat :=
  digits.foldl (fun n ch => n * 10 + (ch.toNat - '0'.toNat)) 0

/-- `0|[1-9]\d*`, with what is left. -/
def matchInteger : List Char → Option (List Char × List Char)
  | [] => none
  | ch :: rest =>
    if ch = '0' then some (['0'], rest)
    else if isDigit ch then some (ch :: rest.takeWhile isDigit, rest.dropWhile isDigit)
    else none

/-- `(\.\d+)?` -/
def matchFraction : List Char → List Char × List Char
  | [] => ([], [])
  | ch :: rest =>
    if ch = '.' ∧ rest.takeWhile isDigit ≠ [] then
      ('.' :: rest.takeWhile isDigit, rest.dropWhile isDigit)
    else ([], ch :: rest)

/-- `[-+]?` -/
def matchSign : List Char → List Char × List Char
  | [] => ([], [])
  | ch :: rest => if ch = '+' ∨ ch = '-' then ([ch], rest) else ([], ch :: rest)

/-- `([eE][-+]?\d+)?` -/
def matchExponent : List Char → List Char × List Char
  | [] => ([], [])
  | ch :: rest =>
    let (sign, digits) := matchSign rest
    if (ch = 'e' ∨ ch = 'E') ∧ digits.takeWhile isDigit ≠ [] then
      (ch :: (sign ++ digits.takeWhile isDigit), digits.dropWhile isDigit)
    else ([], ch :: rest)

/-- A number without its minus. -/
def matchUnsigned (minus : Bool) (text : List Char) : Option (Value × List Char) := do
  let (integer, rest) ← matchInteger text
  let (fraction, rest) := matchFraction rest
  let (exponent, rest) := matchExponent rest
  let value :=
    if fraction = [] ∧ exponent = [] then
      Value.int (if minus then -(natOfDigits integer : Int) else natOfDigits integer)
    else .float ((if minus then ['-'] else []) ++ integer ++ fraction ++ exponent)
  return (value, rest)

def matchNumber : List Char → Option (Value × List Char)
  | [] => none
  | ch :: rest => if ch = '-' then matchUnsigned true rest else matchUnsigned false (ch :: rest)

/-- The constants, those of floats among them. -/
def constants : List (List Char × Value) :=
  [("null".toList, .null), ("true".toList, .bool true), ("false".toList, .bool false),
    ("NaN".toList, .float "NaN".toList), ("Infinity".toList, .float "Infinity".toList),
    ("-Infinity".toList, .float "-Infinity".toList)]

def scanScalar (text : List Char) : Option (Value × List Char) :=
  match constants.find? fun c => c.1.isPrefixOf text with
  | some (name, value) => some (value, text.drop name.length)
  | none => matchNumber text

mutual

/-- `scan_once`.  The length of a text is `fuel` enough for it, by `loads_eq_some_iff`. -/
def scanValue : Nat → List Char → Option (Value × List Char)
  | 0, _ => none
  | _ + 1, [] => none
  | fuel + 1, ch :: rest =>
    if ch = '"' then do
      let (codes, rest) ← scanString rest
      return (.str (joinSurrogates codes), rest)
    else if ch = '{' then
      if (skipSpaces rest).head? = some '}' then some (.obj [], (skipSpaces rest).tail)
      else do
        let (fields, rest) ← scanFields fuel (skipSpaces rest)
        return (.obj fields, rest)
    else if ch = '[' then
      if (skipSpaces rest).head? = some ']' then some (.arr [], (skipSpaces rest).tail)
      else do
        let (items, rest) ← scanItems fuel (skipSpaces rest)
        return (.arr items, rest)
    else scanScalar (ch :: rest)

/-- The fields of an object, and its brace. -/
def scanFields : Nat → List Char → Option (List (List Nat × Value) × List Char)
  | fuel + 1, '"' :: text => do
    let (codes, text) ← scanString text
    match skipSpaces text with
    | ':' :: text =>
      let (value, text) ← scanValue fuel (skipSpaces text)
      match skipSpaces text with
      | '}' :: rest => return ([(joinSurrogates codes, value)], rest)
      | ',' :: text =>
        let (fields, rest) ← scanFields fuel (skipSpaces text)
        return ((joinSurrogates codes, value) :: fields, rest)
      | _ => none
    | _ => none
  | _, _ => none

/-- The items of an array, and its bracket. -/
def scanItems : Nat → List Char → Option (List Value × List Char)
  | 0, _ => none
  | fuel + 1, text => do
    let (value, text) ← scanValue fuel text
    match skipSpaces text with
    | ']' :: rest => return ([value], rest)
    | ',' :: text =>
      let (items, rest) ← scanItems fuel (skipSpaces text)
      return (value :: items, rest)
    | _ => none

end

/-- `json.loads`, which raises `JSONDecodeError` for `none`. -/
def loads (text : String) : Option Value :=
  if text.toList.head? = some (Char.ofNat 0xFEFF) then none
  else do
    let (value, rest) ← scanValue (text.length + 1) (skipSpaces text.toList)
    if skipSpaces rest = [] then some value else none

/-! ### Writing -/

def unicodeEscape (code : Nat) : List Char := '\\' :: 'u' :: padded 16 4 code

/-- A code point in a string, in ASCII. -/
def encodeCode (code : Nat) : List Char :=
  if code = 34 then ['\\', '"']
  else if code = 92 then ['\\', '\\']
  else if 32 ≤ code ∧ code < 127 then [Char.ofNat code]
  else if code = 10 then ['\\', 'n']
  else if code = 13 then ['\\', 'r']
  else if code = 9 then ['\\', 't']
  else if code = 12 then ['\\', 'f']
  else if code = 8 then ['\\', 'b']
  else if code < 0x10000 then unicodeEscape code
  else unicodeEscape (0xD800 + (code - 0x10000) / 0x400) ++
    unicodeEscape (0xDC00 + (code - 0x10000) % 0x400)

def encodeString (codes : List Nat) : List Char := '"' :: (codes.flatMap encodeCode ++ ['"'])

/-- The fields of an object and its brace, given the texts of the values. -/
def encodeFields : List (List Nat × List Char) → List Char
  | [] => ['}']
  | [(key, value)] => encodeString key ++ ':' :: ' ' :: (value ++ ['}'])
  | (key, value) :: field :: more =>
    encodeString key ++ ':' :: ' ' :: (value ++ ',' :: ' ' :: encodeFields (field :: more))

def encodeObject (fields : List (List Nat × List Char)) : List Char := '{' :: encodeFields fields

/-! ### Fuel -/

section Fuel

variable {α : Type} {text rest name : List Char} {codes : List Nat} {value : Value} {fuel : Nat}

theorem length_skipSpaces_le (text : List Char) : (skipSpaces text).length ≤ text.length :=
  List.length_dropWhile_le _ text

theorem scan_of_bind {β : Type} {scan : Option (α × List Char)} {f : α × List Char → β} {b : β}
    (h : (scan >>= fun found => some (f found, found.2)) = some (b, rest)) :
    ∃ a, scan = some (a, rest) ∧ b = f (a, rest) := by
  obtain ⟨⟨a, more⟩, hScan, hFound⟩ := Option.bind_eq_some_iff.mp h
  cases hFound
  exact ⟨a, hScan, rfl⟩

theorem scanString_length (h : scanString text = some (codes, rest)) :
    rest.length < text.length := by
  induction text using scanString.induct generalizing codes with
  | case1 => cases h
  | case2 more =>
    cases h
    exact Nat.lt_succ_self _
  | case3 a b c d more ih =>
    obtain ⟨code, -, hMore⟩ := Option.bind_eq_some_iff.mp h
    obtain ⟨codes', hScan, -⟩ := scan_of_bind hMore
    have hShorter := ih hScan
    simp only [List.length_cons]
    omega
  | case4 ch more hUnicode ih =>
    rw [scanString] at h
    · obtain ⟨code, -, hMore⟩ := Option.bind_eq_some_iff.mp h
      obtain ⟨codes', hScan, -⟩ := scan_of_bind hMore
      have hShorter := ih hScan
      simp only [List.length_cons]
      omega
    · exact hUnicode
  | case5 ch more hQuote hUnicode hEscape hControl =>
    rw [scanString, if_pos hControl] at h
    · cases h
    all_goals assumption
  | case6 ch more hQuote hUnicode hEscape hControl ih =>
    rw [scanString, if_neg hControl] at h
    · obtain ⟨codes', hScan, -⟩ := scan_of_bind h
      exact Nat.lt_succ_of_lt (ih hScan)
    all_goals assumption

theorem matchInteger_length (h : matchInteger text = some (name, rest)) :
    rest.length ≤ text.length := by
  unfold matchInteger at h
  split at h
  · cases h
  · rename_i ch more
    split at h
    · cases h
      exact Nat.le_succ _
    · split at h
      · cases h
        exact Nat.le_succ_of_le (List.length_dropWhile_le _ more)
      · cases h

theorem matchFraction_length (text : List Char) :
    (matchFraction text).2.length ≤ text.length := by
  unfold matchFraction
  split
  · exact Nat.le_refl _
  · split
    · exact Nat.le_succ_of_le (List.length_dropWhile_le _ _)
    · exact Nat.le_refl _

theorem matchSign_length (text : List Char) : (matchSign text).2.length ≤ text.length := by
  unfold matchSign
  split
  · exact Nat.le_refl _
  · split
    · exact Nat.le_succ _
    · exact Nat.le_refl _

theorem matchExponent_length (text : List Char) :
    (matchExponent text).2.length ≤ text.length := by
  unfold matchExponent
  split
  · exact Nat.le_refl _
  · rename_i ch more
    dsimp only
    split
    · calc ((matchSign more).2.dropWhile isDigit).length
          ≤ (matchSign more).2.length := List.length_dropWhile_le _ _
        _ ≤ more.length := matchSign_length more
        _ ≤ more.length + 1 := Nat.le_succ _
    · exact Nat.le_refl _

theorem matchUnsigned_length {minus : Bool} (h : matchUnsigned minus text = some (value, rest)) :
    rest.length ≤ text.length := by
  obtain ⟨⟨integer, more⟩, hInteger, hRest⟩ := Option.bind_eq_some_iff.mp h
  obtain ⟨-, rfl⟩ := Prod.mk.inj (Option.some.inj hRest)
  calc (matchExponent (matchFraction more).2).2.length
      ≤ (matchFraction more).2.length := matchExponent_length _
    _ ≤ more.length := matchFraction_length more
    _ ≤ text.length := matchInteger_length hInteger

theorem matchNumber_length (h : matchNumber text = some (value, rest)) :
    rest.length ≤ text.length := by
  unfold matchNumber at h
  split at h
  · cases h
  · split at h
    · exact Nat.le_succ_of_le (matchUnsigned_length h)
    · exact matchUnsigned_length h

theorem scanScalar_length (h : scanScalar text = some (value, rest)) :
    rest.length ≤ text.length := by
  unfold scanScalar at h
  split at h
  · obtain ⟨-, rfl⟩ := Prod.mk.inj (Option.some.inj h)
    exact (List.drop_suffix _ text).length_le
  · exact matchNumber_length h

/-- What is read with this fuel is read with any that exceeds the length of the text read. -/
def Ample (scan : Nat → List Char → Option (α × List Char)) (fuel : Nat) : Prop :=
  ∀ text a rest, scan fuel text = some (a, rest) →
    rest.length ≤ text.length ∧
      ∀ more, text.length < more + rest.length → scan more text = some (a, rest)

theorem ample_succ {scan : Nat → List Char → Option (α × List Char)}
    (h : ∀ text a rest, scan (fuel + 1) text = some (a, rest) →
      rest.length ≤ text.length ∧
        ∀ more, text.length ≤ more + rest.length → scan (more + 1) text = some (a, rest)) :
    Ample scan (fuel + 1) := by
  intro text a rest hScan
  obtain ⟨hLength, hEnough⟩ := h text a rest hScan
  refine ⟨hLength, fun more hMore => ?_⟩
  obtain ⟨k, rfl⟩ := Nat.exists_eq_add_of_le' (m := 1) (n := more) (by omega)
  exact hEnough k (by omega)

theorem ample_value (hFields : Ample scanFields fuel) (hItems : Ample scanItems fuel) :
    Ample scanValue (fuel + 1) := by
  refine ample_succ fun text value rest h => ?_
  cases text with
  | nil => cases h
  | cons ch tail =>
    have hSpaces := length_skipSpaces_le tail
    have hTail : (skipSpaces tail).tail.length ≤ tail.length + 1 := by
      rw [List.length_tail]
      omega
    rw [List.length_cons]
    by_cases hQuote : ch = '"'
    · simp only [scanValue, if_pos hQuote] at h ⊢
      obtain ⟨codes, hScan, -⟩ := scan_of_bind h
      exact ⟨Nat.le_succ_of_le (scanString_length hScan).le, fun more _ => h⟩
    by_cases hBrace : ch = '{'
    · simp only [scanValue, if_neg hQuote, if_pos hBrace] at h ⊢
      split at h
      · rename_i hEmpty
        cases h
        exact ⟨hTail, fun more _ => if_pos hEmpty⟩
      · rename_i hFull
        obtain ⟨fields, hScan, rfl⟩ := scan_of_bind h
        obtain ⟨hLength, hEnough⟩ := hFields _ _ _ hScan
        refine ⟨by omega, fun more hMore => ?_⟩
        rw [if_neg hFull, hEnough more (by omega)]
        rfl
    by_cases hBracket : ch = '['
    · simp only [scanValue, if_neg hQuote, if_neg hBrace, if_pos hBracket] at h ⊢
      split at h
      · rename_i hEmpty
        cases h
        exact ⟨hTail, fun more _ => if_pos hEmpty⟩
      · rename_i hFull
        obtain ⟨items, hScan, rfl⟩ := scan_of_bind h
        obtain ⟨hLength, hEnough⟩ := hItems _ _ _ hScan
        refine ⟨by omega, fun more hMore => ?_⟩
        rw [if_neg hFull, hEnough more (by omega)]
        rfl
    simp only [scanValue, if_neg hQuote, if_neg hBrace, if_neg hBracket] at h ⊢
    exact ⟨scanScalar_length h, fun more _ => h⟩

theorem ample_items (hValue : Ample scanValue fuel) (hItems : Ample scanItems fuel) :
    Ample scanItems (fuel + 1) := by
  refine ample_succ fun text items rest h => ?_
  rw [scanItems] at h
  obtain ⟨⟨value, tail⟩, hScan, hMore⟩ := Option.bind_eq_some_iff.mp h
  obtain ⟨hLength, hEnough⟩ := hValue _ _ _ hScan
  have hSpaces := length_skipSpaces_le tail
  dsimp only at hMore
  split at hMore
  · rename_i hBracket
    cases hMore
    rw [hBracket, List.length_cons] at hSpaces
    refine ⟨by omega, fun more hFuel => ?_⟩
    rw [scanItems, hEnough more (by omega)]
    simp only [Option.bind_eq_bind, Option.bind_some, hBracket]
    rfl
  · rename_i next hComma
    obtain ⟨others, hOthers, rfl⟩ := scan_of_bind hMore
    obtain ⟨hLength', hEnough'⟩ := hItems _ _ _ hOthers
    have hSpaces' := length_skipSpaces_le next
    rw [hComma, List.length_cons] at hSpaces
    refine ⟨by omega, fun more hFuel => ?_⟩
    rw [scanItems, hEnough more (by omega)]
    simp only [Option.bind_eq_bind, Option.bind_some, hComma, hEnough' more (by omega)]
    rfl
  · cases hMore

theorem ample_fields (hValue : Ample scanValue fuel) (hFields : Ample scanFields fuel) :
    Ample scanFields (fuel + 1) := by
  refine ample_succ fun text fields rest h => ?_
  unfold scanFields at h
  split at h
  · rename_i k text hFuel
    cases hFuel
    obtain ⟨⟨codes, colon⟩, hKey, hMore⟩ := Option.bind_eq_some_iff.mp h
    have hString := scanString_length hKey
    have hBefore := length_skipSpaces_le colon
    dsimp only at hMore
    split at hMore
    · rename_i before hColon
      obtain ⟨⟨value, tail⟩, hScan, hMore⟩ := Option.bind_eq_some_iff.mp hMore
      obtain ⟨hLength, hEnough⟩ := hValue _ _ _ hScan
      have hSpaces := length_skipSpaces_le before
      have hAfter := length_skipSpaces_le tail
      rw [hColon, List.length_cons] at hBefore
      rw [List.length_cons]
      dsimp only at hMore
      split at hMore
      · rename_i hBrace
        cases hMore
        rw [hBrace, List.length_cons] at hAfter
        refine ⟨by omega, fun more hFuel => ?_⟩
        rw [scanFields, hKey]
        simp only [Option.bind_eq_bind, Option.bind_some, hColon, hEnough more (by omega), hBrace]
        rfl
      · rename_i next hComma
        obtain ⟨others, hOthers, rfl⟩ := scan_of_bind hMore
        obtain ⟨hLength', hEnough'⟩ := hFields _ _ _ hOthers
        have hSpaces' := length_skipSpaces_le next
        rw [hComma, List.length_cons] at hAfter
        refine ⟨by omega, fun more hFuel => ?_⟩
        rw [scanFields, hKey]
        simp only [Option.bind_eq_bind, Option.bind_some, hColon, hEnough more (by omega), hComma,
          hEnough' more (by omega)]
        rfl
      · cases hMore
    · cases hMore
  · cases h

theorem ample (fuel : Nat) :
    Ample scanValue fuel ∧ Ample scanFields fuel ∧ Ample scanItems fuel := by
  induction fuel with
  | zero =>
    refine ⟨?_, ?_, ?_⟩
    · intro text value rest h
      rw [scanValue] at h
      cases h
    · intro text fields rest h
      rw [scanFields] at h
      · cases h
      · exact fun _ _ hFuel => by cases hFuel
    · intro text items rest h
      rw [scanItems] at h
      cases h
  | succ fuel ih =>
    obtain ⟨hValue, hFields, hItems⟩ := ih
    exact ⟨ample_value hFields hItems, ample_fields hValue hFields, ample_items hValue hItems⟩

/-- The fuel of `loads` is enough. -/
theorem loads_eq_some_iff {text : String} :
    loads text = some value ↔ text.toList.head? ≠ some (Char.ofNat 0xFEFF) ∧
      ∃ fuel rest, scanValue fuel (skipSpaces text.toList) = some (value, rest) ∧
        skipSpaces rest = [] := by
  unfold loads
  split
  · rename_i hBom
    exact iff_of_false nofun fun h => h.1 hBom
  · rename_i hBom
    constructor
    · intro h
      obtain ⟨⟨found, rest⟩, hScan, hRest⟩ := Option.bind_eq_some_iff.mp h
      dsimp only at hRest
      split at hRest
      · rename_i hEnd
        cases hRest
        exact ⟨hBom, _, rest, hScan, hEnd⟩
      · cases hRest
    · rintro ⟨-, fuel, rest, hScan, hEnd⟩
      have hSpaces := length_skipSpaces_le text.toList
      have hLength : text.toList.length = text.length := String.length_toList
      rw [((ample fuel).1 _ _ _ hScan).2 (text.length + 1) (by omega)]
      exact if_pos hEnd

end Fuel
end WxcodeAdm.Lib.JsonText
