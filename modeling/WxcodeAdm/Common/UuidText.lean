import Mathlib.Data.List.DropRight
import WxcodeAdm.Lib.Numeral
import WxcodeAdm.Schema

/-! The texts of UUIDs: `str`, and `uuid.UUID` of a text. -/

namespace WxcodeAdm

open Lib

/-! ### `str` -/

/-- `hex[:8]-hex[8:12]-hex[12:16]-hex[16:20]-hex[20:]` -/
def dashed (hex : List Char) : List Char :=
  hex.take 8 ++ '-' :: ((hex.drop 8).take 4 ++ '-' :: ((hex.drop 12).take 4 ++ '-' ::
    ((hex.drop 16).take 4 ++ '-' :: hex.drop 20)))

/-- `'%032x' % self.int` -/
def Uuid.hex (u : Uuid) : List Char := padded 16 32 u.toNat

def Uuid.text (u : Uuid) : String := .ofList (dashed u.hex)

/-! ### `uuid.UUID` -/

/-- What is left open of the interpreter: the spaces and the decimal digits beyond ASCII, and which
literals of floats are zero. -/
structure Interpreter where
  isSpace : Char → Bool
  decimal : Char → Option Nat
  isZero : List Char → Bool

/-- `text.replace(pattern, "")`, in the middle of an occurrence of which `skip` characters are left. -/
def removeText (pattern : List Char) : Nat → List Char → List Char
  | _, [] => []
  | skip + 1, _ :: rest => removeText pattern skip rest
  | 0, ch :: rest =>
    if pattern.isPrefixOf (ch :: rest) then removeText pattern (pattern.length - 1) rest
    else ch :: removeText pattern 0 rest

/-- `text.strip(..)` of the characters that satisfy a condition. -/
def stripText (p : Char → Bool) (text : List Char) : List Char := (text.dropWhile p).rdropWhile p

/-- The digits of a number, between which single underscores may stand. -/
def readDigits (value : Nat) (afterDigit : Bool) : List Char → Option Nat
  | [] => if afterDigit then some value else none
  | ch :: rest =>
    if ch = '_' then if afterDigit then readDigits value false rest else none
    else match hexValue ch with
      | some digit => readDigits (value * 16 + digit) true rest
      | none => none

def isAsciiSpace (ch : Char) : Bool :=
  ch ∈ [' ', '\t', '\n', '\r', Char.ofNat 11, Char.ofNat 12]

def toAscii (py : Interpreter) (ch : Char) : Char :=
  if ch.toNat < 127 then ch
  else if py.isSpace ch then ' '
  else match py.decimal ch with
    | some digit => Nat.digitChar digit
    | none => '?'

/-- `0x` and an underscore after it, which a number in base 16 may begin with. -/
def dropHexPrefix : List Char → List Char
  | '0' :: 'x' :: '_' :: rest | '0' :: 'X' :: '_' :: rest => rest
  | '0' :: 'x' :: rest | '0' :: 'X' :: rest => rest
  | text => text

def dropPlus : List Char → List Char
  | '+' :: rest => rest
  | text => text

/-- `int(text, 16)` of a text without `-`. -/
def intBase16 (py : Interpreter) (text : List Char) : Option Nat :=
  readDigits 0 false
    (dropHexPrefix (dropPlus (stripText isAsciiSpace (text.map (toAscii py)))))

/-- `uuid.UUID(text)`, which raises `ValueError` for `none`. -/
def uuidOfText (py : Interpreter) (text : String) : Option Uuid :=
  let urn := removeText "uuid:".toList 0 (removeText "urn:".toList 0 text.toList)
  let hex := (stripText (· ∈ ['{', '}']) urn).filter (· ≠ '-')
  if hex.length = 32 then (intBase16 py hex).map Uuid.mk else none

/-! ### The round trip -/

variable {u : Uuid} {ch : Char} {text rest : List Char} {p : Char → Bool} {py : Interpreter}

theorem Uuid.length_hex (u : Uuid) : u.hex.length = 32 := length_padded 16 32 u.toNat

theorem Uuid.mem_hex (h : ch ∈ u.hex) : ∃ v < 16, ch = Nat.digitChar v :=
  mem_padded (by decide) h

theorem mem_dashed {hex : List Char} (h : ch ∈ dashed hex) : ch ∈ hex ∨ ch = '-' := by
  simp only [dashed, List.mem_append, List.mem_cons] at h
  rcases h with h | h | h | h | h | h | h | h | h
  · exact .inl (List.mem_of_mem_take h)
  · exact .inr h
  · exact .inl (List.mem_of_mem_drop (List.mem_of_mem_take h))
  · exact .inr h
  · exact .inl (List.mem_of_mem_drop (List.mem_of_mem_take h))
  · exact .inr h
  · exact .inl (List.mem_of_mem_drop (List.mem_of_mem_take h))
  · exact .inr h
  · exact .inl (List.mem_of_mem_drop h)

theorem Uuid.toList_text (u : Uuid) : u.text.toList = dashed u.hex := String.toList_ofList

/-- A condition on the characters of a text, checked on the digits and the dash. -/
theorem Uuid.forall_mem_text {P : Char → Prop} (hDigits : ∀ v < 16, P (Nat.digitChar v))
    (hDash : P '-') : ∀ ch ∈ dashed u.hex, P ch := by
  intro ch h
  rcases mem_dashed h with h | rfl
  · obtain ⟨v, hv, rfl⟩ := u.mem_hex h
    exact hDigits v hv
  · exact hDash

theorem filter_dashed {hex : List Char} (h : '-' ∉ hex) :
    (dashed hex).filter (· ≠ '-') = hex := by
  have hKeep : hex.filter (· ≠ '-') = hex :=
    List.filter_eq_self.mpr fun ch hMem => decide_eq_true fun hDash => h (hDash ▸ hMem)
  calc (dashed hex).filter (· ≠ '-')
      = (hex.take 8 ++ ((hex.drop 8).take 4 ++ ((hex.drop 12).take 4 ++
          ((hex.drop 16).take 4 ++ hex.drop 20)))).filter (· ≠ '-') := by
        simp [dashed, List.filter_append]
    _ = hex.filter (· ≠ '-') := by
        congr 1
        have hStep (k : Nat) : (hex.drop k).take 4 ++ hex.drop (k + 4) = hex.drop k := by
          rw [← List.drop_drop, List.take_append_drop]
        rw [hStep 16, hStep 12, hStep 8, List.take_append_drop]
    _ = hex := hKeep

theorem removeText_eq_self {c : Char} {pattern : List Char} (h : c ∉ text) :
    removeText (c :: pattern) 0 text = text := by
  induction text with
  | nil => rfl
  | cons ch rest ih =>
    rw [List.mem_cons, not_or] at h
    have hFirst : (c :: pattern).isPrefixOf (ch :: rest) = false := by
      rw [List.isPrefixOf, beq_false_of_ne h.1, Bool.false_and]
    rw [removeText, hFirst, ih h.2]
    rfl

theorem stripText_eq_self (h : ∀ ch ∈ text, p ch = false) : stripText p text = text := by
  have hLeft : text.dropWhile p = text :=
    List.dropWhile_eq_self_iff.mpr fun hPos => by simp [h _ (List.getElem_mem hPos)]
  rw [stripText, hLeft, List.rdropWhile_eq_self_iff]
  exact fun hNe => by simp [h _ (List.getLast_mem hNe)]

theorem readDigits_padded (width n value : Nat) (afterDigit : Bool) (rest : List Char) :
    readDigits value afterDigit (padded 16 width n ++ rest) =
      readDigits (value * 16 ^ width + n % 16 ^ width) (afterDigit || decide (0 < width)) rest := by
  induction width generalizing n rest with
  | zero => simp [padded, Nat.mod_one]
  | succ width ih =>
    have hDigit : n % 16 < 16 := Nat.mod_lt n (by decide)
    have hDash : ∀ v < 16, Nat.digitChar v ≠ '_' := by decide
    have hValue : (value * 16 ^ width + n / 16 % 16 ^ width) * 16 + n % 16 =
        value * 16 ^ (width + 1) + n % 16 ^ (width + 1) := by
      rw [Nat.pow_succ, Nat.mul_comm (16 ^ width) 16, Nat.mod_mul, Nat.mul_left_comm value 16]
      omega
    rw [padded, List.append_assoc, ih, List.singleton_append, readDigits, if_neg (hDash _ hDigit),
      hexValue_digitChar _ hDigit]
    simp only [hValue, Nat.zero_lt_succ, decide_true, Bool.or_true]

theorem dropHexPrefix_eq_self (h : 'x' ∉ text ∧ 'X' ∉ text) : dropHexPrefix text = text := by
  unfold dropHexPrefix
  split <;> simp_all

theorem dropPlus_eq_self (h : '+' ∉ text) : dropPlus text = text := by
  unfold dropPlus
  split <;> simp_all

theorem intBase16_hex (h : u.toNat < 2 ^ 128) : intBase16 py u.hex = some u.toNat := by
  have hDigits {P : Char → Prop} (hAll : ∀ v < 16, P (Nat.digitChar v)) :
      ∀ ch ∈ u.hex, P ch := by
    intro ch hMem
    obtain ⟨v, hv, rfl⟩ := u.mem_hex hMem
    exact hAll v hv
  have hAscii : u.hex.map (toAscii py) = u.hex := by
    refine (List.map_congr_left fun ch hMem => ?_).trans (List.map_id _)
    exact if_pos (hDigits (P := fun ch => ch.toNat < 127) (by decide) ch hMem)
  have hPlus : '+' ∉ u.hex := fun hMem => hDigits (P := (· ≠ '+')) (by decide) _ hMem rfl
  have hx : 'x' ∉ u.hex := fun hMem => hDigits (P := (· ≠ 'x')) (by decide) _ hMem rfl
  have hX : 'X' ∉ u.hex := fun hMem => hDigits (P := (· ≠ 'X')) (by decide) _ hMem rfl
  rw [intBase16, hAscii, stripText_eq_self (hDigits (by decide)), dropPlus_eq_self hPlus,
    dropHexPrefix_eq_self ⟨hx, hX⟩, Uuid.hex, ← List.append_nil (padded _ _ _), readDigits_padded]
  have hFits : u.toNat % 16 ^ 32 = u.toNat := Nat.mod_eq_of_lt (by omega)
  rw [Nat.zero_mul, Nat.zero_add, hFits]
  rfl

/-- The text of a UUID is read as that UUID. -/
theorem uuidOfText_text (h : u.toNat < 2 ^ 128) : uuidOfText py u.text = some u := by
  have hNotMem {c : Char} (hDigits : ∀ v < 16, Nat.digitChar v ≠ c) (hDash : '-' ≠ c) :
      c ∉ dashed u.hex :=
    fun hMem => Uuid.forall_mem_text (P := (· ≠ c)) hDigits hDash c hMem rfl
  have hUrn : removeText "urn:".toList 0 (dashed u.hex) = dashed u.hex :=
    removeText_eq_self (hNotMem (by decide) (by decide))
  have hUuid : removeText "uuid:".toList 0 (dashed u.hex) = dashed u.hex :=
    removeText_eq_self (hNotMem (by decide) (by decide))
  have hBraces : stripText (· ∈ ['{', '}']) (dashed u.hex) = dashed u.hex :=
    stripText_eq_self (Uuid.forall_mem_text (by decide) (by decide))
  have hHex : (dashed u.hex).filter (· ≠ '-') = u.hex := by
    refine filter_dashed fun hMem => ?_
    obtain ⟨v, hv, hDash⟩ := u.mem_hex hMem
    exact absurd hDash.symm ((by decide : ∀ v < 16, Nat.digitChar v ≠ '-') v hv)
  rw [uuidOfText, u.toList_text, hUrn, hUuid, hBraces, hHex,
    if_pos u.length_hex, intBase16_hex h]
  rfl

end WxcodeAdm
