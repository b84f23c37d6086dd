import Mathlib.Data.List.Basic

/-! URL-safe base64 as Python's `base64` module has it.  The decoder is lenient: it skips what is
not in the alphabet, takes `+` and `/` as well, stops at the `=` that completes a quad, and asks at
the end of the text only that no quad has been left open. -/

namespace WxcodeAdm.Lib.Base64

/-! ### The alphabet -/

def alphabet : List Char :=
  "ABCDEFGHIJKLMNOPQRSTUVWXYZabcdefghijklmnopqrstuvwxyz0123456789-_".toList

def symbol (v : Nat) : Char := alphabet.getD v '='

def value (ch : Char) : Option Nat :=
  if 'A' ≤ ch ∧ ch ≤ 'Z' then some (ch.toNat - 65)
  else if 'a' ≤ ch ∧ ch ≤ 'z' then some (ch.toNat - 71)
  else if '0' ≤ ch ∧ ch ≤ '9' then some (ch.toNat + 4)
  else if ch = '+' ∨ ch = '-' then some 62
  else if ch = '/' ∨ ch = '_' then some 63
  else none

def isData (ch : Char) : Bool := (value ch).isSome

theorem isData_ne_pad {ch : Char} (h : isData ch = true) : ch ≠ '=' := by
  rintro rfl
  exact absurd h (by decide)

theorem symbol_spec : ∀ v < 64, symbol v ≠ '=' ∧ value (symbol v) = some v := by
  decide +kernel

/-! ### Encoding -/

def encode : List UInt8 → List Char
  | [] => []
  | [a] => [symbol (a.toNat / 4), symbol (a.toNat % 4 * 16), '=', '=']
  | [a, b] =>
    [symbol (a.toNat / 4), symbol (a.toNat % 4 * 16 + b.toNat / 16), symbol (b.toNat % 16 * 4), '=']
  | a :: b :: c :: rest =>
    symbol (a.toNat / 4) :: symbol (a.toNat % 4 * 16 + b.toNat / 16) ::
      symbol (b.toNat % 16 * 4 + c.toNat / 64) :: symbol (c.toNat % 64) :: encode rest

theorem length_encode (bytes : List UInt8) :
    (encode bytes).length = 4 * ((bytes.length + 2) / 3) := by
  induction bytes using encode.induct with
  | case1 => rfl
  | case2 a => simp [encode]
  | case3 a b => simp [encode]
  | case4 a b c rest ih =>
    simp only [encode, List.length_cons, ih]
    omega

/-! ### Decoding -/

/-- The decoder between two characters: how many of the quad it has, the bits that are no byte yet,
and the padding since the last of them. -/
structure Quad where
  pos : Nat := 0
  left : Nat := 0
  pads : Nat := 0

namespace Quad

variable {q q' : Quad} {ch : Char} {xs ys : List Char} {out : List UInt8}

/-- The quad and the byte after a character with the value `v`. -/
def put (q : Quad) (v : Nat) : Quad × List UInt8 :=
  match q.pos with
  | 0 => (⟨1, v, 0⟩, [])
  | 1 => (⟨2, v % 16, 0⟩, [.ofNat (q.left * 4 + v / 16)])
  | 2 => (⟨3, v % 4, 0⟩, [.ofNat (q.left * 16 + v / 4)])
  | _ => (⟨0, 0, 0⟩, [.ofNat (q.left * 64 + v)])

/-- One character, unless the text ends with it. -/
def step (q : Quad) (ch : Char) : Option (Quad × List UInt8) :=
  if ch = '=' then
    if 2 ≤ q.pos then
      if 4 ≤ q.pos + (q.pads + 1) then none else some ({ q with pads := q.pads + 1 }, [])
    else some (q, [])
  else match value ch with
    | none => some (q, [])
    | some v => some (q.put v)

/-- A text that the decoder reads to its end, with the bytes in it. -/
def read (q : Quad) : List Char → Option (Quad × List UInt8)
  | [] => some (q, [])
  | ch :: rest => (q.step ch).bind fun p => (p.1.read rest).map fun r => (r.1, p.2 ++ r.2)

end Quad

def decodeFrom (q : Quad) : List Char → Option (List UInt8)
  | [] => if q.pos = 0 then some [] else none
  | ch :: rest =>
    match q.step ch with
    | none => some []
    | some (next, out) => (decodeFrom next rest).map (out ++ ·)

/-- `binascii.a2b_base64` after the translation of `urlsafe_b64decode`. -/
def decode (text : List Char) : Option (List UInt8) := decodeFrom {} text

/-! ### What the decoder has read -/

section Read

variable {q q' : Quad} {ch : Char} {xs ys : List Char} {out : List UInt8}

/-- The padding since the last data character has not completed the quad. -/
structure Quad.Open (q : Quad) : Prop where
  pos : q.pos < 4
  pads : 2 ≤ q.pos → q.pos + q.pads < 4

/-- From `q` to `q'` the decoder has taken `n` data characters and given `out`. -/
structure Quad.Takes (n : Nat) (q q' : Quad) (out : List UInt8) : Prop where
  opened : q'.Open
  pos : q'.pos = (q.pos + n) % 4
  bits : 8 * out.length + 6 * q'.pos % 8 = 6 * q.pos % 8 + 6 * n

theorem Quad.put_takes (hq : q.Open) (v : Nat) : Quad.Takes 1 q (q.put v).1 (q.put v).2 := by
  obtain ⟨pos, left, pads⟩ := q
  have hPos : pos < 4 := hq.pos
  match pos, hPos with
  | 0, _ | 1, _ | 2, _ | 3, _ =>
    exact ⟨⟨by simp [put], by simp [put]⟩, by simp [put], by simp [put]⟩

theorem Quad.step_takes (hq : q.Open) (h : q.step ch = some (q', out)) :
    Quad.Takes (if isData ch then 1 else 0) q q' out := by
  have hPos := hq.pos
  have hPads := hq.pads
  unfold step at h
  split at h
  · rename_i hPad
    have hNot : ¬isData ch = true := fun hData => isData_ne_pad hData hPad
    rw [if_neg hNot]
    split at h
    · split at h
      · cases h
      · cases h
        exact ⟨⟨hPos, fun _ => by dsimp only; omega⟩, by dsimp only; omega, by simp⟩
    · cases h
      exact ⟨hq, by omega, by simp⟩
  · cases hValue : value ch with
    | none =>
      rw [hValue] at h
      cases h
      rw [isData, hValue]
      exact ⟨hq, by simp; omega, by simp⟩
    | some v =>
      rw [hValue] at h
      obtain ⟨rfl, rfl⟩ : (q.put v).1 = q' ∧ (q.put v).2 = out := Prod.mk.inj (Option.some.inj h)
      rw [isData, hValue]
      exact q.put_takes hq v

theorem Quad.read_takes (hq : q.Open) (h : q.read xs = some (q', out)) :
    Quad.Takes (xs.countP isData) q q' out := by
  induction xs generalizing q out with
  | nil =>
    cases h
    exact ⟨hq, by have := hq.pos; simp; omega, by simp⟩
  | cons ch rest ih =>
    obtain ⟨⟨m, first⟩, hStep, h⟩ := Option.bind_eq_some_iff.mp h
    obtain ⟨⟨q₂, more⟩, hRest, hOut⟩ := Option.map_eq_some_iff.mp h
    cases hOut
    have hFirst := step_takes hq hStep
    have hMore := ih hFirst.opened hRest
    refine ⟨hMore.opened, ?_, ?_⟩
    · rw [hMore.pos, hFirst.pos, List.countP_cons]
      omega
    · have hBits := hFirst.bits
      have hMoreBits := hMore.bits
      dsimp only at hBits hMoreBits ⊢
      rw [List.length_append, List.countP_cons]
      omega

theorem Quad.read_append :
    q.read (xs ++ ys) = (q.read xs).bind fun p => (p.1.read ys).map fun r => (r.1, p.2 ++ r.2) := by
  induction xs generalizing q with
  | nil => simp [read]
  | cons ch rest ih =>
    rw [List.cons_append, read, read]
    cases q.step ch with
    | none => rfl
    | some p =>
      simp only [Option.bind_some, ih]
      cases p.1.read rest with
      | none => rfl
      | some r =>
        simp only [Option.bind_some, Option.map_some, Option.map_map]
        congr 1
        funext t
        simp

/-- Data characters never end a text, and leave no padding behind them. -/
theorem Quad.read_data (q : Quad) (h : ∀ ch ∈ xs, isData ch = true) :
    ∃ q' out, q.read xs = some (q', out) ∧ (q.pads = 0 → q'.pads = 0) := by
  induction xs generalizing q with
  | nil => exact ⟨q, [], rfl, id⟩
  | cons ch rest ih =>
    have hData := h ch (by simp)
    obtain ⟨v, hValue⟩ := Option.isSome_iff_exists.mp hData
    have hStep : q.step ch = some (q.put v) := by
      rw [step, if_neg (isData_ne_pad hData), hValue]
    have hPut : (q.put v).1.pads = 0 := by
      unfold put
      split <;> rfl
    obtain ⟨q', out, hRead, hPads⟩ := ih (q.put v).1 fun c hc => h c (by simp [hc])
    exact ⟨q', (q.put v).2 ++ out, by simp [read, hStep, hRead], fun _ => hPads hPut⟩

/-! ### Decoding in two parts -/

theorem decodeFrom_append (h : q.read xs = some (q', out)) :
    decodeFrom q (xs ++ ys) = (decodeFrom q' ys).map (out ++ ·) := by
  induction xs generalizing q out with
  | nil =>
    cases h
    simp
  | cons ch rest ih =>
    obtain ⟨⟨m, first⟩, hStep, h⟩ := Option.bind_eq_some_iff.mp h
    obtain ⟨⟨q₂, more⟩, hRest, hOut⟩ := Option.map_eq_some_iff.mp h
    cases hOut
    rw [List.cons_append, decodeFrom, hStep]
    dsimp only
    rw [ih hRest, Option.map_map]
    congr 1
    funext t
    simp

/-- What follows the end of a text is not read. -/
theorem decodeFrom_append_of_ended (h : q.read xs = none) :
    decodeFrom q (xs ++ ys) = decodeFrom q xs := by
  induction xs generalizing q with
  | nil => cases h
  | cons ch rest ih =>
    rw [List.cons_append, decodeFrom, decodeFrom]
    cases hStep : q.step ch with
    | none => rfl
    | some p =>
      rw [Quad.read, hStep, Option.bind_some, Option.map_eq_none_iff] at h
      dsimp only
      rw [ih h]

theorem decodeFrom_of_read (h : q.read xs = some (q', out)) :
    decodeFrom q xs = if q'.pos = 0 then some out else none := by
  rw [← List.append_nil xs, decodeFrom_append h, decodeFrom]
  split <;> simp

/-- Two more `=` complete every quad that has a byte. -/
theorem decodeFrom_pads_of_read (hq : q.Open) (h : q.read xs = some (q', out)) :
    decodeFrom q (xs ++ ['=', '=']) = if q'.pos = 1 then none else some out := by
  rw [decodeFrom_append h]
  obtain ⟨⟨hPos, hPads⟩, -, -⟩ := Quad.read_takes hq h
  obtain ⟨pos, left, pads⟩ := q'
  match pos, hPos with
  | 0, _ => simp [decodeFrom, Quad.step]
  | 1, _ => simp [decodeFrom, Quad.step]
  | 2, _ =>
    have hOne : pads = 0 ∨ pads = 1 := by have := hPads (by simp); dsimp only at this; omega
    rcases hOne with rfl | rfl <;> simp [decodeFrom, Quad.step]
  | 3, _ =>
    have hZero : pads = 0 := by have := hPads (by simp); dsimp only at this; omega
    simp [decodeFrom, Quad.step, hZero]

end Read

/-! ### Round trip -/

theorem decodeFrom_symbol {q : Quad} {v : Nat} (h : v < 64) (rest : List Char) :
    decodeFrom q (symbol v :: rest) =
      (decodeFrom (q.put v).1 rest).map ((q.put v).2 ++ ·) := by
  obtain ⟨hPad, hValue⟩ := symbol_spec v h
  rw [decodeFrom, Quad.step, if_neg hPad, hValue]

theorem byte_lt (a : UInt8) : a.toNat < 256 := a.toNat_lt

theorem ofNat_toNat {a : UInt8} {n : Nat} (h : n = a.toNat) : UInt8.ofNat n = a := by
  rw [h, UInt8.ofNat_toNat]

/-- A quad of four symbols gives back its three bytes. -/
theorem decodeFrom_group (a b c : UInt8) (rest : List Char) :
    decodeFrom {} (symbol (a.toNat / 4) :: symbol (a.toNat % 4 * 16 + b.toNat / 16) ::
      symbol (b.toNat % 16 * 4 + c.toNat / 64) :: symbol (c.toNat % 64) :: rest) =
      (decodeFrom {} rest).map ([a, b, c] ++ ·) := by
  have ha := byte_lt a
  have hb := byte_lt b
  have hc := byte_lt c
  rw [decodeFrom_symbol (by omega), decodeFrom_symbol (by omega), decodeFrom_symbol (by omega),
    decodeFrom_symbol (by omega)]
  simp only [Quad.put, Option.map_map]
  rw [ofNat_toNat (a := a) (by omega), ofNat_toNat (a := b) (by omega),
    ofNat_toNat (a := c) (by omega)]
  rfl

theorem decode_encode (bytes : List UInt8) : decode (encode bytes) = some bytes := by
  unfold decode
  induction bytes using encode.induct with
  | case1 => rfl
  | case2 a =>
    have ha := byte_lt a
    rw [encode, decodeFrom_symbol (by omega), decodeFrom_symbol (by omega)]
    simp only [Quad.put, decodeFrom, Quad.step]
    rw [ofNat_toNat (a := a) (by omega)]
    rfl
  | case3 a b =>
    have ha := byte_lt a
    have hb := byte_lt b
    rw [encode, decodeFrom_symbol (by omega), decodeFrom_symbol (by omega),
      decodeFrom_symbol (by omega)]
    simp only [Quad.put, decodeFrom, Quad.step]
    rw [ofNat_toNat (a := a) (by omega), ofNat_toNat (a := b) (by omega)]
    rfl
  | case4 a b c rest ih =>
    rw [encode, decodeFrom_group, ih]
    rfl

end WxcodeAdm.Lib.Base64
