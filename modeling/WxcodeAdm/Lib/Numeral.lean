import Mathlib.Algebra.GroupWithZero.Nat
import Mathlib.Data.Char
import Mathlib.Data.List.Lex

/-! Numerals of a fixed width: their digits are read back, and the order of texts that begin with
them is the order of the numbers. -/

namespace WxcodeAdm.Lib

/-- A number in so many digits of a base, which is 16 at most. -/
def padded (base : Nat) : Nat → Nat → List Char
  | 0, _ => []
  | width + 1, n => padded base width (n / base) ++ [Nat.digitChar (n % base)]

/-- The value of a hexadecimal digit, in either case. -/
def hexValue (ch : Char) : Option Nat :=
  if '0' ≤ ch ∧ ch ≤ '9' then some (ch.toNat - '0'.toNat)
  else if 'a' ≤ ch ∧ ch ≤ 'f' then some (ch.toNat - 'a'.toNat + 10)
  else if 'A' ≤ ch ∧ ch ≤ 'F' then some (ch.toNat - 'A'.toNat + 10)
  else none

variable {base width a b n : Nat} {s t x y : List Char}

theorem length_padded (base width n : Nat) : (padded base width n).length = width := by
  induction width generalizing n with
  | zero => rfl
  | succ width ih => rw [padded, List.length_append, ih, List.length_singleton]

theorem mem_padded {c : Char} (hBase : 0 < base) (h : c ∈ padded base width n) :
    ∃ v < base, c = Nat.digitChar v := by
  induction width generalizing n with
  | zero => cases h
  | succ width ih =>
    rcases List.mem_append.mp h with h | h
    · exact ih h
    · exact ⟨n % base, Nat.mod_lt n hBase, List.mem_singleton.mp h⟩

theorem hexValue_digitChar : ∀ v < 16, hexValue (Nat.digitChar v) = some v := by decide

/-! ### Order -/

theorem append_lt_append (hLength : x.length = y.length) (h : x < y) (s t : List Char) :
    x ++ s < y ++ t := by
  induction x generalizing y with
  | nil =>
    obtain rfl := List.length_eq_zero_iff.mp hLength.symm
    exact absurd h (lt_irrefl _)
  | cons a x ih =>
    cases y with
    | nil => cases hLength
    | cons b y =>
      rw [List.cons_append, List.cons_append, List.cons_lt_cons_iff]
      rcases List.cons_lt_cons_iff.mp h with hHead | ⟨hHead, hTail⟩
      · exact .inl hHead
      · exact .inr ⟨hHead, ih (Nat.succ.inj hLength) hTail⟩

theorem cons_lt {c : Char} (h : s < t) : c :: s < c :: t :=
  List.cons_lt_cons_iff.mpr (.inr ⟨rfl, h⟩)

theorem digitChar_lt : ∀ b < 16, ∀ a < b, Nat.digitChar a < Nat.digitChar b := by decide

theorem padded_lt (hBase : 0 < base ∧ base ≤ 16) (h : a < b) (hFits : b < base ^ width) :
    padded base width a < padded base width b := by
  induction width generalizing a b with
  | zero =>
    rw [Nat.pow_zero] at hFits
    omega
  | succ width ih =>
    rw [padded, padded]
    have hA := Nat.div_add_mod a base
    have hB := Nat.div_add_mod b base
    have hDigit := Nat.mod_lt b hBase.1
    rcases Nat.lt_or_ge (a / base) (b / base) with hDiv | hDiv
    · refine append_lt_append (by rw [length_padded, length_padded]) (ih hDiv ?_) _ _
      exact Nat.div_lt_of_lt_mul (Nat.mul_comm .. ▸ Nat.pow_succ .. ▸ hFits)
    · have hSame : a / base = b / base := Nat.le_antisymm (Nat.div_le_div_right (Nat.le_of_lt h)) hDiv
      rw [hSame] at hA ⊢
      refine List.append_left_lt (List.cons_lt_cons_iff.mpr (.inl ?_))
      exact digitChar_lt (b % base) (by omega) (a % base) (by omega)

/-- Two texts that begin with numerals of one width. -/
theorem padded_append_lt (hBase : 0 < base ∧ base ≤ 16) (hFits : b < base ^ width)
    (h : a < b ∨ a = b ∧ s < t) : padded base width a ++ s < padded base width b ++ t := by
  rcases h with hLt | ⟨rfl, hRest⟩
  · exact append_lt_append (by rw [length_padded, length_padded]) (padded_lt hBase hLt hFits) s t
  · exact List.append_left_lt hRest

end WxcodeAdm.Lib
