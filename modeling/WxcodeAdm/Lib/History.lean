import Mathlib.Data.Int.Order.Basic
import Mathlib.Order.Lattice
import WxcodeAdm.Lib.Run

/-! The past of a run whose steps are dated: `stateAt` is the state that the run was in at a time. -/

namespace WxcodeAdm.Lib

variable {σ ι T : Type} [LinearOrder T]

/-- The state at a time: the one that the first later step was taken from, or else the last one. -/
def stateAt (time : ι → T) (t : T) (steps : List (σ × ι)) (s : σ) : σ :=
  ((steps.find? fun p => t < time p.2).map fun p => p.1).getD s

/-- The steps are taken one after the other, and each sets the clock to its time. -/
def Dated (step : σ → ι → σ → Prop) (time : ι → T) (clock : σ → T) : Prop :=
  ∀ m l n, step m l n → clock m ≤ time l ∧ clock n = time l

variable {time : ι → T} {clock : σ → T} {t : T} {s s₀ s' : σ} {l : ι}
  {steps : List (σ × ι)} {step : σ → ι → σ → Prop}

theorem stateAt_of_le (h : ∀ p ∈ steps, time p.2 ≤ t) : stateAt time t steps s = s := by
  have hNone : steps.find? (fun p => t < time p.2) = none :=
    List.find?_eq_none.mpr fun p hp => by simpa using h p hp
  rw [stateAt, hNone]
  rfl

/-- A step changes nothing about the time before it. -/
theorem stateAt_snoc (h : t < time l) :
    stateAt time t (steps ++ [(s, l)]) s' = stateAt time t steps s := by
  rw [stateAt, stateAt, List.find?_append]
  cases steps.find? fun p => t < time p.2 with
  | some => rfl
  | none => simp [h]

namespace Run

/-- No step of the run is later than its clock. -/
theorem time_le_clock (hDated : Dated step time clock) (h : Run step s₀ steps s) :
    ∀ p ∈ steps, time p.2 ≤ clock s := by
  induction h with
  | nil => simp
  | snoc _ hStep ih =>
    obtain ⟨hLe, hNow⟩ := hDated _ _ _ hStep
    intro p hp
    rcases List.mem_append.mp hp with hOld | hLast
    · exact hNow ▸ le_trans (ih p hOld) hLe
    · obtain rfl := List.mem_singleton.mp hLast
      exact le_of_eq hNow.symm

/-- From its clock on a run is in its last state. -/
theorem stateAt_present (hDated : Dated step time clock) (h : Run step s₀ steps s)
    (hLe : clock s ≤ t) : stateAt time t steps s = s :=
  stateAt_of_le fun p hp => le_trans (h.time_le_clock hDated p hp) hLe

end Run

end WxcodeAdm.Lib
