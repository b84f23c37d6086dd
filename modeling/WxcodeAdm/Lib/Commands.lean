import Mathlib.Logic.Function.Basic
import WxcodeAdm.Lib.Run

/-! Calls that send commands to one store, one at a time and at times that never go back.  `next`
gives what a command does to the store at the time it arrives, and how its call goes on. -/

namespace WxcodeAdm.Lib

/-- The store, the time of the last command, and each call by the command that it sends next. -/
structure Calls (ι σ κ : Type) where
  store : σ
  now : Nat
  call : ι → κ

namespace Calls

variable {ι σ κ : Type} [DecidableEq ι] (next : Nat → σ → κ → Option (σ × κ))

def after (m : Calls ι σ κ) (i : ι) (now : Nat) (store : σ) (k : κ) : Calls ι σ κ :=
  ⟨store, now, Function.update m.call i k⟩

/-- The next command of a call, unless it has returned. -/
def step (m : Calls ι σ κ) (e : ι × Nat) : Option (Calls ι σ κ) :=
  if m.now ≤ e.2 then (next e.2 m.store (m.call e.1)).map fun r => m.after e.1 e.2 r.1 r.2 else none

def Step (m : Calls ι σ κ) (e : ι × Nat) (m' : Calls ι σ κ) : Prop := m.step next e = some m'

/-- The commands of a schedule, and where they lead. -/
def trace : List (ι × Nat) → Calls ι σ κ → List (Calls ι σ κ × (ι × Nat)) × Calls ι σ κ
  | [], m => ([], m)
  | e :: schedule, m =>
    match m.step next e with
    | some m' => ((m, e) :: (trace schedule m').1, (trace schedule m').2)
    | none => trace schedule m

variable {next} {m m' : Calls ι σ κ} {e : ι × Nat} {store : σ} {k : κ} {i j : ι} {now : Nat}

theorem step_some (h : m.Step next e m') :
    m.now ≤ e.2 ∧ ∃ store k, next e.2 m.store (m.call e.1) = some (store, k) ∧
      m' = m.after e.1 e.2 store k := by
  unfold Step step at h
  split at h
  · obtain ⟨⟨store, k⟩, hNext, rfl⟩ := Option.map_eq_some_iff.mp h
    exact ⟨‹_›, store, k, hNext, rfl⟩
  · cases h

@[simp] theorem after_store : (m.after i now store k).store = store := rfl

@[simp] theorem after_now : (m.after i now store k).now = now := rfl

@[simp] theorem after_call_same : (m.after i now store k).call i = k := Function.update_self ..

theorem after_call_other (h : j ≠ i) : (m.after i now store k).call j = m.call j :=
  Function.update_of_ne h ..

/-- A property that the command does not bring about was there before it. -/
theorem of_after {P : κ → Prop} (hk : P k → P (m.call i))
    (h : P ((m.after i now store k).call j)) : P (m.call j) := by
  by_cases hj : j = i
  · rw [hj, after_call_same] at h
    rw [hj]
    exact hk h
  · rwa [after_call_other hj] at h

theorem run_trace (schedule : List (ι × Nat)) (m : Calls ι σ κ) :
    Run (Step next) m (trace next schedule m).1 (trace next schedule m).2 := by
  induction schedule generalizing m with
  | nil => exact .nil
  | cons e schedule ih =>
    rw [trace]
    cases hStep : m.step next e with
    | none => exact ih m
    | some m' => exact .cons hStep (ih m')

end Calls

end WxcodeAdm.Lib
