import WxcodeAdm.Lib.Handler

/-! The exceptions that a handler can end with.  `RaisesOnly E` holds of a handler in a state from
which it returns, or raises an exception of `E`; the rules say for each statement exactly when that
is so. -/

namespace WxcodeAdm.Lib.Handler

variable {δ ρ ε α β : Type} {E : ε → Prop} {s : Stores δ ρ} {e : ε}

def RaisesOnly (E : ε → Prop) (h : Handler δ ρ ε α) (s : Stores δ ρ) : Prop :=
  ∀ e s', h.run s = .error e s' → E e

theorem raisesOnly_bind {x : Handler δ ρ ε α} {k : α → Handler δ ρ ε β} :
    RaisesOnly E (x >>= k) s ↔
      RaisesOnly E x s ∧ ∀ a m, x.run s = .ok a m → RaisesOnly E (k a) m := by
  unfold RaisesOnly
  rw [run_bind]
  cases x.run s <;> simp

@[simp] theorem raisesOnly_pure {a : α} : RaisesOnly E (pure a : Handler δ ρ ε α) s :=
  fun _ _ hRun => by cases hRun

theorem raisesOnly_throw : RaisesOnly E (throw e : Handler δ ρ ε α) s ↔ E e := by
  simp [RaisesOnly, run]

@[simp] theorem raisesOnly_exec {f : δ → δ} : RaisesOnly E (exec f : Handler δ ρ ε Unit) s :=
  fun _ _ hRun => by cases hRun

@[simp] theorem raisesOnly_store {f : ρ → ρ} : RaisesOnly E (store f : Handler δ ρ ε Unit) s :=
  fun _ _ hRun => by cases hRun

@[simp] theorem raisesOnly_query_bind {f : δ → α} {k : α → Handler δ ρ ε β} :
    RaisesOnly E (query f >>= k) s ↔ RaisesOnly E (k (f s.db)) s := Iff.rfl

@[simp] theorem raisesOnly_lookup_bind {f : ρ → α} {k : α → Handler δ ρ ε β} :
    RaisesOnly E (lookup f >>= k) s ↔ RaisesOnly E (k (f s.cache)) s := Iff.rfl

@[simp] theorem raisesOnly_exec_bind {f : δ → δ} {k : Unit → Handler δ ρ ε β} :
    RaisesOnly E (exec f >>= k) s ↔ RaisesOnly E (k ()) { s with db := f s.db } := Iff.rfl

@[simp] theorem raisesOnly_store_bind {f : ρ → ρ} {k : Unit → Handler δ ρ ε β} :
    RaisesOnly E (store f >>= k) s ↔ RaisesOnly E (k ()) { s with cache := f s.cache } := Iff.rfl

@[simp] theorem raisesOnly_ensure_bind {p : Prop} [Decidable p] {k : Unit → Handler δ ρ ε β} :
    RaisesOnly E (ensure p e >>= k) s ↔ (¬p → E e) ∧ (p → RaisesOnly E (k ()) s) := by
  by_cases hp : p
  · rw [ensure_bind_of hp]
    simp [hp]
  · unfold RaisesOnly
    rw [run_ensure_bind_of_not hp]
    simp [hp]

@[simp] theorem raisesOnly_orRaise_bind {o : Option α} {k : α → Handler δ ρ ε β} :
    RaisesOnly E (orRaise o e >>= k) s ↔
      (o = none → E e) ∧ ∀ a, o = some a → RaisesOnly E (k a) s := by
  cases o with
  | none => exact raisesOnly_throw.trans (by simp)
  | some a => simp

@[simp] theorem raisesOnly_ofExcept_bind {x : Except ε α} {k : α → Handler δ ρ ε β} :
    RaisesOnly E (ofExcept x >>= k) s ↔
      (∀ e, x = .error e → E e) ∧ ∀ a, x = .ok a → RaisesOnly E (k a) s := by
  cases x with
  | error e => exact raisesOnly_throw.trans (by simp)
  | ok a => simp

theorem RaisesOnly.bind {x : Handler δ ρ ε α} {k : α → Handler δ ρ ε β} (hx : RaisesOnly E x s)
    (hk : ∀ a m, RaisesOnly E (k a) m) : RaisesOnly E (x >>= k) s :=
  raisesOnly_bind.mpr ⟨hx, fun a m _ => hk a m⟩

theorem RaisesOnly.ite {p : Prop} [Decidable p] {x y : Handler δ ρ ε α} (hx : RaisesOnly E x s)
    (hy : RaisesOnly E y s) : RaisesOnly E (if p then x else y) s := by
  split
  · exact hx
  · exact hy

end WxcodeAdm.Lib.Handler
