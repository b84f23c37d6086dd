import WxcodeAdm.Lib.Handler

/-! Assertions about the database that a handler preserves: where it returns, what was true of the
database is true of the one it leaves.  What a handler leaves when it raises is rolled back, so
nothing is asked of it. -/

namespace WxcodeAdm.Lib.Handler

variable {δ ρ ε α β : Type} {P : δ → Prop} {x : Handler δ ρ ε α}

def Preserves (P : δ → Prop) (h : Handler δ ρ ε α) : Prop :=
  ∀ s a s', h.run s = .ok a s' → P s.db → P s'.db

namespace Preserves

theorem pure (a : α) : Preserves P (pure a : Handler δ ρ ε α) := fun _ _ _ hRun hP => by
  obtain ⟨-, rfl⟩ := run_pure_ok.mp hRun
  exact hP

theorem throw (e : ε) : Preserves P (throw e : Handler δ ρ ε α) := fun _ _ _ hRun =>
  (run_throw_ok.mp hRun).elim

theorem query (f : δ → α) : Preserves P (query f : Handler δ ρ ε α) := fun _ _ _ hRun hP => by
  cases hRun
  exact hP

theorem lookup (f : ρ → α) : Preserves P (lookup f : Handler δ ρ ε α) := fun _ _ _ hRun hP => by
  cases hRun
  exact hP

theorem store (f : ρ → ρ) : Preserves P (store f : Handler δ ρ ε Unit) := fun _ _ _ hRun hP => by
  cases hRun
  exact hP

theorem exec {f : δ → δ} (hf : ∀ d, P d → P (f d)) : Preserves P (exec f : Handler δ ρ ε Unit) :=
  fun _ _ _ hRun hP => by
    cases hRun
    exact hf _ hP

theorem ensure (p : Prop) [Decidable p] (e : ε) : Preserves P (ensure p e : Handler δ ρ ε Unit) :=
  fun s _ _ hRun hP => by
    rw [run_ensure] at hRun
    split at hRun
    · cases hRun
      exact hP
    · cases hRun

theorem orRaise (o : Option α) (e : ε) : Preserves P (orRaise o e : Handler δ ρ ε α) :=
  fun _ _ _ hRun hP => by
    obtain ⟨-, rfl⟩ := run_orRaise_ok.mp hRun
    exact hP

theorem ofExcept (r : Except ε α) : Preserves P (ofExcept r : Handler δ ρ ε α) :=
  fun _ _ _ hRun hP => by
    obtain ⟨-, rfl⟩ := run_ofExcept_eq_ok.mp hRun
    exact hP

theorem bind {k : α → Handler δ ρ ε β} (hx : Preserves P x) (hk : ∀ a, Preserves P (k a)) :
    Preserves P (x >>= k) := fun s b s' hRun hP => by
  obtain ⟨a, m, hFirst, hRest⟩ := run_bind_ok.mp hRun
  exact hk a m b s' hRest (hx s a m hFirst hP)

theorem ite {p : Prop} [Decidable p] {y : Handler δ ρ ε α} (hx : Preserves P x) (hy : Preserves P y) :
    Preserves P (if p then x else y) := by
  split
  · exact hx
  · exact hy

end Preserves

/-! ### From one assertion to another -/

/-- Where `P` was true of the database and the handler returns, `Q` is true of the one it leaves. -/
def Takes (P Q : δ → Prop) (h : Handler δ ρ ε α) : Prop :=
  ∀ s a s', h.run s = .ok a s' → P s.db → Q s'.db

namespace Takes

variable {Q R : δ → Prop}

theorem of_preserves (h : Preserves P x) (hPQ : ∀ d, P d → Q d) : Takes P Q x :=
  fun s a s' hRun hP => hPQ _ (h s a s' hRun hP)

theorem pure (a : α) (hPQ : ∀ d, P d → Q d) : Takes P Q (pure a : Handler δ ρ ε α) :=
  of_preserves (.pure a) hPQ

theorem bind {k : α → Handler δ ρ ε β} (hx : Takes P R x) (hk : ∀ a, Takes R Q (k a)) :
    Takes P Q (x >>= k) := fun s b s' hRun hP => by
  obtain ⟨a, m, hFirst, hRest⟩ := run_bind_ok.mp hRun
  exact hk a m b s' hRest (hx s a m hFirst hP)

theorem ite {p : Prop} [Decidable p] {y : Handler δ ρ ε α} (hx : Takes P Q x) (hy : Takes P Q y) :
    Takes P Q (if p then x else y) := by
  split
  · exact hx
  · exact hy

end Takes

end WxcodeAdm.Lib.Handler
