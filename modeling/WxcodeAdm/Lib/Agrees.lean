import WxcodeAdm.Lib.Handler
import WxcodeAdm.Lib.Run
import Mathlib.Data.List.Forall2

/-! Two handlers that agree: from the same stores they leave the same stores, and raise the same
exception or return values that a relation holds of.  And two runs side by side, the second of which
follows the first. -/

namespace WxcodeAdm.Lib

variable {δ ρ ε α β γ κ : Type}

/-- The same error, or values that `R` relates. -/
inductive ExceptAgrees (R : α → β → Prop) : Except ε α → Except ε β → Prop
  | ok {a b} (related : R a b) : ExceptAgrees R (.ok a) (.ok b)
  | error {e} : ExceptAgrees R (.error e) (.error e)

namespace ExceptAgrees

variable {R : α → β → Prop}

theorem bind {S : γ → κ → Prop} {x : Except ε α} {y : Except ε β} {k : α → Except ε γ}
    {l : β → Except ε κ} (h : ExceptAgrees R x y)
    (hRest : ∀ a b, R a b → ExceptAgrees S (k a) (l b)) :
    ExceptAgrees S (x >>= k) (y >>= l) := by
  cases h with
  | ok hR => exact hRest _ _ hR
  | error => exact .error

/-- The rest of two computations that start alike. -/
theorem bind_eq {S : γ → κ → Prop} {x : Except ε α} {k : α → Except ε γ} {l : α → Except ε κ}
    (hRest : ∀ a, ExceptAgrees S (k a) (l a)) : ExceptAgrees S (x >>= k) (x >>= l) := by
  cases x with
  | ok a => exact hRest a
  | error => exact .error

end ExceptAgrees

/-- The same stores, with the same exception or values that `R` relates. -/
inductive OutcomeAgrees (R : α → β → Prop) : Outcome δ ρ ε α → Outcome δ ρ ε β → Prop
  | ok {a b s} (related : R a b) : OutcomeAgrees R (.ok a s) (.ok b s)
  | error {e s} : OutcomeAgrees R (.error e s) (.error e s)

namespace Handler

def Agrees (R : α → β → Prop) (h : Handler δ ρ ε α) (h' : Handler δ ρ ε β) : Prop :=
  ∀ s, OutcomeAgrees R (h.run s) (h'.run s)

namespace Agrees

variable {R : α → β → Prop}

theorem of_eq (h : Handler δ ρ ε α) : Agrees Eq h h := fun s => by
  cases h.run s with
  | ok => exact .ok rfl
  | error => exact .error

theorem pure {a : α} {b : β} (hR : R a b) :
    Agrees R (Pure.pure a : Handler δ ρ ε α) (Pure.pure b) := fun _ => .ok hR

theorem ofExcept {x : Except ε α} {y : Except ε β} (h : ExceptAgrees R x y) :
    Agrees R (Handler.ofExcept x : Handler δ ρ ε α) (.ofExcept y) := fun _ => by
  cases h with
  | ok hR => exact .ok hR
  | error => exact .error

theorem bind {S : γ → κ → Prop} {x : Handler δ ρ ε α} {y : Handler δ ρ ε β}
    {k : α → Handler δ ρ ε γ} {l : β → Handler δ ρ ε κ} (h : Agrees R x y)
    (hRest : ∀ a b, R a b → Agrees S (k a) (l b)) : Agrees S (x >>= k) (y >>= l) := fun s => by
  have hFirst := h s
  rw [run_bind, run_bind]
  generalize x.run s = first, y.run s = second at hFirst
  cases hFirst with
  | ok hR => exact hRest _ _ hR _
  | error => exact .error

/-- The rest of two handlers that start alike. -/
theorem bind_eq {S : γ → κ → Prop} {x : Handler δ ρ ε α} {k : α → Handler δ ρ ε γ}
    {l : α → Handler δ ρ ε κ} (hRest : ∀ a, Agrees S (k a) (l a)) :
    Agrees S (x >>= k) (x >>= l) :=
  bind (of_eq x) fun a _ hSame => hSame ▸ hRest a

/-- Requests that agree are answered alike, and leave the same stores. -/
theorem atomically {h : Handler δ ρ ε α} {h' : Handler δ ρ ε β} (hAgrees : Agrees R h h')
    (s : Stores δ ρ) :
    ExceptAgrees R (h.atomically s).1 (h'.atomically s).1 ∧
      (h.atomically s).2 = (h'.atomically s).2 := by
  have hRun := hAgrees s
  unfold Handler.atomically
  generalize h.run s = first, h'.run s = second at hRun
  cases hRun with
  | ok hR => exact ⟨.ok hR, rfl⟩
  | error => exact ⟨.error, rfl⟩

end Agrees

end Handler

/-- Where each step can be followed from a related state with any related label, so can a run. -/
theorem Run.follows {σ τ ι ι' : Type} {step : σ → ι → σ → Prop} {step' : τ → ι' → τ → Prop}
    {R : σ → τ → Prop} {L : ι' → ι → Prop} {s s' : σ} {t : τ} {steps : List (σ × ι)}
    (hStep : ∀ {m l n m' l'}, step m l n → R m m' → L l' l → ∃ n', step' m' l' n' ∧ R n n')
    (h : Run step s steps s') (hStart : R s t) {labels : List ι'}
    (hLabels : List.Forall₂ L labels (steps.map fun p => p.2)) :
    ∃ steps' t', Run step' t steps' t' ∧ steps'.map (fun p => p.2) = labels ∧ R s' t' := by
  induction h generalizing labels with
  | nil =>
    obtain rfl := List.forall₂_nil_right_iff.mp hLabels
    exact ⟨[], t, .nil, rfl, hStart⟩
  | @snoc steps m s' l _ hLast ih =>
    rw [List.map_append] at hLabels
    obtain ⟨before, m', hRun, hBefore, hMid⟩ := ih (List.forall₂_take_append _ _ _ hLabels)
    obtain ⟨l', _, hLabel, hNil, hDrop⟩ :=
      List.forall₂_cons_right_iff.mp (List.forall₂_drop_append _ _ _ hLabels)
    obtain rfl := List.forall₂_nil_right_iff.mp hNil
    obtain ⟨t', hFollow, hEnd⟩ := hStep hLast hMid hLabel
    refine ⟨before ++ [(m', l')], t', .snoc hRun hFollow, ?_, hEnd⟩
    rw [List.map_append, hBefore]
    conv_rhs => rw [← List.take_append_drop (steps.map fun p => p.2).length labels, hDrop]
    rfl

end WxcodeAdm.Lib
