import Mathlib.Data.List.Basic
import WxcodeAdm.Lib.Handler

/-! Which parts of the state a handler can change.  A part is anything that two states may have in
common; `same` says when they do.  The parts of a sequence are those of its statements, so the
footprint of a handler is read off its text. -/

namespace WxcodeAdm.Lib.Handler

variable {δ ρ ε α β π : Type} {same : π → Stores δ ρ → Stores δ ρ → Prop} {parts more : List π}
  {h x : Handler δ ρ ε α}

/-- A part that is not listed is the same in the state that the handler leaves. -/
def Touches (same : π → Stores δ ρ → Stores δ ρ → Prop) (parts : List π)
    (h : Handler δ ρ ε α) : Prop :=
  ∀ p ∉ parts, Within (same p) h

namespace Touches

theorem sub (ht : h.Touches same parts) (hSub : parts ⊆ more) : h.Touches same more :=
  fun p hp => ht p fun hIn => hp (hSub hIn)

theorem ite {q : Prop} [Decidable q] (hx : x.Touches same parts) (hh : h.Touches same more) :
    (if q then x else h).Touches same (parts ++ more) := fun p hp => by
  rw [List.mem_append, not_or] at hp
  exact .ite (hx p hp.1) (hh p hp.2)

theorem exec {f : δ → δ} (hf : ∀ p ∉ parts, ∀ s : Stores δ ρ, same p s { s with db := f s.db }) :
    (exec f : Handler δ ρ ε Unit).Touches same parts := fun p hp => .exec (hf p hp)

theorem store {f : ρ → ρ}
    (hf : ∀ p ∉ parts, ∀ s : Stores δ ρ, same p s { s with cache := f s.cache }) :
    (store f : Handler δ ρ ε Unit).Touches same parts := fun p hp => .store (hf p hp)

theorem exchange {g : ρ → α} {f : ρ → ρ}
    (hf : ∀ p ∉ parts, ∀ s : Stores δ ρ, same p s { s with cache := f s.cache }) :
    (exchange g f : Handler δ ρ ε α).Touches same parts := fun p hp => .exchange (hf p hp)

theorem bind [∀ p, IsTrans _ (same p)] {k : α → Handler δ ρ ε β} (hx : x.Touches same parts)
    (hk : ∀ a, (k a).Touches same more) : (x >>= k).Touches same (parts ++ more) := fun p hp => by
  rw [List.mem_append, not_or] at hp
  exact .bind (hx p hp.1) fun a => hk a p hp.2

section Reads

variable [∀ p, Std.Refl (same p)]

theorem pure (a : α) : (pure a : Handler δ ρ ε α).Touches same [] := fun _ _ => .pure a

theorem throw (e : ε) : (throw e : Handler δ ρ ε α).Touches same [] := fun _ _ => .throw e

theorem query (f : δ → α) : (query f : Handler δ ρ ε α).Touches same [] := fun _ _ => .query f

theorem lookup (f : ρ → α) : (lookup f : Handler δ ρ ε α).Touches same [] := fun _ _ => .lookup f

theorem ensure (q : Prop) [Decidable q] (e : ε) :
    (ensure q e : Handler δ ρ ε Unit).Touches same [] := fun _ _ => .ensure q e

theorem orRaise (o : Option α) (e : ε) : (orRaise o e : Handler δ ρ ε α).Touches same [] :=
  fun _ _ => .orRaise o e

theorem ofExcept (r : Except ε α) : (ofExcept r : Handler δ ρ ε α).Touches same [] :=
  fun _ _ => .ofExcept r

theorem forM [∀ p, IsTrans _ (same p)] {κ : Type} {f : κ → Handler δ ρ ε PUnit}
    (hf : ∀ a, (f a).Touches same parts) (l : List κ) : (l.forM f).Touches same parts :=
  fun p hp => .forM (fun a => hf a p hp) l

end Reads

end Touches

end WxcodeAdm.Lib.Handler
