import Mathlib.Data.List.Basic
import Mathlib.Order.Defs.Unbundled

/-! Tables that may lose rows but gain only fresh ones. -/

namespace WxcodeAdm.Lib

variable {α : Type} {fresh : α → Prop} {a b c : List α}

/-- Every row of `b` was in `a` or is fresh. -/
def Grows (fresh : α → Prop) (a b : List α) : Prop := ∀ x ∈ b, x ∈ a ∨ fresh x

namespace Grows

theorem refl (a : List α) : Grows fresh a a := fun _ h => .inl h

theorem trans (h : Grows fresh a b) (h' : Grows fresh b c) : Grows fresh a c := fun x hx =>
  (h' x hx).elim (h x) .inr

theorem of_subset (h : b ⊆ a) : Grows fresh a b := fun _ hx => .inl (h hx)

theorem append (h : Grows fresh a b) {new : List α} (hNew : ∀ x ∈ new, fresh x) :
    Grows fresh a (b ++ new) := fun x hx =>
  (List.mem_append.mp hx).elim (h x) fun hx => .inr (hNew x hx)

theorem filter (p : α → Bool) : Grows fresh a (a.filter p) :=
  of_subset (List.filter_subset_self a)

theorem mono {fresh' : α → Prop} (h : Grows fresh a b) (hle : ∀ x, fresh x → fresh' x) :
    Grows fresh' a b := fun x hx => (h x hx).imp id (hle x)

/-- Nothing is gained where nothing is fresh. -/
theorem subset (h : Grows fresh a b) (hNone : ∀ x, ¬fresh x) : b ⊆ a := fun x hx =>
  (h x hx).resolve_right (hNone x)

end Grows

end WxcodeAdm.Lib
