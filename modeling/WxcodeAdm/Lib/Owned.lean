import Mathlib.Data.List.Basic

/-! Rows with owners, and the rows of one of them: what happens to the rows of the others leaves
them. -/

namespace WxcodeAdm.Lib

variable {α κ : Type} [DecidableEq κ]

/-- The rows of an owner. -/
def ownedBy (owner : α → κ) (k : κ) (rows : List α) : List α := rows.filter fun x => owner x = k

section Rows

variable {owner : α → κ} {k : κ} {rows : List α} {x : α}

@[simp] theorem mem_ownedBy : x ∈ ownedBy owner k rows ↔ x ∈ rows ∧ owner x = k := by simp [ownedBy]

/-- An INSERT of rows of others. -/
theorem ownedBy_append {more : List α} (hOthers : ∀ x ∈ more, owner x ≠ k) :
    ownedBy owner k (rows ++ more) = ownedBy owner k rows := by
  have hNone : more.filter (fun x => owner x = k) = [] := by
    simpa [List.filter_eq_nil_iff] using hOthers
  rw [ownedBy, List.filter_append, hNone, List.append_nil, ownedBy]

theorem ownedBy_concat (hOther : owner x ≠ k) :
    ownedBy owner k (rows ++ [x]) = ownedBy owner k rows :=
  ownedBy_append fun _ hy => List.mem_singleton.mp hy ▸ hOther

/-- A DELETE that keeps the rows of the owner. -/
theorem ownedBy_filter {p : α → Bool} (hKeep : ∀ x ∈ rows, owner x = k → p x = true) :
    ownedBy owner k (rows.filter p) = ownedBy owner k rows := by
  rw [ownedBy, ownedBy, List.filter_filter]
  refine List.filter_congr fun x hx => ?_
  by_cases hOwner : owner x = k
  · simp [hOwner, hKeep x hx hOwner]
  · simp [hOwner]

/-- An UPDATE that keeps the owners, and the rows of the one. -/
theorem ownedBy_map {f : α → α} (hOwner : ∀ x ∈ rows, owner (f x) = owner x)
    (hKeep : ∀ x ∈ rows, owner x = k → f x = x) :
    ownedBy owner k (rows.map f) = ownedBy owner k rows := by
  induction rows with
  | nil => rfl
  | cons a l ih =>
    have hRest : ownedBy owner k (l.map f) = ownedBy owner k l :=
      ih (fun x hx => hOwner x (List.mem_cons_of_mem _ hx)) fun x hx =>
        hKeep x (List.mem_cons_of_mem _ hx)
    have hHead := hOwner a List.mem_cons_self
    simp only [ownedBy] at hRest ⊢
    rw [List.map_cons, List.filter_cons, List.filter_cons, hRest, hHead]
    by_cases hSame : owner a = k
    · rw [hKeep a List.mem_cons_self hSame]
    · simp [hSame]

end Rows

end WxcodeAdm.Lib
