import Mathlib.Data.List.Nodup

/-! Joins of two tables, row by row, and what they come to when no row has more than one match. -/

namespace WxcodeAdm.Lib

variable {α β γ : Type}

/-- The rows of the left table with all their matches; one without a match stays, with nothing. -/
def leftJoin (on : α → β → Bool) (left : List α) (right : List β) : List (α × Option β) :=
  left.flatMap fun x =>
    match right.filter (on x) with
    | [] => [(x, none)]
    | y :: more => (y :: more).map fun y => (x, some y)

/-- The rows of the left table with all their matches. -/
def innerJoin (on : α → β → Bool) (left : List α) (right : List β) : List (α × β) :=
  left.flatMap fun x => (right.filter (on x)).map fun y => (x, y)

/-- At most one row satisfies a condition. -/
def AtMostOne (p : β → Bool) (rows : List β) : Prop := rows.filter p = (rows.find? p).toList

variable {on : α → β → Bool} {left : List α} {right : List β} {p : β → Bool}

/-- The rows that satisfy the condition have one key, which is unique. -/
theorem AtMostOne.of_key {key : β → γ} {c : γ} (hUnique : (right.map key).Nodup)
    (h : ∀ y ∈ right, p y = true → key y = c) : AtMostOne p right := by
  induction right with
  | nil => rfl
  | cons y rest ih =>
    rw [List.map_cons, List.nodup_cons] at hUnique
    rw [List.forall_mem_cons] at h
    by_cases hy : p y = true
    · have hNone : rest.filter p = [] := List.filter_eq_nil_iff.mpr fun z hz hpz =>
        hUnique.1 (List.mem_map.mpr ⟨z, hz, (h.2 z hz hpz).trans (h.1 hy).symm⟩)
      rw [AtMostOne, List.filter_cons_of_pos hy, List.find?_cons_of_pos hy, hNone]
      rfl
    · rw [AtMostOne, List.filter_cons_of_neg hy, List.find?_cons_of_neg hy]
      exact ih hUnique.2 h.2

theorem AtMostOne.none (h : ∀ y ∈ right, p y = false) : AtMostOne p right := by
  have hNone : right.find? p = Option.none := List.find?_eq_none.mpr fun y hy => by simp [h y hy]
  rw [AtMostOne, hNone, List.filter_eq_nil_iff.mpr fun y hy => by simp [h y hy]]
  rfl

/-- With at most one match each, the rows of the left table stay as they are. -/
theorem leftJoin_eq_map (h : ∀ x ∈ left, AtMostOne (on x) right) :
    leftJoin on left right = left.map fun x => (x, right.find? (on x)) := by
  induction left with
  | nil => rfl
  | cons x rest ih =>
    rw [List.forall_mem_cons] at h
    rw [leftJoin, List.flatMap_cons, ← leftJoin, ih h.2, h.1, List.map_cons]
    cases right.find? (on x) <;> rfl

/-- With at most one match each, the rows of the left table that have one are selected. -/
theorem innerJoin_fst (h : ∀ x ∈ left, AtMostOne (on x) right) :
    (innerJoin on left right).map Prod.fst = left.filter fun x => (right.find? (on x)).isSome := by
  induction left with
  | nil => rfl
  | cons x rest ih =>
    rw [List.forall_mem_cons] at h
    rw [innerJoin, List.flatMap_cons, List.map_append, ← innerJoin, ih h.2, h.1, List.filter_cons]
    cases right.find? (on x) <;> rfl

/-- A condition on the rows of both tables, before and after they are joined. -/
theorem filter_innerJoin (p : α → Bool) (q : β → Bool) (on : α → β → Bool) (left : List α)
    (right : List β) :
    (innerJoin on left right).filter (fun row => p row.1 && q row.2) =
      innerJoin (fun x y => q y && on x y) (left.filter p) right := by
  induction left with
  | nil => rfl
  | cons x rest ih =>
    have hHead : ((right.filter (on x)).map fun y => (x, y)).filter (fun row => p row.1 && q row.2) =
        if p x = true then (right.filter fun y => q y && on x y).map fun y => (x, y) else [] := by
      rw [List.filter_map]
      by_cases hx : p x = true <;> simp [hx, Function.comp_def, List.filter_filter]
    rw [innerJoin, List.flatMap_cons, List.filter_append, ← innerJoin, ih, hHead, List.filter_cons]
    split <;> rfl

end WxcodeAdm.Lib
