import Mathlib.Data.List.Forall2

/-! Tables that keep their rows in order, change them, and gain others at the end. -/

namespace WxcodeAdm.Lib

variable {α β γ : Type}

/-- The rows of `b` continue those of `a`, and the others are gained. -/
def Extends (R : α → β → Prop) (gained : β → Prop) (a : List α) (b : List β) : Prop :=
  ∃ kept new, b = kept ++ new ∧ List.Forall₂ R a kept ∧ ∀ y ∈ new, gained y

theorem forall₂_append_left {R : α → β → Prop} {a a' : List α} {b : List β}
    (h : List.Forall₂ R (a ++ a') b) :
    ∃ c c', b = c ++ c' ∧ List.Forall₂ R a c ∧ List.Forall₂ R a' c' := by
  induction a generalizing b with
  | nil => exact ⟨[], b, rfl, .nil, h⟩
  | cons x a ih =>
    cases h with
    | cons hHead hTail =>
      obtain ⟨c, c', rfl, hLeft, hRight⟩ := ih hTail
      exact ⟨_ :: c, c', rfl, .cons hHead hLeft, hRight⟩

theorem forall₂_right {P : β → Prop} {R : α → β → Prop} {a : List α} {b : List β}
    (h : List.Forall₂ R a b) (hP : ∀ x ∈ a, ∀ y, R x y → P y) : ∀ y ∈ b, P y := by
  induction h with
  | nil => simp
  | cons hHead _ ih =>
    simp only [List.forall_mem_cons] at hP ⊢
    exact ⟨hP.1 _ hHead, ih hP.2⟩

namespace Extends

variable {R : α → β → Prop} {gained : β → Prop} {a : List α} {b : List β}

/-- A table of which the other is a view. -/
theorem of_view {f : β → α} (h : ∀ y ∈ b, R (f y) y) : Extends R gained (b.map f) b :=
  ⟨b, [], (List.append_nil b).symm, List.forall₂_map_left_iff.mpr (List.forall₂_same.mpr h), by simp⟩

theorem imp {S : α → β → Prop} {P : β → Prop} (h : Extends R gained a b)
    (hKept : ∀ x y, R x y → S x y) (hGained : ∀ y, gained y → P y) : Extends S P a b := by
  obtain ⟨kept, new, hAppend, hRows, hNew⟩ := h
  exact ⟨kept, new, hAppend, hRows.imp hKept, fun y hy => hGained y (hNew y hy)⟩

/-- Every row is continued by a row. -/
theorem exists_of_mem (h : Extends R gained a b) {x : α} (hx : x ∈ a) : ∃ y ∈ b, R x y := by
  obtain ⟨kept, new, rfl, hKept, -⟩ := h
  clear * - hKept hx
  induction hKept with
  | nil => cases hx
  | cons hHead _ ih =>
    rcases List.mem_cons.mp hx with rfl | hx
    · exact ⟨_, List.mem_append_left _ List.mem_cons_self, hHead⟩
    · obtain ⟨y, hy, hR⟩ := ih hx
      exact ⟨y, List.mem_cons_of_mem _ hy, hR⟩

/-- Two steps on the same table. -/
theorem trans {c : List γ} {S : β → γ → Prop} {T : α → γ → Prop} {late final : γ → Prop}
    (h : Extends R gained a b) (h' : Extends S late b c)
    (hKept : ∀ x y z, R x y → S y z → T x z) (hGained : ∀ y z, gained y → S y z → final z)
    (hLate : ∀ z, late z → final z) : Extends T final a c := by
  obtain ⟨kept, new, rfl, hLeft, hNew⟩ := h
  obtain ⟨kept', new', rfl, hBoth, hNew'⟩ := h'
  obtain ⟨c, c', rfl, hKeep, hGain⟩ := forall₂_append_left hBoth
  refine ⟨c, c' ++ new', List.append_assoc .., ?_, fun z hz => ?_⟩
  · clear hBoth hGain hNew
    induction hLeft generalizing c with
    | nil => cases hKeep; exact .nil
    | cons hHead _ ih =>
      cases hKeep with
      | cons hHead' hTail' => exact .cons (hKept _ _ _ hHead hHead') (ih _ hTail')
  · rcases List.mem_append.mp hz with hz | hz
    · exact forall₂_right hGain (fun y hy z => hGained y z (hNew y hy)) z hz
    · exact hLate z (hNew' z hz)

/-- The rows that are related are rows of the two tables. -/
theorem mem (h : Extends R gained a b) :
    Extends (fun x y => R x y ∧ x ∈ a ∧ y ∈ b) (fun y => gained y ∧ y ∈ b) a b := by
  obtain ⟨kept, new, rfl, hKept, hNew⟩ := h
  refine ⟨kept, new, rfl, ?_, fun y hy => ⟨hNew y hy, List.mem_append_right _ hy⟩⟩
  rw [List.forall₂_iff_zip] at hKept ⊢
  refine ⟨hKept.1, fun hxy => ⟨hKept.2 hxy, ?_⟩⟩
  obtain ⟨hx, hy⟩ := List.of_mem_zip hxy
  exact ⟨hx, List.mem_append_left _ hy⟩

/-- A table with a column that continues the column of another. -/
theorem of_map {κ : Type} {f : α → κ} {g : β → κ} {more : List κ}
    (h : b.map g = a.map f ++ more) :
    Extends (fun x y => g y = f x) (fun y => g y ∈ more) a b := by
  obtain ⟨kept, new, rfl, hKept, rfl⟩ := List.map_eq_append_iff.mp h
  refine ⟨kept, new, rfl, ?_, fun y hy => List.mem_map_of_mem hy⟩
  clear h
  induction a generalizing kept with
  | nil => obtain rfl := List.map_eq_nil_iff.mp hKept; exact .nil
  | cons x a ih =>
    cases kept with
    | nil => cases hKept
    | cons y kept =>
      obtain ⟨hHead, hTail⟩ := List.cons.inj hKept
      exact .cons hHead (ih kept hTail)

/-- Rows that are selected together, with the same value, and no row that was gained. -/
theorem map_filter {κ : Type} {p : α → Bool} {q : β → Bool} {f : α → κ} {g : β → κ}
    (h : Extends (fun x y => (p x = q y) ∧ (p x = true → f x = g y)) (fun y => q y = false) a b) :
    (b.filter q).map g = (a.filter p).map f := by
  obtain ⟨kept, new, rfl, hKept, hNew⟩ := h
  have hNone : new.filter q = [] := List.filter_eq_nil_iff.mpr fun y hy => by simp [hNew y hy]
  rw [List.filter_append, hNone, List.append_nil]
  induction hKept with
  | nil => rfl
  | @cons x y _ _ hHead _ ih =>
    rw [List.filter_cons, List.filter_cons, ← hHead.1]
    split
    · rw [List.map_cons, List.map_cons, ih, hHead.2 ‹_›]
    · exact ih

end Extends

end WxcodeAdm.Lib
