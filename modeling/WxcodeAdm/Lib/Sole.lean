import Mathlib.Data.List.Nodup

/-! Tables in which exactly one row has a property, and the writes that keep it so. -/

namespace WxcodeAdm.Lib

variable {α : Type} {p : α → Bool} {l : List α} {x y : α}

/-- `x` is the one row of `l` with the property. -/
def Sole (p : α → Bool) (l : List α) (x : α) : Prop := l.filter p = [x]

namespace Sole

theorem mem (h : Sole p l x) : x ∈ l ∧ p x = true :=
  List.mem_filter.mp (h ▸ List.mem_singleton.mpr rfl)

theorem eq (h : Sole p l x) (hy : y ∈ l) (hp : p y = true) : y = x :=
  List.mem_singleton.mp (h ▸ List.mem_filter.mpr ⟨hy, hp⟩)

theorem of_unique (hNodup : l.Nodup) (hx : x ∈ l) (hp : ∀ y ∈ l, p y = true ↔ y = x) :
    Sole p l x := by
  refine List.perm_singleton.mp ((List.perm_ext_iff_of_nodup (hNodup.filter _)
    (List.nodup_singleton x)).mpr fun y => ?_)
  simp only [List.mem_filter, List.mem_singleton]
  exact ⟨fun h => (hp y h.1).mp h.2, fun h => h ▸ ⟨hx, (hp x hx).mpr rfl⟩⟩

theorem add (h : ∀ y ∈ l, p y = false) (hp : p x = true) : Sole p (l ++ [x]) x := by
  simp only [Sole, List.filter_append, List.filter_cons, hp, if_true, List.filter_nil]
  rw [List.filter_eq_nil_iff.mpr fun y hy => by simp [h y hy], List.nil_append]

/-- Rows without the property may be added, -/
theorem append {new : List α} (h : Sole p l x) (hNew : ∀ y ∈ new, p y = false) :
    Sole p (l ++ new) x := by
  rw [Sole, List.filter_append, h, List.filter_eq_nil_iff.mpr fun y hy => by simp [hNew y hy],
    List.append_nil]

/-- rows other than the sole one may be removed, -/
theorem filter (h : Sole p l x) {q : α → Bool} (hq : q x = true) : Sole p (l.filter q) x := by
  rw [Sole, List.filter_comm, h]
  simp [hq]

/-- and rows may change in other respects. -/
theorem map (h : Sole p l x) {f : α → α} (hf : ∀ y ∈ l, p (f y) = p y) :
    Sole p (l.map f) (f x) := by
  have hFilter : l.filter (p ∘ f) = l.filter p := List.filter_congr hf
  rw [Sole, List.filter_map, hFilter, h]
  rfl

/-- A change of the rows after which the property is that of one row. -/
theorem map_of_unique {f : α → α} (hNodup : l.Nodup) (hx : x ∈ l)
    (hf : ∀ y ∈ l, p (f y) = true ↔ y = x) : Sole p (l.map f) (f x) := by
  have h : Sole (p ∘ f) l x := of_unique hNodup hx hf
  rw [Sole, List.filter_map, h]
  rfl

end Sole

/-- A table with a key has at most one row with a property, if all rows with it are equal. -/
theorem length_filter_le_one {β : Type} {f : α → β} (hKey : (l.map f).Nodup)
    (hEq : ∀ x ∈ l, ∀ y ∈ l, p x = true → p y = true → x = y) : (l.filter p).length ≤ 1 := by
  have hNodup : (l.filter p).Nodup := hKey.of_map.filter p
  cases hRows : l.filter p with
  | nil => simp
  | cons x rest =>
    rw [hRows] at hNodup
    have hNil : rest = [] := by
      refine List.eq_nil_iff_forall_not_mem.mpr fun y hy => ?_
      have hX := List.mem_filter.mp (hRows ▸ List.mem_cons_self : x ∈ l.filter p)
      have hY := List.mem_filter.mp (hRows ▸ List.mem_cons_of_mem _ hy : y ∈ l.filter p)
      obtain rfl := hEq x hX.1 y hY.1 hX.2 hY.2
      exact (List.nodup_cons.mp hNodup).1 hy
    simp [hNil]

end WxcodeAdm.Lib
