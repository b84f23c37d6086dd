import Mathlib.Data.List.Nodup

/-! Rows that are looked up by a key, and what an insertion, an update or a deletion by the primary
key does to the row that is found. -/

namespace WxcodeAdm.Lib

variable {α κ ι : Type} [DecidableEq κ] [DecidableEq ι]

/-- The first row with a key. -/
def lookup (key : α → κ) (k : κ) (rows : List α) : Option α := rows.find? fun x => key x = k

section Lookup

variable {key : α → κ} {id : α → ι} {k : κ} {rows : List α} {row : α}

theorem lookup_some (h : lookup key k rows = some row) : row ∈ rows ∧ key row = k :=
  ⟨List.mem_of_find?_eq_some h, by simpa using List.find?_some h⟩

theorem lookup_none : lookup key k rows = none ↔ ∀ x ∈ rows, key x ≠ k := by
  simp [lookup]

/-- A row is found by its key in a column without repetitions. -/
theorem lookup_iff (hKeys : (rows.map key).Nodup) :
    lookup key k rows = some row ↔ row ∈ rows ∧ key row = k := by
  refine ⟨lookup_some, ?_⟩
  rintro ⟨hRow, rfl⟩
  cases hFound : lookup key (key row) rows with
  | none => exact absurd rfl (lookup_none.mp hFound row hRow)
  | some x =>
    obtain ⟨hx, hSame⟩ := lookup_some hFound
    rw [List.inj_on_of_nodup_map hKeys hx hRow hSame]

theorem lookup_concat : lookup key k (rows ++ [row]) =
    (lookup key k rows).or (if key row = k then some row else none) := by
  rw [lookup, lookup, List.find?_append, List.find?_singleton]
  by_cases h : key row = k <;> simp [h]

/-- An INSERT of a row with a new key. -/
theorem lookup_insert (hNew : lookup key (key row) rows = none) :
    lookup key k (rows ++ [row]) = if key row = k then some row else lookup key k rows := by
  rw [lookup_concat]
  by_cases h : key row = k
  · rw [if_pos h, if_pos h, ← h, hNew, Option.none_or]
  · rw [if_neg h, if_neg h, Option.or_none]

/-- A change of the rows that keeps their keys. -/
theorem lookup_map {f : α → α} (hKey : ∀ x, key (f x) = key x) :
    lookup key k (rows.map f) = (lookup key k rows).map f := by
  have hPred : ((fun x => decide (key x = k)) ∘ f) = fun x => decide (key x = k) := by
    funext x
    simp [hKey]
  rw [lookup, List.find?_map, hPred, lookup]

/-- An UPDATE by primary key that keeps the key. -/
theorem lookup_update (hKeys : (rows.map key).Nodup) (hIds : (rows.map id).Nodup)
    (hRow : row ∈ rows) {f : α → α} (hKey : ∀ x, key (f x) = key x) :
    lookup key k (rows.map fun x => if id x = id row then f x else x) =
      if key row = k then some (f row) else lookup key k rows := by
  rw [lookup_map fun x => by split <;> simp [hKey]]
  split
  · rename_i h
    rw [(lookup_iff hKeys).mpr ⟨hRow, h⟩, Option.map_some, if_pos rfl]
  · rename_i h
    cases hFound : lookup key k rows with
    | none => rfl
    | some x =>
      obtain ⟨hx, hKey⟩ := lookup_some hFound
      have hOther : id x ≠ id row := fun hId =>
        h (List.inj_on_of_nodup_map hIds hx hRow hId ▸ hKey)
      rw [Option.map_some, if_neg hOther]

/-- A DELETE by primary key. -/
theorem lookup_delete (hKeys : (rows.map key).Nodup) (hIds : (rows.map id).Nodup)
    (hRow : row ∈ rows) :
    lookup key k (rows.filter fun x => id x ≠ id row) =
      if key row = k then none else lookup key k rows := by
  have hOthers : ((rows.filter fun x => id x ≠ id row).map key).Nodup :=
    hKeys.sublist (List.filter_sublist.map key)
  refine Option.ext fun x => ?_
  rw [lookup_iff hOthers]
  split
  · rename_i h
    refine iff_of_false ?_ (by simp)
    rintro ⟨hx, hKey⟩
    obtain ⟨hx, hOther⟩ := List.mem_filter.mp hx
    obtain rfl := List.inj_on_of_nodup_map hKeys hx hRow (hKey.trans h.symm)
    simp at hOther
  · rename_i h
    rw [lookup_iff hKeys, List.mem_filter]
    refine ⟨fun ⟨hx, hKey⟩ => ⟨hx.1, hKey⟩, fun ⟨hx, hKey⟩ => ⟨⟨hx, ?_⟩, hKey⟩⟩
    have hOther : id x ≠ id row := fun hId =>
      h (List.inj_on_of_nodup_map hIds hx hRow hId ▸ hKey)
    simpa using hOther

end Lookup

end WxcodeAdm.Lib
