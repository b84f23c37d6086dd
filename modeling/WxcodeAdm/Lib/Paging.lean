import Mathlib.Data.List.Nodup
import Mathlib.Data.List.Pairwise
import Mathlib.Data.List.Perm.Basic
import Mathlib.Order.Lattice

/-! Pages of rows that are ordered by a key.  Rows with equal keys stand in any order, and in another
one for every page that is asked for. -/

namespace WxcodeAdm.Lib

variable {α κ : Type} [LinearOrder κ]

/-! ### Orders -/

/-- The rows by their keys, the greatest first. -/
structure OrderedBy (key : α → κ) (rows ordered : List α) : Prop where
  perm : ordered.Perm rows
  sorted : ordered.Pairwise fun a b => key b ≤ key a

/-- `ORDER BY key DESC`, as one query carries it out. -/
def OrdersBy (key : α → κ) (orderBy : List α → List α) : Prop :=
  ∀ rows, OrderedBy key rows (orderBy rows)

variable {key : α → κ} {rows ordered : List α} {x : α} {i k limit n : Nat}

theorem ordersBy_mergeSort (key : α → κ) :
    OrdersBy key fun rows => rows.mergeSort fun a b => decide (key b ≤ key a) := by
  intro rows
  refine ⟨List.mergeSort_perm _ _, List.Pairwise.imp of_decide_eq_true ?_⟩
  refine List.pairwise_mergeSort (fun a b c h h' => ?_) (fun a b => ?_) rows
  · exact decide_eq_true (le_trans (of_decide_eq_true h') (of_decide_eq_true h))
  · simpa using le_total (key b) (key a)

namespace OrderedBy

theorem append {a a' b b' : List α} (h : OrderedBy key a a') (h' : OrderedBy key b b')
    (hKeys : ∀ x ∈ a, ∀ y ∈ b, key y ≤ key x) : OrderedBy key (a ++ b) (a' ++ b') where
  perm := h.perm.append h'.perm
  sorted := List.pairwise_append.mpr ⟨h.sorted, h'.sorted, fun x hx y hy =>
    hKeys x (h.perm.mem_iff.mp hx) y (h'.perm.mem_iff.mp hy)⟩

/-- Rows with one key are in order however they stand. -/
theorem of_tied {c : κ} (hPerm : ordered.Perm rows) (h : ∀ y ∈ rows, key y = c) :
    OrderedBy key rows ordered where
  perm := hPerm
  sorted := List.pairwise_of_forall_mem_list fun a ha b hb => by
    rw [h a (hPerm.mem_iff.mp ha), h b (hPerm.mem_iff.mp hb)]

theorem of_perm {rows' : List α} (h : OrderedBy key rows ordered) (hPerm : rows.Perm rows') :
    OrderedBy key rows' ordered :=
  ⟨h.perm.trans hPerm, h.sorted⟩

/-- An order of some rows that a query can use. -/
theorem exists_orderBy (h : OrderedBy key rows ordered) :
    ∃ orderBy, OrdersBy key orderBy ∧ orderBy rows = ordered := by
  classical
  refine ⟨fun l => if l = rows then ordered else l.mergeSort fun a b => decide (key b ≤ key a),
    fun l => ?_, if_pos rfl⟩
  dsimp only
  split
  · rename_i hSame
    exact hSame ▸ h
  · exact ordersBy_mergeSort key l

end OrderedBy

/-! ### Where a row stands -/

/-- How many rows come before those with the row's key. -/
def before (key : α → κ) (rows : List α) (x : α) : Nat := rows.countP fun y => key x < key y

/-- How many rows come no later than those with the row's key. -/
def upTo (key : α → κ) (rows : List α) (x : α) : Nat := rows.countP fun y => key x ≤ key y

theorem OrderedBy.before_le (h : OrderedBy key rows ordered) (hx : ordered[i]? = some x) :
    before key rows x ≤ i := by
  obtain ⟨hi, hGet⟩ := List.getElem?_eq_some_iff.mp hx
  have hNone : (ordered.drop i).countP (fun y => key x < key y) = 0 := by
    have hSorted := h.sorted.drop (i := i)
    rw [List.drop_eq_getElem_cons hi, hGet] at hSorted ⊢
    refine List.countP_eq_zero.mpr fun y hy => ?_
    rcases List.mem_cons.mp hy with rfl | hy
    · simp
    · simpa using List.rel_of_pairwise_cons hSorted hy
  calc before key rows x
      = ordered.countP (fun y => key x < key y) := (h.perm.countP_eq _).symm
    _ = (ordered.take i ++ ordered.drop i).countP (fun y => key x < key y) := by
        rw [List.take_append_drop]
    _ = (ordered.take i).countP (fun y => key x < key y) := by
        rw [List.countP_append, hNone, Nat.add_zero]
    _ ≤ (ordered.take i).length := List.countP_le_length
    _ ≤ i := List.length_take_le i ordered

theorem OrderedBy.lt_upTo (h : OrderedBy key rows ordered) (hx : ordered[i]? = some x) :
    i < upTo key rows x := by
  obtain ⟨hi, hGet⟩ := List.getElem?_eq_some_iff.mp hx
  have hAll : (ordered.take (i + 1)).countP (fun y => key x ≤ key y) = i + 1 := by
    have hSorted := h.sorted.take (i := i + 1)
    rw [List.take_succ_eq_append_getElem hi, hGet] at hSorted ⊢
    rw [List.countP_eq_length.mpr fun y hy => ?_]
    · rw [List.length_append, List.length_take, Nat.min_eq_left (Nat.le_of_lt hi)]
      rfl
    rcases List.mem_append.mp hy with hy | hy
    · exact decide_eq_true ((List.pairwise_append.mp hSorted).2.2 y hy x List.mem_cons_self)
    · simp [List.mem_singleton.mp hy]
  calc i < i + 1 := Nat.lt_succ_self i
    _ = (ordered.take (i + 1)).countP (fun y => key x ≤ key y) := hAll.symm
    _ ≤ ordered.countP (fun y => key x ≤ key y) := (List.take_sublist _ _).countP_le
    _ = upTo key rows x := h.perm.countP_eq _

/-! ### Pages -/

/-- `LIMIT` and `OFFSET`. -/
def page (limit offset : Nat) (ordered : List α) : List α := (ordered.drop offset).take limit

theorem length_page (limit offset : Nat) (ordered : List α) :
    (page limit offset ordered).length = min limit (ordered.length - offset) := by
  rw [page, List.length_take, List.length_drop]

theorem page_sublist (limit offset : Nat) (ordered : List α) :
    (page limit offset ordered).Sublist ordered :=
  (List.take_sublist _ _).trans (List.drop_sublist _ _)

theorem mem_page (hLimit : 0 < limit) :
    x ∈ page limit (k * limit) ordered ↔ ∃ i, ordered[i]? = some x ∧ i / limit = k := by
  rw [page, List.mem_iff_getElem?]
  constructor
  · rintro ⟨j, hj⟩
    have hLt : j < limit := by
      by_contra hGe
      rw [List.getElem?_take_eq_none (Nat.le_of_not_lt hGe)] at hj
      cases hj
    rw [List.getElem?_take_of_lt hLt, List.getElem?_drop] at hj
    refine ⟨k * limit + j, hj, ?_⟩
    rw [Nat.mul_comm, Nat.mul_add_div hLimit, Nat.div_eq_of_lt hLt, Nat.add_zero]
  · rintro ⟨i, hi, rfl⟩
    refine ⟨i % limit, ?_⟩
    rw [List.getElem?_take_of_lt (Nat.mod_lt i hLimit), List.getElem?_drop, Nat.mul_comm,
      Nat.div_add_mod]
    exact hi

/-- The rows with the key of a row all stand on one page. -/
def OnOnePage (key : α → κ) (rows : List α) (limit : Nat) (x : α) : Prop :=
  before key rows x / limit = (upTo key rows x - 1) / limit

instance (key : α → κ) (rows : List α) (limit : Nat) (x : α) :
    Decidable (OnOnePage key rows limit x) :=
  inferInstanceAs (Decidable (before key rows x / limit = (upTo key rows x - 1) / limit))

/-- The rows of page after page, each asked for with an order of its own. -/
def walk (limit n : Nat) (orders : Nat → List α → List α) (rows : List α) : List α :=
  (List.range n).flatMap fun k => page limit (k * limit) (orders k rows)

variable {orders : Nat → List α → List α}

/-- A row whose ties fit is on the same page in every order. -/
theorem OrderedBy.mem_page_iff (h : OrderedBy key rows ordered) (hLimit : 0 < limit)
    (hFit : ∀ x ∈ rows, OnOnePage key rows limit x) :
    x ∈ page limit (k * limit) ordered ↔ x ∈ rows ∧ before key rows x / limit = k := by
  rw [mem_page hLimit]
  have hPage {i : Nat} (hx : ordered[i]? = some x) (hRow : x ∈ rows) :
      i / limit = before key rows x / limit := by
    refine Nat.le_antisymm ?_ (Nat.div_le_div_right (h.before_le hx))
    rw [hFit x hRow]
    exact Nat.div_le_div_right (Nat.le_sub_one_of_lt (h.lt_upTo hx))
  constructor
  · rintro ⟨i, hx, rfl⟩
    have hRow : x ∈ rows := h.perm.mem_iff.mp (List.mem_of_getElem? hx)
    exact ⟨hRow, (hPage hx hRow).symm⟩
  · rintro ⟨hRow, rfl⟩
    obtain ⟨i, hx⟩ := List.mem_iff_getElem?.mp (h.perm.mem_iff.mpr hRow)
    exact ⟨i, hx, hPage hx hRow⟩

theorem before_lt_length (key : α → κ) (hx : x ∈ rows) : before key rows x < rows.length := by
  refine Nat.lt_of_le_of_ne List.countP_le_length fun hAll => ?_
  exact lt_irrefl _ (of_decide_eq_true (List.countP_eq_length.mp hAll x hx))

/-- If no ties are split, the pages hold every row once. -/
theorem walk_perm (hNodup : rows.Nodup) (hFit : ∀ x ∈ rows, OnOnePage key rows limit x)
    (hOrders : ∀ k, OrdersBy key (orders k)) (hEnd : rows.length ≤ n * limit) :
    (walk limit n orders rows).Perm rows := by
  rcases Nat.eq_zero_or_pos limit with rfl | hLimit
  · obtain rfl : rows = [] := List.length_eq_zero_iff.mp (Nat.le_zero.mp hEnd)
    have hEmpty (k : Nat) : orders k [] = [] := (hOrders k []).perm.eq_nil
    simp [walk, hEmpty, page]
  · have hMem (k : Nat) {x : α} := (hOrders k rows).mem_page_iff (x := x) (k := k) hLimit hFit
    have hOnce : (walk limit n orders rows).Nodup := by
      refine List.nodup_flatMap.mpr ⟨fun k _ => ?_, ?_⟩
      · exact ((hOrders k rows).perm.nodup_iff.mpr hNodup).sublist (page_sublist _ _ _)
      · refine List.nodup_range.imp fun {k k'} hNe x hx hx' => hNe ?_
        exact ((hMem k).mp hx).2.symm.trans ((hMem k').mp hx').2
    refine (List.perm_ext_iff_of_nodup hOnce hNodup).mpr fun x => ?_
    rw [walk, List.mem_flatMap]
    constructor
    · rintro ⟨k, -, hx⟩
      exact ((hMem k).mp hx).1
    · intro hx
      refine ⟨before key rows x / limit, List.mem_range.mpr ?_, (hMem _).mpr ⟨hx, rfl⟩⟩
      exact Nat.div_lt_of_lt_mul (Nat.mul_comm n limit ▸
        Nat.lt_of_lt_of_le (before_lt_length key hx) hEnd)

/-! ### Ties that are split -/

/-- The rows that come before, with and after a row's key. -/
theorem perm_split (key : α → κ) (rows : List α) (x : α) :
    ((rows.filter fun y => key x < key y) ++ ((rows.filter fun y => key y = key x) ++
      rows.filter fun y => key y < key x)).Perm rows := by
  have hLater : ((rows.filter fun y => key y = key x) ++ rows.filter fun y => key y < key x).Perm
      (rows.filter fun y => !decide (key x < key y)) := by
    refine .trans (.of_eq ?_) (List.filter_append_perm (fun y => key y = key x) _)
    rw [List.filter_filter, List.filter_filter]
    congr 1 <;> refine List.filter_congr fun y _ => ?_
    · exact (Bool.and_eq_left_iff_imp.mpr fun hTied => by simp [of_decide_eq_true hTied]).symm
    · rw [Bool.eq_iff_iff]
      simp only [Bool.and_eq_true, Bool.not_eq_true', decide_eq_false_iff_not, decide_eq_true_eq,
        not_lt]
      exact ⟨fun hOlder => ⟨ne_of_lt hOlder, le_of_lt hOlder⟩,
        fun hOlder => lt_of_le_of_ne hOlder.2 hOlder.1⟩
  exact (hLater.append_left _).trans (List.filter_append_perm _ rows)

theorem before_eq_length_filter (key : α → κ) (rows : List α) (x : α) :
    before key rows x = (rows.filter fun y => key x < key y).length :=
  List.countP_eq_length_filter

theorem upTo_eq_length_filter (key : α → κ) (rows : List α) (x : α) :
    upTo key rows x = (rows.filter fun y => key x < key y).length +
      (rows.filter fun y => key y = key x).length := by
  have hNone : (rows.filter fun y => key y < key x).countP (fun y => key x ≤ key y) = 0 :=
    List.countP_eq_zero.mpr fun y hy => by simpa using (List.mem_filter.mp hy).2
  have hTied : (rows.filter fun y => key y = key x).countP (fun y => key x ≤ key y) =
      (rows.filter fun y => key y = key x).length :=
    List.countP_eq_length.mpr fun y hy => by simp [of_decide_eq_true (List.mem_filter.mp hy).2]
  have hBefore : (rows.filter fun y => key x < key y).countP (fun y => key x ≤ key y) =
      (rows.filter fun y => key x < key y).length :=
    List.countP_eq_length.mpr fun y hy =>
      decide_eq_true (le_of_lt (of_decide_eq_true (List.mem_filter.mp hy).2))
  rw [upTo, ← (perm_split key rows x).countP_eq, List.countP_append, List.countP_append, hNone,
    hTied, hBefore, Nat.add_zero]

/-- The rows with a row's key can stand in any order between the others. -/
theorem exists_orderedBy {tied : List α}
    (hTied : tied.Perm (rows.filter fun y => key y = key x)) :
    ∃ front back, OrderedBy key rows (front ++ (tied ++ back)) ∧
      front.length = before key rows x := by
  have hFront := ordersBy_mergeSort key (rows.filter fun y => key x < key y)
  have hBack := ordersBy_mergeSort key (rows.filter fun y => key y < key x)
  have hMid : OrderedBy key (rows.filter fun y => key y = key x) tied :=
    .of_tied hTied fun y hy => of_decide_eq_true (List.mem_filter.mp hy).2
  refine ⟨_, _, .of_perm (hFront.append (hMid.append hBack ?_) ?_) (perm_split key rows x), ?_⟩
  · intro y hy z hz
    rw [of_decide_eq_true (List.mem_filter.mp hy).2]
    exact le_of_lt (of_decide_eq_true (List.mem_filter.mp hz).2)
  · intro y hy z hz
    have hBefore : key x < key y := of_decide_eq_true (List.mem_filter.mp hy).2
    refine le_of_lt (lt_of_le_of_lt ?_ hBefore)
    rcases List.mem_append.mp hz with hz | hz
    · exact le_of_eq (of_decide_eq_true (List.mem_filter.mp hz).2)
    · exact le_of_lt (of_decide_eq_true (List.mem_filter.mp hz).2)
  · rw [hFront.perm.length_eq, before_eq_length_filter]

/-- A row can stand before all others with its key, and after all of them. -/
theorem exists_first_last (key : α → κ) (hx : x ∈ rows) :
    (∃ ordered, OrderedBy key rows ordered ∧ ordered[before key rows x]? = some x) ∧
      ∃ ordered, OrderedBy key rows ordered ∧ ordered[upTo key rows x - 1]? = some x := by
  have hTied : x ∈ rows.filter fun y => key y = key x :=
    List.mem_filter.mpr ⟨hx, decide_eq_true rfl⟩
  obtain ⟨others, hOthers⟩ : ∃ others, (rows.filter fun y => key y = key x).Perm (x :: others) := by
    obtain ⟨s, t, hSplit⟩ := List.append_of_mem hTied
    exact ⟨s ++ t, hSplit ▸ List.perm_middle⟩
  constructor
  · obtain ⟨front, back, hOrdered, hLength⟩ := exists_orderedBy hOthers.symm
    refine ⟨_, hOrdered, ?_⟩
    rw [List.getElem?_append_right (Nat.le_of_eq hLength), hLength, Nat.sub_self]
    rfl
  · obtain ⟨front, back, hOrdered, hLength⟩ :=
      exists_orderedBy (hOthers.trans (List.perm_append_singleton x others).symm).symm
    refine ⟨_, hOrdered, ?_⟩
    have hPlace : upTo key rows x - 1 = front.length + others.length := by
      rw [upTo_eq_length_filter, hOthers.length_eq, hLength, before_eq_length_filter,
        List.length_cons]
      omega
    rw [hPlace, List.getElem?_append_right (Nat.le_add_right _ _), Nat.add_sub_cancel_left,
      List.append_assoc, List.getElem?_append_right (Nat.le_refl _), Nat.sub_self]
    rfl

/-- If the pages hold no row twice whatever the orders, no ties are split: a row of ties that are
could come first on one page, and last on another. -/
theorem onOnePage_of_walk
    (h : ∀ orders : Nat → List α → List α, (∀ k, OrdersBy key (orders k)) →
      ∀ n, rows.length ≤ n * limit → (walk limit n orders rows).Nodup) :
    ∀ x ∈ rows, OnOnePage key rows limit x := by
  intro x hx
  rcases Nat.eq_zero_or_pos limit with rfl | hLimit
  · rw [OnOnePage, Nat.div_zero, Nat.div_zero]
  by_contra hSplit
  obtain ⟨⟨first, hFirst, hAt⟩, last, hLast, hAt'⟩ := exists_first_last key hx
  obtain ⟨orderFirst, hOrderFirst, hIsFirst⟩ := hFirst.exists_orderBy
  obtain ⟨orderLast, hOrderLast, hIsLast⟩ := hLast.exists_orderBy
  -- The page of the row's first place is asked for with the row first, the others with it last.
  let orders := fun k => if k = before key rows x / limit then orderFirst else orderLast
  have hOrders (k : Nat) : OrdersBy key (orders k) := by
    dsimp only [orders]
    split
    · exact hOrderFirst
    · exact hOrderLast
  have hOnce := h orders hOrders rows.length (Nat.le_mul_of_pos_right _ hLimit)
  have hPage : x ∈ page limit (before key rows x / limit * limit)
      (orders (before key rows x / limit) rows) := by
    simp only [orders, if_true, hIsFirst]
    exact (mem_page hLimit).mpr ⟨_, hAt, rfl⟩
  have hPage' : x ∈ page limit ((upTo key rows x - 1) / limit * limit)
      (orders ((upTo key rows x - 1) / limit) rows) := by
    simp only [orders, if_neg (Ne.symm hSplit), hIsLast]
    exact (mem_page hLimit).mpr ⟨_, hAt', rfl⟩
  have hLength := before_lt_length key hx
  have hUpTo : upTo key rows x ≤ rows.length := List.countP_le_length
  have hInRange : before key rows x / limit < rows.length :=
    Nat.lt_of_le_of_lt (Nat.div_le_self _ _) hLength
  have hInRange' : (upTo key rows x - 1) / limit < rows.length :=
    Nat.lt_of_le_of_lt (Nat.div_le_self _ _) (by omega)
  have hSymm : Std.Symm (Function.onFun List.Disjoint fun k =>
      page limit (k * limit) (orders k rows)) :=
    ⟨fun _ _ hPages _ hIn hIn' => hPages hIn' hIn⟩
  have hDisjoint := (List.nodup_flatMap.mp hOnce).2.forall (List.mem_range.mpr hInRange)
    (List.mem_range.mpr hInRange') hSplit
  exact hDisjoint hPage hPage'

/-! ### Tables that change between the pages -/

/-- A row is on the page of its place, in any order, if its ties fit on that page. -/
theorem OrderedBy.mem_page_before (h : OrderedBy key rows ordered) (hLimit : 0 < limit)
    (hx : x ∈ rows) (hFit : OnOnePage key rows limit x) :
    x ∈ page limit (before key rows x / limit * limit) ordered := by
  obtain ⟨i, hAt⟩ := List.mem_iff_getElem?.mp (h.perm.mem_iff.mpr hx)
  refine (mem_page hLimit).mpr ⟨i, hAt, Nat.le_antisymm ?_ ?_⟩
  · rw [hFit]
    exact Nat.div_le_div_right (Nat.le_sub_one_of_lt (h.lt_upTo hAt))
  · exact Nat.div_le_div_right (h.before_le hAt)

theorem upTo_eq_before_add (key : α → κ) (rows : List α) (x : α) :
    upTo key rows x = before key rows x + rows.countP fun y => key y = key x := by
  induction rows with
  | nil => rfl
  | cons a rows ih =>
    simp only [upTo, before, List.countP_cons] at ih ⊢
    rcases lt_trichotomy (key x) (key a) with h | h | h
    · simp only [h, h.le, h.ne', decide_true, decide_false, if_true, Bool.false_eq_true, if_false]
      omega
    · simp only [h, le_refl, lt_irrefl, decide_true, decide_false, if_true, Bool.false_eq_true,
        if_false] at ih ⊢
      omega
    · simp only [h.not_ge, h.not_gt, h.ne, decide_false, Bool.false_eq_true, if_false]
      omega

/-- A row alone with its key has one place. -/
theorem onOnePage_of_alone (hAlone : rows.countP (fun y => key y = key x) = 1) (limit : Nat) :
    OnOnePage key rows limit x := by
  rw [OnOnePage, upTo_eq_before_add, hAlone, Nat.add_sub_cancel]

/-- Page after page of a table that changes in between: a row that stays, and that new rows only
push back, is on one of the pages up to the end. -/
theorem exists_mem_page (tables : Nat → List α)
    (hOrders : ∀ k, OrderedBy key (tables k) (orders k (tables k))) (hLimit : 0 < limit)
    (hStays : ∀ k ≤ n, x ∈ tables k ∧ OnOnePage key (tables k) limit x)
    (hBack : ∀ k < n, before key (tables k) x ≤ before key (tables (k + 1)) x)
    (hEnd : (tables n).length ≤ n * limit) :
    ∃ k < n, x ∈ page limit (k * limit) (orders k (tables k)) := by
  have hPage (k : Nat) (hk : k ≤ n) :=
    (hOrders k).mem_page_before hLimit (hStays k hk).1 (hStays k hk).2
  have hLast : before key (tables n) x / limit < n :=
    (Nat.div_lt_iff_lt_mul hLimit).mpr
      (Nat.lt_of_lt_of_le (before_lt_length key (hStays n (Nat.le_refl n)).1) hEnd)
  -- a row that has been on no page so far is still ahead
  suffices h : ∀ j ≤ n, (∃ k < j, x ∈ page limit (k * limit) (orders k (tables k))) ∨
      j ≤ before key (tables j) x / limit from
    (h n (Nat.le_refl n)).resolve_right (Nat.not_le.mpr hLast)
  intro j
  induction j with
  | zero => exact fun _ => .inr (Nat.zero_le _)
  | succ j ih =>
    intro hj
    rcases ih (Nat.le_of_succ_le hj) with ⟨k, hk, hSeen⟩ | hAhead
    · exact .inl ⟨k, Nat.lt_succ_of_lt hk, hSeen⟩
    · rcases Nat.eq_or_lt_of_le hAhead with hHere | hBeyond
      · have hSeen := hPage j (Nat.le_of_succ_le hj)
        rw [← hHere] at hSeen
        exact .inl ⟨j, Nat.lt_succ_self j, hSeen⟩
      · exact .inr (Nat.le_trans hBeyond (Nat.div_le_div_right (hBack j hj)))

end WxcodeAdm.Lib
