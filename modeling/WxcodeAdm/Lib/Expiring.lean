import Mathlib.Logic.Function.Basic

/-! A cache of keys that expire: each entry holds a value and, unless it stays for good, the
deadline at which it is gone.  Times are natural numbers in the cache's own unit.  `Covers` says
that a key is readable up to a time, which is what a deny list has to keep. -/

namespace WxcodeAdm.Lib

/-- The entries of a cache, each with its deadline if it has one. -/
structure Expiring (κ ν : Type) where
  entry : κ → Option (ν × Option Nat)

namespace Expiring

variable {κ ν : Type} {m : Expiring κ ν} {now later bound : Nat} {k k' : κ} {v : ν} {ttl : Nat}

def empty : Expiring κ ν := ⟨fun _ => none⟩

def live (now : Nat) (deadline : Option Nat) : Bool := deadline.all (now < ·)

def get (m : Expiring κ ν) (now : Nat) (k : κ) : Option ν :=
  match m.entry k with
  | some (v, deadline) => if live now deadline then some v else none
  | none => none

def has (m : Expiring κ ν) (now : Nat) (k : κ) : Bool := (m.get now k).isSome

@[simp] theorem get_empty : (empty : Expiring κ ν).get now k = none := rfl

@[simp] theorem has_empty : (empty : Expiring κ ν).has now k = false := rfl

theorem entry_of_get (h : m.get now k = some v) : ∃ deadline, m.entry k = some (v, deadline) := by
  unfold get at h
  split at h
  · rename_i v' deadline hEntry
    split at h
    · exact ⟨deadline, by rw [hEntry, Option.some.inj h]⟩
    · cases h
  · cases h

/-- An entry that can be read at a time could be read at every time before it. -/
theorem has_antitone (h : m.has later k = true) (hle : now ≤ later) : m.has now k = true := by
  unfold has get at h ⊢
  cases he : m.entry k with
  | none => simp [he] at h
  | some p =>
    obtain ⟨v, _ | d⟩ := p
    · simp [live]
    · have hd : later < d := by simpa [he, live, Option.isSome_ite] using h
      simp [live, Nat.lt_of_le_of_lt hle hd]

/-- `k` can be read at every time before `bound`. -/
def Covers (m : Expiring κ ν) (k : κ) (bound : Nat) : Prop := ∀ t < bound, m.has t k = true

/-- A key is covered up to a time when it can be read from `now` on up to that time. -/
theorem covers_of_from (h : ∀ t, now ≤ t → t < bound → m.has t k = true) (hNow : now < bound) :
    m.Covers k bound := fun t ht => by
  rcases Nat.le_total now t with hle | hle
  · exact h t hle ht
  · exact has_antitone (h now (Nat.le_refl now) hNow) hle

section Write

variable [DecidableEq κ]

/-- `v` under `k` until `now + ttl`, in place of whatever `k` held. -/
def set (m : Expiring κ ν) (now : Nat) (k : κ) (v : ν) (ttl : Nat) : Expiring κ ν :=
  ⟨Function.update m.entry k (some (v, some (now + ttl)))⟩

def setAll (m : Expiring κ ν) (now : Nat) (keys : List κ) (v : ν) (ttl : Nat) : Expiring κ ν :=
  keys.foldl (fun m k => m.set now k v ttl) m

/-- `f` applied to the live value under `k`, or to `fresh` when there is none.  A live entry keeps
its deadline and a new one has none. -/
def modify (m : Expiring κ ν) (now : Nat) (k : κ) (fresh : ν) (f : ν → ν) : Expiring κ ν :=
  match m.entry k with
  | some (v, deadline) =>
    if live now deadline then ⟨Function.update m.entry k (some (f v, deadline))⟩
    else ⟨Function.update m.entry k (some (f fresh, none))⟩
  | none => ⟨Function.update m.entry k (some (f fresh, none))⟩

def del (m : Expiring κ ν) (k : κ) : Expiring κ ν := ⟨Function.update m.entry k none⟩

theorem get_set_same :
    (m.set now k v ttl).get later k = if later < now + ttl then some v else none := by
  simp [get, set, live]

theorem get_set_other (h : k' ≠ k) : (m.set now k v ttl).get later k' = m.get later k' := by
  simp [get, set, Function.update_of_ne h]

@[simp] theorem get_del_same : (m.del k).get later k = none := by simp [get, del]

theorem get_del_other (h : k' ≠ k) : (m.del k).get later k' = m.get later k' := by
  simp [get, del, Function.update_of_ne h]

/-- A live value is changed at every time at which it can be read. -/
theorem get_modify_live {fresh : ν} {f : ν → ν} (h : m.get now k = some v) :
    (m.modify now k fresh f).get later k = (m.get later k).map f := by
  obtain ⟨deadline, hEntry⟩ := entry_of_get h
  have hLive : live now deadline = true := by
    by_contra hNot
    simp [get, hEntry, hNot] at h
  simp only [modify, hEntry, hLive, if_true, get, Function.update_self]
  split <;> rfl

theorem has_set_same : (m.set now k v ttl).has later k = decide (later < now + ttl) := by
  simp only [has, get_set_same]
  split <;> simp_all

theorem has_set_other (h : k' ≠ k) : (m.set now k v ttl).has later k' = m.has later k' := by
  simp only [has, get_set_other h]

theorem covers_set (h : bound ≤ now + ttl) : (m.set now k v ttl).Covers k bound :=
  fun t ht => by simp [has_set_same, Nat.lt_of_lt_of_le ht h]

/-- Writing a key up to `now + ttl` loses no cover that ends by then. -/
theorem Covers.set (h : m.Covers k bound) (ht : bound ≤ now + ttl) :
    (m.set now k' v ttl).Covers k bound := by
  by_cases hk : k = k'
  · subst hk; exact covers_set ht
  · exact fun t hlt => by rw [has_set_other hk]; exact h t hlt

theorem covers_setAll (keys : List κ) (hb : bound ≤ now + ttl) (h : k ∈ keys ∨ m.Covers k bound) :
    (m.setAll now keys v ttl).Covers k bound := by
  induction keys generalizing m with
  | nil => simpa [setAll] using h
  | cons key keys ih =>
    refine ih ?_
    simp only [List.mem_cons] at h
    rcases h with (rfl | h) | h
    · exact .inr (covers_set hb)
    · exact .inl h
    · exact .inr (h.set hb)

theorem has_setAll_other (keys : List κ) (h : k ∉ keys) :
    (m.setAll now keys v ttl).has later k = m.has later k := by
  induction keys generalizing m with
  | nil => rfl
  | cons key keys ih =>
    simp only [List.mem_cons, not_or] at h
    exact (ih h.2).trans (has_set_other h.1)

theorem entry_set (h : (m.set now k v ttl).entry k' ≠ none) : k' = k ∨ m.entry k' ≠ none := by
  by_cases hk : k' = k
  · exact .inl hk
  · exact .inr (by simpa [set, Function.update_of_ne hk] using h)

/-- The entries after `setAll` are the ones before and those of its keys. -/
theorem entry_setAll (keys : List κ) (h : (m.setAll now keys v ttl).entry k' ≠ none) :
    k' ∈ keys ∨ m.entry k' ≠ none := by
  induction keys generalizing m with
  | nil => exact .inr h
  | cons key keys ih =>
    rcases ih h with hIn | hSet
    · exact .inl (List.mem_cons_of_mem key hIn)
    · rcases entry_set hSet with rfl | hOld
      · exact .inl List.mem_cons_self
      · exact .inr hOld

/-- `setAll` covers a key exactly when it writes the key or the key was covered. -/
theorem covers_setAll_iff (keys : List κ) (hb : bound ≤ now + ttl) :
    (m.setAll now keys v ttl).Covers k bound ↔ k ∈ keys ∨ m.Covers k bound := by
  refine ⟨fun h => ?_, covers_setAll keys hb⟩
  by_cases hk : k ∈ keys
  · exact .inl hk
  · exact .inr fun t ht => (has_setAll_other keys hk).symm.trans (h t ht)

end Write

end Expiring

end WxcodeAdm.Lib
