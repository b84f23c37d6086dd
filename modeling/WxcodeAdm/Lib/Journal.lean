import WxcodeAdm.Lib.Run

/-! A log of rows with timestamps that the steps of a system add to and cut from time to time.  A
cut deletes the rows from before a time, and nothing else does. -/

namespace WxcodeAdm.Lib

variable {α σ ι : Type}

/-- The rows that are not from before a time. -/
def cut (stamp : α → Nat) (cutoff : Nat) (log : List α) : List α :=
  log.filter fun r => cutoff ≤ stamp r

@[simp] theorem cut_zero (stamp : α → Nat) (log : List α) : cut stamp 0 log = log := by
  simp [cut]

/-- Each step cuts the log and then adds rows, where a step that does not cut has the cutoff `0`.
No cut reaches beyond the clock, and rows are not from before it. -/
structure Journal (step : σ → ι → σ → Prop) (clock : σ → Nat) (log : σ → List α) (stamp : α → Nat)
    (cutoff : σ × ι → Nat) (added : σ × ι → List α) : Prop where
  log_step {s s' : σ} {l : ι} : step s l s' →
    log s' = cut stamp (cutoff (s, l)) (log s) ++ added (s, l)
  clock_le {s s' : σ} {l : ι} : step s l s' → clock s ≤ clock s'
  cutoff_le {s s' : σ} {l : ι} : step s l s' → cutoff (s, l) ≤ clock s'
  added_stamp {s s' : σ} {l : ι} : step s l s' → ∀ r ∈ added (s, l),
    clock s ≤ stamp r ∧ cutoff (s, l) ≤ stamp r ∧ stamp r ≤ clock s'

namespace Journal

variable {step : σ → ι → σ → Prop} {clock : σ → Nat} {log : σ → List α} {stamp : α → Nat}
  {cutoff : σ × ι → Nat} {added : σ × ι → List α} {s s' : σ} {steps : List (σ × ι)}

theorem cutoffs_le (h : Journal step clock log stamp cutoff added) (hRun : Run step s steps s') :
    ∀ p ∈ steps, cutoff p ≤ clock s' := by
  induction hRun with
  | nil => simp
  | snoc _ hLast ih =>
    intro p hp
    rcases List.mem_append.mp hp with hOld | hNew
    · exact Nat.le_trans (ih p hOld) (h.clock_le hLast)
    · rw [List.mem_singleton.mp hNew]
      exact h.cutoff_le hLast

/-- After a run the log holds what it held and what was added, in that order, less what a cut has
deleted. -/
theorem log_eq (h : Journal step clock log stamp cutoff added) (hRun : Run step s steps s') :
    log s' = (log s ++ steps.flatMap added).filter
      fun r => ∀ p ∈ steps, cutoff p ≤ stamp r := by
  induction hRun with
  | nil => simp
  | @snoc steps m s' l hRun hLast ih =>
    -- what the last step adds is later than every cut so far
    have hNew : (added (m, l)).filter (fun r => ∀ p ∈ steps ++ [(m, l)], cutoff p ≤ stamp r) =
        added (m, l) := by
      refine List.filter_eq_self.mpr fun r hr => decide_eq_true fun p hp => ?_
      obtain ⟨hClock, hSelf, -⟩ := h.added_stamp hLast r hr
      rcases List.mem_append.mp hp with hOld | hIs
      · exact Nat.le_trans (h.cutoffs_le hRun p hOld) hClock
      · rw [List.mem_singleton.mp hIs]
        exact hSelf
    have hOld : ((log s ++ steps.flatMap added).filter
          fun r => ∀ p ∈ steps ++ [(m, l)], cutoff p ≤ stamp r) =
        cut stamp (cutoff (m, l)) (log m) := by
      rw [ih, cut, List.filter_filter]
      apply List.filter_congr
      intro r _
      rw [← Bool.decide_and, decide_eq_decide, List.forall_mem_append, List.forall_mem_singleton,
        and_comm]
    rw [h.log_step hLast, List.flatMap_append, ← List.append_assoc, List.filter_append (_ ++ _),
      hOld, List.flatMap_singleton, hNew]

theorem mem_log_iff (h : Journal step clock log stamp cutoff added) (hRun : Run step s steps s')
    {r : α} : r ∈ log s' ↔ (r ∈ log s ∨ ∃ p ∈ steps, r ∈ added p) ∧
      ∀ p ∈ steps, cutoff p ≤ stamp r := by
  rw [h.log_eq hRun, List.mem_filter, List.mem_append, List.mem_flatMap, decide_eq_true_iff]

/-- Of the rows that are no older than one that is spared, none goes. -/
theorem countP_le (h : Journal step clock log stamp cutoff added) (hRun : Run step s steps s')
    {x : α} (hSpared : ∀ p ∈ steps, cutoff p ≤ stamp x) {P : α → Bool}
    (hP : ∀ y, P y = true → stamp x ≤ stamp y) : (log s).countP P ≤ (log s').countP P := by
  rw [h.log_eq hRun, List.countP_filter, List.countP_append]
  refine Nat.le_trans (List.countP_mono_left fun y _ hy => ?_) (Nat.le_add_right _ _)
  rw [hy, Bool.true_and, decide_eq_true_iff]
  exact fun p hp => Nat.le_trans (hSpared p hp) (hP y hy)

/-- A row that is in the log before and after a run is there at each state in between. -/
theorem mem_between (h : Journal step clock log stamp cutoff added) {m : σ}
    {later : List (σ × ι)} (hRun : Run step s steps m) (hLater : Run step m later s') {r : α}
    (hBefore : r ∈ log s) (hAfter : r ∈ log s') : r ∈ log m := by
  obtain ⟨-, hSpared⟩ := (h.mem_log_iff (hRun.append hLater)).mp hAfter
  exact (h.mem_log_iff hRun).mpr ⟨.inl hBefore, fun p hp => hSpared p (List.mem_append_left _ hp)⟩

end Journal

end WxcodeAdm.Lib
