import WxcodeAdm.Audit.Listing
import WxcodeAdm.Guarantees.AuditTrail

/-! Reading the audit log page by page while requests add to it and purges delete from it. -/

namespace WxcodeAdm

open Lib

section Pages

variable {cfg : Config} {days n limit : Nat} {visited : Nat → AuditedSys} {row : AuditLog}

/-- The runs between the pages, put together. -/
theorem visited_run
    (hRuns : ∀ k < n, ∃ steps, Run (AuditedStep cfg days) (visited k) steps (visited (k + 1)))
    {j k : Nat} (hjk : j ≤ k) (hk : k ≤ n) :
    ∃ steps, Run (AuditedStep cfg days) (visited j) steps (visited k) := by
  induction k, hjk using Nat.le_induction with
  | base => exact ⟨[], .nil⟩
  | succ k _ ih =>
    obtain ⟨steps, hRun⟩ := ih (Nat.le_of_succ_le hk)
    obtain ⟨more, hMore⟩ := hRuns k hk
    exact ⟨steps ++ more, hRun.append hMore⟩

/-- Who asks for page after page until one is empty sees each row that passes the filters and was in
the log all the time, whatever is added to the log and deleted from it in between. -/
theorem audit_pages_miss_nothing
    (hRuns : ∀ k < n, ∃ steps, Run (AuditedStep cfg days) (visited k) steps (visited (k + 1)))
    (orders : Nat → List AuditLog → List AuditLog)
    (hOrders : ∀ k, OrdersBy AuditLog.createdAt (orders k)) (hLimit : 0 < limit)
    {parse : String → Option Uuid} {f : AuditFilters} {condition : AuditLog → Bool}
    (hCondition : f.condition parse = some condition) (hAsked : condition row = true)
    (hFirst : row ∈ (visited 0).auditLogs) (hLast : row ∈ (visited n).auditLogs)
    (hAlone : (visited n).auditLogs.countP (fun r => r.createdAt = row.createdAt) = 1)
    (hEnd : (listAuditLogs parse (orders n) (visited n).auditLogs limit (n * limit) f).1 = []) :
    ∃ k < n, row ∈
      (listAuditLogs parse (orders k) (visited k).auditLogs limit (k * limit) f).1 := by
  have hJournal := auditJournal cfg days
  have hThere (k : Nat) (hk : k ≤ n) : row ∈ (visited k).auditLogs := by
    obtain ⟨steps, hRun⟩ := visited_run hRuns (Nat.zero_le k) hk
    obtain ⟨later, hLater⟩ := visited_run hRuns hk (Nat.le_refl n)
    exact hJournal.mem_between hRun hLater hFirst hLast
  have hGrows {j k : Nat} (hjk : j ≤ k) (hk : k ≤ n) {P : AuditLog → Bool}
      (hP : ∀ r, P r = true → row.createdAt ≤ r.createdAt) :
      (visited j).auditLogs.countP P ≤ (visited k).auditLogs.countP P := by
    obtain ⟨steps, hRun⟩ := visited_run hRuns hjk hk
    exact hJournal.countP_le hRun ((hJournal.mem_log_iff hRun).mp (hThere k hk)).2 hP
  simp only [listAuditLogs, hCondition] at hEnd ⊢
  refine exists_mem_page (fun k => (visited k).auditLogs.filter condition)
    (fun k => hOrders k _) hLimit (fun k hk => ?_) (fun k hk => ?_) ?_
  · have hMem : row ∈ (visited k).auditLogs.filter condition :=
      List.mem_filter.mpr ⟨hThere k hk, hAsked⟩
    refine ⟨hMem, onOnePage_of_alone (Nat.le_antisymm ?_ ?_) limit⟩
    · refine Nat.le_trans (List.filter_sublist.countP_le) ?_
      exact hAlone ▸ hGrows hk (Nat.le_refl n) fun r hr => Nat.le_of_eq (of_decide_eq_true hr).symm
    · exact List.countP_pos_iff.mpr ⟨row, hMem, decide_eq_true rfl⟩
  · rw [before, before, List.countP_filter, List.countP_filter]
    refine hGrows (Nat.le_succ k) hk fun r hr => Nat.le_of_lt ?_
    exact of_decide_eq_true (Bool.and_eq_true_iff.mp hr).1
  · have hLength := congrArg List.length hEnd
    rw [length_page, ((hOrders n) _).perm.length_eq, List.length_nil] at hLength
    omega

end Pages

/-! ### Alice's sign-in -/

/-- The row of Alice's sign-in is there before Bob is made a viewer and after. -/
def signInRow : AuditLog where
  action := "login"
  resourceType := "session"
  actorId := some ⟨1⟩
  createdAt := seconds 10

def newestFirst (rows : List AuditLog) : List AuditLog :=
  rows.mergeSort fun a b => decide (b.createdAt ≤ a.createdAt)

def demotionVisited (k : Nat) : AuditedSys := if k = 0 then aliceAudited else demotionAudited

theorem demotionVisited_runs : ∀ k < 2, ∃ steps,
    Run (AuditedStep sampleConfig 365) (demotionVisited k) steps (demotionVisited (k + 1)) := by
  intro k hk
  match k with
  | 0 => exact ⟨_, .single (.request demotion_serves)⟩
  | 1 => exact ⟨[], .nil⟩

theorem audit_pages_miss_nothing_demotion : ∃ k < 2, signInRow ∈
    (listAuditLogs sampleLib.parseUuid newestFirst (demotionVisited k).auditLogs 1 (k * 1) {}).1 := by
  have hOrders : OrdersBy AuditLog.createdAt newestFirst := ordersBy_mergeSort _
  have hAll : ({} : AuditFilters).condition sampleLib.parseUuid = some fun _ => true := rfl
  refine audit_pages_miss_nothing demotionVisited_runs (fun _ => newestFirst) (fun _ => hOrders)
    (by decide) hAll rfl (.head _) (.head _) (by decide) ?_
  refine List.eq_nil_of_length_eq_zero ?_
  have hPage : (listAuditLogs sampleLib.parseUuid newestFirst (demotionVisited 2).auditLogs 1
      (2 * 1) {}).1 =
      page 1 (2 * 1) (newestFirst ((demotionVisited 2).auditLogs.filter fun _ => true)) := rfl
  rw [hPage, length_page, (hOrders _).perm.length_eq]
  decide

end WxcodeAdm
