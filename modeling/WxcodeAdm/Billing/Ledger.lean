import WxcodeAdm.Admin.Dashboard
import WxcodeAdm.Billing.Catalog
import WxcodeAdm.Lib.Extends
import WxcodeAdm.Lib.History

/-! The backend with the timestamps of `db/base.py` on its subscriptions, and with the times of the
calls on its plans. -/

namespace WxcodeAdm

open Lib

/-- `TimestampMixin` on a row that is flushed: `default` for a new one, `onupdate` for one that has
changed. -/
def stamp (now : Nat) (before : List DatedSubscription) (row : TenantSubscription) :
    DatedSubscription :=
  match before.find? fun d => d.row.tenantId = row.tenantId with
  | none => { row, createdAt := now, updatedAt := now }
  | some d => if d.row = row then d else { d with row, updatedAt := now }

@[simp] theorem stamp_row (now : Nat) (before : List DatedSubscription) (row : TenantSubscription) :
    (stamp now before row).row = row := by
  unfold stamp
  repeat' split
  all_goals first | rfl | assumption

/-- The backend, the time of its last action, and `tenant_subscriptions` with all its columns. -/
structure Ledger where
  backend : Backend
  now : Nat
  subscriptions : List DatedSubscription
  rows : subscriptions.map (fun d => d.row) = backend.sys.world.db.subscriptions

namespace Ledger

def db (l : Ledger) : Db := l.backend.sys.world.db

def clock (l : Ledger) : Int := l.now

/-- What is flushed at a time. -/
def record (l : Ledger) (now : Nat) (b : Backend) : Ledger where
  backend := b
  now := now
  subscriptions := b.sys.world.db.subscriptions.map (stamp now l.subscriptions)
  rows := by
    rw [List.map_map]
    exact (List.map_congr_left fun row _ => stamp_row ..).trans (List.map_id _)

theorem rows_map {κ : Type} (l : Ledger) (f : TenantSubscription → κ) :
    l.subscriptions.map (fun d => f d.row) = l.db.subscriptions.map f := by
  rw [db, ← l.rows, List.map_map]
  rfl

theorem mem_rows (l : Ledger) {d : DatedSubscription} (h : d ∈ l.subscriptions) :
    d.row ∈ l.db.subscriptions := by
  rw [db, ← l.rows]
  exact List.mem_map_of_mem h

end Ledger

structure DatedAction where
  time : Nat
  action : Action

/-- The time, among the ends of days, which can lie before the epoch. -/
def DatedAction.instant (a : DatedAction) : Int := a.time

/-- A request is served at its time, and the row of a plan is created at its. -/
def Action.At (time : Nat) : Action → Prop
  | .request e => e.now = time
  | .plan _ (.create _ now _) => now = time
  | .plan _ _ => True

/-- One action, whose rows are stamped with its time. -/
structure LedgerStep (cfg : Config) (l : Ledger) (a : DatedAction) (l' : Ledger) : Prop where
  time : l.now ≤ a.time
  dated : a.action.At a.time
  step : BackendStep cfg l.backend a.action l'.backend
  recorded : l' = l.record a.time l'.backend

/-- The database that the action leaves. -/
def Action.after (cfg : Config) (b : Backend) : Action → Db
  | .request e => (serve (e.ctx cfg) e.request b.sys.world).2.db
  | .plan answers call =>
    (servePlan cfg.lib answers call ⟨b.sys.world.db, b.stripe⟩).2.db

variable {cfg : Config} {l l' l₀ : Ledger} {a : DatedAction} {steps : List (Ledger × DatedAction)}

theorem LedgerStep.db_after (h : LedgerStep cfg l a l') :
    l'.db = a.action.after cfg l.backend := by
  have hStep := h.step
  unfold Ledger.db
  generalize l'.backend = b', a.action = action at hStep
  cases hStep with
  | request step => rw [Action.after, step.served]
  | plan _ served => rw [Action.after, served]

/-- Whatever the backend does, at a time that is not past, can be recorded. -/
theorem BackendStep.recorded {b' : Backend} (h : BackendStep cfg l.backend a.action b')
    (hTime : l.now ≤ a.time) (hAt : a.action.At a.time) : LedgerStep cfg l a (l.record a.time b') :=
  ⟨hTime, hAt, h, rfl⟩

/-- The backend runs as it does without timestamps. -/
theorem backend_run (h : Run (LedgerStep cfg) l₀ steps l) : Run (BackendStep cfg) l₀.backend
    (steps.map fun p => (p.1.backend, p.2.action)) l.backend :=
  h.map fun hStep => hStep.step

theorem ledger_dated : Dated (LedgerStep cfg) DatedAction.instant Ledger.clock := fun _ _ _ h =>
  ⟨Int.ofNat_le.mpr h.time, by rw [h.recorded]; rfl⟩

/-! ### What a step does to the rows -/

/-- The row after a step at a time, of a row that was there. -/
structure DatedSubscription.Moves (now : Nat) (d d' : DatedSubscription) : Prop where
  tenant : d'.row.tenantId = d.row.tenantId
  created : d'.createdAt = d.createdAt
  updated : d'.updatedAt = if d'.row = d.row then d.updatedAt else now

theorem stamp_moves {before : List DatedSubscription} {now : Nat} {d : DatedSubscription}
    {row : TenantSubscription} (hUnique : (before.map fun d => d.row.tenantId).Nodup)
    (hd : d ∈ before) (hTenant : row.tenantId = d.row.tenantId) :
    d.Moves now (stamp now before row) := by
  obtain ⟨found, hFound⟩ : ∃ found,
      before.find? (fun d => d.row.tenantId = row.tenantId) = some found :=
    Option.isSome_iff_exists.mp (List.find?_isSome.mpr ⟨d, hd, by simp [hTenant]⟩)
  have hSame : found.row.tenantId = row.tenantId := by simpa using List.find?_some hFound
  obtain rfl := List.inj_on_of_nodup_map hUnique (List.mem_of_find?_eq_some hFound) hd
    (hSame.trans hTenant)
  simp only [stamp, hFound]
  split
  · exact ⟨rfl, rfl, (if_pos rfl).symm⟩
  · rename_i hChanged
    exact ⟨hTenant, rfl, (if_neg (Ne.symm hChanged)).symm⟩

theorem stamp_new {before : List DatedSubscription} {now : Nat} {row : TenantSubscription}
    (hNew : row.tenantId ∉ before.map fun d => d.row.tenantId) :
    stamp now before row = ⟨row, now, now⟩ := by
  have hNone : before.find? (fun d => d.row.tenantId = row.tenantId) = none :=
    List.find?_eq_none.mpr fun d hd => by
      simpa using fun hSame => hNew (List.mem_map.mpr ⟨d, hd, hSame⟩)
  rw [stamp, hNone]

theorem LedgerStep.sound (hs : l.backend.sys.Sound cfg) (h : LedgerStep cfg l a l') :
    l'.backend.sys.Sound cfg := h.step.sound hs

/-- A step moves the rows that were there and creates others. -/
theorem LedgerStep.extends (hs : l.backend.sys.Sound cfg) (h : LedgerStep cfg l a l') :
    Extends (DatedSubscription.Moves a.time) (fun d => d.createdAt = a.time) l.subscriptions
      l'.subscriptions := by
  obtain ⟨new, hNew⟩ := h.step.tenants_grow hs
  have hUnique : (l'.db.subscriptions.map fun s => s.tenantId).Nodup :=
    (h.sound hs).valid.subscriptionTenantId
  have hOld : (l.subscriptions.map fun d => d.row.tenantId).Nodup := by
    rw [l.rows_map fun s => s.tenantId]
    exact hs.valid.subscriptionTenantId
  have hTenants : l'.subscriptions.map (fun d => d.row.tenantId) =
      l.subscriptions.map (fun d => d.row.tenantId) ++ new := by
    rw [l'.rows_map fun s => s.tenantId, l.rows_map fun s => s.tenantId]
    exact hNew
  have hStamped : ∀ d ∈ l'.subscriptions, d = stamp a.time l.subscriptions d.row := fun d hd => by
    rw [h.recorded] at hd
    obtain ⟨row, -, rfl⟩ := List.mem_map.mp hd
    rw [stamp_row]
  refine (Extends.of_map hTenants).mem.imp ?_ ?_
  · rintro d d' ⟨hTenant, hd, hd'⟩
    rw [hStamped d' hd']
    exact stamp_moves hOld hd hTenant
  · rintro d ⟨hGained, hd⟩
    have hAbsent : d.row.tenantId ∉ l.subscriptions.map fun d => d.row.tenantId := by
      rw [← l'.rows_map fun s => s.tenantId, hTenants, List.nodup_append] at hUnique
      exact fun hIn => hUnique.2.2 _ hIn _ hGained rfl
    rw [hStamped d hd, stamp_new hAbsent]

/-- No timestamp is later than the last action. -/
def Ledger.Stamped (l : Ledger) : Prop :=
  ∀ d ∈ l.subscriptions, d.createdAt ≤ l.now ∧ d.updatedAt ≤ l.now

theorem LedgerStep.keepsStamped (hs : l.Stamped) (h : LedgerStep cfg l a l') : l'.Stamped := by
  intro d hd
  rw [h.recorded] at hd ⊢
  obtain ⟨row, -, rfl⟩ := List.mem_map.mp hd
  simp only [Ledger.record, stamp]
  split
  · exact ⟨Nat.le_refl _, Nat.le_refl _⟩
  · rename_i found hFound
    obtain ⟨hCreated, hUpdated⟩ := hs found (List.mem_of_find?_eq_some hFound)
    split
    · exact ⟨Nat.le_trans hCreated h.time, Nat.le_trans hUpdated h.time⟩
    · exact ⟨Nat.le_trans hCreated h.time, Nat.le_refl _⟩

/-- A backend to which nobody has subscribed yet. -/
structure Ledger.Initial (l : Ledger) : Prop where
  backend : WxcodeAdm.Initial l.backend.sys
  empty : l.subscriptions = []

theorem Ledger.sound_of_run (hInit : l₀.Initial) (h : Run (LedgerStep cfg) l₀ steps l) :
    l.backend.sys.Sound cfg := Backend.sound_of_run hInit.backend.sound (backend_run h)

theorem Ledger.stamped_of_run (hInit : l₀.Initial) (h : Run (LedgerStep cfg) l₀ steps l) :
    l.Stamped :=
  h.invariant (I := Ledger.Stamped) (fun hs hStep => hStep.keepsStamped hs)
    (by simp [Ledger.Stamped, hInit.empty])

end WxcodeAdm
