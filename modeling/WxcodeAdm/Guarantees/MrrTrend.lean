import WxcodeAdm.Billing.Ledger

/-! Whether the trend of the dashboard is the history.  It is computed from the present status of a
row, which is taken back to the row's creation, or from its last change if the row is canceled, and
from the present fee of the plan. -/

namespace WxcodeAdm

open Lib

variable {cfg : Config} {l l' l₀ : Ledger} {a : DatedAction} {steps : List (Ledger × DatedAction)}
  {t day : Int} {now : Nat}

/-- The database as it was at a time of the run. -/
def dbAt (t : Int) (steps : List (Ledger × DatedAction)) (l : Ledger) : Db :=
  (stateAt DatedAction.instant t steps l).db

/-- What a day came to: the subscriptions that were active, with the fees of their plans. -/
def Db.point (db : Db) (day : Int) : TrendPoint :=
  .ofFees day ((db.subscriptions.filter fun s => s.status = .active).map fun s => db.feeOf s.planId)

/-- Whenever the dashboard is computed before the next action, each point of its trend is what the
day came to at its end, or so far. -/
def TrendIsHistory (steps : List (Ledger × DatedAction)) (l : Ledger) : Prop :=
  ∀ now, l.now ≤ now → ∃ dashboard, computeMrrDashboard now l.subscriptions l.db = .ok dashboard ∧
    dashboard.trend = (trendDays now).map fun day =>
      (dbAt (min (dayEnd day) now) steps l).point day

/-- The step rewrites no past day of the trend.  On each such day the subscription whose row it
changes was active exactly if it is active or canceled after the step, and the subscriptions that
were active pay what they paid. -/
def SparesHistory (cfg : Config) (pre : List (Ledger × DatedAction)) (p : Ledger × DatedAction) :
    Prop :=
  ∀ day ∈ trendDays p.2.time, dayEnd day < p.2.instant →
    let past := dbAt (dayEnd day) pre p.1
    let after := p.2.action.after cfg p.1.backend
    ∀ was ∈ past.subscriptions, ∀ row ∈ p.1.db.subscriptions, ∀ row' ∈ after.subscriptions,
      row.tenantId = was.tenantId → row'.tenantId = was.tenantId →
      (row' ≠ row → ((row'.status = .active ∨ row'.status = .canceled) ↔ was.status = .active)) ∧
        (was.status = .active → after.feeOf row'.planId = past.feeOf was.planId)

instance (cfg : Config) (pre : List (Ledger × DatedAction)) (p : Ledger × DatedAction) :
    Decidable (SparesHistory cfg pre p) :=
  inferInstanceAs (Decidable (∀ day ∈ trendDays p.2.time, dayEnd day < p.2.instant → ∀ was ∈ _,
    ∀ row ∈ _, ∀ row' ∈ _, _ → _ → _ ∧ _))

/-! ### What the rows tell of a time -/

/-- The present row tells what the row was at a time. -/
structure Tells (t : Int) (past present : Db) (was : TenantSubscription) (d : DatedSubscription) :
    Prop where
  tenant : d.row.tenantId = was.tenantId
  created : d.createdAt ≤ t
  counted : d.countedOn t = true ↔ was.status = .active
  fee : was.status = .active → present.feeOf d.row.planId = past.feeOf was.planId

/-- The present rows tell of all rows of a time, and the others were created later. -/
def Remembers (t : Int) (past l : Ledger) : Prop :=
  Extends (Tells t past.db l.db) (fun d => t < d.createdAt) past.db.subscriptions l.subscriptions

theorem mem_trendDays (hMonth : now ≤ dayEnd day + days 29) (hPast : dayEnd day < now) :
    day ∈ trendDays now := by
  refine List.mem_map.mpr
    ⟨(now / days 1 - day).toNat, List.mem_reverse.mpr (List.mem_range.mpr ?_), ?_⟩
  all_goals
    simp only [dayEnd, days, seconds] at hMonth hPast ⊢
    omega

theorem remembers_present (hStamped : l.Stamped) (h : l.clock ≤ t) : Remembers t l l := by
  have hRows : l.db.subscriptions = l.subscriptions.map fun d => d.row := l.rows.symm
  unfold Remembers
  rw [hRows]
  refine .of_view fun d hd => ?_
  obtain ⟨hCreated, hUpdated⟩ := hStamped d hd
  have hThere : d.createdAt ≤ t := Int.le_trans (Int.ofNat_le.mpr hCreated) h
  have hNotLater : ¬t < d.updatedAt := Int.not_lt.mpr (Int.le_trans (Int.ofNat_le.mpr hUpdated) h)
  refine ⟨rfl, hThere, ?_, fun _ => rfl⟩
  simp [DatedSubscription.countedOn, hThere, hNotLater]

/-- What a row tells of a past day that the step spares. -/
theorem Tells.moves {past before after : Db} {was : TenantSubscription} {d d' : DatedSubscription}
    (h : Tells t past before was d) (hMoves : d.Moves now d') (hLater : t < now)
    (hStatus : d'.row ≠ d.row →
      ((d'.row.status = .active ∨ d'.row.status = .canceled) ↔ was.status = .active))
    (hFee : was.status = .active → after.feeOf d'.row.planId = past.feeOf was.planId) :
    Tells t past after was d' := by
  have hCreated : d'.createdAt ≤ t := hMoves.created ▸ h.created
  refine ⟨hMoves.tenant.trans h.tenant, hCreated, ?_, hFee⟩
  by_cases hSame : d'.row = d.row
  · have hUpdated := hMoves.updated
    rw [if_pos hSame] at hUpdated
    rw [← h.counted, DatedSubscription.countedOn, DatedSubscription.countedOn, hSame, hUpdated,
      hMoves.created]
  · have hUpdated := hMoves.updated
    rw [if_neg hSame] at hUpdated
    rw [← hStatus hSame]
    simp [DatedSubscription.countedOn, hCreated, hUpdated, hLater]

/-- A step that spares the history leaves what the rows tell of a past day of the trend. -/
theorem LedgerStep.remembers {pre : List (Ledger × DatedAction)} (hs : l.backend.sys.Sound cfg)
    (hStep : LedgerStep cfg l a l') (hSpares : SparesHistory cfg pre (l, a))
    (hDay : day ∈ trendDays a.time) (hPast : dayEnd day < a.instant)
    (h : Remembers (dayEnd day) (stateAt DatedAction.instant (dayEnd day) pre l) l) :
    Remembers (dayEnd day) (stateAt DatedAction.instant (dayEnd day) pre l) l' := by
  refine h.mem.trans (hStep.extends hs).mem ?_ ?_ ?_
  · rintro was d d' ⟨hTells, hWas, hd⟩ ⟨hMoves, -, hd'⟩
    have hAfter : d'.row ∈ (a.action.after cfg l.backend).subscriptions := by
      rw [← hStep.db_after]
      exact l'.mem_rows hd'
    obtain ⟨hStatus, hFee⟩ := hSpares day hDay hPast was hWas d.row (l.mem_rows hd) d'.row hAfter
      hTells.tenant (hMoves.tenant.trans hTells.tenant)
    rw [← hStep.db_after] at hFee
    exact hTells.moves hMoves hPast hStatus hFee
  · rintro d d' ⟨hLater, -⟩ ⟨hMoves, -⟩
    exact hMoves.created ▸ hLater
  · rintro d ⟨hCreated, -⟩
    exact hCreated ▸ hPast

/-- What a step leaves told of a past day, if it changes the row. -/
theorem Tells.status {past after : Db} {was : TenantSubscription} {d d' : DatedSubscription}
    (h : Tells t past after was d') (hMoves : d.Moves now d') (hLater : t < now)
    (hChanged : d'.row ≠ d.row) :
    (d'.row.status = .active ∨ d'.row.status = .canceled) ↔ was.status = .active := by
  have hUpdated := hMoves.updated
  rw [if_neg hChanged] at hUpdated
  rw [← h.counted]
  simp [DatedSubscription.countedOn, h.created, hUpdated, hLater]

theorem Ledger.unique (hs : l.backend.sys.Sound cfg) {d d' : DatedSubscription}
    (hd : d ∈ l.subscriptions) (hd' : d' ∈ l.subscriptions)
    (hTenant : d.row.tenantId = d'.row.tenantId) : d = d' := by
  have hUnique : (l.subscriptions.map fun d => d.row.tenantId).Nodup := by
    rw [l.rows_map fun s => s.tenantId]
    exact hs.valid.subscriptionTenantId
  exact List.inj_on_of_nodup_map hUnique hd hd' hTenant

/-- The rows tell of the days of every trend that is still to be computed. -/
def RowsRemember (steps : List (Ledger × DatedAction)) (l : Ledger) : Prop :=
  ∀ day, l.clock ≤ dayEnd day + days 29 →
    Remembers (dayEnd day) (stateAt DatedAction.instant (dayEnd day) steps l) l

/-- If the rows still tell of the past days, the step has spared them. -/
theorem LedgerStep.spares (hs : l.backend.sys.Sound cfg) (hStep : LedgerStep cfg l a l')
    (h : RowsRemember steps l) (h' : RowsRemember (steps ++ [(l, a)]) l') :
    SparesHistory cfg steps (l, a) := by
  intro day hDay hPast past after was hWas row hRow row' hRow' hTenant hTenant'
  have hs' := hStep.sound hs
  have hMonth := le_dayEnd_of_mem_trendDays hDay
  have hAfter := h' day ((ledger_dated _ _ _ hStep).2 ▸ hMonth)
  rw [stateAt_snoc hPast] at hAfter
  obtain ⟨d, hd, hTells⟩ := (h day (Int.le_trans (ledger_dated _ _ _ hStep).1 hMonth)).exists_of_mem hWas
  obtain ⟨d', hd', hMoves⟩ := (hStep.extends hs).exists_of_mem hd
  obtain ⟨d'', hd'', hTells'⟩ := hAfter.exists_of_mem hWas
  obtain rfl := Ledger.unique hs' hd' hd''
    ((hMoves.tenant.trans hTells.tenant).trans hTells'.tenant.symm)
  have hSame : d.row = row := List.inj_on_of_nodup_map hs.valid.subscriptionTenantId
    (l.mem_rows hd) hRow (hTells.tenant.trans hTenant.symm)
  have hSame' : d'.row = row' := by
    have hThere : row' ∈ l'.db.subscriptions := by
      rw [hStep.db_after]
      exact hRow'
    exact List.inj_on_of_nodup_map hs'.valid.subscriptionTenantId (l'.mem_rows hd') hThere
      (hTells'.tenant.trans hTenant'.symm)
  subst hSame hSame'
  refine ⟨fun hChanged => hTells'.status hMoves hPast hChanged, fun hActive => ?_⟩
  have hFee := hTells'.fee hActive
  rwa [hStep.db_after] at hFee

/-- In a run the rows tell of the trend's days in every state exactly when every step spares the
history. -/
theorem rows_remember_iff (hInit : l₀.Initial) (hRun : Run (LedgerStep cfg) l₀ steps l) :
    Throughout RowsRemember steps l ↔ AtEach (SparesHistory cfg) steps := by
  refine hRun.throughout_iff ?_ fun {pre m b n} hPre hStep h => ?_
  · refine fun day _ => ⟨[], [], by rw [hInit.empty]; rfl, ?_, by simp⟩
    have hNone : l₀.db.subscriptions = [] := by rw [Ledger.db, ← l₀.rows, hInit.empty]; rfl
    exact hNone ▸ .nil
  · have hs := Ledger.sound_of_run hInit hPre
    refine ⟨fun h' => hStep.spares hs h h', fun hSpares day hMonth => ?_⟩
    have hClock : n.clock = b.instant := (ledger_dated _ _ _ hStep).2
    rw [hClock] at hMonth
    by_cases hLater : dayEnd day < b.instant
    · rw [stateAt_snoc hLater]
      exact hStep.remembers hs hSpares (mem_trendDays hMonth hLater) hLater
        (h day (Int.le_trans (ledger_dated _ _ _ hStep).1 hMonth))
    · have hNow : n.clock ≤ dayEnd day := hClock ▸ Int.not_lt.mp hLater
      have hAll := hPre.snoc hStep
      rw [hAll.stateAt_present ledger_dated hNow]
      exact remembers_present (Ledger.stamped_of_run hInit hAll) hNow

/-! ### The trend -/

/-- The fees that the trend adds up for a day that the rows tell of. -/
theorem Remembers.fees {past : Ledger} (h : Remembers t past l) :
    (l.subscriptions.filter fun d => d.countedOn t).map (fun d => l.db.feeOf d.row.planId) =
      (past.db.subscriptions.filter fun s => s.status = .active).map fun s =>
        past.db.feeOf s.planId := by
  refine Extends.map_filter (h.imp (fun was d hTells => ⟨?_, fun hActive => ?_⟩) fun d hLater => ?_)
  · rw [Bool.eq_iff_iff, hTells.counted, decide_eq_true_eq]
  · exact (hTells.fee (of_decide_eq_true hActive)).symm
  · exact decide_eq_false fun hCounted => Int.not_lt.mpr hCounted.1 hLater

theorem trendIsHistory_of_rows (hInit : l₀.Initial) (hRun : Run (LedgerStep cfg) l₀ steps l)
    (h : RowsRemember steps l) : TrendIsHistory steps l := by
  intro now hNow
  have hValid := (Ledger.sound_of_run hInit hRun).valid
  obtain ⟨dashboard, hOk, -, -, -, hTrend⟩ :=
    @computeMrrDashboard_ok now l.subscriptions l.db fun d hd =>
      hValid.subscriptionPlan d.row (l.mem_rows hd)
  refine ⟨dashboard, hOk, hTrend.trans (List.map_congr_left fun day hDay => ?_)⟩
  have hClock : l.clock ≤ now := Int.ofNat_le.mpr hNow
  have hMonth := Int.le_trans hClock (le_dayEnd_of_mem_trendDays hDay)
  have hAt : dbAt (min (dayEnd day) now) steps l = dbAt (dayEnd day) steps l := by
    rcases Int.le_total (dayEnd day) now with hPast | hToday
    · rw [Int.min_eq_left hPast]
    · rw [Int.min_eq_right hToday, dbAt, dbAt, hRun.stateAt_present ledger_dated hClock,
        hRun.stateAt_present ledger_dated (Int.le_trans hClock hToday)]
  rw [hAt, Db.point, (h day hMonth).fees]
  rfl

/-- In a run whose steps spare the history the trend is the history in every state. -/
theorem trend_is_history (hInit : l₀.Initial) (hRun : Run (LedgerStep cfg) l₀ steps l)
    (hSpares : AtEach (SparesHistory cfg) steps) : Throughout TrendIsHistory steps l := by
  obtain ⟨hBefore, hLast⟩ := (rows_remember_iff hInit hRun).mpr hSpares
  refine ⟨fun pre p post hSteps => ?_, trendIsHistory_of_rows hInit hRun hLast⟩
  obtain ⟨n, hPre, -⟩ := hRun.split_at hSteps
  exact trendIsHistory_of_rows hInit hPre (hBefore pre p post hSteps)

/-! ### A workspace that is upgraded -/

/-- Nobody has a workspace yet. -/
def trendStart : Ledger where
  backend := ⟨sampleStart { users := [sampleUser], plans := [samplePlan, paidPlan] }, {}⟩
  now := 0
  subscriptions := []
  rows := rfl

theorem trendStart_initial : trendStart.Initial :=
  ⟨⟨by decide, rfl, rfl, rfl, rfl, rfl, rfl⟩, rfl⟩

def Ledger.billing (l : Ledger) (now : Nat) (r : Request) : DatedAction × Ledger :=
  let draws := { billingDraws l.backend.sys.log.length with tenantId := ⟨7⟩ }
  let (e, s) := l.backend.sys.serve billingConfig now draws r
  (⟨now, .request e⟩, l.record now ⟨s, l.backend.stripe⟩)

theorem Ledger.billing_step {l : Ledger} {now : Nat} {r : Request} (hTime : l.now ≤ now)
    (h : l.backend.sys.Admits billingConfig now
      { billingDraws l.backend.sys.log.length with tenantId := ⟨7⟩ } r)
    (hGenuine : r.Genuine l.backend.sys.world.cache.jobs) :
    LedgerStep billingConfig l (l.billing now r).1 (l.billing now r).2 :=
  (BackendStep.request (.of_admits h hGenuine)).recorded hTime rfl

def founderIn : DatedAction × Ledger :=
  trendStart.billing (days 20000 + seconds 10) (.login "alice@example.com" "pw" none none none)

def founderToken : Bearer := .signed
  { sub := ⟨1⟩, aud := some "wxcode-adm", iat := 1728000010, exp := 1728086410, jti := ⟨0⟩ }

def workspaceFounded : DatedAction × Ledger :=
  founderIn.2.billing (days 20000 + seconds 20) (.createWorkspace founderToken "acme")

def upgradedLater : DatedAction × Ledger :=
  workspaceFounded.2.billing (days 20003) (completedEvent "evt_1" "sub_1")

def upgradedAtOnce : DatedAction × Ledger :=
  workspaceFounded.2.billing (days 20000 + seconds 30) (completedEvent "evt_1" "sub_1")

def canceledLater : DatedAction × Ledger :=
  upgradedAtOnce.2.billing (days 20003) (deletedEvent "evt_2" "sub_1")

theorem workspaceFounded_run : Run (LedgerStep billingConfig) trendStart
    [(trendStart, founderIn.1), (founderIn.2, workspaceFounded.1)] workspaceFounded.2 :=
  .cons (Ledger.billing_step (by decide) (by decide) (by trivial)) <|
    .single (Ledger.billing_step (by decide) (by decide) (by trivial))

def laterSteps : List (Ledger × DatedAction) :=
  [(trendStart, founderIn.1), (founderIn.2, workspaceFounded.1),
    (workspaceFounded.2, upgradedLater.1)]

theorem laterSteps_run : Run (LedgerStep billingConfig) trendStart laterSteps upgradedLater.2 :=
  .snoc workspaceFounded_run (Ledger.billing_step (by decide) (by decide) (by trivial))

/-- The workspace was on the free plan for three days, of which the trend shows the paid plan. -/
theorem trend_rewritten :
    ¬∀ (cfg : Config) (l₀ l : Ledger) (steps : List (Ledger × DatedAction)), l₀.Initial →
      Run (LedgerStep cfg) l₀ steps l → Throughout TrendIsHistory steps l := by
  intro hClaim
  obtain ⟨dashboard, hOk, hTrend⟩ := (hClaim billingConfig trendStart upgradedLater.2 laterSteps
    trendStart_initial laterSteps_run).2 (days 20003) (by decide)
  obtain ⟨dashboard', hOk', -, -, -, hShown⟩ := @computeMrrDashboard_ok (days 20003)
    upgradedLater.2.subscriptions upgradedLater.2.db (by decide)
  obtain rfl := Except.ok.inj (hOk.symm.trans hOk')
  have hDay := List.map_inj_left.mp (hShown.symm.trans hTrend) 20002 (by decide)
  exact absurd (congrArg TrendPoint.activeCount hDay) (by decide)

def atOnceSteps : List (Ledger × DatedAction) :=
  [(trendStart, founderIn.1), (founderIn.2, workspaceFounded.1),
    (workspaceFounded.2, upgradedAtOnce.1), (upgradedAtOnce.2, canceledLater.1)]

theorem atOnceSteps_run : Run (LedgerStep billingConfig) trendStart atOnceSteps canceledLater.2 :=
  .snoc (.snoc workspaceFounded_run (Ledger.billing_step (by decide) (by decide) (by trivial)))
    (Ledger.billing_step (by decide) (by decide) (by trivial))

/-- The law for a workspace that is upgraded on its first day and canceled later. -/
theorem trend_is_history_atOnce : Throughout TrendIsHistory atOnceSteps canceledLater.2 :=
  trend_is_history trendStart_initial atOnceSteps_run (by decide)

end WxcodeAdm
