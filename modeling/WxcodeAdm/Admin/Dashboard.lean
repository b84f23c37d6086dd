import WxcodeAdm.Context

/-! `compute_mrr_dashboard` of `admin/service.py`: the metrics of the subscriptions that are active
now, and a trend of 30 days that is computed from the present rows and their timestamps. -/

namespace WxcodeAdm

/-- A row of `tenant_subscriptions` with the timestamps of `TimestampMixin`. -/
structure DatedSubscription where
  row : TenantSubscription
  createdAt : Nat
  updatedAt : Nat
  deriving DecidableEq, Repr

/-! ### Days -/

/-- The last microsecond of the day that is `day` days after 1970-01-01, or before it. -/
def dayEnd (day : Int) : Int := (day + 1) * days 1 - 1

/-- `isoformat()` of that day, by the proleptic Gregorian calendar. -/
def isoformat (day : Int) : String :=
  let z := day + 719468
  let era := z / 146097
  let doe := (z % 146097).toNat
  let yoe := (doe - doe / 1460 + doe / 36524 - doe / 146096) / 365
  -- Years are counted from 1 March, so that a leap day is the last of its year.
  let doy := doe - (365 * yoe + yoe / 4 - yoe / 100)
  let mp := (5 * doy + 2) / 153
  let d := doy - (153 * mp + 2) / 5 + 1
  let m := if mp < 10 then mp + 3 else mp - 9
  let y := yoe + 400 * era.toNat + if m ≤ 2 then 1 else 0
  let digits (width n : Nat) : String := .ofList (List.leftpad width '0' (Nat.toDigits 10 n))
  digits 4 y ++ "-" ++ digits 2 m ++ "-" ++ digits 2 d

/-- The days of the trend, the current one last. -/
def trendDays (now : Nat) : List Int :=
  (List.range 30).reverse.map fun daysAgo => ((now : Int) - days daysAgo) / days 1

/-! ### The trend -/

structure TrendPoint where
  date : String
  mrrCents : Nat
  activeCount : Nat
  deriving DecidableEq, Repr

/-- The rows of the trend with their plans: those active, created or updated in the last 30 days. -/
def relevantSubscriptions (now : Nat) (subs : List DatedSubscription) (db : Db) :
    List (DatedSubscription × Plan) :=
  (subs.filter fun s => s.row.status = .active ∨ now - days 30 ≤ s.createdAt ∨
    now - days 30 ≤ s.updatedAt).filterMap fun s => (db.plan s.row.planId).map fun p => (s, p)

/-- One turn of the loop over the rows, with the count and the fees so far. -/
def countSubscription (dayEnd : Int) (acc : Nat × Nat) (sub : DatedSubscription × Plan) :
    Nat × Nat :=
  let counted := (acc.1 + 1, acc.2 + sub.2.monthlyFeeCents)
  if sub.1.createdAt > dayEnd then acc
  else if sub.1.row.status = .active then counted
  else if sub.1.row.status = .canceled then
    -- `updated_at` stands for the time of the cancellation.
    if sub.1.updatedAt > dayEnd then counted else acc
  else acc

def trendPoint (rows : List (DatedSubscription × Plan)) (day : Int) : TrendPoint :=
  let (activeCount, mrrCents) := rows.foldl (countSubscription (dayEnd day)) (0, 0)
  { date := isoformat day, mrrCents, activeCount }

/-! ### The dashboard -/

structure PlanDistributionItem where
  planSlug : String
  planName : String
  count : Nat
  deriving DecidableEq, Repr

/-- `churnRate` is the quotient before it is rounded to four digits. -/
structure MrrDashboard where
  activeSubscriptionCount : Nat
  mrrCents : Nat
  planDistribution : List PlanDistributionItem
  canceledCount30d : Nat
  churnRate : Rat
  trend : List TrendPoint
  computedAt : Nat
  deriving DecidableEq

/-- `sum` of the fees. -/
def sumFees (fees : List Nat) : Nat := fees.foldl (fun total fee => total + fee) 0

/-- One more subscription to the plan; a plan that is new comes last. -/
def countPlan (distribution : List PlanDistributionItem) (plan : Plan) :
    List PlanDistributionItem :=
  if distribution.any fun item => item.planSlug = plan.slug then
    distribution.map fun item =>
      if item.planSlug = plan.slug then { item with count := item.count + 1 } else item
  else distribution ++ [⟨plan.slug, plan.name, 1⟩]

/-- `sub.plan` -/
def subscriptionPlan (db : Db) (sub : DatedSubscription) : Except PyError Plan :=
  match db.plan sub.row.planId with
  | some plan => .ok plan
  | none => .error (.other "AttributeError")

def computeMrrDashboard (now : Nat) (subs : List DatedSubscription) (db : Db) :
    Except PyError MrrDashboard := do
  let activePlans ← (subs.filter fun s => s.row.status = .active).mapM (subscriptionPlan db)
  let canceled := subs.filter fun s =>
    s.row.status = .canceled ∧ now - days 30 ≤ s.updatedAt
  let denominator := activePlans.length + canceled.length
  return {
    activeSubscriptionCount := activePlans.length
    mrrCents := sumFees (activePlans.map fun p => p.monthlyFeeCents)
    planDistribution := activePlans.foldl countPlan []
    canceledCount30d := canceled.length
    churnRate := if 0 < denominator then mkRat canceled.length denominator else mkRat 0 1
    trend := (trendDays now).map (trendPoint (relevantSubscriptions now subs db))
    computedAt := now }

/-! ### What the trend counts -/

/-- The fee of a plan; a plan that is not there has none. -/
def Db.feeOf (db : Db) (planId : Uuid) : Nat :=
  ((db.plan planId).map fun p => p.monthlyFeeCents).getD 0

/-- The point of a day on which subscriptions with these fees were active. -/
def TrendPoint.ofFees (day : Int) (fees : List Nat) : TrendPoint :=
  ⟨isoformat day, sumFees fees, fees.length⟩

/-- The row counts as active at the end of the day. -/
def DatedSubscription.countedOn (dayEnd : Int) (s : DatedSubscription) : Bool :=
  s.createdAt ≤ dayEnd ∧
    (s.row.status = .active ∨ s.row.status = .canceled ∧ dayEnd < s.updatedAt)

variable {now : Nat} {day : Int} {subs : List DatedSubscription} {db : Db}

theorem countSubscription_eq (dayEnd : Int) (acc : Nat × Nat) (sub : DatedSubscription × Plan) :
    countSubscription dayEnd acc sub = if sub.1.countedOn dayEnd then
      (acc.1 + 1, acc.2 + sub.2.monthlyFeeCents) else acc := by
  unfold countSubscription DatedSubscription.countedOn
  by_cases hCreated : sub.1.createdAt ≤ dayEnd
  · rw [if_neg (Int.not_lt.mpr hCreated)]
    cases hStatus : sub.1.row.status <;> simp [hCreated]
  · rw [if_pos (Int.not_le.mp hCreated), if_neg (by simp [hCreated])]

theorem foldl_countSubscription (dayEnd : Int) (rows : List (DatedSubscription × Plan))
    (acc : Nat × Nat) :
    rows.foldl (countSubscription dayEnd) acc =
      let fees := (rows.filter fun sub => sub.1.countedOn dayEnd).map fun sub =>
        sub.2.monthlyFeeCents
      (acc.1 + fees.length, fees.foldl (fun total fee => total + fee) acc.2) := by
  induction rows generalizing acc with
  | nil => rfl
  | cons sub rows ih =>
    rw [List.foldl_cons, ih, countSubscription_eq, List.filter_cons]
    split
    · simp only [List.map_cons, List.length_cons, List.foldl_cons, Nat.add_assoc, Nat.add_comm 1]
    · rfl

theorem trendPoint_eq (rows : List (DatedSubscription × Plan)) (day : Int) :
    trendPoint rows day = .ofFees day ((rows.filter fun sub => sub.1.countedOn (dayEnd day)).map
      fun sub => sub.2.monthlyFeeCents) := by
  simp only [trendPoint, foldl_countSubscription, Nat.zero_add, TrendPoint.ofFees, sumFees]

/-- The days of the trend are those of the last month. -/
theorem le_dayEnd_of_mem_trendDays (h : day ∈ trendDays now) : now ≤ dayEnd day + days 29 := by
  obtain ⟨daysAgo, hAgo, rfl⟩ := List.mem_map.mp h
  have hMonth : daysAgo < 30 := List.mem_range.mp (List.mem_reverse.mp hAgo)
  simp only [dayEnd, days, seconds]
  omega

/-- The fees of some of the rows, which are joined with their plans. -/
theorem joined_fees (hPlans : ∀ s ∈ subs, ∃ p, db.plan s.row.planId = some p)
    (q : DatedSubscription → Bool) :
    ((subs.filterMap fun s => (db.plan s.row.planId).map fun p => (s, p)).filter
        fun sub => q sub.1).map (fun sub => sub.2.monthlyFeeCents) =
      (subs.filter q).map fun s => db.feeOf s.row.planId := by
  induction subs with
  | nil => rfl
  | cons s subs ih =>
    rw [List.forall_mem_cons] at hPlans
    obtain ⟨⟨p, hPlan⟩, hRest⟩ := hPlans
    have hFee : db.feeOf s.row.planId = p.monthlyFeeCents := by rw [Db.feeOf, hPlan]; rfl
    have hJoin : (db.plan s.row.planId).map (fun p => (s, p)) = some (s, p) := by rw [hPlan]; rfl
    simp only [List.filterMap_cons, hJoin, List.filter_cons]
    split
    · rw [List.map_cons, List.map_cons, ih hRest, hFee]
    · exact ih hRest

/-- No row that counts on a day of the trend is left out of its rows. -/
theorem relevantSubscriptions_fees (hPlans : ∀ s ∈ subs, ∃ p, db.plan s.row.planId = some p)
    {dayEnd : Int} (hMonth : now ≤ dayEnd + days 29) :
    ((relevantSubscriptions now subs db).filter fun sub => sub.1.countedOn dayEnd).map
        (fun sub => sub.2.monthlyFeeCents) =
      (subs.filter fun s => s.countedOn dayEnd).map fun s => db.feeOf s.row.planId := by
  have hRelevant (s : DatedSubscription) (hCounted : s.countedOn dayEnd = true) :
      s.row.status = .active ∨ now - days 30 ≤ s.createdAt ∨ now - days 30 ≤ s.updatedAt := by
    rcases (of_decide_eq_true hCounted).2 with hActive | ⟨-, hUpdated⟩
    · exact .inl hActive
    · refine .inr (.inr ?_)
      simp only [days, seconds] at hMonth ⊢
      omega
  rw [relevantSubscriptions, joined_fees fun s hs => hPlans s (List.mem_filter.mp hs).1,
    List.filter_filter]
  congr 1
  refine List.filter_congr fun s _ => ?_
  exact Bool.and_eq_left_iff_imp.mpr fun hCounted => decide_eq_true (hRelevant s hCounted)

theorem Db.plan_of_valid (hPlans : ∀ s ∈ subs, ∃ p ∈ db.plans, p.id = s.row.planId) :
    ∀ s ∈ subs, ∃ p, db.plan s.row.planId = some p := fun s hs => by
  obtain ⟨p, hp, hId⟩ := hPlans s hs
  exact Option.isSome_iff_exists.mp (List.find?_isSome.mpr ⟨p, hp, by simpa using hId⟩)

/-- The plans of the active subscriptions. -/
def activePlans (subs : List DatedSubscription) (db : Db) : List Plan :=
  (subs.filter fun s => s.row.status = .active).filterMap fun s => db.plan s.row.planId

theorem mapM_subscriptionPlan (hPlans : ∀ s ∈ subs, ∃ p, db.plan s.row.planId = some p) :
    subs.mapM (subscriptionPlan db) = .ok (subs.filterMap fun s => db.plan s.row.planId) := by
  induction subs with
  | nil => rfl
  | cons s subs ih =>
    rw [List.forall_mem_cons] at hPlans
    obtain ⟨⟨p, hPlan⟩, hRest⟩ := hPlans
    have hHead : subscriptionPlan db s = .ok p := by rw [subscriptionPlan, hPlan]
    rw [List.mapM_cons, hHead, ih hRest, List.filterMap_cons, hPlan]
    rfl

/-- The dashboard of a database in which the plans of all subscriptions are there: the headline,
the distribution and the trend. -/
theorem computeMrrDashboard_ok (hPlans : ∀ s ∈ subs, ∃ p ∈ db.plans, p.id = s.row.planId) :
    ∃ dashboard, computeMrrDashboard now subs db = .ok dashboard ∧
      dashboard.activeSubscriptionCount = (activePlans subs db).length ∧
      dashboard.mrrCents = sumFees ((activePlans subs db).map fun p => p.monthlyFeeCents) ∧
      dashboard.planDistribution = (activePlans subs db).foldl countPlan [] ∧
      dashboard.trend = (trendDays now).map fun day =>
        .ofFees day ((subs.filter fun s => s.countedOn (dayEnd day)).map fun s =>
          db.feeOf s.row.planId) := by
  have hPlan := Db.plan_of_valid hPlans
  have hActive := mapM_subscriptionPlan fun s hs =>
    hPlan s (List.mem_filter (p := fun s => s.row.status = .active).mp hs).1
  refine ⟨_, by rw [computeMrrDashboard, hActive]; rfl, rfl, rfl, rfl, ?_⟩
  refine List.map_congr_left fun day hDay => ?_
  rw [trendPoint_eq, relevantSubscriptions_fees hPlan (le_dayEnd_of_mem_trendDays hDay)]

end WxcodeAdm
