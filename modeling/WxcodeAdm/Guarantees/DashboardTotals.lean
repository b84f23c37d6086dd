import Mathlib.Algebra.GroupWithZero.Nat
import WxcodeAdm.Admin.Dashboard
import WxcodeAdm.Billing.Facts

/-! The figures of the dashboard beside each other: the headline adds up the active subscriptions,
the distribution counts them plan by plan, and the trend counts the rows of a second query. -/

namespace WxcodeAdm

variable {now : Nat} {subs : List DatedSubscription} {db : Db} {plan : Plan} {plans : List Plan}
  {distribution : List PlanDistributionItem} {item : PlanDistributionItem} {f : String → Nat}

/-! ### The distribution -/

/-- The slugs that a distribution lists. -/
def slugs (distribution : List PlanDistributionItem) : List String :=
  distribution.map fun item => item.planSlug

/-- The counts, each with the weight of its plan. -/
def weigh (f : String → Nat) (distribution : List PlanDistributionItem) : Nat :=
  (distribution.map fun item => item.count * f item.planSlug).sum

theorem countPlan_cons (h : item.planSlug ≠ plan.slug) :
    countPlan (item :: distribution) plan = item :: countPlan distribution plan := by
  simp only [countPlan, List.any_cons, h, decide_false, Bool.false_or, List.map_cons, if_false]
  split <;> rfl

theorem countPlan_of_absent (h : plan.slug ∉ slugs distribution) :
    countPlan distribution plan = distribution ++ [⟨plan.slug, plan.name, 1⟩] := by
  refine if_neg fun hAny => ?_
  obtain ⟨item, hItem, hSlug⟩ := List.any_eq_true.mp hAny
  exact h (List.mem_map.mpr ⟨item, hItem, of_decide_eq_true hSlug⟩)

theorem countPlan_of_present (h : plan.slug ∈ slugs distribution) :
    countPlan distribution plan = distribution.map fun item =>
      if item.planSlug = plan.slug then { item with count := item.count + 1 } else item := by
  obtain ⟨item, hItem, hSlug⟩ := List.mem_map.mp h
  exact if_pos (List.any_eq_true.mpr ⟨item, hItem, decide_eq_true hSlug⟩)

/-- A plan that is listed stays where it is, and any other comes last. -/
theorem slugs_countPlan : slugs (countPlan distribution plan) =
    if plan.slug ∈ slugs distribution then slugs distribution
    else slugs distribution ++ [plan.slug] := by
  split
  · rename_i hPresent
    rw [countPlan_of_present hPresent, slugs, List.map_map]
    refine List.map_congr_left fun item _ => ?_
    dsimp only [Function.comp_apply]
    split <;> rfl
  · rename_i hAbsent
    rw [countPlan_of_absent hAbsent, slugs, List.map_append]
    rfl

theorem nodup_countPlan (plan : Plan) (h : (slugs distribution).Nodup) :
    (slugs (countPlan distribution plan)).Nodup := by
  rw [slugs_countPlan]
  split
  · exact h
  · rename_i hAbsent
    exact List.nodup_append.mpr ⟨h, List.nodup_singleton _, fun slug hSlug _ hLast hSame =>
      hAbsent (List.mem_singleton.mp hLast ▸ hSame ▸ hSlug)⟩

theorem mem_slugs_countPlan {slug : String} : slug ∈ slugs (countPlan distribution plan) ↔
    slug ∈ slugs distribution ∨ slug = plan.slug := by
  rw [slugs_countPlan]
  split
  · rename_i hPresent
    refine ⟨.inl, ?_⟩
    rintro (hOld | rfl)
    · exact hOld
    · exact hPresent
  · simp

/-- A subscription adds the weight of its plan, as long as no plan is listed twice. -/
theorem weigh_countPlan (h : (slugs distribution).Nodup) :
    weigh f (countPlan distribution plan) = weigh f distribution + f plan.slug := by
  induction distribution with
  | nil => simp [countPlan, weigh]
  | cons item rest ih =>
    obtain ⟨hItem, hRest⟩ := List.nodup_cons.mp h
    by_cases hSlug : item.planSlug = plan.slug
    · have hOthers : rest.map (fun item => if item.planSlug = plan.slug then
          { item with count := item.count + 1 } else item) = rest := by
        refine (List.map_congr_left fun other hOther => if_neg fun hSame => hItem ?_).trans
          (List.map_id' rest)
        exact List.mem_map.mpr ⟨other, hOther, hSame.trans hSlug.symm⟩
      have hPresent : plan.slug ∈ slugs (item :: rest) :=
        List.mem_map.mpr ⟨item, List.mem_cons_self, hSlug⟩
      rw [countPlan_of_present hPresent, List.map_cons, hOthers, if_pos hSlug]
      simp only [weigh, List.map_cons, List.sum_cons, hSlug, Nat.add_mul, Nat.one_mul]
      omega
    · have hTail := ih hRest
      rw [countPlan_cons hSlug]
      simp only [weigh, List.map_cons, List.sum_cons] at hTail ⊢
      omega

/-- The distribution of a list of plans: each is listed once, and adds its weight. -/
theorem foldl_countPlan (f : String → Nat) (plans : List Plan) (h : (slugs distribution).Nodup) :
    (slugs (plans.foldl countPlan distribution)).Nodup ∧
      (∀ slug, slug ∈ slugs (plans.foldl countPlan distribution) ↔
        slug ∈ slugs distribution ∨ ∃ p ∈ plans, p.slug = slug) ∧
      weigh f (plans.foldl countPlan distribution) =
        weigh f distribution + (plans.map fun p => f p.slug).sum := by
  induction plans generalizing distribution with
  | nil => exact ⟨h, fun slug => by simp, by simp⟩
  | cons plan plans ih =>
    obtain ⟨hNodup, hMem, hWeight⟩ := ih (nodup_countPlan plan h)
    refine ⟨hNodup, fun slug => ?_, ?_⟩
    · rw [List.foldl_cons, hMem, mem_slugs_countPlan, List.exists_mem_cons_iff, or_assoc,
        eq_comm (a := slug)]
    · rw [List.foldl_cons, hWeight, weigh_countPlan h, List.map_cons, List.sum_cons, Nat.add_assoc]

/-- What is listed are plans, by their names. -/
def Named (plans : List Plan) (distribution : List PlanDistributionItem) : Prop :=
  ∀ item ∈ distribution, ∃ plan ∈ plans, item.planSlug = plan.slug ∧ item.planName = plan.name

theorem Named.countPlan (h : Named plans distribution) (hPlan : plan ∈ plans) :
    Named plans (countPlan distribution plan) := by
  unfold WxcodeAdm.countPlan
  split
  · intro item hItem
    obtain ⟨old, hOld, rfl⟩ := List.mem_map.mp hItem
    obtain ⟨known, hKnown, hSame⟩ := h old hOld
    exact ⟨known, hKnown, by split <;> exact hSame⟩
  · exact List.forall_mem_append.mpr ⟨h, List.forall_mem_singleton.mpr ⟨plan, hPlan, rfl, rfl⟩⟩

theorem Named.foldl {counted : List Plan} (h : Named plans distribution)
    (hPlans : ∀ p ∈ counted, p ∈ plans) : Named plans (counted.foldl WxcodeAdm.countPlan distribution) :=
  List.foldlRecOn counted _ h fun _ hSoFar p hp => hSoFar.countPlan (hPlans p hp)

/-! ### The trend -/

/-- The current day. -/
def today (now : Nat) : Int := now / days 1

theorem trendDays_eq (now : Nat) :
    trendDays now = (List.range 30).map fun i => today now - 29 + (i : Nat) := by
  have hBack : (List.range 30).reverse = (List.range 30).map fun i => 29 - i := by decide
  rw [trendDays, hBack, List.map_map]
  refine List.map_congr_left fun i hi => ?_
  have hMonth : i < 30 := List.mem_range.mp hi
  simp only [Function.comp_apply, today, days, seconds]
  omega

theorem getLast?_trendDays (now : Nat) : (trendDays now).getLast? = some (today now) := by
  rw [trendDays_eq, List.getLast?_map, List.getLast?_range]
  simp

/-- By the end of the current day the rows that count are those that are active. -/
theorem countedOn_today {s : DatedSubscription} (h : s.createdAt ≤ now ∧ s.updatedAt ≤ now) :
    s.countedOn (dayEnd (today now)) = decide (s.row.status = .active) := by
  have hEnd : (now : Int) ≤ dayEnd (today now) := by
    simp only [dayEnd, today, days, seconds]
    omega
  have hCreated : (s.createdAt : Int) ≤ dayEnd (today now) := by omega
  have hUpdated : ¬dayEnd (today now) < (s.updatedAt : Int) := by omega
  simp [DatedSubscription.countedOn, hCreated, hUpdated]

/-- The fees of the active subscriptions, as the headline and as the trend find them. -/
theorem activePlans_fees (hPlans : ∀ s ∈ subs, ∃ p, db.plan s.row.planId = some p) :
    (activePlans subs db).map (fun p => p.monthlyFeeCents) =
      (subs.filter fun s => s.row.status = .active).map fun s => db.feeOf s.row.planId := by
  have hActive : ∀ s ∈ subs.filter fun s => s.row.status = .active,
      ∃ p, db.plan s.row.planId = some p := fun s hs => hPlans s (List.mem_filter.mp hs).1
  rw [activePlans]
  generalize subs.filter (fun s => s.row.status = .active) = active at hActive
  induction active with
  | nil => rfl
  | cons s rest ih =>
    rw [List.forall_mem_cons] at hActive
    obtain ⟨⟨p, hPlan⟩, hRest⟩ := hActive
    rw [List.filterMap_cons, hPlan, List.map_cons, List.map_cons, ih hRest, Db.feeOf, hPlan]
    rfl

/-! ### The figures -/

/-- A subscription to the plan is active. -/
def Db.HasActive (db : Db) (plan : Plan) : Prop :=
  ∃ s ∈ db.subscriptions, s.status = .active ∧ s.planId = plan.id

instance (db : Db) (plan : Plan) : Decidable (db.HasActive plan) :=
  inferInstanceAs (Decidable (∃ s ∈ _, _))

/-- The fee of the plan with a slug. -/
def Db.feeOfSlug (db : Db) (slug : String) : Nat :=
  ((db.plans.find? fun p => p.slug = slug).map fun p => p.monthlyFeeCents).getD 0

/-- The figures of a dashboard agree with each other, and its distribution lists certain plans. -/
structure FiguresAgree (listed : Plan → Prop) [DecidablePred listed] (now : Nat) (db : Db)
    (dashboard : MrrDashboard) : Prop where
  once : ∀ plan ∈ db.plans, (dashboard.planDistribution.countP fun item =>
    item.planSlug = plan.slug) = if listed plan then 1 else 0
  named : ∀ item ∈ dashboard.planDistribution,
    ∃ plan ∈ db.plans, item.planSlug = plan.slug ∧ item.planName = plan.name
  counts : (dashboard.planDistribution.map fun item => item.count).sum =
    dashboard.activeSubscriptionCount
  fees : (dashboard.planDistribution.map fun item => item.count * db.feeOfSlug item.planSlug).sum =
    dashboard.mrrCents
  last : dashboard.trend.getLast? =
    some ⟨isoformat (today now), dashboard.mrrCents, dashboard.activeSubscriptionCount⟩
  dates : dashboard.trend.map (fun point => point.date) =
    (List.range 30).map fun i => isoformat (today now - 29 + (i : Nat))

/-- A plan is found by its slug, which no other plan has. -/
theorem Db.Valid.feeOfSlug (hValid : db.Valid) (hPlan : plan ∈ db.plans) :
    db.feeOfSlug plan.slug = plan.monthlyFeeCents := by
  rw [Db.feeOfSlug, Db.find?_of_unique hValid.planSlug hPlan]
  rfl

theorem mem_activePlans (hRows : subs.map (fun s => s.row) = db.subscriptions) :
    plan ∈ activePlans subs db ↔
      ∃ s ∈ db.subscriptions, s.status = .active ∧ db.plan s.planId = some plan := by
  rw [activePlans, List.mem_filterMap, ← hRows]
  constructor
  · rintro ⟨s, hs, hPlan⟩
    obtain ⟨hMem, hActive⟩ := List.mem_filter.mp hs
    exact ⟨s.row, List.mem_map_of_mem hMem, of_decide_eq_true hActive, hPlan⟩
  · rintro ⟨row, hRow, hActive, hPlan⟩
    obtain ⟨s, hs, rfl⟩ := List.mem_map.mp hRow
    exact ⟨s, List.mem_filter.mpr ⟨hs, decide_eq_true hActive⟩, hPlan⟩

/-- The slugs of the active plans are those of the plans with an active subscription. -/
theorem slug_activePlans_iff (hValid : db.Valid)
    (hRows : subs.map (fun s => s.row) = db.subscriptions) (hPlan : plan ∈ db.plans) :
    (∃ p ∈ activePlans subs db, p.slug = plan.slug) ↔ db.HasActive plan := by
  constructor
  · rintro ⟨p, hp, hSlug⟩
    obtain ⟨s, hs, hActive, hFound⟩ := (mem_activePlans hRows).mp hp
    obtain rfl := List.inj_on_of_nodup_map hValid.planSlug (List.mem_of_find?_eq_some hFound) hPlan
      hSlug
    exact ⟨s, hs, hActive, by simpa [eq_comm] using List.find?_some hFound⟩
  · rintro ⟨s, hs, hActive, hId⟩
    exact ⟨plan, (mem_activePlans hRows).mpr ⟨s, hs, hActive, hId ▸ hValid.plan_of_mem hPlan⟩, rfl⟩

/-- Of a database whose timestamps are not in the future the figures agree, and the plans that are
listed are those with an active subscription. -/
theorem figures_agree (hValid : db.Valid) (hRows : subs.map (fun s => s.row) = db.subscriptions)
    (hPast : ∀ s ∈ subs, s.createdAt ≤ now ∧ s.updatedAt ≤ now) :
    ∃ dashboard, computeMrrDashboard now subs db = .ok dashboard ∧
      FiguresAgree db.HasActive now db dashboard := by
  have hPlans : ∀ s ∈ subs, ∃ p ∈ db.plans, p.id = s.row.planId := fun s hs =>
    hValid.subscriptionPlan s.row (hRows ▸ List.mem_map_of_mem hs)
  obtain ⟨dashboard, hOk, hCount, hMrr, hDistribution, hTrend⟩ :=
    @computeMrrDashboard_ok now subs db hPlans
  have hFees := activePlans_fees (Db.plan_of_valid hPlans)
  have hKnown : ∀ p ∈ activePlans subs db, p ∈ db.plans := fun p hp => by
    obtain ⟨s, -, -, hFound⟩ := (mem_activePlans hRows).mp hp
    exact List.mem_of_find?_eq_some hFound
  have hEmpty : (slugs []).Nodup := List.nodup_nil
  have hEach (f : String → Nat) := foldl_countPlan f (activePlans subs db) hEmpty
  rw [← hDistribution] at hEach
  refine ⟨dashboard, hOk, ?_, ?_, ?_, ?_, ?_, ?_⟩
  · intro plan hPlan
    obtain ⟨hNodup, hMem, -⟩ := hEach fun _ => 1
    have hCounted : dashboard.planDistribution.countP (fun item => item.planSlug = plan.slug) =
        (slugs dashboard.planDistribution).count plan.slug := by
      rw [slugs, List.count, List.countP_map]
      rfl
    have hListed : plan.slug ∈ slugs dashboard.planDistribution ↔ db.HasActive plan := by
      rw [hMem, ← slug_activePlans_iff hValid hRows hPlan, slugs, List.map_nil]
      simp only [List.not_mem_nil, false_or]
    rw [hCounted, hNodup.count]
    simp only [hListed]
  · rw [hDistribution]
    exact Named.foldl (by simp [Named]) hKnown
  · have hSum := (hEach fun _ => 1).2.2
    simpa [weigh, hCount] using hSum
  · have hSum := (hEach db.feeOfSlug).2.2
    rw [List.map_congr_left fun p hp => hValid.feeOfSlug (hKnown p hp)] at hSum
    rw [hMrr, sumFees, ← List.sum_eq_foldl_nat]
    simpa [weigh] using hSum
  · have hActive : subs.filter (fun s => s.countedOn (dayEnd (today now))) =
        subs.filter fun s => s.row.status = .active :=
      List.filter_congr fun s hs => countedOn_today (hPast s hs)
    rw [hTrend, List.getLast?_map, getLast?_trendDays, Option.map_some, TrendPoint.ofFees, hActive,
      ← hFees, List.length_map, hMrr, hCount]
  · rw [hTrend, trendDays_eq, List.map_map, List.map_map]
    rfl

/-! ### A plan that nobody is on -/

def soloSubscriptions : List DatedSubscription :=
  [{ row := { tenantId := ⟨7⟩, planId := ⟨2⟩, status := .active }
     createdAt := days 19990
     updatedAt := days 19995 }]

/-- A workspace on the paid plan, and nobody on the free one. -/
def soloDb : Db where
  users := [sampleUser]
  tenants := [billingTenant]
  plans := [samplePlan, paidPlan]
  subscriptions := soloSubscriptions.map fun s => s.row

theorem figures_agree_solo : ∃ dashboard,
    computeMrrDashboard (days 20000) soloSubscriptions soloDb = .ok dashboard ∧
      FiguresAgree soloDb.HasActive (days 20000) soloDb dashboard :=
  figures_agree (by decide) rfl (by decide)

/-- The distribution leaves out a plan without active subscriptions. -/
theorem idle_plan_unlisted :
    ¬∀ (now : Nat) (subs : List DatedSubscription) (db : Db), db.Valid →
      subs.map (fun s => s.row) = db.subscriptions →
      (∀ s ∈ subs, s.createdAt ≤ now ∧ s.updatedAt ≤ now) →
      ∃ dashboard, computeMrrDashboard now subs db = .ok dashboard ∧
        FiguresAgree (fun _ => True) now db dashboard := by
  intro hClaim
  obtain ⟨dashboard, hOk, hFigures⟩ :=
    hClaim (days 20000) soloSubscriptions soloDb (by decide) rfl (by decide)
  obtain ⟨dashboard', hOk', -, -, hDistribution, -⟩ := @computeMrrDashboard_ok (days 20000)
    soloSubscriptions soloDb (by decide)
  obtain rfl := Except.ok.inj (hOk.symm.trans hOk')
  have hOnce := hFigures.once samplePlan List.mem_cons_self
  rw [hDistribution] at hOnce
  exact absurd hOnce (by decide)

end WxcodeAdm
