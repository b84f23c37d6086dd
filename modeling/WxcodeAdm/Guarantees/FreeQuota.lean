import WxcodeAdm.Billing.Catalog

/-! The token quota of the free tier.  Whether a tenant is on the free tier is on its subscription,
and the quota looks at the fee of the plan alone; `update_plan` puts a fee on a plan whoever is on
it. -/

namespace WxcodeAdm

open Lib

/-- The plan of every free subscription costs nothing. -/
def Db.FreePlansFree (db : Db) : Prop :=
  ∀ s ∈ db.subscriptions, s.status = .free →
    ∃ p ∈ db.plans, p.id = s.planId ∧ p.monthlyFeeCents = 0

instance (db : Db) : Decidable db.FreePlansFree :=
  inferInstanceAs (Decidable (∀ _ ∈ _, _ → ∃ _ ∈ _, _))

/-- The plans of the free subscriptions cost nothing, and a tenant on the free tier that has used up
its quota is turned away. -/
structure FreeCapped (b : Backend) : Prop where
  plans : b.sys.world.db.FreePlansFree
  blocked : ∀ (c : Ctx) (token : Bearer) (header : Option String) (tenant : Tenant)
    (member : TenantMembership) (m : World) (s : TenantSubscription) (p : Plan),
    (getTenantContext c token header).run b.sys.world = .ok (tenant, member) m →
    b.sys.world.db.subscriptionOf tenant.id = some s → s.status = .free →
    b.sys.world.db.plan s.planId = some p → 0 < p.tokenQuota5h →
    p.tokenQuota5h ≤ s.tokensUsedThisPeriod →
    ∃ m', (checkTokenQuota c token header).run b.sys.world = .error (quotaExceeded p) m'

/-- The call puts no fee on a plan that a free subscription is on; one whose plan does not fit its
columns is rolled back. -/
def SparesFree (step : Backend × Action) : Prop :=
  ∀ answers planId body, step.2 = .plan answers (.update planId body) →
    ∀ plan ∈ step.1.sys.world.db.plan planId, (body.applyTo plan).Fits →
      ∀ fee ∈ body.monthlyFeeCents, fee ≠ 0 →
        ∀ s ∈ step.1.sys.world.db.subscriptions, s.status = .free → s.planId ≠ planId

/-! ### Requests -/

/-- A free subscription was one before, on the same plan, or is a new one on a plan that costs
nothing. -/
def KeepsFree (w w' : World) : Prop :=
  w'.db.plans = w.db.plans ∧ ∀ s' ∈ w'.db.subscriptions, s'.status = .free →
    (∃ s ∈ w.db.subscriptions, s.status = .free ∧ s.planId = s'.planId) ∨
      ∃ p ∈ w.db.plans, p.id = s'.planId ∧ p.monthlyFeeCents = 0

theorem KeepsFree.of_eq {w w' : World} (hPlans : w'.db.plans = w.db.plans)
    (hRows : w'.db.subscriptions = w.db.subscriptions) : KeepsFree w w' :=
  ⟨hPlans, fun s hs hFree => .inl ⟨s, hRows ▸ hs, hFree, rfl⟩⟩

instance : Std.Refl KeepsFree := ⟨fun _ => .of_eq rfl rfl⟩

instance : IsTrans World KeepsFree := ⟨by
  rintro w m w' ⟨hPlans, hRows⟩ ⟨hPlans', hRows'⟩
  refine ⟨hPlans'.trans hPlans, fun s' hs' hFree => ?_⟩
  rcases hRows' s' hs' hFree with ⟨s, hs, hOld, hSame⟩ | ⟨p, hp, hId, hFee⟩
  · rw [← hSame]
    exact hRows s hs hOld
  · exact .inr ⟨p, hPlans ▸ hp, hId, hFee⟩⟩

section Handlers

variable {c : Ctx}

theorem Touches.keepsFree {α : Type} {parts : List Part} {h : App α} (ht : Touches parts h)
    (hPlans : Part.plans ∉ parts) (hRows : Part.subscriptions ∉ parts) :
    Handler.Within KeepsFree h :=
  fun s => .of_eq (ht .plans hPlans s) (ht .subscriptions hRows s)

/-- A column of subscriptions that no free one gets, and that a free one keeps. -/
theorem updateSubscription_keepsFree {tenantId : Uuid} {f : TenantSubscription → TenantSubscription}
    (hf : ∀ s, (f s).status = .free → s.status = .free ∧ s.planId = (f s).planId) :
    Handler.Within KeepsFree (.exec fun db => db.updateSubscription tenantId f : App Unit) := by
  refine .exec fun w => ⟨rfl, fun s' hs' hFree => .inl ?_⟩
  obtain ⟨s, hs, rfl⟩ := List.mem_map.mp hs'
  split at hFree
  · obtain ⟨hOld, hPlan⟩ := hf s hFree
    refine ⟨s, hs, hOld, ?_⟩
    rw [if_pos ‹_›]
    exact hPlan
  · refine ⟨s, hs, hFree, ?_⟩
    rw [if_neg ‹_›]

/-- A plan that `get_free_plan` finds costs nothing. -/
theorem freePlan_mem {db : Db} {p : Plan} (h : db.freePlan = some p) :
    p ∈ db.plans ∧ p.monthlyFeeCents = 0 := by
  have hFold : ∀ q ∈ db.freePlan, q ∈ db.plans.filter fun p => p.monthlyFeeCents = 0 ∧ p.isActive := by
    refine List.foldlRecOn (motive := fun oldest : Option Plan => ∀ q ∈ oldest,
      q ∈ db.plans.filter fun p => p.monthlyFeeCents = 0 ∧ p.isActive) _ _ ?_ ?_
    · intro q hq
      cases hq
    · intro oldest hOldest p hp q hq
      cases oldest with
      | none => exact Option.some.inj hq ▸ hp
      | some first =>
        dsimp only at hq
        split at hq
        · exact Option.some.inj hq ▸ hp
        · exact hOldest q hq
  obtain ⟨hMem, hFree⟩ := List.mem_filter.mp (hFold p h)
  simp only [Bool.decide_and, Bool.and_eq_true, decide_eq_true_eq] at hFree
  exact ⟨hMem, hFree.1⟩

theorem bootstrapFreeSubscription_keepsFree (tenantId : Uuid) (customer : Option String) :
    Handler.Within KeepsFree (bootstrapFreeSubscription tenantId customer) := by
  intro w
  rw [bootstrapFreeSubscription, Handler.final_query_bind, Handler.final_orRaise_bind]
  cases hFound : w.db.freePlan with
  | none => exact refl_of KeepsFree w
  | some p =>
    obtain ⟨hp, hFee⟩ := freePlan_mem hFound
    have hAdded : KeepsFree w ⟨{ w.db with
        subscriptions := w.db.subscriptions ++
          [{ tenantId, planId := p.id, stripeCustomerId := customer, status := .free }] },
        w.cache⟩ := by
      refine ⟨rfl, fun s' hs' hFree => ?_⟩
      rcases List.mem_append.mp hs' with hs' | hs'
      · exact .inl ⟨s', hs', hFree, rfl⟩
      · obtain rfl := List.mem_singleton.mp hs'
        exact .inr ⟨p, hp, rfl, hFee⟩
    have hFlush : Handler.Within KeepsFree flush := touches_flush.keepsFree (by simp) (by simp)
    exact trans_of KeepsFree hAdded (hFlush _)

theorem createWorkspace_keepsFree (user : User) (name : PyStr) :
    Handler.Within KeepsFree (createWorkspace c user name) :=
  .bind (.bind (.query _) fun _ => .orRaise _ _) fun _ => .bind (.orRaise _ _) fun _ =>
    .bind (touches_tenants.keepsFree (by simp) (by simp)) fun _ =>
    .bind (touches_flush.keepsFree (by simp) (by simp)) fun _ =>
    .bind (touches_addMembership.keepsFree (by simp) (by simp)) fun _ =>
    .bind (touches_flush.keepsFree (by simp) (by simp)) fun _ =>
    .bind (bootstrapFreeSubscription_keepsFree _ _) fun _ => .pure _

theorem createCheckoutSession_keepsFree (tenantId planId : Uuid) :
    Handler.Within KeepsFree (createCheckoutSession c tenantId planId) :=
  .bind (.query _) fun _ => .bind (.orRaise _ _) fun _ => .bind (.query _) fun _ =>
    .bind (.orRaise _ _) fun _ => .bind (.ensure _ _) fun _ => .bind (.ensure _ _) fun _ =>
    .bind (.ite (updateSubscription_keepsFree fun _ hFree => ⟨hFree, rfl⟩) (.pure _)) fun _ =>
    .orRaise _ _

theorem subscriptionByStripeId_keepsFree (id : String) :
    Handler.Within KeepsFree (subscriptionByStripeId id) :=
  .bind (.query _) fun _ => .orRaise _ _

theorem handleStripeEvent_keepsFree (eventType : String) (dataObject : Json) :
    Handler.Within KeepsFree (handleStripeEvent c eventType dataObject) := by
  unfold handleStripeEvent
  split
  · exact .bind (.ofExcept _) fun _ => .bind (.ofExcept _) fun _ => .bind (.ofExcept _) fun _ =>
      .ite (.bind (.ofExcept _) fun _ => .bind (.ofExcept _) fun _ => .bind (.query _) fun found => by
        cases found with
        | none => exact .pure _
        | some _ =>
          exact .bind (.ofExcept _) fun _ => .bind (.ofExcept _) fun _ =>
            updateSubscription_keepsFree fun _ hFree => nomatch hFree) (.pure _)
  · exact .bind (.ofExcept _) fun _ => .ite (.bind (.ofExcept _) fun _ =>
      .bind (subscriptionByStripeId_keepsFree _) fun found => by
        cases found with
        | none => exact .pure _
        | some subscription =>
          refine .bind (.ofExcept _) fun status => .bind (.ofExcept _) fun _ =>
            .bind (.ofExcept _) fun _ => .bind (.ofExcept _) fun _ => .bind (.ofExcept _) fun _ =>
            updateSubscription_keepsFree fun s hFree => ⟨?_, rfl⟩
          -- no Stripe status is mapped to the free one
          change (mapStripeStatus status).getD s.status = .free at hFree
          cases hMapped : mapStripeStatus status with
          | none => rwa [hMapped] at hFree
          | some mapped =>
            rw [hMapped] at hFree
            exact absurd (hMapped.trans (congrArg some hFree)) (mapStripeStatus_ne_free status))
      (.pure _)
  · exact .bind (.ofExcept _) fun _ => .ite (.bind (.ofExcept _) fun _ =>
      .bind (subscriptionByStripeId_keepsFree _) fun found => by
        cases found with
        | none => exact .pure _
        | some _ => exact updateSubscription_keepsFree fun _ hFree => nomatch hFree) (.pure _)
  · exact .bind ((invoiceSubscription_touches dataObject).keepsFree (by simp) (by simp)) fun found => by
      cases found with
      | none => exact .pure _
      | some _ =>
        exact .ite (updateSubscription_keepsFree fun _ hFree => nomatch hFree) (.pure _)
  · exact .bind ((invoiceSubscription_touches dataObject).keepsFree (by simp) (by simp)) fun found => by
      cases found with
      | none => exact .pure _
      | some row =>
        exact .bind (updateSubscription_keepsFree fun _ hFree => nomatch hFree) fun _ =>
          (touches_afterPaymentFailed row.tenantId).keepsFree (by simp) (by simp)
  · exact .pure _

end Handlers

section Steps

variable {cfg : Config} {s s' : Sys} {e : Event} {b b' b₀ : Backend} {action : Action}
  {steps : List (Backend × Action)}

theorem Step.keepsFree (h : Step cfg s e s') : KeepsFree s.world s'.world := by
  by_cases hParts : Part.subscriptions ∈ e.request.parts
  · cases hOutcome : e.outcome with
    | error =>
      have hDb := h.rolledBack hOutcome
      exact .of_eq (by rw [hDb]) (by rw [hDb])
    | ok response =>
      have hRun := (h.committed hOutcome).1
      generalize e.request = r at hRun hParts
      cases r with
      | createWorkspace token name =>
        have hWithin : Handler.Within KeepsFree (handle (e.ctx cfg) (.createWorkspace token name)) :=
          .bind ((requireVerified_touches _).keepsFree (by simp) (by simp)) fun _ =>
            .bind (createWorkspace_keepsFree _ _) fun _ => .pure _
        exact hWithin.of_ok hRun
      | createCheckoutSession token tenant planId =>
        have hWithin : Handler.Within KeepsFree
            (handle (e.ctx cfg) (.createCheckoutSession token tenant planId)) :=
          .bind ((requireBillingAccess_touches _ _).keepsFree (by simp) (by simp)) fun _ =>
            .bind (createCheckoutSession_keepsFree _ _) fun _ => .pure _
        exact hWithin.of_ok hRun
      | stripeEvent eventId eventType dataObject =>
        have hProcess : Handler.Within KeepsFree
            (processStripeEvent (e.ctx cfg) eventId eventType dataObject) :=
            .bind (.query _) fun found => by
          cases found with
          | some _ => exact .pure _
          | none =>
            exact .bind (handleStripeEvent_keepsFree _ _) fun _ =>
              .bind (touches_webhookEvents.keepsFree (by simp) (by simp)) fun _ =>
              touches_flush.keepsFree (by simp) (by simp)
        obtain ⟨⟨⟩, m, hEvent, hRun⟩ := Handler.run_bind_ok.mp hRun
        obtain ⟨-, rfl⟩ := Handler.run_pure_ok.mp hRun
        exact hProcess.of_ok hEvent
      | _ => simp [Request.parts] at hParts
  · exact .of_eq h.plans_same (h.same hParts)

theorem Db.FreePlansFree.keeps {w w' : World} (h : w.db.FreePlansFree) (hKeeps : KeepsFree w w') :
    w'.db.FreePlansFree := by
  intro s' hs' hFree
  rw [hKeeps.1]
  rcases hKeeps.2 s' hs' hFree with ⟨s, hs, hOld, hSame⟩ | hNew
  · rw [← hSame]
    exact h s hs hOld
  · exact hNew

/-- On a plan that costs nothing, the quota is enforced. -/
theorem checkTokenQuota_blocks {w m : World} {c : Ctx} {token : Bearer} {header : Option String}
    {tenant : Tenant} {member : TenantMembership} {row : TenantSubscription} {p : Plan}
    (hValid : w.db.Valid) (hPlans : w.db.FreePlansFree)
    (hGuard : (getTenantContext c token header).run w = .ok (tenant, member) m)
    (hRow : w.db.subscriptionOf tenant.id = some row) (hFree : row.status = .free)
    (hPlan : w.db.plan row.planId = some p) (hQuota : 0 < p.tokenQuota5h)
    (hUsed : p.tokenQuota5h ≤ row.tokensUsedThisPeriod) :
    ∃ m', (checkTokenQuota c token header).run w = .error (quotaExceeded p) m' := by
  obtain ⟨db, cache⟩ := m
  obtain rfl : db = w.db := (getTenantContext_ok hGuard).1
  have hActive : (requireActiveSubscription c token header).run w =
      .ok (tenant, member, row) ⟨w.db, cache⟩ := by
    rw [requireActiveSubscription, Handler.run_bind_ok]
    refine ⟨_, _, hGuard, ?_⟩
    rw [Handler.run_query_bind, hRow, Handler.orRaise_some_bind, enforceActiveSubscription,
      Handler.run_ensure_bind_ok]
    exact ⟨⟨by simp [hFree], by simp [hFree]⟩, rfl⟩
  have hFee : p.monthlyFeeCents = 0 := by
    obtain ⟨p', hp', hId, hZero⟩ := hPlans row (List.mem_of_find?_eq_some hRow) hFree
    have hSame : p.id = row.planId := by simpa using List.find?_some hPlan
    obtain rfl := List.inj_on_of_nodup_map hValid.planId hp' (List.mem_of_find?_eq_some hPlan)
      (hId.trans hSame.symm)
    exact hZero
  refine ⟨⟨w.db, cache⟩, ?_⟩
  rw [checkTokenQuota, Handler.run_bind, hActive]
  dsimp only
  rw [Handler.run_query_bind, hPlan, Handler.orRaise_some_bind, enforceTokenQuota,
    Handler.run_ensure_bind_of_not fun h => h ⟨hFee, hQuota, hUsed⟩]

theorem FreeCapped.of_plans (hs : b.sys.Sound cfg) (h : b.sys.world.db.FreePlansFree) : FreeCapped b :=
  ⟨h, fun _ _ _ _ _ _ _ _ hGuard hRow hFree hPlan hQuota hUsed =>
    checkTokenQuota_blocks hs.valid h hGuard hRow hFree hPlan hQuota hUsed⟩

/-- The fee that the plans have after a call. -/
theorem fee_of_terms {l l' : List Plan} (h : l'.map Plan.terms = l.map Plan.terms) :
    l'.map (fun p => (p.id, p.monthlyFeeCents)) = l.map fun p => (p.id, p.monthlyFeeCents) :=
  map_of_terms (fun _ => rfl) h

/-- Whether the plans cost nothing rests on their ids and fees. -/
theorem Db.FreePlansFree.of_fees {db db' : Db} (h : db.FreePlansFree)
    (hRows : db'.subscriptions = db.subscriptions)
    (hFees : db'.plans.map (fun p => (p.id, p.monthlyFeeCents)) =
      db.plans.map fun p => (p.id, p.monthlyFeeCents)) : db'.FreePlansFree := by
  intro row hRow hFree
  obtain ⟨p, hp, hId, hFee⟩ := h row (hRows ▸ hRow) hFree
  have hIn : (p.id, p.monthlyFeeCents) ∈ db'.plans.map fun p => (p.id, p.monthlyFeeCents) :=
    hFees ▸ List.mem_map_of_mem hp
  obtain ⟨p', hp', hSame⟩ := List.mem_map.mp hIn
  simp only [Prod.mk.injEq] at hSame
  exact ⟨p', hp', hSame.1.trans hId, hSame.2.trans hFee⟩

/-- What a call does to the plans, it does not do to those of free subscriptions unless it puts a
fee on them. -/
theorem Db.FreePlansFree.effect {db : Db} {call : PlanCall} (h : db.FreePlansFree)
    (hChecked : call.Checked db)
    (hSpares : ∀ planId body, call = .update planId body → ∀ fee ∈ body.monthlyFeeCents, fee ≠ 0 →
      ∀ row ∈ db.subscriptions, row.status = .free → row.planId ≠ planId) :
    (call.effect db).FreePlansFree := by
  cases call with
  | create planId now body =>
    intro row hRow hFree
    obtain ⟨p, hp, hSame⟩ := h row hRow hFree
    exact ⟨p, List.mem_append_left _ hp, hSame⟩
  | update planId body =>
    intro row hRow hFree
    obtain ⟨p, hp, hId, hFee⟩ := h row hRow hFree
    refine ⟨_, List.mem_map_of_mem hp, ?_⟩
    split
    · rename_i hPlan
      refine ⟨hId, ?_⟩
      change body.monthlyFeeCents.getD p.monthlyFeeCents = 0
      cases hGiven : body.monthlyFeeCents with
      | none => exact hFee
      | some fee =>
        by_contra hPaid
        exact hSpares planId body rfl fee hGiven hPaid row hRow hFree (hId.symm.trans hPlan)
    · exact ⟨hId, hFee⟩
  | delete planId =>
    intro row hRow hFree
    obtain ⟨p, hp, hId, hFee⟩ := h row hRow hFree
    refine ⟨p, List.mem_filter.mpr ⟨hp, ?_⟩, hId, hFee⟩
    have hNe : p.id ≠ planId := fun hSame => hChecked.2 row hRow (hId.symm.trans hSame)
    simpa using hNe

/-- A step keeps the free tenants capped exactly when it spares their plans. -/
theorem BackendStep.freeCapped_iff (hs : b.sys.Sound cfg) (hStep : BackendStep cfg b action b')
    (h : FreeCapped b) : FreeCapped b' ↔ SparesFree (b, action) := by
  have hs' := hStep.sound hs
  constructor
  · rintro hAfter answers planId body rfl plan hFound hFits fee hFee hPaid row hRow hFree rfl
    cases hStep with
    | @plan _ _ result stores _ served =>
      obtain ⟨stores', -, hTerms, hServed⟩ := @servePlan_update cfg.lib answers
        ⟨b.sys.world.db, b.stripe⟩ row.planId body plan hs.valid hFound
      rw [if_pos hFits] at hServed
      obtain ⟨-, rfl⟩ := Prod.mk.inj (served.symm.trans hServed)
      have hRows : stores.db.subscriptions = b.sys.world.db.subscriptions := by rw [hTerms.1]; rfl
      obtain ⟨p, hp, hId, hZero⟩ := hAfter.plans row (hRows ▸ hRow) hFree
      have hIn : (p.id, p.monthlyFeeCents) ∈
          (b.sys.world.db.updatePlan row.planId body.applyTo).plans.map
            fun p => (p.id, p.monthlyFeeCents) :=
        fee_of_terms hTerms.2 ▸ List.mem_map_of_mem hp
      obtain ⟨q, hq, hSame⟩ := List.mem_map.mp hIn
      obtain ⟨q₀, -, rfl⟩ := List.mem_map.mp hq
      simp only [Prod.mk.injEq] at hSame
      obtain ⟨hSameId, hSameFee⟩ := hSame
      split at hSameFee
      · have hNew : fee = p.monthlyFeeCents := by
          rw [← hSameFee]
          change fee = body.monthlyFeeCents.getD _
          rw [show body.monthlyFeeCents = some fee from hFee]
          rfl
        exact hPaid (hNew.trans hZero)
      · rename_i hOther
        rw [if_neg hOther] at hSameId
        exact hOther (hSameId.trans hId)
  · intro hSpares
    refine .of_plans hs' ?_
    cases hStep with
    | request step => exact h.plans.keeps step.keepsFree
    | @plan answers call result stores _ served =>
      rcases servePlan_spec served with hSame | ⟨hChecked, hTerms, hValid⟩
      · dsimp only at hSame ⊢
        rw [hSame]
        exact h.plans
      · have hEffect := h.plans.effect hChecked fun planId body hCall => by
          subst hCall
          obtain ⟨plan, hPlan, rfl⟩ := hChecked
          have hFound := hs.valid.plan_of_mem hPlan
          have hFits := (hs.valid.updatePlan_iff hFound hTerms).mp hValid
          exact hSpares answers plan.id body rfl plan hFound hFits
        exact hEffect.of_fees (by rw [hTerms.1]) (fee_of_terms hTerms.2)

/-- In a run of requests and calls on the plans, from a state in which the plans of the free
subscriptions cost nothing, the free tenants stay capped in every state exactly when no update that
can be stored puts a fee on a plan that a free subscription is on. -/
theorem free_tenants_capped (hInit : Initial b₀.sys) (hStart : b₀.sys.world.db.FreePlansFree)
    (hRun : Run (BackendStep cfg) b₀ steps b) :
    Throughout (fun _ b => FreeCapped b) steps b ↔ ∀ step ∈ steps, SparesFree step := by
  rw [← atEach_const]
  have hCappedStart : FreeCapped b₀ := @FreeCapped.of_plans cfg b₀ hInit.sound hStart
  refine hRun.throughout_iff hCappedStart fun hPre hStep hCapped => ?_
  exact hStep.freeCapped_iff (Backend.sound_of_run hInit.sound hPre) hCapped

end Steps

/-! ### A fee on the free plan -/

def freeStart : Backend := ⟨billingStart, {}⟩

/-- The admin gives the free plan a fee. -/
def feeAction : Action := .plan {} (.update ⟨1⟩ { monthlyFeeCents := some 900 })

def feeCharged : Backend :=
  ⟨{ billingStart with world := { billingStart.world with
      db := (servePlan billingConfig.lib {} (.update ⟨1⟩ { monthlyFeeCents := some 900 })
        ⟨billingStart.world.db, {}⟩).2.db } }, {}⟩

theorem feeCharged_run : Run (BackendStep billingConfig) freeStart [(freeStart, feeAction)] feeCharged :=
  .single (.plan ⟨by simp, by simp, by simp⟩ rfl)

theorem freeStart_free : freeStart.sys.world.db.FreePlansFree := by decide

/-- The tenant is still on the free tier, and its plan is not free. -/
theorem free_tenants_uncapped :
    ¬∀ (cfg : Config) (b₀ b : Backend) (steps : List (Backend × Action)), Initial b₀.sys →
      b₀.sys.world.db.FreePlansFree → Run (BackendStep cfg) b₀ steps b →
      Throughout (fun _ b => FreeCapped b) steps b := by
  intro hClaim
  have hCapped := (hClaim billingConfig freeStart feeCharged _ billingStart_initial freeStart_free
    feeCharged_run).2
  have hNot : ¬feeCharged.sys.world.db.FreePlansFree := by decide
  exact hNot hCapped.plans

/-- The law at this run. -/
theorem free_tenants_capped_charged :
    Throughout (fun _ b => FreeCapped b) [(freeStart, feeAction)] feeCharged ↔
      ∀ step ∈ [(freeStart, feeAction)], SparesFree step :=
  free_tenants_capped billingStart_initial freeStart_free feeCharged_run

end WxcodeAdm
