import WxcodeAdm.Billing.Prices
import WxcodeAdm.Guarantees.LiveSubscription

/-! The prices at Stripe and the fees of the plans.  An update commits its fees whatever comes of the
calls that archive the old price and create the new one, and no later update makes up for a call
that failed.  What an update has archived stays so when its plan cannot be stored. -/

namespace WxcodeAdm

open Lib

/-- The four ids are all set or all null. -/
def Plan.Whole (p : Plan) : Prop :=
  (p.stripeMeterId.isSome ∧ p.stripeProductId.isSome ∧ p.stripePriceId.isSome ∧
    p.stripeOveragePriceId.isSome) ∨
  (p.stripeMeterId = none ∧ p.stripeProductId = none ∧ p.stripePriceId = none ∧
    p.stripeOveragePriceId = none)

/-- The prices of the plan are on sale for what the plan says. -/
structure Plan.Tracks (stripe : Stripe) (p : Plan) : Prop where
  flat : ∀ id ∈ p.stripePriceId, stripe.Sells id p.monthlyFeeCents
  overage : ∀ id ∈ p.stripeOveragePriceId, stripe.Sells id p.overageRateCentsPerToken
  whole : p.Whole

def Plan.prices (p : Plan) : List String := p.stripePriceId.toList ++ p.stripeOveragePriceId.toList

/-- A plan at Stripe has two prices of its own. -/
structure Plan.Linked (p : Plan) : Prop where
  whole : p.Whole
  nonempty : ∀ id, p.stripeProductId = some id ∨ id ∈ p.prices → id ≠ ""
  apart : p.prices.Nodup

/-- Each plan has its own prices, whether they are on sale or not. -/
structure Catalogue (db : Db) (stripe : Stripe) : Prop where
  linked : ∀ p ∈ db.plans, p.Linked
  known : ∀ p ∈ db.plans, ∀ id ∈ p.prices, (stripe.price id).isSome
  owned : ∀ p ∈ db.plans, ∀ q ∈ db.plans, ∀ id ∈ p.prices, id ∈ q.prices → p.id = q.id

section Catalogues

variable {db db' : Db} {stripe stripe' : Stripe} {p q : Plan}

@[simp] theorem Plan.mem_prices {id : String} :
    id ∈ p.prices ↔ p.stripePriceId = some id ∨ p.stripeOveragePriceId = some id := by
  simp [Plan.prices]

/-- A plan with the same prices for the same fees. -/
theorem Plan.Tracks.congr (hKeeps : ∀ id ∈ p.prices, stripe'.price id = stripe.price id) :
    p.Tracks stripe' ↔ p.Tracks stripe := by
  constructor
  · exact fun h => ⟨fun id hId => (Stripe.Sells.congr (hKeeps id (by simp_all))).mp (h.flat id hId),
      fun id hId => (Stripe.Sells.congr (hKeeps id (by simp_all))).mp (h.overage id hId), h.whole⟩
  · exact fun h => ⟨fun id hId => (Stripe.Sells.congr (hKeeps id (by simp_all))).mpr (h.flat id hId),
      fun id hId => (Stripe.Sells.congr (hKeeps id (by simp_all))).mpr (h.overage id hId), h.whole⟩

/-- No price is lost, and only the plan `planId` gets prices, which are new. -/
theorem Catalogue.evolve (planId : Uuid) (h : Catalogue db stripe)
    (hKnown : ∀ id, (stripe.price id).isSome → (stripe'.price id).isSome)
    (hLinked : ∀ p' ∈ db'.plans, p'.Linked)
    (hPrices : ∀ p' ∈ db'.plans, ∀ id ∈ p'.prices,
      (∃ p ∈ db.plans, p.id = p'.id ∧ id ∈ p.prices) ∨
      (p'.id = planId ∧ stripe.price id = none ∧ (stripe'.price id).isSome)) :
    Catalogue db' stripe' where
  linked := hLinked
  known p' hp' id hId := by
    rcases hPrices p' hp' id hId with ⟨p, hp, -, hOld⟩ | ⟨-, -, hNew⟩
    · exact hKnown id (h.known p hp id hOld)
    · exact hNew
  owned p' hp' q' hq' id hpId hqId := by
    rcases hPrices p' hp' id hpId, hPrices q' hq' id hqId with
      ⟨⟨p, hp, hpSame, hpOld⟩ | ⟨hpPlan, hpNew, -⟩, ⟨q, hq, hqSame, hqOld⟩ | ⟨hqPlan, hqNew, -⟩⟩
    · exact hpSame ▸ hqSame ▸ h.owned p hp q hq id hpOld hqOld
    · simpa [hqNew] using h.known p hp id hpOld
    · simpa [hpNew] using h.known q hq id hqOld
    · exact hpPlan.trans hqPlan.symm

theorem Plan.linked_of_none (h : p.terms = p) : p.Linked := by
  have hNone : p.stripeMeterId = none ∧ p.stripeProductId = none ∧ p.stripePriceId = none ∧
      p.stripeOveragePriceId = none := by
    rw [← h]
    exact ⟨rfl, rfl, rfl, rfl⟩
  refine ⟨.inr hNone, ?_, ?_⟩
  · simp [hNone]
  · simp [Plan.prices, hNone]

theorem Plan.tracks_of_none (h : p.terms = p) : p.Tracks stripe := by
  rw [← h]
  exact ⟨by simp [Plan.terms], by simp [Plan.terms], .inr ⟨rfl, rfl, rfl, rfl⟩⟩

end Catalogues

section Calls

variable {lib : Library} {answers : StripeAnswers} {stores stores' : Stores Db Stripe}
  {result : Except PyError Unit} {planId : Uuid} {now : Nat}

theorem servePlan_cache {call : PlanCall}
    (served : servePlan lib answers call stores = (result, stores')) :
    stores'.cache = ((call.handle lib answers).final stores).cache := by
  have hFlush (_ : Unit) : Handler.Within Eq flushPlans := .bind (.query _) fun _ => .ensure _ _
  have hFinal := Handler.final_bind_of_within_eq (x := call.handle lib answers) hFlush stores
  rw [← hFinal, ← Handler.atomically_cache]
  exact (congrArg (fun r => r.2.cache) served).symm

theorem createPlan_keeps {body : CreatePlanRequest} (fresh : answers.Fresh stores.cache) :
    stores.cache.Keeps ((createPlan answers planId now body).final stores).cache := by
  rw [createPlan, Handler.final_query_bind, Handler.final_ensure_bind]
  split
  · rw [Handler.final_bind, Handler.run_exec, flushPlans]
    dsimp only
    rw [bind_assoc, Handler.final_query_bind, Handler.final_ensure_bind]
    split
    · exact syncNewPlan_keeps fresh
    · exact .refl _
  · exact .refl _

/-- The database with one more plan. -/
def Db.addPlan (db : Db) (p : Plan) : Db := { db with plans := db.plans ++ [p] }

/-- The ids of a plan that was added last are filled in. -/
theorem Db.Valid.updatePlan_last {db : Db} {plan : Plan} {f : Plan → Plan}
    (h : (db.addPlan plan).Valid) (hId : ∀ p, (f p).id = p.id) (hTerms : ∀ p, (f p).terms = p.terms) :
    (db.addPlan plan).updatePlan plan.id f = db.addPlan (f plan) ∧ (db.addPlan (f plan)).Valid := by
  have hOthers : ∀ p ∈ db.plans, p.id ≠ plan.id := fun p hp hSame => by
    have hNodup := h.planId
    rw [Db.addPlan, List.map_append, List.nodup_append] at hNodup
    exact hNodup.2.2 p.id (List.mem_map_of_mem hp) plan.id (by simp) hSame
  have hPlans : (db.plans ++ [plan]).map (fun p => if p.id = plan.id then f p else p) =
      db.plans ++ [f plan] := by
    rw [List.map_append]
    refine congrArg₂ _ ?_ (by simp)
    refine (List.map_congr_left fun p hp => ?_).trans (List.map_id _)
    exact if_neg (hOthers p hp)
  have hSame : (db.addPlan plan).updatePlan plan.id f = db.addPlan (f plan) := by
    simp only [Db.updatePlan, Db.addPlan, hPlans]
  refine ⟨hSame, h.setPlans rfl ?_ ?_ fun p hp => ?_⟩
  · rw [Db.addPlan, Db.addPlan, List.map_append, List.map_append]
    simp [hId]
  · have hSlug : (f plan).terms.slug = plan.terms.slug := congrArg Plan.slug (hTerms plan)
    change (f plan).slug = plan.slug at hSlug
    rw [Db.addPlan, Db.addPlan, List.map_append, List.map_append]
    simp [hSlug]
  · rcases List.mem_append.mp hp with hp | hp
    · exact h.planValues p (List.mem_append_left _ hp)
    · obtain rfl := List.mem_singleton.mp hp
      have hFits : (f plan).terms.Fits ↔ plan.terms.Fits := iff_of_eq (congrArg Plan.Fits (hTerms plan))
      exact hFits.mpr (h.planValues plan (List.mem_append_right _ (List.mem_singleton_self _)))

/-- A call that creates a plan leaves the prices at Stripe.  Where the plan can be added, the call
gives it new prices or none. -/
theorem servePlan_create {body : CreatePlanRequest} (fresh : answers.Fresh stores.cache)
    (served : servePlan lib answers (.create planId now body) stores = (result, stores')) :
    stores.cache.Keeps stores'.cache ∧
      (¬(stores.db.addPlan (body.plan planId now)).Valid ∧ stores'.db.plans = stores.db.plans ∨
        (stores.db.addPlan (body.plan planId now)).Valid ∧
          ∃ p, stores'.db.plans = stores.db.plans ++ [p] ∧ p.terms = body.plan planId now ∧
          p.Linked ∧ p.Tracks stores'.cache ∧ (∀ id ∈ p.prices, stores.cache.price id = none) ∧
          (answers.Create → p.stripeOveragePriceId.isSome)) := by
  have hKeeps : stores.cache.Keeps stores'.cache := by
    rw [servePlan_cache served]
    exact createPlan_keeps fresh
  refine ⟨hKeeps, ?_⟩
  by_cases hTakes : (stores.db.addPlan (body.plan planId now)).Valid
  · refine .inr ⟨hTakes, ?_⟩
    have hSlug : (stores.db.plans.find? fun p => p.slug = body.slug) = none := by
      refine List.find?_eq_none.mpr fun p hp hSame => ?_
      have hNodup := hTakes.planSlug
      rw [Db.addPlan, List.map_append, List.nodup_append] at hNodup
      exact hNodup.2.2 p.slug (List.mem_map_of_mem hp) body.slug (by simp [CreatePlanRequest.plan])
        (by simpa using hSame)
    obtain ⟨m, hSync, -, hDb⟩ := @syncNewPlan_spec answers
      ⟨stores.db.addPlan (body.plan planId now), stores.cache⟩ (body.plan planId now) fresh
    have hHandle : ((PlanCall.create planId now body).handle lib answers).run stores = .ok () m := by
      simp only [PlanCall.handle, createPlan, Handler.run_query_bind, Handler.run_ensure_bind_ok,
        Handler.run_exec_bind, run_flushPlans_bind_ok]
      exact ⟨hSlug, hTakes, hSync⟩
    have hServed (hValid : m.db.Valid) : stores' = m := by
      have hRan : servePlan lib answers (.create planId now body) stores = (.ok (), m) :=
        Handler.atomically_ok.mpr (Handler.run_bind_ok.mpr
          ⟨(), m, hHandle, run_flushPlans_ok.mpr ⟨hValid, rfl⟩⟩)
      exact (Prod.mk.inj (served.symm.trans hRan)).2
    rcases hDb with ⟨hDb, hNot⟩ |
      ⟨meter, product, flat, overage, hMeter, hProduct, hFlat, hOverage, hDb, hSells⟩
    · obtain rfl := hServed (hDb ▸ hTakes)
      exact ⟨body.plan planId now, congrArg Db.plans hDb, rfl, Plan.linked_of_none rfl,
        Plan.tracks_of_none rfl, by simp [CreatePlanRequest.plan], fun h => absurd h hNot⟩
    · obtain ⟨hLast, hValid⟩ := hTakes.updatePlan_last (f := .link meter product flat overage)
        (fun _ => rfl) fun _ => rfl
      have hAdded := hDb.trans hLast
      obtain rfl := hServed (hAdded ▸ hValid)
      refine ⟨(body.plan planId now).link meter product flat overage, congrArg Db.plans hAdded, rfl,
        ?_, ?_, ?_, fun _ => rfl⟩
      · refine ⟨.inl ⟨rfl, rfl, rfl, rfl⟩, ?_, ?_⟩
        · rintro id (hId | hId)
          · exact fresh.given id (.inr (.inl (hProduct.trans hId)))
          · rcases Plan.mem_prices.mp hId with hId | hId
            · exact fresh.given id (.inr (.inr (.inl (hFlat.trans hId))))
            · exact fresh.given id (.inr (.inr (.inr (hOverage.trans hId))))
        · simpa [Plan.prices, Plan.link] using fresh.apart flat hFlat overage hOverage
      · refine ⟨fun id hId => ?_, fun id hId => ?_, .inl ⟨rfl, rfl, rfl, rfl⟩⟩
        · exact Option.some.inj hId ▸ hSells.1
        · exact Option.some.inj hId ▸ hSells.2
      · intro id hId
        rcases Plan.mem_prices.mp hId with hId | hId
        · exact Stripe.price_none (fresh.new id (.inl (hFlat.trans hId)))
        · exact Stripe.price_none (fresh.new id (.inr (hOverage.trans hId)))
  · refine .inl ⟨hTakes, ?_⟩
    cases result with
    | error e => exact congrArg Db.plans (Handler.atomically_error_db served)
    | ok =>
      obtain ⟨⟨⟩, m, hHandle, -⟩ := Handler.run_bind_ok.mp (Handler.atomically_ok.mp served)
      simp only [PlanCall.handle, createPlan, Handler.run_query_bind, Handler.run_ensure_bind_ok,
        Handler.run_exec_bind, run_flushPlans_bind_ok] at hHandle
      exact absurd hHandle.2.1 hTakes

theorem servePlan_update_unknown {body : UpdatePlanRequest} (hFound : stores.db.plan planId = none)
    (served : servePlan lib answers (.update planId body) stores = (result, stores')) :
    stores' = stores := by
  have hCache := servePlan_cache served
  rw [PlanCall.handle, updatePlan, Handler.final_query_bind, Handler.final_orRaise_bind,
    hFound] at hCache
  have hDb : stores'.db = stores.db := by
    rcases servePlan_spec served with hSame | ⟨⟨p, hp, hId⟩, -⟩
    · exact hSame
    · exact absurd (decide_eq_true hId) (List.find?_eq_none.mp hFound p hp)
  cases stores'
  cases stores
  exact congrArg₂ _ hDb hCache

/-- An update ends with what its handler leaves, but for the database where the plan does not fit. -/
theorem servePlan_update_ran {body : UpdatePlanRequest} {plan : Plan} {m : Stores Db Stripe}
    (hValid : stores.db.Valid) (hFound : stores.db.plan planId = some plan)
    (hRun : (updatePlan lib answers planId body).run stores = .ok () m)
    (served : servePlan lib answers (.update planId body) stores = (result, stores')) :
    stores' = ⟨if (body.applyTo plan).Fits then m.db else stores.db, m.cache⟩ := by
  obtain ⟨m', hRun', -, hServed⟩ := @servePlan_update lib answers stores planId body plan hValid hFound
  obtain rfl := (Outcome.ok.inj (hRun'.symm.trans hRun)).2
  rw [hServed] at served
  by_cases hFits : (body.applyTo plan).Fits
  · rw [if_pos hFits] at served ⊢
    exact (Prod.mk.inj served).2.symm
  · rw [if_neg hFits] at served ⊢
    exact (Prod.mk.inj served).2.symm

/-- For a plan that is not at Stripe, the fees are all. -/
theorem servePlan_update_unlinked {body : UpdatePlanRequest} {plan : Plan}
    (hValid : stores.db.Valid) (hFound : stores.db.plan planId = some plan)
    (hProduct : given plan.stripeProductId = false)
    (served : servePlan lib answers (.update planId body) stores = (result, stores')) :
    stores' = ⟨if (body.applyTo plan).Fits then stores.db.updatePlan planId body.applyTo
      else stores.db, stores.cache⟩ := by
  refine servePlan_update_ran (m := ⟨stores.db.updatePlan planId body.applyTo, stores.cache⟩)
    hValid hFound ?_ served
  rw [updatePlan, Handler.run_query_bind, hFound, Handler.orRaise_some_bind]
  dsimp only
  rw [Handler.run_exec_bind, hProduct]
  rfl

/-- A plan that is deleted leaves the prices. -/
theorem servePlan_delete (served : servePlan lib answers (.delete planId) stores = (result, stores')) :
    stores'.cache.prices = stores.cache.prices ∧ ∀ p ∈ stores'.db.plans, p ∈ stores.db.plans := by
  let R (s s' : Stores Db Stripe) : Prop :=
    s'.cache.prices = s.cache.prices ∧ ∀ p ∈ s'.db.plans, p ∈ s.db.plans
  have hRefl : Std.Refl R := ⟨fun _ => ⟨rfl, fun _ h => h⟩⟩
  have hTrans : IsTrans _ R := ⟨fun _ _ _ h h' => ⟨h'.1.trans h.1, fun p hp => h.2 p (h'.2 p hp)⟩⟩
  have hDelete : Handler.Within R (deletePlan lib answers planId) := by
    refine .bind (.query _) fun _ => .bind (.orRaise _ _) fun plan => .bind (.query _) fun _ =>
      .bind (.ensure _ _) fun _ => ?_
    have hRemove : Handler.Within R (.exec fun db =>
        { db with plans := db.plans.filter fun p => p.id ≠ planId } : PlanApp Unit) :=
      .exec fun s => ⟨rfl, fun p hp => (List.mem_filter.mp hp).1⟩
    exact .ite (.bind (.store fun _ => ⟨rfl, fun _ h => h⟩) fun _ => hRemove) hRemove
  have hAll : Handler.Within R (do deletePlan lib answers planId; flushPlans : PlanApp Unit) :=
    .bind hDelete fun _ => .bind (.query _) fun _ => .ensure _ _
  have hServed := hAll.atomically (fun _ _ h => ⟨h.1, fun _ hp => hp⟩) stores
  change R stores (servePlan lib answers (.delete planId) stores).2 at hServed
  rw [served] at hServed
  exact hServed

/-- What keeps the prices of a plan in step through an update of it while it is at Stripe: both calls
to Stripe succeed for each fee that changes, or, where the changed plan does not fit its columns and the
update is rolled back, no price is archived. -/
def PricesKept (planId : Uuid) (answers : StripeAnswers) (db : Db) (call : PlanCall) : Prop :=
  ∀ body, call = .update planId body → ∀ plan ∈ db.plan planId, given plan.stripeProductId = true →
    if (body.applyTo plan).Fits then answers.Replace plan (body.applyTo plan)
    else answers.ArchiveNone plan (body.applyTo plan)

theorem Plan.Linked.cases {p : Plan} (h : p.Linked) :
    (given p.stripeProductId = false ∧ p.stripePriceId = none ∧ p.stripeOveragePriceId = none) ∨
    (given p.stripeProductId = true ∧ ∃ flat overage, p.stripePriceId = some flat ∧
      p.stripeOveragePriceId = some overage ∧ given (some flat) = true ∧
      given (some overage) = true ∧ flat ≠ overage) := by
  rcases h.whole with ⟨-, hProduct, hFlat, hOverage⟩ | ⟨-, hProduct, hFlat, hOverage⟩
  · obtain ⟨product, hProduct⟩ := Option.isSome_iff_exists.mp hProduct
    obtain ⟨flat, hFlat⟩ := Option.isSome_iff_exists.mp hFlat
    obtain ⟨overage, hOverage⟩ := Option.isSome_iff_exists.mp hOverage
    have hGiven (id : String) (hId : p.stripeProductId = some id ∨ id ∈ p.prices) :
        given (some id) = true := decide_eq_true (h.nonempty id hId)
    refine .inr ⟨hProduct ▸ hGiven product (.inl hProduct), flat, overage, hFlat, hOverage,
      hGiven flat (.inr (by simp [hFlat])), hGiven overage (.inr (by simp [hOverage])), ?_⟩
    simpa [Plan.prices, hFlat, hOverage] using h.apart
  · exact .inl ⟨by rw [hProduct]; rfl, hFlat, hOverage⟩

theorem mem_updatePlan {db : Db} {f : Plan → Plan} {p' : Plan}
    (h : p' ∈ (db.updatePlan planId f).plans) :
    ∃ p ∈ db.plans, (p.id = planId ∧ p' = f p) ∨ (p.id ≠ planId ∧ p' = p) := by
  obtain ⟨p, hp, rfl⟩ := List.mem_map.mp h
  refine ⟨p, hp, ?_⟩
  split
  · exact .inl ⟨‹_›, rfl⟩
  · exact .inr ⟨‹_›, rfl⟩

theorem Db.Valid.plan_unique {db : Db} (hValid : db.Valid) {plan p : Plan}
    (hFound : db.plan planId = some plan) (hp : p ∈ db.plans) (hId : p.id = planId) : p = plan := by
  have hPlan : plan.id = planId := by simpa using List.find?_some hFound
  exact List.inj_on_of_nodup_map hValid.planId hp (List.mem_of_find?_eq_some hFound)
    (hId.trans hPlan.symm)

theorem Plan.relink_flat {p : Plan} {flat overage : Option String} {old : String}
    (h : p.stripePriceId = some old) : (p.relink flat overage).stripePriceId = some (flat.getD old) := by
  cases flat with
  | none => exact h
  | some => rfl

theorem Plan.relink_overage {p : Plan} {flat overage : Option String} {old : String}
    (h : p.stripeOveragePriceId = some old) :
    (p.relink flat overage).stripeOveragePriceId = some (overage.getD old) := by
  cases overage with
  | none => exact h
  | some => rfl

theorem Plan.Whole.relink {p : Plan} {flat overage : Option String} {a b : String} (h : p.Whole)
    (hA : p.stripePriceId = some a) (hB : p.stripeOveragePriceId = some b) :
    (p.relink flat overage).Whole := by
  rcases h with ⟨hMeter, hProduct, -⟩ | ⟨-, -, hNone, -⟩
  · exact .inl ⟨hMeter, hProduct, by rw [Plan.relink_flat hA]; rfl,
      by rw [Plan.relink_overage hB]; rfl⟩
  · rw [hA] at hNone
    cases hNone

theorem Plan.mem_relink {p : Plan} {flat overage : Option String} {id : String}
    (h : id ∈ (p.relink flat overage).prices) : flat = some id ∨ overage = some id ∨ id ∈ p.prices := by
  rw [Plan.mem_prices, Plan.relink, Option.or_eq_some_iff, Option.or_eq_some_iff] at h
  rcases h with (hFlat | ⟨-, hOld⟩) | (hOverage | ⟨-, hOld⟩)
  · exact .inl hFlat
  · exact .inr (.inr (Plan.mem_prices.mpr (.inl hOld)))
  · exact .inr (.inl hOverage)
  · exact .inr (.inr (Plan.mem_prices.mpr (.inr hOld)))

/-- A plan with the prices that an update has created has two prices of its own again. -/
theorem Plan.Linked.relink {p : Plan} {flat overage : Option String} (h : p.Linked)
    (hProduct : given p.stripeProductId = true)
    (hFlatGiven : ∀ id ∈ flat, id ≠ "" ∧ id ∉ p.prices)
    (hOverageGiven : ∀ id ∈ overage, id ≠ "" ∧ id ∉ p.prices)
    (hApart : ∀ id ∈ flat, ∀ id' ∈ overage, id ≠ id') : (p.relink flat overage).Linked := by
  rcases h.cases with ⟨hNone, -⟩ | ⟨-, a, b, hA, hB, hAGiven, hBGiven, hNe⟩
  · rw [hProduct] at hNone
    cases hNone
  · have hFlat : (p.relink flat overage).stripePriceId = some (flat.getD a) := Plan.relink_flat hA
    have hOverage : (p.relink flat overage).stripeOveragePriceId = some (overage.getD b) :=
      Plan.relink_overage hB
    refine ⟨h.whole.relink hA hB, ?_, ?_⟩
    · rintro id (hId | hId)
      · exact h.nonempty id (.inl hId)
      · rcases Plan.mem_relink hId with hNew | hNew | hOld
        · exact (hFlatGiven id hNew).1
        · exact (hOverageGiven id hNew).1
        · exact h.nonempty id (.inr hOld)
    · have hTwo : flat.getD a ≠ overage.getD b := by
        cases flat with
        | none =>
          cases overage with
          | none => exact hNe
          | some y =>
            exact fun hSame => (hOverageGiven y rfl).2
              (Plan.mem_prices.mpr (.inl (hA.trans (congrArg some hSame))))
        | some x =>
          cases overage with
          | none =>
            exact fun hSame => (hFlatGiven x rfl).2
              (Plan.mem_prices.mpr (.inr (hB.trans (congrArg some hSame.symm))))
          | some y => exact hApart x rfl y rfl
      simpa [Plan.prices, hFlat, hOverage] using hTwo

/-- For a plan that is at Stripe, the prices that were created are filled in, if the plan fits. -/
theorem servePlan_update_linked {body : UpdatePlanRequest} {plan : Plan}
    (hValid : stores.db.Valid) (hFound : stores.db.plan planId = some plan)
    (hProduct : given plan.stripeProductId = true) (hFlat : given plan.stripePriceId = true)
    (hOverage : given plan.stripeOveragePriceId = true)
    (served : servePlan lib answers (.update planId body) stores = (result, stores')) :
    let changed := body.applyTo plan
    let flat := flatSynced answers changed
      (decide (changed.monthlyFeeCents ≠ plan.monthlyFeeCents)) stores.cache
    let overage := overageSynced answers changed
      (overageDue answers changed (decide (changed.monthlyFeeCents ≠ plan.monthlyFeeCents))
        (decide (changed.overageRateCentsPerToken ≠ plan.overageRateCentsPerToken)) stores.cache) flat.2
    stores' = ⟨if changed.Fits then
        stores.db.updatePlan planId fun p => (body.applyTo p).relink flat.1 overage.1
      else stores.db, overage.2⟩ :=
  servePlan_update_ran hValid hFound (run_updatePlan hFound hProduct hFlat hOverage) served

theorem Catalogue.relinked {db : Db} {stripe : Stripe} {body : UpdatePlanRequest} {plan : Plan}
    {due due' : Bool} (h : Catalogue db stripe) (hValid : db.Valid) (fresh : answers.Fresh stripe)
    (hFound : db.plan planId = some plan) (hProduct : given plan.stripeProductId = true) :
    let flat := flatSynced answers (body.applyTo plan) due stripe
    let overage := overageSynced answers (body.applyTo plan) due' flat.2
    Catalogue (db.updatePlan planId fun p => (body.applyTo p).relink flat.1 overage.1) overage.2 := by
  intro flat overage
  have hNew (id : String) (hId : flat.1 = some id ∨ overage.1 = some id) :
      stripe.price id = none ∧ (overage.2.price id).isSome := synced_new fresh hId
  have hApart (p : Plan) (hp : p ∈ db.plans) (id : String)
      (hId : flat.1 = some id ∨ overage.1 = some id) : id ∉ p.prices := by
    intro hOld
    simpa [(hNew id hId).1] using h.known p hp id hOld
  refine h.evolve planId (fun _ hKnown => synced_known fresh hKnown) (fun p' hp' => ?_)
    fun p' hp' id hId => ?_
  · obtain ⟨p, hp, ⟨hId, rfl⟩ | ⟨-, rfl⟩⟩ := mem_updatePlan hp'
    · have hLinked : (body.applyTo p).Linked :=
        ⟨(h.linked p hp).whole, (h.linked p hp).nonempty, (h.linked p hp).apart⟩
      refine hLinked.relink (hValid.plan_unique hFound hp hId ▸ hProduct) ?_ ?_ ?_
      · exact fun id hFlat => ⟨fresh.given id (.inr (.inr (.inl (replaced_answer id hFlat)))),
          hApart p hp id (.inl hFlat)⟩
      · exact fun id hOverage => ⟨fresh.given id (.inr (.inr (.inr (replaced_answer id hOverage)))),
          hApart p hp id (.inr hOverage)⟩
      · exact fun id hFlat id' hOverage =>
          fresh.apart id (replaced_answer id hFlat) id' (replaced_answer id' hOverage)
    · exact h.linked p' hp
  · obtain ⟨p, hp, ⟨hPlan, rfl⟩ | ⟨-, rfl⟩⟩ := mem_updatePlan hp'
    · rcases Plan.mem_relink hId with hFlat | hOverage | hOld
      · exact .inr ⟨hPlan, hNew id (.inl hFlat)⟩
      · exact .inr ⟨hPlan, hNew id (.inr hOverage)⟩
      · exact .inl ⟨p, hp, rfl, hOld⟩
    · exact .inl ⟨p', hp, rfl, hId⟩

/-- Calls for prices that are filled in nowhere. -/
theorem Catalogue.synced {db : Db} {stripe : Stripe} {plan : Plan} {due due' : Bool}
    (h : Catalogue db stripe) (fresh : answers.Fresh stripe) :
    Catalogue db (overageSynced answers plan due' (flatSynced answers plan due stripe).2).2 :=
  ⟨h.linked, fun p hp id hId => synced_known fresh (h.known p hp id hId), h.owned⟩

theorem Catalogue.update {body : UpdatePlanRequest} (h : Catalogue stores.db stores.cache)
    (hValid : stores.db.Valid) (fresh : answers.Fresh stores.cache)
    (served : servePlan lib answers (.update planId body) stores = (result, stores')) :
    Catalogue stores'.db stores'.cache := by
  cases hFound : stores.db.plan planId with
  | none =>
    rw [servePlan_update_unknown hFound served]
    exact h
  | some plan =>
    have hPlan : plan ∈ stores.db.plans := List.mem_of_find?_eq_some hFound
    rcases (h.linked plan hPlan).cases with ⟨hProduct, -⟩ |
      ⟨hProduct, flat, overage, hFlat, hOverage, hFlatGiven, hOverageGiven, -⟩
    · rw [servePlan_update_unlinked hValid hFound hProduct served]
      split
      case isFalse => exact h
      refine h.evolve planId (fun _ hKnown => hKnown) (fun p' hp' => ?_)
        fun p' hp' id hId => ?_
      · obtain ⟨p, hp, ⟨-, rfl⟩ | ⟨-, rfl⟩⟩ := mem_updatePlan hp'
        · exact ⟨(h.linked p hp).whole, (h.linked p hp).nonempty, (h.linked p hp).apart⟩
        · exact h.linked p' hp
      · obtain ⟨p, hp, ⟨-, rfl⟩ | ⟨-, rfl⟩⟩ := mem_updatePlan hp'
        · exact .inl ⟨p, hp, rfl, hId⟩
        · exact .inl ⟨p', hp, rfl, hId⟩
    · rw [servePlan_update_linked hValid hFound hProduct (hFlat ▸ hFlatGiven)
        (hOverage ▸ hOverageGiven) served]
      dsimp only
      split
      · exact h.relinked hValid fresh hFound hProduct
      · exact h.synced fresh

/-- Whatever Stripe answers, each plan keeps prices of its own. -/
theorem Catalogue.call {call : PlanCall} (h : Catalogue stores.db stores.cache)
    (hValid : stores.db.Valid) (fresh : answers.Fresh stores.cache)
    (served : servePlan lib answers call stores = (result, stores')) :
    Catalogue stores'.db stores'.cache := by
  cases call with
  | create planId now body =>
    obtain ⟨hKeeps, hPlans⟩ := servePlan_create fresh served
    have hKnown (id : String) (hId : (stores.cache.price id).isSome) :
        (stores'.cache.price id).isSome := hKeeps id hId ▸ hId
    rcases hPlans with ⟨-, hSame⟩ | ⟨-, new, hPlans, hTerms, hLinked, hTracks, hNew, -⟩
    · exact ⟨hSame ▸ h.linked, fun p hp id hId => hKnown id (h.known p (hSame ▸ hp) id hId),
        hSame ▸ h.owned⟩
    · refine h.evolve planId hKnown (fun p hp => ?_) fun p hp id hPrice => ?_
      · rcases List.mem_append.mp (hPlans ▸ hp) with hOld | hLast
        · exact h.linked p hOld
        · exact List.mem_singleton.mp hLast ▸ hLinked
      · rcases List.mem_append.mp (hPlans ▸ hp) with hOld | hLast
        · exact .inl ⟨p, hOld, rfl, hPrice⟩
        · obtain rfl := List.mem_singleton.mp hLast
          refine .inr ⟨congrArg Plan.id hTerms, hNew id hPrice, ?_⟩
          rcases Plan.mem_prices.mp hPrice with hFlat | hOverage
          · exact (hTracks.flat id hFlat).known
          · exact (hTracks.overage id hOverage).known
  | update planId body => exact h.update hValid fresh served
  | delete planId =>
    obtain ⟨hPrices, hPlans⟩ := servePlan_delete served
    refine ⟨fun p hp => h.linked p (hPlans p hp), fun p hp id hId => ?_,
      fun p hp q hq => h.owned p (hPlans p hp) q (hPlans q hq)⟩
    rw [Stripe.price, hPrices]
    exact h.known p (hPlans p hp) id hId

/-- An update of a plan that is at Stripe leaves its prices on sale for what it says exactly when the
calls for the fees that it changes succeed. -/
theorem tracks_relinked {stripe : Stripe} {body : UpdatePlanRequest} {plan : Plan}
    {flat overage : String} (fresh : answers.Fresh stripe) (hFlat : plan.stripePriceId = some flat)
    (hOverage : plan.stripeOveragePriceId = some overage) (hApart : flat ≠ overage)
    (hTracks : plan.Tracks stripe) :
    let changed := body.applyTo plan
    let first := flatSynced answers changed
      (decide (changed.monthlyFeeCents ≠ plan.monthlyFeeCents)) stripe
    let second := overageSynced answers changed
      (overageDue answers changed (decide (changed.monthlyFeeCents ≠ plan.monthlyFeeCents))
        (decide (changed.overageRateCentsPerToken ≠ plan.overageRateCentsPerToken)) stripe) first.2
    (changed.relink first.1 second.1).Tracks second.2 ↔ answers.Replace plan changed := by
  intro changed first second
  have hSells := @synced_sells answers changed stripe flat overage _ _ fresh hFlat hOverage hApart
    (hTracks.flat flat hFlat) (hTracks.overage overage hOverage)
  have hNewFlat : (changed.relink first.1 second.1).stripePriceId = some (first.1.getD flat) :=
    Plan.relink_flat hFlat
  have hNewOverage : (changed.relink first.1 second.1).stripeOveragePriceId =
      some (second.1.getD overage) := Plan.relink_overage hOverage
  refine Iff.trans ?_ hSells
  constructor
  · exact fun h => ⟨h.flat _ hNewFlat, h.overage _ hNewOverage⟩
  · rintro ⟨hFlatSells, hOverageSells⟩
    refine ⟨fun id hIn => ?_, fun id hIn => ?_, ?_⟩
    · exact Option.some.inj (hNewFlat.symm.trans hIn) ▸ hFlatSells
    · exact Option.some.inj (hNewOverage.symm.trans hIn) ▸ hOverageSells
    · exact Plan.Whole.relink (p := changed) hTracks.whole hFlat hOverage

/-- An update that is rolled back leaves the prices of the plan on sale exactly when it archives
none. -/
theorem tracks_refused {stripe : Stripe} {body : UpdatePlanRequest} {plan : Plan}
    {flat overage : String} (fresh : answers.Fresh stripe) (hFlat : plan.stripePriceId = some flat)
    (hOverage : plan.stripeOveragePriceId = some overage) (hApart : flat ≠ overage)
    (hTracks : plan.Tracks stripe) :
    let changed := body.applyTo plan
    let first := flatSynced answers changed
      (decide (changed.monthlyFeeCents ≠ plan.monthlyFeeCents)) stripe
    let second := overageSynced answers changed
      (overageDue answers changed (decide (changed.monthlyFeeCents ≠ plan.monthlyFeeCents))
        (decide (changed.overageRateCentsPerToken ≠ plan.overageRateCentsPerToken)) stripe) first.2
    plan.Tracks second.2 ↔ answers.ArchiveNone plan changed := by
  intro changed first second
  refine Iff.trans ?_ (synced_old changed fresh hFlat hOverage hApart
    (hTracks.flat flat hFlat) (hTracks.overage overage hOverage))
  constructor
  · exact fun h => ⟨h.flat flat hFlat, h.overage overage hOverage⟩
  · rintro ⟨hFlatSells, hOverageSells⟩
    refine ⟨fun id hIn => ?_, fun id hIn => ?_, hTracks.whole⟩
    · exact Option.some.inj (hFlat.symm.trans hIn) ▸ hFlatSells
    · exact Option.some.inj (hOverage.symm.trans hIn) ▸ hOverageSells

/-- The prices of the other plans stay as they are. -/
theorem price_synced_other {db : Db} {stripe : Stripe} {body : UpdatePlanRequest} {plan p : Plan}
    {due due' : Bool} {id : String} (h : Catalogue db stripe) (fresh : answers.Fresh stripe)
    (hPlan : plan ∈ db.plans) (hp : p ∈ db.plans) (hOther : p.id ≠ plan.id) (hId : id ∈ p.prices) :
    (overageSynced answers (body.applyTo plan) due'
      (flatSynced answers (body.applyTo plan) due stripe).2).2.price id = stripe.price id := by
  have hNotOurs : id ∉ plan.prices := fun hOurs => hOther (h.owned p hp plan hPlan id hId hOurs)
  rw [Plan.mem_prices, not_or] at hNotOurs
  exact synced_other fresh hNotOurs.1 hNotOurs.2 ((h.linked p hp).nonempty id (.inr hId))
    (h.known p hp id hId)

theorem tracks_synced_other {db : Db} {stripe : Stripe} {body : UpdatePlanRequest} {plan p : Plan}
    {due due' : Bool} (h : Catalogue db stripe) (fresh : answers.Fresh stripe) (hPlan : plan ∈ db.plans)
    (hp : p ∈ db.plans) (hOther : p.id ≠ plan.id) :
    p.Tracks (overageSynced answers (body.applyTo plan) due'
      (flatSynced answers (body.applyTo plan) due stripe).2).2 ↔ p.Tracks stripe :=
  Plan.Tracks.congr fun _ hId => price_synced_other h fresh hPlan hp hOther hId

/-- The plan with the id, if it is there, has its prices on sale for what it says. -/
def Db.Tracks (db : Db) (stripe : Stripe) (planId : Uuid) : Prop :=
  ∀ p ∈ db.plans, p.id = planId → p.Tracks stripe

/-- What holds of the plan with the id. -/
theorem Db.forall_plan {db : Db} {P : Plan → Prop} {plan : Plan} (hValid : db.Valid)
    (hFound : db.plan planId = some plan) : (∀ p ∈ db.plans, p.id = planId → P p) ↔ P plan := by
  constructor
  · exact fun h => h plan (List.mem_of_find?_eq_some hFound) (by simpa using List.find?_some hFound)
  · exact fun h p hp hSame => hValid.plan_unique hFound hp hSame ▸ h

theorem Db.forall_updatePlan_self {db : Db} {P : Plan → Prop} {f : Plan → Plan} {plan : Plan}
    (hValid : db.Valid) (hFound : db.plan planId = some plan) (hf : ∀ p, (f p).id = p.id) :
    (∀ p ∈ (db.updatePlan planId f).plans, p.id = planId → P p) ↔ P (f plan) := by
  have hPlan : plan ∈ db.plans := List.mem_of_find?_eq_some hFound
  have hId : plan.id = planId := by simpa using List.find?_some hFound
  constructor
  · intro h
    exact h (f plan) (List.mem_map.mpr ⟨plan, hPlan, if_pos hId⟩) ((hf plan).trans hId)
  · intro h p' hp' hSame
    obtain ⟨p, hp, ⟨hTarget, rfl⟩ | ⟨hOther, rfl⟩⟩ := mem_updatePlan hp'
    · exact hValid.plan_unique hFound hp hTarget ▸ h
    · exact absurd hSame hOther

theorem Db.forall_updatePlan_other {db : Db} {P : Plan → Prop} {f : Plan → Plan} {targetId : Uuid}
    (hf : ∀ p, (f p).id = p.id) (hOther : targetId ≠ planId) :
    (∀ p ∈ (db.updatePlan targetId f).plans, p.id = planId → P p) ↔
      ∀ p ∈ db.plans, p.id = planId → P p := by
  constructor
  · intro h p hp hSame
    refine h p (List.mem_map.mpr ⟨p, hp, if_neg fun hTarget => ?_⟩) hSame
    exact hOther (hTarget.symm.trans hSame)
  · intro h p' hp' hSame
    obtain ⟨p, hp, ⟨hTarget, rfl⟩ | ⟨-, rfl⟩⟩ := mem_updatePlan hp'
    · exact absurd (hTarget.symm.trans ((hf p).symm.trans hSame)) hOther
    · exact h p' hp hSame

/-- The prices of a plan that is not at Stripe are none. -/
theorem Plan.Tracks.unlinked {stripe : Stripe} {p : Plan} (hFlat : p.stripePriceId = none)
    (hOverage : p.stripeOveragePriceId = none) (hWhole : p.Whole) : p.Tracks stripe := by
  refine ⟨fun id hId => ?_, fun id hId => ?_, hWhole⟩
  · cases hFlat.symm.trans hId
  · cases hOverage.symm.trans hId

theorem pricesKept_self {db : Db} {body : UpdatePlanRequest} {plan : Plan}
    (hFound : db.plan planId = some plan) (hProduct : given plan.stripeProductId = true) :
    PricesKept planId answers db (.update planId body) ↔
      if (body.applyTo plan).Fits then answers.Replace plan (body.applyTo plan)
      else answers.ArchiveNone plan (body.applyTo plan) := by
  constructor
  · exact fun h => h body rfl plan hFound hProduct
  · rintro h _ ⟨⟩ plan' hPlan' -
    obtain rfl := Option.some.inj (hFound.symm.trans hPlan')
    exact h

theorem pricesKept_unlinked {db : Db} {body : UpdatePlanRequest} {plan : Plan}
    (hFound : db.plan planId = some plan) (hProduct : given plan.stripeProductId = false) :
    PricesKept planId answers db (.update planId body) := by
  rintro _ ⟨⟩ plan' hPlan' hGiven
  obtain rfl := Option.some.inj (hFound.symm.trans hPlan')
  cases hProduct.symm.trans hGiven

theorem pricesKept_other {db : Db} {body : UpdatePlanRequest} {targetId : Uuid}
    (hOther : targetId ≠ planId) : PricesKept planId answers db (.update targetId body) := by
  rintro _ ⟨⟩
  exact absurd rfl hOther

theorem tracks_update_self {body : UpdatePlanRequest} (h : Catalogue stores.db stores.cache)
    (hValid : stores.db.Valid) (fresh : answers.Fresh stores.cache) {plan : Plan}
    (hFound : stores.db.plan planId = some plan)
    (served : servePlan lib answers (.update planId body) stores = (result, stores'))
    (hTracks : plan.Tracks stores.cache) :
    stores'.db.Tracks stores'.cache planId ↔
      PricesKept planId answers stores.db (.update planId body) := by
  rcases (h.linked plan (List.mem_of_find?_eq_some hFound)).cases with ⟨hProduct, hFlat, hOverage⟩ |
    ⟨hProduct, flat, overage, hFlat, hOverage, hFlatGiven, hOverageGiven, hApart⟩
  · refine iff_of_true ?_ (pricesKept_unlinked hFound hProduct)
    rw [servePlan_update_unlinked hValid hFound hProduct served]
    dsimp only
    split
    · refine (Db.forall_updatePlan_self hValid hFound ?_).mpr ?_
      · exact fun _ => rfl
      · exact .unlinked hFlat hOverage hTracks.whole
    · exact (Db.forall_plan hValid hFound).mpr hTracks
  · rw [pricesKept_self hFound hProduct, servePlan_update_linked hValid hFound hProduct
      (hFlat ▸ hFlatGiven) (hOverage ▸ hOverageGiven) served]
    dsimp only
    split
    · refine (Db.forall_updatePlan_self hValid hFound ?_).trans ?_
      · exact fun _ => rfl
      · exact tracks_relinked fresh hFlat hOverage hApart hTracks
    · exact (Db.forall_plan hValid hFound).trans
        (tracks_refused fresh hFlat hOverage hApart hTracks)

theorem tracks_update_other {targetId : Uuid} {body : UpdatePlanRequest}
    (h : Catalogue stores.db stores.cache) (hValid : stores.db.Valid)
    (fresh : answers.Fresh stores.cache) (hOther : targetId ≠ planId)
    (served : servePlan lib answers (.update targetId body) stores = (result, stores'))
    (hTracks : stores.db.Tracks stores.cache planId) : stores'.db.Tracks stores'.cache planId := by
  cases hFound : stores.db.plan targetId with
  | none =>
    rw [servePlan_update_unknown hFound served]
    exact hTracks
  | some plan =>
    have hPlan : plan ∈ stores.db.plans := List.mem_of_find?_eq_some hFound
    have hId : plan.id = targetId := by simpa using List.find?_some hFound
    rcases (h.linked plan hPlan).cases with ⟨hProduct, -⟩ |
      ⟨hProduct, flat, overage, hFlat, hOverage, hFlatGiven, hOverageGiven, -⟩
    · rw [servePlan_update_unlinked hValid hFound hProduct served]
      dsimp only
      split
      · refine (Db.forall_updatePlan_other ?_ hOther).mpr hTracks
        exact fun _ => rfl
      · exact hTracks
    · rw [servePlan_update_linked hValid hFound hProduct (hFlat ▸ hFlatGiven)
        (hOverage ▸ hOverageGiven) served]
      have hNe {p : Plan} (hSame : p.id = planId) : p.id ≠ plan.id :=
        fun hEq => hOther ((hEq.trans hId).symm.trans hSame)
      dsimp only
      split
      · refine (Db.forall_updatePlan_other ?_ hOther).mpr fun p hp hSame =>
          (tracks_synced_other h fresh hPlan hp (hNe hSame)).mpr (hTracks p hp hSame)
        exact fun _ => rfl
      · exact fun p hp hSame =>
          (tracks_synced_other h fresh hPlan hp (hNe hSame)).mpr (hTracks p hp hSame)

/-- A call leaves the prices of a plan on sale for what the plan says exactly when it keeps them. -/
theorem tracks_call {call : PlanCall} (h : Catalogue stores.db stores.cache)
    (hValid : stores.db.Valid) (fresh : answers.Fresh stores.cache)
    (served : servePlan lib answers call stores = (result, stores'))
    (hTracks : stores.db.Tracks stores.cache planId) :
    stores'.db.Tracks stores'.cache planId ↔ PricesKept planId answers stores.db call := by
  cases call with
  | create newId now body =>
    refine iff_of_true (fun p hp hSame => ?_) (by rintro _ ⟨⟩)
    obtain ⟨hKeeps, hPlans⟩ := servePlan_create fresh served
    have hOld (hIn : p ∈ stores.db.plans) : p.Tracks stores'.cache :=
      (Plan.Tracks.congr fun id hId => hKeeps id (h.known p hIn id hId)).mpr (hTracks p hIn hSame)
    rcases hPlans with ⟨-, hSamePlans⟩ | ⟨-, new, hPlans, -, -, hNew, -⟩
    · exact hOld (hSamePlans ▸ hp)
    · rcases List.mem_append.mp (hPlans ▸ hp) with hIn | hLast
      · exact hOld hIn
      · exact List.mem_singleton.mp hLast ▸ hNew
  | update targetId body =>
    by_cases hTarget : targetId = planId
    · subst hTarget
      cases hFound : stores.db.plan targetId with
      | none =>
        rw [servePlan_update_unknown hFound served]
        refine iff_of_true hTracks ?_
        rintro _ ⟨⟩ plan hPlan
        cases hFound.symm.trans hPlan
      | some plan =>
        exact tracks_update_self h hValid fresh hFound served
          (hTracks plan (List.mem_of_find?_eq_some hFound) (by simpa using List.find?_some hFound))
    · exact iff_of_true (tracks_update_other h hValid fresh hTarget served hTracks)
        (pricesKept_other hTarget)
  | delete targetId =>
    refine iff_of_true (fun p hp hSame => ?_) (by rintro _ ⟨⟩)
    obtain ⟨hPrices, hPlans⟩ := servePlan_delete served
    refine (Plan.Tracks.congr fun id _ => ?_).mpr (hTracks p (hPlans p hp) hSame)
    rw [Stripe.price, hPrices]
    rfl

end Calls

/-! ### Runs -/

/-- The prices of the plan, if it is there, are on sale for what it says. -/
def PricesTrack (planId : Uuid) (b : Backend) : Prop := b.sys.world.db.Tracks b.stripe planId

/-- The action keeps the prices of the plan in step. -/
def KeepsPrices (planId : Uuid) (b : Backend) : Action → Prop
  | .request _ => True
  | .plan answers call => PricesKept planId answers b.sys.world.db call

section Steps

variable {cfg : Config} {b b' b₀ : Backend} {action : Action} {steps : List (Backend × Action)}
  {planId : Uuid}

theorem BackendStep.catalogue (hs : b.sys.Sound cfg) (h : Catalogue b.sys.world.db b.stripe)
    (hStep : BackendStep cfg b action b') : Catalogue b'.sys.world.db b'.stripe := by
  cases hStep with
  | request step =>
    exact ⟨step.plans_same ▸ h.linked, step.plans_same ▸ h.known, step.plans_same ▸ h.owned⟩
  | plan fresh served => exact Catalogue.call h hs.valid fresh served

theorem Backend.catalogue_of_run (hs : b₀.sys.Sound cfg) (h : Catalogue b₀.sys.world.db b₀.stripe)
    (hRun : Run (BackendStep cfg) b₀ steps b) : Catalogue b.sys.world.db b.stripe := by
  refine (hRun.invariant
    (I := fun b => b.sys.Sound cfg ∧ Catalogue b.sys.world.db b.stripe) ?_ ⟨hs, h⟩).2
  exact fun hm hStep => ⟨hStep.sound hm.1, hStep.catalogue hm.1 hm.2⟩

/-- From a state in which the prices of a plan track it, a step leaves it so exactly when it keeps
them. -/
theorem BackendStep.pricesTrack (hs : b.sys.Sound cfg) (h : Catalogue b.sys.world.db b.stripe)
    (hStep : BackendStep cfg b action b') (hTracks : PricesTrack planId b) :
    PricesTrack planId b' ↔ KeepsPrices planId b action := by
  cases hStep with
  | request step => exact iff_of_true (fun p hp => hTracks p (step.plans_same ▸ hp)) trivial
  | plan fresh served => exact tracks_call h hs.valid fresh served hTracks

theorem catalogue_of_none (h : ∀ p ∈ b.sys.world.db.plans, p.terms = p) :
    Catalogue b.sys.world.db b.stripe where
  linked p hp := Plan.linked_of_none (h p hp)
  known p hp id hId := by
    rw [← h p hp] at hId
    cases hId
  owned p hp q hq id hId := by
    rw [← h p hp] at hId
    cases hId

/-- In a run of requests and calls on the plans, from an initial state whose plans are not at Stripe,
the ids of the plans are always all set or all null, and the prices of a plan track it throughout
exactly when in every update of the plan both calls to Stripe succeed for each fee that changes, or,
where the changed plan cannot be stored, no price is archived. -/
theorem prices_track_throughout (hInit : Initial b₀.sys)
    (hNone : ∀ p ∈ b₀.sys.world.db.plans, p.terms = p) (hRun : Run (BackendStep cfg) b₀ steps b) :
    (∀ p ∈ b.sys.world.db.plans, p.Whole) ∧
    ∀ planId, (Throughout (fun _ b => PricesTrack planId b) steps b ↔
      ∀ step ∈ steps, KeepsPrices planId step.1 step.2) := by
  have hCatalogue {pre m} (hPre : Run (BackendStep cfg) b₀ pre m) :
      Catalogue m.sys.world.db m.stripe :=
    Backend.catalogue_of_run hInit.sound (catalogue_of_none hNone) hPre
  refine ⟨fun p hp => ((hCatalogue hRun).linked p hp).whole, fun planId => ?_⟩
  have hStart : PricesTrack planId b₀ := fun p hp _ => Plan.tracks_of_none (hNone p hp)
  have hKeep {pre m action n} (hPre : Run (BackendStep cfg) b₀ pre m)
      (hStep : BackendStep cfg m action n) (hTracks : PricesTrack planId m) :
      PricesTrack planId n ↔ KeepsPrices planId m action :=
    hStep.pricesTrack (Backend.sound_of_run hInit.sound hPre) (hCatalogue hPre) hTracks
  rw [← atEach_const]
  exact hRun.throughout_iff hStart hKeep

end Steps

/-! ### A call that fails -/

def proAnswers : StripeAnswers :=
  { meter := some "mtr_1", product := some "prod_1", flatPrice := some "price_1",
    overagePrice := some "price_2" }

def proStart : Backend := ⟨billingStart, {}⟩

def proCreated : Backend :=
  let call := PlanCall.create ⟨3⟩ 50 ⟨"Pro", "pro", 2900, 0, 0, 4, 5, 5, 20, 10⟩
  let stores := (servePlan billingConfig.lib proAnswers call ⟨proStart.sys.world.db, {}⟩).2
  ⟨{ proStart.sys with world := { proStart.sys.world with db := stores.db } }, stores.cache⟩

/-- The fee is raised; Stripe archives the old price and does not create the new one. -/
def proAction : Action := .plan { archivesFlat := true } (.update ⟨3⟩ { monthlyFeeCents := some 3900 })

def proRaised : Backend :=
  let call := PlanCall.update ⟨3⟩ { monthlyFeeCents := some 3900 }
  let stores := (servePlan billingConfig.lib { archivesFlat := true } call
    ⟨proCreated.sys.world.db, proCreated.stripe⟩).2
  ⟨{ proCreated.sys with world := { proCreated.sys.world with db := stores.db } }, stores.cache⟩

def proSteps : List (Backend × Action) :=
  [(proStart, .plan proAnswers (.create ⟨3⟩ 50 ⟨"Pro", "pro", 2900, 0, 0, 4, 5, 5, 20, 10⟩)),
    (proCreated, proAction)]

theorem proSteps_run : Run (BackendStep billingConfig) proStart proSteps proRaised :=
  .cons (.plan ⟨by rintro _ (h | h | h | h) rfl <;> exact absurd h (by decide), by simp [proStart],
      by simp [proAnswers]⟩ rfl) <|
    .single (.plan ⟨by simp, by simp, by simp⟩ rfl)

theorem proStart_unlinked : ∀ p ∈ proStart.sys.world.db.plans, p.terms = p := by decide

/-- The plan is at 3900, and its price is the archived one at 2900. -/
theorem prices_track_lost :
    ¬∀ (cfg : Config) (b₀ b : Backend) (steps : List (Backend × Action)), Initial b₀.sys →
        (∀ p ∈ b₀.sys.world.db.plans, p.terms = p) → Run (BackendStep cfg) b₀ steps b →
        ∀ p ∈ b.sys.world.db.plans, p.Tracks b.stripe := by
  intro hClaim
  have hTracks := hClaim billingConfig proStart proRaised proSteps billingStart_initial
    proStart_unlinked proSteps_run
  have hThere : ∃ p ∈ proRaised.sys.world.db.plans, p.stripePriceId = some "price_1" := by decide
  have hArchived : proRaised.stripe.price "price_1" =
      some ⟨"price_1", "prod_1", 2900, none, false⟩ := by decide
  obtain ⟨p, hp, hFlat⟩ := hThere
  obtain ⟨price, hFound, hActive, -⟩ := (hTracks p hp).flat "price_1" hFlat
  obtain rfl := Option.some.inj (hArchived.symm.trans hFound)
  cases hActive

/-- The law for this run. -/
theorem prices_track_throughout_pro :
    (∀ p ∈ proRaised.sys.world.db.plans, p.Whole) ∧
    ∀ planId, (Throughout (fun _ b => PricesTrack planId b) proSteps proRaised ↔
      ∀ step ∈ proSteps, KeepsPrices planId step.1 step.2) :=
  prices_track_throughout billingStart_initial proStart_unlinked proSteps_run

end WxcodeAdm
