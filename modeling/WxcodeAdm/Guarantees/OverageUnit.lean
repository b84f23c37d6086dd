import WxcodeAdm.Guarantees.StripePrices

/-! The unit of the overage rate.  The plan has it in hundredths of a cent per token, and both
`create_plan` and `update_plan` hand the number to Stripe as it is, where it counts as cents. -/

namespace WxcodeAdm

open Lib

/-- What the price asks for one unit, in hundredths of a cent: Stripe has its amounts in cents. -/
def StripePrice.hundredths (price : StripePrice) : Nat := 100 * price.unitAmount

/-- The overage of the plan is charged at the rate that the plan documents. -/
def Plan.ChargesRate (stripe : Stripe) (p : Plan) : Prop :=
  ∃ id price, p.stripeOveragePriceId = some id ∧ stripe.price id = some price ∧
    price.active = true ∧ price.hundredths = p.overageRateCentsPerToken

/-- The overage price of the plan, whether it is on sale or not. -/
def Plan.overagePrice (stripe : Stripe) (p : Plan) : Option StripePrice :=
  p.stripeOveragePriceId.bind stripe.price

/-- The overage price of the plan was created for the number of the rate. -/
def Plan.Priced (stripe : Stripe) (p : Plan) : Prop :=
  ∃ price ∈ p.overagePrice stripe, price.unitAmount = p.overageRateCentsPerToken

section Plans

variable {stripe stripe' : Stripe} {p p' : Plan} {price : StripePrice}

theorem Plan.chargesRate_iff : p.ChargesRate stripe ↔ ∃ price ∈ p.overagePrice stripe,
    price.active = true ∧ price.hundredths = p.overageRateCentsPerToken := by
  simp only [ChargesRate, overagePrice, Option.mem_def, Option.bind_eq_some_iff]
  constructor
  · rintro ⟨id, price, hId, hPrice, hActive, hRate⟩
    exact ⟨price, ⟨id, hId, hPrice⟩, hActive, hRate⟩
  · rintro ⟨price, ⟨id, hId, hPrice⟩, hActive, hRate⟩
    exact ⟨id, price, hId, hPrice, hActive, hRate⟩

/-- A price for the number of the rate charges the rate only if that is zero. -/
theorem Plan.chargesRate_of_price (hPrice : p.overagePrice stripe = some price)
    (hAmount : price.unitAmount = p.overageRateCentsPerToken) :
    p.ChargesRate stripe ↔ price.active = true ∧ p.overageRateCentsPerToken = 0 := by
  have hHundredths : price.hundredths = 100 * p.overageRateCentsPerToken := by
    rw [StripePrice.hundredths, hAmount]
  simp only [chargesRate_iff, hPrice, Option.mem_some_iff, exists_eq_left', hHundredths]
  refine and_congr_right fun _ => ?_
  omega

theorem Plan.overagePrice_of_id {id : String} (hId : p.stripeOveragePriceId = some id) :
    p.overagePrice stripe = stripe.price id := by
  rw [overagePrice, hId]
  rfl

/-- A plan whose price is found, for the number of its rate. -/
theorem Plan.priced_of_price {before : Prop} {rate : Nat} {id : String}
    (hId : p.stripeOveragePriceId = some id) (hFound : stripe.price id = some price)
    (hAmount : price.unitAmount = p.overageRateCentsPerToken)
    (hIff : before → (price.active = true ∧ p.overageRateCentsPerToken = 0 ↔ rate = 0)) :
    p.Priced stripe ∧ (before → (p.ChargesRate stripe ↔ rate = 0)) := by
  have hPrice : p.overagePrice stripe = some price := (overagePrice_of_id hId).trans hFound
  exact ⟨⟨price, hPrice, hAmount⟩, fun h => (chargesRate_of_price hPrice hAmount).trans (hIff h)⟩

/-- A plan with the same price and the same rate. -/
theorem Plan.Priced.congr (hPrice : p'.overagePrice stripe' = p.overagePrice stripe)
    (hRate : p'.overageRateCentsPerToken = p.overageRateCentsPerToken) :
    (p'.Priced stripe' ↔ p.Priced stripe) ∧ (p'.ChargesRate stripe' ↔ p.ChargesRate stripe) := by
  rw [Priced, Priced, chargesRate_iff, chargesRate_iff, hPrice, hRate]
  exact ⟨.rfl, .rfl⟩

end Plans

/-! ### Calls -/

/-- Stripe answers all calls that a call makes for the plan. -/
def CallsSucceed (planId : Uuid) (answers : StripeAnswers) (db : Db) : PlanCall → Prop
  | .create newId _ _ => newId = planId → answers.Create
  | .update targetId body => targetId = planId → ∀ plan ∈ db.plan planId,
      given plan.stripeProductId = true → answers.Replace plan (body.applyTo plan)
  | .delete _ => True

/-- A call asks for no rate for the plan: it does not create the plan with one, and no update, stored
or not, sets one. -/
def AsksNoRate (planId : Uuid) (db : Db) : PlanCall → Prop
  | .create newId now body => newId = planId → (db.addPlan (body.plan newId now)).Valid →
      body.overageRateCentsPerToken = 0
  | .update targetId body => targetId = planId → ∀ plan ∈ db.plan planId,
      (body.applyTo plan).overageRateCentsPerToken = 0
  | .delete _ => True

def Db.Priced (db : Db) (stripe : Stripe) (planId : Uuid) : Prop :=
  ∀ p ∈ db.plans, p.id = planId → p.Priced stripe

def Db.Charges (db : Db) (stripe : Stripe) (planId : Uuid) : Prop :=
  ∀ p ∈ db.plans, p.id = planId → p.ChargesRate stripe

section Calls

variable {lib : Library} {answers : StripeAnswers} {stores stores' : Stores Db Stripe}
  {result : Except PyError Unit} {planId newId targetId : Uuid} {now : Nat}

/-- A new plan is charged at its rate exactly when that is zero. -/
theorem charges_create {body : CreatePlanRequest} (h : Catalogue stores.db stores.cache)
    (fresh : answers.Fresh stores.cache) (hSucceeds : newId = planId → answers.Create)
    (served : servePlan lib answers (.create newId now body) stores = (result, stores'))
    (hPriced : stores.db.Priced stores.cache planId) :
    stores'.db.Priced stores'.cache planId ∧ (stores.db.Charges stores.cache planId →
      (stores'.db.Charges stores'.cache planId ↔
        AsksNoRate planId stores.db (.create newId now body))) := by
  obtain ⟨hKeeps, hPlans⟩ := servePlan_create fresh served
  have hOld {p : Plan} (hp : p ∈ stores.db.plans) : p.overagePrice stores'.cache =
      p.overagePrice stores.cache := by
    unfold Plan.overagePrice
    cases hId : p.stripeOveragePriceId with
    | none => rfl
    | some id => exact hKeeps id (h.known p hp id (by simp [hId]))
  have hSame {p : Plan} (hp : p ∈ stores.db.plans) := Plan.Priced.congr (hOld hp) rfl
  rcases hPlans with ⟨hNot, hPlans⟩ | ⟨hAdded, new, hPlans, hTerms, -, hTracks, -, hCreate⟩
  · refine ⟨fun p hp hId => (hSame (hPlans ▸ hp)).1.mpr (hPriced p (hPlans ▸ hp) hId),
      fun hCharges => ?_⟩
    refine iff_of_true (fun p hp hId => ?_) fun _ hValid => absurd hValid hNot
    exact (hSame (hPlans ▸ hp)).2.mpr (hCharges p (hPlans ▸ hp) hId)
  · have hNewId : new.id = newId := congrArg Plan.id hTerms
    have hRate : new.overageRateCentsPerToken = body.overageRateCentsPerToken :=
      congrArg Plan.overageRateCentsPerToken hTerms
    have hNew (hSelf : newId = planId) : new.Priced stores'.cache ∧
        (new.ChargesRate stores'.cache ↔ body.overageRateCentsPerToken = 0) := by
      obtain ⟨id, hId⟩ := Option.isSome_iff_exists.mp (hCreate (hSucceeds hSelf))
      obtain ⟨price, hFound, hActive, hAmount⟩ := hTracks.overage id hId
      have hPrice : new.overagePrice stores'.cache = some price := by
        rw [Plan.overagePrice, hId]
        exact hFound
      refine ⟨⟨price, hPrice, hAmount⟩, ?_⟩
      rw [Plan.chargesRate_of_price hPrice hAmount, and_iff_right hActive, hRate]
    have hMem {p : Plan} (hp : p ∈ stores'.db.plans) : p ∈ stores.db.plans ∨ p = new := by
      rw [hPlans] at hp
      simpa using hp
    refine ⟨fun p hp hId => ?_, fun hCharges => ⟨fun hAfter hSelf _ => ?_, fun hAsks p hp hId => ?_⟩⟩
    · rcases hMem hp with hp | rfl
      · exact (hSame hp).1.mpr (hPriced p hp hId)
      · exact (hNew (hNewId.symm.trans hId)).1
    · refine (hNew hSelf).2.mp (hAfter new ?_ (hNewId.trans hSelf))
      rw [hPlans]
      exact List.mem_append_right _ (List.mem_singleton_self new)
    · rcases hMem hp with hp | rfl
      · exact (hSame hp).2.mpr (hCharges p hp hId)
      · have hSelf := hNewId.symm.trans hId
        exact (hNew hSelf).2.mpr (hAsks hSelf hAdded)

/-- What an update whose calls succeed makes of the overage price: it is left, or archived for a new
one. -/
theorem overage_synced {stripe : Stripe} {plan : Plan} {flat overage : String} (changed : Plan)
    (fresh : answers.Fresh stripe) (hFlat : changed.stripePriceId = some flat)
    (hOverage : changed.stripeOveragePriceId = some overage) (hApart : flat ≠ overage)
    (hKnown : (stripe.price overage).isSome) (hReplace : answers.Replace plan changed) :
    let first := flatSynced answers changed
      (decide (changed.monthlyFeeCents ≠ plan.monthlyFeeCents)) stripe
    let second := overageSynced answers changed
      (overageDue answers changed (decide (changed.monthlyFeeCents ≠ plan.monthlyFeeCents))
        (decide (changed.overageRateCentsPerToken ≠ plan.overageRateCentsPerToken)) stripe) first.2
    if changed.overageRateCentsPerToken = plan.overageRateCentsPerToken then
      second.1 = none ∧ second.2.price overage = stripe.price overage
    else (∃ new ∈ second.1, ∃ price, second.2.price new = some price ∧ price.active = true ∧
        price.unitAmount = changed.overageRateCentsPerToken) ∧
      second.2.price overage = (stripe.price overage).map fun p => { p with active := false } := by
  intro first second
  have hLeft : first.2.price overage = stripe.price overage :=
    flatSynced_overage fresh hFlat hApart hKnown
  have hDue := @overageDue_of_flat answers changed stripe
    (decide (changed.monthlyFeeCents ≠ plan.monthlyFeeCents))
    (decide (changed.overageRateCentsPerToken ≠ plan.overageRateCentsPerToken))
    fun hFee => hReplace.1 (of_decide_eq_true hFee)
  simp only [second, hDue]
  split
  · rename_i hRate
    rw [decide_eq_false (not_not.mpr hRate)]
    exact ⟨rfl, hLeft⟩
  · rename_i hRate
    obtain ⟨hArchives, hSome⟩ := hReplace.2 hRate
    obtain ⟨new, hNew⟩ := Option.isSome_iff_exists.mp hSome
    have hGetD : changed.stripeOveragePriceId.getD "" = overage := by
      rw [hOverage]
      rfl
    rw [decide_eq_true hRate, overageSynced, hGetD, hArchives, Bool.and_self]
    constructor
    · have hMade := @replaced_new first.2 true answers.overagePrice overage
        (fun id => { id, product := changed.stripeProductId.getD "",
                     unitAmount := changed.overageRateCentsPerToken, meter := changed.stripeMeterId })
        (fun _ => rfl) (overage_fresh fresh) new (by rw [hNew]; rfl)
      exact ⟨new, by rw [hNew]; rfl, _, hMade, rfl, rfl⟩
    · rw [← hLeft] at hKnown ⊢
      exact replaced_price_old (fun _ => rfl) hKnown (overage_fresh fresh)

/-- An update leaves the plan charged at its rate exactly when it asks for none. -/
theorem charges_update {body : UpdatePlanRequest} {plan : Plan} (h : Catalogue stores.db stores.cache)
    (hValid : stores.db.Valid) (fresh : answers.Fresh stores.cache)
    (hFound : stores.db.plan planId = some plan)
    (hReplace : given plan.stripeProductId = true → answers.Replace plan (body.applyTo plan))
    (served : servePlan lib answers (.update planId body) stores = (result, stores'))
    (hPriced : plan.Priced stores.cache) :
    stores'.db.Priced stores'.cache planId ∧ (plan.ChargesRate stores.cache →
      (stores'.db.Charges stores'.cache planId ↔
        (body.applyTo plan).overageRateCentsPerToken = 0)) := by
  obtain ⟨price, hPrice, hAmount⟩ := hPriced
  obtain ⟨overage, hOverage, hAtStripe⟩ := Option.bind_eq_some_iff.mp hPrice
  rcases (h.linked plan (List.mem_of_find?_eq_some hFound)).cases with ⟨-, -, hNone⟩ |
    ⟨hProduct, flat, id, hFlat, hId, hFlatGiven, hIdGiven, hApart⟩
  · cases hNone.symm.trans hOverage
  obtain rfl := Option.some.inj (hId.symm.trans hOverage)
  have hSynced := overage_synced (body.applyTo plan) fresh hFlat hOverage hApart
    (hAtStripe ▸ rfl) (hReplace hProduct)
  rw [servePlan_update_linked hValid hFound hProduct (hFlat ▸ hFlatGiven) (hOverage ▸ hIdGiven) served]
  dsimp only at hSynced ⊢
  have hBefore := Plan.chargesRate_of_price hPrice hAmount
  by_cases hRate : (body.applyTo plan).overageRateCentsPerToken = plan.overageRateCentsPerToken
  · -- The overage price stays as it is, whether the update is committed or not.
    rw [if_pos hRate] at hSynced
    obtain ⟨hNone, hSame⟩ := hSynced
    split
    · rw [Db.Priced, Db.Charges, Db.forall_updatePlan_self hValid hFound (by exact fun _ => rfl),
        Db.forall_updatePlan_self hValid hFound (by exact fun _ => rfl)]
      refine Plan.priced_of_price (?_ : _ = some id) (hSame.trans hAtStripe)
        (hAmount.trans hRate.symm) fun hCharges => and_iff_right (hBefore.mp hCharges).1
      rw [Plan.relink, hNone]
      exact hOverage
    · rw [Db.Priced, Db.Charges, Db.forall_plan hValid hFound, Db.forall_plan hValid hFound]
      refine Plan.priced_of_price hOverage (hSame.trans hAtStripe) hAmount fun hCharges => ?_
      rw [hRate]
      exact and_iff_right (hBefore.mp hCharges).1
  · rw [if_neg hRate] at hSynced
    obtain ⟨⟨new, hNew, price', hMade, hActive, hAmount'⟩, hArchived⟩ := hSynced
    split
    · rw [Db.Priced, Db.Charges, Db.forall_updatePlan_self hValid hFound (by exact fun _ => rfl),
        Db.forall_updatePlan_self hValid hFound (by exact fun _ => rfl)]
      refine Plan.priced_of_price (?_ : _ = some new) hMade hAmount' fun _ =>
        and_iff_right hActive
      rw [Plan.relink, hNew]
      rfl
    · -- The update is rolled back, and its old price is archived.
      rw [Db.Priced, Db.Charges, Db.forall_plan hValid hFound, Db.forall_plan hValid hFound]
      rw [hAtStripe] at hArchived
      refine Plan.priced_of_price hOverage hArchived hAmount fun hCharges => ?_
      have hZero := (hBefore.mp hCharges).2
      exact iff_of_false (by simp) fun hNoRate => hRate (hNoRate.trans hZero.symm)

/-- An update of another plan leaves the overage price. -/
theorem charges_update_other {body : UpdatePlanRequest} (h : Catalogue stores.db stores.cache)
    (hValid : stores.db.Valid) (fresh : answers.Fresh stores.cache) (hOther : targetId ≠ planId)
    (served : servePlan lib answers (.update targetId body) stores = (result, stores')) :
    (stores'.db.Priced stores'.cache planId ↔ stores.db.Priced stores.cache planId) ∧
      (stores'.db.Charges stores'.cache planId ↔ stores.db.Charges stores.cache planId) := by
  cases hFound : stores.db.plan targetId with
  | none =>
    rw [servePlan_update_unknown hFound served]
    exact ⟨.rfl, .rfl⟩
  | some plan =>
    have hPlan : plan ∈ stores.db.plans := List.mem_of_find?_eq_some hFound
    have hId : plan.id = targetId := by simpa using List.find?_some hFound
    rcases (h.linked plan hPlan).cases with ⟨hProduct, -⟩ |
      ⟨hProduct, flat, overage, hFlat, hOverage, hFlatGiven, hOverageGiven, -⟩
    · rw [servePlan_update_unlinked hValid hFound hProduct served]
      dsimp only
      split
      · exact ⟨Db.forall_updatePlan_other (by exact fun _ => rfl) hOther,
          Db.forall_updatePlan_other (by exact fun _ => rfl) hOther⟩
      · exact ⟨.rfl, .rfl⟩
    · rw [servePlan_update_linked hValid hFound hProduct (hFlat ▸ hFlatGiven)
        (hOverage ▸ hOverageGiven) served]
      have hSame {due due' : Bool} (p : Plan) (hp : p ∈ stores.db.plans) (hSame : p.id = planId) :
          p.overagePrice (overageSynced answers (body.applyTo plan) due'
            (flatSynced answers (body.applyTo plan) due stores.cache).2).2 =
          p.overagePrice stores.cache := by
        have hNe : p.id ≠ plan.id := fun hEq => hOther ((hEq.trans hId).symm.trans hSame)
        unfold Plan.overagePrice
        cases hPrice : p.stripeOveragePriceId with
        | none => rfl
        | some id => exact price_synced_other h fresh hPlan hp hNe (by simp [hPrice])
      have hPriced {due due' : Bool} := forall_congr' fun p => forall_congr' fun hp =>
        forall_congr' fun hId => (Plan.Priced.congr (@hSame due due' p hp hId) rfl).1
      have hCharges {due due' : Bool} := forall_congr' fun p => forall_congr' fun hp =>
        forall_congr' fun hId => (Plan.Priced.congr (@hSame due due' p hp hId) rfl).2
      dsimp only
      split
      · exact ⟨(Db.forall_updatePlan_other (by exact fun _ => rfl) hOther).trans hPriced,
          (Db.forall_updatePlan_other (by exact fun _ => rfl) hOther).trans hCharges⟩
      · exact ⟨hPriced, hCharges⟩

/-- A call whose calls to Stripe succeed leaves the price of the plan for the number of its rate, and
the plan charged at its rate exactly when it asks for none. -/
theorem charges_call {call : PlanCall} (h : Catalogue stores.db stores.cache)
    (hValid : stores.db.Valid) (fresh : answers.Fresh stores.cache)
    (hSucceeds : CallsSucceed planId answers stores.db call)
    (served : servePlan lib answers call stores = (result, stores'))
    (hPriced : stores.db.Priced stores.cache planId) :
    stores'.db.Priced stores'.cache planId ∧ (stores.db.Charges stores.cache planId →
      (stores'.db.Charges stores'.cache planId ↔ AsksNoRate planId stores.db call)) := by
  cases call with
  | create newId now body => exact charges_create h fresh hSucceeds served hPriced
  | update targetId body =>
    by_cases hTarget : targetId = planId
    · subst hTarget
      cases hFound : stores.db.plan targetId with
      | none =>
        rw [servePlan_update_unknown hFound served]
        refine ⟨hPriced, fun hCharges => iff_of_true hCharges fun _ plan hPlan => ?_⟩
        cases hFound.symm.trans hPlan
      | some plan =>
        obtain ⟨hAfter, hIff⟩ := charges_update h hValid fresh hFound (hSucceeds rfl plan hFound) served
          ((Db.forall_plan hValid hFound).mp hPriced)
        refine ⟨hAfter, fun hCharges => (hIff ((Db.forall_plan hValid hFound).mp hCharges)).trans ?_⟩
        simp [AsksNoRate, hFound]
    · obtain ⟨hSamePriced, hSameCharges⟩ := charges_update_other h hValid fresh hTarget served
      refine ⟨hSamePriced.mpr hPriced, fun hCharges => ?_⟩
      exact iff_of_true (hSameCharges.mpr hCharges) fun hSelf => absurd hSelf hTarget
  | delete targetId =>
    obtain ⟨hPrices, hPlans⟩ := servePlan_delete served
    have hSame (p : Plan) : p.overagePrice stores'.cache = p.overagePrice stores.cache := by
      have hPrice : stores'.cache.price = stores.cache.price := by
        funext id
        rw [Stripe.price, Stripe.price, hPrices]
      rw [Plan.overagePrice, Plan.overagePrice, hPrice]
    refine ⟨fun p hp hId => ?_, fun hCharges => iff_of_true (fun p hp hId => ?_) trivial⟩
    · exact (Plan.Priced.congr (hSame p) rfl).1.mpr (hPriced p (hPlans p hp) hId)
    · exact (Plan.Priced.congr (hSame p) rfl).2.mpr (hCharges p (hPlans p hp) hId)

end Calls

/-! ### Runs -/

/-- Stripe answers all calls that the step makes for the plan. -/
def StripeSucceeds (planId : Uuid) : Backend × Action → Prop
  | (_, .request _) => True
  | (b, .plan answers call) => CallsSucceed planId answers b.sys.world.db call

/-- The step asks for no overage rate for the plan. -/
def RateZero (planId : Uuid) : Backend × Action → Prop
  | (_, .request _) => True
  | (b, .plan _ call) => AsksNoRate planId b.sys.world.db call

/-- The plan, if it is there, is charged at its documented rate. -/
def ChargesDocumented (planId : Uuid) (b : Backend) : Prop := b.sys.world.db.Charges b.stripe planId

section Steps

variable {cfg : Config} {b b' b₀ : Backend} {action : Action} {steps : List (Backend × Action)}
  {planId : Uuid}

theorem BackendStep.charges (hs : b.sys.Sound cfg) (h : Catalogue b.sys.world.db b.stripe)
    (hStep : BackendStep cfg b action b') (hSucceeds : StripeSucceeds planId (b, action))
    (hPriced : b.sys.world.db.Priced b.stripe planId) :
    b'.sys.world.db.Priced b'.stripe planId ∧
      (ChargesDocumented planId b → (ChargesDocumented planId b' ↔ RateZero planId (b, action))) := by
  cases hStep with
  | request step =>
    have hPlans := step.plans_same
    exact ⟨fun p hp => hPriced p (hPlans ▸ hp),
      fun hCharges => iff_of_true (fun p hp => hCharges p (hPlans ▸ hp)) trivial⟩
  | @plan answers call _ _ fresh served =>
    have hAnswered : CallsSucceed planId answers b.sys.world.db call := hSucceeds
    exact charges_call h hs.valid fresh hAnswered served hPriced

theorem Backend.priced_of_run (hInit : Initial b₀.sys)
    (hNone : ∀ p ∈ b₀.sys.world.db.plans, p.terms = p)
    (hNew : ∀ p ∈ b₀.sys.world.db.plans, p.id ≠ planId) (hRun : Run (BackendStep cfg) b₀ steps b)
    (hSucceeds : ∀ step ∈ steps, StripeSucceeds planId step) :
    (b.sys.Sound cfg ∧ Catalogue b.sys.world.db b.stripe) ∧
      b.sys.world.db.Priced b.stripe planId := by
  refine hRun.invariant_of (C := fun b action => StripeSucceeds planId (b, action)) (I := fun m =>
    (m.sys.Sound cfg ∧ Catalogue m.sys.world.db m.stripe) ∧ m.sys.world.db.Priced m.stripe planId)
    ?_ ⟨⟨hInit.sound, catalogue_of_none hNone⟩, fun p hp hSame => absurd hSame (hNew p hp)⟩ hSucceeds
  rintro m action n ⟨⟨hs, hCatalogue⟩, hPriced⟩ hAnswered hStep
  exact ⟨⟨hStep.sound hs, hStep.catalogue hs hCatalogue⟩,
    (hStep.charges hs hCatalogue hAnswered hPriced).1⟩

/-- In a run in which a plan is created and updated, and the calls to Stripe for it succeed, the plan
is charged at its documented rate in every state exactly when no call asks for a rate. -/
theorem charges_throughout_iff (hInit : Initial b₀.sys)
    (hNone : ∀ p ∈ b₀.sys.world.db.plans, p.terms = p)
    (hNew : ∀ p ∈ b₀.sys.world.db.plans, p.id ≠ planId)
    (hRun : Run (BackendStep cfg) b₀ steps b)
    (hSucceeds : ∀ step ∈ steps, StripeSucceeds planId step) :
    Throughout (fun _ b => ChargesDocumented planId b) steps b ↔
      ∀ step ∈ steps, RateZero planId step := by
  rw [← atEach_const]
  refine hRun.throughout_iff_of (D := fun pre step => ∀ p ∈ pre ++ [step], StripeSucceeds planId p)
    ?_ (fun p hp hSame => absurd hSame (hNew p hp)) fun hPre hStep hAnswered hCharges => ?_
  · rintro pre step post rfl p hp
    rcases List.mem_append.mp hp with hp | hp
    · exact hSucceeds p (List.mem_append_left _ hp)
    · exact hSucceeds p (List.mem_append_right _ (List.mem_singleton.mp hp ▸ List.mem_cons_self))
  · obtain ⟨⟨hs, hCatalogue⟩, hPriced⟩ := Backend.priced_of_run hInit hNone hNew hPre fun p hp =>
      hAnswered p (List.mem_append_left _ hp)
    have hLast := hAnswered _ (List.mem_append_right _ (List.mem_singleton_self _))
    exact (hStep.charges hs hCatalogue hLast hPriced).2 hCharges

end Steps

/-! ### A plan of 4 hundredths of a cent -/

def proPlan : Plan :=
  (CreatePlanRequest.plan ⟨"Pro", "pro", 2900, 0, 0, 4, 5, 5, 20, 10⟩ ⟨3⟩ 50).link "mtr_1" "prod_1"
    "price_1" "price_2"

def proCreation : List (Backend × Action) :=
  [(proStart, .plan proAnswers (.create ⟨3⟩ 50 ⟨"Pro", "pro", 2900, 0, 0, 4, 5, 5, 20, 10⟩))]

theorem proCreation_run : Run (BackendStep billingConfig) proStart proCreation proCreated :=
  .single (.plan ⟨by rintro _ (h | h | h | h) rfl <;> exact absurd h (by decide),
    by simp [proStart], by simp [proAnswers]⟩ rfl)

theorem proCreation_succeeds : ∀ step ∈ proCreation, StripeSucceeds ⟨3⟩ step := by
  intro step hStep
  obtain rfl := List.mem_singleton.mp hStep
  exact fun _ => ⟨rfl, rfl, rfl, rfl⟩

/-- The plan asks for 4 hundredths of a cent per token, and its price for 4 cents. -/
theorem proPlan_overcharged :
    ¬∀ (cfg : Config) (b₀ b : Backend) (steps : List (Backend × Action)) (planId : Uuid),
        Initial b₀.sys → (∀ p ∈ b₀.sys.world.db.plans, p.terms = p) →
        (∀ p ∈ b₀.sys.world.db.plans, p.id ≠ planId) → Run (BackendStep cfg) b₀ steps b →
        (∀ step ∈ steps, StripeSucceeds planId step) →
        ∀ p ∈ b.sys.world.db.plans, p.id = planId → p.ChargesRate b.stripe := by
  intro hClaim
  obtain ⟨id, price, hId, hPrice, -, hCharged⟩ := hClaim billingConfig proStart proCreated
    proCreation ⟨3⟩ billingStart_initial proStart_unlinked (by decide) proCreation_run
    proCreation_succeeds proPlan (by decide) rfl
  obtain rfl := Option.some.inj hId
  have hFound : proCreated.stripe.price "price_2" =
      some ⟨"price_2", "prod_1", 4, some "mtr_1", true⟩ := by decide
  obtain rfl := Option.some.inj (hFound.symm.trans hPrice)
  exact absurd hCharged (by decide)

theorem charges_throughout_iff_pro :
    Throughout (fun _ b => ChargesDocumented ⟨3⟩ b) proCreation proCreated ↔
      ∀ step ∈ proCreation, RateZero ⟨3⟩ step :=
  charges_throughout_iff billingStart_initial proStart_unlinked (by decide) proCreation_run
    proCreation_succeeds

end WxcodeAdm
