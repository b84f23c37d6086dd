import WxcodeAdm.Billing.Catalog

/-! What the calls of `create_plan` and `update_plan` leave at Stripe and in the ids of the plan,
whatever Stripe answers.  A price that is replaced is archived first, and the new one may then fail
to be created. -/

namespace WxcodeAdm

open Lib

namespace Stripe

def price (stripe : Stripe) (id : String) : Option StripePrice :=
  stripe.prices.find? fun p => p.id = id

/-- The id names a price that is active and was created with the amount. -/
def Sells (stripe : Stripe) (id : String) (amount : Nat) : Prop :=
  ∃ p, stripe.price id = some p ∧ p.active = true ∧ p.unitAmount = amount

variable {stripe stripe' : Stripe} {id old : String} {amount : Nat}

theorem price_archive : (stripe.archivePrice old).price id =
    if id = old then (stripe.price id).map fun p => { p with active := false }
    else stripe.price id := by
  rw [price, price, archivePrice, List.find?_map]
  have hFind : stripe.prices.find? ((fun p : StripePrice => decide (p.id = id)) ∘
      fun p => if p.id = old then { p with active := false } else p) =
      stripe.prices.find? fun p => p.id = id := by
    refine congrArg (fun q => stripe.prices.find? q) (funext fun p => ?_)
    simp only [Function.comp]
    split <;> rfl
  rw [hFind]
  cases hFound : stripe.prices.find? fun p => p.id = id with
  | none => split <;> rfl
  | some p =>
    have hId : p.id = id := by simpa using List.find?_some hFound
    simp only [Option.map_some, hId]
    split <;> rfl

theorem archivePrice_ids :
    ∀ p ∈ (stripe.archivePrice old).prices, ∃ q ∈ stripe.prices, q.id = p.id := by
  intro p hp
  obtain ⟨q, hq, rfl⟩ := List.mem_map.mp hp
  exact ⟨q, hq, by split <;> rfl⟩

theorem price_add_other {p : StripePrice} (h : p.id ≠ id) :
    (stripe.addPrice p).price id = stripe.price id := by
  rw [price, price, addPrice, List.find?_append]
  have hNone : [p].find? (fun p => p.id = id) = none := by simp [h]
  rw [hNone, Option.or_none]

theorem price_add_same {p : StripePrice} (h : ∀ q ∈ stripe.prices, q.id ≠ p.id) :
    (stripe.addPrice p).price p.id = some p := by
  have hNone : stripe.prices.find? (fun q => q.id = p.id) = none :=
    List.find?_eq_none.mpr fun q hq => by simpa using h q hq
  rw [price, addPrice, List.find?_append, hNone]
  simp

theorem price_none (h : ∀ q ∈ stripe.prices, q.id ≠ id) : stripe.price id = none :=
  List.find?_eq_none.mpr fun q hq => by simpa using h q hq

theorem ne_of_known (hKnown : (stripe.price id).isSome) (hNew : ∀ q ∈ stripe.prices, q.id ≠ old) :
    old ≠ id := by
  rintro rfl
  rw [price_none hNew] at hKnown
  cases hKnown

theorem Sells.congr (h : stripe'.price id = stripe.price id) :
    stripe'.Sells id amount ↔ stripe.Sells id amount := by
  rw [Sells, Sells, h]

theorem Sells.known (h : stripe.Sells id amount) : (stripe.price id).isSome := by
  obtain ⟨p, hFound, -⟩ := h
  rw [hFound]
  rfl

/-- A price has one amount. -/
theorem Sells.unique {amount' : Nat} (h : stripe.Sells id amount) (h' : stripe.Sells id amount') :
    amount' = amount := by
  obtain ⟨p, hFound, -, rfl⟩ := h
  obtain ⟨p', hFound', -, rfl⟩ := h'
  rw [Option.some.inj (hFound.symm.trans hFound')]

end Stripe

/-! ### One price -/

/-- What becomes of a price that is to be replaced: the id of the new one, if it came to that, and
what Stripe has then. -/
def replaced (archives : Bool) (answer : Option String) (old : String) (price : String → StripePrice)
    (stripe : Stripe) : Option String × Stripe :=
  if archives = true then
    match answer with
    | none => (none, stripe.archivePrice old)
    | some id => (some id, (stripe.archivePrice old).addPrice (price id))
  else (none, stripe)

def fillIn (set : String → Plan → Plan) (answer : Option String) (p : Plan) : Plan :=
  answer.elim p fun id => set id p

theorem run_replacePrice_replaced {stores : Stores Db Stripe} {archives : Bool}
    {answer : Option String} {old : String} {price : String → StripePrice} {planId : Uuid}
    {set : String → Plan → Plan} :
    let new := replaced archives answer old price stores.cache
    (replacePrice archives answer old price planId set).run stores =
      .ok new.1.isSome ⟨stores.db.updatePlan planId (fillIn set new.1), new.2⟩ := by
  have hIdle : stores.db.updatePlan planId (fillIn set none) = stores.db := by
    have hMap : stores.db.plans.map (fun p => if p.id = planId then fillIn set none p else p) =
        stores.db.plans := by
      refine (List.map_congr_left fun p _ => ?_).trans (List.map_id _)
      split <;> rfl
    rw [Db.updatePlan, hMap]
  rw [run_replacePrice]
  unfold replaced
  dsimp only
  split
  · split
    · rw [hIdle]
      rfl
    · rfl
  · rw [hIdle]
    rfl

section Replaced

variable {stripe : Stripe} {archives : Bool} {answer : Option String} {old id : String}
  {price : String → StripePrice} {amount amount' : Nat}

theorem replaced_answer : ∀ id ∈ (replaced archives answer old price stripe).1, id ∈ answer := by
  unfold replaced
  split
  · split
    · exact fun _ h => h
    · exact fun _ h => h
  · simp

/-- The ids at Stripe afterwards. -/
theorem replaced_ids (hPrice : ∀ id, (price id).id = id) :
    ∀ p ∈ (replaced archives answer old price stripe).2.prices,
      (∃ q ∈ stripe.prices, q.id = p.id) ∨ p.id ∈ answer := by
  unfold replaced
  split
  · split
    · exact fun p hp => .inl (Stripe.archivePrice_ids p hp)
    · rename_i new
      intro p hp
      rcases List.mem_append.mp hp with hOld | hNew
      · exact .inl (Stripe.archivePrice_ids p hOld)
      · obtain rfl := List.mem_singleton.mp hNew
        exact .inr (congrArg some (hPrice new).symm)
  · exact fun p hp => .inl ⟨p, hp, rfl⟩

/-- Other prices stay as they are. -/
theorem replaced_other (hPrice : ∀ id, (price id).id = id) (hOther : id ≠ old)
    (hNew : ∀ new ∈ answer, new ≠ id) :
    (replaced archives answer old price stripe).2.price id = stripe.price id := by
  have hArchived : (stripe.archivePrice old).price id = stripe.price id := by
    rw [Stripe.price_archive, if_neg hOther]
  unfold replaced
  split
  · split
    · exact hArchived
    · rename_i new
      rw [Stripe.price_add_other, hArchived]
      rw [hPrice]
      exact hNew new rfl
  · rfl

/-- The price that was created is at Stripe. -/
theorem replaced_new (hPrice : ∀ id, (price id).id = id)
    (hNew : ∀ new ∈ answer, ∀ q ∈ stripe.prices, q.id ≠ new) :
    ∀ id ∈ (replaced archives answer old price stripe).1,
      (replaced archives answer old price stripe).2.price id = some (price id) := by
  unfold replaced
  split
  · split
    · simp
    · rename_i new
      rintro id h
      obtain rfl := Option.some.inj h
      have hAdded := @Stripe.price_add_same (stripe.archivePrice old) (price new) fun q hq => by
        rw [hPrice]
        obtain ⟨q₀, hq₀, hId⟩ := Stripe.archivePrice_ids q hq
        exact hId ▸ hNew new rfl q₀ hq₀
      rwa [hPrice] at hAdded
  · simp

/-- No price is lost. -/
theorem replaced_known (hPrice : ∀ id, (price id).id = id)
    (hNew : ∀ new ∈ answer, ∀ q ∈ stripe.prices, q.id ≠ new) (hKnown : (stripe.price id).isSome) :
    ((replaced archives answer old price stripe).2.price id).isSome := by
  have hArchived : ((stripe.archivePrice old).price id).isSome := by
    rw [Stripe.price_archive]
    split
    · simpa using hKnown
    · exact hKnown
  unfold replaced
  split
  · split
    · exact hArchived
    · rename_i new
      rw [Stripe.price_add_other]
      · exact hArchived
      · rw [hPrice]
        exact Stripe.ne_of_known hKnown (hNew new rfl)
  · exact hKnown

/-- A price is on sale with another amount exactly when both calls have succeeded. -/
theorem replaced_sells
    (hPrice : ∀ id, (price id).id = id ∧ (price id).active = true ∧ (price id).unitAmount = amount')
    (hOld : stripe.Sells old amount) (hChanged : amount' ≠ amount)
    (hNew : ∀ new ∈ answer, ∀ q ∈ stripe.prices, q.id ≠ new) :
    (replaced archives answer old price stripe).2.Sells
        ((replaced archives answer old price stripe).1.getD old) amount' ↔
      archives = true ∧ answer.isSome := by
  cases archives with
  | false =>
    refine iff_of_false (fun h => hChanged (hOld.unique h)) ?_
    simp
  | true =>
    cases answer with
    | none =>
      refine iff_of_false ?_ (by simp)
      rintro ⟨p, hFound, hActive, -⟩
      change (stripe.archivePrice old).price old = some p at hFound
      obtain ⟨q, hSold, -⟩ := hOld
      rw [Stripe.price_archive, if_pos rfl, hSold] at hFound
      obtain rfl := Option.some.inj hFound
      cases hActive
    | some new =>
      refine iff_of_true ⟨price new, ?_, (hPrice new).2⟩ ⟨rfl, rfl⟩
      exact @replaced_new stripe true (some new) old price (fun id => (hPrice id).1) hNew new rfl

/-- The old price is there still, and may be archived. -/
theorem replaced_price_old (hPrice : ∀ id, (price id).id = id) (hKnown : (stripe.price old).isSome)
    (hNew : ∀ new ∈ answer, ∀ q ∈ stripe.prices, q.id ≠ new) :
    (replaced archives answer old price stripe).2.price old =
      if archives = true then (stripe.price old).map fun p => { p with active := false }
      else stripe.price old := by
  have hArchived : (stripe.archivePrice old).price old =
      (stripe.price old).map fun p => { p with active := false } := by
    rw [Stripe.price_archive, if_pos rfl]
  unfold replaced
  split
  · split
    · exact hArchived
    · rename_i new
      refine (Stripe.price_add_other ?_).trans hArchived
      rw [hPrice]
      exact Stripe.ne_of_known hKnown (hNew new rfl)
  · rfl

/-- The old price stays on sale exactly when it is not archived. -/
theorem replaced_old (hPrice : ∀ id, (price id).id = id) (hOld : stripe.Sells old amount)
    (hNew : ∀ new ∈ answer, ∀ q ∈ stripe.prices, q.id ≠ new) :
    (replaced archives answer old price stripe).2.Sells old amount ↔ archives = false := by
  have hFound := @replaced_price_old _ archives _ _ _ hPrice hOld.known hNew
  obtain ⟨p, hp, hActive, hAmount⟩ := hOld
  rw [Stripe.Sells, hFound, hp]
  cases archives with
  | false => simp [hActive, hAmount]
  | true => simp

end Replaced

/-! ### An update -/

/-- The plan with the prices that were created. -/
def Plan.relink (flat overage : Option String) (p : Plan) : Plan :=
  { p with
    stripePriceId := flat.or p.stripePriceId
    stripeOveragePriceId := overage.or p.stripeOveragePriceId }

/-- What comes of the flat fee of a plan, if that is due. -/
def flatSynced (answers : StripeAnswers) (plan : Plan) (due : Bool) (stripe : Stripe) :
    Option String × Stripe :=
  replaced (due && answers.archivesFlat) answers.flatPrice (plan.stripePriceId.getD "")
    (fun id =>
      { id, product := plan.stripeProductId.getD "", unitAmount := plan.monthlyFeeCents }) stripe

def overageSynced (answers : StripeAnswers) (plan : Plan) (due : Bool) (stripe : Stripe) :
    Option String × Stripe :=
  replaced (due && answers.archivesOverage) answers.overagePrice
    (plan.stripeOveragePriceId.getD "")
    (fun id =>
      { id, product := plan.stripeProductId.getD "", unitAmount := plan.overageRateCentsPerToken,
        meter := plan.stripeMeterId }) stripe

/-- The overage rate is left, where a call for the flat fee has failed. -/
def overageDue (answers : StripeAnswers) (plan : Plan) (priceChanged overageChanged : Bool)
    (stripe : Stripe) : Bool :=
  (!priceChanged || (flatSynced answers plan priceChanged stripe).1.isSome) && overageChanged

/-- Both calls to Stripe succeed for each fee in which the plan is changed. -/
def StripeAnswers.Replace (answers : StripeAnswers) (plan changed : Plan) : Prop :=
  (changed.monthlyFeeCents ≠ plan.monthlyFeeCents →
    answers.archivesFlat = true ∧ answers.flatPrice.isSome) ∧
  (changed.overageRateCentsPerToken ≠ plan.overageRateCentsPerToken →
    answers.archivesOverage = true ∧ answers.overagePrice.isSome)

/-- The first call to Stripe for the fees in which the plan is changed fails, which is the last. -/
def StripeAnswers.ArchiveNone (answers : StripeAnswers) (plan changed : Plan) : Prop :=
  if changed.monthlyFeeCents ≠ plan.monthlyFeeCents then answers.archivesFlat = false
  else changed.overageRateCentsPerToken ≠ plan.overageRateCentsPerToken →
    answers.archivesOverage = false

section Sync

variable {answers : StripeAnswers} {plan : Plan} {stores : Stores Db Stripe}
  {priceChanged overageChanged : Bool}

theorem updatePlan_twice {db : Db} {planId : Uuid} {f g : Plan → Plan} (hf : ∀ p, (f p).id = p.id) :
    (db.updatePlan planId f).updatePlan planId g = db.updatePlan planId fun p => g (f p) := by
  simp only [Db.updatePlan, List.map_map]
  congr 1
  refine List.map_congr_left fun p _ => ?_
  simp only [Function.comp]
  split
  · rename_i hId
    rw [if_pos ((hf p).trans hId)]
  · rfl

theorem updatePlan_relink_none {db : Db} {planId : Uuid} :
    db.updatePlan planId (Plan.relink none none) = db := by
  have hMap : db.plans.map (fun p => if p.id = planId then p.relink none none else p) = db.plans := by
    refine (List.map_congr_left fun p _ => ?_).trans (List.map_id _)
    split <;> rfl
  rw [Db.updatePlan, hMap]

theorem run_replaceFlatPrice :
    (replaceFlatPrice answers plan).run stores =
      .ok (flatSynced answers plan true stores.cache).1.isSome
        ⟨stores.db.updatePlan plan.id (.relink (flatSynced answers plan true stores.cache).1 none),
          (flatSynced answers plan true stores.cache).2⟩ := by
  rw [replaceFlatPrice, run_replacePrice_replaced]
  unfold flatSynced replaced
  rw [Bool.true_and]
  split
  · split <;> rfl
  · rfl

theorem run_replaceOveragePrice :
    (replaceOveragePrice answers plan).run stores =
      .ok (overageSynced answers plan true stores.cache).1.isSome
        ⟨stores.db.updatePlan plan.id (.relink none (overageSynced answers plan true stores.cache).1),
          (overageSynced answers plan true stores.cache).2⟩ := by
  rw [replaceOveragePrice, run_replacePrice_replaced]
  unfold overageSynced replaced
  rw [Bool.true_and]
  split
  · split <;> rfl
  · rfl

/-- The second half of the `try`. -/
theorem run_overage (hOverage : given plan.stripeOveragePriceId = true) (done : Bool) :
    (if done = true ∧ overageChanged ∧ given plan.stripeOveragePriceId then
      discard <| replaceOveragePrice answers plan else (pure () : PlanApp Unit)).run stores =
    .ok () ⟨stores.db.updatePlan plan.id
        (.relink none (overageSynced answers plan (done && overageChanged) stores.cache).1),
      (overageSynced answers plan (done && overageChanged) stores.cache).2⟩ := by
  rw [hOverage]
  split
  · rename_i hDue
    rw [hDue.1, hDue.2.1]
    exact Handler.run_discard_ok.mpr ⟨_, run_replaceOveragePrice⟩
  · rename_i hDue
    have hNot : (done && overageChanged) = false := by simpa using hDue
    rw [hNot]
    change _ = Outcome.ok () ⟨stores.db.updatePlan plan.id (.relink none none), stores.cache⟩
    rw [updatePlan_relink_none]
    rfl

theorem run_syncPrices (hFlat : given plan.stripePriceId = true)
    (hOverage : given plan.stripeOveragePriceId = true) :
    let flat := flatSynced answers plan priceChanged stores.cache
    let overage := overageSynced answers plan
      (overageDue answers plan priceChanged overageChanged stores.cache) flat.2
    (syncPrices answers plan priceChanged overageChanged).run stores =
      .ok () ⟨stores.db.updatePlan plan.id (.relink flat.1 overage.1), overage.2⟩ := by
  unfold syncPrices
  rw [hFlat]
  cases priceChanged with
  | false => exact run_overage hOverage true
  | true =>
    refine Handler.run_bind_ok.mpr ⟨_, _, run_replaceFlatPrice, ?_⟩
    refine (run_overage hOverage _).trans ?_
    dsimp only
    rw [updatePlan_twice]
    · rfl
    · exact fun _ => rfl

end Sync

/-- The whole of an update, for a plan with its prices at Stripe. -/
theorem run_updatePlan {lib : Library} {answers : StripeAnswers} {stores : Stores Db Stripe}
    {planId : Uuid} {body : UpdatePlanRequest} {plan : Plan}
    (hFound : stores.db.plan planId = some plan) (hProduct : given plan.stripeProductId = true)
    (hFlat : given plan.stripePriceId = true) (hOverage : given plan.stripeOveragePriceId = true) :
    let changed := body.applyTo plan
    let priceChanged := decide (changed.monthlyFeeCents ≠ plan.monthlyFeeCents)
    let overageChanged := decide (changed.overageRateCentsPerToken ≠ plan.overageRateCentsPerToken)
    let flat := flatSynced answers changed priceChanged stores.cache
    let overage := overageSynced answers changed
      (overageDue answers changed priceChanged overageChanged stores.cache) flat.2
    (updatePlan lib answers planId body).run stores =
      .ok () ⟨stores.db.updatePlan planId fun p => (body.applyTo p).relink flat.1 overage.1,
        overage.2⟩ := by
  have hId : plan.id = planId := by simpa using List.find?_some hFound
  intro changed priceChanged overageChanged flat overage
  rw [updatePlan, Handler.run_query_bind, hFound, Handler.orRaise_some_bind]
  dsimp only
  rw [Handler.run_exec_bind, hProduct]
  split
  · refine (@run_syncPrices answers (body.applyTo plan) _ _ _ hFlat hOverage).trans ?_
    rw [show (body.applyTo plan).id = planId from hId, updatePlan_twice]
    exact fun _ => rfl
  · rename_i hSame
    obtain ⟨hPrice, hRate⟩ : priceChanged = false ∧ overageChanged = false := by
      simpa [priceChanged, overageChanged] using hSame
    simp only [flat, overage, hPrice, hRate]
    rfl

section Prices

variable {answers : StripeAnswers} {plan : Plan} {stripe : Stripe} {due due' : Bool} {id : String}

theorem flat_fresh (fresh : answers.Fresh stripe) :
    ∀ new ∈ answers.flatPrice, ∀ q ∈ stripe.prices, q.id ≠ new :=
  fun new hNew => fresh.new new (.inl hNew)

theorem overage_fresh (fresh : answers.Fresh stripe) :
    ∀ new ∈ answers.overagePrice, ∀ q ∈ (flatSynced answers plan due stripe).2.prices, q.id ≠ new := by
  intro new hNew q hq
  rcases replaced_ids (fun _ => rfl) q hq with ⟨q₀, hq₀, hSame⟩ | hFlat
  · exact hSame ▸ fresh.new new (.inr hNew) q₀ hq₀
  · exact fresh.apart q.id hFlat new hNew

/-- The prices of other plans stay as they are. -/
theorem synced_other (fresh : answers.Fresh stripe) (hFlat : plan.stripePriceId ≠ some id)
    (hOverage : plan.stripeOveragePriceId ≠ some id) (hGiven : id ≠ "")
    (hKnown : (stripe.price id).isSome) :
    (overageSynced answers plan due' (flatSynced answers plan due stripe).2).2.price id =
      stripe.price id := by
  have hOther {old : Option String} (h : old ≠ some id) : id ≠ old.getD "" := by
    cases old with
    | none => exact hGiven
    | some old => exact fun hSame => h (congrArg some hSame.symm)
  have hFirst : (flatSynced answers plan due stripe).2.price id = stripe.price id :=
    replaced_other (fun _ => rfl) (hOther hFlat) fun new hNew =>
      Stripe.ne_of_known hKnown (flat_fresh fresh new hNew)
  rw [← hFirst] at hKnown ⊢
  exact replaced_other (fun _ => rfl) (hOther hOverage) fun new hNew =>
    Stripe.ne_of_known hKnown (overage_fresh fresh new hNew)

theorem synced_known (fresh : answers.Fresh stripe) (hKnown : (stripe.price id).isSome) :
    ((overageSynced answers plan due' (flatSynced answers plan due stripe).2).2.price id).isSome :=
  replaced_known (fun _ => rfl) (overage_fresh fresh)
    (replaced_known (fun _ => rfl) (flat_fresh fresh) hKnown)

/-- The ids that are filled in are those of new prices. -/
theorem synced_new (fresh : answers.Fresh stripe)
    (hId : (flatSynced answers plan due stripe).1 = some id ∨
      (overageSynced answers plan due' (flatSynced answers plan due stripe).2).1 = some id) :
    stripe.price id = none ∧
      ((overageSynced answers plan due' (flatSynced answers plan due stripe).2).2.price id).isSome := by
  rcases hId with hFlat | hOverage
  · refine ⟨Stripe.price_none (flat_fresh fresh id (replaced_answer id hFlat)), ?_⟩
    refine replaced_known (fun _ => rfl) (overage_fresh fresh) ?_
    rw [flatSynced, replaced_new (fun _ => rfl) (flat_fresh fresh) id hFlat]
    rfl
  · refine ⟨Stripe.price_none (fresh.new id (.inr (replaced_answer id hOverage))), ?_⟩
    rw [overageSynced, replaced_new (fun _ => rfl) (overage_fresh fresh) id hOverage]
    rfl

section Sells

variable {flat overage : String} {fee rate : Nat}

theorem flatSynced_sells (fresh : answers.Fresh stripe) (hFlat : plan.stripePriceId = some flat)
    (hSells : stripe.Sells flat fee) :
    (flatSynced answers plan (decide (plan.monthlyFeeCents ≠ fee)) stripe).2.Sells
        ((flatSynced answers plan (decide (plan.monthlyFeeCents ≠ fee)) stripe).1.getD flat)
        plan.monthlyFeeCents ↔
      (plan.monthlyFeeCents ≠ fee → answers.archivesFlat = true ∧ answers.flatPrice.isSome) := by
  by_cases hFee : plan.monthlyFeeCents = fee
  · rw [decide_eq_false (not_not.mpr hFee)]
    exact iff_of_true (hFee ▸ hSells) fun h => absurd hFee h
  · rw [decide_eq_true hFee]
    have hGetD : plan.stripePriceId.getD "" = flat := by
      rw [hFlat]
      rfl
    rw [flatSynced, hGetD]
    refine (@replaced_sells stripe answers.archivesFlat _ flat _ fee plan.monthlyFeeCents
      (fun _ => ⟨rfl, rfl, rfl⟩) hSells hFee (flat_fresh fresh)).trans ?_
    exact ⟨fun h _ => h, fun h => h hFee⟩

theorem overageSynced_sells (hNew : ∀ new ∈ answers.overagePrice, ∀ q ∈ stripe.prices, q.id ≠ new)
    (hOverage : plan.stripeOveragePriceId = some overage) (hSells : stripe.Sells overage rate) :
    (overageSynced answers plan (decide (plan.overageRateCentsPerToken ≠ rate)) stripe).2.Sells
        ((overageSynced answers plan (decide (plan.overageRateCentsPerToken ≠ rate))
          stripe).1.getD overage)
        plan.overageRateCentsPerToken ↔
      (plan.overageRateCentsPerToken ≠ rate →
        answers.archivesOverage = true ∧ answers.overagePrice.isSome) := by
  by_cases hRate : plan.overageRateCentsPerToken = rate
  · rw [decide_eq_false (not_not.mpr hRate)]
    exact iff_of_true (hRate ▸ hSells) fun h => absurd hRate h
  · rw [decide_eq_true hRate]
    have hGetD : plan.stripeOveragePriceId.getD "" = overage := by
      rw [hOverage]
      rfl
    rw [overageSynced, hGetD]
    refine (@replaced_sells stripe answers.archivesOverage _ overage _ rate
      plan.overageRateCentsPerToken (fun _ => ⟨rfl, rfl, rfl⟩) hSells hRate hNew).trans ?_
    exact ⟨fun h _ => h, fun h => h hRate⟩

/-- The overage price touches no other. -/
theorem overageSynced_other (fresh : answers.Fresh stripe)
    (hOverage : plan.stripeOveragePriceId = some overage) (hOther : id ≠ overage)
    (hKnown : ((flatSynced answers plan due stripe).2.price id).isSome) :
    (overageSynced answers plan due' (flatSynced answers plan due stripe).2).2.price id =
      (flatSynced answers plan due stripe).2.price id := by
  have hGetD : plan.stripeOveragePriceId.getD "" = overage := by
    rw [hOverage]
    rfl
  refine replaced_other (fun _ => rfl) (hGetD ▸ hOther) fun new hNew => ?_
  exact Stripe.ne_of_known hKnown (overage_fresh fresh new hNew)

/-- The overage price does not touch the flat one, old or new. -/
theorem overageSynced_flat (fresh : answers.Fresh stripe)
    (hOverage : plan.stripeOveragePriceId = some overage) (hApart : flat ≠ overage)
    (hFlatKnown : (stripe.price flat).isSome) (hKnown : (stripe.price overage).isSome) :
    let id := (flatSynced answers plan due stripe).1.getD flat
    (overageSynced answers plan due' (flatSynced answers plan due stripe).2).2.price id =
      (flatSynced answers plan due stripe).2.price id := by
  intro id
  cases hNew : (flatSynced answers plan due stripe).1 with
  | none =>
    have hId : id = flat := by simp [id, hNew]
    exact overageSynced_other fresh hOverage (hId ▸ hApart)
      (hId ▸ replaced_known (fun _ => rfl) (flat_fresh fresh) hFlatKnown)
  | some new =>
    have hId : id = new := by simp [id, hNew]
    have hFlat := flat_fresh fresh new (replaced_answer new hNew)
    refine overageSynced_other fresh hOverage (hId ▸ Stripe.ne_of_known hKnown hFlat) ?_
    rw [hId, flatSynced, replaced_new (fun _ => rfl) (flat_fresh fresh) new hNew]
    rfl

/-- The flat price does not touch the overage one. -/
theorem flatSynced_overage (fresh : answers.Fresh stripe) (hFlat : plan.stripePriceId = some flat)
    (hApart : flat ≠ overage) (hKnown : (stripe.price overage).isSome) :
    (flatSynced answers plan due stripe).2.price overage = stripe.price overage := by
  have hGetD : plan.stripePriceId.getD "" = flat := by
    rw [hFlat]
    rfl
  refine replaced_other (fun _ => rfl) (hGetD ▸ hApart.symm) fun new hNew => ?_
  exact Stripe.ne_of_known hKnown (flat_fresh fresh new hNew)

/-- The overage rate is due once the calls for the flat fee have succeeded. -/
theorem overageDue_of_flat {changed changed' : Bool}
    (hAnswered : changed = true → answers.archivesFlat = true ∧ answers.flatPrice.isSome) :
    overageDue answers plan changed changed' stripe = changed' := by
  rw [overageDue, Bool.and_eq_right_iff_imp]
  intro _
  cases changed with
  | false => rfl
  | true =>
    obtain ⟨hArchives, hSome⟩ := hAnswered rfl
    obtain ⟨new, hNew⟩ := Option.isSome_iff_exists.mp hSome
    rw [flatSynced, hArchives, hNew]
    rfl

/-- The prices are on sale for what the plan says now exactly when the calls for what has changed
have all succeeded. -/
theorem synced_sells (fresh : answers.Fresh stripe) (hFlat : plan.stripePriceId = some flat)
    (hOverage : plan.stripeOveragePriceId = some overage) (hApart : flat ≠ overage)
    (hSellsFlat : stripe.Sells flat fee) (hSellsOverage : stripe.Sells overage rate) :
    let first := flatSynced answers plan (decide (plan.monthlyFeeCents ≠ fee)) stripe
    let second := overageSynced answers plan
      (overageDue answers plan (decide (plan.monthlyFeeCents ≠ fee))
        (decide (plan.overageRateCentsPerToken ≠ rate)) stripe) first.2
    second.2.Sells (first.1.getD flat) plan.monthlyFeeCents ∧
        second.2.Sells (second.1.getD overage) plan.overageRateCentsPerToken ↔
      (plan.monthlyFeeCents ≠ fee → answers.archivesFlat = true ∧ answers.flatPrice.isSome) ∧
      (plan.overageRateCentsPerToken ≠ rate →
        answers.archivesOverage = true ∧ answers.overagePrice.isSome) := by
  intro first second
  have hFirst := flatSynced_sells fresh hFlat hSellsFlat
  rw [Stripe.Sells.congr (overageSynced_flat fresh hOverage hApart hSellsFlat.known
    hSellsOverage.known), hFirst]
  refine and_congr_right fun hAnswered => ?_
  have hStill : first.2.Sells overage rate :=
    (Stripe.Sells.congr (flatSynced_overage fresh hFlat hApart hSellsOverage.known)).mpr hSellsOverage
  have hDue : overageDue answers plan (decide (plan.monthlyFeeCents ≠ fee))
      (decide (plan.overageRateCentsPerToken ≠ rate)) stripe =
      decide (plan.overageRateCentsPerToken ≠ rate) :=
    overageDue_of_flat fun hFee => hAnswered (of_decide_eq_true hFee)
  simp only [second, hDue]
  exact overageSynced_sells (overage_fresh fresh) hOverage hStill

/-- The old price for the flat fee stays on sale unless it is due and is archived. -/
theorem synced_old_flat (fresh : answers.Fresh stripe) (hFlat : plan.stripePriceId = some flat)
    (hOverage : plan.stripeOveragePriceId = some overage) (hApart : flat ≠ overage)
    (hSells : stripe.Sells flat fee) :
    (overageSynced answers plan due' (flatSynced answers plan due stripe).2).2.Sells flat fee ↔
      (due && answers.archivesFlat) = false := by
  have hGetD : plan.stripePriceId.getD "" = flat := by
    rw [hFlat]
    rfl
  have hThere : ((flatSynced answers plan due stripe).2.price flat).isSome :=
    replaced_known (fun _ => rfl) (flat_fresh fresh) hSells.known
  rw [Stripe.Sells.congr (overageSynced_other fresh hOverage hApart hThere), flatSynced, hGetD]
  exact replaced_old (fun _ => rfl) hSells (flat_fresh fresh)

/-- The old price for the overage rate stays on sale unless it is due and is archived. -/
theorem synced_old_overage (fresh : answers.Fresh stripe) (hFlat : plan.stripePriceId = some flat)
    (hOverage : plan.stripeOveragePriceId = some overage) (hApart : flat ≠ overage)
    (hSells : stripe.Sells overage rate) :
    (overageSynced answers plan due' (flatSynced answers plan due stripe).2).2.Sells overage rate ↔
      (due' && answers.archivesOverage) = false := by
  have hGetD : plan.stripeOveragePriceId.getD "" = overage := by
    rw [hOverage]
    rfl
  rw [overageSynced, hGetD]
  refine replaced_old (fun _ => rfl) ?_ (overage_fresh fresh)
  exact (Stripe.Sells.congr (flatSynced_overage fresh hFlat hApart hSells.known)).mpr hSells

/-- The old prices are both left on sale exactly when none is archived. -/
theorem synced_old (changed : Plan) (fresh : answers.Fresh stripe)
    (hFlat : changed.stripePriceId = some flat) (hOverage : changed.stripeOveragePriceId = some overage)
    (hApart : flat ≠ overage) (hSellsFlat : stripe.Sells flat plan.monthlyFeeCents)
    (hSellsOverage : stripe.Sells overage plan.overageRateCentsPerToken) :
    let first := flatSynced answers changed
      (decide (changed.monthlyFeeCents ≠ plan.monthlyFeeCents)) stripe
    let second := overageSynced answers changed
      (overageDue answers changed (decide (changed.monthlyFeeCents ≠ plan.monthlyFeeCents))
        (decide (changed.overageRateCentsPerToken ≠ plan.overageRateCentsPerToken)) stripe) first.2
    second.2.Sells flat plan.monthlyFeeCents ∧ second.2.Sells overage plan.overageRateCentsPerToken ↔
      answers.ArchiveNone plan changed := by
  intro first second
  rw [synced_old_flat fresh hFlat hOverage hApart hSellsFlat,
    synced_old_overage fresh hFlat hOverage hApart hSellsOverage, StripeAnswers.ArchiveNone]
  by_cases hFee : changed.monthlyFeeCents ≠ plan.monthlyFeeCents
  · rw [if_pos hFee, decide_eq_true hFee, Bool.true_and]
    refine and_iff_left_of_imp fun hNot => ?_
    rw [overageDue, flatSynced, hNot]
    rfl
  · rw [if_neg hFee, decide_eq_false hFee, overageDue_of_flat (by simp)]
    simp

end Sells

end Prices

/-! ### A new plan -/

/-- What is at Stripe stays as it is. -/
def Stripe.Keeps (stripe stripe' : Stripe) : Prop :=
  ∀ id, (stripe.price id).isSome → stripe'.price id = stripe.price id

theorem Stripe.Keeps.refl (stripe : Stripe) : stripe.Keeps stripe := fun _ _ => rfl

theorem Stripe.Keeps.trans {stripe m stripe' : Stripe} (h : stripe.Keeps m) (h' : m.Keeps stripe') :
    stripe.Keeps stripe' := fun id hKnown => by
  have hSame := h id hKnown
  rw [h' id (hSame ▸ hKnown), hSame]

theorem Stripe.Keeps.addPrice {stripe : Stripe} {p : StripePrice}
    (hNew : ∀ q ∈ stripe.prices, q.id ≠ p.id) : stripe.Keeps (stripe.addPrice p) :=
  fun _ hKnown => Stripe.price_add_other (Stripe.ne_of_known hKnown hNew)

theorem Stripe.Keeps.sells {stripe stripe' : Stripe} (h : stripe.Keeps stripe') {id : String}
    {amount : Nat} (hSells : stripe.Sells id amount) : stripe'.Sells id amount :=
  (Stripe.Sells.congr (h id hSells.known)).mpr hSells

/-- Stripe answers all calls that the creation of a plan makes. -/
def StripeAnswers.Create (answers : StripeAnswers) : Prop :=
  answers.meter.isSome ∧ answers.product.isSome ∧ answers.flatPrice.isSome ∧
    answers.overagePrice.isSome

/-- The plan with the four ids. -/
def Plan.link (meter product flat overage : String) (p : Plan) : Plan :=
  { p with
    stripeMeterId := some meter, stripeProductId := some product
    stripePriceId := some flat, stripeOveragePriceId := some overage }

section Create

variable {lib : Library} {answers : StripeAnswers} {stores stores' : Stores Db Stripe} {plan : Plan}

/-- Either all four ids are filled in, with prices for the plan as it is, or none, since a call has
failed. -/
theorem syncNewPlan_spec (fresh : answers.Fresh stores.cache) :
    ∃ stores', (syncNewPlan answers plan).run stores = .ok () stores' ∧
      stores.cache.Keeps stores'.cache ∧ (stores'.db = stores.db ∧ ¬answers.Create ∨
        ∃ meter product flat overage, answers.meter = some meter ∧ answers.product = some product ∧
          answers.flatPrice = some flat ∧ answers.overagePrice = some overage ∧
          stores'.db = stores.db.updatePlan plan.id (.link meter product flat overage) ∧
          stores'.cache.Sells flat plan.monthlyFeeCents ∧
          stores'.cache.Sells overage plan.overageRateCentsPerToken) := by
  unfold syncNewPlan
  split
  · rename_i meter product hMeter hProduct
    cases hFlat : answers.flatPrice with
    | none => exact ⟨_, rfl, .refl _, .inl ⟨rfl, by simp [StripeAnswers.Create, hFlat]⟩⟩
    | some flat =>
      have hFlatNew := fresh.new flat (.inl hFlat)
      set stripe₁ := (stores.cache.addProduct ⟨product, true⟩).addPrice
        ⟨flat, product, plan.monthlyFeeCents, none, true⟩ with hStripe₁
      have hKeeps₁ : stores.cache.Keeps stripe₁ := .addPrice hFlatNew
      cases hOverage : answers.overagePrice with
      | none => exact ⟨_, rfl, hKeeps₁, .inl ⟨rfl, by simp [StripeAnswers.Create, hOverage]⟩⟩
      | some overage =>
        have hOverageNew : ∀ q ∈ stripe₁.prices, q.id ≠ overage := by
          intro q hq
          rcases List.mem_append.mp hq with hOld | hNew
          · exact fresh.new overage (.inr hOverage) q hOld
          · obtain rfl := List.mem_singleton.mp hNew
            exact fresh.apart flat hFlat overage hOverage
        have hKeeps₂ := Stripe.Keeps.addPrice
          (p := ⟨overage, product, plan.overageRateCentsPerToken, some meter, true⟩) hOverageNew
        refine ⟨_, rfl, hKeeps₁.trans hKeeps₂, .inr ⟨meter, product, flat, overage, hMeter, hProduct,
          rfl, rfl, rfl, hKeeps₂.sells ?_, ?_⟩⟩
        · exact ⟨_, Stripe.price_add_same hFlatNew, rfl, rfl⟩
        · exact ⟨_, Stripe.price_add_same hOverageNew, rfl, rfl⟩
  · rename_i hNone
    refine ⟨_, rfl, .refl _, .inl ⟨rfl, fun h => ?_⟩⟩
    obtain ⟨meter, hMeter⟩ := Option.isSome_iff_exists.mp h.1
    obtain ⟨product, hProduct⟩ := Option.isSome_iff_exists.mp h.2.1
    exact hNone meter product hMeter hProduct

theorem syncNewPlan_keeps {db : Db} {stripe : Stripe} (fresh : answers.Fresh stripe) :
    stripe.Keeps ((syncNewPlan answers plan).final ⟨db, stripe⟩).cache := by
  obtain ⟨m, hRun, hKeeps, -⟩ := @syncNewPlan_spec answers ⟨db, stripe⟩ plan fresh
  rw [Handler.final_of_ok hRun]
  exact hKeeps

end Create

end WxcodeAdm
