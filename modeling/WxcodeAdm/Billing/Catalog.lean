import WxcodeAdm.Billing.Plans

/-! The backend together with the calls on its plans, and Stripe beside it.  A call changes the
terms of a plan as its request says, whatever Stripe answers, and the ids of the Stripe prices as far
as Stripe has answered. -/

namespace WxcodeAdm

open Lib

/-- The plan without its Stripe ids. -/
def Plan.terms (p : Plan) : Plan :=
  { p with stripeProductId := none, stripePriceId := none, stripeMeterId := none,
           stripeOveragePriceId := none }

/-- The plan that a request describes. -/
def CreatePlanRequest.plan (body : CreatePlanRequest) (planId : Uuid) (now : Nat) : Plan where
  id := planId
  name := body.name
  slug := body.slug
  monthlyFeeCents := body.monthlyFeeCents
  tokenQuota5h := body.tokenQuota5h
  tokenQuotaWeekly := body.tokenQuotaWeekly
  overageRateCentsPerToken := body.overageRateCentsPerToken
  memberCap := body.memberCap
  maxProjects := body.maxProjects
  maxOutputProjects := body.maxOutputProjects
  maxStorageGb := body.maxStorageGb
  createdAt := now

/-- What a call does to the plans, but for their Stripe ids. -/
def PlanCall.effect : PlanCall → Db → Db
  | .create planId now body, db => { db with plans := db.plans ++ [body.plan planId now] }
  | .update planId body, db => db.updatePlan planId body.applyTo
  | .delete planId, db => { db with plans := db.plans.filter fun p => p.id ≠ planId }

/-- What a call that is committed has checked. -/
def PlanCall.Checked (db : Db) : PlanCall → Prop
  | .create _ _ body => ∀ p ∈ db.plans, p.slug ≠ body.slug
  | .update planId _ => ∃ p ∈ db.plans, p.id = planId
  | .delete planId => (∃ p ∈ db.plans, p.id = planId) ∧ ∀ s ∈ db.subscriptions, s.planId ≠ planId

/-! ### What a call does to the plans -/

/-- Only the Stripe ids of the plans may differ. -/
def SameTerms (db db' : Db) : Prop :=
  db' = { db with plans := db'.plans } ∧ db'.plans.map Plan.terms = db.plans.map Plan.terms

theorem SameTerms.refl (db : Db) : SameTerms db db := ⟨rfl, rfl⟩

theorem SameTerms.trans {db m db' : Db} (h : SameTerms db m) (h' : SameTerms m db') :
    SameTerms db db' := by
  refine ⟨?_, h'.2.trans h.2⟩
  rw [h'.1, h.1]

/-- The Stripe ids of plans are filled in. -/
theorem SameTerms.fill {db : Db} {planId : Uuid} {f : Plan → Plan} (hf : ∀ p, (f p).terms = p.terms) :
    SameTerms db (db.updatePlan planId f) := by
  refine ⟨rfl, ?_⟩
  rw [Db.updatePlan, List.map_map]
  refine List.map_congr_left fun p _ => ?_
  simp only [Function.comp]
  split
  · exact hf p
  · rfl

def SameTermsStores (s s' : Stores Db Stripe) : Prop := SameTerms s.db s'.db

instance : Std.Refl SameTermsStores := ⟨fun s => .refl s.db⟩

instance : IsTrans (Stores Db Stripe) SameTermsStores := ⟨fun _ _ _ h h' => h.trans h'⟩

section Calls

variable {lib : Library} {answers : StripeAnswers} {stores stores' : Stores Db Stripe} {call : PlanCall}

theorem syncNewPlan_terms (plan : Plan) :
    Handler.Within SameTermsStores (syncNewPlan answers plan) := by
  have hStore (f : Stripe → Stripe) :
      Handler.Within SameTermsStores (.store f : PlanApp Unit) := .store fun s => .refl s.db
  unfold syncNewPlan
  split
  · refine .bind (hStore _) fun _ => ?_
    split
    · exact .pure _
    · refine .bind (hStore _) fun _ => ?_
      split
      · exact .pure _
      · exact .bind (hStore _) fun _ => .exec fun _ => .fill fun _ => rfl
  · exact .pure _

theorem replacePrice_terms {archives : Bool} {answer : Option String} {old : String}
    {price : String → StripePrice} {planId : Uuid} {fill : String → Plan → Plan}
    (hFill : ∀ id p, (fill id p).terms = p.terms) :
    Handler.Within SameTermsStores (replacePrice archives answer old price planId fill) := by
  unfold replacePrice
  refine .ite (.bind (.store fun s => .refl s.db) fun _ => ?_) (.pure _)
  split
  · exact .pure _
  · exact .bind (.store fun s => .refl s.db) fun _ => .bind (.exec fun _ => .fill (hFill _))
      fun _ => .pure _

theorem replaceFlatPrice_terms (plan : Plan) :
    Handler.Within SameTermsStores (replaceFlatPrice answers plan) := replacePrice_terms fun _ _ => rfl

theorem replaceOveragePrice_terms (plan : Plan) :
    Handler.Within SameTermsStores (replaceOveragePrice answers plan) :=
  replacePrice_terms fun _ _ => rfl

theorem syncPrices_terms (plan : Plan) (priceChanged overageChanged : Bool) :
    Handler.Within SameTermsStores (syncPrices answers plan priceChanged overageChanged) := by
  have hOverage (flat : Bool) : Handler.Within SameTermsStores
      (if flat = true ∧ overageChanged ∧ given plan.stripeOveragePriceId then
        discard <| replaceOveragePrice answers plan else (pure () : PlanApp Unit)) :=
    .ite (.bind (replaceOveragePrice_terms plan) fun _ => .pure _) (.pure _)
  exact .ite (.bind (replaceFlatPrice_terms plan) hOverage) (hOverage true)

theorem run_flushPlans_bind_ok {α : Type} {k : Unit → PlanApp α} {a : α} :
    (flushPlans >>= k).run stores = .ok a stores' ↔
      stores.db.Valid ∧ (k ()).run stores = .ok a stores' := by
  simp only [flushPlans, bind_assoc, Handler.run_query_bind, Handler.run_ensure_bind_ok,
    decide_eq_true_eq]

theorem run_flushPlans_ok :
    flushPlans.run stores = .ok () stores' ↔ stores.db.Valid ∧ stores = stores' := by
  have h : flushPlans.run stores = (flushPlans >>= pure).run stores := by rw [bind_pure]
  rw [h, run_flushPlans_bind_ok, Handler.run_pure_ok]
  simp

/-- A call that returns has checked what it checks, and changed the terms of the plans as it says. -/
theorem PlanCall.handle_ok (hRun : (call.handle lib answers).run stores = .ok () stores') :
    call.Checked stores.db ∧ SameTerms (call.effect stores.db) stores'.db := by
  cases call with
  | create planId now body =>
    simp only [PlanCall.handle, createPlan, Handler.run_query_bind, Handler.run_ensure_bind_ok,
      Handler.run_exec_bind, run_flushPlans_bind_ok] at hRun
    obtain ⟨hNew, -, hRun⟩ := hRun
    exact ⟨fun p hp hSlug => by simpa [hSlug] using List.find?_eq_none.mp hNew p hp,
      (syncNewPlan_terms _).of_ok hRun⟩
  | update planId body =>
    simp only [PlanCall.handle, updatePlan, Handler.run_query_bind, Handler.run_orRaise_bind_ok,
      Handler.run_exec_bind, Handler.run_ite_ok] at hRun
    obtain ⟨plan, hFound, hRun⟩ := hRun
    refine ⟨⟨plan, List.mem_of_find?_eq_some hFound, by simpa using List.find?_some hFound⟩, ?_⟩
    rcases hRun with ⟨-, hRun⟩ | ⟨-, hRun⟩
    · exact (syncPrices_terms _ _ _).of_ok hRun
    · obtain ⟨-, rfl⟩ := Handler.run_pure_ok.mp hRun
      exact .refl _
  | delete planId =>
    simp only [PlanCall.handle, deletePlan, Handler.run_query_bind, Handler.run_orRaise_bind_ok,
      Handler.run_ensure_bind_ok] at hRun
    obtain ⟨plan, hFound, hUnused, hRun⟩ := hRun
    have hDb : stores'.db = PlanCall.effect (.delete planId) stores.db := by
      rw [Handler.run_ite_ok] at hRun
      rcases hRun with ⟨-, hRun⟩ | ⟨-, hRun⟩ <;>
      · obtain ⟨-, rfl⟩ := Outcome.ok.inj hRun
        rfl
    refine ⟨⟨⟨plan, List.mem_of_find?_eq_some hFound, by simpa using List.find?_some hFound⟩,
      fun s hs hSame => ?_⟩, ?_⟩
    · have hIn : s ∈ stores.db.subscriptions.filter fun s => s.planId = planId :=
        List.mem_filter.mpr ⟨hs, decide_eq_true hSame⟩
      rw [List.eq_nil_of_length_eq_zero hUnused] at hIn
      cases hIn
    · rw [hDb]
      exact .refl _

/-- The two calls for a price, and the column that is filled in. -/
theorem run_replacePrice {archives : Bool} {answer : Option String} {old : String}
    {price : String → StripePrice} {planId : Uuid} {fill : String → Plan → Plan} :
    (replacePrice archives answer old price planId fill).run stores =
      if archives = true then
        match answer with
        | none => .ok false ⟨stores.db, stores.cache.archivePrice old⟩
        | some id => .ok true
            ⟨stores.db.updatePlan planId (fill id), (stores.cache.archivePrice old).addPrice (price id)⟩
      else .ok false stores := by
  unfold replacePrice
  split
  · split <;> rfl
  · rfl

theorem replacePrice_returns {archives : Bool} {answer : Option String} {old : String}
    {price : String → StripePrice} {planId : Uuid} {fill : String → Plan → Plan} :
    ∃ done stores', (replacePrice archives answer old price planId fill).run stores =
      .ok done stores' := by
  rw [run_replacePrice]
  split
  · split <;> exact ⟨_, _, rfl⟩
  · exact ⟨_, _, rfl⟩

/-- What Stripe answers never keeps an update from returning. -/
theorem syncPrices_returns (plan : Plan) (priceChanged overageChanged : Bool) :
    ∃ stores', (syncPrices answers plan priceChanged overageChanged).run stores = .ok () stores' := by
  have hOverage (flat : Bool) (m : Stores Db Stripe) : ∃ stores',
      (if flat = true ∧ overageChanged ∧ given plan.stripeOveragePriceId then
        discard <| replaceOveragePrice answers plan else (pure () : PlanApp Unit)).run m =
          .ok () stores' := by
    split
    · obtain ⟨done, stores', hRun⟩ := @replacePrice_returns _ answers.archivesOverage
        answers.overagePrice _ _ _ _
      exact ⟨stores', Handler.run_discard_ok.mpr ⟨done, hRun⟩⟩
    · exact ⟨m, rfl⟩
  unfold syncPrices
  split
  · obtain ⟨done, m, hRun⟩ := @replacePrice_returns _ answers.archivesFlat
      answers.flatPrice _ _ _ _
    obtain ⟨stores', hRest⟩ := hOverage done m
    exact ⟨stores', Handler.run_bind_ok.mpr ⟨done, m, hRun, hRest⟩⟩
  · exact hOverage true stores

/-- A call is rolled back, or is committed with the constraints checked. -/
theorem servePlan_spec {result : Except PyError Unit}
    (h : servePlan lib answers call stores = (result, stores')) :
    stores'.db = stores.db ∨ (call.Checked stores.db ∧ SameTerms (call.effect stores.db) stores'.db ∧
      stores'.db.Valid) := by
  cases result with
  | error e => exact .inl (Handler.atomically_error_db h)
  | ok =>
    obtain ⟨⟨⟩, m, hHandle, hRun⟩ := Handler.run_bind_ok.mp (Handler.atomically_ok.mp h)
    obtain ⟨hValid, rfl⟩ := run_flushPlans_ok.mp hRun
    obtain ⟨hChecked, hTerms⟩ := PlanCall.handle_ok hHandle
    exact .inr ⟨hChecked, hTerms, hValid⟩

theorem map_of_terms {β : Type} {f : Plan → β} (hf : ∀ p, f p.terms = f p) {l l' : List Plan}
    (h : l'.map Plan.terms = l.map Plan.terms) : l'.map f = l.map f := by
  have hMap := congrArg (List.map f) h
  rw [List.map_map, List.map_map] at hMap
  rw [List.map_congr_left fun p _ => (hf p).symm, List.map_congr_left fun p _ => (hf p).symm]
  exact hMap

theorem run_flushPlans : flushPlans.run stores =
    if stores.db.Valid then .ok () stores else .error .integrityError stores := by
  rw [flushPlans, Handler.run_query_bind, Handler.run_ensure]
  exact if_congr decide_eq_true_iff rfl rfl

theorem updatePlan_map {β : Type} {f : Plan → β} {db : Db} {planId : Uuid} {g : Plan → Plan}
    (hf : ∀ p, f (g p) = f p) :
    (db.updatePlan planId g).plans.map f = db.plans.map f :=
  Db.map_update hf _

/-- The plans may change in columns that no key is on, to values that fit. -/
theorem Db.Valid.setPlans {db db' : Db} (h : db.Valid) (hDb : db' = { db with plans := db'.plans })
    (hIds : db'.plans.map (fun p => p.id) = db.plans.map fun p => p.id)
    (hSlugs : db'.plans.map (fun p => p.slug) = db.plans.map fun p => p.slug)
    (hFits : ∀ p ∈ db'.plans, p.Fits) : db'.Valid := by
  rw [hDb]
  refine { h with
    planId := hIds ▸ h.planId
    planSlug := hSlugs ▸ h.planSlug
    subscriptionPlan := fun s hs => ?_
    planValues := hFits }
  obtain ⟨p, hp, hId⟩ := h.subscriptionPlan s hs
  have hMem : p.id ∈ db'.plans.map fun p => p.id := hIds ▸ List.mem_map_of_mem hp
  obtain ⟨p', hp', hSame⟩ := List.mem_map.mp hMem
  exact ⟨p', hp', hSame.trans hId⟩

/-- What a call leaves of an update of a plan meets the constraints exactly when the plan fits. -/
theorem Db.Valid.updatePlan_iff {db db' : Db} (h : db.Valid) {planId : Uuid} {plan : Plan}
    {body : UpdatePlanRequest} (hFound : db.plan planId = some plan)
    (hTerms : SameTerms (db.updatePlan planId body.applyTo) db') :
    db'.Valid ↔ (body.applyTo plan).Fits := by
  have hMem : plan ∈ db.plans := List.mem_of_find?_eq_some hFound
  have hId : plan.id = planId := by simpa using List.find?_some hFound
  have hFits : (∀ p ∈ db'.plans, p.Fits) ↔ ∀ p ∈ (db.updatePlan planId body.applyTo).plans, p.Fits := by
    have hMap : db'.plans.map Plan.Fits = (db.updatePlan planId body.applyTo).plans.map Plan.Fits :=
      map_of_terms (fun _ => rfl) hTerms.2
    have hAll (l : List Plan) : (∀ p ∈ l, p.Fits) ↔ ∀ holds ∈ l.map Plan.Fits, holds := by
      rw [List.forall_mem_map]
    rw [hAll, hMap, ← hAll]
  constructor
  · intro hValid
    refine hFits.mp hValid.planValues _ (List.mem_map.mpr ⟨plan, hMem, ?_⟩)
    exact if_pos hId
  · intro hChanged
    refine h.setPlans hTerms.1 ?_ ?_ (hFits.mpr fun p hp => ?_)
    · exact (map_of_terms (fun _ => rfl) hTerms.2).trans (updatePlan_map fun _ => rfl)
    · exact (map_of_terms (fun _ => rfl) hTerms.2).trans (updatePlan_map fun _ => rfl)
    · obtain ⟨q, hq, rfl⟩ := List.mem_map.mp hp
      split
      · rename_i hSame
        obtain rfl := List.inj_on_of_nodup_map h.planId hq hMem (hSame.trans hId.symm)
        exact hChanged
      · exact h.planValues q hq

/-- An update of a plan that is there is committed if the plan fits its columns, and else it is rolled
back after the calls to Stripe. -/
theorem servePlan_update {planId : Uuid} {body : UpdatePlanRequest} {plan : Plan}
    (hValid : stores.db.Valid) (hFound : stores.db.plan planId = some plan) :
    ∃ m, (updatePlan lib answers planId body).run stores = .ok () m ∧
      SameTerms (stores.db.updatePlan planId body.applyTo) m.db ∧
      servePlan lib answers (.update planId body) stores =
        if (body.applyTo plan).Fits then (.ok (), m)
        else (.error .integrityError, { m with db := stores.db }) := by
  obtain ⟨m, hRun⟩ : ∃ m, (updatePlan lib answers planId body).run stores = .ok () m := by
    simp only [updatePlan, Handler.run_query_bind, Handler.run_orRaise_bind_ok,
      Handler.run_exec_bind, hFound, Option.some.injEq, exists_eq_left']
    split
    · exact syncPrices_returns _ _ _
    · exact ⟨_, rfl⟩
  have hTerms := (@PlanCall.handle_ok lib answers stores m (.update planId body) hRun).2
  refine ⟨m, hRun, hTerms, ?_⟩
  have hFlushed : (do (PlanCall.update planId body).handle lib answers; flushPlans : PlanApp Unit).run
      stores = if m.db.Valid then .ok () m else .error .integrityError m := by
    rw [Handler.run_bind, show ((PlanCall.update planId body).handle lib answers).run stores = _
      from hRun]
    exact run_flushPlans
  have hCommits : m.db.Valid ↔ (body.applyTo plan).Fits := hValid.updatePlan_iff hFound hTerms
  split
  · rename_i hFits
    exact Handler.atomically_ok.mpr (hFlushed.trans (if_pos (hCommits.mpr hFits)))
  · rename_i hNot
    have hRefused : ¬m.db.Valid := fun hLeft => hNot (hCommits.mp hLeft)
    exact Handler.atomically_error.mpr ⟨m, hFlushed.trans (if_neg hRefused), rfl⟩

/-- Whatever comes of it, a call leaves the other tables. -/
theorem servePlan_frame {result : Except PyError Unit}
    (h : servePlan lib answers call stores = (result, stores')) :
    stores'.db = { stores.db with plans := stores'.db.plans } := by
  rcases servePlan_spec h with hSame | ⟨-, hTerms, -⟩
  · rw [hSame]
  · have hEffect : call.effect stores.db =
        { stores.db with plans := (call.effect stores.db).plans } := by cases call <;> rfl
    rw [hTerms.1, hEffect]

end Calls

/-! ### The backend with its plans -/

structure Backend where
  sys : Sys
  stripe : Stripe

inductive Action where
  | request (e : Event)
  | plan (answers : StripeAnswers) (call : PlanCall)

/-- The ids that Stripe gives are not empty, and those of prices are new. -/
structure StripeAnswers.Fresh (answers : StripeAnswers) (stripe : Stripe) : Prop where
  given : ∀ id, answers.meter = some id ∨ answers.product = some id ∨
    answers.flatPrice = some id ∨ answers.overagePrice = some id → id ≠ ""
  new : ∀ id, answers.flatPrice = some id ∨ answers.overagePrice = some id →
    ∀ p ∈ stripe.prices, p.id ≠ id
  apart : ∀ id ∈ answers.flatPrice, ∀ id' ∈ answers.overagePrice, id ≠ id'

/-- A request, or a call on the plans. -/
inductive BackendStep (cfg : Config) (b : Backend) : Action → Backend → Prop
  | request {e s'} (step : Step cfg b.sys e s') : BackendStep cfg b (.request e) ⟨s', b.stripe⟩
  | plan {answers call result stores} (fresh : answers.Fresh b.stripe)
      (served : servePlan cfg.lib answers call ⟨b.sys.world.db, b.stripe⟩ = (result, stores)) :
      BackendStep cfg b (.plan answers call)
        ⟨{ b.sys with world := { b.sys.world with db := stores.db } }, stores.cache⟩

section Steps

variable {cfg : Config} {b b' b₀ : Backend} {action : Action} {steps : List (Backend × Action)}

/-- A change of the plans that meets the constraints keeps what the log says. -/
theorem Sys.Sound.setPlans {s : Sys} (hs : s.Sound cfg) {db : Db}
    (hDb : db = { s.world.db with plans := db.plans }) (hValid : db.Valid) :
    ({ s with world := { s.world with db } } : Sys).Sound cfg := by
  have hUsers : db.users = s.world.db.users := by rw [hDb]
  have hTokens : db.refreshTokens = s.world.db.refreshTokens := by rw [hDb]
  have hDevices : db.trustedDevices = s.world.db.trustedDevices := by rw [hDb]
  have hInvitations : db.invitations = s.world.db.invitations := by rw [hDb]
  refine { hs with
    valid := hValid
    users := fun e he t ht => ?_
    rows := fun r hr => hs.rows r (hTokens ▸ hr)
    devices := fun d hd => hs.devices d (hDevices ▸ hd)
    invitations := fun i hi => hs.invitations i (hInvitations ▸ hi) }
  obtain ⟨u, hu⟩ := hs.users e he t ht
  refine ⟨u, ?_⟩
  rw [← hu]
  simp only [Db.user, hUsers]

theorem BackendStep.sound (hs : b.sys.Sound cfg) (h : BackendStep cfg b action b') :
    b'.sys.Sound cfg := by
  cases h with
  | request step => exact step.sound hs
  | plan _ served =>
    refine hs.setPlans (servePlan_frame served) ?_
    rcases servePlan_spec served with hSame | ⟨-, -, hValid⟩
    · rw [hSame]
      exact hs.valid
    · exact hValid

/-- No step takes a subscription away or gives it to another tenant. -/
theorem BackendStep.tenants_grow (hs : b.sys.Sound cfg)
    (h : BackendStep cfg b action b') : ∃ new,
      b'.sys.world.db.subscriptions.map (fun s => s.tenantId) =
        b.sys.world.db.subscriptions.map (fun s => s.tenantId) ++ new := by
  cases h with
  | @request e s' step =>
    cases hFact : e.fact cfg b.sys.world.db with
    | none =>
      obtain ⟨new, hNew, -⟩ := step.keepsBindings_of_noFact hs hFact
      refine ⟨new.map Prod.fst, ?_⟩
      have hTenants := congrArg (List.map Prod.fst) hNew
      rwa [List.map_append, List.map_map, List.map_map] at hTenants
    | some fact =>
      exact ⟨[], by rw [step.subscriptions_of_fact hs hFact, fact.apply_tenants, List.append_nil]⟩
  | plan _ served => exact ⟨[], by rw [servePlan_frame served, List.append_nil]⟩

theorem Backend.sound_of_run (hs : b₀.sys.Sound cfg) (hRun : Run (BackendStep cfg) b₀ steps b) :
    b.sys.Sound cfg :=
  hRun.invariant (I := fun b => b.sys.Sound cfg) (fun hs hStep => hStep.sound hs) hs

/-- A request leaves the plans. -/
theorem Step.plans_same {s s' : Sys} {e : Event} (h : Step cfg s e s') :
    s'.world.db.plans = s.world.db.plans :=
  h.same (p := .plans) (by cases e.request <;> simp [Request.parts])

end Steps

end WxcodeAdm
