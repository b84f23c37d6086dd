import WxcodeAdm.Billing.Facts

/-! The plans of `billing/service.py`, with the calls to Stripe that keep its prices, and the token
quota of `billing/dependencies.py`.  What a call has done at Stripe stays done, whatever becomes of
the transaction around it. -/

namespace WxcodeAdm

open Lib

/-- A Stripe Price: a flat fee per month, or a rate that is metered. -/
structure StripePrice where
  id : String
  product : String
  unitAmount : Nat
  meter : Option String := none
  active : Bool := true
  deriving DecidableEq, Repr

structure StripeProduct where
  id : String
  active : Bool := true
  deriving DecidableEq, Repr

structure Stripe where
  products : List StripeProduct := []
  prices : List StripePrice := []

/-- A function that reads and writes the database and calls Stripe. -/
abbrev PlanApp (α : Type) : Type := Handler Db Stripe PyError α

/-- What Stripe answers to the calls of one request, each made at most once: the id of what a call
creates, or `none` where the call raises. -/
structure StripeAnswers where
  meter : Option String := none
  product : Option String := none
  flatPrice : Option String := none
  overagePrice : Option String := none
  archivesFlat : Bool := false
  archivesOverage : Bool := false
  archivesProduct : Bool := false
  deriving DecidableEq, Repr

structure CreatePlanRequest where
  name : String
  slug : String
  monthlyFeeCents : Nat
  tokenQuota5h : Nat
  tokenQuotaWeekly : Nat
  overageRateCentsPerToken : Nat := 0
  memberCap : Int := 1
  maxProjects : Nat := 5
  maxOutputProjects : Nat := 20
  maxStorageGb : Nat := 10

structure UpdatePlanRequest where
  name : Option String := none
  monthlyFeeCents : Option Nat := none
  tokenQuota5h : Option Nat := none
  tokenQuotaWeekly : Option Nat := none
  overageRateCentsPerToken : Option Nat := none
  memberCap : Option Int := none
  maxProjects : Option Nat := none
  maxOutputProjects : Option Nat := none
  maxStorageGb : Option Nat := none
  isActive : Option Bool := none

/-- The fields of the plan that are given. -/
def UpdatePlanRequest.applyTo (body : UpdatePlanRequest) (plan : Plan) : Plan :=
  { plan with
    name := body.name.getD plan.name
    monthlyFeeCents := body.monthlyFeeCents.getD plan.monthlyFeeCents
    tokenQuota5h := body.tokenQuota5h.getD plan.tokenQuota5h
    tokenQuotaWeekly := body.tokenQuotaWeekly.getD plan.tokenQuotaWeekly
    overageRateCentsPerToken := body.overageRateCentsPerToken.getD plan.overageRateCentsPerToken
    memberCap := body.memberCap.getD plan.memberCap
    maxProjects := body.maxProjects.getD plan.maxProjects
    maxOutputProjects := body.maxOutputProjects.getD plan.maxOutputProjects
    maxStorageGb := body.maxStorageGb.getD plan.maxStorageGb
    isActive := body.isActive.getD plan.isActive }

namespace Stripe

variable (stripe : Stripe)

def addProduct (product : StripeProduct) : Stripe :=
  { stripe with products := stripe.products ++ [product] }

def addPrice (price : StripePrice) : Stripe := { stripe with prices := stripe.prices ++ [price] }

/-- `prices.update(id, active=False)` -/
def archivePrice (id : String) : Stripe :=
  { stripe with
    prices := stripe.prices.map fun p => if p.id = id then { p with active := false } else p }

def archiveProduct (id : String) : Stripe :=
  { stripe with
    products := stripe.products.map fun p => if p.id = id then { p with active := false } else p }

end Stripe

/-- Whether an id is there, as Python tests it. -/
def given (id : Option String) : Bool := id.any (· ≠ "")

def Db.updatePlan (db : Db) (planId : Uuid) (f : Plan → Plan) : Db :=
  { db with plans := db.plans.map fun p => if p.id = planId then f p else p }

/-- `AsyncSession.flush`, as for the other functions; a value that a column does not take ends it
like a key that is there twice. -/
def flushPlans : PlanApp Unit := do
  let valid ← .query fun db => decide db.Valid
  .ensure (valid = true) .integrityError

variable (lib : Library) (answers : StripeAnswers)

/-- The `try` of `create_plan`: the ids are filled in after the last call. -/
def syncNewPlan (plan : Plan) : PlanApp Unit := do
  match answers.meter, answers.product with
  | some meter, some product =>
    .store fun stripe => stripe.addProduct { id := product }
    match answers.flatPrice with
    | none => pure ()
    | some flat =>
      .store fun stripe => stripe.addPrice { id := flat, product, unitAmount := plan.monthlyFeeCents }
      match answers.overagePrice with
      | none => pure ()
      | some overage =>
        .store fun stripe => stripe.addPrice
          { id := overage, product, unitAmount := plan.overageRateCentsPerToken, meter := some meter }
        .exec fun db => db.updatePlan plan.id fun p =>
          { p with
            stripeMeterId := some meter, stripeProductId := some product
            stripePriceId := some flat, stripeOveragePriceId := some overage }
  | _, _ => pure ()

def createPlan (planId : Uuid) (now : Nat) (body : CreatePlanRequest) : PlanApp Unit := do
  let existing ← .query fun db => db.plans.find? fun p => p.slug = body.slug
  .ensure (existing = none)
    (.conflict "PLAN_SLUG_EXISTS" ("A plan with slug '" ++ body.slug ++ "' already exists"))
  let plan : Plan :=
    { id := planId, name := body.name, slug := body.slug, monthlyFeeCents := body.monthlyFeeCents,
      tokenQuota5h := body.tokenQuota5h, tokenQuotaWeekly := body.tokenQuotaWeekly,
      overageRateCentsPerToken := body.overageRateCentsPerToken, memberCap := body.memberCap,
      maxProjects := body.maxProjects, maxOutputProjects := body.maxOutputProjects,
      maxStorageGb := body.maxStorageGb, createdAt := now }
  .exec fun db => { db with plans := db.plans ++ [plan] }
  flushPlans
  syncNewPlan answers plan

/-- One of the two prices of `update_plan`: the old one is archived, then the new one is created and
its id filled in.  Says whether no call has raised. -/
def replacePrice (archives : Bool) (answer : Option String) (old : String)
    (price : String → StripePrice) (planId : Uuid) (fill : String → Plan → Plan) : PlanApp Bool :=
  if archives = true then do
    .store fun stripe => stripe.archivePrice old
    match answer with
    | none => return false
    | some id =>
      .store fun stripe => stripe.addPrice (price id)
      .exec fun db => db.updatePlan planId (fill id)
      return true
  else return false

def replaceFlatPrice (plan : Plan) : PlanApp Bool :=
  replacePrice answers.archivesFlat answers.flatPrice (plan.stripePriceId.getD "")
    (fun id =>
      { id, product := plan.stripeProductId.getD "", unitAmount := plan.monthlyFeeCents })
    plan.id fun id p => { p with stripePriceId := some id }

def replaceOveragePrice (plan : Plan) : PlanApp Bool :=
  replacePrice answers.archivesOverage answers.overagePrice (plan.stripeOveragePriceId.getD "")
    (fun id =>
      { id, product := plan.stripeProductId.getD "", unitAmount := plan.overageRateCentsPerToken,
        meter := plan.stripeMeterId })
    plan.id fun id p => { p with stripeOveragePriceId := some id }

/-- The `try` of `update_plan`, with the plan as it has been changed. -/
def syncPrices (plan : Plan) (priceChanged overageChanged : Bool) : PlanApp Unit := do
  let flat ← if priceChanged ∧ given plan.stripePriceId then replaceFlatPrice answers plan
    else pure true
  if flat = true ∧ overageChanged ∧ given plan.stripeOveragePriceId then
    discard <| replaceOveragePrice answers plan
  else pure ()

def planNotFound (planId : Uuid) : PyError :=
  .notFound "PLAN_NOT_FOUND" ("Plan with id '" ++ lib.uuidText planId ++ "' not found")

def updatePlan (planId : Uuid) (body : UpdatePlanRequest) : PlanApp Unit := do
  let found ← .query fun db => db.plan planId
  let plan ← .orRaise found (planNotFound lib planId)
  let changed := body.applyTo plan
  let priceChanged := decide (changed.monthlyFeeCents ≠ plan.monthlyFeeCents)
  let overageChanged :=
    decide (changed.overageRateCentsPerToken ≠ plan.overageRateCentsPerToken)
  .exec fun db => db.updatePlan planId body.applyTo
  if given plan.stripeProductId ∧ (priceChanged ∨ overageChanged) then
    syncPrices answers changed priceChanged overageChanged
  else pure ()

def deletePlan (planId : Uuid) : PlanApp Unit := do
  let found ← .query fun db => db.plan planId
  let plan ← .orRaise found (planNotFound lib planId)
  let inUseCount ← .query fun db => (db.subscriptions.filter fun s => s.planId = planId).length
  .ensure (inUseCount = 0)
    (.conflict "PLAN_IN_USE" ("Cannot delete plan — " ++ toString inUseCount ++
      " tenant(s) are currently using it"))
  if given plan.stripeProductId ∧ answers.archivesProduct then
    .store fun stripe => stripe.archiveProduct (plan.stripeProductId.getD "")
  else pure ()
  .exec fun db => { db with plans := db.plans.filter fun p => p.id ≠ planId }

/-! ### The token quota -/

def enforceActiveSubscription (subscription : TenantSubscription) : App Unit :=
  .ensure (subscription.status ≠ .pastDue ∧ subscription.status ≠ .canceled)
    (.app "PAYMENT_REQUIRED" "Subscription payment required. Visit billing settings to resolve." 402)

def quotaExceeded (plan : Plan) : PyError :=
  .app "TOKEN_QUOTA_EXCEEDED" ("Free plan token quota (" ++ toString plan.tokenQuota5h ++
    ") exhausted. Upgrade to continue.") 402

def enforceTokenQuota (plan : Plan) (subscription : TenantSubscription) : App Unit :=
  .ensure (¬(plan.monthlyFeeCents = 0 ∧ 0 < plan.tokenQuota5h ∧
    plan.tokenQuota5h ≤ subscription.tokensUsedThisPeriod)) (quotaExceeded plan)

/-- The headers that warn of the quota, at 80 and at 100 percent. -/
def quotaHeaders (plan : Plan) (subscription : TenantSubscription) : List (String × String) :=
  let usage := toString subscription.tokensUsedThisPeriod ++ "/" ++ toString plan.tokenQuota5h
  if plan.tokenQuota5h = 0 then []
  else if plan.tokenQuota5h ≤ subscription.tokensUsedThisPeriod then
    [("X-Quota-Warning", "QUOTA_REACHED"), ("X-Quota-Usage", usage)]
  else if 4 * plan.tokenQuota5h ≤ 5 * subscription.tokensUsedThisPeriod then
    [("X-Quota-Warning", "QUOTA_WARNING_80PCT"), ("X-Quota-Usage", usage)]
  else []

def requireActiveSubscription (c : Ctx) (token : Bearer) (header : Option String) :
    App (Tenant × TenantMembership × TenantSubscription) := do
  let ctx ← getTenantContext c token header
  let found ← .query fun db => db.subscriptionOf ctx.1.id
  let subscription ← .orRaise found
    (.app "PAYMENT_REQUIRED" "Subscription payment required. Visit billing settings to resolve." 402)
  enforceActiveSubscription subscription
  return (ctx.1, ctx.2, subscription)

def checkTokenQuota (c : Ctx) (token : Bearer) (header : Option String) :
    App ((Tenant × TenantMembership × TenantSubscription) × List (String × String)) := do
  let ctx ← requireActiveSubscription c token header
  let found ← .query fun db => db.plan ctx.2.2.planId
  let plan ← .orRaise found (.other "AttributeError")
  enforceTokenQuota plan ctx.2.2
  return (ctx, quotaHeaders plan ctx.2.2)

/-! ### The requests -/

inductive PlanCall where
  | create (planId : Uuid) (now : Nat) (body : CreatePlanRequest)
  | update (planId : Uuid) (body : UpdatePlanRequest)
  | delete (planId : Uuid)

def PlanCall.handle : PlanCall → PlanApp Unit
  | .create planId now body => createPlan answers planId now body
  | .update planId body => updatePlan lib answers planId body
  | .delete planId => deletePlan lib answers planId

/-- `get_session` around a call, which flushes what is pending before it commits. -/
def servePlan (call : PlanCall) (stores : Stores Db Stripe) : Except PyError Unit × Stores Db Stripe :=
  (do call.handle lib answers; flushPlans : PlanApp Unit).atomically stores

end WxcodeAdm
