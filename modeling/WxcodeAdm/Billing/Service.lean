import WxcodeAdm.Auth.Tokens

/-! `billing/service.py` and `billing/dependencies.py`: the free subscription of a new workspace,
the member cap, and the processing of Stripe events. -/

namespace WxcodeAdm

open Lib

variable (c : Ctx)

/-! ### Workspaces -/

def bootstrapFreeSubscription (tenantId : Uuid) (stripeCustomerId : Option String) : App Unit := do
  let found ← .query fun db => db.freePlan
  let freePlan ← .orRaise found (.other "RuntimeError")
  .exec fun db => { db with
    subscriptions := db.subscriptions ++
      [{ tenantId, planId := freePlan.id, stripeCustomerId, status := .free }] }
  flush

/-- `enforce_member_cap`: a tenant without a subscription has no cap, nor has a cap of 0 or less. -/
def enforceMemberCap (tenantId : Uuid) : App Unit := do
  match ← .query fun db => db.subscriptionOf tenantId with
  | none => pure ()
  | some subscription =>
    let found ← .query fun db => db.plan subscription.planId
    let plan ← .orRaise found (.other "AttributeError")
    let memberCount ← .query fun db => (db.memberIds tenantId).length
    .ensure (plan.memberCap ≤ 0 ∨ (memberCount : Int) < plan.memberCap)
      (.app "MEMBER_LIMIT_REACHED" ("Plan member limit (" ++ toString plan.memberCap ++
        ") reached. Upgrade to invite more members.") 402)

/-! ### Checkout -/

/-- `create_stripe_customer` for a tenant that has no customer yet. -/
def ensureStripeCustomer (subscription : TenantSubscription) : App Unit :=
  if subscription.stripeCustomerId = none then
    .exec fun db => db.updateSubscription subscription.tenantId fun s =>
      { s with stripeCustomerId := c.draws.stripeCustomerId }
  else pure ()

/-- `create_checkout_session`: a tenant whose Stripe subscription is active is turned away. -/
def createCheckoutSession (tenantId planId : Uuid) : App (String × String) := do
  let row ← .query fun db => db.subscriptionOf tenantId
  let subscription ← .orRaise row
    (.app "NO_SUBSCRIPTION" "No subscription record found for this tenant" 402)
  let found ← .query fun db => (db.plan planId).filter fun p => p.isActive
  let plan ← .orRaise found
    (.notFound "PLAN_NOT_FOUND"
      ("Plan with id '" ++ c.lib.uuidText planId ++ "' not found or is not active"))
  .ensure (plan.monthlyFeeCents ≠ 0)
    (.conflict "CANNOT_CHECKOUT_FREE" "Cannot checkout for the free plan — use upgrade instead")
  .ensure (¬(subscription.stripeSubscriptionId.any (· ≠ "") = true ∧
      subscription.status = .active))
    (.conflict "ALREADY_SUBSCRIBED" "Already subscribed — use Customer Portal to manage")
  ensureStripeCustomer c subscription
  .orRaise c.draws.checkoutSession (.other "StripeError")

/-! ### Stripe events -/

/-- The subscription of a Stripe id, which is not a unique column. -/
def subscriptionByStripeId (stripeSubscriptionId : String) : App (Option TenantSubscription) := do
  let rows ← .query fun db =>
    db.subscriptions.filter fun s => s.stripeSubscriptionId = some stripeSubscriptionId
  .orRaise (scalarOneOrNone rows) .multipleResultsFound

def handleCheckoutCompleted (dataObject : Json) : App Unit := do
  let metadata ← .ofExcept (dataObject.getD "metadata" (.obj []))
  let tenantText ← .ofExcept (metadata.get "tenant_id")
  let planText ← .ofExcept (metadata.get "plan_id")
  if tenantText.truthy ∧ planText.truthy then
    let tenantId ← .ofExcept (tenantText.uuid c.lib.parseUuid)
    let planId ← .ofExcept (planText.uuid c.lib.parseUuid)
    match ← .query fun db => db.subscriptionOf tenantId with
    | none => pure ()
    | some _ =>
      let value ← .ofExcept (dataObject.get "subscription")
      let stripeSubscriptionId ← .ofExcept value.text
      .exec fun db => db.updateSubscription tenantId fun s =>
        { s with stripeSubscriptionId, planId, status := .active }
  else pure ()

/-- The status that a Stripe status is mapped to; any other keeps the current one. -/
def mapStripeStatus : Json → Option SubscriptionStatus
  | .str "active" => some .active
  | .str "trialing" => some .active
  | .str "past_due" => some .pastDue
  | .str "canceled" => some .canceled
  | .str "incomplete_expired" => some .canceled
  | _ => none

theorem mapStripeStatus_ne_free (status : Json) : mapStripeStatus status ≠ some .free := by
  unfold mapStripeStatus
  split <;> simp

def optionalTimestamp (value : Json) : Except PyError (Option Int) :=
  match value with
  | .null => .ok none
  | value => value.fromTimestamp.map some

/-- The columns that a subscription update sets, after the row was read as `found`: a start of the
period that differs from the one found resets the token count. -/
def syncSubscription (found : TenantSubscription) (status : Option SubscriptionStatus)
    (newStart newEnd : Option Int) (s : TenantSubscription) : TenantSubscription :=
  { s with
    status := status.getD s.status
    currentPeriodStart := newStart <|> s.currentPeriodStart
    currentPeriodEnd := newEnd <|> s.currentPeriodEnd
    tokensUsedThisPeriod :=
      if newStart.isSome ∧ found.currentPeriodStart ≠ newStart then 0
      else s.tokensUsedThisPeriod }

def handleSubscriptionUpdated (dataObject : Json) : App Unit := do
  let id ← .ofExcept (dataObject.get "id")
  if id.truthy then
    let text ← .ofExcept id.text
    match ← subscriptionByStripeId (text.getD "") with
    | none => pure ()
    | some subscription =>
      let stripeStatus ← .ofExcept (dataObject.getD "status" (.str ""))
      let start ← .ofExcept (dataObject.get "current_period_start")
      let finish ← .ofExcept (dataObject.get "current_period_end")
      let newStart ← .ofExcept (optionalTimestamp start)
      let newEnd ← .ofExcept (optionalTimestamp finish)
      .exec fun db => db.updateSubscription subscription.tenantId
        (syncSubscription subscription (mapStripeStatus stripeStatus) newStart newEnd)
  else pure ()

def handleSubscriptionDeleted (dataObject : Json) : App Unit := do
  let id ← .ofExcept (dataObject.get "id")
  if id.truthy then
    let text ← .ofExcept id.text
    match ← subscriptionByStripeId (text.getD "") with
    | none => pure ()
    | some subscription =>
      .exec fun db => db.updateSubscription subscription.tenantId fun s =>
        { s with status := .canceled }
  else pure ()

/-- `subscription` is compared with `None`, where the two handlers above test `id` for truth. -/
def invoiceSubscription (dataObject : Json) : App (Option TenantSubscription) := do
  let value ← .ofExcept (dataObject.get "subscription")
  match ← .ofExcept value.text with
  | none => pure none
  | some text => subscriptionByStripeId text

def handleInvoicePaid (dataObject : Json) : App Unit := do
  match ← invoiceSubscription dataObject with
  | none => pure ()
  | some subscription =>
    if subscription.status = .pastDue then
      .exec fun db => db.updateSubscription subscription.tenantId fun s =>
        { s with status := .active }
    else pure ()

/-- Blacklists every jti in the sessions of the users and deletes their refresh tokens. -/
def revokeSessionsOf (userIds : List Uuid) : App Unit := do
  let jtis ← .query fun db => db.sessionJtis userIds
  jtis.forM (blacklistJti c)
  .exec fun db => db.deleteRefreshTokens fun r => r.userId ∈ userIds

/-- Who is told of a failed payment: the owner and the members with billing access. -/
def billingEmails (tenantId : Uuid) (db : Db) : List String :=
  (db.memberships.filter fun m =>
    m.tenantId = tenantId ∧ (m.role = .owner ∨ m.billingAccess)).filterMap fun m =>
      (db.user m.userId).map fun u => u.email

def handlePaymentFailed (dataObject : Json) : App Unit := do
  match ← invoiceSubscription dataObject with
  | none => pure ()
  | some subscription =>
    .exec fun db => db.updateSubscription subscription.tenantId fun s =>
      { s with status := .pastDue }
    let userIds ← .query fun db => db.memberIds subscription.tenantId
    revokeSessionsOf c userIds
    let tenant ← .query fun db => db.tenant subscription.tenantId
    let tenantName := tenant.elim (c.lib.uuidText subscription.tenantId) fun t => t.name
    let emails ← .query (billingEmails subscription.tenantId)
    emails.forM fun email => enqueueJob (.sendPaymentFailedEmail email tenantName)

def handleStripeEvent (eventType : String) (dataObject : Json) : App Unit :=
  match eventType with
  | "checkout.session.completed" => handleCheckoutCompleted c dataObject
  | "customer.subscription.updated" => handleSubscriptionUpdated dataObject
  | "customer.subscription.deleted" => handleSubscriptionDeleted dataObject
  | "invoice.paid" => handleInvoicePaid dataObject
  | "invoice.payment_failed" => handlePaymentFailed c dataObject
  | _ => pure ()

def recordStripeEvent (eventId eventType : String) : App Unit := do
  .exec fun db => { db with
    webhookEvents := db.webhookEvents ++
      [{ stripeEventId := eventId, eventType, processedAt := c.now }] }
  flush

/-- `process_stripe_event`; an event that is recorded already is skipped. -/
def processStripeEvent (eventId eventType : String) (dataObject : Json) : App Unit := do
  match ← .query fun db => db.webhookEvents.find? fun e => e.stripeEventId = eventId with
  | some _ => pure ()
  | none =>
    handleStripeEvent c eventType dataObject
    recordStripeEvent c eventId eventType

/-! ### What the functions do -/

variable {c} {s s' : World} {P : Power → Prop}

def revoked (c : Ctx) (userIds : List Uuid) (s : World) : World where
  db := s.db.deleteRefreshTokens fun r => r.userId ∈ userIds
  cache := { s.cache with
    blacklist := s.cache.blacklist.setAll c.now (s.db.sessionJtis userIds) () c.accessTtl }

@[simp] theorem run_revokeSessionsOf (userIds : List Uuid) :
    (revokeSessionsOf c userIds).run s = .ok () (revoked c userIds s) := by
  simp only [revokeSessionsOf, Handler.run_query_bind]
  rw [Handler.run_bind, run_forM_blacklistJti]
  rfl

theorem revokeSessionsOf_evolves (userIds : List Uuid) :
    Handler.Within (Evolves c P) (revokeSessionsOf c userIds) :=
  .bind (.query _) fun _ => .bind (.forM blacklistJti_evolves _) fun _ =>
    Evolves.deleteRefreshTokens _

theorem bootstrapFreeSubscription_evolves (tenantId : Uuid) (customer : Option String) :
    Handler.Within (Evolves c P) (bootstrapFreeSubscription tenantId customer) :=
  .bind (.query _) fun _ => .bind (.orRaise _ _) fun _ =>
    .bind (Evolves.exec_frame fun _ => rfl) fun _ => Evolves.flush

theorem enforceMemberCap_evolves (tenantId : Uuid) :
    Handler.Within (Evolves c P) (enforceMemberCap tenantId) :=
  .bind (.query _) fun found => by
    cases found with
    | none => exact .pure _
    | some _ =>
      exact .bind (.query _) fun _ => .bind (.orRaise _ _) fun _ => .bind (.query _) fun _ =>
        .ensure _ _

theorem updateSubscription_evolves {tenantId : Uuid} {f : TenantSubscription → TenantSubscription} :
    Handler.Within (Evolves c P) (.exec fun db => db.updateSubscription tenantId f : App Unit) :=
  Evolves.exec_frame fun _ => rfl

theorem createCheckoutSession_evolves (tenantId planId : Uuid) :
    Handler.Within (Evolves c P) (createCheckoutSession c tenantId planId) :=
  .bind (.query _) fun _ => .bind (.orRaise _ _) fun _ => .bind (.query _) fun _ =>
    .bind (.orRaise _ _) fun _ => .bind (.ensure _ _) fun _ => .bind (.ensure _ _) fun _ =>
    .bind (.ite updateSubscription_evolves (.pure _)) fun _ => .orRaise _ _

theorem subscriptionByStripeId_evolves (id : String) :
    Handler.Within (Evolves c P) (subscriptionByStripeId id) :=
  .bind (.query _) fun _ => .orRaise _ _

theorem handleCheckoutCompleted_evolves (dataObject : Json) :
    Handler.Within (Evolves c P) (handleCheckoutCompleted c dataObject) :=
  .bind (.ofExcept _) fun _ => .bind (.ofExcept _) fun _ => .bind (.ofExcept _) fun _ =>
    .ite (.bind (.ofExcept _) fun _ => .bind (.ofExcept _) fun _ => .bind (.query _) fun found => by
      cases found with
      | none => exact .pure _
      | some _ =>
        exact .bind (.ofExcept _) fun _ => .bind (.ofExcept _) fun _ => updateSubscription_evolves)
      (.pure _)

theorem handleSubscriptionUpdated_evolves (dataObject : Json) :
    Handler.Within (Evolves c P) (handleSubscriptionUpdated dataObject) :=
  .bind (.ofExcept _) fun _ => .ite (.bind (.ofExcept _) fun _ =>
    .bind (subscriptionByStripeId_evolves _) fun found => by
      cases found with
      | none => exact .pure _
      | some _ =>
        exact .bind (.ofExcept _) fun _ => .bind (.ofExcept _) fun _ => .bind (.ofExcept _) fun _ =>
          .bind (.ofExcept _) fun _ => .bind (.ofExcept _) fun _ => updateSubscription_evolves)
    (.pure _)

theorem handleSubscriptionDeleted_evolves (dataObject : Json) :
    Handler.Within (Evolves c P) (handleSubscriptionDeleted dataObject) :=
  .bind (.ofExcept _) fun _ => .ite (.bind (.ofExcept _) fun _ =>
    .bind (subscriptionByStripeId_evolves _) fun found => by
      cases found with
      | none => exact .pure _
      | some _ => exact updateSubscription_evolves)
    (.pure _)

theorem invoiceSubscription_evolves (dataObject : Json) :
    Handler.Within (Evolves c P) (invoiceSubscription dataObject) :=
  .bind (.ofExcept _) fun _ => .bind (.ofExcept _) fun text => by
    cases text with
    | none => exact .pure _
    | some text => exact subscriptionByStripeId_evolves text

theorem handleInvoicePaid_evolves (dataObject : Json) :
    Handler.Within (Evolves c P) (handleInvoicePaid dataObject) :=
  .bind (invoiceSubscription_evolves dataObject) fun found => by
    cases found with
    | none => exact .pure _
    | some _ => exact .ite updateSubscription_evolves (.pure _)

theorem handlePaymentFailed_evolves (dataObject : Json) :
    Handler.Within (Evolves c P) (handlePaymentFailed c dataObject) :=
  .bind (invoiceSubscription_evolves dataObject) fun found => by
    cases found with
    | none => exact .pure _
    | some _ =>
      exact .bind updateSubscription_evolves fun _ => .bind (.query _) fun _ =>
        .bind (revokeSessionsOf_evolves _) fun _ => .bind (.query _) fun _ => .bind (.query _)
        fun _ => .forM (fun _ => Evolves.enqueueJob _) _

theorem processStripeEvent_evolves (eventId eventType : String) (dataObject : Json) :
    Handler.Within (Evolves c P) (processStripeEvent c eventId eventType dataObject) :=
  .bind (.query _) fun found => by
    cases found with
    | some _ => exact .pure _
    | none =>
      refine .bind ?_ fun _ => .bind (Evolves.exec_frame fun _ => rfl) fun _ => Evolves.flush
      unfold handleStripeEvent
      split
      · exact handleCheckoutCompleted_evolves dataObject
      · exact handleSubscriptionUpdated_evolves dataObject
      · exact handleSubscriptionDeleted_evolves dataObject
      · exact handleInvoicePaid_evolves dataObject
      · exact handlePaymentFailed_evolves dataObject
      · exact .pure _

end WxcodeAdm
