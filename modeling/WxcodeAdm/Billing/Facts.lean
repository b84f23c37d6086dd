import WxcodeAdm.Guarantees.WebhookOnce
import WxcodeAdm.Footprint

/-! Stripe's events as facts about subscriptions.  A fact has an effect on the rows of
`tenant_subscriptions` that the five handlers refine: each reads the fact out of the event, finds
the one row that it is about, and writes what the fact says, whatever was processed before. -/

namespace WxcodeAdm

open Lib

/-- What an event tells, as the handlers read it. -/
inductive StripeFact where
  | completed (tenantId planId : Uuid) (subscription : Option String)
  | updated (subscription : String) (status : Option SubscriptionStatus)
      (start finish : Option Int)
  | deleted (subscription : String)
  | paid (subscription : String)
  | failed (subscription : String)
  deriving DecidableEq

/-- A change of the rows that hold a Stripe id. -/
def onSubscription (subscription : String) (f : TenantSubscription → TenantSubscription)
    (rows : List TenantSubscription) : List TenantSubscription :=
  rows.map fun row => if row.stripeSubscriptionId = some subscription then f row else row

def StripeFact.apply : StripeFact → List TenantSubscription → List TenantSubscription
  | completed tenantId planId subscription, rows => rows.map fun row =>
      if row.tenantId = tenantId then
        { row with stripeSubscriptionId := subscription, planId, status := .active }
      else row
  | updated subscription status start finish, rows =>
      onSubscription subscription (fun row => syncSubscription row status start finish row) rows
  | deleted subscription, rows =>
      onSubscription subscription (fun row => { row with status := .canceled }) rows
  | paid subscription, rows =>
      onSubscription subscription
        (fun row => if row.status = .pastDue then { row with status := .active } else row) rows
  | failed subscription, rows =>
      onSubscription subscription (fun row => { row with status := .pastDue }) rows

theorem StripeFact.apply_tenants (fact : StripeFact) (rows : List TenantSubscription) :
    (fact.apply rows).map (fun s => s.tenantId) = rows.map fun s => s.tenantId := by
  cases fact <;>
  · simp only [StripeFact.apply, onSubscription, List.map_map]
    refine List.map_congr_left fun row _ => ?_
    simp only [Function.comp]
    repeat' split
    all_goals rfl

/-! ### Reading a fact -/

def readCompleted (lib : Library) (dataObject : Json) : Option StripeFact := do
  let metadata ← (dataObject.getD "metadata" (.obj [])).toOption
  let tenantText ← (metadata.get "tenant_id").toOption
  let planText ← (metadata.get "plan_id").toOption
  if tenantText.truthy ∧ planText.truthy then
    let tenantId ← (tenantText.uuid lib.parseUuid).toOption
    let planId ← (planText.uuid lib.parseUuid).toOption
    let value ← (dataObject.get "subscription").toOption
    let subscription ← value.text.toOption
    return .completed tenantId planId subscription
  else none

def readUpdated (dataObject : Json) : Option StripeFact := do
  let id ← (dataObject.get "id").toOption
  if id.truthy then
    let text ← id.text.toOption
    let status ← (dataObject.getD "status" (.str "")).toOption
    let start ← (dataObject.get "current_period_start").toOption
    let finish ← (dataObject.get "current_period_end").toOption
    let newStart ← (optionalTimestamp start).toOption
    let newEnd ← (optionalTimestamp finish).toOption
    return .updated (text.getD "") (mapStripeStatus status) newStart newEnd
  else none

def readDeleted (dataObject : Json) : Option StripeFact := do
  let id ← (dataObject.get "id").toOption
  if id.truthy then
    let text ← id.text.toOption
    return .deleted (text.getD "")
  else none

/-- `fact` of the subscription that an invoice is for. -/
def readInvoice (fact : String → StripeFact) (dataObject : Json) : Option StripeFact := do
  let value ← (dataObject.get "subscription").toOption
  let text ← value.text.toOption
  text.map fact

/-- The fact of an event; one whose fields cannot be read tells none. -/
def factOf (lib : Library) (eventType : String) (dataObject : Json) : Option StripeFact :=
  match eventType with
  | "checkout.session.completed" => readCompleted lib dataObject
  | "customer.subscription.updated" => readUpdated dataObject
  | "customer.subscription.deleted" => readDeleted dataObject
  | "invoice.paid" => readInvoice .paid dataObject
  | "invoice.payment_failed" => readInvoice .failed dataObject
  | _ => none

def effectOf (fact : Option StripeFact) (rows : List TenantSubscription) :
    List TenantSubscription :=
  match fact with
  | some fact => fact.apply rows
  | none => rows

/-! ### The handlers refine the facts -/

variable {c : Ctx} {w w' : World}

theorem scalarOneOrNone_none {α : Type} {l : List α} (h : scalarOneOrNone l = some none) :
    l = [] := by
  unfold scalarOneOrNone at h
  split at h <;> simp_all

theorem scalarOneOrNone_some {α : Type} {l : List α} {a : α}
    (h : scalarOneOrNone l = some (some a)) : l = [a] := by
  unfold scalarOneOrNone at h
  split at h <;> simp_all

theorem onSubscription_idle {subscription : String} {rows : List TenantSubscription}
    {f : TenantSubscription → TenantSubscription}
    (h : ∀ row ∈ rows.filter fun row => row.stripeSubscriptionId = some subscription, f row = row) :
    onSubscription subscription f rows = rows := by
  refine (List.map_congr_left fun row hRow => ?_).trans (List.map_id rows)
  by_cases hSame : row.stripeSubscriptionId = some subscription
  · rw [if_pos hSame]
    exact h row (List.mem_filter.mpr ⟨hRow, by simpa using hSame⟩)
  · rw [if_neg hSame]
    rfl

/-- The UPDATE of the one row with a Stripe id, which the handlers find by it and write by the
tenant. -/
theorem updateSubscription_onSubscription {subscription : String} {db : Db}
    {row : TenantSubscription} {f g : TenantSubscription → TenantSubscription}
    (hUnique : (db.subscriptions.map fun s => s.tenantId).Nodup)
    (hRow : db.subscriptions.filter (fun s => s.stripeSubscriptionId = some subscription) = [row])
    (hf : f row = g row) :
    (db.updateSubscription row.tenantId f).subscriptions =
      onSubscription subscription g db.subscriptions := by
  have hMem : row ∈ db.subscriptions ∧ row.stripeSubscriptionId = some subscription := by
    have hIn : row ∈ db.subscriptions.filter fun s => s.stripeSubscriptionId = some subscription :=
      hRow ▸ List.mem_singleton.mpr rfl
    simpa using hIn
  refine List.map_congr_left fun s hs => ?_
  by_cases hTenant : s.tenantId = row.tenantId
  · obtain rfl := List.inj_on_of_nodup_map hUnique hs hMem.1 hTenant
    rw [if_pos rfl, if_pos hMem.2, hf]
  · have hOther : s.stripeSubscriptionId ≠ some subscription := by
      intro hSame
      have hIn : s ∈ db.subscriptions.filter fun s => s.stripeSubscriptionId = some subscription :=
        List.mem_filter.mpr ⟨hs, by simpa using hSame⟩
      rw [hRow, List.mem_singleton] at hIn
      exact hTenant (hIn ▸ rfl)
    rw [if_neg hTenant, if_neg hOther]

/-- An effect that no row is concerned by. -/
theorem effectOf_idle {fact : Option StripeFact} {rows : List TenantSubscription}
    (h : ∀ f ∈ fact, f.apply rows = rows) : effectOf fact rows = rows := by
  cases fact with
  | none => rfl
  | some f => exact h f rfl

theorem handleCheckoutCompleted_fact {dataObject : Json}
    (h : (handleCheckoutCompleted c dataObject).run w = .ok () w') :
    w'.db.subscriptions = effectOf (readCompleted c.lib dataObject) w.db.subscriptions := by
  simp only [handleCheckoutCompleted, Handler.run_ofExcept_bind_ok, Handler.run_ite_ok,
    Handler.run_query_bind, Handler.run_pure_ok] at h
  obtain ⟨metadata, hMeta, tenantText, hTenantText, planText, hPlanText, h⟩ := h
  simp only [readCompleted, hMeta, hTenantText, hPlanText, Except.toOption, Option.bind_eq_bind,
    Option.bind_some]
  rcases h with ⟨hTruthy, tenantId, hTenant, planId, hPlan, h⟩ | ⟨hTruthy, -, rfl⟩
  · simp only [if_pos hTruthy, hTenant, hPlan, Option.bind_some]
    split at h
    · rename_i hNone
      obtain ⟨-, rfl⟩ := Handler.run_pure_ok.mp h
      have hAbsent : ∀ row ∈ w.db.subscriptions, row.tenantId ≠ tenantId := by
        simpa [Db.subscriptionOf] using hNone
      refine (effectOf_idle fun f hf => ?_).symm
      obtain ⟨_, -, hf⟩ := Option.bind_eq_some_iff.mp hf
      obtain ⟨subscription, -, hf⟩ := Option.bind_eq_some_iff.mp hf
      obtain rfl := Option.some.inj hf
      refine (List.map_congr_left fun row hRow => ?_).trans (List.map_id _)
      rw [if_neg (hAbsent row hRow)]
      rfl
    · simp only [Handler.run_ofExcept_bind_ok, Handler.run_exec, Outcome.ok.injEq, true_and] at h
      obtain ⟨value, hValue, subscription, hSubscription, rfl⟩ := h
      simp only [hValue, hSubscription, Option.bind_some]
      rfl
  · rw [if_neg hTruthy]
    rfl

theorem subscriptionByStripeId_ok {subscription : String} {found : Option TenantSubscription}
    (h : (subscriptionByStripeId subscription).run w = .ok found w') :
    w' = w ∧ w.db.subscriptions.filter (fun s => s.stripeSubscriptionId = some subscription) =
      found.toList := by
  simp only [subscriptionByStripeId, Handler.run_query_bind] at h
  obtain ⟨hFound, rfl⟩ := Handler.run_orRaise_ok.mp h
  refine ⟨rfl, ?_⟩
  cases found with
  | none => exact scalarOneOrNone_none hFound
  | some row => exact scalarOneOrNone_some hFound

theorem handleSubscriptionUpdated_fact {dataObject : Json}
    (hUnique : (w.db.subscriptions.map fun s => s.tenantId).Nodup)
    (h : (handleSubscriptionUpdated dataObject).run w = .ok () w') :
    w'.db.subscriptions = effectOf (readUpdated dataObject) w.db.subscriptions := by
  simp only [handleSubscriptionUpdated, Handler.run_ofExcept_bind_ok, Handler.run_ite_ok,
    Handler.run_pure_ok] at h
  obtain ⟨id, hId, ⟨hTruthy, text, hText, h⟩ | ⟨hTruthy, -, rfl⟩⟩ := h
  · simp only [readUpdated, hId, hText, Except.toOption, Option.bind_eq_bind, Option.bind_some,
      if_pos hTruthy]
    obtain ⟨found, m, hFind, h⟩ := Handler.run_bind_ok.mp h
    obtain ⟨rfl, hRow⟩ := subscriptionByStripeId_ok hFind
    cases found with
    | none =>
      obtain ⟨-, rfl⟩ := Handler.run_pure_ok.mp h
      refine (effectOf_idle fun f hf => ?_).symm
      obtain ⟨_, -, hf⟩ := Option.bind_eq_some_iff.mp hf
      obtain ⟨_, -, hf⟩ := Option.bind_eq_some_iff.mp hf
      obtain ⟨_, -, hf⟩ := Option.bind_eq_some_iff.mp hf
      obtain ⟨_, -, hf⟩ := Option.bind_eq_some_iff.mp hf
      obtain ⟨_, -, hf⟩ := Option.bind_eq_some_iff.mp hf
      obtain rfl := Option.some.inj hf
      exact onSubscription_idle (by simp [hRow])
    | some row =>
      simp only [Handler.run_ofExcept_bind_ok, Handler.run_exec, Outcome.ok.injEq, true_and] at h
      obtain ⟨status, hStatus, start, hStart, finish, hFinish, newStart, hNewStart, newEnd, hNewEnd,
        rfl⟩ := h
      simp only [hStatus, hStart, hFinish, hNewStart, hNewEnd, Option.bind_some]
      exact updateSubscription_onSubscription hUnique hRow rfl
  · simp only [readUpdated, hId, Except.toOption, Option.bind_eq_bind, Option.bind_some,
      if_neg hTruthy]
    rfl

theorem handleSubscriptionDeleted_fact {dataObject : Json}
    (hUnique : (w.db.subscriptions.map fun s => s.tenantId).Nodup)
    (h : (handleSubscriptionDeleted dataObject).run w = .ok () w') :
    w'.db.subscriptions = effectOf (readDeleted dataObject) w.db.subscriptions := by
  simp only [handleSubscriptionDeleted, Handler.run_ofExcept_bind_ok, Handler.run_ite_ok,
    Handler.run_pure_ok] at h
  obtain ⟨id, hId, ⟨hTruthy, text, hText, h⟩ | ⟨hTruthy, -, rfl⟩⟩ := h
  · simp only [readDeleted, hId, hText, Except.toOption, Option.bind_eq_bind, Option.bind_some,
      if_pos hTruthy]
    obtain ⟨found, m, hFind, h⟩ := Handler.run_bind_ok.mp h
    obtain ⟨rfl, hRow⟩ := subscriptionByStripeId_ok hFind
    cases found with
    | none =>
      obtain ⟨-, rfl⟩ := Handler.run_pure_ok.mp h
      exact (onSubscription_idle (by simp [hRow])).symm
    | some row =>
      simp only [Handler.run_exec, Outcome.ok.injEq, true_and] at h
      subst h
      exact updateSubscription_onSubscription hUnique hRow rfl
  · simp only [readDeleted, hId, Except.toOption, Option.bind_eq_bind, Option.bind_some,
      if_neg hTruthy]
    rfl

/-- The row that an invoice is for, and the fact that is read with it. -/
theorem invoiceSubscription_ok {dataObject : Json} {found : Option TenantSubscription}
    (fact : String → StripeFact)
    (h : (invoiceSubscription dataObject).run w = .ok found w') :
    w' = w ∧ (readInvoice fact dataObject = none ∧ found = none ∨
      ∃ subscription, readInvoice fact dataObject = some (fact subscription) ∧
        w.db.subscriptions.filter (fun s => s.stripeSubscriptionId = some subscription) =
          found.toList) := by
  simp only [invoiceSubscription, Handler.run_ofExcept_bind_ok] at h
  obtain ⟨value, hValue, text, hText, h⟩ := h
  simp only [readInvoice, hValue, hText, Except.toOption, Option.bind_eq_bind, Option.bind_some]
  cases text with
  | none =>
    obtain ⟨rfl, rfl⟩ := Handler.run_pure_ok.mp h
    exact ⟨rfl, .inl ⟨rfl, rfl⟩⟩
  | some subscription =>
    obtain ⟨rfl, hRow⟩ := subscriptionByStripeId_ok h
    exact ⟨rfl, .inr ⟨subscription, rfl, hRow⟩⟩

theorem handleInvoicePaid_fact {dataObject : Json}
    (hUnique : (w.db.subscriptions.map fun s => s.tenantId).Nodup)
    (h : (handleInvoicePaid dataObject).run w = .ok () w') :
    w'.db.subscriptions = effectOf (readInvoice .paid dataObject) w.db.subscriptions := by
  obtain ⟨found, m, hFind, h⟩ := Handler.run_bind_ok.mp h
  obtain ⟨rfl, ⟨hRead, rfl⟩ | ⟨subscription, hRead, hRow⟩⟩ := invoiceSubscription_ok .paid hFind
  · obtain ⟨-, rfl⟩ := Handler.run_pure_ok.mp h
    rw [hRead]
    rfl
  · rw [hRead]
    cases found with
    | none =>
      obtain ⟨-, rfl⟩ := Handler.run_pure_ok.mp h
      exact (onSubscription_idle (by simp [hRow])).symm
    | some row =>
      simp only [Handler.run_ite_ok, Handler.run_exec, Handler.run_pure_ok, Outcome.ok.injEq,
        true_and] at h
      rcases h with ⟨hPastDue, rfl⟩ | ⟨hOther, rfl⟩
      · exact updateSubscription_onSubscription hUnique hRow (if_pos hPastDue).symm
      · exact (onSubscription_idle (by simp [hRow, hOther])).symm

theorem touches_afterPaymentFailed (tenantId : Uuid) :
    Touches [.blacklist, .refreshTokens, .sessions, .jobs] (do
      let userIds ← .query fun db => db.memberIds tenantId
      revokeSessionsOf c userIds
      let tenant ← .query fun db => db.tenant tenantId
      let tenantName := tenant.elim (c.lib.uuidText tenantId) fun t => t.name
      let emails ← .query (billingEmails tenantId)
      emails.forM fun email => enqueueJob (.sendPaymentFailedEmail email tenantName)) :=
  .bind (.query _) fun _ => .bind (revokeSessionsOf_touches _) fun _ => .bind (.query _) fun _ =>
    .bind (.query _) fun _ => .forM (fun _ => touches_enqueueJob _) _

theorem handlePaymentFailed_fact {dataObject : Json}
    (hUnique : (w.db.subscriptions.map fun s => s.tenantId).Nodup)
    (h : (handlePaymentFailed c dataObject).run w = .ok () w') :
    w'.db.subscriptions = effectOf (readInvoice .failed dataObject) w.db.subscriptions := by
  obtain ⟨found, m, hFind, h⟩ := Handler.run_bind_ok.mp h
  obtain ⟨rfl, ⟨hRead, rfl⟩ | ⟨subscription, hRead, hRow⟩⟩ := invoiceSubscription_ok .failed hFind
  · obtain ⟨-, rfl⟩ := Handler.run_pure_ok.mp h
    rw [hRead]
    rfl
  · rw [hRead]
    cases found with
    | none =>
      obtain ⟨-, rfl⟩ := Handler.run_pure_ok.mp h
      exact (onSubscription_idle (by simp [hRow])).symm
    | some row =>
      simp only [Handler.run_exec_bind] at h
      have hRest : Part.subscriptions.Same _ w' :=
        (touches_afterPaymentFailed row.tenantId .subscriptions (by simp)).of_ok h
      exact Eq.trans hRest (updateSubscription_onSubscription hUnique hRow rfl)

theorem handleStripeEvent_fact {eventType : String} {dataObject : Json}
    (hUnique : (w.db.subscriptions.map fun s => s.tenantId).Nodup)
    (h : (handleStripeEvent c eventType dataObject).run w = .ok () w') :
    w'.db.subscriptions = effectOf (factOf c.lib eventType dataObject) w.db.subscriptions := by
  unfold factOf
  split
  · exact handleCheckoutCompleted_fact h
  · exact handleSubscriptionUpdated_fact hUnique h
  · exact handleSubscriptionDeleted_fact hUnique h
  · exact handleInvoicePaid_fact hUnique h
  · exact handlePaymentFailed_fact hUnique h
  · unfold handleStripeEvent at h
    split at h
    all_goals first | contradiction | skip
    obtain ⟨-, rfl⟩ := Handler.run_pure_ok.mp h
    rfl

instance (db : Db) (eventId : String) : Decidable (db.Recorded eventId) :=
  inferInstanceAs (Decidable (∃ _ ∈ _, _))

theorem processStripeEvent_fact {eventId eventType : String} {dataObject : Json}
    (hUnique : (w.db.subscriptions.map fun s => s.tenantId).Nodup)
    (h : (processStripeEvent c eventId eventType dataObject).run w = .ok () w') :
    w'.db.subscriptions = if w.db.Recorded eventId then w.db.subscriptions
      else effectOf (factOf c.lib eventType dataObject) w.db.subscriptions := by
  simp only [processStripeEvent, Handler.run_query_bind] at h
  split at h
  · rename_i event hFound
    obtain ⟨-, rfl⟩ := Handler.run_pure_ok.mp h
    have hRecorded : w.db.Recorded eventId :=
      ⟨event, List.mem_of_find?_eq_some hFound, by simpa using List.find?_some hFound⟩
    rw [if_pos hRecorded]
  · rename_i hNone
    have hNew : ¬w.db.Recorded eventId := by
      simpa [Db.Recorded] using hNone
    obtain ⟨⟨⟩, m, hHandle, h⟩ := Handler.run_bind_ok.mp h
    simp only [recordStripeEvent, Handler.run_exec_bind, run_flush_ok] at h
    obtain ⟨-, rfl⟩ := h
    rw [if_neg hNew]
    have hEffect := handleStripeEvent_fact hUnique hHandle
    exact hEffect

/-! ### Steps -/

/-- The fact that a request has had processed: a Stripe event that was not recorded before, and
that returned. -/
def Event.fact (cfg : Config) (db : Db) (e : Event) : Option StripeFact :=
  match e.request, e.outcome with
  | .stripeEvent eventId eventType dataObject, .ok _ =>
    if db.Recorded eventId then none else factOf cfg.lib eventType dataObject
  | _, _ => none

/-- Some step of the run has had the fact processed. -/
def Told (cfg : Config) (steps : List (Sys × Event)) (fact : StripeFact) : Prop :=
  ∃ p ∈ steps, p.2.fact cfg p.1.world.db = some fact

instance (cfg : Config) (steps : List (Sys × Event)) (fact : StripeFact) :
    Decidable (Told cfg steps fact) := inferInstanceAs (Decidable (∃ _ ∈ _, _))

/-- What the facts are about: the tenant of a row, its Stripe id and its status. -/
def TenantSubscription.binding (row : TenantSubscription) :
    Uuid × Option String × SubscriptionStatus :=
  (row.tenantId, row.stripeSubscriptionId, row.status)

/-- The bindings stay, and new rows have no Stripe id. -/
def KeepsBindings (s s' : World) : Prop :=
  ∃ new, s'.db.subscriptions.map TenantSubscription.binding =
      s.db.subscriptions.map TenantSubscription.binding ++ new ∧ ∀ b ∈ new, b.2.1 = none

theorem KeepsBindings.of_eq {s s' : World} (h : s'.db.subscriptions = s.db.subscriptions) :
    KeepsBindings s s' := ⟨[], by simp [h], by simp⟩

instance : Std.Refl KeepsBindings := ⟨fun _ => .of_eq rfl⟩

instance : IsTrans World KeepsBindings := ⟨by
  rintro s m s' ⟨new, hNew, hNone⟩ ⟨more, hMore, hNone'⟩
  refine ⟨new ++ more, by rw [hMore, hNew, List.append_assoc], fun b hb => ?_⟩
  rcases List.mem_append.mp hb with hb | hb
  · exact hNone b hb
  · exact hNone' b hb⟩

theorem Touches.keepsBindings {α : Type} {parts : List Part} {h : App α} (ht : Touches parts h)
    (hp : Part.subscriptions ∉ parts) : Handler.Within KeepsBindings h :=
  (ht .subscriptions hp).mono fun _ _ => KeepsBindings.of_eq

theorem createWorkspace_keepsBindings (user : User) (name : PyStr) :
    Handler.Within KeepsBindings (createWorkspace c user name) :=
  .bind (.bind (.query _) fun _ => .orRaise _ _) fun _ => .bind (.orRaise _ _) fun _ =>
    .bind (touches_tenants.keepsBindings (by simp)) fun _ =>
    .bind (touches_flush.keepsBindings (by simp)) fun _ =>
    .bind (touches_addMembership.keepsBindings (by simp)) fun _ =>
    .bind (touches_flush.keepsBindings (by simp)) fun _ =>
    .bind (.bind (.query _) fun _ => .bind (.orRaise _ _) fun _ => .bind
      (.exec fun s => ⟨[_], List.map_append, by simp [TenantSubscription.binding]⟩)
      fun _ => touches_flush.keepsBindings (by simp)) fun _ => .pure _

theorem createCheckoutSession_keepsBindings (tenantId planId : Uuid) :
    Handler.Within KeepsBindings (createCheckoutSession c tenantId planId) :=
  .bind (.query _) fun _ => .bind (.orRaise _ _) fun _ => .bind (.query _) fun _ =>
    .bind (.orRaise _ _) fun _ => .bind (.ensure _ _) fun _ => .bind (.ensure _ _) fun _ =>
    .bind (.ite (.exec fun s => by
      refine ⟨[], ?_, by simp⟩
      have hBinding (row : TenantSubscription) :
          { row with stripeCustomerId := c.draws.stripeCustomerId }.binding = row.binding := rfl
      rw [List.append_nil]
      exact Db.map_update hBinding _) (.pure _)) fun _ => .orRaise _ _

section Steps

variable {cfg : Config} {s s' : Sys} {e : Event}

theorem Step.subscriptions_of_fact (hs : s.Sound cfg) (h : Step cfg s e s') {fact : StripeFact}
    (hFact : e.fact cfg s.world.db = some fact) :
    s'.world.db.subscriptions = fact.apply s.world.db.subscriptions := by
  unfold Event.fact at hFact
  split at hFact
  · rename_i eventId eventType dataObject response hRequest hOutcome
    have hRun := (h.committed hOutcome).1
    rw [hRequest] at hRun
    obtain ⟨⟨⟩, m, hProcess, hRun⟩ := Handler.run_bind_ok.mp hRun
    obtain ⟨-, rfl⟩ := Handler.run_pure_ok.mp hRun
    rw [processStripeEvent_fact hs.valid.subscriptionTenantId hProcess]
    split at hFact
    · cases hFact
    · rename_i hNew
      have hRead : factOf (e.ctx cfg).lib eventType dataObject = some fact := hFact
      rw [if_neg hNew, hRead]
      rfl
  · cases hFact

theorem Step.keepsBindings_of_noFact (hs : s.Sound cfg) (h : Step cfg s e s')
    (hFact : e.fact cfg s.world.db = none) : KeepsBindings s.world s'.world := by
  by_cases hParts : Part.subscriptions ∈ e.request.parts
  · cases hOutcome : e.outcome with
    | error => exact .of_eq (by rw [h.rolledBack hOutcome])
    | ok response =>
      have hRun := (h.committed hOutcome).1
      unfold Event.fact at hFact
      generalize e.request = r at hRun hParts hFact
      cases r with
      | createWorkspace token name =>
        have hWithin : Handler.Within KeepsBindings (handle (e.ctx cfg) (.createWorkspace token name)) :=
          .bind ((requireVerified_touches _).keepsBindings (by simp)) fun _ =>
            .bind (createWorkspace_keepsBindings _ _) fun _ => .pure _
        exact hWithin.of_ok hRun
      | createCheckoutSession token tenant planId =>
        have hWithin : Handler.Within KeepsBindings
            (handle (e.ctx cfg) (.createCheckoutSession token tenant planId)) :=
          .bind ((requireBillingAccess_touches _ _).keepsBindings (by simp)) fun _ =>
            .bind (createCheckoutSession_keepsBindings _ _) fun _ => .pure _
        exact hWithin.of_ok hRun
      | stripeEvent eventId eventType dataObject =>
        obtain ⟨⟨⟩, m, hProcess, hRun⟩ := Handler.run_bind_ok.mp hRun
        obtain ⟨-, rfl⟩ := Handler.run_pure_ok.mp hRun
        refine .of_eq ((processStripeEvent_fact hs.valid.subscriptionTenantId hProcess).trans ?_)
        simp only [hOutcome] at hFact
        split at hFact
        · rename_i hRecorded
          rw [if_pos hRecorded]
        · rename_i hNew
          have hRead : factOf (e.ctx cfg).lib eventType dataObject = none := hFact
          rw [if_neg hNew, hRead]
          rfl
      | _ => simp [Request.parts] at hParts
  · exact .of_eq (h.same hParts)

end Steps

/-! ### Events that are recorded -/

section Recording

variable {dataObject : Json}

theorem ok_of_toOption {ε α : Type} {x : Except ε α} {a : α} (h : x.toOption = some a) :
    x = .ok a := by
  cases x with
  | error => cases h
  | ok => exact congrArg _ (Option.some.inj h)

/-- An update of columns that no constraint is on. -/
theorem Db.Valid.updateSubscription {db : Db} (h : db.Valid) {tenantId : Uuid}
    {f : TenantSubscription → TenantSubscription} (hTenant : ∀ s, (f s).tenantId = s.tenantId)
    (hPlan : ∀ s ∈ db.subscriptions, s.tenantId = tenantId → ∃ p ∈ db.plans, p.id = (f s).planId) :
    (db.updateSubscription tenantId f).Valid := by
  have hTenants : (db.updateSubscription tenantId f).subscriptions.map (fun s => s.tenantId) =
      db.subscriptions.map fun s => s.tenantId := Db.map_update hTenant _
  refine { h with
    subscriptionTenantId := hTenants ▸ h.subscriptionTenantId
    subscriptionTenant := fun s hs => ?_
    subscriptionPlan := fun s hs => ?_ }
  · obtain ⟨s₀, hs₀, rfl⟩ := List.mem_map.mp hs
    split
    · rw [hTenant]
      exact h.subscriptionTenant s₀ hs₀
    · exact h.subscriptionTenant s₀ hs₀
  · obtain ⟨s₀, hs₀, rfl⟩ := List.mem_map.mp hs
    split
    · exact hPlan s₀ hs₀ ‹_›
    · exact h.subscriptionPlan s₀ hs₀

/-- A new event may be recorded. -/
theorem Db.Valid.record {db : Db} (h : db.Valid) {event : WebhookEvent}
    (hNew : ¬db.Recorded event.stripeEventId) :
    ({ db with webhookEvents := db.webhookEvents ++ [event] } : Db).Valid :=
  { h with
    stripeEventId := Db.nodup_map_concat.mpr
      ⟨h.stripeEventId, fun e he hId => hNew ⟨e, he, hId⟩⟩ }

/-- A new event whose handler returns is recorded. -/
theorem serve_stripeEvent {eventId eventType : String} {db : Db} {cache : Redis}
    (hNew : ¬w.db.Recorded eventId)
    (hRun : (handleStripeEvent c eventType dataObject).run w = .ok () ⟨db, cache⟩)
    (hValid : db.Valid) (hEvents : db.webhookEvents = w.db.webhookEvents) :
    serve c (.stripeEvent eventId eventType dataObject) w = (.ok .done,
      ⟨{ db with webhookEvents := db.webhookEvents ++
          [{ stripeEventId := eventId, eventType, processedAt := c.now }] }, cache⟩) := by
  have hUnrecorded : (w.db.webhookEvents.find? fun e => e.stripeEventId = eventId) = none :=
    List.find?_eq_none.mpr fun e he hId => hNew ⟨e, he, by simpa using hId⟩
  have hRecorded : ({ db with webhookEvents := db.webhookEvents ++
      [{ stripeEventId := eventId, eventType, processedAt := c.now }] } : Db).Valid := by
    refine @Db.Valid.record db hValid ⟨eventId, eventType, c.now⟩ ?_
    rintro ⟨e, he, hId⟩
    exact hNew ⟨e, hEvents ▸ he, hId⟩
  refine serve_of_run ?_ hRecorded
  rw [handle, processStripeEvent, Handler.run_bind_ok]
  refine ⟨(), _, ?_, rfl⟩
  rw [Handler.run_query_bind, hUnrecorded]
  dsimp only
  rw [Handler.run_bind, hRun]
  dsimp only
  rw [recordStripeEvent, Handler.run_exec_bind]
  exact run_flush_ok.mpr ⟨hRecorded, rfl⟩

end Recording

/-! ### A tenant on the free plan -/

/-- The sample deployment, where the ids 2 and 7 can be read back from their texts. -/
def billingConfig : Config where
  settings := {}
  lib := { sampleLib with parseUuid := fun text => [("2", ⟨2⟩), ("7", ⟨7⟩)].lookup text }

def billingTenant : Tenant where
  id := ⟨7⟩
  name := "Acme"
  slug := "acme"

def paidPlan : Plan where
  id := ⟨2⟩
  slug := "team"
  monthlyFeeCents := 4900
  memberCap := 10
  createdAt := 0

/-- Alice owns a tenant on the free plan. -/
def billingStart : Sys := sampleStart
  { users := [sampleUser]
    tenants := [billingTenant]
    memberships :=
      [{ id := ⟨1⟩, userId := ⟨1⟩, tenantId := ⟨7⟩, role := .owner, createdAt := 0 }]
    plans := [samplePlan, paidPlan]
    subscriptions := [{ tenantId := ⟨7⟩, planId := ⟨1⟩, status := .free }] }

theorem billingStart_initial : Initial billingStart := ⟨by decide, rfl, rfl, rfl, rfl, rfl, rfl⟩

def billingDraws (n : Nat) : Draws :=
  { sampleDraws n with
    stripeCustomerId := some "cus_1"
    checkoutSession := some ("https://checkout.stripe.com/pay", "cs_" ++ toString n) }

def Sys.billing (s : Sys) (now : Nat) (r : Request) : Event × Sys :=
  s.serve billingConfig now (billingDraws s.log.length) r

def completedEvent (eventId subscription : String) : Request :=
  .stripeEvent eventId "checkout.session.completed" (.obj
    [("metadata", .obj [("tenant_id", .str "7"), ("plan_id", .str "2")]),
      ("subscription", .str subscription)])

def deletedEvent (eventId subscription : String) : Request :=
  .stripeEvent eventId "customer.subscription.deleted" (.obj [("id", .str subscription)])

end WxcodeAdm
