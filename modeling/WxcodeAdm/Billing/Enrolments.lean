import WxcodeAdm.Billing.Catalog
import WxcodeAdm.Lib.Enrolment
import WxcodeAdm.Lib.Keyed
import WxcodeAdm.Lib.Simulation

/-! The rows of `tenant_subscriptions` as enrolments of `Lib.Enrolment`, one for each tenant: every
step of the backend makes one act on the enrolment of a tenant, or leaves it. -/

namespace WxcodeAdm

open Lib

def SubscriptionStatus.standing : SubscriptionStatus → BillingStanding
  | .free => .free
  | .active => .paid
  | .pastDue => .overdue
  | .canceled => .ended

def TenantSubscription.enrolment (s : TenantSubscription) :
    Enrolment Uuid String String Int where
  plan := s.planId
  customer := s.stripeCustomerId
  contract := s.stripeSubscriptionId
  standing := s.status.standing
  start := s.currentPeriodStart
  finish := s.currentPeriodEnd
  used := s.tokensUsedThisPeriod

/-- The enrolment of a tenant. -/
def Db.enrolment (db : Db) (tenantId : Uuid) : Option (Enrolment Uuid String String Int) :=
  (lookup (fun s => s.tenantId) tenantId db.subscriptions).map TenantSubscription.enrolment

theorem SubscriptionStatus.standing_overdue (status : SubscriptionStatus) :
    status.standing = .overdue ↔ status = .pastDue := by
  cases status <;> simp [standing]

/-! ### What a fact does to an enrolment -/

namespace StripeFact

/-- The rows that a fact is about. -/
def About : StripeFact → TenantSubscription → Prop
  | completed tenantId _ _, row => row.tenantId = tenantId
  | updated subscription _ _ _, row | deleted subscription, row | paid subscription, row
  | failed subscription, row => row.stripeSubscriptionId = some subscription

instance (fact : StripeFact) (row : TenantSubscription) : Decidable (fact.About row) := by
  unfold About
  split <;> infer_instance

/-- A fact is about the subscription of a tenant. -/
def Concerns (fact : StripeFact) (db : Db) (tenantId : Uuid) : Prop :=
  ∃ row ∈ db.subscriptions, row.tenantId = tenantId ∧ fact.About row

/-- What it makes of a row that it is about. -/
def change : StripeFact → TenantSubscription → TenantSubscription
  | completed _ planId subscription, row =>
    { row with stripeSubscriptionId := subscription, planId, status := .active }
  | updated _ status start finish, row => syncSubscription row status start finish row
  | deleted _, row => { row with status := .canceled }
  | paid _, row => if row.status = .pastDue then { row with status := .active } else row
  | failed _, row => { row with status := .pastDue }

def act : StripeFact → BillingAct Uuid String String Int
  | completed _ planId subscription => .buys planId subscription
  | updated subscription status start finish =>
    .syncs subscription (status.map SubscriptionStatus.standing) start finish
  | deleted subscription => .ends subscription
  | paid subscription => .settles subscription
  | failed subscription => .fails subscription

variable {fact : StripeFact} {row : TenantSubscription}

theorem apply_eq (fact : StripeFact) (rows : List TenantSubscription) :
    fact.apply rows = rows.map fun row => if fact.About row then fact.change row else row := by
  cases fact <;> rfl

theorem change_tenantId (fact : StripeFact) (row : TenantSubscription) :
    (fact.change row).tenantId = row.tenantId := by
  cases fact with
  | paid =>
    rw [change]
    split <;> rfl
  | _ => rfl

/-- No event tells that a subscription is free. -/
def NotFree : StripeFact → Prop
  | updated _ status _ _ => status ≠ some .free
  | _ => True

theorem step (hNotFree : fact.NotFree) (hAbout : fact.About row) :
    Enrolment.Step (some row.enrolment) fact.act (some (fact.change row).enrolment) := by
  cases fact with
  | completed => exact ⟨rfl, rfl⟩
  | updated subscription status start finish =>
    refine ⟨⟨hAbout, ?_⟩, ?_⟩
    · cases status with
      | none => simp
      | some status => cases status <;> simp_all [NotFree, SubscriptionStatus.standing]
    · cases status <;> rfl
  | deleted | failed => exact ⟨hAbout, rfl⟩
  | paid =>
    refine ⟨hAbout, ?_⟩
    by_cases hPastDue : row.status = .pastDue
    · simp only [change, if_pos hPastDue]
      simp [Enrolment.after, Enrolment.next, Enrolment.sets, Enrolment.change, act,
        TenantSubscription.enrolment, SubscriptionStatus.standing, hPastDue]
    · simp only [change, if_neg hPastDue]
      simp [Enrolment.after, Enrolment.next, Enrolment.sets, Enrolment.change, act,
        TenantSubscription.enrolment, SubscriptionStatus.standing_overdue, hPastDue]

/-- A fact makes its act on the enrolment of a tenant that it is about, and leaves the others. -/
theorem enrols {db db' : Db} (hNotFree : fact.NotFree)
    (hRows : db'.subscriptions = fact.apply db.subscriptions) (tenantId : Uuid) :
    db'.enrolment tenantId = db.enrolment tenantId ∨ fact.Concerns db tenantId ∧
      Enrolment.Step (db.enrolment tenantId) fact.act (db'.enrolment tenantId) := by
  have hTenant (row : TenantSubscription) :
      (if fact.About row then fact.change row else row).tenantId = row.tenantId := by
    split
    · exact fact.change_tenantId row
    · rfl
  rw [Db.enrolment, Db.enrolment, hRows, fact.apply_eq, lookup_map hTenant]
  cases hFound : lookup (fun s => s.tenantId) tenantId db.subscriptions with
  | none => exact .inl rfl
  | some row =>
    rw [Option.map_some, Option.map_some, Option.map_some]
    by_cases hAbout : fact.About row
    · obtain ⟨hRow, hIn⟩ := lookup_some hFound
      rw [if_pos hAbout]
      exact .inr ⟨⟨row, hRow, hIn, hAbout⟩, step hNotFree hAbout⟩
    · rw [if_neg hAbout]
      exact .inl rfl

end StripeFact

theorem readCompleted_notFree {lib : Library} {dataObject : Json} {fact : StripeFact}
    (h : readCompleted lib dataObject = some fact) : fact.NotFree := by
  simp only [readCompleted, Option.bind_eq_bind, Option.bind_eq_some_iff] at h
  obtain ⟨_, -, _, -, _, -, h⟩ := h
  split at h
  · obtain ⟨_, -, h⟩ := Option.bind_eq_some_iff.mp h
    obtain ⟨_, -, h⟩ := Option.bind_eq_some_iff.mp h
    obtain ⟨_, -, h⟩ := Option.bind_eq_some_iff.mp h
    obtain ⟨_, -, h⟩ := Option.bind_eq_some_iff.mp h
    obtain rfl := Option.some.inj h
    trivial
  · cases h

theorem readUpdated_notFree {dataObject : Json} {fact : StripeFact}
    (h : readUpdated dataObject = some fact) : fact.NotFree := by
  simp only [readUpdated, Option.bind_eq_bind, Option.bind_eq_some_iff] at h
  obtain ⟨_, -, h⟩ := h
  split at h
  · obtain ⟨_, -, h⟩ := Option.bind_eq_some_iff.mp h
    obtain ⟨status, -, h⟩ := Option.bind_eq_some_iff.mp h
    obtain ⟨_, -, h⟩ := Option.bind_eq_some_iff.mp h
    obtain ⟨_, -, h⟩ := Option.bind_eq_some_iff.mp h
    obtain ⟨_, -, h⟩ := Option.bind_eq_some_iff.mp h
    obtain ⟨_, -, h⟩ := Option.bind_eq_some_iff.mp h
    obtain rfl := Option.some.inj h
    exact mapStripeStatus_ne_free status
  · cases h

theorem readDeleted_notFree {dataObject : Json} {fact : StripeFact}
    (h : readDeleted dataObject = some fact) : fact.NotFree := by
  simp only [readDeleted, Option.bind_eq_bind, Option.bind_eq_some_iff] at h
  obtain ⟨_, -, h⟩ := h
  split at h
  · obtain ⟨_, -, h⟩ := Option.bind_eq_some_iff.mp h
    obtain rfl := Option.some.inj h
    trivial
  · cases h

theorem readInvoice_notFree {of : String → StripeFact} (hOf : ∀ text, (of text).NotFree)
    {dataObject : Json} {fact : StripeFact} (h : readInvoice of dataObject = some fact) :
    fact.NotFree := by
  simp only [readInvoice, Option.bind_eq_bind, Option.bind_eq_some_iff,
    Option.map_eq_some_iff] at h
  obtain ⟨_, -, _, -, text, -, rfl⟩ := h
  exact hOf text

/-- What is read out of an event does not tell that a subscription is free. -/
theorem factOf_notFree {lib : Library} {eventType : String} {dataObject : Json} {fact : StripeFact}
    (h : factOf lib eventType dataObject = some fact) : fact.NotFree := by
  unfold factOf at h
  split at h
  · exact readCompleted_notFree h
  · exact readUpdated_notFree h
  · exact readDeleted_notFree h
  · exact @readInvoice_notFree .paid (fun _ => trivial) _ _ h
  · exact @readInvoice_notFree .failed (fun _ => trivial) _ _ h
  · cases h

/-! ### What the other requests do -/

section Requests

variable {c : Ctx} {w w' : World} {cache : Redis}

/-- The enrolment of a tenant that is founded is opened in the free plan of the time. -/
theorem createWorkspace_opens {user : User} {name : PyStr} {tenant : Tenant}
    {membership : TenantMembership} (hValid : w.db.Valid)
    (hRun : (createWorkspace c user name).run ⟨w.db, cache⟩ = .ok (tenant, membership) w') :
    ∃ plan, w.db.freePlan = some plan ∧ ∀ tenantId,
      tenant.id = tenantId ∧ Enrolment.Step (w.db.enrolment tenantId)
        (.opens plan.id c.draws.stripeCustomerId) (w'.db.enrolment tenantId) ∨
      w'.db.enrolment tenantId = w.db.enrolment tenantId := by
  obtain ⟨slug, w₁, hSlug, hRun⟩ := Handler.run_bind_ok.mp hRun
  simp only [generateUniqueSlug, Handler.run_query_bind, Handler.run_orRaise_ok] at hSlug
  obtain ⟨-, rfl⟩ := hSlug
  simp only [Handler.run_exec_bind, run_flush_bind_ok, bootstrapFreeSubscription, bind_assoc,
    Handler.run_query_bind, Handler.run_orRaise_bind_ok, Handler.run_pure_ok,
    Prod.mk.injEq] at hRun
  obtain ⟨_, -, hTenants, -, plan, hPlan, -, ⟨rfl, rfl⟩, rfl⟩ := hRun
  have hFresh := (Db.nodup_map_concat.mp hTenants.tenantId).2
  have hNew : lookup (fun s => s.tenantId) c.draws.tenantId w.db.subscriptions = none :=
    lookup_none.mpr fun s hs hSame => by
      obtain ⟨t, ht, hId⟩ := hValid.subscriptionTenant s hs
      exact hFresh t ht (hId.trans hSame)
  refine ⟨plan, hPlan, fun tenantId => ?_⟩
  have hRow : lookup (fun s => s.tenantId) tenantId (w.db.subscriptions ++
      [({ tenantId := c.draws.tenantId, planId := plan.id,
          stripeCustomerId := c.draws.stripeCustomerId, status := .free } : TenantSubscription)]) =
      _ := lookup_insert hNew
  by_cases hSame : c.draws.tenantId = tenantId
  · rw [if_pos hSame] at hRow
    refine .inl ⟨hSame, ?_, ?_⟩
    · subst hSame
      simp [Enrolment.Allows, Db.enrolment, hNew]
    · simp only [Db.enrolment, hRow]
      rfl
  · rw [if_neg hSame] at hRow
    exact .inr (by simp only [Db.enrolment, hRow])

/-- A checkout leaves all enrolments, or registers the customer of the tenant. -/
theorem createCheckoutSession_registers {inTenant planId : Uuid} {checkout : String × String}
    (hRun : (createCheckoutSession c inTenant planId).run ⟨w.db, cache⟩ = .ok checkout w')
    (tenantId : Uuid) :
    inTenant = tenantId ∧ Enrolment.Step (w.db.enrolment tenantId)
        (.registers c.draws.stripeCustomerId) (w'.db.enrolment tenantId) ∨
      w'.db.enrolment tenantId = w.db.enrolment tenantId := by
  simp only [createCheckoutSession, Handler.run_query_bind, Handler.run_orRaise_bind_ok,
    Handler.run_ensure_bind_ok] at hRun
  obtain ⟨row, hRow, -, -, -, -, hRun⟩ := hRun
  obtain ⟨-, rfl⟩ : row ∈ w.db.subscriptions ∧ row.tenantId = inTenant := lookup_some hRow
  obtain ⟨⟨⟩, m, hCustomer, hRun⟩ := Handler.run_bind_ok.mp hRun
  obtain ⟨-, rfl⟩ := Handler.run_orRaise_ok.mp hRun
  simp only [ensureStripeCustomer, Handler.run_ite_ok, Handler.run_exec, Handler.run_pure_ok,
    Outcome.ok.injEq, true_and] at hCustomer
  rcases hCustomer with ⟨-, rfl⟩ | ⟨-, rfl⟩
  · simp only [Db.enrolment, Db.updateSubscription]
    rw [lookup_map fun s => by split <;> rfl]
    by_cases hSame : row.tenantId = tenantId
    · subst hSame
      rw [show lookup (fun s => s.tenantId) row.tenantId w.db.subscriptions = some row from hRow]
      refine .inl ⟨rfl, rfl, ?_⟩
      rw [Option.map_some, if_pos rfl]
      rfl
    · refine .inr ?_
      cases hFound : lookup (fun s => s.tenantId) tenantId w.db.subscriptions with
      | none => rfl
      | some other =>
        obtain ⟨-, rfl⟩ := lookup_some hFound
        rw [Option.map_some, if_neg (Ne.symm hSame)]
  · exact .inr rfl

/-- A delivery that returns is recorded, if its event was not, and no other. -/
theorem processStripeEvent_records {eventId eventType : String} {dataObject : Json}
    (hRun : (processStripeEvent c eventId eventType dataObject).run w = .ok () w') :
    w'.db.webhookEvents = if w.db.Recorded eventId then w.db.webhookEvents
      else w.db.webhookEvents ++ [⟨eventId, eventType, c.now⟩] := by
  simp only [processStripeEvent, Handler.run_query_bind] at hRun
  split at hRun
  · rename_i event hFound
    obtain ⟨-, rfl⟩ := Handler.run_pure_ok.mp hRun
    rw [if_pos ⟨event, List.mem_of_find?_eq_some hFound, by simpa using List.find?_some hFound⟩]
  · rename_i hNone
    obtain ⟨⟨⟩, m, hHandle, hRun⟩ := Handler.run_bind_ok.mp hRun
    simp only [recordStripeEvent, Handler.run_exec_bind, run_flush_ok] at hRun
    obtain ⟨-, rfl⟩ := hRun
    have hEvents : m.db.webhookEvents = w.db.webhookEvents :=
      (handleStripeEvent_touches eventType dataObject .webhookEvents (by simp)).of_ok hHandle
    rw [if_neg (by simpa [Db.Recorded] using hNone), hEvents]

end Requests

/-! ### Steps -/

/-- How an action makes an act on the enrolment of a tenant: its workspace is founded, a member with
access to its billing checks out, or an event of Stripe tells a fact about its subscription. -/
inductive Bills (cfg : Config) (b : Backend) (tenantId : Uuid) :
    Action → BillingAct Uuid String String Int → Prop
  | founded {e token name tenant membership plan}
      (request : e.request = .createWorkspace token name)
      (response : e.outcome = .ok (.workspace tenant membership)) (inTenant : tenant.id = tenantId)
      (free : b.sys.world.db.freePlan = some plan) :
      Bills cfg b tenantId (.request e) (.opens plan.id e.draws.stripeCustomerId)
  | checkedOut {e token header planId tenant member response}
      (request : e.request = .createCheckoutSession token header planId)
      (outcome : e.outcome = .ok response)
      (guard : ∃ m, (requireBillingAccess (e.ctx cfg) token header).run b.sys.world =
        .ok (tenant, member) m) (inTenant : tenant.id = tenantId) :
      Bills cfg b tenantId (.request e) (.registers e.draws.stripeCustomerId)
  | told {e fact} (tells : e.fact cfg b.sys.world.db = some fact)
      (concerns : fact.Concerns b.sys.world.db tenantId) :
      Bills cfg b tenantId (.request e) fact.act

theorem Event.fact_notFree {cfg : Config} {db : Db} (e : Event) {fact : StripeFact}
    (h : e.fact cfg db = some fact) : fact.NotFree := by
  unfold Event.fact at h
  split at h
  · split at h
    · cases h
    · exact factOf_notFree h
  · cases h

section Steps

variable {cfg : Config} {s s' : Sys} {e : Event} {b b' : Backend} {action : Action}

/-- A request makes one act on the enrolment of a tenant, or leaves it. -/
theorem Step.enrols (hs : s.Sound cfg) (h : Step cfg s e s') (stripe : Stripe) (tenantId : Uuid) :
    s'.world.db.enrolment tenantId = s.world.db.enrolment tenantId ∨
      ∃ act, Enrolment.Step (s.world.db.enrolment tenantId) act (s'.world.db.enrolment tenantId) ∧
        Bills cfg ⟨s, stripe⟩ tenantId (.request e) act := by
  cases hFact : e.fact cfg s.world.db with
  | some fact =>
    rcases fact.enrols (e.fact_notFree hFact) (h.subscriptions_of_fact hs hFact) tenantId with
      hSame | ⟨hConcerns, hStep⟩
    · exact .inl hSame
    · exact .inr ⟨fact.act, hStep, .told hFact hConcerns⟩
  | none =>
    have hKept (hRows : s'.world.db.subscriptions = s.world.db.subscriptions) :
        s'.world.db.enrolment tenantId = s.world.db.enrolment tenantId := by
      rw [Db.enrolment, hRows, Db.enrolment]
    by_cases hParts : Part.subscriptions ∈ e.request.parts
    · cases hOutcome : e.outcome with
      | error => exact .inl (by rw [h.rolledBack hOutcome])
      | ok response =>
        have hRun := (h.committed hOutcome).1
        cases hRequest : e.request with
        | createWorkspace token name =>
          rw [hRequest] at hRun
          obtain ⟨user, ⟨db, cache⟩, hUser, hRun⟩ := Handler.run_bind_ok.mp hRun
          obtain ⟨⟨tenant, membership⟩, m', hCreate, hRun⟩ := Handler.run_bind_ok.mp hRun
          obtain ⟨rfl, rfl⟩ := Handler.run_pure_ok.mp hRun
          obtain rfl : db = s.world.db := (requireVerified_ok hUser).1
          obtain ⟨plan, hPlan, hOpens⟩ := createWorkspace_opens hs.valid hCreate
          rcases hOpens tenantId with ⟨hTenant, hStep⟩ | hSame
          · exact .inr ⟨_, hStep, .founded hRequest hOutcome hTenant hPlan⟩
          · exact .inl hSame
        | createCheckoutSession token header planId =>
          rw [hRequest] at hRun
          obtain ⟨⟨tenant, member⟩, ⟨db, cache⟩, hGuard, hRun⟩ := Handler.run_bind_ok.mp hRun
          obtain ⟨checkout, m', hCheckout, hRun⟩ := Handler.run_bind_ok.mp hRun
          obtain ⟨rfl, rfl⟩ := Handler.run_pure_ok.mp hRun
          obtain rfl : db = s.world.db := requireBillingAccess_db hGuard
          rcases createCheckoutSession_registers hCheckout tenantId with ⟨hTenant, hStep⟩ | hSame
          · exact .inr ⟨_, hStep, .checkedOut hRequest hOutcome ⟨_, hGuard⟩ hTenant⟩
          · exact .inl hSame
        | stripeEvent eventId eventType dataObject =>
          rw [hRequest] at hRun
          obtain ⟨⟨⟩, m, hProcess, hRun⟩ := Handler.run_bind_ok.mp hRun
          obtain ⟨-, rfl⟩ := Handler.run_pure_ok.mp hRun
          refine .inl (hKept ((processStripeEvent_fact hs.valid.subscriptionTenantId hProcess).trans
            ?_))
          simp only [Event.fact, hRequest, hOutcome] at hFact
          split at hFact
          · rename_i hRecorded
            rw [if_pos hRecorded]
          · rename_i hNew
            have hRead : factOf (e.ctx cfg).lib eventType dataObject = none := hFact
            rw [if_neg hNew, hRead]
            rfl
        | _ => simp [hRequest, Request.parts] at hParts
    · exact .inl (hKept (h.same hParts))

theorem BackendStep.enrols (hs : b.sys.Sound cfg) (h : BackendStep cfg b action b')
    (tenantId : Uuid) : b'.sys.world.db.enrolment tenantId = b.sys.world.db.enrolment tenantId ∨
      ∃ act, Enrolment.Step (b.sys.world.db.enrolment tenantId) act
          (b'.sys.world.db.enrolment tenantId) ∧
        Bills cfg b tenantId action act := by
  cases h with
  | request step => exact step.enrols hs b.stripe tenantId
  | plan _ served =>
    have hRows := congrArg Db.subscriptions (servePlan_frame served)
    exact .inl (by simp only [Db.enrolment, hRows])

/-! ### Events that tell something -/

/-- The id of the Stripe event by which a request tells a fact. -/
def Event.tells (cfg : Config) (db : Db) (e : Event) : Option String :=
  match e.request with
  | .stripeEvent eventId _ _ => (e.fact cfg db).map fun _ => eventId
  | _ => none

/-- A Stripe event was processed, and that was committed. -/
def Event.Delivers (e : Event) (eventId : String) : Prop :=
  ∃ eventType dataObject response, e.request = .stripeEvent eventId eventType dataObject ∧
    e.outcome = .ok response

theorem Event.tells_some {db : Db} {eventId : String} (h : e.tells cfg db = some eventId) :
    e.Delivers eventId ∧ ¬db.Recorded eventId := by
  unfold Event.tells at h
  split at h
  · rename_i id eventType dataObject hRequest
    obtain ⟨fact, hFact, rfl⟩ := Option.map_eq_some_iff.mp h
    unfold Event.fact at hFact
    split at hFact
    · rename_i eventId' eventType' dataObject' response hRequest' hOutcome
      obtain ⟨rfl, rfl, rfl⟩ := Request.stripeEvent.inj (hRequest.symm.trans hRequest')
      split at hFact
      · cases hFact
      · exact ⟨⟨_, _, response, hRequest, hOutcome⟩, ‹_›⟩
    · cases hFact
  · cases h

/-- A recorded event stays recorded, and one that is processed is recorded. -/
theorem Step.records (h : Step cfg s e s') {eventId : String}
    (hEvent : s.world.db.Recorded eventId ∨ e.Delivers eventId) :
    s'.world.db.Recorded eventId := by
  by_cases hParts : Part.webhookEvents ∈ e.request.parts
  · cases hOutcome : e.outcome with
    | error =>
      rw [h.rolledBack hOutcome]
      refine hEvent.resolve_right ?_
      rintro ⟨_, _, _, -, hOk⟩
      rw [hOutcome] at hOk
      cases hOk
    | ok response =>
      have hRun := (h.committed hOutcome).1
      cases hRequest : e.request with
      | stripeEvent id eventType dataObject =>
        rw [hRequest] at hRun
        obtain ⟨⟨⟩, m, hProcess, hRun⟩ := Handler.run_bind_ok.mp hRun
        obtain ⟨-, rfl⟩ := Handler.run_pure_ok.mp hRun
        rw [Db.Recorded, processStripeEvent_records hProcess]
        by_cases hKnown : s.world.db.Recorded id
        · rw [if_pos hKnown]
          rcases hEvent with hRecorded | ⟨_, _, _, hSame, -⟩
          · exact hRecorded
          · obtain ⟨rfl, -, -⟩ := Request.stripeEvent.inj (hRequest.symm.trans hSame)
            exact hKnown
        · rw [if_neg hKnown]
          rcases hEvent with ⟨event, hMem, hId⟩ | ⟨_, _, _, hSame, -⟩
          · exact ⟨event, List.mem_append_left _ hMem, hId⟩
          · obtain ⟨rfl, -, -⟩ := Request.stripeEvent.inj (hRequest.symm.trans hSame)
            exact ⟨_, List.mem_append_right _ (List.mem_singleton.mpr rfl), rfl⟩
      | _ => simp [hRequest, Request.parts] at hParts
  · have hEvents : s'.world.db.webhookEvents = s.world.db.webhookEvents := h.same hParts
    rw [Db.Recorded, hEvents]
    refine hEvent.resolve_right ?_
    rintro ⟨_, _, _, hRequest, -⟩
    simp [hRequest, Request.parts] at hParts

/-- The event by which an action tells a fact. -/
def Action.tells (cfg : Config) (b : Backend) : Action → Option String
  | .request e => e.tells cfg b.sys.world.db
  | .plan .. => none

theorem Action.tells_some {eventId : String} (h : action.tells cfg b = some eventId) :
    (∃ e, action = .request e ∧ e.Delivers eventId) ∧ ¬b.sys.world.db.Recorded eventId := by
  cases action with
  | request e =>
    obtain ⟨hDelivers, hNew⟩ := Event.tells_some h
    exact ⟨⟨e, rfl, hDelivers⟩, hNew⟩
  | plan => cases h

theorem BackendStep.records (h : BackendStep cfg b action b') {eventId : String}
    (hEvent : b.sys.world.db.Recorded eventId ∨ ∃ e, action = .request e ∧ e.Delivers eventId) :
    b'.sys.world.db.Recorded eventId := by
  cases h with
  | request step => exact step.records (hEvent.imp_right fun ⟨e, hIs, h⟩ => by cases hIs; exact h)
  | plan _ served =>
    have hEvents := congrArg Db.webhookEvents (servePlan_frame served)
    rcases hEvent with ⟨event, hMem, hId⟩ | ⟨_, hIs, -⟩
    · exact ⟨event, hEvents ▸ hMem, hId⟩
    · cases hIs

/-- Each event tells at most one fact in a run, and none that was recorded before does. -/
theorem tells_once {steps : List (Backend × Action)} (h : Run (BackendStep cfg) b steps b') :
    (steps.filterMap fun p => p.2.tells cfg p.1).Nodup ∧
      ∀ eventId ∈ steps.filterMap fun p => p.2.tells cfg p.1, ¬b.sys.world.db.Recorded eventId := by
  obtain ⟨hNodup, hNew, -⟩ := h.spent_once (fun b id => b.sys.world.db.Recorded id)
    (fun p => p.2.tells cfg p.1) (fun _ hTells => (Action.tells_some hTells).2)
    fun hStep hEvent => hStep.records (hEvent.imp_right fun hTells => (Action.tells_some hTells).1)
  exact ⟨hNodup, hNew⟩

end Steps

end WxcodeAdm
