import WxcodeAdm.Billing.Catalog
import WxcodeAdm.Guarantees.LiveSubscription

/-! A checkout that has been paid.  The plan is looked at when the session is created and written when
it is completed; in between, `delete_plan` asks for subscriptions on the plan, and not for sessions
that are open for it. -/

namespace WxcodeAdm

open Lib

/-- The step returned a session for the tenant and the plan. -/
def OpensSession (cfg : Config) (step : Backend × Action) (tenantId planId : Uuid) : Prop :=
  ∃ e token header url session tenant member m, step.2 = .request e ∧
    e.request = .createCheckoutSession token header planId ∧
    e.outcome = .ok (.checkout url session) ∧
    (requireBillingAccess (e.ctx cfg) token header).run step.1.sys.world = .ok (tenant, member) m ∧
    tenant.id = tenantId

/-- The data of a session that is completed, with the metadata that the session was created with. -/
structure Completes (lib : Library) (tenantId planId : Uuid) (subscription : Option String)
    (dataObject : Json) : Prop where
  metadata : ∃ metadata, dataObject.getD "metadata" (.obj []) = .ok metadata ∧
    metadata.get "tenant_id" = .ok (.str (lib.uuidText tenantId)) ∧
    metadata.get "plan_id" = .ok (.str (lib.uuidText planId))
  subscription : ∃ value, dataObject.get "subscription" = .ok value ∧ value.text = .ok subscription

/-- `uuid.UUID(str(id))` -/
def ReadsBack (lib : Library) (id : Uuid) : Prop :=
  lib.uuidText id ≠ "" ∧ lib.parseUuid (lib.uuidText id) = some id

def Db.ActiveOn (db : Db) (tenantId planId : Uuid) : Prop :=
  ∃ s ∈ db.subscriptions, s.tenantId = tenantId ∧ s.status = .active ∧ s.planId = planId

def Db.HasSubscription (db : Db) (tenantId : Uuid) : Prop :=
  ∃ s ∈ db.subscriptions, s.tenantId = tenantId

section Completion

variable {c : Ctx} {w : World} {tenantId planId : Uuid} {subscription : Option String}
  {dataObject : Json} {eventId : String}

/-- What `_handle_checkout_completed` writes. -/
def activated (db : Db) (tenantId planId : Uuid) (subscription : Option String) : Db :=
  db.updateSubscription tenantId fun s =>
    { s with stripeSubscriptionId := subscription, planId, status := .active }

theorem run_handleCheckoutCompleted (hTenant : ReadsBack c.lib tenantId)
    (hPlan : ReadsBack c.lib planId) (hData : Completes c.lib tenantId planId subscription dataObject)
    (hRow : w.db.HasSubscription tenantId) :
    (handleCheckoutCompleted c dataObject).run w =
      .ok () ⟨activated w.db tenantId planId subscription, w.cache⟩ := by
  obtain ⟨metadata, hMetadata, hTenantText, hPlanText⟩ := hData.metadata
  obtain ⟨value, hValue, hText⟩ := hData.subscription
  obtain ⟨row, hFound⟩ : ∃ row, w.db.subscriptionOf tenantId = some row := by
    obtain ⟨row, hRow, hSame⟩ := hRow
    exact Option.isSome_iff_exists.mp (List.find?_isSome.mpr ⟨row, hRow, by simpa using hSame⟩)
  have hTruthy : (Json.str (c.lib.uuidText tenantId)).truthy = true ∧
      (Json.str (c.lib.uuidText planId)).truthy = true :=
    ⟨decide_eq_true hTenant.1, decide_eq_true hPlan.1⟩
  have hTenantId : (Json.str (c.lib.uuidText tenantId)).uuid c.lib.parseUuid = .ok tenantId := by
    simp only [Json.uuid, hTenant.2]
  have hPlanId : (Json.str (c.lib.uuidText planId)).uuid c.lib.parseUuid = .ok planId := by
    simp only [Json.uuid, hPlan.2]
  rw [handleCheckoutCompleted, hMetadata, Handler.ofExcept_ok_bind, hTenantText,
    Handler.ofExcept_ok_bind, hPlanText, Handler.ofExcept_ok_bind, if_pos hTruthy, hTenantId,
    Handler.ofExcept_ok_bind, hPlanId, Handler.ofExcept_ok_bind, Handler.run_query_bind, hFound]
  dsimp only
  rw [hValue, Handler.ofExcept_ok_bind, hText, Handler.ofExcept_ok_bind]
  rfl

/-- While the plan is there, the event activates the subscription on it. -/
theorem serve_completed (hValid : w.db.Valid) (hTenant : ReadsBack c.lib tenantId)
    (hPlan : ReadsBack c.lib planId) (hData : Completes c.lib tenantId planId subscription dataObject)
    (hRow : w.db.HasSubscription tenantId) (hNew : ¬w.db.Recorded eventId)
    (hThere : ∃ p ∈ w.db.plans, p.id = planId) :
    (serve c (.stripeEvent eventId "checkout.session.completed" dataObject) w).2.db.ActiveOn
      tenantId planId := by
  have hRun := run_handleCheckoutCompleted hTenant hPlan hData hRow
  have hActivated : (activated w.db tenantId planId subscription).Valid :=
    hValid.updateSubscription (fun _ => rfl) fun _ _ _ => hThere
  rw [@serve_stripeEvent c w _ _ "checkout.session.completed" _ _ hNew hRun hActivated rfl]
  obtain ⟨row, hRow, hSame⟩ := hRow
  refine ⟨_, List.mem_map_of_mem hRow, ?_⟩
  rw [if_pos hSame]
  exact ⟨hSame, rfl, rfl⟩

end Completion

section Steps

variable {cfg : Config} {b b' b₀ : Backend} {action : Action} {steps : List (Backend × Action)}
  {tenantId planId : Uuid}

/-- No step takes the subscription of a tenant away. -/
theorem BackendStep.hasSubscription (hs : b.sys.Sound cfg) (hStep : BackendStep cfg b action b')
    (h : b.sys.world.db.HasSubscription tenantId) : b'.sys.world.db.HasSubscription tenantId := by
  obtain ⟨row, hRow, rfl⟩ := h
  obtain ⟨new, hNew⟩ := hStep.tenants_grow hs
  have hIn : row.tenantId ∈ b'.sys.world.db.subscriptions.map fun s => s.tenantId := by
    rw [hNew]
    exact List.mem_append_left _ (List.mem_map_of_mem hRow)
  exact List.mem_map.mp hIn

/-- A session is created for a tenant with a subscription. -/
theorem OpensSession.hasSubscription {step : Backend × Action}
    (hStep : BackendStep cfg step.1 step.2 b')
    (h : OpensSession cfg step tenantId planId) :
    step.1.sys.world.db.HasSubscription tenantId := by
  obtain ⟨e, token, header, url, session, tenant, member, m, hAction, hRequest, hOutcome, hGuard, rfl⟩ := h
  rw [hAction] at hStep
  cases hStep with
  | request hServed =>
    have hRun := (hServed.committed hOutcome).1
    rw [hRequest] at hRun
    obtain ⟨ctx, m', hGuard', hRun⟩ := Handler.run_bind_ok.mp hRun
    obtain ⟨hSame, rfl⟩ := Outcome.ok.inj (hGuard.symm.trans hGuard')
    subst hSame
    obtain ⟨pair, m', hCreate, -⟩ := Handler.run_bind_ok.mp hRun
    simp only [createCheckoutSession, Handler.run_query_bind, Handler.run_orRaise_bind_ok] at hCreate
    obtain ⟨row, hFound, -⟩ := hCreate
    have hDb : m.db = step.1.sys.world.db := requireBillingAccess_db hGuard
    exact ⟨row, hDb ▸ List.mem_of_find?_eq_some hFound, by simpa using List.find?_some hFound⟩

/-- A tenant for which a session was created keeps its subscription. -/
theorem OpensSession.stays (hs : b₀.sys.Sound cfg) (hRun : Run (BackendStep cfg) b₀ steps b)
    {step : Backend × Action} (hIn : step ∈ steps) (h : OpensSession cfg step tenantId planId) :
    b.sys.world.db.HasSubscription tenantId := by
  obtain ⟨pre, post, n, -, hPre, hStep, hPost⟩ := hRun.split step hIn
  refine ((Run.cons hStep hPost).invariant
    (I := fun b => b.sys.Sound cfg ∧ b.sys.world.db.HasSubscription tenantId) ?_
    ⟨Backend.sound_of_run hs hPre, h.hasSubscription hStep⟩).2
  rintro m l n ⟨hm, hRow⟩ hNext
  exact ⟨hNext.sound hm, hNext.hasSubscription hm hRow⟩

/-- After any run of requests and calls on the plans, an event that completes a session which a step
of the run returned, and that was not processed before, leaves the subscription of the tenant active
on the plan exactly when the plan is still there. -/
theorem paid_checkout_kept (hInit : Initial b₀.sys) (hRun : Run (BackendStep cfg) b₀ steps b)
    {step : Backend × Action} (hIn : step ∈ steps) (hSession : OpensSession cfg step tenantId planId)
    {e : Event} (hStep : BackendStep cfg b (.request e) b') {eventId : String} {dataObject : Json}
    {subscription : Option String}
    (hRequest : e.request = .stripeEvent eventId "checkout.session.completed" dataObject)
    (hNew : ¬b.sys.world.db.Recorded eventId)
    (hData : Completes cfg.lib tenantId planId subscription dataObject)
    (hTenant : ReadsBack cfg.lib tenantId) (hPlan : ReadsBack cfg.lib planId) :
    b'.sys.world.db.ActiveOn tenantId planId ↔ ∃ p ∈ b.sys.world.db.plans, p.id = planId := by
  have hs := Backend.sound_of_run hInit.sound hRun
  cases hStep with
  | @request _ s' served =>
    constructor
    · rintro ⟨row, hRow, -, -, hOn⟩
      obtain ⟨p, hp, hId⟩ := (served.valid hs).subscriptionPlan row hRow
      exact ⟨p, served.plans_same ▸ hp, hId.trans hOn⟩
    · intro hThere
      have hActive := serve_completed (c := e.ctx cfg) hs.valid hTenant hPlan hData
        (hSession.stays hInit.sound hRun hIn) hNew hThere
      have hServed := served.served
      rw [hRequest] at hServed
      rw [hServed] at hActive
      exact hActive

end Steps

/-! ### A plan that is deleted -/

def openStart : Backend := ⟨billingStart, {}⟩

def openSignedIn : Backend := ⟨billingSignedIn.2, {}⟩

def openSession : Backend := ⟨firstSession.2, {}⟩

/-- Nobody is on the plan yet, and it is deleted. -/
def planDeleted : Backend :=
  ⟨{ firstSession.2 with world := { firstSession.2.world with
      db := (servePlan billingConfig.lib {} (.delete ⟨2⟩) ⟨firstSession.2.world.db, {}⟩).2.db } }, {}⟩

/-- The customer has paid. -/
def openPaid : Event × Sys :=
  planDeleted.sys.billing (seconds 40) (completedEvent "evt_1" "sub_1")

def deletedSteps : List (Backend × Action) :=
  [(openStart, .request billingSignedIn.1), (openSignedIn, .request firstSession.1),
    (openSession, .plan {} (.delete ⟨2⟩))]

theorem deletedSteps_run : Run (BackendStep billingConfig) openStart deletedSteps planDeleted :=
  .cons (.request (.of_admits (by decide) (by trivial))) <|
    .cons (.request (.of_admits (by decide) (by trivial))) <|
    .single (.plan ⟨by simp, by simp, by simp⟩ rfl)

theorem openPaid_step :
    BackendStep billingConfig planDeleted (.request openPaid.1) ⟨openPaid.2, {}⟩ :=
  .request (.of_admits (by decide) (by trivial))

theorem firstSession_opens :
    OpensSession billingConfig (openSignedIn, .request firstSession.1) ⟨7⟩ ⟨2⟩ :=
  ⟨firstSession.1, billingToken, some "acme", _, _, billingTenant, _, _, rfl, rfl,
    firstSession_outcome, rfl, rfl⟩

theorem openPaid_completes : Completes billingConfig.lib ⟨7⟩ ⟨2⟩ (some "sub_1") (.obj
    [("metadata", .obj [("tenant_id", .str "7"), ("plan_id", .str "2")]),
      ("subscription", .str "sub_1")]) := ⟨⟨_, rfl, rfl, rfl⟩, _, rfl, rfl⟩

theorem seven_readsBack : ReadsBack billingConfig.lib ⟨7⟩ := ⟨by decide, rfl⟩

theorem two_readsBack : ReadsBack billingConfig.lib ⟨2⟩ := ⟨by decide, rfl⟩

/-- The session was paid, and the tenant is not on the plan. -/
theorem paid_checkout_lost :
    ¬∀ (cfg : Config) (b₀ b b' : Backend) (steps : List (Backend × Action)) (step : Backend × Action)
        (e : Event) (tenantId planId : Uuid) (eventId : String) (dataObject : Json)
        (subscription : Option String), Initial b₀.sys → Run (BackendStep cfg) b₀ steps b →
        step ∈ steps → OpensSession cfg step tenantId planId →
        BackendStep cfg b (.request e) b' →
        e.request = .stripeEvent eventId "checkout.session.completed" dataObject →
        ¬b.sys.world.db.Recorded eventId →
        Completes cfg.lib tenantId planId subscription dataObject → ReadsBack cfg.lib tenantId →
        ReadsBack cfg.lib planId → b'.sys.world.db.ActiveOn tenantId planId := by
  intro hClaim
  obtain ⟨row, hRow, -, hActive, -⟩ := hClaim billingConfig openStart planDeleted ⟨openPaid.2, {}⟩
    deletedSteps (openSignedIn, .request firstSession.1) openPaid.1 ⟨7⟩ ⟨2⟩ "evt_1" _ _
    billingStart_initial deletedSteps_run (by simp [deletedSteps]) firstSession_opens openPaid_step
    rfl (by decide) openPaid_completes seven_readsBack two_readsBack
  have hRows : openPaid.2.world.db.subscriptions =
      [⟨⟨7⟩, ⟨1⟩, some "cus_1", none, .free, none, none, 0⟩] := by decide
  rw [show (⟨openPaid.2, {}⟩ : Backend).sys.world.db.subscriptions = _ from hRows] at hRow
  obtain rfl := List.mem_singleton.mp hRow
  cases hActive

/-- The law at this event. -/
theorem paid_checkout_kept_deleted :
    openPaid.2.world.db.ActiveOn ⟨7⟩ ⟨2⟩ ↔ ∃ p ∈ planDeleted.sys.world.db.plans, p.id = ⟨2⟩ :=
  @paid_checkout_kept billingConfig planDeleted ⟨openPaid.2, {}⟩ openStart deletedSteps ⟨7⟩ ⟨2⟩
    billingStart_initial deletedSteps_run (openSignedIn, .request firstSession.1)
    (by simp [deletedSteps]) firstSession_opens openPaid.1 openPaid_step "evt_1" _ _ rfl (by decide)
    openPaid_completes seven_readsBack two_readsBack

end WxcodeAdm
