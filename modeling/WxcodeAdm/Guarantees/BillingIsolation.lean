import WxcodeAdm.Billing.Enrolments

/-! What a tenant sees of the billing in a run.  Its enrolment goes through a run of its own, in
which nothing happens but its founding, its checkouts, and what Stripe has told of it, once for each
event; and whether the service is refused to it is a matter of what was told last. -/

namespace WxcodeAdm

open Lib

def Backend.enrolment (b : Backend) (tenantId : Uuid) :
    Option (Enrolment Uuid String String Int) := b.sys.world.db.enrolment tenantId

/-- The acts of a run on the enrolment of one tenant, each with the enrolment that it was made on,
and by an action that makes it. -/
def BilledBy (cfg : Config) (tenantId : Uuid) (steps : List (Backend × Action))
    (acts : List (Option (Enrolment Uuid String String Int) ×
      BillingAct Uuid String String Int)) : Prop :=
  Makes (fun p act => act.1 = p.1.enrolment tenantId ∧ Bills cfg p.1 tenantId p.2 act.2) steps acts

variable {cfg : Config} {b b' : Backend} {steps : List (Backend × Action)} {tenantId : Uuid}

theorem enrolment_run (hSound : b.sys.Sound cfg) (hRun : Run (BackendStep cfg) b steps b')
    (tenantId : Uuid) :
    ∃ acts, Run Enrolment.Step (b.enrolment tenantId) acts (b'.enrolment tenantId) ∧
      BilledBy cfg tenantId steps acts :=
  hRun.simulates (f := fun b => b.enrolment tenantId) (I := fun b => b.sys.Sound cfg)
    (P := fun p act => Bills cfg p.1 tenantId p.2 act)
    (fun hs hStep => hStep.sound hs) (fun hs hStep => hStep.enrols hs tenantId) hSound

/-- The enrolment of a tenant is after a run what the acts on it have made of it, and no event of
Stripe has told a fact twice. -/
theorem billing_isolation (hSound : b.sys.Sound cfg) (hRun : Run (BackendStep cfg) b steps b') :
    (steps.filterMap fun p => p.2.tells cfg p.1).Nodup ∧
      ∀ tenantId, ∃ acts,
        Run Enrolment.Step (b.enrolment tenantId) acts (b'.enrolment tenantId) ∧
        BilledBy cfg tenantId steps acts ∧
        b'.enrolment tenantId =
          (acts.map fun p => p.2).foldl Enrolment.after (b.enrolment tenantId) := by
  refine ⟨(tells_once hRun).1, fun tenantId => ?_⟩
  obtain ⟨acts, hActs, hBilled⟩ := enrolment_run hSound hRun tenantId
  exact ⟨acts, hActs, hBilled, Enrolment.after_run hActs⟩

/-- The team has paid once, and then a payment fails. -/
def teamBought : Event × Sys := billingStart.billing (seconds 10) (completedEvent "evt_1" "sub_1")

def teamOverdue : Event × Sys :=
  teamBought.2.billing (seconds 20)
    (.stripeEvent "evt_2" "invoice.payment_failed" (.obj [("subscription", .str "sub_1")]))

/-- Alice, whose sessions the failure has ended, signs in again. -/
def overdueSignedIn : Event × Sys :=
  teamOverdue.2.billing (seconds 30) (.login "alice@example.com" "pw" none none none)

def overdueSteps : List (Backend × Action) :=
  [(⟨billingStart, {}⟩, .request teamBought.1), (⟨teamBought.2, {}⟩, .request teamOverdue.1),
    (⟨teamOverdue.2, {}⟩, .request overdueSignedIn.1)]

theorem overdue_run : Run (BackendStep billingConfig) ⟨billingStart, {}⟩ overdueSteps
    ⟨overdueSignedIn.2, {}⟩ :=
  .cons (.request (.of_admits (by decide) (by trivial))) <|
    .cons (.request (.of_admits (by decide) (by trivial))) <|
    .single (.request (.of_admits (by decide) (by trivial)))

theorem billing_isolation_overdue :
    (overdueSteps.filterMap fun p => p.2.tells billingConfig p.1).Nodup ∧
      ∀ tenantId, ∃ acts,
        Run Enrolment.Step ((⟨billingStart, {}⟩ : Backend).enrolment tenantId) acts
          ((⟨overdueSignedIn.2, {}⟩ : Backend).enrolment tenantId) ∧
        BilledBy billingConfig tenantId overdueSteps acts ∧
        (⟨overdueSignedIn.2, {}⟩ : Backend).enrolment tenantId = (acts.map fun p => p.2).foldl
          Enrolment.after ((⟨billingStart, {}⟩ : Backend).enrolment tenantId) :=
  billing_isolation billingStart_initial.sound overdue_run

/-! ### The service is refused -/

def paymentRequired : PyError :=
  .app "PAYMENT_REQUIRED" "Subscription payment required. Visit billing settings to resolve." 402

theorem SubscriptionStatus.barred_iff (status : SubscriptionStatus) :
    status.standing.Barred ↔ status = .pastDue ∨ status = .canceled := by
  cases status <;> simp [standing, BillingStanding.Barred]

/-- `require_active_subscription` behind the guard of the tenant. -/
theorem run_requireActiveSubscription {c : Ctx} {token : Bearer} {header : Option String}
    {w m : World} {tenant : Tenant} {member : TenantMembership}
    (hContext : (getTenantContext c token header).run w = .ok (tenant, member) m) :
    (requireActiveSubscription c token header).run w = .error paymentRequired m ↔
      w.db.enrolment tenant.id = none ∨
        ∃ s ∈ w.db.enrolment tenant.id, s.standing.Barred := by
  have hDb : m.db = w.db := (getTenantContext_ok hContext).1
  have hFound : w.db.enrolment tenant.id =
      (m.db.subscriptionOf tenant.id).map TenantSubscription.enrolment := by rw [hDb]; rfl
  rw [requireActiveSubscription, Handler.run_bind, hContext, hFound]
  simp only [Handler.run_query_bind]
  cases m.db.subscriptionOf tenant.id with
  | none => exact iff_of_true rfl (.inl rfl)
  | some row =>
    rw [Handler.run_bind, Handler.run_orRaise_some]
    dsimp only
    rw [Handler.run_bind, enforceActiveSubscription, Handler.run_ensure]
    simp only [Option.map_some, reduceCtorEq, false_or, Option.mem_def, Option.some.injEq,
      exists_eq_left']
    rw [TenantSubscription.enrolment, SubscriptionStatus.barred_iff]
    by_cases hGood : row.status ≠ .pastDue ∧ row.status ≠ .canceled
    · rw [if_pos hGood]
      exact iff_of_false (fun h => by cases h) fun h => h.elim hGood.1 hGood.2
    · rw [if_neg hGood]
      exact iff_of_true rfl (by rwa [not_and_or, not_not, not_not] at hGood)

/-- After a run a tenant that was not refused the service is refused it exactly if there is no
enrolment of it, or if the last standing that was set is one of those that bar it. -/
theorem billing_refused_iff (hSound : b.sys.Sound cfg) (hRun : Run (BackendStep cfg) b steps b')
    {c : Ctx} {token : Bearer} {header : Option String} {m : World} {tenant : Tenant}
    {member : TenantMembership}
    (hStart : ∀ s ∈ b.enrolment tenant.id, ¬s.standing.Barred)
    (hContext : (getTenantContext c token header).run b'.sys.world = .ok (tenant, member) m) :
    ∃ acts, Run Enrolment.Step (b.enrolment tenant.id) acts (b'.enrolment tenant.id) ∧
      BilledBy cfg tenant.id steps acts ∧
      ((requireActiveSubscription c token header).run b'.sys.world = .error paymentRequired m ↔
        b'.enrolment tenant.id = none ∨
          ∃ s ∈ (acts.filterMap Enrolment.said).getLast?, s.Barred) := by
  obtain ⟨acts, hActs, hBilled⟩ := enrolment_run hSound hRun tenant.id
  refine ⟨acts, hActs, hBilled, (run_requireActiveSubscription hContext).trans ?_⟩
  exact or_congr_right (Enrolment.barred_iff hActs hStart)

def overdueToken : Payload where
  sub := ⟨1⟩
  aud := some "wxcode-adm"
  iat := 30
  exp := 86430
  jti := ⟨2⟩
  tenantId := some ⟨7⟩
  role := some "owner"

def overdueGuarded : World :=
  (getTenantContext ⟨billingConfig, seconds 40, billingDraws 3⟩ (.signed overdueToken)
    (some "acme")).final overdueSignedIn.2.world

/-- She passes the guard of the tenant, and is refused. -/
theorem billing_refused_iff_overdue :
    ∃ acts, Run Enrolment.Step ((⟨billingStart, {}⟩ : Backend).enrolment ⟨7⟩) acts
        ((⟨overdueSignedIn.2, {}⟩ : Backend).enrolment ⟨7⟩) ∧
      BilledBy billingConfig ⟨7⟩ overdueSteps acts ∧
      ((requireActiveSubscription ⟨billingConfig, seconds 40, billingDraws 3⟩
          (.signed overdueToken) (some "acme")).run overdueSignedIn.2.world =
          .error paymentRequired overdueGuarded ↔
        (⟨overdueSignedIn.2, {}⟩ : Backend).enrolment ⟨7⟩ = none ∨
          ∃ s ∈ (acts.filterMap Enrolment.said).getLast?, s.Barred) :=
  @billing_refused_iff billingConfig ⟨billingStart, {}⟩ ⟨overdueSignedIn.2, {}⟩ overdueSteps
    billingStart_initial.sound overdue_run ⟨billingConfig, seconds 40, billingDraws 3⟩
    (.signed overdueToken) (some "acme") _ billingTenant
    ⟨⟨1⟩, ⟨1⟩, ⟨7⟩, .owner, false, false, none, 0⟩ (by decide) rfl

/-! ### Free tenants -/

/-- A tenant that is enrolled in the course of a run is free exactly until a checkout of it has
completed. -/
theorem free_iff (hSound : b.sys.Sound cfg) (hRun : Run (BackendStep cfg) b steps b')
    (hNew : b.enrolment tenantId = none) :
    ∃ acts, Run Enrolment.Step none acts (b'.enrolment tenantId) ∧
      BilledBy cfg tenantId steps acts ∧
      ∀ s ∈ b'.enrolment tenantId, s.standing = .free ↔ ¬Enrolment.Bought acts := by
  obtain ⟨acts, hActs, hBilled⟩ := enrolment_run hSound hRun tenantId
  rw [hNew] at hActs
  refine ⟨acts, hActs, hBilled, fun s hs => ?_⟩
  obtain ⟨hNot, hBought⟩ := Enrolment.marks_run hActs s hs
  exact ⟨fun hFree h => hBought h hFree, fun h => (hNot h).1⟩

/-! ### A tenant is founded, and pays -/

/-- The sample deployment, where the ids 1 and 2 can be read back from their texts. -/
def foundingConfig : Config :=
  { billingConfig with
    lib := { sampleLib with parseUuid := fun text => [("1", ⟨1⟩), ("2", ⟨2⟩)].lookup text } }

def Sys.founding (s : Sys) (now : Nat) (r : Request) : Event × Sys :=
  s.serve foundingConfig now (billingDraws s.log.length) r

def foundingStart : Sys := sampleStart { users := [sampleUser], plans := [samplePlan, paidPlan] }

theorem foundingStart_initial : Initial foundingStart := ⟨by decide, rfl, rfl, rfl, rfl, rfl, rfl⟩

def founderSignedIn : Event × Sys :=
  foundingStart.founding (seconds 10) (.login "alice@example.com" "pw" none none none)

def teamFounded : Event × Sys :=
  founderSignedIn.2.founding (seconds 20) (.createWorkspace (.signed signedInToken) "acme")

def founderSession : Event × Sys :=
  teamFounded.2.founding (seconds 30)
    (.createCheckoutSession (.signed signedInToken) (some "acme") ⟨2⟩)

def teamPaid : Event × Sys :=
  founderSession.2.founding (seconds 40) (.stripeEvent "evt_1" "checkout.session.completed" (.obj
    [("metadata", .obj [("tenant_id", .str "1"), ("plan_id", .str "2")]),
      ("subscription", .str "sub_1")]))

def paidSteps : List (Backend × Action) :=
  [(⟨foundingStart, {}⟩, .request founderSignedIn.1),
    (⟨founderSignedIn.2, {}⟩, .request teamFounded.1),
    (⟨teamFounded.2, {}⟩, .request founderSession.1),
    (⟨founderSession.2, {}⟩, .request teamPaid.1)]

theorem paid_run : Run (BackendStep foundingConfig) ⟨foundingStart, {}⟩ paidSteps ⟨teamPaid.2, {}⟩ :=
  .cons (.request (.of_admits (by decide) (by trivial))) <|
    .cons (.request (.of_admits (by decide) (by trivial))) <|
    .cons (.request (.of_admits (by decide) (by trivial))) <|
    .single (.request (.of_admits (by decide) (by trivial)))

/-- The tenant was free when it was founded, and is not any more, so its checkout is among the
acts. -/
theorem free_iff_paid :
    (∃ s ∈ (⟨teamFounded.2, {}⟩ : Backend).enrolment ⟨1⟩, s.standing = .free) ∧
      ∃ acts, Run Enrolment.Step none acts ((⟨teamPaid.2, {}⟩ : Backend).enrolment ⟨1⟩) ∧
        BilledBy foundingConfig ⟨1⟩ paidSteps acts ∧ Enrolment.Bought acts := by
  refine ⟨⟨_, rfl, rfl⟩, ?_⟩
  obtain ⟨acts, hActs, hBilled, hFree⟩ := @free_iff foundingConfig ⟨foundingStart, {}⟩
    ⟨teamPaid.2, {}⟩ paidSteps ⟨1⟩ foundingStart_initial.sound paid_run rfl
  refine ⟨acts, hActs, hBilled, ?_⟩
  by_contra hNot
  cases (hFree _ rfl).mpr hNot

end WxcodeAdm
