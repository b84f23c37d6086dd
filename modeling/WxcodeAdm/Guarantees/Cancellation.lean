import WxcodeAdm.Billing.Facts

/-! Whether a deleted Stripe subscription stays canceled.  The handlers write what their own event
says, so a checkout, an update or a paid invoice that is processed after the deletion makes the
tenant active again; nothing else does. -/

namespace WxcodeAdm

open Lib

variable {cfg : Config} {s s' : Sys} {e : Event} {steps : List (Sys × Event)} {fact : StripeFact}

/-- No tenant is active with a subscription that a checkout created for it and that was deleted. -/
def CancellationFinal (cfg : Config) (steps : List (Sys × Event)) (s : Sys) : Prop :=
  ∀ tenantId planId subscription,
    Told cfg steps (.completed tenantId planId (some subscription)) →
    Told cfg steps (.deleted subscription) →
    ∀ row ∈ s.world.db.subscriptions, row.tenantId = tenantId →
      row.stripeSubscriptionId = some subscription → row.status ≠ .active

/-- The row holds a subscription that a checkout created for its tenant. -/
def TenantSubscription.Created (cfg : Config) (steps : List (Sys × Event)) (subscription : String)
    (row : TenantSubscription) : Prop :=
  row.stripeSubscriptionId = some subscription ∧
    ∃ planId, Told cfg steps (.completed row.tenantId planId (some subscription))

/-- The fact makes a tenant active with a subscription that was deleted before: a checkout for a
tenant that has a row, an update to `active` for a tenant whose checkout created the subscription,
or a paid invoice for such a tenant while it is past due. -/
def StripeFact.Revives (cfg : Config) (steps : List (Sys × Event))
    (rows : List TenantSubscription) : StripeFact → Prop
  | .completed tenantId _ subscription => ∃ id ∈ subscription, Told cfg steps (.deleted id) ∧
      ∃ row ∈ rows, row.tenantId = tenantId
  | .updated subscription status _ _ => status = some .active ∧
      Told cfg steps (.deleted subscription) ∧ ∃ row ∈ rows, row.Created cfg steps subscription
  | .paid subscription => Told cfg steps (.deleted subscription) ∧
      ∃ row ∈ rows, row.Created cfg steps subscription ∧ row.status = .pastDue
  | .deleted _ | .failed _ => False

theorem told_snoc {p : Sys × Event} :
    Told cfg (steps ++ [p]) fact ↔ Told cfg steps fact ∨ p.2.fact cfg p.1.world.db = some fact := by
  simp only [Told, List.mem_append, List.mem_singleton]
  constructor
  · rintro ⟨q, hq | rfl, hFact⟩
    · exact .inl ⟨q, hq, hFact⟩
    · exact .inr hFact
  · rintro (⟨q, hq, hFact⟩ | hFact)
    · exact ⟨q, .inl hq, hFact⟩
    · exact ⟨p, .inr rfl, hFact⟩

/-- A row that holds a Stripe id after a step that processed no fact was there before, with the
same binding. -/
theorem KeepsBindings.row {w w' : World} (h : KeepsBindings w w') {row : TenantSubscription}
    (hRow : row ∈ w'.db.subscriptions) (hId : row.stripeSubscriptionId ≠ none) :
    ∃ old ∈ w.db.subscriptions, old.tenantId = row.tenantId ∧
      old.stripeSubscriptionId = row.stripeSubscriptionId ∧ old.status = row.status := by
  obtain ⟨new, hNew, hNone⟩ := h
  have hMem : row.binding ∈ w.db.subscriptions.map TenantSubscription.binding ++ new :=
    hNew ▸ List.mem_map_of_mem hRow
  rcases List.mem_append.mp hMem with hOld | hAdded
  · obtain ⟨old, hOld, hSame⟩ := List.mem_map.mp hOld
    simp only [TenantSubscription.binding, Prod.mk.injEq] at hSame
    exact ⟨old, hOld, hSame.1, hSame.2.1, hSame.2.2⟩
  · exact absurd (hNone _ hAdded) hId

/-- After a step that processed no fact the deleted subscriptions are as they were. -/
theorem CancellationFinal.of_noFact (h : CancellationFinal cfg steps s)
    (hNone : e.fact cfg s.world.db = none) (hKeeps : KeepsBindings s.world s'.world) :
    CancellationFinal cfg (steps ++ [(s, e)]) s' := by
  intro tenantId planId subscription hCompleted hDeleted row hRow hTenant hId
  rw [told_snoc, hNone] at hCompleted hDeleted
  obtain ⟨old, hOld, hSameTenant, hSameId, hStatus⟩ := hKeeps.row hRow (by simp [hId])
  rw [← hStatus]
  exact h tenantId planId subscription (hCompleted.resolve_right (by simp))
    (hDeleted.resolve_right (by simp)) old hOld (hSameTenant.trans hTenant) (hSameId.trans hId)

theorem mem_onSubscription {subscription : String} {f : TenantSubscription → TenantSubscription}
    {rows : List TenantSubscription} {row : TenantSubscription} :
    row ∈ onSubscription subscription f rows ↔
      (∃ old ∈ rows, old.stripeSubscriptionId = some subscription ∧ row = f old) ∨
        row ∈ rows ∧ row.stripeSubscriptionId ≠ some subscription := by
  simp only [onSubscription, List.mem_map]
  constructor
  · rintro ⟨old, hOld, rfl⟩
    by_cases hSame : old.stripeSubscriptionId = some subscription
    · exact .inl ⟨old, hOld, hSame, if_pos hSame⟩
    · rw [if_neg hSame]
      exact .inr ⟨hOld, hSame⟩
  · rintro (⟨old, hOld, hSame, rfl⟩ | ⟨hRow, hOther⟩)
    · exact ⟨old, hOld, if_pos hSame⟩
    · exact ⟨row, hRow, if_neg hOther⟩

theorem CancellationFinal.row (h : CancellationFinal cfg steps s) {subscription : String}
    {row : TenantSubscription} (hDeleted : Told cfg steps (.deleted subscription))
    (hRow : row ∈ s.world.db.subscriptions) (hCreated : row.Created cfg steps subscription) :
    row.status ≠ .active := by
  obtain ⟨hId, planId, hCompleted⟩ := hCreated
  exact h row.tenantId planId subscription hCompleted hDeleted row hRow rfl hId

/-- After a checkout the deleted subscriptions are canceled, unless its own is one of them. -/
theorem CancellationFinal.completed_iff (h : CancellationFinal cfg steps s) {tenantId planId : Uuid}
    {subscription : Option String}
    (hFact : e.fact cfg s.world.db = some (.completed tenantId planId subscription))
    (hRows : s'.world.db.subscriptions =
      (StripeFact.completed tenantId planId subscription).apply s.world.db.subscriptions) :
    CancellationFinal cfg (steps ++ [(s, e)]) s' ↔
      ¬(StripeFact.completed tenantId planId subscription).Revives cfg steps
        s.world.db.subscriptions := by
  unfold CancellationFinal
  simp only [told_snoc, hFact, Option.some.injEq, reduceCtorEq, or_false, hRows, StripeFact.apply]
  constructor
  · rintro hFinal ⟨id, rfl, hDeleted, row, hRow, hTenant⟩
    refine hFinal tenantId planId id (.inr rfl) hDeleted _ (List.mem_map_of_mem hRow) ?_ ?_ ?_
    all_goals simp [hTenant]
  · intro hNot tenantId' planId' id hCompleted hDeleted row' hRow' hTenant hId
    obtain ⟨row, hRow, rfl⟩ := List.mem_map.mp hRow'
    by_cases hSame : row.tenantId = tenantId
    · rw [if_pos hSame] at hId
      exact absurd ⟨id, hId, hDeleted, row, hRow, hSame⟩ hNot
    · rw [if_neg hSame] at hTenant hId ⊢
      rcases hCompleted with hCompleted | hCompleted
      · exact h tenantId' planId' id hCompleted hDeleted row hRow hTenant hId
      · obtain ⟨rfl, -, -⟩ := StripeFact.completed.inj hCompleted
        exact absurd hTenant hSame

/-- After any other fact they are, unless it sets the row of a deleted subscription active. -/
theorem CancellationFinal.onSubscription_iff (h : CancellationFinal cfg steps s)
    {subscription : String} {f : TenantSubscription → TenantSubscription}
    (hFact : e.fact cfg s.world.db = some fact)
    (hRows : s'.world.db.subscriptions = onSubscription subscription f s.world.db.subscriptions)
    (hKeeps : ∀ row, (f row).tenantId = row.tenantId ∧
      (f row).stripeSubscriptionId = row.stripeSubscriptionId)
    (hOther : ∀ tenantId planId id, fact ≠ .completed tenantId planId id)
    (hOwn : ∀ id, fact = .deleted id → id = subscription) :
    CancellationFinal cfg (steps ++ [(s, e)]) s' ↔
      (Told cfg steps (.deleted subscription) ∨ fact = .deleted subscription →
        ∀ row ∈ s.world.db.subscriptions, row.Created cfg steps subscription →
          (f row).status ≠ .active) := by
  unfold CancellationFinal
  simp only [told_snoc, hFact, Option.some.injEq, hOther, or_false, hRows, mem_onSubscription]
  constructor
  · rintro hFinal hDeleted row hRow ⟨hId, planId, hCompleted⟩
    exact hFinal row.tenantId planId subscription hCompleted hDeleted (f row)
      (.inl ⟨row, hRow, hId, rfl⟩) (hKeeps row).1 ((hKeeps row).2.trans hId)
  · rintro hFinal tenantId planId id hCompleted hDeleted row' (⟨row, hRow, hId, rfl⟩ | ⟨hRow, hId⟩)
      hTenant hId'
    · rw [(hKeeps row).2, hId, Option.some.injEq] at hId'
      rw [(hKeeps row).1] at hTenant
      subst hId' hTenant
      exact hFinal hDeleted row hRow ⟨hId, planId, hCompleted⟩
    · refine h tenantId planId id hCompleted (hDeleted.resolve_right fun hSame => ?_) row' hRow
        hTenant hId'
      exact hId (hOwn id hSame ▸ hId')

/-- A fact keeps the deleted subscriptions canceled exactly when it revives none. -/
theorem CancellationFinal.iff_of_fact (h : CancellationFinal cfg steps s)
    (hFact : e.fact cfg s.world.db = some fact)
    (hRows : s'.world.db.subscriptions = fact.apply s.world.db.subscriptions) :
    CancellationFinal cfg (steps ++ [(s, e)]) s' ↔
      ¬fact.Revives cfg steps s.world.db.subscriptions := by
  cases fact with
  | completed => exact h.completed_iff hFact hRows
  | updated subscription status start finish =>
    rw [h.onSubscription_iff hFact hRows (fun _ => ⟨rfl, rfl⟩) (by simp) (by simp)]
    simp only [reduceCtorEq, or_false]
    constructor
    · rintro hFinal ⟨rfl, hDeleted, row, hRow, hCreated⟩
      exact hFinal hDeleted row hRow hCreated rfl
    · intro hNot hDeleted row hRow hCreated hActive
      have hBefore : row.status ≠ .active := h.row hDeleted hRow hCreated
      refine hNot ⟨?_, hDeleted, row, hRow, hCreated⟩
      cases status with
      | none => exact absurd hActive hBefore
      | some status => exact congrArg some hActive
  | deleted subscription =>
    rw [h.onSubscription_iff hFact hRows (fun _ => ⟨rfl, rfl⟩) (by simp) (by simp)]
    exact iff_of_true (fun _ _ _ _ => by simp) (fun hRevives => hRevives)
  | paid subscription =>
    rw [h.onSubscription_iff hFact hRows (fun row => by split <;> exact ⟨rfl, rfl⟩) (by simp)
      (by simp)]
    simp only [reduceCtorEq, or_false]
    constructor
    · rintro hFinal ⟨hDeleted, row, hRow, hCreated, hPastDue⟩
      exact hFinal hDeleted row hRow hCreated (by rw [if_pos hPastDue])
    · intro hNot hDeleted row hRow hCreated hActive
      have hBefore : row.status ≠ .active := h.row hDeleted hRow hCreated
      refine hNot ⟨hDeleted, row, hRow, hCreated, ?_⟩
      by_contra hOther
      rw [if_neg hOther] at hActive
      exact hBefore hActive
  | failed subscription =>
    rw [h.onSubscription_iff hFact hRows (fun _ => ⟨rfl, rfl⟩) (by simp) (by simp)]
    exact iff_of_true (fun _ _ _ _ => by simp) (fun hRevives => hRevives)

/-- The step revives no deleted subscription. -/
def RevivesNone (cfg : Config) (steps : List (Sys × Event)) (p : Sys × Event) : Prop :=
  ∀ fact ∈ p.2.fact cfg p.1.world.db, ¬fact.Revives cfg steps p.1.world.db.subscriptions

theorem CancellationFinal.step_iff (hs : s.Sound cfg) (hStep : Step cfg s e s')
    (h : CancellationFinal cfg steps s) :
    CancellationFinal cfg (steps ++ [(s, e)]) s' ↔ RevivesNone cfg steps (s, e) := by
  unfold RevivesNone
  cases hFact : e.fact cfg s.world.db with
  | none =>
    refine iff_of_true (h.of_noFact hFact (hStep.keepsBindings_of_noFact hs hFact)) ?_
    simp
  | some fact =>
    simp only [Option.mem_some_iff, forall_eq']
    exact h.iff_of_fact hFact (hStep.subscriptions_of_fact hs hFact)

/-- In a run the deleted subscriptions are canceled in every state exactly when no step revives
one. -/
theorem cancellation_final_iff {s₀ : Sys} (hInit : Initial s₀)
    (hRun : Run (Step cfg) s₀ steps s) :
    Throughout (CancellationFinal cfg) steps s ↔ AtEach (RevivesNone cfg) steps :=
  hRun.throughout_iff (fun _ _ _ h => absurd h (by simp [Told])) fun hPre hStep h =>
    h.step_iff (hPre.invariant (fun hs hStep => hStep.sound hs) hInit.sound) hStep

/-! ### A deletion before the checkout -/

def deletedFirst : Event × Sys := billingStart.billing (seconds 10) (deletedEvent "evt_1" "sub_1")

def completedLater : Event × Sys :=
  deletedFirst.2.billing (seconds 20) (completedEvent "evt_2" "sub_1")

def deletedFirstSteps : List (Sys × Event) :=
  [(billingStart, deletedFirst.1), (deletedFirst.2, completedLater.1)]

theorem deletedFirst_run :
    Run (Step billingConfig) billingStart deletedFirstSteps completedLater.2 :=
  .cons (.of_admits (by decide) (by trivial)) (.single (.of_admits (by decide) (by trivial)))

theorem deletedFirst_told : Told billingConfig deletedFirstSteps (.deleted "sub_1") :=
  ⟨_, List.mem_cons_self, rfl⟩

theorem completedLater_told :
    Told billingConfig deletedFirstSteps (.completed ⟨7⟩ ⟨2⟩ (some "sub_1")) :=
  ⟨_, List.mem_cons_of_mem _ List.mem_cons_self, rfl⟩

/-- The deletion finds no row, and the checkout that follows makes the tenant active. -/
theorem cancellation_undone :
    ¬∀ (cfg : Config) (s₀ s : Sys) (steps : List (Sys × Event)), Initial s₀ →
      Run (Step cfg) s₀ steps s → Throughout (CancellationFinal cfg) steps s := by
  intro hClaim
  have hFinal := (hClaim billingConfig _ _ _ billingStart_initial deletedFirst_run).2
  exact hFinal _ _ _ completedLater_told deletedFirst_told _ (List.mem_singleton.mpr rfl) rfl rfl
    rfl

/-- The law for the two events in this order. -/
theorem cancellation_final_iff_deletedFirst :
    Throughout (CancellationFinal billingConfig) deletedFirstSteps completedLater.2 ↔
      AtEach (RevivesNone billingConfig) deletedFirstSteps :=
  cancellation_final_iff billingStart_initial deletedFirst_run

end WxcodeAdm
