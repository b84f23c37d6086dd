import WxcodeAdm.Guarantees.Cancellation

/-! Whether a tenant's row holds every Stripe subscription that bills it.  A checkout session is
refused only while the subscription of the row is active, and its completion overwrites the id of
the row, so a second session that completes leaves a live subscription that no row holds. -/

namespace WxcodeAdm

open Lib

variable {cfg : Config} {s s' : Sys} {e : Event} {steps : List (Sys × Event)} {fact : StripeFact}
  {tenantId : Uuid} {subscription : String}

/-- A checkout of the subscription was processed while the tenant had a row. -/
def Bound (cfg : Config) (steps : List (Sys × Event)) (tenantId : Uuid) (subscription : String) :
    Prop :=
  ∃ p ∈ steps,
    (∃ planId, p.2.fact cfg p.1.world.db = some (.completed tenantId planId (some subscription))) ∧
      ∃ row ∈ p.1.world.db.subscriptions, row.tenantId = tenantId

/-- The subscription was bound to the tenant and not deleted. -/
def Live (cfg : Config) (steps : List (Sys × Event)) (tenantId : Uuid) (subscription : String) :
    Prop :=
  Bound cfg steps tenantId subscription ∧ ¬Told cfg steps (.deleted subscription)

/-- The row of a tenant holds its live subscription, so there is at most one. -/
structure LiveStored (cfg : Config) (steps : List (Sys × Event)) (s : Sys) : Prop where
  stored : ∀ tenantId subscription, Live cfg steps tenantId subscription →
    ∃ row ∈ s.world.db.subscriptions, row.tenantId = tenantId ∧
      row.stripeSubscriptionId = some subscription
  one : ∀ tenantId subscription subscription', Live cfg steps tenantId subscription →
    Live cfg steps tenantId subscription' → subscription = subscription'

/-- A checkout completes for a tenant that has another live subscription. -/
def StripeFact.Orphans (cfg : Config) (steps : List (Sys × Event)) : StripeFact → Prop
  | .completed tenantId _ subscription =>
    ∃ live, Live cfg steps tenantId live ∧ subscription ≠ some live
  | _ => False

def OrphansNone (cfg : Config) (steps : List (Sys × Event)) (p : Sys × Event) : Prop :=
  ∀ fact ∈ p.2.fact cfg p.1.world.db, ¬fact.Orphans cfg steps

/-- With one row a tenant, what the rows hold is one subscription a tenant. -/
theorem LiveStored.of_stored (hs : s.Sound cfg)
    (h : ∀ tenantId subscription, Live cfg steps tenantId subscription →
      ∃ row ∈ s.world.db.subscriptions, row.tenantId = tenantId ∧
        row.stripeSubscriptionId = some subscription) : LiveStored cfg steps s where
  stored := h
  one := by
    intro tenantId subscription subscription' hLive hLive'
    obtain ⟨row, hRow, hTenant, hId⟩ := h _ _ hLive
    obtain ⟨row', hRow', hTenant', hId'⟩ := h _ _ hLive'
    have hSame : row = row' := List.inj_on_of_nodup_map hs.valid.subscriptionTenantId hRow hRow'
      (hTenant.trans hTenant'.symm)
    rw [hSame, hId'] at hId
    exact (Option.some.inj hId).symm

theorem bound_snoc {p : Sys × Event} :
    Bound cfg (steps ++ [p]) tenantId subscription ↔ Bound cfg steps tenantId subscription ∨
      (∃ planId, p.2.fact cfg p.1.world.db =
        some (.completed tenantId planId (some subscription))) ∧
      ∃ row ∈ p.1.world.db.subscriptions, row.tenantId = tenantId := by
  simp only [Bound, List.mem_append, List.mem_singleton]
  constructor
  · rintro ⟨q, hq | rfl, hBound⟩
    · exact .inl ⟨q, hq, hBound⟩
    · exact .inr hBound
  · rintro (⟨q, hq, hBound⟩ | hBound)
    · exact ⟨q, .inl hq, hBound⟩
    · exact ⟨p, .inr rfl, hBound⟩

/-- A step that completes no checkout makes no subscription live. -/
theorem Live.of_snoc {p : Sys × Event}
    (hOther : ∀ planId id, p.2.fact cfg p.1.world.db ≠ some (.completed tenantId planId id))
    (h : Live cfg (steps ++ [p]) tenantId subscription) :
    Live cfg steps tenantId subscription := by
  obtain ⟨hBound, hDeleted⟩ := h
  rw [bound_snoc] at hBound
  rw [told_snoc, not_or] at hDeleted
  refine ⟨hBound.resolve_right ?_, hDeleted.1⟩
  rintro ⟨⟨planId, hFact⟩, -⟩
  exact hOther planId _ hFact

/-- The bindings of the rows outlast a step that processed no fact. -/
theorem KeepsBindings.row_stays {w w' : World} (h : KeepsBindings w w') {row : TenantSubscription}
    (hRow : row ∈ w.db.subscriptions) : ∃ new ∈ w'.db.subscriptions,
      new.tenantId = row.tenantId ∧ new.stripeSubscriptionId = row.stripeSubscriptionId := by
  obtain ⟨added, hAdded, -⟩ := h
  have hMem : row.binding ∈ w'.db.subscriptions.map TenantSubscription.binding :=
    hAdded ▸ List.mem_append_left _ (List.mem_map_of_mem hRow)
  obtain ⟨new, hNew, hSame⟩ := List.mem_map.mp hMem
  simp only [TenantSubscription.binding, Prod.mk.injEq] at hSame
  exact ⟨new, hNew, hSame.1, hSame.2.1⟩

theorem StripeFact.not_orphans (fact : StripeFact)
    (hOther : ∀ tenantId planId id, fact ≠ .completed tenantId planId id) :
    ¬fact.Orphans cfg steps := by
  cases fact with
  | completed => exact absurd rfl (hOther _ _ _)
  | updated | deleted | paid | failed => exact fun hOrphans => hOrphans

/-- A fact that is not a checkout leaves the Stripe ids of the rows alone. -/
theorem StripeFact.row_stays (fact : StripeFact) {rows : List TenantSubscription}
    {row : TenantSubscription}
    (hOther : ∀ tenantId planId id, fact ≠ .completed tenantId planId id) (hRow : row ∈ rows) :
    ∃ new ∈ fact.apply rows, new.tenantId = row.tenantId ∧
      new.stripeSubscriptionId = row.stripeSubscriptionId := by
  cases fact with
  | completed => exact absurd rfl (hOther _ _ _)
  | updated | deleted | paid | failed =>
    refine ⟨_, List.mem_map_of_mem hRow, ?_⟩
    dsimp only
    repeat' split
    all_goals exact ⟨rfl, rfl⟩

/-- A checkout keeps the live subscriptions stored exactly when the tenant has no other. -/
theorem LiveStored.completed_iff (h : LiveStored cfg steps s) (hs' : s'.Sound cfg) {planId : Uuid}
    {completed : Option String}
    (hFact : e.fact cfg s.world.db = some (.completed tenantId planId completed))
    (hRows : s'.world.db.subscriptions =
      (StripeFact.completed tenantId planId completed).apply s.world.db.subscriptions) :
    LiveStored cfg (steps ++ [(s, e)]) s' ↔
      ¬(StripeFact.completed tenantId planId completed).Orphans cfg steps := by
  constructor
  · rintro hAfter ⟨live, hLive, hOther⟩
    have hStill : Live cfg (steps ++ [(s, e)]) tenantId live := by
      refine ⟨bound_snoc.mpr (.inl hLive.1), ?_⟩
      rw [told_snoc, hFact]
      simpa using hLive.2
    obtain ⟨row', hRow', hTenant, hId⟩ := hAfter.stored _ _ hStill
    rw [hRows, StripeFact.apply] at hRow'
    obtain ⟨row, hRow, rfl⟩ := List.mem_map.mp hRow'
    by_cases hSame : row.tenantId = tenantId
    · rw [if_pos hSame] at hId
      exact hOther hId
    · rw [if_neg hSame] at hTenant
      exact hSame hTenant
  · intro hNot
    refine .of_stored hs' fun tenantId' live hLive => ?_
    obtain ⟨hBound, hDeleted⟩ := hLive
    rw [bound_snoc, hFact] at hBound
    rw [told_snoc, not_or] at hDeleted
    rw [hRows, StripeFact.apply]
    rcases hBound with hBound | ⟨⟨planId', hSame⟩, row, hRow, hTenant⟩
    · obtain ⟨row, hRow, rfl, hId⟩ := h.stored _ _ ⟨hBound, hDeleted.1⟩
      refine ⟨_, List.mem_map_of_mem hRow, ?_⟩
      by_cases hTenant : row.tenantId = tenantId
      · rw [if_pos hTenant]
        refine ⟨rfl, ?_⟩
        by_contra hOther
        exact hNot ⟨live, ⟨hTenant ▸ hBound, hDeleted.1⟩, hOther⟩
      · rw [if_neg hTenant]
        exact ⟨rfl, hId⟩
    · obtain ⟨rfl, -, rfl⟩ := StripeFact.completed.inj (Option.some.inj hSame)
      refine ⟨_, List.mem_map_of_mem hRow, ?_⟩
      rw [if_pos hTenant]
      exact ⟨hTenant, rfl⟩

theorem LiveStored.step_iff (hs : s.Sound cfg) (hStep : Step cfg s e s')
    (h : LiveStored cfg steps s) :
    LiveStored cfg (steps ++ [(s, e)]) s' ↔ OrphansNone cfg steps (s, e) := by
  unfold OrphansNone
  cases hFact : e.fact cfg s.world.db with
  | none =>
    refine iff_of_true (.of_stored (hStep.sound hs) fun tenantId live hLive => ?_) (by simp)
    obtain ⟨row, hRow, rfl, hId⟩ := h.stored _ _ (hLive.of_snoc (by simp [hFact]))
    obtain ⟨new, hNew, hTenant, hSame⟩ := (hStep.keepsBindings_of_noFact hs hFact).row_stays hRow
    exact ⟨new, hNew, hTenant, hSame.trans hId⟩
  | some fact =>
    simp only [Option.mem_some_iff, forall_eq']
    have hRows := hStep.subscriptions_of_fact hs hFact
    by_cases hCompleted : ∃ tenantId planId id, fact = .completed tenantId planId id
    · obtain ⟨tenantId, planId, id, rfl⟩ := hCompleted
      exact h.completed_iff (hStep.sound hs) hFact hRows
    · have hOther : ∀ tenantId planId id, fact ≠ .completed tenantId planId id :=
        fun tenantId planId id hSame => hCompleted ⟨tenantId, planId, id, hSame⟩
      refine iff_of_true (.of_stored (hStep.sound hs) fun tenantId live hLive => ?_)
        (fact.not_orphans hOther)
      obtain ⟨row, hRow, rfl, hId⟩ := h.stored _ _ (hLive.of_snoc (by simp [hFact, hOther]))
      obtain ⟨new, hNew, hTenant, hSame⟩ := fact.row_stays hOther hRow
      exact ⟨new, hRows ▸ hNew, hTenant, hSame.trans hId⟩

/-- In a run the row of a tenant holds its one live subscription in every state exactly when no
checkout completes for a tenant that has another. -/
theorem live_subscription_stored_iff {s₀ : Sys} (hInit : Initial s₀)
    (hRun : Run (Step cfg) s₀ steps s) :
    Throughout (LiveStored cfg) steps s ↔ AtEach (OrphansNone cfg) steps := by
  refine hRun.throughout_iff ?_ fun hPre hStep h =>
    h.step_iff (hPre.invariant (fun hs hStep => hStep.sound hs) hInit.sound) hStep
  exact .of_stored hInit.sound fun _ _ hLive => absurd hLive.1 (by simp [Bound])

/-! ### Two sessions, both completed -/

def billingSignedIn : Event × Sys :=
  billingStart.billing (seconds 10) (.login "alice@example.com" "pw" none none none)

def billingToken : Bearer := .signed
  { sub := ⟨1⟩, aud := some "wxcode-adm", iat := 10, exp := 86410, jti := ⟨0⟩, tenantId := some ⟨7⟩
    role := some "owner" }

def checkoutRequest : Request := .createCheckoutSession billingToken (some "acme") ⟨2⟩

def firstSession : Event × Sys := billingSignedIn.2.billing (seconds 20) checkoutRequest

def secondSession : Event × Sys := firstSession.2.billing (seconds 30) checkoutRequest

def firstCompleted : Event × Sys :=
  secondSession.2.billing (seconds 40) (completedEvent "evt_1" "sub_1")

def secondCompleted : Event × Sys :=
  firstCompleted.2.billing (seconds 50) (completedEvent "evt_2" "sub_2")

def twoSessionsSteps : List (Sys × Event) :=
  [(billingStart, billingSignedIn.1), (billingSignedIn.2, firstSession.1),
    (firstSession.2, secondSession.1), (secondSession.2, firstCompleted.1),
    (firstCompleted.2, secondCompleted.1)]

theorem firstSession_outcome :
    firstSession.1.outcome = .ok (.checkout "https://checkout.stripe.com/pay" "cs_1") := rfl

theorem twoSessions_run :
    Run (Step billingConfig) billingStart twoSessionsSteps secondCompleted.2 :=
  .cons (.of_admits (by decide) (by trivial)) <| .cons (.of_admits (by decide) (by trivial)) <|
    .cons (.of_admits (by decide) (by trivial)) <| .cons (.of_admits (by decide) (by trivial)) <|
    .single (.of_admits (by decide) (by trivial))

theorem firstCompleted_live : Live billingConfig twoSessionsSteps ⟨7⟩ "sub_1" := by
  refine ⟨⟨(secondSession.2, firstCompleted.1), by simp [twoSessionsSteps], ⟨⟨2⟩, rfl⟩, _,
    List.mem_singleton.mpr rfl, rfl⟩, ?_⟩
  decide

/-- Both sessions are created on the free plan; the row keeps the second subscription only. -/
theorem live_subscription_lost :
    ¬∀ (cfg : Config) (s₀ s : Sys) (steps : List (Sys × Event)), Initial s₀ →
      Run (Step cfg) s₀ steps s → Throughout (LiveStored cfg) steps s := by
  intro hClaim
  have hStored := (hClaim billingConfig _ _ _ billingStart_initial twoSessions_run).2
  obtain ⟨row, hRow, -, hId⟩ := hStored.stored _ _ firstCompleted_live
  obtain rfl := List.mem_singleton.mp hRow
  exact absurd hId (by decide)

/-- The law for the two sessions. -/
theorem live_subscription_stored_iff_twoSessions :
    Throughout (LiveStored billingConfig) twoSessionsSteps secondCompleted.2 ↔
      AtEach (OrphansNone billingConfig) twoSessionsSteps :=
  live_subscription_stored_iff billingStart_initial twoSessions_run

end WxcodeAdm
