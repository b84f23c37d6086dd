import WxcodeAdm.Billing.Facts

/-! The billing period of a Stripe subscription.  An update overwrites the start and the end of the
period, each where the event carries it, and resets the token count when the start is another one
than before; an event that is late sets the period back. -/

namespace WxcodeAdm

open Lib

/-- The rows with the Stripe id. -/
def Db.rowsOf (db : Db) (sub : String) : List TenantSubscription :=
  db.subscriptions.filter fun row => row.stripeSubscriptionId = some sub

/-- The period that the request delivers for the Stripe subscription, where it is an update that was
not recorded before and can be read. -/
def periodOf (sub : String) (db : Db) : Request → Option (Option Int × Option Int)
  | .stripeEvent eventId eventType dataObject =>
    if eventType = "customer.subscription.updated" ∧ ¬db.Recorded eventId then
      match readUpdated dataObject with
      | some (.updated subscription _ start finish) =>
        if subscription = sub then some (start, finish) else none
      | _ => none
    else none
  | _ => none

/-- The request is a delivery of an update, or leaves the subscriptions alone. -/
def Request.UpdatesOnly (r : Request) : Prop :=
  (∃ eventId dataObject, r = .stripeEvent eventId "customer.subscription.updated" dataObject) ∨
    Part.subscriptions ∉ r.parts

/-- The start is set for the first time, or is later than it was. -/
def Advances (row row' : TenantSubscription) : Prop :=
  ∃ b ∈ row'.currentPeriodStart, ∀ a ∈ row.currentPeriodStart, a < b

/-- The start does not go back, and the tokens are reset exactly when it advances. -/
structure MovesForward (row row' : TenantSubscription) : Prop where
  start : ∀ a ∈ row.currentPeriodStart, ∃ b ∈ row'.currentPeriodStart, a ≤ b
  reset : Advances row row' → row'.tokensUsedThisPeriod = 0
  kept : ¬Advances row row' → row'.tokensUsedThisPeriod = row.tokensUsedThisPeriod

/-- The step delivers a start of the period. -/
def carriesStart (sub : String) (p : Sys × Event) : Bool :=
  (periodOf sub p.1.world.db p.2.request).any fun period => period.1.isSome

def carriesEnd (sub : String) (p : Sys × Event) : Bool :=
  (periodOf sub p.1.world.db p.2.request).any fun period => period.2.isSome

/-- How many steps ago the last event with the property was. -/
def lastCarrying (carries : Sys × Event → Bool) (steps : List (Sys × Event)) : Option Nat :=
  steps.reverse.findIdx? carries

/-- The last step moved the period forward, and the start and the end that are stored are of one
event. -/
structure PeriodForward (sub : String) (steps : List (Sys × Event)) (s : Sys) : Prop where
  oneEvent : lastCarrying (carriesStart sub) steps = lastCarrying (carriesEnd sub) steps
  forward : ∀ p ∈ steps.getLast?, ∀ row ∈ p.1.world.db.rowsOf sub, ∀ row' ∈ s.world.db.rowsOf sub,
    MovesForward row row'

/-- What the step delivers is a whole period or none, and one that does not start before the stored
one. -/
def InOrder (sub : String) (p : Sys × Event) : Prop :=
  ∀ period ∈ periodOf sub p.1.world.db p.2.request, (period.1.isSome ↔ period.2.isSome) ∧
    ∀ x ∈ period.1, ∀ row ∈ p.1.world.db.rowsOf sub, ∀ a ∈ row.currentPeriodStart, a ≤ x

/-! ### One delivery -/

section Delivery

variable {c : Ctx} {w : World} {sub : String} {row : TenantSubscription} {dataObject : Json}

/-- An update that can be read is written to the one row that it is for. -/
theorem run_handleSubscriptionUpdated {status : Option SubscriptionStatus}
    {start finish : Option Int}
    (hRead : readUpdated dataObject = some (.updated sub status start finish))
    (hRow : w.db.rowsOf sub = [row]) :
    (handleSubscriptionUpdated dataObject).run w = .ok ()
      ⟨w.db.updateSubscription row.tenantId (syncSubscription row status start finish),
        w.cache⟩ := by
  simp only [readUpdated, Option.bind_eq_bind, Option.bind_eq_some_iff] at hRead
  obtain ⟨id, hId, hRead⟩ := hRead
  have hTruthy : id.truthy = true := by
    by_contra hNot
    rw [if_neg hNot] at hRead
    cases hRead
  rw [if_pos hTruthy] at hRead
  simp only [Option.bind_eq_some_iff] at hRead
  obtain ⟨text, hText, stripeStatus, hStatus, startValue, hStart, endValue, hEnd, newStart, hNewStart,
    newEnd, hNewEnd, hFact⟩ := hRead
  obtain ⟨hSub, rfl, rfl, rfl⟩ := StripeFact.updated.inj (Option.some.inj hFact)
  have hFind : (subscriptionByStripeId (text.getD "")).run w = .ok (some row) w := by
    rw [subscriptionByStripeId, Handler.run_query_bind, hSub]
    rw [Db.rowsOf] at hRow
    rw [hRow]
    rfl
  rw [handleSubscriptionUpdated, ok_of_toOption hId, Handler.ofExcept_ok_bind, if_pos hTruthy,
    ok_of_toOption hText, Handler.ofExcept_ok_bind, Handler.run_bind, hFind]
  dsimp only
  rw [ok_of_toOption hStatus, Handler.ofExcept_ok_bind, ok_of_toOption hStart,
    Handler.ofExcept_ok_bind, ok_of_toOption hEnd, Handler.ofExcept_ok_bind,
    ok_of_toOption hNewStart, Handler.ofExcept_ok_bind, ok_of_toOption hNewEnd,
    Handler.ofExcept_ok_bind]
  rfl

/-- The rows of a Stripe id, after a change of the rows of one. -/
theorem filter_onSubscription {other : String} {f : TenantSubscription → TenantSubscription}
    (hf : ∀ row, (f row).stripeSubscriptionId = row.stripeSubscriptionId)
    (rows : List TenantSubscription) :
    (onSubscription other f rows).filter (fun row => row.stripeSubscriptionId = some sub) =
      (rows.filter fun row => row.stripeSubscriptionId = some sub).map
        (if other = sub then f else id) := by
  rw [onSubscription, List.filter_map]
  have hFilter : rows.filter ((fun row : TenantSubscription =>
      decide (row.stripeSubscriptionId = some sub)) ∘
        fun row => if row.stripeSubscriptionId = some other then f row else row) =
      rows.filter fun row => row.stripeSubscriptionId = some sub := by
    refine List.filter_congr fun row _ => ?_
    simp only [Function.comp]
    split
    · rw [hf]
    · rfl
  rw [hFilter]
  refine List.map_congr_left fun row hRow => ?_
  have hId : row.stripeSubscriptionId = some sub := by simpa using (List.mem_filter.mp hRow).2
  rw [hId]
  by_cases hSame : other = sub
  · rw [if_pos hSame, if_pos (hSame ▸ rfl)]
  · rw [if_neg hSame, if_neg fun h => hSame (Option.some.inj h).symm]
    rfl

theorem readUpdated_updated {fact : StripeFact} (h : readUpdated dataObject = some fact) :
    ∃ subscription status start finish, fact = .updated subscription status start finish := by
  simp only [readUpdated, Option.bind_eq_bind, Option.bind_eq_some_iff] at h
  obtain ⟨id, -, h⟩ := h
  split at h
  · simp only [Option.bind_eq_some_iff] at h
    obtain ⟨text, -, _, -, _, -, _, -, start, -, finish, -, hFact⟩ := h
    exact ⟨_, _, _, _, (Option.some.inj hFact).symm⟩
  · cases h

end Delivery

section Steps

variable {cfg : Config} {s₀ s s' : Sys} {e : Event} {steps : List (Sys × Event)} {sub : String}
  {row : TenantSubscription}

/-- What a delivery that is read makes of the row. -/
theorem Step.delivers (hs : s.Sound cfg) (hStep : Step cfg s e s')
    (hOne : s.world.db.rowsOf sub = [row]) {start finish : Option Int}
    (hPeriod : periodOf sub s.world.db e.request = some (start, finish)) :
    ∃ status, s'.world.db.rowsOf sub = [syncSubscription row status start finish row] := by
  unfold periodOf at hPeriod
  split at hPeriod
  · rename_i eventId eventType dataObject hRequest
    split_ifs at hPeriod with hNew
    obtain ⟨rfl, hUnrecorded⟩ := hNew
    split at hPeriod
    · rename_i subscription status start' finish' hRead
      split_ifs at hPeriod with hSub
      obtain ⟨rfl, rfl⟩ := Prod.mk.inj (Option.some.inj hPeriod)
      subst hSub
      have hRun := run_handleSubscriptionUpdated hRead hOne
      have hValid : (s.world.db.updateSubscription row.tenantId
          (syncSubscription row status start' finish')).Valid :=
        hs.valid.updateSubscription (fun _ => rfl) fun s' hs' _ => hs.valid.subscriptionPlan s' hs'
      have hServed := hStep.served
      rw [hRequest, @serve_stripeEvent (e.ctx cfg) _ _ _ "customer.subscription.updated" _ _
        hUnrecorded hRun hValid rfl] at hServed
      refine ⟨status, ?_⟩
      rw [← (Prod.mk.inj hServed).2, Db.rowsOf]
      have hRows := @updateSubscription_onSubscription _ s.world.db row
        (syncSubscription row status start' finish') (syncSubscription row status start' finish')
        hs.valid.subscriptionTenantId hOne rfl
      dsimp only
      rw [hRows, filter_onSubscription, if_pos rfl]
      · rw [Db.rowsOf] at hOne
        rw [hOne]
        rfl
      · exact fun _ => rfl
    · cases hPeriod
  · cases hPeriod

/-- Any other request leaves the row. -/
theorem Step.delivers_none (hs : s.Sound cfg) (hStep : Step cfg s e s')
    (hOnly : e.request.UpdatesOnly) (hPeriod : periodOf sub s.world.db e.request = none) :
    s'.world.db.rowsOf sub = s.world.db.rowsOf sub := by
  have hOf (hSame : s'.world.db.subscriptions = s.world.db.subscriptions) :
      s'.world.db.rowsOf sub = s.world.db.rowsOf sub := by rw [Db.rowsOf, Db.rowsOf, hSame]
  rcases hOnly with ⟨eventId, dataObject, hRequest⟩ | hParts
  · cases hOutcome : e.outcome with
    | error error => exact hOf (by rw [hStep.rolledBack hOutcome])
    | ok response =>
      have hHandle := (hStep.committed hOutcome).1
      rw [hRequest] at hHandle
      obtain ⟨⟨⟩, m, hProcess, hHandle⟩ := Handler.run_bind_ok.mp hHandle
      obtain ⟨-, rfl⟩ := Handler.run_pure_ok.mp hHandle
      have hRows := processStripeEvent_fact hs.valid.subscriptionTenantId hProcess
      by_cases hRecorded : s.world.db.Recorded eventId
      · rw [if_pos hRecorded] at hRows
        exact hOf hRows
      · rw [if_neg hRecorded] at hRows
        rw [hRequest] at hPeriod
        simp only [periodOf, hRecorded, not_false_iff, and_self, if_true] at hPeriod
        change s'.world.db.subscriptions = effectOf (readUpdated dataObject) _ at hRows
        cases hRead : readUpdated dataObject with
        | none =>
          rw [hRead] at hRows
          exact hOf hRows
        | some fact =>
          obtain ⟨subscription, status, start, finish, rfl⟩ := readUpdated_updated hRead
          rw [hRead] at hRows hPeriod
          have hOther : subscription ≠ sub := by
            rintro rfl
            simp at hPeriod
          change s'.world.db.subscriptions = onSubscription subscription _ _ at hRows
          rw [Db.rowsOf, hRows, filter_onSubscription, if_neg hOther, List.map_id]
          · rfl
          · exact fun _ => rfl
  · exact hOf (hStep.same hParts)

/-- A period that the event carries moves the row forward exactly when it does not start before. -/
theorem movesForward_sync {status : Option SubscriptionStatus} {start finish : Option Int} :
    MovesForward row (syncSubscription row status start finish row) ↔
      ∀ x ∈ start, ∀ a ∈ row.currentPeriodStart, a ≤ x := by
  constructor
  · intro h x hx a ha
    obtain rfl : start = some x := hx
    obtain ⟨b, hb, hLe⟩ := h.start a ha
    obtain rfl : x = b := Option.some.inj hb
    exact hLe
  · intro hLater
    cases start with
    | none =>
      refine ⟨fun a ha => ⟨a, ha, Int.le_refl a⟩, ?_, fun _ => rfl⟩
      rintro ⟨b, hb, hAll⟩
      exact absurd (hAll b hb) (Int.lt_irrefl b)
    | some x =>
      have hAdvances : Advances row (syncSubscription row status (some x) finish row) ↔
          row.currentPeriodStart ≠ some x := by
        constructor
        · rintro ⟨b, hb, hAll⟩ hSame
          obtain rfl : x = b := Option.some.inj hb
          exact absurd (hAll x hSame) (Int.lt_irrefl x)
        · intro hOther
          refine ⟨x, rfl, fun a ha => ?_⟩
          have hLe := hLater x rfl a ha
          have hNe : a ≠ x := by
            rintro rfl
            exact hOther ha
          omega
      refine ⟨fun a ha => ⟨x, rfl, hLater x rfl a ha⟩, fun h => ?_, fun h => ?_⟩
      · exact if_pos ⟨rfl, hAdvances.mp h⟩
      · exact if_neg fun hReset => h (hAdvances.mpr hReset.2)

/-- A row that stays as it is has moved forward. -/
theorem movesForward_refl : MovesForward row row := by
  refine ⟨fun a ha => ⟨a, ha, Int.le_refl a⟩, ?_, fun _ => rfl⟩
  rintro ⟨b, hb, hAll⟩
  exact absurd (hAll b hb) (Int.lt_irrefl b)

theorem lastCarrying_snoc {carries : Sys × Event → Bool} {p : Sys × Event} :
    lastCarrying carries (steps ++ [p]) =
      if carries p then some 0 else (lastCarrying carries steps).map fun k => k + 1 := by
  rw [lastCarrying, List.reverse_append, List.reverse_singleton, List.singleton_append,
    List.findIdx?_cons]
  rfl

/-- The start and the end stay of one event when the step carries both or neither. -/
theorem lastCarrying_snoc_iff {p : Sys × Event} {carries carries' : Sys × Event → Bool}
    (h : lastCarrying carries steps = lastCarrying carries' steps) :
    lastCarrying carries (steps ++ [p]) = lastCarrying carries' (steps ++ [p]) ↔
      (carries p = true ↔ carries' p = true) := by
  rw [lastCarrying_snoc, lastCarrying_snoc, h]
  cases carries p <;> cases carries' p <;> cases lastCarrying carries' steps <;> simp

/-- The row stays the only one of its Stripe id. -/
theorem Step.rowsOf_one (hs : s.Sound cfg) (hStep : Step cfg s e s')
    (hOnly : e.request.UpdatesOnly) (hOne : ∃ row, s.world.db.rowsOf sub = [row]) :
    ∃ row, s'.world.db.rowsOf sub = [row] := by
  obtain ⟨row, hRow⟩ := hOne
  cases hPeriod : periodOf sub s.world.db e.request with
  | none => exact ⟨row, (hStep.delivers_none hs hOnly hPeriod).trans hRow⟩
  | some period =>
    obtain ⟨status, hAfter⟩ := hStep.delivers hs hRow hPeriod
    exact ⟨_, hAfter⟩

/-- A step moves the period forward, as one, exactly when its delivery is in order. -/
theorem Step.periodForward_iff (hs : s.Sound cfg) (hStep : Step cfg s e s')
    (hOnly : e.request.UpdatesOnly) (hOne : s.world.db.rowsOf sub = [row])
    (hBefore : PeriodForward sub steps s) :
    PeriodForward sub (steps ++ [(s, e)]) s' ↔ InOrder sub (s, e) := by
  have hLast : ∀ p, p ∈ (steps ++ [(s, e)]).getLast? ↔ p = (s, e) := by simp [eq_comm]
  have hCarry := lastCarrying_snoc_iff (p := (s, e)) hBefore.oneEvent
  cases hPeriod : periodOf sub s.world.db e.request with
  | none =>
    have hSame := (hStep.delivers_none hs hOnly hPeriod).trans hOne
    refine iff_of_true ⟨hCarry.mpr (by simp [carriesStart, carriesEnd, hPeriod]), ?_⟩ ?_
    · intro p hp row₁ h₁ row₂ h₂
      obtain rfl := (hLast p).mp hp
      rw [hOne, List.mem_singleton] at h₁
      rw [hSame, List.mem_singleton] at h₂
      rw [h₁, h₂]
      exact movesForward_refl
    · intro period hDelivered
      rw [hPeriod] at hDelivered
      cases hDelivered
  | some period =>
    obtain ⟨start, finish⟩ := period
    obtain ⟨status, hAfter⟩ := hStep.delivers hs hOne hPeriod
    have hForward := @movesForward_sync row status start finish
    have hWhole : (carriesStart sub (s, e) = true ↔ carriesEnd sub (s, e) = true) ↔
        (start.isSome = true ↔ finish.isSome = true) := by
      simp [carriesStart, carriesEnd, hPeriod]
    constructor
    · intro h delivered hDelivered
      rw [hPeriod] at hDelivered
      obtain rfl := Option.some.inj hDelivered
      refine ⟨hWhole.mp (hCarry.mp h.oneEvent), fun x hx row' hRow' => ?_⟩
      rw [hOne, List.mem_singleton] at hRow'
      rw [hRow']
      refine hForward.mp (h.forward (s, e) ((hLast _).mpr rfl) row ?_ _ ?_) x hx
      · rw [hOne]
        exact List.mem_singleton.mpr rfl
      · rw [hAfter]
        exact List.mem_singleton.mpr rfl
    · intro hOrder
      obtain ⟨hBoth, hLater⟩ := hOrder (start, finish) hPeriod
      refine ⟨hCarry.mpr (hWhole.mpr hBoth), fun p hp row₁ h₁ row₂ h₂ => ?_⟩
      obtain rfl := (hLast p).mp hp
      rw [hOne, List.mem_singleton] at h₁
      rw [hAfter, List.mem_singleton] at h₂
      rw [h₁, h₂]
      refine hForward.mpr fun x hx => hLater x hx row ?_
      rw [hOne]
      exact List.mem_singleton.mpr rfl

/-- In a run of deliveries of updates, among requests that leave the subscriptions alone, the billing
period of a Stripe subscription moves forward in every step, and its start and end are of one event,
exactly when every delivery carries both or neither and none starts before the stored period. -/
theorem billing_period_forward (hReach : Reachable cfg s₀)
    (hOne : ∃ row, s₀.world.db.rowsOf sub = [row]) (hRun : Run (Step cfg) s₀ steps s)
    (hOnly : ∀ p ∈ steps, p.2.request.UpdatesOnly) :
    Throughout (PeriodForward sub) steps s ↔ ∀ p ∈ steps, InOrder sub p := by
  have hAll : AtEach (fun pre p => (∀ q ∈ pre, q.2.request.UpdatesOnly) ∧ p.2.request.UpdatesOnly)
      steps := by
    rintro pre p post rfl
    exact ⟨fun q hq => hOnly q (List.mem_append_left _ hq), hOnly p (by simp)⟩
  rw [← atEach_const]
  refine hRun.throughout_iff_of hAll ⟨rfl, by simp⟩ fun hPre hStep hUpdates hBefore => ?_
  obtain ⟨hs, row, hRow⟩ := hPre.invariant_of
    (I := fun m => m.Sound cfg ∧ ∃ row, m.world.db.rowsOf sub = [row])
    (C := fun _ e => e.request.UpdatesOnly)
    (fun ⟨hs, hRow⟩ hOnly hStep => ⟨hStep.sound hs, hStep.rowsOf_one hs hOnly hRow⟩)
    ⟨hReach.sound, hOne⟩ hUpdates.1
  exact hStep.periodForward_iff hs hUpdates.2 hRow hBefore

/-- The last value that the steps have delivered. -/
def lastDelivered (sub : String) (side : Option Int × Option Int → Option Int)
    (steps : List (Sys × Event)) : Option Int :=
  steps.foldl (fun last p => (periodOf sub p.1.world.db p.2.request).bind side <|> last) none

/-- What is stored was delivered last, each of the start and the end by the last event that carried
it. -/
theorem period_delivered {row₀ : TenantSubscription} (hReach : Reachable cfg s₀)
    (hOne : s₀.world.db.rowsOf sub = [row₀]) (hRun : Run (Step cfg) s₀ steps s)
    (hOnly : ∀ p ∈ steps, p.2.request.UpdatesOnly) :
    ∃ row, s.world.db.rowsOf sub = [row] ∧
      row.currentPeriodStart = (lastDelivered sub (fun period => period.1) steps <|>
        row₀.currentPeriodStart) ∧
      row.currentPeriodEnd = (lastDelivered sub (fun period => period.2) steps <|>
        row₀.currentPeriodEnd) := by
  induction hRun with
  | nil => exact ⟨row₀, hOne, rfl, rfl⟩
  | @snoc steps m s' e hRun hStep ih =>
    simp only [List.mem_append, List.mem_singleton] at hOnly
    obtain ⟨row, hRow, hStart, hEnd⟩ := ih fun p hp => hOnly p (.inl hp)
    have hs : m.Sound cfg := (hReach.run hRun).sound
    simp only [lastDelivered, List.foldl_append, List.foldl_cons, List.foldl_nil]
    cases hPeriod : periodOf sub m.world.db e.request with
    | none => exact ⟨row, (hStep.delivers_none hs (hOnly _ (.inr rfl)) hPeriod).trans hRow,
        hStart, hEnd⟩
    | some period =>
      obtain ⟨start, finish⟩ := period
      obtain ⟨status, hAfter⟩ := hStep.delivers hs hRow hPeriod
      refine ⟨_, hAfter, ?_, ?_⟩
      · change (start <|> row.currentPeriodStart) = _
        rw [hStart]
        cases start <;> rfl
      · change (finish <|> row.currentPeriodEnd) = _
        rw [hEnd]
        cases finish <;> rfl

end Steps

/-! ### A late event -/

/-- A tenant with a Stripe subscription that has used some tokens. -/
def periodStart : Sys := sampleStart
  { billingStart.world.db with
    subscriptions := [⟨⟨7⟩, ⟨2⟩, some "cus_1", some "sub_1", .active, none, none, 900⟩] }

theorem periodStart_initial : Initial periodStart := ⟨by decide, rfl, rfl, rfl, rfl, rfl, rfl⟩

def updatedEvent (eventId : String) (start finish : Int) : Request :=
  .stripeEvent eventId "customer.subscription.updated" (.obj
    [("id", .str "sub_1"), ("status", .str "active"), ("current_period_start", .int start),
      ("current_period_end", .int finish)])

def secondPeriod : Event × Sys := periodStart.sample (seconds 10) (updatedEvent "evt_2" 200 300)

/-- The event of the period before is delivered late. -/
def firstPeriodLate : Event × Sys :=
  secondPeriod.2.sample (seconds 20) (updatedEvent "evt_1" 100 200)

def setBackSteps : List (Sys × Event) :=
  [(periodStart, secondPeriod.1), (secondPeriod.2, firstPeriodLate.1)]

theorem setBackSteps_run : Run (Step sampleConfig) periodStart setBackSteps firstPeriodLate.2 :=
  .cons (.of_admits (by decide) (by trivial)) <| .single (.of_admits (by decide) (by trivial))

theorem setBackSteps_only : ∀ p ∈ setBackSteps, p.2.request.UpdatesOnly := by
  intro p hp
  simp only [setBackSteps, List.mem_cons, List.not_mem_nil, or_false] at hp
  rcases hp with rfl | rfl
  · exact .inl ⟨_, _, rfl⟩
  · exact .inl ⟨_, _, rfl⟩

/-- The late event sets the start of the period back. -/
theorem billing_period_set_back :
    ¬∀ (cfg : Config) (s₀ s : Sys) (steps : List (Sys × Event)) (sub : String), Reachable cfg s₀ →
      (∃ row, s₀.world.db.rowsOf sub = [row]) → Run (Step cfg) s₀ steps s →
      (∀ p ∈ steps, p.2.request.UpdatesOnly) → Throughout (PeriodForward sub) steps s := by
  intro hClaim
  have hForward := (hClaim sampleConfig periodStart firstPeriodLate.2 setBackSteps "sub_1"
    periodStart_initial.reachable ⟨_, rfl⟩ setBackSteps_run setBackSteps_only).2.forward
    (secondPeriod.2, firstPeriodLate.1) rfl _ (List.mem_singleton.mpr rfl) _
    (List.mem_singleton.mpr rfl)
  obtain ⟨b, hb, hLe⟩ := hForward.start 200 rfl
  obtain rfl : (100 : Int) = b := Option.some.inj hb
  exact absurd hLe (by decide)

/-- The law at this run. -/
theorem billing_period_forward_late :
    Throughout (PeriodForward "sub_1") setBackSteps firstPeriodLate.2 ↔
      ∀ p ∈ setBackSteps, InOrder "sub_1" p :=
  billing_period_forward periodStart_initial.reachable ⟨_, rfl⟩ setBackSteps_run setBackSteps_only

end WxcodeAdm
