import WxcodeAdm.Concurrency

/-! Deliveries of Stripe events, where those of one event may overlap.  The unique event id decides
between them: the first that commits has applied its handler to the database that it found, and the
insert of every other one breaks the constraint.  So the database is what the handlers make of it
when each is applied once, to the first successful delivery of its event. -/

namespace WxcodeAdm

open Lib

structure Delivery where
  eventId : String
  eventType : String
  dataObject : Json

namespace Delivery

def request (d : Delivery) : Request := .stripeEvent d.eventId d.eventType d.dataObject

def handling (c : Ctx) (d : Delivery) : App Unit := do
  handleStripeEvent c d.eventType d.dataObject
  recordStripeEvent c d.eventId d.eventType

/-- The handler applied once to a database, and the event recorded, unless that raises. -/
def apply (c : Ctx) (d : Delivery) (db : Db) : Option Db :=
  match (d.handling c).run ⟨db, {}⟩ with
  | .ok _ s => some s.db
  | .error _ _ => none

end Delivery

def Db.Recorded (db : Db) (eventId : String) : Prop :=
  ∃ e ∈ db.webhookEvents, e.stripeEventId = eventId

variable {c : Ctx} {d : Delivery} {p : Db → Db}

/-! ### What one delivery can commit -/

def KeepsEvents (f : Db → Db) : Prop := ∀ db, (f db).webhookEvents = db.webhookEvents

/-- The writes record the delivery, and no other. -/
def Records (c : Ctx) (d : Delivery) (writes : Db → Db) : Prop :=
  ∀ db, (writes db).webhookEvents = db.webhookEvents ++ [⟨d.eventId, d.eventType, c.now⟩]

theorem updateSubscription_does {tenantId : Uuid} {f : TenantSubscription → TenantSubscription} :
    (Handler.exec fun db => db.updateSubscription tenantId f : App Unit).Does KeepsEvents :=
  .exec fun _ => rfl

theorem subscriptionByStripeId_does (id : String) :
    (subscriptionByStripeId id).Does KeepsEvents :=
  .bind (.query _) fun _ => .orRaise _ _

theorem handleCheckoutCompleted_does (dataObject : Json) :
    (handleCheckoutCompleted c dataObject).Does KeepsEvents :=
  .bind (.ofExcept _) fun _ => .bind (.ofExcept _) fun _ => .bind (.ofExcept _) fun _ =>
    .ite (.bind (.ofExcept _) fun _ => .bind (.ofExcept _) fun _ => .bind (.query _) fun found => by
      cases found with
      | none => exact .pure _
      | some _ =>
        exact .bind (.ofExcept _) fun _ => .bind (.ofExcept _) fun _ => updateSubscription_does)
      (.pure _)

theorem handleSubscriptionUpdated_does (dataObject : Json) :
    (handleSubscriptionUpdated dataObject).Does KeepsEvents :=
  .bind (.ofExcept _) fun _ => .ite (.bind (.ofExcept _) fun _ =>
    .bind (subscriptionByStripeId_does _) fun found => by
      cases found with
      | none => exact .pure _
      | some _ =>
        exact .bind (.ofExcept _) fun _ => .bind (.ofExcept _) fun _ => .bind (.ofExcept _) fun _ =>
          .bind (.ofExcept _) fun _ => .bind (.ofExcept _) fun _ => updateSubscription_does)
    (.pure _)

theorem handleSubscriptionDeleted_does (dataObject : Json) :
    (handleSubscriptionDeleted dataObject).Does KeepsEvents :=
  .bind (.ofExcept _) fun _ => .ite (.bind (.ofExcept _) fun _ =>
    .bind (subscriptionByStripeId_does _) fun found => by
      cases found with
      | none => exact .pure _
      | some _ => exact updateSubscription_does)
    (.pure _)

theorem invoiceSubscription_does (dataObject : Json) :
    (invoiceSubscription dataObject).Does KeepsEvents :=
  .bind (.ofExcept _) fun _ => .bind (.ofExcept _) fun text => by
    cases text with
    | none => exact .pure _
    | some text => exact subscriptionByStripeId_does text

theorem handleInvoicePaid_does (dataObject : Json) :
    (handleInvoicePaid dataObject).Does KeepsEvents :=
  .bind (invoiceSubscription_does dataObject) fun found => by
    cases found with
    | none => exact .pure _
    | some _ => exact .ite updateSubscription_does (.pure _)

theorem revokeSessionsOf_does (userIds : List Uuid) :
    (revokeSessionsOf c userIds).Does KeepsEvents :=
  .bind (.query _) fun _ => .bind (.forM (fun _ => .store _) _) fun _ => .exec fun _ => rfl

theorem handlePaymentFailed_does (dataObject : Json) :
    (handlePaymentFailed c dataObject).Does KeepsEvents :=
  .bind (invoiceSubscription_does dataObject) fun found => by
    cases found with
    | none => exact .pure _
    | some _ =>
      exact .bind updateSubscription_does fun _ => .bind (.query _) fun _ =>
        .bind (revokeSessionsOf_does _) fun _ => .bind (.query _) fun _ => .bind (.query _)
        fun _ => .forM (fun _ => .store _) _

/-- No handler reads Redis or touches the recorded events. -/
theorem handleStripeEvent_does (eventType : String) (dataObject : Json) :
    (handleStripeEvent c eventType dataObject).Does KeepsEvents := by
  unfold handleStripeEvent
  split
  · exact handleCheckoutCompleted_does dataObject
  · exact handleSubscriptionUpdated_does dataObject
  · exact handleSubscriptionDeleted_does dataObject
  · exact handleInvoicePaid_does dataObject
  · exact handlePaymentFailed_does dataObject
  · exact .pure _

theorem handling_does : (d.handling c).Does fun _ => True :=
  .bind ((handleStripeEvent_does _ _).mono fun _ _ => trivial) fun _ =>
    .bind (.exec trivial) fun _ => .bind (.query _) fun _ => .ensure _ _

theorem commits_handling_records :
    Commits (fun _ => True) (fun _ p => Records c d p) id (d.handling c) := by
  rw [Delivery.handling, commits_bind]
  have hKeeps : Commits (fun _ => True) (fun _ p => KeepsEvents p) id
      (handleStripeEvent c d.eventType d.dataObject) :=
    commits_of_does (handleStripeEvent_does _ _)
      (fun f p hf hp db => (hf (p db)).trans (hp db)) fun _ => rfl
  refine hKeeps.mono (fun _ h => h) fun _ p hp => ?_
  rw [recordStripeEvent, commits_exec_bind]
  exact commits_flush fun db => by simp only [Function.comp, hp db]

theorem commits_handling_apply (db : Db) :
    Commits (· = db) (fun _ p => d.apply c db = some (p db)) id (d.handling c) := by
  refine (commits_run handling_does {}).mono (fun _ h => h) ?_
  rintro _ p ⟨m, hRun, hDb⟩
  rw [id_eq] at hRun
  rw [Delivery.apply, hRun, ← hDb]

/-- The first statement of a delivery asks whether its event is recorded.  If it is, the delivery
commits nothing new; if not, it commits the handler and the record. -/
theorem transaction_delivery : ∃ rest, transaction c d.request = .read rest ∧ ∀ db,
    (db.Recorded d.eventId → Commits (· = db) (fun _ p => p db = db) id (rest db)) ∧
      (¬db.Recorded d.eventId →
        Commits (· = db) (fun _ p => d.apply c db = some (p db)) id (rest db) ∧
          Commits (fun _ => True) (fun _ p => Records c d p) id (rest db)) := by
  refine ⟨_, rfl, fun db => ⟨fun hRecorded => ?_, fun hNew => ?_⟩⟩
  · obtain ⟨e, hFound⟩ : ∃ e, (db.webhookEvents.find? fun e => e.stripeEventId = d.eventId) =
        some e := Option.isSome_iff_exists.mp (List.find?_isSome.mpr
          (by simpa [Db.Recorded] using hRecorded))
    simp only [hFound]
    exact commits_response rfl
  · have hFound : (db.webhookEvents.find? fun e => e.stripeEventId = d.eventId) = none :=
      List.find?_eq_none.mpr fun e he hId => hNew ⟨e, he, by simpa using hId⟩
    simp only [hFound]
    exact ⟨commits_response (commits_handling_apply db), commits_response commits_handling_records⟩

/-! ### Deliveries side by side -/

section Pool

variable {ι : Type} (w : World) (ctx : ι → Ctx) (del : ι → Delivery)

/-- The deliveries that were the first to commit for their event, where it is not among `seen`. -/
def firsts : List String → List ι → List ι
  | _, [] => []
  | seen, i :: commits =>
    if (del i).eventId ∈ seen then firsts seen commits
    else i :: firsts ((del i).eventId :: seen) commits

/-- A delivery starts when the deliveries of other events that have started have ended. -/
def InTurn (past : List (Requests ι × ι)) (step : Requests ι × ι) : Prop :=
  (∀ q ∈ past, q.2 ≠ step.2) → ∀ q ∈ past, (del q.2).eventId ≠ (del step.2).eventId →
    (step.1.thread q.2).isEnded = true

instance [DecidableEq ι] (past : List (Requests ι × ι)) (step : Requests ι × ι) :
    Decidable (InTurn del past step) := inferInstanceAs (Decidable (_ → _))

/-- Where a delivery is: it waits, it found its event recorded, it applies the handler to the
database as it is, it was beaten by another delivery of its event, or it has ended. -/
inductive Progress (past : List (Requests ι × ι)) (db : Db) (i : ι) :
    Thread Db Redis PyError Response → Prop
  | waiting : (∀ q ∈ past, q.2 ≠ i) →
      Progress past db i (.running id (transaction (ctx i) (del i).request))
  | skipping {p rest} : (∃ q ∈ past, q.2 = i) → db.Recorded (del i).eventId →
      Commits (· = db) (fun _ p => p db = db) p rest → Progress past db i (.running p rest)
  | applying {p rest} : (∃ q ∈ past, q.2 = i) → ¬db.Recorded (del i).eventId →
      Commits (· = db) (fun _ p => (del i).apply (ctx i) db = some (p db)) p rest →
      Commits (fun _ => True) (fun _ p => Records (ctx i) (del i) p) p rest →
      Progress past db i (.running p rest)
  | beaten {p rest} : (∃ q ∈ past, q.2 = i) → db.Recorded (del i).eventId →
      Commits (fun _ => True) (fun _ p => Records (ctx i) (del i) p) p rest →
      Progress past db i (.running p rest)
  | ended {result} : Progress past db i (.ended result)

def InFlight (past : List (Requests ι × ι)) (m : Requests ι) (i : ι) : Prop :=
  (∃ q ∈ past, q.2 = i) ∧ (m.thread i).isEnded = false

/-- What holds after any statements of deliveries in turn. -/
structure Processed (past : List (Requests ι × ι)) (m : Requests ι) : Prop where
  progress : ∀ i, Progress ctx del past m.stores.db i (m.thread i)
  oneEvent : ∀ i j, InFlight past m i → InFlight past m j → (del i).eventId = (del j).eventId
  recorded : ∀ id, m.stores.db.Recorded id ↔
    w.db.Recorded id ∨ ∃ i ∈ m.commits, (del i).eventId = id
  db : (firsts del (w.db.webhookEvents.map fun e => e.stripeEventId) m.commits).foldlM
    (fun db i => (del i).apply (ctx i) db) w.db = some m.stores.db
  committed : ∀ i, i ∈ m.commits ↔ (m.thread i).returned = true

variable {w ctx del} {past : List (Requests ι × ι)} {m m' : Requests ι} {i j : ι} {db : Db}

theorem firsts_snoc_seen {seen : List String} {commits : List ι}
    (h : (del i).eventId ∈ seen ∨ ∃ j ∈ commits, (del j).eventId = (del i).eventId) :
    firsts del seen (commits ++ [i]) = firsts del seen commits := by
  induction commits generalizing seen with
  | nil => simpa [firsts] using h
  | cons k commits ih =>
    simp only [List.cons_append, firsts]
    by_cases hk : (del k).eventId ∈ seen
    · rw [if_pos hk, if_pos hk]
      refine ih ?_
      rcases h with h | ⟨j, hj, hId⟩
      · exact .inl h
      · rcases List.mem_cons.mp hj with rfl | hj
        · exact .inl (hId ▸ hk)
        · exact .inr ⟨j, hj, hId⟩
    · rw [if_neg hk, if_neg hk, ih]
      rcases h with h | ⟨j, hj, hId⟩
      · exact .inl (List.mem_cons_of_mem _ h)
      · rcases List.mem_cons.mp hj with rfl | hj
        · exact .inl (hId ▸ List.mem_cons_self ..)
        · exact .inr ⟨j, hj, hId⟩

theorem firsts_snoc_new {seen : List String} {commits : List ι}
    (hSeen : (del i).eventId ∉ seen) (hNew : ∀ j ∈ commits, (del j).eventId ≠ (del i).eventId) :
    firsts del seen (commits ++ [i]) = firsts del seen commits ++ [i] := by
  induction commits generalizing seen with
  | nil => simp [firsts, hSeen]
  | cons k commits ih =>
    simp only [List.cons_append, firsts]
    have hRest : ∀ j ∈ commits, (del j).eventId ≠ (del i).eventId :=
      fun j hj => hNew j (List.mem_cons_of_mem _ hj)
    by_cases hk : (del k).eventId ∈ seen
    · rw [if_pos hk, if_pos hk, ih hSeen hRest]
    · rw [if_neg hk, if_neg hk, ih ?_ hRest, List.cons_append]
      simp only [List.mem_cons, not_or]
      exact ⟨(hNew k (List.mem_cons_self ..)).symm, hSeen⟩

theorem firsts_nodup {seen : List String} {commits : List ι} :
    ((firsts del seen commits).map fun i => (del i).eventId).Nodup ∧
      ∀ i ∈ firsts del seen commits, (del i).eventId ∉ seen := by
  induction commits generalizing seen with
  | nil => simp [firsts]
  | cons k commits ih =>
    rw [firsts]
    split
    · exact ih
    · rename_i hk
      obtain ⟨hNodup, hNew⟩ := @ih ((del k).eventId :: seen)
      simp only [List.mem_cons, not_or] at hNew
      refine ⟨List.nodup_cons.mpr ⟨?_, hNodup⟩, ?_⟩
      · intro hMem
        obtain ⟨j, hj, hId⟩ := List.mem_map.mp hMem
        exact (hNew j hj).1 hId
      · intro j hj
        rcases List.mem_cons.mp hj with rfl | hj
        · exact hk
        · exact (hNew j hj).2

theorem started_snoc {step : Requests ι × ι} (h : ∃ q ∈ past, q.2 = j) :
    ∃ q ∈ past ++ [step], q.2 = j := by
  obtain ⟨q, hq, rfl⟩ := h
  exact ⟨q, List.mem_append_left _ hq, rfl⟩

theorem Progress.other {t : Thread Db Redis PyError Response} (h : Progress ctx del past db j t)
    (hne : j ≠ i) : Progress ctx del (past ++ [(m, i)]) db j t := by
  cases h with
  | waiting hNot => exact .waiting (Requests.waiting_snoc hNot hne)
  | skipping hStarted hRecorded hCommits => exact .skipping (started_snoc hStarted) hRecorded hCommits
  | applying hStarted hNew hApply hRecords =>
    exact .applying (started_snoc hStarted) hNew hApply hRecords
  | beaten hStarted hRecorded hRecords => exact .beaten (started_snoc hStarted) hRecorded hRecords
  | ended => exact .ended

theorem Db.Recorded.of_records {writes : Db → Db} {c : Ctx} {d : Delivery}
    (h : Records c d writes) (id : String) :
    (writes db).Recorded id ↔ db.Recorded id ∨ d.eventId = id := by
  simp only [Db.Recorded, h db, List.mem_append, List.mem_singleton]
  constructor
  · rintro ⟨e, he | rfl, hId⟩
    · exact .inl ⟨e, he, hId⟩
    · exact .inr hId
  · rintro (⟨e, he, hId⟩ | hId)
    · exact ⟨e, .inl he, hId⟩
    · exact ⟨_, .inr rfl, hId⟩

theorem not_valid_of_recorded {writes : Db → Db} {c : Ctx} {d : Delivery}
    (h : Records c d writes) (hRecorded : db.Recorded d.eventId) : ¬(writes db).Valid := by
  intro hValid
  have hNodup := hValid.stripeEventId
  rw [h db, List.map_append, List.nodup_append] at hNodup
  obtain ⟨e, he, hId⟩ := hRecorded
  exact hNodup.2.2 _ (List.mem_map.mpr ⟨e, he, hId⟩) d.eventId (by simp) rfl

/-- Where a delivery is after one of its own statements that did not end it. -/
theorem Progress.running {s : World} {p : Db → Db} {rest : App Response}
    (h : Progress ctx del past m.stores.db i (m.thread i))
    (hStep : (m.thread i).step Db.Valid .integrityError m.stores = some (s, .running p rest)) :
    s.db = m.stores.db ∧ Progress ctx del (past ++ [(m, i)]) s.db i (.running p rest) := by
  have hStarted : ∃ q ∈ past ++ [(m, i)], q.2 = i := ⟨(m, i), by simp, rfl⟩
  generalize m.thread i = thread at h hStep
  cases h with
  | waiting =>
    obtain ⟨next, hSelect, hNext⟩ := transaction_delivery (c := ctx i) (d := del i)
    rw [hSelect] at hStep
    obtain ⟨rfl, hRunning⟩ := Prod.mk.inj (Option.some.inj hStep)
    obtain ⟨rfl, rfl⟩ := Thread.running.inj hRunning
    refine ⟨rfl, ?_⟩
    by_cases hRecorded : m.stores.db.Recorded (del i).eventId
    · exact .skipping hStarted hRecorded ((hNext m.stores.db).1 hRecorded)
    · obtain ⟨hApply, hRecords⟩ := (hNext m.stores.db).2 hRecorded
      exact .applying hStarted hRecorded hApply hRecords
  | skipping _ hRecorded hCommits =>
    have hDb := Thread.step_running hStep
    rw [hDb]
    exact ⟨rfl, .skipping hStarted hRecorded (hCommits.step rfl hStep)⟩
  | applying _ hNew hApply hRecords =>
    have hDb := Thread.step_running hStep
    rw [hDb]
    exact ⟨rfl, .applying hStarted hNew (hApply.step rfl hStep) (hRecords.step trivial hStep)⟩
  | beaten _ hRecorded hRecords =>
    have hDb := Thread.step_running hStep
    rw [hDb]
    exact ⟨rfl, .beaten hStarted hRecorded (hRecords.step trivial hStep)⟩
  | ended => cases hStep

/-- What a delivery commits: nothing if its event is recorded, else its handler and its record. -/
theorem Progress.commits {s : World} {a : Response}
    (h : Progress ctx del past m.stores.db i (m.thread i))
    (hStep : (m.thread i).step Db.Valid .integrityError m.stores = some (s, .ended (.ok a))) :
    m.stores.db.Recorded (del i).eventId ∧ s.db = m.stores.db ∨
      ¬m.stores.db.Recorded (del i).eventId ∧ (del i).apply (ctx i) m.stores.db = some s.db ∧
        ∃ writes, s.db = writes m.stores.db ∧ Records (ctx i) (del i) writes := by
  generalize m.thread i = thread at h hStep
  cases h with
  | waiting =>
    obtain ⟨next, hSelect, -⟩ := transaction_delivery (c := ctx i) (d := del i)
    rw [hSelect] at hStep
    cases hStep
  | skipping _ hRecorded hCommits =>
    obtain ⟨-, -, rfl⟩ := Thread.step_ok hStep
    exact .inl ⟨hRecorded, hCommits.step_ok hStep⟩
  | @applying p _ _ hNew hApply hRecords =>
    obtain ⟨-, -, rfl⟩ := Thread.step_ok hStep
    exact .inr ⟨hNew, hApply.step_ok hStep, p, rfl, hRecords.step_ok hStep⟩
  | beaten _ hRecorded hRecords =>
    obtain ⟨-, hValid, -⟩ := Thread.step_ok hStep
    exact absurd hValid (not_valid_of_recorded (hRecords.step_ok hStep) hRecorded)
  | ended => cases hStep

variable [DecidableEq ι]

/-- A delivery that is in flight after a statement is of the event of that statement. -/
theorem Processed.inFlight_after {s : World} {t : Thread Db Redis PyError Response}
    (hTurn : InTurn del past (m, i)) (h : Processed w ctx del past m)
    (hOpen : (m.thread i).isEnded = false)
    (hj : InFlight (past ++ [(m, i)]) (m.after i s t) j) : (del j).eventId = (del i).eventId := by
  by_cases hji : j = i
  · rw [hji]
  · obtain ⟨⟨q, hq, rfl⟩, hEnded⟩ := hj
    rw [Pool.after_thread_other hji] at hEnded
    have hq : q ∈ past := by
      rcases List.mem_append.mp hq with hq | hq
      · exact hq
      · exact absurd (congrArg Prod.snd (List.mem_singleton.mp hq)) hji
    by_cases hStarted : ∃ p ∈ past, p.2 = i
    · exact h.oneEvent _ _ ⟨⟨q, hq, rfl⟩, hEnded⟩ ⟨hStarted, hOpen⟩
    · by_contra hOther
      have hOver := hTurn (fun p hp hEq => hStarted ⟨p, hp, hEq⟩) q hq hOther
      rw [hOver] at hEnded
      cases hEnded

theorem Processed.quiet {s : World} {t : Thread Db Redis PyError Response}
    (hTurn : InTurn del past (m, i)) (h : Processed w ctx del past m)
    (hStep : (m.thread i).step Db.Valid .integrityError m.stores = some (s, t))
    (hDb : s.db = m.stores.db) (hQuiet : t.returned = false)
    (hProgress : Progress ctx del (past ++ [(m, i)]) m.stores.db i t) :
    Processed w ctx del (past ++ [(m, i)]) (m.after i s t) := by
  obtain ⟨hOpen, hNotReturned⟩ := Thread.open_of_step hStep
  refine ⟨fun j => ?_, fun j k hj hk => ?_, ?_, ?_, fun j => ?_⟩
  · rw [Pool.after_stores, hDb]
    by_cases hji : j = i
    · subst hji
      rwa [Pool.after_thread_same]
    · rw [Pool.after_thread_other hji]
      exact (h.progress j).other hji
  · exact (h.inFlight_after hTurn hOpen hj).trans (h.inFlight_after hTurn hOpen hk).symm
  · rw [Pool.after_stores, hDb, Pool.after_commits hQuiet]
    exact h.recorded
  · rw [Pool.after_stores, hDb, Pool.after_commits hQuiet]
    exact h.db
  · rw [Pool.after_commits hQuiet, h.committed]
    by_cases hji : j = i
    · subst hji
      rw [Pool.after_thread_same, hQuiet, hNotReturned]
    · rw [Pool.after_thread_other hji]

theorem Processed.committed_after {s : World} {a : Response} (h : Processed w ctx del past m)
    (j : ι) : j ∈ (m.after i s (.ended (.ok a))).commits ↔
      ((m.after i s (.ended (.ok a))).thread j).returned = true := by
  rw [Pool.after_commits_returned rfl, List.mem_append, List.mem_singleton, h.committed]
  by_cases hji : j = i
  · subst hji
    simp [Thread.returned]
  · rw [Pool.after_thread_other hji]
    simp [hji]

theorem Processed.skip {s : World} {a : Response} (hTurn : InTurn del past (m, i))
    (h : Processed w ctx del past m)
    (hStep : (m.thread i).step Db.Valid .integrityError m.stores = some (s, .ended (.ok a)))
    (hRecorded : m.stores.db.Recorded (del i).eventId) (hDb : s.db = m.stores.db) :
    Processed w ctx del (past ++ [(m, i)]) (m.after i s (.ended (.ok a))) := by
  have hOpen := (Thread.open_of_step hStep).1
  have hBefore := (h.recorded (del i).eventId).mp hRecorded
  refine ⟨fun j => ?_, fun j k hj hk => ?_, fun id => ?_, ?_, h.committed_after⟩
  · rw [Pool.after_stores, hDb]
    by_cases hji : j = i
    · subst hji
      rw [Pool.after_thread_same]
      exact .ended
    · rw [Pool.after_thread_other hji]
      exact (h.progress j).other hji
  · exact (h.inFlight_after hTurn hOpen hj).trans (h.inFlight_after hTurn hOpen hk).symm
  · rw [Pool.after_stores, hDb, Pool.after_commits_returned rfl, h.recorded]
    simp only [List.mem_append, List.mem_singleton]
    constructor
    · rintro (hOld | ⟨j, hj, hId⟩)
      · exact .inl hOld
      · exact .inr ⟨j, .inl hj, hId⟩
    · rintro (hOld | ⟨j, hj | rfl, hId⟩)
      · exact .inl hOld
      · exact .inr ⟨j, hj, hId⟩
      · exact hId ▸ hBefore
  · rw [Pool.after_stores, hDb, Pool.after_commits_returned rfl, firsts_snoc_seen]
    · exact h.db
    · exact hBefore.imp (fun ⟨e, he, hId⟩ => List.mem_map.mpr ⟨e, he, hId⟩) fun h => h

/-- The first commit of an event: the other deliveries in flight are of the same event, and are
beaten. -/
theorem Processed.first {s : World} {a : Response} {writes : Db → Db}
    (hTurn : InTurn del past (m, i)) (h : Processed w ctx del past m)
    (hStep : (m.thread i).step Db.Valid .integrityError m.stores = some (s, .ended (.ok a)))
    (hNew : ¬m.stores.db.Recorded (del i).eventId)
    (hApply : (del i).apply (ctx i) m.stores.db = some s.db) (hDb : s.db = writes m.stores.db)
    (hRecords : Records (ctx i) (del i) writes) :
    Processed w ctx del (past ++ [(m, i)]) (m.after i s (.ended (.ok a))) := by
  have hOpen := (Thread.open_of_step hStep).1
  have hRecorded (id : String) : s.db.Recorded id ↔
      m.stores.db.Recorded id ∨ (del i).eventId = id := hDb ▸ Db.Recorded.of_records hRecords id
  have hNotBefore : ¬(w.db.Recorded (del i).eventId ∨
      ∃ j ∈ m.commits, (del j).eventId = (del i).eventId) := fun hBefore =>
    hNew ((h.recorded _).mpr hBefore)
  refine ⟨fun j => ?_, fun j k hj hk => ?_, fun id => ?_, ?_, h.committed_after⟩
  · rw [Pool.after_stores]
    by_cases hji : j = i
    · subst hji
      rw [Pool.after_thread_same]
      exact .ended
    · rw [Pool.after_thread_other hji]
      have hj := h.progress j
      have hSame (hStarted : ∃ q ∈ past, q.2 = j) (hRunning : (m.thread j).isEnded = false) :
          (del j).eventId = (del i).eventId :=
        h.inFlight_after hTurn hOpen (s := s) (t := .ended (.ok a))
          ⟨started_snoc hStarted, by rwa [Pool.after_thread_other hji]⟩
      generalize m.thread j = thread at hj hSame
      cases hj with
      | waiting hNot => exact Progress.other (.waiting hNot) hji
      | skipping hStarted hOld _ => exact absurd (hSame hStarted rfl ▸ hOld) hNew
      | applying hStarted _ _ hRecordsJ =>
        exact .beaten (started_snoc hStarted)
          ((hRecorded _).mpr (.inr (hSame hStarted rfl).symm)) hRecordsJ
      | beaten hStarted hOld _ => exact absurd (hSame hStarted rfl ▸ hOld) hNew
      | ended => exact .ended
  · exact (h.inFlight_after hTurn hOpen hj).trans (h.inFlight_after hTurn hOpen hk).symm
  · rw [Pool.after_stores, hRecorded, h.recorded, Pool.after_commits_returned rfl, or_assoc]
    simp only [List.mem_append, List.mem_singleton, or_and_right, exists_or, exists_eq_left]
  · rw [Pool.after_stores, Pool.after_commits_returned rfl, firsts_snoc_new, List.foldlM_append,
      h.db]
    · simpa using hApply
    · intro hSeen
      obtain ⟨e, he, hId⟩ := List.mem_map.mp hSeen
      exact hNotBefore (.inl ⟨e, he, hId⟩)
    · exact fun j hj hId => hNotBefore (.inr ⟨j, hj, hId⟩)

theorem Processed.step (hTurn : InTurn del past (m, i)) (h : Processed w ctx del past m)
    (hStep : Requests.Step m i m') : Processed w ctx del (past ++ [(m, i)]) m' := by
  obtain ⟨s, t, hThread, rfl⟩ := Pool.step_some hStep
  have hProgress := h.progress i
  cases t with
  | running p rest =>
    obtain ⟨hDb, hNext⟩ := hProgress.running hThread
    exact h.quiet hTurn hThread hDb rfl (hDb ▸ hNext)
  | ended result =>
    cases result with
    | error e => exact h.quiet hTurn hThread (Thread.step_error_db hThread) rfl .ended
    | ok a =>
      rcases hProgress.commits hThread with ⟨hRecorded, hDb⟩ | ⟨hNew, hApply, writes, hDb, hRecords⟩
      · exact h.skip hTurn hThread hRecorded hDb
      · exact h.first hTurn hThread hNew hApply hDb hRecords

theorem processed_of_run {steps : List (Requests ι × ι)}
    (hRun : Run Requests.Step (Requests.start w ctx fun i => (del i).request) steps m)
    (hTurns : AtEach (InTurn del) steps) : Processed w ctx del steps m := by
  induction hRun with
  | nil =>
    refine ⟨fun i => .waiting (by simp), ?_, fun id => ?_, rfl, fun i => ?_⟩
    · rintro i j ⟨⟨q, hq, -⟩, -⟩
      cases hq
    · simp [Requests.start, Pool.start]
    · simp [Requests.start, Pool.start, Thread.returned]
  | snoc _ hStep ih =>
    obtain ⟨hEarlier, hNow⟩ := atEach_snoc.mp hTurns
    exact (ih hEarlier).step hNow hStep

/-- Deliveries side by side, those of different events in turn.  The database is what the handlers
make of it when each is applied once, to the first delivery of every event that committed, in the
order of the commits.  The events recorded since the start are those of the deliveries that
returned, and a delivery that raises leaves the database as it was. -/
theorem webhook_exactly_once {steps : List (Requests ι × ι)}
    (hRun : Run Requests.Step (Requests.start w ctx fun i => (del i).request) steps m)
    (hTurns : AtEach (InTurn del) steps) :
    let first := firsts del (w.db.webhookEvents.map fun e => e.stripeEventId) m.commits
    first.foldlM (fun db i => (del i).apply (ctx i) db) w.db = some m.stores.db ∧
      (first.map fun i => (del i).eventId).Nodup ∧
      (∀ id, m.stores.db.Recorded id ↔ w.db.Recorded id ∨
        ∃ i a, m.thread i = .ended (.ok a) ∧ (del i).eventId = id) ∧
      ∀ step ∈ steps, ∀ m' e, Requests.Step step.1 step.2 m' →
        m'.thread step.2 = .ended (.error e) → m'.stores.db = step.1.stores.db := by
  have h := processed_of_run hRun hTurns
  refine ⟨h.db, firsts_nodup.1, fun id => ?_, fun step hMem m' e hStep hRaised => ?_⟩
  · rw [h.recorded]
    refine or_congr_right ⟨?_, ?_⟩
    · rintro ⟨i, hi, hId⟩
      obtain ⟨a, hReturned⟩ := Thread.returned_iff.mp ((h.committed i).mp hi)
      exact ⟨i, a, hReturned, hId⟩
    · rintro ⟨i, a, hReturned, hId⟩
      exact ⟨i, (h.committed i).mpr (Thread.returned_iff.mpr ⟨a, hReturned⟩), hId⟩
  · obtain ⟨s, t, hThread, rfl⟩ := Pool.step_some hStep
    rw [Pool.after_thread_same] at hRaised
    subst hRaised
    exact Thread.step_error_db hThread

end Pool

/-! ### Three deliveries -/

def overdue : TenantSubscription where
  tenantId := ⟨1⟩
  planId := ⟨1⟩
  stripeSubscriptionId := some "sub_1"
  status := .pastDue

def overdueDb : Db where
  tenants := [{ id := ⟨1⟩, name := "Acme", slug := "acme" }]
  plans := [samplePlan]
  subscriptions := [overdue]

def overdueStart : World := ⟨overdueDb, {}⟩

def threeContexts (i : Fin 3) : Ctx := ⟨sampleConfig, seconds 10, sampleDraws i.val⟩

/-- The payment, delivered twice, and a checkout whose tenant is no UUID. -/
def threeDeliveries (i : Fin 3) : Delivery :=
  if i = 2 then ⟨"evt_2", "checkout.session.completed",
    .obj [("metadata", .obj [("tenant_id", .str "acme"), ("plan_id", .str "free")])]⟩
  else ⟨"evt_1", "invoice.paid", .obj [("subscription", .str "sub_1")]⟩

/-- The two deliveries of the payment overlap, and the checkout follows. -/
def delivered : List (Requests (Fin 3) × Fin 3) × Requests (Fin 3) :=
  (Requests.start overdueStart threeContexts fun i => (threeDeliveries i).request).trace
    ([1, 0] ++ List.replicate 9 0 ++ List.replicate 9 1 ++ List.replicate 9 2)

example : delivered.2.commits = [0] := by rfl

/-- The law at these deliveries. -/
theorem webhook_exactly_once_delivered :
    let first := firsts threeDeliveries
      (overdueStart.db.webhookEvents.map fun e => e.stripeEventId) delivered.2.commits
    first.foldlM (fun db i => (threeDeliveries i).apply (threeContexts i) db) overdueStart.db =
        some delivered.2.stores.db ∧
      (first.map fun i => (threeDeliveries i).eventId).Nodup ∧
      (∀ id, delivered.2.stores.db.Recorded id ↔ overdueStart.db.Recorded id ∨
        ∃ i a, delivered.2.thread i = .ended (.ok a) ∧ (threeDeliveries i).eventId = id) ∧
      ∀ step ∈ delivered.1, ∀ m' e, Requests.Step step.1 step.2 m' →
        m'.thread step.2 = .ended (.error e) → m'.stores.db = step.1.stores.db :=
  webhook_exactly_once (Requests.run_trace _ _) (by decide)

end WxcodeAdm
