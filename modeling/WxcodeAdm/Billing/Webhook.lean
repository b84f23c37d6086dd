import WxcodeAdm.Billing.Enrolments
import WxcodeAdm.Lib.JobQueue

/-! `billing/webhook_router.py`, and the way of a Stripe event from there to the worker: the event of
a body whose signature is right is put in the queue under its id, and the worker tries the events
that wait, in any order and as often as it takes, or gives them up.  Without the queue this is the
backend. -/

namespace WxcodeAdm

open Lib

/-- What `stripe.Webhook.construct_event` raises. -/
inductive WebhookError where
  | valueError
  | signatureVerificationError

structure HttpException where
  statusCode : Nat
  detail : String

def WebhookError.response : WebhookError → HttpException
  | .valueError => ⟨400, "Invalid payload"⟩
  | .signatureVerificationError => ⟨400, "Invalid signature"⟩

/-- `stripe.Webhook.construct_event`, and the secret of the endpoint. -/
structure WebhookConfig where
  constructEvent : (payload : List UInt8) → (sigHeader secret : String) →
    Except WebhookError Delivery
  stripeWebhookSecret : String

variable (webhooks : WebhookConfig)

/-- The queue of the worker, where `_job_id` is the id of the event. -/
abbrev EventQueue : Type := JobQueue Delivery String

def stripeWebhook (body : List UInt8) (stripeSignature : String) (queue : EventQueue) :
    Except HttpException EventQueue :=
  match webhooks.constructEvent body stripeSignature webhooks.stripeWebhookSecret with
  | .error error => .error error.response
  | .ok event => .ok (queue.enqueue Delivery.eventId event)

/-- The backend and the events that wait for its worker. -/
structure Pipeline where
  backend : Backend
  queue : EventQueue

/-- A call of the webhook, a try of the worker at an event, the end of an event that the worker gives
up, the end of a result that was kept, or anything else that the backend does. -/
inductive PipelineEvent where
  | action (a : Action)
  | webhook (body : List UInt8) (stripeSignature : String)
  | job (event : Delivery) (e : Event) (finishes : Bool)
  | drop (event : Delivery)
  | expiry (eventId : String)

namespace PipelineEvent

/-- What the backend does. -/
def backend : PipelineEvent → Option Action
  | action a => some a
  | job _ e _ => some (.request e)
  | _ => none

/-- What happens to the queue. -/
def queue : PipelineEvent → Option (QueueAct Delivery String)
  | action _ => none
  | webhook body stripeSignature =>
    match webhooks.constructEvent body stripeSignature webhooks.stripeWebhookSecret with
    | .error _ => none
    | .ok event => some (.offers event)
  | job event _ finishes => some (.runs event finishes)
  | drop event => some (.drops event)
  | expiry eventId => some (.forgets eventId)

end PipelineEvent

def Action.isStripeEvent : Action → Bool
  | .request e =>
    match e.request with
    | .stripeEvent .. => true
    | _ => false
  | .plan .. => false

inductive PipelineStep (cfg : Config) (p : Pipeline) : PipelineEvent → Pipeline → Prop
  | action {a b} (other : a.isStripeEvent = false) (step : BackendStep cfg p.backend a b) :
      PipelineStep cfg p (.action a) ⟨b, p.queue⟩
  | accepted {body stripeSignature queue}
      (response : stripeWebhook webhooks body stripeSignature p.queue = .ok queue) :
      PipelineStep cfg p (.webhook body stripeSignature) ⟨p.backend, queue⟩
  | refused {body stripeSignature error}
      (response : stripeWebhook webhooks body stripeSignature p.queue = .error error) :
      PipelineStep cfg p (.webhook body stripeSignature) p
  | job {event e b} (waits : event ∈ p.queue.jobs) (request : e.request = event.request)
      (step : BackendStep cfg p.backend (.request e) b) (finishes) :
      PipelineStep cfg p (.job event e finishes)
        ⟨b, p.queue.tried Delivery.eventId event.eventId finishes⟩
  | drop {event} (waits : event ∈ p.queue.jobs) :
      PipelineStep cfg p (.drop event)
        ⟨p.backend, p.queue.finished Delivery.eventId event.eventId⟩
  | expiry (eventId) : PipelineStep cfg p (.expiry eventId) ⟨p.backend, p.queue.forget eventId⟩

variable {webhooks} {cfg : Config} {p p' : Pipeline} {event : PipelineEvent}
  {steps : List (Pipeline × PipelineEvent)}

/-- The steps of the backend, and of the queue. -/
def backendSteps (steps : List (Pipeline × PipelineEvent)) : List (Backend × Action) :=
  steps.filterMap fun q => q.2.backend.map fun a => (q.1.backend, a)

def queueSteps (webhooks : WebhookConfig) (steps : List (Pipeline × PipelineEvent)) :
    List (EventQueue × QueueAct Delivery String) :=
  steps.filterMap fun q => (q.2.queue webhooks).map fun act => (q.1.queue, act)

theorem backend_runs (h : Run (PipelineStep webhooks cfg) p steps p') :
    Run (BackendStep cfg) p.backend (backendSteps steps) p'.backend := by
  refine h.filterMap (f := Pipeline.backend) (g := fun q => q.2.backend) fun {m l n} hStep => ?_
  cases hStep with
  | action other step => exact ⟨fun a ha => Option.some.inj ha ▸ step, fun h => (by cases h)⟩
  | job waits request step finishes =>
    exact ⟨fun a ha => Option.some.inj ha ▸ step, fun h => (by cases h)⟩
  | _ => exact ⟨fun a ha => (by cases ha), fun _ => rfl⟩

theorem queue_runs (h : Run (PipelineStep webhooks cfg) p steps p') :
    Run (JobQueue.Step Delivery.eventId) p.queue (queueSteps webhooks steps) p'.queue := by
  refine h.filterMap (f := Pipeline.queue) (g := fun q => q.2.queue webhooks)
    fun {m l n} hStep => ?_
  cases hStep with
  | action other step => exact ⟨fun a ha => (by cases ha), fun _ => rfl⟩
  | accepted response =>
    unfold stripeWebhook at response
    split at response
    · cases response
    · rename_i event hEvent
      obtain rfl := Except.ok.inj response
      simp only [PipelineEvent.queue, hEvent]
      exact ⟨fun a ha => Option.some.inj ha ▸ .offers event, fun h => (by cases h)⟩
  | refused response =>
    unfold stripeWebhook at response
    split at response
    · rename_i error hError
      simp only [PipelineEvent.queue, hError]
      exact ⟨fun a ha => (by cases ha), fun _ => trivial⟩
    · cases response
  | job waits request step finishes =>
    exact ⟨fun a ha => Option.some.inj ha ▸ .runs waits finishes, fun h => (by cases h)⟩
  | drop waits => exact ⟨fun a ha => Option.some.inj ha ▸ .drops waits, fun h => (by cases h)⟩
  | expiry eventId =>
    exact ⟨fun a ha => Option.some.inj ha ▸ .forgets eventId, fun h => (by cases h)⟩

/-! ### Where the events come from, and where they go -/

/-- A call of the webhook has brought an event that Stripe has signed. -/
def Accepts (webhooks : WebhookConfig) (q : Pipeline × PipelineEvent) (event : Delivery) : Prop :=
  ∃ body stripeSignature, q.2 = .webhook body stripeSignature ∧
    webhooks.constructEvent body stripeSignature webhooks.stripeWebhookSecret = .ok event

theorem accepts_iff {q : Pipeline × PipelineEvent} {event : Delivery} :
    Accepts webhooks q event ↔ q.2.queue webhooks = some (.offers event) := by
  obtain ⟨state, label⟩ := q
  cases label with
  | webhook body stripeSignature =>
    simp only [Accepts, PipelineEvent.queue, PipelineEvent.webhook.injEq]
    constructor
    · rintro ⟨_, _, ⟨rfl, rfl⟩, hEvent⟩
      rw [hEvent]
    · intro hOffer
      split at hOffer
      · cases hOffer
      · rename_i event' hEvent
        obtain rfl : event' = event := by simpa using hOffer
        exact ⟨body, stripeSignature, ⟨rfl, rfl⟩, hEvent⟩
  | _ => simp [Accepts, PipelineEvent.queue]

/-- A request for a Stripe event is a try of the worker at it. -/
theorem PipelineStep.job_of_stripeEvent (h : PipelineStep webhooks cfg p event p') {e : Event}
    (hBackend : event.backend = some (.request e)) {eventId eventType : String} {dataObject : Json}
    (hRequest : e.request = .stripeEvent eventId eventType dataObject) :
    ∃ finishes, event = .job ⟨eventId, eventType, dataObject⟩ e finishes := by
  cases h with
  | action other step =>
    obtain rfl := Option.some.inj hBackend
    simp [Action.isStripeEvent, hRequest] at other
  | @job event e' b waits request step finishes =>
    obtain rfl : e' = e := by simpa [PipelineEvent.backend] using hBackend
    obtain ⟨rfl, rfl, rfl⟩ := Request.stripeEvent.inj (request.symm.trans hRequest)
    exact ⟨finishes, rfl⟩
  | _ => cases hBackend

end WxcodeAdm
