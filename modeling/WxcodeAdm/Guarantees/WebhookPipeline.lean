import WxcodeAdm.Billing.Webhook
import WxcodeAdm.Guarantees.BillingIsolation

/-! What the way of the Stripe events to the worker guarantees, whatever is delivered, and whenever
and how often the worker tries it: what the worker is told was signed by Stripe, and tells the
enrolments everything once. -/

namespace WxcodeAdm

open Lib

variable {webhooks : WebhookConfig} {cfg : Config} {p p' : Pipeline}
  {steps : List (Pipeline × PipelineEvent)}

/-- Every event that the worker tries is one that a call of the webhook has brought before, signed
by Stripe. -/
theorem events_signed (hEmpty : p.queue = {}) (h : Run (PipelineStep webhooks cfg) p steps p') :
    AtEach (fun pre q => ∀ event e finishes, q.2 = .job event e finishes →
      ∃ r ∈ pre, Accepts webhooks r event) steps := by
  have hQueue := queue_runs h
  rw [hEmpty] at hQueue
  refine (JobQueue.offered_run hQueue).2.of_filterMap.mono fun pre q hq event e finishes hJob => ?_
  obtain ⟨act, hAct, hOffer⟩ := hq (q.1.queue, .runs event finishes)
    (by rw [hJob]; rfl) event finishes rfl
  obtain ⟨r, hr, hSome⟩ := List.mem_filterMap.mp hAct
  obtain ⟨offer, hIs, rfl⟩ := Option.map_eq_some_iff.mp hSome
  exact ⟨r, hr, accepts_iff.mpr (hIs.trans (congrArg some hOffer))⟩

/-- The enrolments go through the runs that the backend knows, and whatever Stripe tells in them was
brought by the webhook before, and tells it once. -/
theorem billing_signed (hSound : p.backend.sys.Sound cfg) (hEmpty : p.queue = {})
    (hRun : Run (PipelineStep webhooks cfg) p steps p') :
    ((backendSteps steps).filterMap fun q => q.2.tells cfg q.1).Nodup ∧
      AtEach (fun pre q => ∀ e fact, q.2.backend = some (.request e) →
        e.fact cfg q.1.backend.sys.world.db = some fact →
        ∃ r ∈ pre, ∃ event, Accepts webhooks r event ∧ e.request = event.request) steps ∧
      ∀ tenantId, ∃ acts,
        Run Enrolment.Step (p.backend.enrolment tenantId) acts (p'.backend.enrolment tenantId) ∧
        BilledBy cfg tenantId (backendSteps steps) acts := by
  have hBackend := backend_runs hRun
  refine ⟨(tells_once hBackend).1, ?_, fun tenantId => enrolment_run hSound hBackend tenantId⟩
  rintro pre q post hSteps e fact hRequest hFact
  obtain ⟨n, -, hStep, -⟩ := hRun.split_at hSteps
  unfold Event.fact at hFact
  split at hFact
  · rename_i eventId eventType dataObject response hIs hOutcome
    obtain ⟨finishes, hJob⟩ := hStep.job_of_stripeEvent hRequest hIs
    obtain ⟨r, hr, hAccepts⟩ := events_signed hEmpty hRun pre q post hSteps _ _ _ hJob
    exact ⟨r, hr, _, hAccepts, hIs⟩
  · cases hFact

/-! ### A body that is delivered twice -/

def teamBoughtEvent : Delivery where
  eventId := "evt_1"
  eventType := "checkout.session.completed"
  dataObject := .obj
    [("metadata", .obj [("tenant_id", .str "7"), ("plan_id", .str "2")]),
      ("subscription", .str "sub_1")]

/-- A stand-in for Stripe's library: there is one body that it reads, and a signature is right that
holds the secret. -/
def sampleWebhooks : WebhookConfig where
  constructEvent := fun body sigHeader secret =>
    if sigHeader = "v1=" ++ secret then
      if body = [1] then .ok teamBoughtEvent else .error .valueError
    else .error .signatureVerificationError
  stripeWebhookSecret := "whsec"

/-- Before, between and after the two deliveries, and after the try of the worker. -/
def webhookStart : Pipeline := ⟨⟨billingStart, {}⟩, {}⟩

def webhookWaiting : Pipeline := ⟨⟨billingStart, {}⟩, ⟨[teamBoughtEvent], []⟩⟩

def webhookProcessed : Pipeline := ⟨⟨teamBought.2, {}⟩, ⟨[], ["evt_1"]⟩⟩

def deliveredTwice : List (Pipeline × PipelineEvent) :=
  [(webhookStart, .webhook [1] "v1=whsec"), (webhookWaiting, .webhook [1] "v1=whsec"),
    (webhookWaiting, .webhook [2] "v1=guess"),
    (webhookWaiting, .job teamBoughtEvent teamBought.1 true)]

theorem deliveredTwice_run :
    Run (PipelineStep sampleWebhooks billingConfig) webhookStart deliveredTwice
      webhookProcessed :=
  .cons (m := webhookWaiting) (.accepted rfl) <| .cons (m := webhookWaiting) (.accepted rfl) <|
    .cons (m := webhookWaiting) (@PipelineStep.refused _ _ _ _ _ ⟨400, "Invalid signature"⟩ rfl) <|
    .single (.job (by simp [webhookWaiting]) rfl (.request (.of_admits (by decide) (by trivial)))
      true)

theorem billing_signed_deliveredTwice :
    ((backendSteps deliveredTwice).filterMap fun q => q.2.tells billingConfig q.1).Nodup ∧
      AtEach (fun pre q => ∀ e fact, q.2.backend = some (.request e) →
        e.fact billingConfig q.1.backend.sys.world.db = some fact →
        ∃ r ∈ pre, ∃ event, Accepts sampleWebhooks r event ∧ e.request = event.request)
        deliveredTwice ∧
      ∀ tenantId, ∃ acts,
        Run Enrolment.Step (webhookStart.backend.enrolment tenantId) acts
          (webhookProcessed.backend.enrolment tenantId) ∧
        BilledBy billingConfig tenantId (backendSteps deliveredTwice) acts :=
  billing_signed billingStart_initial.sound rfl deliveredTwice_run

end WxcodeAdm
