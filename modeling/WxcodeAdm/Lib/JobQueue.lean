import WxcodeAdm.Lib.Run

/-! A queue of jobs with keys.  A job is taken in unless one with its key waits or the result of one
is kept; a worker runs any job that waits, and finishes it or leaves it for another try, or drops it
without one, because it has waited for too long or has been tried too often; results are forgotten
in the end. -/

namespace WxcodeAdm.Lib

structure JobQueue (α κ : Type) where
  jobs : List α := []
  results : List κ := []

inductive QueueAct (α κ : Type) where
  | offers (job : α)
  | runs (job : α) (finishes : Bool)
  | drops (job : α)
  | forgets (k : κ)

namespace JobQueue

variable {α κ : Type} (key : α → κ) [DecidableEq κ]

def enqueue (q : JobQueue α κ) (job : α) : JobQueue α κ :=
  if key job ∈ q.jobs.map key ∨ key job ∈ q.results then q
  else { q with jobs := q.jobs ++ [job] }

/-- The queue when a job with a key has come to its end, which counts as its result. -/
def finished (q : JobQueue α κ) (k : κ) : JobQueue α κ where
  jobs := q.jobs.filter fun job => key job ≠ k
  results := q.results ++ [k]

/-- The queue after a try at a job with a key. -/
def tried (q : JobQueue α κ) (k : κ) (finishes : Bool) : JobQueue α κ :=
  if finishes then q.finished key k else q

def forget (q : JobQueue α κ) (k : κ) : JobQueue α κ :=
  { q with results := q.results.filter fun k' => k' ≠ k }

inductive Step (q : JobQueue α κ) : QueueAct α κ → JobQueue α κ → Prop
  | offers (job) : Step q (.offers job) (q.enqueue key job)
  | runs {job} (waits : job ∈ q.jobs) (finishes) :
      Step q (.runs job finishes) (q.tried key (key job) finishes)
  | drops {job} (waits : job ∈ q.jobs) : Step q (.drops job) (q.finished key (key job))
  | forgets (k) : Step q (.forgets k) (q.forget k)

variable {key} {q q' : JobQueue α κ} {act : QueueAct α κ}
  {steps : List (JobQueue α κ × QueueAct α κ)}

/-- What waits after a step waited before it, or is offered in it. -/
theorem Step.waits (h : Step key q act q') {job : α} (hJob : job ∈ q'.jobs) :
    job ∈ q.jobs ∨ act = .offers job := by
  cases h with
  | offers offered =>
    unfold enqueue at hJob
    split at hJob
    · exact .inl hJob
    · rcases List.mem_append.mp hJob with hOld | hNew
      · exact .inl hOld
      · exact .inr (by rw [List.mem_singleton.mp hNew])
  | runs _ finishes =>
    unfold tried at hJob
    split at hJob
    · exact .inl (List.mem_filter.mp hJob).1
    · exact .inl hJob
  | drops => exact .inl (List.mem_filter.mp hJob).1
  | forgets => exact .inl hJob

/-- In a run of a queue that is empty at first, what waits was offered, and what is run was offered
before. -/
theorem offered_run (h : Run (Step key) {} steps q) :
    (∀ job ∈ q.jobs, ∃ p ∈ steps, p.2 = .offers job) ∧
      AtEach (fun pre p => ∀ job finishes, p.2 = .runs job finishes →
        ∃ p' ∈ pre, p'.2 = .offers job) steps := by
  induction h with
  | nil => exact ⟨by simp, atEach_nil⟩
  | @snoc steps m q act _ hStep ih =>
    obtain ⟨hWaits, hRuns⟩ := ih
    refine ⟨fun job hJob => ?_, atEach_snoc.mpr ⟨hRuns, fun job finishes hAct => ?_⟩⟩
    · rcases hStep.waits hJob with hOld | hNew
      · obtain ⟨p, hp, hOffer⟩ := hWaits job hOld
        exact ⟨p, List.mem_append_left _ hp, hOffer⟩
      · exact ⟨(m, act), by simp, hNew⟩
    · obtain rfl : act = .runs job finishes := hAct
      cases hStep with
      | runs waits => exact hWaits job waits

end JobQueue

end WxcodeAdm.Lib
