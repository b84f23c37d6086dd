import WxcodeAdm.Lib.Interleaving
import WxcodeAdm.System

/-! Requests of the backend side by side, each in its transaction.  A request that no other
interrupts is the one that `serve` runs, so the runs of `System` are those without overlap. -/

namespace WxcodeAdm

open Lib

variable {ι : Type}

abbrev Requests (ι : Type) : Type := Pool ι Db Redis PyError Response

def Requests.start (w : World) (c : ι → Ctx) (r : ι → Request) : Requests ι :=
  Pool.start w fun i => transaction (c i) (r i)

/-- A request that has not started has not when another makes a step. -/
theorem Requests.waiting_snoc {past : List (Requests ι × ι)} {m : Requests ι} {i j : ι}
    (h : ∀ q ∈ past, q.2 ≠ j) (hne : j ≠ i) : ∀ q ∈ past ++ [(m, i)], q.2 ≠ j := by
  intro q hq
  rcases List.mem_append.mp hq with hq | hq
  · exact h q hq
  · rw [List.mem_singleton.mp hq]
    exact hne.symm

variable [DecidableEq ι]

/-- One statement of one request.  A commit that breaks a constraint raises. -/
abbrev Requests.Step : Requests ι → ι → Requests ι → Prop := Pool.Step Db.Valid .integrityError

def Requests.trace (schedule : List ι) (m : Requests ι) : List (Requests ι × ι) × Requests ι :=
  Pool.trace Db.Valid .integrityError schedule m

theorem Requests.run_trace (schedule : List ι) (m : Requests ι) :
    Run Requests.Step m (m.trace schedule).1 (m.trace schedule).2 := Pool.run_trace schedule m

/-- A transaction returns in a state that meets the constraints. -/
theorem transaction_valid {c : Ctx} {r : Request} {w w' : World} {response : Response}
    (h : (transaction c r).run w = .ok response w') : w'.db.Valid := by
  obtain ⟨a, m, -, h⟩ := Handler.run_bind_ok.mp h
  simp only [run_flush_bind_ok, Handler.run_pure_ok] at h
  obtain ⟨hValid, -, rfl⟩ := h
  exact hValid

/-- `serve` is the run of a request that no other interrupts. -/
theorem serve_alone {m : Requests ι} {i : ι} {c : Ctx} {r : Request}
    (hStart : m.thread i = .running id (transaction c r)) :
    ∃ steps m', Run Requests.Step m steps m' ∧ (∀ step ∈ steps, step.2 = i) ∧
      m'.stores = (serve c r m.stores).2 ∧ m'.thread i = .ended (serve c r m.stores).1 :=
  Pool.alone hStart fun _ _ => transaction_valid

theorem commits_flush {V : Db → Prop} {Q : Unit → (Db → Db) → Prop} {p : Db → Db} (h : Q () p) :
    Commits V Q p flush := by
  rw [flush, commits_query_bind]
  intro db _
  unfold Handler.ensure
  split
  · exact h
  · trivial

/-- What follows the service function in a transaction writes nothing. -/
theorem commits_response {α : Type} {x : App α} {f : α → Response} {V : Db → Prop}
    {Q : (Db → Db) → Prop} {p : Db → Db} (h : Commits V (fun _ p => Q p) p x) :
    Commits V (fun _ p => Q p) p
      ((x >>= fun a => pure (f a)) >>= fun response => flush >>= fun _ => pure response) := by
  rw [bind_assoc, commits_bind]
  refine h.mono (fun _ hV => hV) fun a p hp => ?_
  simp only [pure_bind, flush, bind_assoc, commits_query_bind, commits_ensure_bind]
  exact fun _ _ _ => hp

end WxcodeAdm
