import Mathlib.Logic.Function.Basic
import WxcodeAdm.Lib.Handler
import WxcodeAdm.Lib.Run

/-! Requests side by side on one database and one cache, statement by statement.  The isolation is
READ COMMITTED: a statement reads what is committed when it runs, with the writes of its own request
over it.  The writes are committed together after the last statement, if the constraints allow them
then; a request that raises leaves no write behind.  Locks are left out, which only adds
interleavings.  `Commits` says what a request can commit whatever the others do. -/

namespace WxcodeAdm.Lib

/-- A request on its way, with the writes it has made and what is left of its handler, or at its
end. -/
inductive Thread (δ ρ ε α : Type) where
  | running (writes : δ → δ) (rest : Handler δ ρ ε α)
  | ended (result : Except ε α)

/-- Requests on the same stores, and those that have committed, in that order. -/
structure Pool (ι δ ρ ε α : Type) where
  stores : Stores δ ρ
  thread : ι → Thread δ ρ ε α
  commits : List ι

variable {ι δ ρ ε α β : Type}

def Thread.returned : Thread δ ρ ε α → Bool
  | ended (.ok _) => true
  | _ => false

def Thread.isEnded : Thread δ ρ ε α → Bool
  | ended _ => true
  | _ => false

/-- What a request can commit when every statement sees a database within `V`: it returns `a` with
its writes `p` only if `Q a p`. -/
def Commits (V : δ → Prop) (Q : α → (δ → δ) → Prop) : (δ → δ) → Handler δ ρ ε α → Prop
  | p, .ret a => Q a p
  | _, .throw _ => True
  | p, .read k => ∀ db, V db → Commits V Q p (k (p db))
  | p, .write f k => Commits V Q (f ∘ p) k
  | p, .fetch k => ∀ r, Commits V Q p (k r)
  | p, .put _ k => Commits V Q p k
  | p, .swap _ k => ∀ r, Commits V Q p (k r)

section Step

variable (valid : δ → Prop) [DecidablePred valid] (conflict : ε)

def Thread.step (s : Stores δ ρ) : Thread δ ρ ε α → Option (Stores δ ρ × Thread δ ρ ε α)
  | running p (.ret a) =>
    if valid (p s.db) then some ({ s with db := p s.db }, ended (.ok a))
    else some (s, ended (.error conflict))
  | running _ (.throw e) => some (s, ended (.error e))
  | running p (.read k) => some (s, running p (k (p s.db)))
  | running p (.write f k) => some (s, running (f ∘ p) k)
  | running p (.fetch k) => some (s, running p (k s.cache))
  | running p (.put f k) => some ({ s with cache := f s.cache }, running p k)
  | running p (.swap f k) => some ({ s with cache := f s.cache }, running p (k s.cache))
  | ended _ => none

variable [DecidableEq ι]

/-- The pool after a statement of request `i` that led to `s` and left the request as `t`. -/
def Pool.after (m : Pool ι δ ρ ε α) (i : ι) (s : Stores δ ρ) (t : Thread δ ρ ε α) :
    Pool ι δ ρ ε α where
  stores := s
  thread := Function.update m.thread i t
  commits := if t.returned then m.commits ++ [i] else m.commits

def Pool.step (m : Pool ι δ ρ ε α) (i : ι) : Option (Pool ι δ ρ ε α) :=
  ((m.thread i).step valid conflict m.stores).map fun next => m.after i next.1 next.2

def Pool.Step (m : Pool ι δ ρ ε α) (i : ι) (m' : Pool ι δ ρ ε α) : Prop :=
  m.step valid conflict i = some m'

/-- The statements that a schedule runs, and the pool that it leads to.  A turn of a request that has
ended is skipped. -/
def Pool.trace : List ι → Pool ι δ ρ ε α → List (Pool ι δ ρ ε α × ι) × Pool ι δ ρ ε α
  | [], m => ([], m)
  | i :: schedule, m =>
    match m.step valid conflict i with
    | some m' => ((m, i) :: (trace schedule m').1, (trace schedule m').2)
    | none => trace schedule m

def Pool.start (s : Stores δ ρ) (program : ι → Handler δ ρ ε α) : Pool ι δ ρ ε α where
  stores := s
  thread := fun i => .running id (program i)
  commits := []

end Step

/-! ### One statement -/

section Statement

variable {valid : δ → Prop} [DecidablePred valid] {conflict : ε} {s s' : Stores δ ρ}
  {V : δ → Prop} {Q : α → (δ → δ) → Prop} {p p' : δ → δ} {rest rest' : Handler δ ρ ε α} {a : α}
  {e : ε}

theorem Thread.step_query_bind {f : δ → β} {k : β → Handler δ ρ ε α} :
    (Thread.running p (.query f >>= k)).step valid conflict s =
      some (s, .running p (k (f (p s.db)))) := rfl

theorem Thread.step_lookup_bind {f : ρ → β} {k : β → Handler δ ρ ε α} :
    (Thread.running p (.lookup f >>= k)).step valid conflict s =
      some (s, .running p (k (f s.cache))) := rfl

theorem Thread.step_running
    (h : (Thread.running p rest).step valid conflict s = some (s', .running p' rest')) :
    s'.db = s.db := by
  cases rest with
  | ret a =>
    simp only [step] at h
    split at h <;> cases h
  | throw => cases h
  | read | write | fetch | put | swap => cases h; rfl

theorem Thread.step_error
    (h : (Thread.running p rest).step valid conflict s = some (s', .ended (.error e))) :
    s' = s := by
  cases rest with
  | ret a =>
    simp only [step] at h
    split at h <;> cases h
    rfl
  | throw => cases h; rfl
  | read | write | fetch | put | swap => cases h

theorem Thread.step_error_db {t : Thread δ ρ ε α}
    (h : t.step valid conflict s = some (s', .ended (.error e))) : s'.db = s.db := by
  cases t with
  | running => rw [step_error h]
  | ended => cases h

theorem Thread.step_ok
    (h : (Thread.running p rest).step valid conflict s = some (s', .ended (.ok a))) :
    rest = .ret a ∧ valid (p s.db) ∧ s' = { s with db := p s.db } := by
  cases rest with
  | ret b =>
    simp only [step] at h
    split at h
    · cases h
      exact ⟨rfl, ‹_›, rfl⟩
    · cases h
  | throw | read | write | fetch | put | swap => cases h

/-- A statement that sees a database within `V` leaves the request with what it can commit. -/
theorem Commits.step (h : Commits V Q p rest) (hV : V s.db)
    (hStep : (Thread.running p rest).step valid conflict s = some (s', .running p' rest')) :
    Commits V Q p' rest' := by
  cases rest with
  | ret a =>
    simp only [Thread.step] at hStep
    split at hStep <;> cases hStep
  | throw => cases hStep
  | read k => cases hStep; exact h _ hV
  | write f k => cases hStep; exact h
  | fetch k | swap f k => cases hStep; exact h _
  | put f k => cases hStep; exact h

theorem Commits.step_ok (h : Commits V Q p rest)
    (hStep : (Thread.running p rest).step valid conflict s = some (s', .ended (.ok a))) :
    Q a p := by
  obtain ⟨rfl, -, -⟩ := Thread.step_ok hStep
  exact h

variable [DecidableEq ι] {m m' : Pool ι δ ρ ε α} {i : ι}

theorem Pool.step_some (h : m.Step valid conflict i m') :
    ∃ s t, (m.thread i).step valid conflict m.stores = some (s, t) ∧ m' = m.after i s t := by
  obtain ⟨⟨s, t⟩, hStep, rfl⟩ := Option.map_eq_some_iff.mp h
  exact ⟨s, t, hStep, rfl⟩

theorem Pool.step_after {t : Thread δ ρ ε α}
    (h : (m.thread i).step valid conflict m.stores = some (s, t)) :
    m.Step valid conflict i (m.after i s t) := by
  rw [Step, step, h, Option.map_some]

@[simp] theorem Pool.after_stores {t : Thread δ ρ ε α} : (m.after i s t).stores = s := rfl

@[simp] theorem Pool.after_thread_same {t : Thread δ ρ ε α} : (m.after i s t).thread i = t :=
  Function.update_self ..

theorem Pool.after_thread_other {t : Thread δ ρ ε α} {j : ι} (h : j ≠ i) :
    (m.after i s t).thread j = m.thread j := Function.update_of_ne h ..

theorem Pool.after_commits_returned {t : Thread δ ρ ε α} (h : t.returned = true) :
    (m.after i s t).commits = m.commits ++ [i] := if_pos h

theorem Pool.after_commits {t : Thread δ ρ ε α} (h : t.returned = false) :
    (m.after i s t).commits = m.commits := if_neg (by simp [h])

theorem Thread.returned_iff {t : Thread δ ρ ε α} :
    t.returned = true ↔ ∃ a, t = .ended (.ok a) := by
  cases t with
  | running => simp [returned]
  | ended result => cases result <;> simp [returned]

theorem Thread.open_of_step {t t' : Thread δ ρ ε α}
    (h : t.step valid conflict s = some (s', t')) : t.isEnded = false ∧ t.returned = false := by
  cases t with
  | running => exact ⟨rfl, rfl⟩
  | ended => cases h

/-- A request that has ended stays as it is. -/
theorem Pool.ended_step {j : ι} {result : Except ε α} (hEnded : m.thread j = .ended result)
    (h : m.Step valid conflict i m') : m'.thread j = .ended result := by
  obtain ⟨s, t, hThread, rfl⟩ := Pool.step_some h
  have hj : j ≠ i := by
    rintro rfl
    rw [hEnded] at hThread
    cases hThread
  rw [Pool.after_thread_other hj, hEnded]

/-- What has returned by some step has returned from there on. -/
theorem Pool.returned_since {s : List (Pool ι δ ρ ε α × ι)} {q : Pool ι δ ρ ε α × ι} {j : ι}
    (hRun : Run (Pool.Step valid conflict) m s m') (hq : q ∈ s)
    (h : (q.1.thread j).returned = true) : (m'.thread j).returned = true := by
  obtain ⟨a, hEnded⟩ := Thread.returned_iff.mp h
  obtain ⟨pre, post, n, -, -, hStep, hPost⟩ := hRun.split q hq
  rw [hPost.invariant (I := fun m => m.thread j = .ended (.ok a)) ended_step
    (ended_step hEnded hStep)]
  rfl

theorem Pool.run_trace (schedule : List ι) (m : Pool ι δ ρ ε α) :
    Run (Pool.Step valid conflict) m (trace valid conflict schedule m).1
      (trace valid conflict schedule m).2 := by
  induction schedule generalizing m with
  | nil => exact .nil
  | cons i schedule ih =>
    rw [trace]
    cases hStep : m.step valid conflict i with
    | none => exact ih m
    | some m' => exact .cons hStep (ih m')

end Statement

/-! ### What a handler can commit -/

section Commits

variable {V V' : δ → Prop} {Q Q' : α → (δ → δ) → Prop} {p : δ → δ} {h : Handler δ ρ ε α}

theorem Commits.mono (hc : Commits V Q p h) (hV : ∀ db, V' db → V db)
    (hQ : ∀ a p', Q a p' → Q' a p') : Commits V' Q' p h := by
  induction h generalizing p with
  | ret a => exact hQ a p hc
  | throw => trivial
  | read k ih => exact fun db hdb => ih _ (hc db (hV db hdb))
  | write f k ih => exact ih hc
  | fetch k ih | swap f k ih => exact fun r => ih r (hc r)
  | put f k ih => exact ih hc

theorem commits_bind {x : Handler δ ρ ε β} {k : β → Handler δ ρ ε α} :
    Commits V Q p (x >>= k) ↔ Commits V (fun b p' => Commits V Q p' (k b)) p x := by
  change Commits V Q p (x.bind k) ↔ _
  induction x generalizing p with
  | ret | throw => rfl
  | read _ ih => exact forall₂_congr fun db _ => ih _
  | write _ _ ih | put _ _ ih => exact ih
  | fetch _ ih | swap _ _ ih => exact forall_congr' fun r => ih r

@[simp] theorem commits_pure {a : α} :
    Commits V Q p (pure a : Handler δ ρ ε α) ↔ Q a p := Iff.rfl

@[simp] theorem commits_throw {e : ε} : Commits V Q p (.throw e : Handler δ ρ ε α) := trivial

/-- A handler that raises in the end commits nothing. -/
theorem commits_bind_throw {x : Handler δ ρ ε β} {e : ε} :
    Commits V Q p (x >>= fun _ => (.throw e : Handler δ ρ ε α)) := by
  change Commits V Q p (x.bind fun _ => .throw e)
  induction x generalizing p with
  | ret | throw => trivial
  | read _ ih => exact fun db _ => ih _
  | write _ _ ih | put _ _ ih => exact ih
  | fetch _ ih | swap _ _ ih => exact fun r => ih _

@[simp] theorem commits_query_bind {f : δ → β} {k : β → Handler δ ρ ε α} :
    Commits V Q p (.query f >>= k) ↔ ∀ db, V db → Commits V Q p (k (f (p db))) := Iff.rfl

@[simp] theorem commits_exec {f : δ → δ} {Q : Unit → (δ → δ) → Prop} :
    Commits V Q p (.exec f : Handler δ ρ ε Unit) ↔ Q () (f ∘ p) := Iff.rfl

@[simp] theorem commits_exec_bind {f : δ → δ} {k : Unit → Handler δ ρ ε α} :
    Commits V Q p (.exec f >>= k) ↔ Commits V Q (f ∘ p) (k ()) := Iff.rfl

@[simp] theorem commits_store_bind {f : ρ → ρ} {k : Unit → Handler δ ρ ε α} :
    Commits V Q p (.store f >>= k) ↔ Commits V Q p (k ()) := Iff.rfl

@[simp] theorem commits_orRaise_bind {o : Option β} {e : ε} {k : β → Handler δ ρ ε α} :
    Commits V Q p (.orRaise o e >>= k) ↔ ∀ b, o = some b → Commits V Q p (k b) := by
  cases o with
  | none => exact iff_of_true trivial (by simp)
  | some b => exact ⟨by rintro hc _ ⟨rfl⟩; exact hc, fun hc => hc b rfl⟩

@[simp] theorem commits_ofExcept_bind {x : Except ε β} {k : β → Handler δ ρ ε α} :
    Commits V Q p (.ofExcept x >>= k) ↔ ∀ b, x = .ok b → Commits V Q p (k b) := by
  cases x with
  | error e => exact iff_of_true trivial (by simp)
  | ok b => exact ⟨by rintro hc _ ⟨rfl⟩; exact hc, fun hc => hc b rfl⟩

@[simp] theorem commits_ensure_bind {q : Prop} [Decidable q] {e : ε} {k : Unit → Handler δ ρ ε α} :
    Commits V Q p (.ensure q e >>= k) ↔ (q → Commits V Q p (k ())) := by
  by_cases hq : q
  · simp only [Handler.ensure, hq, if_true, forall_const]
    exact Iff.rfl
  · simp only [Handler.ensure, hq, if_false, false_imp_iff, iff_true]
    trivial

end Commits

namespace Handler

/-- The handler does not read the cache, and each of its database writes is one of `W`. -/
def Does (W : (δ → δ) → Prop) : Handler δ ρ ε α → Prop
  | ret _ | throw _ => True
  | read k => ∀ db, (k db).Does W
  | write f k => W f ∧ k.Does W
  | fetch _ | swap _ _ => False
  | put _ k => k.Does W

variable {W W' : (δ → δ) → Prop} {h : Handler δ ρ ε α}

namespace Does

theorem mono (hd : h.Does W) (hle : ∀ f, W f → W' f) : h.Does W' := by
  induction h with
  | ret | throw => trivial
  | read k ih => exact fun db => ih db (hd db)
  | write f k ih => exact ⟨hle f hd.1, ih hd.2⟩
  | fetch | swap => exact hd
  | put f k ih => exact ih hd

theorem bind {x : Handler δ ρ ε β} {k : β → Handler δ ρ ε α} (hx : x.Does W)
    (hk : ∀ b, (k b).Does W) : (x >>= k).Does W := by
  change (x.bind k).Does W
  induction x with
  | ret b => exact hk b
  | throw => trivial
  | read _ ih => exact fun db => ih db (hx db)
  | write _ _ ih => exact ⟨hx.1, ih hx.2⟩
  | fetch | swap => exact hx.elim
  | put _ _ ih => exact ih hx

theorem pure (a : α) : (pure a : Handler δ ρ ε α).Does W := trivial

theorem query (f : δ → α) : (query f : Handler δ ρ ε α).Does W := fun _ => trivial

theorem exec {f : δ → δ} (hf : W f) : (exec f : Handler δ ρ ε Unit).Does W := ⟨hf, trivial⟩

theorem store (f : ρ → ρ) : (store f : Handler δ ρ ε Unit).Does W := trivial

theorem ensure (q : Prop) [Decidable q] (e : ε) : (ensure q e : Handler δ ρ ε Unit).Does W := by
  unfold Handler.ensure
  split <;> trivial

theorem orRaise (o : Option α) (e : ε) : (orRaise o e : Handler δ ρ ε α).Does W := by
  cases o <;> trivial

theorem ofExcept (x : Except ε α) : (ofExcept x : Handler δ ρ ε α).Does W := by
  cases x <;> trivial

theorem ite {q : Prop} [Decidable q] {x y : Handler δ ρ ε α} (hx : x.Does W) (hy : y.Does W) :
    (if q then x else y).Does W := by
  split
  · exact hx
  · exact hy

theorem forM {κ : Type} {f : κ → Handler δ ρ ε PUnit} (hf : ∀ a, (f a).Does W) :
    ∀ l : List κ, (l.forM f).Does W
  | [] => pure _
  | a :: l => bind (hf a) fun _ => forM hf l

end Does

end Handler

section Commits

variable {V : δ → Prop} {W : (δ → δ) → Prop} {p : δ → δ} {h : Handler δ ρ ε α}

/-- What every write keeps holds of the writes that are committed. -/
theorem commits_of_does {J : (δ → δ) → Prop} (hd : h.Does W)
    (hJ : ∀ f p, W f → J p → J (f ∘ p)) (hp : J p) : Commits V (fun _ p' => J p') p h := by
  induction h generalizing p with
  | ret a => exact hp
  | throw => trivial
  | read k ih => exact fun db _ => ih _ (hd _) hp
  | write f k ih => exact ih hd.2 (hJ f p hd.1 hp)
  | fetch | swap => exact hd.elim
  | put f k ih => exact ih hd hp

/-- A handler that does not read the cache commits, while the database stays as it is, what it
does to that database alone. -/
theorem commits_run {db : δ} (hd : h.Does W) (r : ρ) :
    Commits (· = db) (fun a p' => ∃ m, h.run ⟨p db, r⟩ = .ok a m ∧ m.db = p' db) p h := by
  induction h generalizing p r with
  | ret a => exact ⟨_, rfl, rfl⟩
  | throw => trivial
  | read k ih => rintro _ rfl; exact ih _ (hd _) r
  | write f k ih => exact ih (p := f ∘ p) hd.2 r
  | fetch | swap => exact hd.elim
  | put f k ih => exact ih hd (f r)

end Commits

/-! ### A request alone -/

section Alone

variable [DecidableEq ι] {valid : δ → Prop} [DecidablePred valid] {conflict : ε}
  {m : Pool ι δ ρ ε α} {i : ι}

/-- How request `i` ends that ran to an outcome on its own, beside the committed database: its
writes are committed or dropped. -/
def Pool.Ends (db : δ) (m : Pool ι δ ρ ε α) (i : ι) : Outcome δ ρ ε α → Prop
  | .ok a s => m.stores = s ∧ m.thread i = .ended (.ok a)
  | .error e s => m.stores = { s with db := db } ∧ m.thread i = .ended (.error e)

/-- A request that no other interrupts ends as `run` says on the database with its writes. -/
theorem Pool.run_alone {rest : Handler δ ρ ε α} {p : δ → δ} (hRest : m.thread i = .running p rest)
    (hValid : ∀ a s', rest.run ⟨p m.stores.db, m.stores.cache⟩ = .ok a s' → valid s'.db) :
    ∃ steps m', Run (Pool.Step valid conflict) m steps m' ∧ (∀ step ∈ steps, step.2 = i) ∧
      m'.Ends m.stores.db i (rest.run ⟨p m.stores.db, m.stores.cache⟩) := by
  induction rest generalizing m p with
  | ret a =>
    have hStep : (m.thread i).step valid conflict m.stores =
        some ({ m.stores with db := p m.stores.db }, .ended (.ok a)) := by
      rw [hRest, Thread.step, if_pos (hValid a _ rfl)]
    exact ⟨_, _, .single (step_after hStep), by simp, rfl, after_thread_same⟩
  | throw e =>
    have hStep : (m.thread i).step valid conflict m.stores =
        some (m.stores, .ended (.error e)) := by rw [hRest, Thread.step]
    exact ⟨_, _, .single (step_after hStep), by simp, rfl, after_thread_same⟩
  | read k ih =>
    have hStep : (m.thread i).step valid conflict m.stores =
        some (m.stores, .running p (k (p m.stores.db))) := by rw [hRest, Thread.step]
    obtain ⟨steps, m', hRun, hOnly, hEnds⟩ := ih _ after_thread_same hValid
    exact ⟨_, m', .cons (step_after hStep) hRun, by simpa using hOnly, hEnds⟩
  | write f k ih =>
    have hStep : (m.thread i).step valid conflict m.stores =
        some (m.stores, .running (f ∘ p) k) := by rw [hRest, Thread.step]
    obtain ⟨steps, m', hRun, hOnly, hEnds⟩ := ih (p := f ∘ p) after_thread_same hValid
    exact ⟨_, m', .cons (step_after hStep) hRun, by simpa using hOnly, hEnds⟩
  | fetch k ih =>
    have hStep : (m.thread i).step valid conflict m.stores =
        some (m.stores, .running p (k m.stores.cache)) := by rw [hRest, Thread.step]
    obtain ⟨steps, m', hRun, hOnly, hEnds⟩ := ih _ after_thread_same hValid
    exact ⟨_, m', .cons (step_after hStep) hRun, by simpa using hOnly, hEnds⟩
  | put f k ih =>
    have hStep : (m.thread i).step valid conflict m.stores =
        some ({ m.stores with cache := f m.stores.cache }, .running p k) := by
      rw [hRest, Thread.step]
    obtain ⟨steps, m', hRun, hOnly, hEnds⟩ := ih
      (m := m.after i { m.stores with cache := f m.stores.cache } (.running p k))
      after_thread_same hValid
    exact ⟨_, m', .cons (step_after hStep) hRun, by simpa using hOnly, hEnds⟩
  | swap f k ih =>
    have hStep : (m.thread i).step valid conflict m.stores =
        some ({ m.stores with cache := f m.stores.cache }, .running p (k m.stores.cache)) := by
      rw [hRest, Thread.step]
    obtain ⟨steps, m', hRun, hOnly, hEnds⟩ := ih m.stores.cache
      (m := m.after i { m.stores with cache := f m.stores.cache } (.running p (k m.stores.cache)))
      after_thread_same hValid
    exact ⟨_, m', .cons (step_after hStep) hRun, by simpa using hOnly, hEnds⟩

theorem Pool.alone {h : Handler δ ρ ε α} (hStart : m.thread i = .running id h)
    (hValid : ∀ a s', h.run m.stores = .ok a s' → valid s'.db) :
    ∃ steps m', Run (Pool.Step valid conflict) m steps m' ∧ (∀ step ∈ steps, step.2 = i) ∧
      m'.stores = (h.atomically m.stores).2 ∧
      m'.thread i = .ended (h.atomically m.stores).1 := by
  obtain ⟨steps, m', hRun, hOnly, hEnds⟩ := run_alone hStart hValid
  refine ⟨steps, m', hRun, hOnly, ?_⟩
  change m'.Ends m.stores.db i (h.run m.stores) at hEnds
  unfold Handler.atomically
  cases hOutcome : h.run m.stores with
  | ok | error => rw [hOutcome] at hEnds; exact hEnds

end Alone

end WxcodeAdm.Lib
