import Mathlib.Order.Defs.PartialOrder
import Mathlib.Order.Defs.Unbundled

/-! Request handlers over two stores: a database, whose changes count only when the handler
returns, and a cache, whose changes stay when the handler raises an exception.  A handler is the
tree of its statements, so that it can be run alone, as here, or statement by statement beside
others.  `atomically` is the life of one request that runs alone.  `Within` bounds what a handler
can do to a part of the state, whichever way it ends, and the lemmas about `run` invert a handler
that returned. -/

namespace WxcodeAdm.Lib

structure Stores (δ ρ : Type) where
  db : δ
  cache : ρ

/-- A program of statements that read and write the database (`read`, `write`) and the cache
(`fetch`, `put`, or both in one command with `swap`), and return a value or raise an exception. -/
inductive Handler (δ ρ ε α : Type) : Type where
  | ret (a : α)
  | throw (e : ε)
  | read (k : δ → Handler δ ρ ε α)
  | write (f : δ → δ) (k : Handler δ ρ ε α)
  | fetch (k : ρ → Handler δ ρ ε α)
  | put (f : ρ → ρ) (k : Handler δ ρ ε α)
  | swap (f : ρ → ρ) (k : ρ → Handler δ ρ ε α)

/-- How a handler ends: with a value or an exception, and the stores it leaves. -/
inductive Outcome (δ ρ ε α : Type) where
  | ok (a : α) (s : Stores δ ρ)
  | error (e : ε) (s : Stores δ ρ)

namespace Handler

variable {δ ρ ε α β κ : Type}

def bind : Handler δ ρ ε α → (α → Handler δ ρ ε β) → Handler δ ρ ε β
  | ret a, next => next a
  | throw e, _ => throw e
  | read k, next => read fun d => (k d).bind next
  | write f k, next => write f (k.bind next)
  | fetch k, next => fetch fun r => (k r).bind next
  | put f k, next => put f (k.bind next)
  | swap f k, next => swap f fun r => (k r).bind next

instance : Monad (Handler δ ρ ε) where
  pure := ret
  bind := bind

theorem bind_ret (h : Handler δ ρ ε α) : h.bind ret = h := by
  induction h with
  | ret | throw => rfl
  | read k ih | fetch k ih | swap f k ih => simp only [bind, ih]
  | write f k ih | put f k ih => simp only [bind, ih]

theorem bind_bind {γ : Type} (h : Handler δ ρ ε α) (k : α → Handler δ ρ ε β)
    (l : β → Handler δ ρ ε γ) : (h.bind k).bind l = h.bind fun a => (k a).bind l := by
  induction h with
  | ret | throw => rfl
  | read _ ih | fetch _ ih | swap _ _ ih => simp only [bind, ih]
  | write _ _ ih | put _ _ ih => simp only [bind, ih]

instance : LawfulMonad (Handler δ ρ ε) := LawfulMonad.mk' _ bind_ret (fun _ _ => rfl) bind_bind

def query (f : δ → α) : Handler δ ρ ε α := read fun d => ret (f d)

def exec (f : δ → δ) : Handler δ ρ ε Unit := write f (ret ())

def lookup (f : ρ → α) : Handler δ ρ ε α := fetch fun r => ret (f r)

def store (f : ρ → ρ) : Handler δ ρ ε Unit := put f (ret ())

/-- Changes the cache and returns what `g` reads from it as it was. -/
def exchange (g : ρ → α) (f : ρ → ρ) : Handler δ ρ ε α := swap f fun r => ret (g r)

def ensure (p : Prop) [Decidable p] (e : ε) : Handler δ ρ ε Unit := if p then ret () else throw e

def orRaise (o : Option α) (e : ε) : Handler δ ρ ε α :=
  match o with
  | some a => ret a
  | none => throw e

def ofExcept (x : Except ε α) : Handler δ ρ ε α :=
  match x with
  | .ok a => ret a
  | .error e => throw e

def run : Handler δ ρ ε α → Stores δ ρ → Outcome δ ρ ε α
  | ret a, s => .ok a s
  | throw e, s => .error e s
  | read k, s => (k s.db).run s
  | write f k, s => k.run { s with db := f s.db }
  | fetch k, s => (k s.cache).run s
  | put f k, s => k.run { s with cache := f s.cache }
  | swap f k, s => (k s.cache).run { s with cache := f s.cache }

theorem run_bind (x : Handler δ ρ ε α) (k : α → Handler δ ρ ε β) (s : Stores δ ρ) :
    (x >>= k).run s = match x.run s with
      | .ok a m => (k a).run m
      | .error e m => .error e m := by
  change (x.bind k).run s = _
  induction x generalizing s with
  | ret | throw => rfl
  | read _ ih => exact ih _ s
  | write _ _ ih => exact ih _
  | fetch _ ih => exact ih _ s
  | put _ _ ih => exact ih _
  | swap _ _ ih => exact ih _ _

/-- The state a handler leaves, whether it returned or raised. -/
def final (h : Handler δ ρ ε α) (s : Stores δ ρ) : Stores δ ρ :=
  match h.run s with
  | .ok _ s' => s'
  | .error _ s' => s'

/-- One request: the database changes are committed when the handler returns and rolled back when
it raises, and the cache changes stay. -/
def atomically (h : Handler δ ρ ε α) (s : Stores δ ρ) : Except ε α × Stores δ ρ :=
  match h.run s with
  | .ok a s' => (.ok a, s')
  | .error e s' => (.error e, { s' with db := s.db })

def Raises (h : Handler δ ρ ε α) (s : Stores δ ρ) : Prop := ∃ e s', h.run s = .error e s'

theorem raises_iff {h : Handler δ ρ ε α} {s : Stores δ ρ} :
    h.Raises s ↔ ∀ a s', h.run s ≠ .ok a s' := by
  unfold Raises
  cases h.run s <;> simp

theorem atomically_ok {h : Handler δ ρ ε α} {s s' : Stores δ ρ} {a : α} :
    h.atomically s = (.ok a, s') ↔ h.run s = .ok a s' := by
  unfold atomically
  cases h.run s <;> simp

theorem atomically_error {h : Handler δ ρ ε α} {s s' : Stores δ ρ} {e : ε} :
    h.atomically s = (.error e, s') ↔ ∃ m, h.run s = .error e m ∧ s' = { m with db := s.db } := by
  unfold atomically
  cases h.run s with
  | ok => simp
  | error e' m =>
    simp only [Prod.mk.injEq, Except.error.injEq, Outcome.error.injEq]
    constructor
    · rintro ⟨rfl, rfl⟩
      exact ⟨m, ⟨rfl, rfl⟩, rfl⟩
    · rintro ⟨_, ⟨rfl, rfl⟩, rfl⟩
      exact ⟨rfl, rfl⟩

theorem atomically_error_db {h : Handler δ ρ ε α} {s s' : Stores δ ρ} {e : ε}
    (hRun : h.atomically s = (.error e, s')) : s'.db = s.db := by
  obtain ⟨m, -, rfl⟩ := atomically_error.mp hRun
  rfl

/-! ### Handlers that return -/

section Run

variable {s s' : Stores δ ρ} {b : β} {e : ε}

@[simp] theorem run_pure_ok {a a' : α} :
    (pure a : Handler δ ρ ε α).run s = .ok a' s' ↔ a = a' ∧ s = s' := by
  simp [Pure.pure, run]

@[simp] theorem run_query {f : δ → α} :
    (query f : Handler δ ρ ε α).run s = .ok (f s.db) s := rfl

@[simp] theorem run_exec {f : δ → δ} :
    (exec f : Handler δ ρ ε Unit).run s = .ok () { s with db := f s.db } := rfl

@[simp] theorem run_lookup {f : ρ → α} :
    (lookup f : Handler δ ρ ε α).run s = .ok (f s.cache) s := rfl

@[simp] theorem run_store {f : ρ → ρ} :
    (store f : Handler δ ρ ε Unit).run s = .ok () { s with cache := f s.cache } := rfl

@[simp] theorem run_exchange {g : ρ → α} {f : ρ → ρ} :
    (exchange g f : Handler δ ρ ε α).run s = .ok (g s.cache) { s with cache := f s.cache } := rfl

theorem run_ensure {p : Prop} [Decidable p] :
    (ensure p e : Handler δ ρ ε Unit).run s = if p then .ok () s else .error e s := by
  unfold ensure
  split <;> rfl

@[simp] theorem run_orRaise_some {a : α} :
    (orRaise (some a) e : Handler δ ρ ε α).run s = .ok a s := rfl

@[simp] theorem run_orRaise_none :
    (orRaise none e : Handler δ ρ ε α).run s = .error e s := rfl

theorem run_orRaise_ok {o : Option α} {a : α} :
    (orRaise o e : Handler δ ρ ε α).run s = .ok a s' ↔ o = some a ∧ s = s' := by
  cases o <;> simp [orRaise, run]

@[simp] theorem run_ofExcept_ok {a : α} :
    (ofExcept (.ok a) : Handler δ ρ ε α).run s = .ok a s := rfl

@[simp] theorem run_ofExcept_error :
    (ofExcept (.error e) : Handler δ ρ ε α).run s = .error e s := rfl

theorem run_ofExcept_eq_ok {x : Except ε α} {a : α} :
    (ofExcept x : Handler δ ρ ε α).run s = .ok a s' ↔ x = .ok a ∧ s = s' := by
  cases x <;> simp [ofExcept, run]

/-- A sequence returns when its first part does and its second part does from there. -/
theorem run_bind_ok {x : Handler δ ρ ε α} {k : α → Handler δ ρ ε β} :
    (x >>= k).run s = .ok b s' ↔ ∃ a m, x.run s = .ok a m ∧ (k a).run m = .ok b s' := by
  rw [run_bind]
  cases x.run s with
  | ok a m => exact ⟨fun h => ⟨a, m, rfl, h⟩, by rintro ⟨_, _, ⟨⟩, h⟩; exact h⟩
  | error e m => simp

@[simp] theorem run_query_bind {f : δ → α} {k : α → Handler δ ρ ε β} :
    (query f >>= k).run s = (k (f s.db)).run s := rfl

@[simp] theorem run_exec_bind {f : δ → δ} {k : Unit → Handler δ ρ ε β} :
    (exec f >>= k).run s = (k ()).run { s with db := f s.db } := rfl

@[simp] theorem run_lookup_bind {f : ρ → α} {k : α → Handler δ ρ ε β} :
    (lookup f >>= k).run s = (k (f s.cache)).run s := rfl

@[simp] theorem run_store_bind {f : ρ → ρ} {k : Unit → Handler δ ρ ε β} :
    (store f >>= k).run s = (k ()).run { s with cache := f s.cache } := rfl

@[simp] theorem run_exchange_bind {g : ρ → α} {f : ρ → ρ} {k : α → Handler δ ρ ε β} :
    (exchange g f >>= k).run s = (k (g s.cache)).run { s with cache := f s.cache } := rfl

@[simp] theorem orRaise_some_bind {a : α} {k : α → Handler δ ρ ε β} :
    (orRaise (some a) e >>= k) = k a := rfl

@[simp] theorem ofExcept_ok_bind {a : α} {k : α → Handler δ ρ ε β} :
    (ofExcept (.ok a) >>= k) = k a := rfl

theorem ensure_bind_of {p : Prop} [Decidable p] {k : Unit → Handler δ ρ ε β} (h : p) :
    (ensure p e >>= k) = k () := by
  rw [ensure, if_pos h]
  rfl

theorem run_ensure_bind_of_not {p : Prop} [Decidable p] {k : Unit → Handler δ ρ ε β} (h : ¬p) :
    (ensure p e >>= k).run s = .error e s := by
  rw [run_bind, run_ensure, if_neg h]

@[simp] theorem run_ensure_bind_ok {p : Prop} [Decidable p] {k : Unit → Handler δ ρ ε β} :
    (ensure p e >>= k).run s = .ok b s' ↔ p ∧ (k ()).run s = .ok b s' := by
  by_cases hp : p <;> simp [run_bind, run_ensure, hp]

@[simp] theorem run_orRaise_bind_ok {o : Option α} {k : α → Handler δ ρ ε β} :
    (orRaise o e >>= k).run s = .ok b s' ↔ ∃ a, o = some a ∧ (k a).run s = .ok b s' := by
  cases o <;> simp [run_bind]

@[simp] theorem run_ofExcept_bind_ok {x : Except ε α} {k : α → Handler δ ρ ε β} :
    (ofExcept x >>= k).run s = .ok b s' ↔ ∃ a, x = .ok a ∧ (k a).run s = .ok b s' := by
  cases x <;> simp [run_bind]

@[simp] theorem run_ite_ok {p : Prop} [Decidable p] {x y : Handler δ ρ ε β} :
    (if p then x else y).run s = .ok b s' ↔
      (p ∧ x.run s = .ok b s') ∨ (¬p ∧ y.run s = .ok b s') := by
  by_cases hp : p <;> simp [hp]

@[simp] theorem run_throw_ok : (throw e : Handler δ ρ ε β).run s = .ok b s' ↔ False := by
  simp [run]

@[simp] theorem run_discard_ok {x : Handler δ ρ ε α} :
    (discard x).run s = .ok () s' ↔ ∃ a, x.run s = .ok a s' := by
  have h : discard x = x >>= fun _ => pure () := rfl
  rw [h, run_bind_ok]
  simp

end Run

/-! ### Handlers within a relation -/

/-- `R` relates every state to the one that `h` leaves, whether it returns or raises. -/
def Within (R : Stores δ ρ → Stores δ ρ → Prop) (h : Handler δ ρ ε α) : Prop :=
  ∀ s, R s (h.final s)

section Within

variable {R : Stores δ ρ → Stores δ ρ → Prop}

theorem final_of_ok {h : Handler δ ρ ε α} {a : α} {s s' : Stores δ ρ} (hRun : h.run s = .ok a s') :
    h.final s = s' := by rw [final, hRun]

theorem Within.of_ok {h : Handler δ ρ ε α} {a : α} {s s' : Stores δ ρ} (hw : Within R h)
    (hRun : h.run s = .ok a s') : R s s' := final_of_ok hRun ▸ hw s

theorem Within.mono {R' : Stores δ ρ → Stores δ ρ → Prop} {h : Handler δ ρ ε α}
    (hw : Within R h) (hle : ∀ s s', R s s' → R' s s') : Within R' h := fun s => hle _ _ (hw s)

/-- What bounds a handler bounds the request that runs it, when a rollback stays in the bound. -/
theorem Within.atomically {h : Handler δ ρ ε α} (hw : Within R h)
    (hRollback : ∀ s s', R s s' → R s { s' with db := s.db }) (s : Stores δ ρ) :
    R s (h.atomically s).2 := by
  have h := hw s
  unfold final at h
  unfold Handler.atomically
  split
  · rename_i hRun; simpa only [hRun] using h
  · rename_i hRun; simp only [hRun] at h; exact hRollback _ _ h

theorem final_bind (x : Handler δ ρ ε α) (k : α → Handler δ ρ ε β) (s : Stores δ ρ) :
    (x >>= k).final s = match x.run s with
      | .ok a m => (k a).final m
      | .error _ m => m := by
  simp only [final, run_bind]
  cases x.run s <;> rfl

@[simp] theorem final_query_bind {f : δ → α} {k : α → Handler δ ρ ε β} {s : Stores δ ρ} :
    (query f >>= k).final s = (k (f s.db)).final s := rfl

@[simp] theorem final_lookup_bind {f : ρ → α} {k : α → Handler δ ρ ε β} {s : Stores δ ρ} :
    (lookup f >>= k).final s = (k (f s.cache)).final s := rfl

@[simp] theorem final_orRaise_bind {o : Option α} {e : ε} {k : α → Handler δ ρ ε β}
    {s : Stores δ ρ} : (orRaise o e >>= k).final s = o.elim s fun a => (k a).final s := by
  cases o <;> rfl

@[simp] theorem final_ofExcept_bind {x : Except ε α} {k : α → Handler δ ρ ε β} {s : Stores δ ρ} :
    (ofExcept x >>= k).final s = match x with
      | .ok a => (k a).final s
      | .error _ => s := by
  cases x <;> rfl

@[simp] theorem final_ensure_bind {p : Prop} [Decidable p] {e : ε} {k : Unit → Handler δ ρ ε β}
    {s : Stores δ ρ} : (ensure p e >>= k).final s = if p then (k ()).final s else s := by
  by_cases hp : p <;> simp [final_bind, run_ensure, hp]

theorem atomically_cache (h : Handler δ ρ ε α) (s : Stores δ ρ) :
    (h.atomically s).2.cache = (h.final s).cache := by
  unfold atomically final
  cases h.run s <;> rfl

theorem Within.bind [IsTrans _ R] {x : Handler δ ρ ε α} {k : α → Handler δ ρ ε β}
    (hx : Within R x) (hk : ∀ a, Within R (k a)) : Within R (x >>= k) := fun s => by
  have h := hx s
  rw [final_bind]
  cases hr : x.run s with
  | ok a m => simp only [final, hr] at h; exact IsTrans.trans _ _ _ h (hk a m)
  | error e m => simpa only [final, hr] using h

theorem Within.exec {f : δ → δ} (h : ∀ s : Stores δ ρ, R s { s with db := f s.db }) :
    Within R (exec f : Handler δ ρ ε Unit) := h

theorem Within.store {f : ρ → ρ} (h : ∀ s : Stores δ ρ, R s { s with cache := f s.cache }) :
    Within R (store f : Handler δ ρ ε Unit) := h

theorem Within.exchange {g : ρ → α} {f : ρ → ρ}
    (h : ∀ s : Stores δ ρ, R s { s with cache := f s.cache }) :
    Within R (exchange g f : Handler δ ρ ε α) := h

/-- What comes after leaves the state as it is. -/
theorem final_bind_of_within_eq {x : Handler δ ρ ε α} {k : α → Handler δ ρ ε β}
    (hk : ∀ a, Within Eq (k a)) (s : Stores δ ρ) : (x >>= k).final s = x.final s := by
  rw [final_bind, final]
  cases x.run s with
  | ok a m => exact (hk a m).symm
  | error => rfl

theorem Within.ite {p : Prop} [Decidable p] {x y : Handler δ ρ ε α} (hx : Within R x)
    (hy : Within R y) : Within R (if p then x else y) := by
  split
  · exact hx
  · exact hy

variable [Std.Refl R]

theorem Within.pure (a : α) : Within R (pure a : Handler δ ρ ε α) := fun s => refl_of R s

theorem Within.query (f : δ → α) : Within R (query f : Handler δ ρ ε α) := fun s => refl_of R s

theorem Within.lookup (f : ρ → α) : Within R (lookup f : Handler δ ρ ε α) := fun s => refl_of R s

theorem Within.throw (e : ε) : Within R (throw e : Handler δ ρ ε α) := fun s => refl_of R s

theorem Within.ensure (p : Prop) [Decidable p] (e : ε) :
    Within R (ensure p e : Handler δ ρ ε Unit) := fun s => by
  unfold Handler.ensure
  split <;> exact refl_of R s

theorem Within.orRaise (o : Option α) (e : ε) : Within R (orRaise o e : Handler δ ρ ε α) :=
  fun s => by cases o <;> exact refl_of R s

theorem Within.ofExcept (x : Except ε α) : Within R (ofExcept x : Handler δ ρ ε α) :=
  fun s => by cases x <;> exact refl_of R s

/-- What follows a value that may be an error has only to be bounded for the value. -/
theorem Within.ofExcept_bind {x : Except ε α} {k : α → Handler δ ρ ε β}
    (hk : ∀ a, x = .ok a → Within R (k a)) : Within R (Handler.ofExcept x >>= k) := by
  cases x with
  | ok a => exact hk a rfl
  | error e => exact Within.throw e

/-- A handler over each element of a list stays within what it stays within for one. -/
theorem Within.forM [IsTrans _ R] {κ : Type} {f : κ → Handler δ ρ ε PUnit}
    (h : ∀ a, Within R (f a)) : ∀ l : List κ, Within R (l.forM f)
  | [] => .pure _
  | a :: l => .bind (h a) fun _ => Within.forM h l

end Within

end Handler

end WxcodeAdm.Lib
