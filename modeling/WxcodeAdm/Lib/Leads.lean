import WxcodeAdm.Lib.Interleaving

/-! How far a request has come.  `Leads` says that a handler comes to a statement with a property
unless it raises before; `Proceeds` says that it changes the cache only in a certain way until then,
or until it returns; `SameUntil` says that, up to such a statement, it reads the same from two
databases that are related. -/

namespace WxcodeAdm.Lib

variable {δ ρ ε α β : Type}

namespace Handler

/-- Whatever it reads within `V`, the handler comes to writes and a rest with `P`, or raises. -/
def Leads (V : δ → Prop) (P : (δ → δ) → Handler δ ρ ε α → Prop) :
    (δ → δ) → Handler δ ρ ε α → Prop
  | p, ret a => P p (ret a)
  | _, throw _ => True
  | p, read k => P p (read k) ∨ ∀ db, V db → Leads V P p (k (p db))
  | p, write f k => P p (write f k) ∨ Leads V P (f ∘ p) k
  | p, fetch k => P p (fetch k) ∨ ∀ r, Leads V P p (k r)
  | p, put f k => P p (put f k) ∨ Leads V P p k
  | p, swap f k => P p (swap f k) ∨ ∀ r, Leads V P p (k r)

/-- Whatever it reads, the handler changes the cache within `R` until it comes to writes and a rest
with `P`, raises, or returns with writes within `E`. -/
def Proceeds (R : ρ → ρ → Prop) (E : α → (δ → δ) → Prop) (P : (δ → δ) → Handler δ ρ ε α → Prop) :
    (δ → δ) → Handler δ ρ ε α → Prop
  | p, ret a => P p (ret a) ∨ E a p
  | _, throw _ => True
  | p, read k => P p (read k) ∨ ∀ db, Proceeds R E P p (k db)
  | p, write f k => P p (write f k) ∨ Proceeds R E P (f ∘ p) k
  | p, fetch k => P p (fetch k) ∨ ∀ r, Proceeds R E P p (k r)
  | p, put f k => P p (put f k) ∨ (∀ r, R r (f r)) ∧ Proceeds R E P p k
  | p, swap f k => P p (swap f k) ∨ (∀ r, R r (f r)) ∧ ∀ r, Proceeds R E P p (k r)

/-- Up to a statement with `P`, the handler writes nothing and reads the same from databases that
are related by `E`. -/
def SameUntil (E : δ → δ → Prop) (P : Handler δ ρ ε α → Prop) : Handler δ ρ ε α → Prop
  | ret _ | throw _ => True
  | read k => P (read k) ∨ (∀ db db', E db db' → k db = k db') ∧ ∀ db, (k db).SameUntil E P
  | write f k => P (write f k)
  | fetch k => P (fetch k) ∨ ∀ r, (k r).SameUntil E P
  | put f k => P (put f k) ∨ k.SameUntil E P
  | swap f k => P (swap f k) ∨ ∀ r, (k r).SameUntil E P

section Leads

variable {V : δ → Prop} {P : (δ → δ) → Handler δ ρ ε α → Prop} {p : δ → δ}

theorem Leads.of {h : Handler δ ρ ε α} (hp : P p h) : Leads V P p h := by
  cases h with
  | ret => exact hp
  | throw => trivial
  | read | write | fetch | put | swap => exact .inl hp

theorem Leads.bind {x : Handler δ ρ ε β} {k : β → Handler δ ρ ε α}
    (hx : Commits V (fun b p' => Leads V P p' (k b)) p x) : Leads V P p (x >>= k) := by
  change Leads V P p (x.bind k)
  induction x generalizing p with
  | ret b => exact hx
  | throw => trivial
  | read _ ih => exact .inr fun db hdb => ih _ (hx db hdb)
  | write _ _ ih => exact .inr (ih hx)
  | fetch _ ih => exact .inr fun r => ih r (hx r)
  | put _ _ ih => exact .inr (ih hx)
  | swap _ _ ih => exact .inr fun r => ih r (hx r)

theorem Leads.query_bind {f : δ → β} {k : β → Handler δ ρ ε α}
    (h : ∀ db, V db → Leads V P p (k (f (p db)))) : Leads V P p (.query f >>= k) := .inr h

theorem Leads.ensure_bind {q : Prop} [Decidable q] {e : ε} {k : Unit → Handler δ ρ ε α}
    (h : q → Leads V P p (k ())) : Leads V P p (.ensure q e >>= k) := by
  by_cases hq : q
  · rw [ensure_bind_of hq]
    exact h hq
  · rw [ensure, if_neg hq]
    trivial

end Leads

section Proceeds

variable {R : ρ → ρ → Prop} {E : α → (δ → δ) → Prop} {P : (δ → δ) → Handler δ ρ ε α → Prop}
  {p : δ → δ}

theorem Proceeds.of {h : Handler δ ρ ε α} (hp : P p h) : Proceeds R E P p h := by
  cases h with
  | throw => trivial
  | ret | read | write | fetch | put | swap => exact .inl hp

/-- A handler that does not come to a statement with a property, and then one that may. -/
theorem Proceeds.bind {x : Handler δ ρ ε β} {k : β → Handler δ ρ ε α}
    (hx : Proceeds R (fun b p' => Proceeds R E P p' (k b)) (fun _ _ => False) p x) :
    Proceeds R E P p (x >>= k) := by
  change Proceeds R E P p (x.bind k)
  induction x generalizing p with
  | ret b => exact hx.resolve_left id
  | throw => trivial
  | read _ ih => exact .inr fun db => ih db (hx.resolve_left id db)
  | write _ _ ih => exact .inr (ih (hx.resolve_left id))
  | fetch _ ih => exact .inr fun r => ih r (hx.resolve_left id r)
  | put _ _ ih =>
    obtain ⟨hR, hRest⟩ := hx.resolve_left id
    exact .inr ⟨hR, ih hRest⟩
  | swap _ _ ih =>
    obtain ⟨hR, hRest⟩ := hx.resolve_left id
    exact .inr ⟨hR, fun r => ih r (hRest r)⟩

theorem Proceeds.mono {E' : α → (δ → δ) → Prop} {P' : (δ → δ) → Handler δ ρ ε α → Prop}
    {h : Handler δ ρ ε α} (hh : Proceeds R E P p h) (hE : ∀ a p, E a p → E' a p)
    (hP : ∀ p h, P p h → P' p h) : Proceeds R E' P' p h := by
  induction h generalizing p with
  | ret a => exact hh.imp (hP _ _) (hE a p)
  | throw => trivial
  | read _ ih => exact hh.imp (hP _ _) fun hh db => ih db (hh db)
  | write _ _ ih => exact hh.imp (hP _ _) ih
  | fetch _ ih => exact hh.imp (hP _ _) fun hh r => ih r (hh r)
  | put _ _ ih => exact hh.imp (hP _ _) fun hh => ⟨hh.1, ih hh.2⟩
  | swap _ _ ih => exact hh.imp (hP _ _) fun hh => ⟨hh.1, fun r => ih r (hh.2 r)⟩

theorem Proceeds.pure {a : α} (h : E a p) : Proceeds R E P p (pure a : Handler δ ρ ε α) := .inr h

theorem Proceeds.query_bind {f : δ → β} {k : β → Handler δ ρ ε α}
    (h : ∀ db, Proceeds R E P p (k (f db))) : Proceeds R E P p (.query f >>= k) := .inr h

theorem Proceeds.lookup_bind {f : ρ → β} {k : β → Handler δ ρ ε α}
    (h : ∀ r, Proceeds R E P p (k (f r))) : Proceeds R E P p (.lookup f >>= k) := .inr h

theorem Proceeds.exec_bind {f : δ → δ} {k : Unit → Handler δ ρ ε α}
    (h : Proceeds R E P (f ∘ p) (k ())) : Proceeds R E P p (.exec f >>= k) := .inr h

theorem Proceeds.store_bind {f : ρ → ρ} {k : Unit → Handler δ ρ ε α} (hf : ∀ r, R r (f r))
    (h : Proceeds R E P p (k ())) : Proceeds R E P p (.store f >>= k) := .inr ⟨hf, h⟩

theorem Proceeds.exchange_bind {g : ρ → β} {f : ρ → ρ} {k : β → Handler δ ρ ε α}
    (hf : ∀ r, R r (f r)) (h : ∀ b, Proceeds R E P p (k b)) :
    Proceeds R E P p (.exchange g f >>= k) := .inr ⟨hf, fun _ => h _⟩

theorem Proceeds.ensure_bind {q : Prop} [Decidable q] {e : ε} {k : Unit → Handler δ ρ ε α}
    (h : q → Proceeds R E P p (k ())) : Proceeds R E P p (.ensure q e >>= k) := by
  by_cases hq : q
  · rw [ensure_bind_of hq]
    exact h hq
  · rw [ensure, if_neg hq]
    trivial

theorem Proceeds.orRaise_bind {o : Option β} {e : ε} {k : β → Handler δ ρ ε α}
    (h : ∀ b, o = some b → Proceeds R E P p (k b)) : Proceeds R E P p (.orRaise o e >>= k) := by
  cases o with
  | none => trivial
  | some b => exact h b rfl

theorem Proceeds.ofExcept_bind {x : Except ε β} {k : β → Handler δ ρ ε α}
    (h : ∀ b, x = .ok b → Proceeds R E P p (k b)) : Proceeds R E P p (.ofExcept x >>= k) := by
  cases x with
  | error => trivial
  | ok b => exact h b rfl

end Proceeds

section SameUntil

variable {E : δ → δ → Prop} {P : Handler δ ρ ε α → Prop}

/-- A handler that never reads the difference, and then one that reads it at a statement with
`P`. -/
theorem SameUntil.bind {x : Handler δ ρ ε β} {k : β → Handler δ ρ ε α}
    (hx : x.SameUntil E fun _ => False) (hk : ∀ b, (k b).SameUntil E P) :
    (x >>= k).SameUntil E P := by
  change (x.bind k).SameUntil E P
  induction x with
  | ret b => exact hk b
  | throw => trivial
  | read rest ih =>
    rcases hx with hx | ⟨hSame, hRest⟩
    · exact hx.elim
    · refine .inr ⟨fun db db' hE => ?_, fun db => ih db (hRest db)⟩
      change (rest db).bind k = (rest db').bind k
      rw [hSame db db' hE]
  | write => exact hx.elim
  | fetch _ ih => exact .inr fun r => ih r (hx.resolve_left id r)
  | put _ _ ih => exact .inr (ih (hx.resolve_left id))
  | swap _ _ ih => exact .inr fun r => ih r (hx.resolve_left id r)

theorem SameUntil.query {f : δ → α} (hf : ∀ db db', E db db' → f db = f db') :
    (Handler.query f : Handler δ ρ ε α).SameUntil E P :=
  .inr ⟨fun db db' hE => congrArg ret (hf db db' hE), fun _ => trivial⟩

theorem SameUntil.ensure (q : Prop) [Decidable q] (e : ε) {P : Handler δ ρ ε Unit → Prop} :
    (Handler.ensure q e : Handler δ ρ ε Unit).SameUntil E P := by
  unfold Handler.ensure
  split <;> trivial

theorem SameUntil.orRaise (o : Option α) (e : ε) :
    (Handler.orRaise o e : Handler δ ρ ε α).SameUntil E P := by
  cases o <;> trivial

theorem SameUntil.ofExcept (x : Except ε α) :
    (Handler.ofExcept x : Handler δ ρ ε α).SameUntil E P := by
  cases x <;> trivial

theorem SameUntil.lookup (f : ρ → α) : (Handler.lookup f : Handler δ ρ ε α).SameUntil E P :=
  .inr fun _ => trivial

theorem SameUntil.store (f : ρ → ρ) {P : Handler δ ρ ε Unit → Prop} :
    (Handler.store f : Handler δ ρ ε Unit).SameUntil E P := .inr trivial

end SameUntil

end Handler

/-! ### One statement -/

section Statement

variable {valid : δ → Prop} [DecidablePred valid] {conflict : ε} {s s' : Stores δ ρ}
  {p p' : δ → δ} {rest rest' : Handler δ ρ ε α} {a : α}

theorem Thread.step_ret_ne :
    (Thread.running p (.ret a : Handler δ ρ ε α)).step valid conflict s ≠
      some (s', .running p' rest') := by
  intro hStep
  simp only [Thread.step] at hStep
  split at hStep <;> cases hStep

/-- A request on its way to a statement with `P` is there, or a statement further on its way. -/
theorem Handler.Leads.step {V : δ → Prop} {P : (δ → δ) → Handler δ ρ ε α → Prop}
    (h : Leads V P p rest) (hV : V s.db)
    (hStep : (Thread.running p rest).step valid conflict s = some (s', .running p' rest')) :
    P p rest ∨ Leads V P p' rest' := by
  cases rest with
  | ret a => exact absurd hStep Thread.step_ret_ne
  | throw => cases hStep
  | read k =>
    cases hStep
    exact h.imp id fun h => h _ hV
  | write f k | put f k =>
    cases hStep
    exact h
  | fetch k | swap f k =>
    cases hStep
    exact h.imp id fun h => h _

/-- A request that is not yet at a statement with `P` cannot return before it. -/
theorem Handler.Leads.step_ok {V : δ → Prop} {P : (δ → δ) → Handler δ ρ ε α → Prop}
    (h : Leads V P p rest)
    (hStep : (Thread.running p rest).step valid conflict s = some (s', .ended (.ok a))) :
    P p (.ret a) := by
  obtain ⟨rfl, -, -⟩ := Thread.step_ok hStep
  exact h

/-- A request on its way to a statement with `P` is there, or a statement further. -/
theorem Handler.Proceeds.step {R : ρ → ρ → Prop} [Std.Refl R] {E : α → (δ → δ) → Prop}
    {P : (δ → δ) → Handler δ ρ ε α → Prop} (h : Proceeds R E P p rest)
    (hStep : (Thread.running p rest).step valid conflict s = some (s', .running p' rest')) :
    P p rest ∨ Proceeds R E P p' rest' ∧ R s.cache s'.cache := by
  cases rest with
  | ret a => exact absurd hStep Thread.step_ret_ne
  | throw => cases hStep
  | read k =>
    cases hStep
    exact h.imp id fun h => ⟨h _, refl_of R _⟩
  | write f k =>
    cases hStep
    exact h.imp id fun h => ⟨h, refl_of R _⟩
  | fetch k =>
    cases hStep
    exact h.imp id fun h => ⟨h _, refl_of R _⟩
  | put f k =>
    cases hStep
    exact h.imp id fun h => ⟨h.2, h.1 _⟩
  | swap f k =>
    cases hStep
    exact h.imp id fun h => ⟨h.2 _, h.1 _⟩

theorem Handler.Proceeds.step_ok {R : ρ → ρ → Prop} {E : α → (δ → δ) → Prop}
    {P : (δ → δ) → Handler δ ρ ε α → Prop} (h : Proceeds R E P p rest)
    (hStep : (Thread.running p rest).step valid conflict s = some (s', .ended (.ok a))) :
    P p (.ret a) ∨ E a p := by
  obtain ⟨rfl, -, -⟩ := Thread.step_ok hStep
  exact h

/-- Before a statement with `P`, a request that has read one database is as far as it would be had
it read another that is related to it. -/
theorem Handler.SameUntil.step {E : δ → δ → Prop} {P : Handler δ ρ ε α → Prop}
    (h : rest.SameUntil E P) (hNot : ¬P rest)
    (hStep : (Thread.running id rest).step valid conflict s = some (s', .running p' rest')) :
    p' = id ∧ rest'.SameUntil E P ∧ ∀ db Q, E s.db db → Commits (· = db) Q id rest →
      Commits (· = db) Q id rest' := by
  cases rest with
  | ret a => exact absurd hStep Thread.step_ret_ne
  | throw => cases hStep
  | read k =>
    cases hStep
    obtain ⟨hSame, hRest⟩ := h.resolve_left hNot
    refine ⟨rfl, hRest _, fun db Q hE hc => ?_⟩
    have hThere := hc db rfl
    rw [id, ← hSame s.db db hE] at hThere
    exact hThere
  | write f k => exact absurd h hNot
  | fetch k =>
    cases hStep
    exact ⟨rfl, h.resolve_left hNot _, fun _ _ _ hc => hc _⟩
  | put f k =>
    cases hStep
    exact ⟨rfl, h.resolve_left hNot, fun _ _ _ hc => hc⟩
  | swap f k =>
    cases hStep
    exact ⟨rfl, h.resolve_left hNot _, fun _ _ _ hc => hc _⟩

end Statement

end WxcodeAdm.Lib
