import WxcodeAdm.Lib.Interleaving

/-! Artefacts that requests side by side find and use up.  `S` says of the database, or `T` of the
cache, that the artefact is used up.  A request that has found the artefact attains one of them
before it returns, but another may find the artefact in between.  When each finds it only after the
others that found it have ended, one of them returns at most. -/

namespace WxcodeAdm.Lib

variable {ι δ ρ ε α β : Type} {S : δ → Prop} {T : ρ → Prop}

namespace Handler

/-- Every write keeps `S` and every change of the cache keeps `T`. -/
def Keeps (S : δ → Prop) (T : ρ → Prop) : Handler δ ρ ε α → Prop
  | ret _ | throw _ => True
  | read k => ∀ db, (k db).Keeps S T
  | write f k => (∀ db, S db → S (f db)) ∧ k.Keeps S T
  | fetch k => ∀ r, (k r).Keeps S T
  | put f k => (∀ r, T r → T (f r)) ∧ k.Keeps S T
  | swap f k => (∀ r, T r → T (f r)) ∧ ∀ r, (k r).Keeps S T

/-- Before it returns, the handler makes a write that leads to `S` from anywhere, or a change of the
cache that leads to `T`. -/
def Attains (S : δ → Prop) (T : ρ → Prop) : Handler δ ρ ε α → Prop
  | ret _ => False
  | throw _ => True
  | read k => ∀ db, (k db).Attains S T
  | write f k => (∀ db, S (f db)) ∨ k.Attains S T
  | fetch k => ∀ r, (k r).Attains S T
  | put f k => (∀ r, T (f r)) ∨ k.Attains S T
  | swap f k => (∀ r, T (f r)) ∨ ∀ r, (k r).Attains S T

variable {h : Handler δ ρ ε α}

namespace Keeps

theorem db_only (hk : h.Keeps S T) : h.Keeps S fun _ => False := by
  induction h with
  | ret | throw => trivial
  | read _ ih => exact fun db => ih db (hk db)
  | write _ _ ih => exact ⟨hk.1, ih hk.2⟩
  | fetch _ ih => exact fun r => ih r (hk r)
  | put _ _ ih => exact ⟨fun _ h => h, ih hk.2⟩
  | swap _ _ ih => exact ⟨fun _ h => h, fun r => ih r (hk.2 r)⟩

theorem cache_only (hk : h.Keeps S T) : h.Keeps (fun _ => False) T := by
  induction h with
  | ret | throw => trivial
  | read _ ih => exact fun db => ih db (hk db)
  | write _ _ ih => exact ⟨fun _ h => h, ih hk.2⟩
  | fetch _ ih => exact fun r => ih r (hk r)
  | put _ _ ih => exact ⟨hk.1, ih hk.2⟩
  | swap _ _ ih => exact ⟨hk.1, fun r => ih r (hk.2 r)⟩

theorem bind {x : Handler δ ρ ε β} {k : β → Handler δ ρ ε α} (hx : x.Keeps S T)
    (hk : ∀ b, (k b).Keeps S T) : (x >>= k).Keeps S T := by
  change (x.bind k).Keeps S T
  induction x with
  | ret b => exact hk b
  | throw => trivial
  | read _ ih => exact fun db => ih db (hx db)
  | write _ _ ih => exact ⟨hx.1, ih hx.2⟩
  | fetch _ ih => exact fun r => ih r (hx r)
  | put _ _ ih => exact ⟨hx.1, ih hx.2⟩
  | swap _ _ ih => exact ⟨hx.1, fun r => ih r (hx.2 r)⟩

theorem pure (a : α) : (pure a : Handler δ ρ ε α).Keeps S T := trivial

theorem throw (e : ε) : (throw e : Handler δ ρ ε α).Keeps S T := trivial

theorem query (f : δ → α) : (query f : Handler δ ρ ε α).Keeps S T := fun _ => trivial

theorem exec {f : δ → δ} (hf : ∀ db, S db → S (f db)) :
    (exec f : Handler δ ρ ε Unit).Keeps S T := ⟨hf, trivial⟩

theorem lookup (f : ρ → α) : (lookup f : Handler δ ρ ε α).Keeps S T := fun _ => trivial

theorem store {f : ρ → ρ} (hf : ∀ r, T r → T (f r)) :
    (store f : Handler δ ρ ε Unit).Keeps S T := ⟨hf, trivial⟩

theorem ensure (q : Prop) [Decidable q] (e : ε) :
    (ensure q e : Handler δ ρ ε Unit).Keeps S T := by
  unfold Handler.ensure
  split <;> trivial

theorem orRaise (o : Option α) (e : ε) : (orRaise o e : Handler δ ρ ε α).Keeps S T := by
  cases o <;> trivial

theorem ofExcept (x : Except ε α) : (ofExcept x : Handler δ ρ ε α).Keeps S T := by
  cases x <;> trivial

theorem ite {q : Prop} [Decidable q] {x y : Handler δ ρ ε α} (hx : x.Keeps S T)
    (hy : y.Keeps S T) : (if q then x else y).Keeps S T := by
  split
  · exact hx
  · exact hy

end Keeps

namespace Attains

theorem bind {x : Handler δ ρ ε β} {k : β → Handler δ ρ ε α} (hk : ∀ b, (k b).Attains S T) :
    (x >>= k).Attains S T := by
  change (x.bind k).Attains S T
  induction x with
  | ret b => exact hk b
  | throw => trivial
  | read _ ih => exact fun db => ih db
  | write _ _ ih => exact .inr ih
  | fetch _ ih => exact fun r => ih r
  | put _ _ ih => exact .inr ih
  | swap _ _ ih => exact .inr fun r => ih r

theorem bind_first {x : Handler δ ρ ε β} {k : β → Handler δ ρ ε α} (hx : x.Attains S T) :
    (x >>= k).Attains S T := by
  change (x.bind k).Attains S T
  induction x with
  | ret b => exact hx.elim
  | throw => trivial
  | read _ ih => exact fun db => ih db (hx db)
  | write _ _ ih => exact hx.imp id ih
  | fetch _ ih => exact fun r => ih r (hx r)
  | put _ _ ih => exact hx.imp id ih
  | swap _ _ ih => exact hx.imp id fun hx r => ih r (hx r)

end Attains

end Handler

/-! ### Threads -/

section Pool

variable {valid : δ → Prop} [DecidablePred valid] {conflict : ε}

def Thread.Keeps (S : δ → Prop) (T : ρ → Prop) : Thread δ ρ ε α → Prop
  | running p rest => (∀ db, S db → S (p db)) ∧ rest.Keeps S T
  | ended _ => True

/-- The request has used the artefact up if it has returned, and will have when it returns. -/
def Thread.Bound (S : δ → Prop) (T : ρ → Prop) (s : Stores δ ρ) : Thread δ ρ ε α → Prop
  | running p rest => T s.cache ∨ (∀ db, S (p db)) ∨ rest.Attains S T
  | ended (.ok _) => S s.db ∨ T s.cache
  | ended (.error _) => True

theorem Thread.Keeps.step {s s' : Stores δ ρ} {t t' : Thread δ ρ ε α} (hk : t.Keeps S T)
    (h : t.step valid conflict s = some (s', t')) :
    t'.Keeps S T ∧ (S s.db → S s'.db) ∧ (T s.cache → T s'.cache) := by
  cases t with
  | ended => cases h
  | running p rest =>
    obtain ⟨hp, hRest⟩ := hk
    cases rest with
    | ret a =>
      simp only [Thread.step] at h
      split at h
      · cases h
        exact ⟨trivial, hp _, id⟩
      · cases h
        exact ⟨trivial, id, id⟩
    | throw e =>
      cases h
      exact ⟨trivial, id, id⟩
    | read k | fetch k =>
      cases h
      exact ⟨⟨hp, hRest _⟩, id, id⟩
    | write f k =>
      cases h
      exact ⟨⟨fun db hdb => hRest.1 _ (hp db hdb), hRest.2⟩, id, id⟩
    | put f k =>
      cases h
      exact ⟨⟨hp, hRest.2⟩, id, hRest.1 _⟩
    | swap f k =>
      cases h
      exact ⟨⟨hp, hRest.2 _⟩, id, hRest.1 _⟩

theorem Thread.Bound.step {s s' : Stores δ ρ} {t t' : Thread δ ρ ε α} (hk : t.Keeps S T)
    (hb : t.Bound S T s) (h : t.step valid conflict s = some (s', t')) : t'.Bound S T s' := by
  cases t with
  | ended => cases h
  | running p rest =>
    obtain ⟨-, hRest⟩ := hk
    cases rest with
    | ret a =>
      simp only [Thread.step] at h
      split at h
      · cases h
        rcases hb with hCache | hDb | hNever
        · exact .inr hCache
        · exact .inl (hDb _)
        · exact hNever.elim
      · cases h
        trivial
    | throw e =>
      cases h
      trivial
    | read k | fetch k =>
      cases h
      exact hb.imp id fun hb => hb.imp id fun hb => hb _
    | write f k =>
      cases h
      rcases hb with hCache | hDb | hAttains | hAttains
      · exact .inl hCache
      · exact .inr (.inl fun db => hRest.1 _ (hDb db))
      · exact .inr (.inl fun db => hAttains _)
      · exact .inr (.inr hAttains)
    | put f k =>
      cases h
      rcases hb with hCache | hDb | hAttains | hAttains
      · exact .inl (hRest.1 _ hCache)
      · exact .inr (.inl hDb)
      · exact .inl (hAttains _)
      · exact .inr (.inr hAttains)
    | swap f k =>
      cases h
      rcases hb with hCache | hDb | hAttains | hAttains
      · exact .inl (hRest.1 _ hCache)
      · exact .inr (.inl hDb)
      · exact .inl (hAttains _)
      · exact .inr (.inr (hAttains _))

/-- What others do leaves a request bound. -/
theorem Thread.Bound.mono {s s' : Stores δ ρ} {t : Thread δ ρ ε α} (hb : t.Bound S T s)
    (hDb : S s.db → S s'.db) (hCache : T s.cache → T s'.cache) : t.Bound S T s' := by
  cases t with
  | running => exact hb.imp hCache id
  | ended result =>
    cases result with
    | ok => exact hb.imp hDb hCache
    | error => trivial

variable [DecidableEq ι] {m₀ m m' : Pool ι δ ρ ε α} {i j : ι} {steps : List (Pool ι δ ρ ε α × ι)}

def Pool.Keeps (S : δ → Prop) (T : ρ → Prop) (m : Pool ι δ ρ ε α) : Prop :=
  ∀ i, (m.thread i).Keeps S T

theorem Pool.Keeps.step (hk : m.Keeps S T) (h : Pool.Step valid conflict m i m') :
    m'.Keeps S T ∧ (S m.stores.db → S m'.stores.db) ∧
      (T m.stores.cache → T m'.stores.cache) := by
  obtain ⟨s, t, hThread, rfl⟩ := Pool.step_some h
  obtain ⟨hNext, hStores⟩ := (hk i).step hThread
  refine ⟨fun j => ?_, hStores⟩
  by_cases hj : j = i
  · subst hj
    rwa [Pool.after_thread_same]
  · rw [Pool.after_thread_other hj]
    exact hk j

theorem Pool.bound_step (hk : m.Keeps S T) (hb : (m.thread j).Bound S T m.stores)
    (h : Pool.Step valid conflict m i m') : (m'.thread j).Bound S T m'.stores := by
  obtain ⟨-, hDb, hCache⟩ := hk.step h
  obtain ⟨s, t, hThread, rfl⟩ := Pool.step_some h
  by_cases hj : j = i
  · subst hj
    rw [Pool.after_thread_same]
    exact hb.step (hk j) hThread
  · rw [Pool.after_thread_other hj]
    exact hb.mono hDb hCache

/-- A request that finds the artefact finds it when the others that found it have ended. -/
def FindsInTurn (finds : Pool ι δ ρ ε α → ι → Prop) (past : List (Pool ι δ ρ ε α × ι))
    (step : Pool ι δ ρ ε α × ι) : Prop :=
  finds step.1 step.2 → ∀ q ∈ past, finds q.1 q.2 → q.2 ≠ step.2 →
    (step.1.thread q.2).isEnded = true

omit [DecidableEq ι] in
theorem findsInTurn_of_ended {finds : Pool ι δ ρ ε α → ι → Prop}
    {past : List (Pool ι δ ρ ε α × ι)} {step : Pool ι δ ρ ε α × ι}
    (h : ∀ q ∈ past, q.2 = step.2 ∨ (step.1.thread q.2).isEnded = true) :
    FindsInTurn finds past step := fun _ q hq _ hne => (h q hq).resolve_left hne

def Found (finds : Pool ι δ ρ ε α → ι → Prop) (steps : List (Pool ι δ ρ ε α × ι)) (i : ι) : Prop :=
  ∃ q ∈ steps, q.2 = i ∧ finds q.1 i

/-- Of the requests that find the artefact in turn, one returns at most. -/
theorem Pool.found_once {F : Pool ι δ ρ ε α → ι → Prop}
    (hRun : Run (Pool.Step valid conflict) m₀ steps m) (hKeeps : m₀.Keeps S T)
    (hFound : ∀ {m i m'}, F m i → Pool.Step valid conflict m i m' →
      (m'.thread i).Bound S T m'.stores)
    (hLive : ∀ {m i}, m.Keeps S T → F m i → ¬S m.stores.db ∧ ¬T m.stores.cache)
    (hTurn : AtEach (FindsInTurn F) steps) :
    m.Keeps S T ∧ (∀ i, Found F steps i → (m.thread i).Bound S T m.stores) ∧
      ∀ i j, Found F steps i → Found F steps j → i ≠ j →
        (∃ e, m.thread i = .ended (.error e)) ∨ ∃ e, m.thread j = .ended (.error e) := by
  induction hRun with
  | nil => exact ⟨hKeeps, by simp [Found], by simp [Found]⟩
  | @snoc steps m m' k hRun hStep ih =>
    obtain ⟨hEarlier, hNow⟩ := atEach_snoc.mp hTurn
    obtain ⟨hk, hBound, hOnce⟩ := ih hEarlier
    have hCases {i : ι} (h : Found F (steps ++ [(m, k)]) i) :
        Found F steps i ∨ k = i ∧ F m i := by
      obtain ⟨q, hq, rfl, hFinds⟩ := h
      rcases List.mem_append.mp hq with hq | hq
      · exact .inl ⟨q, hq, rfl, hFinds⟩
      · obtain rfl := List.mem_singleton.mp hq
        exact .inr ⟨rfl, hFinds⟩
    -- an earlier finder has ended by the time the next finds the artefact, and not by returning
    have hFails {i : ι} (h : Found F steps i) (hne : i ≠ k) (hFinds : F m k) :
        ∃ e, m'.thread i = .ended (.error e) := by
      obtain ⟨q, hq, rfl, hFinds'⟩ := h
      have hEnded := hNow hFinds q hq hFinds' hne
      have hb := hBound q.2 ⟨q, hq, rfl, hFinds'⟩
      cases hThread : m.thread q.2 with
      | running =>
        rw [hThread] at hEnded
        cases hEnded
      | ended result =>
        cases result with
        | error e => exact ⟨e, Pool.ended_step hThread hStep⟩
        | ok a =>
          rw [hThread] at hb
          obtain ⟨hDb, hCache⟩ := hLive hk hFinds
          exact (hb.elim hDb hCache).elim
    refine ⟨(hk.step hStep).1, fun i h => ?_, fun i j hi hj hne => ?_⟩
    · rcases hCases h with h | ⟨rfl, hFinds⟩
      · exact Pool.bound_step hk (hBound i h) hStep
      · exact hFound hFinds hStep
    · rcases hCases hi with hi | ⟨rfl, hFinds⟩
      · rcases hCases hj with hj | ⟨rfl, hFinds⟩
        · exact (hOnce i j hi hj hne).imp (fun ⟨e, h⟩ => ⟨e, Pool.ended_step h hStep⟩)
            fun ⟨e, h⟩ => ⟨e, Pool.ended_step h hStep⟩
        · exact .inl (hFails hi hne hFinds)
      · rcases hCases hj with hj | ⟨rfl, -⟩
        · exact .inr (hFails hj hne.symm hFinds)
        · exact absurd rfl hne

/-- A request that raises unless its first statement F the artefact has found it if it
returns. -/
theorem Pool.found_of_returned {finds : Pool ι δ ρ ε α → ι → Prop} {w : Stores δ ρ}
    {program : ι → Handler δ ρ ε α} (hRun : Run (Pool.Step valid conflict) (.start w program) steps m)
    (hFirst : ∀ m m' : Pool ι δ ρ ε α, m.thread i = .running id (program i) → ¬finds m i →
      Pool.Step valid conflict m i m' → ∃ p e, m'.thread i = .running p (.throw e)) {a : α}
    (h : m.thread i = .ended (.ok a)) : Found finds steps i := by
  have hCases : Found finds steps i ∨ m.thread i = .running id (program i) ∨
      (∃ p e, m.thread i = .running p (.throw e)) ∨ ∃ e, m.thread i = .ended (.error e) := by
    clear h
    induction hRun with
    | nil => exact .inr (.inl rfl)
    | @snoc steps m m' k _ hStep ih =>
      rcases ih with ⟨q, hq, hFinds⟩ | hStart | ⟨p, e, hThrow⟩ | ⟨e, hEnded⟩
      · exact .inl ⟨q, List.mem_append_left _ hq, hFinds⟩
      · by_cases hk : i = k
        · subst hk
          by_cases hFinds : finds m i
          · exact .inl ⟨(m, i), by simp, rfl, hFinds⟩
          · exact .inr (.inr (.inl (hFirst m m' hStart hFinds hStep)))
        · obtain ⟨s, t, -, rfl⟩ := Pool.step_some hStep
          exact .inr (.inl (by rw [Pool.after_thread_other hk, hStart]))
      · obtain ⟨s, t, hThread, rfl⟩ := Pool.step_some hStep
        by_cases hk : i = k
        · subst hk
          rw [hThrow] at hThread
          cases hThread
          exact .inr (.inr (.inr ⟨e, Pool.after_thread_same⟩))
        · exact .inr (.inr (.inl ⟨p, e, by rw [Pool.after_thread_other hk, hThrow]⟩))
      · exact .inr (.inr (.inr ⟨e, Pool.ended_step hEnded hStep⟩))
  rcases hCases with hFound | hStart | ⟨p, e, hThrow⟩ | ⟨e, hEnded⟩
  · exact hFound
  · rw [h] at hStart
    cases hStart
  · rw [h] at hThrow
    cases hThrow
  · rw [h] at hEnded
    cases hEnded

end Pool

end WxcodeAdm.Lib
