import Mathlib.Data.List.Basic

/-! Runs of a labelled step relation.  A run carries the list of its steps, each as the state it
was taken from and its label, so that a statement about a run can speak of every step at the state
it was taken in. -/

namespace WxcodeAdm.Lib

variable {σ ι : Type}

/-- The runs of `step` from a state, with the steps taken and the state reached. -/
inductive Run (step : σ → ι → σ → Prop) (s : σ) : List (σ × ι) → σ → Prop
  | nil : Run step s [] s
  | snoc {steps : List (σ × ι)} {m s' : σ} {l : ι} :
      Run step s steps m → step m l s' → Run step s (steps ++ [(m, l)]) s'

/-- What holds at every element of a list and the elements before it. -/
def AtEach {α : Type} (P : List α → α → Prop) (l : List α) : Prop :=
  ∀ pre a post, l = pre ++ a :: post → P pre a

theorem atEach_nil {α : Type} {P : List α → α → Prop} : AtEach P [] := by
  intro pre a post h
  simp at h

theorem atEach_snoc {α : Type} {P : List α → α → Prop} {l : List α} {a : α} :
    AtEach P (l ++ [a]) ↔ AtEach P l ∧ P l a := by
  constructor
  · intro h
    refine ⟨fun pre b post hl => h pre b (post ++ [a]) (by simp [hl]), h l a [] rfl⟩
  · rintro ⟨hAll, hLast⟩ pre b post hl
    rcases List.eq_nil_or_concat post with rfl | ⟨post', b', rfl⟩
    · obtain ⟨rfl, hEq⟩ := List.append_inj' hl rfl
      obtain rfl := (List.cons.inj hEq).1
      exact hLast
    · rw [List.concat_eq_append, ← List.cons_append, ← List.append_assoc] at hl
      exact hAll pre b post' (List.append_inj' hl rfl).1

theorem AtEach.mono {α : Type} {P Q : List α → α → Prop} {l : List α} (h : AtEach P l)
    (hle : ∀ pre a, P pre a → Q pre a) : AtEach Q l :=
  fun pre a post hl => hle pre a (h pre a post hl)

theorem AtEach.of_filterMap {α β : Type} {g : α → Option β} {P : List β → β → Prop} {l : List α}
    (h : AtEach P (l.filterMap g)) :
    AtEach (fun pre a => ∀ b, g a = some b → P (pre.filterMap g) b) l := by
  rintro pre a post rfl b hb
  exact h _ b (post.filterMap g) (by simp [List.filterMap_append, hb])

theorem atEach_iff {α : Type} {P : List α → α → Prop} {l : List α} :
    AtEach P l ↔ ∀ k : Fin l.length, P (l.take k) l[k] := by
  constructor
  · exact fun h k => h _ _ (l.drop (k + 1)) (by simp)
  · rintro h pre a post rfl
    simpa using h ⟨pre.length, by simp⟩

theorem atEach_const {α : Type} {P : α → Prop} {l : List α} :
    AtEach (fun _ a => P a) l ↔ ∀ a ∈ l, P a := by
  constructor
  · intro h a ha
    obtain ⟨pre, post, hl⟩ := List.append_of_mem ha
    exact h pre a post hl
  · rintro h pre a post rfl
    exact h a (by simp)

/-- In a list whose elements have different values of `f`, each has another value than those
before. -/
theorem atEach_of_nodup {α β : Type} {f : α → β} {l : List α} (h : (l.map f).Nodup) :
    AtEach (fun pre a => ∀ b ∈ pre, f b ≠ f a) l := by
  rintro pre a post rfl b hb hSame
  rw [List.map_append, List.map_cons, List.nodup_append] at h
  exact h.2.2 (f b) (List.mem_map_of_mem hb) (f a) List.mem_cons_self hSame

instance {α : Type} {P : List α → α → Prop} [∀ pre a, Decidable (P pre a)] {l : List α} :
    Decidable (AtEach P l) := decidable_of_iff' _ atEach_iff

/-- What holds of the steps before each state of a run and of that state, the last one included. -/
def Throughout (Q : List (σ × ι) → σ → Prop) (steps : List (σ × ι)) (s : σ) : Prop :=
  AtEach (fun pre p => Q pre p.1) steps ∧ Q steps s

namespace Run

variable {step : σ → ι → σ → Prop} {s m s' : σ} {l : ι} {steps : List (σ × ι)}

theorem single (h : step s l s') : Run step s [(s, l)] s' := .snoc .nil h

theorem append {more : List (σ × ι)} (h : Run step s steps m) (hMore : Run step m more s') :
    Run step s (steps ++ more) s' := by
  induction hMore with
  | nil => simpa using h
  | snoc _ hStep ih => rw [← List.append_assoc]; exact .snoc ih hStep

theorem cons {more : List (σ × ι)} (h : step s l m) (hMore : Run step m more s') :
    Run step s ((s, l) :: more) s' := (single h).append hMore

/-- A run of a system whose steps are steps of another is a run of that. -/
theorem map {τ κ : Type} {step' : τ → κ → τ → Prop} {f : σ → τ} {g : ι → κ}
    (hStep : ∀ {m l n}, step m l n → step' (f m) (g l) (f n)) (h : Run step s steps s') :
    Run step' (f s) (steps.map fun p => (f p.1, g p.2)) (f s') := by
  induction h with
  | nil => exact .nil
  | snoc _ hLast ih =>
    rw [List.map_append]
    exact .snoc ih (hStep hLast)

/-- What every step keeps holds in the state a run reaches. -/
theorem invariant {I : σ → Prop} (hKeep : ∀ {m l s'}, I m → step m l s' → I s') (h0 : I s)
    (h : Run step s steps s') : I s' := by
  induction h with
  | nil => exact h0
  | snoc _ hStep ih => exact hKeep ih hStep

/-- What every step that meets `C` keeps holds in the state reached by a run of such steps. -/
theorem invariant_of {I : σ → Prop} {C : σ → ι → Prop}
    (hKeep : ∀ {m l s'}, I m → C m l → step m l s' → I s') (h0 : I s)
    (h : Run step s steps s') (hAll : ∀ p ∈ steps, C p.1 p.2) : I s' := by
  induction h with
  | nil => exact h0
  | snoc _ hStep ih =>
    simp only [List.mem_append, List.mem_singleton] at hAll
    exact hKeep (ih fun p hp => hAll p (.inl hp)) (hAll _ (.inr rfl)) hStep

/-- A run is split where the list of its steps is. -/
theorem split_at (h : Run step s steps s') {pre post : List (σ × ι)} {p : σ × ι}
    (hSteps : steps = pre ++ p :: post) :
    ∃ n, Run step s pre p.1 ∧ step p.1 p.2 n ∧ Run step n post s' := by
  induction h generalizing post with
  | nil => simp at hSteps
  | @snoc steps m s' l hRun hStep ih =>
    rcases List.eq_nil_or_concat post with rfl | ⟨post, last, rfl⟩
    · obtain ⟨rfl, hLast⟩ := List.append_inj' hSteps rfl
      obtain rfl := (List.cons.inj hLast).1
      exact ⟨s', hRun, hStep, .nil⟩
    · rw [List.concat_eq_append, ← List.cons_append, ← List.append_assoc] at hSteps
      obtain ⟨hBefore, hLast⟩ := List.append_inj' hSteps rfl
      obtain rfl := (List.cons.inj hLast).1
      obtain ⟨n, hPre, hp, hPost⟩ := ih hBefore
      exact ⟨n, hPre, hp, by rw [List.concat_eq_append]; exact .snoc hPost hStep⟩

/-- A run is split at each of its steps. -/
theorem split (h : Run step s steps s') : ∀ p ∈ steps, ∃ pre post n,
    steps = pre ++ p :: post ∧ Run step s pre p.1 ∧ step p.1 p.2 n ∧ Run step n post s' := by
  intro p hp
  obtain ⟨pre, post, hSteps⟩ := List.append_of_mem hp
  obtain ⟨n, hSplit⟩ := h.split_at hSteps
  exact ⟨pre, post, n, hSteps, hSplit⟩

/-- A property that every step has at every state with the invariant, it has at every step of a
run. -/
theorem forall_steps {I : σ → Prop} {P : σ → ι → Prop}
    (hKeep : ∀ {m l s'}, I m → step m l s' → I s') (hP : ∀ {m l s'}, I m → step m l s' → P m l)
    (h0 : I s) (h : Run step s steps s') : ∀ p ∈ steps, P p.1 p.2 := fun p hp => by
  obtain ⟨_, _, _, -, hPre, hStep, -⟩ := h.split p hp
  exact hP (hPre.invariant hKeep h0) hStep

/-- What comes to hold of something only by a step with `Q`, and holds of it after a run, held of it
before, or holds because of a step of the run. -/
theorem origin {α : Type} {P : σ → α → Prop} {Q : σ × ι → α → Prop}
    (hStep : ∀ {pre m l n}, Run step s pre m → step m l n → ∀ a, P n a → P m a ∨ Q (m, l) a)
    (h : Run step s steps s') : ∀ a, P s' a → P s a ∨ ∃ p ∈ steps, Q p a := by
  induction h with
  | nil => exact fun a ha => .inl ha
  | snoc hRun hLast ih =>
    intro a ha
    rcases hStep hRun hLast a ha with hOld | hNew
    · rcases ih a hOld with hBefore | ⟨p, hp, hQ⟩
      · exact .inl hBefore
      · exact .inr ⟨p, List.mem_append_left _ hp, hQ⟩
    · exact .inr ⟨_, List.mem_append_right _ (List.mem_singleton.mpr rfl), hNew⟩

/-- A value that each step keeps or writes is, after a run, the one from its start, or what the last
step to write has made of it. -/
theorem last_write {α κ : Type} {f : σ → α} {W : σ × ι → κ → Prop} {L : κ → α → Prop}
    (hStep : ∀ {pre m l n}, Run step s pre m → step m l n →
      (∀ k, ¬W (m, l) k) ∧ f n = f m ∨ ∃ k, W (m, l) k ∧ L k (f n))
    (h : Run step s steps s') :
    (∀ p ∈ steps, ∀ k, ¬W p k) ∧ f s' = f s ∨
      ∃ pre p post k, steps = pre ++ p :: post ∧ W p k ∧ L k (f s') ∧
        ∀ q ∈ post, ∀ later, ¬W q later := by
  induction h with
  | nil => exact .inl ⟨by simp, rfl⟩
  | @snoc steps m s' l hRun hLast ih =>
    rcases hStep hRun hLast with ⟨hKept, hSame⟩ | ⟨k, hWrite, hLeaves⟩
    · rcases ih with ⟨hNone, hStart⟩ | ⟨pre, p, post, k, rfl, hWrite, hLeaves, hSince⟩
      · refine .inl ⟨fun p hp => ?_, hSame.trans hStart⟩
        rcases List.mem_append.mp hp with hOld | hNew
        · exact hNone p hOld
        · exact List.mem_singleton.mp hNew ▸ hKept
      · refine .inr ⟨pre, p, post ++ [(m, l)], k, by simp, hWrite, hSame ▸ hLeaves, ?_⟩
        intro q hq
        rcases List.mem_append.mp hq with hOld | hNew
        · exact hSince q hOld
        · exact List.mem_singleton.mp hNew ▸ hKept
    · exact .inr ⟨steps, (m, l), [], k, rfl, hWrite, hLeaves, by simp⟩

/-- What a step spends only if it is unspent, and what stays spent from then on, is spent once in a
run. -/
theorem spent_once {κ : Type} (Spent : σ → κ → Prop) (spends : σ × ι → Option κ)
    (hUnspent : ∀ {m l n k}, step m l n → spends (m, l) = some k → ¬Spent m k)
    (hSpent : ∀ {m l n k}, step m l n → Spent m k ∨ spends (m, l) = some k → Spent n k)
    (h : Run step s steps s') :
    (steps.filterMap spends).Nodup ∧ (∀ k ∈ steps.filterMap spends, ¬Spent s k) ∧
      ∀ k, Spent s k ∨ k ∈ steps.filterMap spends → Spent s' k := by
  induction h with
  | nil => simp
  | @snoc steps m s' l _ hStep ih =>
    obtain ⟨hNodup, hNew, hAfter⟩ := ih
    cases hSpends : spends (m, l) with
    | none =>
      simp only [List.filterMap_append, List.filterMap_cons, hSpends, List.filterMap_nil,
        List.append_nil]
      exact ⟨hNodup, hNew, fun k hk => hSpent hStep (.inl (hAfter k hk))⟩
    | some k =>
      have hUnspentYet := hUnspent hStep hSpends
      simp only [List.filterMap_append, List.filterMap_cons, hSpends, List.filterMap_nil,
        List.mem_append, List.mem_singleton]
      refine ⟨List.nodup_append.mpr ⟨hNodup, by simp, ?_⟩, ?_, ?_⟩
      · rintro k' hk' _ hk rfl
        obtain rfl := List.mem_singleton.mp hk
        exact hUnspentYet (hAfter k' (.inr hk'))
      · rintro k' (hOld | rfl) hStart
        · exact hNew k' hOld hStart
        · exact hUnspentYet (hAfter k' (.inl hStart))
      · rintro k' (hStart | hOld | rfl)
        · exact hSpent hStep (.inl (hAfter k' (.inl hStart)))
        · exact hSpent hStep (.inl (hAfter k' (.inr hOld)))
        · exact hSpent hStep (.inr hSpends)

/-- In a run whose steps all meet `D`, a property that each step from a state with it keeps exactly
when the step meets `C` holds throughout exactly when every step meets `C`. -/
theorem throughout_iff_of {Q : List (σ × ι) → σ → Prop} {C D : List (σ × ι) → σ × ι → Prop}
    (h : Run step s steps s') (hAll : AtEach D steps) (h0 : Q [] s)
    (hKeep : ∀ {pre m l n}, Run step s pre m → step m l n → D pre (m, l) → Q pre m →
      (Q (pre ++ [(m, l)]) n ↔ C pre (m, l))) :
    Throughout Q steps s' ↔ AtEach C steps := by
  induction h with
  | nil => exact iff_of_true ⟨atEach_nil, h0⟩ atEach_nil
  | snoc hRun hStep ih =>
    obtain ⟨hBefore, hLast⟩ := atEach_snoc.mp hAll
    unfold Throughout
    rw [atEach_snoc, atEach_snoc, ← ih hBefore]
    exact and_congr_right fun hPre => hKeep hRun hStep hLast hPre.2

theorem throughout_iff {Q : List (σ × ι) → σ → Prop} {C : List (σ × ι) → σ × ι → Prop}
    (h : Run step s steps s') (h0 : Q [] s)
    (hKeep : ∀ {pre m l n}, Run step s pre m → step m l n → Q pre m →
      (Q (pre ++ [(m, l)]) n ↔ C pre (m, l))) :
    Throughout Q steps s' ↔ AtEach C steps :=
  h.throughout_iff_of (D := fun _ _ => True) (fun _ _ _ _ => trivial) h0
    fun hPre hStep _ => hKeep hPre hStep

end Run

end WxcodeAdm.Lib
