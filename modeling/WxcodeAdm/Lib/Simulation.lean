import WxcodeAdm.Lib.Run

/-! Runs seen through an abstraction: a step of the system makes one act of the abstract machine, or
none that it can see, so that a run of the system is a run of the machine. -/

namespace WxcodeAdm.Lib

variable {α β : Type}

/-- The acts that a list of steps makes, in their order; the other steps are silent. -/
inductive Makes (P : α → β → Prop) : List α → List β → Prop
  | nil : Makes P [] []
  | silent {steps : List α} {acts : List β} {a : α} :
      Makes P steps acts → Makes P (steps ++ [a]) acts
  | act {steps : List α} {acts : List β} {a : α} {b : β} :
      Makes P steps acts → P a b → Makes P (steps ++ [a]) (acts ++ [b])

namespace Makes

variable {P : α → β → Prop} {steps : List α} {acts : List β}

/-- Where an act is, a step made it, and what is before the one made what is before the other. -/
theorem split (h : Makes P steps acts) {pre post : List β} {b : β}
    (hActs : acts = pre ++ b :: post) :
    ∃ before a after, steps = before ++ a :: after ∧ Makes P before pre ∧ P a b ∧
      Makes P after post := by
  induction h generalizing post with
  | nil => simp at hActs
  | @silent _ _ a' _ ih =>
    obtain ⟨before, a, after, rfl, hPre, hAct, hPost⟩ := ih hActs
    exact ⟨before, a, after ++ [a'], by simp, hPre, hAct, .silent hPost⟩
  | @act steps acts a b' hBefore hLast ih =>
    rcases List.eq_nil_or_concat post with rfl | ⟨post, last, rfl⟩
    · obtain ⟨rfl, hSame⟩ := List.append_inj' hActs rfl
      obtain rfl := (List.cons.inj hSame).1
      exact ⟨steps, a, [], rfl, hBefore, hLast, .nil⟩
    · rw [List.concat_eq_append, ← List.cons_append, ← List.append_assoc] at hActs
      obtain ⟨hInit, hSame⟩ := List.append_inj' hActs rfl
      obtain rfl := (List.cons.inj hSame).1
      obtain ⟨before, a', after, rfl, hPre, hAct, hPost⟩ := ih hInit
      refine ⟨before, a', after ++ [a], by simp, hPre, hAct, ?_⟩
      rw [List.concat_eq_append]
      exact .act hPost hLast

theorem mem (h : Makes P steps acts) {b : β} (hb : b ∈ acts) : ∃ a ∈ steps, P a b := by
  obtain ⟨pre, post, hActs⟩ := List.append_of_mem hb
  obtain ⟨before, a, after, rfl, -, hAct, -⟩ := h.split hActs
  exact ⟨a, by simp, hAct⟩

/-- What holds of the acts of the steps in the list may be said along. -/
theorem imp_mem {Q : α → β → Prop} (h : Makes P steps acts)
    (hImp : ∀ a ∈ steps, ∀ b, P a b → Q a b) : Makes Q steps acts := by
  induction h with
  | nil => exact .nil
  | silent _ ih => exact .silent (ih fun a ha => hImp a (List.mem_append_left _ ha))
  | act _ hLast ih =>
    exact .act (ih fun a ha => hImp a (List.mem_append_left _ ha)) (hImp _ (by simp) _ hLast)

end Makes

namespace Run

variable {σ ι τ κ : Type} {step : σ → ι → σ → Prop} {step' : τ → κ → τ → Prop} {f : σ → τ}
  {s s' : σ} {steps : List (σ × ι)}

/-- A run of the system is a run of the machine that its steps simulate. -/
theorem simulates {I : σ → Prop} {P : σ × ι → κ → Prop}
    (hKeep : ∀ {m l n}, I m → step m l n → I n)
    (hStep : ∀ {m l n}, I m → step m l n → f n = f m ∨ ∃ k, step' (f m) k (f n) ∧ P (m, l) k)
    (h0 : I s) (h : Run step s steps s') :
    ∃ acts, Run step' (f s) acts (f s') ∧
      Makes (fun p act => act.1 = f p.1 ∧ P p act.2) steps acts := by
  induction h with
  | nil => exact ⟨[], .nil, .nil⟩
  | @snoc steps m s' l hRun hLast ih =>
    obtain ⟨acts, hActs, hMakes⟩ := ih
    rcases hStep (hRun.invariant hKeep h0) hLast with hSame | ⟨k, hAct, hP⟩
    · exact ⟨acts, hSame ▸ hActs, .silent hMakes⟩
    · exact ⟨acts ++ [(f m, k)], .snoc hActs hAct, .act hMakes ⟨rfl, hP⟩⟩

/-- A run is one of a part of the system, where each step is one of the part or leaves it. -/
theorem filterMap {g : σ × ι → Option κ}
    (hStep : ∀ {m l n}, step m l n → (∀ k, g (m, l) = some k → step' (f m) k (f n)) ∧
      (g (m, l) = none → f n = f m)) (h : Run step s steps s') :
    Run step' (f s) (steps.filterMap fun p => (g p).map fun k => (f p.1, k)) (f s') := by
  induction h with
  | nil => exact .nil
  | @snoc steps m s' l _ hLast ih =>
    rw [List.filterMap_append]
    obtain ⟨hSome, hNone⟩ := hStep hLast
    cases hg : g (m, l) with
    | none => simpa [hg, hNone hg] using ih
    | some k => simpa [hg] using ih.snoc (hSome k hg)

end Run

end WxcodeAdm.Lib
