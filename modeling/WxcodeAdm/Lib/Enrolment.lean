import WxcodeAdm.Lib.Run

/-! An enrolment in a plan that a payment provider bills.  It is opened for nothing, bought under a
contract with the provider, and follows what the provider tells of that contract.  A step is one
act, with what it asks for. -/

namespace WxcodeAdm.Lib

/-- How an enrolment stands: for nothing, paid for, behind with a payment, or at its end. -/
inductive BillingStanding where
  | free
  | paid
  | overdue
  | ended
  deriving DecidableEq

/-- The standings in which the service is refused. -/
def BillingStanding.Barred (s : BillingStanding) : Prop := s = .overdue ∨ s = .ended

instance (s : BillingStanding) : Decidable s.Barred := inferInstanceAs (Decidable (_ ∨ _))

structure Enrolment (P C K T : Type) where
  plan : P
  customer : Option C
  contract : Option K
  standing : BillingStanding
  start : Option T
  finish : Option T
  used : Nat

inductive BillingAct (P C K T : Type) where
  | opens (plan : P) (customer : Option C)
  | registers (customer : Option C)
  | buys (plan : P) (contract : Option K)
  | syncs (contract : K) (standing : Option BillingStanding) (start finish : Option T)
  | settles (contract : K)
  | fails (contract : K)
  | ends (contract : K)

variable {P C K T : Type}

namespace Enrolment

/-- What an act asks for: that there is no enrolment yet, that there is one, or that it is under the
contract that the act is about.  The provider does not give anything for nothing. -/
def Allows (e : Option (Enrolment P C K T)) : BillingAct P C K T → Prop
  | .opens .. => e = none
  | .registers _ | .buys .. => e.isSome = true
  | .syncs contract standing _ _ =>
    e.bind Enrolment.contract = some contract ∧ standing ≠ some .free
  | .settles contract | .fails contract | .ends contract =>
    e.bind Enrolment.contract = some contract

/-- The standing that an act sets, if it does; a payment settles only what was overdue. -/
def sets (e : Enrolment P C K T) : BillingAct P C K T → Option BillingStanding
  | .opens .. => some .free
  | .registers _ => none
  | .buys .. => some .paid
  | .syncs _ standing _ _ => standing
  | .settles _ => if e.standing = .overdue then some .paid else none
  | .fails _ => some .overdue
  | .ends _ => some .ended

/-- Some act of a run was a purchase. -/
def Bought (steps : List (Option (Enrolment P C K T) × BillingAct P C K T)) : Prop :=
  ∃ p ∈ steps, ∃ plan contract, p.2 = .buys plan contract

theorem bought_snoc {steps : List (Option (Enrolment P C K T) × BillingAct P C K T)}
    {p : Option (Enrolment P C K T) × BillingAct P C K T} :
    Bought (steps ++ [p]) ↔ Bought steps ∨ ∃ plan contract, p.2 = .buys plan contract := by
  simp only [Bought, List.mem_append, List.mem_singleton, or_and_right, exists_or, exists_eq_left]

variable [DecidableEq T]

/-- The billing period as it is told: a start that is another one begins the count of what is
used. -/
def renew (e : Enrolment P C K T) (start finish : Option T) : Enrolment P C K T :=
  { e with
    start := start <|> e.start
    finish := finish <|> e.finish
    used := if start.isSome = true ∧ e.start ≠ start then 0 else e.used }

/-- What an act makes of an enrolment that is there, but for its standing. -/
def change (e : Enrolment P C K T) : BillingAct P C K T → Enrolment P C K T
  | .registers customer => { e with customer }
  | .buys plan contract => { e with plan, contract }
  | .syncs _ _ start finish => e.renew start finish
  | _ => e

def next (e : Enrolment P C K T) (act : BillingAct P C K T) : Enrolment P C K T :=
  { e.change act with standing := (e.sets act).getD e.standing }

def after (e : Option (Enrolment P C K T)) (act : BillingAct P C K T) :
    Option (Enrolment P C K T) :=
  match act with
  | .opens plan customer => some ⟨plan, customer, none, .free, none, none, 0⟩
  | act => e.map fun e => e.next act

/-- One act. -/
def Step (e : Option (Enrolment P C K T)) (act : BillingAct P C K T)
    (e' : Option (Enrolment P C K T)) : Prop :=
  Allows e act ∧ e' = after e act

variable {e e' : Option (Enrolment P C K T)} {act : BillingAct P C K T}
  {steps : List (Option (Enrolment P C K T) × BillingAct P C K T)}

/-- An enrolment after a run is what its acts make of the one before. -/
theorem after_run (h : Run Step e steps e') :
    e' = (steps.map fun p => p.2).foldl after e := by
  induction h with
  | nil => rfl
  | snoc _ hStep ih =>
    rw [List.map_append, List.foldl_append, ← ih]
    exact hStep.2

/-! ### The standing -/

/-- The standing that a step sets, if it does. -/
def said (p : Option (Enrolment P C K T) × BillingAct P C K T) : Option BillingStanding :=
  match p.1 with
  | none => some .free
  | some e => e.sets p.2

/-- A step opens an enrolment, or changes the one that is there. -/
theorem Step.split (h : Step e act e') : (∃ plan customer, e = none ∧ act = .opens plan customer) ∨
    ∃ s, e = some s ∧ e' = some (s.next act) := by
  obtain ⟨hAllows, rfl⟩ := h
  cases act with
  | opens plan customer => exact .inl ⟨plan, customer, hAllows, rfl⟩
  | registers | buys =>
    obtain ⟨s, rfl⟩ := Option.isSome_iff_exists.mp hAllows
    exact .inr ⟨s, rfl, rfl⟩
  | syncs =>
    obtain ⟨s, rfl, -⟩ := Option.bind_eq_some_iff.mp hAllows.1
    exact .inr ⟨s, rfl, rfl⟩
  | settles | fails | ends =>
    obtain ⟨s, rfl, -⟩ := Option.bind_eq_some_iff.mp hAllows
    exact .inr ⟨s, rfl, rfl⟩

theorem Step.standing (h : Step e act e') :
    e'.map Enrolment.standing = (said (e, act)).or (e.map Enrolment.standing) := by
  rcases h.split with ⟨plan, customer, rfl, rfl⟩ | ⟨s, rfl, rfl⟩
  · rw [h.2]
    rfl
  · change some ((s.sets act).getD s.standing) = (s.sets act).or (some s.standing)
    cases s.sets act <;> rfl

/-- The standing after a run is the last one that was set. -/
theorem standing_run (h : Run Step e steps e') : e'.map Enrolment.standing =
    (steps.filterMap said).getLast?.or (e.map Enrolment.standing) := by
  induction h with
  | nil => rfl
  | @snoc steps m e' act _ hStep ih =>
    rw [hStep.standing, ih, List.filterMap_append, List.getLast?_append, Option.or_assoc]
    cases hSaid : said (m, act) <;> simp [hSaid]

/-- An enrolment that was not barred is barred after a run exactly if the last standing that was set
bars it. -/
theorem barred_iff (h : Run Step e steps e') (hStart : ∀ s ∈ e, ¬s.standing.Barred) :
    (∃ s ∈ e', s.standing.Barred) ↔ ∃ s ∈ (steps.filterMap said).getLast?, s.Barred := by
  have hStanding := standing_run h
  have hAfter : (∃ s ∈ e', s.standing.Barred) ↔
      ∃ standing ∈ e'.map Enrolment.standing, standing.Barred := by simp
  rw [hAfter, hStanding]
  cases hLast : (steps.filterMap said).getLast? with
  | some standing => simp
  | none =>
    simp only [Option.none_or, Option.mem_def, reduceCtorEq, false_and, exists_false, iff_false]
    rintro ⟨standing, hSame, hBarred⟩
    obtain ⟨s, hs, rfl⟩ := Option.map_eq_some_iff.mp hSame
    exact hStart s hs hBarred

/-- Without an enrolment nothing has happened yet. -/
theorem steps_of_none (h : Run Step e steps none) : steps = [] := by
  generalize hEnd : (none : Option (Enrolment P C K T)) = e' at h
  cases h with
  | nil => rfl
  | snoc _ hStep =>
    subst hEnd
    rcases hStep.split with ⟨_, _, rfl, rfl⟩ | ⟨_, -, hAfter⟩
    · cases hStep.2
    · cases hAfter

/-! ### Purchases -/

/-- What an enrolment without a purchase is, and what one with a purchase is not. -/
def Marks (bought : Prop) (s : Enrolment P C K T) : Prop :=
  (¬bought → s.standing = .free ∧ s.contract = none) ∧ (bought → s.standing ≠ .free)

/-- From before its opening, an enrolment is free, and without a contract, until it is bought, and
never again. -/
theorem marks_run (h : Run Step none steps e') : ∀ s ∈ e', Marks (Bought steps) s := by
  induction h with
  | nil => simp
  | @snoc steps m e' act hRun hStep ih =>
    intro s hs
    rw [bought_snoc]
    rcases hStep.split with ⟨plan, customer, rfl, rfl⟩ | ⟨before, rfl, rfl⟩
    · obtain rfl := steps_of_none hRun
      obtain rfl := Option.some.inj (hStep.2.symm.trans hs)
      simp [Marks, Bought]
    · obtain rfl := Option.some.inj hs
      obtain ⟨hNot, hBought⟩ := ih before rfl
      have hAllows := hStep.1
      -- what the provider tells is about a contract, and there is none without a purchase
      have hUnder (contract : K) (hContract : before.contract = some contract) : Bought steps := by
        by_contra hNone
        rw [(hNot hNone).2] at hContract
        cases hContract
      cases act with
      | opens => cases hAllows
      | registers => simpa [Marks, next, change, sets] using ⟨hNot, hBought⟩
      | buys => exact ⟨fun h => absurd (.inr ⟨_, _, rfl⟩) h, fun _ => by simp [next, sets]⟩
      | fails contract | ends contract =>
        exact ⟨fun h => absurd (.inl (hUnder contract hAllows)) h, fun _ => by simp [next, sets]⟩
      | settles contract =>
        have hPurchase := hUnder contract hAllows
        refine ⟨fun h => absurd (.inl hPurchase) h, fun _ => ?_⟩
        by_cases hOverdue : before.standing = .overdue
        · simp [next, sets, hOverdue]
        · simpa [next, sets, hOverdue] using hBought hPurchase
      | syncs contract standing start finish =>
        have hPurchase := hUnder contract hAllows.1
        refine ⟨fun h => absurd (.inl hPurchase) h, fun _ => ?_⟩
        cases standing with
        | none => exact hBought hPurchase
        | some standing => exact fun hFree => hAllows.2 (congrArg some hFree)

end Enrolment

end WxcodeAdm.Lib
