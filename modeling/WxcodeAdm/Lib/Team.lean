import Mathlib.Logic.Function.Basic
import Mathlib.Order.BoundedOrder.Basic
import WxcodeAdm.Lib.Run

/-! A team under a policy of roles.  The roles are ordered, with the owner's at the top; members
from the manager's role on assign roles, remove members and send invitations by address, the owner
offers the ownership, a newcomer takes up an invitation, and the platform bars members and closes
the team.  A step is one act, with what the policy asks for it. -/

namespace WxcodeAdm.Lib

/-- A place in a team. -/
structure Seat (R : Type) where
  role : R
  billing : Bool
  blocked : Bool

structure Invite (U R : Type) where
  role : R
  billing : Bool
  inviter : U
  accepted : Bool

@[ext] structure Team (U E R : Type) where
  founded : Bool
  suspended : Bool
  deleted : Bool
  seat : U → Option (Seat R)
  invite : E → Option (Invite U R)
  offer : Option (U × U)

inductive TeamAct (U E R : Type) where
  | founds (founder : U)
  | assigns (actor target : U) (role : R) (billing : Bool)
  | removes (actor target : U)
  | leaves (member : U)
  | offers (owner heir : U)
  | accepts (owner heir : U)
  | invites (actor : U) (address : E) (role : R) (billing : Bool)
  | cancels (actor : U) (address : E)
  | joins (newcomer : U) (address : E) (invite : Invite U R)
  | bars (target : U) (blocked : Bool)
  | suspends
  | reactivates
  | deletes

variable {U E R : Type}

/-- The member who acts. -/
def TeamAct.actor : TeamAct U E R → Option U
  | .assigns actor _ _ _ | .removes actor _ | .leaves actor | .offers actor _ | .accepts _ actor
  | .invites actor _ _ _ | .cancels actor _ => some actor
  | _ => none

/-- The acts of the platform. -/
def TeamAct.ofPlatform : TeamAct U E R → Bool
  | .bars .. | .suspends | .reactivates | .deletes => true
  | _ => false

namespace Team

def Open (t : Team U E R) : Prop := t.founded = true ∧ t.suspended = false ∧ t.deleted = false

/-- A member who can act: with a place that is not barred, in a team that is open. -/
structure Acting (t : Team U E R) (u : U) (place : Seat R) : Prop where
  isOpen : t.Open
  seat : t.seat u = some place
  admitted : place.blocked = false

section Policy

variable [PartialOrder R] [OrderTop R] (manager : R)

/-- What the policy asks for an act. -/
def Allows (t : Team U E R) : TeamAct U E R → Prop
  | .founds _ => t.founded = false
  | .assigns actor target role _ => ∃ a b, t.Acting actor a ∧ manager ≤ a.role ∧
      t.seat target = some b ∧ role ≠ ⊤ ∧ (b.role = ⊤ → a.role = ⊤ ∧ target ≠ actor)
  | .removes actor target => ∃ a b, t.Acting actor a ∧ manager ≤ a.role ∧
      t.seat target = some b ∧ b.role ≠ ⊤ ∧ target ≠ actor
  | .leaves member => ∃ a, t.Acting member a ∧ a.role ≠ ⊤
  | .offers owner heir => (∃ a, t.Acting owner a ∧ a.role = ⊤) ∧ (t.seat heir).isSome ∧ heir ≠ owner
  | .accepts owner heir => (∃ a, t.Acting heir a) ∧ t.offer = some (owner, heir)
  | .invites actor address role _ => (∃ a, t.Acting actor a ∧ manager ≤ a.role) ∧
      t.invite address = none ∧ role ≠ ⊤
  | .cancels actor address => (∃ a, t.Acting actor a ∧ manager ≤ a.role) ∧
      ∃ i, t.invite address = some i ∧ i.accepted = false
  | .joins newcomer address invite => t.seat newcomer = none ∧ t.invite address = some invite ∧
      invite.accepted = false
  | .bars target _ => (t.seat target).isSome
  | .suspends => t.founded = true ∧ t.suspended = false
  | .reactivates => t.suspended = true
  | .deletes => t.founded = true ∧ t.deleted = false

variable [DecidableEq U] [DecidableEq E]

/-- The team with another place for a user. -/
def place (t : Team U E R) (u : U) (seat : Option (Seat R)) : Team U E R :=
  { t with seat := Function.update t.seat u seat }

/-- The team with the place of a user changed, if there is one. -/
def reseat (t : Team U E R) (u : U) (f : Seat R → Seat R) : Team U E R :=
  t.place u ((t.seat u).map f)

def setInvite (t : Team U E R) (address : E) (invite : Option (Invite U R)) : Team U E R :=
  { t with invite := Function.update t.invite address invite }

/-- What an act makes of a team. -/
def after (t : Team U E R) : TeamAct U E R → Team U E R
  | .founds founder => { t with founded := true }.place founder (some ⟨⊤, true, false⟩)
  | .assigns _ target role billing => t.reseat target fun s => { s with role, billing }
  | .removes _ member | .leaves member => t.place member none
  | .offers owner heir => { t with offer := some (owner, heir) }
  | .accepts owner heir =>
    { (t.reseat owner fun s => { s with role := manager }).reseat heir
        fun s => { s with role := ⊤ } with offer := none }
  | .invites inviter address role billing =>
    t.setInvite address (some ⟨role, billing, inviter, false⟩)
  | .cancels _ address => t.setInvite address none
  | .joins newcomer address i =>
    (t.place newcomer (some ⟨i.role, i.billing, false⟩)).setInvite address
      (some { i with accepted := true })
  | .bars target blocked => t.reseat target fun s => { s with blocked }
  | .suspends => { t with suspended := true }
  | .reactivates => { t with suspended := false }
  | .deletes => { t with deleted := true }

/-- One act under the policy. -/
def Step (t : Team U E R) (act : TeamAct U E R) (t' : Team U E R) : Prop :=
  t.Allows manager act ∧ t' = t.after manager act

end Policy

variable {t t' : Team U E R} {u v : U}

section Seats

variable [DecidableEq U]

@[simp] theorem place_seat (s : Option (Seat R)) :
    (t.place u s).seat v = if v = u then s else t.seat v := Function.update_apply _ _ _ _

@[simp] theorem reseat_seat (f : Seat R → Seat R) :
    (t.reseat u f).seat v = if v = u then (t.seat u).map f else t.seat v := place_seat _

theorem reseat_none {f : Seat R → Seat R} (h : t.seat u = none) : t.reseat u f = t := by
  rw [reseat, h, Option.map_none, place, ← h, Function.update_eq_self]

@[simp] theorem place_invite (s : Option (Seat R)) : (t.place u s).invite = t.invite := rfl

@[simp] theorem place_offer (s : Option (Seat R)) : (t.place u s).offer = t.offer := rfl

@[simp] theorem reseat_invite (f : Seat R → Seat R) : (t.reseat u f).invite = t.invite := rfl

@[simp] theorem reseat_offer (f : Seat R → Seat R) : (t.reseat u f).offer = t.offer := rfl

end Seats

section Invites

variable [DecidableEq E] {e e' : E}

@[simp] theorem setInvite_seat (i : Option (Invite U R)) : (t.setInvite e i).seat = t.seat := rfl

@[simp] theorem setInvite_offer (i : Option (Invite U R)) : (t.setInvite e i).offer = t.offer := rfl

@[simp] theorem setInvite_invite (i : Option (Invite U R)) :
    (t.setInvite e i).invite e' = if e' = e then i else t.invite e' := Function.update_apply _ _ _ _

end Invites

/-! ### A closed team -/

/-- What is left of a team that was closed: the members with their roles, the offer and the
invitations as they were, but for the invitations that have been taken up since. -/
structure Keeps (t t' : Team U E R) : Prop where
  seats : ∀ u s, t.seat u = some s → ∃ s', t'.seat u = some s' ∧ s'.role = s.role ∧
    s'.billing = s.billing
  newcomers : ∀ u s', t.seat u = none → t'.seat u = some s' → ∃ e i, t.invite e = some i ∧
    i.accepted = false ∧ s'.role = i.role ∧ s'.billing = i.billing
  offer : t'.offer = t.offer
  invites : ∀ e, t'.invite e = t.invite e ∨ ∃ i, t.invite e = some i ∧ i.accepted = false ∧
    t'.invite e = some { i with accepted := true }

theorem Keeps.refl (t : Team U E R) : t.Keeps t where
  seats := fun _ s h => ⟨s, h, rfl, rfl⟩
  newcomers := fun _ _ hNone hSome => by rw [hNone] at hSome; cases hSome
  offer := rfl
  invites := fun _ => .inl rfl

theorem Keeps.trans {t'' : Team U E R} (h : t.Keeps t') (h' : t'.Keeps t'') : t.Keeps t'' where
  seats := by
    intro u s hSeat
    obtain ⟨s', hSeat', hRole, hBilling⟩ := h.seats u s hSeat
    obtain ⟨s'', hSeat'', hRole', hBilling'⟩ := h'.seats u s' hSeat'
    exact ⟨s'', hSeat'', hRole'.trans hRole, hBilling'.trans hBilling⟩
  newcomers := by
    intro u s'' hNone hSeat''
    cases hSeat' : t'.seat u with
    | some s' =>
      -- seated in the first part, and kept in the second
      obtain ⟨e, i, hInvite, hOpen, hRole, hBilling⟩ := h.newcomers u s' hNone hSeat'
      obtain ⟨x, hx, hRole', hBilling'⟩ := h'.seats u s' hSeat'
      obtain rfl : x = s'' := Option.some.inj (hx.symm.trans hSeat'')
      exact ⟨e, i, hInvite, hOpen, hRole'.trans hRole, hBilling'.trans hBilling⟩
    | none =>
      obtain ⟨e, i, hInvite', hOpen, hRole, hBilling⟩ := h'.newcomers u s'' hSeat' hSeat''
      rcases h.invites e with hSame | ⟨j, -, -, hTaken⟩
      · exact ⟨e, i, hSame ▸ hInvite', hOpen, hRole, hBilling⟩
      · obtain rfl := Option.some.inj (hTaken.symm.trans hInvite')
        cases hOpen
  offer := h'.offer.trans h.offer
  invites := by
    intro e
    rcases h'.invites e with hSame | ⟨i, hInvite', hOpen, hTaken⟩
    · rw [hSame]
      exact h.invites e
    · rcases h.invites e with hSame | ⟨j, -, -, hTaken'⟩
      · exact .inr ⟨i, hSame ▸ hInvite', hOpen, hTaken⟩
      · obtain rfl := Option.some.inj (hTaken'.symm.trans hInvite')
        cases hOpen

/-- Founded and closed. -/
def Closed (t : Team U E R) : Prop := t.founded = true ∧ (t.suspended = true ∨ t.deleted = true)

theorem Closed.not_acting (h : t.Closed) (s : Seat R) : ¬t.Acting u s := by
  rintro ⟨⟨-, hSuspended, hDeleted⟩, -, -⟩
  simpa [hSuspended, hDeleted] using h.2

section Machine

variable [PartialOrder R] [OrderTop R] {manager : R} [DecidableEq U] [DecidableEq E]
  {act : TeamAct U E R}

/-- Nobody acts in a closed team. -/
theorem Step.not_closed (h : t.Step manager act t') (hActor : act.actor = some u) : ¬t.Closed := by
  intro hClosed
  have hAllows := h.1
  cases act with
  | assigns | removes =>
    obtain ⟨a, b, hActing, -⟩ := hAllows
    exact hClosed.not_acting a hActing
  | leaves =>
    obtain ⟨a, hActing, -⟩ := hAllows
    exact hClosed.not_acting a hActing
  | offers | accepts | invites | cancels =>
    obtain ⟨⟨a, hActing⟩, -⟩ := hAllows
    first | exact hClosed.not_acting a hActing | exact hClosed.not_acting a hActing.1
  | _ => cases hActor

/-- A step of a closed team keeps it. -/
theorem Step.keeps (h : t.Step manager act t') (hClosed : t.Closed) : t.Keeps t' := by
  cases hActor : act.actor with
  | some u => exact absurd hClosed (h.not_closed hActor)
  | none =>
    obtain ⟨hAllows, rfl⟩ := h
    cases act with
    | founds => exact absurd hAllows (by simp [Allows, hClosed.1])
    | joins newcomer address i =>
      obtain ⟨hNone, hInvite, hOpen⟩ := hAllows
      refine ⟨fun u s hSeat => ⟨s, ?_, rfl, rfl⟩, fun u s' hFree hSeat => ?_, rfl, fun e => ?_⟩
      · have hOther : u ≠ newcomer := by
          rintro rfl
          rw [hNone] at hSeat
          cases hSeat
        simpa [after, hOther] using hSeat
      · by_cases hSame : u = newcomer
        · subst hSame
          simp only [after, setInvite_seat, place_seat, if_true, Option.some.injEq] at hSeat
          obtain rfl := hSeat
          exact ⟨address, i, hInvite, hOpen, rfl, rfl⟩
        · simp [after, hSame, hFree] at hSeat
      · by_cases hSame : e = address
        · subst hSame
          exact .inr ⟨i, hInvite, hOpen, by simp [after]⟩
        · exact .inl (by simp [after, hSame])
    | bars target blocked =>
      refine ⟨fun u s hSeat => ?_, fun u s' hFree hSeat => ?_, rfl, fun _ => .inl rfl⟩
      · by_cases hSame : u = target
        · subst hSame
          exact ⟨{ s with blocked }, by simp [after, hSeat], rfl, rfl⟩
        · exact ⟨s, by simpa [after, hSame] using hSeat, rfl, rfl⟩
      · by_cases hSame : u = target
        · subst hSame
          simp [after, hFree] at hSeat
        · simp [after, hSame, hFree] at hSeat
    | suspends | reactivates | deletes =>
      exact ⟨(Keeps.refl t).seats, (Keeps.refl t).newcomers, rfl, fun _ => .inl rfl⟩
    | _ => cases hActor

/-- A team stays founded, and deleted. -/
theorem Step.deleted (h : t.Step manager act t') (hDeleted : t.founded = true ∧ t.deleted = true) :
    t'.founded = true ∧ t'.deleted = true := by
  obtain ⟨-, rfl⟩ := h
  cases act <;> first | exact hDeleted | exact ⟨rfl, hDeleted.2⟩ | exact ⟨hDeleted.1, rfl⟩

variable {steps : List (Team U E R × TeamAct U E R)}

/-- A run whose states before each step are closed keeps the team. -/
theorem keeps_run (h : Run (Step manager) t steps t') (hClosed : ∀ p ∈ steps, p.1.Closed) :
    t.Keeps t' := by
  induction h with
  | nil => exact .refl t
  | @snoc steps m s' act _ hStep ih =>
    simp only [List.mem_append, List.mem_singleton] at hClosed
    exact (ih fun p hp => hClosed p (.inl hp)).trans (hStep.keeps (hClosed (m, act) (.inr rfl)))

/-- A team that is deleted is deleted for ever, and kept. -/
theorem deleted_run (h : Run (Step manager) t steps t') (hFounded : t.founded = true)
    (hDeleted : t.deleted = true) : t.Keeps t' ∧ t'.deleted = true := by
  have hClosed : ∀ p ∈ steps, p.1.Closed := h.forall_steps
    (I := fun m => m.founded = true ∧ m.deleted = true) (P := fun m _ => m.Closed)
    (fun hm hStep => hStep.deleted hm) (fun hm _ => ⟨hm.1, .inr hm.2⟩) ⟨hFounded, hDeleted⟩
  have hEnd := h.invariant (I := fun m => m.founded = true ∧ m.deleted = true)
    (fun hm hStep => hStep.deleted hm) ⟨hFounded, hDeleted⟩
  exact ⟨keeps_run h hClosed, hEnd.2⟩

/-- The team after a run is what its acts make of the team before. -/
theorem after_run (h : Run (Step manager) t steps t') :
    t' = (steps.map fun p => p.2).foldl (fun t act => t.after manager act) t := by
  induction h with
  | nil => rfl
  | snoc _ hStep ih => rw [List.map_append, List.foldl_append, ← ih]; exact hStep.2

end Machine

/-! ### Who brought whom in -/

section Chains

variable [PartialOrder R] {manager : R} {first : U → Prop}
  {steps : List (Team U E R × TeamAct U E R)}

/-- A member who sends invitations. -/
def Manages (manager : R) (t : Team U E R) (u : U) : Prop := ∃ a, t.Acting u a ∧ manager ≤ a.role

/-- Who has come to a team that had the members `first`: one of them, its founder, or who took up an
invitation of a manager who had come to it before. -/
inductive Brought (manager : R) (first : U → Prop) : List (Team U E R × TeamAct U E R) → U → Prop
  | first {l u} (member : first u) : Brought manager first l u
  | founder {pre m u post} : Brought manager first (pre ++ (m, .founds u) :: post) u
  | invited {pre mid post m m' u e i} (inviter : Brought manager first pre i.inviter)
      (manages : m.Manages manager i.inviter) :
      Brought manager first (pre ++ (m, .invites i.inviter e i.role i.billing) ::
        (mid ++ (m', .joins u e i) :: post)) u

theorem Brought.append {more : List (Team U E R × TeamAct U E R)}
    (h : Brought manager first steps u) : Brought manager first (steps ++ more) u := by
  cases h with
  | first hMember => exact .first hMember
  | founder =>
    rw [List.append_assoc, List.cons_append]
    exact .founder
  | invited hInviter hManages =>
    simp only [List.append_assoc, List.cons_append]
    exact .invited hInviter hManages

/-- An invitation was sent by a manager who had come to the team. -/
def Sent (manager : R) (first : U → Prop) (steps : List (Team U E R × TeamAct U E R)) (e : E)
    (i : Invite U R) : Prop :=
  ∃ pre m post, steps = pre ++ (m, .invites i.inviter e i.role i.billing) :: post ∧
    Brought manager first pre i.inviter ∧ m.Manages manager i.inviter

theorem Sent.append {more : List (Team U E R × TeamAct U E R)} {e : E} {i : Invite U R}
    (h : Sent manager first steps e i) : Sent manager first (steps ++ more) e i := by
  obtain ⟨pre, m, post, rfl, hInviter⟩ := h
  exact ⟨pre, m, post ++ more, by simp, hInviter⟩

variable [OrderTop R] [DecidableEq U] [DecidableEq E] {act : TeamAct U E R}

/-- Who has a place after a step had one before, founded the team, or has taken up an invitation. -/
theorem Step.newcomer (h : t.Step manager act t') (hSeat : (t'.seat u).isSome = true) :
    (t.seat u).isSome = true ∨ act = .founds u ∨
      ∃ e i, act = .joins u e i ∧ t.invite e = some i := by
  obtain ⟨hAllows, rfl⟩ := h
  have hReseat {v : U} {f : Seat R → Seat R} {m : Team U E R}
      (h : ((m.reseat v f).seat u).isSome = true) : (m.seat u).isSome = true := by
    rw [reseat_seat] at h
    split at h
    · rename_i hSame
      simpa [hSame] using h
    · exact h
  cases act with
  | founds v =>
    by_cases hSame : u = v
    · exact .inr (.inl (hSame ▸ rfl))
    · exact .inl (by simpa [after, hSame] using hSeat)
  | joins v e i =>
    by_cases hSame : u = v
    · exact .inr (.inr ⟨e, i, hSame ▸ rfl, hAllows.2.1⟩)
    · exact .inl (by simpa [after, hSame] using hSeat)
  | removes actor v | leaves v =>
    by_cases hSame : u = v
    · simp [after, hSame] at hSeat
    · exact .inl (by simpa [after, hSame] using hSeat)
  | assigns | bars => exact .inl (hReseat hSeat)
  | accepts => exact .inl (hReseat (hReseat hSeat))
  | _ => exact .inl hSeat

/-- An invitation after a step was there before, taken up or not, or the step has sent it. -/
theorem Step.invite (h : t.Step manager act t') {e : E} {i : Invite U R}
    (hInvite : t'.invite e = some i) :
    (∃ j, t.invite e = some j ∧ j.inviter = i.inviter ∧ j.role = i.role ∧ j.billing = i.billing) ∨
      act = .invites i.inviter e i.role i.billing ∧ t.Manages manager i.inviter := by
  obtain ⟨hAllows, rfl⟩ := h
  cases act with
  | invites v address role billing =>
    by_cases hSame : e = address
    · subst hSame
      obtain rfl : ⟨role, billing, v, false⟩ = i := by simpa [after] using hInvite
      exact .inr ⟨rfl, hAllows.1⟩
    · exact .inl ⟨i, by simpa [after, hSame] using hInvite, rfl, rfl, rfl⟩
  | cancels v address =>
    by_cases hSame : e = address
    · simp [after, hSame] at hInvite
    · exact .inl ⟨i, by simpa [after, hSame] using hInvite, rfl, rfl, rfl⟩
  | joins v address j =>
    by_cases hSame : e = address
    · subst hSame
      obtain rfl : { j with accepted := true } = i := by simpa [after] using hInvite
      exact .inl ⟨j, hAllows.2.1, rfl, rfl, rfl⟩
    · exact .inl ⟨i, by simpa [after, hSame] using hInvite, rfl, rfl, rfl⟩
  | _ => exact .inl ⟨i, hInvite, rfl, rfl, rfl⟩

/-- In a team that begins without invitations, whoever has a place was brought in. -/
theorem brought_run (h : Run (Step manager) t steps t') (hStart : ∀ e, t.invite e = none) :
    (∀ u, (t'.seat u).isSome = true →
        Brought manager (fun u => (t.seat u).isSome = true) steps u) ∧
      ∀ e i, t'.invite e = some i →
        Sent manager (fun u => (t.seat u).isSome = true) steps e i := by
  induction h with
  | nil =>
    refine ⟨fun u hSeat => .first hSeat, fun e i hInvite => ?_⟩
    rw [hStart] at hInvite
    cases hInvite
  | @snoc steps m s' act hRun hStep ih =>
    obtain ⟨hMembers, hInvites⟩ := ih
    refine ⟨fun u hSeat => ?_, fun e i hInvite => ?_⟩
    · rcases hStep.newcomer hSeat with hOld | rfl | ⟨e, i, rfl, hInvite⟩
      · exact (hMembers u hOld).append
      · exact .founder
      · obtain ⟨pre, m', post, rfl, hInviter, hManages⟩ := hInvites e i hInvite
        rw [List.append_assoc, List.cons_append]
        exact .invited hInviter hManages
    · rcases hStep.invite hInvite with ⟨j, hOld, hInviter, hRole, hBilling⟩ | ⟨rfl, hManages⟩
      · have hSent := hInvites e j hOld
        rw [Sent, hInviter, hRole, hBilling] at hSent
        exact Sent.append hSent
      · have ⟨a, hActing, _⟩ := hManages
        exact ⟨steps, m, [], rfl, hMembers _ (by simp [hActing.seat]), hManages⟩

end Chains

end Team

end WxcodeAdm.Lib
