import WxcodeAdm.Moves
import WxcodeAdm.Tenants.Joining

/-! The rows that carry authority from one request to a later one: who created an invitation or a
transfer, and what becomes of the invitations. -/

namespace WxcodeAdm

open Lib

/-- The invitation as it was created. -/
def Invitation.issued (i : Invitation) : Invitation := { i with acceptedAt := none }

theorem Invitation.id_of_issued {i j : Invitation} (h : j.issued = i.issued) : j.id = i.id := by
  have hId := congrArg (fun i : Invitation => i.id) h
  exact hId

/-- The request creates the invitation, by a member who may. -/
inductive Invites (c : Ctx) (w : World) : Request → Invitation → Prop
  | intro {token header body tenant actor} (acts : Acts c w token header .admin tenant actor) :
      Invites c w (.createInvitation token header body) (invitationFor c tenant actor body)

/-- The request creates the transfer, by the owner. -/
inductive Offers (c : Ctx) (w : World) : Request → OwnershipTransfer → Prop
  | intro {token header toUserId tenant actor} (acts : Acts c w token header .owner tenant actor) :
      Offers c w (.initiateTransfer token header toUserId)
        (offeredTransfer c tenant actor toUserId)

/-- The later table of invitations has what became of each row of the earlier one, but for pending
rows that are gone, and for rows that are new. -/
structure Succeeds (New : Invitation → Prop) (l l' : List Invitation) : Prop where
  origin : ∀ i ∈ l', (∃ j ∈ l, j.issued = i.issued) ∨ New i
  accepted : ∀ i ∈ l, i.acceptedAt ≠ none → ∃ j ∈ l', j.issued = i.issued ∧ j.acceptedAt ≠ none

namespace Succeeds

variable {New : Invitation → Prop} {l : List Invitation}

theorem refl : Succeeds New l l :=
  ⟨fun i hi => .inl ⟨i, hi, rfl⟩, fun i hi hAccepted => ⟨i, hi, rfl, hAccepted⟩⟩

/-- Some rows are accepted. -/
theorem accept (p : Invitation → Prop) [DecidablePred p] (now : Nat) :
    Succeeds New l (l.map fun i => if p i then { i with acceptedAt := some now } else i) where
  origin := by
    intro i hi
    obtain ⟨j, hj, rfl⟩ := List.mem_map.mp hi
    refine .inl ⟨j, hj, ?_⟩
    split <;> rfl
  accepted := by
    intro i hi hAccepted
    refine ⟨_, List.mem_map_of_mem hi, ?_⟩
    split
    · exact ⟨rfl, by simp⟩
    · exact ⟨rfl, hAccepted⟩

end Succeeds

section Moves

variable {c : Ctx} {w w' : World} {r : Request}

theorem Move.invitations (hValid : w.db.Valid) (hMove : Move c w w' r) :
    Succeeds (Invites c w r) w.db.invitations w'.db.invitations := by
  have hOf {after : Db} (hTeam : w'.db.team = after.team)
      (hRows : after.invitations = w.db.invitations) :
      Succeeds (Invites c w r) w.db.invitations w'.db.invitations := by
    have hSame : w'.db.invitations = w.db.invitations :=
      (congrArg (fun t => t.2.2) hTeam).trans hRows
    exact hSame ▸ .refl
  cases hMove with
  | idle after => exact hOf after rfl
  | founds _ _ _ _ _ _ after => exact hOf after rfl
  | changesRole _ _ _ _ after =>
    refine hOf after ?_
    unfold Db.saveMembership
    split <;> rfl
  | removes _ _ _ _ after | leaves _ _ after | offers _ _ _ _ _ after | blocks _ after =>
    exact hOf after rfl
  | accepts _ _ _ _ _ after =>
    refine hOf after ?_
    cases w.db.membership _ _ <;> rfl
  | @invites _ _ body tenant actor acts after =>
    have hRows : w'.db.invitations = w.db.invitations ++ [invitationFor c tenant actor body] :=
      congrArg (fun t => t.2.2) after
    rw [hRows]
    refine ⟨fun i hi => ?_, fun i hi hAccepted => ⟨i, List.mem_append_left _ hi, rfl, hAccepted⟩⟩
    rcases List.mem_append.mp hi with hi | hi
    · exact .inl ⟨i, hi, rfl⟩
    · obtain rfl := List.mem_singleton.mp hi
      exact .inr (.intro acts)
  | @cancels _ _ invitationId _ _ _ found after =>
    have hRows : w'.db.invitations = w.db.invitations.filter fun i => i.id ≠ invitationId :=
      congrArg (fun t => t.2.2) after
    rw [hRows]
    refine ⟨fun i hi => .inl ⟨i, (List.mem_filter.mp hi).1, rfl⟩, fun i hi hAccepted => ?_⟩
    obtain ⟨j, hj, rfl, hPending⟩ := found
    refine ⟨i, List.mem_filter.mpr ⟨hi, ?_⟩, rfl, hAccepted⟩
    have hNe : i.id ≠ j.id := by
      intro hId
      obtain rfl := List.inj_on_of_nodup_map hValid.invitationId hi hj hId
      exact hAccepted hPending
    simpa using hNe
  | redeems _ _ after =>
    have hRows := congrArg (fun t => t.2.2) after
    simp only [Db.team, Db.join] at hRows
    rw [hRows]
    exact .accept _ _
  | @autoJoins _ _ user _ _ _ after =>
    obtain ⟨joined, -, hJoined⟩ := autoJoinAll_joined c user w.db
    have hRows : w'.db.invitations = _ := (congrArg (fun t => t.2.2) after).trans hJoined.invitations
    rw [hRows]
    exact .accept _ _

theorem Move.transfers (hMove : Move c w w' r) {x : OwnershipTransfer}
    (hx : x ∈ w'.db.transfers) : x ∈ w.db.transfers ∨ Offers c w r x := by
  have hOf {after : Db} (hTeam : w'.db.team = after.team)
      (hRows : after.transfers ⊆ w.db.transfers) : x ∈ w.db.transfers ∨ Offers c w r x := by
    have hSame : w'.db.transfers = after.transfers := congrArg (fun t => t.2.1) hTeam
    exact .inl (hRows (hSame ▸ hx))
  cases hMove with
  | idle after => exact hOf after (List.Subset.refl _)
  | founds _ _ _ _ _ _ after => exact hOf after (List.Subset.refl _)
  | changesRole _ _ _ _ after =>
    refine hOf after ?_
    unfold Db.saveMembership
    split <;> exact List.Subset.refl _
  | removes _ _ _ _ after | leaves _ _ after | invites _ after | cancels _ _ after
  | redeems _ _ after | blocks _ after => exact hOf after (List.Subset.refl _)
  | @offers _ _ toUserId tenant actor _ kept acts _ _ sub _ after =>
    have hRows : w'.db.transfers = kept ++ [offeredTransfer c tenant actor toUserId] :=
      congrArg (fun t => t.2.1) after
    rw [hRows] at hx
    rcases List.mem_append.mp hx with hx | hx
    · exact .inl (sub hx)
    · obtain rfl := List.mem_singleton.mp hx
      exact .inr (.intro acts)
  | accepts _ _ _ _ _ after =>
    refine hOf after ?_
    cases w.db.membership _ _ <;> exact List.filter_subset_self _
  | @autoJoins _ _ user _ _ _ after =>
    obtain ⟨joined, -, hJoined⟩ := autoJoinAll_joined c user w.db
    exact hOf after (hJoined.transfers ▸ List.Subset.refl _)

end Moves

section Runs

variable {cfg : Config} {s₀ s : Sys} {steps : List (Sys × Event)}

/-- An invitation was there before a run, or a step of the run created it. -/
theorem invitation_origin_of_sound (hs : s₀.Sound cfg) (hRun : Run (Step cfg) s₀ steps s)
    {i : Invitation} (hi : i ∈ s.world.db.invitations) :
    (∃ j ∈ s₀.world.db.invitations, j.issued = i.issued) ∨
      ∃ p ∈ steps, Invites (p.2.ctx cfg) p.1.world p.2.request i.issued := by
  refine hRun.origin (P := fun s i => ∃ j ∈ s.world.db.invitations, j.issued = i)
    (Q := fun p i => Invites (p.2.ctx cfg) p.1.world p.2.request i) ?_ _ ⟨i, hi, rfl⟩
  rintro pre m l n hPre hStep a ⟨j, hj, rfl⟩
  have hm : m.Sound cfg := hPre.invariant (fun hs hStep => hStep.sound hs) hs
  rcases ((hStep.move hm).invitations hm.valid).origin j hj with hOld | hNew
  · exact .inl hOld
  · refine .inr ?_
    generalize l.request = r at hNew ⊢
    cases hNew with
    | intro acts => exact .intro acts

/-- Every invitation was created by a step of the run. -/
theorem invitation_origin (hInit : Initial s₀) (hRun : Run (Step cfg) s₀ steps s) {i : Invitation}
    (hi : i ∈ s.world.db.invitations) :
    ∃ p ∈ steps, Invites (p.2.ctx cfg) p.1.world p.2.request i.issued := by
  refine (invitation_origin_of_sound hInit.sound hRun hi).resolve_left ?_
  rintro ⟨j, hj, -⟩
  rw [hInit.invitations] at hj
  cases hj

/-- An accepted invitation stays. -/
theorem accepted_stays (hs : s₀.Sound cfg) (hRun : Run (Step cfg) s₀ steps s) {i : Invitation}
    (hi : i ∈ s₀.world.db.invitations) (hAccepted : i.acceptedAt ≠ none) :
    ∃ j ∈ s.world.db.invitations, j.issued = i.issued ∧ j.acceptedAt ≠ none := by
  refine (hRun.invariant (I := fun m => m.Sound cfg ∧ ∃ j ∈ m.world.db.invitations,
    j.issued = i.issued ∧ j.acceptedAt ≠ none) ?_ ⟨hs, i, hi, rfl, hAccepted⟩).2
  rintro m l n ⟨hm, j, hj, hSame, hDone⟩ hStep
  obtain ⟨k, hk, hNext, hStill⟩ := ((hStep.move hm).invitations hm.valid).accepted j hj hDone
  exact ⟨hStep.sound hm, k, hk, hNext.trans hSame, hStill⟩

/-- Every transfer was created by a step of the run. -/
theorem transfer_origin (hInit : Initial s₀) (hRun : Run (Step cfg) s₀ steps s)
    {x : OwnershipTransfer} (hx : x ∈ s.world.db.transfers) :
    ∃ p ∈ steps, Offers (p.2.ctx cfg) p.1.world p.2.request x := by
  refine (hRun.origin (P := fun s x => x ∈ s.world.db.transfers)
    (Q := fun p x => Offers (p.2.ctx cfg) p.1.world p.2.request x)
    (fun hPre hStep x hx => ?_) x hx).resolve_left fun hx => ?_
  · have hs := Reachable.sound ⟨s₀, _, hInit, hPre⟩
    exact (hStep.move hs).transfers hx
  · rw [hInit.transfers] at hx
    cases hx

end Runs

end WxcodeAdm
