import WxcodeAdm.Tenants.Service

/-! What the loop of `auto_join_pending_invitations` makes of a database: which invitations it
redeems, the memberships it makes of them in that order, and that they are in different tenants. -/

namespace WxcodeAdm

open Lib

/-- The membership is the one that the invitation offers, made for the user. -/
structure Invitation.Grants (i : Invitation) (user : User) (m : TenantMembership) : Prop where
  user : m.userId = user.id
  tenant : m.tenantId = i.tenantId
  role : m.role = i.role
  billingAccess : m.billingAccess = i.billingAccess
  inviter : m.invitedById = some i.invitedById

theorem invitedMembership_grants (c : Ctx) (index : Nat) (user : User) (i : Invitation) :
    i.Grants user (invitedMembership c index user i) :=
  ⟨rfl, rfl, rfl, rfl, rfl⟩

/-- The loop has redeemed the invitations `joined`, in this order. -/
structure AutoJoined (c : Ctx) (user : User) (db : Db) (joined : List Invitation)
    (acc : Db × List TenantMembership) : Prop where
  made : acc.2 = joined.mapIdx fun index i => invitedMembership c index user i
  memberships : acc.1.memberships = db.memberships ++ acc.2
  transfers : acc.1.transfers = db.transfers
  invitations : acc.1.invitations = db.invitations.map fun i =>
    if i.id ∈ joined.map (fun j => j.id) then { i with acceptedAt := some c.now } else i
  tenants : (joined.map fun i => i.tenantId).Nodup
  live : ∀ i ∈ joined, c.now < i.expiresAt ∧ db.membership user.id i.tenantId = none

namespace AutoJoined

variable {c : Ctx} {user : User} {db : Db} {joined : List Invitation}
  {acc : Db × List TenantMembership}

theorem start : AutoJoined c user db [] (db, []) where
  made := rfl
  memberships := by simp
  transfers := rfl
  invitations := by simp
  tenants := List.nodup_nil
  live := by simp

/-- A column of the memberships that the invitations decide. -/
theorem made_map {β : Type} {f : TenantMembership → β} {g : Invitation → β}
    (h : AutoJoined c user db joined acc)
    (hf : ∀ index i, f (invitedMembership c index user i) = g i) : acc.2.map f = joined.map g := by
  rw [h.made]
  refine List.ext_getElem? fun index => ?_
  simp only [List.getElem?_map, List.getElem?_mapIdx, Option.map_map]
  exact congrArg (fun k => joined[index]?.map k) (funext fun i => hf index i)

/-- Who is a member after some rounds was one before, or has redeemed an invitation. -/
theorem membership_none (h : AutoJoined c user db joined acc) {tenantId : Uuid}
    (hNone : acc.1.membership user.id tenantId = none) :
    db.membership user.id tenantId = none ∧ tenantId ∉ joined.map fun i => i.tenantId := by
  rw [Db.membership, h.memberships, List.find?_append, Option.or_eq_none_iff] at hNone
  refine ⟨hNone.1, fun hIn => ?_⟩
  obtain ⟨i, hi, hTenant⟩ := List.mem_map.mp hIn
  obtain ⟨index, hIndex, rfl⟩ := List.getElem_of_mem hi
  have hMade : invitedMembership c index user joined[index] ∈ acc.2 := by
    rw [h.made]
    exact List.mem_mapIdx.mpr ⟨index, hIndex, rfl⟩
  simpa [invitedMembership, hTenant] using List.find?_eq_none.mp hNone.2 _ hMade

/-- A round with an invitation that is open redeems it. -/
theorem redeem (h : AutoJoined c user db joined acc) {i : Invitation}
    (hOpen : ¬(i.expiresAt ≤ c.now ∨ (acc.1.membership user.id i.tenantId).isSome)) :
    AutoJoined c user db (joined ++ [i]) (autoJoin c user acc i) := by
  obtain ⟨hLive, hMember⟩ := not_or.mp hOpen
  obtain ⟨hNone, hFirst⟩ := h.membership_none (Option.not_isSome_iff_eq_none.mp hMember)
  have hLength : acc.2.length = joined.length := by rw [h.made, List.length_mapIdx]
  rw [autoJoin, if_neg hOpen]
  refine ⟨?_, ?_, h.transfers, ?_, ?_, ?_⟩
  · rw [List.mapIdx_append, ← h.made, hLength]
    simp
  · simp only [Db.join, h.memberships, List.append_assoc]
  · simp only [Db.join, h.invitations, List.map_map]
    refine List.map_congr_left fun j _ => ?_
    simp only [Function.comp]
    have hAll : j.id ∈ (joined ++ [i]).map (fun i => i.id) ↔
        j.id ∈ joined.map (fun i => i.id) ∨ j.id = i.id := by simp
    by_cases hJoined : j.id ∈ joined.map fun i => i.id
    · rw [if_pos hJoined, if_pos (hAll.mpr (.inl hJoined))]
      split <;> rfl
    · rw [if_neg hJoined]
      by_cases hSame : j.id = i.id
      · rw [if_pos hSame, if_pos (hAll.mpr (.inr hSame))]
      · rw [if_neg hSame, if_neg fun hIn => (hAll.mp hIn).elim hJoined hSame]
  · rw [List.map_append, List.nodup_append]
    refine ⟨h.tenants, by simp, fun x hx y hy hSame => hFirst ?_⟩
    obtain rfl : y = i.tenantId := by simpa using hy
    exact hSame ▸ hx
  · intro j hj
    rcases List.mem_append.mp hj with hj | hj
    · exact h.live j hj
    · obtain rfl := List.mem_singleton.mp hj
      exact ⟨by omega, hNone⟩

/-- A round redeems its invitation, or does nothing. -/
theorem round (h : AutoJoined c user db joined acc) (i : Invitation) :
    AutoJoined c user db joined (autoJoin c user acc i) ∨
      AutoJoined c user db (joined ++ [i]) (autoJoin c user acc i) := by
  by_cases hOpen : i.expiresAt ≤ c.now ∨ (acc.1.membership user.id i.tenantId).isSome
  · refine .inl ?_
    rwa [autoJoin, if_pos hOpen]
  · exact .inr (h.redeem hOpen)

theorem rounds (h : AutoJoined c user db joined acc) (pending : List Invitation) :
    ∃ more, more.Sublist pending ∧
      AutoJoined c user db (joined ++ more) (pending.foldl (autoJoin c user) acc) := by
  induction pending generalizing joined acc with
  | nil => exact ⟨[], List.Sublist.refl _, by simpa using h⟩
  | cons i pending ih =>
    rcases h.round i with h | h
    · obtain ⟨more, hSub, hMore⟩ := ih h
      exact ⟨more, hSub.cons i, hMore⟩
    · obtain ⟨more, hSub, hMore⟩ := ih h
      refine ⟨i :: more, hSub.cons_cons i, ?_⟩
      rwa [List.append_assoc, List.singleton_append] at hMore

end AutoJoined

/-- The loop over the pending invitations of the address. -/
theorem autoJoinAll_joined (c : Ctx) (user : User) (db : Db) :
    ∃ joined, joined.Sublist (db.invitations.filter fun i =>
        i.email = user.email ∧ i.acceptedAt = none) ∧
      AutoJoined c user db joined (autoJoinAll c user db) := by
  obtain ⟨joined, hSub, hJoined⟩ := AutoJoined.start.rounds
    (db.invitations.filter fun i => i.email = user.email ∧ i.acceptedAt = none)
  exact ⟨joined, hSub, hJoined⟩

end WxcodeAdm
