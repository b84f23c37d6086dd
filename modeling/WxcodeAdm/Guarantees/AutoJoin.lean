import WxcodeAdm.System
import WxcodeAdm.Tenants.Joining

/-! Who `auto_join_pending_invitations` makes a member of what: the invitations that are due when
the loop starts are redeemed, each once, and nothing else changes.  That the loop sees the
memberships it has made itself does not matter, as two invitations of one address are to different
tenants. -/

namespace WxcodeAdm

open Lib

variable {c : Ctx} {user : User} {db : Db}

/-- An invitation that joins the user to its tenant: to the user's address, not accepted, not
expired, and to a tenant that the user is not in. -/
def Invitation.Due (now : Nat) (db : Db) (user : User) (i : Invitation) : Prop :=
  i.email = user.email ∧ i.acceptedAt = none ∧ now < i.expiresAt ∧
    db.membership user.id i.tenantId = none

instance (now : Nat) (user : User) (i : Invitation) : Decidable (i.Due now db user) :=
  inferInstanceAs (Decidable (_ ∧ _ ∧ _ ∧ _))

def Db.dueInvitations (db : Db) (now : Nat) (user : User) : List Invitation :=
  db.invitations.filter fun i => i.Due now db user

/-- The database with the user joined to the tenants of the invitations that are due. -/
def Db.joinedDue (db : Db) (c : Ctx) (user : User) : Db :=
  { db with
    memberships := db.memberships ++
      (db.dueInvitations c.now user).mapIdx fun index i => invitedMembership c index user i
    invitations := db.invitations.map fun i =>
      if i.Due c.now db user then { i with acceptedAt := some c.now } else i }

/-! ### The loop -/

/-- A round skips what has expired and the tenants that the user is in. -/
theorem AutoJoined.skip {joined : List Invitation} {acc : Db × List TenantMembership}
    (h : AutoJoined c user db joined acc) {i : Invitation}
    (hNot : ¬(c.now < i.expiresAt ∧ db.membership user.id i.tenantId = none)) :
    autoJoin c user acc i = acc := by
  rw [autoJoin, if_pos]
  by_cases hLive : c.now < i.expiresAt
  · refine .inr ?_
    rw [Db.membership, h.memberships, List.find?_append, Option.isSome_or, Bool.or_eq_true]
    exact .inl (Option.isSome_iff_ne_none.mpr fun hNone => hNot ⟨hLive, hNone⟩)
  · exact .inl (by omega)

/-- What is open is open in its round too, as no round before was about its tenant. -/
theorem AutoJoined.open_of {joined : List Invitation} {acc : Db × List TenantMembership}
    (h : AutoJoined c user db joined acc) {i : Invitation} (hLive : c.now < i.expiresAt)
    (hNone : db.membership user.id i.tenantId = none)
    (hFirst : i.tenantId ∉ joined.map fun j => j.tenantId) :
    ¬(i.expiresAt ≤ c.now ∨ (acc.1.membership user.id i.tenantId).isSome) := by
  rintro (hExpired | hMember)
  · omega
  · rw [Db.membership, h.memberships, List.find?_append, Option.isSome_or, Bool.or_eq_true] at hMember
    rcases hMember with hOld | hMade
    · rw [show List.find? _ _ = none from hNone] at hOld
      exact absurd hOld (by simp)
    · obtain ⟨m, hm, hKey⟩ := List.find?_isSome.mp hMade
      have hTenant : m.tenantId ∈ acc.2.map fun m => m.tenantId := List.mem_map_of_mem hm
      rw [h.made_map (g := fun i => i.tenantId) fun _ _ => rfl] at hTenant
      simp only [decide_eq_true_eq] at hKey
      exact hFirst (hKey.2 ▸ hTenant)

/-- Over invitations to different tenants, the loop redeems exactly those that are open. -/
theorem AutoJoined.rounds_exact {joined : List Invitation} {acc : Db × List TenantMembership}
    (h : AutoJoined c user db joined acc) (pending : List Invitation)
    (hTenants : ((joined ++ pending).map fun i => i.tenantId).Nodup) :
    AutoJoined c user db (joined ++ pending.filter fun i =>
        c.now < i.expiresAt ∧ db.membership user.id i.tenantId = none)
      (pending.foldl (autoJoin c user) acc) := by
  induction pending generalizing joined acc with
  | nil => simpa using h
  | cons i pending ih =>
    rw [List.foldl_cons]
    by_cases hOpen : c.now < i.expiresAt ∧ db.membership user.id i.tenantId = none
    · have hFirst : i.tenantId ∉ joined.map fun j => j.tenantId := by
        rw [List.map_append, List.nodup_append] at hTenants
        intro hIn
        exact hTenants.2.2 _ hIn i.tenantId (by simp) rfl
      rw [List.filter_cons_of_pos (by simpa using hOpen), List.append_cons]
      exact ih (h.redeem (h.open_of hOpen.1 hOpen.2 hFirst)) (by simpa using hTenants)
    · rw [List.filter_cons_of_neg (by simpa using hOpen), h.skip hOpen]
      refine ih h (hTenants.sublist ?_)
      exact (List.Sublist.append (List.Sublist.refl _) (List.sublist_cons_self _ _)).map _

/-- The loop writes memberships and invitations only. -/
theorem autoJoinAll_rest (user : User) (db : Db) :
    (autoJoinAll c user db).1 = { db with
      memberships := (autoJoinAll c user db).1.memberships
      invitations := (autoJoinAll c user db).1.invitations } := by
  unfold autoJoinAll
  refine List.foldlRecOn _ (autoJoin c user) (motive := fun acc : Db × List TenantMembership =>
    acc.1 = { db with memberships := acc.1.memberships, invitations := acc.1.invitations })
    rfl fun acc h i _ => ?_
  unfold autoJoin
  split
  · exact h
  · dsimp only [Db.join]
    rw [h]

/-- One address has one invitation to a tenant. -/
theorem Db.UniqueKeys.pendingTenants (h : db.UniqueKeys) (email : String) :
    ((db.invitations.filter fun i => i.email = email ∧ i.acceptedAt = none).map
      fun i => i.tenantId).Nodup := by
  have hPairs := h.invitationEmailTenant.sublist
    ((db.invitations.filter_sublist (p := fun i => i.email = email ∧ i.acceptedAt = none)).map _)
  refine List.Nodup.of_map (fun tenantId => (email, tenantId)) ?_
  rw [List.map_map]
  refine (List.map_congr_left fun i hi => ?_) ▸ hPairs
  have hKeep := (List.mem_filter.mp hi).2
  simp only [decide_eq_true_eq] at hKeep
  simp [hKeep.1]

/-- The loop over a database with unique keys joins the user as due. -/
theorem autoJoinAll_exact (hUnique : db.UniqueKeys) (user : User) :
    autoJoinAll c user db = (db.joinedDue c user,
      (db.dueInvitations c.now user).mapIdx fun index i => invitedMembership c index user i) := by
  have hStart : AutoJoined c user db [] (db, []) := .start
  have hLoop := hStart.rounds_exact
    (db.invitations.filter fun i => i.email = user.email ∧ i.acceptedAt = none)
    (by simpa using hUnique.pendingTenants user.email)
  have hDue : (db.invitations.filter fun i => i.email = user.email ∧ i.acceptedAt = none).filter
      (fun i => c.now < i.expiresAt ∧ db.membership user.id i.tenantId = none) =
      db.dueInvitations c.now user := by
    rw [List.filter_filter]
    refine List.filter_congr fun i _ => ?_
    rw [← Bool.decide_and, decide_eq_decide]
    simp only [Invitation.Due]
    tauto
  rw [List.nil_append, hDue] at hLoop
  change AutoJoined c user db _ (autoJoinAll c user db) at hLoop
  have hAccepted : (autoJoinAll c user db).1.invitations = (db.joinedDue c user).invitations := by
    rw [hLoop.invitations]
    refine List.map_congr_left fun i hi => ?_
    have hIff : i.id ∈ (db.dueInvitations c.now user).map (fun j => j.id) ↔
        i.Due c.now db user := by
      constructor
      · intro hIn
        obtain ⟨j, hj, hId⟩ := List.mem_map.mp hIn
        obtain ⟨hMem, hDueJ⟩ := List.mem_filter.mp hj
        obtain rfl : j = i := List.inj_on_of_nodup_map hUnique.invitationId hMem hi hId
        simpa using hDueJ
      · intro hDueI
        exact List.mem_map_of_mem (List.mem_filter.mpr ⟨hi, by simpa using hDueI⟩)
    by_cases hDueI : i.Due c.now db user
    · rw [if_pos (hIff.mpr hDueI), if_pos hDueI]
    · rw [if_neg fun hIn => hDueI (hIff.mp hIn), if_neg hDueI]
  refine Prod.ext ?_ hLoop.made
  rw [autoJoinAll_rest user db, hAccepted, hLoop.memberships, hLoop.made]
  rfl

/-! ### The flush -/

theorem mem_dueInvitations {now : Nat} {i : Invitation} :
    i ∈ db.dueInvitations now user ↔ i ∈ db.invitations ∧ i.Due now db user := by
  simp [Db.dueInvitations]

/-- The memberships are the previous ones and those made of the invitations that are due. -/
theorem mem_joinedDue_memberships {m : TenantMembership}
    (hm : m ∈ (db.joinedDue c user).memberships) : m ∈ db.memberships ∨
      ∃ index, ∃ i ∈ db.dueInvitations c.now user, m = invitedMembership c index user i := by
  rcases List.mem_append.mp hm with hm | hm
  · exact .inl hm
  · obtain ⟨index, hIndex, rfl⟩ := List.mem_mapIdx.mp hm
    exact .inr ⟨index, _, List.getElem_mem hIndex, rfl⟩

/-- Only the acceptance of an invitation changes. -/
theorem joinedDue_invitations_map {β : Type} (f : Invitation → β)
    (hf : ∀ i, f { i with acceptedAt := some c.now } = f i) :
    (db.joinedDue c user).invitations.map f = db.invitations.map f := by
  simp only [Db.joinedDue, List.map_map]
  refine List.map_congr_left fun i _ => ?_
  simp only [Function.comp]
  split
  · exact hf i
  · rfl

theorem mem_joinedDue_invitations {j : Invitation} (hj : j ∈ (db.joinedDue c user).invitations) :
    ∃ i ∈ db.invitations, i.tenantId = j.tenantId ∧ i.invitedById = j.invitedById := by
  have hMem := List.mem_map_of_mem (f := fun i => (i.tenantId, i.invitedById)) hj
  rw [joinedDue_invitations_map (fun i => (i.tenantId, i.invitedById)) fun _ => rfl] at hMem
  obtain ⟨i, hi, hSame⟩ := List.mem_map.mp hMem
  exact ⟨i, hi, Prod.mk.inj hSame⟩

theorem Db.UniqueKeys.joinedDue_ids (h : db.UniqueKeys)
    (hDrawn : Function.Injective c.draws.membershipIds)
    (hFresh : ∀ m ∈ db.memberships, ∀ index, m.id ≠ c.draws.membershipIds index) :
    ((db.joinedDue c user).memberships.map fun m => m.id).Nodup := by
  have hIds : ((db.dueInvitations c.now user).mapIdx fun index i =>
      invitedMembership c index user i).map (fun m => m.id) =
      (List.range (db.dueInvitations c.now user).length).map c.draws.membershipIds :=
    List.ext_getElem (by simp) fun index _ _ => by simp [invitedMembership]
  simp only [Db.joinedDue, List.map_append, hIds]
  refine List.nodup_append.mpr ⟨h.membershipId, List.nodup_range.map hDrawn, ?_⟩
  intro a ha b hb
  obtain ⟨m, hm, rfl⟩ := List.mem_map.mp ha
  obtain ⟨index, -, rfl⟩ := List.mem_map.mp hb
  exact hFresh m hm index

/-- The tenants that the user is joined to are different, and the user was in none of them. -/
theorem Db.UniqueKeys.joinedDue_pairs (h : db.UniqueKeys) :
    ((db.joinedDue c user).memberships.map fun m => (m.userId, m.tenantId)).Nodup := by
  have hPairs : ((db.dueInvitations c.now user).mapIdx fun index i =>
      invitedMembership c index user i).map (fun m => (m.userId, m.tenantId)) =
      ((db.dueInvitations c.now user).map fun i => i.tenantId).map fun id => (user.id, id) :=
    List.ext_getElem (by simp) fun index _ _ => by simp [invitedMembership]
  simp only [Db.joinedDue, List.map_append, hPairs]
  refine List.nodup_append.mpr ⟨h.membershipUserTenant, ?_, ?_⟩
  · refine List.Nodup.map (fun _ _ hSame => (Prod.mk.inj hSame).2) ?_
    refine (h.pendingTenants user.email).sublist (List.Sublist.map _ ?_)
    exact List.monotone_filter_right _ fun i hi => by
      simp only [decide_eq_true_eq] at hi ⊢
      exact ⟨hi.1, hi.2.1⟩
  · intro a ha b hb
    obtain ⟨m, hm, rfl⟩ := List.mem_map.mp ha
    obtain ⟨id, hId, rfl⟩ := List.mem_map.mp hb
    obtain ⟨i, hi, rfl⟩ := List.mem_map.mp hId
    intro hSame
    have hNot := List.find?_eq_none.mp (mem_dueInvitations.mp hi).2.2.2.2 m hm
    exact hNot (by simpa using hSame)

/-- The keys and references of the joined database are those of the one before, and those of the
new rows. -/
theorem Db.Valid.joinedDue (h : db.Valid) (hUser : db.HasUser user.id)
    (hDrawn : Function.Injective c.draws.membershipIds)
    (hFresh : ∀ m ∈ db.memberships, ∀ index, m.id ≠ c.draws.membershipIds index) :
    (db.joinedDue c user).Valid := { h with
  membershipId := h.joinedDue_ids hDrawn hFresh
  membershipUserTenant := h.joinedDue_pairs
  invitationId := by
    rw [joinedDue_invitations_map (fun i => i.id) fun _ => rfl]
    exact h.invitationId
  invitationEmailTenant := by
    rw [joinedDue_invitations_map (fun i => (i.email, i.tenantId)) fun _ => rfl]
    exact h.invitationEmailTenant
  membershipUser := fun m hm => by
    obtain hOld | ⟨index, i, hi, rfl⟩ := mem_joinedDue_memberships hm
    · exact h.membershipUser m hOld
    · exact hUser
  membershipTenant := fun m hm => by
    obtain hOld | ⟨index, i, hi, rfl⟩ := mem_joinedDue_memberships hm
    · exact h.membershipTenant m hOld
    · exact h.invitationTenant i (mem_dueInvitations.mp hi).1
  membershipInvitedBy := fun m hm => by
    obtain hOld | ⟨index, i, hi, rfl⟩ := mem_joinedDue_memberships hm
    · exact h.membershipInvitedBy m hOld
    · rintro id ⟨⟩
      exact h.invitationInvitedBy i (mem_dueInvitations.mp hi).1
  invitationTenant := fun j hj => by
    obtain ⟨i, hi, hTenant, -⟩ := mem_joinedDue_invitations hj
    exact hTenant ▸ h.invitationTenant i hi
  invitationInvitedBy := fun j hj => by
    obtain ⟨i, hi, -, hInviter⟩ := mem_joinedDue_invitations hj
    exact hInviter ▸ h.invitationInvitedBy i hi }

theorem dueInvitations_granted (db : Db) (c : Ctx) (user : User) :
    List.Forall₂ (fun i m => i.Grants user m) (db.dueInvitations c.now user)
      ((db.dueInvitations c.now user).mapIdx fun index i => invitedMembership c index user i) := by
  refine List.forall₂_iff_get.mpr ⟨by simp, fun index _ _ => ?_⟩
  simpa using invitedMembership_grants c index user _

/-- Automatic joining is exact: it returns one membership for each invitation that is due, with
its role, its billing access and its inviter, adds these and no others, accepts those invitations
and no others, and leaves everything else as it was. -/
theorem autoJoinPendingInvitations_exact {w : World} (hValid : w.db.Valid)
    (hUser : w.db.HasUser user.id) (hDrawn : Function.Injective c.draws.membershipIds)
    (hFresh : ∀ m ∈ w.db.memberships, ∀ index, m.id ≠ c.draws.membershipIds index) :
    (autoJoinPendingInvitations c user).run w = .ok
        ((w.db.dueInvitations c.now user).mapIdx fun index i => invitedMembership c index user i)
        { w with db := w.db.joinedDue c user } ∧
      List.Forall₂ (fun i m => i.Grants user m) (w.db.dueInvitations c.now user)
        ((w.db.dueInvitations c.now user).mapIdx
          fun index i => invitedMembership c index user i) := by
  refine ⟨?_, dueInvitations_granted w.db c user⟩
  rw [autoJoinPendingInvitations, Handler.run_query_bind, Handler.run_exec_bind, run_flush_bind,
    autoJoinAll_exact hValid.toUniqueKeys, if_pos (hValid.joinedDue hUser hDrawn hFresh)]
  rfl

def expectedInvitation : Invitation :=
  { id := ⟨1⟩, email := "alice@example.com", tenantId := ⟨2⟩, role := .developer,
    billingAccess := true, tokenHash := "#1", invitedById := ⟨2⟩, expiresAt := seconds 100 }

/-- Four invitations: one that is due, one that has expired, one to a tenant that the user is in
and one to someone else. -/
def expectingDb : Db where
  users := [sampleUser, { id := ⟨2⟩, email := "bob@example.com", passwordHash := none }]
  tenants := [⟨⟨1⟩, "Home", "home", false, none, false, false⟩,
    ⟨⟨2⟩, "Acme", "acme", false, none, false, false⟩,
    ⟨⟨3⟩, "Late", "late", false, none, false, false⟩]
  memberships := [{ id := ⟨1⟩, userId := ⟨1⟩, tenantId := ⟨1⟩, role := .viewer, createdAt := 0 }]
  invitations := [expectedInvitation,
    { expectedInvitation with id := ⟨2⟩, tenantId := ⟨3⟩, expiresAt := seconds 10 },
    { expectedInvitation with id := ⟨3⟩, tenantId := ⟨1⟩ },
    { expectedInvitation with id := ⟨4⟩, email := "bob@example.com" }]

def expectingCtx : Ctx := ⟨sampleConfig, seconds 10, sampleDraws 1⟩

theorem autoJoin_one_of_four :
    (autoJoinPendingInvitations expectingCtx sampleUser).run ⟨expectingDb, {}⟩ = .ok
        ((expectingDb.dueInvitations (seconds 10) sampleUser).mapIdx
          fun index i => invitedMembership expectingCtx index sampleUser i)
        ⟨expectingDb.joinedDue expectingCtx sampleUser, {}⟩ ∧
      expectingDb.dueInvitations (seconds 10) sampleUser = [expectedInvitation] :=
  ⟨(autoJoinPendingInvitations_exact (by decide) (by decide)
    (fun a b hSame => by simpa [expectingCtx, sampleDraws] using hSame)
    (fun m hm index => by
      obtain rfl := List.mem_singleton.mp hm
      simp only [expectingCtx, sampleDraws, ne_eq, Uuid.mk.injEq]
      omega)).1, by decide⟩

end WxcodeAdm
