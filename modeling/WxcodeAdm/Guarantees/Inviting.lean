import WxcodeAdm.Guarantees.MemberCap

/-! Inviting somebody.  `invite_user` looks for a pending invitation to the tenant that has not
expired; the unique constraint is on the address and the tenant, whatever became of the invitation.
An address that was invited once, and accepted or let the invitation expire, cannot be invited
again. -/

namespace WxcodeAdm

open Lib

/-- Nothing that the code looks at forbids the invitation. -/
structure MayInvite (c : Ctx) (db : Db) (tenant : Tenant) (actor : TenantMembership)
    (email : String) : Prop where
  role : MemberRole.admin.level ≤ actor.role.level
  room : ∀ cap ∈ db.memberCap tenant.id, cap ≤ 0 ∨ (db.memberCount tenant.id : Int) < cap
  newcomer : ((db.userByEmail email).any fun u => (db.membership u.id tenant.id).isSome) = false
  uninvited : (db.invitations.any fun i => i.email = email ∧ i.tenantId = tenant.id ∧
    i.acceptedAt = none ∧ c.now < i.expiresAt) = false

/-- The errors that `create_invitation` declares. -/
inductive DeclaredInviteError : PyError → Prop
  | insufficientRole {message} : DeclaredInviteError (.insufficientRole message)
  | memberLimit {message} : DeclaredInviteError (.app "MEMBER_LIMIT_REACHED" message 402)
  | alreadyMember : DeclaredInviteError .alreadyMember
  | invitationAlreadyExists : DeclaredInviteError .invitationAlreadyExists

/-- The request succeeds when nothing forbids it, and fails as declared otherwise. -/
def InvitesAsDeclared (c : Ctx) (db : Db) (tenant : Tenant) (actor : TenantMembership)
    (email : String) (outcome : Except PyError Response) : Prop :=
  MayInvite c db tenant actor email ∧ (∃ i, outcome = .ok (.invitation i)) ∨
    ¬MayInvite c db tenant actor email ∧ ∃ error, outcome = .error error ∧ DeclaredInviteError error

section Requests

variable {c : Ctx} {w m : World} {token : Bearer} {header : Option String} {tenant : Tenant}
  {actor : TenantMembership} {body : InviteRequest}

/-- The guard with a role lets in who has it, -/
theorem requireRole_of_context {role : MemberRole}
    (hGuard : (getTenantContext c token header).run w = .ok (tenant, actor) m)
    (hLevel : role.level ≤ actor.role.level) :
    (requireRole c role token header).run w = .ok (tenant, actor) m := by
  rw [requireRole, Handler.run_bind_ok]
  exact ⟨_, m, hGuard, Handler.run_ensure_bind_ok.mpr ⟨hLevel, rfl⟩⟩

/-- and turns away who has not. -/
theorem requireRole_denied {role : MemberRole}
    (hGuard : (getTenantContext c token header).run w = .ok (tenant, actor) m)
    (hLevel : ¬role.level ≤ actor.role.level) :
    (requireRole c role token header).run w =
      .error (.insufficientRole ("Requires " ++ role.value ++ " role or above")) m := by
  rw [requireRole, Handler.run_bind, hGuard]
  dsimp only
  rw [Handler.run_bind, Handler.run_ensure, if_neg hLevel]

/-- The cap of the plan, where the tenant has one. -/
theorem run_enforceMemberCap (tenantId : Uuid) (hValid : w.db.Valid) :
    ((∀ cap ∈ w.db.memberCap tenantId, cap ≤ 0 ∨ (w.db.memberCount tenantId : Int) < cap) →
      (enforceMemberCap tenantId).run w = .ok () w) ∧
    ((¬∀ cap ∈ w.db.memberCap tenantId, cap ≤ 0 ∨ (w.db.memberCount tenantId : Int) < cap) →
      ∃ message, (enforceMemberCap tenantId).run w =
        .error (.app "MEMBER_LIMIT_REACHED" message 402) w) := by
  rw [enforceMemberCap, Handler.run_query_bind, Db.memberCap]
  cases hFound : w.db.subscriptionOf tenantId with
  | none => exact ⟨fun _ => rfl, fun h => absurd (by simp) h⟩
  | some subscription =>
    obtain ⟨plan, hPlan⟩ : ∃ plan, w.db.plan subscription.planId = some plan := by
      obtain ⟨plan, hMem, hId⟩ :=
        hValid.subscriptionPlan subscription (List.mem_of_find?_eq_some hFound)
      exact Option.isSome_iff_exists.mp (List.find?_isSome.mpr ⟨plan, hMem, by simpa using hId⟩)
    simp only [Handler.run_query_bind, hPlan, Handler.orRaise_some_bind, Handler.run_ensure,
      Option.bind_some, Option.map_some, Option.mem_some_iff, forall_eq', Db.memberCount]
    constructor
    · intro hRoom
      rw [if_pos hRoom]
    · intro hFull
      exact ⟨_, by rw [if_neg hFull]⟩

/-- An invitation may be added when the address has none to the tenant. -/
theorem Db.Valid.addInvitation_iff {db : Db} (h : db.Valid) {i : Invitation}
    (hId : ∀ j ∈ db.invitations, j.id ≠ i.id) (hTenant : db.HasTenant i.tenantId)
    (hInviter : db.HasUser i.invitedById) :
    ({ db with invitations := db.invitations ++ [i] } : Db).Valid ↔
      ∀ j ∈ db.invitations, (j.email, j.tenantId) ≠ (i.email, i.tenantId) := by
  constructor
  · intro hNew
    exact (Db.nodup_map_concat.mp hNew.invitationEmailTenant).2
  · intro hPair
    exact { h with
      invitationId := Db.nodup_map_concat.mpr ⟨h.invitationId, hId⟩
      invitationEmailTenant := Db.nodup_map_concat.mpr ⟨h.invitationEmailTenant, hPair⟩
      invitationTenant := fun j hj => by
        rcases List.mem_append.mp hj with hj | hj
        · exact h.invitationTenant j hj
        · exact List.mem_singleton.mp hj ▸ hTenant
      invitationInvitedBy := fun j hj => by
        rcases List.mem_append.mp hj with hj | hj
        · exact h.invitationInvitedBy j hj
        · exact List.mem_singleton.mp hj ▸ hInviter }

/-- What an invitation that passes its checks comes to. -/
theorem run_inviteUser (body : InviteRequest) (hMay : MayInvite c w.db tenant actor body.email) :
    let db : Db :=
      { w.db with invitations := w.db.invitations ++ [invitationFor c tenant actor body] }
    (db.Valid → ∃ m, (inviteUser c tenant actor body).run w =
      .ok (invitationFor c tenant actor body) ⟨db, m⟩) ∧
    (¬db.Valid → (inviteUser c tenant actor body).run w = .error .integrityError ⟨db, w.cache⟩) := by
  intro db
  have hRun : (inviteUser c tenant actor body).run w = (flush >>= fun _ =>
      enqueueJob (.sendInvitationEmail body.email tenant.name
        (TimedToken.dumps c invitationSalt { email := body.email, tenantId := tenant.id })
        body.role.role) >>= fun _ => pure (invitationFor c tenant actor body)).run ⟨db, w.cache⟩ := by
    rw [inviteUser, Handler.ensure_bind_of hMay.role, Handler.run_query_bind,
      Handler.ensure_bind_of hMay.newcomer, Handler.run_query_bind,
      Handler.ensure_bind_of hMay.uninvited]
    rfl
  rw [hRun, run_flush_bind]
  constructor
  · intro hValid
    rw [if_pos hValid]
    exact ⟨_, rfl⟩
  · intro hValid
    rw [if_neg hValid]

/-- An invitation that does not pass its checks is refused as declared. -/
theorem run_inviteUser_refused (hRole : MemberRole.admin.level ≤ actor.role.level)
    (hRoom : ∀ cap ∈ w.db.memberCap tenant.id,
      cap ≤ 0 ∨ (w.db.memberCount tenant.id : Int) < cap)
    (hMay : ¬MayInvite c w.db tenant actor body.email) :
    ∃ error, (inviteUser c tenant actor body).run w = .error error w ∧
      DeclaredInviteError error := by
  rw [inviteUser, Handler.ensure_bind_of hRole, Handler.run_query_bind]
  by_cases hNew : ((w.db.userByEmail body.email).any fun u =>
      (w.db.membership u.id tenant.id).isSome) = false
  · rw [Handler.ensure_bind_of hNew, Handler.run_query_bind, Handler.run_ensure_bind_of_not]
    · exact ⟨_, rfl, .invitationAlreadyExists⟩
    · exact fun hUninvited => hMay ⟨hRole, hRoom, hNew, hUninvited⟩
  · rw [Handler.run_ensure_bind_of_not hNew]
    exact ⟨_, rfl, .alreadyMember⟩

theorem createInvitation_refused (hValid : w.db.Valid)
    (hGuard : (getTenantContext c token header).run w = .ok (tenant, actor) m)
    (hMay : ¬MayInvite c w.db tenant actor body.email) :
    ∃ error m', (handle c (.createInvitation token header body)).run w = .error error m' ∧
      DeclaredInviteError error := by
  have hDb := (getTenantContext_ok hGuard).1
  rw [← hDb] at hMay
  rw [handle, Router.createInvitation, Handler.run_bind]
  by_cases hRole : MemberRole.admin.level ≤ actor.role.level
  · rw [requireRole_of_context hGuard hRole]
    dsimp only
    obtain ⟨hOpen, hFull⟩ := run_enforceMemberCap tenant.id (hDb ▸ hValid)
    rw [Handler.run_bind]
    by_cases hRoom : ∀ cap ∈ m.db.memberCap tenant.id,
        cap ≤ 0 ∨ (m.db.memberCount tenant.id : Int) < cap
    · obtain ⟨error, hRun, hDeclared⟩ := run_inviteUser_refused hRole hRoom hMay
      refine ⟨error, m, ?_, hDeclared⟩
      rw [hOpen hRoom]
      dsimp only
      rw [Handler.run_bind, hRun]
    · obtain ⟨message, hRun⟩ := hFull hRoom
      rw [hRun]
      exact ⟨_, m, rfl, .memberLimit⟩
  · rw [requireRole_denied hGuard hRole]
    exact ⟨_, m, rfl, .insufficientRole⟩

/-- In a valid database a request to invite goes as declared exactly when the address has no
invitation to the tenant, of whatever age, in the case that nothing forbids the request. -/
theorem invites_iff (hValid : w.db.Valid)
    (hGuard : (getTenantContext c token header).run w = .ok (tenant, actor) m)
    (hDraw : ∀ i ∈ w.db.invitations, i.id ≠ c.draws.invitationId) :
    InvitesAsDeclared c w.db tenant actor body.email
        (serve c (.createInvitation token header body) w).1 ↔
      (MayInvite c w.db tenant actor body.email →
        ∀ i ∈ w.db.invitations, ¬(i.email = body.email ∧ i.tenantId = tenant.id)) := by
  obtain ⟨hDb, hTenant, hRow, -⟩ := getTenantContext_ok hGuard
  obtain ⟨db, cache⟩ := m
  obtain rfl : db = w.db := hDb
  by_cases hMay : MayInvite c w.db tenant actor body.email
  · have hRun : (handle c (.createInvitation token header body)).run w =
        (inviteUser c tenant actor body >>= fun i => (pure (.invitation i) : App Response)).run
          ⟨w.db, cache⟩ := by
      rw [handle, Router.createInvitation, Handler.run_bind,
        requireRole_of_context hGuard hMay.role]
      dsimp only
      rw [Handler.run_bind, (run_enforceMemberCap (w := ⟨w.db, cache⟩) tenant.id hValid).1 hMay.room]
    have hInviter : w.db.HasUser actor.userId :=
      hValid.membershipUser actor (Db.membership_mem hRow).1
    have hConstraints := hValid.addInvitation_iff (i := invitationFor c tenant actor body) hDraw
      ⟨tenant, hTenant, rfl⟩ hInviter
    have hPairs : (∀ j ∈ w.db.invitations, (j.email, j.tenantId) ≠ (body.email, tenant.id)) ↔
        ∀ i ∈ w.db.invitations, ¬(i.email = body.email ∧ i.tenantId = tenant.id) := by simp
    simp only [InvitesAsDeclared, hMay, true_and, not_true, false_and, or_false, forall_const]
    obtain ⟨hInvites, hConflicts⟩ := run_inviteUser (w := ⟨w.db, cache⟩) body hMay
    rw [← hPairs]
    constructor
    · intro hOk
      by_contra hTaken
      rw [Handler.run_bind, hConflicts fun h => hTaken (hConstraints.mp h)] at hRun
      rw [serve_of_error hRun] at hOk
      obtain ⟨i, hi⟩ := hOk
      cases hi
    · intro hFree
      obtain ⟨m, hInvite⟩ := hInvites (hConstraints.mpr hFree)
      rw [Handler.run_bind, hInvite] at hRun
      rw [serve_of_run hRun (hConstraints.mpr hFree)]
      exact ⟨_, rfl⟩
  · simp only [InvitesAsDeclared, hMay, false_and, not_false_iff, true_and, false_or,
      false_implies, iff_true]
    obtain ⟨error, m', hRun, hDeclared⟩ := createInvitation_refused hValid hGuard hMay
    rw [serve_of_error hRun]
    exact ⟨error, rfl, hDeclared⟩

end Requests

/-- In every reachable state a request to invite, by a member of the tenant, goes as declared exactly
when, in the case that nothing forbids it, the address has no invitation to the tenant at all. -/
theorem inviting_works {cfg : Config} {s : Sys} {now : Nat} {draws : Draws} {token : Bearer}
    {header : Option String} {body : InviteRequest} {tenant : Tenant} {actor : TenantMembership}
    {m : World} (hReach : Reachable cfg s)
    (hGuard : (getTenantContext ⟨cfg, now, draws⟩ token header).run s.world = .ok (tenant, actor) m)
    (hDraw : ∀ i ∈ s.world.db.invitations, i.id ≠ draws.invitationId) :
    InvitesAsDeclared ⟨cfg, now, draws⟩ s.world.db tenant actor body.email
        (serve ⟨cfg, now, draws⟩ (.createInvitation token header body) s.world).1 ↔
      (MayInvite ⟨cfg, now, draws⟩ s.world.db tenant actor body.email →
        ∀ i ∈ s.world.db.invitations, ¬(i.email = body.email ∧ i.tenantId = tenant.id)) :=
  invites_iff hReach.sound.valid hGuard hDraw

/-! ### An invitation that has expired -/

/-- The invitation to Bob has expired, and Alice signs in again. -/
def aliceAgain : Event × Sys :=
  bobInvited.2.sample (seconds 20 + days 8) (.login "alice@example.com" "pw" none none none)

theorem aliceAgain_reachable : Reachable sampleConfig aliceAgain.2 :=
  have hSignedIn : Reachable sampleConfig capSignedIn.2 :=
    (capStart_initial.reachable.sample (by decide) (by trivial)).2
  have hInvited : Reachable sampleConfig bobInvited.2 :=
    (hSignedIn.sample (by decide) (by trivial)).2
  (hInvited.sample (by decide) (by trivial)).2

def aliceTokenAgain : Payload := { aliceToken with iat := 691220, exp := 777620, jti := ⟨2⟩ }

def aliceMembership : TenantMembership := ⟨⟨10⟩, ⟨1⟩, ⟨5⟩, .owner, true, false, none, 0⟩

def againContext : Ctx := ⟨sampleConfig, seconds 30 + days 8, sampleDraws 3⟩

def bobInvite : InviteRequest := ⟨"bob@example.com", ⟨.viewer, MemberRole.viewer_ne_owner⟩, false⟩

def carolInvite : InviteRequest := ⟨"carol@example.com", ⟨.viewer, MemberRole.viewer_ne_owner⟩, false⟩

def invitesAgain (body : InviteRequest) : Request :=
  .createInvitation (.signed aliceTokenAgain) (some "acme") body

theorem aliceAgain_guard : ∃ m, (getTenantContext againContext (.signed aliceTokenAgain)
    (some "acme")).run aliceAgain.2.world = .ok (acme, aliceMembership) m := ⟨_, rfl⟩

theorem aliceAgain_may : MayInvite againContext aliceAgain.2.world.db acme aliceMembership
    "bob@example.com" := ⟨by decide, by decide, by decide, by decide⟩

/-- Nothing forbids another invitation to Bob, and the constraint does. -/
theorem inviting_blocked :
    ¬∀ (cfg : Config) (s : Sys) (now : Nat) (draws : Draws) (token : Bearer)
        (header : Option String) (body : InviteRequest) (tenant : Tenant)
        (actor : TenantMembership) (m : World), Reachable cfg s →
        (getTenantContext ⟨cfg, now, draws⟩ token header).run s.world = .ok (tenant, actor) m →
        (∀ i ∈ s.world.db.invitations, i.id ≠ draws.invitationId) →
        InvitesAsDeclared ⟨cfg, now, draws⟩ s.world.db tenant actor body.email
          (serve ⟨cfg, now, draws⟩ (.createInvitation token header body) s.world).1 := by
  intro hClaim
  obtain ⟨m, hGuard⟩ := aliceAgain_guard
  have hDeclared := hClaim sampleConfig aliceAgain.2 (seconds 30 + days 8) (sampleDraws 3)
    (.signed aliceTokenAgain) (some "acme") bobInvite acme aliceMembership m aliceAgain_reachable
    hGuard (by decide)
  have hOutcome : (serve againContext (invitesAgain bobInvite) aliceAgain.2.world).1 =
      .error .integrityError := rfl
  rcases hDeclared with ⟨-, i, hi⟩ | ⟨hNot, -⟩
  · have hConflict : (.error .integrityError : Except PyError Response) = .ok (.invitation i) :=
      hOutcome.symm.trans hi
    cases hConflict
  · exact hNot aliceAgain_may

/-- The law at an invitation of Carol, who was never invited. -/
theorem inviting_works_carol :
    InvitesAsDeclared againContext aliceAgain.2.world.db acme aliceMembership carolInvite.email
      (serve againContext (invitesAgain carolInvite) aliceAgain.2.world).1 := by
  obtain ⟨m, hGuard⟩ := aliceAgain_guard
  have hLaw := @inviting_works sampleConfig aliceAgain.2 (seconds 30 + days 8) (sampleDraws 3)
    (.signed aliceTokenAgain) (some "acme") carolInvite acme aliceMembership m
    aliceAgain_reachable hGuard (by decide)
  exact hLaw.mpr fun _ => by decide

end WxcodeAdm
