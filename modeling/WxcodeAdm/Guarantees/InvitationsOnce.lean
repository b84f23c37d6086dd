import WxcodeAdm.Grants

/-! The two ways of redeeming an invitation, by its token and at the verification of its address,
make the same of a row, and whichever comes first is the only one. -/

namespace WxcodeAdm

open Lib

/-- The request marks the pending invitation as accepted, and adds the membership to its tenant. -/
structure Produces (db db' : Db) (i : Invitation) (m : TenantMembership) : Prop where
  mem : i ∈ db.invitations
  pending : i.acceptedAt = none
  accepted : ∃ j ∈ db'.invitations, j.id = i.id ∧ j.acceptedAt ≠ none
  added : m ∈ db'.memberships
  new : ∀ m₀ ∈ db.memberships, m₀.id ≠ m.id
  inTenant : m.tenantId = i.tenantId

/-- The membership is what the invitation says, in time, and for its address. -/
structure Faithful (db : Db) (now : Nat) (i : Invitation) (m : TenantMembership) : Prop where
  role : m.role = i.role
  notOwner : m.role ≠ .owner
  billingAccess : m.billingAccess = i.billingAccess
  inviter : m.invitedById = some i.invitedById
  inTime : now ≤ i.expiresAt
  address : ∃ user, db.user m.userId = some user ∧ user.email = i.email

/-- The membership comes of the invitation by one of the two ways. -/
inductive Redemption (c : Ctx) (w : World) (i : Invitation) : Request → TenantMembership → Prop
  | accepts {bearer token user} (guard : ∃ m, (requireVerified c bearer).run w = .ok user m)
      (checked : w.db.Redeems c user token i) :
      Redemption c w i (.acceptInvitation bearer token) (invitedMembership c 0 user i)
  | joins {email code user} {index : Nat} (found : w.db.userByEmail email = some user)
      (address : i.email = user.email) (live : c.now < i.expiresAt) :
      Redemption c w i (.verifyEmail email code) (invitedMembership c index user i)

section Moves

variable {c : Ctx} {w w' : World} {r : Request} {i : Invitation} {m : TenantMembership}

/-- A row that was marked as accepted was one of those that the update is for. -/
theorem marked {db : Db} (hValid : db.Valid) {p : Invitation → Prop} [DecidablePred p] {now : Nat}
    (hi : i ∈ db.invitations) (hPending : i.acceptedAt = none)
    (hAccepted : ∃ j ∈ db.invitations.map (fun i => if p i then { i with acceptedAt := some now }
      else i), j.id = i.id ∧ j.acceptedAt ≠ none) : p i := by
  obtain ⟨j, hj, hId, hDone⟩ := hAccepted
  obtain ⟨k, hk, rfl⟩ := List.mem_map.mp hj
  by_cases hMarked : p k
  · rw [if_pos hMarked] at hId
    rwa [List.inj_on_of_nodup_map hValid.invitationId hi hk hId.symm]
  · rw [if_neg hMarked] at hId hDone
    rw [List.inj_on_of_nodup_map hValid.invitationId hk hi hId] at hDone
    exact absurd hPending hDone

/-- Where no row of the table is marked, none is redeemed. -/
theorem not_produces {db db' : Db} (hValid : db.Valid)
    (hRows : ∀ j ∈ db'.invitations, j ∈ db.invitations ∨ j.acceptedAt = none) :
    ¬Produces db db' i m := by
  intro h
  obtain ⟨j, hj, hId, hDone⟩ := h.accepted
  rcases hRows j hj with hOld | hNew
  · rw [List.inj_on_of_nodup_map hValid.invitationId hOld h.mem hId] at hDone
    exact hDone h.pending
  · exact hDone hNew

theorem Produces.of_team {db db' after : Db} (h : Produces db db' i m)
    (hTeam : db'.team = after.team) : Produces db after i m := by
  have hRows : db'.memberships = after.memberships := congrArg (fun t => t.1) hTeam
  have hInvitations : db'.invitations = after.invitations := congrArg (fun t => t.2.2) hTeam
  exact { h with accepted := hInvitations ▸ h.accepted, added := hRows ▸ h.added }

theorem Move.redemption (hValid : w.db.Valid) (hMove : Move c w w' r)
    (h : Produces w.db w'.db i m) : Redemption c w i r m := by
  have hSame {db : Db} (hTeam : w'.db.team = db.team) (hRows : db.invitations = w.db.invitations) :
      False := not_produces hValid (fun j hj => .inl (hRows ▸ hj)) (h.of_team hTeam)
  cases hMove with
  | idle after => exact (hSame after rfl).elim
  | founds _ _ _ _ _ _ after => exact (hSame after rfl).elim
  | changesRole _ _ _ _ after =>
    refine (hSame after ?_).elim
    unfold Db.saveMembership
    split <;> rfl
  | removes _ _ _ _ after | leaves _ _ after | offers _ _ _ _ _ after | blocks _ after =>
    exact (hSame after rfl).elim
  | accepts _ _ _ _ _ after =>
    refine (hSame after ?_).elim
    cases w.db.membership _ _ <;> rfl
  | invites _ after =>
    refine absurd (h.of_team after) (not_produces hValid fun j hj => ?_)
    rcases List.mem_append.mp hj with hOld | hNew
    · exact .inl hOld
    · obtain rfl := List.mem_singleton.mp hNew
      exact .inr rfl
  | cancels _ _ after =>
    exact absurd (h.of_team after) (not_produces hValid fun j hj => .inl (List.mem_filter.mp hj).1)
  | @redeems bearer token user invitation guard checked after =>
    have hJoined := h.of_team after
    obtain rfl : i = invitation := by
      have hId := marked (p := fun j => j.id = invitation.id) hValid h.mem h.pending hJoined.accepted
      exact List.inj_on_of_nodup_map hValid.invitationId h.mem checked.mem hId
    rcases List.mem_append.mp hJoined.added with hOld | hNew
    · exact absurd rfl (h.new m hOld)
    · obtain rfl := List.mem_singleton.mp hNew
      exact .accepts guard checked
  | @autoJoins email code user found _ _ after =>
    obtain ⟨joined, hSub, hLoop⟩ := autoJoinAll_joined c user w.db
    have hJoined := h.of_team after
    have hIn : i.id ∈ joined.map fun j => j.id := by
      have hAccepted := hJoined.accepted
      rw [hLoop.invitations] at hAccepted
      exact marked (p := fun j => j.id ∈ joined.map fun k => k.id) hValid h.mem h.pending hAccepted
    obtain ⟨j, hj, hId⟩ := List.mem_map.mp hIn
    have hPending := List.mem_filter.mp (hSub.subset hj)
    obtain rfl := List.inj_on_of_nodup_map hValid.invitationId hPending.1 h.mem hId
    have hAddress : j.email = user.email ∧ j.acceptedAt = none := by simpa using hPending.2
    have hAdded := hJoined.added
    rw [hLoop.memberships, hLoop.made] at hAdded
    rcases List.mem_append.mp hAdded with hOld | hNew
    · exact absurd rfl (h.new m hOld)
    · obtain ⟨index, hIndex, rfl⟩ := List.mem_mapIdx.mp hNew
      -- the loop makes one membership in each tenant
      have hTenant : joined[index].tenantId = j.tenantId := h.inTenant
      obtain rfl : joined[index] = j :=
        List.inj_on_of_nodup_map hLoop.tenants (List.getElem_mem hIndex) hj hTenant
      exact .joins found hAddress.1 (hLoop.live _ hj).1

theorem updateMembership_ids {db : Db} {id : Uuid} {f : TenantMembership → TenantMembership}
    (hf : ∀ y, (f y).id = y.id) :
    (db.updateMembership id f).memberships.map (fun y => y.id) =
      db.memberships.map fun y => y.id :=
  Db.map_update hf _

theorem setRole_ids {db : Db} {row : Option TenantMembership} {role : MemberRole} :
    (db.setRole row role).memberships.map (fun y => y.id) = db.memberships.map fun y => y.id := by
  cases row with
  | none => rfl
  | some y => exact updateMembership_ids fun _ => rfl

/-- A membership comes of the foundation of its tenant, or of an invitation. -/
theorem Move.source (hMove : Move c w w' r) (hm : m ∈ w'.db.memberships)
    (hNew : ∀ m₀ ∈ w.db.memberships, m₀.id ≠ m.id) :
    (∃ token name, r = .createWorkspace token name) ∨ ∃ i, Produces w.db w'.db i m := by
  have hOld {db : Db} (hTeam : w'.db.team = db.team)
      (hIds : db.memberships.map (fun y => y.id) ⊆ w.db.memberships.map fun y => y.id) : False := by
    have hRows : w'.db.memberships = db.memberships := congrArg (fun t => t.1) hTeam
    obtain ⟨m₀, hm₀, hId⟩ := List.mem_map.mp (hIds (List.mem_map_of_mem (hRows ▸ hm)))
    exact hNew m₀ hm₀ hId
  have hMade {db : Db} (hTeam : w'.db.team = db.team) {i : Invitation} (hi : i ∈ w.db.invitations)
      (hPending : i.acceptedAt = none) (hTenant : m.tenantId = i.tenantId)
      (hAccepted : ∃ j ∈ db.invitations, j.id = i.id ∧ j.acceptedAt ≠ none) :
      Produces w.db w'.db i m :=
    ⟨hi, hPending, (congrArg (fun t => t.2.2) hTeam : w'.db.invitations = db.invitations) ▸ hAccepted,
      hm, hNew, hTenant⟩
  cases hMove with
  | idle after => exact (hOld after (List.Subset.refl _)).elim
  | founds => exact .inl ⟨_, _, rfl⟩
  | changesRole _ _ _ _ after =>
    refine (hOld after ?_).elim
    unfold Db.saveMembership
    split
    · exact List.Subset.refl _
    · rw [updateMembership_ids]
      · exact List.Subset.refl _
      · exact fun _ => rfl
  | removes _ _ _ _ after | leaves _ _ after =>
    exact (hOld after (List.map_subset _ (List.filter_subset_self _))).elim
  | offers _ _ _ _ _ after | invites _ after | cancels _ _ after =>
    exact (hOld after (List.Subset.refl _)).elim
  | accepts _ _ _ _ _ after =>
    refine (hOld after ?_).elim
    rw [show (Db.deleteTransfers _ _).memberships = (Db.setRole _ _ _).memberships from rfl,
      setRole_ids, setRole_ids]
    exact List.Subset.refl _
  | blocks _ after =>
    refine (hOld after ?_).elim
    rw [updateMembership_ids]
    · exact List.Subset.refl _
    · exact fun _ => rfl
  | @redeems _ _ user invitation _ checked after =>
    have hRows : w'.db.memberships = w.db.memberships ++ [invitedMembership c 0 user invitation] :=
      congrArg (fun t => t.1) after
    rw [hRows] at hm
    rcases List.mem_append.mp hm with hm | hm
    · exact absurd rfl (hNew m hm)
    · obtain rfl := List.mem_singleton.mp hm
      refine .inr ⟨invitation, hMade after checked.mem checked.pending rfl ?_⟩
      exact ⟨_, List.mem_map_of_mem checked.mem, by simp⟩
  | @autoJoins _ _ user _ _ _ after =>
    obtain ⟨joined, hSub, hLoop⟩ := autoJoinAll_joined c user w.db
    have hRows : w'.db.memberships = _ := (congrArg (fun t => t.1) after).trans hLoop.memberships
    rw [hRows, hLoop.made] at hm
    rcases List.mem_append.mp hm with hm | hm
    · exact absurd rfl (hNew m hm)
    · obtain ⟨index, hIndex, rfl⟩ := List.mem_mapIdx.mp hm
      have hIn := List.getElem_mem hIndex
      obtain ⟨hMem, hPending⟩ : joined[index] ∈ w.db.invitations ∧
          joined[index].acceptedAt = none := by
        have hFound := List.mem_filter.mp (hSub.subset hIn)
        exact ⟨hFound.1, (by simpa using hFound.2 : _ ∧ _).2⟩
      refine .inr ⟨joined[index], hMade after hMem hPending rfl ?_⟩
      rw [hLoop.invitations]
      refine ⟨_, List.mem_map_of_mem hMem, ?_⟩
      rw [if_pos (List.mem_map_of_mem hIn)]
      exact ⟨rfl, by simp⟩

end Moves

section Runs

variable {cfg : Config} {s₀ s s' : Sys} {e : Event} {steps : List (Sys × Event)} {i : Invitation}
  {m m' : TenantMembership}

/-- The text of the presented token has the hash of the text of a token that was sent only when it is
that token. -/
def HashTells (cfg : Config) (steps : List (Sys × Event)) (token : TimedToken InvitationPayload) :
    Prop :=
  ∀ p ∈ steps, ∀ bearer header body tenant actor, p.2.request = .createInvitation bearer header body →
    Acts (p.2.ctx cfg) p.1.world bearer header .admin tenant actor →
    cfg.lib.sha256 (cfg.lib.invitationText token) = cfg.lib.sha256 (cfg.lib.invitationText
      (TimedToken.dumps (p.2.ctx cfg) invitationSalt ⟨body.email, tenant.id⟩)) →
    token = TimedToken.dumps (p.2.ctx cfg) invitationSalt ⟨body.email, tenant.id⟩

theorem loads_ok {π : Type} {c : Ctx} {salt : String} {maxAge : Nat} {token : TimedToken π}
    {payload : π} (h : token.loads c salt maxAge = .ok payload) : token.payload = some payload := by
  unfold TimedToken.loads at h
  split_ifs at h
  split at h
  · split_ifs at h
    split at h
    · rename_i hPayload
      rw [hPayload, Except.ok.inj h]
    · cases h
  · cases h

/-- Who redeems an invitation by its token has its address. -/
theorem redeems_address (hInit : Initial s₀) (hRun : Run (Step cfg) s₀ steps s) {user : User}
    {token : TimedToken InvitationPayload} (hHash : HashTells cfg steps token)
    (h : s.world.db.Redeems (e.ctx cfg) user token i) : user.email = i.email := by
  obtain ⟨p, hp, hInvites⟩ := invitation_origin hInit hRun h.mem
  obtain ⟨payload, hLoads, hEmail⟩ := h.signed
  generalize hInviting : p.2.request = r, hIssued : i.issued = i' at hInvites
  cases hInvites with
  | @intro bearer header body tenant actor acts =>
    have hRow : i.issued.tokenHash = _ := congrArg (fun i : Invitation => i.tokenHash) hIssued
    have hAddress : i.email = body.email := congrArg (fun i : Invitation => i.email) hIssued
    have hSent := hHash p hp bearer header body tenant actor hInviting acts (h.hash.symm.trans hRow)
    have hPayload := loads_ok hLoads
    rw [hSent] at hPayload
    rw [← hEmail, ← Option.some.inj hPayload, hAddress]

theorem Redemption.faithful (hInit : Initial s₀) (hRun : Run (Step cfg) s₀ steps s)
    (hs : s.Sound cfg) (hHash : ∀ bearer token, e.request = .acceptInvitation bearer token →
      HashTells cfg steps token) (hi : i ∈ s.world.db.invitations)
    (h : Redemption (e.ctx cfg) s.world i e.request m) : Faithful s.world.db e.now i m := by
  generalize hRequest : e.request = r at h
  have hRole : i.role ≠ .owner := hs.invitations i hi
  cases h with
  | @accepts bearer token user guard checked =>
    exact ⟨rfl, hRole, rfl, rfl, checked.live, user, checked.row,
      redeems_address hInit hRun (hHash bearer token hRequest) checked⟩
  | joins found address live =>
    refine ⟨rfl, hRole, rfl, rfl, Nat.le_of_lt live, _, ?_, address.symm⟩
    exact hs.valid.user_of_mem (List.mem_of_find?_eq_some found)

/-- The two memberships that came of one invitation in one request are one. -/
theorem Redemption.user_eq {c : Ctx} {w : World} {r : Request} (h : Redemption c w i r m)
    (h' : Redemption c w i r m') : m.userId = m'.userId := by
  cases h with
  | accepts guard =>
    cases h' with
    | accepts guard' =>
      obtain ⟨_, hUser⟩ := guard
      obtain ⟨_, hUser'⟩ := guard'
      rw [hUser] at hUser'
      obtain ⟨rfl, -⟩ := Outcome.ok.inj hUser'
      rfl
  | joins found =>
    cases h' with
    | joins found' =>
      obtain rfl := Option.some.inj (found.symm.trans found')
      rfl

theorem membership_unique {db : Db} (hValid : db.Valid) (hm : m ∈ db.memberships)
    (hm' : m' ∈ db.memberships) (hUser : m.userId = m'.userId) (hTenant : m.tenantId = m'.tenantId) :
    m = m' := by
  have hFound := hValid.membership_of_mem hm
  rw [hUser, hTenant, hValid.membership_of_mem hm'] at hFound
  exact (Option.some.inj hFound).symm

/-- The state that a step of a run led to. -/
def afterStep (cfg : Config) (p : Sys × Event) : Db :=
  (serve (p.2.ctx cfg) p.2.request p.1.world).2.db

/-- A row that has produced a membership produces no other later. -/
theorem not_produced_before (hInit : Initial s₀) (hRun : Run (Step cfg) s₀ steps s)
    (hi : i ∈ s.world.db.invitations) (hPending : i.acceptedAt = none) {p : Sys × Event}
    (hp : p ∈ steps) {j : Invitation} (hProduced : Produces p.1.world.db (afterStep cfg p) j m) :
    j.id ≠ i.id := by
  intro hSame
  obtain ⟨pre, post, n, -, hPre, hStep, hPost⟩ := hRun.split p hp
  have hs := Reachable.sound ⟨s₀, _, hInit, hRun⟩
  have hn := hStep.sound (Reachable.sound ⟨s₀, _, hInit, hPre⟩)
  have hAfter : afterStep cfg p = n.world.db := by rw [afterStep, hStep.served]
  obtain ⟨k, hk, hId, hDone⟩ := hProduced.accepted
  obtain ⟨k', hk', hIssued, hStill⟩ := accepted_stays hn hPost (hAfter ▸ hk) hDone
  have hIds : k'.id = i.id := (Invitation.id_of_issued hIssued).trans (hId.trans hSame)
  rw [List.inj_on_of_nodup_map hs.valid.invitationId hk' hi hIds] at hStill
  exact hStill hPending

/-- The step cancels the invitation. -/
def Cancels (p : Sys × Event) (id : Uuid) : Prop :=
  ∃ token header response, p.2.request = .cancelInvitation token header id ∧
    p.2.outcome = .ok response

/-- A request that is committed makes a move of its own kind, so that the row is gone. -/
theorem Step.cancelled (hStep : Step cfg s e s') {id : Uuid}
    (h : Cancels (s, e) id) :
    (∃ j ∈ s.world.db.invitations, j.id = id) ∧ ∀ j ∈ s'.world.db.invitations, j.id ≠ id := by
  obtain ⟨token, header, response, hRequest, hOutcome⟩ := h
  have hHandle := (hStep.committed hOutcome).1
  dsimp only at hRequest
  rw [hRequest] at hHandle
  obtain ⟨⟨tenant, actor⟩, m, hGuard, hHandle⟩ := Handler.run_bind_ok.mp hHandle
  obtain ⟨⟨⟩, m', hCancel, hHandle⟩ := Handler.run_bind_ok.mp hHandle
  obtain ⟨-, rfl⟩ := Handler.run_pure_ok.mp hHandle
  have hDb := (requireRole_acts hGuard).1
  simp only [cancelInvitation, Handler.run_query_bind, Handler.run_orRaise_bind_ok,
    Handler.run_ensure_bind_ok, Handler.run_exec, Outcome.ok.injEq, true_and] at hCancel
  obtain ⟨row, hFound, -, hAfter⟩ := hCancel
  have hId : row.id = id ∧ row.tenantId = tenant.id := by simpa using List.find?_some hFound
  refine ⟨⟨row, hDb ▸ List.mem_of_find?_eq_some hFound, hId.1⟩, fun j hj => ?_⟩
  rw [← hAfter] at hj
  obtain ⟨-, hOther⟩ := List.mem_filter.mp hj
  rw [← hId.1]
  simpa using hOther

/-- The id of an invitation that was created is the one drawn. -/
theorem Invites.drawn {p : Sys × Event} (h : Invites (p.2.ctx cfg) p.1.world p.2.request i) :
    i.id = p.2.draws.invitationId := by
  generalize p.2.request = r at h
  cases h with
  | intro => rfl

/-- While no two requests draw the same id, a row that was cancelled does not come back. -/
theorem not_cancelled (hInit : Initial s₀) (hRun : Run (Step cfg) s₀ steps s)
    (hFresh : (steps.map fun p => p.2.draws.invitationId).Nodup) (hi : i ∈ s.world.db.invitations)
    {p : Sys × Event} (hp : p ∈ steps) : ¬Cancels p i.id := by
  intro hCancels
  obtain ⟨pre, post, n, rfl, hPre, hStep, hPost⟩ := hRun.split p hp
  have hm := Reachable.sound ⟨s₀, _, hInit, hPre⟩
  obtain ⟨⟨j, hj, hId⟩, hGone⟩ := hStep.cancelled hCancels
  obtain ⟨q, hq, hInvited⟩ := invitation_origin hInit hPre hj
  rcases invitation_origin_of_sound (hStep.sound hm) hPost hi with ⟨k, hk, hSame⟩ | ⟨q', hq', hAgain⟩
  · exact hGone k hk (Invitation.id_of_issued hSame)
  · rw [List.map_append, List.map_cons, List.nodup_append] at hFresh
    refine hFresh.2.2 q.2.draws.invitationId (List.mem_map_of_mem hq) q'.2.draws.invitationId
      (List.mem_cons_of_mem _ (List.mem_map_of_mem hq')) ?_
    rw [← hInvited.drawn, ← hAgain.drawn]
    exact hId

/-- What a step does with the invitations after the steps of a run. -/
structure RedeemsOnce (cfg : Config) (steps : List (Sys × Event)) (s : Sys) (e : Event) (s' : Sys) :
    Prop where
  source : ∀ m ∈ s'.world.db.memberships, (∀ m₀ ∈ s.world.db.memberships, m₀.id ≠ m.id) →
    (∃ token name, e.request = .createWorkspace token name) ∨
      ∃ i, Produces s.world.db s'.world.db i m
  faithful : ∀ i m, Produces s.world.db s'.world.db i m → Faithful s.world.db e.now i m
  one : ∀ i m m', Produces s.world.db s'.world.db i m → Produces s.world.db s'.world.db i m' → m = m'
  first : ∀ i m, Produces s.world.db s'.world.db i m → ∀ p ∈ steps, ∀ j m',
    Produces p.1.world.db (afterStep cfg p) j m' → j.id ≠ i.id
  notCancelled : ∀ i m, Produces s.world.db s'.world.db i m → ∀ p ∈ steps, ¬Cancels p i.id
  single : ∀ m ∈ s'.world.db.memberships, ∀ m' ∈ s'.world.db.memberships, m.userId = m'.userId →
    m.tenantId = m'.tenantId → m = m'

/-- After any run, a request makes a membership only of the foundation of its tenant or of an
invitation that is not cancelled and has made none before, as the invitation says. -/
theorem invitations_redeemed_once (hInit : Initial s₀) (hRun : Run (Step cfg) s₀ steps s)
    (hFresh : (steps.map fun p => p.2.draws.invitationId).Nodup) (hStep : Step cfg s e s')
    (hHash : ∀ bearer token, e.request = .acceptInvitation bearer token →
      HashTells cfg steps token) : RedeemsOnce cfg steps s e s' := by
  have hs := Reachable.sound ⟨s₀, _, hInit, hRun⟩
  have hMove := hStep.move hs
  have hValid := hStep.valid hs
  refine ⟨fun m hm hNew => hMove.source hm hNew, fun i m h => ?_, fun i m m' h h' => ?_,
    fun i m h p hp j m' hBefore => not_produced_before hInit hRun h.mem h.pending hp hBefore,
    fun i m h p hp => not_cancelled hInit hRun hFresh h.mem hp,
    fun m hm m' hm' => membership_unique hValid hm hm'⟩
  · exact (hMove.redemption hs.valid h).faithful hInit hRun hs hHash h.mem
  · have hUser := (hMove.redemption hs.valid h).user_eq (hMove.redemption hs.valid h')
    exact membership_unique hValid h.added h'.added hUser (h.inTenant.trans h'.inTenant.symm)

end Runs

/-! ### Bob accepts -/

/-- Alice owns a workspace, and Bob is no member. -/
def invitingStart : Sys := sampleStart
  { users := [sampleUser, bob]
    tenants := [acme]
    memberships := [⟨⟨10⟩, ⟨1⟩, ⟨5⟩, .owner, true, false, none, 0⟩] }

theorem invitingStart_initial : Initial invitingStart := ⟨by decide, rfl, rfl, rfl, rfl, rfl, rfl⟩

def invitingSignedIn : Event × Sys :=
  invitingStart.sample (seconds 10) (.login "alice@example.com" "pw" none none none)

def bobAsked : Event × Sys :=
  invitingSignedIn.2.sample (seconds 20) (.createInvitation (.signed aliceToken) (some "acme")
    ⟨"bob@example.com", ⟨.viewer, MemberRole.viewer_ne_owner⟩, false⟩)

def bobLoggedIn : Event × Sys :=
  bobAsked.2.sample (seconds 30) (.login "bob@example.com" "pw" none none none)

def bobBearer : Payload := { signedInToken with sub := ⟨2⟩, iat := 30, exp := 86430, jti := ⟨2⟩ }

def bobsInvitation : TimedToken InvitationPayload :=
  { payload := some ⟨"bob@example.com", ⟨5⟩⟩, signature := some (invitationSalt, 20) }

def bobAccepted : Event × Sys :=
  bobLoggedIn.2.sample (seconds 40) (.acceptInvitation (.signed bobBearer) bobsInvitation)

def bobAccepting : List (Sys × Event) :=
  [(invitingStart, invitingSignedIn.1), (invitingSignedIn.2, bobAsked.1),
    (bobAsked.2, bobLoggedIn.1)]

theorem bobAccepting_run : Run (Step sampleConfig) invitingStart bobAccepting bobLoggedIn.2 :=
  .cons (.of_admits (by decide) (by trivial)) <| .cons (.of_admits (by decide) (by trivial)) <|
    .single (.of_admits (by decide) (by trivial))

theorem bobAccepted_step : Step sampleConfig bobLoggedIn.2 bobAccepted.1 bobAccepted.2 :=
  .of_admits (by decide) fun _ => ⟨"bob@example.com", "Acme", .viewer, .head _⟩

/-- The one invitation of the run was sent with the token that Bob presents. -/
theorem bobsInvitation_tells : HashTells sampleConfig bobAccepting bobsInvitation := by
  intro p hp bearer header body tenant actor hRequest hActs _
  simp only [bobAccepting, List.mem_cons, List.not_mem_nil, or_false] at hp
  rcases hp with rfl | rfl | rfl
  · cases hRequest
  · have hTenant : tenant = acme := List.mem_singleton.mp hActs.known
    cases hRequest
    rw [hTenant]
    rfl
  · cases hRequest

/-- The law at Bob's acceptance. -/
theorem invitations_redeemed_once_bob :
    RedeemsOnce sampleConfig bobAccepting bobLoggedIn.2 bobAccepted.1 bobAccepted.2 :=
  invitations_redeemed_once invitingStart_initial bobAccepting_run (by decide) bobAccepted_step
    fun _ _ hRequest => by
      cases hRequest
      exact bobsInvitation_tells

end WxcodeAdm
