import WxcodeAdm.Concurrency
import WxcodeAdm.Guarantees.Ownership
import WxcodeAdm.Lib.Leads

/-! A transfer accepted beside the removal, the leave or the change of role of a member.  Each request
reads memberships, decides, and writes by primary key when it commits.  A tenant is left without an
owner when the membership of the accepting member goes between the guard of `accept_transfer` and its
second SELECT, since the old owner is demoted even where there is no new one; and when a request that
read the memberships before the transfer writes to the new owner's after it. -/

namespace WxcodeAdm

open Lib

/-! ### The owner's row -/

/-- The one owner row of the tenant is the one with this id. -/
def Db.OwnerRow (db : Db) (tenantId rowId : Uuid) : Prop :=
  ∃ owner, Sole (isOwnerOf tenantId) db.memberships owner ∧ owner.id = rowId

/-- Each membership was there in `before`, as the same user's in the same tenant. -/
def Db.RowsOf (before db : Db) : Prop :=
  ∀ m ∈ db.memberships, ∃ m₀ ∈ before.memberships,
    m₀.id = m.id ∧ m₀.userId = m.userId ∧ m₀.tenantId = m.tenantId

variable {c : Ctx} {db db' : Db} {tenantId rowId : Uuid}

theorem Db.RowsOf.refl (db : Db) : db.RowsOf db := fun m hm => ⟨m, hm, rfl, rfl, rfl⟩

theorem Db.RowsOf.trans {db'' : Db} (h : db.RowsOf db') (h' : db'.RowsOf db'') :
    db.RowsOf db'' := by
  intro m hm
  obtain ⟨m₁, hm₁, hId₁, hUser₁, hTenant₁⟩ := h' m hm
  obtain ⟨m₀, hm₀, hId, hUser, hTenant⟩ := h m₁ hm₁
  exact ⟨m₀, hm₀, hId.trans hId₁, hUser.trans hUser₁, hTenant.trans hTenant₁⟩

theorem Db.rowsOf_deleteMembership (id : Uuid) : db.RowsOf (db.deleteMembership id) :=
  fun m hm => ⟨m, (List.mem_filter.mp hm).1, rfl, rfl, rfl⟩

theorem Db.rowsOf_updateMembership {id : Uuid} {f : TenantMembership → TenantMembership}
    (hf : ∀ m, (f m).id = m.id ∧ (f m).userId = m.userId ∧ (f m).tenantId = m.tenantId) :
    db.RowsOf (db.updateMembership id f) := by
  intro m hm
  obtain ⟨m₀, hm₀, rfl⟩ := List.mem_map.mp hm
  refine ⟨m₀, hm₀, ?_⟩
  split
  · obtain ⟨hId, hUser, hTenant⟩ := hf m₀
    exact ⟨hId.symm, hUser.symm, hTenant.symm⟩
  · exact ⟨rfl, rfl, rfl⟩

theorem Db.rowsOf_saveMembership (loaded changed : TenantMembership) :
    db.RowsOf (db.saveMembership loaded changed) := by
  unfold Db.saveMembership
  split
  · exact .refl db
  · exact Db.rowsOf_updateMembership fun m => ⟨rfl, rfl, rfl⟩

theorem Db.rowsOf_setRole (row : Option TenantMembership) (role : MemberRole) :
    db.RowsOf (db.setRole row role) := by
  cases row with
  | none => exact .refl db
  | some m => exact Db.rowsOf_updateMembership fun m => ⟨rfl, rfl, rfl⟩

theorem Db.OwnerRow.deleteMembership (h : db.OwnerRow tenantId rowId) {id : Uuid}
    (hOther : id ≠ rowId) : (db.deleteMembership id).OwnerRow tenantId rowId := by
  obtain ⟨owner, hSole, rfl⟩ := h
  exact ⟨owner, hSole.filter (by simpa using hOther.symm), rfl⟩

theorem Db.OwnerRow.saveMembership (h : db.OwnerRow tenantId rowId)
    {loaded changed : TenantMembership} (hOther : loaded.id ≠ rowId)
    (hRole : changed.role ≠ .owner) :
    (db.saveMembership loaded changed).OwnerRow tenantId rowId := by
  unfold Db.saveMembership
  split
  · exact h
  · obtain ⟨owner, hSole, rfl⟩ := h
    refine ⟨_, hSole.map fun m hm => ?_, by rw [if_neg hOther.symm]⟩
    split
    · rename_i hId
      have hNot : isOwnerOf tenantId m = false := by
        refine Bool.eq_false_iff.mpr fun hOwner => hOther ?_
        rw [← hId, hSole.eq hm hOwner]
      rw [hNot]
      simp only [isOwnerOf] at hNot ⊢
      split
      · exact hNot
      · simp [hRole]
    · rfl

/-- A row that is no owner's is another than the owner's row. -/
theorem Db.OwnerRow.ne_of_role (h : db.OwnerRow tenantId rowId) (hValid : db.Valid)
    {m : TenantMembership} (hm : m ∈ db.memberships) (hRole : m.role ≠ .owner) : m.id ≠ rowId := by
  obtain ⟨owner, hSole, rfl⟩ := h
  intro hId
  obtain rfl := hValid.membership_id hm hSole.mem.1 hId
  exact hRole (isOwnerOf_iff.mp hSole.mem.2).2

/-- The owner hands the role over to the row that accepts, where this row is still there. -/
theorem Db.OwnerRow.swap {f t : TenantMembership} (h : db.OwnerRow tenantId f.id)
    (hValid : db.Valid) {m : TenantMembership} (hm : m ∈ db.memberships) (hId : m.id = t.id)
    (hTenant : m.tenantId = tenantId) :
    ((db.setRole (some f) .admin).setRole (some t) .owner).OwnerRow tenantId t.id := by
  obtain ⟨owner, hSole, hOwner⟩ := h
  refine ⟨Db.Governed.swapped owner.id m.id m, ?_, ?_⟩
  · have hRows := Db.Governed.swapped_sole hValid hSole hm hTenant
    rw [hId, hOwner] at hRows ⊢
    rwa [← Db.Governed.setRole_setRole] at hRows
  · rw [Db.Governed.swapped, if_pos rfl, hId]

/-! ### What one request can commit -/

theorem commits_lookup_bind {δ ρ ε α β : Type} {V : δ → Prop} {Q : α → (δ → δ) → Prop}
    {p : δ → δ} {f : ρ → β} {k : β → Handler δ ρ ε α}
    (h : ∀ r, Commits V Q p (k (f r))) : Commits V Q p (.lookup f >>= k) := h

theorem commits_requireVerified {V : Db → Prop} {token : Bearer} :
    Commits V (fun user p => p = id ∧ ∃ q, token = .signed q ∧ user.id = q.sub) id
      (requireVerified c token) := by
  simp only [requireVerified, getCurrentUser, isTokenBlacklisted, bind_assoc,
    commits_ofExcept_bind]
  intro q hDecode
  refine commits_lookup_bind fun r => ?_
  simp only [commits_ensure_bind, commits_query_bind, commits_orRaise_bind, commits_store_bind,
    pure_bind, commits_pure]
  intro _ db _ user hUser _ _ _
  obtain ⟨hToken, -⟩ := decodeFor_ok.mp hDecode
  exact ⟨trivial, q, hToken, Db.user_id hUser⟩

/-- The guard gives the tenant of the header and the membership of the caller in it. -/
theorem commits_getTenantContext {V : Db → Prop} {token : Bearer} {header : Option String} :
    Commits V (fun x p => p = id ∧ ∃ q h, token = .signed q ∧ header = some h ∧
        (∃ db, V db ∧ resolveTenant c h db = some x.1) ∧
        ∃ db, V db ∧ db.membership q.sub x.1.id = some x.2) id
      (getTenantContext c token header) := by
  rw [getTenantContext, commits_bind]
  refine commits_requireVerified.mono (fun _ hV => hV) fun user p h => ?_
  obtain ⟨rfl, q, rfl, hUser⟩ := h
  simp only [commits_orRaise_bind, commits_query_bind, commits_ensure_bind, commits_pure]
  rintro header rfl db hdb tenant hTenant - - db' hdb' m hMember -
  exact ⟨trivial, q, header, rfl, rfl, ⟨db, hdb, hTenant⟩, db', hdb', hUser ▸ hMember⟩

theorem commits_requireRole {V : Db → Prop} {role : MemberRole} {token : Bearer}
    {header : Option String} :
    Commits V (fun x p => p = id ∧ ∃ q h, token = .signed q ∧ header = some h ∧
        (∃ db, V db ∧ resolveTenant c h db = some x.1) ∧
        ∃ db, V db ∧ db.membership q.sub x.1.id = some x.2) id
      (requireRole c role token header) := by
  rw [requireRole, commits_bind]
  refine commits_getTenantContext.mono (fun _ hV => hV) fun x p h => ?_
  rw [commits_ensure_bind, commits_pure]
  exact fun _ => h

/-- The member that the request is about. -/
def Request.memberId : Request → Option Uuid
  | .changeMemberRole _ _ userId _ | .removeMember _ _ userId => some userId
  | .leaveTenant (.signed p) _ | .acceptTransfer (.signed p) _ => some p.sub
  | _ => none

def Request.ChangesMember (r : Request) : Prop :=
  (∃ token tenant userId body, r = .changeMemberRole token tenant userId body) ∨
    (∃ token tenant userId, r = .removeMember token tenant userId) ∨
    ∃ token tenant, r = .leaveTenant token tenant

/-- The write of a request about a member: the deletion of a row that was seen as no owner's, or a
role other than owner for it, where an owner's row was seen with another owner's. -/
inductive MemberWrite (V : Db → Prop) (userId : Uuid) : (Db → Db) → Prop
  | delete {d : TenantMembership} : (∃ db, V db ∧ d ∈ db.memberships) →
      (∃ db, V db ∧ ∃ m ∈ db.memberships, m.id = d.id ∧ m.userId = userId) → d.role ≠ .owner →
      MemberWrite V userId fun db => db.deleteMembership d.id
  | save {d changed : TenantMembership} : (∃ db, V db ∧ d ∈ db.memberships) →
      (∃ db, V db ∧ ∃ m ∈ db.memberships, m.id = d.id ∧ m.userId = userId) →
      changed.role ≠ .owner → (d.role = .owner → ∃ db, V db ∧ ∃ g ∈ db.memberships,
        g.tenantId = d.tenantId ∧ g.role = .owner ∧ g.userId ≠ d.userId) →
      MemberWrite V userId fun db => db.saveMembership d changed

section Member

variable {V : Db → Prop} {tenant : Tenant} {userId : Uuid}

theorem asLoaded_seen {loaded d : TenantMembership} {found : Option TenantMembership}
    (hLoaded : ∃ db, V db ∧ loaded ∈ db.memberships)
    (hFound : ∃ db, V db ∧ found = db.membership userId tenantId)
    (h : asLoaded loaded found = some d) :
    (∃ db, V db ∧ d ∈ db.memberships) ∧
      (∃ db, V db ∧ ∃ m ∈ db.memberships, m.id = d.id ∧ m.userId = userId) ∧
      (d = loaded ∨ d.tenantId = tenantId) := by
  obtain ⟨db, hdb, rfl⟩ := hFound
  obtain ⟨m, hFound, rfl⟩ := Option.map_eq_some_iff.mp h
  obtain ⟨hMem, hUser, hTenant⟩ := Db.membership_mem hFound
  split
  · rename_i hId
    exact ⟨hLoaded, ⟨db, hdb, m, hMem, hId, hUser⟩, .inl rfl⟩
  · exact ⟨⟨db, hdb, hMem⟩, ⟨db, hdb, m, hMem, rfl, hUser⟩, .inr hTenant⟩

theorem commits_changeRole {actor : TenantMembership} {role : MemberRole} {billing : Option Bool}
    (hActor : ∃ db, V db ∧ actor ∈ db.memberships) (hIn : actor.tenantId = tenant.id) :
    Commits V (fun _ p => MemberWrite V userId p) id
      (changeRole tenant actor userId role billing) := by
  simp only [changeRole, commits_query_bind, commits_orRaise_bind, commits_ensure_bind,
    commits_exec_bind, commits_pure]
  intro db hdb d hTarget hSelf hOwner hRole
  obtain ⟨hSeen, hRow, hTenant⟩ := asLoaded_seen hActor ⟨db, hdb, rfl⟩ hTarget
  refine .save hSeen hRow hRole fun hOwns => ?_
  obtain ⟨dbActor, hdbActor, hMem⟩ := hActor
  have hOther : actor.userId ≠ d.userId := fun hSame => hSelf ⟨hOwns, hSame.symm⟩
  have hTenant' : d.tenantId = tenant.id := hTenant.resolve_left fun hSame => hOther (hSame ▸ rfl)
  refine ⟨dbActor, hdbActor, actor, hMem, hIn.trans hTenant'.symm, ?_, hOther⟩
  by_contra hNot
  exact hOwner ⟨hOwns, hNot⟩

theorem commits_removeMember {actor : TenantMembership} :
    Commits V (fun _ p => MemberWrite V userId p) id (removeMember tenant actor userId) := by
  simp only [removeMember, commits_query_bind, commits_orRaise_bind, commits_ensure_bind,
    commits_exec]
  intro _ db hdb d hTarget hRole
  obtain ⟨hMem, hUser, -⟩ := Db.membership_mem hTarget
  exact .delete ⟨db, hdb, hMem⟩ ⟨db, hdb, d, hMem, rfl, hUser⟩ hRole

theorem commits_leaveTenant {loaded : TenantMembership}
    (hLoaded : ∃ db, V db ∧ loaded ∈ db.memberships) :
    Commits V (fun _ p => MemberWrite V userId p) id (leaveTenant loaded tenantId userId) := by
  simp only [leaveTenant, commits_query_bind, commits_orRaise_bind, commits_ensure_bind,
    commits_exec]
  intro db hdb d hTarget hRole
  obtain ⟨hSeen, hRow, -⟩ := asLoaded_seen hLoaded ⟨db, hdb, rfl⟩ hTarget
  exact .delete hSeen hRow hRole

end Member

/-- A handler after which the request only checks. -/
theorem commits_then {α β : Type} {V : Db → Prop} {Q : (Db → Db) → Prop} {x : App α}
    {k : α → App β} {p : Db → Db} (hx : Commits V (fun _ p => Q p) p x)
    (hk : ∀ a p, Q p → Commits V (fun _ p => Q p) p (k a)) :
    Commits V (fun _ p => Q p) p (x >>= k) := by
  rw [commits_bind]
  exact hx.mono (fun _ hV => hV) fun a p hp => hk a p hp

/-- What a request about a member can commit. -/
theorem commits_memberWrite {V : Db → Prop} {r : Request} (h : r.ChangesMember) :
    Commits V (fun _ p => ∃ userId, r.memberId = some userId ∧ MemberWrite V userId p) id
      (transaction c r) := by
  refine commits_then ?_ fun response p hp => ?_
  · rcases h with ⟨token, header, userId, body, rfl⟩ | ⟨token, header, userId, rfl⟩ |
      ⟨token, header, rfl⟩
    · refine commits_bind.mpr (commits_requireRole.mono (fun _ hV => hV) ?_)
      rintro ⟨tenant, actor⟩ p ⟨rfl, q, _, -, -, -, db, hdb, hMember⟩
      obtain ⟨hMem, -, hTenant⟩ := Db.membership_mem hMember
      refine commits_then ((commits_changeRole ⟨db, hdb, hMem⟩ hTenant).mono (fun _ hV => hV)
        fun _ p hp => ⟨userId, rfl, hp⟩) fun updated p hp => ?_
      simp only [commits_query_bind, commits_ensure_bind, commits_pure]
      exact fun _ _ _ => hp
    · refine commits_bind.mpr (commits_requireRole.mono (fun _ hV => hV) ?_)
      rintro ⟨tenant, actor⟩ p ⟨rfl, -⟩
      exact commits_then (commits_removeMember.mono (fun _ hV => hV)
        fun _ p hp => ⟨userId, rfl, hp⟩) fun _ p hp => hp
    · refine commits_bind.mpr (commits_getTenantContext.mono (fun _ hV => hV) ?_)
      rintro ⟨tenant, actor⟩ p ⟨rfl, q, _, rfl, -, -, db, hdb, hMember⟩
      obtain ⟨hMem, hUser, -⟩ := Db.membership_mem hMember
      refine commits_then ((commits_leaveTenant ⟨db, hdb, hMem⟩).mono (fun _ hV => hV)
        fun _ p hp => ⟨actor.userId, congrArg some hUser.symm, hp⟩) fun _ p hp => hp
  · rw [commits_bind]
    exact commits_flush hp

/-- The writes of requests about members touch memberships only. -/
theorem MemberWrite.frame {V : Db → Prop} {userId : Uuid} {p : Db → Db}
    (h : MemberWrite V userId p) (db : Db) :
    (p db).users = db.users ∧ (p db).tenants = db.tenants ∧ (p db).transfers = db.transfers ∧
      db.RowsOf (p db) := by
  cases h with
  | delete => exact ⟨rfl, rfl, rfl, Db.rowsOf_deleteMembership _⟩
  | save =>
    refine ⟨?_, ?_, ?_, Db.rowsOf_saveMembership _ _⟩ <;>
    · unfold Db.saveMembership
      split <;> rfl

/-- A write about another row than the owner's leaves the owner. -/
theorem MemberWrite.keeps_other {V : Db → Prop} {userId : Uuid} {p : Db → Db}
    (h : MemberWrite V userId p)
    (hOther : ∀ db, V db → ∀ m ∈ db.memberships, m.userId = userId → m.id ≠ rowId)
    (hOwner : db.OwnerRow tenantId rowId) : (p db).OwnerRow tenantId rowId := by
  cases h with
  | delete _ hRow _ =>
    obtain ⟨seen, hSeen, m, hm, hId, hUser⟩ := hRow
    exact hOwner.deleteMembership (hId ▸ hOther seen hSeen m hm hUser)
  | save _ hRow hRole _ =>
    obtain ⟨seen, hSeen, m, hm, hId, hUser⟩ := hRow
    exact hOwner.saveMembership (hId ▸ hOther seen hSeen m hm hUser) hRole

/-- A write for which the request has seen the database that it is made to leaves the owner. -/
theorem MemberWrite.keeps_seen {userId : Uuid} {p : Db → Db} (h : MemberWrite (· = db) userId p)
    (hValid : db.Valid) (hOwner : db.OwnerRow tenantId rowId) :
    (p db).OwnerRow tenantId rowId := by
  cases h with
  | delete hSeen _ hRole =>
    obtain ⟨_, rfl, hMem⟩ := hSeen
    exact hOwner.deleteMembership (hOwner.ne_of_role hValid hMem hRole)
  | @save d changed hSeen _ hRole hAllowed =>
    obtain ⟨_, rfl, hMem⟩ := hSeen
    refine hOwner.saveMembership (fun hId => ?_) hRole
    obtain ⟨owner, hSole, rfl⟩ := hOwner
    obtain rfl := hValid.membership_id hMem hSole.mem.1 hId
    -- the owner's row is changed by the owner of the tenant alone, and not its own
    obtain ⟨hIn, hOwns⟩ := isOwnerOf_iff.mp hSole.mem.2
    obtain ⟨_, rfl, g, hg, hTenant, hOwner, hUser⟩ := hAllowed hOwns
    exact hUser (congrArg _ (hSole.eq hg (isOwnerOf_iff.mpr ⟨hTenant.trans hIn, hOwner⟩)))

/-! ### Accepting a transfer -/

/-- `accept_transfer` from its SELECT of the accepting member on. -/
def promote (tenantId userId : Uuid) (transfer : OwnershipTransfer)
    (fromMembership : Option TenantMembership) : App Unit := do
  let toMembership ← .query fun db => db.membership userId tenantId
  .exec fun db => db.setRole fromMembership .admin
  .exec fun db => db.setRole toMembership .owner
  .exec fun db => db.deleteTransfers fun x => x.id = transfer.id

theorem swapOwner_eq (tenantId userId : Uuid) (transfer : OwnershipTransfer) :
    swapOwner tenantId userId transfer =
      .query (fun db => db.membership transfer.fromUserId tenantId) >>=
        promote tenantId userId transfer := rfl

def acceptWrites (f t : TenantMembership) (x : OwnershipTransfer) (db : Db) : Db :=
  ((db.setRole (some f) .admin).setRole (some t) .owner).deleteTransfers fun x' => x'.id = x.id

/-- A database that differs from `before` in what a request about a member may change, with the
owner's row in place. -/
structure Beside (before : Db) (tenantId ownerId : Uuid) (db : Db) : Prop where
  users : db.users = before.users
  tenants : db.tenants = before.tenants
  transfers : db.transfers = before.transfers
  rows : before.RowsOf db
  owner : db.OwnerRow tenantId ownerId
  valid : db.Valid

/-- What is left of the request is the SELECT of the accepting member and the swap, with the
owner's row at hand. -/
def Promoting (tenantId userId ownerId : Uuid) (p : Db → Db) (h : App Response) : Prop :=
  p = id ∧ ∃ x f rest, h = promote tenantId userId x (some f) >>= rest ∧ f.id = ownerId ∧
    ∀ p, Commits (fun _ => True) (fun _ p' => p' = p) p (rest ())

variable {before : Db} {owner : TenantMembership} {userId : Uuid}

theorem Beside.refl (hOwned : before.OwnedBy tenantId owner) (hValid : before.Valid) :
    Beside before tenantId owner.id before :=
  ⟨rfl, rfl, rfl, .refl before, ⟨owner, hOwned.sole, rfl⟩, hValid⟩

/-- The SELECT of the old owner finds the owner's row. -/
theorem Beside.from_row (h : Beside before tenantId owner.id db)
    (hOwned : before.OwnedBy tenantId owner) (hValid : before.Valid) {x : OwnershipTransfer}
    (hx : x ∈ db.transfers) (hTenant : x.tenantId = tenantId) :
    ∃ f, db.membership x.fromUserId tenantId = some f ∧ f.id = owner.id := by
  obtain ⟨f, hSole, hId⟩ := h.owner
  obtain ⟨m₀, hm₀, hId₀, hUser₀, -⟩ := h.rows f hSole.mem.1
  obtain rfl := hValid.membership_id hm₀ hOwned.sole.mem.1 (hId₀.trans hId)
  refine ⟨f, ?_, hId⟩
  rw [hOwned.transfers x (h.transfers ▸ hx) hTenant, hUser₀,
    ← (isOwnerOf_iff.mp hSole.mem.2).1]
  exact h.valid.membership_of_mem hSole.mem.1

theorem resolveTenant_beside (h : Beside before tenantId rowId db) (header : String) :
    resolveTenant c header db = resolveTenant c header before := by
  unfold resolveTenant Db.tenant Db.tenantBySlug
  rw [h.tenants]

/-- After its guard the request comes to the swap with the owner's row at hand, or raises. -/
theorem acceptTransfer_leads (hOwned : before.OwnedBy tenantId owner) (hValid : before.Valid) :
    Handler.Leads (Beside before tenantId owner.id) (Promoting tenantId userId owner.id) id
      (acceptTransfer c tenantId userId >>= fun _ => flush >>= fun _ => pure .done) := by
  simp only [acceptTransfer, bind_assoc]
  refine Handler.Leads.query_bind fun db hdb => ?_
  cases hFound : (id db).transfers.find? fun x => x.tenantId = tenantId ∧ x.toUserId = userId with
  | none => trivial
  | some x =>
    rw [Handler.orRaise_some_bind]
    have hx : x.tenantId = tenantId ∧ x.toUserId = userId := by simpa using List.find?_some hFound
    split
    · exact .inr trivial
    · rw [swapOwner_eq, bind_assoc]
      refine Handler.Leads.query_bind fun db' hdb' => ?_
      have hIn : x ∈ db'.transfers := by
        rw [hdb'.transfers, ← hdb.transfers]
        exact List.mem_of_find?_eq_some hFound
      obtain ⟨f, hFrom, hId⟩ := hdb'.from_row hOwned hValid hIn hx.1
      rw [id, hFrom]
      refine .of ⟨rfl, x, f, _, rfl, hId, fun p => ?_⟩
      exact commits_bind.mpr (commits_flush rfl)

/-- What is left of the request is the SELECT of its guard, and then the way to the swap. -/
def Guarding (before : Db) (r : Request) (tenantId userId ownerId : Uuid) (p : Db → Db)
    (h : App Response) : Prop :=
  p = id ∧ r.memberId = some userId ∧ ∃ user tenant k,
    h = .query (fun db => db.membership user tenant) >>= k ∧ ∀ db, Beside before tenantId ownerId db →
      Handler.Leads (Beside before tenantId ownerId) (Promoting tenantId userId ownerId) id
        (k (db.membership user tenant))

theorem accept_leads (hOwned : before.OwnedBy tenantId owner) (hValid : before.Valid)
    {token : Bearer} {header : Option String} (hUser : ∀ q, token = .signed q → q.sub = userId)
    (hNamed : ∀ tenant, (header.bind fun h => resolveTenant c h before) = some tenant →
      tenant.id = tenantId) :
    Handler.Leads (Beside before tenantId owner.id)
      (Guarding before (.acceptTransfer token header) tenantId userId owner.id) id
      (transaction c (.acceptTransfer token header)) := by
  simp only [transaction, handle, requireTenantMember, getTenantContext, bind_assoc, pure_bind]
  refine .bind (commits_requireVerified.mono (fun _ hV => hV) ?_)
  rintro user p ⟨rfl, q, rfl, hSub⟩
  cases header with
  | none => trivial
  | some header =>
    rw [Handler.orRaise_some_bind]
    refine Handler.Leads.query_bind fun db hdb => ?_
    rw [id, resolveTenant_beside hdb]
    cases hTenant : resolveTenant c header before with
    | none => trivial
    | some tenant =>
      obtain rfl : tenant.id = tenantId := hNamed tenant hTenant
      rw [Handler.orRaise_some_bind]
      have hMine : (Request.acceptTransfer (.signed q) (some header)).memberId = some userId :=
        congrArg some (hUser q rfl)
      refine .ensure_bind fun _ => .ensure_bind fun _ =>
        .of ⟨rfl, hMine, user.id, tenant.id, _, rfl, ?_⟩
      intro db' _
      cases hMember : db'.membership user.id tenant.id with
      | none => trivial
      | some member =>
        rw [Handler.orRaise_some_bind]
        obtain rfl : member.userId = userId :=
          (Db.membership_mem hMember).2.1.trans (hSub.trans (hUser q rfl))
        exact .ensure_bind fun _ => acceptTransfer_leads hOwned hValid

/-- The swap, committed where the rows are still there, hands the ownership to the member who
accepts. -/
theorem accept_promotes {f t t₀ : TenantMembership} {x : OwnershipTransfer}
    (h : Beside before tenantId f.id db) (hValid : before.Valid) (ht₀ : t₀ ∈ before.memberships)
    (hId : t₀.id = t.id) (hTenant : t₀.tenantId = tenantId)
    (hCommit : (acceptWrites f t x db).Valid) :
    (acceptWrites f t x db).OwnerRow tenantId t.id := by
  have hMatched : (acceptWrites f t x db).stale = false := hCommit.matched
  obtain ⟨m', hm', hId'⟩ : ∃ m ∈ (db.setRole (some f) .admin).memberships, m.id = t.id := by
    simp only [acceptWrites, Db.deleteTransfers, Db.setRole, Db.updateMembership,
      Bool.or_eq_false_iff, Bool.not_eq_false', List.any_eq_true, decide_eq_true_eq] at hMatched
    exact hMatched.2
  obtain ⟨m, hm, hIdm, -, -⟩ := Db.rowsOf_setRole (some f) .admin m' hm'
  obtain ⟨m₀, hm₀, hId₀, -, hTenant₀⟩ := h.rows m hm
  obtain rfl := hValid.membership_id hm₀ ht₀ (hId₀.trans (hIdm.trans (hId'.trans hId.symm)))
  exact h.owner.swap h.valid hm (hIdm.trans hId') (hTenant₀.symm.trans hTenant)

/-! ### Up to the first SELECT of a membership -/

def SameGuard (db db' : Db) : Prop := db'.users = db.users ∧ db'.tenants = db.tenants

/-- The next statement is a SELECT of a membership. -/
def SelectsMembership {α : Type} (h : App α) : Prop :=
  ∃ userId tenantId rest, h = .query (fun db => db.membership userId tenantId) >>= rest

theorem promote_selects {α : Type} {x : OwnershipTransfer} {f : Option TenantMembership}
    {k : Unit → App α} : SelectsMembership (promote tenantId userId x f >>= k) :=
  ⟨userId, tenantId, _, by rw [promote, bind_assoc]⟩

theorem requireVerified_same (token : Bearer) :
    (requireVerified c token).SameUntil SameGuard fun _ => False :=
  .bind (.bind (.ofExcept _) fun _ => .bind (.lookup _) fun _ => .bind (.ensure _ _) fun _ =>
    .bind (.query fun db db' h => by rw [Db.user, Db.user, h.1]) fun _ => .bind (.orRaise _ _)
    fun _ => .bind (.ensure _ _) fun _ => .bind (.ensure _ _) fun _ => .bind (.store _) fun _ =>
    trivial) fun _ => .bind (.ensure _ _) fun _ => trivial

theorem getTenantContext_same {α : Type} {token : Bearer} {header : Option String}
    {k : Tenant × TenantMembership → App α} :
    (getTenantContext c token header >>= k).SameUntil SameGuard SelectsMembership := by
  simp only [getTenantContext, bind_assoc]
  refine .bind (requireVerified_same token) fun user => .bind (.orRaise _ _) fun header =>
    .bind (.query fun db db' h => ?_) fun found => .bind (.orRaise _ _) fun tenant =>
    .bind (.ensure _ _) fun _ => .bind (.ensure _ _) fun _ => .inl ⟨user.id, tenant.id, _, rfl⟩
  unfold resolveTenant Db.tenant Db.tenantBySlug
  rw [h.2]

theorem changesMember_same {r : Request} (h : r.ChangesMember) :
    (transaction c r).SameUntil SameGuard SelectsMembership := by
  rcases h with ⟨token, header, userId, body, rfl⟩ | ⟨token, header, userId, rfl⟩ |
    ⟨token, header, rfl⟩
  all_goals
    simp only [transaction, handle, Router.changeMemberRole, requireRole, requireTenantMember,
      bind_assoc]
    exact getTenantContext_same

/-! ### Side by side -/

/-- The two requests. -/
inductive Party where
  | accepting
  | other
  deriving DecidableEq

section Pool

def ReadsMembership (step : Requests Party × Party) : Prop :=
  ∃ p h, step.1.thread step.2 = .running p h ∧ SelectsMembership h

/-- Where `accept_transfer` SELECTs memberships after its guard did, the accepting member's is still
there. -/
def FindsMember (tenantId : Uuid) (r : Party → Request) (past : List (Requests Party × Party))
    (step : Requests Party × Party) : Prop :=
  step.2 = .accepting → ReadsMembership step →
    (∃ q ∈ past, q.2 = .accepting ∧ ReadsMembership q) →
    ∀ userId, (r .accepting).memberId = some userId →
      (step.1.stores.db.membership userId tenantId).isSome = true

/-- A request about the accepting member that commits after the transfer has read no membership
before it. -/
def CommitsApart (r : Party → Request) (past : List (Requests Party × Party))
    (step : Requests Party × Party) : Prop :=
  step.2 = .other → (∃ p a, step.1.thread .other = .running p (.ret a)) →
    (r .other).memberId = (r .accepting).memberId → (step.1.thread .accepting).returned = true →
    ∀ q ∈ past, q.2 = .other → ReadsMembership q → (q.1.thread .accepting).returned = true

def AcceptsSafely (tenantId : Uuid) (r : Party → Request) (past : List (Requests Party × Party))
    (step : Requests Party × Party) : Prop :=
  FindsMember tenantId r past step ∧ CommitsApart r past step

variable {w : World} {owner : TenantMembership} {userId : Uuid}

/-- The transfer is not committed yet. -/
inductive AcceptOpen (w : World) (r : Request) (tenantId userId ownerId : Uuid)
    (past : List (Requests Party × Party)) : Thread Db Redis PyError Response → Prop
  | guarding {p rest} : Handler.Leads (Beside w.db tenantId ownerId)
      (Guarding w.db r tenantId userId ownerId) p rest →
      AcceptOpen w r tenantId userId ownerId past (.running p rest)
  | reading {p rest} : r.memberId = some userId →
      (∃ q ∈ past, q.2 = .accepting ∧ ReadsMembership q) → Handler.Leads (Beside w.db tenantId ownerId)
        (Promoting tenantId userId ownerId) p rest →
      AcceptOpen w r tenantId userId ownerId past (.running p rest)
  | writing {p rest f t t₀ x} : r.memberId = some userId → f.id = ownerId →
      t₀ ∈ w.db.memberships → t₀.id = t.id → t₀.userId = userId → t₀.tenantId = tenantId →
      Commits (fun _ => True) (fun _ p => p = acceptWrites f t x) p rest →
      AcceptOpen w r tenantId userId ownerId past (.running p rest)
  | raised {e} : AcceptOpen w r tenantId userId ownerId past (.ended (.error e))

variable {s : World} {t : Thread Db Redis PyError Response} {m m' : Requests Party}
  {past : List (Requests Party × Party)} {r : Party → Request}

theorem AcceptOpen.snoc {step : Requests Party × Party}
    (h : AcceptOpen w (r .accepting) tenantId userId rowId past t) :
    AcceptOpen w (r .accepting) tenantId userId rowId (past ++ [step]) t := by
  cases h with
  | guarding hLeads => exact .guarding hLeads
  | reading hMine hRead hLeads =>
    obtain ⟨q, hq, hReads⟩ := hRead
    exact .reading hMine ⟨q, List.mem_append_left _ hq, hReads⟩ hLeads
  | writing hMine hId ht₀ hId₀ hUser hTenant hCommits =>
    exact .writing hMine hId ht₀ hId₀ hUser hTenant hCommits
  | raised => exact .raised

/-- The SELECT of the accepting member, where it finds them. -/
theorem AcceptOpen.of_found {before : Db} {x : OwnershipTransfer} {f : TenantMembership}
    {next : Unit → App Response} {p : Db → Db} {rest : App Response}
    (hBeside : Beside w.db tenantId rowId before) (hMine : (r .accepting).memberId = some userId)
    (hId : f.id = rowId)
    (hNext : ∀ p, Commits (fun _ => True) (fun _ p' => p' = p) p (next ()))
    (hFound : (before.membership userId tenantId).isSome = true)
    (hStep : (Thread.running id (promote tenantId userId x (some f) >>= next)).step Db.Valid
      .integrityError ⟨before, m.stores.cache⟩ = some (s, .running p rest)) :
    AcceptOpen w (r .accepting) tenantId userId rowId past (.running p rest) := by
  obtain ⟨row, hRow⟩ := Option.isSome_iff_exists.mp hFound
  obtain ⟨hMem, hUser, hTenant⟩ := Db.membership_mem hRow
  obtain ⟨t₀, ht₀, hId₀, hUser₀, hTenant₀⟩ := hBeside.rows row hMem
  obtain ⟨rfl, hRest⟩ := Prod.mk.inj (Option.some.inj hStep)
  cases hRest
  refine .writing (x := x) hMine hId ht₀ hId₀ (hUser₀.trans hUser) (hTenant₀.trans hTenant) ?_
  beta_reduce
  rw [id, hRow]
  exact hNext (acceptWrites f row x)

theorem AcceptOpen.step (hBeside : Beside w.db tenantId rowId m.stores.db)
    (hFinds : FindsMember tenantId r past (m, .accepting))
    (h : AcceptOpen w (r .accepting) tenantId userId rowId past (m.thread .accepting))
    (hStep : (m.thread .accepting).step Db.Valid .integrityError m.stores = some (s, t)) :
    s.db = m.stores.db ∧
        AcceptOpen w (r .accepting) tenantId userId rowId (past ++ [(m, .accepting)]) t ∨
      ∃ a f row t₀ x, t = .ended (.ok a) ∧ (r .accepting).memberId = some userId ∧ f.id = rowId ∧
        t₀ ∈ w.db.memberships ∧ t₀.id = row.id ∧ t₀.userId = userId ∧ t₀.tenantId = tenantId ∧
        s.db = acceptWrites f row x m.stores.db ∧ s.db.Valid := by
  generalize hThread : m.thread .accepting = thread at h hStep
  cases h with
  | @guarding p rest hLeads =>
    cases t with
    | ended result =>
      cases result with
      | ok a =>
        obtain ⟨-, -, user, tenant, k, hShape, -⟩ := hLeads.step_ok hStep
        cases hShape
      | error e => exact .inl ⟨by rw [Thread.step_error hStep], .raised⟩
    | running p' rest' =>
      refine .inl ⟨Thread.step_running hStep, ?_⟩
      rcases hLeads.step hBeside hStep with ⟨rfl, hMine, user, tenant, k, rfl, hNext⟩ | hLeads
      · cases hStep
        exact .reading hMine ⟨(m, .accepting), by simp, rfl, id, _, hThread, user, tenant, k, rfl⟩
          (hNext m.stores.db hBeside)
      · exact .guarding hLeads
  | @reading p rest hMine hRead hLeads =>
    cases t with
    | ended result =>
      cases result with
      | ok a =>
        obtain ⟨-, x, f, rest', hShape, -⟩ := hLeads.step_ok hStep
        cases hShape
      | error e => exact .inl ⟨by rw [Thread.step_error hStep], .raised⟩
    | running p' rest' =>
      refine .inl ⟨Thread.step_running hStep, ?_⟩
      rcases hLeads.step hBeside hStep with ⟨rfl, x, f, next, rfl, hId, hNext⟩ | hLeads
      · have hFound : (m.stores.db.membership userId tenantId).isSome = true :=
          hFinds rfl ⟨id, _, hThread, promote_selects⟩ hRead userId hMine
        exact .of_found hBeside hMine hId hNext hFound hStep
      · obtain ⟨q, hq, hReads⟩ := hRead
        exact .reading hMine ⟨q, List.mem_append_left _ hq, hReads⟩ hLeads
  | @writing p rest f row t₀ x hMine hId ht₀ hId₀ hUser hTenant hCommits =>
    cases t with
    | running p' rest' =>
      exact .inl ⟨Thread.step_running hStep,
        .writing hMine hId ht₀ hId₀ hUser hTenant (hCommits.step trivial hStep)⟩
    | ended result =>
      cases result with
      | ok a =>
        obtain ⟨-, hValid, rfl⟩ := Thread.step_ok hStep
        obtain rfl := hCommits.step_ok hStep
        exact .inr ⟨a, f, row, t₀, x, rfl, hMine, hId, ht₀, hId₀, hUser, hTenant, rfl, hValid⟩
      | error e => exact .inl ⟨by rw [Thread.step_error hStep], .raised⟩
  | raised => cases hStep

/-- What the request about a member is to commit. -/
def Intends (r : Request) (V : Db → Prop) (_ : Response) (p : Db → Db) : Prop :=
  ∃ userId, r.memberId = some userId ∧ MemberWrite V userId p

/-- The request about a member has not committed yet, and nor has the transfer: it has read the
database as it was at the start; and before its first SELECT of a membership, it may as well start
from any later one. -/
inductive OtherOpen (w : World) (r : Request) (past : List (Requests Party × Party)) :
    Thread Db Redis PyError Response → Prop
  | running {p rest} : Commits (· = w.db) (Intends r (· = w.db)) p rest →
      Commits w.db.RowsOf (Intends r w.db.RowsOf) p rest →
      ((∀ q ∈ past, q.2 = .other → ¬ReadsMembership q) →
        p = id ∧ rest.SameUntil SameGuard SelectsMembership ∧ ∀ db, SameGuard w.db db →
          Commits (· = db) (Intends r (· = db)) id rest) → OtherOpen w r past (.running p rest)
  | raised {e} : OtherOpen w r past (.ended (.error e))

variable {request : Request}

theorem OtherOpen.start {c : Ctx} (h : request.ChangesMember) :
    OtherOpen w request past (.running id (transaction c request)) :=
  .running (commits_memberWrite h) (commits_memberWrite h) fun _ =>
    ⟨rfl, changesMember_same h, fun _ _ => commits_memberWrite h⟩

theorem OtherOpen.other {m : Requests Party} (h : OtherOpen w request past t) :
    OtherOpen w request (past ++ [(m, .accepting)]) t := by
  cases h with
  | raised => exact .raised
  | running hSeen hRows hUnread =>
    exact .running hSeen hRows fun hNot => hUnread fun q hq => hNot q (List.mem_append_left _ hq)

theorem OtherOpen.step (hDb : m.stores.db = w.db) (h : OtherOpen w request past (m.thread .other))
    (hStep : (m.thread .other).step Db.Valid .integrityError m.stores = some (s, t)) :
    s.db = w.db ∧ OtherOpen w request (past ++ [(m, .other)]) t ∨
      ∃ a userId p, t = .ended (.ok a) ∧ MemberWrite (· = w.db) userId p ∧ s.db = p w.db ∧
        s.db.Valid := by
  generalize hThread : m.thread .other = thread at h hStep
  cases h with
  | raised => cases hStep
  | @running p rest hSeen hRows hUnread =>
    cases t with
    | running p' rest' =>
      refine .inl ⟨(Thread.step_running hStep).trans hDb, .running (hSeen.step hDb hStep)
        (hRows.step (hDb ▸ .refl w.db) hStep) fun hNot => ?_⟩
      obtain ⟨rfl, hSame, hLater⟩ := hUnread fun q hq => hNot q (List.mem_append_left _ hq)
      have hUnreadNow : ¬SelectsMembership rest := fun hSelects =>
        hNot (m, .other) (by simp) rfl ⟨id, rest, hThread, hSelects⟩
      obtain ⟨rfl, hSame', hNext⟩ := hSame.step hUnreadNow hStep
      exact ⟨rfl, hSame', fun db hE => hNext db _ (hDb ▸ hE) (hLater db hE)⟩
    | ended result =>
      cases result with
      | ok a =>
        obtain ⟨userId, -, hWrite⟩ := hSeen.step_ok hStep
        obtain ⟨-, hValid, rfl⟩ := Thread.step_ok hStep
        exact .inr ⟨a, userId, p, rfl, hWrite, congrArg p hDb, hValid⟩
      | error e => exact .inl ⟨by rw [Thread.step_error hStep, hDb], .raised⟩

/-- Which of the two requests have committed.  Once the transfer has, what the other request is
still to commit leaves the new owner, or else it has read a membership before and is to raise. -/
inductive RacePhase (w : World) (tenantId userId ownerId : Uuid) (r : Party → Request)
    (past : List (Requests Party × Party)) (m : Requests Party) : Prop
  | neither : m.stores.db = w.db →
      AcceptOpen w (r .accepting) tenantId userId ownerId past (m.thread .accepting) →
      OtherOpen w (r .other) past (m.thread .other) → RacePhase w tenantId userId ownerId r past m
  | changed : Beside w.db tenantId ownerId m.stores.db →
      AcceptOpen w (r .accepting) tenantId userId ownerId past (m.thread .accepting) →
      (∃ a, m.thread .other = .ended (.ok a)) → RacePhase w tenantId userId ownerId r past m
  | accepted (newId : Uuid) : m.stores.db.OwnerRow tenantId newId →
      (∃ a, m.thread .accepting = .ended (.ok a)) →
      ((r .other).memberId = (r .accepting).memberId ∧
          (∃ q ∈ past, q.2 = .other ∧ ReadsMembership q ∧
            (q.1.thread .accepting).returned = false) ∨
        ∀ p rest, m.thread .other = .running p rest → Commits (· = m.stores.db)
          (fun _ p => (p m.stores.db).OwnerRow tenantId newId) p rest) →
      RacePhase w tenantId userId ownerId r past m

theorem RacePhase.owned (hOwned : w.db.OwnedBy tenantId owner)
    (h : RacePhase w tenantId userId owner.id r past m) :
    ∃ owner, Sole (isOwnerOf tenantId) m.stores.db.memberships owner := by
  cases h with
  | neither hDb => exact ⟨owner, hDb ▸ hOwned.sole⟩
  | changed hBeside =>
    obtain ⟨owner, hSole, -⟩ := hBeside.owner
    exact ⟨owner, hSole⟩
  | accepted newId hOwner =>
    obtain ⟨owner, hSole, -⟩ := hOwner
    exact ⟨owner, hSole⟩

/-- A statement of the request about a member. -/
theorem RacePhase.step_other (hValid : w.db.Valid) (hOwned : w.db.OwnedBy tenantId owner)
    (hApart : CommitsApart r past (m, .other)) (h : RacePhase w tenantId userId owner.id r past m)
    (hStep : Requests.Step m .other m') :
    RacePhase w tenantId userId owner.id r (past ++ [(m, .other)]) m' := by
  obtain ⟨s, t, hThread, rfl⟩ := Pool.step_some hStep
  have hAccepting : (m.after .other s t).thread .accepting = m.thread .accepting :=
    Pool.after_thread_other (by decide)
  cases h with
  | neither hDb hAccept hOther =>
    rcases hOther.step hDb hThread with ⟨hSame, hNext⟩ | ⟨a, subject, p, rfl, hWrite, hNew, hValid'⟩
    · refine .neither hSame (hAccepting ▸ hAccept.snoc) ?_
      rwa [Pool.after_thread_same]
    · obtain ⟨hUsers, hTenants, hTransfers, hRows⟩ := hWrite.frame w.db
      rw [← hNew] at hUsers hTenants hTransfers hRows
      refine .changed ⟨hUsers, hTenants, hTransfers, hRows, ?_, hValid'⟩
        (hAccepting ▸ hAccept.snoc) ⟨a, Pool.after_thread_same⟩
      rw [Pool.after_stores, hNew]
      exact hWrite.keeps_seen hValid ⟨owner, hOwned.sole, rfl⟩
  | changed _ _ hEnded =>
    obtain ⟨a, hEnded⟩ := hEnded
    rw [hEnded] at hThread
    cases hThread
  | accepted newId hOwner hEnded hOther =>
    have hReturned : (m.thread .accepting).returned = true := Thread.returned_iff.mpr hEnded
    generalize hRunning : m.thread .other = thread at hThread
    cases thread with
    | ended => cases hThread
    | running p rest =>
      cases t with
      | running p' rest' =>
        have hSame : s.db = m.stores.db := Thread.step_running hThread
        refine .accepted newId (by rwa [Pool.after_stores, hSame]) (hAccepting ▸ hEnded) ?_
        rcases hOther with ⟨hMember, q, hq, hRead⟩ | hCommits
        · exact .inl ⟨hMember, q, List.mem_append_left _ hq, hRead⟩
        · refine .inr fun p'' rest'' hNow => ?_
          rw [Pool.after_thread_same] at hNow
          cases hNow
          rw [Pool.after_stores, hSame]
          exact (hCommits p rest hRunning).step rfl hThread
      | ended result =>
        refine .accepted newId ?_ (hAccepting ▸ hEnded) (.inr fun p'' rest'' hNow => ?_)
        · rw [Pool.after_stores]
          cases result with
          | ok a =>
            obtain ⟨rfl, -, rfl⟩ := Thread.step_ok hThread
            rcases hOther with ⟨hMember, q, hq, hRole, hReads, hBefore⟩ | hCommits
            · have hAfter := hApart rfl ⟨p, a, hRunning⟩ hMember hReturned q hq hRole hReads
              rw [hBefore] at hAfter
              cases hAfter
            · exact (hCommits p _ hRunning).step_ok hThread
          | error e => rwa [Thread.step_error hThread]
        · rw [Pool.after_thread_same] at hNow
          cases hNow

theorem rowsOf_acceptWrites (f t : TenantMembership) (x : OwnershipTransfer) :
    db.RowsOf (acceptWrites f t x db) :=
  (Db.rowsOf_setRole (some f) .admin).trans (Db.rowsOf_setRole (some t) .owner)

/-- After the transfer, what a request that has read no membership or is about another member is
still to commit leaves the new owner. -/
theorem OtherOpen.after_accept {f row t₀ : TenantMembership} {x : OwnershipTransfer}
    (hValid : w.db.Valid) (ht₀ : t₀ ∈ w.db.memberships) (hId : t₀.id = row.id)
    (hUser : t₀.userId = userId) (hOwner : (acceptWrites f row x w.db).OwnerRow tenantId row.id)
    (hCommit : (acceptWrites f row x w.db).Valid)
    (hUnread : request.memberId = some userId → ∀ q ∈ past, q.2 = .other → ¬ReadsMembership q)
    (h : OtherOpen w request past t) {p : Db → Db} {rest : App Response}
    (hRunning : t = .running p rest) :
    Commits (· = acceptWrites f row x w.db)
      (fun _ p => (p (acceptWrites f row x w.db)).OwnerRow tenantId row.id) p rest := by
  cases h with
  | raised => cases hRunning
  | running hSeen hRows hStart =>
    cases hRunning
    by_cases hSame : request.memberId = some userId
    · obtain ⟨rfl, -, hLater⟩ := hStart (hUnread hSame)
      refine (hLater (acceptWrites f row x w.db) ⟨rfl, rfl⟩).mono (fun _ hV => hV) fun _ p hp => ?_
      obtain ⟨_, -, hWrite⟩ := hp
      exact hWrite.keeps_seen hCommit hOwner
    · refine hRows.mono ?_ fun _ p hp => ?_
      · rintro _ rfl
        exact rowsOf_acceptWrites f row x
      · obtain ⟨subject, hSubject, hWrite⟩ := hp
        refine hWrite.keeps_other (fun seen hSeen member hMember hMine hRow => hSame ?_) hOwner
        obtain ⟨m₀, hm₀, hId₀, hUser₀, -⟩ := hSeen member hMember
        obtain rfl := hValid.membership_id hm₀ ht₀ (hId₀.trans (hRow.trans hId.symm))
        rw [hSubject, ← hMine, ← hUser₀, hUser]

theorem AcceptOpen.not_returned (h : AcceptOpen w request tenantId userId rowId past t) :
    t.returned = false := by
  cases h <;> rfl

/-- A statement of `accept_transfer`. -/
theorem RacePhase.step_accepting (hValid : w.db.Valid) (hOwned : w.db.OwnedBy tenantId owner)
    (hFinds : FindsMember tenantId r past (m, .accepting))
    (hBefore : ∀ q ∈ past, (q.1.thread .accepting).returned = true →
      (m.thread .accepting).returned = true)
    (h : RacePhase w tenantId userId owner.id r past m) (hStep : Requests.Step m .accepting m') :
    RacePhase w tenantId userId owner.id r (past ++ [(m, .accepting)]) m' := by
  obtain ⟨s, t, hThread, rfl⟩ := Pool.step_some hStep
  have hOther : (m.after .accepting s t).thread .other = m.thread .other :=
    Pool.after_thread_other (by decide)
  cases h with
  | neither hDb hAccept hOpen =>
    have hBeside : Beside w.db tenantId owner.id m.stores.db := by
      rw [hDb]
      exact .refl hOwned hValid
    rcases hAccept.step hBeside hFinds hThread with
      ⟨hSame, hNext⟩ | ⟨a, f, row, t₀, x, rfl, hMine, hId, ht₀, hId₀, hUser, hTenant, hNew, hCommit⟩
    · refine .neither (hSame.trans hDb) ?_ (hOther ▸ hOpen.other)
      rwa [Pool.after_thread_same]
    · rw [hDb] at hNew hBeside
      rw [hNew] at hCommit
      have hOwner : (acceptWrites f row x w.db).OwnerRow tenantId row.id :=
        accept_promotes (hId ▸ hBeside) hValid ht₀ hId₀ hTenant hCommit
      refine .accepted row.id ?_ ⟨a, Pool.after_thread_same⟩ ?_
      · rw [Pool.after_stores, hNew]
        exact hOwner
      · by_cases hRace : (r .other).memberId = some userId ∧
          ∃ q ∈ past, q.2 = .other ∧ ReadsMembership q
        · obtain ⟨hMember, q, hq, hRole, hReads⟩ := hRace
          refine .inl ⟨hMember.trans hMine.symm, q, List.mem_append_left _ hq, hRole, hReads, ?_⟩
          refine Bool.eq_false_iff.mpr fun hReturned => ?_
          rw [hAccept.not_returned] at hBefore
          cases hBefore q hq hReturned
        · refine .inr fun p rest hRunning => ?_
          rw [Pool.after_stores, hNew]
          exact hOpen.after_accept hValid ht₀ hId₀ hUser hOwner hCommit
            (fun hMember q hq hRole hReads => hRace ⟨hMember, q, hq, hRole, hReads⟩)
            (hOther.symm.trans hRunning)
  | changed hBeside hAccept hEnded =>
    rcases hAccept.step hBeside hFinds hThread with
      ⟨hSame, hNext⟩ | ⟨a, f, row, t₀, x, rfl, -, hId, ht₀, hId₀, hUser, hTenant, hNew, hCommit⟩
    · refine .changed ?_ ?_ (hOther ▸ hEnded)
      · rwa [Pool.after_stores, hSame]
      · rwa [Pool.after_thread_same]
    · rw [hNew] at hCommit
      refine .accepted row.id ?_ ⟨a, Pool.after_thread_same⟩ (.inr fun p rest hRunning => ?_)
      · rw [Pool.after_stores, hNew]
        exact accept_promotes (hId ▸ hBeside) hValid ht₀ hId₀ hTenant hCommit
      · obtain ⟨a, hEnded⟩ := hEnded
        rw [hOther, hEnded] at hRunning
        cases hRunning
  | accepted _ _ hEnded _ =>
    obtain ⟨a, hEnded⟩ := hEnded
    rw [hEnded] at hThread
    cases hThread

/-- A transfer accepted beside one removal, leave or change of role of a member, interleaved in any
way in which `accept_transfer` still finds the accepting member when it comes to promote them, and
no request about them commits after it on what it read before: the tenant has exactly one owner in
every state. -/
theorem ownership_survives {ctx : Party → Ctx} {token : Bearer} {header : Option String}
    {steps : List (Requests Party × Party)} (hValid : w.db.Valid)
    (hGoverned : w.db.Governed tenantId) (hAccept : r .accepting = .acceptTransfer token header)
    (hOther : (r .other).ChangesMember)
    (hNamed : ∀ tenant, (header.bind fun h => resolveTenant (ctx .accepting) h w.db) =
      some tenant → tenant.id = tenantId)
    (hRun : Run Requests.Step (Requests.start w ctx r) steps m)
    (hSafe : AtEach (AcceptsSafely tenantId r) steps) :
    ∃ owner, (m.stores.db.memberships.filter fun m =>
      m.tenantId = tenantId ∧ m.role = .owner) = [owner] := by
  obtain ⟨owner, hOwned⟩ := hGoverned
  obtain ⟨userId, hUser⟩ : ∃ userId, ∀ q, token = .signed q → q.sub = userId := by
    cases token with
    | signed q => exact ⟨q.sub, by rintro _ ⟨rfl⟩; rfl⟩
    | other => exact ⟨⟨0⟩, by simp⟩
  suffices hPhase : RacePhase w tenantId userId owner.id r steps m from
    hPhase.owned hOwned
  induction hRun with
  | nil =>
    have hStart : (Requests.start w ctx r).thread .accepting =
        .running id (transaction (ctx .accepting) (r .accepting)) := rfl
    refine .neither rfl ?_ (.start hOther)
    rw [hStart, hAccept]
    exact .guarding <| accept_leads hOwned hValid hUser hNamed
  | @snoc steps m m' i hRun hStep ih =>
    obtain ⟨hEarlier, hFinds, hApart⟩ := atEach_snoc.mp hSafe
    cases i with
    | accepting =>
      exact (ih hEarlier).step_accepting hValid hOwned hFinds
        (fun q hq => Pool.returned_since hRun hq) hStep
    | other => exact (ih hEarlier).step_other hValid hOwned hApart hStep

end Pool

/-! ### A handover -/

/-- The owner of the workspace hands it over to its admin. -/
def handover : Sys := ((sampleStart
  { users := [sampleUser, { sampleUser with id := ⟨2⟩, email := "bob@example.com" }]
    tenants := [⟨⟨5⟩, "Acme", "acme", false, none, false, false⟩]
    memberships := [⟨⟨10⟩, ⟨1⟩, ⟨5⟩, .owner, true, false, none, 0⟩,
      ⟨⟨11⟩, ⟨2⟩, ⟨5⟩, .admin, false, false, none, 0⟩] }).sample (seconds 20)
    (.initiateTransfer (.signed signedInToken) (some "acme") ⟨2⟩)).2

def handoverContexts (i : Party) : Ctx :=
  ⟨sampleConfig, seconds 30, sampleDraws (if i = .accepting then 1 else 2)⟩

/-- The admin accepts, beside a request of the owner. -/
def handoverBeside (other : Request) : Party → Request
  | .accepting => .acceptTransfer (.signed { signedInToken with sub := ⟨2⟩ }) (some "acme")
  | .other => other

def handoverStart (other : Request) : Requests Party :=
  .start handover.world handoverContexts (handoverBeside other)

def removesAdmin : Request := .removeMember (.signed signedInToken) (some "acme") ⟨2⟩

def demotesAdmin : Request :=
  .changeMemberRole (.signed signedInToken) (some "acme") ⟨2⟩
    ⟨⟨.viewer, MemberRole.viewer_ne_owner⟩, none⟩

/-- The schedule in which the other request runs after the guard of the transfer. -/
def afterGuard : List Party :=
  List.replicate 5 .accepting ++ List.replicate 12 .other ++ List.replicate 12 .accepting

theorem handover_governed : handover.world.db.Governed ⟨5⟩ :=
  ⟨⟨⟨10⟩, ⟨1⟩, ⟨5⟩, .owner, true, false, none, 0⟩, ⟨rfl, by decide⟩⟩

theorem handover_named : ∀ tenant, ((some "acme").bind fun h =>
    resolveTenant (handoverContexts .accepting) h handover.world.db) = some tenant →
      tenant.id = ⟨5⟩ := by
  intro tenant h
  rw [show ((some "acme").bind fun h => resolveTenant (handoverContexts .accepting) h
    handover.world.db) = some ⟨⟨5⟩, "Acme", "acme", false, none, false, false⟩ from rfl] at h
  cases h
  rfl

theorem removesAdmin_changes : removesAdmin.ChangesMember :=
  .inr (.inl ⟨.signed signedInToken, some "acme", ⟨2⟩, rfl⟩)

theorem demotesAdmin_changes : demotesAdmin.ChangesMember :=
  .inl ⟨.signed signedInToken, some "acme", ⟨2⟩, _, rfl⟩

/-- The removal of the accepting admin after the guard of the transfer leaves a workspace without an
owner, and both requests have succeeded. -/
theorem ownership_lost :
    ¬∀ (tenantId : Uuid) (w : World) (ctx : Party → Ctx) (r : Party → Request) (token : Bearer)
        (header : Option String) (steps : List (Requests Party × Party)) (m : Requests Party),
        w.db.Valid → w.db.Governed tenantId → r .accepting = .acceptTransfer token header →
        (r .other).ChangesMember →
        (∀ tenant, (header.bind fun h => resolveTenant (ctx .accepting) h w.db) = some tenant →
          tenant.id = tenantId) →
        Run Requests.Step (Requests.start w ctx r) steps m →
        (∀ i, (m.thread i).isEnded = true) →
        ∃ owner, (m.stores.db.memberships.filter fun m =>
          m.tenantId = tenantId ∧ m.role = .owner) = [owner] := by
  intro hClaim
  have hRun := Requests.run_trace afterGuard (handoverStart removesAdmin)
  obtain ⟨owner, hOwner⟩ := hClaim ⟨5⟩ handover.world handoverContexts
    (handoverBeside removesAdmin) _ _ _ _ (by decide) handover_governed rfl removesAdmin_changes
    handover_named hRun (fun i => by cases i <;> decide)
  have hNone : (((handoverStart removesAdmin).trace afterGuard).2.stores.db.memberships.filter
      fun m => m.tenantId = ⟨5⟩ ∧ m.role = .owner) = [] := by decide
  rw [hNone] at hOwner
  cases hOwner

theorem demotesAdmin_safely :
    AtEach (AcceptsSafely ⟨5⟩ (handoverBeside demotesAdmin))
      ((handoverStart demotesAdmin).trace afterGuard).1 := by
  have hStays : AtEach (fun _ step => (step.1.stores.db.membership ⟨2⟩ ⟨5⟩).isSome = true ∧
      (step.2 = .other → (step.1.thread .accepting).returned = false))
      ((handoverStart demotesAdmin).trace afterGuard).1 := by decide
  refine hStays.mono fun past step h => ⟨fun _ _ _ userId hUser => ?_, fun hOther _ _ hReturned => ?_⟩
  · cases hUser
    exact h.1
  · rw [h.2 hOther] at hReturned
    cases hReturned

/-- The law where the owner changes the role of the accepting admin after the guard. -/
theorem ownership_survives_demotesAdmin :
    ∃ owner, (((handoverStart demotesAdmin).trace afterGuard).2.stores.db.memberships.filter
      fun m => m.tenantId = ⟨5⟩ ∧ m.role = .owner) = [owner] :=
  have hRun := Requests.run_trace afterGuard (handoverStart demotesAdmin)
  ownership_survives (by decide) handover_governed rfl demotesAdmin_changes handover_named hRun
    demotesAdmin_safely

end WxcodeAdm
