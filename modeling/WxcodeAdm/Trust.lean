import WxcodeAdm.Auth.Jwt
import WxcodeAdm.Lib.Grows

/-! What any request may do to the artefacts that users are trusted by.  Refresh tokens and trusted
devices come only from the values that the request draws, a user keeps `is_active` and
`is_superuser`, no invitation comes to offer the owner role, and a jti that is blacklisted for the
rest of its token's life stays so.  Every handler stays within this relation, so every run does. -/

namespace WxcodeAdm

open Lib

variable {c : Ctx} {db db' : Db}

def Config.accessTtl (cfg : Config) : Nat := hours cfg.settings.accessTokenTtlHours

/-- What no request changes about a user. -/
def User.standing (u : User) : Bool × Bool := (u.isActive, u.isSuperuser)

/-- Every user is still there, and as active and as privileged as before. -/
def KeepsUsers (db db' : Db) : Prop :=
  ∀ id u, db.user id = some u → ∃ u', db'.user id = some u' ∧ u'.standing = u.standing

theorem KeepsUsers.refl (db : Db) : KeepsUsers db db := fun _ u h => ⟨u, h, rfl⟩

theorem KeepsUsers.trans {db'' : Db} (h : KeepsUsers db db') (h' : KeepsUsers db' db'') :
    KeepsUsers db db'' := fun id u hu => by
  obtain ⟨v, hv, hva⟩ := h id u hu
  obtain ⟨w, hw, hwa⟩ := h' id v hv
  exact ⟨w, hw, hwa.trans hva⟩

theorem KeepsUsers.of_eq (h : db'.users = db.users) : KeepsUsers db db' := fun id u hu =>
  ⟨u, by rwa [Db.user, h], rfl⟩

theorem KeepsUsers.updateUser {id : Uuid} {f : User → User} (hId : ∀ u, (f u).id = u.id)
    (hStanding : ∀ u, (f u).standing = u.standing) : KeepsUsers db (db.updateUser id f) :=
  fun i u hu => by
    refine ⟨if u.id = id then f u else u, ?_, by split <;> simp [hStanding]⟩
    rw [Db.user_updateUser hId, hu, Option.map_some]

theorem KeepsUsers.append (new : List User) :
    KeepsUsers db { db with users := db.users ++ new } := fun id u hu => by
  simp only [Db.user] at hu
  exact ⟨u, by simp [Db.user, List.find?_append, hu], rfl⟩

theorem KeepsUsers.hasUser {id : Uuid} (h : KeepsUsers db db') (hValid : db.Valid)
    (hHas : db.HasUser id) : db'.HasUser id := by
  obtain ⟨u, hu, rfl⟩ := hHas
  obtain ⟨u', hu', -⟩ := h u.id u (hValid.user_of_mem hu)
  exact ⟨u', Db.user_mem hu', Db.user_id hu'⟩

/-- What a handler may do beyond what every handler may: create a refresh token, change the members
and transfers of a tenant, or record a TOTP code as used. -/
inductive Power where
  | issue
  | tenancy
  | totp

/-- The tables that say who belongs to which tenant. -/
def Db.tenancy (db : Db) :
    List TenantMembership × List OwnershipTransfer × List Invitation × List Uuid :=
  (db.memberships, db.transfers, db.invitations, db.tenants.map fun t => t.id)

def Db.InvitesNoOwner (db : Db) : Prop := ∀ i ∈ db.invitations, i.role ≠ .owner

/-- The tables that `Evolves` speaks of. -/
def Db.trust (db : Db) := (db.users, db.refreshTokens, db.trustedDevices, db.tenancy)

/-- The keys of Redis that `Evolves` speaks of. -/
def Redis.trust (r : Redis) : Expiring Uuid Unit × Expiring Uuid String := (r.blacklist, r.mfaUsed)

variable {P : Power → Prop}

def nonIssuing (p : Power) : Prop := p ≠ .issue

/-- What a request in `c` with the powers `P` may do to the stores. -/
structure Evolves (c : Ctx) (P : Power → Prop) (s s' : World) : Prop where
  refreshTokens : Grows (fun r => P .issue ∧ r.token = c.draws.refreshToken) s.db.refreshTokens
    s'.db.refreshTokens
  trustedDevices : Grows (fun d => d.tokenHash = c.lib.sha256 c.draws.deviceToken)
    s.db.trustedDevices s'.db.trustedDevices
  users : KeepsUsers s.db s'.db
  tenancy : P .tenancy ∨ s'.db.tenancy = s.db.tenancy
  invitations : s.db.InvitesNoOwner → s'.db.InvitesNoOwner
  blacklist : ∀ jti bound, bound ≤ c.now + c.accessTtl → s.cache.blacklist.Covers jti bound →
    s'.cache.blacklist.Covers jti bound
  mfaUsed : P .totp ∨ s'.cache.mfaUsed = s.cache.mfaUsed

namespace Evolves

theorem refl (s : World) : Evolves c P s s :=
  ⟨.refl _, .refl _, .refl s.db, .inr rfl, id, fun _ _ _ h => h, .inr rfl⟩

theorem trans {s m s' : World} (h : Evolves c P s m) (h' : Evolves c P m s') :
    Evolves c P s s' where
  refreshTokens := h.refreshTokens.trans h'.refreshTokens
  trustedDevices := h.trustedDevices.trans h'.trustedDevices
  users := h.users.trans h'.users
  tenancy := by
    rcases h.tenancy with hp | hm
    · exact .inl hp
    · exact h'.tenancy.imp id fun h' => h'.trans hm
  invitations := h'.invitations ∘ h.invitations
  blacklist := fun jti bound hb hc => h'.blacklist jti bound hb (h.blacklist jti bound hb hc)
  mfaUsed := by
    rcases h.mfaUsed with hp | hm
    · exact .inl hp
    · exact h'.mfaUsed.imp id fun h' => h'.trans hm

instance : Std.Refl (Evolves c P) := ⟨refl⟩

instance : IsTrans World (Evolves c P) := ⟨fun _ _ _ => trans⟩

theorem refreshTokens_subset {s s' : World} (h : Evolves c P s s') (hP : ¬P .issue) :
    s'.db.refreshTokens ⊆ s.db.refreshTokens :=
  h.refreshTokens.subset fun _ hr => hP hr.1

theorem rollback {s s' : World} (h : Evolves c P s s') : Evolves c P s { s' with db := s.db } :=
  { refl s with blacklist := h.blacklist, mfaUsed := h.mfaUsed }

theorem exec_frame {f : Db → Db} (h : ∀ db, (f db).trust = db.trust) :
    Handler.Within (Evolves c P) (.exec f : App Unit) := .exec fun s => by
  obtain ⟨hUsers, hTokens, hDevices, hTenancy⟩ := by simpa [Db.trust] using h s.db
  exact { refl s with
    refreshTokens := .of_subset (hTokens ▸ List.Subset.refl _)
    trustedDevices := .of_subset (hDevices ▸ List.Subset.refl _)
    users := .of_eq hUsers
    tenancy := .inr hTenancy
    invitations := fun h i hi => by
      simp only [Db.tenancy, Prod.mk.injEq] at hTenancy
      exact h i (hTenancy.2.2.1 ▸ hi) }

theorem deleteRefreshTokens (p : RefreshToken → Bool) :
    Handler.Within (Evolves c P) (.exec fun db => db.deleteRefreshTokens p : App Unit) :=
  .exec fun s => { refl s with refreshTokens := .filter _ }

theorem updateUser {id : Uuid} {f : User → User} (hId : ∀ u, (f u).id = u.id)
    (hStanding : ∀ u, (f u).standing = u.standing) :
    Handler.Within (Evolves c P) (.exec fun db => db.updateUser id f : App Unit) :=
  .exec fun s => { refl s with users := .updateUser hId hStanding }

theorem exec_tenancy (hP : P .tenancy) {f : Db → Db}
    (h : ∀ db, (f db).users = db.users ∧ (f db).refreshTokens = db.refreshTokens ∧
      (f db).trustedDevices = db.trustedDevices ∧ (db.InvitesNoOwner → (f db).InvitesNoOwner)) :
    Handler.Within (Evolves c P) (.exec f : App Unit) := .exec fun s => by
  obtain ⟨hUsers, hTokens, hDevices, hInvitations⟩ := h s.db
  exact { refl s with
    refreshTokens := .of_subset (hTokens ▸ List.Subset.refl _)
    trustedDevices := .of_subset (hDevices ▸ List.Subset.refl _)
    users := .of_eq hUsers
    tenancy := .inl hP
    invitations := hInvitations }

theorem updateTenant {id : Uuid} {f : Tenant → Tenant} (hId : ∀ t, (f t).id = t.id) :
    Handler.Within (Evolves c P) (.exec fun db => db.updateTenant id f : App Unit) :=
  exec_frame fun db => by
    have hIds : (db.updateTenant id f).tenants.map (fun t => t.id) =
        db.tenants.map fun t => t.id := Db.map_update hId _
    simp only [Db.trust, Db.tenancy, hIds]
    rfl

theorem flush : Handler.Within (Evolves c P) flush := .bind (.query _) fun _ => .ensure _ _

theorem cache_frame {s : World} {r : Redis} (h : r.trust = s.cache.trust) :
    Evolves c P s { s with cache := r } := by
  obtain ⟨hBlack, hUsed⟩ := by simpa [Redis.trust] using h
  exact { refl s with
    blacklist := fun _ _ _ hc => by rwa [hBlack]
    mfaUsed := .inr hUsed }

theorem store_frame {f : Redis → Redis} (h : ∀ r, (f r).trust = r.trust) :
    Handler.Within (Evolves c P) (.store f : App Unit) := .store fun s => cache_frame (h s.cache)

theorem exchange_frame {α : Type} {g : Redis → α} {f : Redis → Redis}
    (h : ∀ r, (f r).trust = r.trust) : Handler.Within (Evolves c P) (.exchange g f : App α) :=
  .exchange fun s => cache_frame (h s.cache)

theorem enqueueJob (job : Job) : Handler.Within (Evolves c P) (enqueueJob job) :=
  store_frame fun _ => rfl

end Evolves

end WxcodeAdm
