import Mathlib.Data.List.Nodup
import WxcodeAdm.Lib.Expiring

/-! The rows of the database, the keys of Redis and the jobs of the arq queue, with the columns
that the modelled functions read or write.  Times are microseconds since the epoch, as
`datetime.now(timezone.utc)` counts them. -/

namespace WxcodeAdm

structure Uuid where
  toNat : Nat
  deriving DecidableEq, Repr, Inhabited

def seconds (n : Nat) : Nat := 1000000 * n

def hours (n : Nat) : Nat := seconds (3600 * n)

def days (n : Nat) : Nat := seconds (86400 * n)

/-- The whole seconds of an instant, as a JWT or a signed token stores it. -/
def timestamp (t : Nat) : Nat := t / 1000000

/-- A text that a VARCHAR column of `width` characters takes.  PostgreSQL stores no U+0000; it cuts
off spaces that are too many, but no header value ends in one, and no name is too long. -/
def Varchar (width : Nat) (text : String) : Prop :=
  text.length ≤ width ∧ Char.ofNat 0 ∉ text.toList

instance (width : Nat) (text : String) : Decidable (Varchar width text) :=
  inferInstanceAs (Decidable (_ ∧ _))

/-- A number that an INTEGER column takes. -/
def Int4 (n : Int) : Prop := -2147483648 ≤ n ∧ n < 2147483648

instance (n : Int) : Decidable (Int4 n) := inferInstanceAs (Decidable (_ ∧ _))

inductive MemberRole where
  | owner
  | admin
  | developer
  | viewer
  deriving DecidableEq, Repr, Inhabited

def MemberRole.level : MemberRole → Nat
  | .owner => 4
  | .admin => 3
  | .developer => 2
  | .viewer => 1

def MemberRole.value : MemberRole → String
  | .owner => "owner"
  | .admin => "admin"
  | .developer => "developer"
  | .viewer => "viewer"

inductive SubscriptionStatus where
  | free
  | active
  | pastDue
  | canceled
  deriving DecidableEq, Repr, Inhabited

structure User where
  id : Uuid
  email : String
  passwordHash : Option String
  emailVerified : Bool := false
  isActive : Bool := true
  isSuperuser : Bool := false
  mfaEnabled : Bool := false
  mfaSecret : Option String := none
  passwordResetRequired : Bool := false
  displayName : Option String := none
  lastUsedTenantId : Option Uuid := none
  deriving DecidableEq, Repr

structure RefreshToken where
  id : Uuid
  token : String
  userId : Uuid
  expiresAt : Nat
  deriving DecidableEq, Repr

structure OAuthAccount where
  userId : Uuid
  provider : String
  providerUserId : String
  deriving DecidableEq, Repr

structure MfaBackupCode where
  id : Uuid
  userId : Uuid
  codeHash : String
  usedAt : Option Nat := none
  deriving DecidableEq, Repr

structure TrustedDevice where
  id : Uuid
  userId : Uuid
  tokenHash : String
  expiresAt : Nat
  deriving DecidableEq, Repr

/-- What `parse_session_metadata` reads from a request. -/
structure SessionMeta where
  userAgent : Option String := none
  deviceType : Option String := none
  browserName : Option String := none
  browserVersion : Option String := none
  ipAddress : Option String := none
  city : Option String := none
  deriving DecidableEq, Repr

/-- The widths of the columns of `user_sessions`. -/
def SessionMeta.Fits (info : SessionMeta) : Prop :=
  (∀ text ∈ info.userAgent, Varchar 512 text) ∧ (∀ text ∈ info.deviceType, Varchar 20 text) ∧
  (∀ text ∈ info.browserName, Varchar 100 text) ∧ (∀ text ∈ info.browserVersion, Varchar 50 text) ∧
  (∀ text ∈ info.ipAddress, Varchar 45 text) ∧ ∀ text ∈ info.city, Varchar 100 text

instance (info : SessionMeta) : Decidable info.Fits :=
  inferInstanceAs (Decidable (_ ∧ _ ∧ _ ∧ _ ∧ _ ∧ _))

structure UserSession where
  id : Uuid
  refreshTokenId : Uuid
  userId : Uuid
  accessTokenJti : Uuid
  info : SessionMeta
  lastActiveAt : Option Nat
  createdAt : Nat
  deriving DecidableEq, Repr

structure Tenant where
  id : Uuid
  name : String
  slug : String
  mfaEnforced : Bool := false
  wxcodeUrl : Option String := none
  isSuspended : Bool := false
  isDeleted : Bool := false
  deriving DecidableEq, Repr

/-- The texts of a tenant that a request brings. -/
def Tenant.Fits (t : Tenant) : Prop :=
  Varchar 255 t.name ∧ Varchar 100 t.slug ∧ ∀ url ∈ t.wxcodeUrl, Varchar 2048 url

instance (t : Tenant) : Decidable t.Fits := inferInstanceAs (Decidable (_ ∧ _ ∧ _))

structure TenantMembership where
  id : Uuid
  userId : Uuid
  tenantId : Uuid
  role : MemberRole
  billingAccess : Bool := false
  isBlocked : Bool := false
  invitedById : Option Uuid := none
  createdAt : Nat
  deriving DecidableEq, Repr

structure Invitation where
  id : Uuid
  email : String
  tenantId : Uuid
  role : MemberRole
  billingAccess : Bool
  tokenHash : String
  invitedById : Uuid
  expiresAt : Nat
  acceptedAt : Option Nat := none
  deriving DecidableEq, Repr

structure OwnershipTransfer where
  id : Uuid
  tenantId : Uuid
  fromUserId : Uuid
  toUserId : Uuid
  expiresAt : Nat
  deriving DecidableEq, Repr

structure Plan where
  id : Uuid
  name : String := ""
  slug : String := ""
  stripeProductId : Option String := none
  stripePriceId : Option String := none
  stripeMeterId : Option String := none
  stripeOveragePriceId : Option String := none
  monthlyFeeCents : Nat
  tokenQuota5h : Nat := 0
  tokenQuotaWeekly : Nat := 0
  overageRateCentsPerToken : Nat := 0
  memberCap : Int
  maxProjects : Nat := 5
  maxOutputProjects : Nat := 20
  maxStorageGb : Nat := 10
  isActive : Bool := true
  createdAt : Nat
  deriving DecidableEq, Repr

/-- The texts and the numbers of a plan that a request brings. -/
def Plan.Fits (p : Plan) : Prop :=
  Varchar 100 p.name ∧ Varchar 100 p.slug ∧ Int4 p.memberCap ∧
  ∀ n ∈ [p.monthlyFeeCents, p.tokenQuota5h, p.tokenQuotaWeekly, p.overageRateCentsPerToken,
    p.maxProjects, p.maxOutputProjects, p.maxStorageGb], Int4 n

instance (p : Plan) : Decidable p.Fits := inferInstanceAs (Decidable (_ ∧ _ ∧ _ ∧ _))

structure TenantSubscription where
  tenantId : Uuid
  planId : Uuid
  stripeCustomerId : Option String := none
  stripeSubscriptionId : Option String := none
  status : SubscriptionStatus
  currentPeriodStart : Option Int := none
  currentPeriodEnd : Option Int := none
  tokensUsedThisPeriod : Nat := 0
  deriving DecidableEq, Repr

structure WebhookEvent where
  stripeEventId : String
  eventType : String
  processedAt : Nat
  deriving DecidableEq, Repr

structure Db where
  users : List User := []
  refreshTokens : List RefreshToken := []
  oauthAccounts : List OAuthAccount := []
  backupCodes : List MfaBackupCode := []
  trustedDevices : List TrustedDevice := []
  sessions : List UserSession := []
  tenants : List Tenant := []
  memberships : List TenantMembership := []
  invitations : List Invitation := []
  transfers : List OwnershipTransfer := []
  plans : List Plan := []
  subscriptions : List TenantSubscription := []
  webhookEvents : List WebhookEvent := []
  -- An UPDATE by primary key has found its row gone, which makes the flush raise.
  stale : Bool := false

namespace Db

variable (db : Db)

def user (id : Uuid) : Option User := db.users.find? fun u => u.id = id

def userByEmail (email : String) : Option User := db.users.find? fun u => u.email = email

def updateUser (id : Uuid) (f : User → User) : Db :=
  { db with users := db.users.map fun u => if u.id = id then f u else u }

def refreshToken (token : String) : Option RefreshToken :=
  db.refreshTokens.find? fun r => r.token = token

/-- Deletes refresh tokens.  `user_sessions.refresh_token_id` is `ON DELETE CASCADE`, so their
sessions go with them. -/
def deleteRefreshTokens (p : RefreshToken → Bool) : Db :=
  { db with
    refreshTokens := db.refreshTokens.filter fun r => !p r
    sessions := db.sessions.filter fun s =>
      !db.refreshTokens.any fun r => p r && decide (r.id = s.refreshTokenId) }

def addRefreshToken (r : RefreshToken) : Db := { db with refreshTokens := db.refreshTokens ++ [r] }

def addSession (s : UserSession) : Db := { db with sessions := db.sessions ++ [s] }

/-- An UPDATE by primary key, as `updateMembership` below. -/
def updateBackupCode (id : Uuid) (f : MfaBackupCode → MfaBackupCode) : Db :=
  { db with
    backupCodes := db.backupCodes.map fun b => if b.id = id then f b else b
    stale := db.stale || !db.backupCodes.any fun b => b.id = id }

def tenant (id : Uuid) : Option Tenant := db.tenants.find? fun t => t.id = id

def tenantBySlug (slug : String) : Option Tenant := db.tenants.find? fun t => t.slug = slug

def updateTenant (id : Uuid) (f : Tenant → Tenant) : Db :=
  { db with tenants := db.tenants.map fun t => if t.id = id then f t else t }

def membership (userId tenantId : Uuid) : Option TenantMembership :=
  db.memberships.find? fun m => m.userId = userId ∧ m.tenantId = tenantId

def updateMembership (id : Uuid) (f : TenantMembership → TenantMembership) : Db :=
  { db with
    memberships := db.memberships.map fun m => if m.id = id then f m else m
    stale := db.stale || !db.memberships.any fun m => m.id = id }

/-- The UPDATE of a membership: the columns whose values are not the ones loaded. -/
def saveMembership (loaded changed : TenantMembership) : Db :=
  if changed = loaded then db
  else db.updateMembership loaded.id fun m => { m with
    role := if changed.role = loaded.role then m.role else changed.role
    billingAccess := if changed.billingAccess = loaded.billingAccess then m.billingAccess
      else changed.billingAccess }

def deleteMembership (id : Uuid) : Db :=
  { db with memberships := db.memberships.filter fun m => m.id ≠ id }

def setRole (membership : Option TenantMembership) (role : MemberRole) : Db :=
  match membership with
  | some m => db.updateMembership m.id fun m => { m with role }
  | none => db

def transferOf (tenantId : Uuid) : Option OwnershipTransfer :=
  db.transfers.find? fun x => x.tenantId = tenantId

def deleteTransfers (p : OwnershipTransfer → Bool) : Db :=
  { db with transfers := db.transfers.filter fun x => !p x }

/-- `ORDER BY created_at DESC LIMIT 1` over the memberships of a user. -/
def latestMembership (userId : Uuid) : Option TenantMembership :=
  (db.memberships.filter fun m => m.userId = userId).foldl
    (fun best m => match best with
      | some b => if b.createdAt < m.createdAt then some m else some b
      | none => some m) none

def subscriptionOf (tenantId : Uuid) : Option TenantSubscription :=
  db.subscriptions.find? fun s => s.tenantId = tenantId

def plan (id : Uuid) : Option Plan := db.plans.find? fun p => p.id = id

/-- `WHERE monthly_fee_cents = 0 AND is_active ORDER BY created_at ASC LIMIT 1` -/
def freePlan : Option Plan :=
  (db.plans.filter fun p => p.monthlyFeeCents = 0 ∧ p.isActive).foldl
    (fun oldest p => match oldest with
      | some q => if p.createdAt < q.createdAt then some p else some q
      | none => some p) none

def updateSubscription (tenantId : Uuid) (f : TenantSubscription → TenantSubscription) : Db :=
  { db with subscriptions := db.subscriptions.map fun s => if s.tenantId = tenantId then f s else s }

def memberIds (tenantId : Uuid) : List Uuid :=
  (db.memberships.filter fun m => m.tenantId = tenantId).map fun m => m.userId

def sessionJtis (userIds : List Uuid) : List Uuid :=
  (db.sessions.filter fun s => s.userId ∈ userIds).map fun s => s.accessTokenJti

def HasUser (id : Uuid) : Prop := ∃ u ∈ db.users, u.id = id

instance (id : Uuid) : Decidable (db.HasUser id) := inferInstanceAs (Decidable (∃ _ ∈ _, _))

def HasTenant (id : Uuid) : Prop := ∃ t ∈ db.tenants, t.id = id

instance (id : Uuid) : Decidable (db.HasTenant id) := inferInstanceAs (Decidable (∃ _ ∈ _, _))

/-- The primary keys and the unique constraints that the migrations declare. -/
structure UniqueKeys : Prop where
  userId : (db.users.map fun u => u.id).Nodup
  userEmail : (db.users.map fun u => u.email).Nodup
  refreshTokenId : (db.refreshTokens.map fun r => r.id).Nodup
  refreshToken : (db.refreshTokens.map fun r => r.token).Nodup
  oauthProviderUser : (db.oauthAccounts.map fun a => (a.provider, a.providerUserId)).Nodup
  oauthUserProvider : (db.oauthAccounts.map fun a => (a.userId, a.provider)).Nodup
  backupCodeId : (db.backupCodes.map fun b => b.id).Nodup
  deviceId : (db.trustedDevices.map fun d => d.id).Nodup
  deviceTokenHash : (db.trustedDevices.map fun d => d.tokenHash).Nodup
  sessionId : (db.sessions.map fun s => s.id).Nodup
  sessionRefreshTokenId : (db.sessions.map fun s => s.refreshTokenId).Nodup
  sessionJti : (db.sessions.map fun s => s.accessTokenJti).Nodup
  tenantId : (db.tenants.map fun t => t.id).Nodup
  tenantSlug : (db.tenants.map fun t => t.slug).Nodup
  membershipId : (db.memberships.map fun m => m.id).Nodup
  membershipUserTenant : (db.memberships.map fun m => (m.userId, m.tenantId)).Nodup
  invitationId : (db.invitations.map fun i => i.id).Nodup
  invitationEmailTenant : (db.invitations.map fun i => (i.email, i.tenantId)).Nodup
  transferId : (db.transfers.map fun x => x.id).Nodup
  transferTenantId : (db.transfers.map fun x => x.tenantId).Nodup
  planId : (db.plans.map fun p => p.id).Nodup
  planSlug : (db.plans.map fun p => p.slug).Nodup
  subscriptionTenantId : (db.subscriptions.map fun s => s.tenantId).Nodup
  stripeEventId : (db.webhookEvents.map fun e => e.stripeEventId).Nodup

/-- The foreign keys that the migrations declare. -/
structure ForeignKeys : Prop where
  lastUsedTenant : ∀ u ∈ db.users, ∀ id ∈ u.lastUsedTenantId, db.HasTenant id
  refreshTokenUser : ∀ r ∈ db.refreshTokens, db.HasUser r.userId
  oauthUser : ∀ a ∈ db.oauthAccounts, db.HasUser a.userId
  backupCodeUser : ∀ b ∈ db.backupCodes, db.HasUser b.userId
  deviceUser : ∀ d ∈ db.trustedDevices, db.HasUser d.userId
  sessionUser : ∀ s ∈ db.sessions, db.HasUser s.userId
  sessionRefreshToken : ∀ s ∈ db.sessions, ∃ r ∈ db.refreshTokens, r.id = s.refreshTokenId
  membershipUser : ∀ m ∈ db.memberships, db.HasUser m.userId
  membershipTenant : ∀ m ∈ db.memberships, db.HasTenant m.tenantId
  membershipInvitedBy : ∀ m ∈ db.memberships, ∀ id ∈ m.invitedById, db.HasUser id
  invitationTenant : ∀ i ∈ db.invitations, db.HasTenant i.tenantId
  invitationInvitedBy : ∀ i ∈ db.invitations, db.HasUser i.invitedById
  transferTenant : ∀ x ∈ db.transfers, db.HasTenant x.tenantId
  transferUsers : ∀ x ∈ db.transfers, db.HasUser x.fromUserId ∧ db.HasUser x.toUserId
  subscriptionTenant : ∀ s ∈ db.subscriptions, db.HasTenant s.tenantId
  subscriptionPlan : ∀ s ∈ db.subscriptions, ∃ p ∈ db.plans, p.id = s.planId

/-- The types of the columns, where a request brings a text or a number that no schema bounds by
them.  What Stripe and the OAuth providers answer fits. -/
structure Columns : Prop where
  userAddress : ∀ u ∈ db.users, Varchar 320 u.email
  userName : ∀ u ∈ db.users, ∀ name ∈ u.displayName, Varchar 255 name
  sessionInfo : ∀ s ∈ db.sessions, s.info.Fits
  tenantText : ∀ t ∈ db.tenants, t.Fits
  planValues : ∀ p ∈ db.plans, p.Fits

/-- What a flush asks for: the constraints and the types that the migrations declare, on the columns
above, and that every UPDATE has found its row. -/
structure Valid : Prop extends db.UniqueKeys, db.ForeignKeys, db.Columns where
  matched : db.stale = false

instance : Decidable db.UniqueKeys :=
  decidable_of_iff
    ((db.users.map fun u => u.id).Nodup ∧ (db.users.map fun u => u.email).Nodup ∧
      (db.refreshTokens.map fun r => r.id).Nodup ∧ (db.refreshTokens.map fun r => r.token).Nodup ∧
      (db.oauthAccounts.map fun a => (a.provider, a.providerUserId)).Nodup ∧
      (db.oauthAccounts.map fun a => (a.userId, a.provider)).Nodup ∧
      (db.backupCodes.map fun b => b.id).Nodup ∧ (db.trustedDevices.map fun d => d.id).Nodup ∧
      (db.trustedDevices.map fun d => d.tokenHash).Nodup ∧
      (db.sessions.map fun s => s.id).Nodup ∧
      (db.sessions.map fun s => s.refreshTokenId).Nodup ∧
      (db.sessions.map fun s => s.accessTokenJti).Nodup ∧
      (db.tenants.map fun t => t.id).Nodup ∧ (db.tenants.map fun t => t.slug).Nodup ∧
      (db.memberships.map fun m => m.id).Nodup ∧
      (db.memberships.map fun m => (m.userId, m.tenantId)).Nodup ∧
      (db.invitations.map fun i => i.id).Nodup ∧
      (db.invitations.map fun i => (i.email, i.tenantId)).Nodup ∧
      (db.transfers.map fun x => x.id).Nodup ∧ (db.transfers.map fun x => x.tenantId).Nodup ∧
      (db.plans.map fun p => p.id).Nodup ∧ (db.plans.map fun p => p.slug).Nodup ∧
      (db.subscriptions.map fun s => s.tenantId).Nodup ∧
      (db.webhookEvents.map fun e => e.stripeEventId).Nodup)
    ⟨fun ⟨h1, h2, h3, h4, h5, h6, h7, h8, h9, h10, h11, h12, h13, h14, h15, h16, h17, h18, h19, h20,
        h21, h22, h23, h24⟩ =>
      ⟨h1, h2, h3, h4, h5, h6, h7, h8, h9, h10, h11, h12, h13, h14, h15, h16, h17, h18, h19, h20,
        h21, h22, h23, h24⟩,
      fun h => ⟨h.1, h.2, h.3, h.4, h.5, h.6, h.7, h.8, h.9, h.10, h.11, h.12, h.13, h.14, h.15,
        h.16, h.17, h.18, h.19, h.20, h.21, h.22, h.23, h.24⟩⟩

instance : Decidable db.ForeignKeys :=
  decidable_of_iff
    ((∀ u ∈ db.users, ∀ id ∈ u.lastUsedTenantId, db.HasTenant id) ∧
      (∀ r ∈ db.refreshTokens, db.HasUser r.userId) ∧
      (∀ a ∈ db.oauthAccounts, db.HasUser a.userId) ∧
      (∀ b ∈ db.backupCodes, db.HasUser b.userId) ∧
      (∀ d ∈ db.trustedDevices, db.HasUser d.userId) ∧
      (∀ s ∈ db.sessions, db.HasUser s.userId) ∧
      (∀ s ∈ db.sessions, ∃ r ∈ db.refreshTokens, r.id = s.refreshTokenId) ∧
      (∀ m ∈ db.memberships, db.HasUser m.userId) ∧
      (∀ m ∈ db.memberships, db.HasTenant m.tenantId) ∧
      (∀ m ∈ db.memberships, ∀ id ∈ m.invitedById, db.HasUser id) ∧
      (∀ i ∈ db.invitations, db.HasTenant i.tenantId) ∧
      (∀ i ∈ db.invitations, db.HasUser i.invitedById) ∧
      (∀ x ∈ db.transfers, db.HasTenant x.tenantId) ∧
      (∀ x ∈ db.transfers, db.HasUser x.fromUserId ∧ db.HasUser x.toUserId) ∧
      (∀ s ∈ db.subscriptions, db.HasTenant s.tenantId) ∧
      (∀ s ∈ db.subscriptions, ∃ p ∈ db.plans, p.id = s.planId))
    ⟨fun ⟨h1, h2, h3, h4, h5, h6, h7, h8, h9, h10, h11, h12, h13, h14, h15, h16⟩ =>
      ⟨h1, h2, h3, h4, h5, h6, h7, h8, h9, h10, h11, h12, h13, h14, h15, h16⟩,
      fun h => ⟨h.1, h.2, h.3, h.4, h.5, h.6, h.7, h.8, h.9, h.10, h.11, h.12, h.13, h.14, h.15,
        h.16⟩⟩

instance : Decidable db.Columns :=
  decidable_of_iff
    ((∀ u ∈ db.users, Varchar 320 u.email) ∧
      (∀ u ∈ db.users, ∀ name ∈ u.displayName, Varchar 255 name) ∧
      (∀ s ∈ db.sessions, s.info.Fits) ∧ (∀ t ∈ db.tenants, t.Fits) ∧ ∀ p ∈ db.plans, p.Fits)
    ⟨fun ⟨h1, h2, h3, h4, h5⟩ => ⟨h1, h2, h3, h4, h5⟩, fun h => ⟨h.1, h.2, h.3, h.4, h.5⟩⟩

instance : Decidable db.Valid :=
  decidable_of_iff (db.UniqueKeys ∧ db.ForeignKeys ∧ db.Columns ∧ db.stale = false)
    ⟨fun ⟨hUnique, hForeign, hColumns, hMatched⟩ => ⟨hUnique, hForeign, hColumns, hMatched⟩,
      fun h => ⟨h.toUniqueKeys, h.toForeignKeys, h.toColumns, h.matched⟩⟩

/-! ### What the keys identify -/

variable {db}

theorem user_id {id : Uuid} {u : User} (h : db.user id = some u) : u.id = id := by
  simpa using List.find?_some h

theorem user_mem {id : Uuid} {u : User} (h : db.user id = some u) : u ∈ db.users :=
  List.mem_of_find?_eq_some h

theorem user_updateUser {id : Uuid} {f : User → User} (hId : ∀ u, (f u).id = u.id) (i : Uuid) :
    (db.updateUser id f).user i = (db.user i).map fun u => if u.id = id then f u else u := by
  have hPred : ((fun v : User => decide (v.id = i)) ∘ fun v => if v.id = id then f v else v) =
      fun v => decide (v.id = i) := by
    funext v
    simp only [Function.comp]
    split <;> simp [hId]
  simp only [user, updateUser, List.find?_map, hPred]

theorem user_updateUser_same {id : Uuid} {f : User → User} {u : User} (hId : ∀ u, (f u).id = u.id)
    (h : db.user id = some u) : (db.updateUser id f).user id = some (f u) := by
  rw [user_updateUser hId, h, Option.map_some, if_pos (user_id h)]

theorem membership_mem {userId tenantId : Uuid} {m : TenantMembership}
    (h : db.membership userId tenantId = some m) :
    m ∈ db.memberships ∧ m.userId = userId ∧ m.tenantId = tenantId := by
  have hKey : m.userId = userId ∧ m.tenantId = tenantId := by simpa using List.find?_some h
  exact ⟨List.mem_of_find?_eq_some h, hKey⟩

theorem refreshToken_mem {token : String} {r : RefreshToken}
    (h : db.refreshToken token = some r) : r ∈ db.refreshTokens ∧ r.token = token :=
  ⟨List.mem_of_find?_eq_some h, by simpa using List.find?_some h⟩

/-- A column stays without repetitions when a new row has a new value in it. -/
theorem nodup_map_concat {α β : Type} {f : α → β} {l : List α} {a : α} :
    ((l ++ [a]).map f).Nodup ↔ (l.map f).Nodup ∧ ∀ x ∈ l, f x ≠ f a := by
  simp [List.nodup_append]

/-- A row is found by its value in a column without repetitions. -/
theorem find?_of_unique {α κ : Type} [DecidableEq κ] {f : α → κ} {l : List α} {a : α}
    (hUnique : (l.map f).Nodup) (ha : a ∈ l) : l.find? (fun x => f x = f a) = some a := by
  obtain ⟨x, hFound⟩ : ∃ x, l.find? (fun x => f x = f a) = some x :=
    Option.isSome_iff_exists.mp (List.find?_isSome.mpr ⟨a, ha, by simp⟩)
  have hSame : f x = f a := by simpa using List.find?_some hFound
  rw [hFound, List.inj_on_of_nodup_map hUnique (List.mem_of_find?_eq_some hFound) ha hSame]

/-- A column that an UPDATE leaves alone. -/
theorem map_update {α β : Type} {p : α → Prop} [DecidablePred p] {f : α → α} {g : α → β}
    (hg : ∀ a, g (f a) = g a) (l : List α) :
    (l.map fun a => if p a then f a else a).map g = l.map g := by
  rw [List.map_map]
  refine List.map_congr_left fun a _ => ?_
  simp only [Function.comp]
  split
  · exact hg a
  · rfl

namespace Valid

variable (h : db.Valid)
include h

theorem user_of_mem {u : User} (hu : u ∈ db.users) : db.user u.id = some u :=
  find?_of_unique h.userId hu

theorem userByEmail_of_mem {u : User} (hu : u ∈ db.users) : db.userByEmail u.email = some u :=
  find?_of_unique h.userEmail hu

theorem tenant_of_mem {t : Tenant} (ht : t ∈ db.tenants) : db.tenant t.id = some t :=
  find?_of_unique h.tenantId ht

theorem plan_of_mem {p : Plan} (hp : p ∈ db.plans) : db.plan p.id = some p :=
  find?_of_unique h.planId hp

theorem subscriptionOf_of_mem {s : TenantSubscription} (hs : s ∈ db.subscriptions) :
    db.subscriptionOf s.tenantId = some s :=
  find?_of_unique h.subscriptionTenantId hs

theorem membership_id {m m' : TenantMembership} (hm : m ∈ db.memberships)
    (hm' : m' ∈ db.memberships) (hId : m.id = m'.id) : m = m' :=
  List.inj_on_of_nodup_map h.membershipId hm hm' hId

theorem membership_of_mem {m : TenantMembership} (hm : m ∈ db.memberships) :
    db.membership m.userId m.tenantId = some m := by
  obtain ⟨m', hFound⟩ : ∃ m', db.membership m.userId m.tenantId = some m' :=
    Option.isSome_iff_exists.mp (List.find?_isSome.mpr ⟨m, hm, by simp⟩)
  obtain ⟨hMem, hUser, hTenant⟩ := membership_mem hFound
  rw [hFound, List.inj_on_of_nodup_map h.membershipUserTenant hMem hm (by simp [hUser, hTenant])]

theorem user_of_refreshToken {r : RefreshToken} (hr : r ∈ db.refreshTokens) :
    ∃ u, db.user r.userId = some u := by
  obtain ⟨u, hu, hId⟩ := h.refreshTokenUser r hr
  exact ⟨u, hId ▸ h.user_of_mem hu⟩

theorem transfer_tenantId {x x' : OwnershipTransfer} (hx : x ∈ db.transfers)
    (hx' : x' ∈ db.transfers) (hTenant : x.tenantId = x'.tenantId) : x = x' :=
  List.inj_on_of_nodup_map h.transferTenantId hx hx' hTenant

theorem deleteRefreshTokens (p : RefreshToken → Bool) : (db.deleteRefreshTokens p).Valid := by
  have hRows : (db.deleteRefreshTokens p).refreshTokens.Sublist db.refreshTokens :=
    List.filter_sublist
  have hSessions : (db.deleteRefreshTokens p).sessions.Sublist db.sessions := List.filter_sublist
  refine { h with
    refreshTokenId := h.refreshTokenId.sublist (hRows.map _)
    refreshToken := h.refreshToken.sublist (hRows.map _)
    sessionId := h.sessionId.sublist (hSessions.map _)
    sessionRefreshTokenId := h.sessionRefreshTokenId.sublist (hSessions.map _)
    sessionJti := h.sessionJti.sublist (hSessions.map _)
    refreshTokenUser := fun r hr => h.refreshTokenUser r (hRows.subset hr)
    sessionUser := fun s hs => h.sessionUser s (hSessions.subset hs)
    sessionInfo := fun s hs => h.sessionInfo s (hSessions.subset hs)
    sessionRefreshToken := fun s hs => ?_ }
  obtain ⟨hs, hKeep⟩ := List.mem_filter.mp hs
  obtain ⟨r, hr, hId⟩ := h.sessionRefreshToken s hs
  have hNot := by simpa using hKeep
  have hStays : p r = false := by
    by_contra hDeleted
    exact hNot r hr (by simpa using hDeleted) hId
  exact ⟨r, List.mem_filter.mpr ⟨hr, by simp [hStays]⟩, hId⟩

theorem addRefreshToken {new : RefreshToken} (hUser : db.HasUser new.userId)
    (hId : ∀ r ∈ db.refreshTokens, r.id ≠ new.id)
    (hToken : ∀ r ∈ db.refreshTokens, r.token ≠ new.token) : (db.addRefreshToken new).Valid :=
  { h with
    refreshTokenId := nodup_map_concat.mpr ⟨h.refreshTokenId, hId⟩
    refreshToken := nodup_map_concat.mpr ⟨h.refreshToken, hToken⟩
    refreshTokenUser := fun r hr => by
      rcases List.mem_append.mp hr with hr | hr
      · exact h.refreshTokenUser r hr
      · exact List.mem_singleton.mp hr ▸ hUser
    sessionRefreshToken := fun s hs => by
      obtain ⟨r, hr, hId⟩ := h.sessionRefreshToken s hs
      exact ⟨r, List.mem_append_left _ hr, hId⟩ }

theorem addSession {new : UserSession} (hUser : db.HasUser new.userId)
    (hRow : ∃ r ∈ db.refreshTokens, r.id = new.refreshTokenId)
    (hId : ∀ x ∈ db.sessions, x.id ≠ new.id)
    (hRowId : ∀ x ∈ db.sessions, x.refreshTokenId ≠ new.refreshTokenId)
    (hJti : ∀ x ∈ db.sessions, x.accessTokenJti ≠ new.accessTokenJti) (hInfo : new.info.Fits) :
    (db.addSession new).Valid :=
  { h with
    sessionId := nodup_map_concat.mpr ⟨h.sessionId, hId⟩
    sessionRefreshTokenId := nodup_map_concat.mpr ⟨h.sessionRefreshTokenId, hRowId⟩
    sessionJti := nodup_map_concat.mpr ⟨h.sessionJti, hJti⟩
    sessionUser := fun x hx => by
      rcases List.mem_append.mp hx with hx | hx
      · exact h.sessionUser x hx
      · exact List.mem_singleton.mp hx ▸ hUser
    sessionRefreshToken := fun x hx => by
      rcases List.mem_append.mp hx with hx | hx
      · exact h.sessionRefreshToken x hx
      · exact List.mem_singleton.mp hx ▸ hRow
    sessionInfo := fun x hx => by
      rcases List.mem_append.mp hx with hx | hx
      · exact h.sessionInfo x hx
      · exact List.mem_singleton.mp hx ▸ hInfo }

/-- The constraints on a new OAuth account of a user who is there. -/
theorem addOAuthAccount_iff {new : OAuthAccount} (hUser : db.HasUser new.userId) :
    ({ db with oauthAccounts := db.oauthAccounts ++ [new] } : Db).Valid ↔
      (∀ a ∈ db.oauthAccounts, (a.provider, a.providerUserId) ≠
        (new.provider, new.providerUserId)) ∧
      ∀ a ∈ db.oauthAccounts, (a.userId, a.provider) ≠ (new.userId, new.provider) := by
  constructor
  · intro hNew
    exact ⟨(nodup_map_concat.mp hNew.oauthProviderUser).2,
      (nodup_map_concat.mp hNew.oauthUserProvider).2⟩
  · rintro ⟨hProvider, hPair⟩
    exact { h with
      oauthProviderUser := nodup_map_concat.mpr ⟨h.oauthProviderUser, hProvider⟩
      oauthUserProvider := nodup_map_concat.mpr ⟨h.oauthUserProvider, hPair⟩
      oauthUser := fun a ha => by
        rcases List.mem_append.mp ha with ha | ha
        · exact h.oauthUser a ha
        · exact List.mem_singleton.mp ha ▸ hUser }

/-- Replacing a row by one with a new id and a new text breaks no constraint. -/
theorem replace {row new : RefreshToken}
    (hRow : row ∈ db.refreshTokens) (hUser : new.userId = row.userId)
    (hId : ∀ r ∈ db.refreshTokens, r.id ≠ new.id)
    (hToken : ∀ r ∈ db.refreshTokens, r.token ≠ new.token) :
    ((db.deleteRefreshTokens fun r => r.id = row.id).addRefreshToken new).Valid := by
  have hHas : db.HasUser new.userId := hUser ▸ h.refreshTokenUser row hRow
  exact (h.deleteRefreshTokens _).addRefreshToken hHas
    (fun r hr => hId r (List.mem_filter.mp hr).1) fun r hr => hToken r (List.mem_filter.mp hr).1

/-- An update that keeps the ids, the emails and the names of the users breaks no constraint, as
long as their last tenants are there. -/
theorem updateUser_of {id : Uuid} {f : User → User} (hId : ∀ u, (f u).id = u.id)
    (hEmail : ∀ u, (f u).email = u.email) (hName : ∀ u, (f u).displayName = u.displayName)
    (hTenant : ∀ u ∈ db.users, ∀ t ∈ (f u).lastUsedTenantId, db.HasTenant t) :
    (db.updateUser id f).Valid := by
  have hMap {α : Type} (g : User → α) (hg : ∀ u, g (f u) = g u) :
      (db.updateUser id f).users.map g = db.users.map g := map_update hg _
  have hHas {i : Uuid} (hUser : db.HasUser i) : (db.updateUser id f).HasUser i := by
    obtain ⟨u, hu, rfl⟩ := hUser
    have hIds : u.id ∈ (db.updateUser id f).users.map fun u => u.id :=
      hMap _ hId ▸ List.mem_map_of_mem hu
    exact List.mem_map.mp hIds
  exact { h with
    userId := hMap _ hId ▸ h.userId
    userEmail := hMap _ hEmail ▸ h.userEmail
    lastUsedTenant := fun u hu => by
      obtain ⟨v, hv, rfl⟩ := List.mem_map.mp hu
      split
      · exact hTenant v hv
      · exact h.lastUsedTenant v hv
    userAddress := fun u hu => by
      obtain ⟨v, hv, rfl⟩ := List.mem_map.mp hu
      split
      · exact hEmail v ▸ h.userAddress v hv
      · exact h.userAddress v hv
    userName := fun u hu => by
      obtain ⟨v, hv, rfl⟩ := List.mem_map.mp hu
      split
      · exact hName v ▸ h.userName v hv
      · exact h.userName v hv
    refreshTokenUser := fun r hr => hHas (h.refreshTokenUser r hr)
    oauthUser := fun a ha => hHas (h.oauthUser a ha)
    backupCodeUser := fun b hb => hHas (h.backupCodeUser b hb)
    deviceUser := fun d hd => hHas (h.deviceUser d hd)
    sessionUser := fun s hs => hHas (h.sessionUser s hs)
    membershipUser := fun m hm => hHas (h.membershipUser m hm)
    membershipInvitedBy := fun m hm i hi => hHas (h.membershipInvitedBy m hm i hi)
    invitationInvitedBy := fun i hi => hHas (h.invitationInvitedBy i hi)
    transferUsers := fun x hx => (h.transferUsers x hx).imp hHas hHas }

theorem updateUser {id : Uuid} {f : User → User} (hId : ∀ u, (f u).id = u.id)
    (hEmail : ∀ u, (f u).email = u.email) (hName : ∀ u, (f u).displayName = u.displayName)
    (hTenant : ∀ u, (f u).lastUsedTenantId = u.lastUsedTenantId) : (db.updateUser id f).Valid :=
  h.updateUser_of hId hEmail hName fun u hu => hTenant u ▸ h.lastUsedTenant u hu

/-- An update of a backup code that is there. -/
theorem updateBackupCode {row : MfaBackupCode} {f : MfaBackupCode → MfaBackupCode}
    (hRow : row ∈ db.backupCodes) (hId : ∀ b, (f b).id = b.id) (hUser : ∀ b, (f b).userId = b.userId) :
    (db.updateBackupCode row.id f).Valid := by
  have hIds : (db.updateBackupCode row.id f).backupCodes.map (fun b => b.id) =
      db.backupCodes.map fun b => b.id := map_update hId _
  have hFound : (db.backupCodes.any fun b => b.id = row.id) = true :=
    List.any_eq_true.mpr ⟨row, hRow, by simp⟩
  exact { h with
    backupCodeId := hIds ▸ h.backupCodeId
    backupCodeUser := fun b hb => by
      obtain ⟨b₀, hb₀, rfl⟩ := List.mem_map.mp hb
      split
      · exact hUser b₀ ▸ h.backupCodeUser b₀ hb₀
      · exact h.backupCodeUser b₀ hb₀
    matched := by simp [Db.updateBackupCode, h.matched, hFound] }

end Valid

end Db

/-- `Result.scalar_one_or_none` on a column that is not unique: `none` stands for
`MultipleResultsFound`. -/
def scalarOneOrNone {α : Type} : List α → Option (Option α)
  | [] => some none
  | [a] => some (some a)
  | _ => none

/-- The value under `auth:mfa_pending:{token}`: a plain user id, or the object that the enforcement
branch of login writes. -/
inductive MfaPending where
  | plain (userId : Uuid)
  | setupRequired (userId : Uuid)
  deriving DecidableEq, Repr

structure OAuthLink where
  userId : Uuid
  provider : String
  providerUserId : String
  deriving DecidableEq, Repr

end WxcodeAdm
