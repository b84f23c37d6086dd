import WxcodeAdm.Lib.Footprint
import WxcodeAdm.System

/-! The tables and the Redis keys that each request can change.  What a request does not touch it
leaves as it found it, whether it commits or not. -/

namespace WxcodeAdm

open Lib

/-- The tables of the database, the columns of `users` that a password reset rests on, and the keys
of Redis. -/
inductive Part where
  | users
  | credentials
  | refreshTokens
  | oauthAccounts
  | backupCodes
  | trustedDevices
  | sessions
  | tenants
  | memberships
  | invitations
  | transfers
  | plans
  | subscriptions
  | webhookEvents
  | blacklist
  | replay
  | mfaPending
  | mfaUsed
  | oauthLink
  | otp
  | wxcodeCode
  | lastActive
  | jobs
  deriving DecidableEq

def User.credentials (u : User) : Uuid × String × Option String := (u.id, u.email, u.passwordHash)

def Db.credentials (db : Db) : List (Uuid × String × Option String) :=
  db.users.map User.credentials

namespace Part

def Same (p : Part) (s s' : World) : Prop :=
  match p with
  | users => s'.db.users = s.db.users
  | credentials => s'.db.credentials = s.db.credentials
  | refreshTokens => s'.db.refreshTokens = s.db.refreshTokens
  | oauthAccounts => s'.db.oauthAccounts = s.db.oauthAccounts
  | backupCodes => s'.db.backupCodes = s.db.backupCodes
  | trustedDevices => s'.db.trustedDevices = s.db.trustedDevices
  | sessions => s'.db.sessions = s.db.sessions
  | tenants => s'.db.tenants = s.db.tenants
  | memberships => s'.db.memberships = s.db.memberships
  | invitations => s'.db.invitations = s.db.invitations
  | transfers => s'.db.transfers = s.db.transfers
  | plans => s'.db.plans = s.db.plans
  | subscriptions => s'.db.subscriptions = s.db.subscriptions
  | webhookEvents => s'.db.webhookEvents = s.db.webhookEvents
  | blacklist => s'.cache.blacklist = s.cache.blacklist
  | replay => s'.cache.replay = s.cache.replay
  | mfaPending => s'.cache.mfaPending = s.cache.mfaPending
  | mfaUsed => s'.cache.mfaUsed = s.cache.mfaUsed
  | oauthLink => s'.cache.oauthLink = s.cache.oauthLink
  | otp => (s'.cache.otp, s'.cache.otpAttempts, s'.cache.otpCooldown) =
      (s.cache.otp, s.cache.otpAttempts, s.cache.otpCooldown)
  | wxcodeCode => s'.cache.wxcodeCode = s.cache.wxcodeCode
  | lastActive => s'.cache.lastActive = s.cache.lastActive
  | jobs => s'.cache.jobs = s.cache.jobs

instance (p : Part) : Std.Refl p.Same := ⟨fun _ => by cases p <;> rfl⟩

instance (p : Part) : IsTrans World p.Same :=
  ⟨fun _ _ _ h h' => by cases p <;> exact h'.trans h⟩

theorem Same.rollback {p : Part} {s s' : World} (h : p.Same s s') :
    p.Same s { s' with db := s.db } := by
  cases p <;> first | rfl | exact h

end Part

/-- The handler changes nothing but the parts. -/
abbrev Touches {α : Type} (parts : List Part) (h : App α) : Prop := h.Touches Part.Same parts

variable {c : Ctx}

/-! ### Statements -/

section Statements

variable {α : Type}

theorem touches_updateUser {id : Uuid} {f : User → User}
    (hf : ∀ u, (f u).credentials = u.credentials) :
    Touches [.users] (.exec fun db => db.updateUser id f) := by
  refine .exec fun p hp s => ?_
  cases p
  case users => simp at hp
  case credentials =>
    simp only [Part.Same, Db.credentials, Db.updateUser]
    exact Db.map_update hf _
  all_goals rfl

theorem touches_users {f : Db → List User} :
    Touches [.users, .credentials] (.exec fun db => { db with users := f db }) :=
  .exec fun p hp s => by cases p <;> first | rfl | simp at hp

theorem touches_deleteRefreshTokens {p : RefreshToken → Bool} :
    Touches [.refreshTokens, .sessions] (.exec fun db => db.deleteRefreshTokens p) :=
  .exec fun p hp s => by cases p <;> first | rfl | simp at hp

theorem touches_addRefreshToken {row : RefreshToken} :
    Touches [.refreshTokens] (.exec fun db => db.addRefreshToken row) :=
  .exec fun p hp s => by cases p <;> first | rfl | simp at hp

theorem touches_sessions {f : Db → List UserSession} :
    Touches [.sessions] (.exec fun db => { db with sessions := f db }) :=
  .exec fun p hp s => by cases p <;> first | rfl | simp at hp

theorem touches_oauthAccounts {f : Db → List OAuthAccount} :
    Touches [.oauthAccounts] (.exec fun db => { db with oauthAccounts := f db }) :=
  .exec fun p hp s => by cases p <;> first | rfl | simp at hp

theorem touches_backupCodes {f : Db → List MfaBackupCode} {g : Db → Bool} :
    Touches [.backupCodes] (.exec fun db => { db with backupCodes := f db, stale := g db }) :=
  .exec fun p hp s => by cases p <;> first | rfl | simp at hp

theorem touches_trustedDevices {f : Db → List TrustedDevice} :
    Touches [.trustedDevices] (.exec fun db => { db with trustedDevices := f db }) :=
  .exec fun p hp s => by cases p <;> first | rfl | simp at hp

theorem touches_tenants {f : Db → List Tenant} :
    Touches [.tenants] (.exec fun db => { db with tenants := f db }) :=
  .exec fun p hp s => by cases p <;> first | rfl | simp at hp

theorem touches_memberships {f : Db → List TenantMembership} {g : Db → Bool} :
    Touches [.memberships] (.exec fun db => { db with memberships := f db, stale := g db }) :=
  .exec fun p hp s => by cases p <;> first | rfl | simp at hp

theorem touches_addMembership {f : Db → List TenantMembership} :
    Touches [.memberships] (.exec fun db => { db with memberships := f db }) :=
  .exec fun p hp s => by cases p <;> first | rfl | simp at hp

theorem touches_saveMembership (loaded changed : TenantMembership) :
    Touches [.memberships] (.exec fun db => db.saveMembership loaded changed) :=
  .exec fun p hp s => by
    unfold Db.saveMembership
    split <;> cases p <;> first | rfl | simp at hp

theorem touches_setRole (membership : Option TenantMembership) (role : MemberRole) :
    Touches [.memberships] (.exec fun db => db.setRole membership role) :=
  .exec fun p hp s => by cases membership <;> cases p <;> first | rfl | simp at hp

theorem touches_deleteMembership (id : Uuid) :
    Touches [.memberships] (.exec fun db => db.deleteMembership id) :=
  .exec fun p hp s => by cases p <;> first | rfl | simp at hp

theorem touches_invitations {f : Db → List Invitation} :
    Touches [.invitations] (.exec fun db => { db with invitations := f db }) :=
  .exec fun p hp s => by cases p <;> first | rfl | simp at hp

theorem touches_join {now : Nat} {membership : TenantMembership} {invitation : Invitation} :
    Touches [.memberships, .invitations]
      (.exec fun db => db.join now membership invitation) :=
  .exec fun p hp s => by cases p <;> first | rfl | simp at hp

theorem touches_transfers {f : Db → List OwnershipTransfer} :
    Touches [.transfers] (.exec fun db => { db with transfers := f db }) :=
  .exec fun p hp s => by cases p <;> first | rfl | simp at hp

theorem touches_subscriptions {f : Db → List TenantSubscription} :
    Touches [.subscriptions] (.exec fun db => { db with subscriptions := f db }) :=
  .exec fun p hp s => by cases p <;> first | rfl | simp at hp

theorem touches_webhookEvents {f : Db → List WebhookEvent} :
    Touches [.webhookEvents] (.exec fun db => { db with webhookEvents := f db }) :=
  .exec fun p hp s => by cases p <;> first | rfl | simp at hp

theorem touches_blacklist {f : Redis → Expiring Uuid Unit} :
    Touches [.blacklist] (.store fun r => { r with blacklist := f r }) :=
  .store fun p hp s => by cases p <;> first | rfl | simp at hp

theorem touches_replay {f : Redis → Expiring String Uuid} :
    Touches [.replay] (.store fun r => { r with replay := f r }) :=
  .store fun p hp s => by cases p <;> first | rfl | simp at hp

theorem touches_mfaPending {f : Redis → Expiring PyStr MfaPending} :
    Touches [.mfaPending] (.store fun r => { r with mfaPending := f r }) :=
  .store fun p hp s => by cases p <;> first | rfl | simp at hp

theorem touches_mfaUsed {f : Redis → Expiring Uuid String} :
    Touches [.mfaUsed] (.store fun r => { r with mfaUsed := f r }) :=
  .store fun p hp s => by cases p <;> first | rfl | simp at hp

theorem touches_oauthLink {f : Redis → Expiring PyStr OAuthLink} :
    Touches [.oauthLink] (.store fun r => { r with oauthLink := f r }) :=
  .store fun p hp s => by cases p <;> first | rfl | simp at hp

theorem touches_otp {f : Redis → Expiring Uuid String} {g : Redis → Expiring Uuid Nat}
    {h : Redis → Expiring Uuid Unit} :
    Touches [.otp] (.store fun r => { r with otp := f r, otpAttempts := g r, otpCooldown := h r }) :=
  .store fun p hp s => by cases p <;> first | rfl | simp at hp

theorem touches_wxcodeCode {f : Redis → Expiring String (WxcodeCode Payload)} :
    Touches [.wxcodeCode] (.store fun r => { r with wxcodeCode := f r }) :=
  .store fun p hp s => by cases p <;> first | rfl | simp at hp

theorem touches_lastActive {f : Redis → Expiring Uuid Nat} :
    Touches [.lastActive] (.store fun r => { r with lastActive := f r }) :=
  .store fun p hp s => by cases p <;> first | rfl | simp at hp

theorem touches_enqueueJob (job : Job) : Touches [.jobs] (enqueueJob job) :=
  .store fun p hp s => by cases p <;> first | rfl | simp at hp

theorem touches_flush : Touches [] flush := .sub (.bind (.query _) fun _ => .ensure _ _) (by simp)

theorem touches_addUser (user : User) :
    Touches [.users, .credentials] (.exec fun db => { db with users := db.users ++ [user] }) :=
  touches_users

end Statements

/-! ### Tokens -/

theorem blacklistJti_touches (jti : Uuid) : Touches [.blacklist] (blacklistJti c jti) :=
  touches_blacklist

theorem blacklistAccessToken_touches (token : Bearer) :
    Touches [.blacklist] (blacklistAccessToken c token) := by
  unfold blacklistAccessToken
  split
  · exact .sub (.pure _) (by simp)
  · exact .sub (.ite touches_blacklist (.pure _)) (by simp)

theorem revokeSessionsOf_touches (userIds : List Uuid) :
    Touches [.blacklist, .refreshTokens, .sessions] (revokeSessionsOf c userIds) :=
  .sub (.bind (.query _) fun _ => .bind (.forM blacklistJti_touches _) fun _ =>
    touches_deleteRefreshTokens) (by simp)

theorem issueTokens_touches (user : User) (ua ip : Option String) :
    Touches [.refreshTokens, .sessions, .replay] (issueTokens c user ua ip) :=
  .sub (.bind (.query _) fun _ => .bind touches_replay fun _ =>
    .bind touches_deleteRefreshTokens fun _ => .bind (.query _) fun _ =>
    .bind touches_addRefreshToken fun _ => .bind (.ofExcept _) fun _ => .bind touches_sessions
    fun _ => .pure _) (by simp)

theorem getCurrentJti_touches (token : Bearer) : Touches [] (getCurrentJti c token) :=
  .sub (.bind (.ofExcept _) fun _ => .pure _) (by simp)

theorem getCurrentUser_touches (token : Bearer) : Touches [.lastActive] (getCurrentUser c token) :=
  .sub (.bind (.ofExcept _) fun _ => .bind (.lookup _) fun _ => .bind (.ensure _ _) fun _ =>
    .bind (.query _) fun _ => .bind (.orRaise _ _) fun _ => .bind (.ensure _ _) fun _ =>
    .bind (.ensure _ _) fun _ => .bind touches_lastActive fun _ => .pure _) (by simp)

theorem requireVerified_touches (token : Bearer) : Touches [.lastActive] (requireVerified c token) :=
  .sub (.bind (getCurrentUser_touches token) fun _ => .bind (.ensure _ _) fun _ => .pure _) (by simp)

theorem checkReplayAndLogout_touches (token : String) :
    Touches [.refreshTokens, .sessions] (checkReplayAndLogout c token) :=
  .bind (.lookup _) fun found => (by
    cases found with
    | some uid => exact .bind touches_deleteRefreshTokens fun _ => .throw _
    | none => exact .sub (.throw _) (by simp) : Touches [.refreshTokens, .sessions] _)

theorem continueSession_touches (old : RefreshToken) (jti : Uuid) (ua ip : Option String) :
    Touches [.sessions] (continueSession c old jti ua ip) :=
  .bind (.query _) fun found => (by
    cases found <;> exact touches_sessions : Touches [.sessions] _)

theorem rotate_touches (row : RefreshToken) (ua ip : Option String) :
    Touches [.refreshTokens, .sessions, .replay] (rotate c row ua ip) :=
  .sub (.bind touches_replay fun _ => .bind touches_deleteRefreshTokens fun _ =>
    .bind touches_addRefreshToken fun _ => .bind (.query _) fun _ => .bind (.orRaise _ _) fun _ =>
    .bind (.query _) fun _ => .bind (.ofExcept _) fun _ => .bind (continueSession_touches _ _ _ _)
    fun _ => .pure _) (by simp)

theorem refresh_touches (token : String) (ua ip : Option String) :
    Touches [.refreshTokens, .sessions, .replay] (refresh c token ua ip) :=
  .bind (.query _) fun found => (by
    cases found with
    | none => exact .sub (.bind (checkReplayAndLogout_touches token) fun _ => .throw _) (by simp)
    | some row =>
      exact .sub (.ite (.bind touches_deleteRefreshTokens fun _ => .throw _)
        (rotate_touches row ua ip)) (by simp) :
    Touches [.refreshTokens, .sessions, .replay] _)

theorem deleteIfFound_touches (token : String) :
    Touches [.refreshTokens, .sessions] (deleteIfFound token) :=
  .bind (.query _) fun found => (by
    cases found with
    | some row => exact touches_deleteRefreshTokens
    | none => exact .sub (.pure _) (by simp) : Touches [.refreshTokens, .sessions] _)

theorem logout_touches (refreshToken : String) (accessToken : Option Bearer) :
    Touches [.refreshTokens, .sessions, .blacklist] (logout c refreshToken accessToken) :=
  .bind (deleteIfFound_touches refreshToken) fun _ => (by
    cases accessToken with
    | some token => exact blacklistAccessToken_touches token
    | none => exact .sub (.pure _) (by simp) : Touches [.blacklist] _)

/-! ### Accounts -/

theorem createVerificationCode_touches (userId : Uuid) :
    Touches [.otp] (createVerificationCode c userId) :=
  .sub (.bind touches_otp fun _ => .bind touches_otp fun _ => .bind touches_otp fun _ => .pure _)
    (by simp)

theorem deleteOtp_touches (userId : Uuid) : Touches [.otp] (deleteOtp userId) := touches_otp

theorem countAttempt_touches (userId : Uuid) : Touches [.otp] (countAttempt c userId) :=
  .exchange fun p hp s => by cases p <;> first | rfl | simp at hp

theorem verifyOtpCode_touches (userId : Uuid) (submitted : String) :
    Touches [.otp] (verifyOtpCode c userId submitted) :=
  .bind (.lookup _) fun stored => (by
    cases stored with
    | none => exact .sub (.pure _) (by simp)
    | some _ =>
      exact .sub (.ite (.bind (deleteOtp_touches _) fun _ => .pure _) <|
        .bind (countAttempt_touches _) fun _ =>
        .ite (.bind (deleteOtp_touches _) fun _ => .pure _) (.pure _)) (by simp) : Touches [.otp] _)

theorem signup_touches (email password : String) :
    Touches [.users, .credentials, .otp, .jobs] (signup c email password) :=
  .sub (.bind (.query _) fun _ => .bind (.ensure _ _) fun _ => .bind (touches_addUser _) fun _ =>
    .bind touches_flush fun _ => .bind (createVerificationCode_touches _) fun _ =>
    .bind (touches_enqueueJob _) fun _ => .pure _) (by simp)

theorem autoJoinAll_touches (user : User) :
    Touches [.memberships, .invitations] (.exec fun db => (autoJoinAll c user db).1) :=
  .exec fun p hp s => by
    unfold autoJoinAll
    refine List.foldlRecOn (motive := fun acc : Db × _ => p.Same s { s with db := acc.1 }) _ _
      (refl_of p.Same s) fun acc h i _ => ?_
    refine trans_of p.Same h ?_
    unfold autoJoin
    split
    · exact refl_of p.Same _
    · cases p <;> first | rfl | simp at hp

theorem autoJoinPendingInvitations_touches (user : User) :
    Touches [.memberships, .invitations] (autoJoinPendingInvitations c user) :=
  .sub (.bind (.query _) fun _ => .bind (autoJoinAll_touches user) fun _ => .bind touches_flush
    fun _ => .pure _) (by simp)

theorem verifyEmail_touches (email code : String) :
    Touches [.users, .otp, .memberships, .invitations] (verifyEmail c email code) :=
  .sub (.bind (.query _) fun _ => .bind (.orRaise _ _) fun _ => .ite (.pure _) <|
    .bind (verifyOtpCode_touches _ _) fun _ => .bind (.ensure _ _) fun _ =>
    .bind (touches_updateUser fun _ => rfl) fun _ =>
    .bind (autoJoinPendingInvitations_touches _) fun _ => .pure _) (by simp)

theorem resendVerification_touches (email : String) :
    Touches [.otp, .jobs] (resendVerification c email) :=
  .bind (.query _) fun found => (by
    cases found with
    | none => exact .sub (.pure _) (by simp)
    | some _ =>
      exact .sub (.ite (.pure _) <| .bind (.lookup _) fun _ => .bind (.ensure _ _) fun _ =>
        .bind (createVerificationCode_touches _) fun _ => touches_enqueueJob _) (by simp) :
    Touches [.otp, .jobs] _)

theorem forgotPassword_touches (email : String) : Touches [.jobs] (forgotPassword c email) :=
  .bind (.query _) fun found => (by
    cases found with
    | none => exact .sub (.pure _) (by simp)
    | some _ => exact touches_enqueueJob _ : Touches [.jobs] _)

theorem resetPassword_touches (token : TimedToken Json) (newPassword : String) :
    Touches [.users, .credentials, .refreshTokens, .sessions] (resetPassword c token newPassword) :=
  .sub (.bind (.ofExcept _) fun _ => .bind (.query _) fun _ => .bind (.orRaise _ _) fun _ =>
    .bind (.bind (.ofExcept _) fun _ => .pure _) fun _ => .bind touches_users fun _ =>
    touches_deleteRefreshTokens) (by simp)

/-! ### The second factor -/

theorem redeemBackupCode_touches (userId : Uuid) (code : String) :
    Touches [.backupCodes] (redeemBackupCode c userId code) :=
  .bind (.query _) fun _ => .bind (.orRaise _ _) fun _ => touches_backupCodes

theorem deleteBackupCodes_touches (userId : Uuid) :
    Touches [.backupCodes] (deleteBackupCodes userId) :=
  .exec fun p hp s => by cases p <;> first | rfl | simp at hp

theorem mfaBeginEnrollment_touches (user : User) : Touches [.users] (mfaBeginEnrollment c user) :=
  .sub (.bind (.ensure _ _) fun _ => .bind (touches_updateUser fun _ => rfl) fun _ => .pure _)
    (by simp)

theorem mfaConfirmEnrollment_touches (user : User) (code : String) :
    Touches [.users, .backupCodes] (mfaConfirmEnrollment c user code) :=
  .sub (.bind (.ensure _ _) fun _ => .bind (.ensure _ _) fun _ => .bind (.ofExcept _) fun _ =>
    .bind (.ensure _ _) fun _ => .bind (touches_updateUser fun _ => rfl) fun _ =>
    .bind (deleteBackupCodes_touches _) fun _ => .bind touches_backupCodes fun _ =>
    .bind touches_flush fun _ => .pure _) (by simp)

theorem mfaDisable_touches (user : User) (code : String) :
    Touches [.users, .backupCodes] (mfaDisable c user code) :=
  .sub (.bind (.ensure _ _) fun _ =>
    .bind (.bind (.ofExcept _) fun _ => .ite (.pure _) (redeemBackupCode_touches _ _)) fun _ =>
    .bind (touches_updateUser fun _ => rfl) fun _ => deleteBackupCodes_touches _) (by simp)

theorem createTrustedDevice_touches (userId : Uuid) :
    Touches [.trustedDevices] (createTrustedDevice c userId) :=
  .bind touches_trustedDevices fun _ => .pure _

theorem isDeviceTrusted_touches (userId : Uuid) (deviceToken : String) :
    Touches [.trustedDevices] (isDeviceTrusted c userId deviceToken) :=
  .ite (.pure _) (.bind (.query _) fun found => (by
    cases found with
    | none => exact .sub (.pure _) (by simp)
    | some _ => exact .sub (.ite (.bind touches_trustedDevices fun _ => .pure _) (.pure _)) (by simp) :
    Touches [.trustedDevices] _))

theorem createWxcodeCode_touches (userId : Uuid) (tokens : TokenResponse) :
    Touches [.wxcodeCode] (createWxcodeCode c userId tokens) :=
  .bind touches_wxcodeCode fun _ => .pure _

theorem exchangeWxcodeCode_touches (code : String) :
    Touches [.wxcodeCode] (exchangeWxcodeCode c code) :=
  .exchange fun p hp s => by cases p <;> first | rfl | simp at hp

theorem redirectToWxcode_touches (user : User) (tokens : TokenResponse) :
    Touches [.users, .wxcodeCode] (redirectToWxcode c user tokens) :=
  .bind (.query _) fun found => (by
    cases found with
    | none => exact .sub (.pure _) (by simp)
    | some _ =>
      exact .sub (.bind (createWxcodeCode_touches _ _) fun _ =>
        .bind (touches_updateUser fun _ => rfl) fun _ => .pure _) (by simp) :
    Touches [.users, .wxcodeCode] _)

theorem createMfaPending_touches (pending : MfaPending) :
    Touches [.mfaPending] (createMfaPending c pending) :=
  .bind touches_mfaPending fun _ => .pure _

theorem skipMfa_touches (user : User) (enforcing : List Uuid) (deviceToken : Option String) :
    Touches [.trustedDevices] (skipMfa c user enforcing deviceToken) := by
  cases deviceToken with
  | none => exact .sub (.pure _) (by simp)
  | some token => exact .sub (.ite (isDeviceTrusted_touches _ _) (.pure _)) (by simp)

theorem loginVerified_touches (user : User) (device ua ip : Option String) :
    Touches [.trustedDevices, .mfaPending, .refreshTokens, .sessions, .replay]
      (loginVerified c user device ua ip) :=
  .sub (.bind (.query _) fun _ => .ite (.bind (createMfaPending_touches _) fun _ => .pure _) <|
    .ite
      (.bind (skipMfa_touches _ _ _) fun _ => .ite
        (.bind (issueTokens_touches _ _ _) fun _ => .pure _)
        (.bind (createMfaPending_touches _) fun _ => .pure _))
      (.bind (issueTokens_touches _ _ _) fun _ => .pure _)) (by simp)

theorem login_touches (email : String) (password : PyStr) (device ua ip : Option String) :
    Touches [.trustedDevices, .mfaPending, .refreshTokens, .sessions, .replay]
      (login c email password device ua ip) :=
  .bind (.query _) fun _ => .bind (.orRaise _ _) fun _ => .bind (.ensure _ _) fun _ =>
    .bind (.ofExcept _) fun _ => .bind (.ensure _ _) fun _ => .bind (.ensure _ _) fun _ =>
    loginVerified_touches _ _ _ _

theorem verifySecondFactor_touches (user : User) (code : String) :
    Touches [.mfaUsed, .backupCodes] (verifySecondFactor c user code) :=
  .bind (.ofExcept _) fun _ => .ite touches_mfaUsed (redeemBackupCode_touches _ _)

theorem completeMfaLogin_touches (user : User) (body : MfaVerifyRequest) (ua ip : Option String) :
    Touches [.mfaPending, .refreshTokens, .sessions, .replay, .users, .wxcodeCode, .trustedDevices]
      (completeMfaLogin c user body ua ip) :=
  .sub (.bind touches_mfaPending fun _ => .bind (issueTokens_touches _ _ _) fun _ =>
    .bind (redirectToWxcode_touches _ _) fun _ => .ite
      (.bind (createTrustedDevice_touches _) fun _ => .pure _) (.pure _)) (by simp)

theorem mfaVerify_touches (body : MfaVerifyRequest) (ua ip : Option String) :
    Touches [.mfaUsed, .backupCodes, .mfaPending, .refreshTokens, .sessions, .replay, .users,
      .wxcodeCode, .trustedDevices] (mfaVerify c body ua ip) :=
  .bind (.lookup _) fun _ => .bind (.orRaise _ _) fun _ => .bind (.ofExcept _) fun _ =>
    .bind (.query _) fun _ => .bind (.orRaise _ _) fun _ => .bind (.ensure _ _) fun _ =>
    .bind (.lookup _) fun _ => .bind (.ensure _ _) fun _ =>
    .bind (verifySecondFactor_touches _ _) fun _ => completeMfaLogin_touches _ _ _ _

/-! ### OAuth -/

theorem addOAuthAccount_touches (account : OAuthAccount) :
    Touches [.oauthAccounts] (addOAuthAccount account) :=
  .bind touches_oauthAccounts fun _ => touches_flush

theorem oauthLogin_touches (account : OAuthAccount) (ua ip : Option String) :
    Touches [.refreshTokens, .sessions, .replay] (oauthLogin c account ua ip) :=
  .bind (.query _) fun _ => .bind (.orRaise _ _) fun _ => .bind (issueTokens_touches _ _ _)
    fun _ => .bind (.query _) fun _ => .pure _

theorem oauthSignup_touches (provider email puid : String) (ua ip : Option String) :
    Touches [.users, .credentials, .oauthAccounts, .otp, .jobs, .refreshTokens, .sessions, .replay]
      (oauthSignup c provider email puid ua ip) :=
  .sub (.bind (touches_addUser _) fun _ => .bind touches_flush fun _ =>
    .bind (addOAuthAccount_touches _) fun _ => .bind (createVerificationCode_touches _) fun _ =>
    .bind (touches_enqueueJob _) fun _ => .bind (.query _) fun _ =>
    .bind (issueTokens_touches _ _ _) fun _ => .pure _) (by simp)

theorem resolveOauthAccount_touches (provider email puid : String) (ua ip : Option String) :
    Touches [.users, .credentials, .oauthAccounts, .otp, .jobs, .refreshTokens, .sessions, .replay,
      .oauthLink] (resolveOauthAccount c provider email puid ua ip) :=
  .bind (.query _) fun account => (by
    cases account with
    | some account => exact .sub (oauthLogin_touches account ua ip) (by simp)
    | none =>
      refine .sub (.bind (.query _) fun user => (?_ : Touches [.users, .credentials, .oauthAccounts,
        .otp, .jobs, .refreshTokens, .sessions, .replay, .oauthLink] _)) (by simp)
      cases user with
      | some _ =>
        exact .sub (.ite (.bind touches_oauthLink fun _ => .pure _) (.throw _)) (by simp)
      | none => exact .sub (oauthSignup_touches provider email puid ua ip) (by simp) :
    Touches [.users, .credentials, .oauthAccounts, .otp, .jobs, .refreshTokens, .sessions, .replay,
      .oauthLink] _)

theorem confirmOauthLink_touches (linkToken password : PyStr) (ua ip : Option String) :
    Touches [.oauthLink, .oauthAccounts, .refreshTokens, .sessions, .replay]
      (confirmOauthLink c linkToken password ua ip) :=
  .bind (.lookup _) fun _ => .bind (.orRaise _ _) fun _ => .bind (.query _) fun _ =>
    .bind (.orRaise _ _) fun _ => .bind (.ofExcept _) fun _ => .bind (.ensure _ _) fun _ =>
    .bind touches_oauthLink fun _ => .bind (addOAuthAccount_touches _) fun _ =>
    issueTokens_touches _ _ _

/-! ### Billing -/

theorem bootstrapFreeSubscription_touches (tenantId : Uuid) (customer : Option String) :
    Touches [.subscriptions] (bootstrapFreeSubscription tenantId customer) :=
  .sub (.bind (.query _) fun _ => .bind (.orRaise _ _) fun _ => .bind touches_subscriptions
    fun _ => touches_flush) (by simp)

theorem enforceMemberCap_touches (tenantId : Uuid) : Touches [] (enforceMemberCap tenantId) :=
  .bind (.query _) fun found => (by
    cases found with
    | none => exact .pure _
    | some _ =>
      exact .bind (.query _) fun _ => .bind (.orRaise _ _) fun _ => .bind (.query _) fun _ =>
        .ensure _ _ : Touches [] _)

theorem createCheckoutSession_touches (tenantId planId : Uuid) :
    Touches [.subscriptions] (createCheckoutSession c tenantId planId) :=
  .bind (.query _) fun _ => .bind (.orRaise _ _) fun _ => .bind (.query _) fun _ =>
    .bind (.orRaise _ _) fun _ => .bind (.ensure _ _) fun _ => .bind (.ensure _ _) fun _ =>
    .bind (.ite touches_subscriptions (.pure _)) fun _ => .orRaise _ _

theorem subscriptionByStripeId_touches (id : String) : Touches [] (subscriptionByStripeId id) :=
  .sub (.bind (.query _) fun _ => .orRaise _ _) (by simp)

theorem handleCheckoutCompleted_touches (dataObject : Json) :
    Touches [.subscriptions] (handleCheckoutCompleted c dataObject) :=
  .bind (.ofExcept _) fun _ => .bind (.ofExcept _) fun _ => .bind (.ofExcept _) fun _ =>
    .sub (.ite (.bind (.ofExcept _) fun _ => .bind (.ofExcept _) fun _ => .bind (.query _)
      fun found => (by
        cases found with
        | none => exact .sub (.pure _) (by simp)
        | some _ =>
          exact .bind (.ofExcept _) fun _ => .bind (.ofExcept _) fun _ => touches_subscriptions :
        Touches [.subscriptions] _)) (.pure _)) (by simp)

theorem handleSubscriptionUpdated_touches (dataObject : Json) :
    Touches [.subscriptions] (handleSubscriptionUpdated dataObject) :=
  .bind (.ofExcept _) fun _ => .sub (.ite (.bind (.ofExcept _) fun _ =>
    .bind (subscriptionByStripeId_touches _) fun found => (by
      cases found with
      | none => exact .sub (.pure _) (by simp)
      | some _ =>
        exact .bind (.ofExcept _) fun _ => .bind (.ofExcept _) fun _ => .bind (.ofExcept _) fun _ =>
          .bind (.ofExcept _) fun _ => .bind (.ofExcept _) fun _ => touches_subscriptions :
      Touches [.subscriptions] _)) (.pure _)) (by simp)

theorem handleSubscriptionDeleted_touches (dataObject : Json) :
    Touches [.subscriptions] (handleSubscriptionDeleted dataObject) :=
  .bind (.ofExcept _) fun _ => .sub (.ite (.bind (.ofExcept _) fun _ =>
    .bind (subscriptionByStripeId_touches _) fun found => (by
      cases found with
      | none => exact .sub (.pure _) (by simp)
      | some _ => exact touches_subscriptions : Touches [.subscriptions] _)) (.pure _)) (by simp)

theorem invoiceSubscription_touches (dataObject : Json) :
    Touches [] (invoiceSubscription dataObject) :=
  .bind (.ofExcept _) fun _ => .bind (.ofExcept _) fun text => (by
    cases text with
    | none => exact .pure _
    | some text => exact subscriptionByStripeId_touches text : Touches [] _)

theorem handleInvoicePaid_touches (dataObject : Json) :
    Touches [.subscriptions] (handleInvoicePaid dataObject) :=
  .bind (invoiceSubscription_touches dataObject) fun found => (by
    cases found with
    | none => exact .sub (.pure _) (by simp)
    | some _ => exact .sub (.ite touches_subscriptions (.pure _)) (by simp) :
    Touches [.subscriptions] _)

theorem handlePaymentFailed_touches (dataObject : Json) :
    Touches [.subscriptions, .blacklist, .refreshTokens, .sessions, .jobs]
      (handlePaymentFailed c dataObject) :=
  .bind (invoiceSubscription_touches dataObject) fun found => (by
    cases found with
    | none => exact .sub (.pure _) (by simp)
    | some _ =>
      exact .sub (.bind touches_subscriptions fun _ => .bind (.query _) fun _ =>
        .bind (revokeSessionsOf_touches _) fun _ => .bind (.query _) fun _ => .bind (.query _)
        fun _ => .forM (fun _ => touches_enqueueJob _) _) (by simp) :
    Touches [.subscriptions, .blacklist, .refreshTokens, .sessions, .jobs] _)

theorem handleStripeEvent_touches (eventType : String) (dataObject : Json) :
    Touches [.subscriptions, .blacklist, .refreshTokens, .sessions, .jobs]
      (handleStripeEvent c eventType dataObject) := by
  unfold handleStripeEvent
  split
  · exact .sub (handleCheckoutCompleted_touches dataObject) (by simp)
  · exact .sub (handleSubscriptionUpdated_touches dataObject) (by simp)
  · exact .sub (handleSubscriptionDeleted_touches dataObject) (by simp)
  · exact .sub (handleInvoicePaid_touches dataObject) (by simp)
  · exact handlePaymentFailed_touches dataObject
  · exact .sub (.pure _) (by simp)

theorem processStripeEvent_touches (eventId eventType : String) (dataObject : Json) :
    Touches [.subscriptions, .webhookEvents, .blacklist, .refreshTokens, .sessions, .jobs]
      (processStripeEvent c eventId eventType dataObject) :=
  .bind (.query _) fun found => (by
    cases found with
    | some _ => exact .sub (.pure _) (by simp)
    | none =>
      exact .sub (.bind (handleStripeEvent_touches _ _) fun _ => .bind touches_webhookEvents
        fun _ => touches_flush) (by simp) :
    Touches [.subscriptions, .webhookEvents, .blacklist, .refreshTokens, .sessions, .jobs] _)

/-! ### Tenants -/

theorem getTenantContext_touches (token : Bearer) (xTenantId : Option String) :
    Touches [.lastActive] (getTenantContext c token xTenantId) :=
  .sub (.bind (requireVerified_touches token) fun _ => .bind (.orRaise _ _) fun _ =>
    .bind (.query _) fun _ => .bind (.orRaise _ _) fun _ => .bind (.ensure _ _) fun _ =>
    .bind (.ensure _ _) fun _ => .bind (.query _) fun _ => .bind (.orRaise _ _) fun _ =>
    .bind (.ensure _ _) fun _ => .pure _) (by simp)

theorem requireRole_touches (role : MemberRole) (token : Bearer) (xTenantId : Option String) :
    Touches [.lastActive] (requireRole c role token xTenantId) :=
  .sub (.bind (getTenantContext_touches token xTenantId) fun _ => .bind (.ensure _ _) fun _ =>
    .pure _) (by simp)

theorem requireBillingAccess_touches (token : Bearer) (xTenantId : Option String) :
    Touches [.lastActive] (requireBillingAccess c token xTenantId) :=
  .sub (.bind (getTenantContext_touches token xTenantId) fun _ => .bind (.ensure _ _) fun _ =>
    .pure _) (by simp)

theorem createWorkspace_touches (user : User) (name : PyStr) :
    Touches [.tenants, .memberships, .subscriptions] (createWorkspace c user name) :=
  .sub (.bind (.bind (.query _) fun _ => .orRaise _ _) fun _ => .bind (.orRaise _ _) fun _ =>
    .bind touches_tenants fun _ => .bind touches_flush fun _ =>
    .bind touches_addMembership fun _ => .bind touches_flush fun _ =>
    .bind (bootstrapFreeSubscription_touches _ _) fun _ => .pure _) (by simp)

theorem changeRole_touches (tenant : Tenant) (actor : TenantMembership) (target : Uuid)
    (role : MemberRole) (billing : Option Bool) :
    Touches [.memberships] (changeRole tenant actor target role billing) :=
  .sub (.bind (.query _) fun _ => .bind (.orRaise _ _) fun _ => .bind (.ensure _ _) fun _ =>
    .bind (.ensure _ _) fun _ => .bind (.ensure _ _) fun _ => .bind (touches_saveMembership _ _)
    fun _ => .pure _) (by simp)

theorem removeMember_touches (tenant : Tenant) (actor : TenantMembership) (target : Uuid) :
    Touches [.memberships] (removeMember tenant actor target) :=
  .bind (.ensure _ _) fun _ => .bind (.query _) fun _ => .bind (.orRaise _ _) fun _ =>
    .bind (.ensure _ _) fun _ => touches_deleteMembership _

theorem leaveTenant_touches (loaded : TenantMembership) (tenantId userId : Uuid) :
    Touches [.memberships] (leaveTenant loaded tenantId userId) :=
  .bind (.query _) fun _ => .bind (.orRaise _ _) fun _ => .bind (.ensure _ _) fun _ =>
    touches_deleteMembership _

theorem clearStaleTransfer_touches (tenantId : Uuid) :
    Touches [.transfers] (clearStaleTransfer c tenantId) :=
  .bind (.query _) fun found => (by
    cases found with
    | none => exact .sub (.pure _) (by simp)
    | some _ =>
      exact .sub (.bind (.ensure _ _) fun _ => .bind touches_transfers fun _ => touches_flush)
        (by simp) : Touches [.transfers] _)

theorem initiateTransfer_touches (tenant : Tenant) (owner : TenantMembership) (toUserId : Uuid) :
    Touches [.transfers] (initiateTransfer c tenant owner toUserId) :=
  .sub (.bind (.ensure _ _) fun _ => .bind (.ensure _ _) fun _ => .bind (.query _) fun _ =>
    .bind (.ensure _ _) fun _ => .bind (clearStaleTransfer_touches _) fun _ =>
    .bind touches_transfers fun _ => .bind touches_flush fun _ => .pure _) (by simp)

theorem acceptTransfer_touches (tenantId userId : Uuid) :
    Touches [.memberships, .transfers] (acceptTransfer c tenantId userId) :=
  .bind (.query _) fun _ => .bind (.orRaise _ _) fun _ => .sub
    (.ite (.bind touches_transfers fun _ => .throw _) <|
      .bind (.query _) fun _ => .bind (.query _) fun _ => .bind (touches_setRole _ _) fun _ =>
      .bind (touches_setRole _ _) fun _ => touches_transfers) (by simp)

theorem getPendingTransfer_touches (tenantId : Uuid) :
    Touches [.transfers] (getPendingTransfer c tenantId) :=
  .bind (.query _) fun found => (by
    cases found with
    | none => exact .sub (.pure _) (by simp)
    | some _ => exact .sub (.ite (.bind touches_transfers fun _ => .pure _) (.pure _)) (by simp) :
    Touches [.transfers] _)

theorem inviteUser_touches (tenant : Tenant) (membership : TenantMembership)
    (body : InviteRequest) :
    Touches [.invitations, .jobs] (inviteUser c tenant membership body) :=
  .sub (.bind (.ensure _ _) fun _ => .bind (.query _) fun _ => .bind (.ensure _ _) fun _ =>
    .bind (.query _) fun _ => .bind (.ensure _ _) fun _ => .bind touches_invitations fun _ =>
    .bind touches_flush fun _ => .bind (touches_enqueueJob _) fun _ => .pure _) (by simp)

theorem acceptInvitation_touches (user : User) (token : TimedToken InvitationPayload) :
    Touches [.memberships, .invitations] (acceptInvitation c user token) :=
  .sub (.bind (.ofExcept _) fun _ => .bind (.ensure _ _) fun _ => .bind (.query _) fun _ =>
    .bind (.orRaise _ _) fun _ => .bind (.orRaise _ _) fun _ => .bind (.ensure _ _) fun _ =>
    .bind (.ensure _ _) fun _ => .bind (.query _) fun _ => .bind (.ensure _ _) fun _ =>
    .bind touches_join fun _ => .bind touches_flush fun _ => .pure _) (by simp)

theorem cancelInvitation_touches (tenantId invitationId : Uuid) :
    Touches [.invitations] (cancelInvitation tenantId invitationId) :=
  .sub (.bind (.query _) fun _ => .bind (.orRaise _ _) fun _ => .bind (.ensure _ _) fun _ =>
    touches_invitations) (by simp)

theorem setMfaEnforcement_touches (tenant : Tenant) (actor : User) (enforce : Bool) :
    Touches [.tenants, .refreshTokens, .sessions] (Router.setMfaEnforcement tenant actor enforce) :=
  .sub (.ite (.bind (.ensure _ _) fun _ => .bind touches_tenants fun _ => .bind (.query _) fun _ =>
    touches_deleteRefreshTokens) touches_tenants) (by simp)

/-! ### Administration -/

theorem requireAdmin_touches (token : Bearer) : Touches [] (requireAdmin c token) :=
  .sub (.bind (.ofExcept _) fun _ => .bind (.lookup _) fun _ => .bind (.ensure _ _) fun _ =>
    .bind (.query _) fun _ => .bind (.orRaise _ _) fun _ => .bind (.ensure _ _) fun _ =>
    .bind (.ensure _ _) fun _ => .pure _) (by simp)

theorem adminLogin_touches (email password : String) :
    Touches [.refreshTokens] (adminLogin c email password) :=
  .sub (.bind (.query _) fun _ => .bind (.orRaise _ _) fun _ => .bind (.ensure _ _) fun _ =>
    .bind (.ensure _ _) fun _ => .bind touches_addRefreshToken fun _ => .pure _) (by simp)

theorem adminRefresh_touches (token : String) :
    Touches [.refreshTokens, .sessions] (adminRefresh c token) :=
  .sub (.bind (.query _) fun _ => .bind (.orRaise _ _) fun _ => .ite
    (.bind touches_deleteRefreshTokens fun _ => .throw _)
    (.bind touches_deleteRefreshTokens fun _ => .bind touches_addRefreshToken fun _ => .pure _))
    (by simp)

theorem adminLogout_touches (token : String) (jti : Uuid) :
    Touches [.refreshTokens, .sessions, .blacklist] (adminLogout c token jti) :=
  .bind (deleteIfFound_touches token) fun _ => blacklistJti_touches jti

theorem changeTenant_touches (tenantId : Uuid) (refuse : Tenant → Bool) (error : PyError)
    (change : Tenant → Tenant) :
    Touches [.tenants] (changeTenant tenantId refuse error change) :=
  .bind (.query _) fun _ => .bind (.orRaise _ _) fun _ => .bind (.ensure _ _) fun _ =>
    touches_tenants

theorem suspendTenant_touches (tenantId : Uuid) :
    Touches [.tenants, .blacklist, .refreshTokens, .sessions] (suspendTenant c tenantId) :=
  .bind (changeTenant_touches _ _ _ _) fun _ => .bind (.query _) fun _ => revokeSessionsOf_touches _

theorem setBlocked_touches (userId tenantId : Uuid) (blocked : Bool) :
    Touches [.memberships] (setBlocked userId tenantId blocked) :=
  .bind (.query _) fun _ => .bind (.orRaise _ _) fun _ => touches_memberships

theorem forcePasswordReset_touches (userId : Uuid) :
    Touches [.users, .blacklist, .refreshTokens, .sessions, .jobs] (forcePasswordReset c userId) :=
  .sub (.bind (.query _) fun _ => .bind (.orRaise _ _) fun _ =>
    .bind (touches_updateUser fun _ => rfl) fun _ => .bind (revokeSessionsOf_touches _) fun _ =>
    .bind touches_flush fun _ => touches_enqueueJob _) (by simp)

/-! ### The caller's own account -/

theorem changeEmail_touches (user : User) (email : String) :
    Touches [.users, .credentials, .otp, .jobs] (changeEmail c user email) :=
  .sub (.bind (.query _) fun _ => .bind (.ensure _ _) fun _ => .bind touches_users fun _ =>
    .bind (createVerificationCode_touches _) fun _ => touches_enqueueJob _) (by simp)

theorem updateProfile_touches (user : User) (data : UpdateProfileRequest) :
    Touches [.users, .credentials, .otp, .jobs] (updateProfile c user data) :=
  .sub (.bind (touches_updateUser fun _ => rfl) fun _ => (by
    cases data.email with
    | none => exact .sub (.pure _) (by simp)
    | some email => exact .sub (.ite (.pure _) (changeEmail_touches user email)) (by simp) :
    Touches [.users, .credentials, .otp, .jobs] _)) (by simp)

theorem revokeOtherSessions_touches (userId : Uuid) (currentJti : Option Uuid) :
    Touches [.blacklist, .refreshTokens, .sessions] (revokeOtherSessions c userId currentJti) :=
  .sub (.bind (.query _) fun _ => .bind (.forM blacklistJti_touches _) fun _ => .bind (.query _)
    fun _ => .bind touches_deleteRefreshTokens fun _ => .pure _) (by simp)

theorem changePassword_touches (user : User) (current new : String) (jti : Option Uuid) :
    Touches [.users, .credentials, .blacklist, .refreshTokens, .sessions]
      (changePassword c user current new jti) :=
  .sub (.bind (.ensure _ _) fun _ => .bind (.ofExcept _) fun _ => .bind (.ensure _ _) fun _ =>
    .bind touches_users fun _ => .bind (revokeOtherSessions_touches _ _) fun _ => .pure _) (by simp)

theorem revokeSession_touches (user : User) (sessionId : String) (jti : Uuid) :
    Touches [.blacklist, .refreshTokens, .sessions] (revokeSession c user sessionId jti) :=
  .sub (.bind (.orRaise _ _) fun _ => .bind (.query _) fun _ => .bind (.orRaise _ _) fun _ =>
    .bind (.ensure _ _) fun _ => .bind (blacklistJti_touches _) fun _ =>
    touches_deleteRefreshTokens) (by simp)

/-! ### Requests -/

def Request.parts : Request → List Part
  | .signup .. => [.users, .credentials, .otp, .jobs]
  | .verifyEmail .. => [.users, .otp, .memberships, .invitations]
  | .resendVerification .. => [.otp, .jobs]
  | .login .. => [.trustedDevices, .mfaPending, .refreshTokens, .sessions, .replay, .users,
      .wxcodeCode]
  | .mfaVerify .. => [.mfaUsed, .backupCodes, .mfaPending, .refreshTokens, .sessions, .replay,
      .users, .wxcodeCode, .trustedDevices]
  | .refresh .. => [.refreshTokens, .sessions, .replay]
  | .logout .. => [.refreshTokens, .sessions, .blacklist]
  | .forgotPassword .. => [.jobs]
  | .resetPassword .. => [.users, .credentials, .refreshTokens, .sessions]
  | .wxcodeExchange .. => [.wxcodeCode]
  | .oauthCallback .. => [.users, .credentials, .oauthAccounts, .otp, .jobs, .refreshTokens,
      .sessions, .replay, .oauthLink]
  | .oauthLinkConfirm .. => [.oauthLink, .oauthAccounts, .refreshTokens, .sessions, .replay]
  | .mfaEnroll .. => [.lastActive, .users]
  | .mfaConfirm .. | .mfaDisable .. => [.lastActive, .users, .backupCodes]
  | .getMe .. => [.lastActive]
  | .patchMe .. => [.lastActive, .users, .credentials, .otp, .jobs]
  | .changePassword .. => [.lastActive, .users, .credentials, .blacklist, .refreshTokens, .sessions]
  | .revokeSession .. | .revokeAllSessions .. => [.lastActive, .blacklist, .refreshTokens, .sessions]
  | .createWorkspace .. => [.lastActive, .tenants, .memberships, .subscriptions]
  | .changeMemberRole .. | .removeMember .. | .leaveTenant .. => [.lastActive, .memberships]
  | .initiateTransfer .. | .getPendingTransfer .. => [.lastActive, .transfers]
  | .acceptTransfer .. => [.lastActive, .memberships, .transfers]
  | .createInvitation .. => [.lastActive, .invitations, .jobs]
  | .acceptInvitation .. => [.lastActive, .memberships, .invitations]
  | .cancelInvitation .. => [.lastActive, .invitations]
  | .toggleMfaEnforcement .. => [.lastActive, .tenants, .refreshTokens, .sessions]
  | .adminLogin .. => [.refreshTokens]
  | .adminRefresh .. => [.refreshTokens, .sessions]
  | .adminLogout .. => [.refreshTokens, .sessions, .blacklist]
  | .suspendTenant .. => [.tenants, .blacklist, .refreshTokens, .sessions]
  | .reactivateTenant .. | .softDeleteTenant .. => [.tenants]
  | .blockUser .. | .unblockUser .. => [.memberships]
  | .forcePasswordReset .. => [.users, .blacklist, .refreshTokens, .sessions, .jobs]
  | .createCheckoutSession .. => [.lastActive, .subscriptions]
  | .stripeEvent .. => [.subscriptions, .webhookEvents, .blacklist, .refreshTokens, .sessions, .jobs]

theorem loginResponse_touches (result : LoginResult) (user : Option User) :
    Touches [.users, .wxcodeCode] (Router.loginResponse c result user) := by
  unfold Router.loginResponse
  split
  · exact .sub (.bind (redirectToWxcode_touches _ _) fun _ => .pure _) (by simp)
  · exact .sub (.pure _) (by simp)

/-- A guard for super-admins changes nothing. -/
theorem touches_asAdmin {α : Type} {parts : List Part} (token : Bearer) {k : PUnit → App α}
    (hk : ∀ a, Touches parts (k a)) : Touches parts (discard (requireAdmin c token) >>= k) :=
  .bind (.sub (.bind (requireAdmin_touches token) fun _ => .pure _) (by simp) : Touches [] _) hk

theorem handle_touches (r : Request) : Touches r.parts (handle c r) := by
  cases r with
  | signup => exact .sub (.bind (signup_touches _ _) fun _ => .pure _) (by simp [Request.parts])
  | verifyEmail =>
    exact .sub (.bind (verifyEmail_touches _ _) fun _ => .pure _) (by simp [Request.parts])
  | resendVerification =>
    exact .sub (.bind (resendVerification_touches _) fun _ => .pure _) (by simp [Request.parts])
  | login =>
    exact .sub (.bind (login_touches _ _ _ _ _) fun _ => .bind (.query _) fun _ =>
      loginResponse_touches _ _) (by simp [Request.parts])
  | mfaVerify => exact .sub (.bind (mfaVerify_touches _ _ _) fun _ => .pure _) (by simp [Request.parts])
  | refresh => exact .sub (.bind (refresh_touches _ _ _) fun _ => .pure _) (by simp [Request.parts])
  | logout => exact .sub (.bind (logout_touches _ _) fun _ => .pure _) (by simp [Request.parts])
  | forgotPassword =>
    exact .sub (.bind (forgotPassword_touches _) fun _ => .pure _) (by simp [Request.parts])
  | resetPassword =>
    exact .sub (.bind (resetPassword_touches _ _) fun _ => .pure _) (by simp [Request.parts])
  | wxcodeExchange =>
    exact .sub (.bind (exchangeWxcodeCode_touches _) fun _ => .bind (.orRaise _ _) fun _ => .pure _)
      (by simp [Request.parts])
  | oauthCallback =>
    exact .sub (.bind (.ensure _ _) fun _ => .bind (resolveOauthAccount_touches _ _ _ _ _) fun _ =>
      .pure _) (by simp [Request.parts])
  | oauthLinkConfirm =>
    exact .sub (.bind (confirmOauthLink_touches _ _ _ _) fun _ => .pure _) (by simp [Request.parts])
  | mfaEnroll =>
    exact .sub (.bind (requireVerified_touches _) fun _ => .bind (mfaBeginEnrollment_touches _)
      fun _ => .pure _) (by simp [Request.parts])
  | mfaConfirm =>
    exact .sub (.bind (requireVerified_touches _) fun _ => .bind (mfaConfirmEnrollment_touches _ _)
      fun _ => .pure _) (by simp [Request.parts])
  | mfaDisable =>
    exact .sub (.bind (requireVerified_touches _) fun _ => .bind (mfaDisable_touches _ _) fun _ =>
      .pure _) (by simp [Request.parts])
  | getMe => exact .sub (.bind (requireVerified_touches _) fun _ => .pure _) (by simp [Request.parts])
  | patchMe =>
    exact .sub (.bind (requireVerified_touches _) fun _ => .bind (.ensure _ _) fun _ =>
      .bind (updateProfile_touches _ _) fun _ => .pure _) (by simp [Request.parts])
  | changePassword =>
    exact .sub (.bind (requireVerified_touches _) fun _ => .bind (getCurrentJti_touches _) fun _ =>
      .bind (changePassword_touches _ _ _ _) fun _ => .pure _) (by simp [Request.parts])
  | revokeSession =>
    exact .sub (.bind (requireVerified_touches _) fun _ => .bind (getCurrentJti_touches _) fun _ =>
      .bind (revokeSession_touches _ _ _) fun _ => .pure _) (by simp [Request.parts])
  | revokeAllSessions =>
    exact .sub (.bind (requireVerified_touches _) fun _ => .bind (getCurrentJti_touches _) fun _ =>
      .bind (revokeOtherSessions_touches _ _) fun _ => .pure _) (by simp [Request.parts])
  | createWorkspace =>
    exact .sub (.bind (requireVerified_touches _) fun _ => .bind (createWorkspace_touches _ _)
      fun _ => .pure _) (by simp [Request.parts])
  | changeMemberRole =>
    exact .sub (.bind (requireRole_touches _ _ _) fun _ => .bind (changeRole_touches _ _ _ _ _)
      fun _ => .bind (.query _) fun _ => .bind (.ensure _ _) fun _ => .pure _) (by simp [Request.parts])
  | removeMember =>
    exact .sub (.bind (requireRole_touches _ _ _) fun _ => .bind (removeMember_touches _ _ _)
      fun _ => .pure _) (by simp [Request.parts])
  | leaveTenant =>
    exact .sub (.bind (getTenantContext_touches _ _) fun _ => .bind (leaveTenant_touches _ _ _)
      fun _ => .pure _) (by simp [Request.parts])
  | initiateTransfer =>
    exact .sub (.bind (requireRole_touches _ _ _) fun _ => .bind (initiateTransfer_touches _ _ _)
      fun _ => .pure _) (by simp [Request.parts])
  | acceptTransfer =>
    exact .sub (.bind (getTenantContext_touches _ _) fun _ => .bind (acceptTransfer_touches _ _)
      fun _ => .pure _) (by simp [Request.parts])
  | getPendingTransfer =>
    exact .sub (.bind (requireRole_touches _ _ _) fun _ => .bind (getPendingTransfer_touches _)
      fun _ => .bind (.orRaise _ _) fun _ => .pure _) (by simp [Request.parts])
  | createInvitation =>
    exact .sub (.bind (requireRole_touches _ _ _) fun _ => .bind (enforceMemberCap_touches _)
      fun _ => .bind (inviteUser_touches _ _ _) fun _ => .pure _) (by simp [Request.parts])
  | acceptInvitation =>
    exact .sub (.bind (requireVerified_touches _) fun _ => .bind (acceptInvitation_touches _ _)
      fun _ => .pure _) (by simp [Request.parts])
  | cancelInvitation =>
    exact .sub (.bind (requireRole_touches _ _ _) fun _ => .bind (cancelInvitation_touches _ _)
      fun _ => .pure _) (by simp [Request.parts])
  | toggleMfaEnforcement =>
    exact .sub (.bind (requireRole_touches _ _ _) fun _ => .bind (.query _) fun _ =>
      .bind (.orRaise _ _) fun _ => .bind (setMfaEnforcement_touches _ _ _) fun _ => .pure _)
      (by simp [Request.parts])
  | adminLogin =>
    exact .sub (.bind (.ensure _ _) fun _ => .bind (adminLogin_touches _ _) fun _ => .pure _)
      (by simp [Request.parts])
  | adminRefresh =>
    exact .sub (.bind (adminRefresh_touches _) fun _ => .pure _) (by simp [Request.parts])
  | adminLogout =>
    exact .sub (touches_asAdmin _ fun _ => .bind (.ofExcept _) fun _ =>
      .bind (adminLogout_touches _ _) fun _ => .pure _) (by simp [Request.parts])
  | suspendTenant =>
    exact .sub (touches_asAdmin _ fun _ => .bind (suspendTenant_touches _) fun _ => .pure _)
      (by simp [Request.parts])
  | reactivateTenant | softDeleteTenant =>
    exact .sub (touches_asAdmin _ fun _ => .bind (changeTenant_touches _ _ _ _) fun _ => .pure _)
      (by simp [Request.parts])
  | blockUser | unblockUser =>
    exact .sub (touches_asAdmin _ fun _ => .bind (setBlocked_touches _ _ _) fun _ => .pure _)
      (by simp [Request.parts])
  | forcePasswordReset =>
    exact .sub (touches_asAdmin _ fun _ => .bind (forcePasswordReset_touches _) fun _ => .pure _)
      (by simp [Request.parts])
  | createCheckoutSession =>
    exact .sub (.bind (requireBillingAccess_touches _ _) fun _ =>
      .bind (createCheckoutSession_touches _ _) fun _ => .pure _) (by simp [Request.parts])
  | stripeEvent =>
    exact .sub (.bind (processStripeEvent_touches _ _ _) fun _ => .pure _) (by simp [Request.parts])

/-- A request, whether it commits or not, leaves what is not among its parts. -/
theorem Step.same {cfg : Config} {s s' : Sys} {e : Event} (h : Step cfg s e s') {p : Part}
    (hp : p ∉ e.request.parts) : p.Same s.world s'.world := by
  have hTouches : Touches e.request.parts (transaction (e.ctx cfg) e.request) :=
    .sub (.bind (handle_touches e.request) fun _ => .bind touches_flush fun _ => .pure _) (by simp)
  have hStep := (hTouches p hp).atomically (fun _ _ => Part.Same.rollback) s.world
  rwa [show Handler.atomically _ s.world = _ from h.served] at hStep

end WxcodeAdm
