import WxcodeAdm.Json
import WxcodeAdm.Lib.Handler
import WxcodeAdm.Schema

/-! What a request runs in: the settings, the libraries, the random values that the request draws,
and Redis. -/

namespace WxcodeAdm

/-! ### Settings and libraries -/

/-- The settings that the modelled functions read, with the defaults of `config.py`. -/
structure Settings where
  accessTokenTtlHours : Nat := 24
  refreshTokenTtlDays : Nat := 7
  mfaPendingTtlSeconds : Nat := 300
  trustedDeviceTtlDays : Nat := 30
  wxcodeCodeTtl : Nat := 30
  geolite2DbPath : String := ""
  adminAllowedIps : String := ""

/-- What the `user_agents` library reads from a User-Agent header. -/
structure UserAgent where
  isMobile : Bool
  isTablet : Bool
  isPc : Bool
  browserFamily : String
  browserVersion : String

/-- A text made by `itsdangerous`: the payload it decodes to without a check of the signature, and
the salt and the second it was signed with when the signature is genuine.  One with surrogates that
stand alone does not encode. -/
structure TimedToken (π : Type) where
  payload : Option π
  signature : Option (String × Nat)
  encodes : Bool := true
  deriving DecidableEq, Repr

structure InvitationPayload where
  email : String
  tenantId : Uuid
  deriving DecidableEq, Repr

/-- The functions of the standard library and of third-party packages that the modelled functions
call: `hashlib.sha256`, `pwdlib`, `pyotp`, `unicodedata`, `str.isdigit`, `uuid.UUID` and its
text, `user_agents`, `geoip2` and `slugify`. -/
structure Library where
  sha256 : String → String
  -- The hash of a password under a random salt.
  hashPassword : String → String → String
  verifyPassword : String → String → Bool
  -- `TOTP(secret).at` for a 30-second time step.
  totpAt : String → Nat → String
  nfkc : String → String
  isDigit : Char → Bool
  parseUuid : String → Option Uuid
  -- `str` of a UUID.
  uuidText : Uuid → String
  parseUserAgent : String → UserAgent
  geoCity : String → Option String
  slugify : PyStr → String
  invitationText : TimedToken InvitationPayload → String

structure Config where
  settings : Settings
  lib : Library

/-- The values that one request draws from `uuid4`, `secrets` and the password hasher, each under
the name of what it is used for. -/
structure Draws where
  jti : Uuid
  refreshTokenId : Uuid
  refreshToken : String
  sessionId : Uuid
  userId : Uuid
  otp : String
  salt : String
  mfaToken : String
  linkToken : String
  deviceId : Uuid
  deviceToken : String
  wxcodeCode : String
  mfaSecret : String
  backupCodes : List (Uuid × String × String)
  tenantId : Uuid
  membershipIds : Nat → Uuid
  invitationId : Uuid
  transferId : Uuid
  stripeCustomerId : Option String
  -- The URL and the id of a Stripe Checkout session, unless Stripe refuses to make one.
  checkoutSession : Option (String × String) := none
  deriving Inhabited

/-- The configuration, the time and the random values of one request. -/
structure Ctx extends Config where
  now : Nat
  draws : Draws

def TimedToken.dumps {π : Type} (c : Ctx) (salt : String) (payload : π) : TimedToken π where
  payload := some payload
  signature := some (salt, timestamp c.now)

/-- `serializer.loads(token, salt, max_age)`, with its exceptions as the callers translate them. -/
def TimedToken.loads {π : Type} (c : Ctx) (salt : String) (maxAge : Nat) (token : TimedToken π) :
    Except PyError π :=
  if token.encodes = false then .error (.other "UnicodeEncodeError")
  else match token.signature with
  | some (signedWith, signedAt) =>
    if signedWith ≠ salt then .error .invalidToken
    else if timestamp c.now < signedAt ∨ maxAge < timestamp c.now - signedAt then
      .error .tokenExpired
    else match token.payload with
      | some payload => .ok payload
      | none => .error (.other "BadPayload")
  | none => .error .invalidToken

/-! ### Redis -/

inductive Job where
  | sendVerificationEmail (userId : Uuid) (email code : String)
  | sendResetEmail (userId : Uuid) (email : String) (token : TimedToken Json)
  | sendInvitationEmail (email tenantName : String) (token : TimedToken InvitationPayload)
      (role : MemberRole)
  | sendPaymentFailedEmail (email tenantName : String)

/-- The data behind a wxcode authorization code, with the access token of type `τ`. -/
structure WxcodeCode (τ : Type) where
  userId : Uuid
  accessToken : τ
  refreshToken : String

structure Payload where
  sub : Uuid
  aud : Option String
  iat : Nat
  exp : Nat
  jti : Uuid
  tenantId : Option Uuid := none
  role : Option String := none
  deriving DecidableEq, Repr

/-- The keys of Redis by pattern, and the arq queue.  A key of the body of a request may be no text;
none is ever set by such a key. -/
structure Redis where
  -- `auth:blacklist:jti:{jti}`
  blacklist : Lib.Expiring Uuid Unit := .empty
  -- `auth:replay:{sha256}`
  replay : Lib.Expiring String Uuid := .empty
  -- `auth:mfa_pending:{token}`
  mfaPending : Lib.Expiring PyStr MfaPending := .empty
  -- `auth:mfa:used:{user_id}`
  mfaUsed : Lib.Expiring Uuid String := .empty
  -- `auth:oauth_link:{token}`
  oauthLink : Lib.Expiring PyStr OAuthLink := .empty
  -- `auth:otp:{user_id}`
  otp : Lib.Expiring Uuid String := .empty
  -- `auth:otp:attempts:{user_id}`
  otpAttempts : Lib.Expiring Uuid Nat := .empty
  -- `auth:otp:cooldown:{user_id}`
  otpCooldown : Lib.Expiring Uuid Unit := .empty
  -- `auth:wxcode_code:{code}`
  wxcodeCode : Lib.Expiring String (WxcodeCode Payload) := .empty
  -- `auth:session:last_active:{jti}`
  lastActive : Lib.Expiring Uuid Nat := .empty
  jobs : List Job := []

/-- The database and Redis. -/
abbrev World : Type := Lib.Stores Db Redis

/-- A function of the backend that reads and writes them. -/
abbrev App (α : Type) : Type := Lib.Handler Db Redis PyError α

/-- `AsyncSession.flush`: writes that break a constraint raise.  So do a value that its column does
not take and an UPDATE of a row that is gone, whose `DataError` and `StaleDataError` are not kept
apart here. -/
def flush : App Unit := do
  let valid ← .query fun db => decide db.Valid
  .ensure (valid = true) .integrityError

def enqueueJob (job : Job) : App Unit := .store fun r => { r with jobs := r.jobs ++ [job] }

theorem run_forM_enqueueJob {α : Type} (job : α → Job) (l : List α) (s : World) :
    (l.forM fun a => enqueueJob (job a)).run s =
      .ok () { s with cache := { s.cache with jobs := s.cache.jobs ++ l.map job } } := by
  induction l generalizing s with
  | nil => simp
  | cons a l ih =>
    refine (ih { s with cache := { s.cache with jobs := s.cache.jobs ++ [job a] } }).trans ?_
    simp

theorem run_flush_bind {α : Type} {k : Unit → App α} {s : World} :
    (flush >>= k).run s = if s.db.Valid then (k ()).run s else .error .integrityError s := by
  simp only [flush, bind_assoc, Lib.Handler.run_query_bind]
  by_cases hValid : s.db.Valid
  · rw [if_pos hValid, Lib.Handler.ensure_bind_of (decide_eq_true hValid)]
  · rw [if_neg hValid, Lib.Handler.run_bind, Lib.Handler.run_ensure, if_neg (by simpa using hValid)]

theorem run_flush_invalid {s : World} (h : ¬s.db.Valid) :
    flush.run s = .error .integrityError s := by
  have hRun : flush.run s = (flush >>= pure).run s := by rw [bind_pure]
  rw [hRun, run_flush_bind, if_neg h]

@[simp] theorem run_flush_bind_ok {α : Type} {k : Unit → App α} {s s' : World} {a : α} :
    (flush >>= k).run s = .ok a s' ↔ s.db.Valid ∧ (k ()).run s = .ok a s' := by
  simp only [flush, bind_assoc, Lib.Handler.run_query_bind, Lib.Handler.run_ensure_bind_ok,
    decide_eq_true_eq]

@[simp] theorem run_flush_ok {s s' : World} : flush.run s = .ok () s' ↔ s.db.Valid ∧ s = s' := by
  have h : flush.run s = (flush >>= pure).run s := by rw [bind_pure]
  rw [h, run_flush_bind_ok, Lib.Handler.run_pure_ok]
  simp

end WxcodeAdm
