import WxcodeAdm.Auth.Account

/-! The second factor in `auth/service.py`: TOTP and backup codes, enrolment, trusted devices, and
the two stages of a login. -/

namespace WxcodeAdm

open Lib

variable (c : Ctx)

/-! ### Codes -/

def timeStep : Nat := timestamp c.now / 30

/-- The time steps that `valid_window=1` accepts. -/
def totpWindow : List Nat := [timeStep c - 1, timeStep c, timeStep c + 1]

/-- `utils.strings_equal` of pyotp. -/
def stringsEqual (a b : String) : Bool := c.lib.nfkc a = c.lib.nfkc b

/-- `pyotp.TOTP(secret).verify(code, valid_window=1)`, which raises on a missing secret. -/
def totpVerify (secret : Option String) (code : String) : Except PyError Bool :=
  match secret with
  | some secret => .ok ((totpWindow c).any fun step => stringsEqual c code (c.lib.totpAt secret step))
  | none => .error (.other "TypeError")

/-- `code.replace("-", "")` -/
def stripDashes (code : String) : String := .ofList (code.toList.filter (· ≠ '-'))

/-- `len(code) == 6 and code.isdigit()` -/
def isTotpCode (code : String) : Bool := code.length = 6 ∧ code.toList.all c.lib.isDigit

/-- The first unused backup code of the user that the submitted code matches. -/
def matchingBackupCode (userId : Uuid) (code : String) (db : Db) : Option MfaBackupCode :=
  (db.backupCodes.filter fun b => b.userId = userId ∧ b.usedAt = none).find? fun b =>
    c.lib.verifyPassword (stripDashes code) b.codeHash

def redeemBackupCode (userId : Uuid) (code : String) : App Unit := do
  let found ← .query (matchingBackupCode c userId code)
  let row ← .orRaise found .mfaInvalidCode
  .exec fun db => db.updateBackupCode row.id fun b => { b with usedAt := some c.now }

def deleteBackupCodes (userId : Uuid) : App Unit :=
  .exec fun db => { db with backupCodes := db.backupCodes.filter fun b => b.userId ≠ userId }

/-! ### Enrolment -/

/-- `generate_backup_codes`: the codes as shown, and the rows with their hashes. -/
def generateBackupCodes (userId : Uuid) : List String × List MfaBackupCode :=
  (c.draws.backupCodes.map fun (_, _, raw) =>
      String.ofList (raw.toList.take 5) ++ "-" ++ String.ofList (raw.toList.drop 5),
    c.draws.backupCodes.map fun (id, salt, raw) =>
      { id, userId, codeHash := c.lib.hashPassword salt (stripDashes raw) })

def mfaAlreadyEnabled : PyError := .app "MFA_ALREADY_ENABLED" "MFA is already enabled" 400

def mfaBeginEnrollment (user : User) : App String := do
  .ensure (user.mfaEnabled = false) mfaAlreadyEnabled
  .exec fun db => db.updateUser user.id fun u => { u with mfaSecret := some c.draws.mfaSecret }
  return c.draws.mfaSecret

def mfaConfirmEnrollment (user : User) (code : String) : App (List String) := do
  .ensure (user.mfaSecret.isSome = true) (.app "MFA_NOT_STARTED" "Begin enrollment first" 400)
  .ensure (user.mfaEnabled = false) mfaAlreadyEnabled
  let valid ← .ofExcept (totpVerify c user.mfaSecret code)
  .ensure (valid = true) .mfaInvalidCode
  .exec fun db => db.updateUser user.id fun u => { u with mfaEnabled := true }
  deleteBackupCodes user.id
  let codes := generateBackupCodes c user.id
  .exec fun db => { db with backupCodes := db.backupCodes ++ codes.2 }
  flush
  return codes.1

/-- TOTP first, and then a backup code. -/
def checkDisableCode (user : User) (code : String) : App Unit := do
  let totpValid ← .ofExcept (totpVerify c user.mfaSecret code)
  if totpValid then pure () else redeemBackupCode c user.id code

def mfaDisable (user : User) (code : String) : App Unit := do
  .ensure user.mfaEnabled (.app "MFA_NOT_ENABLED" "MFA is not enabled" 400)
  checkDisableCode c user code
  .exec fun db => db.updateUser user.id fun u => { u with mfaEnabled := false, mfaSecret := none }
  deleteBackupCodes user.id

/-! ### Trusted devices -/

def createTrustedDevice (userId : Uuid) : App String := do
  .exec fun db => { db with
    trustedDevices := db.trustedDevices ++
      [{ id := c.draws.deviceId, userId, tokenHash := c.lib.sha256 c.draws.deviceToken,
         expiresAt := c.now + days c.settings.trustedDeviceTtlDays }] }
  return c.draws.deviceToken

def trustedDevice (userId : Uuid) (deviceToken : String) (db : Db) : Option TrustedDevice :=
  db.trustedDevices.find? fun d => d.userId = userId ∧ d.tokenHash = c.lib.sha256 deviceToken

/-- `is_device_trusted`: an expired device is deleted. -/
def isDeviceTrusted (userId : Uuid) (deviceToken : String) : App Bool := do
  if deviceToken = "" then return false
  else
    match ← .query (trustedDevice c userId deviceToken) with
    | none => return false
    | some row =>
      if row.expiresAt < c.now then
        .exec fun db => { db with
          trustedDevices := db.trustedDevices.filter fun d => d.id ≠ row.id }
        return false
      else return true

def revokeTrustedDevices (userId : Uuid) : App Unit :=
  .exec fun db => { db with
    trustedDevices := db.trustedDevices.filter fun d => d.userId ≠ userId }

/-! ### Redirect to wxcode -/

def createWxcodeCode (userId : Uuid) (tokens : TokenResponse) : App String := do
  .store fun r => { r with
    wxcodeCode := r.wxcodeCode.set c.now c.draws.wxcodeCode
      ⟨userId, tokens.accessToken, tokens.refreshToken⟩ (seconds c.settings.wxcodeCodeTtl) }
  return c.draws.wxcodeCode

/-- `exchange_wxcode_code`, by `GETDEL`. -/
def exchangeWxcodeCode (code : String) : App (Option (WxcodeCode Payload)) :=
  .exchange (fun r => r.wxcodeCode.get c.now code) fun r =>
    { r with wxcodeCode := r.wxcodeCode.del code }

/-- A `wxcode_url` that is set and not empty, with the tenant. -/
def tenantRedirect (tenant : Tenant) : Option (String × Uuid) :=
  match tenant.wxcodeUrl with
  | some url => if url = "" then none else some (url, tenant.id)
  | none => none

/-- `get_redirect_url`: the last used tenant, else the tenant of the newest membership. -/
def getRedirectUrl (user : User) (db : Db) : Option (String × Uuid) :=
  ((user.lastUsedTenantId.bind db.tenant).bind tenantRedirect) <|>
    (((db.latestMembership user.id).bind fun m => db.tenant m.tenantId).bind tenantRedirect)

/-- The redirect of a login: a one-time code, and the tenant as the last used one. -/
def redirectToWxcode (user : User) (tokens : TokenResponse) : App (Option (String × String)) := do
  match ← .query (getRedirectUrl user) with
  | none => return none
  | some (url, tenantId) =>
    let code ← createWxcodeCode c user.id tokens
    .exec fun db => db.updateUser user.id fun u => { u with lastUsedTenantId := some tenantId }
    return some (url, code)

/-! ### Login -/

inductive LoginResult where
  | tokens (tokens : TokenResponse)
  | mfaRequired (mfaToken : String) (setupRequired : Bool)
  deriving DecidableEq, Repr

def createMfaPending (pending : MfaPending) : App String := do
  .store fun r => { r with
    mfaPending := r.mfaPending.set c.now c.draws.mfaToken pending
      (seconds c.settings.mfaPendingTtlSeconds) }
  return c.draws.mfaToken

/-- Whether the device lets the second factor be skipped: never in an enforcing tenant. -/
def skipMfa (user : User) (enforcing : List Uuid) (deviceToken : Option String) : App Bool :=
  match deviceToken with
  | some token => if enforcing = [] then isDeviceTrusted c user.id token else pure false
  | none => pure false

/-- `login` after the credentials were checked. -/
def loginVerified (user : User) (deviceToken userAgent ipAddress : Option String) :
    App LoginResult := do
  let enforcing ← .query (getEnforcingTenantsForUser user.id)
  if enforcing ≠ [] ∧ user.mfaEnabled = false then
    let mfaToken ← createMfaPending c (.setupRequired user.id)
    return .mfaRequired mfaToken true
  else if user.mfaEnabled then
    let trusted ← skipMfa c user enforcing deviceToken
    if trusted then
      let tokens ← issueTokens c user userAgent ipAddress
      return .tokens tokens
    else
      let mfaToken ← createMfaPending c (.plain user.id)
      return .mfaRequired mfaToken false
  else
    let tokens ← issueTokens c user userAgent ipAddress
    return .tokens tokens

def login (email : String) (password : PyStr) (deviceToken userAgent ipAddress : Option String) :
    App LoginResult := do
  let found ← .query fun db => db.userByEmail email
  let user ← .orRaise found .invalidCredentials
  .ensure user.isActive .invalidCredentials
  let valid ← .ofExcept (verifyPassword c password user.passwordHash)
  .ensure (valid = true) .invalidCredentials
  .ensure user.emailVerified (.emailNotVerified "Please verify your email before logging in")
  loginVerified c user deviceToken userAgent ipAddress

/-! ### Second stage -/

/-- `MfaVerifyRequest`, with the length that its schema asks of a code. -/
structure MfaVerifyRequest where
  mfaToken : PyStr
  code : String
  trustDevice : Bool := false
  codeLength : 6 ≤ code.length ∧ code.length ≤ 11

/-- `MfaDisableRequest` -/
structure MfaDisableRequest where
  code : String
  codeLength : 6 ≤ code.length ∧ code.length ≤ 11

/-- The user of a pending login; one who must enrol first is turned away. -/
def pendingUserId (pending : MfaPending) : Except PyError Uuid :=
  match pending with
  | .plain userId => .ok userId
  | .setupRequired _ =>
    .error (.app "MFA_SETUP_REQUIRED"
      "You must complete MFA enrollment before logging in" 403)

/-- The replay check of `mfa_verify`: a code with the shape of a TOTP code must not be the one that
was accepted last, while that is remembered. -/
def replayedCode (userId : Uuid) (code : String) (r : Redis) : Bool :=
  isTotpCode c code && decide (r.mfaUsed.get c.now userId = some code)

/-- The verification of `mfa_verify`: TOTP first, and then a backup code. -/
def verifySecondFactor (user : User) (code : String) : App Unit := do
  let totpValid ← .ofExcept (totpVerify c user.mfaSecret code)
  if totpValid then
    .store fun r => { r with mfaUsed := r.mfaUsed.set c.now user.id code (seconds 60) }
  else redeemBackupCode c user.id code

/-- What comes of a token that no key of Redis has. -/
def unknownToken (token : PyStr) : PyError :=
  match token.encode with
  | .ok _ => .invalidToken
  | .error error => error

structure MfaVerifyResult where
  tokens : TokenResponse
  redirect : Option (String × String)
  deviceToken : Option String
  deriving DecidableEq, Repr

/-- `mfa_verify` after the code was accepted. -/
def completeMfaLogin (user : User) (body : MfaVerifyRequest) (userAgent ipAddress : Option String) :
    App MfaVerifyResult := do
  .store fun r => { r with mfaPending := r.mfaPending.del body.mfaToken }
  let tokens ← issueTokens c user userAgent ipAddress
  let redirect ← redirectToWxcode c user tokens
  if body.trustDevice then
    let deviceToken ← createTrustedDevice c user.id
    return ⟨tokens, redirect, some deviceToken⟩
  else return ⟨tokens, redirect, none⟩

def mfaVerify (body : MfaVerifyRequest) (userAgent ipAddress : Option String) :
    App MfaVerifyResult := do
  let raw ← .lookup fun r => r.mfaPending.get c.now body.mfaToken
  let pending ← .orRaise raw (unknownToken body.mfaToken)
  let userId ← .ofExcept (pendingUserId pending)
  let found ← .query fun db => db.user userId
  let user ← .orRaise found .invalidToken
  .ensure user.isActive .invalidToken
  let replayed ← .lookup (replayedCode c userId body.code)
  .ensure (replayed = false) .mfaInvalidCode
  verifySecondFactor c user body.code
  completeMfaLogin c user body userAgent ipAddress

/-! ### Evolution -/

variable {c} {P : Power → Prop}

theorem redeemBackupCode_evolves (userId : Uuid) (code : String) :
    Handler.Within (Evolves c P) (redeemBackupCode c userId code) :=
  .bind (.query _) fun _ => .bind (.orRaise _ _) fun _ => Evolves.exec_frame fun _ => rfl

theorem deleteBackupCodes_evolves (userId : Uuid) :
    Handler.Within (Evolves c P) (deleteBackupCodes userId) :=
  Evolves.exec_frame fun _ => rfl

theorem mfaBeginEnrollment_evolves (user : User) :
    Handler.Within (Evolves c P) (mfaBeginEnrollment c user) :=
  .bind (.ensure _ _) fun _ => .bind (Evolves.updateUser (fun _ => rfl) fun _ => rfl) fun _ =>
    .pure _

theorem mfaConfirmEnrollment_evolves (user : User) (code : String) :
    Handler.Within (Evolves c P) (mfaConfirmEnrollment c user code) :=
  .bind (.ensure _ _) fun _ => .bind (.ensure _ _) fun _ => .bind (.ofExcept _) fun _ =>
    .bind (.ensure _ _) fun _ => .bind (Evolves.updateUser (fun _ => rfl) fun _ => rfl) fun _ =>
    .bind (deleteBackupCodes_evolves _) fun _ => .bind (Evolves.exec_frame fun _ => rfl) fun _ =>
    .bind Evolves.flush fun _ => .pure _

theorem mfaDisable_evolves (user : User) (code : String) :
    Handler.Within (Evolves c P) (mfaDisable c user code) :=
  .bind (.ensure _ _) fun _ =>
    .bind (.bind (.ofExcept _) fun _ => .ite (.pure _) (redeemBackupCode_evolves _ _)) fun _ =>
    .bind (Evolves.updateUser (fun _ => rfl) fun _ => rfl) fun _ => deleteBackupCodes_evolves _

theorem createTrustedDevice_evolves (userId : Uuid) :
    Handler.Within (Evolves c P) (createTrustedDevice c userId) :=
  .bind (.exec fun s => { Evolves.refl s with
    trustedDevices := (Grows.refl _).append (by simp) }) fun _ => .pure _

theorem isDeviceTrusted_evolves (userId : Uuid) (deviceToken : String) :
    Handler.Within (Evolves c P) (isDeviceTrusted c userId deviceToken) :=
  .ite (.pure _) <| .bind (.query _) fun found => by
    cases found with
    | none => exact .pure _
    | some _ =>
      exact .ite (.bind (.exec fun s => { Evolves.refl s with trustedDevices := .filter _ })
        fun _ => .pure _) (.pure _)

theorem createWxcodeCode_evolves (userId : Uuid) (tokens : TokenResponse) :
    Handler.Within (Evolves c P) (createWxcodeCode c userId tokens) :=
  .bind (Evolves.store_frame fun _ => rfl) fun _ => .pure _

theorem exchangeWxcodeCode_evolves (code : String) :
    Handler.Within (Evolves c P) (exchangeWxcodeCode c code) :=
  Evolves.exchange_frame fun _ => rfl

theorem redirectToWxcode_evolves (user : User) (tokens : TokenResponse) :
    Handler.Within (Evolves c P) (redirectToWxcode c user tokens) :=
  .bind (.query _) fun found => by
    cases found with
    | none => exact .pure _
    | some _ =>
      exact .bind (createWxcodeCode_evolves _ _) fun _ =>
        .bind (Evolves.updateUser (fun _ => rfl) fun _ => rfl) fun _ => .pure _

theorem createMfaPending_evolves (pending : MfaPending) :
    Handler.Within (Evolves c P) (createMfaPending c pending) :=
  .bind (Evolves.store_frame fun _ => rfl) fun _ => .pure _

theorem skipMfa_evolves (user : User) (enforcing : List Uuid) (deviceToken : Option String) :
    Handler.Within (Evolves c P) (skipMfa c user enforcing deviceToken) := by
  cases deviceToken with
  | none => exact .pure _
  | some token => exact .ite (isDeviceTrusted_evolves _ _) (.pure _)

theorem loginVerified_evolves (h : P .issue) (user : User) (device ua ip : Option String) :
    Handler.Within (Evolves c P) (loginVerified c user device ua ip) :=
  .bind (.query _) fun _ => .ite (.bind (createMfaPending_evolves _) fun _ => .pure _) <|
    .ite
      (.bind (skipMfa_evolves _ _ _) fun _ => .ite
        (.bind (issueTokens_evolves h _ _ _) fun _ => .pure _)
        (.bind (createMfaPending_evolves _) fun _ => .pure _))
      (.bind (issueTokens_evolves h _ _ _) fun _ => .pure _)

theorem login_evolves (h : P .issue) (email : String) (password : PyStr)
    (device ua ip : Option String) :
    Handler.Within (Evolves c P) (login c email password device ua ip) :=
  .bind (.query _) fun _ => .bind (.orRaise _ _) fun _ => .bind (.ensure _ _) fun _ =>
    .bind (.ofExcept _) fun _ => .bind (.ensure _ _) fun _ => .bind (.ensure _ _) fun _ =>
    loginVerified_evolves h _ _ _ _

theorem verifySecondFactor_evolves (h : P .totp) (user : User) (code : String) :
    Handler.Within (Evolves c P) (verifySecondFactor c user code) :=
  .bind (.ofExcept _) fun _ => .ite
    (.store fun s => { Evolves.refl s with mfaUsed := .inl h }) (redeemBackupCode_evolves _ _)

theorem completeMfaLogin_evolves (h : P .issue) (user : User) (body : MfaVerifyRequest)
    (ua ip : Option String) :
    Handler.Within (Evolves c P) (completeMfaLogin c user body ua ip) :=
  .bind (Evolves.store_frame fun _ => rfl) fun _ => .bind (issueTokens_evolves h _ _ _) fun _ =>
    .bind (redirectToWxcode_evolves _ _) fun _ => .ite
      (.bind (createTrustedDevice_evolves _) fun _ => .pure _) (.pure _)

theorem mfaVerify_evolves (h : P .issue) (hTotp : P .totp) (body : MfaVerifyRequest)
    (ua ip : Option String) : Handler.Within (Evolves c P) (mfaVerify c body ua ip) :=
  .bind (.lookup _) fun _ => .bind (.orRaise _ _) fun _ => .bind (.ofExcept _) fun _ =>
    .bind (.query _) fun _ => .bind (.orRaise _ _) fun _ => .bind (.ensure _ _) fun _ =>
    .bind (.lookup _) fun _ => .bind (.ensure _ _) fun _ =>
    .bind (verifySecondFactor_evolves hTotp _ _) fun _ => completeMfaLogin_evolves h _ _ _ _

/-! ### What a login issues -/

/-- A login without a second stage issues a pair; one with it issues nothing. -/
def LoginResult.issued : LoginResult → Option TokenResponse
  | .tokens t => some t
  | .mfaRequired .. => none

theorem createMfaPending_sameTokens (pending : MfaPending) :
    Handler.Within SameTokens (createMfaPending c pending) :=
  .bind (.store fun _ => rfl) fun _ => .pure _

theorem createTrustedDevice_sameTokens (userId : Uuid) :
    Handler.Within SameTokens (createTrustedDevice c userId) :=
  .bind (.exec fun _ => rfl) fun _ => .pure _

theorem redirectToWxcode_sameTokens (user : User) (tokens : TokenResponse) :
    Handler.Within SameTokens (redirectToWxcode c user tokens) :=
  .bind (.query _) fun found => by
    cases found with
    | none => exact .pure _
    | some _ =>
      exact .bind (.bind (.store fun _ => rfl) fun _ => .pure _) fun _ =>
        .bind (.exec fun _ => rfl) fun _ => .pure _

theorem createMfaPending_issues (pending : MfaPending) (setupRequired : Bool) :
    Issues c "wxcode-adm" LoginResult.issued (do
      let mfaToken ← createMfaPending c pending
      return .mfaRequired mfaToken setupRequired) :=
  .of_yields (.bind (createMfaPending_sameTokens pending) fun _ => .pure rfl)

theorem loginVerified_issues (user : User) (device ua ip : Option String) :
    Issues c "wxcode-adm" LoginResult.issued (loginVerified c user device ua ip) :=
  .bind_quiet (.query _) fun _ => .ite (createMfaPending_issues _ _) <| .ite
    (.bind_quiet (skipMfa_evolves _ _ _) fun _ => .ite
      (.bind_issue (issueTokens_issues _ _ _) fun _ => .pure rfl)
      (createMfaPending_issues _ _))
    (.bind_issue (issueTokens_issues _ _ _) fun _ => .pure rfl)

theorem login_issues (email : String) (password : PyStr) (device ua ip : Option String) :
    Issues c "wxcode-adm" LoginResult.issued (login c email password device ua ip) :=
  .bind_quiet (.query _) fun _ => .bind_quiet (.orRaise _ _) fun _ =>
    .bind_quiet (.ensure _ _) fun _ => .bind_quiet (.ofExcept _) fun _ =>
    .bind_quiet (.ensure _ _) fun _ => .bind_quiet (.ensure _ _) fun _ =>
    loginVerified_issues _ _ _ _

theorem mfaVerify_issues (body : MfaVerifyRequest) (ua ip : Option String) :
    Issues c "wxcode-adm" (fun r => some r.tokens) (mfaVerify c body ua ip) :=
  .bind_quiet (.lookup _) fun _ => .bind_quiet (.orRaise _ _) fun _ =>
    .bind_quiet (.ofExcept _) fun _ => .bind_quiet (.query _) fun _ =>
    .bind_quiet (.orRaise _ _) fun _ => .bind_quiet (.ensure _ _) fun _ =>
    .bind_quiet (.lookup _) fun _ => .bind_quiet (.ensure _ _) fun _ =>
    .bind_quiet (verifySecondFactor_evolves (by simp [nonIssuing]) _ _) fun _ =>
    .bind_quiet (Evolves.store_frame fun _ => rfl) fun _ =>
    .bind_issue (issueTokens_issues _ _ _) fun _ =>
    .bind (redirectToWxcode_sameTokens _ _) fun _ => .ite
      (.bind (createTrustedDevice_sameTokens _) fun _ => .pure rfl) (.pure rfl)

end WxcodeAdm
