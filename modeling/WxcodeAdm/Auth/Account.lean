import WxcodeAdm.Tenants.Service

/-! The account half of `auth/service.py`: verification codes, sign-up, and the reset of a
password. -/

namespace WxcodeAdm

open Lib

variable (c : Ctx)

/-- `verify_password`; pwdlib raises on a missing hash, and encodes the password for a hash. -/
def verifyPassword (plain : PyStr) : Option String → Except PyError Bool
  | some hashed => do return c.lib.verifyPassword (← plain.encode) hashed
  | none => .error (.other "TypeError")

@[simp] theorem verifyPassword_text (plain hashed : String) :
    verifyPassword c plain (some hashed) = .ok (c.lib.verifyPassword plain hashed) := rfl

def hashPassword (plain : String) : String := c.lib.hashPassword c.draws.salt plain

/-! ### Verification codes -/

def createVerificationCode (userId : Uuid) : App String := do
  .store fun r => { r with otp := r.otp.set c.now userId c.draws.otp (seconds 600) }
  .store fun r => { r with otpAttempts := r.otpAttempts.set c.now userId 0 (seconds 600) }
  .store fun r => { r with otpCooldown := r.otpCooldown.set c.now userId () (seconds 60) }
  return c.draws.otp

def deleteOtp (userId : Uuid) : App Unit :=
  .store fun r => { r with otp := r.otp.del userId, otpAttempts := r.otpAttempts.del userId }

/-- `INCR` of the attempts counter: a missing key counts as 0. -/
def countAttempt (userId : Uuid) : App Nat :=
  .exchange (fun r => (r.otpAttempts.get c.now userId).getD 0 + 1) fun r =>
    { r with otpAttempts := r.otpAttempts.modify c.now userId 0 (· + 1) }

/-- `verify_otp_code`: the code is compared before the failed attempt is counted, and the third
failure deletes it. -/
def verifyOtpCode (userId : Uuid) (submitted : String) : App Bool := do
  match ← .lookup fun r => r.otp.get c.now userId with
  | none => return false
  | some stored =>
    if submitted = stored then
      deleteOtp userId
      return true
    else
      let attempts ← countAttempt c userId
      if 3 ≤ attempts then
        deleteOtp userId
        return false
      else return false

/-! ### Sign-up -/

def signup (email password : String) : App User := do
  let existing ← .query fun db => db.userByEmail email
  .ensure (existing.isSome = false) .emailAlreadyExists
  let user : User :=
    { id := c.draws.userId, email, passwordHash := some (hashPassword c password) }
  .exec fun db => { db with users := db.users ++ [user] }
  flush
  let code ← createVerificationCode c user.id
  enqueueJob (.sendVerificationEmail user.id user.email code)
  return user

/-- `verify_email` after the code was accepted. -/
def markVerified (user : User) : App Unit := do
  .exec fun db => db.updateUser user.id fun u => { u with emailVerified := true }
  discard <| autoJoinPendingInvitations c { user with emailVerified := true }

def verifyEmail (email code : String) : App Unit := do
  let found ← .query fun db => db.userByEmail email
  let user ← .orRaise found .invalidCredentials
  if user.emailVerified then pure ()
  else
    let valid ← verifyOtpCode c user.id code
    .ensure (valid = true)
      (.app "AUTH_INVALID_CODE" "Invalid or expired verification code" 400)
    markVerified c user

def resendVerification (email : String) : App Unit := do
  match ← .query fun db => db.userByEmail email with
  | none => pure ()
  | some user =>
    if user.emailVerified then pure ()
    else
      let cooldown ← .lookup fun r => r.otpCooldown.has c.now user.id
      .ensure (cooldown = false)
        (.app "AUTH_COOLDOWN" "Please wait before requesting a new code" 429)
      let code ← createVerificationCode c user.id
      enqueueJob (.sendVerificationEmail user.id user.email code)

/-! ### Password reset -/

def resetSalt (user : User) : String :=
  match user.passwordHash with
  | some hash => if hash = "" then "no-password-" ++ c.lib.uuidText user.id else hash
  | none => "no-password-" ++ c.lib.uuidText user.id

def generateResetToken (email pwHash : String) : TimedToken Json :=
  .dumps c pwHash (.str email)

def verifyResetToken (token : TimedToken Json) (pwHash : String) : Except PyError Json :=
  token.loads c pwHash 86400

def forgotPassword (email : String) : App Unit := do
  match ← .query fun db => db.userByEmail email with
  | none => pure ()
  | some user =>
    let token := generateResetToken c email (resetSalt c user)
    enqueueJob (.sendResetEmail user.id user.email token)

/-- The payload that `loads_unsafe` reads, and whether a column of text can be compared with it. -/
def resetTokenEmail (token : TimedToken Json) : Except PyError String :=
  if token.encodes = false then .error (.other "UnicodeEncodeError")
  else match token.payload with
  | none => .error .invalidToken
  | some .null => .error .invalidToken
  | some (.str email) =>
    if Char.ofNat 0 ∈ email.toList then .error (.other "DBAPIError") else .ok email
  | some _ => .error (.other "DBAPIError")

def resetPassword (token : TimedToken Json) (newPassword : String) : App Unit := do
  let email ← .ofExcept (resetTokenEmail token)
  let found ← .query fun db => db.userByEmail email
  let user ← .orRaise found .invalidToken
  discard <| Handler.ofExcept (verifyResetToken c token (resetSalt c user))
  .exec fun db => db.updateUser user.id fun u => { u with
    passwordHash := some (hashPassword c newPassword)
    passwordResetRequired := false }
  .exec fun db => db.deleteRefreshTokens fun r => r.userId = user.id

variable {c} {s s' : World}

theorem run_forgotPassword {email : String} {user : User}
    (hUser : s.db.userByEmail email = some user) :
    (forgotPassword c email).run s = .ok () { s with
      cache := { s.cache with
        jobs := s.cache.jobs ++ [.sendResetEmail user.id user.email
          (generateResetToken c email (resetSalt c user))] } } := by
  simp only [forgotPassword, Handler.run_query_bind, hUser]
  rfl

theorem resetTokenEmail_generated {email pwHash : String} (h : Char.ofNat 0 ∉ email.toList) :
    resetTokenEmail (generateResetToken c email pwHash) = .ok email :=
  if_neg h

/-- A token that is presented while it is valid resets the password. -/
theorem run_resetPassword {email newPassword : String} {user : User}
    (hText : Char.ofNat 0 ∉ email.toList) (hUser : s.db.userByEmail email = some user) :
    (resetPassword c (generateResetToken c email (resetSalt c user)) newPassword).run s =
      .ok () { s with db := (s.db.updateUser user.id fun u => { u with
        passwordHash := some (hashPassword c newPassword)
        passwordResetRequired := false }).deleteRefreshTokens fun r => r.userId = user.id } := by
  have hEmail : resetTokenEmail (generateResetToken c email (resetSalt c user)) = .ok email :=
    resetTokenEmail_generated hText
  have hVerify : verifyResetToken c (generateResetToken c email (resetSalt c user))
      (resetSalt c user) = .ok (.str email) := by
    simp [verifyResetToken, generateResetToken, TimedToken.loads, TimedToken.dumps]
  simp only [resetPassword, hEmail, hUser, hVerify, Handler.run_bind, Handler.run_ofExcept_ok,
    Handler.run_query, Handler.run_orRaise_some, Handler.run_exec]
  rfl

theorem resetTokenEmail_ok {token : TimedToken Json} {email : String}
    (h : resetTokenEmail token = .ok email) :
    token.encodes = true ∧ token.payload = some (.str email) ∧ Char.ofNat 0 ∉ email.toList := by
  unfold resetTokenEmail at h
  split at h
  · cases h
  rename_i hEncodes
  refine ⟨by simpa using hEncodes, ?_⟩
  split at h
  · cases h
  · cases h
  · rename_i hPayload
    split at h
    · cases h
    · rename_i hText
      obtain rfl := Except.ok.inj h
      exact ⟨hPayload, hText⟩
  · cases h

theorem verifyResetToken_ok {token : TimedToken Json} {pwHash : String} {payload : Json} :
    verifyResetToken c token pwHash = .ok payload ↔ token.encodes = true ∧
      ∃ signedAt, token.signature = some (pwHash, signedAt) ∧ signedAt ≤ timestamp c.now ∧
        timestamp c.now - signedAt ≤ 86400 ∧ token.payload = some payload := by
  rw [verifyResetToken, TimedToken.loads]
  by_cases hEncodes : token.encodes = false
  · rw [if_pos hEncodes]
    simp [hEncodes]
  rw [if_neg hEncodes, and_iff_right (by simpa using hEncodes)]
  cases hSignature : token.signature with
  | none => simp
  | some signature =>
    obtain ⟨signedWith, signedAt⟩ := signature
    by_cases hSalt : signedWith = pwHash
    · subst hSalt
      by_cases hAge : timestamp c.now < signedAt ∨ 86400 < timestamp c.now - signedAt
      · refine iff_of_false (by simp [hAge]) ?_
        rintro ⟨at', hAt, hLe, hYoung, -⟩
        obtain rfl : signedAt = at' := by simpa using hAt
        omega
      · have hYoung : signedAt ≤ timestamp c.now ∧ timestamp c.now - signedAt ≤ 86400 := by omega
        cases token.payload <;> simp [hAge, hYoung.1]
        omega
    · simp [hSalt]

theorem resetPassword_ok {token : TimedToken Json} {newPassword : String}
    (h : (resetPassword c token newPassword).run s = .ok () s') :
    ∃ email user payload, resetTokenEmail token = .ok email ∧
      s.db.userByEmail email = some user ∧
      verifyResetToken c token (resetSalt c user) = .ok payload ∧
      s' = { s with db := (s.db.updateUser user.id fun u => { u with
        passwordHash := some (hashPassword c newPassword)
        passwordResetRequired := false }).deleteRefreshTokens fun r => r.userId = user.id } := by
  simp only [resetPassword, Handler.run_ofExcept_bind_ok, Handler.run_query_bind,
    Handler.run_orRaise_bind_ok] at h
  obtain ⟨email, hEmail, user, hUser, h⟩ := h
  obtain ⟨⟨⟩, m, hVerify, h⟩ := Handler.run_bind_ok.mp h
  obtain ⟨payload, hVerify⟩ := Handler.run_discard_ok.mp hVerify
  obtain ⟨hVerified, rfl⟩ := Handler.run_ofExcept_eq_ok.mp hVerify
  simp only [Handler.run_exec_bind, Handler.run_exec, Outcome.ok.injEq, true_and] at h
  exact ⟨email, user, payload, hEmail, hUser, hVerified, h.symm⟩

/-! ### Evolution -/

variable {P : Power → Prop}

theorem createVerificationCode_evolves (userId : Uuid) :
    Handler.Within (Evolves c P) (createVerificationCode c userId) :=
  .bind (Evolves.store_frame fun _ => rfl) fun _ => .bind (Evolves.store_frame fun _ => rfl)
    fun _ => .bind (Evolves.store_frame fun _ => rfl) fun _ => .pure _

theorem deleteOtp_evolves (userId : Uuid) : Handler.Within (Evolves c P) (deleteOtp userId) :=
  Evolves.store_frame fun _ => rfl

theorem verifyOtpCode_evolves (userId : Uuid) (submitted : String) :
    Handler.Within (Evolves c P) (verifyOtpCode c userId submitted) :=
  .bind (.lookup _) fun stored => by
    cases stored with
    | none => exact .pure _
    | some _ =>
      exact .ite (.bind (deleteOtp_evolves _) fun _ => .pure _) <|
        .bind (Evolves.exchange_frame fun _ => rfl) fun _ =>
        .ite (.bind (deleteOtp_evolves _) fun _ => .pure _) (.pure _)

theorem addUser_evolves (user : User) :
    Handler.Within (Evolves c P)
      (.exec fun db => { db with users := db.users ++ [user] } : App Unit) :=
  .exec fun s => { Evolves.refl s with users := .append _ }

theorem signup_evolves (email password : String) :
    Handler.Within (Evolves c P) (signup c email password) :=
  .bind (.query _) fun _ => .bind (.ensure _ _) fun _ => .bind (addUser_evolves _) fun _ =>
    .bind Evolves.flush fun _ => .bind (createVerificationCode_evolves _) fun _ =>
    .bind (Evolves.enqueueJob _) fun _ => .pure _

theorem verifyEmail_evolves (hP : P .tenancy) (email code : String) :
    Handler.Within (Evolves c P) (verifyEmail c email code) :=
  .bind (.query _) fun _ => .bind (.orRaise _ _) fun _ => .ite (.pure _) <|
    .bind (verifyOtpCode_evolves _ _) fun _ => .bind (.ensure _ _) fun _ =>
    .bind (Evolves.updateUser (fun _ => rfl) fun _ => rfl) fun _ =>
    .bind (autoJoinPendingInvitations_evolves hP _) fun _ => .pure _

theorem resendVerification_evolves (email : String) :
    Handler.Within (Evolves c P) (resendVerification c email) :=
  .bind (.query _) fun found => by
    cases found with
    | none => exact .pure _
    | some _ =>
      exact .ite (.pure _) <| .bind (.lookup _) fun _ => .bind (.ensure _ _) fun _ =>
        .bind (createVerificationCode_evolves _) fun _ => Evolves.enqueueJob _

theorem forgotPassword_evolves (email : String) :
    Handler.Within (Evolves c P) (forgotPassword c email) :=
  .bind (.query _) fun found => by
    cases found with
    | none => exact .pure _
    | some _ => exact Evolves.enqueueJob _

theorem resetPassword_evolves (token : TimedToken Json) (newPassword : String) :
    Handler.Within (Evolves c P) (resetPassword c token newPassword) :=
  .bind (.ofExcept _) fun _ => .bind (.query _) fun _ => .bind (.orRaise _ _) fun _ =>
    .bind (.bind (.ofExcept _) fun _ => .pure _) fun _ =>
    .bind (Evolves.updateUser (fun _ => rfl) fun _ => rfl) fun _ => Evolves.deleteRefreshTokens _

end WxcodeAdm
