import WxcodeAdm.Auth.Account

/-! `users/service.py`: the profile, the password and the sessions of the caller. -/

namespace WxcodeAdm

open Lib

variable (c : Ctx)

structure UpdateProfileRequest where
  displayName : Option String := none
  email : Option String := none

/-- The new address has to be proven again. -/
def changeEmail (user : User) (email : String) : App Unit := do
  let existing ← .query fun db => db.userByEmail email
  .ensure (existing.isSome = false)
    (.conflict "EMAIL_ALREADY_EXISTS" "This email address is already in use")
  .exec fun db => db.updateUser user.id fun u => { u with email, emailVerified := false }
  let code ← createVerificationCode c user.id
  enqueueJob (.sendVerificationEmail user.id email code)

def updateProfile (user : User) (data : UpdateProfileRequest) : App Unit := do
  .exec fun db => db.updateUser user.id fun u => { u with
    displayName := data.displayName <|> u.displayName }
  match data.email with
  | some email => if email = user.email then pure () else changeEmail c user email
  | none => pure ()

def otherSessionJtis (userId : Uuid) (currentJti : Option Uuid) (db : Db) : List Uuid :=
  (db.sessions.filter fun s => s.userId = userId ∧ some s.accessTokenJti ≠ currentJti).map
    fun s => s.accessTokenJti

def currentRefreshTokenId (userId : Uuid) (currentJti : Option Uuid) (db : Db) : Option Uuid :=
  (db.sessions.find? fun s => s.userId = userId ∧ some s.accessTokenJti = currentJti).map
    fun s => s.refreshTokenId

/-- What `change_password` and `revoke_all_other_sessions` do to the sessions: blacklists the jtis
of the others and deletes every refresh token but the current one.  Returns how many there were. -/
def revokeOtherSessions (userId : Uuid) (currentJti : Option Uuid) : App Nat := do
  let jtis ← .query (otherSessionJtis userId currentJti)
  jtis.forM (blacklistJti c)
  let current ← .query (currentRefreshTokenId userId currentJti)
  .exec fun db => db.deleteRefreshTokens fun r => r.userId = userId ∧ some r.id ≠ current
  return jtis.length

def changePassword (user : User) (currentPassword newPassword : String)
    (currentJti : Option Uuid) : App Unit := do
  .ensure (user.passwordHash.isSome = true)
    (.app "OAUTH_ONLY_ACCOUNT" ("Cannot change password — account uses OAuth only. " ++
      "Use password reset to set a password.") 400)
  let valid ← .ofExcept (verifyPassword c currentPassword user.passwordHash)
  .ensure (valid = true) .invalidCredentials
  .exec fun db => db.updateUser user.id fun u => { u with
    passwordHash := some (hashPassword c newPassword) }
  discard <| revokeOtherSessions c user.id currentJti

def sessionNotFound : PyError := .notFound "SESSION_NOT_FOUND" "Session not found"

def revokeSession (user : User) (sessionId : String) (currentJti : Uuid) : App Unit := do
  let sessionUuid ← .orRaise (c.lib.parseUuid sessionId) sessionNotFound
  let found ← .query fun db => db.sessions.find? fun s => s.id = sessionUuid ∧ s.userId = user.id
  let session ← .orRaise found sessionNotFound
  .ensure (session.accessTokenJti ≠ currentJti)
    (.app "CANNOT_REVOKE_CURRENT" "Cannot revoke your current session. Use logout instead." 400)
  blacklistJti c session.accessTokenJti
  .exec fun db => db.deleteRefreshTokens fun r => r.id = session.refreshTokenId

def revokeAllOtherSessions (user : User) (currentJti : Uuid) : App Nat :=
  revokeOtherSessions c user.id (some currentJti)

variable {c} {s s' : World} {P : Power → Prop}

def othersRevoked (c : Ctx) (userId : Uuid) (currentJti : Option Uuid) (s : World) : World where
  db := s.db.deleteRefreshTokens fun r =>
    r.userId = userId ∧ some r.id ≠ currentRefreshTokenId userId currentJti s.db
  cache := { s.cache with
    blacklist := s.cache.blacklist.setAll c.now (otherSessionJtis userId currentJti s.db) ()
      c.accessTtl }

theorem run_revokeOtherSessions (userId : Uuid) (currentJti : Option Uuid) :
    (revokeOtherSessions c userId currentJti).run s =
      .ok (otherSessionJtis userId currentJti s.db).length
        (othersRevoked c userId currentJti s) := by
  simp only [revokeOtherSessions, Handler.run_query_bind]
  rw [Handler.run_bind, run_forM_blacklistJti]
  rfl

theorem updateProfile_evolves (user : User) (data : UpdateProfileRequest) :
    Handler.Within (Evolves c P) (updateProfile c user data) :=
  .bind (Evolves.updateUser (fun _ => rfl) fun _ => rfl) fun _ => by
    cases data.email with
    | none => exact .pure _
    | some _ =>
      exact .ite (.pure _) <| .bind (.query _) fun _ => .bind (.ensure _ _) fun _ =>
        .bind (Evolves.updateUser (fun _ => rfl) fun _ => rfl) fun _ =>
        .bind (createVerificationCode_evolves _) fun _ => Evolves.enqueueJob _

theorem revokeOtherSessions_evolves (userId : Uuid) (currentJti : Option Uuid) :
    Handler.Within (Evolves c P) (revokeOtherSessions c userId currentJti) :=
  .bind (.query _) fun _ => .bind (.forM blacklistJti_evolves _) fun _ => .bind (.query _)
    fun _ => .bind (Evolves.deleteRefreshTokens _) fun _ => .pure _

theorem changePassword_evolves (user : User) (current new : String) (jti : Option Uuid) :
    Handler.Within (Evolves c P) (changePassword c user current new jti) :=
  .bind (.ensure _ _) fun _ => .bind (.ofExcept _) fun _ => .bind (.ensure _ _) fun _ =>
    .bind (Evolves.updateUser (fun _ => rfl) fun _ => rfl) fun _ =>
    .bind (revokeOtherSessions_evolves _ _) fun _ => .pure _

theorem revokeSession_evolves (user : User) (sessionId : String) (jti : Uuid) :
    Handler.Within (Evolves c P) (revokeSession c user sessionId jti) :=
  .bind (.orRaise _ _) fun _ => .bind (.query _) fun _ => .bind (.orRaise _ _) fun _ =>
    .bind (.ensure _ _) fun _ => .bind (blacklistJti_evolves _) fun _ =>
    Evolves.deleteRefreshTokens _

theorem revokeAllOtherSessions_evolves (user : User) (jti : Uuid) :
    Handler.Within (Evolves c P) (revokeAllOtherSessions c user jti) :=
  revokeOtherSessions_evolves _ _

end WxcodeAdm
