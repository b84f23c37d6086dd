import WxcodeAdm.Guarantees.LockedOut
import WxcodeAdm.Guarantees.SecondFactor
import WxcodeAdm.Lib.Preserves
import WxcodeAdm.Lib.Raises

/-! How authentication requests fail.  `login`, `mfa_verify` and `reset_password` hand a column that
may be null, a text that may not encode, or a payload that nobody has checked, to functions that
raise on it, and a session is stored with a header of any length, so they end with an `AppError` or
not at all only where these are there, are text and fit. -/

namespace WxcodeAdm

open Lib

variable {cfg : Config} {c : Ctx} {w w' : World} {s s' : Sys} {e : Event}

/-! ### What a commit asks for -/

/-- The user is there, the constraints hold, and no device has a value that the request draws. -/
structure CanTrust (c : Ctx) (userId : Uuid) (db : Db) : Prop where
  valid : db.Valid
  user : db.HasUser userId
  device : ∀ d ∈ db.trustedDevices,
    d.id ≠ c.draws.deviceId ∧ d.tokenHash ≠ c.lib.sha256 c.draws.deviceToken

structure CanIssue (c : Ctx) (userId : Uuid) (db : Db) : Prop extends CanTrust c userId db where
  unused : PairUnused c db

theorem Db.Valid.filterDevices {db : Db} (h : db.Valid) (p : TrustedDevice → Bool) :
    ({ db with trustedDevices := db.trustedDevices.filter p } : Db).Valid :=
  { h with
    deviceId := h.deviceId.sublist (List.filter_sublist.map _)
    deviceTokenHash := h.deviceTokenHash.sublist (List.filter_sublist.map _)
    deviceUser := fun d hd => h.deviceUser d (List.mem_filter.mp hd).1 }

theorem Db.Valid.filterBackupCodes {db : Db} (h : db.Valid) (p : MfaBackupCode → Bool) :
    ({ db with backupCodes := db.backupCodes.filter p } : Db).Valid :=
  { h with
    backupCodeId := h.backupCodeId.sublist (List.filter_sublist.map _)
    backupCodeUser := fun b hb => h.backupCodeUser b (List.mem_filter.mp hb).1 }

/-- A device may lose its trust, and nothing else changes. -/
theorem skipMfa_preserves {P : Db → Prop} (hP : ∀ db p, P db →
      P { db with trustedDevices := db.trustedDevices.filter p }) (user : User)
    (enforcing : List Uuid) (device : Option String) :
    Handler.Preserves P (skipMfa c user enforcing device) := by
  cases device with
  | none => exact .pure _
  | some token =>
    refine .ite (.ite (.pure _) (.bind (.query _) fun found => ?_)) (.pure _)
    cases found with
    | none => exact .pure _
    | some row => exact .ite (.bind (.exec fun db h => hP db _ h) fun _ => .pure _) (.pure _)

theorem skipMfa_canIssue (userId : Uuid) (user : User) (enforcing : List Uuid)
    (device : Option String) :
    Handler.Preserves (CanIssue c userId) (skipMfa c user enforcing device) :=
  skipMfa_preserves (fun _ p h => ⟨⟨h.valid.filterDevices p, h.user, fun d hd =>
    h.device d (List.mem_filter.mp hd).1⟩, ⟨h.unused.rows, h.unused.sessions⟩⟩) _ _ _

theorem issueTokens_takes (user : User) {ua ip : Option String}
    (hClient : (parseSessionMetadata c ua ip).Fits) :
    Handler.Takes (CanIssue c user.id) (CanTrust c user.id) (issueTokens c user ua ip) := by
  intro w t w' hRun h
  rw [(issueTokens_ok hRun).2]
  exact ⟨h.valid.issued_of_unused h.user h.unused hClient, h.user, h.device⟩

theorem redirectToWxcode_canTrust (userId : Uuid) (user : User) (tokens : TokenResponse) :
    Handler.Preserves (CanTrust c userId) (redirectToWxcode c user tokens) := by
  intro w redirect w' hRun h
  rw [redirectToWxcode, Handler.run_query_bind] at hRun
  cases hUrl : getRedirectUrl user w.db with
  | none =>
    rw [hUrl] at hRun
    cases hRun
    exact h
  | some found =>
    rw [hUrl] at hRun
    cases hRun
    refine ⟨h.valid.updateUser_of (fun _ => rfl) (fun _ => rfl) (fun _ => rfl)
      fun _ _ id hId => ?_, ?_, h.device⟩
    · obtain rfl := Option.some.inj hId
      exact getRedirectUrl_hasTenant hUrl
    · obtain ⟨u, hu, hId⟩ := h.user
      refine ⟨_, List.mem_map_of_mem hu, ?_⟩
      split <;> exact hId

theorem createTrustedDevice_takes (userId : Uuid) :
    Handler.Takes (CanTrust c userId) Db.Valid (createTrustedDevice c userId) := by
  intro w token w' hRun h
  cases hRun
  exact { h.valid with
    deviceId := Db.nodup_map_concat.mpr ⟨h.valid.deviceId, fun d hd => (h.device d hd).1⟩
    deviceTokenHash :=
      Db.nodup_map_concat.mpr ⟨h.valid.deviceTokenHash, fun d hd => (h.device d hd).2⟩
    deviceUser := fun d hd => by
      rcases List.mem_append.mp hd with hd | hd
      · exact h.valid.deviceUser d hd
      · obtain rfl := List.mem_singleton.mp hd
        exact h.user }

theorem redeemBackupCode_valid (userId : Uuid) (code : String) :
    Handler.Preserves Db.Valid (redeemBackupCode c userId code) := by
  intro w _ w' hRun h
  simp only [redeemBackupCode, Handler.run_query_bind, Handler.run_orRaise_bind_ok] at hRun
  obtain ⟨row, hRow, hRun⟩ := hRun
  cases hRun
  have hMem : row ∈ w.db.backupCodes := (List.mem_filter.mp (List.mem_of_find?_eq_some hRow)).1
  exact h.updateBackupCode hMem (fun _ => rfl) fun _ => rfl

theorem redeemBackupCode_canIssue (userId holder : Uuid) (code : String) :
    Handler.Preserves (CanIssue c userId) (redeemBackupCode c holder code) := by
  intro w a w' hRun h
  have hValid := redeemBackupCode_valid holder code w a w' hRun h.valid
  simp only [redeemBackupCode, Handler.run_query_bind, Handler.run_orRaise_bind_ok] at hRun
  obtain ⟨row, -, hRun⟩ := hRun
  cases hRun
  exact ⟨⟨hValid, h.user, h.device⟩, ⟨h.unused.rows, h.unused.sessions⟩⟩

theorem verifySecondFactor_canIssue (userId : Uuid) (user : User) (code : String) :
    Handler.Preserves (CanIssue c userId) (verifySecondFactor c user code) :=
  .bind (.ofExcept _) fun _ => .ite (.store _) (redeemBackupCode_canIssue _ _ _)

theorem loginVerified_canTrust (user : User) (device : Option String) {ua ip : Option String}
    (hClient : (parseSessionMetadata c ua ip).Fits) :
    Handler.Takes (CanIssue c user.id) (CanTrust c user.id) (loginVerified c user device ua ip) := by
  have hPending (pending : MfaPending) (setup : Bool) :
      Handler.Takes (CanIssue c user.id) (CanTrust c user.id) (do
        let mfaToken ← createMfaPending c pending
        return LoginResult.mfaRequired mfaToken setup) :=
    .of_preserves (.bind (.bind (.store _) fun _ => .pure _) fun _ => .pure _)
      fun _ h => h.toCanTrust
  have hTokens : Handler.Takes (CanIssue c user.id) (CanTrust c user.id) (do
      let tokens ← issueTokens c user ua ip
      return LoginResult.tokens tokens) :=
    .bind (issueTokens_takes user hClient) fun _ => .pure _ fun _ h => h
  refine .bind (.of_preserves (.query _) fun _ h => h) fun enforcing => ?_
  refine .ite (hPending _ _) (.ite ?_ hTokens)
  refine .bind (.of_preserves (skipMfa_canIssue user.id user enforcing device) fun _ h => h) ?_
  exact fun _ => .ite hTokens (hPending _ _)

theorem completeMfaLogin_valid (user : User) (body : MfaVerifyRequest) {ua ip : Option String}
    (hClient : (parseSessionMetadata c ua ip).Fits) :
    Handler.Takes (CanIssue c user.id) Db.Valid (completeMfaLogin c user body ua ip) := by
  refine .bind (.of_preserves (.store _) fun _ h => h) fun _ => ?_
  refine .bind (issueTokens_takes user hClient) fun tokens => ?_
  refine .bind (.of_preserves (redirectToWxcode_canTrust user.id user tokens) fun _ h => h) ?_
  exact fun _ => .ite (.bind (createTrustedDevice_takes user.id) fun _ => .pure _ fun _ h => h)
    (.pure _ fun _ h => h.valid)

/-! ### What a request leaves when it returns -/

theorem login_valid {email : String} {password : PyStr} {device ua ip : Option String}
    {response : Response} (h : ∀ user ∈ w.db.users, CanIssue c user.id w.db)
    (hClient : (parseSessionMetadata c ua ip).Fits)
    (hRun : (handle c (.login email password device ua ip)).run w = .ok response w') :
    w'.db.Valid := by
  simp only [handle, Router.login, login, bind_assoc, Handler.run_query_bind,
    Handler.run_orRaise_bind_ok, Handler.run_ensure_bind_ok, Handler.run_ofExcept_bind_ok] at hRun
  obtain ⟨user, hUser, -, _, -, -, -, hRun⟩ := hRun
  have hReady := h user (List.mem_of_find?_eq_some hUser)
  have hTakes : Handler.Takes (CanIssue c user.id) (CanTrust c user.id) (do
      let result ← loginVerified c user device ua ip
      let found ← Handler.query fun db => db.userByEmail email
      Router.loginResponse c result found) := by
    refine .bind (loginVerified_canTrust user device hClient) fun result => ?_
    refine .of_preserves (.bind (.query _) fun found => ?_) fun _ h => h
    unfold Router.loginResponse
    split
    · exact .bind (redirectToWxcode_canTrust _ _ _) fun _ => .pure _
    · exact .pure _
  exact (hTakes w response w' hRun hReady).valid

theorem mfaVerify_valid {body : MfaVerifyRequest} {ua ip : Option String} {response : Response}
    (h : ∀ user ∈ w.db.users, CanIssue c user.id w.db)
    (hClient : (parseSessionMetadata c ua ip).Fits)
    (hRun : (handle c (.mfaVerify body ua ip)).run w = .ok response w') : w'.db.Valid := by
  simp only [handle, mfaVerify, bind_assoc, Handler.run_lookup_bind, Handler.run_query_bind,
    Handler.run_orRaise_bind_ok, Handler.run_ensure_bind_ok, Handler.run_ofExcept_bind_ok] at hRun
  obtain ⟨pending, -, userId, -, user, hUser, -, -, hRun⟩ := hRun
  have hTakes : Handler.Takes (CanIssue c user.id) Db.Valid (do
      verifySecondFactor c user body.code
      let result ← completeMfaLogin c user body ua ip
      return Response.mfaVerify result) :=
    .bind (.of_preserves (verifySecondFactor_canIssue user.id user body.code) fun _ h => h)
      fun _ => .bind (completeMfaLogin_valid user body hClient) fun _ => .pure _ fun _ h => h
  exact hTakes w response w' hRun (h user (Db.user_mem hUser))

theorem requireVerified_preserves (P : Db → Prop) (token : Bearer) :
    Handler.Preserves P (requireVerified c token) := fun _ _ _ hRun hP =>
  (requireVerified_ok hRun).1 ▸ hP

theorem mfaDisable_valid (token : Bearer) (code : String) :
    Handler.Preserves Db.Valid (handle c (.mfaDisable token code)) := by
  refine .bind (requireVerified_preserves _ token) fun user => .bind ?_ fun _ => .pure _
  refine .bind (.ensure _ _) fun _ => .bind ?_ fun _ => .bind ?_ fun _ => ?_
  · exact .bind (.ofExcept _) fun _ => .ite (.pure _) (redeemBackupCode_valid _ _)
  · exact .exec fun _ h => h.updateUser (fun _ => rfl) (fun _ => rfl) (fun _ => rfl) fun _ => rfl
  · exact .exec fun _ h => h.filterBackupCodes _

theorem resetPassword_valid (token : TimedToken Json) (newPassword : String) :
    Handler.Preserves Db.Valid (handle c (.resetPassword token newPassword)) := by
  refine .bind (fun w _ w' hRun h => ?_) fun _ => .pure _
  obtain ⟨email, user, payload, -, -, -, rfl⟩ := resetPassword_ok hRun
  refine Db.Valid.deleteRefreshTokens ?_ _
  exact h.updateUser (fun _ => rfl) (fun _ => rfl) (fun _ => rfl) fun _ => rfl

/-! ### What a request can raise -/

theorem issueTokens_raises (user : User) (ua ip : Option String) :
    (issueTokens c user ua ip).RaisesOnly PyError.IsApp w := by
  simp only [issueTokens, writeShadowKeysBulk, Handler.raisesOnly_query_bind,
    Handler.raisesOnly_store_bind, Handler.raisesOnly_exec_bind, Handler.raisesOnly_ofExcept_bind,
    Handler.raisesOnly_pure, decode_fresh]
  refine ⟨fun error hError => ?_, fun _ _ => trivial⟩
  split at hError
  · cases hError
  · cases hError
    trivial

theorem redirectToWxcode_raises (user : User) (tokens : TokenResponse) :
    (redirectToWxcode c user tokens).RaisesOnly PyError.IsApp w := by
  rw [redirectToWxcode, Handler.raisesOnly_query_bind]
  cases getRedirectUrl user w.db <;> exact fun _ _ hRun => by cases hRun

theorem skipMfa_raises (user : User) (enforcing : List Uuid) (device : Option String) :
    (skipMfa c user enforcing device).RaisesOnly PyError.IsApp w := by
  cases device with
  | none => exact Handler.raisesOnly_pure
  | some token =>
    refine .ite (.ite Handler.raisesOnly_pure ?_) Handler.raisesOnly_pure
    rw [Handler.raisesOnly_query_bind]
    cases trustedDevice c user.id token w.db with
    | none => exact Handler.raisesOnly_pure
    | some row => exact .ite (fun _ _ hRun => by cases hRun) Handler.raisesOnly_pure

theorem loginVerified_raises (user : User) (device ua ip : Option String) :
    (loginVerified c user device ua ip).RaisesOnly PyError.IsApp w := by
  have hPending (pending : MfaPending) (setup : Bool) (m : World) :
      Handler.RaisesOnly PyError.IsApp (do
        let mfaToken ← createMfaPending c pending
        return LoginResult.mfaRequired mfaToken setup) m := fun _ _ hRun => by cases hRun
  have hTokens (m : World) : Handler.RaisesOnly PyError.IsApp (do
      let tokens ← issueTokens c user ua ip
      return LoginResult.tokens tokens) m :=
    .bind (issueTokens_raises user ua ip) fun _ _ => Handler.raisesOnly_pure
  rw [loginVerified, Handler.raisesOnly_query_bind]
  refine .ite (hPending _ _ _) (.ite (.bind (skipMfa_raises _ _ _) fun _ m => ?_) (hTokens _))
  exact .ite (hTokens m) (hPending _ _ m)

theorem redeemBackupCode_raises (userId : Uuid) (code : String) :
    (redeemBackupCode c userId code).RaisesOnly PyError.IsApp w := by
  simp [redeemBackupCode, PyError.mfaInvalidCode, PyError.IsApp]

theorem totpVerify_raises {secret : Option String} {code : String} :
    (∀ error, totpVerify c secret code = .error error → error.IsApp) ↔ secret.isSome = true := by
  cases secret <;> simp [totpVerify, PyError.IsApp]

theorem verifyPassword_raises {password : PyStr} {hash : Option String} :
    (∀ error, verifyPassword c password hash = .error error → error.IsApp) ↔
      hash.isSome = true ∧ password.Encodes := by
  cases hash with
  | none => simp [verifyPassword, PyError.IsApp]
  | some hash =>
    cases password with
    | text => simp [PyStr.Encodes, PyStr.text?]
    | lone => exact iff_of_false (fun h => h _ rfl) (by simp [PyStr.Encodes, PyStr.text?])

theorem login_raises_iff {email : String} {password : PyStr} {device ua ip : Option String} :
    (handle c (.login email password device ua ip)).RaisesOnly PyError.IsApp w ↔
      ∀ user, w.db.userByEmail email = some user → user.isActive = true →
        user.passwordHash.isSome = true ∧ password.Encodes := by
  have hRest (user : User) (m : World) : Handler.RaisesOnly PyError.IsApp (do
      let result ← loginVerified c user device ua ip
      let found ← Handler.query fun db => db.userByEmail email
      Router.loginResponse c result found) m := by
    refine .bind (loginVerified_raises user device ua ip) fun result m => ?_
    rw [Handler.raisesOnly_query_bind]
    unfold Router.loginResponse
    split
    · exact .bind (redirectToWxcode_raises _ _) fun _ _ => Handler.raisesOnly_pure
    · exact Handler.raisesOnly_pure
  simp only [handle, Router.login, login, bind_assoc, Handler.raisesOnly_query_bind,
    Handler.raisesOnly_orRaise_bind, Handler.raisesOnly_ensure_bind,
    Handler.raisesOnly_ofExcept_bind, hRest, verifyPassword_raises]
  simp [PyError.invalidCredentials, PyError.emailNotVerified, PyError.IsApp]

theorem completeMfaLogin_raises (user : User) (body : MfaVerifyRequest) (ua ip : Option String) :
    (completeMfaLogin c user body ua ip).RaisesOnly PyError.IsApp w := by
  rw [completeMfaLogin, Handler.raisesOnly_store_bind]
  refine .bind (issueTokens_raises user ua ip) fun tokens _ => ?_
  refine .bind (redirectToWxcode_raises user tokens) fun _ _ => ?_
  exact .ite (fun _ _ hRun => by cases hRun) Handler.raisesOnly_pure

theorem mfaVerify_raises_iff {body : MfaVerifyRequest} {ua ip : Option String} :
    (handle c (.mfaVerify body ua ip)).RaisesOnly PyError.IsApp w ↔
      (w.cache.mfaPending.get c.now body.mfaToken = none → body.mfaToken.Encodes) ∧
      ∀ userId, w.cache.mfaPending.get c.now body.mfaToken = some (.plain userId) →
        ∀ user, w.db.user userId = some user → user.isActive = true →
          replayedCode c userId body.code w.cache = false → user.mfaSecret.isSome = true := by
  have hRest (user : User) (m : World) : Handler.RaisesOnly PyError.IsApp (do
      let result ← completeMfaLogin c user body ua ip
      return Response.mfaVerify result) m :=
    .bind (completeMfaLogin_raises user body ua ip) fun _ _ => Handler.raisesOnly_pure
  have hFactor (user : User) (m : World) : Handler.RaisesOnly PyError.IsApp (do
      verifySecondFactor c user body.code
      let result ← completeMfaLogin c user body ua ip
      return Response.mfaVerify result) m ↔ user.mfaSecret.isSome = true := by
    rw [verifySecondFactor, bind_assoc, Handler.raisesOnly_ofExcept_bind, totpVerify_raises]
    refine and_iff_left fun valid _ => .bind (.ite Handler.raisesOnly_store ?_) fun _ m => hRest user m
    exact redeemBackupCode_raises _ _
  simp only [handle, mfaVerify, bind_assoc, Handler.raisesOnly_lookup_bind,
    Handler.raisesOnly_query_bind, Handler.raisesOnly_orRaise_bind, Handler.raisesOnly_ensure_bind,
    Handler.raisesOnly_ofExcept_bind, hFactor, unknownToken_isApp]
  refine and_congr_right fun _ => ?_
  constructor
  · rintro h userId hPending user hUser hActive hReplayed
    exact ((((((h _ hPending).2 userId rfl).2 user hUser).2 hActive).2) hReplayed)
  · intro h
    refine fun pending hPending => ⟨fun error hError => ?_, ?_⟩
    · cases pending <;> cases hError
      trivial
    · intro userId hPlain
      refine ⟨fun _ => trivial, fun user hUser => ⟨fun _ => trivial, fun hActive => ?_⟩⟩
      refine ⟨fun _ => trivial, fun hReplayed => h userId ?_ user hUser hActive hReplayed⟩
      cases pending <;> cases hPlain
      exact hPending

theorem decodeAccessToken_raises {token : Bearer} {error : PyError}
    (h : decodeAccessToken c token = .error error) : error.IsApp := by
  unfold decodeAccessToken decodeFor at h
  split at h <;> cases h <;> trivial

theorem requireVerified_raises (token : Bearer) :
    (requireVerified c token).RaisesOnly PyError.IsApp w := by
  simp only [requireVerified, getCurrentUser, isTokenBlacklisted, bind_assoc,
    Handler.raisesOnly_ofExcept_bind, Handler.raisesOnly_lookup_bind,
    Handler.raisesOnly_query_bind, Handler.raisesOnly_orRaise_bind, Handler.raisesOnly_ensure_bind,
    Handler.raisesOnly_store_bind, Handler.raisesOnly_pure, pure_bind]
  refine ⟨fun error hError => decodeAccessToken_raises hError, ?_⟩
  simp [PyError.invalidToken, PyError.forbidden, PyError.emailNotVerified, PyError.IsApp]

theorem mfaDisable_raises_iff {token : Bearer} {code : String} :
    (handle c (.mfaDisable token code)).RaisesOnly PyError.IsApp w ↔
      ∀ user m, (requireVerified c token).run w = .ok user m → user.mfaEnabled = true →
        user.mfaSecret.isSome = true := by
  rw [handle, Handler.raisesOnly_bind, and_iff_right (requireVerified_raises token)]
  refine forall_congr' fun user => forall_congr' fun m => imp_congr_right fun _ => ?_
  simp only [mfaDisable, checkDisableCode, bind_assoc, Handler.raisesOnly_ensure_bind,
    Handler.raisesOnly_ofExcept_bind, totpVerify_raises]
  refine (and_iff_right (by exact fun _ => trivial)).trans (imp_congr_right fun _ => ?_)
  refine and_iff_left fun valid _ => .bind (.ite Handler.raisesOnly_pure ?_) fun _ _ => ?_
  · exact redeemBackupCode_raises _ _
  · exact fun _ _ hRun => by cases hRun

/-- A token that encodes, with a payload that `loads_unsafe` does not read or that a column of text
can be compared with, which U+0000 rules out. -/
def IsText (token : TimedToken Json) : Prop :=
  token.encodes = true ∧ (token.payload = none ∨ token.payload = some .null ∨
    ∃ email, token.payload = some (.str email) ∧ Char.ofNat 0 ∉ email.toList)

theorem resetTokenEmail_raises {token : TimedToken Json} :
    (∀ error, resetTokenEmail token = .error error → error.IsApp) ↔ IsText token := by
  rw [resetTokenEmail, IsText]
  cases hEncodes : token.encodes with
  | false => simp [PyError.IsApp]
  | true =>
    rw [if_neg (by decide), and_iff_right rfl]
    cases token.payload with
    | none => simp [PyError.invalidToken, PyError.IsApp]
    | some payload =>
      cases payload with
      | str email => by_cases hText : Char.ofNat 0 ∈ email.toList <;> simp [hText, PyError.IsApp]
      | _ => simp [PyError.invalidToken, PyError.IsApp]

theorem verifyResetToken_raises {token : TimedToken Json} {payload : Json} {salt : String}
    {error : PyError} (hEncodes : token.encodes = true) (hPayload : token.payload = some payload)
    (h : verifyResetToken c token salt = .error error) : error.IsApp := by
  simp only [verifyResetToken, TimedToken.loads, hPayload] at h
  rw [if_neg (by simp [hEncodes])] at h
  split at h
  · split at h
    · cases h
      trivial
    · split at h <;> cases h
      trivial
  · cases h
    trivial

theorem resetPassword_raises_iff {token : TimedToken Json} {newPassword : String} :
    (handle c (.resetPassword token newPassword)).RaisesOnly PyError.IsApp w ↔
      IsText token := by
  have hRest (email : String) (hEncodes : token.encodes = true)
      (hPayload : token.payload = some (.str email)) :
      Handler.RaisesOnly PyError.IsApp (do
        let found ← Handler.query fun db => db.userByEmail email
        let user ← Handler.orRaise found .invalidToken
        discard <| Handler.ofExcept (verifyResetToken c token (resetSalt c user))
        Handler.exec fun db => db.updateUser user.id fun u => { u with
          passwordHash := some (hashPassword c newPassword)
          passwordResetRequired := false }
        Handler.exec fun db => db.deleteRefreshTokens fun r => r.userId = user.id
        return Response.done) w := by
    rw [Handler.raisesOnly_query_bind, Handler.raisesOnly_orRaise_bind]
    refine ⟨fun _ => trivial, fun user _ => .bind ?_ fun _ _ _ _ hRun => by cases hRun⟩
    rw [show discard (Handler.ofExcept (verifyResetToken c token (resetSalt c user))) =
      Handler.ofExcept (verifyResetToken c token (resetSalt c user)) >>= fun _ => pure () from rfl,
      Handler.raisesOnly_ofExcept_bind]
    refine ⟨fun error hError => ?_, fun _ _ => Handler.raisesOnly_pure⟩
    exact verifyResetToken_raises hEncodes hPayload hError
  simp only [handle, resetPassword, bind_assoc, Handler.raisesOnly_ofExcept_bind]
  rw [resetTokenEmail_raises]
  refine and_iff_left fun email hEmail => ?_
  obtain ⟨hEncodes, hPayload, -⟩ := resetTokenEmail_ok hEmail
  exact hRest email hEncodes hPayload

/-! ### What a request opens a session for -/

/-- The login opens a session at once: the password is right, the address is verified, and no second
factor is asked for. -/
structure LogsIn (c : Ctx) (w : World) (user : User) (password : PyStr)
    (deviceToken : Option String) : Prop where
  password : verifyPassword c password user.passwordHash = .ok true
  verified : user.emailVerified = true
  enforced : getEnforcingTenantsForUser user.id w.db = []
  device : user.mfaEnabled = true → ∃ token, deviceToken = some token ∧ TrustsDevice c w.db user.id token

theorem Minted.ttl_pos {user : User} {db : Db} {t : TokenResponse} (h : Minted c user db t) :
    0 < c.settings.accessTokenTtlHours :=
  (live_iff c.now _).mp (by have := h.live; rwa [h.token] at this)

/-- The redirect is always written, and touches no session. -/
theorem run_redirect (user : User) (tokens : TokenResponse) :
    ∃ redirect m, (redirectToWxcode c user tokens).run w = .ok redirect m ∧
      m.db.sessions = w.db.sessions := by
  rw [redirectToWxcode, Handler.run_query_bind]
  cases getRedirectUrl user w.db with
  | none => exact ⟨none, w, rfl, rfl⟩
  | some found => exact ⟨_, _, rfl, rfl⟩

/-- The pair of a request comes with a session of its client. -/
def SessionOpened (c : Ctx) (user : User) (userAgent ipAddress : Option String) (db : Db) : Prop :=
  newSession c user.id c.draws.jti userAgent ipAddress ∈ db.sessions

theorem SessionOpened.client {user : User} {ua ip : Option String} {db : Db}
    (h : SessionOpened c user ua ip db) (hValid : db.Valid) : (parseSessionMetadata c ua ip).Fits :=
  hValid.sessionInfo _ h

theorem run_issueTokens_opens (user : User) (ua ip : Option String)
    (hLive : 0 < c.settings.accessTokenTtlHours) :
    ∃ t m, (issueTokens c user ua ip).run w = .ok t m ∧ SessionOpened c user ua ip m.db := by
  obtain ⟨t, m, hRun, hDb⟩ := run_issueTokens_live (w := w) user ua ip hLive
  exact ⟨t, m, hRun, hDb ▸ List.mem_append_right _ (List.mem_singleton_self _)⟩

theorem run_loginVerified_logsIn {user : User} {password : PyStr} {device : Option String}
    (ua ip : Option String) (h : LogsIn c w user password device)
    (hLive : 0 < c.settings.accessTokenTtlHours) :
    ∃ t m, (loginVerified c user device ua ip).run w = .ok (.tokens t) m ∧
      SessionOpened c user ua ip m.db := by
  obtain ⟨t, m, hRun, hOpens⟩ := run_issueTokens_opens (w := w) user ua ip hLive
  refine ⟨t, m, ?_, hOpens⟩
  rw [loginVerified, Handler.run_query_bind, h.enforced, if_neg (by simp)]
  by_cases hMfa : user.mfaEnabled = true
  · obtain ⟨token, rfl, hTrusts⟩ := h.device hMfa
    have hSkip : (skipMfa c user [] (some token)).run w = .ok true w :=
      run_isDeviceTrusted hTrusts
    rw [if_pos hMfa, Handler.run_bind, hSkip]
    dsimp only
    rw [if_pos rfl, Handler.run_bind, hRun]
    rfl
  · rw [if_neg hMfa, Handler.run_bind, hRun]
    rfl

/-- A login that is put off leaves a state that can be committed. -/
theorem loginVerified_valid {user : User} {device ua ip : Option String} {token : String}
    {setup : Bool} (h : (loginVerified c user device ua ip).run w = .ok (.mfaRequired token setup) w')
    (hValid : w.db.Valid) : w'.db.Valid := by
  have hIssued {m : World} (hRun : (do
      let tokens ← issueTokens c user ua ip
      return LoginResult.tokens tokens).run m = .ok (.mfaRequired token setup) w') : False := by
    obtain ⟨_, _, -, hRun⟩ := Handler.run_bind_ok.mp hRun
    simp at hRun
  simp only [loginVerified, Handler.run_query_bind, Handler.run_ite_ok] at h
  rcases h with ⟨-, h⟩ | ⟨-, ⟨-, h⟩ | ⟨-, h⟩⟩
  · cases h
    exact hValid
  · obtain ⟨trusted, m, hSkip, h⟩ := Handler.run_bind_ok.mp h
    have hKept := skipMfa_preserves (fun _ p h => h.filterDevices p) _ _ _ _ _ _ hSkip hValid
    simp only [Handler.run_ite_ok] at h
    rcases h with ⟨-, h⟩ | ⟨-, h⟩
    · exact (hIssued h).elim
    · cases h
      exact hKept
  · exact (hIssued h).elim

/-- A login of such a user opens a session of the client, which the commit has to take. -/
theorem login_valid_iff {email : String} {password : PyStr} {device ua ip : Option String}
    (hReady : ∀ user ∈ w.db.users, CanIssue c user.id w.db) :
    (∀ response m, (handle c (.login email password device ua ip)).run w = .ok response m →
        m.db.Valid) ↔
      ∀ user, w.db.userByEmail email = some user → user.isActive = true →
        LogsIn c w user password device → ClientFits c ua ip := by
  constructor
  · intro h user hUser hActive hIn hLive
    obtain ⟨t, m, hLogin, hOpens⟩ := run_loginVerified_logsIn ua ip hIn hLive
    obtain ⟨response, m', hResponse, hSessions⟩ : ∃ response m',
        (Router.loginResponse c (.tokens t) (m.db.userByEmail email)).run m = .ok response m' ∧
          m'.db.sessions = m.db.sessions := by
      cases m.db.userByEmail email with
      | none => exact ⟨_, _, rfl, rfl⟩
      | some found =>
        obtain ⟨redirect, m', hRedirect, hSame⟩ := run_redirect (c := c) (w := m) found t
        exact ⟨_, m', Handler.run_bind_ok.mpr ⟨_, _, hRedirect, rfl⟩, hSame⟩
    have hOpens' : SessionOpened c user ua ip m'.db := by rwa [SessionOpened, hSessions]
    refine hOpens'.client (h response m' ?_)
    rw [handle, Router.login, Handler.run_bind, login, Handler.run_query_bind, hUser,
      Handler.orRaise_some_bind, Handler.ensure_bind_of hActive, hIn.password,
      Handler.ofExcept_ok_bind, Handler.ensure_bind_of rfl, Handler.ensure_bind_of hIn.verified,
      hLogin]
    exact hResponse
  · intro h response m hRun
    by_cases hClient : (parseSessionMetadata c ua ip).Fits
    · exact login_valid hReady hClient hRun
    -- No session is opened, so the login was put off.
    have hHandled := hRun
    simp only [handle, Router.login, login, bind_assoc, Handler.run_query_bind,
      Handler.run_orRaise_bind_ok, Handler.run_ensure_bind_ok,
      Handler.run_ofExcept_bind_ok] at hRun
    obtain ⟨user, hUser, hActive, valid, hPassword, hRight, hVerified, hRun⟩ := hRun
    obtain ⟨result, m₁, hLogin, hRun⟩ := Handler.run_bind_ok.mp hRun
    cases result with
    | tokens t =>
      obtain ⟨-, hEnforced, hDevice⟩ := loginVerified_tokens hLogin
      have hIn : LogsIn c w user password device :=
        ⟨hPassword.trans (congrArg _ hRight), hVerified, hEnforced, hDevice⟩
      exact absurd (h user hUser hActive hIn (loginVerified_minted hLogin).ttl_pos) hClient
    | mfaRequired token setup =>
      have hValid := (hReady user (List.mem_of_find?_eq_some hUser)).valid
      cases hRun
      exact loginVerified_valid hLogin hValid

theorem run_completeMfaLogin_opens (user : User) (body : MfaVerifyRequest)
    (ua ip : Option String) (hLive : 0 < c.settings.accessTokenTtlHours) :
    ∃ result m, (completeMfaLogin c user body ua ip).run w = .ok result m ∧
      SessionOpened c user ua ip m.db := by
  let started : World :=
    { w with cache := { w.cache with mfaPending := w.cache.mfaPending.del body.mfaToken } }
  obtain ⟨t, m₁, hIssue, hOpens⟩ := run_issueTokens_opens (c := c) (w := started) user ua ip hLive
  obtain ⟨redirect, m₂, hRedirect, hSame⟩ := run_redirect (c := c) (w := m₁) user t
  have hOpens' : SessionOpened c user ua ip m₂.db := by rwa [SessionOpened, hSame]
  rw [completeMfaLogin, Handler.run_store_bind, Handler.run_bind, hIssue]
  dsimp only
  rw [Handler.run_bind, hRedirect]
  dsimp only
  split
  · exact ⟨_, _, rfl, hOpens'⟩
  · exact ⟨_, _, rfl, hOpens'⟩

/-- So does a second stage that passes. -/
theorem mfaVerify_valid_iff {body : MfaVerifyRequest} {ua ip : Option String}
    (hReady : ∀ user ∈ w.db.users, CanIssue c user.id w.db) :
    (∀ response m, (handle c (.mfaVerify body ua ip)).run w = .ok response m → m.db.Valid) ↔
      ∀ user, w.db.user user.id = some user → user.isActive = true → PassesMfa c w user body →
        ClientFits c ua ip := by
  constructor
  · intro h user hUser hActive hPasses hLive
    have hValid := (hReady user (Db.user_mem hUser)).valid
    obtain ⟨m, hFactor, -⟩ := run_verifySecondFactor hValid hPasses.code
    obtain ⟨result, m', hComplete, hOpens⟩ :=
      run_completeMfaLogin_opens (c := c) (w := m) user body ua ip hLive
    refine hOpens.client (h (.mfaVerify result) m' ?_)
    rw [run_mfaVerify_verified hUser hActive hPasses hFactor]
    exact Handler.run_bind_ok.mpr ⟨_, _, hComplete, rfl⟩
  · intro h response m hRun
    refine mfaVerify_valid hReady ?_ hRun
    obtain ⟨result, m₁, hVerify, -⟩ := Handler.run_bind_ok.mp hRun
    simp only [mfaVerify, Handler.run_lookup_bind, Handler.run_orRaise_bind_ok,
      Handler.run_ofExcept_bind_ok, Handler.run_query_bind, Handler.run_ensure_bind_ok] at hVerify
    obtain ⟨pending, hPending, userId, hId, user, hUser, hActive, hReplayed, hVerify⟩ := hVerify
    obtain ⟨⟨⟩, m₂, hFactor, hComplete⟩ := Handler.run_bind_ok.mp hVerify
    obtain rfl := Db.user_id hUser
    have hPlain : pending = .plain user.id := by
      cases pending <;> cases hId
      rfl
    have hPasses : PassesMfa c w user body :=
      ⟨hPlain ▸ hPending, hReplayed, verifySecondFactor_ok hFactor⟩
    exact h user hUser hActive hPasses (completeMfaLogin_minted hComplete).ttl_pos


/-! ### Authentication requests -/

def Request.authenticates : Request → Bool
  | .login .. | .mfaVerify .. | .mfaDisable .. | .resetPassword .. => true
  | _ => false

/-- What an authentication request compares with is there, and is text: the password hash of a user
who logs in and the password, the secret of one whose code is checked, a token that Redis does not
have, and the payload of a reset token.  A client that gets a session fits its columns. -/
def Comparable (c : Ctx) (w : World) : Request → Prop
  | .login email password device ua ip =>
    ∀ user, w.db.userByEmail email = some user → user.isActive = true →
      (user.passwordHash.isSome = true ∧ password.Encodes) ∧
        (LogsIn c w user password device → ClientFits c ua ip)
  | .mfaVerify body ua ip =>
    ((w.cache.mfaPending.get c.now body.mfaToken = none → body.mfaToken.Encodes) ∧
      ∀ userId, w.cache.mfaPending.get c.now body.mfaToken = some (.plain userId) →
        ∀ user, w.db.user userId = some user → user.isActive = true →
          replayedCode c userId body.code w.cache = false → user.mfaSecret.isSome = true) ∧
    ∀ user, w.db.user user.id = some user → user.isActive = true → PassesMfa c w user body →
      ClientFits c ua ip
  | .mfaDisable token _ => ∀ user m, (requireVerified c token).run w = .ok user m →
      user.mfaEnabled = true → user.mfaSecret.isSome = true
  | .resetPassword token _ => IsText token
  | _ => True

/-- Such a request raises nothing but `AppError`, and what it leaves can be committed. -/
theorem ends_iff_comparable {r : Request} (hReady : ∀ user ∈ w.db.users, CanIssue c user.id w.db)
    (hValid : w.db.Valid) (h : r.authenticates = true) :
    ((handle c r).RaisesOnly PyError.IsApp w ∧
      ∀ response m, (handle c r).run w = .ok response m → m.db.Valid) ↔ Comparable c w r := by
  cases r with
  | login =>
    rw [login_raises_iff, login_valid_iff hReady, Comparable]
    exact ⟨fun ⟨hRaises, hFits⟩ user hUser hActive =>
        ⟨hRaises user hUser hActive, hFits user hUser hActive⟩,
      fun h => ⟨fun user hUser hActive => (h user hUser hActive).1,
        fun user hUser hActive => (h user hUser hActive).2⟩⟩
  | mfaVerify => rw [mfaVerify_raises_iff, mfaVerify_valid_iff hReady, Comparable]
  | mfaDisable token code =>
    rw [mfaDisable_raises_iff, Comparable]
    exact and_iff_left fun response m hRun => mfaDisable_valid token code _ _ _ hRun hValid
  | resetPassword token new =>
    rw [resetPassword_raises_iff, Comparable]
    exact and_iff_left fun response m hRun => resetPassword_valid token new _ _ _ hRun hValid
  | _ => cases h

/-- The ids that the request draws for a session and a device are of no session and no device. -/
def Event.DrawsNewIds (e : Event) (db : Db) : Prop :=
  (∀ x ∈ db.sessions, x.id ≠ e.draws.sessionId) ∧ ∀ d ∈ db.trustedDevices, d.id ≠ e.draws.deviceId

instance (e : Event) (db : Db) : Decidable (e.DrawsNewIds db) :=
  inferInstanceAs (Decidable (_ ∧ _))

theorem Step.canIssue (hs : s.Sound cfg) (hTraced : s.Traced) (h : Step cfg s e s')
    (hIds : e.DrawsNewIds s.world.db) {user : User} (hUser : user ∈ s.world.db.users) :
    CanIssue (e.ctx cfg) user.id s.world.db where
  valid := hs.valid
  user := ⟨user, hUser, rfl⟩
  device := fun d hd => ⟨hIds.2 d hd, fun hSame => by
    obtain ⟨past, hPast, hHash⟩ := hs.devices d hd
    exact (h.fresh past hPast).deviceTokenHash (hHash.symm.trans hSame)⟩
  unused := h.pairUnused hs hTraced hIds.1

/-- A request is committed, or ends with an `AppError`, as its handler does. -/
theorem Step.declared_iff (h : Step cfg s e s') :
    e.Declared ↔ (handle (e.ctx cfg) e.request).RaisesOnly PyError.IsApp s.world ∧
      ∀ response w, (handle (e.ctx cfg) e.request).run s.world = .ok response w → w.db.Valid := by
  cases hRun : (handle (e.ctx cfg) e.request).run s.world with
  | ok response w =>
    rw [and_iff_right (by simp [Handler.RaisesOnly, hRun]), Event.Declared]
    by_cases hValid : w.db.Valid
    · rw [(h.returned hRun hValid).1]
      simp [hValid]
    · rw [(h.refused hRun hValid).1]
      simp [hValid, PyError.integrityError]
  | error error w =>
    rw [Event.Declared, (h.raised hRun).1, and_iff_left (by simp)]
    cases error <;> simp [Handler.RaisesOnly, hRun, PyError.IsApp]

/-- From every reachable state, an authentication request returns or ends with an `AppError` exactly
when what it compares with is there, and is text, and the client of a session fits its columns. -/
theorem declared_errors_iff (hReach : Reachable cfg s) (h : Step cfg s e s')
    (hIds : e.DrawsNewIds s.world.db) (hAuth : e.request.authenticates = true) :
    e.Declared ↔ Comparable (e.ctx cfg) s.world e.request := by
  have hReady : ∀ user ∈ s.world.db.users, CanIssue (e.ctx cfg) user.id s.world.db :=
    fun user hUser => h.canIssue hReach.sound hReach.traced hIds hUser
  rw [h.declared_iff, ends_iff_comparable hReady hReach.sound.valid hAuth]

/-! ### A user without a password -/

/-- Dave comes through Google, and then tries to log in with a password. -/
def daveSignedUp : Sys :=
  (sampleHome.sample (seconds 10) (.oauthCallback "google" "dave@example.com" "g-7" none none)).2

def daveLogin : Event :=
  (daveSignedUp.sample (seconds 20) (.login "dave@example.com" "password" none none none)).1

def daveTurnedAway : Sys :=
  (daveSignedUp.sample (seconds 20) (.login "dave@example.com" "password" none none none)).2

theorem daveSignedUp_reachable : Reachable sampleConfig daveSignedUp :=
  (sampleHome_initial.reachable.sample (by decide) (by trivial)).2

theorem daveLogin_step : Step sampleConfig daveSignedUp daveLogin daveTurnedAway :=
  (daveSignedUp_reachable.sample (by decide) (by trivial)).1

/-- Such a login ends with the `TypeError` of the password hasher. -/
theorem undeclared_login :
    ¬∀ (cfg : Config) (s : Sys) (e : Event) (s' : Sys), Reachable cfg s → Step cfg s e s' →
      e.DrawsNewIds s.world.db → e.request.authenticates = true → e.Declared := by
  intro hClaim
  have hDeclared : daveLogin.Declared :=
    hClaim _ _ _ _ daveSignedUp_reachable daveLogin_step (by decide) rfl
  have hOutcome : daveLogin.outcome = .error (.other "TypeError") := rfl
  rw [Event.Declared, hOutcome] at hDeclared
  exact hDeclared

theorem declared_errors_iff_dave :
    daveLogin.Declared ↔
      Comparable (daveLogin.ctx sampleConfig) daveSignedUp.world daveLogin.request :=
  declared_errors_iff daveSignedUp_reachable daveLogin_step (by decide) rfl

end WxcodeAdm
