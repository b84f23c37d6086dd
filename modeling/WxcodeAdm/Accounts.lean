import WxcodeAdm.Guarantees.SingleSession
import WxcodeAdm.Lib.Owned

/-! The accounts of the users, and who reaches them: a committed request leaves an account as it is
unless it presents something of its user, or is one of the few that the platform, an owner or
Stripe may make. -/

namespace WxcodeAdm

open Lib

/-- The rows of a user: the account itself, with its sessions and second factors. -/
@[ext] structure Account where
  user : Option User
  refreshTokens : List RefreshToken
  sessions : List UserSession
  oauthAccounts : List OAuthAccount
  backupCodes : List MfaBackupCode
  trustedDevices : List TrustedDevice

/-- The account of a user. -/
def Db.account (db : Db) (id : Uuid) : Account where
  user := db.user id
  refreshTokens := ownedBy RefreshToken.userId id db.refreshTokens
  sessions := ownedBy UserSession.userId id db.sessions
  oauthAccounts := ownedBy OAuthAccount.userId id db.oauthAccounts
  backupCodes := ownedBy MfaBackupCode.userId id db.backupCodes
  trustedDevices := ownedBy TrustedDevice.userId id db.trustedDevices

/-- The account is the one that it was. -/
def Db.AccountIs (id : Uuid) (account : Account) (db : Db) : Prop := db.account id = account

/-- So it is, and no row of somebody else has the primary key of one of its rows. -/
structure Db.AccountApart (id : Uuid) (account : Account) (db : Db) : Prop where
  same : db.AccountIs id account
  tokens : ∀ x ∈ account.sessions, ∀ r ∈ db.refreshTokens, r.id = x.refreshTokenId → r.userId = id
  codes : ∀ b ∈ account.backupCodes, ∀ b' ∈ db.backupCodes, b'.id = b.id → b'.userId = id
  devices : ∀ d ∈ account.trustedDevices, ∀ d' ∈ db.trustedDevices, d'.id = d.id → d'.userId = id

variable {c : Ctx} {w w' : World} {db db' : Db} {id : Uuid} {account : Account}

theorem Db.Valid.accountApart (hValid : db.Valid) (hTied : db.SessionsTied) (id : Uuid) :
    db.AccountApart id (db.account id) where
  same := rfl
  tokens := by
    intro x hx r hr hId
    obtain ⟨hx, hOwner⟩ := mem_ownedBy.mp hx
    obtain ⟨r', hr', hId', hUser⟩ := hTied x hx
    obtain rfl := List.inj_on_of_nodup_map hValid.refreshTokenId hr hr' (hId.trans hId'.symm)
    exact hUser.trans hOwner
  codes := by
    intro b hb b' hb' hId
    obtain ⟨hb, hOwner⟩ := mem_ownedBy.mp hb
    exact List.inj_on_of_nodup_map hValid.backupCodeId hb' hb hId ▸ hOwner
  devices := by
    intro d hd d' hd' hId
    obtain ⟨hd, hOwner⟩ := mem_ownedBy.mp hd
    exact List.inj_on_of_nodup_map hValid.deviceId hd' hd hId ▸ hOwner

/-! ### Writes to other accounts -/

namespace Db.AccountIs

/-- An account is made of six parts. -/
theorem congr (h : db.AccountIs id account) (hUser : db'.user id = db.user id)
    (hTokens : ownedBy RefreshToken.userId id db'.refreshTokens =
      ownedBy RefreshToken.userId id db.refreshTokens)
    (hSessions : ownedBy UserSession.userId id db'.sessions =
      ownedBy UserSession.userId id db.sessions)
    (hOAuth : ownedBy OAuthAccount.userId id db'.oauthAccounts =
      ownedBy OAuthAccount.userId id db.oauthAccounts)
    (hCodes : ownedBy MfaBackupCode.userId id db'.backupCodes =
      ownedBy MfaBackupCode.userId id db.backupCodes)
    (hDevices : ownedBy TrustedDevice.userId id db'.trustedDevices =
      ownedBy TrustedDevice.userId id db.trustedDevices) : db'.AccountIs id account := by
  have hSame : db'.account id = db.account id :=
    Account.ext hUser hTokens hSessions hOAuth hCodes hDevices
  exact hSame.trans h

theorem updateUser (h : db.AccountIs id account) {other : Uuid} {f : User → User}
    (hId : ∀ u, (f u).id = u.id) (hOther : other ≠ id) :
    (db.updateUser other f).AccountIs id account := by
  refine h.congr ?_ rfl rfl rfl rfl rfl
  rw [Db.user_updateUser hId]
  cases hUser : db.user id with
  | none => rfl
  | some u => rw [Option.map_some, if_neg (by rw [Db.user_id hUser]; exact hOther.symm)]

theorem addUser (h : db.AccountIs id account) {u : User} (hOther : u.id ≠ id) :
    ({ db with users := db.users ++ [u] } : Db).AccountIs id account := by
  refine h.congr ?_ rfl rfl rfl rfl rfl
  change List.find? _ (db.users ++ [u]) = db.user id
  rw [List.find?_append, List.find?_singleton, decide_eq_false hOther]
  simp [Db.user]

theorem addRefreshToken (h : db.AccountIs id account) {r : RefreshToken} (hOther : r.userId ≠ id) :
    (db.addRefreshToken r).AccountIs id account :=
  h.congr rfl (ownedBy_concat hOther) rfl rfl rfl rfl

theorem addSession (h : db.AccountIs id account) {x : UserSession} (hOther : x.userId ≠ id) :
    (db.addSession x).AccountIs id account :=
  h.congr rfl rfl (ownedBy_concat hOther) rfl rfl rfl

theorem addOAuthAccount (h : db.AccountIs id account) {a : OAuthAccount} (hOther : a.userId ≠ id) :
    ({ db with oauthAccounts := db.oauthAccounts ++ [a] } : Db).AccountIs id account :=
  h.congr rfl rfl rfl (ownedBy_concat hOther) rfl rfl

theorem addBackupCodes (h : db.AccountIs id account) {codes : List MfaBackupCode}
    (hOthers : ∀ b ∈ codes, b.userId ≠ id) :
    ({ db with backupCodes := db.backupCodes ++ codes } : Db).AccountIs id account :=
  h.congr rfl rfl rfl rfl (ownedBy_append hOthers) rfl

theorem deleteBackupCodes (h : db.AccountIs id account) {other : Uuid} (hOther : other ≠ id) :
    ({ db with backupCodes := db.backupCodes.filter fun b => b.userId ≠ other } : Db).AccountIs id
      account := by
  refine h.congr rfl rfl rfl rfl (ownedBy_filter fun b _ hOwner => ?_) rfl
  exact decide_eq_true (by rw [hOwner]; exact hOther.symm)

theorem addTrustedDevice (h : db.AccountIs id account) {d : TrustedDevice}
    (hOther : d.userId ≠ id) :
    ({ db with trustedDevices := db.trustedDevices ++ [d] } : Db).AccountIs id account :=
  h.congr rfl rfl rfl rfl rfl (ownedBy_concat hOther)

end Db.AccountIs

namespace Db.AccountApart

/-- A write that keeps the account and the tables whose keys are looked at. -/
theorem frame (h : db.AccountApart id account) (hSame : db'.AccountIs id account)
    (hTokens : db'.refreshTokens = db.refreshTokens) (hCodes : db'.backupCodes = db.backupCodes)
    (hDevices : db'.trustedDevices = db.trustedDevices) : db'.AccountApart id account :=
  ⟨hSame, hTokens ▸ h.tokens, hCodes ▸ h.codes, hDevices ▸ h.devices⟩

/-- The deletion of refresh tokens of others takes no session of the account with it. -/
theorem deleteRefreshTokens (h : db.AccountApart id account) {p : RefreshToken → Bool}
    (hOthers : ∀ r ∈ db.refreshTokens, p r = true → r.userId ≠ id) :
    (db.deleteRefreshTokens p).AccountApart id account := by
  refine ⟨h.same.congr rfl ?_ ?_ rfl rfl rfl, fun x hx r hr =>
    h.tokens x hx r (List.mem_of_mem_filter hr), h.codes, h.devices⟩
  · refine ownedBy_filter fun r hr hOwner => ?_
    by_contra hDeleted
    exact hOthers r hr (by simpa using hDeleted) hOwner
  · refine ownedBy_filter fun x hx hOwner => ?_
    simp only [Bool.not_eq_true', List.any_eq_false, Bool.and_eq_true, decide_eq_true_eq, not_and]
    intro r hr hDeleted hId
    have hMem : x ∈ account.sessions := h.same ▸ mem_ownedBy.mpr ⟨hx, hOwner⟩
    exact hOthers r hr hDeleted (h.tokens x hMem r hr hId)

/-- The UPDATE of a backup code of somebody else. -/
theorem updateBackupCode (h : db.AccountApart id account) {row : MfaBackupCode}
    {f : MfaBackupCode → MfaBackupCode} (hRow : row ∈ db.backupCodes) (hOther : row.userId ≠ id)
    (hKeys : ∀ b, (f b).id = b.id ∧ (f b).userId = b.userId) :
    (db.updateBackupCode row.id f).AccountApart id account := by
  have hOwner (b : MfaBackupCode) : (if b.id = row.id then f b else b).userId = b.userId := by
    split
    · exact (hKeys b).2
    · rfl
  refine ⟨h.same.congr rfl rfl rfl rfl ?_ rfl, h.tokens, ?_, h.devices⟩
  · refine ownedBy_map (fun b _ => hOwner b) fun b hb hMine => if_neg fun hSame => hOther ?_
    have hMem : b ∈ account.backupCodes := h.same ▸ mem_ownedBy.mpr ⟨hb, hMine⟩
    exact h.codes b hMem row hRow hSame.symm
  · intro b hb b' hb' hId
    obtain ⟨old, hOld, rfl⟩ := List.mem_map.mp hb'
    rw [hOwner]
    refine h.codes b hb old hOld (Eq.trans ?_ hId)
    split
    · exact (hKeys old).1.symm
    · rfl

theorem deleteDevice (h : db.AccountApart id account) {row : TrustedDevice}
    (hRow : row ∈ db.trustedDevices) (hOther : row.userId ≠ id) :
    ({ db with trustedDevices := db.trustedDevices.filter fun d => d.id ≠ row.id } :
      Db).AccountApart id account := by
  refine ⟨h.same.congr rfl rfl rfl rfl rfl ?_, h.tokens, h.codes, fun d hd d' hd' =>
    h.devices d hd d' (List.mem_of_mem_filter hd')⟩
  refine ownedBy_filter fun d hd hMine => decide_eq_true fun hSame => hOther ?_
  have hMem : d ∈ account.trustedDevices := h.same ▸ mem_ownedBy.mpr ⟨hd, hMine⟩
  exact h.devices d hMem row hRow hSame.symm

/-- What `_issue_tokens` does for somebody else. -/
theorem issued (h : db.AccountApart id account) {other : Uuid} (hOther : other ≠ id)
    (ua ip : Option String) : (issued c other ua ip db).AccountIs id account := by
  have hDeleted := h.deleteRefreshTokens (p := fun r => r.userId = other) fun r _ hOwner =>
    of_decide_eq_true hOwner ▸ hOther
  exact (hDeleted.same.addRefreshToken (r := newRefreshToken c other) hOther).addSession
    (x := newSession c other c.draws.jti ua ip) hOther

/-- What `admin_refresh` does with the token of somebody else. -/
theorem replaceToken (h : db.AccountApart id account)
    (hUnique : (db.refreshTokens.map fun r => r.id).Nodup)
    {row : RefreshToken} (hRow : row ∈ db.refreshTokens) (hOther : row.userId ≠ id) :
    (db.replaceToken c row).AccountIs id account := by
  have hDeleted := h.deleteRefreshTokens (p := fun r => r.id = row.id) fun r hr hId => by
    obtain rfl := List.inj_on_of_nodup_map hUnique hr hRow (of_decide_eq_true hId)
    exact hOther
  exact hDeleted.same.addRefreshToken (r := newRefreshToken c row.userId) hOther

theorem rotated (h : db.AccountApart id account)
    (hUnique : (db.refreshTokens.map fun r => r.id).Nodup)
    {row : RefreshToken} (hRow : row ∈ db.refreshTokens) (hOther : row.userId ≠ id)
    (ua ip : Option String) : (rotated c row ua ip db).AccountIs id account :=
  (h.replaceToken hUnique hRow hOther).addSession
    (x := newSession c row.userId c.draws.jti ua ip) hOther

end Db.AccountApart

/-! ### Functions for other users -/

/-- The tables of the accounts. -/
def Account.parts : List Part :=
  [.users, .refreshTokens, .sessions, .oauthAccounts, .backupCodes, .trustedDevices]

theorem Touches.keepsAccount {α : Type} {parts : List Part} {h : App α} (ht : Touches parts h)
    (hNone : ∀ p ∈ Account.parts, p ∉ parts) : Handler.Preserves (Db.AccountIs id account) h :=
  fun _ _ _ hRun hSame => by
    have hPart (p : Part) (hp : p ∈ Account.parts) := (ht p (hNone p hp)).of_ok hRun
    refine hSame.congr (congrArg (List.find? _) (hPart .users ?_))
      (congrArg _ (hPart .refreshTokens ?_)) (congrArg _ (hPart .sessions ?_))
      (congrArg _ (hPart .oauthAccounts ?_)) (congrArg _ (hPart .backupCodes ?_))
      (congrArg _ (hPart .trustedDevices ?_)) <;> simp [Account.parts]

/-- A handler that leaves the keys that are looked at alone. -/
theorem keepsApart_of_keeps {α : Type} {parts : List Part} {h : App α}
    (hSame : Handler.Preserves (Db.AccountIs id account) h) (ht : Touches parts h)
    (hTokens : Part.refreshTokens ∉ parts) (hCodes : Part.backupCodes ∉ parts)
    (hDevices : Part.trustedDevices ∉ parts) :
    Handler.Preserves (Db.AccountApart id account) h := fun s a s' hRun hApart =>
  hApart.frame (hSame s a s' hRun hApart.same) ((ht _ hTokens).of_ok hRun)
    ((ht _ hCodes).of_ok hRun) ((ht _ hDevices).of_ok hRun)

theorem Touches.keepsApart {α : Type} {parts : List Part} {h : App α} (ht : Touches parts h)
    (hNone : ∀ p ∈ Account.parts, p ∉ parts) : Handler.Preserves (Db.AccountApart id account) h :=
  keepsApart_of_keeps (ht.keepsAccount hNone) ht (hNone _ (by simp [Account.parts]))
    (hNone _ (by simp [Account.parts])) (hNone _ (by simp [Account.parts]))

section Functions

variable {user : User} (hOther : user.id ≠ id)

include hOther

theorem updateUser_account {f : User → User} (hId : ∀ u, (f u).id = u.id) :
    Handler.Preserves (Db.AccountIs id account)
      (.exec fun db => db.updateUser user.id f : App Unit) :=
  .exec fun _ h => h.updateUser hId hOther

theorem issueTokens_account (ua ip : Option String) :
    Handler.Takes (Db.AccountApart id account) (Db.AccountIs id account)
      (issueTokens c user ua ip) := fun _ _ _ hRun hApart => by
  rw [(issueTokens_ok hRun).2]
  exact hApart.issued hOther ua ip

theorem redirectToWxcode_account (tokens : TokenResponse) :
    Handler.Preserves (Db.AccountIs id account) (redirectToWxcode c user tokens) :=
  .bind (.query _) fun found => by
    cases found with
    | none => exact .pure _
    | some _ =>
      exact .bind ((createWxcodeCode_touches _ _).keepsAccount (by decide)) fun _ =>
        .bind (updateUser_account hOther fun _ => rfl) fun _ => .pure _

theorem createTrustedDevice_account :
    Handler.Preserves (Db.AccountIs id account) (createTrustedDevice c user.id) :=
  .bind (.exec fun _ h => h.addTrustedDevice hOther) fun _ => .pure _

theorem isDeviceTrusted_account (deviceToken : String) :
    Handler.Preserves (Db.AccountApart id account) (isDeviceTrusted c user.id deviceToken) := by
  refine .ite (.pure _) fun s a s' hRun hApart => ?_
  rw [Handler.run_query_bind] at hRun
  cases hFound : trustedDevice c user.id deviceToken s.db with
  | none =>
    rw [hFound] at hRun
    obtain ⟨-, rfl⟩ := Handler.run_pure_ok.mp hRun
    exact hApart
  | some row =>
    have hOwner : row.userId = user.id := by
      have hKeys := List.find?_some hFound
      exact (of_decide_eq_true hKeys).1
    rw [hFound] at hRun
    simp only [Handler.run_ite_ok, Handler.run_exec_bind, Handler.run_pure_ok] at hRun
    rcases hRun with ⟨-, -, rfl⟩ | ⟨-, -, rfl⟩
    · exact hApart.deleteDevice (List.mem_of_find?_eq_some hFound) (hOwner ▸ hOther)
    · exact hApart

theorem redeemBackupCode_account (code : String) :
    Handler.Preserves (Db.AccountApart id account) (redeemBackupCode c user.id code) :=
  fun s _ s' hRun hApart => by
    simp only [redeemBackupCode, Handler.run_query_bind, Handler.run_orRaise_bind_ok,
      Handler.run_exec, Outcome.ok.injEq, true_and] at hRun
    obtain ⟨row, hFound, rfl⟩ := hRun
    obtain ⟨hRow, hUnused⟩ := List.mem_filter.mp (List.mem_of_find?_eq_some hFound)
    have hOwner : row.userId = user.id := (of_decide_eq_true hUnused).1
    exact hApart.updateBackupCode hRow (hOwner ▸ hOther) fun _ => ⟨rfl, rfl⟩

theorem skipMfa_account (enforcing : List Uuid) (deviceToken : Option String) :
    Handler.Preserves (Db.AccountApart id account) (skipMfa c user enforcing deviceToken) := by
  cases deviceToken with
  | none => exact .pure _
  | some token => exact .ite (isDeviceTrusted_account hOther token) (.pure _)

theorem loginVerified_account (device ua ip : Option String) :
    Handler.Takes (Db.AccountApart id account) (Db.AccountIs id account)
      (loginVerified c user device ua ip) := by
  have hPending (pending : MfaPending) (setupRequired : Bool) :
      Handler.Takes (Db.AccountApart id account) (Db.AccountIs id account) (do
        let mfaToken ← createMfaPending c pending
        return LoginResult.mfaRequired mfaToken setupRequired) :=
    .of_preserves (.bind ((createMfaPending_touches _).keepsApart (by decide)) fun _ => .pure _)
      fun _ h => h.same
  have hIssue : Handler.Takes (Db.AccountApart id account) (Db.AccountIs id account) (do
        let tokens ← issueTokens c user ua ip
        return LoginResult.tokens tokens) :=
    .bind (issueTokens_account hOther ua ip) fun _ => .pure _ fun _ h => h
  refine .bind (.of_preserves (.query _) fun _ h => h) fun _ => .ite (hPending _ _) <| .ite ?_ hIssue
  exact .bind (.of_preserves (skipMfa_account hOther _ _) fun _ h => h) fun _ =>
    .ite hIssue (hPending _ _)

theorem verifySecondFactor_account (code : String) :
    Handler.Preserves (Db.AccountApart id account) (verifySecondFactor c user code) :=
  .bind (.ofExcept _) fun _ => .ite (.store _) (redeemBackupCode_account hOther code)

theorem completeMfaLogin_account (body : MfaVerifyRequest) (ua ip : Option String) :
    Handler.Takes (Db.AccountApart id account) (Db.AccountIs id account)
      (completeMfaLogin c user body ua ip) := by
  refine .bind (.of_preserves (.store _) fun _ h => h) fun _ =>
    .bind (issueTokens_account hOther ua ip) fun _ => .of_preserves ?_ fun _ h => h
  exact .bind (redirectToWxcode_account hOther _) fun _ => .ite
    (.bind (createTrustedDevice_account hOther) fun _ => .pure _) (.pure _)

theorem revokeOtherSessions_account (jti : Option Uuid) :
    Handler.Preserves (Db.AccountApart id account) (revokeOtherSessions c user.id jti) :=
  fun _ _ _ hRun hApart => by
    rw [run_revokeOtherSessions] at hRun
    cases hRun
    refine hApart.deleteRefreshTokens fun r _ hGone => ?_
    exact (of_decide_eq_true hGone).1 ▸ hOther

theorem changePassword_account (current new : String) (jti : Option Uuid) :
    Handler.Preserves (Db.AccountApart id account) (changePassword c user current new jti) :=
  .bind (.ensure _ _) fun _ => .bind (.ofExcept _) fun _ => .bind (.ensure _ _) fun _ =>
    .bind (keepsApart_of_keeps (updateUser_account hOther fun _ => rfl) touches_users (by simp)
      (by simp) (by simp)) fun _ => .bind (revokeOtherSessions_account hOther _) fun _ => .pure _

theorem updateProfile_account (data : UpdateProfileRequest) :
    Handler.Preserves (Db.AccountIs id account) (updateProfile c user data) :=
  .bind (updateUser_account hOther fun _ => rfl) fun _ => by
    cases data.email with
    | none => exact .pure _
    | some _ =>
      exact .ite (.pure _) <| .bind (.query _) fun _ => .bind (.ensure _ _) fun _ =>
        .bind (updateUser_account hOther fun _ => rfl) fun _ =>
        .bind ((createVerificationCode_touches _).keepsAccount (by decide)) fun _ =>
        (touches_enqueueJob _).keepsAccount (by decide)

theorem mfaBeginEnrollment_account :
    Handler.Preserves (Db.AccountIs id account) (mfaBeginEnrollment c user) :=
  .bind (.ensure _ _) fun _ => .bind (updateUser_account hOther fun _ => rfl) fun _ => .pure _

theorem mfaConfirmEnrollment_account (code : String) :
    Handler.Preserves (Db.AccountIs id account) (mfaConfirmEnrollment c user code) := by
  refine .bind (.ensure _ _) fun _ => .bind (.ensure _ _) fun _ => .bind (.ofExcept _) fun _ =>
    .bind (.ensure _ _) fun _ => .bind (updateUser_account hOther fun _ => rfl) fun _ =>
    .bind (.exec fun _ h => h.deleteBackupCodes hOther) fun _ =>
    .bind (.exec fun _ h => h.addBackupCodes fun b hb => ?_) fun _ =>
    .bind (touches_flush.keepsAccount (by decide)) fun _ => .pure _
  obtain ⟨x, -, rfl⟩ := List.mem_map.mp hb
  exact hOther

theorem mfaDisable_account (code : String) :
    Handler.Takes (Db.AccountApart id account) (Db.AccountIs id account)
      (mfaDisable c user code) := by
  have hCheck : Handler.Preserves (Db.AccountApart id account) (checkDisableCode c user code) :=
    .bind (.ofExcept _) fun _ => .ite (.pure _) (redeemBackupCode_account hOther code)
  refine .bind (.of_preserves (.ensure _ _) fun _ h => h) fun _ =>
    .bind (.of_preserves hCheck fun _ h => h.same) fun _ => .of_preserves ?_ fun _ h => h
  exact .bind (updateUser_account hOther fun _ => rfl) fun _ =>
    .exec fun _ h => h.deleteBackupCodes hOther

end Functions

end WxcodeAdm
