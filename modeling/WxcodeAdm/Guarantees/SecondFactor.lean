import WxcodeAdm.System

/-! Which sign-ins ask for the second factor.  `login` and `mfa_verify` open no session without it
for a user who needs it; the two OAuth paths never ask. -/

namespace WxcodeAdm

open Lib

/-- The user has MFA enabled, or is in a tenant that enforces it. -/
def Db.NeedsSecondFactor (db : Db) (userId : Uuid) : Prop :=
  (∃ u, db.user userId = some u ∧ u.mfaEnabled = true) ∨ getEnforcingTenantsForUser userId db ≠ []

/-- The sign-in has shown a second factor of the user: a TOTP code or an unused backup code, or,
where no tenant of the user enforces MFA, the token of an unexpired trusted device. -/
def Request.ShowsFactor (c : Ctx) (w : World) (userId : Uuid) : Request → Prop
  | .mfaVerify body _ _ => ∃ u, w.db.user userId = some u ∧
      (totpVerify c u.mfaSecret body.code = .ok true ∨
        (matchingBackupCode c userId body.code w.db).isSome = true)
  | .login _ _ (some token) _ _ => getEnforcingTenantsForUser userId w.db = [] ∧
      ∃ d ∈ w.db.trustedDevices, d.userId = userId ∧ d.tokenHash = c.lib.sha256 token ∧
        c.now ≤ d.expiresAt
  | _ => False

def Request.signsIn : Request → Bool
  | .login .. | .mfaVerify .. | .oauthCallback .. | .oauthLinkConfirm .. => true
  | _ => false

def Request.oauthUser (c : Ctx) (w : World) : Request → Option Uuid
  | .oauthCallback provider _ providerUserId _ _ =>
    (w.db.oauthAccounts.find? fun a => a.provider = provider ∧
      a.providerUserId = providerUserId).map fun a => a.userId
  | .oauthLinkConfirm linkToken _ _ _ =>
    (w.cache.oauthLink.get c.now linkToken).map fun link => link.userId
  | _ => none

/-- An OAuth sign-in of a user who needs the second factor. -/
def Request.BypassesFactor (c : Ctx) (w : World) (r : Request) : Prop :=
  ∃ userId, r.oauthUser c w = some userId ∧ w.db.NeedsSecondFactor userId

variable {cfg : Config} {c : Ctx} {w w' : World} {t : TokenResponse}

theorem issueTokens_sub {user : User} {ua ip : Option String}
    (h : (issueTokens c user ua ip).run w = .ok t w') : t.accessToken.sub = user.id := by
  obtain ⟨rfl, -⟩ := issueTokens_ok h
  rfl

/-! ### Login -/

/-- The token is of a device of the user that is still trusted. -/
def TrustsDevice (c : Ctx) (db : Db) (userId : Uuid) (token : String) : Prop :=
  token ≠ "" ∧ ∃ row, trustedDevice c userId token db = some row ∧ c.now ≤ row.expiresAt

theorem TrustsDevice.device {db : Db} {userId : Uuid} {token : String}
    (h : TrustsDevice c db userId token) :
    ∃ d ∈ db.trustedDevices, d.userId = userId ∧ d.tokenHash = c.lib.sha256 token ∧
      c.now ≤ d.expiresAt := by
  obtain ⟨-, d, hFound, hLive⟩ := h
  have hKey : d.userId = userId ∧ d.tokenHash = c.lib.sha256 token := by
    simpa [trustedDevice] using List.find?_some hFound
  exact ⟨d, List.mem_of_find?_eq_some hFound, hKey.1, hKey.2, hLive⟩

theorem isDeviceTrusted_true {userId : Uuid} {token : String}
    (h : (isDeviceTrusted c userId token).run w = .ok true w') : TrustsDevice c w.db userId token := by
  simp only [isDeviceTrusted, Handler.run_ite_ok, Handler.run_query_bind] at h
  rcases h with ⟨-, h⟩ | ⟨hToken, h⟩
  · simp at h
  · split at h
    · simp at h
    · rename_i d hFound
      simp only [Handler.run_ite_ok, Handler.run_exec_bind, Handler.run_pure_ok] at h
      have hLive : ¬d.expiresAt < c.now := by simpa using h.resolve_left (by simp) |>.1
      exact ⟨hToken, d, hFound, Nat.not_lt.mp hLive⟩

theorem run_isDeviceTrusted {userId : Uuid} {token : String} (h : TrustsDevice c w.db userId token) :
    (isDeviceTrusted c userId token).run w = .ok true w := by
  obtain ⟨hToken, d, hFound, hLive⟩ := h
  rw [isDeviceTrusted, if_neg hToken, Handler.run_query_bind, hFound]
  exact congrArg (Handler.run · w) (if_neg (Nat.not_lt.mpr hLive))

/-- The second factor is skipped for a trusted device, and in no enforcing tenant. -/
theorem skipMfa_true {user : User} {enforcing : List Uuid} {device : Option String}
    (h : (skipMfa c user enforcing device).run w = .ok true w') :
    enforcing = [] ∧ ∃ token, device = some token ∧ TrustsDevice c w.db user.id token := by
  unfold skipMfa at h
  split at h
  · rename_i token
    simp only [Handler.run_ite_ok, Handler.run_pure_ok] at h
    rcases h with ⟨hNone, h⟩ | ⟨-, h, -⟩
    · exact ⟨hNone, token, rfl, isDeviceTrusted_true h⟩
    · cases h
  · simp at h

theorem loginVerified_tokens {user : User} {device ua ip : Option String}
    (h : (loginVerified c user device ua ip).run w = .ok (.tokens t) w') :
    t.accessToken.sub = user.id ∧ getEnforcingTenantsForUser user.id w.db = [] ∧
      (user.mfaEnabled = true → ∃ token, device = some token ∧ TrustsDevice c w.db user.id token) := by
  simp only [loginVerified, Handler.run_query_bind, Handler.run_ite_ok] at h
  rcases h with ⟨-, h⟩ | ⟨hSetup, ⟨hMfa, h⟩ | ⟨hMfa, h⟩⟩
  · obtain ⟨_, _, -, h⟩ := Handler.run_bind_ok.mp h
    simp at h
  · obtain ⟨trusted, m, hSkip, h⟩ := Handler.run_bind_ok.mp h
    simp only [Handler.run_ite_ok] at h
    rcases h with ⟨rfl, h⟩ | ⟨-, h⟩
    · obtain ⟨t', m', hIssue, h⟩ := Handler.run_bind_ok.mp h
      obtain ⟨hResult, -⟩ := Handler.run_pure_ok.mp h
      obtain rfl := LoginResult.tokens.inj hResult
      obtain ⟨hNone, hDevice⟩ := skipMfa_true hSkip
      exact ⟨issueTokens_sub hIssue, hNone, fun _ => hDevice⟩
    · obtain ⟨_, _, -, h⟩ := Handler.run_bind_ok.mp h
      simp at h
  · obtain ⟨t', m', hIssue, h⟩ := Handler.run_bind_ok.mp h
    obtain ⟨hResult, -⟩ := Handler.run_pure_ok.mp h
    obtain rfl := LoginResult.tokens.inj hResult
    refine ⟨issueTokens_sub hIssue, ?_, fun hOn => absurd hOn hMfa⟩
    by_contra hEnforcing
    exact hSetup ⟨hEnforcing, by simpa using hMfa⟩

theorem login_tokens {email : String} {password : PyStr} {device ua ip : Option String}
    (h : (login c email password device ua ip).run w = .ok (.tokens t) w') :
    ∃ user ∈ w.db.users, t.accessToken.sub = user.id ∧
      getEnforcingTenantsForUser user.id w.db = [] ∧
      (user.mfaEnabled = true → ∃ token, device = some token ∧ TrustsDevice c w.db user.id token) := by
  simp only [login, Handler.run_query_bind, Handler.run_orRaise_bind_ok,
    Handler.run_ensure_bind_ok, Handler.run_ofExcept_bind_ok] at h
  obtain ⟨user, hFound, -, _, -, -, -, h⟩ := h
  exact ⟨user, List.mem_of_find?_eq_some hFound, loginVerified_tokens h⟩

/-! ### The second stage -/

theorem redeemBackupCode_ok {userId : Uuid} {code : String}
    (h : (redeemBackupCode c userId code).run w = .ok () w') :
    (matchingBackupCode c userId code w.db).isSome = true := by
  simp only [redeemBackupCode, Handler.run_query_bind, Handler.run_orRaise_bind_ok] at h
  obtain ⟨row, hRow, -⟩ := h
  rw [hRow]
  rfl

theorem verifySecondFactor_ok {user : User} {code : String}
    (h : (verifySecondFactor c user code).run w = .ok () w') :
    totpVerify c user.mfaSecret code = .ok true ∨ totpVerify c user.mfaSecret code = .ok false ∧
      (matchingBackupCode c user.id code w.db).isSome = true := by
  simp only [verifySecondFactor, Handler.run_ofExcept_bind_ok, Handler.run_ite_ok] at h
  obtain ⟨valid, hValid, ⟨rfl, -⟩ | ⟨hNot, h⟩⟩ := h
  · exact .inl hValid
  · exact .inr ⟨hValid.trans (congrArg _ (by simpa using hNot)), redeemBackupCode_ok h⟩

theorem mfaVerify_ok {body : MfaVerifyRequest} {ua ip : Option String} {result : MfaVerifyResult}
    (h : (mfaVerify c body ua ip).run w = .ok result w') :
    ∃ user, w.db.user user.id = some user ∧ result.tokens.accessToken.sub = user.id ∧
      (totpVerify c user.mfaSecret body.code = .ok true ∨
        (matchingBackupCode c user.id body.code w.db).isSome = true) := by
  simp only [mfaVerify, Handler.run_lookup_bind, Handler.run_orRaise_bind_ok,
    Handler.run_ofExcept_bind_ok, Handler.run_query_bind, Handler.run_ensure_bind_ok] at h
  obtain ⟨pending, -, userId, -, user, hUser, -, -, h⟩ := h
  obtain rfl := Db.user_id hUser
  obtain ⟨⟨⟩, m, hFactor, h⟩ := Handler.run_bind_ok.mp h
  refine ⟨user, hUser, ?_, (verifySecondFactor_ok hFactor).imp_right And.right⟩
  simp only [completeMfaLogin, Handler.run_store_bind] at h
  obtain ⟨t, m', hIssue, h⟩ := Handler.run_bind_ok.mp h
  obtain ⟨redirect, m'', -, h⟩ := Handler.run_bind_ok.mp h
  simp only [Handler.run_ite_ok] at h
  rcases h with ⟨-, h⟩ | ⟨-, h⟩
  · obtain ⟨_, _, -, h⟩ := Handler.run_bind_ok.mp h
    obtain ⟨rfl, -⟩ := Handler.run_pure_ok.mp h
    exact issueTokens_sub hIssue
  · obtain ⟨rfl, -⟩ := Handler.run_pure_ok.mp h
    exact issueTokens_sub hIssue

/-! ### OAuth -/

theorem confirmOauthLink_sub {linkToken password : PyStr} {ua ip : Option String}
    (h : (confirmOauthLink c linkToken password ua ip).run w = .ok t w') :
    Request.oauthUser c w (.oauthLinkConfirm linkToken password ua ip) =
      some t.accessToken.sub := by
  simp only [confirmOauthLink, addOAuthAccount, Handler.run_lookup_bind,
    Handler.run_orRaise_bind_ok, Handler.run_query_bind, Handler.run_ofExcept_bind_ok,
    Handler.run_ensure_bind_ok, Handler.run_store_bind, bind_assoc, Handler.run_exec_bind,
    run_flush_bind_ok] at h
  obtain ⟨link, hLink, user, hUser, _, -, -, -, hIssue⟩ := h
  simp [Request.oauthUser, hLink, issueTokens_sub hIssue, Db.user_id hUser]

theorem not_needsSecondFactor_of_new {db : Db} {userId : Uuid} (hValid : db.Valid)
    (hNew : ¬db.HasUser userId) : ¬db.NeedsSecondFactor userId := by
  rintro (⟨u, hUser, -⟩ | hEnforcing)
  · exact hNew ⟨u, List.mem_of_find?_eq_some hUser, Db.user_id hUser⟩
  · refine hEnforcing (List.map_eq_nil_iff.mpr (List.filter_eq_nil_iff.mpr fun tenant _ h => hNew ?_))
    obtain ⟨-, hMember⟩ := by simpa using h
    obtain ⟨m, hFound⟩ := Option.isSome_iff_exists.mp hMember
    have hKey : m.userId = userId ∧ m.tenantId = tenant.id := by simpa using List.find?_some hFound
    exact hKey.1 ▸ hValid.membershipUser m (List.mem_of_find?_eq_some hFound)

/-- A sign-in of an unknown account makes a new user, who is in no tenant yet. -/
theorem oauthSignup_fresh {provider email puid : String} {ua ip : Option String}
    {isNew onboard : Bool} (hValid : w.db.Valid)
    (h : (oauthSignup c provider email puid ua ip).run w = .ok (.callback t isNew onboard) w') :
    ¬w.db.NeedsSecondFactor t.accessToken.sub := by
  obtain ⟨hNew, t', _, m, hResult, -, -, hIssue⟩ := oauthSignup_ok h
  obtain ⟨rfl, -, -⟩ := OAuthResult.callback.inj hResult
  rw [issueTokens_sub hIssue]
  exact not_needsSecondFactor_of_new hValid hNew

/-- An OAuth callback issues tokens to the user of the account, or to a new user. -/
theorem resolveOauthAccount_sub {provider email puid : String} {ua ip : Option String}
    {isNew onboard : Bool} (hValid : w.db.Valid)
    (h : (resolveOauthAccount c provider email puid ua ip).run w =
      .ok (.callback t isNew onboard) w') :
    Request.oauthUser c w (.oauthCallback provider email puid ua ip) = some t.accessToken.sub ∨
      Request.oauthUser c w (.oauthCallback provider email puid ua ip) = none ∧
        ¬w.db.NeedsSecondFactor t.accessToken.sub := by
  rcases resolveOauthAccount_ok h with ⟨account, hAccount, h⟩ | ⟨hAccount, h⟩
  · refine .inl ?_
    obtain ⟨user, _, hUser, hIssue⟩ := oauthLogin_ok h
    rw [issueTokens_sub hIssue, Db.user_id hUser]
    simp only [Request.oauthUser, hAccount, Option.map_some]
  · refine .inr ⟨by simp only [Request.oauthUser, hAccount, Option.map_none], ?_⟩
    exact oauthSignup_fresh hValid h

/-! ### Runs -/

section Runs

variable {s s' : Sys} {e : Event}

/-- A sign-in for a user who needs the second factor has shown one exactly when it is not an OAuth
sign-in of a known user. -/
theorem Step.factor_iff (hs : s.Sound cfg) (h : Step cfg s e s') (hIssued : e.issued = some t)
    (hSignsIn : e.request.signsIn = true) :
    (s.world.db.NeedsSecondFactor t.accessToken.sub →
        e.request.ShowsFactor (e.ctx cfg) s.world t.accessToken.sub) ↔
      ¬e.request.BypassesFactor (e.ctx cfg) s.world := by
  obtain ⟨response, hOk, hResponse⟩ := Event.issued_some hIssued
  have hRun := (h.committed hOk).1
  generalize e.ctx cfg = c at hRun ⊢
  generalize e.request = r at hRun hSignsIn ⊢
  cases r with
  | login email password device ua ip =>
    refine iff_of_true (fun hNeeds => ?_) (by simp [Request.BypassesFactor, Request.oauthUser])
    obtain ⟨m, hLogin⟩ := login_route_issued hRun hResponse
    obtain ⟨user, hMem, hSub, hNone, hDevice⟩ := login_tokens hLogin
    rw [hSub] at hNeeds ⊢
    have hMfa : user.mfaEnabled = true := by
      rcases hNeeds with ⟨u, hUser, hMfa⟩ | hEnforcing
      · rw [hs.valid.user_of_mem hMem] at hUser
        exact Option.some.inj hUser ▸ hMfa
      · exact absurd hNone hEnforcing
    obtain ⟨token, rfl, hTrusted⟩ := hDevice hMfa
    exact ⟨hNone, hTrusted.device⟩
  | mfaVerify body ua ip =>
    refine iff_of_true (fun _ => ?_) (by simp [Request.BypassesFactor, Request.oauthUser])
    obtain ⟨result, m, hVerify, hRun⟩ := Handler.run_bind_ok.mp hRun
    obtain ⟨rfl, -⟩ := Handler.run_pure_ok.mp hRun
    obtain rfl := Option.some.inj hResponse
    obtain ⟨user, hUser, hSub, hShown⟩ := mfaVerify_ok hVerify
    rw [hSub]
    exact ⟨user, hUser, hShown⟩
  | oauthCallback provider email puid ua ip =>
    simp only [handle, Router.oauthCallback, Handler.run_ensure_bind_ok] at hRun
    obtain ⟨-, hRun⟩ := hRun
    obtain ⟨result, m, hResolve, hRun⟩ := Handler.run_bind_ok.mp hRun
    obtain ⟨rfl, -⟩ := Handler.run_pure_ok.mp hRun
    cases result with
    | link => cases hResponse
    | callback t' isNew onboard =>
      obtain rfl := Option.some.inj hResponse
      rcases resolveOauthAccount_sub hs.valid hResolve with hKnown | ⟨hUnknown, hFresh⟩
      · simp [Request.BypassesFactor, Request.ShowsFactor, hKnown]
      · simp [Request.BypassesFactor, Request.ShowsFactor, hUnknown, hFresh]
  | oauthLinkConfirm linkToken password ua ip =>
    obtain ⟨t', m, hConfirm, hRun⟩ := Handler.run_bind_ok.mp hRun
    obtain ⟨rfl, -⟩ := Handler.run_pure_ok.mp hRun
    obtain rfl := Option.some.inj hResponse
    simp [Request.BypassesFactor, Request.ShowsFactor, confirmOauthLink_sub hConfirm]
  | _ => cases hSignsIn

/-- In every run a sign-in that issues tokens to a user who needs the second factor has shown one
exactly when it is not an OAuth sign-in of a known user. -/
theorem second_factor_at_issuance {s₀ : Sys} {steps : List (Sys × Event)} (hInit : Initial s₀)
    (hRun : Run (Step cfg) s₀ steps s) :
    ∀ p ∈ steps, ∀ t, p.2.issued = some t → p.2.request.signsIn = true →
      ((p.1.world.db.NeedsSecondFactor t.accessToken.sub →
          p.2.request.ShowsFactor (p.2.ctx cfg) p.1.world t.accessToken.sub) ↔
        ¬p.2.request.BypassesFactor (p.2.ctx cfg) p.1.world) :=
  hRun.forall_steps (I := Sys.Sound cfg)
    (P := fun m e => ∀ t, e.issued = some t → e.request.signsIn = true →
      ((m.world.db.NeedsSecondFactor t.accessToken.sub →
          e.request.ShowsFactor (e.ctx cfg) m.world t.accessToken.sub) ↔
        ¬e.request.BypassesFactor (e.ctx cfg) m.world))
    (fun hs hStep => hStep.sound hs)
    (fun hs hStep _ hIssued hSignsIn => hStep.factor_iff hs hIssued hSignsIn) hInit.sound

def linkedStart : Sys := sampleStart
  { users := [{ sampleUser with mfaEnabled := true, mfaSecret := some "secret" }]
    oauthAccounts := [{ userId := ⟨1⟩, provider := "google", providerUserId := "g-1" }] }

def signedInByGoogle : Event × Sys :=
  linkedStart.sample (seconds 10) (.oauthCallback "google" "alice@example.com" "g-1" none none)

theorem linkedStart_initial : Initial linkedStart := ⟨by decide, rfl, rfl, rfl, rfl, rfl, rfl⟩

theorem signedInByGoogle_step : Step sampleConfig linkedStart signedInByGoogle.1 signedInByGoogle.2 :=
  .of_admits (by decide) (by trivial)

/-- Tokens for a user with MFA enabled, from a sign-in that showed no second factor. -/
theorem oauth_bypasses_factor :
    ¬∀ (cfg : Config) (s₀ s : Sys) (steps : List (Sys × Event)), Initial s₀ →
      Run (Step cfg) s₀ steps s → ∀ p ∈ steps, ∀ t, p.2.issued = some t →
        p.2.request.signsIn = true → p.1.world.db.NeedsSecondFactor t.accessToken.sub →
        p.2.request.ShowsFactor (p.2.ctx cfg) p.1.world t.accessToken.sub := by
  intro hClaim
  exact hClaim sampleConfig linkedStart signedInByGoogle.2 _ linkedStart_initial
    (.single signedInByGoogle_step) _ (List.mem_singleton.mpr rfl) _ rfl rfl
    (.inl ⟨_, rfl, rfl⟩)

/-- The law at that sign-in. -/
theorem second_factor_at_issuance_signedInByGoogle :
    (linkedStart.world.db.NeedsSecondFactor ⟨1⟩ →
        signedInByGoogle.1.request.ShowsFactor (signedInByGoogle.1.ctx sampleConfig)
          linkedStart.world ⟨1⟩) ↔
      ¬signedInByGoogle.1.request.BypassesFactor (signedInByGoogle.1.ctx sampleConfig)
        linkedStart.world := by
  have hMem : (linkedStart, signedInByGoogle.1) ∈ [(linkedStart, signedInByGoogle.1)] :=
    List.mem_singleton.mpr rfl
  exact second_factor_at_issuance linkedStart_initial (.single signedInByGoogle_step) _ hMem _ rfl
    rfl

end Runs

end WxcodeAdm
