import WxcodeAdm.Guarantees.OneProvider
import WxcodeAdm.Guarantees.UsableClaims

/-! A member without MFA in a tenant that enforces it.  `login` gives such a user a setup token,
which `mfa_verify` turns away, and enrolment asks for a bearer token, so the only way in is a
pending login from before. -/

namespace WxcodeAdm

open Lib

/-! ### The user's requests -/

/-- The token is one that a guard accepts, now or later. -/
def Accepted (cfg : Config) (s : Sys) (p : Payload) : Prop :=
  ∃ now draws user w, s.now ≤ now ∧
    (getCurrentUser ⟨cfg, now, draws⟩ (.signed p)).run s.world = .ok user w

/-- An active, verified user with a password and without MFA, in a tenant that enforces it, who
holds no valid token. -/
structure Locked (cfg : Config) (s : Sys) (user : User) : Prop where
  row : s.world.db.user user.id = some user
  active : user.isActive = true
  verified : user.emailVerified = true
  password : user.passwordHash.isSome
  noMfa : user.mfaEnabled = false
  enforced : getEnforcingTenantsForUser user.id s.world.db ≠ []
  noAccess : ∀ p ∈ s.minted, p.sub = user.id → ¬Accepted cfg s p
  noRefresh : ∀ r ∈ s.world.db.refreshTokens, r.userId = user.id → r.expiresAt < s.now

def MfaPending.userId : MfaPending → Uuid
  | .plain userId | .setupRequired userId => userId

/-- The requests of the user that the way in may be made of: with the own address, and with no
token of somebody else's. -/
def Own (user : User) (w : World) (e : Event) : Prop :=
  match e.request with
  | .login email _ _ _ _ => email = user.email
  | .mfaEnroll token | .mfaConfirm token _ => ∀ p, token = .signed p → p.sub = user.id
  | .mfaVerify body _ _ => ∀ pending ∈ w.cache.mfaPending.get e.now body.mfaToken,
      pending.userId = user.id
  | .refresh token _ _ => ∀ r ∈ w.db.refreshTokens, r.token = token → r.userId = user.id
  | _ => False

def OwnStep (cfg : Config) (user : User) (s : Sys) (e : Event) (s' : Sys) : Prop :=
  Step cfg s e s' ∧ Own user s.world e

/-- What `mfa_verify` checks of a pending login and a code. -/
structure PassesMfa (c : Ctx) (w : World) (user : User) (body : MfaVerifyRequest) : Prop where
  pending : w.cache.mfaPending.get c.now body.mfaToken = some (.plain user.id)
  notReplayed : replayedCode c user.id body.code w.cache = false
  code : totpVerify c user.mfaSecret body.code = .ok true ∨
    totpVerify c user.mfaSecret body.code = .ok false ∧
      (matchingBackupCode c user.id body.code w.db).isSome

/-- The user still has a pending login from before, and a code for it. -/
def HasPendingLogin (cfg : Config) (s : Sys) (user : User) : Prop :=
  ∃ now draws body, s.now ≤ now ∧ PassesMfa ⟨cfg, now, draws⟩ s.world user body

section Handlers

variable {c : Ctx} {w : World} {user : User}

/-- The setup token of a login is stored. -/
def setupStored (c : Ctx) (user : User) (w : World) : World :=
  { w with
    cache := { w.cache with
      mfaPending := w.cache.mfaPending.set c.now c.draws.mfaToken (.setupRequired user.id)
        (seconds c.settings.mfaPendingTtlSeconds) } }

/-- A setup token is no plain one. -/
theorem setupStored_plain {now : Nat} {token : PyStr} {userId : Uuid}
    (h : (setupStored c user w).cache.mfaPending.get now token = some (.plain userId)) :
    w.cache.mfaPending.get now token = some (.plain userId) := by
  simp only [setupStored] at h
  by_cases hToken : token = c.draws.mfaToken
  · rw [hToken, Expiring.get_set_same] at h
    split at h
    · cases h
    · cases h
  · rwa [Expiring.get_set_other hToken] at h

/-- A login of a user who has to enrol first gives a setup token, or fails and changes nothing. -/
theorem run_login_locked (hUser : w.db.userByEmail user.email = some user)
    (hMfa : user.mfaEnabled = false) (hEnforced : getEnforcingTenantsForUser user.id w.db ≠ [])
    (password : PyStr) (device ua ip : Option String) :
    (∃ error, (handle c (.login user.email password device ua ip)).run w = .error error w) ∨
    (handle c (.login user.email password device ua ip)).run w =
      .ok (.login (.mfaRequired c.draws.mfaToken true) none) (setupStored c user w) := by
  rw [handle, Router.login, login, bind_assoc, Handler.run_query_bind, hUser, bind_assoc,
    Handler.orRaise_some_bind, bind_assoc]
  by_cases hActive : user.isActive
  · rw [Handler.ensure_bind_of hActive, bind_assoc]
    cases hValid : verifyPassword c password user.passwordHash with
    | error error => exact .inl ⟨error, rfl⟩
    | ok valid =>
      rw [Handler.ofExcept_ok_bind, bind_assoc]
      by_cases hMatches : valid = true
      · rw [Handler.ensure_bind_of hMatches, bind_assoc]
        by_cases hVerified : user.emailVerified
        · right
          rw [Handler.ensure_bind_of hVerified, loginVerified, bind_assoc, Handler.run_query_bind,
            if_pos ⟨hEnforced, hMfa⟩]
          rfl
        · exact .inl ⟨_, Handler.run_ensure_bind_of_not hVerified⟩
      · exact .inl ⟨_, Handler.run_ensure_bind_of_not hMatches⟩
  · exact .inl ⟨_, Handler.run_ensure_bind_of_not hActive⟩

/-- Without what it checks, `mfa_verify` changes nothing. -/
theorem run_mfaVerify_fails {body : MfaVerifyRequest} (hUser : w.db.user user.id = some user)
    (hOwn : ∀ pending ∈ w.cache.mfaPending.get c.now body.mfaToken, pending.userId = user.id)
    (hFails : ¬PassesMfa c w user body) (ua ip : Option String) :
    ∃ error, (handle c (.mfaVerify body ua ip)).run w = .error error w := by
  rw [handle, mfaVerify, bind_assoc, Handler.run_lookup_bind, bind_assoc]
  cases hPending : w.cache.mfaPending.get c.now body.mfaToken with
  | none => exact ⟨_, rfl⟩
  | some pending =>
    have hId := hOwn pending hPending
    cases pending with
    | setupRequired => exact ⟨_, rfl⟩
    | plain userId =>
      obtain rfl : userId = user.id := hId
      rw [Handler.orRaise_some_bind, bind_assoc, pendingUserId, Handler.ofExcept_ok_bind,
        bind_assoc, Handler.run_query_bind, hUser, Handler.orRaise_some_bind, bind_assoc]
      by_cases hActive : user.isActive
      · rw [Handler.ensure_bind_of hActive, bind_assoc, Handler.run_lookup_bind, bind_assoc]
        cases hReplayed : replayedCode c user.id body.code w.cache with
        | true => exact ⟨_, rfl⟩
        | false =>
          rw [Handler.ensure_bind_of rfl, bind_assoc, verifySecondFactor, bind_assoc]
          cases hCode : totpVerify c user.mfaSecret body.code with
          | error error => exact ⟨error, rfl⟩
          | ok valid =>
            cases valid with
            | true => exact absurd ⟨hPending, hReplayed, .inl hCode⟩ hFails
            | false =>
              cases hBackup : matchingBackupCode c user.id body.code w.db with
              | some row =>
                exact absurd ⟨hPending, hReplayed, .inr ⟨hCode, by rw [hBackup]; rfl⟩⟩ hFails
              | none =>
                rw [Handler.ofExcept_ok_bind, if_neg Bool.false_ne_true, redeemBackupCode,
                  bind_assoc, Handler.run_query_bind, hBackup]
                exact ⟨_, rfl⟩
      · exact ⟨_, Handler.run_ensure_bind_of_not hActive⟩

/-- Without a token that is accepted, enrolment fails. -/
theorem run_mfaEnroll_fails {token : Bearer}
    (hToken : ∀ u m, (getCurrentUser c token).run w ≠ .ok u m) (r : Request)
    (hRequest : r = .mfaEnroll token ∨ ∃ code, r = .mfaConfirm token code) (response : Response)
    (w' : World) : (handle c r).run w ≠ .ok response w' := by
  have hGuard {α : Type} (k : User → App α) (a : α) :
      (requireVerified c token >>= k).run w ≠ .ok a w' := by
    intro hRun
    obtain ⟨u, m, hVerified, -⟩ := Handler.run_bind_ok.mp hRun
    obtain ⟨u', m', hUser, -⟩ := Handler.run_bind_ok.mp hVerified
    exact hToken u' m' hUser
  rcases hRequest with rfl | ⟨code, rfl⟩
  · exact hGuard _ _
  · exact hGuard _ _

/-- Without a row of the user's that has not expired, a refresh fails. -/
theorem run_refresh_fails {token : String}
    (hRows : ∀ r ∈ w.db.refreshTokens, r.token = token → r.expiresAt < c.now)
    (ua ip : Option String) (response : Response) (w' : World) :
    (handle c (.refresh token ua ip)).run w ≠ .ok response w' := by
  intro hRun
  obtain ⟨t, m, hRefresh, -⟩ := Handler.run_bind_ok.mp hRun
  rw [refresh, Handler.run_query_bind] at hRefresh
  cases hFound : w.db.refreshToken token with
  | none =>
    rw [hFound] at hRefresh
    obtain ⟨_, _, hReplay, hRefresh⟩ := Handler.run_bind_ok.mp hRefresh
    cases hRefresh
  | some row =>
    rw [hFound] at hRefresh
    have hExpired : row.expiresAt < c.now :=
      hRows row (List.mem_of_find?_eq_some hFound) (by simpa using List.find?_some hFound)
    dsimp only at hRefresh
    rw [if_pos hExpired] at hRefresh
    cases hRefresh

end Handlers

/-! ### No way in -/

section Runs

variable {cfg : Config} {s m m' : Sys} {e : Event} {user : User} {steps : List (Sys × Event)}

/-- What the user's own requests have left as it was, while none has issued a token. -/
structure Waiting (s m : Sys) (user : User) : Prop where
  time : s.now ≤ m.now
  db : m.world.db = s.world.db
  minted : m.minted = s.minted
  blacklist : m.world.cache.blacklist = s.world.cache.blacklist
  mfaUsed : m.world.cache.mfaUsed = s.world.cache.mfaUsed
  pending : ∀ now token, m.world.cache.mfaPending.get now token = some (.plain user.id) →
    s.world.cache.mfaPending.get now token = some (.plain user.id)

theorem Waiting.refl (s : Sys) (user : User) : Waiting s s user :=
  ⟨Nat.le_refl _, rfl, rfl, rfl, rfl, fun _ _ h => h⟩

theorem Step.minted_same (hStep : Step cfg m e m') (hNone : e.issued = none) :
    m'.minted = m.minted := by
  rw [Sys.minted, Sys.minted, hStep.log, List.filterMap_append]
  simp [hNone]

/-- A request that issues nothing and leaves these keys. -/
theorem Waiting.next (h : Waiting s m user) (hStep : Step cfg m e m') (hNone : e.issued = none)
    (hDb : m'.world.db = m.world.db)
    (hBlacklist : m'.world.cache.blacklist = m.world.cache.blacklist)
    (hUsed : m'.world.cache.mfaUsed = m.world.cache.mfaUsed)
    (hPending : ∀ now token, m'.world.cache.mfaPending.get now token = some (.plain user.id) →
      m.world.cache.mfaPending.get now token = some (.plain user.id)) : Waiting s m' user where
  time := Nat.le_trans h.time (hStep.clock ▸ hStep.time)
  db := hDb.trans h.db
  minted := (hStep.minted_same hNone).trans h.minted
  blacklist := hBlacklist.trans h.blacklist
  mfaUsed := hUsed.trans h.mfaUsed
  pending := fun now token hPlain => h.pending now token (hPending now token hPlain)

theorem Event.issued_of_error {error : PyError} (h : e.outcome = .error error) :
    e.issued = none := by
  rw [Event.issued, h]

/-- A request that raises where nothing was changed. -/
theorem Waiting.raised (h : Waiting s m user) (hStep : Step cfg m e m') {error : PyError}
    (hRun : (handle (e.ctx cfg) e.request).run m.world = .error error m.world) :
    e.issued = none ∧ Waiting s m' user := by
  obtain ⟨hOutcome, hWorld⟩ := hStep.raised hRun
  have hSame : m'.world = m.world := hWorld
  have hNone := Event.issued_of_error hOutcome
  exact ⟨hNone, h.next hStep hNone (by rw [hSame]) (by rw [hSame]) (by rw [hSame])
    fun now token hPlain => hSame ▸ hPlain⟩

/-- A request that cannot return and does not touch the keys. -/
theorem Waiting.refused (h : Waiting s m user) (hStep : Step cfg m e m')
    (hFails : ∀ response w', (handle (e.ctx cfg) e.request).run m.world ≠ .ok response w')
    (hBlacklist : .blacklist ∉ e.request.parts) (hUsed : .mfaUsed ∉ e.request.parts)
    (hPending : .mfaPending ∉ e.request.parts) : e.issued = none ∧ Waiting s m' user := by
  cases hOutcome : e.outcome with
  | ok response => exact absurd (hStep.committed hOutcome).1 (hFails response _)
  | error error =>
    have hNone := Event.issued_of_error hOutcome
    have hSame : m'.world.cache.mfaPending = m.world.cache.mfaPending := hStep.same hPending
    exact ⟨hNone, h.next hStep hNone (hStep.rolledBack hOutcome) (hStep.same hBlacklist)
      (hStep.same hUsed) fun now token hPlain => hSame ▸ hPlain⟩

/-- A token that no guard accepts is not accepted while the user waits. -/
theorem Waiting.no_access (h : Waiting s m user) (hLocked : Locked cfg s user)
    (hStep : Step cfg m e m') {token : Bearer} (hBearer : token ∈ e.request.bearers)
    (hOwn : ∀ p, token = .signed p → p.sub = user.id) (u : User) (w : World) :
    (getCurrentUser (e.ctx cfg) token).run m.world ≠ .ok u w := by
  intro hRun
  obtain ⟨p, rfl, hExp, hAud, hBlack, hUser, hActive, hReset, -⟩ := getCurrentUser_ok.mp hRun
  have hMinted : p ∈ s.minted := h.minted ▸ hStep.presented p hBearer
  refine hLocked.noAccess p hMinted (hOwn p rfl) ⟨e.now, e.draws, u, _,
    Nat.le_trans h.time hStep.time, getCurrentUser_ok.mpr ⟨p, rfl, hExp, hAud, ?_, ?_, hActive,
    hReset, rfl⟩⟩
  · exact h.blacklist ▸ hBlack
  · exact h.db ▸ hUser

theorem Waiting.no_enrolment (h : Waiting s m user) (hLocked : Locked cfg s user)
    (hStep : Step cfg m e m') {token : Bearer}
    (hRequest : e.request = .mfaEnroll token ∨ ∃ code, e.request = .mfaConfirm token code)
    (hOwn : ∀ p, token = .signed p → p.sub = user.id) : e.issued = none ∧ Waiting s m' user := by
  have hBearer : token ∈ e.request.bearers := by
    rcases hRequest with hRequest | ⟨code, hRequest⟩
    all_goals simp [hRequest, Request.bearers]
  have hParts : e.request.parts ⊆ [.users, .backupCodes, .lastActive] := by
    rcases hRequest with hRequest | ⟨code, hRequest⟩
    all_goals simp [hRequest, Request.parts]
  have hFails := run_mfaEnroll_fails (h.no_access hLocked hStep hBearer hOwn) e.request hRequest
  exact h.refused hStep hFails (fun hPart => by simpa using hParts hPart)
    (fun hPart => by simpa using hParts hPart) fun hPart => by simpa using hParts hPart

/-- What passes while the user waits, passes from the start. -/
theorem Waiting.passes (h : Waiting s m user) {now : Nat} {draws : Draws} {body : MfaVerifyRequest}
    (hTime : m.now ≤ now) (hPasses : PassesMfa ⟨cfg, now, draws⟩ m.world user body) :
    HasPendingLogin cfg s user := by
  refine ⟨now, draws, body, Nat.le_trans h.time hTime, h.pending _ _ hPasses.pending, ?_, ?_⟩
  · rw [replayedCode, ← h.mfaUsed]
    exact hPasses.notReplayed
  · rw [← h.db]
    exact hPasses.code

/-- No request of a user who waits issues a token, unless a pending login is there. -/
theorem Waiting.step (hs : s.Sound cfg) (hLocked : Locked cfg s user) (h : Waiting s m user)
    (hNoPending : ¬HasPendingLogin cfg s user) (hStep : OwnStep cfg user m e m') :
    e.issued = none ∧ Waiting s m' user := by
  obtain ⟨hStep, hOwn⟩ := hStep
  have hUser : m.world.db.user user.id = some user := h.db ▸ hLocked.row
  cases hRequest : e.request with
  | login email password device ua ip =>
    simp only [Own, hRequest] at hOwn
    subst hOwn
    have hEmail : m.world.db.userByEmail user.email = some user :=
      h.db ▸ hs.valid.userByEmail_of_mem (Db.user_mem hLocked.row)
    rcases run_login_locked (c := e.ctx cfg) hEmail hLocked.noMfa (h.db ▸ hLocked.enforced) password
      device ua ip with ⟨error, hRun⟩ | hRun
    · exact h.raised hStep (hRequest ▸ hRun)
    · obtain ⟨hOutcome, hWorld⟩ := hStep.returned (hRequest ▸ hRun) (h.db ▸ hs.valid)
      have hNone : e.issued = none := by
        rw [Event.issued, hOutcome]
        rfl
      refine ⟨hNone, h.next hStep hNone (by rw [hWorld]; rfl) (by rw [hWorld]; rfl)
        (by rw [hWorld]; rfl) fun now token hPlain => ?_⟩
      rw [hWorld] at hPlain
      exact setupStored_plain hPlain
  | mfaEnroll token =>
    exact h.no_enrolment hLocked hStep (.inl hRequest) (by simpa [Own, hRequest] using hOwn)
  | mfaConfirm token code =>
    exact h.no_enrolment hLocked hStep (.inr ⟨code, hRequest⟩) (by simpa [Own, hRequest] using hOwn)
  | mfaVerify body ua ip =>
    simp only [Own, hRequest] at hOwn
    obtain ⟨error, hRun⟩ := run_mfaVerify_fails (c := e.ctx cfg) hUser hOwn
      (fun hPasses => hNoPending (h.passes hStep.time hPasses)) ua ip
    exact h.raised hStep (hRequest ▸ hRun)
  | refresh token ua ip =>
    simp only [Own, hRequest] at hOwn
    have hExpired : ∀ r ∈ m.world.db.refreshTokens, r.token = token → r.expiresAt < e.now := by
      intro r hr hToken
      exact Nat.lt_of_lt_of_le (hLocked.noRefresh r (h.db ▸ hr) (hOwn r hr hToken))
        (Nat.le_trans h.time hStep.time)
    have hFails := run_refresh_fails (c := e.ctx cfg) hExpired ua ip
    exact h.refused hStep (hRequest ▸ hFails) (by simp [hRequest, Request.parts])
      (by simp [hRequest, Request.parts]) (by simp [hRequest, Request.parts])
  | _ => simp [Own, hRequest] at hOwn

theorem Waiting.run (hs : s.Sound cfg) (hLocked : Locked cfg s user)
    (hNoPending : ¬HasPendingLogin cfg s user) (hRun : Run (OwnStep cfg user) s steps m) :
    Waiting s m user :=
  hRun.invariant (I := fun m => Waiting s m user)
    (fun h hStep => (h.step hs hLocked hNoPending hStep).2) (.refl s user)

/-- Without a pending login no run of the user's own requests issues a token. -/
theorem no_way_in (hs : s.Sound cfg) (hLocked : Locked cfg s user)
    (hNoPending : ¬HasPendingLogin cfg s user) (hRun : Run (OwnStep cfg user) s steps m)
    (hStep : OwnStep cfg user m e m') : e.issued = none :=
  ((Waiting.run hs hLocked hNoPending hRun).step hs hLocked hNoPending hStep).1

end Runs

/-! ### A way in -/

section Handlers

variable {c : Ctx} {w : World} {user : User}

/-- What the acceptance of a code leaves alone. -/
structure Verified (w m : World) : Prop where
  valid : m.db.Valid
  users : m.db.users = w.db.users
  refreshTokens : m.db.refreshTokens = w.db.refreshTokens
  sessions : m.db.sessions = w.db.sessions

theorem run_verifySecondFactor {code : String} (hValid : w.db.Valid)
    (hCode : totpVerify c user.mfaSecret code = .ok true ∨
      totpVerify c user.mfaSecret code = .ok false ∧
        (matchingBackupCode c user.id code w.db).isSome) :
    ∃ m, (verifySecondFactor c user code).run w = .ok () m ∧ Verified w m := by
  rcases hCode with hTotp | ⟨hTotp, hBackup⟩
  · rw [verifySecondFactor, hTotp, Handler.ofExcept_ok_bind, if_pos rfl]
    exact ⟨_, rfl, hValid, rfl, rfl, rfl⟩
  · obtain ⟨row, hRow⟩ := Option.isSome_iff_exists.mp hBackup
    rw [verifySecondFactor, hTotp, Handler.ofExcept_ok_bind, if_neg Bool.false_ne_true,
      redeemBackupCode, Handler.run_query_bind, hRow, Handler.orRaise_some_bind]
    refine ⟨_, rfl, ?_, rfl, rfl, rfl⟩
    have hMem : row ∈ w.db.backupCodes := (List.mem_filter.mp (List.mem_of_find?_eq_some hRow)).1
    exact hValid.updateBackupCode hMem (fun _ => rfl) fun _ => rfl

/-- The redirect is to a tenant that is there. -/
theorem getRedirectUrl_hasTenant {db : Db} {url : String} {tenantId : Uuid}
    (h : getRedirectUrl user db = some (url, tenantId)) : db.HasTenant tenantId := by
  rw [getRedirectUrl_eq, Option.or_eq_some_iff] at h
  rcases h with h | ⟨-, h⟩
  all_goals
    obtain ⟨_, -, h⟩ := Option.bind_eq_some_iff.mp h
    obtain ⟨_, hUrl, hPair⟩ := Option.map_eq_some_iff.mp h
    obtain ⟨tenant, hTenant, -⟩ := Option.bind_eq_some_iff.mp hUrl
    exact ⟨tenant, List.mem_of_find?_eq_some hTenant,
      (tenant_id hTenant).trans (Prod.mk.inj hPair).2⟩

theorem run_redirectToWxcode (user : User) (tokens : TokenResponse) (hValid : w.db.Valid) :
    ∃ redirect m, (redirectToWxcode c user tokens).run w = .ok redirect m ∧ m.db.Valid := by
  rw [redirectToWxcode, Handler.run_query_bind]
  cases hUrl : getRedirectUrl user w.db with
  | none => exact ⟨none, w, rfl, hValid⟩
  | some found =>
    refine ⟨_, _, rfl, hValid.updateUser_of (fun _ => rfl) (fun _ => rfl) (fun _ => rfl)
      fun _ _ id hId => ?_⟩
    obtain rfl := Option.some.inj hId
    exact getRedirectUrl_hasTenant hUrl

/-- Once it has accepted a code, `mfa_verify` completes the login. -/
theorem run_mfaVerify_verified {body : MfaVerifyRequest} {m : World} {ua ip : Option String}
    (hUser : w.db.user user.id = some user) (hActive : user.isActive = true)
    (hPasses : PassesMfa c w user body)
    (hFactor : (verifySecondFactor c user body.code).run w = .ok () m) :
    (handle c (.mfaVerify body ua ip)).run w = (do
      let result ← completeMfaLogin c user body ua ip
      return Response.mfaVerify result).run m := by
  rw [handle, mfaVerify, bind_assoc, Handler.run_lookup_bind, hPasses.pending, bind_assoc,
    Handler.orRaise_some_bind, bind_assoc, pendingUserId, Handler.ofExcept_ok_bind, bind_assoc,
    Handler.run_query_bind, hUser, bind_assoc, Handler.orRaise_some_bind, bind_assoc,
    Handler.ensure_bind_of hActive, bind_assoc, Handler.run_lookup_bind, hPasses.notReplayed,
    bind_assoc, Handler.ensure_bind_of rfl, bind_assoc, Handler.run_bind, hFactor]

/-- With what it checks, and without a device to trust, `mfa_verify` issues tokens. -/
theorem run_mfaVerify_passes {body : MfaVerifyRequest} (hUser : w.db.user user.id = some user)
    (hActive : user.isActive = true) (hPasses : PassesMfa c w user body)
    (hTrust : body.trustDevice = false) (hLive : 0 < c.settings.accessTokenTtlHours)
    (hValid : w.db.Valid) (ua ip : Option String)
    (hIssued : ∀ db : Db, db.Valid → db.HasUser user.id → db.refreshTokens = w.db.refreshTokens →
      db.sessions = w.db.sessions → (issued c user.id ua ip db).Valid) :
    ∃ result m, (handle c (.mfaVerify body ua ip)).run w = .ok (.mfaVerify result) m ∧
      m.db.Valid := by
  obtain ⟨m, hFactor, hVerified⟩ := run_verifySecondFactor hValid hPasses.code
  let started : World :=
    { m with cache := { m.cache with mfaPending := m.cache.mfaPending.del body.mfaToken } }
  obtain ⟨t, m₁, hIssue, hDb⟩ := run_issueTokens_live (c := c) (w := started) user ua ip hLive
  have hHas : m.db.HasUser user.id := by
    rw [Db.HasUser, hVerified.users]
    exact ⟨user, Db.user_mem hUser, rfl⟩
  have hValid₁ : m₁.db.Valid := by
    rw [hDb]
    exact hIssued _ hVerified.valid hHas hVerified.refreshTokens hVerified.sessions
  obtain ⟨redirect, m₂, hRedirect, hValid₂⟩ := run_redirectToWxcode (c := c) user t hValid₁
  refine ⟨⟨t, redirect, none⟩, m₂, ?_, hValid₂⟩
  rw [run_mfaVerify_verified hUser hActive hPasses hFactor, completeMfaLogin, bind_assoc,
    Handler.run_store_bind, bind_assoc, Handler.run_bind, hIssue]
  dsimp only
  rw [bind_assoc, Handler.run_bind, hRedirect]
  dsimp only
  rw [if_neg (by simp [hTrust])]
  rfl

end Handlers

section Steps

variable {cfg : Config} {s m m' : Sys} {e : Event} {user : User}

/-- The next request can draw values that no request has drawn before. -/
def Sys.CanDrawSession (cfg : Config) (s : Sys) : Prop :=
  ∃ draws : Draws, ∀ past ∈ s.log,
    past.draws.Apart cfg draws ∧ past.draws.sessionId ≠ draws.sessionId

/-- A pending login from before is a way in. -/
theorem HasPendingLogin.enters (hReach : Reachable cfg s) (hLocked : Locked cfg s user)
    (hDraw : s.CanDrawSession cfg) (hLive : 0 < cfg.settings.accessTokenTtlHours)
    (h : HasPendingLogin cfg s user) :
    ∃ e s', OwnStep cfg user s e s' ∧ e.issued.isSome := by
  obtain ⟨now, _, body, hTime, hPasses⟩ := h
  obtain ⟨draws, hFresh⟩ := hDraw
  -- Trusting the device would ask for a device token of its own.
  let r : Request := .mfaVerify { body with trustDevice := false } none none
  have hStep : Step cfg s (s.serve cfg now draws r).1 (s.serve cfg now draws r).2 :=
    .of_admits ⟨hTime, fun past hPast => (hFresh past hPast).1, by simp [r, Request.bearers]⟩
      trivial
  have hPassesNow : PassesMfa ⟨cfg, now, draws⟩ s.world user { body with trustDevice := false } :=
    ⟨hPasses.pending, hPasses.notReplayed, hPasses.code⟩
  obtain ⟨result, w, hRun, hValid⟩ := run_mfaVerify_passes hLocked.row hLocked.active hPassesNow rfl
    hLive hReach.sound.valid none none fun db hDb hHas hRows hSessions =>
      hDb.issued hReach.sound hReach.traced hStep (fun past hPast => (hFresh past hPast).2) hRows
        hSessions hHas (parseSessionMetadata_none _)
  refine ⟨_, _, ⟨hStep, fun pending hPending => ?_⟩, ?_⟩
  · obtain rfl := Option.some.inj (hPasses.pending.symm.trans hPending)
    rfl
  · rw [Event.issued, (hStep.returned hRun hValid).1]
    rfl

/-- The tokens that the user's own requests issue live. -/
theorem Step.own_live (hStep : Step cfg m e m') (hOwn : Own user m.world e)
    {t : TokenResponse} (hIssued : e.issued = some t) : e.now < seconds t.accessToken.exp := by
  obtain ⟨response, hOutcome, hIssued⟩ := Event.issued_some hIssued
  have hRun := (hStep.committed hOutcome).1
  cases hRequest : e.request with
  | login email password device ua ip =>
    rw [hRequest] at hRun
    obtain ⟨m₁, hLogin⟩ := login_route_issued hRun hIssued
    obtain ⟨_, -, -, -, hMinted⟩ := login_minted hLogin
    exact hMinted.live
  | mfaVerify body ua ip =>
    rw [hRequest] at hRun
    obtain ⟨result, m₁, hVerify, hRun⟩ := Handler.run_bind_ok.mp hRun
    obtain ⟨rfl, rfl⟩ := Handler.run_pure_ok.mp hRun
    obtain rfl := Option.some.inj hIssued
    obtain ⟨_, m₂, -, -, -, -, hComplete⟩ := mfaVerify_completes hVerify
    exact (completeMfaLogin_minted hComplete).live
  | refresh token ua ip =>
    rw [hRequest] at hRun
    obtain ⟨pair, m₁, hRefresh, hRun⟩ := Handler.run_bind_ok.mp hRun
    obtain ⟨rfl, rfl⟩ := Handler.run_pure_ok.mp hRun
    obtain rfl := Option.some.inj hIssued
    obtain ⟨_, -, -, hRotate⟩ := refresh_ok hRefresh
    exact rotate_live hRotate
  | mfaEnroll | mfaConfirm =>
    have hNone : response.issued = none := handle_returns (by rw [hRequest]; rfl) _ _ _ hRun
    cases hNone.symm.trans hIssued
  | _ => simp [Own, hRequest] at hOwn

theorem OwnStep.ttl_pos (hs : m.Sound cfg) (hStep : OwnStep cfg user m e m')
    (hIssued : e.issued.isSome) : 0 < cfg.settings.accessTokenTtlHours := by
  obtain ⟨t, hIssued⟩ := Option.isSome_iff_exists.mp hIssued
  have hExp := ((hStep.1.issues hs).1 t hIssued).exp
  have hLive := hStep.1.own_live hStep.2 hIssued
  rw [hExp] at hLive
  exact (live_iff _ _).mp hLive

/-- Who is locked out by the enforcement of MFA gets in exactly when a pending login from before is
left, and tokens live. -/
theorem locked_out_iff (hReach : Reachable cfg s) (hLocked : Locked cfg s user)
    (hDraw : s.CanDrawSession cfg) :
    (∃ steps m e s', Run (OwnStep cfg user) s steps m ∧ OwnStep cfg user m e s' ∧
        e.issued.isSome) ↔
      0 < cfg.settings.accessTokenTtlHours ∧ HasPendingLogin cfg s user := by
  constructor
  · rintro ⟨steps, m, e, s', hRun, hStep, hIssued⟩
    have hSound : m.Sound cfg :=
      hRun.invariant (I := fun m => m.Sound cfg) (fun hs hStep => hStep.1.sound hs) hReach.sound
    refine ⟨hStep.ttl_pos hSound hIssued, ?_⟩
    by_contra hNoPending
    rw [no_way_in hReach.sound hLocked hNoPending hRun hStep] at hIssued
    cases hIssued
  · rintro ⟨hLive, hPending⟩
    obtain ⟨e, s', hStep, hIssued⟩ := hPending.enters hReach hLocked hDraw hLive
    exact ⟨[], s, e, s', .nil, hStep, hIssued⟩

end Steps

/-! ### A member of an enforcing tenant -/

/-- `bob`, whom `sampleUser` has invited to a tenant that enforces MFA. -/
def lockedUser : User where
  id := ⟨2⟩
  email := "bob@example.com"
  passwordHash := some "salt$pw"
  emailVerified := true

def lockedStart : Sys := sampleStart
  { users := [{ sampleUser with mfaEnabled := true, mfaSecret := some "secret" }, lockedUser]
    tenants := [{ id := ⟨1⟩, name := "Acme", slug := "acme", mfaEnforced := true }]
    memberships := [
      { id := ⟨1⟩, userId := ⟨1⟩, tenantId := ⟨1⟩, role := .owner, createdAt := 0 },
      { id := ⟨2⟩, userId := ⟨2⟩, tenantId := ⟨1⟩, role := .developer, createdAt := 0 }] }

theorem lockedStart_initial : Initial lockedStart := ⟨by decide, rfl, rfl, rfl, rfl, rfl, rfl⟩

theorem lockedStart_locked : Locked sampleConfig lockedStart lockedUser where
  row := by decide
  active := rfl
  verified := rfl
  password := rfl
  noMfa := rfl
  enforced := by decide
  noAccess := by simp [lockedStart, sampleStart, Sys.minted]
  noRefresh := by simp [lockedStart, sampleStart]

theorem lockedStart_noPending : ¬HasPendingLogin sampleConfig lockedStart lockedUser := by
  rintro ⟨now, draws, body, -, hPasses⟩
  cases hPasses.pending

theorem locked_out_for_good :
    Reachable sampleConfig lockedStart ∧ Locked sampleConfig lockedStart lockedUser ∧
      ¬∃ steps m e s', Run (OwnStep sampleConfig lockedUser) lockedStart steps m ∧
        OwnStep sampleConfig lockedUser m e s' ∧ e.issued.isSome := by
  refine ⟨lockedStart_initial.reachable, lockedStart_locked, ?_⟩
  rintro ⟨steps, m, e, s', hRun, hStep, hIssued⟩
  rw [no_way_in lockedStart_initial.sound lockedStart_locked lockedStart_noPending hRun hStep]
    at hIssued
  cases hIssued

/-! ### A login that is left -/

/-- The user of `lockedStart` with MFA and a Google account. -/
def lapsedStart : Sys := sampleStart
  { users := [{ lockedUser with mfaEnabled := true, mfaSecret := some "secret" }]
    oauthAccounts := [⟨⟨2⟩, "google", "g-2"⟩]
    tenants := [{ id := ⟨1⟩, name := "Acme", slug := "acme", mfaEnforced := true }]
    memberships := [
      { id := ⟨2⟩, userId := ⟨2⟩, tenantId := ⟨1⟩, role := .developer, createdAt := 0 }] }

theorem lapsedStart_initial : Initial lapsedStart := ⟨by decide, rfl, rfl, rfl, rfl, rfl, rfl⟩

def lapsedSignIn : Sys :=
  (lapsedStart.sample (seconds 10) (.oauthCallback "google" "bob@example.com" "g-2" none none)).2

def lapsedToken : Payload where
  sub := ⟨2⟩
  aud := some "wxcode-adm"
  iat := 10
  exp := 86410
  jti := ⟨0⟩
  tenantId := some ⟨1⟩
  role := some "developer"

/-- The login with a second stage, a minute before the token expires. -/
def lapsedLogin : Sys :=
  (lapsedSignIn.sample (seconds 86340) (.login "bob@example.com" "pw" none none none)).2

def lapsedDisabled : Sys :=
  (lapsedLogin.sample (seconds 86340) (.mfaDisable (.signed lapsedToken) "102878")).2

/-- The enrolment that is begun again and never confirmed. -/
def lapsedEnrolled : Sys :=
  (lapsedDisabled.sample (seconds 86340) (.mfaEnroll (.signed lapsedToken))).2

def lapsedSignedOut : Sys := (lapsedEnrolled.sample (seconds 86340) (.logout "refresh-0" none)).2

/-- The token has expired, and the login is still pending. -/
def lapsedPending : Sys :=
  (lapsedSignedOut.sample (seconds 86410) (.login "bob@example.com" "" none none none)).2

theorem lapsedSignIn_reachable : Reachable sampleConfig lapsedSignIn :=
  (lapsedStart_initial.reachable.sample (by decide) (by trivial)).2

theorem lapsedEnrolled_reachable : Reachable sampleConfig lapsedEnrolled :=
  have hLogin := (lapsedSignIn_reachable.sample (by decide) (by trivial)).2
  have hDisabled := (hLogin.sample (by decide) (by trivial)).2
  (hDisabled.sample (by decide) (by trivial)).2

theorem lapsedPending_reachable : Reachable sampleConfig lapsedPending :=
  have hSignedOut := (lapsedEnrolled_reachable.sample (by decide) (by trivial)).2
  (hSignedOut.sample (by decide) (by trivial)).2

def lapsedUser : User := { lockedUser with mfaSecret := some "secret-3" }

theorem lapsedPending_minted : lapsedPending.minted = [lapsedToken] := by decide

theorem lapsedPending_locked : Locked sampleConfig lapsedPending lapsedUser where
  row := by decide
  active := rfl
  verified := rfl
  password := rfl
  noMfa := rfl
  enforced := by decide
  noAccess := by
    intro p hp _ ⟨now, draws, u, w, hTime, hRun⟩
    obtain ⟨p', hEq, hExp, -⟩ := getCurrentUser_ok.mp hRun
    obtain rfl := Bearer.signed.inj hEq
    rw [lapsedPending_minted, List.mem_singleton] at hp
    subst hp
    exact absurd hExp (Nat.not_lt.mpr hTime)
  noRefresh := by
    have hNone : lapsedPending.world.db.refreshTokens = [] := by decide
    simp [hNone]

theorem lapsedCode_length : 6 ≤ "102880".length ∧ "102880".length ≤ 11 := by decide

/-- That login lets the user in. -/
theorem locked_out_iff_lapsedPending :
    ∃ steps m e s', Run (OwnStep sampleConfig lapsedUser) lapsedPending steps m ∧
      OwnStep sampleConfig lapsedUser m e s' ∧ e.issued.isSome :=
  (locked_out_iff lapsedPending_reachable lapsedPending_locked ⟨sampleDraws 6, by decide⟩).mpr
    ⟨by decide, seconds 86410, sampleDraws 6, ⟨"mfa-1", "102880", false, lapsedCode_length⟩,
      Nat.le_refl _, by decide, by decide, .inl rfl⟩

end WxcodeAdm
