import WxcodeAdm.Trust

/-! The token half of `auth/service.py` and `auth/dependencies.py`: the blacklist, the shadow keys
of consumed refresh tokens, the issue of a token pair, and the check of a bearer token. -/

namespace WxcodeAdm

open Lib

structure TokenResponse where
  accessToken : Payload
  refreshToken : String
  deriving DecidableEq, Repr

variable (c : Ctx)

/-! ### Blacklist -/

/-- Decodes without an audience and without the expiry check.  What does not decode is left
alone. -/
def blacklistAccessToken (token : Bearer) : App Unit :=
  match jwtDecode c.now none false token with
  | .error _ => pure ()
  | .ok payload =>
    let remaining := timestamp (seconds payload.exp - c.now)
    if 0 < remaining then
      .store fun r => { r with
        blacklist := r.blacklist.set c.now payload.jti () (seconds remaining) }
    else pure ()

def blacklistJti (jti : Uuid) : App Unit :=
  .store fun r => { r with blacklist := r.blacklist.set c.now jti () c.accessTtl }

def isTokenBlacklisted (jti : Uuid) : App Bool := .lookup fun r => r.blacklist.has c.now jti

/-! ### Shadow keys -/

/-- `_shadow_key`, without the constant prefix. -/
def shadowKey (token : String) : String := c.lib.sha256 token

def shadowTtl : Nat := days c.settings.refreshTokenTtlDays

def writeShadowKey (token : String) (userId : Uuid) : App Unit :=
  .store fun r => { r with replay := r.replay.set c.now (shadowKey c token) userId (shadowTtl c) }

def writeShadowKeysBulk (tokens : List String) (userId : Uuid) : App Unit :=
  .store fun r => { r with
    replay := r.replay.setAll c.now (tokens.map (shadowKey c)) userId (shadowTtl c) }

/-- Deletes every refresh token of the user whom a consumed token belonged to, and raises. -/
def checkReplayAndLogout (token : String) : App Unit := do
  match ← .lookup fun r => r.replay.get c.now (shadowKey c token) with
  | some uid =>
    .exec fun db => db.deleteRefreshTokens fun r => r.userId = uid
    .throw .replayDetected
  | none => .throw .invalidToken

/-! ### Issue -/

/-- `city` is left empty when `geoip2` raises. -/
def parseSessionMetadata (userAgent ipAddress : Option String) : SessionMeta :=
  let base : SessionMeta := { userAgent := userAgent, ipAddress := ipAddress }
  let withAgent := match userAgent with
    | some text =>
      if text = "" then base
      else
        let ua := c.lib.parseUserAgent text
        { base with
          deviceType := some (if ua.isMobile then "Mobile" else if ua.isTablet then "Tablet"
            else if ua.isPc then "Desktop" else "Other")
          browserName := some ua.browserFamily
          browserVersion := some ua.browserVersion }
    | none => base
  match ipAddress with
  | some ip =>
    if ip = "" ∨ c.settings.geolite2DbPath = "" then withAgent
    else { withAgent with city := c.lib.geoCity ip }
  | none => withAgent

theorem parseSessionMetadata_none : (parseSessionMetadata c none none).Fits := by
  simp [parseSessionMetadata, SessionMeta.Fits]

/-- The membership whose tenant the token names: the one in the last used tenant, else the
newest. -/
def claimsMembership (user : User) (db : Db) : Option TenantMembership :=
  match user.lastUsedTenantId.bind (db.membership user.id) with
  | some m => some m
  | none => db.latestMembership user.id

def buildRegularAccessClaims (user : User) (db : Db) : Claims :=
  match claimsMembership user db with
  | some m => { aud := some "wxcode-adm", tenantId := some m.tenantId, role := some m.role.value }
  | none => { aud := some "wxcode-adm" }

def newRefreshToken (userId : Uuid) : RefreshToken where
  id := c.draws.refreshTokenId
  token := c.draws.refreshToken
  userId := userId
  expiresAt := c.now + days c.settings.refreshTokenTtlDays

def newSession (userId jti : Uuid) (userAgent ipAddress : Option String) : UserSession where
  id := c.draws.sessionId
  refreshTokenId := c.draws.refreshTokenId
  userId := userId
  accessTokenJti := jti
  info := parseSessionMetadata c userAgent ipAddress
  lastActiveAt := some c.now
  createdAt := c.now

/-- `_issue_tokens`: revokes the refresh tokens of the user and issues a new pair. -/
def issueTokens (user : User) (userAgent ipAddress : Option String) : App TokenResponse := do
  let oldTokens ← .query fun db =>
    (db.refreshTokens.filter fun r => r.userId = user.id).map fun r => r.token
  writeShadowKeysBulk c oldTokens user.id
  .exec fun db => db.deleteRefreshTokens fun r => r.userId = user.id
  let claims ← .query (buildRegularAccessClaims user)
  let accessToken := createAccessToken c user.id claims
  .exec fun db => db.addRefreshToken (newRefreshToken c user.id)
  let payload ← .ofExcept (decodeAccessToken c (.signed accessToken))
  .exec fun db => db.addSession (newSession c user.id payload.jti userAgent ipAddress)
  return ⟨accessToken, c.draws.refreshToken⟩

/-! ### Checking a bearer token -/

def getCurrentJti (token : Bearer) : App Uuid := do
  let payload ← .ofExcept (decodeAccessToken c token)
  return payload.jti

def getCurrentUser (token : Bearer) : App User := do
  let payload ← .ofExcept (decodeAccessToken c token)
  let blacklisted ← isTokenBlacklisted c payload.jti
  .ensure (blacklisted = false) .invalidToken
  let found ← .query fun db => db.user payload.sub
  let user ← .orRaise found .invalidToken
  .ensure user.isActive .invalidToken
  .ensure (user.passwordResetRequired = false)
    (.forbidden "PASSWORD_RESET_REQUIRED"
      "Password reset required. Check your email for reset instructions.")
  .store fun r => { r with lastActive := r.lastActive.set c.now payload.jti c.now c.accessTtl }
  return user

def requireVerified (token : Bearer) : App User := do
  let user ← getCurrentUser c token
  .ensure user.emailVerified (.emailNotVerified "Email verification required")
  return user

/-! ### Refresh and logout -/

/-- The session of the new pair: the one of the consumed row `old`, or a new one. -/
def continueSession (old : RefreshToken) (jti : Uuid) (userAgent ipAddress : Option String) :
    App Unit := do
  match ← .query fun db => db.sessions.find? fun s => s.refreshTokenId = old.id with
  | some session =>
    .exec fun db => { db with
      sessions := db.sessions.map fun s =>
        if s.id = session.id then
          { s with
            refreshTokenId := c.draws.refreshTokenId
            accessTokenJti := jti
            info := if userAgent.isSome then parseSessionMetadata c userAgent ipAddress
              else s.info }
        else s }
  | none => .exec fun db => db.addSession (newSession c old.userId jti userAgent ipAddress)

/-- `refresh` after the row was found and has not expired.  The flush of the delete takes the
session of the row with it, before that session is looked up. -/
def rotate (row : RefreshToken) (userAgent ipAddress : Option String) : App TokenResponse := do
  writeShadowKey c row.token row.userId
  .exec fun db => db.deleteRefreshTokens fun r => r.id = row.id
  .exec fun db => db.addRefreshToken (newRefreshToken c row.userId)
  let found ← .query fun db => db.user row.userId
  let user ← .orRaise found .invalidToken
  let claims ← .query (buildRegularAccessClaims user)
  let accessToken := createAccessToken c row.userId claims
  let payload ← .ofExcept (decodeAccessToken c (.signed accessToken))
  continueSession c row payload.jti userAgent ipAddress
  return ⟨accessToken, c.draws.refreshToken⟩

def refresh (refreshToken : String) (userAgent ipAddress : Option String) :
    App TokenResponse := do
  match ← .query fun db => db.refreshToken refreshToken with
  | none =>
    checkReplayAndLogout c refreshToken
    .throw .invalidToken
  | some row =>
    if row.expiresAt < c.now then
      .exec fun db => db.deleteRefreshTokens fun r => r.id = row.id
      .throw .tokenExpired
    else rotate c row userAgent ipAddress

def deleteIfFound (refreshToken : String) : App Unit := do
  match ← .query fun db => db.refreshToken refreshToken with
  | some row => .exec fun db => db.deleteRefreshTokens fun r => r.id = row.id
  | none => pure ()

/-- Without an Authorization header there is no access token to blacklist. -/
def logout (refreshToken : String) (accessToken : Option Bearer) : App Unit := do
  deleteIfFound refreshToken
  match accessToken with
  | some token => blacklistAccessToken c token
  | none => pure ()

variable {c} {s s' : World} {P : Power → Prop}

/-! ### What the functions do when they return -/

theorem getCurrentUser_ok {token : Bearer} {u : User} :
    (getCurrentUser c token).run s = .ok u s' ↔ ∃ p, token = .signed p ∧ c.now < seconds p.exp ∧
      p.aud = some "wxcode-adm" ∧ s.cache.blacklist.has c.now p.jti = false ∧
      s.db.user p.sub = some u ∧ u.isActive = true ∧ u.passwordResetRequired = false ∧
      s' = { s with cache := { s.cache with
        lastActive := s.cache.lastActive.set c.now p.jti c.now c.accessTtl } } := by
  simp only [getCurrentUser, isTokenBlacklisted, decodeAccessToken, Handler.run_ofExcept_bind_ok,
    decodeFor_ok, Handler.run_lookup_bind, Handler.run_ensure_bind_ok, Handler.run_query_bind,
    Handler.run_orRaise_bind_ok, Handler.run_store_bind, Handler.run_pure_ok]
  constructor
  · rintro ⟨p, ⟨hp, hExp, hAud⟩, hBlack, v, hv, hActive, hReset, rfl, rfl⟩
    exact ⟨p, hp, hExp, hAud, hBlack, hv, hActive, hReset, rfl⟩
  · rintro ⟨p, hp, hExp, hAud, hBlack, hv, hActive, hReset, rfl⟩
    exact ⟨p, ⟨hp, hExp, hAud⟩, hBlack, u, hv, hActive, hReset, rfl, rfl⟩

/-- The guards of a route that asks for the caller and for the jti of the caller's token: the user
of a signed token, whose row they leave alone. -/
theorem run_signedIn {α : Type} {token : Bearer} {user : User} {k : Uuid → App α} {a : α}
    {m : World} (hUser : (requireVerified c token).run s = .ok user m)
    (h : (getCurrentJti c token >>= k).run m = .ok a s') :
    ∃ p, token = .signed p ∧ s.db.user p.sub = some user ∧ (k p.jti).run m = .ok a s' ∧
      m.db = s.db ∧ m.cache.blacklist = s.cache.blacklist := by
  obtain ⟨u, m', hCurrent, hVerified⟩ := Handler.run_bind_ok.mp hUser
  simp only [Handler.run_ensure_bind_ok, Handler.run_pure_ok] at hVerified
  obtain ⟨-, rfl, rfl⟩ := hVerified
  obtain ⟨p, rfl, hExp, hAud, -, hRow, -, -, rfl⟩ := getCurrentUser_ok.mp hCurrent
  have hDecode : decodeAccessToken c (.signed p) = .ok p := decodeFor_ok.mpr ⟨rfl, hExp, hAud⟩
  simp only [getCurrentJti, hDecode, bind_assoc, Handler.run_ofExcept_bind_ok, Except.ok.injEq,
    exists_eq_left', pure_bind] at h
  exact ⟨p, rfl, hRow, h, rfl, rfl⟩

/-- The state in which `_issue_tokens` leaves the database. -/
def issued (c : Ctx) (userId : Uuid) (userAgent ipAddress : Option String) (db : Db) : Db :=
  ((db.deleteRefreshTokens fun r => r.userId = userId).addRefreshToken
    (newRefreshToken c userId)).addSession
      (newSession c userId c.draws.jti userAgent ipAddress)

theorem issueTokens_ok {user : User} {ua ip : Option String} {t : TokenResponse}
    (h : (issueTokens c user ua ip).run s = .ok t s') :
    t = ⟨createAccessToken c user.id (buildRegularAccessClaims user s.db), c.draws.refreshToken⟩ ∧
      s'.db = issued c user.id ua ip s.db := by
  simp only [issueTokens, writeShadowKeysBulk, decodeAccessToken, Handler.run_query_bind,
    Handler.run_store_bind, Handler.run_exec_bind, Handler.run_ofExcept_bind_ok, decodeFor_ok,
    Handler.run_pure_ok, Bearer.signed.injEq] at h
  obtain ⟨p, ⟨rfl, -, -⟩, rfl, rfl⟩ := h
  exact ⟨rfl, rfl⟩

/-- A token that `_issue_tokens` returns was decoded. -/
theorem issueTokens_live {user : User} {ua ip : Option String} {t : TokenResponse}
    (h : (issueTokens c user ua ip).run s = .ok t s') : c.now < seconds t.accessToken.exp := by
  simp only [issueTokens, writeShadowKeysBulk, decodeAccessToken, Handler.run_query_bind,
    Handler.run_store_bind, Handler.run_exec_bind, Handler.run_ofExcept_bind_ok, decodeFor_ok,
    Handler.run_pure_ok, Bearer.signed.injEq] at h
  obtain ⟨p, ⟨rfl, hLive, -⟩, rfl, -⟩ := h
  exact hLive

/-- The tokens `t` that a request issues for an audience: their values are the ones it draws, and
the row of the refresh token is there and the only one that it adds. -/
structure Issue (c : Ctx) (audience : String) (t : TokenResponse) (s s' : World) : Prop where
  refreshToken : t.refreshToken = c.draws.refreshToken
  jti : t.accessToken.jti = c.draws.jti
  aud : t.accessToken.aud = some audience
  exp : t.accessToken.exp = timestamp (c.now + c.accessTtl)
  row : newRefreshToken c t.accessToken.sub ∈ s'.db.refreshTokens
  rows : ∀ r ∈ s'.db.refreshTokens, r ∈ s.db.refreshTokens ∨
    r = newRefreshToken c t.accessToken.sub

theorem Issue.before {audience : String} {t : TokenResponse} {m : World}
    (h : Issue c audience t m s') (hSub : m.db.refreshTokens ⊆ s.db.refreshTokens) :
    Issue c audience t s s' :=
  { h with rows := fun r hr => (h.rows r hr).imp (@hSub r) id }

def SameTokens (s s' : World) : Prop := s'.db.refreshTokens = s.db.refreshTokens

instance : Std.Refl SameTokens := ⟨fun _ => rfl⟩

instance : IsTrans World SameTokens := ⟨fun _ _ _ h h' => h'.trans h⟩

theorem Issue.after {audience : String} {t : TokenResponse} {m : World}
    (h : Issue c audience t s m) (hSame : SameTokens m s') : Issue c audience t s s' :=
  { h with row := hSame ▸ h.row, rows := fun r hr => h.rows r (hSame ▸ hr) }

/-- Adding the row of the pair to no more rows than before issues it. -/
theorem Issue.of_add {audience : String} {userId : Uuid} {claims : Claims}
    {kept : List RefreshToken} (hAud : claims.aud.getD "wxcode-adm" = audience)
    (hRows : s'.db.refreshTokens = kept ++ [newRefreshToken c userId])
    (hKept : kept ⊆ s.db.refreshTokens) :
    Issue c audience ⟨createAccessToken c userId claims, c.draws.refreshToken⟩ s s' where
  refreshToken := rfl
  jti := rfl
  aud := congrArg some hAud
  exp := rfl
  row := by
    rw [hRows]
    exact List.mem_append_right _ (List.mem_singleton_self _)
  rows := by
    intro r hr
    rw [hRows, List.mem_append, List.mem_singleton] at hr
    exact hr.imp (@hKept r) id

/-- The pairs that a handler returns it issues, and it adds no row where it returns none. -/
def Issues {α : Type} (c : Ctx) (audience : String) (issued : α → Option TokenResponse)
    (h : App α) : Prop :=
  ∀ s a s', h.run s = .ok a s' →
    (∀ t, issued a = some t → Issue c audience t s s') ∧
      (issued a = none → s'.db.refreshTokens ⊆ s.db.refreshTokens)

/-- A handler that leaves the refresh tokens alone, and returns what counts as having issued `t`. -/
def Yields {α : Type} (issued : α → Option TokenResponse) (t : Option TokenResponse)
    (h : App α) : Prop :=
  ∀ s a s', h.run s = .ok a s' → issued a = t ∧ SameTokens s s'

section Issues

variable {α β : Type} {audience : String} {issued : α → Option TokenResponse}

theorem quiet_subset {x : App β} (hx : Handler.Within (Evolves c nonIssuing) x) {b : β}
    (h : x.run s = .ok b s') : s'.db.refreshTokens ⊆ s.db.refreshTokens :=
  (hx.of_ok h).refreshTokens_subset (by simp [nonIssuing])

theorem Yields.pure {a : α} {t : Option TokenResponse} (h : issued a = t) :
    Yields issued t (pure a : App α) := fun _ _ _ hRun => by
  obtain ⟨rfl, rfl⟩ := Handler.run_pure_ok.mp hRun
  exact ⟨h, rfl⟩

theorem Yields.bind {x : App β} {k : β → App α} {t : Option TokenResponse}
    (hx : Handler.Within SameTokens x) (hk : ∀ b, Yields issued t (k b)) :
    Yields issued t (x >>= k) := fun _ _ _ hRun => by
  obtain ⟨b, m, hb, hRun⟩ := Handler.run_bind_ok.mp hRun
  obtain ⟨h, hSame⟩ := hk b _ _ _ hRun
  exact ⟨h, hSame.trans (hx.of_ok hb)⟩

theorem Yields.ite {p : Prop} [Decidable p] {x y : App α} {t : Option TokenResponse}
    (hx : Yields issued t x) (hy : Yields issued t y) :
    Yields issued t (if p then x else y) := by
  split
  · exact hx
  · exact hy

theorem Issues.of_yields {h : App α} (hy : Yields issued none h) :
    Issues c audience issued h := fun _ _ _ hRun => by
  obtain ⟨hNone, hSame⟩ := hy _ _ _ hRun
  exact ⟨by simp [hNone], fun _ _ hr => hSame ▸ hr⟩

theorem Issues.bind_quiet {x : App β} {k : β → App α}
    (hx : Handler.Within (Evolves c nonIssuing) x) (hk : ∀ b, Issues c audience issued (k b)) :
    Issues c audience issued (x >>= k) := fun _ _ _ hRun => by
  obtain ⟨b, m, hb, hRun⟩ := Handler.run_bind_ok.mp hRun
  obtain ⟨hSome, hNone⟩ := hk b _ _ _ hRun
  exact ⟨fun t ht => (hSome t ht).before (quiet_subset hx hb),
    fun ha => List.Subset.trans (hNone ha) (quiet_subset hx hb)⟩

theorem Issues.bind_issue {x : App TokenResponse} {k : TokenResponse → App α}
    (hx : Issues c audience some x) (hk : ∀ t, Yields issued (some t) (k t)) :
    Issues c audience issued (x >>= k) := fun _ _ _ hRun => by
  obtain ⟨t, m, ht, hRun⟩ := Handler.run_bind_ok.mp hRun
  obtain ⟨hIssued, hSame⟩ := hk t _ _ _ hRun
  refine ⟨fun t' ht' => ?_, by simp [hIssued]⟩
  exact ((hx _ _ _ ht).1 t' (hIssued ▸ ht')).after hSame

theorem Issues.ite {p : Prop} [Decidable p] {x y : App α} (hx : Issues c audience issued x)
    (hy : Issues c audience issued y) : Issues c audience issued (if p then x else y) := by
  split
  · exact hx
  · exact hy

theorem Issues.throw (e : PyError) : Issues c audience issued (.throw e : App α) :=
  fun _ _ _ hRun => (Handler.run_throw_ok.mp hRun).elim

end Issues

theorem buildRegularAccessClaims_aud (user : User) (db : Db) :
    (buildRegularAccessClaims user db).aud = some "wxcode-adm" := by
  unfold buildRegularAccessClaims
  split <;> rfl

theorem issueTokens_issues (user : User) (ua ip : Option String) :
    Issues c "wxcode-adm" some (issueTokens c user ua ip) := fun s t s' h => by
  obtain ⟨rfl, hDb⟩ := issueTokens_ok h
  refine ⟨?_, by simp⟩
  rintro _ ⟨rfl⟩
  refine .of_add (by rw [buildRegularAccessClaims_aud]; rfl) (by rw [hDb]; rfl) ?_
  exact List.filter_sublist.subset

/-- What `rotate` returns: a pair for the user of the row, who is still there. -/
theorem rotate_ok {row : RefreshToken} {ua ip : Option String} {t : TokenResponse}
    (h : (rotate c row ua ip).run s = .ok t s') :
    ∃ user, s.db.user row.userId = some user ∧
      t = ⟨createAccessToken c row.userId (buildRegularAccessClaims user s.db),
        c.draws.refreshToken⟩ ∧
      s'.db.refreshTokens =
        (s.db.refreshTokens.filter fun r => !decide (r.id = row.id)) ++
          [newRefreshToken c row.userId] := by
  simp only [rotate, writeShadowKey, Handler.run_store_bind, Handler.run_exec_bind,
    Handler.run_query_bind, Handler.run_orRaise_bind_ok, Handler.run_ofExcept_bind_ok] at h
  obtain ⟨user, hUser, p, -, h⟩ := h
  obtain ⟨_, m, hSession, h⟩ := Handler.run_bind_ok.mp h
  obtain ⟨rfl, rfl⟩ := Handler.run_pure_ok.mp h
  refine ⟨user, hUser, rfl, ?_⟩
  simp only [continueSession, Handler.run_query_bind] at hSession
  split at hSession
  all_goals
    simp only [Handler.run_exec, Outcome.ok.injEq, true_and] at hSession
    subst hSession
    rfl

theorem rotate_live {row : RefreshToken} {ua ip : Option String} {t : TokenResponse}
    (h : (rotate c row ua ip).run s = .ok t s') : c.now < seconds t.accessToken.exp := by
  simp only [rotate, decodeAccessToken, writeShadowKey, Handler.run_store_bind,
    Handler.run_exec_bind, Handler.run_query_bind, Handler.run_orRaise_bind_ok,
    Handler.run_ofExcept_bind_ok, decodeFor_ok, Bearer.signed.injEq] at h
  obtain ⟨_, -, p, ⟨rfl, hLive, -⟩, h⟩ := h
  obtain ⟨_, _, -, h⟩ := Handler.run_bind_ok.mp h
  obtain ⟨rfl, -⟩ := Handler.run_pure_ok.mp h
  exact hLive

theorem refresh_ok {token : String} {ua ip : Option String} {t : TokenResponse}
    (h : (refresh c token ua ip).run s = .ok t s') :
    ∃ row, s.db.refreshToken token = some row ∧ ¬row.expiresAt < c.now ∧
      (rotate c row ua ip).run s = .ok t s' := by
  simp only [refresh, Handler.run_query_bind] at h
  split at h
  · obtain ⟨_, _, -, h⟩ := Handler.run_bind_ok.mp h
    exact (Handler.run_throw_ok.mp h).elim
  · rename_i row hRow
    simp only [Handler.run_ite_ok, Handler.run_exec_bind, Handler.run_throw_ok, and_false,
      false_or] at h
    exact ⟨row, hRow, h.1, h.2⟩

theorem refresh_issues (token : String) (ua ip : Option String) :
    Issues c "wxcode-adm" some (refresh c token ua ip) := fun s t s' h => by
  obtain ⟨row, -, -, hRotate⟩ := refresh_ok h
  obtain ⟨user, -, rfl, hRows⟩ := rotate_ok hRotate
  refine ⟨?_, by simp⟩
  rintro _ ⟨rfl⟩
  exact .of_add (by rw [buildRegularAccessClaims_aud]; rfl) hRows (List.filter_sublist.subset)

/-! ### Evolution -/

theorem blacklistJti_evolves (jti : Uuid) :
    Handler.Within (Evolves c P) (blacklistJti c jti) :=
  .store fun s => { Evolves.refl s with blacklist := fun _ _ hb h => h.set hb }

/-- Blacklisting one jti after another is writing them all at once. -/
theorem run_forM_blacklistJti (jtis : List Uuid) :
    (jtis.forM (blacklistJti c)).run s = .ok () { s with
      cache := { s.cache with
        blacklist := s.cache.blacklist.setAll c.now jtis () c.accessTtl } } := by
  induction jtis generalizing s with
  | nil => rfl
  | cons jti jtis ih =>
    change (jtis.forM (blacklistJti c)).run { s with
      cache := { s.cache with blacklist := s.cache.blacklist.set c.now jti () c.accessTtl } } = _
    exact ih

theorem addRefreshToken_evolves (h : P .issue) (userId : Uuid) :
    Handler.Within (Evolves c P)
      (.exec fun db => db.addRefreshToken (newRefreshToken c userId) : App Unit) :=
  .exec fun s => { Evolves.refl s with
    refreshTokens := (Grows.refl _).append (by simp [newRefreshToken, h]) }

theorem issueTokens_evolves (h : P .issue) (user : User) (ua ip : Option String) :
    Handler.Within (Evolves c P) (issueTokens c user ua ip) :=
  .bind (.query _) fun _ => .bind (Evolves.store_frame fun _ => rfl) fun _ =>
    .bind (Evolves.deleteRefreshTokens _) fun _ => .bind (.query _) fun _ =>
    .bind (addRefreshToken_evolves h _) fun _ => .bind (.ofExcept _) fun _ =>
    .bind (Evolves.exec_frame fun _ => rfl) fun _ => .pure _

theorem getCurrentJti_evolves (token : Bearer) :
    Handler.Within (Evolves c P) (getCurrentJti c token) :=
  .bind (.ofExcept _) fun _ => .pure _

theorem getCurrentUser_evolves (token : Bearer) :
    Handler.Within (Evolves c P) (getCurrentUser c token) :=
  .bind (.ofExcept _) fun _ => .bind (.lookup _) fun _ => .bind (.ensure _ _) fun _ =>
    .bind (.query _) fun _ => .bind (.orRaise _ _) fun _ => .bind (.ensure _ _) fun _ =>
    .bind (.ensure _ _) fun _ => .bind (Evolves.store_frame fun _ => rfl) fun _ => .pure _

theorem requireVerified_evolves (token : Bearer) :
    Handler.Within (Evolves c P) (requireVerified c token) :=
  .bind (getCurrentUser_evolves token) fun _ => .bind (.ensure _ _) fun _ => .pure _

theorem checkReplayAndLogout_evolves (token : String) :
    Handler.Within (Evolves c P) (checkReplayAndLogout c token) :=
  .bind (.lookup _) fun found => by
    cases found with
    | some uid => exact .bind (Evolves.deleteRefreshTokens _) fun _ => .throw _
    | none => exact .throw _

theorem continueSession_evolves (old : RefreshToken) (jti : Uuid) (ua ip : Option String) :
    Handler.Within (Evolves c P) (continueSession c old jti ua ip) :=
  .bind (.query _) fun found => by
    cases found <;> exact Evolves.exec_frame fun _ => rfl

theorem rotate_evolves (h : P .issue) (row : RefreshToken) (ua ip : Option String) :
    Handler.Within (Evolves c P) (rotate c row ua ip) :=
  .bind (Evolves.store_frame fun _ => rfl) fun _ => .bind (Evolves.deleteRefreshTokens _) fun _ =>
    .bind (addRefreshToken_evolves h _) fun _ => .bind (.query _) fun _ =>
    .bind (.orRaise _ _) fun _ => .bind (.query _) fun _ => .bind (.ofExcept _) fun _ =>
    .bind (continueSession_evolves _ _ _ _) fun _ => .pure _

theorem refresh_evolves (h : P .issue) (token : String) (ua ip : Option String) :
    Handler.Within (Evolves c P) (refresh c token ua ip) :=
  .bind (.query _) fun found => by
    cases found with
    | none => exact .bind (checkReplayAndLogout_evolves token) fun _ => .throw _
    | some row =>
      exact .ite (.bind (Evolves.deleteRefreshTokens _) fun _ => .throw _) (rotate_evolves h row ua ip)

theorem deleteIfFound_evolves (token : String) :
    Handler.Within (Evolves c P) (deleteIfFound token) :=
  .bind (.query _) fun found => by
    cases found with
    | some row => exact Evolves.deleteRefreshTokens _
    | none => exact .pure _

/-- A token that names an audience is never blacklisted by `blacklist_access_token`. -/
theorem blacklistAccessToken_of_aud {p : Payload} {a : String} (hAud : p.aud = some a)
    (hne : a ≠ "") : blacklistAccessToken c (.signed p) = pure () := by
  unfold blacklistAccessToken
  split
  · rfl
  · rename_i hDecode
    exact absurd hDecode (jwtDecode_no_audience hAud hne)

end WxcodeAdm
