import WxcodeAdm.Credentials
import WxcodeAdm.Origins

/-! One OAuth provider for each account.  `resolve_oauth_account` turns away a second provider of a
user without a password, and asks one with a password to confirm the link; `confirm_oauth_link`
adds the account without another look at those that the user has. -/

namespace WxcodeAdm

open Lib

variable {cfg : Config} {c : Ctx} {w w' : World} {s s' : Sys} {e : Event}

/-! ### Issuing tokens -/

theorem live_iff (now n : Nat) : now < seconds (timestamp (now + hours n)) ↔ 0 < n := by
  simp only [seconds, timestamp, hours]
  omega

theorem decode_fresh {user : User} {db : Db} :
    decodeAccessToken c (.signed (createAccessToken c user.id (buildRegularAccessClaims user db))) =
      if 0 < c.settings.accessTokenTtlHours then
        .ok (createAccessToken c user.id (buildRegularAccessClaims user db))
      else .error .tokenExpired := by
  have hAud : (createAccessToken c user.id (buildRegularAccessClaims user db)).aud =
      some "wxcode-adm" := by
    rw [createAccessToken, buildRegularAccessClaims_aud, Option.getD_some]
  have hExp : (createAccessToken c user.id (buildRegularAccessClaims user db)).exp =
      timestamp (c.now + hours c.settings.accessTokenTtlHours) := rfl
  by_cases hTtl : 0 < c.settings.accessTokenTtlHours
  · rw [if_pos hTtl]
    exact decodeFor_ok.mpr ⟨rfl, hExp ▸ (live_iff _ _).mpr hTtl, hAud⟩
  · rw [if_neg hTtl]
    have hExpired := Nat.not_lt.mp ((live_iff c.now _).not.mpr hTtl)
    simp [decodeAccessToken, decodeFor, jwtDecode, hExp, hExpired]

/-- With tokens that live, `_issue_tokens` returns. -/
theorem run_issueTokens_live (user : User) (ua ip : Option String)
    (h : 0 < c.settings.accessTokenTtlHours) :
    ∃ t m, (issueTokens c user ua ip).run w = .ok t m ∧ m.db = issued c user.id ua ip w.db := by
  cases hRun : (issueTokens c user ua ip).run w with
  | ok t m => exact ⟨t, m, rfl, (issueTokens_ok hRun).2⟩
  | error =>
    simp only [issueTokens, writeShadowKeysBulk, Handler.run_query_bind, Handler.run_store_bind,
      Handler.run_exec_bind, decode_fresh, if_pos h] at hRun
    cases hRun

theorem run_issueTokens_expired (user : User) (ua ip : Option String)
    (h : c.settings.accessTokenTtlHours = 0) :
    ∃ m, (issueTokens c user ua ip).run w = .error .tokenExpired m := by
  have hNot : ¬0 < c.settings.accessTokenTtlHours := by omega
  cases hRun : (issueTokens c user ua ip).run w with
  | ok t m =>
    have hLive := issueTokens_live hRun
    rw [(issueTokens_ok hRun).1] at hLive
    exact absurd ((live_iff _ _).mp hLive) hNot
  | error e m =>
    simp only [issueTokens, writeShadowKeysBulk, Handler.run_query_bind, Handler.run_store_bind,
      Handler.run_exec_bind, decode_fresh, if_neg hNot] at hRun
    cases hRun
    exact ⟨_, rfl⟩

/-! ### Confirming a link -/

/-- The link of a confirmation whose token, user and password check out. -/
def confirmedLink (c : Ctx) (w : World) (linkToken password : PyStr) : Option OAuthLink :=
  (w.cache.oauthLink.get c.now linkToken).filter fun link =>
    (w.db.user link.userId).any fun user => password.text?.any fun plain =>
      user.passwordHash.any (c.lib.verifyPassword plain)

/-- What a confirmation encodes: the token for Redis, and, where a link waits under it, the password
for its hash. -/
def ConfirmationEncodes (c : Ctx) (w : World) (linkToken password : PyStr) : Prop :=
  match w.cache.oauthLink.get c.now linkToken with
  | none => linkToken.Encodes
  | some _ => password.Encodes

/-- The links that wait in Redis are of users with a password. -/
def World.LinksProvable (w : World) : Prop :=
  ∀ token link deadline, w.cache.oauthLink.entry token = some (link, deadline) →
    ∃ hash, w.db.passwordHashOf link.userId = some (some hash)

theorem unknownToken_isApp {token : PyStr} : (unknownToken token).IsApp ↔ token.Encodes := by
  cases token with
  | text => exact iff_of_true trivial rfl
  | lone => exact iff_of_false id (by simp [PyStr.Encodes, PyStr.text?])

/-- A confirmation that does not check out raises, and an `AppError` exactly when it encodes. -/
theorem run_confirmOauthLink_none {linkToken password : PyStr} (ua ip : Option String)
    (hLinks : w.LinksProvable) (hNone : confirmedLink c w linkToken password = none) :
    ∃ error m, (confirmOauthLink c linkToken password ua ip).run w = .error error m ∧
      (error.IsApp ↔ ConfirmationEncodes c w linkToken password) := by
  simp only [confirmOauthLink, Handler.run_lookup_bind, ConfirmationEncodes]
  cases hGet : w.cache.oauthLink.get c.now linkToken with
  | none => exact ⟨_, _, rfl, unknownToken_isApp⟩
  | some link =>
    obtain ⟨deadline, hEntry⟩ := Expiring.entry_of_get hGet
    obtain ⟨hash, hHash⟩ := hLinks linkToken link deadline hEntry
    obtain ⟨user, hUser, hPassword⟩ := Option.map_eq_some_iff.mp hHash
    simp only [Handler.orRaise_some_bind, Handler.run_query_bind, hUser, hPassword]
    cases password with
    | text plain =>
      have hWrong : c.lib.verifyPassword plain hash = false := by
        simpa [confirmedLink, hGet, hUser, hPassword, Option.filter, PyStr.text?] using hNone
      rw [verifyPassword_text, hWrong, Handler.ofExcept_ok_bind]
      exact ⟨_, _, rfl, iff_of_true trivial rfl⟩
    | lone => exact ⟨_, _, rfl, iff_of_false id (by simp [PyStr.Encodes, PyStr.text?])⟩

/-- One that checks out adds the account and issues tokens. -/
theorem run_confirmOauthLink_some {linkToken password : PyStr} (ua ip : Option String)
    {link : OAuthLink} (hSome : confirmedLink c w linkToken password = some link) :
    ConfirmationEncodes c w linkToken password ∧
    ∃ user m, w.db.user link.userId = some user ∧ m.db = w.db ∧
      (confirmOauthLink c linkToken password ua ip).run w = (do
        addOAuthAccount ⟨user.id, link.provider, link.providerUserId⟩
        issueTokens c user ua ip).run m := by
  obtain ⟨hGet, hAny⟩ := Option.filter_eq_some_iff.mp hSome
  obtain ⟨user, hUser, hAny⟩ := (Option.any_eq_true _ _).mp hAny
  obtain ⟨plain, hPlain, hAny⟩ := (Option.any_eq_true _ _).mp hAny
  obtain ⟨hash, hHash, hRight⟩ := (Option.any_eq_true _ _).mp hAny
  obtain rfl := PyStr.text?_eq_some.mp hPlain
  refine ⟨by rw [ConfirmationEncodes, hGet]; rfl, user,
    { w with cache := { w.cache with oauthLink := w.cache.oauthLink.del linkToken } }, hUser, rfl, ?_⟩
  simp only [confirmOauthLink, Handler.run_lookup_bind, hGet, Handler.orRaise_some_bind,
    Handler.run_query_bind, hUser, hHash, verifyPassword_text, hRight, Handler.ofExcept_ok_bind,
    Handler.ensure_bind_of trivial, Handler.run_store_bind]

/-! ### The links in Redis -/

/-- A link after a request was there before, or is of a user who has a password. -/
def LinkOrigin (w w' : World) : Prop :=
  ∀ token link deadline, w'.cache.oauthLink.entry token = some (link, deadline) →
    w.cache.oauthLink.entry token = some (link, deadline) ∨
      ∃ hash, w.db.passwordHashOf link.userId = some (some hash)

theorem LinkOrigin.of_eq (h : w'.cache.oauthLink = w.cache.oauthLink) : LinkOrigin w w' :=
  fun _ _ _ hEntry => .inl (h ▸ hEntry)

theorem resolveOauthAccount_linkOrigin (hValid : w.db.Valid) (provider email puid : String)
    (ua ip : Option String) :
    LinkOrigin w ((resolveOauthAccount c provider email puid ua ip).final w) := by
  simp only [resolveOauthAccount, Handler.final_query_bind]
  split
  · exact .of_eq (oauthLogin_touches _ _ _ .oauthLink (by simp) w)
  · rw [Handler.final_query_bind]
    split
    · rename_i user hUser
      by_cases hHash : user.passwordHash.isSome = true
      · rw [if_pos hHash]
        obtain ⟨hash, hHash⟩ := Option.isSome_iff_exists.mp hHash
        intro token link deadline hEntry
        change (w.cache.oauthLink.set _ _ _ _).entry token = _ at hEntry
        by_cases hToken : token = c.draws.linkToken
        · subst hToken
          simp only [Expiring.set, Function.update_self, Option.some.injEq, Prod.mk.injEq] at hEntry
          obtain ⟨rfl, -⟩ := hEntry
          refine .inr ⟨hash, ?_⟩
          rw [Db.passwordHashOf, hValid.user_of_mem (List.mem_of_find?_eq_some hUser),
            Option.map_some, hHash]
        · simp only [Expiring.set, Function.update_of_ne hToken] at hEntry
          exact .inl hEntry
      · rw [if_neg hHash]
        exact .of_eq rfl
    · exact .of_eq (oauthSignup_touches _ _ _ _ _ .oauthLink (by simp) w)

/-- The links after a request are among those before. -/
def FewerLinks (w w' : World) : Prop :=
  ∀ token entry, w'.cache.oauthLink.entry token = some entry →
    w.cache.oauthLink.entry token = some entry

instance : Std.Refl FewerLinks := ⟨fun _ _ _ h => h⟩

instance : IsTrans World FewerLinks := ⟨fun _ _ _ h h' token entry hEntry =>
  h token entry (h' token entry hEntry)⟩

theorem Touches.fewerLinks {α : Type} {parts : List Part} {h : App α} (ht : Touches parts h)
    (hParts : Part.oauthLink ∉ parts) : Handler.Within FewerLinks h := fun s token entry hEntry => by
  have hSame : (h.final s).cache.oauthLink = s.cache.oauthLink := ht .oauthLink hParts s
  rwa [hSame] at hEntry

theorem confirmOauthLink_fewerLinks (linkToken password : PyStr) (ua ip : Option String) :
    Handler.Within FewerLinks (confirmOauthLink c linkToken password ua ip) :=
  .bind (.lookup _) fun _ => .bind (.orRaise _ _) fun _ => .bind (.query _) fun _ =>
    .bind (.orRaise _ _) fun _ => .bind (.ofExcept _) fun _ => .bind (.ensure _ _) fun _ =>
    .bind (.store fun s token entry hEntry => by
      by_cases hToken : token = linkToken
      · simp [Expiring.del, hToken] at hEntry
      · simpa [Expiring.del, Function.update_of_ne hToken] using hEntry) fun _ =>
    .bind ((addOAuthAccount_touches _).fewerLinks (by simp)) fun _ =>
    (issueTokens_touches _ _ _).fewerLinks (by simp)

theorem Step.linkOrigin (hs : s.Sound cfg) (h : Step cfg s e s') : LinkOrigin s.world s'.world := by
  by_cases hQuiet : Part.oauthLink ∉ e.request.parts
  · exact .of_eq (h.same hQuiet)
  · have hCache : s'.world.cache = ((handle (e.ctx cfg) e.request).final s.world).cache := by
      rw [← serve_cache, h.served]
    cases hRequest : e.request with
    | oauthCallback provider email puid ua ip =>
      rw [hRequest] at hCache
      intro token link deadline hEntry
      rw [hCache, show handle _ _ = Router.oauthCallback _ _ _ _ _ _ from rfl, Router.oauthCallback,
        Handler.final_ensure_bind] at hEntry
      split at hEntry
      · rw [Handler.final_bind_of_within_eq (by exact fun _ => .pure _)] at hEntry
        exact resolveOauthAccount_linkOrigin hs.valid provider email puid ua ip token link deadline
          hEntry
      · exact .inl hEntry
    | oauthLinkConfirm linkToken password ua ip =>
      rw [hRequest] at hCache
      intro token link deadline hEntry
      rw [hCache] at hEntry
      have hFewer : Handler.Within FewerLinks
          (handle (e.ctx cfg) (.oauthLinkConfirm linkToken password ua ip)) :=
        .bind (confirmOauthLink_fewerLinks _ _ _ _) fun _ => .pure _
      exact .inl (hFewer s.world token _ hEntry)
    | _ => simp [hRequest, Request.parts] at hQuiet

theorem Step.linksProvable (hs : s.Sound cfg) (h : Step cfg s e s')
    (hLinks : s.world.LinksProvable) : s'.world.LinksProvable := by
  intro token link deadline hEntry
  rcases h.linkOrigin hs token link deadline hEntry with hOld | ⟨hash, hHash⟩
  · obtain ⟨hash, hHash⟩ := hLinks token link deadline hOld
    exact h.hasHash hHash
  · exact h.hasHash hHash

/-! ### The accounts -/

def OneEach (db : Db) : Prop := (db.oauthAccounts.map fun a => a.userId).Nodup

instance (db : Db) : Decidable (OneEach db) := inferInstanceAs (Decidable (List.Nodup _))

theorem OneEach.of_eq {db db' : Db} (h : OneEach db) (hSame : db'.oauthAccounts = db.oauthAccounts) :
    OneEach db' := by rwa [OneEach, hSame]

theorem oneEach_concat_iff {db db' : Db} {new : OAuthAccount} (h : OneEach db)
    (hNew : db'.oauthAccounts = db.oauthAccounts ++ [new]) :
    OneEach db' ↔ ∀ a ∈ db.oauthAccounts, a.userId ≠ new.userId := by
  rw [OneEach, hNew, Db.nodup_map_concat]
  exact and_iff_right h

theorem resolveOauthAccount_oneEach {provider email puid : String} {ua ip : Option String}
    {result : OAuthResult} (hValid : w.db.Valid) (hOne : OneEach w.db)
    (h : (resolveOauthAccount c provider email puid ua ip).run w = .ok result w') :
    OneEach w'.db := by
  simp only [resolveOauthAccount, Handler.run_query_bind] at h
  split at h
  · exact hOne.of_eq ((oauthLogin_touches _ _ _ .oauthAccounts (by simp)).of_ok h)
  · rw [Handler.run_query_bind] at h
    split at h
    · simp only [Handler.run_ite_ok, Handler.run_throw_ok, and_false, or_false, oauthLinkRequired,
        Handler.run_store_bind, Handler.run_pure_ok] at h
      obtain ⟨-, -, rfl⟩ := h
      exact hOne
    · obtain ⟨hNew, t, _, m, -, -, hAccounts, hIssue⟩ := oauthSignup_ok h
      have hSame : w'.db.oauthAccounts = m.db.oauthAccounts :=
        (issueTokens_touches _ _ _ .oauthAccounts (by simp)).of_ok hIssue
      rw [oneEach_concat_iff hOne (hSame.trans hAccounts)]
      intro a ha hSelf
      have hHas := hValid.oauthUser a ha
      rw [hSelf] at hHas
      exact hNew hHas

def Request.confirmsLink : Request → Bool
  | .oauthLinkConfirm .. => true
  | _ => false

/-- No other request gives a user a second account. -/
theorem Step.oneEach (hs : s.Sound cfg) (h : Step cfg s e s')
    (hNot : e.request.confirmsLink = false) (hOne : OneEach s.world.db) : OneEach s'.world.db := by
  by_cases hQuiet : Part.oauthAccounts ∉ e.request.parts
  · exact hOne.of_eq (h.same hQuiet)
  · cases hOutcome : e.outcome with
    | error => exact hOne.of_eq (by rw [h.rolledBack hOutcome])
    | ok response =>
      have hRun := (h.committed hOutcome).1
      cases hRequest : e.request with
      | oauthCallback provider email puid ua ip =>
        rw [hRequest] at hRun
        simp only [handle, Router.oauthCallback, Handler.run_ensure_bind_ok] at hRun
        obtain ⟨result, m, hResolve, hRun⟩ := Handler.run_bind_ok.mp hRun.2
        obtain ⟨-, rfl⟩ := Handler.run_pure_ok.mp hRun
        exact resolveOauthAccount_oneEach hs.valid hOne hResolve
      | oauthLinkConfirm => simp [hRequest, Request.confirmsLink] at hNot
      | _ => simp [hRequest, Request.parts] at hQuiet

/-! ### A confirmation -/

/-- The request returned, or raised an `AppError`. -/
def Event.Declared (e : Event) : Prop :=
  match e.outcome with
  | .error (.other _) => False
  | _ => True

instance (e : Event) : Decidable e.Declared := by
  unfold Event.Declared
  split <;> infer_instance

def Db.addOAuthAccount (db : Db) (account : OAuthAccount) : Db :=
  { db with oauthAccounts := db.oauthAccounts ++ [account] }

theorem run_addOAuthAccount_bind {α : Type} {account : OAuthAccount} {k : Unit → App α} :
    (addOAuthAccount account >>= k).run w =
      if (w.db.addOAuthAccount account).Valid then
        (k ()).run { w with db := w.db.addOAuthAccount account }
      else .error .integrityError { w with db := w.db.addOAuthAccount account } := by
  rw [addOAuthAccount, bind_assoc, Handler.run_exec_bind]
  exact run_flush_bind

/-- Where tokens live and a session is opened, `user_sessions` takes what the request says of its
client. -/
def ClientFits (c : Ctx) (userAgent ipAddress : Option String) : Prop :=
  0 < c.settings.accessTokenTtlHours → (parseSessionMetadata c userAgent ipAddress).Fits

/-- The account may be linked: nobody has it, and its user has none, or, where tokens do not live
and nothing will be committed, none of that provider.  What the request says of its client fits. -/
structure Linkable (c : Ctx) (userAgent ipAddress : Option String) (db : Db) (link : OAuthLink) :
    Prop where
  unknown : ∀ a ∈ db.oauthAccounts,
    (a.provider, a.providerUserId) ≠ (link.provider, link.providerUserId)
  none : ∀ a ∈ db.oauthAccounts, a.userId = link.userId →
    c.settings.accessTokenTtlHours = 0 ∧ a.provider ≠ link.provider
  client : ClientFits c userAgent ipAddress

/-- No refresh token and no session has a value that the request draws for a new pair. -/
structure PairUnused (c : Ctx) (db : Db) : Prop where
  rows : ∀ r ∈ db.refreshTokens, r.id ≠ c.draws.refreshTokenId ∧ r.token ≠ c.draws.refreshToken
  sessions : ∀ x ∈ db.sessions, x.id ≠ c.draws.sessionId ∧ x.accessTokenJti ≠ c.draws.jti

theorem Db.Valid.issued_of_unused {db : Db} {userId : Uuid} (hValid : db.Valid)
    (hUser : db.HasUser userId) (hUnused : PairUnused c db) {ua ip : Option String}
    (hClient : (parseSessionMetadata c ua ip).Fits) : (issued c userId ua ip db).Valid := by
  let kept := db.deleteRefreshTokens fun r => r.userId = userId
  have hRow {r : RefreshToken} (hr : r ∈ kept.refreshTokens) : r ∈ db.refreshTokens :=
    (List.mem_filter.mp hr).1
  have hOld {x : UserSession} (hx : x ∈ kept.sessions) : x ∈ db.sessions := (List.mem_filter.mp hx).1
  have hHolder : kept.HasUser (newRefreshToken c userId).userId := hUser
  have hKept := (hValid.deleteRefreshTokens fun r => r.userId = userId).addRefreshToken hHolder
    (fun r hr => (hUnused.rows r (hRow hr)).1) fun r hr => (hUnused.rows r (hRow hr)).2
  refine hKept.addSession hUser ⟨_, List.mem_append_right _ (List.mem_singleton.mpr rfl), rfl⟩
    (fun x hx => (hUnused.sessions x (hOld hx)).1) ?_
    (fun x hx => (hUnused.sessions x (hOld hx)).2) hClient
  intro x hx hSame
  obtain ⟨r, hr, hLink⟩ := hValid.sessionRefreshToken x (hOld hx)
  exact (hUnused.rows r hr).1 (hLink.trans hSame)

theorem Step.pairUnused (hs : s.Sound cfg) (hTraced : s.Traced) (h : Step cfg s e s')
    (hId : ∀ x ∈ s.world.db.sessions, x.id ≠ e.draws.sessionId) :
    PairUnused (e.ctx cfg) s.world.db where
  rows := h.rows_fresh hs
  sessions := fun x hx =>
    ⟨hId x hx, fun hSame => h.jti_fresh hTraced (.inr ⟨x, hx, hSame⟩)⟩

theorem Db.Valid.issued {db : Db} (hs : s.Sound cfg) (hTraced : s.Traced) (h : Step cfg s e s')
    (hId : ∀ past ∈ s.log, past.draws.sessionId ≠ e.draws.sessionId) (hValid : db.Valid)
    (hRows : db.refreshTokens = s.world.db.refreshTokens)
    (hSessions : db.sessions = s.world.db.sessions) {userId : Uuid} (hUser : db.HasUser userId)
    {ua ip : Option String} (hClient : (parseSessionMetadata (e.ctx cfg) ua ip).Fits) :
    (issued (e.ctx cfg) userId ua ip db).Valid := by
  have hUnused := h.pairUnused hs hTraced fun x hx hSame => by
    obtain ⟨past, hPast, hDrawn⟩ := hTraced.sessionId x hx
    exact hId past hPast (hDrawn.trans hSame)
  exact hValid.issued_of_unused hUser
    ⟨fun r hr => hUnused.rows r (hRows ▸ hr), fun x hx => hUnused.sessions x (hSessions ▸ hx)⟩ hClient

/-- The session of a pair is there, with what the request says of its client. -/
theorem issued_client {db : Db} {userId : Uuid} {ua ip : Option String}
    (h : (issued c userId ua ip db).Valid) : (parseSessionMetadata c ua ip).Fits :=
  h.sessionInfo (newSession c userId c.draws.jti ua ip)
    (List.mem_append_right _ (List.mem_singleton_self _))

/-- The account of a confirmation fits in.  Where tokens live, it keeps one account for each user
exactly when the user has none, and is committed exactly when what it says of the client fits. -/
theorem Step.confirm_live_iff {linkToken password : PyStr} {ua ip : Option String}
    (hs : s.Sound cfg) (hTraced : s.Traced) (h : Step cfg s e s')
    (hId : ∀ past ∈ s.log, past.draws.sessionId ≠ e.draws.sessionId)
    (hRequest : e.request = .oauthLinkConfirm linkToken password ua ip)
    (hOne : OneEach s.world.db) {link : OAuthLink} {user : User} {cache : Redis}
    (hOwner : user.id = link.userId) (hHas : s.world.db.HasUser user.id)
    (hValid : (s.world.db.addOAuthAccount
      ⟨user.id, link.provider, link.providerUserId⟩).Valid)
    (hTtl : 0 < cfg.settings.accessTokenTtlHours)
    (hRun : (confirmOauthLink (e.ctx cfg) linkToken password ua ip).run s.world =
      (issueTokens (e.ctx cfg) user ua ip).run ⟨s.world.db.addOAuthAccount
        ⟨user.id, link.provider, link.providerUserId⟩, cache⟩) :
    OneEach s'.world.db ∧ e.Declared ↔ Linkable (e.ctx cfg) ua ip s.world.db link := by
  obtain ⟨hUnknown, -⟩ := (hs.valid.addOAuthAccount_iff hHas).mp hValid
  obtain ⟨t, m, hIssue, hDb⟩ := run_issueTokens_live (c := e.ctx cfg) user ua ip hTtl
  rw [hIssue] at hRun
  have hHandled : (handle (e.ctx cfg) e.request).run s.world = .ok (.tokens t) m := by
    rw [hRequest]
    exact Handler.run_bind_ok.mpr ⟨_, _, hRun, rfl⟩
  by_cases hFinal : m.db.Valid
  case neg =>
    -- The commit is refused, and the client is what it is refused for.
    refine iff_of_false ?_ fun hLinkable => hFinal (hDb ▸ ?_)
    · rintro ⟨-, hDeclared⟩
      rw [Event.Declared, (h.refused hHandled hFinal).1] at hDeclared
      exact hDeclared
    · exact hValid.issued hs hTraced h hId rfl rfl hHas (hLinkable.client hTtl)
  obtain ⟨hOutcome, hWorld⟩ := h.returned hHandled hFinal
  have hDeclared : e.Declared := by
    rw [Event.Declared, hOutcome]
    trivial
  have hAccounts : s'.world.db.oauthAccounts = s.world.db.oauthAccounts ++
      [⟨user.id, link.provider, link.providerUserId⟩] := by
    rw [hWorld, hDb]
    rfl
  rw [and_iff_left hDeclared, oneEach_concat_iff hOne hAccounts]
  constructor
  · exact fun hNone => ⟨hUnknown, fun a ha hUserId =>
      absurd (hUserId.trans hOwner.symm) (hNone a ha), fun _ => issued_client (hDb ▸ hFinal)⟩
  · intro hLinkable a ha hUserId
    exact Nat.ne_of_gt hTtl (hLinkable.none a ha (hUserId.trans hOwner)).1

/-- A confirmation keeps one account for each user, and ends as declared, exactly when it encodes and
the link that it confirms may be made. -/
theorem Step.confirm_iff {linkToken password : PyStr} {ua ip : Option String} (hs : s.Sound cfg)
    (hTraced : s.Traced) (hLinks : s.world.LinksProvable) (h : Step cfg s e s')
    (hId : ∀ past ∈ s.log, past.draws.sessionId ≠ e.draws.sessionId)
    (hRequest : e.request = .oauthLinkConfirm linkToken password ua ip)
    (hOne : OneEach s.world.db) :
    OneEach s'.world.db ∧ e.Declared ↔
      ConfirmationEncodes (e.ctx cfg) s.world linkToken password ∧
        ∀ link ∈ confirmedLink (e.ctx cfg) s.world linkToken password,
          Linkable (e.ctx cfg) ua ip s.world.db link := by
  have hRaised {error : PyError} {m : World}
      (hRun : (confirmOauthLink (e.ctx cfg) linkToken password ua ip).run s.world = .error error m) :
      e.outcome = .error error ∧ s'.world = { m with db := s.world.db } :=
    h.raised (by rw [hRequest, handle, Handler.run_bind, hRun])
  cases hConfirmed : confirmedLink (e.ctx cfg) s.world linkToken password with
  | none =>
    obtain ⟨error, m, hRun, hEncodes⟩ := run_confirmOauthLink_none ua ip hLinks hConfirmed
    obtain ⟨hOutcome, hWorld⟩ := hRaised hRun
    have hDeclared : e.Declared ↔ error.IsApp := by
      rw [Event.Declared, hOutcome]
      cases error <;> exact Iff.rfl
    rw [and_iff_right (hOne.of_eq (by rw [hWorld])), hDeclared, hEncodes]
    exact (and_iff_left (by simp)).symm
  | some link =>
    simp only [Option.mem_some_iff, forall_eq']
    obtain ⟨hEncodes, user, m, hUser, hSame, hRun⟩ := run_confirmOauthLink_some ua ip hConfirmed
    rw [and_iff_right hEncodes]
    have hOwner : user.id = link.userId := Db.user_id hUser
    have hHas : s.world.db.HasUser user.id := ⟨user, Db.user_mem hUser, rfl⟩
    have hConstraints : (s.world.db.addOAuthAccount
        ⟨user.id, link.provider, link.providerUserId⟩).Valid ↔ _ :=
      hs.valid.addOAuthAccount_iff hHas
    rw [run_addOAuthAccount_bind, hSame] at hRun
    by_cases hValid : (s.world.db.addOAuthAccount
        ⟨user.id, link.provider, link.providerUserId⟩).Valid
    · obtain ⟨hUnknown, hPair⟩ := hConstraints.mp hValid
      rw [if_pos hValid] at hRun
      by_cases hTtl : cfg.settings.accessTokenTtlHours = 0
      · -- The new token has expired already, so nothing is committed.
        obtain ⟨m', hIssue⟩ := run_issueTokens_expired (c := e.ctx cfg) user ua ip hTtl
        obtain ⟨hOutcome, hWorld⟩ := hRaised (hRun.trans hIssue)
        refine iff_of_true ⟨hOne.of_eq (by rw [hWorld]), ?_⟩
          ⟨hUnknown, fun a ha hUserId => ?_, fun hLive => absurd hTtl (Nat.ne_of_gt hLive)⟩
        · rw [Event.Declared, hOutcome]
          trivial
        · refine ⟨hTtl, fun hProvider => hPair a ha ?_⟩
          rw [hUserId, hOwner, hProvider]
      · exact h.confirm_live_iff hs hTraced hId hRequest hOne hOwner hHas hValid
          (Nat.pos_of_ne_zero hTtl) hRun
    · rw [if_neg hValid] at hRun
      refine iff_of_false ?_ ?_
      · rintro ⟨-, hDeclared⟩
        rw [Event.Declared, (hRaised hRun).1] at hDeclared
        exact hDeclared
      · intro hLinkable
        refine hValid (hConstraints.mpr ⟨hLinkable.unknown, fun a ha hSame => ?_⟩)
        obtain ⟨hUserId, hProvider⟩ := Prod.mk.inj hSame
        exact (hLinkable.none a ha (hUserId.trans hOwner)).2 hProvider

/-! ### Runs -/

/-- Each user has one account at most, and every confirmation so far has ended as declared. -/
def OneProvider (steps : List (Sys × Event)) (s : Sys) : Prop :=
  OneEach s.world.db ∧ ∀ p ∈ steps, p.2.request.confirmsLink = true → p.2.Declared

/-- A confirmation encodes, and a link that it confirms may be made. -/
def LinksAlone (cfg : Config) (p : Sys × Event) : Prop :=
  ∀ linkToken password ua ip, p.2.request = .oauthLinkConfirm linkToken password ua ip →
    ConfirmationEncodes (p.2.ctx cfg) p.1.world linkToken password ∧
      ∀ link ∈ confirmedLink (p.2.ctx cfg) p.1.world linkToken password,
        Linkable (p.2.ctx cfg) ua ip p.1.world.db link

theorem OneProvider.snoc_iff {steps : List (Sys × Event)} (h : OneProvider steps s) :
    OneProvider (steps ++ [(s, e)]) s' ↔
      OneEach s'.world.db ∧ (e.request.confirmsLink = true → e.Declared) := by
  constructor
  · rintro ⟨hOne, hAll⟩
    exact ⟨hOne, hAll (s, e) (by simp)⟩
  · rintro ⟨hOne, hLast⟩
    refine ⟨hOne, fun p hp => ?_⟩
    rcases List.mem_append.mp hp with hp | hp
    · exact h.2 p hp
    · exact List.mem_singleton.mp hp ▸ hLast

theorem Step.oneProvider_iff {steps : List (Sys × Event)} (hs : s.Sound cfg) (hTraced : s.Traced)
    (hLinks : s.world.LinksProvable) (hStep : Step cfg s e s')
    (hId : ∀ past ∈ s.log, past.draws.sessionId ≠ e.draws.sessionId) (h : OneProvider steps s) :
    OneProvider (steps ++ [(s, e)]) s' ↔ LinksAlone cfg (s, e) := by
  rw [h.snoc_iff]
  cases hConfirms : e.request.confirmsLink with
  | false =>
    refine iff_of_true ⟨hStep.oneEach hs hConfirms h.1, by simp⟩ ?_
    intro linkToken password ua ip hRequest
    rw [show e.request = _ from hRequest] at hConfirms
    cases hConfirms
  | true =>
    obtain ⟨linkToken, password, ua, ip, hRequest⟩ : ∃ linkToken password ua ip,
        e.request = .oauthLinkConfirm linkToken password ua ip := by
      cases hRequest : e.request <;> simp_all [Request.confirmsLink]
    rw [forall_prop_of_true rfl, hStep.confirm_iff hs hTraced hLinks hId hRequest h.1]
    constructor
    · intro hLinkable linkToken' password' ua' ip' hSame
      obtain ⟨rfl, rfl, rfl, rfl⟩ := Request.oauthLinkConfirm.inj (hRequest.symm.trans hSame)
      exact hLinkable
    · exact fun hAlone => hAlone linkToken password ua ip hRequest

/-- In a run whose requests draw different session ids, users keep one account each, and
confirmations end as declared, exactly when every confirmation encodes and every link that is
confirmed may be made. -/
theorem one_provider_iff {s₀ : Sys} {steps : List (Sys × Event)} (hInit : Initial s₀)
    (hOne : OneEach s₀.world.db) (hIds : (steps.map fun p => p.2.draws.sessionId).Nodup)
    (hRun : Run (Step cfg) s₀ steps s) :
    Throughout OneProvider steps s ↔ ∀ p ∈ steps, LinksAlone cfg p := by
  rw [← atEach_const]
  refine hRun.throughout_iff_of (atEach_of_nodup hIds) ⟨hOne, by simp⟩ ?_
  intro pre m e n hPre hStep hFresh h
  obtain ⟨hs, hTraced, hLinks⟩ := hPre.invariant
    (I := fun m => m.Sound cfg ∧ m.Traced ∧ m.world.LinksProvable)
    (fun ⟨hm, hTraced, hLinks⟩ hStep =>
      ⟨hStep.sound hm, hStep.traced hm hTraced, hStep.linksProvable hm hLinks⟩)
    ⟨hInit.sound, hInit.traced, by simp [World.LinksProvable, hInit.cache, Expiring.empty]⟩
  refine hStep.oneProvider_iff hs hTraced hLinks (fun past hPast => ?_) h
  rw [log_of_run hPre, hInit.log, List.nil_append] at hPast
  obtain ⟨q, hq, rfl⟩ := List.mem_map.mp hPast
  exact hFresh q hq

/-! ### Two links of one user -/

/-- Alice, who has a password, comes through Google and through GitHub, and confirms both links. -/
def googleCallback : Event × Sys :=
  sampleHome.sample (seconds 10) (.oauthCallback "google" "alice@example.com" "g-1" none none)

def githubCallback : Event × Sys :=
  googleCallback.2.sample (seconds 20)
    (.oauthCallback "github" "alice@example.com" "h-1" none none)

def googleConfirmed : Event × Sys :=
  githubCallback.2.sample (seconds 30) (.oauthLinkConfirm "link-0" "pw" none none)

def githubConfirmed : Event × Sys :=
  googleConfirmed.2.sample (seconds 40) (.oauthLinkConfirm "link-1" "pw" none none)

def twoLinksSteps : List (Sys × Event) :=
  [(sampleHome, googleCallback.1), (googleCallback.2, githubCallback.1),
    (githubCallback.2, googleConfirmed.1), (googleConfirmed.2, githubConfirmed.1)]

theorem twoLinks_run : Run (Step sampleConfig) sampleHome twoLinksSteps githubConfirmed.2 :=
  .cons (.of_admits (by decide) (by trivial)) <| .cons (.of_admits (by decide) (by trivial)) <|
    .cons (.of_admits (by decide) (by trivial)) (.single (.of_admits (by decide) (by trivial)))

/-- Alice ends with an account of each provider. -/
theorem two_providers :
    ¬∀ (cfg : Config) (s₀ s : Sys) (steps : List (Sys × Event)), Initial s₀ →
      OneEach s₀.world.db → (steps.map fun p => p.2.draws.sessionId).Nodup →
      Run (Step cfg) s₀ steps s → Throughout OneProvider steps s := by
  intro hClaim
  have hOne := (hClaim sampleConfig _ _ _ sampleHome_initial (by decide) (by decide)
    twoLinks_run).2.1
  have hAccounts : githubConfirmed.2.world.db.oauthAccounts =
      [⟨⟨1⟩, "google", "g-1"⟩, ⟨⟨1⟩, "github", "h-1"⟩] := rfl
  rw [OneEach, hAccounts] at hOne
  exact absurd hOne (by decide)

/-- The law for the two confirmations. -/
theorem one_provider_iff_twoLinks :
    Throughout OneProvider twoLinksSteps githubConfirmed.2 ↔
      ∀ p ∈ twoLinksSteps, LinksAlone sampleConfig p :=
  one_provider_iff sampleHome_initial (by decide) (by decide) twoLinks_run

end WxcodeAdm
