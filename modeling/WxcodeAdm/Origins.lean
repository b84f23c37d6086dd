import WxcodeAdm.Footprint

/-! Where the ids of sessions and the jtis come from.  A request adds to them only what it draws,
and blacklists only the jtis of sessions and of the tokens that it is presented with, so in every
reachable state they are values that past requests have drawn. -/

namespace WxcodeAdm

open Lib

/-- The jti is blacklisted, or the one of a session. -/
def World.Knows (w : World) (jti : Uuid) : Prop :=
  w.cache.blacklist.entry jti ≠ none ∨ ∃ x ∈ w.db.sessions, x.accessTokenJti = jti

/-- What a request in `c` that is presented with the tokens `bearers` may add to the sessions and
the blacklist. -/
structure Origin (c : Ctx) (bearers : List Bearer) (s s' : World) : Prop where
  sessionId : ∀ x ∈ s'.db.sessions, (∃ y ∈ s.db.sessions, y.id = x.id) ∨ x.id = c.draws.sessionId
  jti : ∀ jti, s'.Knows jti →
    s.Knows jti ∨ jti = c.draws.jti ∨ ∃ p, .signed p ∈ bearers ∧ p.jti = jti

variable {c : Ctx} {bearers : List Bearer}

namespace Origin

theorem of_subset {s s' : World} (hSessions : s'.db.sessions ⊆ s.db.sessions)
    (hBlacklist : s'.cache.blacklist = s.cache.blacklist) : Origin c bearers s s' where
  sessionId := fun x hx => .inl ⟨x, hSessions hx, rfl⟩
  jti := by
    rintro jti (hEntry | ⟨x, hx, rfl⟩)
    · exact .inl (.inl (hBlacklist ▸ hEntry))
    · exact .inl (.inr ⟨x, hSessions hx, rfl⟩)

theorem refl (s : World) : Origin c bearers s s := .of_subset (List.Subset.refl _) rfl

theorem trans {s m s' : World} (h : Origin c bearers s m) (h' : Origin c bearers m s') :
    Origin c bearers s s' where
  sessionId := by
    intro x hx
    rcases h'.sessionId x hx with ⟨y, hy, hSame⟩ | hDrawn
    · rw [← hSame]
      exact h.sessionId y hy
    · exact .inr hDrawn
  jti := fun jti hKnows => (h'.jti jti hKnows).elim (h.jti jti) .inr

instance : Std.Refl (Origin c bearers) := ⟨refl⟩

instance : IsTrans World (Origin c bearers) := ⟨fun _ _ _ => trans⟩

theorem rollback {s s' : World} (h : Origin c bearers s s') :
    Origin c bearers s { s' with db := s.db } where
  sessionId := fun x hx => .inl ⟨x, hx, rfl⟩
  jti := by
    rintro jti (hEntry | hSession)
    · exact h.jti jti (.inl hEntry)
    · exact .inl (.inr hSession)

/-- Blacklisting jtis that are known or presented. -/
theorem blacklist {s : World} {r : Redis}
    (h : ∀ jti, r.blacklist.entry jti ≠ none →
      s.Knows jti ∨ ∃ p, .signed p ∈ bearers ∧ p.jti = jti) :
    Origin c bearers s { s with cache := r } where
  sessionId := fun x hx => .inl ⟨x, hx, rfl⟩
  jti := by
    rintro jti (hEntry | hSession)
    · exact (h jti hEntry).imp id .inr
    · exact .inl (.inr hSession)

theorem addSession {x : UserSession} (hId : x.id = c.draws.sessionId)
    (hJti : x.accessTokenJti = c.draws.jti) :
    Handler.Within (Origin c bearers) (.exec fun db => db.addSession x : App Unit) :=
  .exec fun s =>
    { sessionId := by
        intro y hy
        rcases List.mem_append.mp hy with hy | hy
        · exact .inl ⟨y, hy, rfl⟩
        · exact .inr (List.mem_singleton.mp hy ▸ hId)
      jti := by
        rintro jti (hEntry | ⟨y, hy, rfl⟩)
        · exact .inl (.inl hEntry)
        · rcases List.mem_append.mp hy with hy | hy
          · exact .inl (.inr ⟨y, hy, rfl⟩)
          · exact .inr (.inl (List.mem_singleton.mp hy ▸ hJti)) }

end Origin

/-- A handler that leaves the sessions and the blacklist alone. -/
theorem Touches.origin {α : Type} {parts : List Part} {h : App α} (ht : Touches parts h)
    (hSessions : Part.sessions ∉ parts) (hBlacklist : Part.blacklist ∉ parts) :
    Handler.Within (Origin c bearers) h := fun s => by
  have hSame : (h.final s).db.sessions = s.db.sessions := ht .sessions hSessions s
  exact .of_subset (hSame ▸ List.Subset.refl _) (ht .blacklist hBlacklist s)

theorem deleteRefreshTokens_origin (p : RefreshToken → Bool) :
    Handler.Within (Origin c bearers) (.exec fun db => db.deleteRefreshTokens p : App Unit) :=
  .exec fun _ => .of_subset List.filter_sublist.subset rfl

/-! ### Tokens -/

theorem blacklistJti_origin {p : Payload} (hp : .signed p ∈ bearers) :
    Handler.Within (Origin c bearers) (blacklistJti c p.jti) :=
  .store fun s => .blacklist fun jti hEntry => by
    rcases Expiring.entry_set hEntry with rfl | hOld
    · exact .inr ⟨p, hp, rfl⟩
    · exact .inl (.inl hOld)

theorem blacklistAccessToken_origin {token : Bearer} (hToken : token ∈ bearers) :
    Handler.Within (Origin c bearers) (blacklistAccessToken c token) := by
  unfold blacklistAccessToken
  split
  · exact .pure _
  · rename_i payload hDecode
    have hSigned : token = .signed payload := by
      cases token with
      | other => cases hDecode
      | signed p =>
        simp only [jwtDecode] at hDecode
        split at hDecode
        · cases hDecode
        · split at hDecode
          · exact congrArg _ (Except.ok.inj hDecode)
          · cases hDecode
    refine .ite (.store fun s => .blacklist fun jti hEntry => ?_) (.pure _)
    rcases Expiring.entry_set hEntry with rfl | hOld
    · exact .inr ⟨payload, hSigned ▸ hToken, rfl⟩
    · exact .inl (.inl hOld)

theorem revokeSessionsOf_origin (userIds : List Uuid) :
    Handler.Within (Origin c bearers) (revokeSessionsOf c userIds) := fun s => by
  rw [Handler.final_of_ok (run_revokeSessionsOf userIds)]
  refine Origin.trans (m := { s with cache := (revoked c userIds s).cache })
    (.blacklist fun jti hEntry => ?_) (.of_subset List.filter_sublist.subset rfl)
  rcases Expiring.entry_setAll _ hEntry with hIn | hOld
  · obtain ⟨x, hx, hJti⟩ := List.mem_map.mp hIn
    exact .inl (.inr ⟨x, (List.mem_filter.mp hx).1, hJti⟩)
  · exact .inl (.inl hOld)

theorem issueTokens_origin (user : User) (ua ip : Option String) :
    Handler.Within (Origin c bearers) (issueTokens c user ua ip) :=
  .bind (.query _) fun _ => .bind (touches_replay.origin (by simp) (by simp)) fun _ =>
    .bind (deleteRefreshTokens_origin _) fun _ => .bind (.query _) fun _ =>
    .bind (touches_addRefreshToken.origin (by simp) (by simp)) fun _ =>
    .ofExcept_bind fun payload hDecode => .bind (by
      obtain ⟨hSigned, -, -⟩ := decodeFor_ok.mp hDecode
      obtain rfl := Bearer.signed.inj hSigned
      exact Origin.addSession rfl rfl) fun _ => .pure _

theorem checkReplayAndLogout_origin (token : String) :
    Handler.Within (Origin c bearers) (checkReplayAndLogout c token) :=
  .bind (.lookup _) fun found => by
    cases found with
    | some uid => exact .bind (deleteRefreshTokens_origin _) fun _ => .throw _
    | none => exact .throw _

theorem continueSession_origin (old : RefreshToken) (ua ip : Option String) :
    Handler.Within (Origin c bearers) (continueSession c old c.draws.jti ua ip) :=
  .bind (.query _) fun found => by
    cases found with
    | none => exact Origin.addSession rfl rfl
    | some session =>
      refine .exec fun s => ⟨fun x hx => ?_, fun jti hKnows => ?_⟩
      · obtain ⟨y, hy, rfl⟩ := List.mem_map.mp hx
        refine .inl ⟨y, hy, ?_⟩
        split <;> rfl
      · rcases hKnows with hEntry | ⟨x, hx, rfl⟩
        · exact .inl (.inl hEntry)
        · obtain ⟨y, hy, rfl⟩ := List.mem_map.mp hx
          split
          · exact .inr (.inl rfl)
          · exact .inl (.inr ⟨y, hy, rfl⟩)

theorem rotate_origin (row : RefreshToken) (ua ip : Option String) :
    Handler.Within (Origin c bearers) (rotate c row ua ip) :=
  .bind (touches_replay.origin (by simp) (by simp)) fun _ =>
    .bind (deleteRefreshTokens_origin _) fun _ =>
    .bind (touches_addRefreshToken.origin (by simp) (by simp)) fun _ => .bind (.query _) fun _ =>
    .bind (.orRaise _ _) fun _ => .bind (.query _) fun _ => .ofExcept_bind fun payload hDecode =>
    .bind (by
      obtain ⟨hSigned, -, -⟩ := decodeFor_ok.mp hDecode
      obtain rfl := Bearer.signed.inj hSigned
      exact continueSession_origin row ua ip) fun _ => .pure _

theorem refresh_origin (token : String) (ua ip : Option String) :
    Handler.Within (Origin c bearers) (refresh c token ua ip) :=
  .bind (.query _) fun found => by
    cases found with
    | none => exact .bind (checkReplayAndLogout_origin token) fun _ => .throw _
    | some row =>
      exact .ite (.bind (deleteRefreshTokens_origin _) fun _ => .throw _) (rotate_origin row ua ip)

theorem deleteIfFound_origin (token : String) :
    Handler.Within (Origin c bearers) (deleteIfFound token) :=
  .bind (.query _) fun found => by
    cases found with
    | some row => exact deleteRefreshTokens_origin _
    | none => exact .pure _

theorem logout_origin (refreshToken : String) {accessToken : Option Bearer}
    (h : ∀ token ∈ accessToken, token ∈ bearers) :
    Handler.Within (Origin c bearers) (logout c refreshToken accessToken) :=
  .bind (deleteIfFound_origin refreshToken) fun _ => by
    cases accessToken with
    | some token => exact blacklistAccessToken_origin (h token rfl)
    | none => exact .pure _

theorem resetPassword_origin (token : TimedToken Json) (newPassword : String) :
    Handler.Within (Origin c bearers) (resetPassword c token newPassword) :=
  .bind (.ofExcept _) fun _ => .bind (.query _) fun _ => .bind (.orRaise _ _) fun _ =>
    .bind (.bind (.ofExcept _) fun _ => .pure _) fun _ =>
    .bind (touches_users.origin (by simp) (by simp)) fun _ => deleteRefreshTokens_origin _

/-! ### Sign-in -/

theorem loginVerified_origin (user : User) (device ua ip : Option String) :
    Handler.Within (Origin c bearers) (loginVerified c user device ua ip) :=
  .bind (.query _) fun _ =>
    .ite (.bind ((createMfaPending_touches _).origin (by simp) (by simp)) fun _ => .pure _) <|
    .ite
      (.bind ((skipMfa_touches _ _ _).origin (by simp) (by simp)) fun _ => .ite
        (.bind (issueTokens_origin _ _ _) fun _ => .pure _)
        (.bind ((createMfaPending_touches _).origin (by simp) (by simp)) fun _ => .pure _))
      (.bind (issueTokens_origin _ _ _) fun _ => .pure _)

theorem login_origin (email : String) (password : PyStr) (device ua ip : Option String) :
    Handler.Within (Origin c bearers) (login c email password device ua ip) :=
  .bind (.query _) fun _ => .bind (.orRaise _ _) fun _ => .bind (.ensure _ _) fun _ =>
    .bind (.ofExcept _) fun _ => .bind (.ensure _ _) fun _ => .bind (.ensure _ _) fun _ =>
    loginVerified_origin _ _ _ _

theorem mfaVerify_origin (body : MfaVerifyRequest) (ua ip : Option String) :
    Handler.Within (Origin c bearers) (mfaVerify c body ua ip) :=
  .bind (.lookup _) fun _ => .bind (.orRaise _ _) fun _ => .bind (.ofExcept _) fun _ =>
    .bind (.query _) fun _ => .bind (.orRaise _ _) fun _ => .bind (.ensure _ _) fun _ =>
    .bind (.lookup _) fun _ => .bind (.ensure _ _) fun _ =>
    .bind ((verifySecondFactor_touches _ _).origin (by simp) (by simp)) fun _ =>
    .bind (touches_mfaPending.origin (by simp) (by simp)) fun _ =>
    .bind (issueTokens_origin _ _ _) fun _ =>
    .bind ((redirectToWxcode_touches _ _).origin (by simp) (by simp)) fun _ => .ite
      (.bind ((createTrustedDevice_touches _).origin (by simp) (by simp)) fun _ => .pure _)
      (.pure _)

theorem resolveOauthAccount_origin (provider email puid : String) (ua ip : Option String) :
    Handler.Within (Origin c bearers) (resolveOauthAccount c provider email puid ua ip) :=
  .bind (.query _) fun account => by
    cases account with
    | some account =>
      exact .bind (.query _) fun _ => .bind (.orRaise _ _) fun _ =>
        .bind (issueTokens_origin _ _ _) fun _ => .bind (.query _) fun _ => .pure _
    | none =>
      refine .bind (.query _) fun user => ?_
      cases user with
      | some _ =>
        exact .ite (.bind (touches_oauthLink.origin (by simp) (by simp)) fun _ => .pure _) (.throw _)
      | none =>
        exact .bind ((touches_addUser _).origin (by simp) (by simp)) fun _ =>
          .bind (touches_flush.origin (by simp) (by simp)) fun _ =>
          .bind ((addOAuthAccount_touches _).origin (by simp) (by simp)) fun _ =>
          .bind ((createVerificationCode_touches _).origin (by simp) (by simp)) fun _ =>
          .bind ((touches_enqueueJob _).origin (by simp) (by simp)) fun _ => .bind (.query _) fun _ =>
          .bind (issueTokens_origin _ _ _) fun _ => .pure _

theorem confirmOauthLink_origin (linkToken password : PyStr) (ua ip : Option String) :
    Handler.Within (Origin c bearers) (confirmOauthLink c linkToken password ua ip) :=
  .bind (.lookup _) fun _ => .bind (.orRaise _ _) fun _ => .bind (.query _) fun _ =>
    .bind (.orRaise _ _) fun _ => .bind (.ofExcept _) fun _ => .bind (.ensure _ _) fun _ =>
    .bind (touches_oauthLink.origin (by simp) (by simp)) fun _ =>
    .bind ((addOAuthAccount_touches _).origin (by simp) (by simp)) fun _ => issueTokens_origin _ _ _

/-! ### Revocation -/

theorem handlePaymentFailed_origin (dataObject : Json) :
    Handler.Within (Origin c bearers) (handlePaymentFailed c dataObject) :=
  .bind ((invoiceSubscription_touches dataObject).origin (by simp) (by simp)) fun found => by
    cases found with
    | none => exact .pure _
    | some _ =>
      exact .bind (touches_subscriptions.origin (by simp) (by simp)) fun _ => .bind (.query _)
        fun _ => .bind (revokeSessionsOf_origin _) fun _ => .bind (.query _) fun _ =>
        .bind (.query _) fun _ => .forM (fun _ => (touches_enqueueJob _).origin (by simp) (by simp)) _

theorem processStripeEvent_origin (eventId eventType : String) (dataObject : Json) :
    Handler.Within (Origin c bearers) (processStripeEvent c eventId eventType dataObject) :=
  .bind (.query _) fun found => by
    cases found with
    | some _ => exact .pure _
    | none =>
      refine .bind ?_ fun _ => .bind (touches_webhookEvents.origin (by simp) (by simp)) fun _ =>
        touches_flush.origin (by simp) (by simp)
      unfold handleStripeEvent
      split
      · exact (handleCheckoutCompleted_touches dataObject).origin (by simp) (by simp)
      · exact (handleSubscriptionUpdated_touches dataObject).origin (by simp) (by simp)
      · exact (handleSubscriptionDeleted_touches dataObject).origin (by simp) (by simp)
      · exact (handleInvoicePaid_touches dataObject).origin (by simp) (by simp)
      · exact handlePaymentFailed_origin dataObject
      · exact .pure _

theorem setMfaEnforcement_origin (tenant : Tenant) (actor : User) (enforce : Bool) :
    Handler.Within (Origin c bearers) (Router.setMfaEnforcement tenant actor enforce) :=
  .ite (.bind (.ensure _ _) fun _ => .bind (touches_tenants.origin (by simp) (by simp)) fun _ =>
    .bind (.query _) fun _ => deleteRefreshTokens_origin _) (touches_tenants.origin (by simp) (by simp))

theorem revokeOtherSessions_origin (userId : Uuid) (currentJti : Option Uuid) :
    Handler.Within (Origin c bearers) (revokeOtherSessions c userId currentJti) := fun s => by
  rw [Handler.final_of_ok (run_revokeOtherSessions userId currentJti)]
  refine Origin.trans (m := { s with cache := (othersRevoked c userId currentJti s).cache })
    (.blacklist fun jti hEntry => ?_) (.of_subset List.filter_sublist.subset rfl)
  rcases Expiring.entry_setAll _ hEntry with hIn | hOld
  · obtain ⟨x, hx, hJti⟩ := List.mem_map.mp hIn
    exact .inl (.inr ⟨x, (List.mem_filter.mp hx).1, hJti⟩)
  · exact .inl (.inl hOld)

theorem changePassword_origin (user : User) (current new : String) (jti : Option Uuid) :
    Handler.Within (Origin c bearers) (changePassword c user current new jti) :=
  .bind (.ensure _ _) fun _ => .bind (.ofExcept _) fun _ => .bind (.ensure _ _) fun _ =>
    .bind (touches_users.origin (by simp) (by simp)) fun _ =>
    .bind (revokeOtherSessions_origin _ _) fun _ => .pure _

theorem revokeSession_origin (user : User) (sessionId : String) (jti : Uuid) :
    Handler.Within (Origin c bearers) (revokeSession c user sessionId jti) :=
  .bind (.orRaise _ _) fun sessionUuid => fun s => by
    rw [Handler.final_query_bind, Handler.final_orRaise_bind]
    cases hFound : s.db.sessions.find? fun x => x.id = sessionUuid ∧ x.userId = user.id with
    | none => exact .refl s
    | some session =>
      rw [Option.elim_some, Handler.final_ensure_bind]
      split
      · refine Origin.trans (m := { s with cache := { s.cache with
          blacklist := s.cache.blacklist.set c.now session.accessTokenJti () c.accessTtl } })
          (.blacklist fun jti hEntry => ?_) (.of_subset List.filter_sublist.subset rfl)
        rcases Expiring.entry_set hEntry with rfl | hOld
        · exact .inl (.inr ⟨session, List.mem_of_find?_eq_some hFound, rfl⟩)
        · exact .inl (.inl hOld)
      · exact .refl s

theorem adminRefresh_origin (token : String) :
    Handler.Within (Origin c bearers) (adminRefresh c token) :=
  .bind (.query _) fun _ => .bind (.orRaise _ _) fun _ => .ite
    (.bind (deleteRefreshTokens_origin _) fun _ => .throw _)
    (.bind (deleteRefreshTokens_origin _) fun _ =>
      .bind (touches_addRefreshToken.origin (by simp) (by simp)) fun _ => .pure _)

theorem suspendTenant_origin (tenantId : Uuid) :
    Handler.Within (Origin c bearers) (suspendTenant c tenantId) :=
  .bind ((changeTenant_touches _ _ _ _).origin (by simp) (by simp)) fun _ => .bind (.query _)
    fun _ => revokeSessionsOf_origin _

theorem forcePasswordReset_origin (userId : Uuid) :
    Handler.Within (Origin c bearers) (forcePasswordReset c userId) :=
  .bind (.query _) fun _ => .bind (.orRaise _ _) fun _ =>
    .bind (touches_users.origin (by simp) (by simp)) fun _ =>
    .bind (revokeSessionsOf_origin _) fun _ => .bind (touches_flush.origin (by simp) (by simp))
    fun _ => (touches_enqueueJob _).origin (by simp) (by simp)

/-! ### Requests -/

theorem requireVerified_origin (token : Bearer) :
    Handler.Within (Origin c bearers) (requireVerified c token) :=
  (requireVerified_touches token).origin (by simp) (by simp)

theorem getCurrentJti_origin (token : Bearer) :
    Handler.Within (Origin c bearers) (getCurrentJti c token) := .bind (.ofExcept _) fun _ => .pure _

theorem asAdmin_origin {α : Type} (token : Bearer) {k : PUnit → App α}
    (hk : ∀ a, Handler.Within (Origin c bearers) (k a)) :
    Handler.Within (Origin c bearers) (discard (requireAdmin c token) >>= k) :=
  .bind (.bind ((requireAdmin_touches token).origin (by simp) (by simp)) fun _ => .pure _) hk

theorem handle_origin (r : Request) : Handler.Within (Origin c r.bearers) (handle c r) := by
  by_cases hQuiet : Part.sessions ∉ r.parts ∧ Part.blacklist ∉ r.parts
  · exact (handle_touches r).origin hQuiet.1 hQuiet.2
  · cases r with
    | login =>
      exact .bind (login_origin _ _ _ _ _) fun _ => .bind (.query _) fun _ =>
        (loginResponse_touches _ _).origin (by simp) (by simp)
    | mfaVerify => exact .bind (mfaVerify_origin _ _ _) fun _ => .pure _
    | refresh => exact .bind (refresh_origin _ _ _) fun _ => .pure _
    | logout refreshToken accessToken =>
      refine .bind (logout_origin refreshToken fun token hToken => ?_) fun _ => .pure _
      cases hToken
      exact List.mem_singleton.mpr rfl
    | resetPassword => exact .bind (resetPassword_origin _ _) fun _ => .pure _
    | oauthCallback =>
      exact .bind (.ensure _ _) fun _ => .bind (resolveOauthAccount_origin _ _ _ _ _) fun _ =>
        .pure _
    | oauthLinkConfirm => exact .bind (confirmOauthLink_origin _ _ _ _) fun _ => .pure _
    | changePassword =>
      exact .bind (requireVerified_origin _) fun _ => .bind (getCurrentJti_origin _) fun _ =>
        .bind (changePassword_origin _ _ _ _) fun _ => .pure _
    | revokeSession =>
      exact .bind (requireVerified_origin _) fun _ => .bind (getCurrentJti_origin _) fun _ =>
        .bind (revokeSession_origin _ _ _) fun _ => .pure _
    | revokeAllSessions =>
      exact .bind (requireVerified_origin _) fun _ => .bind (getCurrentJti_origin _) fun _ =>
        .bind (revokeOtherSessions_origin _ _) fun _ => .pure _
    | toggleMfaEnforcement =>
      exact .bind ((requireRole_touches _ _ _).origin (by simp) (by simp)) fun _ =>
        .bind (.query _) fun _ => .bind (.orRaise _ _) fun _ =>
        .bind (setMfaEnforcement_origin _ _ _) fun _ => .pure _
    | adminRefresh => exact .bind (adminRefresh_origin _) fun _ => .pure _
    | adminLogout token refreshToken =>
      refine asAdmin_origin _ fun _ => .ofExcept_bind fun payload hDecode => ?_
      obtain ⟨rfl, -, -⟩ := decodeFor_ok.mp hDecode
      exact .bind (.bind (deleteIfFound_origin _) fun _ =>
        blacklistJti_origin (List.mem_singleton.mpr rfl)) fun _ => .pure _
    | suspendTenant => exact asAdmin_origin _ fun _ => .bind (suspendTenant_origin _) fun _ => .pure _
    | forcePasswordReset =>
      exact asAdmin_origin _ fun _ => .bind (forcePasswordReset_origin _) fun _ => .pure _
    | stripeEvent => exact .bind (processStripeEvent_origin _ _ _) fun _ => .pure _
    | _ => simp [Request.parts] at hQuiet

/-! ### Runs -/

/-- The ids of the sessions and the known jtis were drawn by past requests. -/
structure Sys.Traced (s : Sys) : Prop where
  sessionId : ∀ x ∈ s.world.db.sessions, ∃ e ∈ s.log, e.draws.sessionId = x.id
  jti : ∀ jti, s.world.Knows jti → ∃ e ∈ s.log, e.draws.jti = jti

variable {cfg : Config} {s s' : Sys} {e : Event}

theorem Step.origin (h : Step cfg s e s') :
    Origin (e.ctx cfg) e.request.bearers s.world s'.world := by
  have hWithin : Handler.Within (Origin (e.ctx cfg) e.request.bearers)
      (transaction (e.ctx cfg) e.request) :=
    .bind (handle_origin e.request) fun _ => .bind (touches_flush.origin (by simp) (by simp))
      fun _ => .pure _
  have hStep := hWithin.atomically (fun _ _ => Origin.rollback) s.world
  rwa [show Handler.atomically _ s.world = _ from h.served] at hStep

theorem Step.traced (hs : s.Sound cfg) (h : Step cfg s e s') (hTraced : s.Traced) : s'.Traced where
  sessionId := by
    intro x hx
    rcases h.origin.sessionId x hx with ⟨y, hy, hSame⟩ | hDrawn
    · obtain ⟨e', he, hId⟩ := hTraced.sessionId y hy
      exact ⟨e', h.log_subset he, hId.trans hSame⟩
    · exact ⟨e, h.mem_log, hDrawn.symm⟩
  jti := by
    intro jti hKnows
    rcases h.origin.jti jti hKnows with hOld | rfl | ⟨p, hp, rfl⟩
    · obtain ⟨e', he, hJti⟩ := hTraced.jti jti hOld
      exact ⟨e', h.log_subset he, hJti⟩
    · exact ⟨e, h.mem_log, rfl⟩
    · obtain ⟨e', he, t, ht, rfl⟩ := Sys.mem_minted.mp (h.presented p hp)
      exact ⟨e', h.log_subset he, (hs.issued e' he t ht).2.1.symm⟩

/-- A deployment starts without sessions, as every session has a refresh token. -/
theorem Initial.sessions (h : Initial s) : s.world.db.sessions = [] := by
  refine List.eq_nil_iff_forall_not_mem.mpr fun x hx => ?_
  obtain ⟨r, hr, -⟩ := h.valid.sessionRefreshToken x hx
  rw [h.refreshTokens] at hr
  exact List.not_mem_nil hr

theorem Initial.traced (h : Initial s) : s.Traced where
  sessionId := by simp [h.sessions]
  jti := by
    rintro jti (hEntry | ⟨x, hx, -⟩)
    · exact absurd (by rw [h.cache]; rfl) hEntry
    · simp [h.sessions] at hx

theorem Reachable.traced (h : Reachable cfg s) : s.Traced := by
  obtain ⟨s₀, steps, hInit, hRun⟩ := h
  exact (hRun.invariant (I := fun m => m.Sound cfg ∧ m.Traced)
    (fun ⟨hm, hTraced⟩ hStep => ⟨hStep.sound hm, hStep.traced hm hTraced⟩)
    ⟨hInit.sound, hInit.traced⟩).2

/-- A jti that a step draws is new. -/
theorem Step.jti_fresh (h : Step cfg s e s') (hTraced : s.Traced) :
    ¬s.world.Knows e.draws.jti := fun hKnows => by
  obtain ⟨past, hPast, hSame⟩ := hTraced.jti _ hKnows
  exact (h.fresh past hPast).jti hSame

end WxcodeAdm
