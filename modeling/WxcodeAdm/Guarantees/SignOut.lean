import WxcodeAdm.Guarantees.Refusal

/-! Two ways of signing out that leave the user signed in.  `logout` blacklists nothing, because
`blacklist_access_token` decodes without an audience and every token names one.  A detected replay
deletes the refresh tokens of the user and raises, and the exception rolls the deletion back. -/

namespace WxcodeAdm

open Lib

variable {cfg : Config} {c : Ctx} {s s' : Sys} {e : Event} {p : Payload}

/-! ### Logout -/

theorem deleteIfFound_keeps {w w' : World} {token : String}
    (h : (deleteIfFound token).run w = .ok () w') :
    w'.cache = w.cache ∧ w'.db.users = w.db.users := by
  simp only [deleteIfFound, Handler.run_query_bind] at h
  split at h
  · simp only [Handler.run_exec, Outcome.ok.injEq, true_and] at h
    subst h
    exact ⟨rfl, rfl⟩
  · obtain ⟨-, rfl⟩ := Handler.run_pure_ok.mp h
    exact ⟨rfl, rfl⟩

/-- A logout touches neither the blacklist nor the user. -/
theorem logout_keeps {w w' : World} {token a : String} (hAud : p.aud = some a) (hne : a ≠ "")
    (h : (logout c token (some (.signed p))).run w = .ok () w') :
    w'.cache = w.cache ∧ w'.db.users = w.db.users := by
  obtain ⟨⟨⟩, m, hDelete, h⟩ := Handler.run_bind_ok.mp h
  simp only [blacklistAccessToken_of_aud hAud hne, Handler.run_pure_ok, true_and] at h
  subst h
  exact deleteIfFound_keeps hDelete

/-- After a logout the access token is refused in every later state exactly when it was kept out
before: when it was blacklisted up to its `exp`, or its user was inactive. -/
theorem logout_refuses_iff {token : String} {response : Response} (hReach : Reachable cfg s)
    (hStep : Step cfg s e s') (hRequest : e.request = .logout token (some (.signed p)))
    (hOk : e.outcome = .ok response) (hAud : p.aud = some "wxcode-adm")
    (hLive : e.now < seconds p.exp) (hDraw : s'.CanDraw cfg) :
    (∀ steps s'', Run (Step cfg) s' steps s'' → Refused cfg p s'') ↔
      Blacklisted p s ∨ Outcast p s := by
  have hMinted : p ∈ s.minted := hStep.presented p (by simp [hRequest, Request.bearers])
  have hGood := refused_for_good_iff (hStep.sound hReach.sound) hDraw
    (hStep.minted_subset hMinted) (hStep.clock ▸ hLive)
  simp only [adminRefused_of_regular hAud, and_true] at hGood
  rw [hGood]
  have hRun := (hStep.committed hOk).1
  rw [hRequest] at hRun
  obtain ⟨⟨⟩, m, hRun, hPure⟩ := Handler.run_bind_ok.mp hRun
  obtain ⟨-, rfl⟩ := Handler.run_pure_ok.mp hPure
  obtain ⟨hCache, hUsers⟩ := logout_keeps hAud (by decide) hRun
  simp only [Blacklisted, Outcast, Db.user, hCache, hUsers]

def loggedOut : Event × Sys :=
  signedIn.sample (seconds 20) (.logout "refresh-0" (some (.signed signedInToken)))

theorem loggedOut_step : Step sampleConfig signedIn loggedOut.1 loggedOut.2 :=
  (signedIn_reachable.sample (by decide) (by trivial)).1

/-- A logout that returns and leaves the access token accepted. -/
theorem logout_leaves_token :
    ¬∀ (cfg : Config) (s s' : Sys) (e : Event) (p : Payload) (token : String)
      (response : Response), Reachable cfg s → Step cfg s e s' →
      e.request = .logout token (some (.signed p)) → e.outcome = .ok response →
      p.aud = some "wxcode-adm" → e.now < seconds p.exp →
      ∀ steps s'', Run (Step cfg) s' steps s'' → Refused cfg p s'' := by
  intro hClaim
  have hRefused := hClaim sampleConfig signedIn loggedOut.2 loggedOut.1 signedInToken "refresh-0"
    .done signedIn_reachable loggedOut_step rfl rfl rfl (by decide) [] loggedOut.2 .nil
  obtain ⟨error, m, hRun⟩ := hRefused ⟨sampleConfig, seconds 20, sampleDraws 2⟩ rfl (by decide)
  cases hRun

/-- The law at that logout. -/
theorem logout_refuses_iff_signedIn :
    (∀ steps s'', Run (Step sampleConfig) loggedOut.2 steps s'' →
        Refused sampleConfig signedInToken s'') ↔
      Blacklisted signedInToken signedIn ∨ Outcast signedInToken signedIn := by
  have hOk : loggedOut.1.outcome = .ok .done := rfl
  exact logout_refuses_iff signedIn_reachable loggedOut_step rfl hOk rfl (by decide)
    ⟨sampleDraws 2, sampleDraws 3, by decide, by decide, by decide⟩

/-! ### Replay -/

def Db.HasRefreshToken (db : Db) (userId : Uuid) : Prop := ∃ r ∈ db.refreshTokens, r.userId = userId

/-- A consumed token whose shadow key is alive: the deletion runs and the exception follows. -/
theorem run_refresh_replay {w : World} {token : String} {userId : Uuid} {ua ip : Option String}
    (hRow : w.db.refreshToken token = none)
    (hShadow : w.cache.replay.get c.now (shadowKey c token) = some userId) :
    (refresh c token ua ip).run w = .error .replayDetected
      { w with db := w.db.deleteRefreshTokens fun r => r.userId = userId } := by
  have hCheck : (checkReplayAndLogout c token).run w = .error .replayDetected
      { w with db := w.db.deleteRefreshTokens fun r => r.userId = userId } := by
    simp only [checkReplayAndLogout, Handler.run_lookup_bind, hShadow]
    rfl
  simp only [refresh, Handler.run_query_bind, hRow]
  rw [Handler.run_bind, hCheck]

/-- After `ReplayDetectedError` the user has no refresh token left exactly when there was none
before the request: the rollback takes the deletion back. -/
theorem replay_signs_out_iff (w : World) (token : String) (userId : Uuid) (ua ip : Option String)
    (hRow : w.db.refreshToken token = none)
    (hShadow : w.cache.replay.get c.now (shadowKey c token) = some userId) :
    (serve c (.refresh token ua ip) w).1 = .error .replayDetected ∧
      (¬(serve c (.refresh token ua ip) w).2.db.HasRefreshToken userId ↔
        ¬w.db.HasRefreshToken userId) := by
  have hServe : serve c (.refresh token ua ip) w = (.error .replayDetected, w) := by
    refine Handler.atomically_error.mpr
      ⟨{ w with db := w.db.deleteRefreshTokens fun r => r.userId = userId }, ?_, rfl⟩
    simp only [transaction, handle]
    rw [Handler.run_bind, Handler.run_bind, run_refresh_replay hRow hShadow]
  rw [hServe]
  exact ⟨rfl, Iff.rfl⟩

/-- The consumed token is presented again: the request answers that every session is revoked, and
the token that replaced it stays. -/
theorem replay_leaves_tokens :
    ¬∀ (cfg : Config) (s s' : Sys) (e : Event) (token : String) (userId : Uuid)
      (ua ip : Option String), Reachable cfg s → Step cfg s e s' →
      e.request = .refresh token ua ip → s.world.db.refreshToken token = none →
      s.world.cache.replay.get e.now (cfg.lib.sha256 token) = some userId →
      e.outcome = .error .replayDetected → ¬s'.world.db.HasRefreshToken userId := by
  intro hClaim
  let replay := refreshedOnce.sample (seconds 30) (.refresh "refresh-0" none none)
  have hStep : Step sampleConfig refreshedOnce replay.1 replay.2 :=
    (refreshedOnce_reachable.sample (by decide) (by trivial)).1
  refine hClaim sampleConfig refreshedOnce replay.2 replay.1 "refresh-0" ⟨1⟩ none none
    refreshedOnce_reachable hStep rfl rfl rfl rfl ?_
  exact ⟨newRefreshToken ⟨sampleConfig, seconds 20, sampleDraws 1⟩ ⟨1⟩, by decide⟩

/-- The law at that replay. -/
theorem replay_signs_out_iff_refreshedOnce :
    let c : Ctx := ⟨sampleConfig, seconds 30, sampleDraws 2⟩
    let replay := serve c (.refresh "refresh-0" none none) refreshedOnce.world
    replay.1 = .error .replayDetected ∧
      (¬replay.2.db.HasRefreshToken ⟨1⟩ ↔ ¬refreshedOnce.world.db.HasRefreshToken ⟨1⟩) :=
  replay_signs_out_iff refreshedOnce.world "refresh-0" ⟨1⟩ none none rfl rfl

end WxcodeAdm
