import WxcodeAdm.Guarantees.Refusal

/-! What a password reset takes away.  The refresh tokens of the user are gone for good.  The access
tokens are blacklisted by nobody, and nobody calls `revoke_trusted_devices`, after a reset or after
the revocation of all sessions. -/

namespace WxcodeAdm

open Lib

def Request.distrusts (db : Db) : Request → Option Uuid
  | .resetPassword token _ =>
    match resetTokenEmail token with
    | .ok email => (db.userByEmail email).map fun u => u.id
    | .error _ => none
  | .revokeAllSessions (.signed p) => some p.sub
  | _ => none

def Request.resetsPassword : Request → Bool
  | .resetPassword .. => true
  | _ => false

variable {cfg : Config} {c : Ctx} {s s' s'' : Sys} {e : Event} {w w' : World} {userId : Uuid}

/-! ### The requests -/

theorem distrusts_devices {r : Request} {response : Response}
    (hUser : r.distrusts w.db = some userId) (hRun : (handle c r).run w = .ok response w') :
    w'.db.trustedDevices = w.db.trustedDevices := by
  cases r with
  | resetPassword token newPassword =>
    obtain ⟨⟨⟩, m, hReset, hPure⟩ := Handler.run_bind_ok.mp hRun
    obtain ⟨-, rfl⟩ := Handler.run_pure_ok.mp hPure
    obtain ⟨email, user, _, -, -, -, rfl⟩ := resetPassword_ok hReset
    rfl
  | revokeAllSessions token =>
    obtain ⟨user, m, hSignedIn, hRest⟩ := Handler.run_bind_ok.mp hRun
    obtain ⟨p, rfl, -, hRest, hDb, -⟩ := run_signedIn hSignedIn hRest
    obtain ⟨count, m', hRevoke, hPure⟩ := Handler.run_bind_ok.mp hRest
    obtain ⟨-, rfl⟩ := Handler.run_pure_ok.mp hPure
    rw [revokeAllOtherSessions, run_revokeOtherSessions] at hRevoke
    obtain ⟨-, rfl⟩ := Outcome.ok.inj hRevoke
    exact congrArg (fun db => db.trustedDevices) hDb
  | _ => cases hUser

/-- What a committed reset leaves of its user: no refresh token, Redis as it was, and a row that is
as active as before and not told to reset the password. -/
theorem reset_effect {r : Request} {response : Response} (hValid : w.db.Valid)
    (hResets : r.resetsPassword = true)
    (hUser : r.distrusts w.db = some userId) (hRun : (handle c r).run w = .ok response w') :
    w'.cache = w.cache ∧ (∀ row ∈ w'.db.refreshTokens, row.userId ≠ userId) ∧
      ∃ u, w.db.user userId = some u ∧
        ∃ u', w'.db.user userId = some u' ∧ u'.isActive = u.isActive ∧
          u'.passwordResetRequired = false := by
  cases r with
  | resetPassword token newPassword =>
    obtain ⟨⟨⟩, m, hReset, hPure⟩ := Handler.run_bind_ok.mp hRun
    obtain ⟨-, rfl⟩ := Handler.run_pure_ok.mp hPure
    obtain ⟨email, user, _, hEmail, hFound, -, rfl⟩ := resetPassword_ok hReset
    obtain rfl : user.id = userId := by simpa [Request.distrusts, hEmail, hFound] using hUser
    have hRow := hValid.user_of_mem (List.mem_of_find?_eq_some hFound)
    refine ⟨rfl, fun row hRow => by simpa using (List.mem_filter.mp hRow).2, user, hRow, ?_⟩
    exact ⟨_, Db.user_updateUser_same (by exact fun _ => rfl) hRow, rfl, rfl⟩
  | _ => cases hResets

/-! ### Old values -/

/-- A row that carries a value drawn by a past request was there already: rows that come in carry
the values of the request that makes them, and those are new. -/
theorem old_of_run {α : Type} (rows : Db → List α) (carries : Event → α → Prop)
    {steps : List (Sys × Event)}
    (hGrows : ∀ {m e m'}, m.Sound cfg → Step cfg m e m' →
      Grows (carries e) (rows m.world.db) (rows m'.world.db))
    (hApart : ∀ {past e : Event} {a}, past.draws.Apart cfg e.draws → carries e a → ¬carries past a)
    (hs : s.Sound cfg) (hRun : Run (Step cfg) s steps s') :
    ∀ a ∈ rows s'.world.db, (∃ past ∈ s.log, carries past a) → a ∈ rows s.world.db := by
  refine (hRun.invariant (I := fun m => m.Sound cfg ∧ s.log ⊆ m.log ∧ ∀ a ∈ rows m.world.db,
    (∃ past ∈ s.log, carries past a) → a ∈ rows s.world.db) ?_
    ⟨hs, List.Subset.refl _, fun _ ha _ => ha⟩).2.2
  rintro m e m' ⟨hm, hLog, hOld⟩ hStep
  refine ⟨hStep.sound hm, List.Subset.trans hLog hStep.log_subset, fun a ha hPast => ?_⟩
  rcases hGrows hm hStep a ha with ha | hNew
  · exact hOld a ha hPast
  · obtain ⟨past, hPast, hCarries⟩ := hPast
    exact absurd hCarries (hApart (hStep.fresh past (hLog hPast)) hNew)

theorem refresh_raises {token : String} {ua ip : Option String}
    (h : w.db.refreshToken token = none) : (refresh c token ua ip).Raises w := by
  rw [Handler.raises_iff]
  intro t m hRun
  obtain ⟨row, hRow, -⟩ := refresh_ok hRun
  rw [h] at hRow
  cases hRow

/-! ### Trusted devices -/

/-- The user has an unexpired trusted device with this token. -/
def Trusts (cfg : Config) (now : Nat) (userId : Uuid) (deviceToken : String) (db : Db) : Prop :=
  deviceToken ≠ "" ∧ ∃ d ∈ db.trustedDevices, d.userId = userId ∧
    d.tokenHash = cfg.lib.sha256 deviceToken ∧ now ≤ d.expiresAt

theorem isDeviceTrusted_iff {deviceToken : String} (hValid : w.db.Valid) :
    (∃ m, (isDeviceTrusted c userId deviceToken).run w = .ok true m) ↔
      Trusts c.toConfig c.now userId deviceToken w.db := by
  unfold isDeviceTrusted Trusts
  by_cases hEmpty : deviceToken = ""
  · simp [hEmpty]
  · simp only [hEmpty, if_false, Handler.run_query_bind, ne_eq, not_false_eq_true, true_and]
    cases hFound : trustedDevice c userId deviceToken w.db with
    | none =>
      have hNone : ∀ d ∈ w.db.trustedDevices, ¬(d.userId = userId ∧
          d.tokenHash = c.lib.sha256 deviceToken) := by
        simpa [trustedDevice, List.find?_eq_none] using hFound
      refine iff_of_false (by simp) ?_
      rintro ⟨d, hd, hUser, hHash, -⟩
      exact hNone d hd ⟨hUser, hHash⟩
    | some row =>
      have hMem : row ∈ w.db.trustedDevices := List.mem_of_find?_eq_some hFound
      obtain ⟨hUser, hHash⟩ : row.userId = userId ∧ row.tokenHash = c.lib.sha256 deviceToken := by
        simpa [trustedDevice] using List.find?_some hFound
      by_cases hExpired : row.expiresAt < c.now
      · refine iff_of_false ?_ ?_
        · rintro ⟨m, h⟩
          simp only [hExpired, if_true, Handler.run_exec_bind, Handler.run_pure_ok] at h
          exact Bool.false_ne_true h.1
        · rintro ⟨d, hd, -, hSame, hLive⟩
          obtain rfl := List.inj_on_of_nodup_map hValid.deviceTokenHash hd hMem
            (hSame.trans hHash.symm)
          exact Nat.not_le.mpr hExpired hLive
      · refine iff_of_true ⟨w, by simp [hExpired]⟩ ⟨row, hMem, hUser, hHash, Nat.not_lt.mp hExpired⟩

/-! ### What is to end -/

/-- From the state on, `refresh` refuses every refresh token issued to the user in the log. -/
def EndsRefresh (cfg : Config) (log : List Event) (userId : Uuid) (s : Sys) : Prop :=
  ∀ past ∈ log, ∀ t, past.issued = some t → t.accessToken.sub = userId →
    ∀ steps s', Run (Step cfg) s steps s' → ∀ c : Ctx, ∀ ua ip,
      (refresh c t.refreshToken ua ip).Raises s'.world

/-- From the state on, `get_current_user` refuses every access token of the user in the list. -/
def EndsAccess (cfg : Config) (minted : List Payload) (userId : Uuid) (s : Sys) : Prop :=
  ∀ q ∈ minted, q.sub = userId → q.aud = some "wxcode-adm" → s.now < seconds q.exp →
    ∀ steps s', Run (Step cfg) s steps s' → Refused cfg q s'

/-- From the state on, no device token drawn in the log makes `is_device_trusted` let a login of the
user skip the second factor. -/
def EndsDevices (cfg : Config) (log : List Event) (userId : Uuid) (s : Sys) : Prop :=
  ∀ past ∈ log, ∀ steps s', Run (Step cfg) s steps s' → ∀ c : Ctx, c.toConfig = cfg →
    s'.now ≤ c.now → ¬∃ m, (isDeviceTrusted c userId past.draws.deviceToken).run s'.world = .ok true m

theorem reset_ends_refresh (hs : s.Sound cfg) (hStep : Step cfg s e s')
    (hNone : ∀ row ∈ s'.world.db.refreshTokens, row.userId ≠ userId) :
    EndsRefresh cfg s.log userId s' := by
  intro past hPast t hIssued hSub steps s'' hRun c ua ip
  have hToken := (hs.issued past hPast t hIssued).1
  refine refresh_raises (List.find?_eq_none.mpr fun row hRow => ?_)
  simp only [decide_eq_true_eq]
  intro hSame
  have hs' := hStep.sound hs
  have hPast' := hStep.log_subset hPast
  have hOld := old_of_run (fun db => db.refreshTokens)
    (fun e row => row.token = e.draws.refreshToken)
    (fun hm hStep => ((hStep.evolves hm).refreshTokens.mono fun _ h => h.2))
    (fun hApart hNew hPast => hApart.refreshToken (hPast.symm.trans hNew)) hs' hRun row hRow
    ⟨past, hPast', hSame.trans hToken⟩
  obtain ⟨e', he', t', hIssued', rfl⟩ := hs'.rows row hOld
  obtain rfl := hs'.event_eq hPast' he' (hToken.symm.trans hSame.symm)
  obtain rfl := Option.some.inj (hIssued.symm.trans hIssued')
  exact hNone _ hOld hSub

theorem reset_ends_access_iff (hs : s.Sound cfg) (hStep : Step cfg s e s') {u u' : User}
    (hCache : s'.world.cache = s.world.cache) (hUser : s.world.db.user userId = some u)
    (hUser' : s'.world.db.user userId = some u') (hActive : u'.isActive = u.isActive)
    (hReset : u'.passwordResetRequired = false) :
    EndsAccess cfg s.minted userId s' ↔ ∀ q ∈ s.minted, q.sub = userId →
      q.aud = some "wxcode-adm" → e.now < seconds q.exp → Blacklisted q s ∨ Outcast q s := by
  rw [EndsAccess, hStep.clock]
  refine forall₂_congr fun q hq => forall₃_congr fun hSub hAud hLive => ?_
  subst hSub
  constructor
  · intro hRefused
    rcases (refused_iff hAud (hStep.clock ▸ hLive)).mp (hRefused [] s' .nil) with h | h
    · exact .inl (by rwa [Blacklisted, hCache] at h)
    · refine .inr ⟨u, hUser, .inl (Bool.eq_false_iff.mpr fun hOn => h ?_)⟩
      exact ⟨u', hUser', hActive.trans hOn, hReset⟩
  · intro h steps s'' hRun
    exact refused_of_barred (barred_run hs hq h (.cons hStep hRun))

theorem ends_devices_iff (hs : s.Sound cfg) (hStep : Step cfg s e s')
    (hDevices : s'.world.db.trustedDevices = s.world.db.trustedDevices) :
    EndsDevices cfg s.log userId s' ↔
      ∀ past ∈ s.log, ¬Trusts cfg e.now userId past.draws.deviceToken s.world.db := by
  refine forall₂_congr fun past hPast => ?_
  constructor
  · rintro hEnds ⟨hNonempty, hTrusted⟩
    refine hEnds [] s' .nil (e.ctx cfg) rfl (Nat.le_of_eq hStep.clock) ?_
    exact (isDeviceTrusted_iff (hStep.sound hs).valid).mpr ⟨hNonempty, hDevices ▸ hTrusted⟩
  · rintro hNot steps s'' hRun c rfl hNow hTrusted
    have hLater := hRun.invariant (fun hs hStep => hStep.sound hs) (hStep.sound hs)
    obtain ⟨hNonempty, d, hd, hUser, hHash, hLive⟩ := (isDeviceTrusted_iff hLater.valid).mp hTrusted
    have hOld := old_of_run (fun db => db.trustedDevices)
      (fun e d => d.tokenHash = c.lib.sha256 e.draws.deviceToken)
      (fun hm hStep => (hStep.evolves hm).trustedDevices)
      (fun hApart hNew hPast => hApart.deviceTokenHash (hPast.symm.trans hNew)) (hStep.sound hs) hRun
      d hd ⟨past, hStep.log_subset hPast, hHash⟩
    have hBefore : e.now ≤ c.now := by
      have hMono := Run.invariant (I := fun m => s'.now ≤ m.now)
        (fun hm hStep => Nat.le_trans hm (Nat.le_trans hStep.time (Nat.le_of_eq hStep.clock.symm)))
        (Nat.le_refl _) hRun
      exact Nat.le_trans (Nat.le_of_eq hStep.clock.symm) (Nat.le_trans hMono hNow)
    exact hNot ⟨hNonempty, d, hDevices ▸ hOld, hUser, hHash, Nat.le_trans hBefore hLive⟩

/-- A committed reset ends every refresh token of the user.  It ends the access tokens exactly when
those still alive were blacklisted before or the user is inactive; and it, or the revocation of all
other sessions, ends the trusted devices exactly when none was trusted any more. -/
theorem reset_ends_trust_iff {response : Response} (hReach : Reachable cfg s)
    (hStep : Step cfg s e s') (hUser : e.request.distrusts s.world.db = some userId)
    (hOk : e.outcome = .ok response) :
    (EndsDevices cfg s.log userId s' ↔
        ∀ past ∈ s.log, ¬Trusts cfg e.now userId past.draws.deviceToken s.world.db) ∧
      (e.request.resetsPassword = true → EndsRefresh cfg s.log userId s' ∧
        (EndsAccess cfg s.minted userId s' ↔ ∀ q ∈ s.minted, q.sub = userId →
          q.aud = some "wxcode-adm" → e.now < seconds q.exp → Blacklisted q s ∨ Outcast q s)) := by
  have hs := hReach.sound
  have hRun := (hStep.committed hOk).1
  refine ⟨ends_devices_iff hs hStep (distrusts_devices hUser hRun), fun hResets => ?_⟩
  obtain ⟨hCache, hNone, u, hu, u', hu', hActive, hReset⟩ :=
    reset_effect hs.valid hResets hUser hRun
  exact ⟨reset_ends_refresh hs hStep hNone,
    reset_ends_access_iff hs hStep hCache hu hu' hActive hReset⟩

/-! ### A reset -/

/-- The enrolled user signs in with a code and trusts the device, and asks for a reset. -/
def deviceTrusted : Event × Sys :=
  (enrolledStart.sample (seconds 40) (.login "alice@example.com" "pw" none none none)).2.sample
    (seconds 40) (.mfaVerify ⟨"mfa-0", "100002", true, by decide⟩ none none)

def resetSent : Event × Sys :=
  deviceTrusted.2.sample (seconds 50) (.forgotPassword "alice@example.com")

def sentToken : TimedToken Json :=
  { payload := some (.str "alice@example.com"), signature := some ("salt$pw", 50) }

def resetDone : Event × Sys :=
  resetSent.2.sample (seconds 60) (.resetPassword sentToken "new")

theorem resetSent_reachable : Reachable sampleConfig resetSent.2 :=
  (((enrolledStart_initial.reachable.sample (by decide) (by trivial)).2.sample
    (by decide) (by trivial)).2.sample (by decide) (by trivial)).2

theorem resetDone_step : Step sampleConfig resetSent.2 resetDone.1 resetDone.2 :=
  (resetSent_reachable.sample (by decide)
    (by exact fun _ => ⟨⟨1⟩, "alice@example.com", .head _⟩)).1

/-- After the reset the device still lets a login skip the second factor. -/
theorem reset_leaves_device :
    ¬∀ (cfg : Config) (s s' : Sys) (e : Event) (userId : Uuid) (response : Response),
      Reachable cfg s → Step cfg s e s' → e.request.resetsPassword = true →
      e.request.distrusts s.world.db = some userId → e.outcome = .ok response →
      EndsRefresh cfg s.log userId s' ∧ EndsAccess cfg s.minted userId s' ∧
        EndsDevices cfg s.log userId s' := by
  intro hClaim
  obtain ⟨-, -, hDevices⟩ := hClaim sampleConfig resetSent.2 resetDone.2 resetDone.1 ⟨1⟩ .done
    resetSent_reachable resetDone_step rfl rfl rfl
  have hVerified : deviceTrusted.1 ∈ resetSent.2.log := .tail _ (.head _)
  exact hDevices _ hVerified [] resetDone.2 .nil ⟨sampleConfig, seconds 70, sampleDraws 4⟩ rfl
    (by decide) ⟨resetDone.2.world, rfl⟩

/-- The login with the new password and the old device returns tokens. -/
example : ((resetDone.2.sample (seconds 70) (.login "alice@example.com" "new" (some "device-1") none
    none)).1.issued.map fun t => t.refreshToken) = some "refresh-4" := by
  rfl

/-- The law at that reset. -/
theorem reset_ends_trust_iff_resetDone :
    (EndsDevices sampleConfig resetSent.2.log ⟨1⟩ resetDone.2 ↔
        ∀ past ∈ resetSent.2.log,
          ¬Trusts sampleConfig (seconds 60) ⟨1⟩ past.draws.deviceToken resetSent.2.world.db) ∧
      EndsRefresh sampleConfig resetSent.2.log ⟨1⟩ resetDone.2 ∧
        (EndsAccess sampleConfig resetSent.2.minted ⟨1⟩ resetDone.2 ↔
          ∀ q ∈ resetSent.2.minted, q.sub = ⟨1⟩ → q.aud = some "wxcode-adm" →
            seconds 60 < seconds q.exp → Blacklisted q resetSent.2 ∨ Outcast q resetSent.2) := by
  have hOk : resetDone.1.outcome = .ok .done := rfl
  obtain ⟨hDevices, hTokens⟩ :=
    reset_ends_trust_iff resetSent_reachable resetDone_step rfl hOk
  exact ⟨hDevices, hTokens rfl⟩

end WxcodeAdm
