import WxcodeAdm.System

/-! When an access token is refused.  A token stays refused for good exactly when its jti is
blacklisted up to its `exp` or its user has no standing: a user who is told to reset the password is
let in again once that is done. -/

namespace WxcodeAdm

open Lib

/-- From now on `get_current_user` refuses the token. -/
def Refused (cfg : Config) (p : Payload) (s : Sys) : Prop :=
  ∀ c : Ctx, c.toConfig = cfg → s.now ≤ c.now → (getCurrentUser c (.signed p)).Raises s.world

/-- From now on `require_admin` refuses the token. -/
def AdminRefused (cfg : Config) (p : Payload) (s : Sys) : Prop :=
  ∀ c : Ctx, c.toConfig = cfg → s.now ≤ c.now → (requireAdmin c (.signed p)).Raises s.world

/-- The jti of the token is blacklisted for as long as the token lives. -/
def Blacklisted (p : Payload) (s : Sys) : Prop :=
  s.world.cache.blacklist.Covers p.jti (seconds p.exp)

/-- The user of the token is inactive, or the token is an admin token of no super-admin. -/
def Outcast (p : Payload) (s : Sys) : Prop :=
  ∃ u, s.world.db.user p.sub = some u ∧
    (u.isActive = false ∨ p.aud = some "wxcode-adm-admin" ∧ u.isSuperuser = false)

/-- The user can be let in: active, and not told to reset the password. -/
def Db.LetsIn (db : Db) (userId : Uuid) : Prop :=
  ∃ u, db.user userId = some u ∧ u.isActive = true ∧ u.passwordResetRequired = false

variable {cfg : Config} {s s' : Sys} {e : Event} {p : Payload}

/-! ### What lasts -/

theorem Blacklisted.step (hs : s.Sound cfg) (hp : p ∈ s.minted) (hStep : Step cfg s e s')
    (h : Blacklisted p s) : Blacklisted p s' := by
  refine (hStep.evolves hs).blacklist _ _ ?_ h
  exact Nat.le_trans (hs.minted_exp hp) (Nat.add_le_add_right hStep.time _)

theorem Outcast.step (hs : s.Sound cfg) (hStep : Step cfg s e s') (h : Outcast p s) :
    Outcast p s' := by
  obtain ⟨u, hu, hOut⟩ := h
  obtain ⟨u', hu', hStanding⟩ := (hStep.evolves hs).users _ _ hu
  simp only [User.standing, Prod.mk.injEq] at hStanding
  exact ⟨u', hu', by rwa [hStanding.1, hStanding.2]⟩

theorem Step.minted_subset (hStep : Step cfg s e s') : s.minted ⊆ s'.minted := fun _ hp => by
  obtain ⟨e', he, h⟩ := Sys.mem_minted.mp hp
  exact Sys.mem_minted.mpr ⟨e', hStep.log_subset he, h⟩

/-- What keeps a token out keeps it out in every later state. -/
theorem barred_run {steps : List (Sys × Event)} (hs : s.Sound cfg) (hp : p ∈ s.minted)
    (h : Blacklisted p s ∨ Outcast p s) (hRun : Run (Step cfg) s steps s') :
    Blacklisted p s' ∨ Outcast p s' :=
  (hRun.invariant (I := fun m => m.Sound cfg ∧ p ∈ m.minted ∧ (Blacklisted p m ∨ Outcast p m))
    (fun ⟨hm, hp, h⟩ hStep => ⟨hStep.sound hm, hStep.minted_subset hp,
      h.imp (Blacklisted.step hm hp hStep) (Outcast.step hm hStep)⟩) ⟨hs, hp, h⟩).2.2

/-! ### What is refused -/

theorem refused_of_barred (h : Blacklisted p s ∨ Outcast p s) : Refused cfg p s := by
  rintro c rfl -
  rw [Handler.raises_iff]
  intro u m hRun
  obtain ⟨q, hq, hLive, hAud, hClear, hUser, hActive, -, -⟩ := getCurrentUser_ok.mp hRun
  obtain rfl := Bearer.signed.inj hq
  rcases h with h | ⟨v, hv, hOut⟩
  · simp [h _ hLive] at hClear
  · obtain rfl := Option.some.inj (hUser.symm.trans hv)
    simp [hAud, hActive] at hOut

theorem adminRefused_of_barred (h : Blacklisted p s ∨ Outcast p s) : AdminRefused cfg p s := by
  rintro c rfl -
  rw [Handler.raises_iff]
  intro u m hRun
  obtain ⟨q, hq, hLive, hAud, hClear, hUser, hActive, hSuper, -⟩ := requireAdmin_ok.mp hRun
  obtain rfl := Bearer.signed.inj hq
  rcases h with h | ⟨v, hv, hOut⟩
  · simp [h _ hLive] at hClear
  · obtain rfl := Option.some.inj (hUser.symm.trans hv)
    simp [hActive, hSuper] at hOut

theorem adminRefused_of_regular (hAud : p.aud = some "wxcode-adm") : AdminRefused cfg p s := by
  rintro c rfl -
  rw [Handler.raises_iff]
  intro u m hRun
  obtain ⟨q, hq, -, hAdmin, -⟩ := requireAdmin_ok.mp hRun
  obtain rfl := Bearer.signed.inj hq
  simp [hAud] at hAdmin

/-- A regular token that is still alive is refused from now on exactly when it is blacklisted up to
its `exp` or its user cannot be let in. -/
theorem refused_iff (hAud : p.aud = some "wxcode-adm") (hLive : s.now < seconds p.exp) :
    Refused cfg p s ↔ Blacklisted p s ∨ ¬s.world.db.LetsIn p.sub := by
  constructor
  · intro h
    by_contra hNot
    obtain ⟨hOpen, u, hUser, hActive, hReset⟩ : ¬Blacklisted p s ∧ s.world.db.LetsIn p.sub := by
      simpa [not_or] using hNot
    refine hOpen (Expiring.covers_of_from (fun t hNow ht => ?_) hLive)
    obtain ⟨error, m, hRun⟩ := h ⟨cfg, t, default⟩ rfl hNow
    by_contra hClear
    have hOk := (getCurrentUser_ok (c := ⟨cfg, t, default⟩)).mpr
      ⟨p, rfl, ht, hAud, by simpa using hClear, hUser, hActive, hReset, rfl⟩
    rw [hRun] at hOk
    cases hOk
  · rintro (h | h)
    · exact refused_of_barred (.inl h)
    · rintro c rfl -
      rw [Handler.raises_iff]
      intro u m hRun
      obtain ⟨q, hq, -, -, -, hUser, hActive, hReset, -⟩ := getCurrentUser_ok.mp hRun
      obtain rfl := Bearer.signed.inj hq
      exact h ⟨u, hUser, hActive, hReset⟩

/-- A token that is still alive, of a user who is not told to reset the password, is refused by both
guards exactly when something keeps it out for good. -/
theorem barred_iff {u : User} (hAud : p.aud = some "wxcode-adm" ∨ p.aud = some "wxcode-adm-admin")
    (hLive : s.now < seconds p.exp) (hUser : s.world.db.user p.sub = some u)
    (hReset : u.passwordResetRequired = false) :
    Refused cfg p s ∧ AdminRefused cfg p s ↔ Blacklisted p s ∨ Outcast p s := by
  refine ⟨fun ⟨hRefused, hAdmin⟩ => ?_, fun h =>
    ⟨refused_of_barred h, adminRefused_of_barred h⟩⟩
  by_contra hNot
  obtain ⟨hOpen, hIn⟩ := not_or.mp hNot
  have hActive : u.isActive = true := by
    by_contra hOff
    exact hIn ⟨u, hUser, .inl (by simpa using hOff)⟩
  rcases hAud with hAud | hAud
  · rcases (refused_iff hAud hLive).mp hRefused with h | h
    · exact hOpen h
    · exact h ⟨u, hUser, hActive, hReset⟩
  · have hSuper : u.isSuperuser = true := by
      by_contra hOff
      exact hIn ⟨u, hUser, .inr ⟨hAud, by simpa using hOff⟩⟩
    refine hOpen (Expiring.covers_of_from (fun t hNow ht => ?_) hLive)
    obtain ⟨error, m, hRun⟩ := hAdmin ⟨cfg, t, default⟩ rfl hNow
    by_contra hClear
    have hOk := (requireAdmin_ok (c := ⟨cfg, t, default⟩)).mpr
      ⟨p, rfl, ht, hAud, by simpa using hClear, hUser, hActive, hSuper, rfl⟩
    rw [hRun] at hOk
    cases hOk

/-! ### Refused for good -/

/-- Two more requests can draw values that no request has drawn yet. -/
def Sys.CanDraw (cfg : Config) (s : Sys) : Prop :=
  ∃ d d' : Draws, (∀ past ∈ s.log, past.draws.Apart cfg d) ∧
    (∀ past ∈ s.log, past.draws.Apart cfg d') ∧ d.Apart cfg d'

/-- A user who is told to reset the password can do so at once. -/
theorem reset_reaches {userId : Uuid} {u : User} (hs : s.Sound cfg) (hDraw : s.CanDraw cfg)
    (hUser : s.world.db.user userId = some u) :
    ∃ steps s', Run (Step cfg) s steps s' ∧ s'.now = s.now ∧
      s'.world.cache.blacklist = s.world.cache.blacklist ∧
      ∃ v, s'.world.db.user userId = some v ∧ v.standing = u.standing ∧
        v.passwordResetRequired = false := by
  obtain ⟨d, d', hFresh, hFresh', hApart⟩ := hDraw
  have hMem := Db.user_mem hUser
  have hEmail := hs.valid.userByEmail_of_mem hMem
  have hText : Char.ofNat 0 ∉ u.email.toList := (hs.valid.userAddress u hMem).2
  obtain rfl := Db.user_id hUser
  let c : Ctx := ⟨cfg, s.now, d⟩
  let c' : Ctx := ⟨cfg, s.now, d'⟩
  let token := generateResetToken c u.email (resetSalt c u)
  let asked : World := { s.world with cache := { s.world.cache with
    jobs := s.world.cache.jobs ++ [.sendResetEmail u.id u.email token] } }
  let done : World := { asked with db := (s.world.db.updateUser u.id fun u => { u with
    passwordHash := some (hashPassword c' "")
    passwordResetRequired := false }).deleteRefreshTokens fun r => r.userId = u.id }
  have hAsk : (handle c (.forgotPassword u.email)).run s.world = .ok .done asked :=
    Handler.run_bind_ok.mpr ⟨(), asked, run_forgotPassword hEmail, rfl⟩
  have hReset : (handle c' (.resetPassword token "")).run asked = .ok .done done :=
    Handler.run_bind_ok.mpr ⟨(), done, run_resetPassword (s := asked) hText hEmail, rfl⟩
  have hDone : done.db.Valid := by
    refine Db.Valid.deleteRefreshTokens (Db.Valid.updateUser hs.valid ?_ ?_ ?_ ?_) _
    all_goals exact fun _ => rfl
  have hFirst := Step.of_run (Nat.le_refl s.now) hFresh (by simp [Request.bearers])
    (by trivial) hAsk hs.valid
  have hFreshThen : ∀ past ∈ s.log ++ [⟨s.now, d, .forgotPassword u.email, .ok .done⟩],
      past.draws.Apart cfg d' := by
    intro past hPast
    rcases List.mem_append.mp hPast with hPast | hPast
    · exact hFresh' past hPast
    · exact List.mem_singleton.mp hPast ▸ hApart
  have hSent : (Request.resetPassword token "").Genuine asked.cache.jobs := fun _ =>
    ⟨u.id, u.email, List.mem_append_right _ (List.mem_singleton_self _)⟩
  have hSecond := Step.of_run (s := ⟨asked, s.now, _⟩) (Nat.le_refl s.now) hFreshThen
    (by simp [Request.bearers]) hSent hReset hDone
  have hUser' : done.db.user u.id = some { u with
      passwordHash := some (hashPassword c' ""), passwordResetRequired := false } :=
    Db.user_updateUser_same (by exact fun _ => rfl) hUser
  exact ⟨_, _, .cons hFirst (.single hSecond), rfl, rfl, _, hUser', rfl, rfl⟩

/-- A token that is still alive is refused by both guards in every later state exactly when
something keeps it out for good. -/
theorem refused_for_good_iff (hs : s.Sound cfg) (hDraw : s.CanDraw cfg) (hp : p ∈ s.minted)
    (hLive : s.now < seconds p.exp) :
    (∀ steps s', Run (Step cfg) s steps s' → Refused cfg p s' ∧ AdminRefused cfg p s') ↔
      Blacklisted p s ∨ Outcast p s := by
  constructor
  · intro hRefused
    obtain ⟨u, hUser⟩ := hs.minted_user hp
    obtain ⟨steps, s', hRun, hNow, hBlack, v, hUser', hStanding, hReset⟩ :=
      reset_reaches hs hDraw hUser
    have hBarred : Blacklisted p s' ∨ Outcast p s' :=
      (barred_iff (hs.minted_audience hp) (hNow ▸ hLive) hUser' hReset).mp (hRefused steps s' hRun)
    simp only [User.standing, Prod.mk.injEq] at hStanding
    rcases hBarred with h | ⟨w, hw, hOut⟩
    · exact .inl (by rwa [Blacklisted, hBlack] at h)
    · obtain rfl := Option.some.inj (hUser'.symm.trans hw)
      exact .inr ⟨u, hUser, by rwa [← hStanding.1, ← hStanding.2]⟩
  · intro h steps s' hRun
    have hBarred := barred_run hs hp h hRun
    exact ⟨refused_of_barred hBarred, adminRefused_of_barred hBarred⟩

end WxcodeAdm
