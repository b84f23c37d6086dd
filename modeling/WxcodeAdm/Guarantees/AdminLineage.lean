import WxcodeAdm.System

/-! Where admin tokens come from.  An admin login needs a super-admin and passes the IP gate, but
`admin_refresh` takes any live refresh token, and a row does not say which side issued it. -/

namespace WxcodeAdm

open Lib

/-- The events of a run that issue tokens by an admin login of a super-admin through the IP gate, or
by a chain of `admin_refresh` rotations from one. -/
inductive AdminIssue (cfg : Config) (steps : List (Sys × Event)) : Event → Prop
  | login {s : Sys} {e : Event} {email password : String} {clientIp : Option String} {user : User} :
      (s, e) ∈ steps → e.request = .adminLogin email password clientIp →
      ipAllowed (e.ctx cfg) clientIp = true → s.world.db.userByEmail email = some user →
      user.isSuperuser = true → AdminIssue cfg steps e
  | refresh {s : Sys} {e past : Event} {t : TokenResponse} :
      (s, e) ∈ steps → past ∈ s.log → past.issued = some t →
      e.request = .adminRefresh t.refreshToken → AdminIssue cfg steps past →
      AdminIssue cfg steps e

/-- The step presents to `admin_refresh` a live refresh token that was issued with a regular access
token. -/
def ExchangesRegular (s : Sys) (e : Event) : Prop :=
  ∃ past ∈ s.log, ∃ t row, past.issued = some t ∧ t.accessToken.aud ≠ some "wxcode-adm-admin" ∧
    e.request = .adminRefresh t.refreshToken ∧
    s.world.db.refreshToken t.refreshToken = some row ∧ ¬row.expiresAt < e.now

variable {cfg : Config} {s s' : Sys} {e : Event} {t : TokenResponse}
  {steps : List (Sys × Event)}

namespace AdminIssue

theorem mono {more : List (Sys × Event)} (hSub : steps ⊆ more) (h : AdminIssue cfg steps e) :
    AdminIssue cfg more e := by
  induction h with
  | login hMem hRequest hIp hUser hSuper => exact .login (hSub hMem) hRequest hIp hUser hSuper
  | refresh hMem hPast hIssued hRequest _ ih => exact .refresh (hSub hMem) hPast hIssued hRequest ih

theorem audience (h : AdminIssue cfg steps e) : e.request.audience = "wxcode-adm-admin" := by
  cases h with
  | login _ hRequest => rw [hRequest]; rfl
  | refresh _ _ _ hRequest => rw [hRequest]; rfl

end AdminIssue

/-! ### Steps -/

def adminRotated (c : Ctx) (row : RefreshToken) (db : Db) : Db :=
  (db.deleteRefreshTokens fun r => r.id = row.id).addRefreshToken (newRefreshToken c row.userId)

/-- A live row is exchanged whatever else is known of it. -/
theorem run_adminRefresh_live {c : Ctx} {w : World} {token : String} {row : RefreshToken}
    (hRow : w.db.refreshToken token = some row) (hLive : ¬row.expiresAt < c.now) :
    (adminRefresh c token).run w =
      .ok ⟨createAdminAccessToken c row.userId, c.draws.refreshToken⟩
        { w with db := adminRotated c row w.db } := by
  simp only [adminRefresh, Handler.run_query_bind, hRow]
  change (if row.expiresAt < c.now then _ else adminRotate c row : App TokenResponse).run w = _
  rw [if_neg hLive]
  rfl

theorem adminRefresh_issued {token : String} {row : RefreshToken} (hs : s.Sound cfg)
    (h : Step cfg s e s') (hRequest : e.request = .adminRefresh token)
    (hRow : s.world.db.refreshToken token = some row) (hLive : ¬row.expiresAt < e.now) :
    e.issued = some ⟨createAdminAccessToken (e.ctx cfg) row.userId, e.draws.refreshToken⟩ := by
  have hFresh := h.rows_fresh hs
  have hUser : (newRefreshToken (e.ctx cfg) row.userId).userId = row.userId := rfl
  have hValid := hs.valid.replace (Db.refreshToken_mem hRow).1 hUser
    (fun r hr => (hFresh r hr).1) fun r hr => (hFresh r hr).2
  have hRun := run_adminRefresh_live (c := e.ctx cfg) hRow hLive
  obtain ⟨hOutcome, -⟩ := h.returned
    (by rw [hRequest]; exact Handler.run_bind_ok.mpr ⟨_, _, hRun, rfl⟩) hValid
  rw [Event.issued, hOutcome]
  rfl

/-- What an admin token was issued by: an admin login of a super-admin, or the exchange of a row
that some past request added. -/
theorem Step.admin_issued (hs : s.Sound cfg) (h : Step cfg s e s') (hIssued : e.issued = some t)
    (hAudience : e.request.audience = "wxcode-adm-admin") :
    (∃ email password clientIp user, e.request = .adminLogin email password clientIp ∧
      ipAllowed (e.ctx cfg) clientIp = true ∧ s.world.db.userByEmail email = some user ∧
      user.isSuperuser = true) ∨
    ∃ past ∈ s.log, ∃ t' row, past.issued = some t' ∧ e.request = .adminRefresh t'.refreshToken ∧
      s.world.db.refreshToken t'.refreshToken = some row ∧ ¬row.expiresAt < e.now := by
  obtain ⟨response, hOk, -⟩ := Event.issued_some hIssued
  have hRun := (h.committed hOk).1
  cases hRequest : e.request with
  | adminLogin email password clientIp =>
    rw [hRequest] at hRun
    simp only [handle, Router.adminLogin, Handler.run_ensure_bind_ok] at hRun
    obtain ⟨hIp, hRun⟩ := hRun
    obtain ⟨t', m, hLogin, -⟩ := Handler.run_bind_ok.mp hRun
    obtain ⟨user, hUser, hSuper, -, -⟩ := adminLogin_ok hLogin
    exact .inl ⟨email, password, clientIp, user, rfl, hIp, hUser, hSuper⟩
  | adminRefresh token =>
    rw [hRequest] at hRun
    obtain ⟨t', m, hRefresh, -⟩ := Handler.run_bind_ok.mp hRun
    obtain ⟨row, hRow, hLive, -, -⟩ := adminRefresh_ok hRefresh
    obtain ⟨hMem, hToken⟩ := Db.refreshToken_mem hRow
    obtain ⟨past, hPast, t₀, hPastIssued, rfl⟩ := hs.rows row hMem
    have hSame : t₀.refreshToken = token :=
      ((hs.issued past hPast t₀ hPastIssued).1).trans hToken
    subst hSame
    exact .inr ⟨past, hPast, t₀, _, hPastIssued, rfl, hRow, hLive⟩
  | _ => rw [hRequest] at hAudience; simp [Request.audience] at hAudience

/-! ### Runs -/

/-- What the steps of a run issue for the admin audience descends from admin logins. -/
def AdminsDescend (cfg : Config) (steps : List (Sys × Event)) : Prop :=
  ∀ p ∈ steps, ∀ t, p.2.issued = some t → t.accessToken.aud = some "wxcode-adm-admin" →
    AdminIssue cfg steps p.2

theorem adminsDescend_of_run {s₀ : Sys} (hInit : Initial s₀) (hRun : Run (Step cfg) s₀ steps s)
    (hNone : ∀ p ∈ steps, ¬ExchangesRegular p.1 p.2) : AdminsDescend cfg steps := by
  -- by induction on the run: the row that the last step exchanges was issued by an earlier one
  induction hRun with
  | nil => simp [AdminsDescend]
  | @snoc steps m s' e hBefore hStep ih =>
    simp only [List.mem_append, List.mem_singleton] at hNone
    have hs : m.Sound cfg := Reachable.sound ⟨s₀, steps, hInit, hBefore⟩
    have hSub : steps ⊆ steps ++ [(m, e)] := List.subset_append_left _ _
    have hLast : (m, e) ∈ steps ++ [(m, e)] := by simp
    have hBase := ih fun p hp => hNone p (.inl hp)
    intro p hp t hIssued hAud
    rcases List.mem_append.mp hp with hp | hp
    · exact (hBase p hp t hIssued hAud).mono hSub
    obtain rfl := List.mem_singleton.mp hp
    have hAudience : e.request.audience = "wxcode-adm-admin" :=
      Option.some.inj (((hStep.issues hs).1 t hIssued).aud.symm.trans hAud)
    rcases hStep.admin_issued hs hIssued hAudience with
      ⟨email, password, clientIp, user, hRequest, hIp, hUser, hSuper⟩ |
      ⟨past, hPast, t', row, hPastIssued, hRequest, hRow, hLive⟩
    · exact .login hLast hRequest hIp hUser hSuper
    · have hPastAud : t'.accessToken.aud = some "wxcode-adm-admin" := by
        by_contra hRegular
        exact hNone _ (.inr rfl) ⟨past, hPast, t', row, hPastIssued, hRegular, hRequest, hRow, hLive⟩
      have hLog : past ∈ steps.map fun p => p.2 := by
        rw [log_of_run hBefore, hInit.log] at hPast
        simpa using hPast
      obtain ⟨q, hq, rfl⟩ := List.mem_map.mp hLog
      exact .refresh hLast hPast hPastIssued hRequest ((hBase q hq t' hPastIssued hPastAud).mono hSub)

theorem not_exchanges_of_adminsDescend {s₀ : Sys} (hInit : Initial s₀)
    (hRun : Run (Step cfg) s₀ steps s) (h : AdminsDescend cfg steps) :
    ∀ p ∈ steps, ¬ExchangesRegular p.1 p.2 := by
  rintro ⟨m, e⟩ hp ⟨past, hPast, t, row, hPastIssued, hRegular, hRequest, hRow, hLive⟩
  obtain ⟨pre, post, n, rfl, hPre, hStep, hPost⟩ := hRun.split _ hp
  have hm : m.Sound cfg := Reachable.sound ⟨s₀, pre, hInit, hPre⟩
  have hs : s.Sound cfg := Reachable.sound ⟨s₀, _, hInit, hRun⟩
  have hLater : ∀ q ∈ m.log, q ∈ s.log := fun q hq => by
    rw [log_of_run hPost, hStep.log]
    simp [hq]
  have hDescends := h _ hp _ (adminRefresh_issued hm hStep hRequest hRow hLive) rfl
  cases hDescends with
  | login _ hLogin => rw [hRequest] at hLogin; cases hLogin
  | @refresh m' _ past' t' hMem' hPast' hIssued' hRequest' hParent =>
    -- two requests that issued the same refresh token are one
    obtain ⟨pre', post', n', hSteps', hPre', hStep', hPost'⟩ := hRun.split _ hMem'
    have hIn : past' ∈ s.log := by
      rw [log_of_run hPost', hStep'.log]
      simp [hPast']
    have hToken : t.refreshToken = t'.refreshToken :=
      Request.adminRefresh.inj (hRequest.symm.trans hRequest')
    have hIssuedPast := hs.issued past (hLater past hPast) t hPastIssued
    have hIssuedPast' := hs.issued past' hIn t' hIssued'
    obtain rfl := hs.event_eq (hLater past hPast) hIn
      (hIssuedPast.1.symm.trans (hToken.trans hIssuedPast'.1))
    exact hRegular (hIssuedPast.2.2.1.trans (congrArg some hParent.audience))

/-- In a run every admin token descends from an admin login of a super-admin through the IP gate
exactly when no request presents a refresh token of a regular session to `admin_refresh` while it
is live. -/
theorem admin_tokens_descend_iff {s₀ : Sys} (hInit : Initial s₀)
    (hRun : Run (Step cfg) s₀ steps s) :
    AdminsDescend cfg steps ↔ ∀ p ∈ steps, ¬ExchangesRegular p.1 p.2 :=
  ⟨not_exchanges_of_adminsDescend hInit hRun, adminsDescend_of_run hInit hRun⟩

/-- The user of `signedIn`, who is no super-admin, takes the regular refresh token to
`/admin/refresh`. -/
def exchanged : Event × Sys := signedIn.sample (seconds 20) (.adminRefresh "refresh-0")

theorem exchanged_run : Run (Step sampleConfig) sampleHome
    [(sampleHome, signedInEvent), (signedIn, exchanged.1)] exchanged.2 :=
  .cons signedIn_step (.single (signedIn_reachable.sample (by decide) (by trivial)).1)

/-- An admin token for a user who never logged in as an admin. -/
theorem regular_token_exchanged :
    ¬∀ (cfg : Config) (s₀ s : Sys) (steps : List (Sys × Event)), Initial s₀ →
      Run (Step cfg) s₀ steps s → AdminsDescend cfg steps := by
  intro hClaim
  have hDescends := hClaim _ _ _ _ sampleHome_initial exchanged_run
  refine not_exchanges_of_adminsDescend sampleHome_initial exchanged_run hDescends
    (signedIn, exchanged.1) (by simp) ?_
  exact ⟨signedInEvent, signedIn_step.mem_log, ⟨signedInToken, "refresh-0"⟩,
    newRefreshToken ⟨sampleConfig, seconds 10, sampleDraws 0⟩ ⟨1⟩, rfl, by decide, rfl, rfl,
    by decide⟩

/-- The law at that exchange. -/
theorem admin_tokens_descend_iff_exchanged :
    AdminsDescend sampleConfig [(sampleHome, signedInEvent), (signedIn, exchanged.1)] ↔
      ∀ p ∈ [(sampleHome, signedInEvent), (signedIn, exchanged.1)], ¬ExchangesRegular p.1 p.2 :=
  admin_tokens_descend_iff sampleHome_initial exchanged_run

end WxcodeAdm
