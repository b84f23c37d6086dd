import WxcodeAdm.Lib.Sole
import WxcodeAdm.Sessions
import WxcodeAdm.System

/-! Single sessions.  A login takes the place of the tokens that the user has, and a refresh takes
the place of its own, so a user has one refresh token at most and with it one session; only an
admin login adds a token beside others. -/

namespace WxcodeAdm

open Lib

variable {cfg : Config} {c : Ctx} {s s' s₀ : Sys} {e : Event} {userId : Uuid} {db : Db}

/-- The user has at most one refresh token. -/
def Db.SoleToken (db : Db) (userId : Uuid) : Prop :=
  ∀ r ∈ db.refreshTokens, ∀ r' ∈ db.refreshTokens, r.userId = userId → r'.userId = userId → r = r'

/-- Every session is the one of a refresh token of its user. -/
def Db.SessionsTied (db : Db) : Prop :=
  ∀ x ∈ db.sessions, ∃ r ∈ db.refreshTokens, r.id = x.refreshTokenId ∧ r.userId = x.userId

/-! ### The writes -/

theorem Db.SessionsTied.delete (h : db.SessionsTied) (p : RefreshToken → Bool) :
    (db.deleteRefreshTokens p).SessionsTied := by
  intro x hx
  obtain ⟨hMem, hKept⟩ := List.mem_filter.mp hx
  obtain ⟨r, hr, hRow⟩ := h x hMem
  refine ⟨r, List.mem_filter.mpr ⟨hr, ?_⟩, hRow⟩
  simp only [Bool.not_eq_true', List.any_eq_false] at hKept
  simpa [hRow.1] using hKept r hr

theorem Db.SessionsTied.addRefreshToken (h : db.SessionsTied) (r : RefreshToken) :
    (db.addRefreshToken r).SessionsTied := by
  intro x hx
  obtain ⟨old, hOld, hRow⟩ := h x hx
  exact ⟨old, List.mem_append_left _ hOld, hRow⟩

/-- The session of the token that was added last. -/
theorem Db.SessionsTied.addPair (h : db.SessionsTied) (userId jti : Uuid) (ua ip : Option String) :
    ((db.addRefreshToken (newRefreshToken c userId)).addSession
      (newSession c userId jti ua ip)).SessionsTied := by
  intro x hx
  rcases List.mem_append.mp hx with hx | hx
  · exact h.addRefreshToken _ x hx
  · obtain rfl := List.mem_singleton.mp hx
    exact ⟨newRefreshToken c userId, List.mem_append_right _ (List.mem_singleton_self _), rfl, rfl⟩

theorem Db.SoleToken.of_subset {db' : Db} (h : db.SoleToken userId)
    (hSub : db'.refreshTokens ⊆ db.refreshTokens) : db'.SoleToken userId :=
  fun r hr r' hr' => h r (hSub hr) r' (hSub hr')

/-- A token may be added when no token of its user is left, or for another user. -/
theorem Db.SoleToken.add (h : db.SoleToken userId) {r : RefreshToken}
    (hNone : r.userId = userId → ∀ old ∈ db.refreshTokens, old.userId ≠ userId) :
    (db.addRefreshToken r).SoleToken userId := by
  intro a ha b hb hA hB
  simp only [Db.addRefreshToken, List.mem_append, List.mem_singleton] at ha hb
  rcases ha with ha | rfl <;> rcases hb with hb | rfl
  · exact h a ha b hb hA hB
  · exact absurd hA (hNone hB a ha)
  · exact absurd hB (hNone hA b hb)
  · rfl

theorem Db.SoleToken.replaceToken (h : db.SoleToken userId) {row : RefreshToken}
    (hMem : row ∈ db.refreshTokens) : (db.replaceToken c row).SoleToken userId := by
  refine (h.of_subset (List.filter_sublist.subset)).add fun hOwner old hOld hSame => ?_
  obtain ⟨hOld, hOther⟩ := List.mem_filter.mp hOld
  obtain rfl := h old hOld row hMem hSame hOwner
  simp at hOther

/-- Both assertions are kept by what requests do to tokens and sessions. -/
theorem soleToken_rules : TokenRules c fun db => db.SoleToken userId where
  same := fun hTokens _ h => by rwa [Db.SoleToken, hTokens]
  delete := fun _ h => h.of_subset List.filter_sublist.subset
  issue := fun owner ua ip h => by
    refine (h.of_subset List.filter_sublist.subset).add fun hOwner old hOld hSame => ?_
    obtain ⟨-, hOther⟩ := List.mem_filter.mp hOld
    rw [show owner = userId from hOwner] at hOther
    simp [hSame] at hOther
  rotate := fun _ _ hMem h => h.replaceToken hMem
  replace := fun hMem h => h.replaceToken hMem

theorem sessionsTied_rules : TokenRules c Db.SessionsTied where
  same := fun hTokens hSessions h => by rwa [Db.SessionsTied, hTokens, hSessions]
  delete := fun p h => h.delete p
  issue := fun _ _ _ h => (h.delete _).addPair _ _ _ _
  rotate := fun _ _ _ h => (h.delete _).addPair _ _ _ _
  replace := fun _ h => (h.delete _).addRefreshToken _

/-! ### Runs -/

/-- The user is no superuser. -/
def Db.Ordinary (db : Db) (userId : Uuid) : Prop :=
  ∀ u, db.user userId = some u → u.isSuperuser = false

/-- A step keeps what the writes keep, if an admin login does too. -/
theorem Step.keeps {P : Db → Prop} (h : Step cfg s e s') (hRules : TokenRules (e.ctx cfg) P)
    (hAdmin : ∀ user, user ∈ s.world.db.users → user.isSuperuser = true →
      P (s.world.db.addRefreshToken (newRefreshToken (e.ctx cfg) user.id)))
    (hBefore : P s.world.db) : P s'.world.db := by
  cases hOutcome : e.outcome with
  | error => exact h.rolledBack hOutcome ▸ hBefore
  | ok response =>
    have hRun := (h.committed hOutcome).1
    by_cases hLogin : ∃ email password ip, e.request = .adminLogin email password ip
    · obtain ⟨email, password, ip, hRequest⟩ := hLogin
      rw [hRequest] at hRun
      simp only [handle, Router.adminLogin, Handler.run_ensure_bind_ok] at hRun
      obtain ⟨t, m, hRun, hRest⟩ := Handler.run_bind_ok.mp hRun.2
      obtain ⟨-, rfl⟩ := Handler.run_pure_ok.mp hRest
      obtain ⟨user, hFound, hSuper, -, hWorld⟩ := adminLogin_ok hRun
      rw [hWorld]
      exact hAdmin user (List.mem_of_find?_eq_some hFound) hSuper
    · push Not at hLogin
      exact hRules.handle_keeps hLogin _ _ _ hRun hBefore

theorem Step.sessionsTied (h : Step cfg s e s') (hTied : s.world.db.SessionsTied) :
    s'.world.db.SessionsTied :=
  h.keeps sessionsTied_rules (fun _ _ _ => hTied.addRefreshToken _) hTied

theorem Step.soleToken (hs : s.Sound cfg) (h : Step cfg s e s')
    (hOrdinary : s.world.db.Ordinary userId) (hSole : s.world.db.SoleToken userId) :
    s'.world.db.SoleToken userId := by
  refine h.keeps soleToken_rules (fun user hUser hSuper => hSole.add fun hOwner => ?_) hSole
  have hFalse := hOrdinary user (hOwner ▸ hs.valid.user_of_mem hUser)
  rw [hSuper] at hFalse
  cases hFalse

/-- One token leaves room for one session. -/
theorem Db.SoleToken.session_eq (hSole : db.SoleToken userId) (hValid : db.Valid)
    (hTied : db.SessionsTied) {x y : UserSession} (hx : x ∈ db.sessions) (hy : y ∈ db.sessions)
    (hOwner : x.userId = userId) (hOwner' : y.userId = userId) : x = y := by
  obtain ⟨r, hr, hRow, hUser⟩ := hTied x hx
  obtain ⟨r', hr', hRow', hUser'⟩ := hTied y hy
  obtain rfl := hSole r hr r' hr' (hUser.trans hOwner) (hUser'.trans hOwner')
  exact List.inj_on_of_nodup_map hValid.sessionRefreshTokenId hx hy (hRow.symm.trans hRow')

theorem Reachable.sessionsTied (h : Reachable cfg s) : s.world.db.SessionsTied := by
  obtain ⟨s₀, steps, hInit, hRun⟩ := h
  refine hRun.invariant (I := fun m => m.world.db.SessionsTied) (fun hm hStep => hStep.sessionsTied hm)
    fun x hx => ?_
  obtain ⟨r, hr, -⟩ := hInit.valid.sessionRefreshToken x hx
  rw [hInit.refreshTokens] at hr
  cases hr

/-- Who has never been a superuser has one refresh token and one session at most, and every session
is the one of a refresh token of its user. -/
theorem single_session {steps : List (Sys × Event)} (hInit : Initial s₀)
    (hRun : Run (Step cfg) s₀ steps s) :
    (∀ userId, (∀ p ∈ steps, p.1.world.db.Ordinary userId) →
      (s.world.db.refreshTokens.filter fun r => r.userId = userId).length ≤ 1 ∧
        (s.world.db.sessions.filter fun x => x.userId = userId).length ≤ 1) ∧
    ∀ x ∈ s.world.db.sessions, ∃ r ∈ s.world.db.refreshTokens,
      r.id = x.refreshTokenId ∧ r.userId = x.userId := by
  have hReach : Reachable cfg s := ⟨s₀, steps, hInit, hRun⟩
  have hValid := hReach.sound.valid
  have hTied := hReach.sessionsTied
  refine ⟨fun userId hNever => ?_, hTied⟩
  have hSole : s.world.db.SoleToken userId := by
    refine (hRun.invariant_of (I := fun m => m.Sound cfg ∧ m.world.db.SoleToken userId)
      (C := fun m _ => m.world.db.Ordinary userId)
      (fun ⟨hs, hSole⟩ hOrdinary hStep => ⟨hStep.sound hs, hStep.soleToken hs hOrdinary hSole⟩)
      ⟨hInit.sound, ?_⟩ hNever).2
    intro r hr
    rw [hInit.refreshTokens] at hr
    cases hr
  exact ⟨length_filter_le_one hValid.refreshTokenId fun r hr r' hr' hUser hUser' =>
      hSole r hr r' hr' (of_decide_eq_true hUser) (of_decide_eq_true hUser'),
    length_filter_le_one hValid.sessionId fun x hx y hy hUser hUser' =>
      hSole.session_eq hValid hTied hx hy (of_decide_eq_true hUser) (of_decide_eq_true hUser')⟩

theorem single_session_signedIn :
    (∀ userId, (∀ p ∈ [(sampleHome, signedInEvent)], p.1.world.db.Ordinary userId) →
      (signedIn.world.db.refreshTokens.filter fun r => r.userId = userId).length ≤ 1 ∧
        (signedIn.world.db.sessions.filter fun x => x.userId = userId).length ≤ 1) ∧
    ∀ x ∈ signedIn.world.db.sessions, ∃ r ∈ signedIn.world.db.refreshTokens,
      r.id = x.refreshTokenId ∧ r.userId = x.userId :=
  single_session sampleHome_initial (.single signedIn_step)

end WxcodeAdm
