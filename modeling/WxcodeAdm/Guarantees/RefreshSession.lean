import WxcodeAdm.Origins
import WxcodeAdm.Sessions

/-! What a refresh does to the session it is for.  The row of the consumed token is deleted, and the
foreign key takes the session with it, before `refresh` looks for the session; so it makes another
one, with a new id, a new date and the metadata of the request. -/

namespace WxcodeAdm

open Lib

variable {cfg : Config} {s s' : Sys} {e : Event} {db : Db} {x : UserSession}
  {token : String} {ua ip : Option String}

/-- The session `x` of the token is still there after its refresh: the same row, pointing to the
new pair, with the metadata it had unless the request names a user agent. -/
def Db.KeepsSession (db : Db) (userAgent : Option String) (x : UserSession) : Prop :=
  ∃ y ∈ db.sessions, y.id = x.id ∧ y.createdAt = x.createdAt ∧ y.userId = x.userId ∧
    y.lastActiveAt = x.lastActiveAt ∧ (userAgent = none → y.info = x.info)

instance (ua : Option String) : Decidable (db.KeepsSession ua x) :=
  inferInstanceAs (Decidable (∃ _ ∈ _, _))

/-- The sessions after a refresh: those of the other tokens, and a new one. -/
theorem Step.refresh_sessions {response : Response} (h : Step cfg s e s')
    (hRequest : e.request = .refresh token ua ip) (hOk : e.outcome = .ok response) :
    ∃ row ∈ s.world.db.refreshTokens, row.token = token ∧
      s'.world.db.sessions = (s.world.db.sessions.filter fun y => y.refreshTokenId ≠ row.id) ++
        [newSession (e.ctx cfg) row.userId e.draws.jti ua ip] := by
  have hRun := (h.committed hOk).1
  rw [hRequest] at hRun
  obtain ⟨t, m, hRefresh, hRest⟩ := Handler.run_bind_ok.mp hRun
  obtain ⟨-, rfl⟩ := Handler.run_pure_ok.mp hRest
  obtain ⟨row, hRow, -, hRotate⟩ := refresh_ok hRefresh
  obtain ⟨hMem, hToken⟩ := Db.refreshToken_mem hRow
  refine ⟨row, hMem, hToken, ?_⟩
  rw [rotate_db hMem hRotate]
  refine congrArg (· ++ [_]) (List.filter_congr fun y _ => ?_)
  rw [Bool.eq_iff_iff]
  simp only [Bool.not_eq_true', List.any_eq_false, Bool.and_eq_true, decide_eq_true_eq, not_and]
  constructor
  · exact fun hNone hSame => hNone row hMem rfl hSame.symm
  · rintro hOther r - hId hSame
    exact hOther (hSame.symm.trans hId)

/-- No refresh keeps the session of the token that it consumes. -/
theorem refresh_drops_session {response : Response} (hReach : Reachable cfg s)
    (h : Step cfg s e s') (hId : ∀ past ∈ s.log, past.draws.sessionId ≠ e.draws.sessionId)
    (hRequest : e.request = .refresh token ua ip) (hOk : e.outcome = .ok response)
    (hx : x ∈ s.world.db.sessions)
    (hToken : ∃ row, s.world.db.refreshToken token = some row ∧ x.refreshTokenId = row.id) :
    ¬s'.world.db.KeepsSession ua x := by
  obtain ⟨row, hMem, hRow, hSessions⟩ := h.refresh_sessions hRequest hOk
  obtain ⟨row', hFound, hPoints⟩ := hToken
  obtain ⟨hMem', hRow'⟩ := Db.refreshToken_mem hFound
  obtain rfl : row' = row := List.inj_on_of_nodup_map hReach.sound.valid.refreshToken hMem' hMem
    (hRow'.trans hRow.symm)
  rintro ⟨y, hy, hSame, -⟩
  rw [hSessions, List.mem_append, List.mem_singleton] at hy
  rcases hy with hy | rfl
  · obtain ⟨hOld, hOther⟩ := List.mem_filter.mp hy
    obtain rfl := List.inj_on_of_nodup_map hReach.sound.valid.sessionId hOld hx hSame
    exact of_decide_eq_true hOther hPoints
  · obtain ⟨past, hPast, hDrawn⟩ := hReach.traced.sessionId x hx
    exact hId past hPast (hDrawn.trans hSame.symm)

def signedInSession : UserSession where
  id := ⟨0⟩
  refreshTokenId := ⟨0⟩
  userId := ⟨1⟩
  accessTokenJti := ⟨0⟩
  info := {}
  lastActiveAt := some (seconds 10)
  createdAt := seconds 10

theorem refresh_drops_signedInSession :
    Reachable sampleConfig signedIn ∧
      (signedIn.sample (seconds 20) (.refresh "refresh-0" none none)).1.outcome.toBool = true ∧
      signedInSession ∈ signedIn.world.db.sessions ∧
      (∃ row, signedIn.world.db.refreshToken "refresh-0" = some row ∧
        signedInSession.refreshTokenId = row.id) ∧
      ¬refreshedOnce.world.db.KeepsSession none signedInSession :=
  ⟨signedIn_reachable, by decide, by decide, ⟨_, rfl, rfl⟩, by decide⟩

theorem refresh_drops_session_signedIn :
    ¬(signedIn.sample (seconds 20) (.refresh "refresh-0" none none)).2.world.db.KeepsSession none
      signedInSession :=
  refresh_drops_session signedIn_reachable
    (signedIn_reachable.sample (by decide) (by trivial)).1 (by decide) rfl
    (show _ = Except.ok (.tokens ⟨refreshedToken, "refresh-1"⟩) from rfl) (by decide)
    ⟨_, rfl, rfl⟩

end WxcodeAdm
