import WxcodeAdm.Guarantees.Refusal

/-! What the five revoking requests revoke.  Each blacklists the jtis in the session rows of the
users, and an access token whose jti is in no session row any more stays accepted: a rotation
replaces the row of the token before, a second login deletes it, and an admin session has none. -/

namespace WxcodeAdm

open Lib

/-- The subscription whose payment has failed, by an event that is not recorded yet. -/
def failedSubscription (db : Db) (eventId eventType : String) (dataObject : Json) :
    Option TenantSubscription :=
  if db.webhookEvents.any (fun e => e.stripeEventId = eventId) ∨
      eventType ≠ "invoice.payment_failed" then none
  else match dataObject.get "subscription" with
    | .ok (.str text) =>
      (scalarOneOrNone (db.subscriptions.filter fun s => s.stripeSubscriptionId = some text)).join
    | _ => none

/-- Whose access tokens a request is to revoke, and the jti that it is to spare. -/
def Request.revokes (db : Db) : Request → Option (List Uuid × Option Uuid)
  | .suspendTenant _ tenantId => some (db.memberIds tenantId, none)
  | .forcePasswordReset _ userId => some ([userId], none)
  | .stripeEvent eventId eventType dataObject =>
    (failedSubscription db eventId eventType dataObject).map fun s => (db.memberIds s.tenantId, none)
  | .changePassword (.signed p) _ _ => some ([p.sub], some p.jti)
  | .revokeAllSessions (.signed p) => some ([p.sub], some p.jti)
  | _ => none

def trackedJtis (db : Db) (users : List Uuid) (spare : Option Uuid) : List Uuid :=
  (db.sessions.filter fun s => s.userId ∈ users ∧ some s.accessTokenJti ≠ spare).map
    fun s => s.accessTokenJti

variable {cfg : Config} {c : Ctx} {s s' : Sys} {e : Event} {w w' : World} {users : List Uuid}
  {spare : Option Uuid} {q : Payload}

theorem trackedJtis_none (db : Db) : trackedJtis db users none = db.sessionJtis users := by
  simp [trackedJtis, Db.sessionJtis]

theorem otherSessionJtis_eq (db : Db) (userId : Uuid) (spare : Option Uuid) :
    otherSessionJtis userId spare db = trackedJtis db [userId] spare := by
  simp [otherSessionJtis, trackedJtis]

def RevokedIn (c : Ctx) (users : List Uuid) (spare : Option Uuid) (w w' : World) : Prop :=
  w'.cache.blacklist =
    w.cache.blacklist.setAll c.now (trackedJtis w.db users spare) () c.accessTtl

/-! ### The five requests -/

theorem suspendTenant_revokes {tenantId : Uuid}
    (h : (suspendTenant c tenantId).run w = .ok () w') :
    RevokedIn c (w.db.memberIds tenantId) none w w' := by
  simp only [suspendTenant, changeTenant, bind_assoc, Handler.run_query_bind,
    Handler.run_orRaise_bind_ok, Handler.run_ensure_bind_ok, Handler.run_exec_bind,
    run_revokeSessionsOf, Outcome.ok.injEq, true_and] at h
  obtain ⟨tenant, -, -, rfl⟩ := h
  rw [RevokedIn, trackedJtis_none]
  rfl

theorem forcePasswordReset_revokes {userId : Uuid}
    (h : (forcePasswordReset c userId).run w = .ok () w') :
    RevokedIn c [userId] none w w' := by
  simp only [forcePasswordReset, Handler.run_query_bind, Handler.run_orRaise_bind_ok,
    Handler.run_exec_bind] at h
  obtain ⟨user, -, h⟩ := h
  obtain ⟨⟨⟩, m, hRevoke, h⟩ := Handler.run_bind_ok.mp h
  rw [run_revokeSessionsOf] at hRevoke
  obtain ⟨-, rfl⟩ := Outcome.ok.inj hRevoke
  simp only [run_flush_bind_ok, enqueueJob, Handler.run_store, Outcome.ok.injEq, true_and] at h
  obtain ⟨-, rfl⟩ := h
  rw [RevokedIn, trackedJtis_none]
  rfl

theorem changePassword_revokes {user : User} {current new : String} {jti : Option Uuid}
    (h : (changePassword c user current new jti).run w = .ok () w') :
    RevokedIn c [user.id] jti w w' := by
  simp only [changePassword, Handler.run_ensure_bind_ok, Handler.run_ofExcept_bind_ok,
    Handler.run_exec_bind, Handler.run_discard_ok, run_revokeOtherSessions, Outcome.ok.injEq] at h
  obtain ⟨-, _, -, -, _, -, rfl⟩ := h
  rw [RevokedIn, ← otherSessionJtis_eq]
  rfl

theorem revokeAllOtherSessions_revokes {user : User} {jti : Uuid} {count : Nat}
    (h : (revokeAllOtherSessions c user jti).run w = .ok count w') :
    RevokedIn c [user.id] (some jti) w w' := by
  rw [revokeAllOtherSessions, run_revokeOtherSessions] at h
  obtain ⟨-, rfl⟩ := Outcome.ok.inj h
  rw [RevokedIn, ← otherSessionJtis_eq]
  rfl

theorem failedSubscription_some {db : Db} {eventId eventType : String} {dataObject : Json}
    {sub : TenantSubscription} (h : failedSubscription db eventId eventType dataObject = some sub) :
    db.webhookEvents.find? (fun e => e.stripeEventId = eventId) = none ∧
      eventType = "invoice.payment_failed" ∧ ∃ text, dataObject.get "subscription" = .ok (.str text) ∧
      scalarOneOrNone (db.subscriptions.filter fun s => s.stripeSubscriptionId = some text) =
        some (some sub) := by
  unfold failedSubscription at h
  split at h
  · cases h
  · rename_i hFresh
    simp only [not_or, List.any_eq_true, decide_eq_true_eq, not_exists, not_and, not_not] at hFresh
    refine ⟨by simpa using hFresh.1, hFresh.2, ?_⟩
    split at h
    · rename_i text hText
      exact ⟨text, hText, Option.join_eq_some_iff.mp h⟩
    · cases h

theorem run_invoiceSubscription {dataObject : Json} {text : String} {sub : TenantSubscription}
    (hText : dataObject.get "subscription" = .ok (.str text))
    (hRows : scalarOneOrNone (w.db.subscriptions.filter fun s =>
      s.stripeSubscriptionId = some text) = some (some sub)) :
    (invoiceSubscription dataObject).run w = .ok (some sub) w := by
  simp only [invoiceSubscription, hText]
  change (subscriptionByStripeId text).run w = _
  simp only [subscriptionByStripeId, Handler.run_query_bind, hRows, Handler.run_orRaise_some]

theorem paymentFailed_revokes {eventId eventType : String} {dataObject : Json}
    {sub : TenantSubscription}
    (hSub : failedSubscription w.db eventId eventType dataObject = some sub)
    (h : (processStripeEvent c eventId eventType dataObject).run w = .ok () w') :
    RevokedIn c (w.db.memberIds sub.tenantId) none w w' := by
  obtain ⟨hFresh, rfl, text, hText, hRows⟩ := failedSubscription_some hSub
  simp only [processStripeEvent, Handler.run_query_bind, hFresh] at h
  obtain ⟨⟨⟩, m, hHandle, hRecord⟩ := Handler.run_bind_ok.mp h
  simp only [recordStripeEvent, Handler.run_exec_bind, run_flush_ok] at hRecord
  obtain ⟨-, rfl⟩ := hRecord
  simp only [handleStripeEvent, handlePaymentFailed] at hHandle
  rw [Handler.run_bind, run_invoiceSubscription hText hRows] at hHandle
  simp only [Handler.run_exec_bind, Handler.run_query_bind] at hHandle
  obtain ⟨⟨⟩, m', hRevoke, hHandle⟩ := Handler.run_bind_ok.mp hHandle
  rw [run_revokeSessionsOf] at hRevoke
  obtain ⟨-, rfl⟩ := Outcome.ok.inj hRevoke
  simp only [Handler.run_query_bind, run_forM_enqueueJob, Outcome.ok.injEq, true_and] at hHandle
  subst hHandle
  rw [RevokedIn, trackedJtis_none]
  rfl

/-- A revoking request writes the jtis that the session rows hold, and no others. -/
theorem handle_revokes {r : Request} {response : Response}
    (hRevokes : r.revokes w.db = some (users, spare))
    (hRun : (handle c r).run w = .ok response w') : RevokedIn c users spare w w' := by
  cases r with
  | suspendTenant token tenantId =>
    obtain ⟨rfl, rfl⟩ := Prod.mk.inj (Option.some.inj hRevokes)
    obtain ⟨⟨⟩, m, hAdmin, hRest⟩ := Handler.run_bind_ok.mp hRun
    obtain ⟨user, hUser⟩ := Handler.run_discard_ok.mp hAdmin
    obtain ⟨⟨⟩, m', hSuspend, hPure⟩ := Handler.run_bind_ok.mp hRest
    obtain ⟨-, rfl⟩ := Handler.run_pure_ok.mp hPure
    obtain ⟨p, -, -, -, -, -, -, -, rfl⟩ := requireAdmin_ok.mp hUser
    exact suspendTenant_revokes hSuspend
  | forcePasswordReset token userId =>
    obtain ⟨rfl, rfl⟩ := Prod.mk.inj (Option.some.inj hRevokes)
    obtain ⟨⟨⟩, m, hAdmin, hRest⟩ := Handler.run_bind_ok.mp hRun
    obtain ⟨user, hUser⟩ := Handler.run_discard_ok.mp hAdmin
    obtain ⟨⟨⟩, m', hForce, hPure⟩ := Handler.run_bind_ok.mp hRest
    obtain ⟨-, rfl⟩ := Handler.run_pure_ok.mp hPure
    obtain ⟨p, -, -, -, -, -, -, -, rfl⟩ := requireAdmin_ok.mp hUser
    exact forcePasswordReset_revokes hForce
  | stripeEvent eventId eventType dataObject =>
    obtain ⟨sub, hSub, hPair⟩ := Option.map_eq_some_iff.mp hRevokes
    obtain ⟨rfl, rfl⟩ := Prod.mk.inj hPair
    obtain ⟨⟨⟩, m, hProcess, hPure⟩ := Handler.run_bind_ok.mp hRun
    obtain ⟨-, rfl⟩ := Handler.run_pure_ok.mp hPure
    exact paymentFailed_revokes hSub hProcess
  | changePassword token current new =>
    obtain ⟨user, m, hUser, hRest⟩ := Handler.run_bind_ok.mp hRun
    obtain ⟨p, rfl, hRow, hRest, hDb, hBlack⟩ := run_signedIn hUser hRest
    obtain ⟨rfl, rfl⟩ := Prod.mk.inj (Option.some.inj hRevokes)
    obtain ⟨⟨⟩, m', hChange, hPure⟩ := Handler.run_bind_ok.mp hRest
    obtain ⟨-, rfl⟩ := Handler.run_pure_ok.mp hPure
    have hRevoked := changePassword_revokes hChange
    rwa [RevokedIn, hDb, hBlack, Db.user_id hRow] at hRevoked
  | revokeAllSessions token =>
    obtain ⟨user, m, hUser, hRest⟩ := Handler.run_bind_ok.mp hRun
    obtain ⟨p, rfl, hRow, hRest, hDb, hBlack⟩ := run_signedIn hUser hRest
    obtain ⟨rfl, rfl⟩ := Prod.mk.inj (Option.some.inj hRevokes)
    obtain ⟨count, m', hRevoke, hPure⟩ := Handler.run_bind_ok.mp hRest
    obtain ⟨-, rfl⟩ := Handler.run_pure_ok.mp hPure
    have hRevoked := revokeAllOtherSessions_revokes hRevoke
    rwa [RevokedIn, hDb, hBlack, Db.user_id hRow] at hRevoked
  | _ => cases hRevokes

/-! ### Bulk revocation -/

/-- Whether a token was kept out before, or its jti is in a session row that the request reads. -/
def Covered (q : Payload) (users : List Uuid) (spare : Option Uuid) (s : Sys) : Prop :=
  q.jti ∈ trackedJtis s.world.db users spare ∨ Blacklisted q s ∨ Outcast q s

/-- After a committed bulk revocation both guards refuse a token in every later state, whatever
becomes of the reset flag, exactly when its jti was in a session row of an affected user or the
token was kept out before. -/
theorem bulk_revocation_iff {response : Response} (hReach : Reachable cfg s)
    (hStep : Step cfg s e s') (hRevokes : e.request.revokes s.world.db = some (users, spare))
    (hOk : e.outcome = .ok response) (hMinted : q ∈ s.minted) (hLive : e.now < seconds q.exp)
    (hDraw : s'.CanDraw cfg) :
    (∀ steps s'', Run (Step cfg) s' steps s'' → Refused cfg q s'' ∧ AdminRefused cfg q s'') ↔
      Covered q users spare s := by
  have hSound := hReach.sound
  have hRun := (hStep.committed hOk).1
  have hExp : seconds q.exp ≤ e.now + cfg.accessTtl :=
    Nat.le_trans (hSound.minted_exp hMinted) (Nat.add_le_add_right hStep.time _)
  have hBlack : Blacklisted q s' ↔
      q.jti ∈ trackedJtis s.world.db users spare ∨ Blacklisted q s := by
    rw [Blacklisted, handle_revokes hRevokes hRun]
    exact Expiring.covers_setAll_iff _ hExp
  have hOut : Outcast q s' ↔ Outcast q s := by
    obtain ⟨u, hu⟩ := hSound.minted_user hMinted
    obtain ⟨u', hu', hStanding⟩ := (hStep.evolves hSound).users _ _ hu
    simp only [User.standing, Prod.mk.injEq] at hStanding
    simp only [Outcast, hu, hu', Option.some.injEq, exists_eq_left', hStanding]
  rw [refused_for_good_iff (hStep.sound hSound) hDraw (hStep.minted_subset hMinted)
    (hStep.clock ▸ hLive), hBlack, hOut, or_assoc, Covered]

/-- The user of `refreshedOnce` revokes all other sessions with the token of the refresh. -/
def revokedAll : Event × Sys :=
  refreshedOnce.sample (seconds 30) (.revokeAllSessions (.signed refreshedToken))

theorem revokedAll_step : Step sampleConfig refreshedOnce revokedAll.1 revokedAll.2 :=
  (refreshedOnce_reachable.sample (by decide) (by trivial)).1

/-- The access token from before the refresh, whose jti the rotation has replaced, is still
accepted. -/
theorem revocation_misses_rotated :
    ¬∀ (cfg : Config) (s s' : Sys) (e : Event) (users : List Uuid) (spare : Option Uuid)
      (response : Response) (q : Payload), Reachable cfg s → Step cfg s e s' →
      e.request.revokes s.world.db = some (users, spare) → e.outcome = .ok response →
      q ∈ s.minted → q.sub ∈ users → some q.jti ≠ spare → e.now < seconds q.exp →
      ∀ steps s'', Run (Step cfg) s' steps s'' → Refused cfg q s'' ∧ AdminRefused cfg q s'' := by
  intro hClaim
  obtain ⟨hRefused, -⟩ := hClaim sampleConfig refreshedOnce revokedAll.2 revokedAll.1 [⟨1⟩]
    (some ⟨1⟩) (.revokedCount 0) signedInToken refreshedOnce_reachable revokedAll_step rfl rfl
    (by decide) (by decide) (by decide) (by decide) [] revokedAll.2 .nil
  obtain ⟨error, m, hRun⟩ := hRefused ⟨sampleConfig, seconds 30, sampleDraws 3⟩ rfl (by decide)
  cases hRun

/-- The law at that revocation. -/
theorem bulk_revocation_iff_refreshedOnce :
    (∀ steps s'', Run (Step sampleConfig) revokedAll.2 steps s'' →
        Refused sampleConfig signedInToken s'' ∧ AdminRefused sampleConfig signedInToken s'') ↔
      Covered signedInToken [⟨1⟩] (some ⟨1⟩) refreshedOnce := by
  have hOk : revokedAll.1.outcome = .ok (.revokedCount 0) := rfl
  exact bulk_revocation_iff refreshedOnce_reachable revokedAll_step rfl hOk (by decide) (by decide)
    ⟨sampleDraws 3, sampleDraws 4, by decide, by decide, by decide⟩

end WxcodeAdm
