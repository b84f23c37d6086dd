import WxcodeAdm.Audit.Routes
import WxcodeAdm.Moves

/-! The row that a request adds to the audit log.  Who is named in it has shown the request to be
the own one, and has been let act in the tenant that is named beside. -/

namespace WxcodeAdm

open Lib

/-- The requests that write to the audit log when they are committed. -/
def Request.audits : Request → Bool
  | .getMe .. | .getPendingTransfer .. | .adminRefresh .. | .stripeEvent .. => false
  | _ => true

/-- The actor and the tenant that a row names, and what the actor has shown. -/
inductive Names (c : Ctx) (w : World) (r : Request) : Option Uuid → Option Uuid → Prop
  | nobody : Names c w r none none
  | signedIn {token user} (bearer : token ∈ r.bearers)
      (guard : ∃ m, (requireVerified c token).run w = .ok user m) :
      Names c w r (some user.id) none
  | member {token header minimum tenant actor} (bearer : token ∈ r.bearers)
      (acts : Acts c w token header minimum tenant actor) :
      Names c w r (some actor.userId) (some tenant.id)
  | newcomer {token invitation user i} (request : r = .acceptInvitation token invitation)
      (guard : ∃ m, (requireVerified c token).run w = .ok user m)
      (redeems : w.db.Redeems c user invitation i) :
      Names c w r (some user.id) (some i.tenantId)
  | admin {token admin} (bearer : token ∈ r.bearers)
      (guard : ∃ m, (requireAdmin c token).run w = .ok admin m) : Names c w r (some admin.id) none
  | adminOf {token admin userId tenantId m}
      (request : r = .blockUser token userId tenantId ∨ r = .unblockUser token userId tenantId)
      (guard : ∃ m, (requireAdmin c token).run w = .ok admin m)
      (found : w.db.membership userId tenantId = some m) :
      Names c w r (some admin.id) (some tenantId)
  | password {email password device ua ip user}
      (request : r = .login email password device ua ip)
      (found : w.db.userByEmail email = some user)
      (verified : verifyPassword c password user.passwordHash = .ok true) :
      Names c w r (some user.id) none
  | adminPassword {email password ip user} (request : r = .adminLogin email password ip)
      (found : w.db.userByEmail email = some user) (superuser : user.isSuperuser = true)
      (verified : verifyPassword c password user.passwordHash = .ok true) :
      Names c w r (some user.id) none
  | refreshToken {token refreshToken admin row} (request : r = .adminLogout token refreshToken)
      (guard : ∃ m, (requireAdmin c token).run w = .ok admin m)
      (found : w.db.refreshToken refreshToken = some row) : Names c w r (some row.userId) none

/-- The rows are one that names the actor and the tenant. -/
def Adds (c : Ctx) (actor tenant : Option Uuid) (rows : List AuditLog) : Prop :=
  ∃ row, rows = [row] ∧ row.createdAt = c.now ∧ row.actorId = actor ∧ row.tenantId = tenant

section Rows

variable {c : Ctx} {o : Occasion} {w w' : World} {r : Request} {x : AuditedResponse}

theorem adds_written (response : Response) (entry : AuditFields) :
    Returns (fun x : AuditedResponse => Adds c entry.actorId entry.tenantId x.2)
      (return (response, [writeAudit c entry]) : App AuditedResponse) :=
  .pure ⟨_, rfl, rfl, rfl, rfl⟩

theorem adds_of_returns {h : App AuditedResponse} {actor tenant : Option Uuid}
    (hReturns : Returns (fun x : AuditedResponse => Adds c actor tenant x.2) h)
    (hRun : h.run w = .ok x w') : Adds c actor tenant x.2 := hReturns _ _ _ hRun

/-- What the guard of a tenant passes on, and what is left to run. -/
theorem run_acts {role : MemberRole} {token : Bearer} {header : Option String}
    {k : Tenant × TenantMembership → App AuditedResponse}
    (hRun : (requireRole c role token header >>= k).run w = .ok x w') :
    ∃ tenant actor m, Acts c w token header role tenant actor ∧ m.db = w.db ∧
      (k (tenant, actor)).run m = .ok x w' := by
  obtain ⟨⟨tenant, actor⟩, m, hGuard, hRun⟩ := Handler.run_bind_ok.mp hRun
  obtain ⟨hDb, hActs⟩ := requireRole_acts hGuard
  exact ⟨tenant, actor, m, hActs, hDb, hRun⟩

theorem login_names {email : String} {password : PyStr} {device ua ip : Option String}
    (hRun : (AuditedRouter.login c email password device ua ip).run w = .ok x w') :
    ∃ user, w.db.userByEmail email = some user ∧
      verifyPassword c password user.passwordHash = .ok true ∧ Adds c (some user.id) none x.2 := by
  obtain ⟨result, m, hLogin, hRun⟩ := Handler.run_bind_ok.mp hRun
  rw [Handler.run_query_bind] at hRun
  have hUsers : m.db.users = w.db.users := (login_touches _ _ _ _ _ .users (by simp)).of_ok hLogin
  simp only [login, Handler.run_query_bind, Handler.run_orRaise_bind_ok,
    Handler.run_ensure_bind_ok, Handler.run_ofExcept_bind_ok] at hLogin
  obtain ⟨user, hUser, -, _, hVerified, rfl, -, -⟩ := hLogin
  rw [show m.db.userByEmail email = some user by rw [Db.userByEmail, hUsers]; exact hUser] at hRun
  refine ⟨user, hUser, hVerified, ?_⟩
  cases result with
  | mfaRequired => exact adds_written _ _ _ _ _ hRun
  | tokens => exact adds_of_returns (.bind fun _ => adds_written _ _) hRun

theorem adminLogin_names {email password : String} {ip : Option String}
    (hRun : (AuditedRouter.adminLogin c email password ip).run w = .ok x w') :
    ∃ user, w.db.userByEmail email = some user ∧ user.isSuperuser = true ∧
      verifyPassword c password user.passwordHash = .ok true ∧ Adds c (some user.id) none x.2 := by
  obtain ⟨-, hRun⟩ := Handler.run_ensure_bind_ok.mp hRun
  obtain ⟨tokens, m, hLogin, hRun⟩ := Handler.run_bind_ok.mp hRun
  simp only [adminLogin, Handler.run_query_bind, Handler.run_orRaise_bind_ok,
    Handler.run_ensure_bind_ok, Handler.run_exec_bind, Handler.run_pure_ok] at hLogin
  obtain ⟨user, hUser, hSuper, hHash, rfl, -⟩ := hLogin
  obtain ⟨hash, hIs, hVerified⟩ := (Option.any_eq_true _ _).mp hHash
  refine ⟨user, hUser, hSuper, ?_, adds_written _ _ _ _ _ hRun⟩
  rw [hIs, verifyPassword_text, (Bool.and_eq_true_iff.mp hVerified).2]

theorem adminLogout_names {token : Bearer} {refreshToken : String}
    (hRun : (AuditedRouter.adminLogout c token refreshToken).run w = .ok x w') :
    (∃ admin m, (requireAdmin c token).run w = .ok admin m) ∧
      Adds c ((w.db.refreshToken refreshToken).map fun row => row.userId) none x.2 := by
  obtain ⟨⟨⟩, m, hGuard, hRest⟩ := Handler.run_bind_ok.mp hRun
  obtain ⟨admin, hAdmin⟩ := Handler.run_discard_ok.mp hGuard
  obtain ⟨_, -, -, -, -, -, -, -, rfl⟩ := requireAdmin_ok.mp hAdmin
  obtain ⟨payload, -, hRest⟩ := Handler.run_ofExcept_bind_ok.mp hRest
  rw [Handler.run_query_bind] at hRest
  refine ⟨⟨admin, m, hAdmin⟩, adds_of_returns ?_ hRest⟩
  cases m.db.refreshToken refreshToken with
  | none => exact .bind fun _ => adds_written _ _
  | some row => exact .bind fun _ => .bind fun _ => adds_written _ _

/-- An action of a super-admin ran after the guard, and its row names the super-admin. -/
theorem asAdmin_names {token : Bearer} {k : App Unit} {entry : User → AuditFields}
    (hRun : (AuditedRouter.asAdmin c token k entry).run w = .ok x w') :
    ∃ admin, (∃ m, (requireAdmin c token).run w = .ok admin m) ∧ k.run w = .ok () w' ∧
      x = (.done, [writeAudit c (entry admin)]) := by
  obtain ⟨admin, m, hAdmin, hRun⟩ := Handler.run_bind_ok.mp hRun
  obtain ⟨⟨⟩, m', hDone, hRun⟩ := Handler.run_bind_ok.mp hRun
  obtain ⟨rfl, rfl⟩ := Handler.run_pure_ok.mp hRun
  obtain ⟨_, -, -, -, -, -, -, -, rfl⟩ := requireAdmin_ok.mp hAdmin
  exact ⟨admin, ⟨_, hAdmin⟩, hDone, rfl⟩

theorem audited_silent (hSilent : r.audits = false) :
    Returns (fun x : AuditedResponse => x.2 = []) (audited c o r) := by
  cases r with
  | getMe | adminRefresh | stripeEvent | getPendingTransfer =>
    repeat refine Returns.bind fun _ => ?_
    exact .pure rfl
  | _ => simp [Request.audits] at hSilent

/-- A committed request adds one row, unless it is of the kinds that add none. -/
theorem audited_writes (hRun : (audited c o r).run w = .ok x w') :
    (r.audits = false ∧ x.2 = []) ∨ r.audits = true ∧
      ∃ actor tenant, Names c w r actor tenant ∧ Adds c actor tenant x.2 := by
  cases r with
  | getMe | adminRefresh | stripeEvent | getPendingTransfer =>
    exact .inl ⟨rfl, audited_silent rfl _ _ _ hRun⟩
  | signup | verifyEmail | resendVerification | mfaVerify | refresh | logout | forgotPassword
  | resetPassword | oauthLinkConfirm =>
    exact .inr ⟨rfl, none, none, .nobody, adds_of_returns (.bind fun _ => adds_written _ _) hRun⟩
  | wxcodeExchange | oauthCallback =>
    refine .inr ⟨rfl, none, none, .nobody, adds_of_returns ?_ hRun⟩
    exact .bind fun _ => .bind fun _ => adds_written _ _
  | login email password device ua ip =>
    obtain ⟨user, hUser, hVerified, hAdds⟩ := login_names hRun
    exact .inr ⟨rfl, some user.id, none, .password rfl hUser hVerified, hAdds⟩
  | adminLogin email password ip =>
    obtain ⟨user, hUser, hSuper, hVerified, hAdds⟩ := adminLogin_names hRun
    exact .inr ⟨rfl, some user.id, none, .adminPassword rfl hUser hSuper hVerified, hAdds⟩
  | adminLogout token refreshToken =>
    obtain ⟨⟨admin, hAdmin⟩, hAdds⟩ := adminLogout_names hRun
    cases hRow : w.db.refreshToken refreshToken with
    | none =>
      rw [hRow] at hAdds
      exact .inr ⟨rfl, none, none, .nobody, hAdds⟩
    | some row =>
      rw [hRow] at hAdds
      exact .inr ⟨rfl, some row.userId, none, .refreshToken rfl hAdmin hRow, hAdds⟩
  | mfaEnroll token | mfaConfirm token | mfaDisable token | patchMe token
  | changePassword token | revokeSession token | revokeAllSessions token | createWorkspace token =>
    obtain ⟨user, m, hUser, hRun⟩ := Handler.run_bind_ok.mp hRun
    refine .inr ⟨rfl, some user.id, none, .signedIn List.mem_cons_self ⟨m, hUser⟩,
      adds_of_returns ?_ hRun⟩
    repeat refine Returns.bind fun _ => ?_
    exact adds_written _ _
  | acceptInvitation token invitation =>
    obtain ⟨user, ⟨db, cache⟩, hUser, hRun⟩ := Handler.run_bind_ok.mp hRun
    obtain ⟨membership, m', hAccept, hRun⟩ := Handler.run_bind_ok.mp hRun
    obtain ⟨hDb, hRow, -⟩ := requireVerified_ok hUser
    obtain rfl : db = w.db := hDb
    obtain ⟨i, hRedeems, rfl, -⟩ := acceptInvitation_ok hRow hAccept
    exact .inr ⟨rfl, some user.id, some i.tenantId, .newcomer rfl ⟨_, hUser⟩ hRedeems,
      adds_written _ _ _ _ _ hRun⟩
  | changeMemberRole token header | removeMember token header | initiateTransfer token header
  | createInvitation token header | cancelInvitation token header
  | toggleMfaEnforcement token header =>
    obtain ⟨tenant, actor, m, hActs, -, hRun⟩ := run_acts hRun
    refine .inr ⟨rfl, some actor.userId, some tenant.id, .member List.mem_cons_self hActs,
      adds_of_returns ?_ hRun⟩
    repeat refine Returns.bind fun _ => ?_
    exact adds_written _ _
  | leaveTenant token header | acceptTransfer token header =>
    obtain ⟨⟨tenant, actor⟩, m, hGuard, hRun⟩ := Handler.run_bind_ok.mp hRun
    refine .inr ⟨rfl, some actor.userId, some tenant.id,
      .member List.mem_cons_self (getTenantContext_acts hGuard).2, ?_⟩
    exact adds_of_returns (.bind fun _ => adds_written _ _) hRun
  | createCheckoutSession token header planId =>
    obtain ⟨⟨tenant, actor⟩, m, hGuard, hRun⟩ := Handler.run_bind_ok.mp hRun
    obtain ⟨⟨tenant', actor'⟩, m', hContext, hGuard⟩ := Handler.run_bind_ok.mp hGuard
    simp only [Handler.run_ensure_bind_ok, Handler.run_pure_ok, Prod.mk.injEq] at hGuard
    obtain ⟨-, ⟨rfl, rfl⟩, rfl⟩ := hGuard
    refine .inr ⟨rfl, some actor'.userId, some tenant'.id,
      .member List.mem_cons_self (getTenantContext_acts hContext).2, ?_⟩
    exact adds_of_returns (.bind fun _ => adds_written _ _) hRun
  | suspendTenant token | reactivateTenant token | softDeleteTenant token
  | forcePasswordReset token =>
    obtain ⟨admin, hAdmin, -, rfl⟩ := asAdmin_names hRun
    exact .inr ⟨rfl, some admin.id, none, .admin List.mem_cons_self hAdmin, _, rfl, rfl, rfl, rfl⟩
  | blockUser token userId tenantId | unblockUser token userId tenantId =>
    obtain ⟨admin, hAdmin, hDone, rfl⟩ := asAdmin_names hRun
    obtain ⟨_, hFound⟩ : ∃ m, w.db.membership userId tenantId = some m := by
      simp only [blockUser, unblockUser, setBlocked, Handler.run_query_bind,
        Handler.run_orRaise_bind_ok] at hDone
      exact ⟨_, hDone.choose_spec.1⟩
    exact .inr ⟨rfl, some admin.id, some tenantId, .adminOf (by simp) hAdmin hFound, _, rfl, rfl,
      rfl, rfl⟩

end Rows

end WxcodeAdm
