import WxcodeAdm.Footprint

/-! The reset mails in the arq queue.  `forgot_password` and `force_password_reset` put them there,
one at a time, and no other request does. -/

namespace WxcodeAdm

open Lib

variable {cfg : Config} {c : Ctx} {s s' : Sys} {e : Event} {w w' : World}

/-- The user, the address and the token of a reset mail. -/
def Job.resetMail : Job → Option (Uuid × String × TimedToken Json)
  | .sendResetEmail userId email token => some (userId, email, token)
  | _ => none

def Redis.resetMails (r : Redis) : List (Uuid × String × TimedToken Json) :=
  r.jobs.filterMap Job.resetMail

def NoResetMail (w w' : World) : Prop := w'.cache.resetMails = w.cache.resetMails

instance : Std.Refl NoResetMail := ⟨fun _ => rfl⟩

instance : IsTrans World NoResetMail := ⟨fun _ _ _ h h' => h'.trans h⟩

theorem NoResetMail.of_eq (h : w'.cache.jobs = w.cache.jobs) : NoResetMail w w' :=
  congrArg (List.filterMap Job.resetMail) h

theorem Touches.noResetMail {α : Type} {parts : List Part} {h : App α} (ht : Touches parts h)
    (hJobs : Part.jobs ∉ parts) : Handler.Within NoResetMail h := fun s => .of_eq (ht .jobs hJobs s)

theorem NoResetMail.enqueueJob {job : Job} (hJob : job.resetMail = none) :
    Handler.Within NoResetMail (enqueueJob job) :=
  .store fun s => by simp [NoResetMail, Redis.resetMails, hJob]

/-! ### The requests that send other mail -/

theorem signup_noResetMail (email password : String) :
    Handler.Within NoResetMail (signup c email password) :=
  .bind (.query _) fun _ => .bind (.ensure _ _) fun _ =>
    .bind ((touches_addUser _).noResetMail (by simp)) fun _ =>
    .bind (touches_flush.noResetMail (by simp)) fun _ =>
    .bind ((createVerificationCode_touches _).noResetMail (by simp)) fun _ =>
    .bind (.enqueueJob rfl) fun _ => .pure _

theorem resendVerification_noResetMail (email : String) :
    Handler.Within NoResetMail (resendVerification c email) :=
  .bind (.query _) fun found => by
    cases found with
    | none => exact .pure _
    | some _ =>
      exact .ite (.pure _) <| .bind (.lookup _) fun _ => .bind (.ensure _ _) fun _ =>
        .bind ((createVerificationCode_touches _).noResetMail (by simp)) fun _ =>
        .enqueueJob rfl

theorem resolveOauthAccount_noResetMail (provider email puid : String) (ua ip : Option String) :
    Handler.Within NoResetMail (resolveOauthAccount c provider email puid ua ip) :=
  .bind (.query _) fun account => by
    cases account with
    | some account => exact (oauthLogin_touches account ua ip).noResetMail (by simp)
    | none =>
      refine .bind (.query _) fun user => ?_
      cases user with
      | some _ =>
        exact .ite (.bind (touches_oauthLink.noResetMail (by simp)) fun _ => .pure _) (.throw _)
      | none =>
        exact .bind ((touches_addUser _).noResetMail (by simp)) fun _ =>
          .bind (touches_flush.noResetMail (by simp)) fun _ =>
          .bind ((addOAuthAccount_touches _).noResetMail (by simp)) fun _ =>
          .bind ((createVerificationCode_touches _).noResetMail (by simp)) fun _ =>
          .bind (.enqueueJob rfl) fun _ => .bind (.query _) fun _ =>
          .bind ((issueTokens_touches _ _ _).noResetMail (by simp)) fun _ => .pure _

theorem updateProfile_noResetMail (user : User) (data : UpdateProfileRequest) :
    Handler.Within NoResetMail (updateProfile c user data) :=
  .bind (touches_users.noResetMail (by simp)) fun _ => by
    cases data.email with
    | none => exact .pure _
    | some _ =>
      exact .ite (.pure _) <| .bind (.query _) fun _ => .bind (.ensure _ _) fun _ =>
        .bind (touches_users.noResetMail (by simp)) fun _ =>
        .bind ((createVerificationCode_touches _).noResetMail (by simp)) fun _ =>
        .enqueueJob rfl

theorem inviteUser_noResetMail (tenant : Tenant) (membership : TenantMembership)
    (body : InviteRequest) : Handler.Within NoResetMail (inviteUser c tenant membership body) :=
  .bind (.ensure _ _) fun _ => .bind (.query _) fun _ => .bind (.ensure _ _) fun _ =>
    .bind (.query _) fun _ => .bind (.ensure _ _) fun _ =>
    .bind (touches_invitations.noResetMail (by simp)) fun _ =>
    .bind (touches_flush.noResetMail (by simp)) fun _ => .bind (.enqueueJob rfl) fun _ =>
    .pure _

theorem handlePaymentFailed_noResetMail (dataObject : Json) :
    Handler.Within NoResetMail (handlePaymentFailed c dataObject) :=
  .bind ((invoiceSubscription_touches dataObject).noResetMail (by simp)) fun found => by
    cases found with
    | none => exact .pure _
    | some _ =>
      exact .bind (touches_subscriptions.noResetMail (by simp)) fun _ => .bind (.query _) fun _ =>
        .bind ((revokeSessionsOf_touches _).noResetMail (by simp)) fun _ => .bind (.query _)
        fun _ => .bind (.query _) fun _ => .forM (fun _ => .enqueueJob rfl) _

theorem processStripeEvent_noResetMail (eventId eventType : String) (dataObject : Json) :
    Handler.Within NoResetMail (processStripeEvent c eventId eventType dataObject) :=
  .bind (.query _) fun found => by
    cases found with
    | some _ => exact .pure _
    | none =>
      refine .bind ?_ fun _ => .bind (touches_webhookEvents.noResetMail (by simp)) fun _ =>
        touches_flush.noResetMail (by simp)
      unfold handleStripeEvent
      split
      · exact (handleCheckoutCompleted_touches dataObject).noResetMail (by simp)
      · exact (handleSubscriptionUpdated_touches dataObject).noResetMail (by simp)
      · exact (handleSubscriptionDeleted_touches dataObject).noResetMail (by simp)
      · exact (handleInvoicePaid_touches dataObject).noResetMail (by simp)
      · exact handlePaymentFailed_noResetMail dataObject
      · exact .pure _

theorem handle_noResetMail {r : Request} (hForgot : ∀ email, r ≠ .forgotPassword email)
    (hForce : ∀ token userId, r ≠ .forcePasswordReset token userId) :
    Handler.Within NoResetMail (handle c r) := by
  by_cases hQuiet : Part.jobs ∉ r.parts
  · exact (handle_touches r).noResetMail hQuiet
  · cases r with
    | signup => exact .bind (signup_noResetMail _ _) fun _ => .pure _
    | resendVerification => exact .bind (resendVerification_noResetMail _) fun _ => .pure _
    | oauthCallback =>
      exact .bind (.ensure _ _) fun _ => .bind (resolveOauthAccount_noResetMail _ _ _ _ _)
        fun _ => .pure _
    | patchMe =>
      exact .bind ((requireVerified_touches _).noResetMail (by simp)) fun _ =>
        .bind (.ensure _ _) fun _ => .bind (updateProfile_noResetMail _ _) fun _ => .pure _
    | createInvitation =>
      exact .bind ((requireRole_touches _ _ _).noResetMail (by simp)) fun _ =>
        .bind ((enforceMemberCap_touches _).noResetMail (by simp)) fun _ =>
        .bind (inviteUser_noResetMail _ _ _) fun _ => .pure _
    | stripeEvent => exact .bind (processStripeEvent_noResetMail _ _ _) fun _ => .pure _
    | forgotPassword email => exact absurd rfl (hForgot email)
    | forcePasswordReset token userId => exact absurd rfl (hForce token userId)
    | _ => simp [Request.parts] at hQuiet

/-! ### The requests that send reset mail -/

/-- The request mails the user a token that is made for the address and the hash that the user
has. -/
structure ResetMailed (c : Ctx) (w w' : World) (userId : Uuid) (email : String)
    (token : TimedToken Json) : Prop where
  mails : w'.cache.resetMails = w.cache.resetMails ++ [(userId, email, token)]
  token : ∃ user, w.db.user userId = some user ∧ user.email = email ∧
    token = generateResetToken c email (resetSalt c user)

/-- The request sends no reset mail, or one. -/
def SendsResetMail (c : Ctx) (w w' : World) : Prop :=
  NoResetMail w w' ∨ ∃ userId email token, ResetMailed c w w' userId email token

theorem SendsResetMail.of_jobs {user : User} (hUser : w.db.user user.id = some user)
    (hJobs : w'.cache.jobs = w.cache.jobs ++ [.sendResetEmail user.id user.email
      (generateResetToken c user.email (resetSalt c user))]) : SendsResetMail c w w' := by
  refine .inr ⟨user.id, user.email, _, ?_, user, hUser, rfl, rfl⟩
  rw [Redis.resetMails, hJobs, List.filterMap_append]
  rfl

theorem forgotPassword_mails (hValid : w.db.Valid) (email : String) :
    SendsResetMail c w ((forgotPassword c email).final w) := by
  simp only [forgotPassword, Handler.final_query_bind]
  split
  · exact .inl rfl
  · rename_i user hUser
    obtain rfl : user.email = email := by simpa using List.find?_some hUser
    exact .of_jobs (hValid.user_of_mem (List.mem_of_find?_eq_some hUser)) rfl

/-- `force_password_reset` up to the mail. -/
def forceSteps (c : Ctx) (userId : Uuid) : App Unit := do
  .exec fun db => db.updateUser userId fun u => { u with passwordResetRequired := true }
  revokeSessionsOf c [userId]
  flush

theorem forceSteps_touches (userId : Uuid) :
    Touches [.users, .blacklist, .refreshTokens, .sessions] (forceSteps c userId) :=
  .sub (.bind (touches_updateUser fun _ => rfl) fun _ => .bind (revokeSessionsOf_touches _) fun _ =>
    touches_flush) (by simp)

theorem forcePasswordReset_eq (userId : Uuid) :
    forcePasswordReset c userId = (do
      let found ← .query fun db => db.user userId
      let user ← .orRaise found (.notFound "USER_NOT_FOUND" "User not found")
      forceSteps c userId
      enqueueJob (.sendResetEmail user.id user.email
        (generateResetToken c user.email (resetSalt c user)))) := by
  simp only [forcePasswordReset, forceSteps, bind_assoc]

theorem forcePasswordReset_mails (userId : Uuid) :
    SendsResetMail c w ((forcePasswordReset c userId).final w) := by
  rw [forcePasswordReset_eq, Handler.final_query_bind, Handler.final_orRaise_bind]
  cases hUser : w.db.user userId with
  | none => exact .inl rfl
  | some user =>
    have hJobs : ((forceSteps c userId).final w).cache.jobs = w.cache.jobs :=
      forceSteps_touches userId .jobs (by simp) w
    rw [Option.elim_some, Handler.final_bind]
    rw [Handler.final] at hJobs
    cases hSteps : (forceSteps c userId).run w with
    | ok _ m =>
      rw [hSteps] at hJobs
      exact .of_jobs (Db.user_id hUser ▸ hUser) (congrArg (· ++ [_]) hJobs)
    | error _ m =>
      rw [hSteps] at hJobs
      exact .inl (.of_eq hJobs)

theorem Step.resetMail (hs : s.Sound cfg) (h : Step cfg s e s') :
    SendsResetMail (e.ctx cfg) s.world s'.world := by
  have hCache : s'.world.cache = ((handle (e.ctx cfg) e.request).final s.world).cache := by
    rw [← serve_cache, h.served]
  suffices hHandle : SendsResetMail (e.ctx cfg) s.world
      ((handle (e.ctx cfg) e.request).final s.world) by
    rcases hHandle with hNone | ⟨userId, email, token, hMails, hToken⟩
    · exact .inl (by rw [NoResetMail, hCache, hNone])
    · exact .inr ⟨userId, email, token, by rw [hCache, hMails], hToken⟩
  cases hRequest : e.request with
  | forgotPassword email =>
    rw [handle, Handler.final_bind_of_within_eq (by exact fun _ => .pure _)]
    exact forgotPassword_mails hs.valid email
  | forcePasswordReset token userId =>
    have hGuard : Handler.Within NoResetMail (discard (requireAdmin (e.ctx cfg) token)) :=
      .bind ((requireAdmin_touches token).noResetMail (by simp)) fun _ => .pure _
    have hQuiet := hGuard s.world
    rw [Handler.final] at hQuiet
    rw [handle, Handler.final_bind]
    cases hAdmin : (discard (requireAdmin (e.ctx cfg) token)).run s.world with
    | ok _ m =>
      obtain ⟨_, hAdmin⟩ := Handler.run_discard_ok.mp hAdmin
      obtain ⟨_, -, -, -, -, -, -, -, rfl⟩ := requireAdmin_ok.mp hAdmin
      dsimp only
      rw [Handler.final_bind_of_within_eq (by exact fun _ => .pure _)]
      exact forcePasswordReset_mails userId
    | error _ m =>
      rw [hAdmin] at hQuiet
      exact .inl hQuiet
  | _ => exact .inl (handle_noResetMail (by simp) (by simp) s.world)

end WxcodeAdm
