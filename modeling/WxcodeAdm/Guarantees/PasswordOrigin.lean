import WxcodeAdm.Guarantees.AccountIsolation
import WxcodeAdm.Guarantees.ResetTokens

/-! Where a password comes from.  A user who is there gets another password only from someone who is
signed in as that user and knows the password of the time, or who has a reset token of that time
from a mail to the address of the user. -/

namespace WxcodeAdm

open Lib

/-- How a request sets the password hash of a user. -/
inductive SetsPassword (c : Ctx) (w : World) (id : Uuid) : Request → String → Prop
  | changed {token user} {current new : String}
      (guard : ∃ m, (requireVerified c token).run w = .ok user m)
      (is : user.id = id) (known : verifyPassword c current user.passwordHash = .ok true) :
      SetsPassword c w id (.changePassword token current new) (hashPassword c new)
  | reset {token new user payload} (found : w.db.user id = some user)
      (names : resetTokenEmail token = .ok user.email)
      (genuine : verifyResetToken c token (resetSalt c user) = .ok payload)
      (mailed : ∃ userId, .sendResetEmail userId user.email token ∈ w.cache.jobs) :
      SetsPassword c w id (.resetPassword token new) (hashPassword c new)

variable {cfg : Config} {s s' : Sys} {e : Event} {steps : List (Sys × Event)} {id : Uuid}

/-- A reset mail goes to the address that its token names. -/
def Redis.AddressedMails (r : Redis) : Prop :=
  ∀ userId email token, .sendResetEmail userId email token ∈ r.jobs →
    resetTokenEmail token = .ok email

theorem Redis.addressedMails_iff {r : Redis} :
    r.AddressedMails ↔ ∀ mail ∈ r.resetMails, resetTokenEmail mail.2.2 = .ok mail.2.1 := by
  constructor
  · rintro h ⟨userId, email, token⟩ hMail
    obtain ⟨job, hJob, hIs⟩ := List.mem_filterMap.mp hMail
    cases job <;> simp only [Job.resetMail, reduceCtorEq, Option.some.injEq, Prod.mk.injEq] at hIs
    obtain ⟨rfl, rfl, rfl⟩ := hIs
    exact h _ _ _ hJob
  · intro h userId email token hJob
    exact h (userId, email, token) (List.mem_filterMap.mpr ⟨_, hJob, rfl⟩)

theorem Step.addressedMails (hs : s.Sound cfg) (h : Step cfg s e s')
    (hMails : s.world.cache.AddressedMails) : s'.world.cache.AddressedMails := by
  rw [Redis.addressedMails_iff] at hMails ⊢
  rcases h.resetMail hs with hNone | ⟨userId, email, token, hSent, user, hUser, rfl, rfl⟩
  · rwa [hNone]
  · rw [hSent]
    intro mail hMail
    rcases List.mem_append.mp hMail with hOld | hNew
    · exact hMails mail hOld
    · obtain rfl := List.mem_singleton.mp hNew
      exact resetTokenEmail_generated (hs.valid.userAddress user (Db.user_mem hUser)).2

theorem Reachable.addressedMails (h : Reachable cfg s) : s.world.cache.AddressedMails := by
  obtain ⟨s₀, steps, hInit, hRun⟩ := h
  refine (hRun.invariant (I := fun m => m.Sound cfg ∧ m.world.cache.AddressedMails)
    (fun ⟨hs, hMails⟩ hStep => ⟨hStep.sound hs, hStep.addressedMails hs hMails⟩)
    ⟨hInit.sound, fun _ _ _ hJob => ?_⟩).2
  rw [hInit.cache] at hJob
  cases hJob

/-- A committed request that sets the hash of a user who is there is one of the two. -/
theorem Step.setsPassword (hs : s.Sound cfg) (hMails : s.world.cache.AddressedMails)
    (h : Step cfg s e s') (hHas : s.world.db.HasUser id)
    {hash : String} (hSets : e.setsHash cfg s.world.db = some (id, hash)) :
    (∃ response, e.outcome = .ok response) ∧
      SetsPassword (e.ctx cfg) s.world id e.request hash := by
  cases hOutcome : e.outcome with
  | error => simp [Event.setsHash, hOutcome] at hSets
  | ok response =>
    refine ⟨⟨response, rfl⟩, ?_⟩
    have hRun := (h.committed hOutcome).1
    have hGenuine := h.genuine
    cases hRequest : e.request with
    | signup email password =>
      rw [hRequest] at hRun
      obtain ⟨user, m, hSignup, -⟩ := Handler.run_bind_ok.mp hRun
      obtain ⟨hId, -, hNew, -⟩ := signup_ok hSignup
      simp only [Event.setsHash, hOutcome, hRequest, Option.some.injEq, Prod.mk.injEq] at hSets
      exact absurd (hSets.1 ▸ hHas) (hId ▸ hNew)
    | resetPassword token password =>
      rw [hRequest] at hRun hGenuine
      obtain ⟨⟨⟩, m, hReset, -⟩ := Handler.run_bind_ok.mp hRun
      obtain ⟨email, user, payload, hEmail, hUser, hVerify, -⟩ := resetPassword_ok hReset
      obtain ⟨-, signedAt, hSignature, -⟩ := verifyResetToken_ok.mp hVerify
      simp only [Event.setsHash, hOutcome, hRequest, hEmail, Except.toOption, Option.bind_some,
        hUser, Option.map_some, Option.some.injEq, Prod.mk.injEq] at hSets
      obtain ⟨rfl, rfl⟩ := hSets
      obtain rfl : user.email = email := by simpa using List.find?_some hUser
      obtain ⟨userId, address, hMail⟩ := hGenuine (hSignature ▸ rfl)
      obtain rfl : address = user.email :=
        Except.ok.inj ((hMails _ _ _ hMail).symm.trans hEmail)
      exact .reset (hs.valid.user_of_mem (List.mem_of_find?_eq_some hUser)) hEmail hVerify
        ⟨userId, hMail⟩
    | changePassword token current password =>
      rw [hRequest] at hRun
      obtain ⟨user, m, hSignedIn, hRun⟩ := Handler.run_bind_ok.mp hRun
      have hGuard := hSignedIn
      obtain ⟨p, rfl, hUser, hRun, -, -⟩ := run_signedIn hSignedIn hRun
      obtain ⟨⟨⟩, m', hChange, -⟩ := Handler.run_bind_ok.mp hRun
      simp only [changePassword, Handler.run_ensure_bind_ok, Handler.run_ofExcept_bind_ok] at hChange
      obtain ⟨-, _, hKnown, rfl, -⟩ := hChange
      simp only [Event.setsHash, hOutcome, hRequest, Option.some.injEq, Prod.mk.injEq] at hSets
      obtain ⟨rfl, rfl⟩ := hSets
      exact .changed ⟨m, hGuard⟩ (Db.user_id hUser) hKnown
    | _ => simp [Event.setsHash, hOutcome, hRequest] at hSets

/-- A user whose password is another one after a run has the one that was set last, by a change of
the user's own or by a reset. -/
theorem password_provenance (hReach : Reachable cfg s) (hRun : Run (Step cfg) s steps s')
    {user user' : User} (hUser : s.world.db.user id = some user)
    (hUser' : s'.world.db.user id = some user')
    (hChanged : user'.passwordHash ≠ user.passwordHash) :
    ∃ pre p post hash, steps = pre ++ p :: post ∧ user'.passwordHash = some hash ∧
      (∃ response, p.2.outcome = .ok response) ∧
      SetsPassword (p.2.ctx cfg) p.1.world id p.2.request hash ∧
      ∀ q ∈ post, ∀ later, q.2.setsHash cfg q.1.world.db ≠ some (id, later) := by
  have hStart : s.Sound cfg ∧ s.world.db.HasUser id :=
    ⟨hReach.sound, user, Db.user_mem hUser, Db.user_id hUser⟩
  have hThere {pre : List (Sys × Event)} {m : Sys} (h : Run (Step cfg) s pre m) :
      m.Sound cfg ∧ m.world.db.HasUser id :=
    h.invariant (I := fun m => m.Sound cfg ∧ m.world.db.HasUser id)
      (fun ⟨hs, hHas⟩ hStep => ⟨hStep.sound hs, hStep.hasUser hs hHas⟩) hStart
  have hLast := hRun.last_write (f := fun m => m.world.db.passwordHashOf id)
    (W := fun p hash => p.2.setsHash cfg p.1.world.db = some (id, hash))
    (L := fun hash a => a = some (some hash)) (fun {pre m e n} hPre hStep => ?_)
  · rw [Db.passwordHashOf, hUser', Db.passwordHashOf, hUser] at hLast
    rcases hLast with ⟨-, hSame⟩ | ⟨pre, p, post, hash, hSteps, hSets, hHash, hSince⟩
    · exact absurd (Option.some.inj hSame) hChanged
    · obtain ⟨n, hPre, hStep, -⟩ := hRun.split_at hSteps
      obtain ⟨hs, hHas⟩ := hThere hPre
      have hMails := (Reachable.run hReach hPre).addressedMails
      obtain ⟨hOk, hSetter⟩ := hStep.setsPassword hs hMails hHas hSets
      exact ⟨pre, p, post, hash, hSteps, Option.some.inj hHash, hOk, hSetter, hSince⟩
  · obtain ⟨hs, u, hu, hId⟩ := hThere hPre
    cases hSets : e.setsHash cfg m.world.db with
    | none =>
      refine .inl ⟨by simp, ?_⟩
      rcases hStep.keepsHashes hSets id with hSame | ⟨hNone, -⟩
      · exact hSame
      · rw [Db.passwordHashOf, ← hId, hs.valid.user_of_mem hu] at hNone
        cases hNone
    | some set =>
      obtain ⟨other, hash⟩ := set
      have hRehashed := hStep.rehashed hSets
      by_cases hSelf : other = id
      · subst hSelf
        exact .inr ⟨hash, rfl, hRehashed.self⟩
      · refine .inl ⟨?_, hRehashed.others id (Ne.symm hSelf)⟩
        exact fun later hLater => hSelf (congrArg Prod.fst (Option.some.inj hLater))

/-- Alice has another password after the late reset, and has it from there. -/
theorem password_provenance_lateReset :
    ∃ pre p post hash, lateSteps = pre ++ p :: post ∧ some "salt-1$new" = some hash ∧
      (∃ response, p.2.outcome = .ok response) ∧
      SetsPassword (p.2.ctx sampleConfig) p.1.world ⟨1⟩ p.2.request hash ∧
      ∀ q ∈ post, ∀ later, q.2.setsHash sampleConfig q.1.world.db ≠ some (⟨1⟩, later) :=
  @password_provenance _ _ _ _ _ sampleHome_initial.reachable lateReset_run sampleUser
    { sampleUser with passwordHash := some "salt-1$new" } (by decide) (by decide) (by decide)

end WxcodeAdm
