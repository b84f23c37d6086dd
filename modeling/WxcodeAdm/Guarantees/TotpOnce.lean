import WxcodeAdm.System

/-! How often a TOTP code can be used.  `mfa_verify` remembers one code for each user: the string
that it accepted last, for 60 seconds.  A code is refused again only while it is that string and has
the shape of a TOTP code, and the value of a time step is acceptable for 90 seconds and in every
spelling that normalises to it. -/

namespace WxcodeAdm

open Lib

/-- The user and the code that `mfa_verify` lets pass as a TOTP code, and remembers. -/
def Request.passesTotp (c : Ctx) (w : World) : Request → Option (Uuid × String)
  | .mfaVerify body _ _ =>
    match w.cache.mfaPending.get c.now body.mfaToken with
    | some (.plain userId) =>
      (w.db.user userId).bind fun user =>
        if user.isActive = true ∧ replayedCode c userId body.code w.cache = false ∧
            totpVerify c user.mfaSecret body.code = .ok true then some (userId, body.code)
        else none
    | _ => none
  | _ => none

def remember (now : Nat) (passed : Option (Uuid × String)) (used : Expiring Uuid String) :
    Expiring Uuid String :=
  match passed with
  | some (userId, code) => used.set now userId code (seconds 60)
  | none => used

variable {cfg : Config} {c : Ctx} {w w' : World} {s₀ s s' : Sys} {e : Event}
  {steps : List (Sys × Event)} {userId : Uuid} {code : String}

/-! ### The remembered code -/

theorem completeMfaLogin_mfaUsed (user : User) (body : MfaVerifyRequest) (ua ip : Option String) :
    ((completeMfaLogin c user body ua ip).final w).cache.mfaUsed = w.cache.mfaUsed := by
  have h := completeMfaLogin_evolves (c := c) (P := fun p => p = .issue) rfl user body ua ip w
  exact h.mfaUsed.resolve_left (by simp)

theorem redeemBackupCode_mfaUsed (userId : Uuid) (code : String) :
    ((redeemBackupCode c userId code).final w).cache.mfaUsed = w.cache.mfaUsed := by
  have h := redeemBackupCode_evolves (c := c) (P := fun _ => False) userId code w
  exact h.mfaUsed.resolve_left id

/-- A code is remembered when TOTP accepts it, whatever comes after. -/
theorem secondFactor_mfaUsed (user : User) (body : MfaVerifyRequest) (ua ip : Option String) :
    ((verifySecondFactor c user body.code >>= fun _ =>
        completeMfaLogin c user body ua ip).final w).cache.mfaUsed =
      if totpVerify c user.mfaSecret body.code = .ok true then
        w.cache.mfaUsed.set c.now user.id body.code (seconds 60)
      else w.cache.mfaUsed := by
  rw [verifySecondFactor, bind_assoc, Handler.final_ofExcept_bind]
  cases totpVerify c user.mfaSecret body.code with
  | error error => simp
  | ok valid =>
    cases valid with
    | true => exact completeMfaLogin_mfaUsed user body ua ip
    | false =>
      have hRedeem := redeemBackupCode_mfaUsed (c := c) (w := w) user.id body.code
      simp only [Bool.false_eq_true, if_false, Except.ok.injEq, Handler.final_bind]
      cases hRun : (redeemBackupCode c user.id body.code).run w with
      | ok a m =>
        rw [Handler.final, hRun] at hRedeem
        exact (completeMfaLogin_mfaUsed user body ua ip).trans hRedeem
      | error error m => rwa [Handler.final, hRun] at hRedeem

/-- What `mfa_verify` remembers, whether it returns tokens in the end or not. -/
theorem mfaVerify_mfaUsed (body : MfaVerifyRequest) (ua ip : Option String) :
    ((mfaVerify c body ua ip).final w).cache.mfaUsed =
      remember c.now ((Request.mfaVerify body ua ip).passesTotp c w) w.cache.mfaUsed := by
  simp only [mfaVerify, Request.passesTotp, Handler.final_lookup_bind, Handler.final_orRaise_bind]
  cases w.cache.mfaPending.get c.now body.mfaToken with
  | none => rfl
  | some pending =>
    cases pending with
    | setupRequired id => rfl
    | plain userId =>
      simp only [Option.elim_some, pendingUserId, Handler.final_ofExcept_bind,
        Handler.final_query_bind, Handler.final_orRaise_bind]
      cases hUser : w.db.user userId with
      | none => rfl
      | some user =>
        simp only [Option.elim_some, Option.bind_some, Handler.final_ensure_bind,
          Handler.final_lookup_bind]
        by_cases hActive : user.isActive = true
        · by_cases hReplayed : replayedCode c userId body.code w.cache = false
          · rw [if_pos hActive, if_pos hReplayed, secondFactor_mfaUsed, Db.user_id hUser]
            by_cases hValid : totpVerify c user.mfaSecret body.code = .ok true
            · simp [hActive, hReplayed, hValid, remember]
            · simp [hValid, remember]
          · simp [hActive, hReplayed, remember]
        · simp [hActive, remember]

/-- A step remembers the code that it lets pass, and no other step changes what is remembered. -/
theorem Step.mfaUsed (hs : s.Sound cfg) (h : Step cfg s e s') :
    s'.world.cache.mfaUsed =
      remember e.now (e.request.passesTotp (e.ctx cfg) s.world) s.world.cache.mfaUsed := by
  cases hRequest : e.request with
  | mfaVerify body ua ip =>
    have hServed := serve_cache (e.ctx cfg) (.mfaVerify body ua ip) s.world
    rw [← hRequest, h.served] at hServed
    rw [hServed, hRequest]
    refine Eq.trans ?_ (mfaVerify_mfaUsed (c := e.ctx cfg) body ua ip)
    rw [handle, Handler.final_bind_of_within_eq]
    exact fun _ => .pure _
  | _ =>
    refine (h.evolves hs).mfaUsed.resolve_left ?_
    simp [hRequest, Request.powers, Request.checksTotp]

/-- The code of the user that was let pass last in a run, with its time. -/
def lastPassed (cfg : Config) (userId : Uuid) (steps : List (Sys × Event)) :
    Option (Nat × String) :=
  steps.foldl (fun last p =>
    match p.2.request.passesTotp (p.2.ctx cfg) p.1.world with
    | some (u, code) => if u = userId then some (p.2.now, code) else last
    | none => last) none

theorem lastPassed_snoc (p : Sys × Event) :
    lastPassed cfg userId (steps ++ [p]) =
      match p.2.request.passesTotp (p.2.ctx cfg) p.1.world with
      | some (u, code) => if u = userId then some (p.2.now, code) else lastPassed cfg userId steps
      | none => lastPassed cfg userId steps := by
  simp only [lastPassed, List.foldl_append, List.foldl_cons, List.foldl_nil]

/-- What Redis remembers is the code let pass last, for 60 seconds. -/
theorem mfaUsed_of_run (hInit : Initial s₀) (hRun : Run (Step cfg) s₀ steps s) (now : Nat) :
    s.world.cache.mfaUsed.get now userId = (lastPassed cfg userId steps).bind fun last =>
      if now < last.1 + seconds 60 then some last.2 else none := by
  induction hRun with
  | nil => simp [hInit.cache, lastPassed]
  | @snoc steps m s' e hBefore hStep ih =>
    have hSound : m.Sound cfg := hBefore.invariant (fun hs hStep => hStep.sound hs) hInit.sound
    rw [hStep.mfaUsed hSound, lastPassed_snoc]
    cases hPassed : e.request.passesTotp (e.ctx cfg) m.world with
    | none => exact ih
    | some passed =>
      obtain ⟨u, code⟩ := passed
      simp only [remember]
      by_cases hUser : u = userId
      · subst hUser
        rw [Expiring.get_set_same, if_pos rfl, Option.bind_some]
      · rw [Expiring.get_set_other (Ne.symm hUser), if_neg hUser, ih]

/-- The replay check refuses exactly the string let pass last, within 60 seconds, if it has the
shape of a TOTP code. -/
theorem replayedCode_iff (hInit : Initial s₀) (hRun : Run (Step cfg) s₀ steps s) :
    replayedCode c userId code s.world.cache = true ↔ isTotpCode c code = true ∧
      ∃ time, lastPassed cfg userId steps = some (time, code) ∧ c.now < time + seconds 60 := by
  rw [replayedCode, Bool.and_eq_true, decide_eq_true_eq, mfaUsed_of_run hInit hRun,
    Option.bind_eq_some_iff]
  refine and_congr_right fun _ => ?_
  constructor
  · rintro ⟨⟨time, last⟩, hPassed, hRead⟩
    split at hRead
    · obtain rfl := Option.some.inj hRead
      exact ⟨time, hPassed, ‹_›⟩
    · cases hRead
  · rintro ⟨time, hPassed, hSoon⟩
    exact ⟨(time, code), hPassed, if_pos hSoon⟩

/-! ### Once -/

/-- The step submits, for the user, a code that is acceptable for the TOTP value of a time step. -/
def SubmitsTotp (cfg : Config) (p : Sys × Event) (userId : Uuid) (secret : String) (step : Nat)
    (code : String) : Prop :=
  ∃ body ua ip user, p.2.request = .mfaVerify body ua ip ∧ body.code = code ∧
    p.1.world.cache.mfaPending.get p.2.now body.mfaToken = some (.plain userId) ∧
    p.1.world.db.user userId = some user ∧ user.mfaSecret = some secret ∧
    step ∈ totpWindow (p.2.ctx cfg) ∧
    stringsEqual (p.2.ctx cfg) code (cfg.lib.totpAt secret step) = true

def AcceptsTotp (cfg : Config) (p : Sys × Event) (userId : Uuid) (secret : String) (step : Nat) :
    Prop :=
  (∃ code, SubmitsTotp cfg p userId secret step code) ∧ ∃ response, p.2.outcome = .ok response

/-- If the step submits a value that was accepted before, then it submits the very string that was
let pass last, within 60 seconds, and the string has the shape of a TOTP code. -/
def ResubmitsAtOnce (cfg : Config) (past : List (Sys × Event)) (p : Sys × Event) : Prop :=
  ∀ userId secret step code, SubmitsTotp cfg p userId secret step code →
    (∃ q ∈ past, AcceptsTotp cfg q userId secret step) →
    isTotpCode (p.2.ctx cfg) code = true ∧
      ∃ time, lastPassed cfg userId past = some (time, code) ∧ p.2.now < time + seconds 60

theorem mfaVerify_notReplayed {body : MfaVerifyRequest} {ua ip : Option String}
    {result : MfaVerifyResult}
    (hPending : w.cache.mfaPending.get c.now body.mfaToken = some (.plain userId))
    (h : (mfaVerify c body ua ip).run w = .ok result w') :
    replayedCode c userId body.code w.cache = false := by
  simp only [mfaVerify, Handler.run_lookup_bind, hPending, Handler.run_orRaise_bind_ok,
    Option.some.injEq, exists_eq_left', pendingUserId, Handler.run_ofExcept_bind_ok,
    Except.ok.injEq, Handler.run_query_bind, Handler.run_ensure_bind_ok] at h
  obtain ⟨user, -, -, hReplayed, -⟩ := h
  exact hReplayed

/-- In a run in which every value that comes again comes as the same string, within 60 seconds and
with nothing let pass in between, no value of a time step is accepted twice. -/
theorem totp_accepted_once (hInit : Initial s₀) (hRun : Run (Step cfg) s₀ steps s)
    (hAtOnce : AtEach (ResubmitsAtOnce cfg) steps) :
    steps.Pairwise fun p q => ∀ userId secret step,
      AcceptsTotp cfg p userId secret step → ¬AcceptsTotp cfg q userId secret step := by
  induction hRun with
  | nil => exact .nil
  | @snoc steps m s' e hBefore hStep ih =>
    obtain ⟨hEarlier, hNow⟩ := atEach_snoc.mp hAtOnce
    rw [List.pairwise_append]
    refine ⟨ih hEarlier, List.pairwise_singleton _ _, ?_⟩
    rintro q hq _ hLast userId secret step hBefore' ⟨⟨code, hSubmits⟩, response, hOk⟩
    obtain rfl := List.mem_singleton.mp hLast
    have hReplayed := (replayedCode_iff (c := e.ctx cfg) hInit hBefore).mpr
      (hNow _ _ _ _ hSubmits ⟨q, hq, hBefore'⟩)
    obtain ⟨body, ua, ip, user, hRequest, rfl, hPending, -⟩ := hSubmits
    have hServed := (hStep.committed hOk).1
    dsimp only at hRequest
    rw [hRequest] at hServed
    obtain ⟨result, m', hVerify, -⟩ := Handler.run_bind_ok.mp hServed
    exact Bool.false_ne_true ((mfaVerify_notReplayed hPending hVerify).symm.trans hReplayed)

/-! ### Two runs -/

theorem stepTwo_length : 6 ≤ "100002".length ∧ "100002".length ≤ 11 := by decide

/-- The TOTP value of the time step from 60 to 90 seconds, with the token of a pending login. -/
def stepTwoCode (mfaToken : PyStr) : MfaVerifyRequest :=
  ⟨mfaToken, "100002", false, stepTwo_length⟩

def firstLogin : Event × Sys :=
  enrolledStart.sample (seconds 40) (.login "alice@example.com" "pw" none none none)

def firstVerify : Event × Sys :=
  firstLogin.2.sample (seconds 40) (.mfaVerify (stepTwoCode "mfa-0") none none)

def secondLogin (now : Nat) : Event × Sys :=
  firstVerify.2.sample now (.login "alice@example.com" "pw" none none none)

def secondVerify (now : Nat) : Event × Sys :=
  (secondLogin now).2.sample now (.mfaVerify (stepTwoCode "mfa-2") none none)

def codeTwice (now : Nat) : List (Sys × Event) :=
  [(enrolledStart, firstLogin.1), (firstLogin.2, firstVerify.1),
    (firstVerify.2, (secondLogin now).1), ((secondLogin now).2, (secondVerify now).1)]

theorem codeTwice_run (now : Nat)
    (hLogin : firstVerify.2.Admits sampleConfig now (sampleDraws 2)
      (.login "alice@example.com" "pw" none none none))
    (hVerify : (secondLogin now).2.Admits sampleConfig now (sampleDraws 3)
      (.mfaVerify (stepTwoCode "mfa-2") none none)) :
    Run (Step sampleConfig) enrolledStart (codeTwice now) (secondVerify now).2 :=
  have hFirstLogin : Step sampleConfig enrolledStart firstLogin.1 firstLogin.2 :=
    .of_admits (by decide) (by trivial)
  have hFirstVerify : Step sampleConfig firstLogin.2 firstVerify.1 firstVerify.2 :=
    .of_admits (by decide) (by trivial)
  have hSecondLogin : Step sampleConfig firstVerify.2 (secondLogin now).1 (secondLogin now).2 :=
    .of_admits hLogin (by trivial)
  have hSecondVerify :
      Step sampleConfig (secondLogin now).2 (secondVerify now).1 (secondVerify now).2 :=
    .of_admits hVerify (by trivial)
  .cons hFirstLogin <| .cons hFirstVerify <| .cons hSecondLogin <| .single hSecondVerify

theorem acceptsTotp_stepTwo {p : Sys × Event} {mfaToken : PyStr} {response : Response}
    (hRequest : p.2.request = .mfaVerify (stepTwoCode mfaToken) none none)
    (hPending : p.1.world.cache.mfaPending.get p.2.now mfaToken = some (.plain ⟨1⟩))
    (hUser : p.1.world.db.user ⟨1⟩ =
      some { sampleUser with mfaEnabled := true, mfaSecret := some "secret" })
    (hWindow : 2 ∈ totpWindow (p.2.ctx sampleConfig)) (hOk : p.2.outcome = .ok response) :
    AcceptsTotp sampleConfig p ⟨1⟩ "secret" 2 :=
  ⟨⟨"100002", _, _, _, _, hRequest, rfl, hPending, hUser, rfl, hWindow, by rfl⟩, response, hOk⟩

/-- The value of the step from 60 to 90 seconds is accepted at 40 seconds and again at 105, when
the memory of the first time has expired. -/
theorem totp_accepted_twice :
    ¬∀ (cfg : Config) (s₀ s : Sys) (steps : List (Sys × Event)), Initial s₀ →
      Run (Step cfg) s₀ steps s →
      steps.Pairwise fun p q => ∀ userId secret step,
        AcceptsTotp cfg p userId secret step → ¬AcceptsTotp cfg q userId secret step := by
  intro hClaim
  have hPairs := hClaim sampleConfig _ _ _ enrolledStart_initial
    (codeTwice_run (seconds 105) (by decide) (by decide))
  have hVerifies := (List.pairwise_cons.mp (List.pairwise_cons.mp hPairs).2).1
  refine hVerifies _ (List.mem_cons_of_mem _ (List.mem_cons_self ..)) ⟨1⟩ "secret" 2 ?_ ?_
  · exact acceptsTotp_stepTwo rfl rfl rfl (by decide) rfl
  · exact acceptsTotp_stepTwo rfl rfl rfl (by decide) rfl

theorem resubmitsAtOnce_login {past : List (Sys × Event)} {p : Sys × Event}
    {email : String} {password : PyStr}
    (hRequest : p.2.request = .login email password none none none) :
    ResubmitsAtOnce cfg past p := by
  rintro _ _ _ _ ⟨_, _, _, _, hVerify, -⟩
  cases hRequest.symm.trans hVerify

theorem codeTwice_atOnce : AtEach (ResubmitsAtOnce sampleConfig) (codeTwice (seconds 55)) := by
  refine atEach_snoc.mpr ⟨atEach_snoc.mpr ⟨atEach_snoc.mpr ⟨atEach_snoc (l := []).mpr
    ⟨atEach_nil, resubmitsAtOnce_login rfl⟩, ?_⟩, resubmitsAtOnce_login rfl⟩, ?_⟩
  · rintro userId secret step code - ⟨q, hq, ⟨_, _, _, _, _, hVerify, -⟩, -⟩
    obtain rfl := List.mem_singleton.mp hq
    cases hVerify
  · rintro userId secret step code ⟨body, ua, ip, user, hVerify, rfl, hPending, -⟩ -
    obtain ⟨rfl, -, -⟩ := Request.mfaVerify.inj hVerify
    obtain rfl := MfaPending.plain.inj (Option.some.inj hPending)
    exact ⟨by decide, seconds 40, by rfl, by decide⟩

/-- The law at a run whose second code is refused. -/
theorem totp_accepted_once_codeTwice :
    (codeTwice (seconds 55)).Pairwise fun p q => ∀ userId secret step,
      AcceptsTotp sampleConfig p userId secret step →
        ¬AcceptsTotp sampleConfig q userId secret step :=
  totp_accepted_once enrolledStart_initial
    (codeTwice_run (seconds 55) (by decide) (by decide)) codeTwice_atOnce

end WxcodeAdm
