import WxcodeAdm.Concurrency
import WxcodeAdm.Lib.Leads

/-! The address that a verification code proves.  The code is stored under the id of the user, at
once, and the address that it was mailed to is stored with the row, at the commit.  Sign-ups,
changes of the address, resends and verifications of one user are run here side by side.  The two
come apart when a change of the address overlaps another, a resend or a verification. -/

namespace WxcodeAdm

open Lib

/-! ### The address and the code -/

/-- The committed address of the user, and whether it is verified. -/
def Db.address (db : Db) (userId : Uuid) : Option (String × Bool) :=
  (db.user userId).map fun u => (u.email, u.emailVerified)

/-- The code that is stored for the user, expired or not. -/
def Redis.code (r : Redis) (userId : Uuid) : Option String := (r.otp.entry userId).map fun e => e.1

/-- The writes change the address in this way. -/
def Writes (userId : Uuid) (g : Option (String × Bool) → Option (String × Bool))
    (p : Db → Db) : Prop :=
  ∀ db, (p db).address userId = g (db.address userId)

/-- The cache is left with no other code of the user, and no job less. -/
def KeepsCode (userId : Uuid) (r r' : Redis) : Prop :=
  (∀ x, r'.code userId = some x → r.code userId = some x) ∧ ∀ job ∈ r.jobs, job ∈ r'.jobs

variable {userId other : Uuid} {c : Ctx} {p : Db → Db}
  {g g' : Option (String × Bool) → Option (String × Bool)}

instance : Std.Refl (KeepsCode userId) := ⟨fun _ => ⟨fun _ h => h, fun _ h => h⟩⟩

theorem writes_id : Writes userId id id := fun _ => rfl

theorem Writes.comp {f : Db → Db} (hf : Writes userId g' f) (h : Writes userId g p) :
    Writes userId (g' ∘ g) (f ∘ p) := fun db => by
  rw [Function.comp, hf, h db, Function.comp]

theorem writes_updateUser {f : User → User} (hf : ∀ u, (f u).id = u.id)
    {move : String × Bool → String × Bool}
    (hMove : ∀ u, ((f u).email, (f u).emailVerified) = move (u.email, u.emailVerified)) :
    Writes userId (Option.map move) fun db => db.updateUser userId f := fun db => by
  rw [Db.address, Db.user_updateUser hf, Db.address, Option.map_map, Option.map_map]
  refine Option.map_congr fun u hu => ?_
  rw [Function.comp, if_pos (Db.user_id hu)]
  exact hMove u

theorem writes_updateUser_other {f : User → User} (hf : ∀ u, (f u).id = u.id)
    (h : other ≠ userId) : Writes userId id fun db => db.updateUser other f := fun db => by
  rw [Db.address, Db.user_updateUser hf, Option.map_map]
  refine Option.map_congr fun u hu => ?_
  rw [Function.comp, if_neg fun hSame => h (hSame.symm.trans (Db.user_id hu))]

theorem writes_of_users {f : Db → Db} (hf : ∀ db, (f db).users = db.users) :
    Writes userId id f := fun db => by
  rw [Db.address, Db.user, hf]
  rfl

theorem keepsCode_of_otp {r r' : Redis} (hOtp : r'.otp = r.otp) (hJobs : r'.jobs = r.jobs) :
    KeepsCode userId r r' := by
  constructor
  · intro x hx
    rwa [Redis.code, hOtp] at hx
  · intro job hJob
    rwa [hJobs]

theorem keepsCode_enqueue {job : Job} (r : Redis) :
    KeepsCode userId r { r with jobs := r.jobs ++ [job] } :=
  ⟨fun _ h => h, fun _ h => List.mem_append_left _ h⟩

theorem keepsCode_del (r : Redis) :
    KeepsCode userId r { r with
      otp := r.otp.del other
      otpAttempts := r.otpAttempts.del other } := by
  refine ⟨fun x hx => ?_, fun _ h => h⟩
  simp only [Redis.code, Expiring.del] at hx ⊢
  by_cases h : userId = other
  · rw [h, Function.update_self] at hx
    cases hx
  · rwa [Function.update_of_ne h] at hx

theorem keepsCode_set_other {now ttl : Nat} {code : String} (h : other ≠ userId) (r : Redis) :
    KeepsCode userId r { r with otp := r.otp.set now other code ttl } := by
  refine ⟨fun x hx => ?_, fun _ h => h⟩
  simp only [Redis.code, Expiring.set] at hx ⊢
  rwa [Function.update_of_ne h.symm] at hx

/-! ### How the requests proceed -/

/-- What is left of the request keeps the code, and it returns with writes that change the address
in this way. -/
abbrev Course {α : Type} (userId : Uuid) (g : Option (String × Bool) → Option (String × Bool))
    (p : Db → Db) (h : App α) : Prop :=
  h.Proceeds (KeepsCode userId) (fun _ p => Writes userId g p) (fun _ _ => False) p

/-- The request stores a code and enqueues it in a mail to the address. -/
def mailCode (c : Ctx) (userId : Uuid) (email : String) (k : Unit → App Response) : App Response :=
  createVerificationCode c userId >>= fun code =>
    enqueueJob (.sendVerificationEmail userId email code) >>= k

/-- The request has stored its code, and has yet to enqueue the mail. -/
inductive OwesMail (c : Ctx) (userId : Uuid) (email : String) (k : Unit → App Response) :
    App Response → Prop
  | attempts : OwesMail c userId email k
      (.store (fun r => { r with
          otpAttempts := r.otpAttempts.set c.now userId 0 (seconds 600) }) >>= fun _ =>
        .store (fun r => { r with
          otpCooldown := r.otpCooldown.set c.now userId () (seconds 60) }) >>= fun _ =>
        enqueueJob (.sendVerificationEmail userId email c.draws.otp) >>= k)
  | cooldown : OwesMail c userId email k
      (.store (fun r => { r with
          otpCooldown := r.otpCooldown.set c.now userId () (seconds 60) }) >>= fun _ =>
        enqueueJob (.sendVerificationEmail userId email c.draws.otp) >>= k)
  | mail : OwesMail c userId email k
      (enqueueJob (.sendVerificationEmail userId email c.draws.otp) >>= k)

/-- What is left of the request is the mail of a code, and then its course. -/
def ToMail (c : Ctx) (userId : Uuid) (email : String)
    (g : Option (String × Bool) → Option (String × Bool)) (p : Db → Db) (h : App Response) : Prop :=
  Writes userId g p ∧ ∃ k, h = mailCode c userId email k ∧ ∀ u, Course userId g p (k u)

section Statements

variable {email : String} {k : Unit → App Response} {rest : App Response} {s s' : World}
  {t : Thread Db Redis PyError Response}

/-- The SET of the code. -/
theorem mailCode_step
    (h : (Thread.running p (mailCode c userId email k)).step Db.Valid .integrityError s =
      some (s', t)) :
    s'.db = s.db ∧ s'.cache.code userId = some c.draws.otp ∧ s'.cache.jobs = s.cache.jobs ∧
      ∃ rest, t = .running p rest ∧ OwesMail c userId email k rest := by
  obtain ⟨rfl, rfl⟩ := Prod.mk.inj (Option.some.inj h)
  refine ⟨rfl, ?_, rfl, _, rfl, .attempts⟩
  rw [Redis.code]
  dsimp only [Expiring.set]
  rw [Function.update_self]
  rfl

/-- The statements up to the mail. -/
theorem OwesMail.step (hOwes : OwesMail c userId email k rest)
    (h : (Thread.running p rest).step Db.Valid .integrityError s = some (s', t)) :
    s'.db = s.db ∧ KeepsCode userId s.cache s'.cache ∧
      ((∃ rest', t = .running p rest' ∧ OwesMail c userId email k rest') ∨
        t = .running p (k ()) ∧
          .sendVerificationEmail userId email c.draws.otp ∈ s'.cache.jobs) := by
  cases hOwes with
  | attempts =>
    cases h
    exact ⟨rfl, keepsCode_of_otp rfl rfl, .inl ⟨_, rfl, .cooldown⟩⟩
  | cooldown =>
    cases h
    exact ⟨rfl, keepsCode_of_otp rfl rfl, .inl ⟨_, rfl, .mail⟩⟩
  | mail =>
    cases h
    exact ⟨rfl, keepsCode_enqueue _, .inr ⟨rfl, by simp⟩⟩

theorem course_flush {response : Response} (h : Writes userId g p) :
    Course userId g p (flush >>= fun _ => (pure response : App Response)) := by
  rw [flush, bind_assoc]
  exact .query_bind fun _ => .ensure_bind fun _ => .pure h

end Statements

/-- `require_verified` gives the user of the token. -/
theorem requireVerified_proceeds {q : Payload} :
    (requireVerified c (.signed q)).Proceeds (KeepsCode userId)
      (fun user p => p = id ∧ user.id = q.sub) (fun _ _ => False) id := by
  simp only [requireVerified, getCurrentUser, isTokenBlacklisted, bind_assoc]
  refine .ofExcept_bind fun q' hDecode => .lookup_bind fun _ => .ensure_bind fun _ =>
    .query_bind fun db => .orRaise_bind fun user hUser => .ensure_bind fun _ =>
    .ensure_bind fun _ => .store_bind (fun _ => keepsCode_of_otp rfl rfl) <|
    .ensure_bind fun _ => .pure ⟨rfl, ?_⟩
  cases (decodeFor_ok.mp hDecode).1
  exact Db.user_id hUser

def moved (email : String) : Option (String × Bool) → Option (String × Bool) :=
  Option.map fun _ => (email, false)

def added (email : String) (o : Option (String × Bool)) : Option (String × Bool) :=
  some (o.getD (email, false))

def verifiedNow : Option (String × Bool) → Option (String × Bool) := Option.map fun a => (a.1, true)

/-- `update_profile` comes to the mail of a code to the new address, or leaves the address. -/
theorem patchMe_proceeds {q : Payload} {body : UpdateProfileRequest} (hUser : q.sub = userId) :
    (transaction c (.patchMe (.signed q) body)).Proceeds (KeepsCode userId)
      (fun _ p => Writes userId id p)
      (fun p h => ∃ email, ToMail c userId email (moved email) p h) id := by
  simp only [transaction, handle, Router.patchMe, bind_assoc]
  refine .bind (requireVerified_proceeds.mono ?_ fun _ _ => id)
  rintro user p ⟨rfl, hSub⟩
  obtain rfl : user.id = userId := hSub.trans hUser
  have hName : Writes user.id id fun db => db.updateUser user.id fun u => { u with
      displayName := body.displayName <|> u.displayName } := by
    have hMap : Writes user.id (Option.map id) fun db => db.updateUser user.id fun u => { u with
        displayName := body.displayName <|> u.displayName } := by
      apply writes_updateUser <;> exact fun _ => rfl
    rwa [Option.map_id] at hMap
  simp only [updateProfile, bind_assoc]
  refine .ensure_bind fun _ => .exec_bind ?_
  cases body.email with
  | none => exact (course_flush hName).mono (fun _ _ h => h) (fun _ _ h => h.elim)
  | some email =>
    dsimp only
    split
    · exact (course_flush hName).mono (fun _ _ h => h) (fun _ _ h => h.elim)
    · simp only [changeEmail, bind_assoc]
      have hMove : Writes user.id (moved email) fun db => db.updateUser user.id fun u => { u with
          email, emailVerified := false } := by
        apply writes_updateUser <;> exact fun _ => rfl
      exact .query_bind fun _ => .ensure_bind fun _ => .exec_bind <| .of
        ⟨email, hMove.comp hName, _, rfl, fun _ => course_flush (hMove.comp hName)⟩

theorem added_address (db : Db) (user : User) (hVerified : user.emailVerified = false) :
    ({ db with users := db.users ++ [user] } : Db).address user.id =
      added user.email (db.address user.id) := by
  unfold Db.address Db.user
  rw [List.find?_append]
  cases db.users.find? fun u => u.id = user.id with
  | none => simp [added, hVerified]
  | some u => rfl

/-- `signup` comes to the mail of a code to the address of the new user. -/
theorem signup_proceeds {email password : String} (hUser : c.draws.userId = userId) :
    (transaction c (.signup email password)).Proceeds (KeepsCode userId)
      (fun _ p => Writes userId id p)
      (fun p h => ∃ email, ToMail c userId email (added email) p h) id := by
  obtain rfl := hUser
  simp only [transaction, handle, signup, flush, bind_assoc]
  refine .query_bind fun _ => .ensure_bind fun _ => .exec_bind <| .query_bind fun _ =>
    .ensure_bind fun _ => .of ⟨email, ?_, _, rfl, fun _ => course_flush ?_⟩
  all_goals exact fun db => added_address db _ rfl

/-- `resend_verification` after its SELECT comes to the mail of a code to the address that it found,
or leaves the code. -/
theorem resend_step (userId : Uuid) {email : String} {s s' : World}
    {t : Thread Db Redis PyError Response}
    (h : (Thread.running id (transaction c (.resendVerification email))).step Db.Valid
      .integrityError s = some (s', t)) :
    s' = s ∧ ∃ rest, t = .running id rest ∧ (Course userId id id rest ∨
      ∃ u, s.db.userByEmail email = some u ∧ u.id = userId ∧ u.emailVerified = false ∧
        rest.Proceeds (KeepsCode userId) (fun _ p => Writes userId id p)
          (ToMail c userId u.email id) id) := by
  simp only [transaction, handle, resendVerification, bind_assoc, Thread.step_query_bind] at h
  obtain ⟨rfl, rfl⟩ := Prod.mk.inj (Option.some.inj h)
  refine ⟨rfl, _, rfl, ?_⟩
  rw [id]
  cases hFound : s.db.userByEmail email with
  | none => exact .inl (course_flush writes_id)
  | some u =>
    dsimp only
    cases hVerified : u.emailVerified with
    | true => exact .inl (course_flush writes_id)
    | false =>
      simp only [Bool.false_eq_true, if_false, bind_assoc]
      by_cases hUser : u.id = userId
      · subst hUser
        refine .inr ⟨u, rfl, rfl, hVerified, .lookup_bind fun _ => .ensure_bind fun _ => .of
          ⟨writes_id, _, rfl, fun _ => course_flush writes_id⟩⟩
      · refine .inl <| .lookup_bind fun _ => .ensure_bind fun _ => ?_
        simp only [createVerificationCode, bind_assoc]
        exact .store_bind (keepsCode_set_other hUser) <|
          .store_bind (fun _ => keepsCode_of_otp rfl rfl) <|
          .store_bind (fun _ => keepsCode_of_otp rfl rfl) <|
          .store_bind keepsCode_enqueue <| course_flush writes_id

/-- What follows the comparison of a code keeps the code that is stored. -/
theorem countWrong_proceeds {k : Bool → App Response} (h : Course userId g p (k false)) :
    Course userId g p ((countAttempt c other >>= fun attempts =>
      if 3 ≤ attempts then deleteOtp other >>= fun _ => (pure false : App Bool)
      else pure false) >>= k) := by
  rw [bind_assoc]
  refine .exchange_bind (fun _ => keepsCode_of_otp rfl rfl) fun attempts => ?_
  split
  · rw [bind_assoc]
    exact .store_bind keepsCode_del h
  · exact h

/-- What is left of `verify_email` is the comparison of the code, and then its course: with the
right code it verifies the address. -/
def ToCompare (c : Ctx) (userId : Uuid) (code : String) (h : App Response) : Prop :=
  ∃ k, h = verifyOtpCode c userId code >>= k ∧ Course userId verifiedNow id (k true) ∧
    Course userId id id (k false)

theorem compare_step {code : String} {h : App Response} {s s' : World}
    {t : Thread Db Redis PyError Response} (hCompare : ToCompare c userId code h)
    (hStep : (Thread.running id h).step Db.Valid .integrityError s = some (s', t)) :
    s' = s ∧ ∃ rest, t = .running id rest ∧ (Course userId id id rest ∨
      s.cache.code userId = some code ∧ Course userId verifiedNow id rest) := by
  obtain ⟨k, rfl, hRight, hWrong⟩ := hCompare
  rw [verifyOtpCode, bind_assoc, Thread.step_lookup_bind] at hStep
  obtain ⟨rfl, rfl⟩ := Prod.mk.inj (Option.some.inj hStep)
  refine ⟨rfl, _, rfl, ?_⟩
  cases hStored : s.cache.otp.get c.now userId with
  | none => exact .inl hWrong
  | some stored =>
    dsimp only
    by_cases hSame : code = stored
    · refine .inr ⟨?_, ?_⟩
      · obtain ⟨deadline, hEntry⟩ := Expiring.entry_of_get hStored
        rw [Redis.code, hEntry, hSame]
        rfl
      · rw [if_pos hSame, bind_assoc]
        exact .store_bind keepsCode_del hRight
    · rw [if_neg hSame]
      exact .inl (countWrong_proceeds hWrong)

theorem markVerified_course {u : User} {response : Response}
    (hSet : Writes userId g fun db =>
      db.updateUser u.id fun u => { u with emailVerified := true }) :
    Course userId g id (markVerified c u >>= fun _ => flush >>= fun _ =>
      (pure response : App Response)) := by
  have hJoin (user : User) : Writes userId id fun db => (autoJoinAll c user db).1 :=
    writes_of_users fun db => (autoJoinAll_frame user db).1
  have hBoth := (hJoin { u with emailVerified := true }).comp hSet
  have hDiscard {α : Type} (x : App α) : discard x = x >>= fun _ => pure () := rfl
  simp only [markVerified, autoJoinPendingInvitations, hDiscard, flush, bind_assoc, pure_bind]
  exact .exec_bind <| .query_bind fun _ => .exec_bind <| .query_bind fun _ => .ensure_bind fun _ =>
    .query_bind fun _ => .ensure_bind fun _ => .pure hBoth

theorem verify_step (userId : Uuid) {email code : String} {s s' : World}
    {t : Thread Db Redis PyError Response}
    (h : (Thread.running id (transaction c (.verifyEmail email code))).step Db.Valid
      .integrityError s = some (s', t)) :
    s' = s ∧ ∃ rest, t = .running id rest ∧ (Course userId id id rest ∨
      ∃ u, s.db.userByEmail email = some u ∧ u.id = userId ∧ u.emailVerified = false ∧
        ToCompare c userId code rest) := by
  simp only [transaction, handle, verifyEmail, bind_assoc, Thread.step_query_bind] at h
  obtain ⟨rfl, rfl⟩ := Prod.mk.inj (Option.some.inj h)
  refine ⟨rfl, _, rfl, ?_⟩
  rw [id]
  cases hFound : s.db.userByEmail email with
  | none => exact .inl trivial
  | some u =>
    rw [Handler.orRaise_some_bind]
    cases hVerified : u.emailVerified with
    | true => exact .inl (course_flush writes_id)
    | false =>
      simp only [Bool.false_eq_true, if_false, bind_assoc]
      by_cases hUser : u.id = userId
      · subst hUser
        refine .inr ⟨u, rfl, rfl, hVerified, _, rfl, ?_,
          .ensure_bind fun h => absurd h Bool.false_ne_true⟩
        refine .ensure_bind fun _ => markVerified_course ?_
        apply writes_updateUser <;> exact fun _ => rfl
      · have hMark : Course userId id id (markVerified c u >>= fun _ => flush >>= fun _ =>
            (pure .done : App Response)) :=
          markVerified_course (writes_updateUser_other (fun _ => rfl) hUser)
        refine .inl ?_
        rw [verifyOtpCode, bind_assoc]
        refine .lookup_bind fun r => ?_
        split
        · exact .ensure_bind fun h => absurd h Bool.false_ne_true
        · split
          · rw [bind_assoc]
            exact .store_bind keepsCode_del <| .ensure_bind fun _ => hMark
          · exact countWrong_proceeds (.ensure_bind fun h => absurd h Bool.false_ne_true)

/-! ### One statement -/

/-- The request has stored its code, and the mail is on its way or enqueued. -/
def Sent (c : Ctx) (userId : Uuid) (email : String)
    (g : Option (String × Bool) → Option (String × Bool)) (jobs : List Job) (p : Db → Db)
    (h : App Response) : Prop :=
  (∃ k, OwesMail c userId email k h ∧ Writes userId g p ∧ ∀ u, Course userId g p (k u)) ∨
    .sendVerificationEmail userId email c.draws.otp ∈ jobs ∧ Course userId g p h

/-- The request comes to the mail of a code, or leaves the address and the code. -/
abbrev Mails (c : Ctx) (userId : Uuid) (Q : String → Prop)
    (g : String → Option (String × Bool) → Option (String × Bool)) (p : Db → Db)
    (h : App Response) : Prop :=
  h.Proceeds (KeepsCode userId) (fun _ p => Writes userId id p)
    (fun p h => ∃ email, Q email ∧ ToMail c userId email (g email) p h) p

/-- A statement that leaves the address and the code. -/
def Quiet (userId : Uuid) (s s' : World) : Prop :=
  s'.db.address userId = s.db.address userId ∧ KeepsCode userId s.cache s'.cache

section Statement

variable {s s' : World} {t : Thread Db Redis PyError Response} {h : App Response}

theorem Quiet.refl (s : World) : Quiet userId s s := ⟨rfl, refl_of (KeepsCode userId) s.cache⟩

theorem Quiet.of_db (hDb : s'.db = s.db) (hCache : KeepsCode userId s.cache s'.cache) :
    Quiet userId s s' := ⟨by rw [hDb], hCache⟩

theorem course_step (hCourse : Course userId g p h)
    (hStep : (Thread.running p h).step Db.Valid .integrityError s = some (s', t)) :
    (Quiet userId s s' ∧ ∃ p' h', t = .running p' h' ∧ Course userId g p' h') ∨
      (∃ e, t = .ended (.error e) ∧ s' = s) ∨
      ∃ a, t = .ended (.ok a) ∧ s'.db.address userId = g (s.db.address userId) ∧
        s'.cache = s.cache := by
  cases t with
  | running p' h' =>
    obtain ⟨hNext, hCache⟩ := (hCourse.step hStep).resolve_left id
    exact .inl ⟨.of_db (Thread.step_running hStep) hCache, p', h', rfl, hNext⟩
  | ended result =>
    cases result with
    | error e => exact .inr (.inl ⟨e, rfl, Thread.step_error hStep⟩)
    | ok a =>
      have hWrites := (hCourse.step_ok hStep).resolve_left id
      obtain ⟨-, -, rfl⟩ := Thread.step_ok hStep
      exact .inr (.inr ⟨a, rfl, hWrites s.db, rfl⟩)

/-- A request on its way to the mail of a code stores it, or leaves the address and the code. -/
theorem mails_step {Q : String → Prop}
    {g : String → Option (String × Bool) → Option (String × Bool)} (hMails : Mails c userId Q g p h)
    (hStep : (Thread.running p h).step Db.Valid .integrityError s = some (s', t)) :
    (∃ email k rest, Q email ∧ h = mailCode c userId email k ∧ t = .running p rest ∧
        s'.db = s.db ∧ s'.cache.code userId = some c.draws.otp ∧ s'.cache.jobs = s.cache.jobs ∧
        OwesMail c userId email k rest ∧ Sent c userId email (g email) s'.cache.jobs p rest) ∨
      Quiet userId s s' ∧ ((∃ result, t = .ended result) ∨
        ∃ p' h', t = .running p' h' ∧ Mails c userId Q g p' h') := by
  have hPut {email : String} {k : Unit → App Response} {a : Response} :
      .ret a ≠ mailCode c userId email k := nofun
  cases t with
  | running p' h' =>
    rcases hMails.step hStep with ⟨email, hQ, hWrites, k, rfl, hNext⟩ | ⟨hNext, hCache⟩
    · obtain ⟨hDb, hCode, hJobs, rest, hRest, hOwes⟩ := mailCode_step hStep
      cases hRest
      exact .inl ⟨email, k, h', hQ, rfl, rfl, hDb, hCode, hJobs, hOwes,
        .inl ⟨k, hOwes, hWrites, hNext⟩⟩
    · exact .inr ⟨.of_db (Thread.step_running hStep) hCache, .inr ⟨p', h', rfl, hNext⟩⟩
  | ended result =>
    refine .inr ⟨?_, .inl ⟨result, rfl⟩⟩
    cases result with
    | error e =>
      rw [Thread.step_error hStep]
      exact .refl s
    | ok a =>
      rcases hMails.step_ok hStep with ⟨email, -, -, k, hMail, -⟩ | hWrites
      · exact (hPut hMail).elim
      · obtain ⟨-, -, rfl⟩ := Thread.step_ok hStep
        exact ⟨hWrites s.db, refl_of (KeepsCode userId) s.cache⟩

/-- After the SET of its code, the request enqueues the mail before it commits. -/
theorem sent_step {email : String} (hSent : Sent c userId email g s.cache.jobs p h)
    (hStep : (Thread.running p h).step Db.Valid .integrityError s = some (s', t)) :
    (Quiet userId s s' ∧ ∃ p' h', t = .running p' h' ∧
        Sent c userId email g s'.cache.jobs p' h') ∨
      (∃ e, t = .ended (.error e) ∧ s' = s) ∨
      ∃ a, t = .ended (.ok a) ∧ s'.db.address userId = g (s.db.address userId) ∧
        s'.cache = s.cache ∧ .sendVerificationEmail userId email c.draws.otp ∈ s.cache.jobs := by
  rcases hSent with ⟨k, hOwes, hWrites, hNext⟩ | ⟨hJob, hCourse⟩
  · obtain ⟨hDb, hCache, ⟨rest, rfl, hOwes⟩ | ⟨rfl, hJob⟩⟩ := hOwes.step hStep
    · exact .inl ⟨.of_db hDb hCache, p, rest, rfl, .inl ⟨k, hOwes, hWrites, hNext⟩⟩
    · exact .inl ⟨.of_db hDb hCache, p, k (), rfl, .inr ⟨hJob, hNext ()⟩⟩
  · rcases course_step hCourse hStep with ⟨hQuiet, p', h', rfl, hNext⟩ | hError |
      ⟨a, rfl, hAddress, hCache⟩
    · exact .inl ⟨hQuiet, p', h', rfl, .inr ⟨hQuiet.2.2 _ hJob, hNext⟩⟩
    · exact .inr (.inl hError)
    · exact .inr (.inr ⟨a, rfl, hAddress, hCache, hJob⟩)

end Statement

/-! ### Side by side -/

def Request.updates : Request → Bool
  | .patchMe .. => true
  | _ => false

def Request.looksUp : Request → Bool
  | .resendVerification _ | .verifyEmail .. => true
  | _ => false

def Request.signsUp : Request → Bool
  | .signup .. => true
  | _ => false

/-- The requests about the address of the user.  Which user a resend or a verification is about is
known when it has looked up the address. -/
def Request.OfUser (userId : Uuid) (c : Ctx) : Request → Prop
  | .signup .. => c.draws.userId = userId
  | .patchMe (.signed q) _ => q.sub = userId
  | .patchMe (.other _) _ | .resendVerification _ | .verifyEmail .. => True
  | _ => False

section Pool

variable {ι : Type} (ctx : ι → Ctx) (r : ι → Request) (userId : Uuid)

/-- The next statement is the SET of the code. -/
def StoresCode (step : Requests ι × ι) : Prop :=
  ∃ p email k, step.1.thread step.2 = .running p (mailCode (ctx step.2) userId email k)

/-- The next statement is the GET of the code. -/
def ReadsCode (step : Requests ι × ι) : Prop :=
  ∃ p code k, step.1.thread step.2 = .running p (verifyOtpCode (ctx step.2) userId code >>= k)

def IsUnderWay (past : List (Requests ι × ι)) (m : Requests ι) (j : ι) : Prop :=
  (∃ q ∈ past, q.2 = j) ∧ (m.thread j).isEnded = false

/-- An `update_profile` that has stored the code for a new address and has not ended. -/
def ChangesAddress (past : List (Requests ι × ι)) (m : Requests ι) (j : ι) : Prop :=
  (r j).updates = true ∧ (∃ q ∈ past, q.2 = j ∧ StoresCode ctx userId q) ∧
    (m.thread j).isEnded = false

/-- A request that has stored its code and has yet to enqueue the mail to the address. -/
def Owing (m : Requests ι) (j : ι) (email : String) : Prop :=
  ∃ p k rest, m.thread j = .running p rest ∧ OwesMail (ctx j) userId email k rest

/-- An `update_profile` stores its code while the address is verified, no other has stored one and
not ended, and no resend or verification is under way; these take no step while one has; and a code
is compared when no mail is owed. -/
structure AddressInTurn (past : List (Requests ι × ι)) (step : Requests ι × ι) : Prop where
  update : (r step.2).updates = true → StoresCode ctx userId step →
    (∃ e, step.1.stores.db.address userId = some (e, true)) ∧ ∀ j ≠ step.2,
      ¬ChangesAddress ctx r userId past step.1 j ∧
        ((r j).looksUp = true → ¬IsUnderWay past step.1 j)
  lookup : (r step.2).looksUp = true → ∀ j, ¬ChangesAddress ctx r userId past step.1 j
  compare : ReadsCode ctx userId step → ∀ j email, ¬Owing ctx userId step.1 j email

/-- The code that is stored was mailed to the address, or is about to be. -/
def Vouched (m : Requests ι) (email : String) : Prop :=
  ∀ x, m.stores.cache.code userId = some x →
    .sendVerificationEmail userId email x ∈ m.stores.cache.jobs ∨
      ∃ j, Owing ctx userId m j email ∧ (ctx j).draws.otp = x

/-- No code is stored but the request's own. -/
def OwnCode (m : Requests ι) (j : ι) : Prop :=
  ∀ x, m.stores.cache.code userId = some x → x = (ctx j).draws.otp

/-- How far a request is, and what it relies on. -/
inductive Standing (past : List (Requests ι × ι)) (m : Requests ι) (j : ι) :
    Thread Db Redis PyError Response → Prop
  | ended {result} : Standing past m j (.ended result)
  | waiting : (r j).looksUp = true → Standing past m j (.running id (transaction (ctx j) (r j)))
  | calm {p h} : Course userId id p h → Standing past m j (.running p h)
  | resending {p h e b} : (r j).looksUp = true → (∃ q ∈ past, q.2 = j) →
      m.stores.db.address userId = some (e, b) →
      Mails (ctx j) userId (· = e) (fun _ => id) p h → Standing past m j (.running p h)
  | resent {p h e b} : (r j).looksUp = true → (∃ q ∈ past, q.2 = j) →
      m.stores.db.address userId = some (e, b) →
      Sent (ctx j) userId e id m.stores.cache.jobs p h → Standing past m j (.running p h)
  | comparing {h e b email code} : r j = .verifyEmail email code → (∃ q ∈ past, q.2 = j) →
      m.stores.db.address userId = some (e, b) → Vouched ctx userId m e →
      ToCompare (ctx j) userId code h → Standing past m j (.running id h)
  | verifying {p h e b email code} : r j = .verifyEmail email code → (∃ q ∈ past, q.2 = j) →
      m.stores.db.address userId = some (e, b) →
      .sendVerificationEmail userId e code ∈ m.stores.cache.jobs →
      Course userId verifiedNow p h → Standing past m j (.running p h)
  | updating {p h} : (r j).updates = true → Mails (ctx j) userId (fun _ => True) moved p h →
      Standing past m j (.running p h)
  | updated {p h e email} : (r j).updates = true → (∃ q ∈ past, q.2 = j ∧ StoresCode ctx userId q) →
      m.stores.db.address userId = some (e, true) → OwnCode ctx userId m j →
      Sent (ctx j) userId email (moved email) m.stores.cache.jobs p h →
      Standing past m j (.running p h)
  | joining {p h} : (r j).signsUp = true → m.stores.db.address userId = none →
      Mails (ctx j) userId (fun _ => True) added p h → Standing past m j (.running p h)
  | joined {p h email} : (r j).signsUp = true → m.stores.db.address userId = none →
      OwnCode ctx userId m j → Sent (ctx j) userId email (added email) m.stores.cache.jobs p h →
      Standing past m j (.running p h)

/-- The invariant of requests in turn. -/
structure AddressKept (past : List (Requests ι × ι)) (m : Requests ι) : Prop where
  valid : m.stores.db.Valid
  vouched : ∀ e, m.stores.db.address userId = some (e, false) → Vouched ctx userId m e
  apart : ∀ j k, ChangesAddress ctx r userId past m j → k ≠ j →
    ¬ChangesAddress ctx r userId past m k ∧ ((r k).looksUp = true → ¬IsUnderWay past m k)
  standing : ∀ j, Standing ctx r userId past m j (m.thread j)

variable {ctx r userId} {past : List (Requests ι × ι)} {m m' : Requests ι} {i j : ι} {s : World}
  {t : Thread Db Redis PyError Response}

theorem Request.OfUser.standing (h : (r j).OfUser userId (ctx j)) (hNew : (r j).signsUp = true →
    m.stores.db.address userId = none) :
    Standing ctx r userId past m j (.running id (transaction (ctx j) (r j))) := by
  generalize hRequest : r j = request at h
  cases request with
  | signup email password =>
    have hSigns : (r j).signsUp = true := by rw [hRequest]; rfl
    refine .joining hSigns (hNew hSigns) ?_
    exact (signup_proceeds h).mono (fun _ _ => id) fun _ _ ⟨e, he⟩ => ⟨e, trivial, he⟩
  | patchMe token body =>
    cases token with
    | signed q =>
      refine .updating (by rw [hRequest]; rfl) ?_
      exact (patchMe_proceeds h).mono (fun _ _ => id) fun _ _ ⟨e, he⟩ => ⟨e, trivial, he⟩
    | other text => exact .calm trivial
  | resendVerification | verifyEmail =>
    rw [← hRequest]
    exact .waiting (by rw [hRequest]; rfl)
  | _ => exact h.elim

theorem OwnCode.keeps (h : OwnCode ctx userId m j)
    (hKeeps : KeepsCode userId m.stores.cache m'.stores.cache) : OwnCode ctx userId m' j :=
  fun x hx => h x (hKeeps.1 x hx)

/-- What one statement of another request leaves of the standing of a request. -/
theorem Standing.beside {q : Requests ι × ι} (h : Standing ctx r userId past m j t)
    (hJobs : ∀ job ∈ m.stores.cache.jobs, job ∈ m'.stores.cache.jobs)
    (hLook : (r j).looksUp = true → (∃ q ∈ past, q.2 = j) → t.isEnded = false → ∀ e b,
      m.stores.db.address userId = some (e, b) →
        (∃ b', m'.stores.db.address userId = some (e, b')) ∧
          (Vouched ctx userId m e → Vouched ctx userId m' e))
    (hUpdate : (r j).updates = true → (∃ q ∈ past, q.2 = j ∧ StoresCode ctx userId q) →
      t.isEnded = false → ∀ e, m.stores.db.address userId = some (e, true) →
        m'.stores.db.address userId = some (e, true) ∧
          (OwnCode ctx userId m j → OwnCode ctx userId m' j))
    (hSignup : (r j).signsUp = true → t.isEnded = false → m.stores.db.address userId = none →
      m'.stores.db.address userId = none ∧ (OwnCode ctx userId m j → OwnCode ctx userId m' j)) :
    Standing ctx r userId (past ++ [q]) m' j t := by
  have hSent {email : String} {g p} {h : App Response} :
      Sent (ctx j) userId email g m.stores.cache.jobs p h →
        Sent (ctx j) userId email g m'.stores.cache.jobs p h :=
    fun hSent => hSent.imp id fun hMail => ⟨hJobs _ hMail.1, hMail.2⟩
  cases h with
  | ended => exact .ended
  | waiting hLooks => exact .waiting hLooks
  | calm hCourse => exact .calm hCourse
  | resending hLooks hStarted hAddress hMails =>
    obtain ⟨⟨b', hAddress'⟩, -⟩ := hLook hLooks hStarted rfl _ _ hAddress
    obtain ⟨q', hq', hRole⟩ := hStarted
    exact .resending hLooks ⟨q', List.mem_append_left _ hq', hRole⟩ hAddress' hMails
  | resent hLooks hStarted hAddress hMail =>
    obtain ⟨⟨b', hAddress'⟩, -⟩ := hLook hLooks hStarted rfl _ _ hAddress
    obtain ⟨q', hq', hRole⟩ := hStarted
    exact .resent hLooks ⟨q', List.mem_append_left _ hq', hRole⟩ hAddress' (hSent hMail)
  | comparing hVerify hStarted hAddress hVouched hCompare =>
    obtain ⟨⟨b', hAddress'⟩, hKeep⟩ := hLook (by rw [hVerify]; rfl) hStarted rfl _ _ hAddress
    obtain ⟨q', hq', hRole⟩ := hStarted
    exact .comparing hVerify ⟨q', List.mem_append_left _ hq', hRole⟩ hAddress' (hKeep hVouched)
      hCompare
  | verifying hVerify hStarted hAddress hJob hCourse =>
    obtain ⟨⟨b', hAddress'⟩, -⟩ := hLook (by rw [hVerify]; rfl) hStarted rfl _ _ hAddress
    obtain ⟨q', hq', hRole⟩ := hStarted
    exact .verifying hVerify ⟨q', List.mem_append_left _ hq', hRole⟩ hAddress' (hJobs _ hJob)
      hCourse
  | updating hUpdates hMails => exact .updating hUpdates hMails
  | updated hUpdates hStored hAddress hOwn hMail =>
    obtain ⟨hAddress', hKeep⟩ := hUpdate hUpdates hStored rfl _ hAddress
    obtain ⟨q', hq', hRole, hStores⟩ := hStored
    exact .updated hUpdates ⟨q', List.mem_append_left _ hq', hRole, hStores⟩ hAddress'
      (hKeep hOwn) (hSent hMail)
  | joining hSigns hNone hMails =>
    exact .joining hSigns (hSignup hSigns rfl hNone).1 hMails
  | joined hSigns hNone hOwn hMail =>
    obtain ⟨hNone', hKeep⟩ := hSignup hSigns rfl hNone
    exact .joined hSigns hNone' (hKeep hOwn) (hSent hMail)

theorem AddressKept.address_of_found {email : String} {u : User}
    (hKept : AddressKept ctx r userId past m)
    (hFound : m.stores.db.userByEmail email = some u) (hVerified : u.emailVerified = false) :
    m.stores.db.address u.id = some (u.email, false) := by
  rw [Db.address, hKept.valid.user_of_mem (List.mem_of_find?_eq_some hFound), ← hVerified]
  rfl

/-- The writes set `email_verified` where it is not set. -/
def SetsVerified (userId : Uuid) (p : Db → Db) : Prop :=
  ∃ db e e', db.address userId = some (e, false) ∧ (p db).address userId = some (e', true)

theorem Writes.not_sets (h : Writes userId g p)
    (hg : ∀ e e', g (some (e, false)) ≠ some (e', true)) : ¬SetsVerified userId p := by
  rintro ⟨db, e, e', hBefore, hAfter⟩
  rw [h db, hBefore] at hAfter
  exact hg e e' hAfter

theorem Sent.not_sets {email : String} {jobs : List Job} {a : Response}
    (h : Sent c userId email g jobs p (.ret a))
    (hg : ∀ e e', g (some (e, false)) ≠ some (e', true)) : ¬SetsVerified userId p := by
  rcases h with ⟨k, -, hWrites, -⟩ | ⟨-, hCourse⟩
  · exact hWrites.not_sets hg
  · exact (hCourse.resolve_left id : Writes userId g p).not_sets hg

theorem Mails.not_sets {Q : String → Prop} {a : Response}
    {g : String → Option (String × Bool) → Option (String × Bool)}
    (h : Mails c userId Q g p (.ret a)) : ¬SetsVerified userId p := by
  rcases h with ⟨e, -, -, k, hMail, -⟩ | hWrites
  · cases hMail
  · exact hWrites.not_sets (by simp)

/-- A request that is to commit `email_verified` is a verification, and its code was mailed to the
address of the row. -/
theorem Standing.proven {a : Response} (h : Standing ctx r userId past m j (.running p (.ret a)))
    (hSets : SetsVerified userId p) :
    ∃ email code e b, r j = .verifyEmail email code ∧
      m.stores.db.address userId = some (e, b) ∧ Writes userId verifiedNow p ∧
      .sendVerificationEmail userId e code ∈ m.stores.cache.jobs := by
  generalize hThread : Thread.running p (.ret a) = thread at h
  cases h with
  | ended => cases hThread
  | waiting =>
    obtain ⟨rfl, -⟩ := Thread.running.inj hThread
    exact absurd hSets (writes_id.not_sets (by simp))
  | calm hCourse =>
    cases hThread
    have hWrites : Writes userId id p := hCourse.resolve_left id
    exact absurd hSets (hWrites.not_sets (by simp))
  | resending _ _ _ hMails | updating _ hMails | joining _ _ hMails =>
    cases hThread
    exact absurd hSets hMails.not_sets
  | resent _ _ _ hSent =>
    cases hThread
    exact absurd hSets (hSent.not_sets (by simp))
  | updated _ _ _ _ hSent =>
    cases hThread
    exact absurd hSets (hSent.not_sets (by simp [moved]))
  | joined _ _ _ hSent =>
    cases hThread
    exact absurd hSets (hSent.not_sets (by simp [added]))
  | comparing _ _ _ _ hCompare =>
    obtain ⟨rfl, -⟩ := Thread.running.inj hThread
    exact absurd hSets (writes_id.not_sets (by simp))
  | verifying hVerify _ hAddress hJob hCourse =>
    cases hThread
    exact ⟨_, _, _, _, hVerify, hAddress, hCourse.resolve_left id, hJob⟩

variable [DecidableEq ι]

/-- A mail that was owed is owed or enqueued. -/
theorem Owing.step {email : String} (h : Owing ctx userId m j email)
    (hStep : Requests.Step m i m') :
    Owing ctx userId m' j email ∨ (.sendVerificationEmail userId email (ctx j).draws.otp) ∈
      m'.stores.cache.jobs := by
  obtain ⟨s, t, hThread, rfl⟩ := Pool.step_some hStep
  obtain ⟨p, k, rest, hRest, hOwes⟩ := h
  by_cases hj : j = i
  · subst hj
    rw [hRest] at hThread
    obtain ⟨-, -, ⟨rest', rfl, hOwes'⟩ | ⟨rfl, hJob⟩⟩ := hOwes.step hThread
    · exact .inl ⟨p, k, rest', Pool.after_thread_same, hOwes'⟩
    · exact .inr hJob
  · exact .inl ⟨p, k, rest, by rw [Pool.after_thread_other hj, hRest], hOwes⟩

theorem Vouched.step {email : String} (h : Vouched ctx userId m email)
    (hStep : Requests.Step m i m') (hKeeps : KeepsCode userId m.stores.cache m'.stores.cache) :
    Vouched ctx userId m' email := by
  intro x hx
  rcases h x (hKeeps.1 x hx) with hJob | ⟨j, hOwing, rfl⟩
  · exact .inl (hKeeps.2 _ hJob)
  · rcases hOwing.step hStep with hOwing | hJob
    · exact .inr ⟨j, hOwing, rfl⟩
    · exact .inl hJob

/-- Two changes of the address come apart, and from resends and verifications, in turn. -/
theorem apart_step (hApart : ∀ j k, ChangesAddress ctx r userId past m j → k ≠ j →
      ¬ChangesAddress ctx r userId past m k ∧ ((r k).looksUp = true → ¬IsUnderWay past m k))
    (hTurn : AddressInTurn ctx r userId past (m, i)) (hStep : Requests.Step m i m') (j k : ι)
    (hj : ChangesAddress ctx r userId (past ++ [(m, i)]) m' j) (hk : k ≠ j) :
    ¬ChangesAddress ctx r userId (past ++ [(m, i)]) m' k ∧
      ((r k).looksUp = true → ¬IsUnderWay (past ++ [(m, i)]) m' k) := by
  obtain ⟨s, t, hThread, rfl⟩ := Pool.step_some hStep
  have hOpen {x : ι} (h : ((m.after i s t).thread x).isEnded = false) :
      (m.thread x).isEnded = false := by
    by_cases hx : x = i
    · rw [hx]
      exact (Thread.open_of_step hThread).1
    · rwa [Pool.after_thread_other hx] at h
  have hChanges {x : ι} (h : ChangesAddress ctx r userId (past ++ [(m, i)]) (m.after i s t) x) :
      ChangesAddress ctx r userId past m x ∨
        x = i ∧ (r i).updates = true ∧ StoresCode ctx userId (m, i) := by
    obtain ⟨hUpdates, ⟨q, hq, hRole, hStores⟩, hEnded⟩ := h
    rcases List.mem_append.mp hq with hq | hq
    · exact .inl ⟨hUpdates, ⟨q, hq, hRole, hStores⟩, hOpen hEnded⟩
    · obtain rfl := List.mem_singleton.mp hq
      obtain rfl : i = x := hRole
      exact .inr ⟨rfl, hUpdates, hStores⟩
  have hUnder {x : ι} (h : IsUnderWay (past ++ [(m, i)]) (m.after i s t) x) :
      IsUnderWay past m x ∨ x = i := by
    obtain ⟨⟨q, hq, hRole⟩, hEnded⟩ := h
    rcases List.mem_append.mp hq with hq | hq
    · exact .inl ⟨⟨q, hq, hRole⟩, hOpen hEnded⟩
    · obtain rfl := List.mem_singleton.mp hq
      exact .inr hRole.symm
  rcases hChanges hj with hOld | ⟨rfl, hUpdates, hStores⟩
  · refine ⟨fun hNow => ?_, fun hLooks hNow => ?_⟩
    · rcases hChanges hNow with hNow | ⟨rfl, hUpdates, hStores⟩
      · exact (hApart j k hOld hk).1 hNow
      · exact ((hTurn.update hUpdates hStores).2 j hk.symm).1 hOld
    · rcases hUnder hNow with hNow | rfl
      · exact (hApart j k hOld hk).2 hLooks hNow
      · exact hTurn.lookup hLooks j hOld
  · obtain ⟨-, hAlone⟩ := hTurn.update hUpdates hStores
    refine ⟨fun hNow => ?_, fun hLooks hNow => ?_⟩
    · rcases hChanges hNow with hNow | ⟨rfl, -⟩
      · exact (hAlone k hk).1 hNow
      · exact hk rfl
    · rcases hUnder hNow with hNow | rfl
      · exact (hAlone k hk).2 hLooks hNow
      · exact hk rfl

namespace AddressKept

theorem of_step (hKept : AddressKept ctx r userId past m)
    (hTurn : AddressInTurn ctx r userId past (m, i))
    (hThread : (m.thread i).step Db.Valid .integrityError m.stores = some (s, t))
    (hVouched : ∀ e, s.db.address userId = some (e, false) →
      Vouched ctx userId (m.after i s t) e)
    (hMine : Standing ctx r userId (past ++ [(m, i)]) (m.after i s t) i t)
    (hOthers : ∀ j ≠ i, Standing ctx r userId past m j (m.thread j) →
      Standing ctx r userId (past ++ [(m, i)]) (m.after i s t) j (m.thread j)) :
    AddressKept ctx r userId (past ++ [(m, i)]) (m.after i s t) where
  valid := by
    generalize m.thread i = thread at hThread
    cases thread with
    | ended => cases hThread
    | running p rest =>
      cases t with
      | running => exact Thread.step_running hThread ▸ hKept.valid
      | ended result =>
        cases result with
        | error => exact Thread.step_error hThread ▸ hKept.valid
        | ok a =>
          obtain ⟨-, hValid, rfl⟩ := Thread.step_ok hThread
          exact hValid
  vouched := hVouched
  apart := apart_step hKept.apart hTurn (Pool.step_after hThread)
  standing := fun j => by
    by_cases hj : j = i
    · rw [hj, Pool.after_thread_same]
      exact hMine
    · rw [Pool.after_thread_other hj]
      exact hOthers j hj (hKept.standing j)

theorem quiet (hKept : AddressKept ctx r userId past m)
    (hTurn : AddressInTurn ctx r userId past (m, i))
    (hThread : (m.thread i).step Db.Valid .integrityError m.stores = some (s, t))
    (hQuiet : Quiet userId m.stores s)
    (hMine : Standing ctx r userId (past ++ [(m, i)]) (m.after i s t) i t) :
    AddressKept ctx r userId (past ++ [(m, i)]) (m.after i s t) := by
  have hStep : Requests.Step m i (m.after i s t) := Pool.step_after hThread
  obtain ⟨hAddress, hCode⟩ := hQuiet
  refine hKept.of_step hTurn hThread (fun e he => ?_) hMine fun j _ hj =>
    hj.beside hCode.2 (fun _ _ _ e b he => ⟨⟨b, hAddress.trans he⟩, fun h => h.step hStep hCode⟩)
      (fun _ _ _ e he => ⟨hAddress.trans he, fun h => h.keeps hCode⟩)
      fun _ _ he => ⟨hAddress.trans he, fun h => h.keeps hCode⟩
  exact (hKept.vouched e (hAddress.symm.trans he)).step hStep hCode

/-- A resend stores its code. -/
theorem resend {e : String} {b : Bool} {k : Unit → App Response} {rest : App Response}
    (hKept : AddressKept ctx r userId past m) (hTurn : AddressInTurn ctx r userId past (m, i))
    (hThread : (m.thread i).step Db.Valid .integrityError m.stores = some (s, .running p rest))
    (hLooks : (r i).looksUp = true) (hAddress : m.stores.db.address userId = some (e, b))
    (hDb : s.db = m.stores.db) (hCode : s.cache.code userId = some (ctx i).draws.otp)
    (hJobs : s.cache.jobs = m.stores.cache.jobs) (hOwes : OwesMail (ctx i) userId e k rest)
    (hSent : Sent (ctx i) userId e id s.cache.jobs p rest) :
    AddressKept ctx r userId (past ++ [(m, i)]) (m.after i s (.running p rest)) := by
  have hAddress' : s.db.address userId = some (e, b) := by rw [hDb, hAddress]
  have hNew : Vouched ctx userId (m.after i s (.running p rest)) e := fun x hx =>
    .inr ⟨i, ⟨p, k, rest, Pool.after_thread_same, hOwes⟩, Option.some.inj (hCode.symm.trans hx)⟩
  refine hKept.of_step hTurn hThread (fun e' he => ?_) ?_ fun j _ hj => hj.beside ?_ ?_ ?_ ?_
  · cases hAddress'.symm.trans he
    exact hNew
  · exact .resent hLooks ⟨(m, i), by simp, rfl⟩ hAddress' hSent
  · intro job hJob
    rwa [Pool.after_stores, hJobs]
  · intro _ _ _ e' b' he
    cases hAddress.symm.trans he
    exact ⟨⟨b, hAddress'⟩, fun _ => hNew⟩
  · exact fun hUpdates hStored hEnded => absurd ⟨hUpdates, hStored, hEnded⟩ (hTurn.lookup hLooks j)
  · exact fun _ _ hNone => nomatch hAddress.symm.trans hNone

/-- An `update_profile` stores its code. -/
theorem update {email : String} {k : Unit → App Response} {rest rest' : App Response}
    (hKept : AddressKept ctx r userId past m) (hTurn : AddressInTurn ctx r userId past (m, i))
    (hRest : m.thread i = .running p rest') (hMail : rest' = mailCode (ctx i) userId email k)
    (hThread : (m.thread i).step Db.Valid .integrityError m.stores = some (s, .running p rest))
    (hUpdates : (r i).updates = true) (hDb : s.db = m.stores.db)
    (hCode : s.cache.code userId = some (ctx i).draws.otp)
    (hJobs : s.cache.jobs = m.stores.cache.jobs)
    (hSent : Sent (ctx i) userId email (moved email) s.cache.jobs p rest) :
    AddressKept ctx r userId (past ++ [(m, i)]) (m.after i s (.running p rest)) := by
  have hStores : StoresCode ctx userId (m, i) := ⟨p, email, k, by rw [hRest, hMail]⟩
  obtain ⟨⟨e, hAddress⟩, hAlone⟩ := hTurn.update hUpdates hStores
  have hAddress' : s.db.address userId = some (e, true) := by rw [hDb, hAddress]
  refine hKept.of_step hTurn hThread (fun e' he => ?_) ?_ fun j hne hj => hj.beside ?_ ?_ ?_ ?_
  · cases hAddress'.symm.trans he
  · exact .updated hUpdates ⟨(m, i), by simp, rfl, hStores⟩ hAddress'
      (fun x hx => Option.some.inj (hx.symm.trans hCode)) hSent
  · intro job hJob
    rwa [Pool.after_stores, hJobs]
  · exact fun hLooks hStarted hEnded => absurd ⟨hStarted, hEnded⟩ ((hAlone j hne).2 hLooks)
  · exact fun hUpdates' hStored hEnded =>
      absurd ⟨hUpdates', hStored, hEnded⟩ (hAlone j hne).1
  · exact fun _ _ hNone => nomatch hAddress.symm.trans hNone

/-- A sign-up stores its code. -/
theorem signup {email : String} {rest : App Response}
    (hOnly : ∀ j k, (r j).signsUp = true → (r k).signsUp = true → j = k)
    (hKept : AddressKept ctx r userId past m) (hTurn : AddressInTurn ctx r userId past (m, i))
    (hThread : (m.thread i).step Db.Valid .integrityError m.stores = some (s, .running p rest))
    (hSigns : (r i).signsUp = true) (hNone : m.stores.db.address userId = none)
    (hDb : s.db = m.stores.db) (hCode : s.cache.code userId = some (ctx i).draws.otp)
    (hJobs : s.cache.jobs = m.stores.cache.jobs)
    (hSent : Sent (ctx i) userId email (added email) s.cache.jobs p rest) :
    AddressKept ctx r userId (past ++ [(m, i)]) (m.after i s (.running p rest)) := by
  have hNone' : s.db.address userId = none := by rw [hDb, hNone]
  refine hKept.of_step hTurn hThread (fun e' he => ?_) ?_ fun j hne hj => hj.beside ?_ ?_ ?_ ?_
  · exact nomatch hNone'.symm.trans he
  · exact .joined hSigns hNone' (fun x hx => Option.some.inj (hx.symm.trans hCode)) hSent
  · intro job hJob
    rwa [Pool.after_stores, hJobs]
  · exact fun _ _ _ e' b' he => nomatch hNone.symm.trans he
  · exact fun _ _ _ e' he => nomatch hNone.symm.trans he
  · exact fun hSigns' _ _ => absurd (hOnly j i hSigns' hSigns) hne

/-- A verification commits. -/
theorem verify_commit {e : String} {b : Bool} {result : Except PyError Response}
    (hKept : AddressKept ctx r userId past m) (hTurn : AddressInTurn ctx r userId past (m, i))
    (hThread : (m.thread i).step Db.Valid .integrityError m.stores = some (s, .ended result))
    (hLooks : (r i).looksUp = true) (hAddress : m.stores.db.address userId = some (e, b))
    (hNew : s.db.address userId = some (e, true)) (hCache : s.cache = m.stores.cache) :
    AddressKept ctx r userId (past ++ [(m, i)]) (m.after i s (.ended result)) := by
  have hStep : Requests.Step m i (m.after i s (.ended result)) := Pool.step_after hThread
  have hCode : KeepsCode userId m.stores.cache s.cache := hCache ▸ refl_of (KeepsCode userId) _
  refine hKept.of_step hTurn hThread (fun e' he => ?_) .ended fun j _ hj =>
    hj.beside hCode.2 ?_ ?_ ?_
  · cases hNew.symm.trans he
  · intro _ _ _ e' b' he
    cases hAddress.symm.trans he
    exact ⟨⟨true, hNew⟩, fun h => h.step hStep hCode⟩
  · exact fun hUpdates hStored hEnded => absurd ⟨hUpdates, hStored, hEnded⟩ (hTurn.lookup hLooks j)
  · exact fun _ _ hNone => nomatch hAddress.symm.trans hNone

/-- A change of the address or a sign-up commits, while no resend or verification is under way. -/
theorem mail_commit {email : String} {result : Except PyError Response}
    (hKept : AddressKept ctx r userId past m) (hTurn : AddressInTurn ctx r userId past (m, i))
    (hThread : (m.thread i).step Db.Valid .integrityError m.stores = some (s, .ended result))
    (hNew : s.db.address userId = some (email, false)) (hCache : s.cache = m.stores.cache)
    (hOwn : OwnCode ctx userId m i)
    (hJob : .sendVerificationEmail userId email (ctx i).draws.otp ∈ m.stores.cache.jobs)
    (hOthers : ∀ j ≠ i, (r j).looksUp = true → IsUnderWay past m j →
      m.stores.db.address userId = none)
    (hUpdates : ∀ j ≠ i, ChangesAddress ctx r userId past m j →
      m.stores.db.address userId = none)
    (hSigns : ∀ j ≠ i, (r j).signsUp = true → m.stores.db.address userId ≠ none) :
    AddressKept ctx r userId (past ++ [(m, i)]) (m.after i s (.ended result)) := by
  have hCode : KeepsCode userId m.stores.cache s.cache := hCache ▸ refl_of (KeepsCode userId) _
  refine hKept.of_step hTurn hThread (fun e he x hx => ?_) .ended fun j hne hj =>
    hj.beside hCode.2 ?_ ?_ ?_
  · cases hNew.symm.trans he
    rw [Pool.after_stores, hCache] at hx ⊢
    obtain rfl := hOwn x hx
    exact .inl hJob
  · exact fun hLooks hStarted hEnded e b he =>
      nomatch (hOthers j hne hLooks ⟨hStarted, hEnded⟩).symm.trans he
  · exact fun hUpdates' hStored hEnded e he =>
      nomatch (hUpdates j hne ⟨hUpdates', hStored, hEnded⟩).symm.trans he
  · exact fun hSigns' _ hNone => absurd hNone (hSigns j hne hSigns')

/-- Every statement of requests in turn keeps the invariant. -/
theorem step (hOnly : ∀ j k, (r j).signsUp = true → (r k).signsUp = true → j = k)
    (hKept : AddressKept ctx r userId past m) (hTurn : AddressInTurn ctx r userId past (m, i))
    (hStep : Requests.Step m i m') : AddressKept ctx r userId (past ++ [(m, i)]) m' := by
  obtain ⟨s, t, hThread, rfl⟩ := Pool.step_some hStep
  have hMine := hKept.standing i
  have hHere : ∃ q ∈ past ++ [(m, i)], q.2 = i := ⟨(m, i), by simp, rfl⟩
  generalize hRest : m.thread i = thread at hMine
  have hNow := hThread
  rw [hRest] at hNow
  cases hMine with
  | ended => cases hNow
  | waiting hLooks =>
    generalize hRequest : r i = request at hLooks
    cases request with
    | resendVerification email =>
      rw [hRequest] at hNow
      obtain ⟨rfl, rest, rfl, hCourse | ⟨u, hFound, rfl, hVerified, hMails⟩⟩ :=
        resend_step userId hNow
      · exact hKept.quiet hTurn hThread (.refl _) (.calm hCourse)
      · have hAddress := hKept.address_of_found hFound hVerified
        refine hKept.quiet hTurn hThread (.refl _) (.resending (by rw [hRequest]; rfl) hHere
          hAddress (hMails.mono (fun _ _ => id) fun _ _ h => ⟨_, rfl, h⟩))
    | verifyEmail email code =>
      rw [hRequest] at hNow
      obtain ⟨rfl, rest, rfl, hCourse | ⟨u, hFound, rfl, hVerified, hCompare⟩⟩ :=
        verify_step userId hNow
      · exact hKept.quiet hTurn hThread (.refl _) (.calm hCourse)
      · have hAddress := hKept.address_of_found hFound hVerified
        exact hKept.quiet hTurn hThread (.refl _) (.comparing hRequest hHere hAddress
          ((hKept.vouched _ hAddress).step hStep (refl_of (KeepsCode u.id) _)) hCompare)
    | _ => cases hLooks
  | calm hCourse =>
    rcases course_step hCourse hNow with ⟨hQuiet, p', h', rfl, hNext⟩ | ⟨e, rfl, rfl⟩ |
      ⟨a, rfl, hAddress, hCache⟩
    · exact hKept.quiet hTurn hThread hQuiet (.calm hNext)
    · exact hKept.quiet hTurn hThread (.refl _) .ended
    · exact hKept.quiet hTurn hThread ⟨hAddress, hCache ▸ refl_of (KeepsCode userId) _⟩ .ended
  | resending hLooks hStarted hAddress hMails =>
    rcases mails_step hMails hNow with
      ⟨e, k, rest, rfl, rfl, rfl, hDb, hCode, hJobs, hOwes, hSent⟩ |
      ⟨hQuiet, ⟨result, rfl⟩ | ⟨p', h', rfl, hNext⟩⟩
    · exact hKept.resend hTurn hThread hLooks hAddress hDb hCode hJobs hOwes hSent
    · exact hKept.quiet hTurn hThread hQuiet .ended
    · exact hKept.quiet hTurn hThread hQuiet
        (.resending hLooks hHere (hQuiet.1.trans hAddress) hNext)
  | resent hLooks hStarted hAddress hSent =>
    rcases sent_step hSent hNow with ⟨hQuiet, p', h', rfl, hNext⟩ | ⟨e, rfl, rfl⟩ |
      ⟨a, rfl, hAddress', hCache, -⟩
    · exact hKept.quiet hTurn hThread hQuiet
        (.resent hLooks hHere (hQuiet.1.trans hAddress) hNext)
    · exact hKept.quiet hTurn hThread (.refl _) .ended
    · exact hKept.quiet hTurn hThread ⟨hAddress', hCache ▸ refl_of (KeepsCode userId) _⟩ .ended
  | @comparing h e b email code hVerify hStarted hAddress hVouched hCompare =>
    have hReads : ReadsCode ctx userId (m, i) := by
      obtain ⟨k, rfl, -, -⟩ := hCompare
      exact ⟨id, code, k, hRest⟩
    obtain ⟨rfl, rest, rfl, hCourse | ⟨hCode, hCourse⟩⟩ := compare_step hCompare hNow
    · exact hKept.quiet hTurn hThread (.refl _) (.calm hCourse)
    · refine hKept.quiet hTurn hThread (.refl _) (.verifying hVerify hHere hAddress ?_ hCourse)
      rcases hVouched code hCode with hJob | ⟨j, hOwing, -⟩
      · exact hJob
      · exact absurd hOwing (hTurn.compare hReads j e)
  | verifying hVerify hStarted hAddress hJob hCourse =>
    have hLooks : (r i).looksUp = true := by rw [hVerify]; rfl
    rcases course_step hCourse hNow with ⟨hQuiet, p', h', rfl, hNext⟩ | ⟨e, rfl, rfl⟩ |
      ⟨a, rfl, hNew, hCache⟩
    · exact hKept.quiet hTurn hThread hQuiet (.verifying hVerify hHere (hQuiet.1.trans hAddress)
        (hQuiet.2.2 _ hJob) hNext)
    · exact hKept.quiet hTurn hThread (.refl _) .ended
    · rw [hAddress] at hNew
      exact hKept.verify_commit hTurn hThread hLooks hAddress hNew hCache
  | updating hUpdates hMails =>
    rcases mails_step hMails hNow with ⟨e, k, rest, -, hMail, rfl, hDb, hCode, hJobs, -, hSent⟩ |
      ⟨hQuiet, ⟨result, rfl⟩ | ⟨p', h', rfl, hNext⟩⟩
    · exact hKept.update hTurn hRest hMail hThread hUpdates hDb hCode hJobs hSent
    · exact hKept.quiet hTurn hThread hQuiet .ended
    · exact hKept.quiet hTurn hThread hQuiet (.updating hUpdates hNext)
  | updated hUpdates hStored hAddress hOwn hSent =>
    have hChanges : ChangesAddress ctx r userId past m i :=
      ⟨hUpdates, hStored, by rw [hRest]; rfl⟩
    obtain ⟨q, hq, hRole, hStores⟩ := hStored
    rcases sent_step hSent hNow with ⟨hQuiet, p', h', rfl, hNext⟩ | ⟨e, rfl, rfl⟩ |
      ⟨a, rfl, hNew, hCache, hJob⟩
    · exact hKept.quiet hTurn hThread hQuiet (.updated hUpdates
        ⟨q, List.mem_append_left _ hq, hRole, hStores⟩ (hQuiet.1.trans hAddress)
        (hOwn.keeps hQuiet.2) hNext)
    · exact hKept.quiet hTurn hThread (.refl _) .ended
    · rw [hAddress] at hNew
      refine hKept.mail_commit hTurn hThread hNew hCache hOwn hJob ?_ ?_ ?_
      · exact fun j hj hLooks h => absurd h ((hKept.apart i j hChanges hj).2 hLooks)
      · exact fun j hj h => absurd h (hKept.apart i j hChanges hj).1
      · exact fun _ _ _ => by simp [hAddress]
  | joining hSigns hNone hMails =>
    rcases mails_step hMails hNow with ⟨e, k, rest, -, -, rfl, hDb, hCode, hJobs, -, hSent⟩ |
      ⟨hQuiet, ⟨result, rfl⟩ | ⟨p', h', rfl, hNext⟩⟩
    · exact signup hOnly hKept hTurn hThread hSigns hNone hDb hCode hJobs hSent
    · exact hKept.quiet hTurn hThread hQuiet .ended
    · exact hKept.quiet hTurn hThread hQuiet (.joining hSigns (hQuiet.1.trans hNone) hNext)
  | joined hSigns hNone hOwn hSent =>
    rcases sent_step hSent hNow with ⟨hQuiet, p', h', rfl, hNext⟩ | ⟨e, rfl, rfl⟩ |
      ⟨a, rfl, hNew, hCache, hJob⟩
    · exact hKept.quiet hTurn hThread hQuiet (.joined hSigns (hQuiet.1.trans hNone)
        (hOwn.keeps hQuiet.2) hNext)
    · exact hKept.quiet hTurn hThread (.refl _) .ended
    · rw [hNone] at hNew
      exact hKept.mail_commit hTurn hThread hNew hCache hOwn hJob (fun _ _ _ _ => hNone)
        (fun _ _ _ => hNone) fun j hj hSigns' => absurd (hOnly j i hSigns' hSigns) hj

end AddressKept

/-- Sign-ups, changes of the address, resends and verifications of one user, interleaved in any way
in which they are in turn: whenever a request commits `email_verified`, it is a verification, and
the code it was given was enqueued in a mail to the address that is stored then. -/
theorem verified_address_proven {w : World} {p : Db → Db} {a : Response}
    {steps : List (Requests ι × ι)} (hValid : w.db.Valid)
    (hUser : ∀ i, (r i).OfUser userId (ctx i))
    (hNew : ∀ i, (r i).signsUp = true → w.db.address userId = none)
    (hOnly : ∀ i j, (r i).signsUp = true → (r j).signsUp = true → i = j)
    (hMailed : ∀ e x, w.db.address userId = some (e, false) → w.cache.code userId = some x →
      .sendVerificationEmail userId e x ∈ w.cache.jobs)
    (hRun : Run Requests.Step (Requests.start w ctx r) steps m)
    (hTurn : AtEach (AddressInTurn ctx r userId) steps)
    (hThread : m.thread i = .running p (.ret a)) (hSets : SetsVerified userId p)
    (hStep : Requests.Step m i m') (hReturned : (m'.thread i).returned = true) :
    ∃ email code e, r i = .verifyEmail email code ∧
      m'.stores.db.address userId = some (e, true) ∧
      .sendVerificationEmail userId e code ∈ m'.stores.cache.jobs := by
  have hKept : AddressKept ctx r userId steps m := by
    clear hThread hStep
    induction hRun with
    | nil =>
      refine ⟨hValid, fun e he x hx => .inl (hMailed e x he hx), ?_,
        fun j => (hUser j).standing fun hSigns => hNew j hSigns⟩
      rintro j k ⟨-, ⟨q, hq, -⟩, -⟩
      cases hq
    | snoc hRun hStep ih =>
      obtain ⟨hBefore, hLast⟩ := atEach_snoc.mp hTurn
      exact (ih hBefore).step hOnly hLast hStep
  have hMine := hKept.standing i
  rw [hThread] at hMine
  obtain ⟨email, code, e, b, hVerify, hAddress, hWrites, hJob⟩ := hMine.proven hSets
  obtain ⟨s, t, hNow, rfl⟩ := Pool.step_some hStep
  rw [Pool.after_thread_same] at hReturned
  obtain ⟨a', rfl⟩ := Thread.returned_iff.mp hReturned
  rw [hThread] at hNow
  obtain ⟨-, -, rfl⟩ := Thread.step_ok hNow
  refine ⟨email, code, e, hVerify, ?_, hJob⟩
  rw [Pool.after_stores, hWrites, hAddress]
  rfl

end Pool

/-! ### Two new addresses -/

def addressContexts (i : Fin 3) : Ctx :=
  ⟨sampleConfig, seconds 20,
    { sampleDraws (i.val + 1) with otp := if i = 0 then "482913" else "771204" }⟩

/-- The user asks for an address of another, and for their own, and verifies the former. -/
def addressRequests (code : String) : Fin 3 → Request
  | 0 => .patchMe (.signed signedInToken) ⟨none, some "victim@example.com"⟩
  | 1 => .patchMe (.signed signedInToken) ⟨none, some "own@example.com"⟩
  | 2 => .verifyEmail "victim@example.com" code

def addressStart (code : String) : Requests (Fin 3) :=
  .start signedIn.world addressContexts (addressRequests code)

/-- The run in which the second change runs before the first commits, up to the commit of the
verification with the code of the second. -/
def changesOverlap : List (Requests (Fin 3) × Fin 3) × Requests (Fin 3) :=
  (addressStart "771204").trace <|
    List.replicate 11 0 ++ List.replicate 12 1 ++ [0] ++ List.replicate 8 2

/-- The run of the first change, and of the verification up to its commit. -/
def changeAlone : List (Requests (Fin 3) × Fin 3) × Requests (Fin 3) :=
  (addressStart "482913").trace <| List.replicate 12 0 ++ List.replicate 8 2

theorem addressRequests_ofUser (code : String) (i : Fin 3) :
    (addressRequests code i).OfUser ⟨1⟩ (addressContexts i) := by
  match i with
  | 0 | 1 => rfl
  | 2 => trivial

theorem addressRequests_noSignup (code : String) (i : Fin 3) :
    (addressRequests code i).signsUp = false := by
  match i with
  | 0 | 1 | 2 => rfl

/-- A code that was mailed to the user's own address verifies another's. -/
theorem address_unproven :
    ¬∀ (ι : Type) (_ : DecidableEq ι) (ctx : ι → Ctx) (r : ι → Request) (userId : Uuid) (w : World)
        (steps : List (Requests ι × ι)) (m m' : Requests ι) (i : ι) (p : Db → Db) (a : Response),
        w.db.Valid → (∀ i, (r i).OfUser userId (ctx i)) →
        (∀ i, (r i).signsUp = true → w.db.address userId = none) →
        (∀ i j, (r i).signsUp = true → (r j).signsUp = true → i = j) →
        (∀ e x, w.db.address userId = some (e, false) → w.cache.code userId = some x →
          .sendVerificationEmail userId e x ∈ w.cache.jobs) →
        Run Requests.Step (Requests.start w ctx r) steps m → m.thread i = .running p (.ret a) →
        SetsVerified userId p → Requests.Step m i m' → (m'.thread i).returned = true →
        ∃ email code e, r i = .verifyEmail email code ∧
          m'.stores.db.address userId = some (e, true) ∧
          .sendVerificationEmail userId e code ∈ m'.stores.cache.jobs := by
  intro hClaim
  have hNone (i : Fin 3) {P : Prop} (h : (addressRequests "771204" i).signsUp = true) : P := by
    rw [addressRequests_noSignup] at h
    cases h
  obtain ⟨p, a, hThread, hSets⟩ : ∃ p a, changesOverlap.2.thread 2 = .running p (.ret a) ∧
      SetsVerified ⟨1⟩ p := ⟨_, _, rfl, changesOverlap.2.stores.db, _, _, rfl, rfl⟩
  have hStep : Requests.Step changesOverlap.2 2 (changesOverlap.2.trace [2]).2 := rfl
  obtain ⟨email, code, e, hVerify, hAddress, hJob⟩ := hClaim (Fin 3) _ addressContexts
    (addressRequests "771204") ⟨1⟩ signedIn.world _ _ _ 2 p a (by decide)
    (addressRequests_ofUser "771204") (fun i h => hNone i h) (fun i _ h _ => hNone i h)
    (by intro e x he; cases he) (Requests.run_trace _ (addressStart "771204")) hThread hSets hStep
    (by decide)
  cases hVerify
  have hVictim : (changesOverlap.2.trace [2]).2.stores.db.address ⟨1⟩ =
      some ("victim@example.com", true) := by decide
  have hSame : (e, true) = ("victim@example.com", true) :=
    Option.some.inj (hAddress.symm.trans hVictim)
  cases hSame
  have hJobs : (changesOverlap.2.trace [2]).2.stores.cache.jobs =
      [.sendVerificationEmail ⟨1⟩ "victim@example.com" "482913",
        .sendVerificationEmail ⟨1⟩ "own@example.com" "771204"] := rfl
  rw [hJobs] at hJob
  simp at hJob

/-- The next statement is a GET. -/
def atFetch : Thread Db Redis PyError Response → Bool
  | .running _ (.fetch _) => true
  | _ => false

/-- The next statement is a SET. -/
def atPut : Thread Db Redis PyError Response → Bool
  | .running _ (.put _ _) => true
  | _ => false

theorem ReadsCode.atFetch {ι : Type} {ctx : ι → Ctx} {userId : Uuid} {step : Requests ι × ι}
    (h : ReadsCode ctx userId step) : atFetch (step.1.thread step.2) = true := by
  obtain ⟨p, code, k, hThread⟩ := h
  rw [hThread]
  rfl

theorem Owing.atPut {ι : Type} {ctx : ι → Ctx} {userId : Uuid} {m : Requests ι} {j : ι}
    {email : String} (h : Owing ctx userId m j email) : atPut (m.thread j) = true := by
  obtain ⟨p, k, rest, hThread, hOwes⟩ := h
  rw [hThread]
  cases hOwes <;> rfl

theorem changeAlone_inTurn :
    AtEach (AddressInTurn addressContexts (addressRequests "482913") ⟨1⟩) changeAlone.1 := by
  have hFacts : AtEach (fun past step =>
      step.2 ≠ 1 ∧ (step.2 = 0 → step.1.stores.db.address ⟨1⟩ = some ("alice@example.com", true) ∧
        ∀ q ∈ past, q.2 = 0) ∧
      (step.2 = 2 → (step.1.thread 0).isEnded = true) ∧ (∀ q ∈ past, q.2 ≠ 1) ∧
      (atFetch (step.1.thread step.2) = true → ∀ j, atPut (step.1.thread j) = false))
      changeAlone.1 := by decide
  refine hFacts.mono fun past step h => ?_
  obtain ⟨hSecond, hFirst, hLast, hNever, hSole⟩ := h
  constructor
  · intro hUpdates _
    have hZero : step.2 = 0 := by
      match hRole : step.2 with
      | 0 => rfl
      | 1 => exact absurd hRole hSecond
      | 2 => rw [hRole] at hUpdates; cases hUpdates
    obtain ⟨hAddress, hPast⟩ := hFirst hZero
    refine ⟨⟨_, hAddress⟩, fun j hj => ⟨?_, ?_⟩⟩
    · rintro ⟨hUpdates', ⟨q, hq, hRole, -⟩, -⟩
      match j with
      | 0 => exact hj hZero.symm
      | 1 => exact hNever q hq hRole
      | 2 => cases hUpdates'
    · rintro hLooks ⟨⟨q, hq, hRole⟩, -⟩
      match j with
      | 0 | 1 => cases hLooks
      | 2 => exact absurd (hPast q hq) (by rw [hRole]; decide)
  · intro hLooks j hChanges
    obtain ⟨hUpdates, ⟨q, hq, hRole, -⟩, hOpen⟩ := hChanges
    match j with
    | 0 =>
      match hStep : step.2 with
      | 0 | 1 => rw [hStep] at hLooks; cases hLooks
      | 2 =>
        rw [hLast hStep] at hOpen
        cases hOpen
    | 1 => exact hNever q hq hRole
    | 2 => cases hUpdates
  · intro hReads j email hOwing
    have hPut := hOwing.atPut
    rw [hSole hReads.atFetch j] at hPut
    cases hPut

/-- The law at a change of the address that is verified with its own code. -/
theorem verified_address_proven_changeAlone :
    ∃ email code e, addressRequests "482913" 2 = .verifyEmail email code ∧
      (changeAlone.2.trace [2]).2.stores.db.address ⟨1⟩ = some (e, true) ∧
      .sendVerificationEmail ⟨1⟩ e code ∈ (changeAlone.2.trace [2]).2.stores.cache.jobs := by
  obtain ⟨p, a, hThread, hSets⟩ : ∃ p a, changeAlone.2.thread 2 = .running p (.ret a) ∧
      SetsVerified ⟨1⟩ p := ⟨_, _, rfl, changeAlone.2.stores.db, _, _, rfl, rfl⟩
  have hNone (i : Fin 3) {P : Prop} (h : (addressRequests "482913" i).signsUp = true) : P := by
    rw [addressRequests_noSignup] at h
    cases h
  have hRun := Requests.run_trace (List.replicate 12 0 ++ List.replicate 8 2)
    (addressStart "482913")
  exact verified_address_proven (by decide) (addressRequests_ofUser "482913")
    (fun i h => hNone i h) (fun i _ h _ => hNone i h) (by intro e x he; cases he) hRun
    changeAlone_inTurn hThread hSets rfl (by decide)

end WxcodeAdm
