import WxcodeAdm.Credentials
import WxcodeAdm.Outbox

/-! Reset tokens are stored nowhere.  A token is signed with the password hash of its user, or with a
text made of the user's id where there is none, so it is good as long as that hash stays. -/

namespace WxcodeAdm

open Lib

variable {cfg : Config} {c c' : Ctx} {s₀ s s' : Sys} {e : Event} {steps : List (Sys × Event)}

/-! ### Hashes over a run -/

def Sys.hashes (s : Sys) : List (Uuid × String) :=
  s.world.db.users.filterMap fun u => u.passwordHash.map fun hash => (u.id, hash)

/-- The hashes that the steps set, each with its user. -/
def hashesSet (cfg : Config) (steps : List (Sys × Event)) : List (Uuid × String) :=
  steps.filterMap fun p => p.2.setsHash cfg p.1.world.db

/-- What `hash_password` is relied on for: it never returns a hash twice, and a hash is not empty
and is no fallback salt. -/
structure FreshHashes (cfg : Config) (s₀ : Sys) (steps : List (Sys × Event)) : Prop where
  distinct : ((s₀.hashes ++ hashesSet cfg steps).map Prod.snd).Nodup
  shape : ∀ x ∈ s₀.hashes ++ hashesSet cfg steps,
    x.2 ≠ "" ∧ ∀ id, x.2 ≠ "no-password-" ++ cfg.lib.uuidText id

theorem hashesSet_append (before after : List (Sys × Event)) :
    hashesSet cfg (before ++ after) = hashesSet cfg before ++ hashesSet cfg after :=
  List.filterMap_append

theorem Sys.mem_hashes {id : Uuid} {hash : String}
    (h : s.world.db.passwordHashOf id = some (some hash)) : (id, hash) ∈ s.hashes := by
  obtain ⟨user, hUser, hHash⟩ := Option.map_eq_some_iff.mp h
  exact List.mem_filterMap.mpr ⟨user, Db.user_mem hUser, by rw [hHash, Db.user_id hUser]; rfl⟩

/-- A hash that a user has in a run was there at its start or was set for the user since. -/
theorem hash_mem_of_run (hRun : Run (Step cfg) s₀ steps s) {id : Uuid} {hash : String}
    (h : s.world.db.passwordHashOf id = some (some hash)) :
    (id, hash) ∈ s₀.hashes ++ hashesSet cfg steps := by
  induction hRun generalizing id hash with
  | nil => exact List.mem_append_left _ (Sys.mem_hashes h)
  | @snoc steps m s e hRun hStep ih =>
    rw [hashesSet_append, ← List.append_assoc]
    cases hSets : e.setsHash cfg m.world.db with
    | none =>
      rcases hStep.keepsHashes hSets id with hSame | ⟨-, hNew⟩
      · exact List.mem_append_left _ (ih (hSame ▸ h))
      · rw [hNew] at h
        cases h
    | some set =>
      obtain ⟨other, new⟩ := set
      have hRehashed := hStep.rehashed hSets
      by_cases hSelf : id = other
      · subst hSelf
        obtain rfl : new = hash := by simpa [hRehashed.self] using h
        exact List.mem_append_right _ (List.mem_filterMap.mpr ⟨(m, e), by simp, hSets⟩)
      · exact List.mem_append_left _ (ih ((hRehashed.others id hSelf) ▸ h))

/-- A hash has one user. -/
theorem FreshHashes.owner (hFresh : FreshHashes cfg s₀ steps) {x y : Uuid × String}
    (hx : x ∈ s₀.hashes ++ hashesSet cfg steps) (hy : y ∈ s₀.hashes ++ hashesSet cfg steps)
    (hSame : x.2 = y.2) : x.1 = y.1 :=
  congrArg Prod.fst (List.inj_on_of_nodup_map hFresh.distinct hx hy hSame)

/-! ### Salts -/

/-- The hash is among those set, if the user has one. -/
def User.HashIn (hashes : List (Uuid × String)) (u : User) : Prop :=
  ∀ hash ∈ u.passwordHash, (u.id, hash) ∈ hashes

theorem FreshHashes.resetSalt_some (hFresh : FreshHashes cfg s₀ steps) {u : User} {hash : String}
    (hIn : u.HashIn (s₀.hashes ++ hashesSet cfg steps))
    (hHash : u.passwordHash = some hash) : resetSalt c u = hash := by
  have hNonempty : hash ≠ "" := (hFresh.shape _ (hIn hash hHash)).1
  simp only [resetSalt, hHash, if_neg hNonempty]

theorem resetSalt_none {u : User} (hHash : u.passwordHash = none) :
    resetSalt c u = "no-password-" ++ c.lib.uuidText u.id := by
  simp only [resetSalt, hHash]

/-- Equal salts are of one user with one hash, or with none. -/
theorem FreshHashes.salt_inj (hFresh : FreshHashes cfg s₀ steps)
    (hText : Function.Injective cfg.lib.uuidText) (hCfg : c.toConfig = cfg)
    (hCfg' : c'.toConfig = cfg) {u v : User}
    (hu : u.HashIn (s₀.hashes ++ hashesSet cfg steps))
    (hv : v.HashIn (s₀.hashes ++ hashesSet cfg steps))
    (hSalt : resetSalt c u = resetSalt c' v) : u.id = v.id ∧ u.passwordHash = v.passwordHash := by
  have hLib : c.lib = cfg.lib := congrArg (fun c : Config => c.lib) hCfg
  have hLib' : c'.lib = cfg.lib := congrArg (fun c : Config => c.lib) hCfg'
  cases hHash : u.passwordHash with
  | some hash =>
    rw [hFresh.resetSalt_some hu hHash] at hSalt
    cases hHash' : v.passwordHash with
    | some hash' =>
      rw [hFresh.resetSalt_some hv hHash'] at hSalt
      exact ⟨hFresh.owner (hu hash hHash) (hv hash' hHash') hSalt, congrArg some hSalt⟩
    | none =>
      rw [resetSalt_none hHash', hLib'] at hSalt
      exact absurd hSalt ((hFresh.shape _ (hu hash hHash)).2 v.id)
  | none =>
    rw [resetSalt_none hHash, hLib] at hSalt
    cases hHash' : v.passwordHash with
    | some hash' =>
      rw [hFresh.resetSalt_some hv hHash'] at hSalt
      exact absurd hSalt.symm ((hFresh.shape _ (hv hash' hHash')).2 u.id)
    | none =>
      rw [resetSalt_none hHash', hLib', String.append_right_inj] at hSalt
      exact ⟨hText hSalt, rfl⟩

/-! ### No hash comes back -/

theorem FreshHashes.of_append {before after : List (Sys × Event)}
    (h : FreshHashes cfg s₀ (before ++ after)) : FreshHashes cfg s₀ before where
  distinct := by
    have hDistinct := h.distinct
    rw [hashesSet_append, ← List.append_assoc, List.map_append] at hDistinct
    exact hDistinct.of_append_left
  shape := by
    intro x hx
    refine h.shape x ?_
    rw [hashesSet_append, ← List.append_assoc]
    exact List.mem_append_left _ hx

/-- Once a user's hash was set, the user has a hash that was set from then on. -/
theorem hash_set_since {q : Sys × Event} {userId : Uuid} {hash : String}
    (hSets : q.2.setsHash cfg q.1.world.db = some (userId, hash)) (hStep : Step cfg q.1 q.2 s)
    {later : List (Sys × Event)} (hRun : Run (Step cfg) s later s') :
    ∃ hash, s'.world.db.passwordHashOf userId = some (some hash) ∧
      (userId, hash) ∈ hashesSet cfg (q :: later) := by
  induction hRun with
  | nil =>
    exact ⟨hash, (hStep.rehashed hSets).self, List.mem_filterMap.mpr ⟨q, by simp, hSets⟩⟩
  | @snoc later m s' e hRun hNext ih =>
    obtain ⟨old, hOld, hMem⟩ := ih
    have hKept : (userId, old) ∈ hashesSet cfg (q :: (later ++ [(m, e)])) := by
      rw [← List.cons_append, hashesSet_append]
      exact List.mem_append_left _ hMem
    cases hLast : e.setsHash cfg m.world.db with
    | none =>
      rcases hNext.keepsHashes hLast userId with hSame | ⟨hNone, -⟩
      · exact ⟨old, hSame.trans hOld, hKept⟩
      · rw [hNone] at hOld
        cases hOld
    | some set =>
      obtain ⟨other, new⟩ := set
      have hRehashed := hNext.rehashed hLast
      by_cases hSelf : userId = other
      · subst hSelf
        exact ⟨new, hRehashed.self, List.mem_filterMap.mpr ⟨(m, e), by simp, hLast⟩⟩
      · exact ⟨old, (hRehashed.others userId hSelf).trans hOld, hKept⟩

/-- What a user had as hash before the hash was set, none included, the user never has again. -/
theorem hash_never_returns {before later : List (Sys × Event)} {q g : Sys × Event} {n : Sys}
    {userId : Uuid} {hash : String} (hFresh : FreshHashes cfg s₀ (before ++ q :: later))
    (hBefore : Run (Step cfg) s₀ before q.1) (hStep : Step cfg q.1 q.2 n)
    (hLater : Run (Step cfg) n later s)
    (hSets : q.2.setsHash cfg q.1.world.db = some (userId, hash)) (hg : g ∈ before) :
    s.world.db.passwordHashOf userId ≠ g.1.world.db.passwordHashOf userId := by
  obtain ⟨now, hNow, hSetSince⟩ := hash_set_since hSets hStep hLater
  intro hSame
  obtain ⟨early, rest, m, rfl, hEarly, -, -⟩ := hBefore.split g hg
  have hThen := hash_mem_of_run hEarly (hSame.symm.trans hNow)
  have hDistinct := hFresh.distinct
  rw [hashesSet_append, ← List.append_assoc, List.map_append, List.nodup_append] at hDistinct
  refine hDistinct.2.2 now ?_ now (List.mem_map.mpr ⟨_, hSetSince, rfl⟩) rfl
  rw [hashesSet_append, ← List.append_assoc]
  exact List.mem_map.mpr ⟨_, List.mem_append_left _ hThen, rfl⟩

/-! ### Where a token comes from -/

/-- The request mails the token to the user. -/
def Generates (cfg : Config) (g : Sys × Event) (userId : Uuid) (token : TimedToken Json) : Prop :=
  ∃ email, (serve (g.2.ctx cfg) g.2.request g.1.world).2.cache.resetMails =
    g.1.world.cache.resetMails ++ [(userId, email, token)]

/-- The mail of a request is made of the address and the hash that its user has then. -/
theorem generates_mailed {g : Sys × Event} {userId : Uuid} {token : TimedToken Json} {n : Sys}
    (hs : g.1.Sound cfg) (hStep : Step cfg g.1 g.2 n) (h : Generates cfg g userId token) :
    ∃ user, g.1.world.db.user userId = some user ∧
      token = generateResetToken (g.2.ctx cfg) user.email (resetSalt (g.2.ctx cfg) user) := by
  obtain ⟨email, hMails⟩ := h
  rw [hStep.served] at hMails
  rcases hStep.resetMail hs with hNone | ⟨userId', email', token', hSent, user, hUser, rfl, rfl⟩
  · exact absurd (hNone.symm.trans hMails) (by simp)
  · obtain ⟨rfl, rfl, rfl⟩ : userId' = userId ∧ _ ∧ _ := by
      simpa using List.append_cancel_left (hSent.symm.trans hMails)
    exact ⟨user, hUser, rfl⟩

/-- Every reset mail in the queue was put there by a request of the run. -/
theorem resetMail_generated (hs₀ : s₀.Sound cfg) (hRun : Run (Step cfg) s₀ steps s)
    (hEmpty : s₀.world.cache.resetMails = []) {userId : Uuid} {email : String}
    {token : TimedToken Json} (hMail : (userId, email, token) ∈ s.world.cache.resetMails) :
    ∃ g ∈ steps, Generates cfg g userId token := by
  induction hRun with
  | nil =>
    rw [hEmpty] at hMail
    cases hMail
  | @snoc steps m s e hRun hStep ih =>
    have hs : m.Sound cfg := hRun.invariant (fun hs hStep => hStep.sound hs) hs₀
    suffices h : (userId, email, token) ∈ m.world.cache.resetMails ∨
        Generates cfg (m, e) userId token by
      rcases h with hOld | hNew
      · obtain ⟨g, hg, hGenerates⟩ := ih hOld
        exact ⟨g, List.mem_append_left _ hg, hGenerates⟩
      · exact ⟨(m, e), by simp, hNew⟩
    rcases hStep.resetMail hs with hNone | ⟨userId', email', token', hSent, -⟩
    · exact .inl (hNone ▸ hMail)
    · rw [hSent] at hMail
      rcases List.mem_append.mp hMail with hOld | hNew
      · exact .inl hOld
      · obtain ⟨rfl, rfl, rfl⟩ : userId = userId' ∧ email = email' ∧ token = token' := by
          simpa using hNew
        exact .inr ⟨email, by rw [hStep.served, hSent]⟩

/-! ### What a token is good for -/

def Event.ResetsWith (token : TimedToken Json) (e : Event) : Prop :=
  (∃ newPassword, e.request = .resetPassword token newPassword) ∧ ∃ r, e.outcome = .ok r

/-- The reset sets the hash of a user who has the address of the token, to whom it was mailed and
nobody else, and each time while the user had the hash, or none, that the user still has. -/
def BoundReset (young : Nat → Nat → Prop) (cfg : Config) (pre : List (Sys × Event))
    (p : Sys × Event) (token : TimedToken Json) : Prop :=
  ∃ user hash, p.2.setsHash cfg p.1.world.db = some (user.id, hash) ∧
    p.1.world.db.user user.id = some user ∧ token.payload = some (.str user.email) ∧
    (∃ g ∈ pre, ∃ id, Generates cfg g id token) ∧
    ∀ g ∈ pre, ∀ id, Generates cfg g id token →
      id = user.id ∧ g.1.world.db.passwordHashOf id = some user.passwordHash ∧
        young g.2.now p.2.now

/-- No earlier reset used the token, and since it was mailed to a user, no reset, change of password
or sign-up set the hash of that user. -/
def FirstUse (cfg : Config) (pre : List (Sys × Event)) (token : TimedToken Json) : Prop :=
  (∀ q ∈ pre, ¬q.2.ResetsWith token) ∧
    ∀ before q later userId hash, pre = before ++ q :: later →
      q.2.setsHash cfg q.1.world.db = some (userId, hash) →
      ∀ g ∈ before, ¬Generates cfg g userId token

def WithinDay (generated now : Nat) : Prop := generated ≤ now ∧ now ≤ generated + days 1

/-- The age that `itsdangerous` computes, in whole seconds, is at most a day. -/
def WithinDaySeconds (generated now : Nat) : Prop :=
  generated ≤ now ∧ timestamp now - timestamp generated ≤ 86400

/-! ### Resets -/

/-- What a user of a state in a run has as hash is among the hashes of the run. -/
theorem hashIn_of_step (hRun : Run (Step cfg) s₀ steps s) {p : Sys × Event} (hp : p ∈ steps)
    {user : User} (hUser : p.1.world.db.user user.id = some user) :
    user.HashIn (s₀.hashes ++ hashesSet cfg steps) := by
  intro hash hHash
  obtain ⟨before, later, n, rfl, hBefore, -, -⟩ := hRun.split p hp
  rw [hashesSet_append, ← List.append_assoc]
  refine List.mem_append_left _ (hash_mem_of_run hBefore ?_)
  rw [Db.passwordHashOf, hUser, Option.map_some, hHash]

theorem resetsWith_ok {p : Sys × Event} {n : Sys} {token : TimedToken Json}
    (hStep : Step cfg p.1 p.2 n) (hReset : p.2.ResetsWith token) :
    ∃ user hash signedAt, p.2.setsHash cfg p.1.world.db = some (user.id, hash) ∧
      user ∈ p.1.world.db.users ∧ resetTokenEmail token = .ok user.email ∧
      token.signature = some (resetSalt (p.2.ctx cfg) user, signedAt) ∧
      timestamp p.2.now - signedAt ≤ 86400 := by
  obtain ⟨⟨newPassword, hRequest⟩, response, hOk⟩ := hReset
  have hRun := (hStep.committed hOk).1
  rw [hRequest] at hRun
  obtain ⟨⟨⟩, m, hRun, -⟩ := Handler.run_bind_ok.mp hRun
  obtain ⟨email, user, payload, hEmail, hUser, hVerify, -⟩ := resetPassword_ok hRun
  obtain ⟨-, signedAt, hSignature, -, hAge, -⟩ := verifyResetToken_ok.mp hVerify
  obtain rfl : user.email = email := by simpa using List.find?_some hUser
  refine ⟨user, hashPassword (p.2.ctx cfg) newPassword, signedAt, ?_,
    List.mem_of_find?_eq_some hUser, hEmail, hSignature, hAge⟩
  simp only [Event.setsHash, hOk, hRequest, hEmail, Except.toOption, Option.bind_some, hUser,
    Option.map_some]

/-- A reset is bound to the user that its token was mailed to. -/
theorem reset_bound (hInit : Initial s₀) (hRun : Run (Step cfg) s₀ steps s)
    (hFresh : FreshHashes cfg s₀ steps) (hText : Function.Injective cfg.lib.uuidText)
    {pre post : List (Sys × Event)} {p : Sys × Event} (hSplit : steps = pre ++ p :: post)
    {n : Sys} (hPre : Run (Step cfg) s₀ pre p.1) (hStep : Step cfg p.1 p.2 n)
    {token : TimedToken Json} (hReset : p.2.ResetsWith token) :
    BoundReset WithinDaySeconds cfg pre p token := by
  have hs : p.1.Sound cfg := hPre.invariant (fun hs hStep => hStep.sound hs) hInit.sound
  obtain ⟨user, hash, signedAt, hSets, hUser, hEmail, hSignature, hAge⟩ :=
    resetsWith_ok hStep hReset
  have hRow := hs.valid.user_of_mem hUser
  have hp : p ∈ steps := hSplit ▸ by simp
  refine ⟨user, hash, hSets, hRow, (resetTokenEmail_ok hEmail).2.1, ?_, ?_⟩
  · obtain ⟨⟨newPassword, hRequest⟩, -⟩ := hReset
    have hGenuine := hStep.genuine
    rw [hRequest] at hGenuine
    obtain ⟨userId, email, hJob⟩ := hGenuine (hSignature ▸ rfl)
    have hMail : (userId, email, token) ∈ p.1.world.cache.resetMails :=
      List.mem_filterMap.mpr ⟨_, hJob, rfl⟩
    obtain ⟨g, hg, hGenerates⟩ := resetMail_generated hInit.sound hPre
      (by rw [hInit.cache]; rfl) hMail
    exact ⟨g, hg, userId, hGenerates⟩
  · intro g hg id hGenerates
    obtain ⟨before, later, m, rfl, hBefore, hSent, hLater⟩ := hPre.split g hg
    have hSound : g.1.Sound cfg := hBefore.invariant (fun hs hStep => hStep.sound hs) hInit.sound
    obtain ⟨holder, hHolder, rfl⟩ := generates_mailed hSound hSent hGenerates
    obtain rfl := Db.user_id hHolder
    obtain ⟨hSalt, hSignedAt⟩ : resetSalt (g.2.ctx cfg) holder = resetSalt (p.2.ctx cfg) user ∧
        timestamp (g.2.ctx cfg).now = signedAt := by
      simpa [generateResetToken, TimedToken.dumps] using hSignature
    obtain rfl : timestamp g.2.now = signedAt := hSignedAt
    obtain ⟨hId, hHash⟩ := hFresh.salt_inj hText rfl rfl
      (hashIn_of_step hRun (hSplit ▸ by simp) hHolder) (hashIn_of_step hRun hp hRow) hSalt
    refine ⟨hId, by rw [Db.passwordHashOf, hHolder, Option.map_some, hHash], ?_, hAge⟩
    have hLogged : g.2 ∈ p.1.log := by
      rw [log_of_run hPre]
      exact List.mem_append_right _ (List.mem_map_of_mem hg)
    exact Nat.le_trans (hs.past g.2 hLogged) hStep.time

/-- Where a token resets a password, no hash of the user was set since the token was mailed. -/
theorem not_generates_before {pre : List (Sys × Event)} {p : Sys × Event}
    (hFresh : FreshHashes cfg s₀ pre) (hPre : Run (Step cfg) s₀ pre p.1)
    {young : Nat → Nat → Prop} {token : TimedToken Json} (hBound : BoundReset young cfg pre p token)
    {before later : List (Sys × Event)} {q : Sys × Event} (hPast : pre = before ++ q :: later)
    {userId : Uuid} {hash : String} (hSets : q.2.setsHash cfg q.1.world.db = some (userId, hash))
    {g : Sys × Event} (hg : g ∈ before) : ¬Generates cfg g userId token := by
  intro hGenerates
  obtain ⟨user, _, -, hUser, -, -, hAll⟩ := hBound
  obtain ⟨rfl, hThen, -⟩ := hAll g (hPast ▸ List.mem_append_left _ hg) userId hGenerates
  obtain ⟨n, hBefore, hStep, hLater⟩ := hPre.split_at hPast
  refine hash_never_returns (hPast ▸ hFresh) hBefore hStep hLater hSets hg ?_
  rw [hThen, Db.passwordHashOf, hUser, Option.map_some]

/-- Every reset is bound to the user its token was mailed to, and is the first use of it. -/
theorem reset_token_bound (hInit : Initial s₀) (hRun : Run (Step cfg) s₀ steps s)
    (hFresh : FreshHashes cfg s₀ steps) (hText : Function.Injective cfg.lib.uuidText) :
    AtEach (fun pre p => ∀ token, p.2.ResetsWith token →
      BoundReset WithinDaySeconds cfg pre p token ∧ FirstUse cfg pre token) steps := by
  intro pre p post hSplit token hReset
  obtain ⟨n, hPre, hStep, -⟩ := hRun.split_at hSplit
  have hBound := reset_bound hInit hRun hFresh hText hSplit hPre hStep hReset
  have hFreshPre : FreshHashes cfg s₀ pre := .of_append (hSplit ▸ hFresh)
  refine ⟨hBound, ?_, ?_⟩
  · intro q hq hEarlier
    obtain ⟨before, later, n', hPast, hBefore, hStep', -⟩ := hPre.split q hq
    have hFirst : BoundReset WithinDaySeconds cfg before q token :=
      reset_bound hInit hPre hFreshPre hText hPast hBefore hStep' hEarlier
    obtain ⟨user, hash, hSets, -, -, ⟨g, hg, id, hGenerates⟩, hAll⟩ := hFirst
    obtain rfl := (hAll g hg id hGenerates).1
    exact not_generates_before hFreshPre hPre hBound hPast hSets hg hGenerates
  · intro before q later userId hash hPast hSets g hg
    exact not_generates_before hFreshPre hPre hBound hPast hSets hg

/-! ### A late reset -/

def mailSent : Event × Sys :=
  sampleHome.sample (seconds 10) (.forgotPassword "alice@example.com")

def mailedToken : TimedToken Json :=
  { payload := some (.str "alice@example.com"), signature := some ("salt$pw", 10) }

/-- The reset comes a day and half a second after the mail. -/
def lateReset : Event × Sys :=
  mailSent.2.sample (seconds 86410 + 500000) (.resetPassword mailedToken "new")

def lateSteps : List (Sys × Event) := [(sampleHome, mailSent.1), (mailSent.2, lateReset.1)]

theorem lateReset_run : Run (Step sampleConfig) sampleHome lateSteps lateReset.2 := by
  have hSent : Step sampleConfig sampleHome mailSent.1 mailSent.2 ∧
      Reachable sampleConfig mailSent.2 :=
    sampleHome_initial.reachable.sample (by decide) (by trivial)
  refine .cons hSent.1 (.single (hSent.2.sample (by decide) ?_).1)
  exact fun _ => ⟨⟨1⟩, "alice@example.com", .head _⟩

theorem uuidText_injective : Function.Injective sampleConfig.lib.uuidText := by
  rintro ⟨m⟩ ⟨n⟩ h
  have hDigits : Nat.toDigits 10 m = Nat.toDigits 10 n := by
    rw [← Nat.toList_repr, ← Nat.toList_repr]
    exact congrArg String.toList h
  have hNat := congrArg (fun digits => Nat.ofDigitChars 10 digits 0) hDigits
  simpa using hNat

theorem lateReset_fresh : FreshHashes sampleConfig sampleHome lateSteps where
  distinct := by decide
  shape := by
    have hFirst : ∀ x ∈ sampleHome.hashes ++ hashesSet sampleConfig lateSteps,
        x.2.toList.head? = some 's' := by decide
    intro x hx
    refine ⟨fun hEmpty => ?_, fun id hFallback => ?_⟩
    · have hHead := hFirst x hx
      rw [hEmpty] at hHead
      cases hHead
    · have hHead := hFirst x hx
      rw [hFallback, String.toList_append] at hHead
      cases hHead

/-- A token resets a password when more than a day has passed. -/
theorem reset_after_a_day :
    ¬∀ (cfg : Config) (s₀ s : Sys) (steps : List (Sys × Event)), Initial s₀ →
      Run (Step cfg) s₀ steps s → FreshHashes cfg s₀ steps →
      Function.Injective cfg.lib.uuidText →
      AtEach (fun pre p => ∀ token, p.2.ResetsWith token →
        BoundReset WithinDay cfg pre p token ∧ FirstUse cfg pre token) steps := by
  intro hClaim
  have hAll := hClaim _ _ _ _ sampleHome_initial lateReset_run lateReset_fresh uuidText_injective
  obtain ⟨⟨user, hash, -, -, -, ⟨g, hg, id, hGenerates⟩, hBound⟩, -⟩ :=
    hAll [(sampleHome, mailSent.1)] (mailSent.2, lateReset.1) [] rfl mailedToken
      ⟨⟨"new", rfl⟩, .done, rfl⟩
  obtain rfl := List.mem_singleton.mp hg
  exact absurd (hBound _ (by simp) id hGenerates).2.2.2 (by decide)

/-- The law at the late reset. -/
theorem reset_token_bound_lateReset :
    AtEach (fun pre p => ∀ token, p.2.ResetsWith token →
      BoundReset WithinDaySeconds sampleConfig pre p token ∧ FirstUse sampleConfig pre token)
      lateSteps :=
  reset_token_bound sampleHome_initial lateReset_run lateReset_fresh uuidText_injective

end WxcodeAdm
