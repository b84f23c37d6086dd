import WxcodeAdm.Concurrency
import WxcodeAdm.Lib.OneTime

/-! Backup codes and pending logins side by side.  `mfa_verify` and `mfa_disable` find an unused
backup code by a SELECT and mark it by a later UPDATE that does not ask whether it is still unused;
`mfa_verify` finds the pending login by a GET and deletes it by a later DEL that does not ask whether
it was still there.  Two requests that have both found the same code, or the same pending login, both
return. -/

namespace WxcodeAdm

open Lib

def Request.UsesSecondFactor (r : Request) : Prop :=
  (∃ body userAgent clientIp, r = .mfaVerify body userAgent clientIp) ∨
    ∃ token code, r = .mfaDisable token code

/-- No row with this id is an unused backup code. -/
def CodeUsed (codeId : Uuid) (db : Db) : Prop :=
  ∀ b ∈ db.backupCodes, b.id = codeId → b.usedAt ≠ none

/-- The pending login is gone. -/
def PendingUsed (mfaToken : PyStr) (r : Redis) : Prop :=
  ∀ now, r.mfaPending.get now mfaToken = none

variable {c : Ctx} {codeId : Uuid} {mfaToken : PyStr}

/-! ### What no request undoes -/

theorem keeps_exec {f : Db → Db} (h : ∀ db, (f db).backupCodes = db.backupCodes) :
    (.exec f : App Unit).Keeps (CodeUsed codeId) (PendingUsed mfaToken) :=
  .exec fun db hUsed => by rwa [CodeUsed, h]

theorem keeps_store {f : Redis → Redis} (h : ∀ r, (f r).mfaPending = r.mfaPending) :
    (.store f : App Unit).Keeps (CodeUsed codeId) (PendingUsed mfaToken) :=
  .store fun r hUsed => by rwa [PendingUsed, h]

theorem flush_keeps : flush.Keeps (CodeUsed codeId) (PendingUsed mfaToken) :=
  .bind (.query _) fun _ => .ensure _ _

theorem requireVerified_keeps (token : Bearer) :
    (requireVerified c token).Keeps (CodeUsed codeId) (PendingUsed mfaToken) :=
  .bind (.bind (.ofExcept _) fun _ => .bind (.lookup _) fun _ => .bind (.ensure _ _) fun _ =>
    .bind (.query _) fun _ => .bind (.orRaise _ _) fun _ => .bind (.ensure _ _) fun _ =>
    .bind (.ensure _ _) fun _ => .bind (keeps_store fun _ => rfl) fun _ => .pure _) fun _ =>
    .bind (.ensure _ _) fun _ => .pure _

/-- Marking a code marks it, and no code becomes unused. -/
theorem codeUsed_mark {id : Uuid} {now : Nat} {db : Db} (h : id = codeId ∨ CodeUsed codeId db) :
    CodeUsed codeId (db.updateBackupCode id fun b => { b with usedAt := some now }) := by
  intro b hb hId
  obtain ⟨old, hOld, rfl⟩ := List.mem_map.mp hb
  by_cases hMarked : old.id = id
  · simp only [hMarked, if_true]
    simp
  · simp only [hMarked, if_false] at hId ⊢
    rcases h with rfl | hUsed
    · exact absurd hId hMarked
    · exact hUsed old hOld hId

theorem redeemBackupCode_keeps (userId : Uuid) (code : String) :
    (redeemBackupCode c userId code).Keeps (CodeUsed codeId) (PendingUsed mfaToken) :=
  .bind (.query _) fun _ => .bind (.orRaise _ _) fun _ => .exec fun _ h => codeUsed_mark (.inr h)

theorem mfaDisable_keeps (user : User) (code : String) :
    (mfaDisable c user code).Keeps (CodeUsed codeId) (PendingUsed mfaToken) :=
  .bind (.ensure _ _) fun _ => .bind
    (.bind (.ofExcept _) fun _ => .ite (.pure _) (redeemBackupCode_keeps _ _)) fun _ =>
    .bind (keeps_exec fun _ => rfl) fun _ =>
    .exec fun _ hUsed b hb => hUsed b (List.mem_filter.mp hb).1

theorem verifySecondFactor_keeps (user : User) (code : String) :
    (verifySecondFactor c user code).Keeps (CodeUsed codeId) (PendingUsed mfaToken) :=
  .bind (.ofExcept _) fun _ => .ite (keeps_store fun _ => rfl) (redeemBackupCode_keeps _ _)

theorem issueTokens_keeps (user : User) (ua ip : Option String) :
    (issueTokens c user ua ip).Keeps (CodeUsed codeId) (PendingUsed mfaToken) :=
  .bind (.query _) fun _ => .bind (keeps_store fun _ => rfl) fun _ =>
    .bind (keeps_exec fun _ => rfl) fun _ => .bind (.query _) fun _ =>
    .bind (keeps_exec fun _ => rfl) fun _ => .bind (.ofExcept _) fun _ =>
    .bind (keeps_exec fun _ => rfl) fun _ => .pure _

theorem redirectToWxcode_keeps (user : User) (tokens : TokenResponse) :
    (redirectToWxcode c user tokens).Keeps (CodeUsed codeId) (PendingUsed mfaToken) :=
  .bind (.query _) fun found => by
    cases found with
    | none => exact .pure _
    | some _ =>
      exact .bind (.bind (keeps_store fun _ => rfl) fun _ => .pure _) fun _ =>
        .bind (keeps_exec fun _ => rfl) fun _ => .pure _

/-- The DEL of a pending login makes none pending. -/
theorem pendingUsed_del {r : Redis} {tok : PyStr} (h : tok = mfaToken ∨ PendingUsed mfaToken r) :
    PendingUsed mfaToken { r with mfaPending := r.mfaPending.del tok } := by
  intro now
  by_cases hSame : mfaToken = tok
  · subst hSame
    exact Expiring.get_del_same
  · refine (Expiring.get_del_other hSame).trans ?_
    rcases h with rfl | hUsed
    · exact absurd rfl hSame
    · exact hUsed now

theorem completeMfaLogin_keeps (user : User) (body : MfaVerifyRequest) (ua ip : Option String) :
    (completeMfaLogin c user body ua ip).Keeps (CodeUsed codeId) (PendingUsed mfaToken) :=
  .bind (.store fun _ h => pendingUsed_del (.inr h)) fun _ =>
    .bind (issueTokens_keeps _ _ _) fun _ => .bind (redirectToWxcode_keeps _ _) fun _ =>
    .ite (.bind (.bind (keeps_exec fun _ => rfl) fun _ => .pure _) fun _ => .pure _) (.pure _)

theorem mfaVerify_keeps (body : MfaVerifyRequest) (ua ip : Option String) :
    (mfaVerify c body ua ip).Keeps (CodeUsed codeId) (PendingUsed mfaToken) :=
  .bind (.lookup _) fun _ => .bind (.orRaise _ _) fun _ => .bind (.ofExcept _) fun _ =>
    .bind (.query _) fun _ => .bind (.orRaise _ _) fun _ => .bind (.ensure _ _) fun _ =>
    .bind (.lookup _) fun _ => .bind (.ensure _ _) fun _ =>
    .bind (verifySecondFactor_keeps _ _) fun _ => completeMfaLogin_keeps _ _ _ _

theorem transaction_keeps {r : Request} (h : r.UsesSecondFactor) :
    (transaction c r).Keeps (CodeUsed codeId) (PendingUsed mfaToken) := by
  refine .bind ?_ fun _ => .bind flush_keeps fun _ => .pure _
  rcases h with ⟨body, ua, ip, rfl⟩ | ⟨token, code, rfl⟩
  · exact .bind (mfaVerify_keeps _ _ _) fun _ => .pure _
  · exact .bind (requireVerified_keeps _) fun _ => .bind (mfaDisable_keeps _ _) fun _ => .pure _

/-! ### Side by side -/

section Pool

variable {ι : Type} (ctx : ι → Ctx) (r : ι → Request)

/-- The next statement of the request is the SELECT of its unused backup codes, and this is the one
that matches. -/
def FindsCode (codeId : Uuid) (m : Requests ι) (i : ι) : Prop :=
  ∃ p userId code rest row,
    m.thread i = .running p (redeemBackupCode (ctx i) userId code >>= rest) ∧
      matchingBackupCode (ctx i) userId code (p m.stores.db) = some row ∧ row.id = codeId

def VerifiesPending (mfaToken : PyStr) (r : Request) : Prop :=
  ∃ body userAgent clientIp, r = .mfaVerify body userAgent clientIp ∧ body.mfaToken = mfaToken

/-- The next statement of the request is the GET of the pending login, which is there. -/
def FindsPending (mfaToken : PyStr) (m : Requests ι) (i : ι) : Prop :=
  VerifiesPending mfaToken (r i) ∧ m.thread i = .running id (transaction (ctx i) (r i)) ∧
    m.stores.cache.mfaPending.has (ctx i).now mfaToken = true

/-- The request has found the code, and has returned. -/
def RedeemsCode (steps : List (Requests ι × ι)) (m : Requests ι) (codeId : Uuid) (i : ι) : Prop :=
  Found (FindsCode ctx codeId) steps i ∧ ∃ a, m.thread i = .ended (.ok a)

/-- The request presents the pending login, and has returned tokens. -/
def IssuesFor (m : Requests ι) (mfaToken : PyStr) (i : ι) : Prop :=
  VerifiesPending mfaToken (r i) ∧ ∃ a, m.thread i = .ended (.ok a)

/-- A request that finds a backup code, or a pending login, finds it when the others that found it
have ended. -/
def ArtefactsInTurn (past : List (Requests ι × ι)) (step : Requests ι × ι) : Prop :=
  (∀ codeId, FindsInTurn (FindsCode ctx codeId) past step) ∧
    ∀ mfaToken, FindsInTurn (FindsPending ctx r mfaToken) past step

variable {ctx r} {w : World} {m m' : Requests ι} {i j : ι} {steps : List (Requests ι × ι)}

theorem FindsCode.unused {T : Redis → Prop} (hKeeps : m.Keeps (CodeUsed codeId) T)
    (h : FindsCode ctx codeId m i) :
    ¬CodeUsed codeId m.stores.db := by
  obtain ⟨p, userId, code, rest, row, hThread, hMatch, rfl⟩ := h
  have hThreadKeeps := hKeeps i
  rw [hThread] at hThreadKeeps
  intro hUsed
  have hRow := List.mem_filter.mp (List.mem_of_find?_eq_some hMatch)
  refine hThreadKeeps.1 m.stores.db hUsed row hRow.1 rfl ?_
  have hUnused := hRow.2
  simp only [decide_eq_true_eq] at hUnused
  exact hUnused.2

theorem FindsPending.unused (h : FindsPending ctx r mfaToken m i) :
    ¬PendingUsed mfaToken m.stores.cache := by
  intro hUsed
  have hLive := h.2.2
  rw [Expiring.has, hUsed] at hLive
  cases hLive

variable [DecidableEq ι]

theorem FindsCode.bound (h : FindsCode ctx codeId m i) (hStep : Requests.Step m i m') :
    (m'.thread i).Bound (CodeUsed codeId) (fun _ => False) m'.stores := by
  obtain ⟨p, userId, code, rest, row, hThread, hMatch, rfl⟩ := h
  obtain ⟨s, t, hNext, rfl⟩ := Pool.step_some hStep
  rw [hThread] at hNext
  obtain ⟨rfl, rfl⟩ := Prod.mk.inj (Option.some.inj hNext)
  rw [Pool.after_thread_same]
  refine .inr (.inr (Handler.Attains.bind_first ?_))
  change (Handler.Attains _ _ (.orRaise (matchingBackupCode (ctx i) userId code (p m.stores.db)) _
    >>= fun _ => .exec _ : App Unit))
  rw [hMatch]
  exact .inl fun db => codeUsed_mark (.inl rfl)

theorem FindsPending.bound (h : FindsPending ctx r mfaToken m i) (hStep : Requests.Step m i m') :
    (m'.thread i).Bound (fun _ => False) (PendingUsed mfaToken) m'.stores := by
  obtain ⟨⟨body, ua, ip, hRequest, rfl⟩, hThread, hLive⟩ := h
  obtain ⟨s, t, hNext, rfl⟩ := Pool.step_some hStep
  rw [hThread, hRequest] at hNext
  obtain ⟨rfl, rfl⟩ := Prod.mk.inj (Option.some.inj hNext)
  rw [Pool.after_thread_same]
  refine .inr (.inr (.bind_first (.bind_first (.bind fun _ => .bind fun _ => .bind fun _ =>
    .bind fun _ => .bind fun _ => .bind fun _ => .bind fun _ => .bind fun _ => .bind fun _ => ?_))))
  exact .inl fun db => pendingUsed_del (.inl rfl)

/-- Where there is no pending login, the request raises. -/
theorem verify_first (hRequest : VerifiesPending mfaToken (r i))
    (hThread : m.thread i = .running id (transaction (ctx i) (r i)))
    (hNot : ¬FindsPending ctx r mfaToken m i) (hStep : Requests.Step m i m') :
    ∃ p e, m'.thread i = .running p (.throw e) := by
  have hGone : m.stores.cache.mfaPending.get (ctx i).now mfaToken = none := by
    simpa [FindsPending, hRequest, hThread, Expiring.has] using hNot
  obtain ⟨body, ua, ip, hRequest, rfl⟩ := hRequest
  obtain ⟨s, t, hNext, rfl⟩ := Pool.step_some hStep
  rw [hThread, hRequest] at hNext
  obtain ⟨rfl, rfl⟩ := Prod.mk.inj (Option.some.inj hNext)
  refine ⟨id, unknownToken body.mfaToken, ?_⟩
  rw [Pool.after_thread_same]
  beta_reduce
  rw [hGone]
  rfl

/-- Requests of `mfa_verify` and `mfa_disable`, interleaved in any way in which a request that finds
a backup code or a pending login finds it after the others that found it have ended: each code is
redeemed by at most one of them, and for each pending login at most one returns tokens. -/
theorem mfa_artefacts_spent_once (hFactor : ∀ i, (r i).UsesSecondFactor)
    (hRun : Run Requests.Step (Requests.start w ctx r) steps m)
    (hTurn : AtEach (ArtefactsInTurn ctx r) steps) :
    (∀ codeId i j, RedeemsCode ctx steps m codeId i → RedeemsCode ctx steps m codeId j → i = j) ∧
      ∀ mfaToken i j, IssuesFor r m mfaToken i → IssuesFor r m mfaToken j → i = j := by
  have hKeeps (codeId : Uuid) (mfaToken : PyStr) :
      (Requests.start w ctx r).Keeps (CodeUsed codeId) (PendingUsed mfaToken) :=
    fun i => ⟨fun _ h => h, transaction_keeps (hFactor i)⟩
  constructor
  · rintro codeId i j ⟨hi, a, hEnded⟩ ⟨hj, b, hEnded'⟩
    by_contra hne
    obtain ⟨-, -, hOnce⟩ := Pool.found_once (S := CodeUsed codeId) (T := fun _ => False)
      (F := FindsCode ctx codeId) hRun
      (fun i => ⟨(hKeeps codeId "" i).1, (hKeeps codeId "" i).2.db_only⟩)
      (fun h hStep => h.bound hStep) (fun hKeeps h => ⟨h.unused hKeeps, id⟩)
      (hTurn.mono fun _ _ h => h.1 codeId)
    rcases hOnce i j hi hj hne with ⟨e, hError⟩ | ⟨e, hError⟩
    · rw [hEnded] at hError
      cases hError
    · rw [hEnded'] at hError
      cases hError
  · rintro mfaToken i j ⟨hi, a, hEnded⟩ ⟨hj, b, hEnded'⟩
    by_contra hne
    obtain ⟨-, -, hOnce⟩ := Pool.found_once (S := fun _ => False) (T := PendingUsed mfaToken)
      (F := FindsPending ctx r mfaToken) hRun
      (fun i => ⟨fun _ h => h, (hKeeps ⟨0⟩ mfaToken i).2.cache_only⟩)
      (fun h hStep => h.bound hStep)
      (fun _ h => ⟨id, h.unused⟩)
      (hTurn.mono fun _ _ h => h.2 mfaToken)
    have hFound {k : ι} {a : Response} (hRequest : VerifiesPending mfaToken (r k))
        (hEnded : m.thread k = .ended (.ok a)) : Found (FindsPending ctx r mfaToken) steps k :=
      Pool.found_of_returned hRun (fun _ _ => verify_first hRequest) hEnded
    rcases hOnce i j (hFound hi hEnded) (hFound hj hEnded') hne with ⟨e, hError⟩ | ⟨e, hError⟩
    · rw [hEnded] at hError
      cases hError
    · rw [hEnded'] at hError
      cases hError

end Pool

/-! ### One code and one pending login -/

def codeUser : User := { sampleUser with mfaEnabled := true, mfaSecret := some "secret" }

def codeHolder : Sys := sampleStart
  { users := [codeUser], backupCodes := [⟨⟨7⟩, ⟨1⟩, "s$ABCDEFGHIJ", none⟩] }

def pendingLogin : Sys :=
  (codeHolder.sample (seconds 40) (.login "alice@example.com" "pw" none none none)).2

def codeContexts (i : Fin 2) : Ctx := ⟨sampleConfig, seconds 50, sampleDraws (i.val + 1)⟩

def codeBody : MfaVerifyRequest := ⟨"mfa-0", "ABCDE-FGHIJ", false, by decide⟩

def codeRequests (_ : Fin 2) : Request := .mfaVerify codeBody none none

def codeStart : Requests (Fin 2) := .start pendingLogin.world codeContexts codeRequests

/-- The schedule: each reads up to the backup code, and then each goes on to its commit. -/
def codeOverlap : List (Requests (Fin 2) × Fin 2) × Requests (Fin 2) :=
  codeStart.trace ([0, 0, 0, 0, 1, 1, 1, 1] ++ List.replicate 14 0 ++ List.replicate 14 1)

def codeInTurn : List (Requests (Fin 2) × Fin 2) × Requests (Fin 2) :=
  codeStart.trace (List.replicate 18 0 ++ List.replicate 18 1)

/-- A request that has read the user looks for the backup code next. -/
theorem finds_code {m : Requests (Fin 2)} {i : Fin 2}
    (hThread : m.thread i = .running id (((redeemBackupCode (codeContexts i) ⟨1⟩ codeBody.code >>=
      fun _ => completeMfaLogin (codeContexts i) codeUser codeBody none none) >>=
      fun result => pure (.mfaVerify result)) >>= fun response => flush >>= fun _ => pure response))
    (hMatch : (matchingBackupCode (codeContexts i) ⟨1⟩ codeBody.code m.stores.db).map
      (fun b => b.id) = some ⟨7⟩) : FindsCode codeContexts ⟨7⟩ m i := by
  obtain ⟨row, hRow, hId⟩ := Option.map_eq_some_iff.mp hMatch
  rw [bind_assoc, bind_assoc] at hThread
  exact ⟨id, ⟨1⟩, codeBody.code, _, row, hThread, hRow, hId⟩

theorem codeOverlap_redeems (i : Fin 2) :
    RedeemsCode codeContexts codeOverlap.1 codeOverlap.2 ⟨7⟩ i := by
  have hEnd : (codeOverlap.2.thread i).returned = true := by
    revert i
    decide
  refine ⟨?_, Thread.returned_iff.mp hEnd⟩
  match i with
  | 0 => exact ⟨codeOverlap.1.get ⟨3, by decide⟩, List.get_mem .., rfl, finds_code rfl rfl⟩
  | 1 => exact ⟨codeOverlap.1.get ⟨7, by decide⟩, List.get_mem .., rfl, finds_code rfl rfl⟩

theorem codeRequests_factor (i : Fin 2) : (codeRequests i).UsesSecondFactor :=
  .inl ⟨codeBody, none, none, rfl⟩

theorem codeOverlap_issues (i : Fin 2) : IssuesFor codeRequests codeOverlap.2 "mfa-0" i :=
  ⟨⟨codeBody, none, none, rfl, rfl⟩, (codeOverlap_redeems i).2⟩

/-- When both have read up to the backup code before either goes on, both redeem it, and both return
tokens for the one pending login. -/
theorem mfa_artefacts_spent_twice :
    (¬∀ (ι : Type) (_ : DecidableEq ι) (w : World) (ctx : ι → Ctx) (r : ι → Request)
        (steps : List (Requests ι × ι)) (m : Requests ι), (∀ i, (r i).UsesSecondFactor) →
        Run Requests.Step (Requests.start w ctx r) steps m →
        ∀ codeId i j, RedeemsCode ctx steps m codeId i → RedeemsCode ctx steps m codeId j → i = j) ∧
      ¬∀ (ι : Type) (_ : DecidableEq ι) (w : World) (ctx : ι → Ctx) (r : ι → Request)
        (steps : List (Requests ι × ι)) (m : Requests ι), (∀ i, (r i).UsesSecondFactor) →
        Run Requests.Step (Requests.start w ctx r) steps m →
        ∀ mfaToken i j, IssuesFor r m mfaToken i → IssuesFor r m mfaToken j → i = j := by
  have hRun := Requests.run_trace
    ([0, 0, 0, 0, 1, 1, 1, 1] ++ List.replicate 14 0 ++ List.replicate 14 1) codeStart
  constructor
  · intro hClaim
    have hSame : (0 : Fin 2) = 1 := hClaim (Fin 2) _ pendingLogin.world codeContexts codeRequests
      _ _ codeRequests_factor hRun ⟨7⟩ 0 1 (codeOverlap_redeems 0) (codeOverlap_redeems 1)
    cases hSame
  · intro hClaim
    have hSame : (0 : Fin 2) = 1 := hClaim (Fin 2) _ pendingLogin.world codeContexts codeRequests
      _ _ codeRequests_factor hRun "mfa-0" 0 1 (codeOverlap_issues 0) (codeOverlap_issues 1)
    cases hSame

theorem codeInTurn_inTurn : AtEach (ArtefactsInTurn codeContexts codeRequests) codeInTurn.1 := by
  have hTurns : AtEach (fun past step => ∀ q ∈ past,
      q.2 = step.2 ∨ (step.1.thread q.2).isEnded = true) codeInTurn.1 := by decide
  refine hTurns.mono fun past step h => ⟨fun _ => ?_, fun _ => ?_⟩
  · exact findsInTurn_of_ended h
  · exact findsInTurn_of_ended h

/-- The law at the two requests one after the other. -/
theorem mfa_artefacts_spent_once_inTurn :
    (∀ codeId i j, RedeemsCode codeContexts codeInTurn.1 codeInTurn.2 codeId i →
        RedeemsCode codeContexts codeInTurn.1 codeInTurn.2 codeId j → i = j) ∧
      ∀ mfaToken i j, IssuesFor codeRequests codeInTurn.2 mfaToken i →
        IssuesFor codeRequests codeInTurn.2 mfaToken j → i = j :=
  mfa_artefacts_spent_once codeRequests_factor (Requests.run_trace _ codeStart) codeInTurn_inTurn

end WxcodeAdm
