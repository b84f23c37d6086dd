import WxcodeAdm.Concurrency

/-! Requests that present the same refresh token side by side.  Between the SELECT of the row and
the commit nothing is locked, and a DELETE that hits no row is no error: two requests that have both
found the row both return tokens.  No token is spent twice when each request that finds the row
finds it after the others that found it have ended. -/

namespace WxcodeAdm

open Lib

def Request.Presents (token : String) (r : Request) : Prop :=
  (∃ userAgent clientIp, r = .refresh token userAgent clientIp) ∨ r = .adminRefresh token

def Db.liveToken (db : Db) (token : String) (now : Nat) : Option RefreshToken :=
  (db.refreshToken token).filter fun row => now ≤ row.expiresAt

/-- The writes replace the row by the one that the request draws. -/
def Replaces (c : Ctx) (row : RefreshToken) (writes : Db → Db) : Prop :=
  ∀ db, (writes db).refreshTokens =
    (db.refreshTokens.filter fun x => !decide (x.id = row.id)) ++ [newRefreshToken c row.userId]

variable {c : Ctx} {token : String} {row : RefreshToken} {p : Db → Db}

/-! ### What one request can commit -/

/-- What is left of a request after its SELECT: it can commit the rotation of the row that was
found alive, and nothing where none was. -/
def CommitsFound (c : Ctx) (found : Option RefreshToken) (rest : App Response) : Prop :=
  match found with
  | some row => Commits (fun _ => True) (fun _ p => Replaces c row p) id rest
  | none => Commits (fun _ => True) (fun _ _ => False) id rest

theorem commits_continueSession {Q : Unit → (Db → Db) → Prop} {V : Db → Prop} {jti : Uuid}
    {ua ip : Option String}
    (h : ∀ f : Db → Db, (∀ db, (f db).refreshTokens = db.refreshTokens) → Q () (f ∘ p)) :
    Commits V Q p (continueSession c row jti ua ip) := by
  rw [continueSession, commits_query_bind]
  intro db _
  split
  · exact h _ fun _ => rfl
  · exact h _ fun _ => rfl

theorem commits_rotate {ua ip : Option String} :
    Commits (fun _ => True) (fun _ p => Replaces c row p) id (rotate c row ua ip) := by
  simp only [rotate, writeShadowKey, commits_store_bind, commits_exec_bind, commits_query_bind,
    commits_orRaise_bind, commits_ofExcept_bind]
  intro db _ user _ db' _ payload _
  rw [commits_bind]
  refine commits_continueSession fun f hf => ?_
  rw [commits_pure]
  exact fun db => hf _

theorem CommitsFound.transaction {found : Option RefreshToken} {x : App TokenResponse}
    (h : match found with
      | some row => Commits (fun _ => True) (fun _ p => Replaces c row p) id x
      | none => Commits (fun _ => True) (fun _ _ => False) id x) :
    CommitsFound c found
      ((x >>= fun t => pure (.tokens t)) >>= fun response => flush >>= fun _ => pure response) := by
  cases found with
  | some row => exact commits_response h
  | none => exact commits_response h

/-- The first statement of a request that looks the token up is this SELECT, and what it can commit
depends on whether the row was found alive. -/
theorem transaction_select {r : Request} {k : Option RefreshToken → App TokenResponse}
    (hHandle : handle c r = (.query (fun db => db.refreshToken token) >>= k) >>= fun t =>
      pure (.tokens t))
    (hNone : Commits (fun _ => True) (fun _ _ => False) id (k none))
    (hExpired : ∀ row, row.expiresAt < c.now →
      Commits (fun _ => True) (fun _ _ => False) id (k (some row)))
    (hLive : ∀ row, ¬row.expiresAt < c.now →
      Commits (fun _ => True) (fun _ p => Replaces c row p) id (k (some row))) :
    ∃ rest, transaction c r = .read rest ∧
      ∀ db, CommitsFound c (db.liveToken token c.now) (rest db) := by
  refine ⟨fun db => (k (db.refreshToken token) >>= fun t => pure (.tokens t)) >>= fun response =>
    flush >>= fun _ => pure response, by rw [transaction, hHandle]; rfl, fun db => .transaction ?_⟩
  unfold Db.liveToken
  cases db.refreshToken token with
  | none => exact hNone
  | some row =>
    by_cases hOld : row.expiresAt < c.now
    · rw [Option.filter_some, if_neg (by simpa using hOld)]
      exact hExpired row hOld
    · rw [Option.filter_some, if_pos (by simpa using hOld)]
      exact hLive row hOld

theorem Request.Presents.transaction {r : Request} (h : r.Presents token) :
    ∃ rest, transaction c r = .read rest ∧
      ∀ db, CommitsFound c (db.liveToken token c.now) (rest db) := by
  rcases h with ⟨ua, ip, rfl⟩ | rfl
  · refine transaction_select rfl commits_bind_throw (fun row hOld => ?_) fun row hLive => ?_
    · simp only [hOld, if_true]
      exact commits_bind_throw
    · simp only [hLive, if_false]
      exact commits_rotate
  · refine transaction_select rfl commits_throw (fun row hOld => ?_) fun row hLive => ?_
    · rw [commits_orRaise_bind]
      rintro _ ⟨rfl⟩
      simp only [hOld, if_true]
      exact commits_bind_throw
    · rw [commits_orRaise_bind]
      rintro _ ⟨rfl⟩
      simp only [hLive, if_false]
      exact fun db => rfl

/-! ### Side by side -/

section Pool

variable {ι : Type} (w : World) (ctx : ι → Ctx) (r : ι → Request) (tok : String)

/-- The statement is the SELECT of its request, and finds the row alive. -/
def Finds (past : List (Requests ι × ι)) (step : Requests ι × ι) : Prop :=
  (∀ q ∈ past, q.2 ≠ step.2) ∧
    (step.1.stores.db.liveToken tok (ctx step.2).now).isSome = true

/-- The SELECT of request `i` has found the row alive. -/
def HasFound (steps : List (Requests ι × ι)) (i : ι) : Prop :=
  ∃ past step rest, steps = past ++ step :: rest ∧ step.2 = i ∧ Finds ctx tok past step

/-- A request that finds the row alive finds it when the others that found it have ended. -/
def FindsAlone (past : List (Requests ι × ι)) (step : Requests ι × ι) : Prop :=
  Finds ctx tok past step → ∀ j, HasFound ctx tok past j → (step.1.thread j).isEnded = true

/-- The request has not committed, and will not unless its SELECT is still to come. -/
inductive Idle (past : List (Requests ι × ι)) (i : ι) : Thread Db Redis PyError Response → Prop
  | waiting : (∀ q ∈ past, q.2 ≠ i) → Idle past i (.running id (transaction (ctx i) (r i)))
  | lost {p rest} : Commits (fun _ => True) (fun _ _ => False) p rest → Idle past i (.running p rest)
  | raised {e} : Idle past i (.ended (.error e))

/-- Where the requests are: before the token is spent, at most one of them has found it and is still
on its way; after that, the winner's row stands in its place and nobody else will commit. -/
inductive Phase (past : List (Requests ι × ι)) (m : Requests ι) : Prop
  | unspent (active : Option ι) : m.stores.db = w.db →
      (∀ i, some i ≠ active → Idle ctx r past i (m.thread i)) →
      (∀ i, active = some i → HasFound ctx tok past i ∧
        ∃ row p rest, w.db.refreshToken tok = some row ∧ m.thread i = .running p rest ∧
          Commits (fun _ => True) (fun _ p => Replaces (ctx i) row p) p rest) → Phase past m
  | spent (winner : ι) (row : RefreshToken) : w.db.refreshToken tok = some row →
      m.stores.db.refreshTokens = (w.db.refreshTokens.filter fun x => !decide (x.id = row.id)) ++
        [newRefreshToken (ctx winner) row.userId] →
      (∀ i, i ≠ winner → Idle ctx r past i (m.thread i)) →
      (∃ a, m.thread winner = .ended (.ok a)) → Phase past m

variable {w ctx r tok} {past : List (Requests ι × ι)} {m m' : Requests ι} {i j : ι}

theorem HasFound.snoc {step : Requests ι × ι} (h : HasFound ctx tok past j) :
    HasFound ctx tok (past ++ [step]) j := by
  obtain ⟨before, q, rest, rfl, hq, hFinds⟩ := h
  exact ⟨before, q, rest ++ [step], by simp, hq, hFinds⟩

theorem Idle.other {t : Thread Db Redis PyError Response} (h : Idle ctx r past j t) (hne : j ≠ i) :
    Idle ctx r (past ++ [(m, i)]) j t := by
  cases h with
  | waiting hNot => exact .waiting (Requests.waiting_snoc hNot hne)
  | lost hLost => exact .lost hLost
  | raised => exact .raised

/-- A statement of a request that has not committed: its SELECT finds the row alive, or it commits
nothing now or later. -/
theorem Idle.step {s : World} {t : Thread Db Redis PyError Response}
    (hPresents : (r i).Presents tok) (h : Idle ctx r past i (m.thread i))
    (hStep : (m.thread i).step Db.Valid .integrityError m.stores = some (s, t)) :
    s.db = m.stores.db ∧ (Idle ctx r (past ++ [(m, i)]) i t ∨
      Finds ctx tok past (m, i) ∧ ∃ row rest, m.stores.db.refreshToken tok = some row ∧
        t = .running id rest ∧
        Commits (fun _ => True) (fun _ p => Replaces (ctx i) row p) id rest) := by
  generalize hThread : m.thread i = thread at h hStep
  cases h with
  | waiting hNot =>
    obtain ⟨rest, hSelect, hFound⟩ := hPresents.transaction (c := ctx i)
    rw [hSelect] at hStep
    obtain ⟨rfl, rfl⟩ := Prod.mk.inj (Option.some.inj hStep)
    refine ⟨rfl, ?_⟩
    have hRest := hFound m.stores.db
    cases hLive : m.stores.db.liveToken tok (ctx i).now with
    | none =>
      rw [hLive] at hRest
      exact .inl (.lost hRest)
    | some row =>
      rw [hLive] at hRest
      exact .inr ⟨⟨hNot, by simp [hLive]⟩, row, _, (Option.filter_eq_some_iff.mp hLive).1, rfl,
        hRest⟩
  | lost hLost =>
    cases t with
    | running p' rest' =>
      exact ⟨Thread.step_running hStep, .inl (.lost (hLost.step trivial hStep))⟩
    | ended result =>
      cases result with
      | ok a => exact (hLost.step_ok hStep).elim
      | error e => exact ⟨by rw [Thread.step_error hStep], .inl .raised⟩
  | raised => cases hStep

variable [DecidableEq ι]

theorem Idle.after {s : World} {t : Thread Db Redis PyError Response}
    (h : Idle ctx r past j (m.thread j)) (hne : j ≠ i) :
    Idle ctx r (past ++ [(m, i)]) j ((m.after i s t).thread j) := by
  rw [Pool.after_thread_other hne]
  exact h.other hne

theorem Phase.step_active {s : World} {t : Thread Db Redis PyError Response} {row : RefreshToken}
    {p : Db → Db} {rest : App Response} (hDb : m.stores.db = w.db)
    (hIdle : ∀ j, j ≠ i → Idle ctx r past j (m.thread j)) (hFound : HasFound ctx tok past i)
    (hRow : w.db.refreshToken tok = some row)
    (hCommits : Commits (fun _ => True) (fun _ p => Replaces (ctx i) row p) p rest)
    (hStep : (Thread.running p rest).step Db.Valid .integrityError m.stores = some (s, t)) :
    Phase w ctx r tok (past ++ [(m, i)]) (m.after i s t) := by
  cases t with
  | running p' rest' =>
    refine .unspent (some i) ((Thread.step_running hStep).trans hDb)
      (fun j hj => (hIdle j (by simpa using hj)).after (by simpa using hj)) ?_
    rintro _ ⟨rfl⟩
    exact ⟨hFound.snoc, row, p', rest', hRow, Pool.after_thread_same, hCommits.step trivial hStep⟩
  | ended result =>
    cases result with
    | ok a =>
      obtain ⟨-, -, rfl⟩ := Thread.step_ok hStep
      refine .spent i row hRow ?_ (fun j hj => (hIdle j hj).after hj)
        ⟨a, Pool.after_thread_same⟩
      rw [Pool.after_stores, hCommits.step_ok hStep, hDb]
    | error e =>
      refine .unspent none ?_ (fun j _ => ?_) (by simp)
      · rw [Pool.after_stores, Thread.step_error hStep, hDb]
      · by_cases hj : j = i
        · subst hj
          rw [Pool.after_thread_same]
          exact .raised
        · exact (hIdle j hj).after hj

theorem Phase.step (hPresents : ∀ i, (r i).Presents tok) (hValid : w.db.Valid)
    (hNew : ∀ i, ∀ row ∈ w.db.refreshTokens, row.token ≠ (ctx i).draws.refreshToken)
    (hAlone : FindsAlone ctx tok past (m, i)) (h : Phase w ctx r tok past m)
    (hStep : Requests.Step m i m') : Phase w ctx r tok (past ++ [(m, i)]) m' := by
  obtain ⟨s, t, hThread, rfl⟩ := Pool.step_some hStep
  cases h with
  | unspent active hDb hIdle hActive =>
    by_cases hi : some i = active
    · subst hi
      obtain ⟨hFound, row, p, rest, hRow, hRunning, hCommits⟩ := hActive i rfl
      exact .step_active hDb (fun j hj => hIdle j (by simpa using hj)) hFound hRow hCommits
        (hRunning ▸ hThread)
    · obtain ⟨hSame, hNext⟩ := (hIdle i hi).step (hPresents i) hThread
      rcases hNext with hNext | ⟨hFinds, row, rest, hRow, rfl, hCommits⟩
      · refine .unspent active (hSame.trans hDb) (fun j hj => ?_) fun j hj => ?_
        · by_cases hji : j = i
          · subst hji
            rwa [Pool.after_thread_same]
          · exact (hIdle j hj).after hji
        · obtain ⟨hFound, row, p, rest, hRow, hRunning, hCommits⟩ := hActive j hj
          refine ⟨hFound.snoc, row, p, rest, hRow, ?_, hCommits⟩
          rw [Pool.after_thread_other (by rintro rfl; exact hi hj.symm), hRunning]
      · -- the request that had found the row before would have ended
        have hNone : active = none := by
          cases active with
          | none => rfl
          | some j =>
            obtain ⟨hFound, _, _, _, -, hRunning, -⟩ := hActive j rfl
            have hEnded := hAlone hFinds j hFound
            rw [hRunning] at hEnded
            cases hEnded
        subst hNone
        refine .unspent (some i) (hSame.trans hDb)
          (fun j hj => (hIdle j (by simp)).after (by simpa using hj)) ?_
        rintro _ ⟨rfl⟩
        exact ⟨⟨past, (m, i), [], rfl, rfl, hFinds⟩, row, id, rest, hDb ▸ hRow,
          Pool.after_thread_same, hCommits⟩
  | spent winner row hRow hRows hIdle hEnded =>
    have hi : i ≠ winner := by
      rintro rfl
      obtain ⟨a, hEnded⟩ := hEnded
      rw [hEnded] at hThread
      cases hThread
    obtain ⟨hSame, hNext⟩ := (hIdle i hi).step (hPresents i) hThread
    have hKept : (m.after i s t).stores.db = m.stores.db := hSame
    rcases hNext with hNext | ⟨-, row', -, hRow', -⟩
    · refine .spent winner row hRow (hKept ▸ hRows) (fun j hj => ?_) ?_
      · by_cases hji : j = i
        · subst hji
          rwa [Pool.after_thread_same]
        · exact (hIdle j hj).after hji
      · rwa [Pool.after_thread_other hi.symm]
    · -- the row is gone, and the winner's row has another token
      obtain ⟨hMem, hToken⟩ := Db.refreshToken_mem hRow'
      obtain ⟨hMemRow, hTokenRow⟩ := Db.refreshToken_mem hRow
      rw [hRows, List.mem_append, List.mem_singleton] at hMem
      rcases hMem with hMem | rfl
      · obtain ⟨hMem, hId⟩ := List.mem_filter.mp hMem
        obtain rfl := List.inj_on_of_nodup_map hValid.refreshToken hMem hMemRow
          (hToken.trans hTokenRow.symm)
        simp at hId
      · exact absurd (hTokenRow.trans hToken.symm) (hNew winner row hMemRow)

omit [DecidableEq ι] in
/-- A request finds the row after the others when every earlier statement is its own or of a request
that has ended. -/
theorem findsAlone_of_ended {step : Requests ι × ι}
    (h : ∀ q ∈ past, q.2 = step.2 ∨ (step.1.thread q.2).isEnded = true) :
    FindsAlone ctx tok past step := by
  rintro ⟨hFirst, -⟩ j ⟨before, q, rest, rfl, rfl, -⟩
  have hq : q ∈ before ++ q :: rest := by simp
  exact (h q hq).resolve_left (hFirst q hq)

theorem phase_of_run {steps : List (Requests ι × ι)} (hPresents : ∀ i, (r i).Presents tok)
    (hValid : w.db.Valid)
    (hNew : ∀ i, ∀ row ∈ w.db.refreshTokens, row.token ≠ (ctx i).draws.refreshToken)
    (hRun : Run Requests.Step (Requests.start w ctx r) steps m)
    (hAlone : AtEach (FindsAlone ctx tok) steps) : Phase w ctx r tok steps m := by
  induction hRun with
  | nil => exact .unspent none rfl (fun i _ => .waiting (by simp)) (by simp)
  | snoc _ hStep ih =>
    obtain ⟨hEarlier, hNow⟩ := atEach_snoc.mp hAlone
    exact (ih hEarlier).step hPresents hValid hNew hNow hStep

omit [DecidableEq ι] in
theorem Idle.not_returned {a : Response} (h : Idle ctx r past i (.ended (.ok a))) : False := by
  cases h

theorem Phase.returned_eq {a b : Response} (h : Phase w ctx r tok past m)
    (hi : m.thread i = .ended (.ok a)) (hj : m.thread j = .ended (.ok b)) : i = j := by
  cases h with
  | unspent active _ hIdle hActive =>
    exfalso
    by_cases hActive' : some i = active
    · obtain ⟨-, _, _, _, -, hRunning, -⟩ := hActive i hActive'.symm
      rw [hi] at hRunning
      cases hRunning
    · exact (hi ▸ hIdle i hActive').not_returned
  | spent winner row _ _ hIdle _ =>
    have hWinner {k : ι} {x : Response} (hk : m.thread k = .ended (.ok x)) : k = winner := by
      by_contra hNot
      exact (hk ▸ hIdle k hNot).not_returned
    rw [hWinner hi, hWinner hj]

/-- The row of the token that the requests present, or of one that they draw. -/
def Descends (ctx : ι → Ctx) (tok : String) (row : RefreshToken) : Prop :=
  row.token = tok ∨ ∃ i, row.token = (ctx i).draws.refreshToken

omit [DecidableEq ι] in
/-- One row descends from the token: its own, and then the winner's. -/
theorem Phase.row_eq {x y : RefreshToken} (hValid : w.db.Valid)
    (hNew : ∀ i, ∀ row ∈ w.db.refreshTokens, row.token ≠ (ctx i).draws.refreshToken)
    (h : Phase w ctx r tok past m) (hx : x ∈ m.stores.db.refreshTokens)
    (hy : y ∈ m.stores.db.refreshTokens) (hDescends : Descends ctx tok x)
    (hDescends' : Descends ctx tok y) : x = y := by
  have hOld {z : RefreshToken} (hz : z ∈ w.db.refreshTokens) (hDescends : Descends ctx tok z) :
      z.token = tok := hDescends.resolve_right fun ⟨i, hi⟩ => hNew i z hz hi
  cases h with
  | unspent active hDb _ _ =>
    rw [hDb] at hx hy
    exact List.inj_on_of_nodup_map hValid.refreshToken hx hy
      ((hOld hx hDescends).trans (hOld hy hDescends').symm)
  | spent winner row hRow hRows _ _ =>
    have hWinner {z : RefreshToken} (hz : z ∈ m.stores.db.refreshTokens)
        (hDescends : Descends ctx tok z) : z = newRefreshToken (ctx winner) row.userId := by
      rw [hRows, List.mem_append, List.mem_singleton] at hz
      refine hz.resolve_left fun hz => ?_
      obtain ⟨hMem, hId⟩ := List.mem_filter.mp hz
      obtain ⟨hMemRow, hTokenRow⟩ := Db.refreshToken_mem hRow
      obtain rfl := List.inj_on_of_nodup_map hValid.refreshToken hMem hMemRow
        ((hOld hMem hDescends).trans hTokenRow.symm)
      simp at hId
    rw [hWinner hx hDescends, hWinner hy hDescends']

/-- Requests that present one refresh token, interleaved in any way in which a request that finds
the row finds it after the others that found it have ended: at most one returns tokens, and at most
one row results. -/
theorem refresh_spent_once {steps : List (Requests ι × ι)}
    (hPresents : ∀ i, (r i).Presents tok) (hValid : w.db.Valid)
    (hNew : ∀ i, ∀ row ∈ w.db.refreshTokens, row.token ≠ (ctx i).draws.refreshToken)
    (hRun : Run Requests.Step (Requests.start w ctx r) steps m)
    (hAlone : AtEach (FindsAlone ctx tok) steps) :
    (∀ i j a b, m.thread i = .ended (.ok a) → m.thread j = .ended (.ok b) → i = j) ∧
      ∀ x ∈ m.stores.db.refreshTokens, ∀ y ∈ m.stores.db.refreshTokens,
        Descends ctx tok x → Descends ctx tok y → x = y := by
  have hPhase := phase_of_run hPresents hValid hNew hRun hAlone
  exact ⟨fun _ _ _ _ hi hj => hPhase.returned_eq hi hj,
    fun _ hx _ hy h h' => hPhase.row_eq hValid hNew hx hy h h'⟩

end Pool

/-! ### Two requests -/

/-- The contexts of two requests that present the token of `signedIn`. -/
def twoContexts (i : Fin 2) : Ctx := ⟨sampleConfig, seconds 20, sampleDraws (i.val + 1)⟩

def twoRequests (i : Fin 2) : Request :=
  if i = 0 then .refresh "refresh-0" none none else .adminRefresh "refresh-0"

def twoStart : Requests (Fin 2) := .start signedIn.world twoContexts twoRequests

/-- Both read the row, then the first runs to its commit, then the second. -/
def overlap : List (Requests (Fin 2) × Fin 2) × Requests (Fin 2) :=
  twoStart.trace ([0, 1] ++ List.replicate 12 0 ++ List.replicate 12 1)

/-- The first runs to its commit, then the second. -/
def inTurn : List (Requests (Fin 2) × Fin 2) × Requests (Fin 2) :=
  twoStart.trace (List.replicate 12 0 ++ List.replicate 12 1)

theorem twoRequests_presents (i : Fin 2) : (twoRequests i).Presents "refresh-0" := by
  unfold twoRequests
  split
  · exact .inl ⟨none, none, rfl⟩
  · exact .inr rfl

theorem twoContexts_new : ∀ i, ∀ row ∈ signedIn.world.db.refreshTokens,
    row.token ≠ (twoContexts i).draws.refreshToken := by decide

/-- When both have read the row before either commits, both return tokens. -/
theorem refresh_spent_twice :
    ¬∀ (ι : Type) (_ : DecidableEq ι) (w : World) (ctx : ι → Ctx) (r : ι → Request) (tok : String)
      (steps : List (Requests ι × ι)) (m : Requests ι), (∀ i, (r i).Presents tok) →
      w.db.Valid → (∀ i, ∀ row ∈ w.db.refreshTokens, row.token ≠ (ctx i).draws.refreshToken) →
      Run Requests.Step (Requests.start w ctx r) steps m →
      (∀ i j a b, m.thread i = .ended (.ok a) → m.thread j = .ended (.ok b) → i = j) ∧
        ∀ x ∈ m.stores.db.refreshTokens, ∀ y ∈ m.stores.db.refreshTokens,
          Descends ctx tok x → Descends ctx tok y → x = y := by
  intro hClaim
  obtain ⟨hOnce, -⟩ := hClaim (Fin 2) _ signedIn.world twoContexts twoRequests "refresh-0"
    overlap.1 overlap.2 twoRequests_presents (by decide) twoContexts_new
    (Requests.run_trace _ twoStart)
  have hSame : (0 : Fin 2) = 1 := hOnce 0 1 _ _ rfl rfl
  cases hSame

theorem inTurn_alone : AtEach (FindsAlone twoContexts "refresh-0") inTurn.1 := by
  have hTurns : AtEach (fun past step => ∀ q ∈ past,
      q.2 = step.2 ∨ (step.1.thread q.2).isEnded = true) inTurn.1 := by decide
  exact hTurns.mono fun _ _ => findsAlone_of_ended

/-- The law at two requests one after the other. -/
theorem refresh_spent_once_inTurn :
    (∀ i j a b, inTurn.2.thread i = .ended (.ok a) → inTurn.2.thread j = .ended (.ok b) → i = j) ∧
      ∀ x ∈ inTurn.2.stores.db.refreshTokens, ∀ y ∈ inTurn.2.stores.db.refreshTokens,
        Descends twoContexts "refresh-0" x → Descends twoContexts "refresh-0" y → x = y :=
  refresh_spent_once twoRequests_presents (by decide) twoContexts_new
    (Requests.run_trace _ twoStart) inTurn_alone

end WxcodeAdm
