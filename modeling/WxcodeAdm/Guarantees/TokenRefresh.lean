import WxcodeAdm.Frontend.ApiClient

/-! Refreshes side by side in one tab.  Every call that gets a 401 runs `refreshTokens` for itself,
and `logout` clears the tokens without regard to a refresh on its way.  As long as a refresh begins,
and the logout clears the tokens, only when no other refresh is on its way, every refresh token is
presented once, no newer pair is cleared for a refresh that failed, and nothing is stored after the
logout. -/

namespace WxcodeAdm.Frontend

open Lib

/-! ### The points at which a task waits -/

inductive Point where
  | starting
  | fetching (req : ApiCall)
  | presenting (req : ApiCall) (token : String)
  | parsing (req : ApiCall) (token : String) (body : Option (String × String))
  -- `refreshTokens` has returned; the token that it presented, if there was one.
  | refreshed (req : ApiCall) (presented : Option String) (refreshed : Bool)
  | retrying (req : ApiCall) (bearer : Option String)
  | failing
  | leaving (returned : Bool)
  | finished

variable {ι : Type} (skipAuth : ι → Bool)

/-- What a task does with the result of its call. -/
def Task.rest : Task ι → Bool → Client Unit
  | .call _, _ => pure ()
  | .logout, returned => finishLogout returned

/-- What is left of `apiClient` when `refreshTokens` waits with `k`. -/
def Task.inRefresh (t : Task ι) (req : ApiCall) (k : Client Bool) : Client Unit :=
  (k >>= fun refreshed => discard (.ask (.refreshTokens refreshed)) >>= fun _ =>
    afterRefresh req refreshed) >>= t.rest

def Task.at (t : Task ι) : Point → Client Unit
  | .starting => t.program skipAuth
  | .fetching req => (.ask (.fetch req.endpoint req.bearer) >>= handleResponse req) >>= t.rest
  | .presenting req token => t.inRefresh req (.ask (.refresh token) >>= receiveRefresh)
  | .parsing req _ body => t.inRefresh req (.ask (.json body) >>= storePair)
  | .refreshed req _ refreshed => t.inRefresh req (pure refreshed)
  | .retrying req bearer => (.ask (.fetch req.endpoint bearer) >>= finishRetry) >>= t.rest
  | .failing => throwApiError >>= t.rest
  | .leaving returned => finishLogout returned
  | .finished => pure ()

/-- The point after a call that has returned or thrown. -/
def Task.ended : Task ι → Bool → Point
  | .call _, _ => .finished
  | .logout, returned => .leaving returned

/-- The next point of a task, and the tokens that it leaves. -/
def Task.next (t : Task ι) : Point → Reply → TokenStore → TokenStore × Point
  | .starting, _, s =>
    match t with
    | .call i =>
      (s, .fetching ⟨.resource, skipAuth i, if skipAuth i then none else truthy s.accessToken⟩)
    | .logout =>
      match truthy s.refreshToken with
      | some token => (s, .fetching ⟨.logout token, false, truthy s.accessToken⟩)
      | none => ({}, .finished)
  | .fetching req, .response status _, s =>
    if status = 401 ∧ req.skipAuth = false then
      match truthy s.refreshToken with
      | some token => (s, .presenting req token)
      | none => (s, .refreshed req none false)
    else if isOk status then (s, t.ended true)
    else (s, .failing)
  | .presenting req token, .response status body, s =>
    if isOk status then (s, .parsing req token body) else (s, .refreshed req (some token) false)
  | .presenting req token, _, s => (s, .refreshed req (some token) false)
  | .parsing req token _, .data (some (access, refresh)), s =>
    if access ≠ "" ∧ refresh ≠ "" then
      (⟨some access, some refresh⟩, .refreshed req (some token) true)
    else (s, .refreshed req (some token) false)
  | .parsing req token _, _, s => (s, .refreshed req (some token) false)
  | .refreshed req _ true, _, s =>
    (s, .retrying req (truthy s.accessToken <|> req.bearer))
  | .refreshed _ _ false, _, _ => ({}, .failing)
  | .retrying _ _, .response status _, s =>
    if isOk status then (s, t.ended true) else ({}, .failing)
  | .fetching _, _, s | .retrying _ _, _, s | .failing, _, s => (s, t.ended false)
  | .leaving _, _, _ => ({}, .finished)
  | .finished, _, s => (s, .finished)

theorem Task.rest_ended (t : Task ι) (returned : Bool) (s : TokenStore) :
    (t.rest returned).settle s = (s, t.at skipAuth (t.ended returned)) := by
  cases t <;> rfl

theorem Task.settle_refreshTokens (t : Task ι) (req : ApiCall) (s : TokenStore) :
    (t.inRefresh req refreshTokens).settle s = match truthy s.refreshToken with
      | none => (t.inRefresh req (pure false)).settle s
      | some token => (t.inRefresh req (.ask (.refresh token) >>= receiveRefresh)).settle s := by
  change (t.inRefresh req (match truthy s.refreshToken with
    | none => pure false
    | some token => .ask (.refresh token) >>= receiveRefresh)).settle s = _
  cases truthy s.refreshToken <;> rfl

theorem Task.follows (t : Task ι) : Async.Follows (t.at skipAuth) (t.next skipAuth) := by
  intro p reply s
  cases p with
  | starting =>
    cases t with
    | call i => rfl
    | logout =>
      change ((match truthy s.refreshToken with
        | some token => apiClient (.logout token) false >>= finishLogout
        | none => clearTokens) : Client Unit).settle s = _
      rw [Task.next]
      cases truthy s.refreshToken <;> rfl
  | fetching req =>
    cases reply with
    | response status body =>
      change ((handleResponse req (.response status body)) >>= t.rest).settle s = _
      rw [handleResponse, Task.next]
      split
      · change (t.inRefresh req refreshTokens).settle s = _
        rw [t.settle_refreshTokens req s]
        cases truthy s.refreshToken <;> rfl
      · split
        · exact t.rest_ended skipAuth true s
        · rfl
    | _ => exact t.rest_ended skipAuth false s
  | presenting req token =>
    cases reply with
    | response status body =>
      change (t.inRefresh req (receiveRefresh (.response status body))).settle s = _
      rw [receiveRefresh, Task.next]
      split <;> rfl
    | _ => rfl
  | parsing req token body =>
    cases reply with
    | data read =>
      cases read with
      | none => rfl
      | some pair =>
        change (t.inRefresh req (storePair (.data (some pair)))).settle s = _
        rw [storePair, Task.next]
        split <;> rfl
    | _ => rfl
  | refreshed req presented refreshed => cases refreshed <;> rfl
  | retrying req bearer =>
    cases reply with
    | response status body =>
      change ((finishRetry (.response status body)) >>= t.rest).settle s = _
      rw [finishRetry, Task.next]
      split
      · exact t.rest_ended skipAuth true s
      · rfl
    | _ => exact t.rest_ended skipAuth false s
  | failing => exact t.rest_ended skipAuth false s
  | leaving returned => rfl
  | finished => rfl

/-! ### What a segment does -/

variable {skipAuth}

/-- The token that a refresh on its way has presented, if it had one. -/
def Point.presents : Point → Option (Option String)
  | .presenting _ token | .parsing _ token _ => some (some token)
  | .refreshed _ presented false => some presented
  | _ => none

/-- What a task does between two of its points. -/
inductive Move (t : Task ι) : Point → Reply → TokenStore → TokenStore → Point → Prop
  | begins {p : Point} {reply : Reply} {s : TokenStore} {req : ApiCall} {token : String}
      (hOutside : p.presents = none) (hStored : s.refreshToken = some token) :
      Move t p reply s s (.presenting req token)
  | beginsWithout {p : Point} {reply : Reply} {s : TokenStore} {req : ApiCall}
      (hOutside : p.presents = none) (hStored : truthy s.refreshToken = none) :
      Move t p reply s s (.refreshed req none false)
  | receives {status : Nat} {body : Option (String × String)} {s : TokenStore} {req : ApiCall}
      {token : String} :
      Move t (.presenting req token) (.response status body) s s (.parsing req token body)
  | fails {p : Point} {reply : Reply} {s : TokenStore} {req : ApiCall} {token : String}
      (hInside : p.presents = some (some token)) :
      Move t p reply s s (.refreshed req (some token) false)
  | stores {body : Option (String × String)} {s : TokenStore} {req : ApiCall}
      {token access refresh : String} (hRefresh : refresh ≠ "") :
      Move t (.parsing req token body) (.data (some (access, refresh))) s
        ⟨some access, some refresh⟩ (.refreshed req (some token) true)
  | clears {p p' : Point} {reply : Reply} {s : TokenStore} (hOutside : p'.presents = none) :
      Move t p reply s {} p'
  | passes {p p' : Point} {reply : Reply} {s : TokenStore} (hOutside : p.presents = none)
      (hStays : p'.presents = none) (hRuns : t = .logout → p' = .finished → p = .finished) :
      Move t p reply s s p'

theorem Task.ended_presents (t : Task ι) (returned : Bool) : (t.ended returned).presents = none := by
  cases t <;> rfl

theorem Move.ends {t : Task ι} {p : Point} {reply : Reply} {s : TokenStore} {returned : Bool}
    (hOutside : p.presents = none) : Move t p reply s s (t.ended returned) := by
  refine .passes hOutside (t.ended_presents returned) ?_
  rintro rfl hFinished
  cases hFinished

theorem truthy_eq_some {text : Option String} {token : String} :
    truthy text = some token ↔ text = some token ∧ token ≠ "" := by
  cases text with
  | none => simp [truthy]
  | some text =>
    by_cases hText : text = ""
    · subst hText
      refine iff_of_false (by simp [truthy, Option.filter]) ?_
      rintro ⟨hSame, hToken⟩
      exact hToken (Option.some.inj hSame).symm
    · simp only [truthy, Option.filter_some, ne_eq, hText, not_false_eq_true, decide_true, if_true,
        Option.some.injEq]
      exact ⟨fun h => ⟨h, h ▸ hText⟩, fun h => h.1⟩

theorem Task.next_move (t : Task ι) (p : Point) (reply : Reply) (s : TokenStore) :
    Move t p reply s (t.next skipAuth p reply s).1 (t.next skipAuth p reply s).2 := by
  cases p with
  | starting =>
    cases t with
    | call i => exact .passes rfl rfl (by rintro ⟨⟩)
    | logout =>
      rw [Task.next]
      cases truthy s.refreshToken with
      | none => exact .clears rfl
      | some token => exact .passes rfl rfl (by rintro - ⟨⟩)
  | fetching req =>
    cases reply with
    | response status body =>
      rw [Task.next]
      split
      · cases hToken : truthy s.refreshToken with
        | none => exact .beginsWithout rfl hToken
        | some token => exact .begins rfl (truthy_eq_some.mp hToken).1
      · split
        · exact .ends rfl
        · exact .passes rfl rfl (by rintro - ⟨⟩)
    | _ => exact .ends rfl
  | presenting req token =>
    cases reply with
    | response status body =>
      rw [Task.next]
      split
      · exact .receives
      · exact .fails rfl
    | _ => exact .fails rfl
  | parsing req token body =>
    cases reply with
    | data read =>
      cases read with
      | none => exact .fails rfl
      | some pair =>
        rw [Task.next]
        split
        · rename_i hPair
          exact .stores hPair.2
        · exact .fails rfl
    | _ => exact .fails rfl
  | refreshed req presented refreshed =>
    cases refreshed with
    | false => exact .clears rfl
    | true => exact .passes rfl rfl (by rintro - ⟨⟩)
  | retrying req bearer =>
    cases reply with
    | response status body =>
      rw [Task.next]
      split
      · exact .ends rfl
      · exact .clears rfl
    | _ => exact .ends rfl
  | failing => exact .ends rfl
  | leaving returned => exact .clears rfl
  | finished => exact .passes rfl rfl fun _ _ => rfl

/-! ### The guarantee, and its condition -/

section Statement

variable [DecidableEq ι]

/-- A refresh is on its way: the token is presented, the body read, or the failure not told yet. -/
def refreshing (c : Client Unit) : Bool :=
  match c.request with
  | some (.refresh _) | some (.json _) | some (.refreshTokens false) => true
  | _ => false

def presentedToken (c : Client Unit) : Option String :=
  match c.request with
  | some (.refresh token) => some token
  | _ => none

/-- The token that a step sends to `/auth/refresh`. -/
def presented (p : Tab ι × EventLoop.Event (Task ι) Reply) : Option String :=
  match p.2 with
  | .answer _ _ => none
  | .resume i => (p.1.resumed i).bind fun next => presentedToken (next.task i)

/-- The token that a step of task `i` sends. -/
def presentedBy (i : Task ι) (p : Tab ι × EventLoop.Event (Task ι) Reply) : Option String :=
  match p.2 with
  | .answer _ _ => none
  | .resume j => if j = i then presented p else none

/-- No token was presented twice, no call has cleared a pair for the failure of a refresh that
presented another token, and after the logout there are no tokens. -/
structure SafeRefresh (steps : List (Tab ι × EventLoop.Event (Task ι) Reply)) (s : Tab ι) :
    Prop where
  once : (steps.filterMap presented).Nodup
  kept : AtEach (fun pre p => ∀ i, p.2 = .resume i →
    (p.1.task i).request = some (.refreshTokens false) →
      ∀ token, p.1.shared.refreshToken = some token → token ∈ pre.filterMap (presentedBy i)) steps
  loggedOut : (s.task .logout).isDone = true → s.shared = {}

/-- The step calls `refreshTokens`. -/
def BeginsRefresh (s : Tab ι) (i : Task ι) : Prop :=
  refreshing (s.task i) = false ∧ ∃ next, s.resumed i = some next ∧ refreshing (next.task i) = true

/-- The step is the end of the logout, which clears the tokens. -/
def LogsOut (s : Tab ι) (i : Task ι) : Prop :=
  i = .logout ∧ ∃ next, s.resumed i = some next ∧ (next.task i).isDone = true

/-- A step that calls `refreshTokens`, or ends the logout, finds no other refresh on its way. -/
def Undisturbed (p : Tab ι × EventLoop.Event (Task ι) Reply) : Prop :=
  ∀ i, p.2 = .resume i → BeginsRefresh p.1 i ∨ LogsOut p.1 i →
    ∀ j ≠ i, refreshing (p.1.task j) = false

/-- A tab before its first task, with tokens that the backend has made, or none. -/
structure Opened (skipAuth : ι → Bool) (s : Tab ι) : Prop where
  task : ∀ i, s.task i = i.program skipAuth
  inbox : ∀ i, s.inbox i = none
  stored : ∀ token, s.shared.refreshToken = some token → token ≠ "" ∧ token ∈ s.server.issued

end Statement

/-! ### The invariant -/

section Invariant

variable {s s' : Tab ι} {points : Task ι → Point} {sent : List String}
  {own : Task ι → List String}

/-- The answer that a refresh on its way will read holds this refresh token. -/
def Brings (p : Point) (inbox : Option Reply) (new : String) : Prop :=
  (∃ req token access, p = .parsing req token (some (access, new))) ∨
    ∃ req token status access,
      p = .presenting req token ∧ inbox = some (.response status (some (access, new)))

/-- With the tokens presented so far, and those of each task: one refresh at most is on its way; it
presented the token that is stored, if there is one; and the token that it brings is new. -/
structure Inv (skipAuth : ι → Bool) (sent : List String) (own : Task ι → List String) (s : Tab ι)
    (points : Task ι → Point) : Prop where
  tracks : EventLoop.Tracks (fun t => t.at skipAuth) points s
  once : sent.Nodup
  issued : ∀ token ∈ sent, token ∈ s.server.issued
  stored : ∀ token, s.shared.refreshToken = some token → token ≠ "" ∧ token ∈ s.server.issued
  alone : ∀ i j, (points i).presents.isSome = true → (points j).presents.isSome = true → i = j
  mine : ∀ i token, (points i).presents = some (some token) → token ∈ own i
  current : ∀ i presented, (points i).presents = some presented →
    ∀ token, s.shared.refreshToken = some token → presented = some token
  onItsWay : ∀ token, s.shared.refreshToken = some token → token ∈ sent →
    ∃ i, (points i).presents = some (some token)
  read : ∀ i req token body got, points i = .parsing req token body →
    s.inbox i = some (.data got) → got = body
  fresh : ∀ i new, Brings (points i) (s.inbox i) new → new ∈ s.server.issued ∧ new ∉ sent
  loggedOut : points .logout = .finished → s.shared = {} ∧
    ∀ i token, (points i).presents ≠ some (some token)

theorem refreshing_at (t : Task ι) (p : Point) :
    refreshing (t.at skipAuth p) = p.presents.isSome := by
  cases p with
  | refreshed req presented refreshed => cases refreshed <;> rfl
  | starting => cases t <;> rfl
  | _ => rfl

/-- The token that a task at the point sends. -/
def Point.sends : Point → Option String
  | .presenting _ token => some token
  | _ => none

theorem Point.sends_of_outside {p : Point} (h : p.presents = none) : p.sends = none := by
  cases p with
  | presenting => cases h
  | _ => rfl

theorem presentedToken_at (t : Task ι) (p : Point) :
    presentedToken (t.at skipAuth p) = p.sends := by
  cases p with
  | refreshed req presented refreshed => cases refreshed <;> rfl
  | starting => cases t <;> rfl
  | _ => rfl

theorem isDone_at (t : Task ι) (p : Point) :
    (t.at skipAuth p).isDone = true ↔ p = .finished := by
  cases p with
  | starting => cases t <;> exact iff_of_false (by rintro ⟨⟩) (by rintro ⟨⟩)
  | finished => exact iff_of_true rfl rfl
  | _ => exact iff_of_false (by rintro ⟨⟩) (by rintro ⟨⟩)

theorem Opened.inv (h : Opened skipAuth s) :
    Inv skipAuth [] (fun _ => []) s fun _ => .starting where
  tracks := h.task
  once := List.nodup_nil
  issued := by simp
  stored := h.stored
  alone := by simp [Point.presents]
  mine := by simp [Point.presents]
  current := by simp [Point.presents]
  onItsWay := by simp
  read := by simp
  fresh := by simp [Brings]
  loggedOut := by simp

/-- A task whose refresh has failed has presented the token that is stored. -/
theorem Inv.presentedBy_of_failed (h : Inv skipAuth sent own s points) {i : Task ι}
    (hFailed : (s.task i).request = some (.refreshTokens false)) {token : String}
    (hToken : s.shared.refreshToken = some token) : token ∈ own i := by
  have hPresents : ∃ shown, (points i).presents = some shown := by
    have hAt : refreshing (i.at skipAuth (points i)) = (points i).presents.isSome :=
      refreshing_at i (points i)
    have hTask : s.task i = i.at skipAuth (points i) := h.tracks i
    rw [← hTask, refreshing, hFailed] at hAt
    exact Option.isSome_iff_exists.mp hAt.symm
  obtain ⟨shown, hShown⟩ := hPresents
  have hSame := h.current i shown hShown token hToken
  exact h.mine i token (hSame ▸ hShown)

/-- The tokens that are stored are not empty. -/
theorem Inv.no_token (h : Inv skipAuth sent own s points)
    (hStored : truthy s.shared.refreshToken = none) : s.shared.refreshToken = none := by
  cases hToken : s.shared.refreshToken with
  | none => rfl
  | some token =>
    rw [truthy_eq_some.mpr ⟨hToken, (h.stored token hToken).1⟩] at hStored
    cases hStored

/-! ### Answers -/

variable [DecidableEq ι]

/-- An answer makes tokens and does not forget any. -/
theorem RefreshServer.Answers.issued_subset {b b' : RefreshServer} {q : Query} {reply : Reply}
    (h : b.Answers q reply b') : b.issued ⊆ b'.issued := by
  cases h <;> first | exact List.Subset.refl _ | exact List.subset_cons_self _ _

/-- A pair in the answer to a refresh is one that the backend has just made. -/
theorem RefreshServer.Answers.new {b b' : RefreshServer} {token : String} {status : Nat}
    {access new : String} (h : b.Answers (.refresh token) (.response status (some (access, new))) b') :
    new ∈ b'.issued ∧ new ∉ b.issued := by
  cases h with
  | rotate hLive hNew => exact ⟨List.mem_cons_self, hNew⟩

theorem Inv.answer (h : Inv skipAuth sent own s points) {i : Task ι} {reply : Reply}
    (hStep : TabStep s (.answer i reply) s') : Inv skipAuth sent own s' points := by
  cases hStep with
  | @answer _ _ q server hRequest hOpen hAnswer =>
    rw [h.tracks i] at hRequest
    have hIssued := hAnswer.issued_subset
    refine { h with
      issued := fun token hToken => hIssued (h.issued token hToken)
      stored := fun token hToken => (h.stored token hToken).imp_right fun hOld => hIssued hOld
      read := fun j req token body got hPoint hInbox => ?_
      fresh := fun j new hBrings => ?_ }
    · by_cases hj : j = i
      · subst hj
        rw [hPoint] at hRequest
        obtain rfl : q = .json body := (Option.some.inj hRequest).symm
        dsimp only at hInbox
        rw [Function.update_self] at hInbox
        obtain rfl := Option.some.inj hInbox
        cases hAnswer
        rfl
      · dsimp only at hInbox
        rw [Function.update_of_ne hj] at hInbox
        exact h.read j req token body got hPoint hInbox
    · by_cases hj : j = i
      · subst hj
        dsimp only at hBrings
        rw [Function.update_self] at hBrings
        rcases hBrings with ⟨req, token, access, hPoint⟩ | ⟨req, token, status, access, hPoint, hReply⟩
        · obtain ⟨hOld, hNew⟩ := h.fresh j new (.inl ⟨req, token, access, hPoint⟩)
          exact ⟨hIssued hOld, hNew⟩
        · rw [hPoint] at hRequest
          obtain rfl : q = .refresh token := (Option.some.inj hRequest).symm
          obtain rfl := Option.some.inj hReply
          obtain ⟨hMade, hNew⟩ := hAnswer.new
          exact ⟨hMade, fun hSent => hNew (h.issued new hSent)⟩
      · dsimp only at hBrings
        rw [Function.update_of_ne hj] at hBrings
        obtain ⟨hOld, hNew⟩ := h.fresh j new hBrings
        exact ⟨hIssued hOld, hNew⟩

/-! ### Segments -/

/-- Task `i` has moved to `p`, and has taken its answer. -/
structure Moved (skipAuth : ι → Bool) (points : Task ι → Point) (i : Task ι) (p : Point)
    (s s' : Tab ι) : Prop where
  server : s'.server = s.server
  inbox : s'.inbox = Function.update s.inbox i none
  tracks : EventLoop.Tracks (fun t => t.at skipAuth) (Function.update points i p) s'

theorem Brings.presents {p : Point} {inbox : Option Reply} {new : String} (h : Brings p inbox new) :
    p.presents.isSome = true := by
  rcases h with ⟨_, _, _, rfl⟩ | ⟨_, _, _, _, rfl, -⟩ <;> rfl

theorem Inv.read_of_moved (h : Inv skipAuth sent own s points) {i : Task ι} {p : Point}
    (hMoved : Moved skipAuth points i p s s') (j : Task ι) (req : ApiCall) (token : String)
    (body got : Option (String × String))
    (hPoint : Function.update points i p j = .parsing req token body)
    (hInbox : s'.inbox j = some (.data got)) : got = body := by
  rw [hMoved.inbox] at hInbox
  by_cases hj : j = i
  · subst hj
    simp at hInbox
  · rw [Function.update_of_ne hj] at hPoint hInbox
    exact h.read j req token body got hPoint hInbox

/-- A task that goes on, with the tokens as they were, and stays in its refresh, or outside. -/
theorem Inv.keep (h : Inv skipAuth sent own s points) {i : Task ι} {p : Point}
    (hMoved : Moved skipAuth points i p s s') (hShared : s'.shared = s.shared)
    (hPresents : p.presents = (points i).presents)
    (hBrings : ∀ new, Brings p none new → Brings (points i) (s.inbox i) new)
    (hRuns : i = .logout → p ≠ .finished) :
    Inv skipAuth sent own s' (Function.update points i p) := by
  have hSame (j : Task ι) : (Function.update points i p j).presents = (points j).presents := by
    by_cases hj : j = i
    · rw [hj, Function.update_self, hPresents]
    · rw [Function.update_of_ne hj]
  exact {
    tracks := hMoved.tracks
    once := h.once
    issued := hMoved.server ▸ h.issued
    stored := by
      rw [hShared, hMoved.server]
      exact h.stored
    alone := fun j k hj hk => h.alone j k (hSame j ▸ hj) (hSame k ▸ hk)
    mine := fun j token hj => h.mine j token (hSame j ▸ hj)
    current := fun j presented hj => hShared ▸ h.current j presented (hSame j ▸ hj)
    onItsWay := fun token hStored hSent => by
      obtain ⟨j, hj⟩ := h.onItsWay token (hShared ▸ hStored) hSent
      exact ⟨j, (hSame j).trans hj⟩
    read := h.read_of_moved hMoved
    fresh := fun j new hNew => by
      rw [hMoved.server]
      rw [hMoved.inbox] at hNew
      by_cases hj : j = i
      · subst hj
        rw [Function.update_self, Function.update_self] at hNew
        exact h.fresh j new (hBrings new hNew)
      · rw [Function.update_of_ne hj, Function.update_of_ne hj] at hNew
        exact h.fresh j new hNew
    loggedOut := fun hFinished => by
      have hLogout : i ≠ .logout := fun hi => hRuns hi (by
        rw [← hi, Function.update_self] at hFinished
        exact hFinished)
      rw [Function.update_of_ne hLogout.symm] at hFinished
      obtain ⟨hNone, hNo⟩ := h.loggedOut hFinished
      exact ⟨hShared.trans hNone, fun j token => hSame j ▸ hNo j token⟩ }

/-- A task that ends its refresh, or has none, and leaves other tokens. -/
theorem Inv.settle (h : Inv skipAuth sent own s points) {i : Task ι} {p : Point}
    (hMoved : Moved skipAuth points i p s s') (hOutside : p.presents = none)
    (hStored : ∀ token, s'.shared.refreshToken = some token →
      token ≠ "" ∧ token ∈ s.server.issued ∧ token ∉ sent ∧ ∀ j ≠ i, (points j).presents = none)
    (hEnd : Function.update points i p .logout = .finished → s'.shared = {} ∧
      ∀ j ≠ i, ∀ token, (points j).presents ≠ some (some token)) :
    Inv skipAuth sent own s' (Function.update points i p) := by
  have hInside {j : Task ι} {presented : Option String}
      (hj : (Function.update points i p j).presents = some presented) :
      j ≠ i ∧ (points j).presents = some presented := by
    by_cases hji : j = i
    · rw [hji, Function.update_self, hOutside] at hj
      cases hj
    · exact ⟨hji, by rwa [Function.update_of_ne hji] at hj⟩
  exact {
    tracks := hMoved.tracks
    once := h.once
    issued := hMoved.server ▸ h.issued
    stored := fun token hToken => by
      obtain ⟨hText, hIssued, -⟩ := hStored token hToken
      exact ⟨hText, hMoved.server ▸ hIssued⟩
    alone := fun j k hj hk => by
      obtain ⟨_, hj⟩ := Option.isSome_iff_exists.mp hj
      obtain ⟨_, hk⟩ := Option.isSome_iff_exists.mp hk
      exact h.alone j k (by simp [(hInside hj).2]) (by simp [(hInside hk).2])
    mine := fun j token hj => h.mine j token (hInside hj).2
    current := fun j presented hj token hToken => by
      obtain ⟨hji, hj⟩ := hInside hj
      rw [(hStored token hToken).2.2.2 j hji] at hj
      cases hj
    onItsWay := fun token hToken hSent => absurd hSent (hStored token hToken).2.2.1
    read := h.read_of_moved hMoved
    fresh := fun j new hNew => by
      obtain ⟨presented, hj⟩ := Option.isSome_iff_exists.mp hNew.presents
      have hji := (hInside hj).1
      rw [hMoved.inbox, Function.update_of_ne hji, Function.update_of_ne hji] at hNew
      rw [hMoved.server]
      exact h.fresh j new hNew
    loggedOut := fun hFinished => by
      obtain ⟨hNone, hNo⟩ := hEnd hFinished
      exact ⟨hNone, fun j token hj => hNo j (hInside hj).1 token (hInside hj).2⟩ }

/-- A refresh that begins alone, and presents the token that is stored. -/
theorem Inv.begin (h : Inv skipAuth sent own s points) {i : Task ι} {p : Point}
    {presented : Option String} (hMoved : Moved skipAuth points i p s s')
    (hShared : s'.shared = s.shared) (hOutside : (points i).presents = none)
    (hInside : p.presents = some presented) (hBrings : ∀ new, ¬Brings p none new)
    (hAlone : ∀ j ≠ i, (points j).presents = none) (hStored : s.shared.refreshToken = presented) :
    Inv skipAuth (sent ++ presented.toList)
      (fun j => own j ++ if j = i then presented.toList else []) s'
      (Function.update points i p) := by
  have hNone (j : Task ι) : (points j).presents = none := by
    by_cases hj : j = i
    · rw [hj, hOutside]
    · exact hAlone j hj
  have hOnly {j : Task ι} {shown : Option String}
      (hj : (Function.update points i p j).presents = some shown) : j = i ∧ shown = presented := by
    by_cases hji : j = i
    · rw [hji, Function.update_self, hInside] at hj
      exact ⟨hji, (Option.some.inj hj).symm⟩
    · rw [Function.update_of_ne hji, hNone j] at hj
      cases hj
  have hUnsent : ∀ token ∈ presented, token ∉ sent := fun token hToken hSent => by
    obtain ⟨j, hj⟩ := h.onItsWay token (hStored.trans hToken) hSent
    rw [hNone j] at hj
    cases hj
  have hSelf : (Function.update points i p i).presents = some presented := by
    rw [Function.update_self, hInside]
  exact {
    tracks := hMoved.tracks
    once := by
      cases presented with
      | none => simpa using h.once
      | some token =>
        rw [Option.toList_some, List.nodup_append]
        refine ⟨h.once, List.pairwise_singleton _ _, fun a ha b hb hab => ?_⟩
        rw [hab, List.mem_singleton.mp hb] at ha
        exact hUnsent token rfl ha
    issued := fun token hToken => by
      rw [hMoved.server]
      rcases List.mem_append.mp hToken with hOld | hNew
      · exact h.issued token hOld
      · exact (h.stored token (hStored.trans (Option.mem_toList.mp hNew))).2
    stored := by
      rw [hShared, hMoved.server]
      exact h.stored
    alone := fun j k hj hk => by
      obtain ⟨_, hj⟩ := Option.isSome_iff_exists.mp hj
      obtain ⟨_, hk⟩ := Option.isSome_iff_exists.mp hk
      exact (hOnly hj).1.trans (hOnly hk).1.symm
    mine := fun j token hj => by
      obtain ⟨rfl, rfl⟩ := hOnly hj
      simp
    current := fun j shown hj token hToken => by
      obtain ⟨rfl, rfl⟩ := hOnly hj
      rw [← hStored, ← hShared, hToken]
    onItsWay := fun token hToken _ => by
      rw [hShared, hStored] at hToken
      exact ⟨i, hToken ▸ hSelf⟩
    read := h.read_of_moved hMoved
    fresh := fun j new hNew => by
      obtain ⟨shown, hj⟩ := Option.isSome_iff_exists.mp hNew.presents
      obtain ⟨rfl, -⟩ := hOnly hj
      rw [hMoved.inbox, Function.update_self, Function.update_self] at hNew
      exact absurd hNew (hBrings new)
    loggedOut := fun hFinished => by
      have hLogout : i ≠ .logout := fun hi => by
        rw [← hi, Function.update_self] at hFinished
        rw [hFinished] at hInside
        cases hInside
      rw [Function.update_of_ne hLogout.symm] at hFinished
      obtain ⟨hEmpty, -⟩ := h.loggedOut hFinished
      refine ⟨hShared.trans hEmpty, fun j token hj => ?_⟩
      obtain ⟨-, rfl⟩ := hOnly hj
      rw [hEmpty] at hStored
      cases hStored }

/-- The answer to a refresh, whose body is read next. -/
theorem Inv.receives (h : Inv skipAuth sent own s points) {i : Task ι} {req : ApiCall}
    {token : String} {status : Nat} {body : Option (String × String)}
    (hMoved : Moved skipAuth points i (.parsing req token body) s s')
    (hShared : s'.shared = s.shared) (hPoint : points i = .presenting req token)
    (hReply : s.inbox i = some (.response status body)) :
    Inv skipAuth sent own s' (Function.update points i (.parsing req token body)) := by
  refine h.keep hMoved hShared (by rw [hPoint]; rfl) ?_ (by rintro - ⟨⟩)
  rintro new (⟨_, _, access, hParsing⟩ | ⟨_, _, _, _, hPresenting, -⟩)
  · obtain ⟨-, -, rfl⟩ := Point.parsing.inj hParsing
    exact .inr ⟨req, token, status, access, hPoint, hReply⟩
  · cases hPresenting

/-- The new pair, which the backend has made after the token was presented. -/
theorem Inv.stores (h : Inv skipAuth sent own s points) {i : Task ι} {req : ApiCall}
    {token access refresh : String} {body : Option (String × String)} (hRefresh : refresh ≠ "")
    (hMoved : Moved skipAuth points i (.refreshed req (some token) true) s s')
    (hShared : s'.shared = ⟨some access, some refresh⟩) (hPoint : points i = .parsing req token body)
    (hReply : s.inbox i = some (.data (some (access, refresh)))) :
    Inv skipAuth sent own s' (Function.update points i (.refreshed req (some token) true)) := by
  refine h.settle hMoved rfl ?_ ?_
  · rintro new hNew
    rw [hShared] at hNew
    obtain rfl := Option.some.inj hNew
    have hBody : some (access, refresh) = body := h.read i req token body _ hPoint hReply
    obtain ⟨hIssued, hUnsent⟩ := h.fresh i refresh (.inl ⟨req, token, access, hBody ▸ hPoint⟩)
    refine ⟨hRefresh, hIssued, hUnsent, fun j hj => ?_⟩
    by_contra hSome
    exact hj (h.alone j i (Option.ne_none_iff_isSome.mp hSome) (by rw [hPoint]; rfl))
  · intro hFinished
    have hLogout : Task.logout ≠ i := fun hi => by
      rw [hi, Function.update_self] at hFinished
      cases hFinished
    rw [Function.update_of_ne hLogout] at hFinished
    exact absurd (by rw [hPoint]; rfl) ((h.loggedOut hFinished).2 i token)

/-- The tokens are cleared; if that ends the logout, nobody else has a refresh on its way. -/
theorem Inv.clears (h : Inv skipAuth sent own s points) {i : Task ι} {p : Point}
    (hMoved : Moved skipAuth points i p s s') (hShared : s'.shared = {}) (hOutside : p.presents = none)
    (hOthers : i = .logout → p = .finished → ∀ j ≠ i, (points j).presents = none) :
    Inv skipAuth sent own s' (Function.update points i p) := by
  refine h.settle hMoved hOutside ?_ fun hFinished => ⟨hShared, fun j hj token => ?_⟩
  · rw [hShared]
    rintro token ⟨⟩
  · by_cases hi : i = .logout
    · rw [← hi, Function.update_self] at hFinished
      rw [hOthers hi hFinished j hj]
      rintro ⟨⟩
    · rw [Function.update_of_ne fun h => hi h.symm] at hFinished
      exact (h.loggedOut hFinished).2 j token

/-- A move, with what it sends, keeps the invariant if nobody else has a refresh on its way where it
begins one, or ends the logout. -/
theorem Inv.move (h : Inv skipAuth sent own s points) {i : Task ι} {point p : Point} {reply : Reply}
    {before after : TokenStore} (hMove : Move i point reply before after p)
    (hMoved : Moved skipAuth points i p s s') (hPoint : points i = point)
    (hReply : s.inbox i = some reply) (hBefore : s.shared = before) (hAfter : s'.shared = after)
    (hRunning : point ≠ .finished)
    (hOthers : point.presents = none ∧ p.presents.isSome = true ∨ i = .logout ∧ p = .finished →
      ∀ j ≠ i, (points j).presents = none) :
    Inv skipAuth (sent ++ p.sends.toList) (fun j => own j ++ if j = i then p.sends.toList else []) s'
      (Function.update points i p) := by
  have hQuiet (hNone : p.sends = none) (hInv : Inv skipAuth sent own s' (Function.update points i p)) :
      Inv skipAuth (sent ++ p.sends.toList) (fun j => own j ++ if j = i then p.sends.toList else [])
        s' (Function.update points i p) := by
    simpa only [hNone, Option.toList_none, ite_self, List.append_nil] using hInv
  cases hMove with
  | begins hOutside hStored =>
    exact h.begin hMoved (hAfter.trans hBefore.symm) (hPoint ▸ hOutside) rfl (by simp [Brings])
      (hOthers (.inl ⟨hOutside, rfl⟩)) (hBefore ▸ hStored)
  | beginsWithout hOutside hStored =>
    exact h.begin hMoved (hAfter.trans hBefore.symm) (hPoint ▸ hOutside) rfl (by simp [Brings])
      (hOthers (.inl ⟨hOutside, rfl⟩)) (h.no_token (hBefore ▸ hStored))
  | receives => exact hQuiet rfl (h.receives hMoved (hAfter.trans hBefore.symm) hPoint hReply)
  | fails hInside =>
    refine hQuiet rfl (h.keep hMoved (hAfter.trans hBefore.symm) ?_ (by simp [Brings]) ?_)
    · rw [hPoint, hInside]
      rfl
    · rintro - ⟨⟩
  | stores hRefresh => exact hQuiet rfl (h.stores hRefresh hMoved hAfter hPoint hReply)
  | clears hOutside =>
    exact hQuiet (Point.sends_of_outside hOutside)
      (h.clears hMoved hAfter hOutside fun hi hFinished => hOthers (.inr ⟨hi, hFinished⟩))
  | passes hOutside hStays hRuns =>
    refine hQuiet (Point.sends_of_outside hStays)
      (h.keep hMoved (hAfter.trans hBefore.symm) (by rw [hPoint, hOutside, hStays]) ?_ ?_)
    · intro new hNew
      have hInside := hNew.presents
      rw [hStays] at hInside
      cases hInside
    · exact fun hi hFinished => hRunning (hRuns hi hFinished)

/-- Where a segment begins a refresh, or ends the logout, nobody else has one on its way. -/
theorem Inv.others (h : Inv skipAuth sent own s points) {i : Task ι} {p : Point}
    (hResumed : s.resumed i = some s') (hAlone : Undisturbed (s, .resume i))
    (hAfter : s'.task i = i.at skipAuth p)
    (hCase : (points i).presents = none ∧ p.presents.isSome = true ∨ i = .logout ∧ p = .finished)
    (j : Task ι) (hj : j ≠ i) : (points j).presents = none := by
  have hBefore : s.task i = i.at skipAuth (points i) := h.tracks i
  have hNot : refreshing (s.task j) = false := by
    refine hAlone i rfl (hCase.imp ?_ ?_) j hj
    · rintro ⟨hOutside, hInside⟩
      refine ⟨by rw [hBefore, refreshing_at, hOutside]; rfl, s', hResumed, ?_⟩
      rw [hAfter, refreshing_at, hInside]
    · rintro ⟨hLogout, hFinished⟩
      exact ⟨hLogout, s', hResumed, by rw [hAfter, isDone_at, hFinished]⟩
  rw [h.tracks j, refreshing_at] at hNot
  simpa using hNot

/-- A segment, with what it presents, keeps the invariant if it is undisturbed. -/
theorem Inv.resume (h : Inv skipAuth sent own s points) {i : Task ι}
    (hResumed : s.resumed i = some s') (hAlone : Undisturbed (s, .resume i)) :
    ∃ points', Inv skipAuth (sent ++ (presented (s, .resume i)).toList)
      (fun j => own j ++ (presentedBy j (s, .resume i)).toList) s' points' := by
  obtain ⟨reply, hReply, hShared, hServer, hInbox, hTracks⟩ :=
    EventLoop.Tracks.resumed h.tracks (fun t => t.follows skipAuth) hResumed
  have hMove : Move i (points i) reply s.shared (i.next skipAuth (points i) reply s.shared).1
      (i.next skipAuth (points i) reply s.shared).2 := i.next_move _ _ _
  rw [← hShared] at hMove
  generalize (i.next skipAuth (points i) reply s.shared).2 = p at hMove hTracks
  have hAfter : s'.task i = i.at skipAuth p := by simpa using hTracks i
  have hRunning : points i ≠ .finished := fun hFinished => by
    obtain ⟨q, _, hRequest, -⟩ := EventLoop.resumed_some.mp hResumed
    rw [h.tracks i, hFinished] at hRequest
    cases hRequest
  have hPresented : presented (s, .resume i) = p.sends := by
    change (s.resumed i).bind (fun next => presentedToken (next.task i)) = _
    rw [hResumed, Option.bind_some, hAfter, presentedToken_at]
  have hBy (j : Task ι) : (presentedBy j (s, .resume i)).toList =
      if j = i then p.sends.toList else [] := by
    change (if i = j then presented (s, .resume i) else none).toList = _
    simp only [hPresented, eq_comm, apply_ite Option.toList, Option.toList_none]
  simp only [hPresented, hBy]
  exact ⟨_, h.move hMove ⟨hServer, hInbox, hTracks⟩ rfl hReply rfl rfl hRunning
    (h.others hResumed hAlone hAfter)⟩

end Invariant

/-! ### Runs -/

section Runs

variable [DecidableEq ι] {s₀ s : Tab ι}
  {steps : List (Tab ι × EventLoop.Event (Task ι) Reply)}

omit [DecidableEq ι] in
theorem filterMap_snoc {α β : Type} (f : α → Option β) (l : List α) (a : α) :
    (l ++ [a]).filterMap f = l.filterMap f ++ (f a).toList := by
  rw [List.filterMap_append]
  cases h : f a <;> simp [h]

theorem inv_of_run (hOpened : Opened skipAuth s₀) (hRun : Run TabStep s₀ steps s)
    (hAll : ∀ p ∈ steps, Undisturbed p) :
    ∃ points, Inv skipAuth (steps.filterMap presented)
      (fun i => steps.filterMap (presentedBy i)) s points := by
  induction hRun with
  | nil => exact ⟨_, hOpened.inv⟩
  | @snoc steps m s' e _ hStep ih =>
    obtain ⟨points, hInv⟩ := ih fun p hp => hAll p (List.mem_append_left _ hp)
    have hLast := hAll (m, e) (by simp)
    simp only [filterMap_snoc]
    cases e with
    | answer i reply =>
      refine ⟨points, ?_⟩
      simpa [presented, presentedBy] using hInv.answer hStep
    | resume i =>
      cases hStep with
      | resume hResumed => exact hInv.resume hResumed hLast

theorem safeRefresh_of_run (hOpened : Opened skipAuth s₀) (hRun : Run TabStep s₀ steps s)
    (hAll : ∀ p ∈ steps, Undisturbed p) : SafeRefresh steps s := by
  obtain ⟨points, hInv⟩ := inv_of_run hOpened hRun hAll
  refine ⟨hInv.once, ?_, fun hDone => ?_⟩
  · rintro pre p post hSteps i - hFailed token hToken
    obtain ⟨_, hPre, -, -⟩ := hRun.split_at hSteps
    obtain ⟨_, hBefore⟩ := inv_of_run hOpened hPre fun q hq => hAll q (by simp [hSteps, hq])
    exact hBefore.presentedBy_of_failed hFailed hToken
  · rw [hInv.tracks .logout, isDone_at] at hDone
    exact (hInv.loggedOut hDone).1

/-- In a run of any number of calls and a logout, whatever the backend and the network answer,
refreshes are safe in every state reached as long as no step that calls `refreshTokens`, or ends the
logout, finds another refresh on its way. -/
theorem safe_refresh_of_undisturbed (hOpened : Opened skipAuth s₀) (hRun : Run TabStep s₀ steps s)
    (hAll : ∀ p ∈ steps, Undisturbed p) : Throughout SafeRefresh steps s := by
  refine ⟨fun pre p post hSteps => ?_, safeRefresh_of_run hOpened hRun hAll⟩
  obtain ⟨_, hPre, -, -⟩ := hRun.split_at hSteps
  exact safeRefresh_of_run hOpened hPre fun q hq => hAll q (by simp [hSteps, hq])

end Runs

/-! ### Two calls at once -/

/-- A tab with tokens, before its calls. -/
def openedTab (ι : Type) : Tab ι where
  shared := ⟨some "access-0", some "refresh-0"⟩
  server := ⟨["refresh-0"], [], ["refresh-0"]⟩
  task := fun i => i.program fun _ => false
  inbox := fun _ => none

theorem openedTab_opened : Opened (fun _ : ι => false) (openedTab ι) where
  task := fun _ => rfl
  inbox := fun _ => rfl
  stored := by
    rintro token ⟨⟩
    exact ⟨by decide, List.mem_singleton.mpr rfl⟩

section Evaluation

variable [DecidableEq ι]

/-- The tab after an answer that leaves the backend as it is. -/
def Tab.answer (s : Tab ι) (i : Task ι) (reply : Reply) : Tab ι :=
  { s with inbox := Function.update s.inbox i (some reply) }

def Tab.resume (s : Tab ι) (i : Task ι) : Tab ι := (s.resumed i).getD s

end Evaluation

/-- Both calls get a 401 with the same access token, and each presents the same refresh token. -/
theorem presented_twice :
    ¬∀ (ι : Type) (_ : DecidableEq ι) (skipAuth : ι → Bool) (s₀ s : Tab ι)
      (steps : List (Tab ι × EventLoop.Event (Task ι) Reply)), Opened skipAuth s₀ →
        Run TabStep s₀ steps s → Throughout SafeRefresh steps s := by
  intro hClaim
  let first : Task Bool := .call false
  let second : Task Bool := .call true
  let s₁ := (openedTab Bool).answer first .done
  let s₂ := s₁.resume first
  let s₃ := s₂.answer second .done
  let s₄ := s₃.resume second
  let s₅ := s₄.answer first (.response 401 none)
  let s₆ := s₅.resume first
  let s₇ := s₆.answer second (.response 401 none)
  have hRun : Run TabStep (openedTab Bool) _ (s₇.resume second) :=
    .cons (.answer (i := first) rfl rfl .start) <| .cons (m := s₂) (.resume (i := first) rfl) <|
      .cons (.answer (i := second) rfl rfl .start) <| .cons (m := s₄) (.resume (i := second) rfl) <|
      .cons (.answer (i := first) rfl rfl (.fetch 401)) <| .cons (m := s₆) (.resume (i := first) rfl) <|
      .cons (.answer (i := second) rfl rfl (.fetch 401)) <| .single (.resume (i := second) rfl)
  have hOnce := (hClaim Bool inferInstance _ _ _ _ openedTab_opened hRun).2.once
  exact absurd hOnce (by decide)

/-! ### Two calls in turn, and a logout -/

section Turns

variable {skipAuth : ι → Bool}

/-- A tab whose tasks wait at these points, with nothing to read. -/
def tabAt (skipAuth : ι → Bool) (points : Task ι → Point) (shared : TokenStore)
    (server : RefreshServer) : Tab ι where
  shared := shared
  server := server
  task := fun i => i.at skipAuth (points i)
  inbox := fun _ => none

variable [DecidableEq ι]

/-- The tab gets from one state to another by undisturbed steps. -/
def Reaches (s s' : Tab ι) : Prop :=
  ∃ steps, Run TabStep s steps s' ∧ ∀ p ∈ steps, Undisturbed p

theorem Reaches.of_eq {s s' : Tab ι} (h : s = s') : Reaches s s' :=
  ⟨[], h ▸ .nil, by simp⟩

theorem Reaches.trans {s m s' : Tab ι} (h : Reaches s m) (h' : Reaches m s') : Reaches s s' := by
  obtain ⟨steps, hRun, hAll⟩ := h
  obtain ⟨more, hMore, hRest⟩ := h'
  exact ⟨steps ++ more, hRun.append hMore, List.forall_mem_append.mpr ⟨hAll, hRest⟩⟩

/-- A task gets an answer and goes on, while no other refresh is on its way. -/
theorem reaches_turn {points : Task ι → Point} {shared shared' : TokenStore}
    {server server' : RefreshServer} {q : Query} {p : Point} (i : Task ι) (reply : Reply)
    (hAnswer : server.Answers q reply server')
    (hRequest : (i.at skipAuth (points i)).request = some q)
    (hNext : i.next skipAuth (points i) reply shared = (shared', p))
    (hAlone : ∀ j, j ≠ i → (points j).presents = none) :
    Reaches (tabAt skipAuth points shared server)
      (tabAt skipAuth (Function.update points i p) shared' server') := by
  let s := tabAt skipAuth points shared server
  let answered : Tab ι := { s with server := server', inbox := Function.update s.inbox i (some reply) }
  have hResumed : answered.resumed i =
      some (tabAt skipAuth (Function.update points i p) shared' server') := by
    have hFollows := i.follows skipAuth (points i) reply shared
    rw [hNext] at hFollows
    refine EventLoop.resumed_some.mpr ⟨q, reply, hRequest, by simp [answered], ?_⟩
    simp only [answered, s, tabAt, hFollows, Function.update_idem]
    congr
    · funext j
      by_cases hj : j = i
      · subst hj
        simp
      · simp [hj]
    · exact (Function.update_eq_self i _).symm
  refine ⟨[(s, .answer i reply), (answered, .resume i)],
    .cons (.answer hRequest rfl hAnswer) (.single (.resume hResumed)), ?_⟩
  rintro e he k hEvent - j hj
  simp only [List.mem_cons, List.not_mem_nil, or_false] at he
  rcases he with rfl | rfl
  · cases hEvent
  · obtain rfl : i = k := by simpa using hEvent
    change refreshing (j.at skipAuth (points j)) = false
    rw [refreshing_at, hAlone j hj]
    rfl

end Turns

instance {P : Task Bool → Prop} [DecidablePred P] : Decidable (∀ i, P i) :=
  decidable_of_iff (P (.call false) ∧ P (.call true) ∧ P .logout)
    ⟨fun ⟨hFirst, hSecond, hLogout⟩ i => match i with
      | .call false => hFirst
      | .call true => hSecond
      | .logout => hLogout, fun h => ⟨h _, h _, h _⟩⟩

/-- The tab after the calls and the logout: two refresh tokens are used, and the third is deleted. -/
def loggedOutTab : Tab Bool :=
  tabAt (fun _ => false) (fun _ => .finished) {}
    ⟨[], ["refresh-1", "refresh-0"], ["refresh-2", "refresh-1", "refresh-0"]⟩

/-- Both calls get a 401, the second after the first has stored its pair, and in the end the user
logs out. -/
theorem reaches_loggedOut : Reaches (openedTab Bool) loggedOutTab := by
  let first : Task Bool := .call false
  let second : Task Bool := .call true
  change Reaches (tabAt (fun _ => false) (fun _ => .starting) ⟨some "access-0", some "refresh-0"⟩
    ⟨["refresh-0"], [], ["refresh-0"]⟩) loggedOutTab
  refine .trans (reaches_turn first .done .start rfl rfl (by decide)) ?_
  refine .trans (reaches_turn second .done .start rfl rfl (by decide)) ?_
  refine .trans (reaches_turn first (.response 401 none) (.fetch 401) rfl rfl (by decide)) ?_
  refine .trans (reaches_turn first (.response 200 (some ("access-1", "refresh-1")))
    (.rotate (by decide) (by decide)) rfl rfl (by decide)) ?_
  refine .trans (reaches_turn first (.data (some ("access-1", "refresh-1"))) .json rfl rfl
    (by decide)) ?_
  refine .trans (reaches_turn second (.response 401 none) (.fetch 401) rfl rfl (by decide)) ?_
  refine .trans (reaches_turn second (.response 200 (some ("access-2", "refresh-2")))
    (.rotate (by decide) (by decide)) rfl rfl (by decide)) ?_
  refine .trans (reaches_turn second (.data (some ("access-2", "refresh-2"))) .json rfl rfl
    (by decide)) ?_
  refine .trans (reaches_turn first .done .refreshTokens rfl rfl (by decide)) ?_
  refine .trans (reaches_turn first (.response 200 none) (.fetch 200) rfl rfl (by decide)) ?_
  refine .trans (reaches_turn second .done .refreshTokens rfl rfl (by decide)) ?_
  refine .trans (reaches_turn second (.response 200 none) (.fetch 200) rfl rfl (by decide)) ?_
  refine .trans (reaches_turn .logout .done .start rfl rfl (by decide)) ?_
  refine .trans (reaches_turn .logout (.response 200 none) (.logout 200) rfl rfl (by decide)) ?_
  refine .trans (reaches_turn .logout .done .apiClient rfl rfl (by decide)) ?_
  refine .of_eq (congrArg (fun points => tabAt _ points _ _) (funext fun i => ?_))
  match i with
  | .call false => rfl
  | .call true => rfl
  | .logout => rfl

theorem safe_refresh_of_undisturbed_inTurn :
    ∃ steps, Run TabStep (openedTab Bool) steps loggedOutTab ∧
      Throughout SafeRefresh steps loggedOutTab := by
  obtain ⟨steps, hRun, hAll⟩ := reaches_loggedOut
  exact ⟨steps, hRun, safe_refresh_of_undisturbed openedTab_opened hRun hAll⟩

end WxcodeAdm.Frontend
