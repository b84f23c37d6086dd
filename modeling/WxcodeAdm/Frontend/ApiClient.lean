import WxcodeAdm.Lib.EventLoop

/-! `lib/auth.ts`, `lib/api-client.ts` and `logout` of `providers/auth-provider.tsx`: the tokens of
one tab, and the calls that read and write them between their awaits.  What the page does with a
result is left out; `true` stands for a promise that is resolved, and `false` for a rejected one. -/

namespace WxcodeAdm.Frontend

open Lib

/-- The module variables of `lib/auth.ts`. -/
structure TokenStore where
  accessToken : Option String := none
  refreshToken : Option String := none
  deriving DecidableEq, Repr

inductive Endpoint where
  | resource
  | logout (refreshToken : String)
  deriving DecidableEq, Repr

/-- What the code awaits: the event that starts a task, a `fetch`, the body of a response, or a
promise of its own. -/
inductive Query where
  | start
  | fetch (endpoint : Endpoint) (bearer : Option String)
  | refresh (refreshToken : String)
  | json (body : Option (String × String))
  | errorBody
  | refreshTokens (refreshed : Bool)
  | apiClient (returned : Bool)
  deriving DecidableEq, Repr

/-- The answer: a response with its status, and the pair in its body, or the body that was read, or
a rejection. -/
inductive Reply where
  | done
  | response (status : Nat) (body : Option (String × String))
  | data (body : Option (String × String))
  | failed
  deriving DecidableEq, Repr

abbrev Client (α : Type) : Type := Async TokenStore Query Reply α

/-- A string or null, as a condition takes it. -/
def truthy (text : Option String) : Option String := text.filter (· ≠ "")

/-- `response.ok` -/
def isOk (status : Nat) : Bool := 200 ≤ status ∧ status ≤ 299

/-! ### `lib/auth.ts` -/

def getAccessToken : Client (Option String) := .get fun s => s.accessToken

def getRefreshToken : Client (Option String) := .get fun s => s.refreshToken

def setTokens (access refresh : String) : Client Unit :=
  .modify fun _ => ⟨some access, some refresh⟩

def clearTokens : Client Unit := .modify fun _ => {}

/-- `refreshTokens` from the body of the response on. -/
def storePair : Reply → Client Bool
  | .data (some (access, refresh)) =>
    if access ≠ "" ∧ refresh ≠ "" then do
      setTokens access refresh
      return true
    else return false
  | _ => return false

/-- `refreshTokens` from the response on. -/
def receiveRefresh : Reply → Client Bool
  | .response status body => if isOk status then .ask (.json body) >>= storePair else return false
  | _ => return false

def refreshTokens : Client Bool := do
  let currentRefreshToken ← getRefreshToken
  match truthy currentRefreshToken with
  | none => return false
  | some token => .ask (.refresh token) >>= receiveRefresh

/-! ### `lib/api-client.ts` -/

/-- `parseErrorBody`, and the `ApiError`. -/
def throwApiError : Client Bool := do
  discard (.ask .errorBody)
  return false

/-- `apiClient` from the response to its second try on. -/
def finishRetry : Reply → Client Bool
  | .response status _ =>
    if isOk status then return true
    else do
      clearTokens
      throwApiError
  | _ => return false

/-- A request: where it goes, whether it goes without a token, and the token that it has. -/
structure ApiCall where
  endpoint : Endpoint
  skipAuth : Bool
  bearer : Option String
  deriving DecidableEq, Repr

/-- `apiClient` after `await refreshTokens()`. -/
def afterRefresh (call : ApiCall) (refreshed : Bool) : Client Bool :=
  if refreshed then do
    let newToken ← getAccessToken
    .ask (.fetch call.endpoint (truthy newToken <|> call.bearer)) >>= finishRetry
  else do
    clearTokens
    throwApiError

/-- `apiClient` from the response on. -/
def handleResponse (call : ApiCall) : Reply → Client Bool
  | .response status _ =>
    if status = 401 ∧ call.skipAuth = false then do
      let refreshed ← refreshTokens
      discard (.ask (.refreshTokens refreshed))
      afterRefresh call refreshed
    else if isOk status then return true
    else throwApiError
  | _ => return false

def apiClient (endpoint : Endpoint) (skipAuth : Bool) : Client Bool := do
  let token ← getAccessToken
  let call : ApiCall := ⟨endpoint, skipAuth, if skipAuth then none else truthy token⟩
  .ask (.fetch endpoint call.bearer) >>= handleResponse call

/-! ### `providers/auth-provider.tsx` -/

/-- `logout` after its call, whose errors are ignored. -/
def finishLogout (returned : Bool) : Client Unit := do
  discard (.ask (.apiClient returned))
  clearTokens

def logout : Client Unit := do
  let refreshToken ← getRefreshToken
  match truthy refreshToken with
  | some token => apiClient (.logout token) false >>= finishLogout
  | none => clearTokens

/-! ### A tab -/

/-- The calls of a tab, and the logout. -/
inductive Task (ι : Type) where
  | call (i : ι)
  | logout
  deriving DecidableEq

variable {ι : Type}

/-- What a task does when it is started; `skipAuth` is the option of each call. -/
def Task.program (skipAuth : ι → Bool) : Task ι → Client Unit
  | .call i => do
    discard (.ask .start)
    discard (apiClient .resource (skipAuth i))
  | .logout => do
    discard (.ask .start)
    Frontend.logout

/-! ### The backend -/

/-- The refresh tokens in the table, those with a shadow key, and those ever made. -/
structure RefreshServer where
  live : List String
  used : List String
  issued : List String
  deriving DecidableEq, Repr

/-- The token is consumed, and a new one made. -/
def RefreshServer.rotate (b : RefreshServer) (token new : String) : RefreshServer where
  live := new :: b.live.filter (· ≠ token)
  used := token :: b.used
  issued := new :: b.issued

/-- How the backend, or the network, can answer.  A token that is presented a second time ends every
session; the answer to a request that was served can be lost. -/
inductive RefreshServer.Answers (b : RefreshServer) : Query → Reply → RefreshServer → Prop
  | start : Answers b .start .done b
  | errorBody : Answers b .errorBody .done b
  | refreshTokens {refreshed : Bool} : Answers b (.refreshTokens refreshed) .done b
  | apiClient {returned : Bool} : Answers b (.apiClient returned) .done b
  | json {body : Option (String × String)} : Answers b (.json body) (.data body) b
  | unread {body : Option (String × String)} : Answers b (.json body) .failed b
  | fetch {endpoint : Endpoint} {bearer : Option String} (status : Nat) :
      Answers b (.fetch endpoint bearer) (.response status none) b
  | unsent {endpoint : Endpoint} {bearer : Option String} :
      Answers b (.fetch endpoint bearer) .failed b
  | logout {token : String} {bearer : Option String} (status : Nat) :
      Answers b (.fetch (.logout token) bearer) (.response status none)
        { b with live := b.live.filter (· ≠ token) }
  | logoutLost {token : String} {bearer : Option String} :
      Answers b (.fetch (.logout token) bearer) .failed
        { b with live := b.live.filter (· ≠ token) }
  | rotate {token access new : String} (hLive : token ∈ b.live) (hNew : new ∉ b.issued) :
      Answers b (.refresh token) (.response 200 (some (access, new))) (b.rotate token new)
  | lost {token new : String} (hLive : token ∈ b.live) (hNew : new ∉ b.issued) :
      Answers b (.refresh token) .failed (b.rotate token new)
  | replay {token : String} (hGone : token ∉ b.live) (hUsed : token ∈ b.used) :
      Answers b (.refresh token) (.response 401 none) { b with live := [] }
  | unknown {token : String} (hGone : token ∉ b.live) (hNever : token ∉ b.used) :
      Answers b (.refresh token) (.response 401 none) b
  | unavailable {token : String} (status : Nat) (hStatus : isOk status = false) :
      Answers b (.refresh token) (.response status none) b
  | unreached {token : String} : Answers b (.refresh token) .failed b

/-- A tab with its backend. -/
abbrev Tab (ι : Type) : Type := EventLoop (Task ι) TokenStore RefreshServer Query Reply Unit

variable [DecidableEq ι]

abbrev TabStep : Tab ι → EventLoop.Event (Task ι) Reply → Tab ι → Prop :=
  EventLoop.Step RefreshServer.Answers

end WxcodeAdm.Frontend
