import Mathlib.Data.List.Infix
import WxcodeAdm.Frontend.ApiClient
import WxcodeAdm.Lib.Numeral

/-! `lib/api-client.ts` and `lib/admin-api-client.ts` with what their calls return and throw, for a
call that is alone in its tab.  The method, the body and the headers of the caller are left out: they
are the same in both tries. -/

namespace WxcodeAdm.Frontend.Http

open Lib

/-! ### Values -/

/-- A value as `JSON.parse` gives it.  A number is kept as its text, and the fields of an object stand
in the order in which it lists them. -/
inductive JsValue where
  | null
  | bool (b : Bool)
  | number (text : String)
  | string (text : String)
  | array (items : List JsValue)
  | object (fields : List (String × JsValue))

namespace JsValue

/-- `value?.key`, with `none` for `undefined`. -/
def get (key : String) : JsValue → Option JsValue
  | object fields => fields.lookup key
  | _ => none

/-- `Boolean(value)` -/
def isTruthy : JsValue → Bool
  | null => false
  | bool b => b
  | number text => text ≠ "0"
  | string text => text ≠ ""
  | _ => true

/-- `a || b` -/
def or (a b : Option JsValue) : Option JsValue := if a.any isTruthy then a else b

mutual

/-- `String(value)`, which throws for an object with a field `toString`, as it is no function. -/
def toText : JsValue → Option String
  | null => some "null"
  | bool b => some (if b then "true" else "false")
  | number text => some text
  | string text => some text
  | array items => (joinedTexts items).map (String.intercalate ",")
  | object fields => if (fields.lookup "toString").isSome then none else some "[object Object]"

/-- The texts that `join` puts together. -/
def joinedTexts : List JsValue → Option (List String)
  | [] => some []
  | null :: items => (joinedTexts items).map ("" :: ·)
  | item :: items => do
    let text ← toText item
    let texts ← joinedTexts items
    return text :: texts

end

/-- A character of a string in `JSON.stringify`. -/
def quoteChar (ch : Char) : List Char :=
  if ch = '"' then ['\\', '"']
  else if ch = '\\' then ['\\', '\\']
  else if ch = '\n' then ['\\', 'n']
  else if ch = '\r' then ['\\', 'r']
  else if ch = '\t' then ['\\', 't']
  else if ch.toNat = 8 then ['\\', 'b']
  else if ch.toNat = 12 then ['\\', 'f']
  else if ch.toNat < 32 then '\\' :: 'u' :: padded 16 4 ch.toNat
  else [ch]

def quote (text : String) : String := "\"" ++ .ofList (text.toList.flatMap quoteChar) ++ "\""

mutual

/-- `JSON.stringify` -/
def stringify : JsValue → String
  | null => "null"
  | bool b => if b then "true" else "false"
  | number text => if text = "Infinity" ∨ text = "-Infinity" then "null" else text
  | string text => quote text
  | array items => "[" ++ String.intercalate "," (stringifyItems items) ++ "]"
  | object fields =>
    String.singleton '{' ++ String.intercalate "," (stringifyFields fields) ++
      String.singleton '}'

def stringifyItems : List JsValue → List String
  | [] => []
  | item :: items => stringify item :: stringifyItems items

def stringifyFields : List (String × JsValue) → List String
  | [] => []
  | (key, value) :: fields => (quote key ++ ":" ++ stringify value) :: stringifyFields fields

end

end JsValue

/-! ### Responses -/

/-- A `Response`.  `json` is what `json()` resolves to; it rejects a body that is no JSON. -/
structure Response where
  status : Nat
  statusText : String
  contentType : Option String
  json : Option JsValue

inductive JsError where
  | apiError (status : Nat) (message : String) (errorCode : JsValue)
  | syntaxError
  | typeError

/-- What a call returns, with `none` for `undefined`, or throws. -/
abbrev Result : Type := Except JsError (Option JsValue)

structure ErrorBody where
  message : String
  errorCode : JsValue

/-- `rawDetail.map((e) => e.msg).join(", ")`, which throws on a `null` among the items. -/
def joinMessages (items : List JsValue) : Option String := do
  let texts ← items.mapM fun item =>
    match item with
    | .null => none
    | item =>
      match item.get "msg" with
      | none | some .null => some ""
      | some message => message.toText
  return String.intercalate ", " texts

/-- `message` of an error body, given `rawDetail`. -/
def detailMessage : Option JsValue → Option String
  | some (.string text) => some text
  | some (.array items) => joinMessages items
  | some (.object fields) => some (JsValue.object fields).stringify
  | _ => some "An error occurred"

/-- `parseErrorBody` inside its `try`. -/
def readErrorBody (body : JsValue) : Option ErrorBody := do
  let rawDetail := JsValue.or (JsValue.or (body.get "detail") (body.get "message"))
    (body.get "error_code")
  let message ← detailMessage rawDetail
  let errorCode := ((body.get "error_code").filter JsValue.isTruthy).getD (.string "UNKNOWN_ERROR")
  return { message, errorCode }

def parseErrorBody (response : Response) : ErrorBody :=
  match response.json.bind readErrorBody with
  | some body => body
  | none =>
    { message := if response.statusText = "" then "Request failed" else response.statusText
      errorCode := .string "NETWORK_ERROR" }

def throwApiError (response : Response) : Result :=
  let errorBody := parseErrorBody response
  .error (.apiError response.status errorBody.message errorBody.errorCode)

/-- `response.json()` -/
def readJson (response : Response) : Result :=
  match response.json with
  | some value => .ok (some value)
  | none => .error .syntaxError

/-- `contentType && contentType.includes("application/json")` -/
def Response.isJson (response : Response) : Bool :=
  match truthy response.contentType with
  | some contentType => "application/json".toList <:+: contentType.toList
  | none => false

/-- The tokens in the answer to a refresh, which are texts. -/
def Response.tokenPair (response : Response) : Option (String × String) :=
  match response.json.bind (·.get "access_token"), response.json.bind (·.get "refresh_token") with
  | some (.string access), some (.string refresh) =>
    if access ≠ "" ∧ refresh ≠ "" then some (access, refresh) else none
  | _, _ => none

/-! ### A client -/

inductive ApiRequest where
  | fetch (endpoint : String) (bearer : Option String)
  | refresh (refreshToken : String)

/-- A program waits for a response, or for the failure of the network. -/
abbrev Program (σ α : Type) : Type := Async σ ApiRequest (Option Response) α

/-- What the two clients do in their own way: where they keep the tokens, what they do with these
after a failure, and which responses they know to be empty by their status. -/
structure Api (σ : Type) where
  accessToken : σ → Option String
  refreshToken : σ → Option String
  setTokens : String → String → σ → σ
  giveUp : σ → σ
  isEmpty : Nat → Bool

namespace Api

variable {σ : Type} (api : Api σ)

def refreshTokens : Program σ Bool := do
  let currentRefreshToken ← Async.get api.refreshToken
  match truthy currentRefreshToken with
  | none => return false
  | some token =>
    match ← Async.ask (.refresh token) with
    | none => return false
    | some response =>
      if isOk response.status then
        match response.tokenPair with
        | some (access, refresh) =>
          Async.modify (api.setTokens access refresh)
          return true
        | none => return false
      else return false

/-- The first try, when its response needs no refresh. -/
def finish (response : Response) : Result :=
  if isOk response.status then
    if api.isEmpty response.status || !response.isJson then .ok none else readJson response
  else throwApiError response

/-- The second try from its response on. -/
def finishRetry : Option Response → Program σ Result
  | none => return .error .typeError
  | some response =>
    if isOk response.status then return readJson response
    else do
      Async.modify api.giveUp
      return throwApiError response

/-- What follows `await refreshTokens()`. -/
def afterRefresh (endpoint : String) (bearer : Option String) (response : Response)
    (refreshed : Bool) : Program σ Result :=
  if refreshed then do
    let newToken ← Async.get api.accessToken
    let retryResponse ← Async.ask (.fetch endpoint (truthy newToken <|> bearer))
    api.finishRetry retryResponse
  else do
    Async.modify api.giveUp
    return throwApiError response

def call (endpoint : String) (skipAuth : Bool) : Program σ Result := do
  let token ← Async.get api.accessToken
  let bearer := if skipAuth then none else truthy token
  match ← Async.ask (.fetch endpoint bearer) with
  | none => return .error .typeError
  | some response =>
    if response.status = 401 ∧ skipAuth = false then do
      let refreshed ← api.refreshTokens
      api.afterRefresh endpoint bearer response refreshed
    else return api.finish response

end Api

/-! ### The two clients -/

/-- The module variables of `lib/admin-auth.ts`, and its keys in `localStorage`. -/
structure AdminTokenStore where
  accessToken : Option String := none
  refreshToken : Option String := none
  storedRefresh : Option String := none
  storedEmail : Option String := none
  deriving DecidableEq, Repr

def userApi : Api TokenStore where
  accessToken := fun s => s.accessToken
  refreshToken := fun s => s.refreshToken
  setTokens := fun access refresh _ => ⟨some access, some refresh⟩
  giveUp := fun _ => {}
  isEmpty := fun _ => false

def adminApi : Api AdminTokenStore where
  accessToken := fun s => s.accessToken
  refreshToken := fun s => truthy s.refreshToken <|> s.storedRefresh
  setTokens := fun access refresh s =>
    { s with accessToken := some access, refreshToken := some refresh, storedRefresh := some refresh }
  giveUp := id
  isEmpty := fun status => status = 204

def apiClient (endpoint : String) (skipAuth : Bool) : Program TokenStore Result :=
  userApi.call endpoint skipAuth

def adminApiClient (endpoint : String) (skipAuth : Bool) : Program AdminTokenStore Result :=
  adminApi.call endpoint skipAuth

end WxcodeAdm.Frontend.Http
