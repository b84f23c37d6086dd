import WxcodeAdm.Schema

/-! The exceptions of the backend, the texts of a request body, and the JSON values that the backend
reads from Stripe and from the payloads of signed texts. -/

namespace WxcodeAdm

/-- An exception: an `AppError` with its code, message and status, or any other class by name. -/
inductive PyError where
  | app (errorCode message : String) (statusCode : Nat)
  | other (kind : String)
  deriving DecidableEq, Repr

namespace PyError

def IsApp : PyError → Prop
  | app .. => True
  | other _ => False

def invalidCredentials : PyError := app "AUTH_INVALID_CREDENTIALS" "Invalid email or password" 401

def tokenExpired : PyError := app "AUTH_TOKEN_EXPIRED" "Token has expired" 401

def invalidToken : PyError := app "AUTH_INVALID_TOKEN" "Invalid token" 401

def replayDetected : PyError :=
  app "REPLAY_DETECTED" "Session compromised — all sessions revoked. Please log in again." 401

def emailNotVerified (message : String) : PyError := app "EMAIL_NOT_VERIFIED" message 403

def emailAlreadyExists : PyError :=
  app "EMAIL_ALREADY_EXISTS" "An account with this email already exists" 409

def oauthProviderAlreadyLinked : PyError :=
  app "OAUTH_PROVIDER_ALREADY_LINKED" "This provider is already linked to another account" 409

def mfaRequired : PyError := app "MFA_REQUIRED" "MFA setup is required for this tenant" 403

def mfaInvalidCode : PyError := app "MFA_INVALID_CODE" "Invalid MFA code" 401

def notFound (errorCode message : String) : PyError := app errorCode message 404

def forbidden (errorCode message : String) : PyError := app errorCode message 403

def conflict (errorCode message : String) : PyError := app errorCode message 409

def integrityError : PyError := other "IntegrityError"

/-- `scalar_one_or_none` on two rows or more. -/
def multipleResultsFound : PyError := other "MultipleResultsFound"

end PyError

/-- A `str` of a request body.  A JSON text can escape surrogates that stand alone, which are
characters of a `str` and have no encoding, and only a field whose length is bounded refuses them.
The fields that decide how a sign-in or a new workspace ends have this type; others hold texts. -/
inductive PyStr where
  | text (s : String)
  | lone (codePoints : List Nat) (surrogate : ∃ n ∈ codePoints, 0xD800 ≤ n ∧ n < 0xE000)
  deriving DecidableEq

namespace PyStr

instance : Coe String PyStr := ⟨text⟩

/-- `value.encode("utf-8")` -/
def encode : PyStr → Except PyError String
  | text s => .ok s
  | lone .. => .error (.other "UnicodeEncodeError")

/-- The value as a text, where it is one. -/
def text? : PyStr → Option String
  | text s => some s
  | lone .. => none

def Encodes (value : PyStr) : Prop := value.text?.isSome = true

instance (value : PyStr) : Decidable value.Encodes := inferInstanceAs (Decidable (_ = true))

@[simp] theorem encode_text (s : String) : (text s).encode = .ok s := rfl

theorem text?_eq_some {value : PyStr} {s : String} : value.text? = some s ↔ value = text s := by
  cases value <;> simp [text?]

end PyStr

/-- A JSON value as `json.loads` gives it. -/
inductive Json where
  | null
  | bool (b : Bool)
  | int (n : Int)
  | str (s : String)
  | loneStr (codePoints : List Nat)
  | arr (items : List Json)
  | obj (fields : List (String × Json))

namespace Json

/-- `value.get(key)`, which only a dictionary has. -/
def get (value : Json) (key : String) : Except PyError Json :=
  match value with
  | obj fields => .ok ((fields.lookup key).getD null)
  | _ => .error (.other "AttributeError")

/-- `value.get(key, default)` -/
def getD (value : Json) (key : String) (default : Json) : Except PyError Json :=
  match value with
  | obj fields => .ok ((fields.lookup key).getD default)
  | _ => .error (.other "AttributeError")

def truthy : Json → Bool
  | null => false
  | bool b => b
  | int n => n ≠ 0
  | str s => s ≠ ""
  | loneStr _ => true
  | arr items => items ≠ []
  | obj fields => fields ≠ []

/-- The value of a nullable text column; the driver refuses other types. -/
def text : Json → Except PyError (Option String)
  | null => .ok none
  | str s => .ok (some s)
  | _ => .error (.other "DBAPIError")

def uuid (parse : String → Option Uuid) : Json → Except PyError Uuid
  | str s => match parse s with
    | some id => .ok id
    | none => .error (.other "ValueError")
  | loneStr _ => .error (.other "ValueError")
  | _ => .error (.other "AttributeError")

/-- `datetime.fromtimestamp(value, tz=timezone.utc)`, for the years 1 to 9999. -/
def fromTimestamp : Json → Except PyError Int
  | int n => if -62135596800 ≤ n ∧ n ≤ 253402300799 then .ok n else .error (.other "ValueError")
  | bool b => .ok (if b then 1 else 0)
  | _ => .error (.other "TypeError")

/-! A JSONB column stores texts, but no U+0000 and no surrogate without its other half. -/

mutual

def fitsJsonb : Json → Bool
  | str s => Char.ofNat 0 ∉ s.toList
  | loneStr _ => false
  | arr items => itemsFitJsonb items
  | obj fields => fieldsFitJsonb fields
  | _ => true

def itemsFitJsonb : List Json → Bool
  | [] => true
  | item :: rest => item.fitsJsonb && itemsFitJsonb rest

def fieldsFitJsonb : List (String × Json) → Bool
  | [] => true
  | (key, value) :: rest =>
    Char.ofNat 0 ∉ key.toList && value.fitsJsonb && fieldsFitJsonb rest

end

end Json

end WxcodeAdm
