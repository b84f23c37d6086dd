import WxcodeAdm.Context

/-! `auth/jwt.py`, `admin/jwt.py` and the part of PyJWT that they rest on.  A signed token is
known by its payload; any other text fails the signature check. -/

namespace WxcodeAdm

/-- A bearer token: signed with `JWT_PRIVATE_KEY`, or any other text. -/
inductive Bearer where
  | signed (payload : Payload)
  | other (text : String)
  deriving DecidableEq, Repr

/-- The exceptions of `jwt.decode`.  The last two are subclasses of `InvalidTokenError`, and so is
`ExpiredSignatureError`. -/
inductive JwtError where
  | expiredSignature
  | invalidSignature
  | invalidAudience
  deriving DecidableEq, Repr

/-- `jwt.decode`: the signature, then `exp` unless `verify_exp` is off, then `aud`.  A payload with
a non-empty `aud` is refused when no audience is given. -/
def jwtDecode (now : Nat) (audience : Option String) (verifyExp : Bool) :
    Bearer → Except JwtError Payload
  | .other _ => .error .invalidSignature
  | .signed p =>
    if verifyExp ∧ seconds p.exp ≤ now then .error .expiredSignature
    else match audience with
      | some a => if p.aud = some a then .ok p else .error .invalidAudience
      | none => if p.aud = none ∨ p.aud = some "" then .ok p else .error .invalidAudience

structure Claims where
  aud : Option String := none
  tenantId : Option Uuid := none
  role : Option String := none
  deriving DecidableEq, Repr

variable (c : Ctx)

/-- The payload that `create_access_token` signs.  `extra_claims` replaces the default `aud`. -/
def createAccessToken (userId : Uuid) (extraClaims : Claims) : Payload where
  sub := userId
  aud := some (extraClaims.aud.getD "wxcode-adm")
  iat := timestamp c.now
  exp := timestamp (c.now + hours c.settings.accessTokenTtlHours)
  jti := c.draws.jti
  tenantId := extraClaims.tenantId
  role := extraClaims.role

/-- `decode_access_token` and `decode_admin_access_token`, for one audience. -/
def decodeFor (audience : String) (token : Bearer) : Except PyError Payload :=
  match jwtDecode c.now (some audience) true token with
  | .ok p => .ok p
  | .error .expiredSignature => .error .tokenExpired
  | .error _ => .error .invalidToken

def decodeAccessToken (token : Bearer) : Except PyError Payload := decodeFor c "wxcode-adm" token

def createAdminAccessToken (userId : Uuid) : Payload :=
  createAccessToken c userId { aud := some "wxcode-adm-admin" }

def decodeAdminAccessToken (token : Bearer) : Except PyError Payload :=
  decodeFor c "wxcode-adm-admin" token

variable {c}

theorem decodeFor_ok {audience : String} {token : Bearer} {p : Payload} :
    decodeFor c audience token = .ok p ↔
      token = .signed p ∧ c.now < seconds p.exp ∧ p.aud = some audience := by
  cases token with
  | other => simp [decodeFor, jwtDecode]
  | signed q =>
    by_cases hExp : seconds q.exp ≤ c.now
    · simp only [decodeFor, jwtDecode, hExp, and_self, if_true, Bearer.signed.injEq]
      refine iff_of_false (by simp) ?_
      rintro ⟨rfl, hlt, -⟩
      exact absurd hExp (Nat.not_le.mpr hlt)
    · by_cases hAud : q.aud = some audience
      · simp only [decodeFor, jwtDecode, hExp, and_false, if_false, hAud, if_true,
          Except.ok.injEq, Bearer.signed.injEq]
        constructor
        · rintro rfl
          exact ⟨rfl, Nat.not_le.mp hExp, hAud⟩
        · exact fun h => h.1
      · simp only [decodeFor, jwtDecode, hExp, and_false, if_false, hAud, Bearer.signed.injEq]
        refine iff_of_false (by simp) ?_
        rintro ⟨rfl, -, h⟩
        exact hAud h

/-- Decoding without an audience refuses every token that names one. -/
theorem jwtDecode_no_audience {now : Nat} {verifyExp : Bool} {p q : Payload} {a : String}
    (hAud : p.aud = some a) (hne : a ≠ "") :
    jwtDecode now none verifyExp (.signed p) ≠ .ok q := by
  simp only [jwtDecode, hAud]
  split <;> simp [hne]

end WxcodeAdm
