import WxcodeAdm.Credentials
import WxcodeAdm.System

/-! The address of an account, as the endpoints of `auth/schemas.py` take it: some through the type
`EmailStr`, which writes an address in its normal form, and some as the text that was sent. -/

namespace WxcodeAdm

open Lib

variable {cfg : Config} {c : Ctx} {w w' : World} {s s' : Sys} {e : Event} {raw password : String}
  {emailStr : String → Option String}

/-- The bodies with an address, before they are validated. -/
inductive AddressBody where
  | signup (email password : String)
  | verifyEmail (email code : String)
  | resendVerification (email : String)
  | login (email : String) (password : PyStr) (deviceToken userAgent clientIp : Option String)
  | forgotPassword (email : String)

namespace AddressBody

def email : AddressBody → String
  | signup email _ | verifyEmail email _ | resendVerification email | login email .. |
    forgotPassword email => email

/-- The schemas, over what `EmailStr` makes of a text: its normal form, or nothing. -/
def validate (emailStr : String → Option String) : AddressBody → Option Request
  | signup email password =>
    if 8 ≤ password.length ∧ password.length ≤ 128 then
      (emailStr email).map fun address => .signup address password
    else none
  | verifyEmail email code => if code.length = 6 then some (.verifyEmail email code) else none
  | resendVerification email => some (.resendVerification email)
  | login email password device ua ip =>
    (emailStr email).map fun address => .login address password device ua ip
  | forgotPassword email => (emailStr email).map fun address => .forgotPassword address

end AddressBody

/-- The address that a request looks its user up by. -/
def Request.address : Request → Option String
  | .signup email _ | .verifyEmail email _ | .resendVerification email | .login email .. |
    .forgotPassword email => some email
  | _ => none

/-- The user that a request is about. -/
def Request.finds (r : Request) (db : Db) : Option User := r.address.bind db.userByEmail

/-- The first that a request with an address does is to look its user up. -/
theorem handle_finds {r : Request} {email : String} (hAddress : r.address = some email) :
    ∃ k, handle c r = ((.query fun db => db.userByEmail email) >>= k) := by
  cases r with
  | signup | verifyEmail | resendVerification | login | forgotPassword =>
    obtain rfl := Option.some.inj hAddress
    simp only [handle, Router.login, WxcodeAdm.login, signup, verifyEmail, resendVerification,
      forgotPassword, bind_assoc]
    exact ⟨_, rfl⟩
  | _ => cases hAddress

/-- The account of a sign-up has the address that it was made for. -/
theorem signup_account {address : String} {account : User} {e : Event} (h : Step cfg s e s')
    (hRequest : e.request = .signup address password) (hOk : e.outcome = .ok (.user account)) :
    account ∈ s'.world.db.users ∧ account.email = address := by
  have hRun := (h.committed hOk).1
  rw [hRequest] at hRun
  obtain ⟨user, m, hSignup, hRest⟩ := Handler.run_bind_ok.mp hRun
  obtain ⟨hUser, rfl⟩ := Handler.run_pure_ok.mp hRest
  obtain rfl := Response.user.inj hUser
  obtain ⟨-, -, -, hDb⟩ := signup_ok hSignup
  refine ⟨hDb ▸ List.mem_append_right _ (List.mem_singleton_self _), ?_⟩
  simp only [signup, createVerificationCode, enqueueJob, bind_assoc, pure_bind,
    Handler.run_query_bind, Handler.run_ensure_bind_ok, Handler.run_exec_bind, run_flush_bind_ok,
    Handler.run_store_bind, Handler.run_pure_ok] at hSignup
  obtain ⟨-, -, rfl, -⟩ := hSignup
  rfl

/-- A text that `EmailStr` leaves alone validates to itself on every endpoint. -/
theorem validate_address {body : AddressBody} {r : Request}
    (hSame : emailStr body.email = some body.email)
    (hBody : body.validate emailStr = some r) : r.address = some body.email := by
  cases body with
  | signup email password =>
    simp only [AddressBody.validate] at hBody
    split at hBody
    · rw [show emailStr email = some email from hSame] at hBody
      exact Option.some.inj hBody ▸ rfl
    · cases hBody
  | verifyEmail email code =>
    simp only [AddressBody.validate] at hBody
    split at hBody
    · exact Option.some.inj hBody ▸ rfl
    · cases hBody
  | resendVerification email => exact Option.some.inj hBody ▸ rfl
  | login email | forgotPassword email =>
    rw [AddressBody.validate, show emailStr email = some email from hSame] at hBody
    exact Option.some.inj hBody ▸ rfl

/-- The text of a sign-up leads to its account on every endpoint, as long as the account keeps its
address, exactly when the text is in normal form. -/
theorem one_address_iff {account : User} (hReach : Reachable cfg s) (h : Step cfg s e s')
    (hBody : (AddressBody.signup raw password).validate emailStr = some e.request)
    (hOk : e.outcome = .ok (.user account)) :
    (∀ steps t, Run (Step cfg) s' steps t → ∀ holder ∈ t.world.db.users,
        holder.id = account.id → holder.email = account.email →
        ∀ (body : AddressBody) r, body.email = raw → body.validate emailStr = some r →
          r.finds t.world.db = some holder) ↔ emailStr raw = some raw := by
  obtain ⟨address, hAddress, hRequest⟩ : ∃ address, emailStr raw = some address ∧
      e.request = .signup address password := by
    simp only [AddressBody.validate] at hBody
    split at hBody
    · obtain ⟨address, hAddress, hRequest⟩ := Option.map_eq_some_iff.mp hBody
      exact ⟨address, hAddress, hRequest.symm⟩
    · cases hBody
  obtain ⟨hMem, hEmail⟩ := signup_account h hRequest hOk
  constructor
  · intro hAll
    have hFinds : s'.world.db.userByEmail raw = some account :=
      hAll [] s' .nil account hMem rfl rfl (.resendVerification raw) _ rfl rfl
    have hSame : account.email = raw := by simpa using List.find?_some hFinds
    rw [hAddress, ← hSame, hEmail]
  · intro hSame steps t hRun holder hHolder hId hHolds body r hRaw hValidated
    have hSound : t.Sound cfg :=
      hRun.invariant (I := fun m => m.Sound cfg) (fun hs hStep => hStep.sound hs)
        (h.sound hReach.sound)
    have hKey := validate_address (hRaw ▸ hSame) hValidated
    have hText : holder.email = raw := by
      rw [hHolds, hEmail]
      exact Option.some.inj (hAddress.symm.trans hSame)
    rw [Request.finds, hKey, Option.bind_some, hRaw, ← hText]
    exact hSound.valid.userByEmail_of_mem hHolder

/-! ### A domain in capitals -/

/-- `EmailStr` of a text with one `@`: the space around it goes, and the domain is in lower case. -/
def sampleEmailStr (text : String) : Option String :=
  let chars := (strip text).toList
  let name := chars.takeWhile (· ≠ '@')
  let domain := (chars.dropWhile (· ≠ '@')).tail
  if name = [] ∨ domain = [] ∨ '@' ∈ domain then none
  else some (.ofList (name ++ '@' :: domain.map Char.toLower))

def capitalUser : User where
  id := ⟨1000⟩
  email := "carol@example.com"
  passwordHash := some "salt-0$password"

def capitalEvent : Event := (sampleHome.sample (seconds 10) (.signup "carol@example.com" "password")).1

def capitalSignedUp : Sys := (sampleHome.sample (seconds 10) (.signup "carol@example.com" "password")).2

theorem capitalSignedUp_step : Step sampleConfig sampleHome capitalEvent capitalSignedUp :=
  (sampleHome_initial.reachable.sample (by decide) (by trivial)).1

theorem capitalEvent_account : capitalEvent.outcome = .ok (.user capitalUser) := by rfl

/-- Who signs up with a domain in capitals is not found by the address at the endpoints that verify
it. -/
theorem capitals_unverifiable :
    Step sampleConfig sampleHome capitalEvent capitalSignedUp ∧
      (AddressBody.signup "carol@EXAMPLE.com" "password").validate sampleEmailStr =
        some capitalEvent.request ∧
      capitalEvent.outcome = .ok (.user capitalUser) ∧
      ∀ body : AddressBody, body = .verifyEmail "carol@EXAMPLE.com" "482913" ∨
          body = .resendVerification "carol@EXAMPLE.com" →
        ∃ r, body.validate sampleEmailStr = some r ∧ r.finds capitalSignedUp.world.db = none := by
  refine ⟨capitalSignedUp_step, by rfl, capitalEvent_account, ?_⟩
  rintro _ (rfl | rfl)
  · exact ⟨.verifyEmail "carol@EXAMPLE.com" "482913", by rfl, by decide⟩
  · exact ⟨.resendVerification "carol@EXAMPLE.com", by rfl, by decide⟩

theorem one_address_iff_capitals :
    (∀ steps t, Run (Step sampleConfig) capitalSignedUp steps t → ∀ holder ∈ t.world.db.users,
        holder.id = capitalUser.id → holder.email = capitalUser.email →
        ∀ (body : AddressBody) r, body.email = "carol@EXAMPLE.com" →
          body.validate sampleEmailStr = some r → r.finds t.world.db = some holder) ↔
      sampleEmailStr "carol@EXAMPLE.com" = some "carol@EXAMPLE.com" :=
  one_address_iff sampleHome_initial.reachable capitalSignedUp_step
    (show (AddressBody.signup _ "password").validate _ = _ by rfl) capitalEvent_account

end WxcodeAdm
