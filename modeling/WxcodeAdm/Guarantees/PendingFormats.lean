import WxcodeAdm.Auth.PendingToken

/-! A pending login is kept as the plain text of a UUID or as a JSON object, and only the attempt to
read JSON tells which. -/

namespace WxcodeAdm

open Lib JsonText

def mfaSetupRequired : PyError :=
  .app "MFA_SETUP_REQUIRED" "You must complete MFA enrollment before logging in" 403

/-- The plain text of a UUID is never read as JSON, and yields its user; the object is always read as
one, and turns the login away.  What a login leaves is read as what it announces. -/
theorem pending_formats_apart (py : Interpreter) {u : Uuid} (h : u.toNat < 2 ^ 128) :
    (loads (MfaPending.plain u).text = none ∧
      decodePending py (MfaPending.plain u).text = .ok u) ∧
    ((∃ fields, loads (MfaPending.setupRequired u).text = some (.obj fields)) ∧
      decodePending py (MfaPending.setupRequired u).text = .error mfaSetupRequired) ∧
    ∀ (c : Ctx) (user : User) (deviceToken userAgent ipAddress : Option String) (s s' : World)
      (token : String) (setup : Bool), user.id = u →
      (loginVerified c user deviceToken userAgent ipAddress).run s =
        .ok (.mfaRequired token setup) s' →
      ∃ pending deadline, s'.cache.mfaPending.entry token = some (pending, deadline) ∧
        decodePending py pending.text = if setup then .error mfaSetupRequired else .ok u := by
  have hPlain : decodePending py (MfaPending.plain u).text = .ok u :=
    decodePending_text h _ (.inl rfl)
  have hSetup : decodePending py (MfaPending.setupRequired u).text = .error mfaSetupRequired :=
    decodePending_text h _ (.inr rfl)
  refine ⟨⟨loads_text u, hPlain⟩, ⟨⟨_, loads_setupRequiredText u⟩, hSetup⟩, ?_⟩
  rintro c user deviceToken userAgent ipAddress s s' token setup rfl hRun
  obtain ⟨deadline, hEntry⟩ := loginVerified_pending hRun
  refine ⟨_, deadline, hEntry, ?_⟩
  cases setup with
  | true => exact hSetup
  | false => exact hPlain

/-- The law for a UUID that begins like the number `123e4567`. -/
theorem pending_formats_apart_exponent :
    (⟨0x123e4567e89b12d3a456426614174000⟩ : Uuid).text = "123e4567-e89b-12d3-a456-426614174000" ∧
      decodePending ⟨fun _ => false, fun _ => none, fun _ => false⟩
        "123e4567-e89b-12d3-a456-426614174000" =
          .ok ⟨0x123e4567e89b12d3a456426614174000⟩ := by
  have hText : (⟨0x123e4567e89b12d3a456426614174000⟩ : Uuid).text =
      "123e4567-e89b-12d3-a456-426614174000" := by decide
  have hFits : (⟨0x123e4567e89b12d3a456426614174000⟩ : Uuid).toNat < 2 ^ 128 := by decide
  have hApart := pending_formats_apart ⟨fun _ => false, fun _ => none, fun _ => false⟩ hFits
  exact ⟨hText, hText ▸ hApart.1.2⟩

end WxcodeAdm
