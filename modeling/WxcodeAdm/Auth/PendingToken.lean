import WxcodeAdm.Auth.Mfa
import WxcodeAdm.Common.UuidText
import WxcodeAdm.Lib.JsonDocuments

/-! The text under `auth:mfa_pending:{token}`: what `login` writes for a pending login, and how
`mfa_verify` reads it. -/

namespace WxcodeAdm

open Lib JsonText

variable (py : Interpreter)

/-! ### `login` -/

/-- `json.dumps({"user_id": str(user.id), "setup_required": True})` -/
def setupRequiredText (userId : Uuid) : String :=
  .ofList (encodeObject
    [(codePoints "user_id".toList, encodeString (codePoints userId.text.toList)),
      (codePoints "setup_required".toList, "true".toList)])

def MfaPending.text : MfaPending → String
  | .plain userId => userId.text
  | .setupRequired userId => setupRequiredText userId

/-! ### `mfa_verify` -/

/-- `bool(value)` -/
def truthy : Value → Bool
  | .null => false
  | .bool b => b
  | .int n => n ≠ 0
  | .float literal => !py.isZero literal
  | .str codes => !codes.isEmpty
  | .arr items => !items.isEmpty
  | .obj fields => !fields.isEmpty

def pythonUuid (text : String) : Except PyError Uuid :=
  match uuidOfText py text with
  | some id => .ok id
  | none => .error (.other "ValueError")

/-- `uuid.UUID(value)`.  A lone surrogate is neither a digit nor one of the characters left out. -/
def uuidOfValue : Value → Except PyError Uuid
  | .str codes =>
    if codes.all fun code => decide code.isValidChar then
      pythonUuid py (.ofList (codes.map Char.ofNat))
    else .error (.other "ValueError")
  | .null => .error (.other "TypeError")
  | _ => .error (.other "AttributeError")

/-- The user of a pending value, as `mfa_verify` makes it out.  A text that is no JSON, and an object
without a user, count as plain ids; the subscript fails on other documents. -/
def decodePending (raw : String) : Except PyError Uuid :=
  match loads raw with
  | none => pythonUuid py raw
  | some (.obj fields) =>
    match field "user_id" fields with
    | none => pythonUuid py raw
    | some userId =>
      if truthy py ((field "setup_required" fields).getD .null) then
        .error (.app "MFA_SETUP_REQUIRED"
          "You must complete MFA enrollment before logging in" 403)
      else uuidOfValue py userId
  | some _ => .error (.other "TypeError")

/-! ### What is read of what was written -/

variable {py} {u : Uuid}

theorem text_plain : ∀ ch ∈ u.text.toList, Plain ch := by
  rw [u.toList_text]
  exact Uuid.forall_mem_text (by decide) (by decide)

theorem count_text (u : Uuid) : u.text.toList.count '-' = 4 := by
  have hHex (k : Nat) : '-' ∉ u.hex.drop k := fun hMem => by
    obtain ⟨v, hv, hDash⟩ := u.mem_hex (List.mem_of_mem_drop hMem)
    exact absurd hDash.symm ((by decide : ∀ v < 16, Nat.digitChar v ≠ '-') v hv)
  have hNone (k n : Nat) : ((u.hex.drop k).take n).count '-' = 0 :=
    List.count_eq_zero.mpr fun hMem => hHex k (List.mem_of_mem_take hMem)
  have hFirst : (u.hex.take 8).count '-' = 0 := hNone 0 8
  have hLast : (u.hex.drop 20).count '-' = 0 := List.count_eq_zero.mpr (hHex 20)
  simp [u.toList_text, dashed, hFirst, hNone, hLast]

/-- The text of a UUID is no JSON document: four dashes are more than a number holds. -/
theorem loads_text (u : Uuid) : loads u.text = none := by
  refine loads_of_dashes (fun ch hHead => ?_) (by rw [count_text]; decide)
  have hMem : ch ∈ u.text.toList := by
    have hSuffix : skipSpaces u.text.toList <:+ u.text.toList := List.dropWhile_suffix _
    exact hSuffix.mem (List.mem_of_head? hHead)
  rw [u.toList_text] at hMem
  exact Uuid.forall_mem_text (P := fun ch => ch ≠ '"' ∧ ch ≠ '{' ∧ ch ≠ '[') (by decide)
    (by decide) ch hMem

/-- The object is read as it was written. -/
theorem loads_setupRequiredText (u : Uuid) : loads (setupRequiredText u) =
    some (.obj [(codePoints "user_id".toList, .str (codePoints u.text.toList)),
      (codePoints "setup_required".toList, .bool true)]) := by
  have hUserId : ReadsField (codePoints "user_id".toList, encodeString (codePoints u.text.toList))
      (codePoints "user_id".toList, .str (codePoints u.text.toList)) :=
    ⟨⟨_, plain_of_all (by decide), rfl, rfl⟩, reads_string text_plain⟩
  have hSetup : ReadsField (codePoints "setup_required".toList, "true".toList)
      (codePoints "setup_required".toList, .bool true) :=
    ⟨⟨_, plain_of_all (by decide), rfl, rfl⟩, reads_true⟩
  exact loads_of_reads (reads_object (.cons hUserId (.cons hSetup .nil)) (List.cons_ne_nil _ _))

/-- What `mfa_verify` makes of a text is what the value it stands for says. -/
theorem decodePending_text (h : u.toNat < 2 ^ 128) (pending : MfaPending)
    (hUser : pending = .plain u ∨ pending = .setupRequired u) :
    decodePending py pending.text = pendingUserId pending := by
  rcases hUser with rfl | rfl
  · rw [MfaPending.text, decodePending, loads_text]
    simp only [pythonUuid, uuidOfText_text h, pendingUserId]
  · rw [MfaPending.text, decodePending, loads_setupRequiredText]
    rfl

/-! ### What `login` leaves -/

section Login

variable {c : Ctx} {user : User} {deviceToken userAgent ipAddress : Option String} {s s' : World}
  {setup : Bool} {token : String}

theorem createMfaPending_ok {pending : MfaPending}
    (h : (createMfaPending c pending).run s = .ok token s') :
    ∃ deadline, s'.cache.mfaPending.entry token = some (pending, deadline) := by
  simp only [createMfaPending, Handler.run_store_bind, Handler.run_pure_ok] at h
  obtain ⟨rfl, rfl⟩ := h
  exact ⟨_, Function.update_self ..⟩

/-- A login that asks for a second stage leaves a value of the kind that it announces. -/
theorem loginVerified_pending
    (h : (loginVerified c user deviceToken userAgent ipAddress).run s =
      .ok (.mfaRequired token setup) s') :
    ∃ deadline, s'.cache.mfaPending.entry token =
      some (if setup then .setupRequired user.id else .plain user.id, deadline) := by
  rw [loginVerified, Handler.run_query_bind] at h
  split at h
  · obtain ⟨_, _, hPending, hReturn⟩ := Handler.run_bind_ok.mp h
    obtain ⟨hResult, rfl⟩ := Handler.run_pure_ok.mp hReturn
    cases hResult
    exact createMfaPending_ok hPending
  · split at h
    · obtain ⟨trusted, _, -, h⟩ := Handler.run_bind_ok.mp h
      split at h
      · obtain ⟨_, _, -, hReturn⟩ := Handler.run_bind_ok.mp h
        cases (Handler.run_pure_ok.mp hReturn).1
      · obtain ⟨_, _, hPending, hReturn⟩ := Handler.run_bind_ok.mp h
        obtain ⟨hResult, rfl⟩ := Handler.run_pure_ok.mp hReturn
        cases hResult
        exact createMfaPending_ok hPending
    · obtain ⟨_, _, -, hReturn⟩ := Handler.run_bind_ok.mp h
      cases (Handler.run_pure_ok.mp hReturn).1

end Login

end WxcodeAdm
