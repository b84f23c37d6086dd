import WxcodeAdm.Common.Crypto
import WxcodeAdm.Common.UuidText
import WxcodeAdm.Lib.Fernet

/-! `set_claude_token` of `admin/service.py`: the Claude token of a tenant, encrypted in a column of
2048 characters. -/

namespace WxcodeAdm

open Lib

/-- `ClaudeTokenRequest`, with the lengths that its schema asks of the texts. -/
structure ClaudeTokenRequest where
  token : String
  reason : String
  tokenLength : 1 ≤ token.length ∧ token.length ≤ 4096
  reasonLength : 1 ≤ reason.length ∧ reason.length ≤ 500

/-- A row of `tenants` with its `claude_oauth_token`. -/
structure ClaudeTenant where
  row : Tenant
  claudeOauthToken : Option String := none
  deriving DecidableEq

/-- What `write_audit` is called with; the details are the reason. -/
structure AuditEntry where
  action : String
  resourceType : String
  actorId : Uuid
  resourceId : String
  reason : String
  deriving DecidableEq

structure ClaudeStore where
  tenants : List ClaudeTenant
  auditLog : List AuditEntry
  deriving DecidableEq

/-- The width of `Tenant.claude_oauth_token`. -/
def claudeTokenWidth : Nat := 2048

/-- A text goes into a `VARCHAR` column, or the flush raises. -/
def fitColumn (width : Nat) (text : String) : Except PyError String :=
  if text.length ≤ width then .ok text else .error (.other "DBAPIError")

/-- A reason goes into the JSONB column of the details, or the flush raises. -/
def fitDetails (reason : String) : Except PyError String :=
  if (Json.obj [("reason", .str reason)]).fitsJsonb then .ok reason
  else .error (.other "DBAPIError")

def setClaudeToken (lib : Cryptography) (rawKey : String) (now : Nat) (iv : List UInt8)
    (tenantId : Uuid) (request : ClaudeTokenRequest) (actorId : Uuid) (store : ClaudeStore) :
    Except PyError ClaudeStore := do
  if store.tenants.any fun t => t.row.id = tenantId then
    let encrypted ← encryptValue lib rawKey now iv request.token
    let stored ← fitColumn claudeTokenWidth encrypted
    let reason ← fitDetails request.reason
    return {
      tenants := store.tenants.map fun t =>
        if t.row.id = tenantId then { t with claudeOauthToken := some stored } else t
      auditLog := store.auditLog ++
        [⟨"set_claude_token", "tenant", actorId, tenantId.text, reason⟩] }
  else .error (.notFound "TENANT_NOT_FOUND" "Tenant not found")

/-- The package encrypts by the specification. -/
def Cryptography.IsFernet (lib : Cryptography) (prim : Fernet.Primitives) : Prop :=
  ∀ key now iv data, lib.fernetEncrypt key now iv data =
    Fernet.encrypt prim key iv data.data.toList (timestamp now)

variable {lib : Cryptography} {prim : Fernet.Primitives} {rawKey text stored : String}
  {now : Nat} {iv : List UInt8}

/-- The length of an encrypted text. -/
theorem length_encryptValue (hFernet : lib.IsFernet prim) (hPrim : prim.Lawful)
    (hIv : iv.length = 16) (h : encryptValue lib rawKey now iv text = .ok stored) :
    stored.length = Fernet.tokenLength text.utf8ByteSize := by
  unfold encryptValue at h
  cases hKey : getFernet lib rawKey with
  | error error => rw [hKey] at h; cases h
  | ok key =>
    rw [hKey] at h
    obtain rfl := Except.ok.inj h
    rw [hFernet, Fernet.length_encrypt hPrim hIv]
    rfl

/-- PostgreSQL takes every reason but one with a U+0000. -/
theorem fitDetails_eq (reason : String) : fitDetails reason =
    if Char.ofNat 0 ∉ reason.toList then .ok reason else .error (.other "DBAPIError") := by
  simp [fitDetails, Json.fitsJsonb, Json.fieldsFitJsonb]

/-- A tenant that is there, and a token that has been encrypted: whether it is stored is decided by
the width of the column and by what the details take. -/
theorem setClaudeToken_ok_iff {tenantId actorId : Uuid} {request : ClaudeTokenRequest}
    {store : ClaudeStore} (hTenant : ∃ t ∈ store.tenants, t.row.id = tenantId)
    (h : encryptValue lib rawKey now iv request.token = .ok stored) :
    (∃ after, setClaudeToken lib rawKey now iv tenantId request actorId store = .ok after) ↔
      stored.length ≤ claudeTokenWidth ∧ Char.ofNat 0 ∉ request.reason.toList := by
  have hAny : (store.tenants.any fun t => t.row.id = tenantId) = true := by simpa using hTenant
  rw [setClaudeToken, if_pos hAny, h]
  simp only [bind, Except.bind, fitColumn, fitDetails_eq]
  by_cases hFits : stored.length ≤ claudeTokenWidth
  · rw [if_pos hFits]
    by_cases hReason : Char.ofNat 0 ∉ request.reason.toList
    · rw [if_pos hReason]
      exact iff_of_true ⟨_, rfl⟩ ⟨hFits, hReason⟩
    · rw [if_neg hReason]
      exact iff_of_false (fun ⟨_, h⟩ => by cases h) fun h => hReason h.2
  · rw [if_neg hFits]
    exact iff_of_false (fun ⟨_, h⟩ => by cases h) fun h => hFits h.1

end WxcodeAdm
