import WxcodeAdm.Admin.ClaudeToken
import WxcodeAdm.Billing.Facts
import WxcodeAdm.Guarantees.SecretStorage

/-! Whether an accepted Claude token fits its column.  The schema bounds the characters of the token,
and the column those of its encryption, which is a third longer than the padded UTF-8. -/

namespace WxcodeAdm

open Lib

variable {lib : Cryptography} {prim : Fernet.Primitives} {rawKey stored : String} {now : Nat}
  {iv : List UInt8} {store : ClaudeStore} {tenantId : Uuid}

/-- The column has room for 92 blocks of data. -/
theorem tokenLength_fits_iff (n : Nat) : Fernet.tokenLength n ≤ claudeTokenWidth ↔ n < 1472 := by
  rw [Fernet.tokenLength, claudeTokenWidth]
  omega

/-- The encryption of an accepted token fits the column, so that it is stored for every reason that
the details take, exactly when the token has fewer than 1472 bytes. -/
theorem claude_token_fits_iff (hFernet : lib.IsFernet prim) (hPrim : prim.Lawful)
    (hIv : iv.length = 16) (hTenant : ∃ t ∈ store.tenants, t.row.id = tenantId)
    (request : ClaudeTokenRequest)
    (hStored : encryptValue lib rawKey now iv request.token = .ok stored) (actorId : Uuid) :
    (stored.length = Fernet.tokenLength request.token.utf8ByteSize ∧
        stored.length ≤ claudeTokenWidth ∧
        ((∃ after, setClaudeToken lib rawKey now iv tenantId request actorId store = .ok after) ↔
          Char.ofNat 0 ∉ request.reason.toList)) ↔
      request.token.utf8ByteSize < 1472 := by
  have hLength := length_encryptValue hFernet hPrim hIv hStored
  rw [setClaudeToken_ok_iff hTenant hStored, and_iff_right hLength, ← tokenLength_fits_iff, ← hLength]
  exact ⟨fun h => h.1, fun hFits => ⟨hFits, and_iff_right hFits⟩⟩

/-! ### A token of 1472 letters -/

/-- A stand-in for the ciphers, which leaves the blocks as they are. -/
def samplePrimitives : Fernet.Primitives where
  encryptBlocks := fun _ _ data => data
  hmac := fun _ _ => List.replicate 32 0

theorem samplePrimitives_lawful : samplePrimitives.Lawful :=
  ⟨fun _ _ _ _ => rfl, fun _ _ => List.length_replicate⟩

def sampleFernet : Cryptography :=
  { sampleCryptography with
    fernetEncrypt := fun key now iv data =>
      Fernet.encrypt samplePrimitives key iv data.data.toList (timestamp now) }

theorem sampleFernet_isFernet : sampleFernet.IsFernet samplePrimitives := fun _ _ _ _ => rfl

def letters (n : Nat) : String := .ofList (List.replicate n 'a')

theorem letters_size (n : Nat) : (letters n).utf8ByteSize = n := by
  induction n with
  | zero => rfl
  | succ n ih =>
    have hStep : letters (n + 1) = "a" ++ letters n := by
      rw [letters, List.replicate_succ, ← List.singleton_append, String.ofList_append]
      rfl
    rw [hStep, String.utf8ByteSize_append, ih, Nat.add_comm]
    rfl

def lettersRequest (n : Nat) (h : 1 ≤ n ∧ n ≤ 4096) : ClaudeTokenRequest where
  token := letters n
  reason := "rotation"
  tokenLength := by rwa [letters, String.length_ofList, List.length_replicate]
  reasonLength := by decide

def acmeStore : ClaudeStore := ⟨[{ row := billingTenant }], []⟩

/-- The default passphrase encrypts every text. -/
theorem default_encrypts (text : String) : ∃ stored,
    encryptValue sampleFernet "change-me-in-production" 0 (List.replicate 16 0) text = .ok stored := by
  have hKey : getFernet sampleFernet "change-me-in-production" =
      fernet (Base64.encode (sampleFernet.sha256Digest "change-me-in-production".toUTF8)) :=
    if_neg (by decide +kernel)
  have hDerived : fernet (Base64.encode (sampleFernet.sha256Digest
      "change-me-in-production".toUTF8)) = .ok _ := fernet_ok.mpr ⟨Base64.decode_encode _, rfl⟩
  exact ⟨_, by rw [encryptValue, hKey, hDerived]; rfl⟩

/-- The law for a token of 1471 letters, the longest that fits. -/
theorem claude_token_fits_1471 : ∃ stored,
    encryptValue sampleFernet "change-me-in-production" 0 (List.replicate 16 0) (letters 1471) =
        .ok stored ∧ stored.length ≤ claudeTokenWidth := by
  obtain ⟨stored, hStored⟩ := default_encrypts (letters 1471)
  have hTenant : ∃ t ∈ acmeStore.tenants, t.row.id = ⟨7⟩ := ⟨_, List.mem_cons_self, rfl⟩
  have hFits := claude_token_fits_iff sampleFernet_isFernet samplePrimitives_lawful
    List.length_replicate hTenant (lettersRequest 1471 (by decide)) hStored ⟨1⟩
  exact ⟨stored, hStored, (hFits.mpr (by rw [lettersRequest, letters_size]; decide)).2.1⟩

/-- A token of 1472 letters is accepted, and its encryption has 2060 characters. -/
theorem claude_token_overflows :
    ¬∀ (lib : Cryptography) (prim : Fernet.Primitives), lib.IsFernet prim → prim.Lawful →
      ∀ (rawKey : String) (now : Nat) (iv : List UInt8), iv.length = 16 →
      ∀ (request : ClaudeTokenRequest) (stored : String),
        encryptValue lib rawKey now iv request.token = .ok stored →
        stored.length ≤ claudeTokenWidth := by
  intro hClaim
  obtain ⟨stored, hStored⟩ := default_encrypts (letters 1472)
  have hFits := hClaim sampleFernet samplePrimitives sampleFernet_isFernet samplePrimitives_lawful
    "change-me-in-production" 0 (List.replicate 16 0) List.length_replicate
    (lettersRequest 1472 (by decide)) stored hStored
  rw [length_encryptValue sampleFernet_isFernet samplePrimitives_lawful List.length_replicate
    hStored, letters_size] at hFits
  exact absurd hFits (by decide)

end WxcodeAdm
