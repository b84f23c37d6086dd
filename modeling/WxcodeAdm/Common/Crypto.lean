import WxcodeAdm.Json
import WxcodeAdm.Lib.Base64

/-! `common/crypto.py`: values encrypted under a setting that is a Fernet key, or a passphrase that
one is derived from. -/

namespace WxcodeAdm

open Lib

/-- `hashlib.sha256(..).digest()`, and `Fernet` with a key of 32 bytes.  A token is ASCII text, and
depends on the time and on a random vector. -/
structure Cryptography where
  sha256Digest : ByteArray → List UInt8
  fernetEncrypt : List UInt8 → Nat → List UInt8 → ByteArray → String
  fernetDecrypt : List UInt8 → String → Except PyError ByteArray

/-- What the two packages document. -/
structure Cryptography.Lawful (lib : Cryptography) : Prop where
  digest : ∀ text, (lib.sha256Digest text).length = 32
  decrypt : ∀ key now iv data, key.length = 32 →
    lib.fernetDecrypt key (lib.fernetEncrypt key now iv data) = .ok data

def isAscii (ch : Char) : Bool := ch.toNat < 128

/-- `base64.urlsafe_b64decode` of a `str`. -/
def urlsafeB64decode (text : List Char) : Except PyError (List UInt8) :=
  if text.all isAscii then
    match Base64.decode text with
    | some bytes => .ok bytes
    | none => .error (.other "Error")
  else .error (.other "ValueError")

/-- `Fernet(key)`, which decodes the key itself. -/
def fernet (key : List Char) : Except PyError (List UInt8) :=
  match Base64.decode key with
  | some bytes => if bytes.length = 32 then .ok bytes else .error (.other "ValueError")
  | none => .error (.other "ValueError")

/-- `is_valid_fernet_key`: the key is decoded with two more characters of padding. -/
def isValidFernetKey (rawKey : String) : Bool :=
  rawKey.length = 44 &&
    match urlsafeB64decode (rawKey.toList ++ ['=', '=']) with
    | .ok decoded => decoded.length = 32
    | .error _ => false

/-- `bytes.decode("utf-8")` -/
def decodeUtf8 (bytes : ByteArray) : Except PyError String :=
  match String.fromUTF8? bytes with
  | some text => .ok text
  | none => .error (.other "UnicodeDecodeError")

variable (lib : Cryptography)

def getFernet (rawKey : String) : Except PyError (List UInt8) :=
  if isValidFernetKey rawKey then fernet rawKey.toList
  else fernet (Base64.encode (lib.sha256Digest rawKey.toUTF8))

def encryptValue (rawKey : String) (now : Nat) (iv : List UInt8) (plaintext : String) :
    Except PyError String := do
  let key ← getFernet lib rawKey
  return lib.fernetEncrypt key now iv plaintext.toUTF8

def decryptValue (rawKey ciphertext : String) : Except PyError String := do
  let key ← getFernet lib rawKey
  let bytes ← lib.fernetDecrypt key ciphertext
  decodeUtf8 bytes

variable {lib} {key : List Char} {bytes : List UInt8}

theorem fernet_ok : fernet key = .ok bytes ↔ Base64.decode key = some bytes ∧ bytes.length = 32 := by
  unfold fernet
  cases Base64.decode key with
  | none => simp
  | some decoded =>
    by_cases hLength : decoded.length = 32
    · simp only [if_pos hLength, Except.ok.injEq, Option.some.injEq]
      exact ⟨fun h => ⟨h, h ▸ hLength⟩, fun h => h.1⟩
    · simp only [if_neg hLength, Option.some.injEq, reduceCtorEq, false_iff, not_and]
      exact fun h => h ▸ hLength

/-- A key that is derived from a passphrase is a Fernet key. -/
theorem fernet_derived (hLib : lib.Lawful) (text : ByteArray) :
    fernet (Base64.encode (lib.sha256Digest text)) = .ok (lib.sha256Digest text) :=
  fernet_ok.mpr ⟨Base64.decode_encode _, hLib.digest text⟩

theorem isValidFernetKey_iff {rawKey : String} :
    isValidFernetKey rawKey = true ↔ rawKey.length = 44 ∧ rawKey.toList.all isAscii = true ∧
      ∃ decoded, Base64.decode (rawKey.toList ++ ['=', '=']) = some decoded ∧
        decoded.length = 32 := by
  have hPads : (rawKey.toList ++ ['=', '=']).all isAscii = rawKey.toList.all isAscii := by
    rw [List.all_append, show ['=', '='].all isAscii = true from rfl, Bool.and_true]
  simp only [isValidFernetKey, urlsafeB64decode, hPads, Bool.and_eq_true, decide_eq_true_eq]
  refine and_congr_right fun _ => ?_
  cases rawKey.toList.all isAscii with
  | false => simp
  | true => cases Base64.decode (rawKey.toList ++ ['=', '=']) <;> simp

theorem decodeUtf8_toUTF8 (text : String) : decodeUtf8 text.toUTF8 = .ok text := by
  have hText : String.fromUTF8? text.toUTF8 = some text := dif_pos text.isValidUTF8
  rw [decodeUtf8, hText]

/-- Where there is a Fernet key, what is encrypted is decrypted. -/
theorem decrypt_encrypt (hLib : lib.Lawful) {rawKey : String} (hKey : getFernet lib rawKey = .ok bytes)
    (now : Nat) (iv : List UInt8) (plaintext : String) :
    ∃ token, encryptValue lib rawKey now iv plaintext = .ok token ∧
      decryptValue lib rawKey token = .ok plaintext := by
  have hLength : bytes.length = 32 := by
    unfold getFernet at hKey
    split at hKey
    · exact (fernet_ok.mp hKey).2
    · exact (fernet_ok.mp hKey).2
  have hEncrypt : encryptValue lib rawKey now iv plaintext =
      .ok (lib.fernetEncrypt bytes now iv plaintext.toUTF8) := by
    rw [encryptValue, hKey]
    rfl
  refine ⟨_, hEncrypt, ?_⟩
  have hDecrypted := hLib.decrypt bytes now iv plaintext.toUTF8 hLength
  have hRun : decryptValue lib rawKey (lib.fernetEncrypt bytes now iv plaintext.toUTF8) =
      lib.fernetDecrypt bytes (lib.fernetEncrypt bytes now iv plaintext.toUTF8) >>= decodeUtf8 := by
    rw [decryptValue, hKey]
    rfl
  rw [hRun, hDecrypted]
  exact decodeUtf8_toUTF8 plaintext

end WxcodeAdm
