import WxcodeAdm.Common.Crypto

/-! Secrets under every key.  `_get_fernet` takes a key of 44 characters for a Fernet key when it
decodes to 32 bytes with two more characters of padding, and `Fernet` decodes it without them, so
the two disagree on 43 characters of data and one that ends no quad. -/

namespace WxcodeAdm

open Lib Lib.Base64

/-- A key of 44 ASCII characters, of which 43 are in the alphabet and the other is no padding where
padding would end a quad. -/
def StrayKey (rawKey : String) : Prop :=
  rawKey.length = 44 ∧ rawKey.toList.all isAscii = true ∧ rawKey.toList.countP isData = 43 ∧
    ∀ i < 44, rawKey.toList[i]? = some '=' → i % 4 ≠ 3

instance (rawKey : String) : Decidable (StrayKey rawKey) :=
  inferInstanceAs (Decidable (_ ∧ _ ∧ _ ∧ _))

variable {lib : Cryptography} {rawKey : String} {text : List Char}

theorem start_open : ({} : Quad).Open := ⟨by decide, by decide⟩

/-- The padded text decodes to 32 bytes and the text itself does not, exactly when the text has 43
characters of data and the decoder reads all of it. -/
theorem padding_decides_iff (text : List Char) :
    ((∃ bytes, decode (text ++ ['=', '=']) = some bytes ∧ bytes.length = 32) ∧
        ¬∃ bytes, decode text = some bytes ∧ bytes.length = 32) ↔
      (({} : Quad).read text).isSome = true ∧ text.countP isData = 43 := by
  cases hRead : ({} : Quad).read text with
  | none =>
    have hSame : decode (text ++ ['=', '=']) = decode text := decodeFrom_append_of_ended hRead
    rw [hSame]
    simp
  | some p =>
    obtain ⟨q, out⟩ := p
    obtain ⟨⟨hPos, -⟩, hCount, hBits⟩ := Quad.read_takes start_open hRead
    dsimp only at hCount hBits
    have hPadded : decode (text ++ ['=', '=']) = if q.pos = 1 then none else some out :=
      decodeFrom_pads_of_read start_open hRead
    have hPlain : decode text = if q.pos = 0 then some out else none := decodeFrom_of_read hRead
    rw [hPadded, hPlain]
    constructor
    · rintro ⟨⟨bytes, hBytes, hLength⟩, -⟩
      split at hBytes
      · cases hBytes
      · cases hBytes
        exact ⟨rfl, by omega⟩
    · rintro ⟨-, hData⟩
      have hThree : q.pos = 3 := by omega
      refine ⟨⟨out, if_neg (by omega), by omega⟩, ?_⟩
      rintro ⟨bytes, hBytes, -⟩
      rw [if_neg (by omega)] at hBytes
      cases hBytes

/-- With one other character the decoder reads the whole text, unless that is padding which ends a
quad. -/
theorem read_of_stray {pre post : List Char} {ch : Char} (hPre : ∀ x ∈ pre, isData x = true)
    (hPost : ∀ x ∈ post, isData x = true) (hStray : isData ch = false) :
    (({} : Quad).read (pre ++ ch :: post)).isSome = true ↔ ¬(ch = '=' ∧ pre.length % 4 = 3) := by
  obtain ⟨q, out, hRead, hPads⟩ := Quad.read_data {} hPre
  have hPads : q.pads = 0 := hPads rfl
  obtain ⟨⟨hPos, -⟩, hCount, -⟩ := Quad.read_takes start_open hRead
  rw [List.countP_eq_length.mpr hPre] at hCount
  dsimp only at hCount
  rw [Quad.read_append, hRead, Option.bind_some, Option.isSome_map, Quad.read]
  have hRest (p : Quad × List UInt8) :
      ((p.1.read post).map fun r => (r.1, p.2 ++ r.2)).isSome = true := by
    obtain ⟨q', more, hPostRead, -⟩ := Quad.read_data p.1 hPost
    rw [hPostRead]
    rfl
  cases hStep : q.step ch with
  | none =>
    refine iff_of_false (by simp) (not_not.mpr ?_)
    unfold Quad.step at hStep
    split at hStep
    · rename_i hPad
      refine ⟨hPad, ?_⟩
      split at hStep
      · split at hStep
        · omega
        · cases hStep
      · cases hStep
    · split at hStep <;> cases hStep
  | some p =>
    refine iff_of_true (hRest p) ?_
    rintro ⟨rfl, hEnds⟩
    rw [Quad.step, if_pos rfl, if_pos (by omega), if_pos (by omega)] at hStep
    cases hStep

/-- A text with one other character, taken apart at it. -/
theorem exists_stray (h : text.countP isData + 1 = text.length) :
    ∃ pre ch post, text = pre ++ ch :: post ∧ (∀ x ∈ pre, isData x = true) ∧
      isData ch = false ∧ ∀ x ∈ post, isData x = true := by
  have hOne : (text.filter fun ch => !isData ch).length = 1 := by
    have hSplit := List.length_eq_countP_add_countP isData (l := text)
    rw [← List.countP_eq_length_filter]
    simp only [Bool.not_eq_true, Bool.decide_eq_false] at hSplit
    omega
  obtain ⟨ch, hFilter⟩ := List.length_eq_one_iff.mp hOne
  obtain ⟨pre, post, hText, hPre, hStray, hPost⟩ := List.filter_eq_cons_iff.mp hFilter
  refine ⟨pre, ch, post, hText, fun x hx => by simpa using hPre x hx, by simpa using hStray, ?_⟩
  exact fun x hx => by simpa using List.filter_eq_nil_iff.mp hPost x hx

theorem read_iff_of_stray (hLength : text.length = 44) (hCount : text.countP isData = 43) :
    (({} : Quad).read text).isSome = true ↔ ∀ i < 44, text[i]? = some '=' → i % 4 ≠ 3 := by
  have hOther : text.countP isData + 1 = text.length := by omega
  obtain ⟨pre, ch, post, rfl, hPre, hStray, hPost⟩ := exists_stray hOther
  rw [read_of_stray hPre hPost hStray]
  constructor
  · intro hNot i hi hPad hEnds
    rcases Nat.lt_trichotomy i pre.length with hLt | rfl | hGt
    · rw [List.getElem?_append_left hLt] at hPad
      exact isData_ne_pad (hPre _ (List.mem_of_getElem? hPad)) rfl
    · rw [List.getElem?_append_right (Nat.le_refl _), Nat.sub_self] at hPad
      exact hNot ⟨Option.some.inj hPad, hEnds⟩
    · rw [List.getElem?_append_right (by omega)] at hPad
      obtain ⟨k, hk⟩ : ∃ k, i - pre.length = k + 1 := ⟨i - pre.length - 1, by omega⟩
      rw [hk, List.getElem?_cons_succ] at hPad
      exact isData_ne_pad (hPost _ (List.mem_of_getElem? hPad)) rfl
  · rintro hNone ⟨rfl, hEnds⟩
    refine hNone pre.length ?_ (by simp) hEnds
    rw [List.length_append, List.length_cons] at hLength
    omega

/-- `_get_fernet` raises exactly for the stray keys. -/
theorem getFernet_ok_iff (hLib : lib.Lawful) :
    (∃ key, getFernet lib rawKey = .ok key) ↔ ¬StrayKey rawKey := by
  unfold getFernet
  by_cases hValid : isValidFernetKey rawKey = true
  · rw [if_pos hValid]
    obtain ⟨hLength, hAscii, hPadded⟩ := isValidFernetKey_iff.mp hValid
    have hChars : rawKey.toList.length = 44 := by rwa [String.length_toList]
    have hDecides := padding_decides_iff rawKey.toList
    rw [and_iff_right hPadded] at hDecides
    simp only [fernet_ok]
    rw [← not_iff_not, not_not, hDecides]
    constructor
    · rintro ⟨hRead, hCount⟩
      exact ⟨hLength, hAscii, hCount, (read_iff_of_stray hChars hCount).mp hRead⟩
    · rintro ⟨-, -, hCount, hPads⟩
      exact ⟨(read_iff_of_stray hChars hCount).mpr hPads, hCount⟩
  · rw [if_neg hValid]
    refine iff_of_true ⟨_, fernet_derived hLib _⟩ ?_
    rintro ⟨hLength, hAscii, hCount, hPads⟩
    have hChars : rawKey.toList.length = 44 := by rwa [String.length_toList]
    have hRead := (read_iff_of_stray hChars hCount).mpr hPads
    exact hValid (isValidFernetKey_iff.mpr
      ⟨hLength, hAscii, ((padding_decides_iff _).mpr ⟨hRead, hCount⟩).1⟩)

/-- No key is read from a stray one, so nothing is encrypted under it. -/
theorem not_stray_of_encrypted (hLib : lib.Lawful) {now : Nat} {iv : List UInt8}
    {plaintext token : String} (hEncrypt : encryptValue lib rawKey now iv plaintext = .ok token) :
    ¬StrayKey rawKey := by
  refine (getFernet_ok_iff hLib).mp ?_
  unfold encryptValue at hEncrypt
  cases hKey : getFernet lib rawKey with
  | ok key => exact ⟨key, rfl⟩
  | error error =>
    rw [hKey] at hEncrypt
    cases hEncrypt

/-- A secret makes the round trip under a key exactly when the key is not a stray one. -/
theorem secret_round_trip_iff (hLib : lib.Lawful) (rawKey : String) (now : Nat) (iv : List UInt8)
    (plaintext : String) :
    (∃ token, encryptValue lib rawKey now iv plaintext = .ok token ∧
        decryptValue lib rawKey token = .ok plaintext) ↔ ¬StrayKey rawKey := by
  constructor
  · rintro ⟨token, hEncrypt, -⟩
    exact not_stray_of_encrypted hLib hEncrypt
  · intro hKey
    obtain ⟨key, hRead⟩ := (getFernet_ok_iff hLib).mpr hKey
    exact decrypt_encrypt hLib hRead now iv plaintext

/-! ### A key without its padding -/

/-- A stand-in for Fernet, whose tokens name the key, with the digest of the default passphrase. -/
def sampleCryptography : Cryptography where
  sha256Digest := fun _ =>
    [146, 128, 154, 182, 4, 201, 55, 114, 133, 251, 188, 248, 44, 79, 48, 219, 101, 241, 7, 236,
      253, 114, 23, 199, 230, 44, 23, 162, 179, 190, 118, 51]
  fernetEncrypt := fun key _ _ data => .ofList (encode (key ++ data.data.toList))
  fernetDecrypt := fun key token =>
    match decode token.toList with
    | some bytes =>
      if bytes.take 32 = key then .ok ⟨(bytes.drop 32).toArray⟩ else .error (.other "InvalidToken")
    | none => .error (.other "InvalidToken")

theorem sampleCryptography_lawful : sampleCryptography.Lawful where
  digest := fun _ => rfl
  decrypt := fun key now iv data hKey => by
    simp only [sampleCryptography, String.toList_ofList, decode_encode]
    rw [← hKey, List.take_left, if_pos rfl, List.drop_left]

def strayKey : String := "AAAAAAAAAAAAAAAAAAAAAAAAAAAAAAAAAAAAAAAAAAA!"

/-- 43 characters of a Fernet key and one other: `encrypt_value` raises. -/
theorem stray_key_raises :
    ¬∀ lib : Cryptography, lib.Lawful → ∀ (rawKey : String) (now : Nat) (iv : List UInt8)
      (plaintext : String), ∃ token, encryptValue lib rawKey now iv plaintext = .ok token ∧
        decryptValue lib rawKey token = .ok plaintext := by
  intro hClaim
  obtain ⟨token, hEncrypt, -⟩ :=
    hClaim sampleCryptography sampleCryptography_lawful strayKey 0 [] "secret"
  exact absurd (by decide +kernel) (not_stray_of_encrypted sampleCryptography_lawful hEncrypt)

theorem secret_round_trip_iff_default :
    (∃ token, encryptValue sampleCryptography "change-me-in-production" 0 [] "secret" = .ok token ∧
        decryptValue sampleCryptography "change-me-in-production" token = .ok "secret") ↔
      ¬StrayKey "change-me-in-production" :=
  secret_round_trip_iff sampleCryptography_lawful _ 0 [] "secret"

end WxcodeAdm
