import Mathlib.Algebra.GroupWithZero.Nat
import WxcodeAdm.Lib.Base64

/-! Fernet tokens by their specification: a version, the time, the vector, the padded and encrypted
data, and a code over all of it, as URL-safe base64. -/

namespace WxcodeAdm.Lib.Fernet

/-- AES-128 in CBC mode, which takes a key, a vector and whole blocks, and HMAC-SHA256. -/
structure Primitives where
  encryptBlocks : List UInt8 → List UInt8 → List UInt8 → List UInt8
  hmac : List UInt8 → List UInt8 → List UInt8

structure Primitives.Lawful (prim : Primitives) : Prop where
  blocks : ∀ key iv data, data.length % 16 = 0 →
    (prim.encryptBlocks key iv data).length = data.length
  code : ∀ key data, (prim.hmac key data).length = 32

/-- The padding of PKCS #7: whole blocks, of which the last is never full of data. -/
def pad (data : List UInt8) : List UInt8 :=
  let n := 16 - data.length % 16
  data ++ List.replicate n (.ofNat n)

/-- A time in seconds, as 64 bits. -/
def timeBytes (time : Nat) : List UInt8 :=
  (List.range 8).reverse.map fun i => .ofNat (time / 256 ^ i)

/-- The bytes that the code is over. -/
def body (prim : Primitives) (key iv data : List UInt8) (time : Nat) : List UInt8 :=
  0x80 :: (timeBytes time ++ (iv ++ prim.encryptBlocks (key.drop 16) iv (pad data)))

/-- The key is one for signing and one for encryption, of 16 bytes each. -/
def encrypt (prim : Primitives) (key iv data : List UInt8) (time : Nat) : String :=
  let signed := body prim key iv data time
  .ofList (Base64.encode (signed ++ prim.hmac (key.take 16) signed))

/-- The length of a token for so many bytes of data. -/
def tokenLength (n : Nat) : Nat := 4 * ((57 + 16 * (n / 16 + 1) + 2) / 3)

theorem length_pad (data : List UInt8) : (pad data).length = 16 * (data.length / 16 + 1) := by
  rw [pad, List.length_append, List.length_replicate]
  omega

theorem length_encrypt {prim : Primitives} (hPrim : prim.Lawful) {iv : List UInt8}
    (hIv : iv.length = 16) (key data : List UInt8) (time : Nat) :
    (encrypt prim key iv data time).length = tokenLength data.length := by
  have hBlocks : (prim.encryptBlocks (key.drop 16) iv (pad data)).length =
      16 * (data.length / 16 + 1) := by
    rw [hPrim.blocks _ _ _ (by rw [length_pad]; omega), length_pad]
  have hTime : (timeBytes time).length = 8 := by rw [timeBytes, List.length_map]; rfl
  simp only [encrypt, String.length_ofList, Base64.length_encode, List.length_append, hPrim.code,
    body, List.length_cons, hTime, hIv, hBlocks, tokenLength]
  omega

end WxcodeAdm.Lib.Fernet
