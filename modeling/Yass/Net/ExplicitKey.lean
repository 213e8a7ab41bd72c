import Yass.Net.Cipher

/-!
# A cipher with an explicit key

The key is given as base64. `EVP_DecodeBase64` returns `1` and stores the length of what it has
decoded; `parse_key` assigns what it returns to the variable in which the length is stored, and
compares this with the key size.

* `keyless` — a cipher without a master key, whose subkey stays zero.

Source: `net/cipher.cpp`, `cipher_impl::parse_key`, `cipher::cipher`.
-/

namespace Yass.Net.Cipher

open Yass.Crypto

/-- `EVP_DecodedLength`. -/
def decodedLength (length : ℕ) : Option ℕ := if length % 4 = 0 then some (length / 4 * 3) else none

/-- Four characters stand for at most three bytes; `none` is a text that is refused. -/
structure Base64 where
  decode : List UInt8 → Option (List UInt8)
  fits : ∀ text out, decode text = some out →
    ∃ maxOut, decodedLength text.length = some maxOut ∧ out.length ≤ maxOut

variable (B : Base64)

/-- `EVP_DecodeBase64`: what it returns, the length it stores, and the bytes it writes. -/
def evpDecodeBase64 (text : List UInt8) : ℕ × ℕ × List UInt8 :=
  match B.decode text with
  | none => (0, 0, [])
  | some out => (1, out.length, out)

/-- `parse_key`: the length it returns, and what it has written to the key. -/
def parseKey (key : List UInt8) (skeyLen : ℕ) : ℕ × List UInt8 :=
  match decodedLength key.length with
  | none => (0, [])
  | some outLen =>
    let zeros := List.replicate outLen 0
    -- the length that is stored is overwritten
    let (outLen, _, written) := evpDecodeBase64 B key
    let out := written ++ zeros.drop written.length
    if 0 < outLen ∧ skeyLen ≤ outLen then (skeyLen, out.take skeyLen) else (0, [])

/-- `cipher::cipher`. -/
def construct (E : CipherEnv) (method : CipherMethod) (key password : List UInt8) : Cipher :=
  if key.isEmpty then create E method password
  else
    let (keyLen, bytes) := parseKey B key method.keySize
    { create E method password with key := bytes, keyLen := keyLen }

def keyless (E : CipherEnv) (method : CipherMethod) : Cipher :=
  { create E method [] with key := [], keyLen := 0 }

variable {B}

lemma parseKey_of_decode {key decoded : List UInt8} {skeyLen : ℕ} (h : B.decode key = some decoded)
    (hlong : skeyLen ≤ decoded.length) :
    parseKey B key skeyLen = if skeyLen ≤ 1 then (skeyLen, decoded.take skeyLen) else (0, []) := by
  obtain ⟨maxOut, hmax, -⟩ := B.fits key decoded h
  simp only [parseKey, hmax, evpDecodeBase64, h, Nat.one_pos, true_and,
    List.take_append_of_le_length hlong]

lemma one_lt_keySize (method : CipherMethod) : 1 < method.keySize := by
  cases method <;> decide

lemma construct_eq_keyless (E : CipherEnv) (method : CipherMethod) {key decoded : List UInt8}
    (password : List UInt8) (h : B.decode key = some decoded)
    (hlong : method.keySize ≤ decoded.length) :
    construct B E method key password = keyless E method := by
  have hsize := one_lt_keySize method
  have hne : ¬ key.isEmpty = true := fun hempty => by
    obtain ⟨maxOut, hmax, hle⟩ := B.fits key decoded h
    rw [List.isEmpty_iff.mp hempty] at hmax
    obtain rfl : 0 = maxOut := Option.some.inj hmax
    omega
  rw [construct, if_neg hne, parseKey_of_decode h hlong, if_neg (by omega)]
  rfl

lemma processBytes_keyless (E : CipherEnv) {method : CipherMethod}
    (hstream : method.isStream) (reply : List (List UInt8) → Bool) {buf : GrowableIOBuffer}
    (hshort : buf.size < method.nonceSize) :
    processBytes E reply (keyless E method) [] buf = none := by
  have hle := buf.offset_le
  have hrange : ¬ buf.offset + method.nonceSize ≤ buf.capacity := by
    unfold GrowableIOBuffer.size at hshort
    omega
  simp [processBytes, rebuildChunk, decryptSalt, keyless, create, hstream,
    GrowableIOBuffer.setOffset, hrange]

/-- **Explicit keys.** Of a text that decodes to at least as many bytes as the key has, the key is
taken exactly if it has at most one byte. As no method has such a key, the cipher is the same for
every text; and a decoder of a stream method aborts if the nonce does not come at once. -/
theorem explicit_key_iff (B : Base64) (E : CipherEnv) (method : CipherMethod)
    (key password decoded : List UInt8) (h : B.decode key = some decoded)
    (hlong : method.keySize ≤ decoded.length) :
    ((construct B E method key password).keyLen = method.keySize ∧
      (construct B E method key password).key = decoded.take method.keySize ↔
        method.keySize ≤ 1) ∧
    construct B E method key password = keyless E method ∧
    (method.isStream = true → ∀ reply buf, buf.size < method.nonceSize →
      processBytes E reply (construct B E method key password) [] buf = none) := by
  have hsize := one_lt_keySize method
  rw [construct_eq_keyless E method password h hlong]
  refine ⟨iff_of_false ?_ (by omega), rfl,
    fun hstream reply buf hshort => processBytes_keyless E hstream reply hshort⟩
  rintro ⟨hlen, -⟩
  exact absurd hlen (by simp only [keyless]; omega)

def sampleBase64 : Base64 where
  decode text := if text.length % 4 = 0 then some (text.take (text.length / 4 * 3)) else none
  fits text out h := by
    split_ifs at h with hlen
    cases h
    exact ⟨text.length / 4 * 3, if_pos hlen, List.length_take_le _ _⟩

theorem explicit_key_sample :
    let key : List UInt8 := (List.range 24).map UInt8.ofNat
    ((construct sampleBase64 (.sample fun _ => false) .aes128Cfb key []).keyLen = 16 ∧
      (construct sampleBase64 (.sample fun _ => false) .aes128Cfb key []).key = key.take 16 ↔
        16 ≤ 1) ∧
    processBytes (.sample fun _ => false) (fun _ => true)
      (construct sampleBase64 (.sample fun _ => false) .aes128Cfb key []) [] (.copyBuffer [1]) =
        none := by
  have h := explicit_key_iff sampleBase64 (.sample fun _ => false) .aes128Cfb
    ((List.range 24).map UInt8.ofNat) [] _ rfl (by decide)
  exact ⟨h.1, h.2.2 rfl _ (.copyBuffer [1]) (by decide)⟩

/-- Two keys of 18 bytes, for a key size of 16: both ciphers have no key, and are the same. -/
theorem explicit_keys_ignored :
    let E := CipherEnv.sample fun _ => false
    let key : List UInt8 := List.replicate 24 65
    sampleBase64.decode key = some (List.replicate 18 65) ∧
    CipherMethod.aes128GcmSha256Evp.keySize = 16 ∧
    (construct sampleBase64 E .aes128GcmSha256Evp key []).keyLen = 0 ∧
    (construct sampleBase64 E .aes128GcmSha256Evp key []).key = [] ∧
    construct sampleBase64 E .aes128GcmSha256Evp key [] =
      construct sampleBase64 E .aes128GcmSha256Evp (List.replicate 24 66) [] :=
  ⟨rfl, rfl, rfl, rfl, rfl⟩

end Yass.Net.Cipher
