import Mathlib.Data.List.Basic
import Mathlib.Data.List.Range
import Mathlib.Tactic

/-!
# Crypters: the cipher methods, their nonces and what BoringSSL and mbed TLS supply

* `StreamCipher` — a CFB or CTR context of mbed TLS.

Source: `crypto/crypter.hpp`, `crypto/encrypter.cpp`, `crypto/aead_base_encrypter.cpp`,
`crypto/aead_sodium_encrypter.cpp`, `crypto/aead_evp_encrypter.cpp`,
`crypto/aead_mbedtls_encrypter.cpp`, `yass/crypto.h`.
-/

namespace Yass.Crypto

/-- The methods with an encrypter and a decrypter. -/
inductive CipherMethod where
  | aes256GcmSha256
  | chacha20Poly1305Ietf
  | xchacha20Poly1305Ietf
  | chacha20Poly1305IetfEvp
  | xchacha20Poly1305IetfEvp
  | aes128GcmSha256Evp
  | aes128Gcm12Sha256Evp
  | aes192GcmSha256Evp
  | aes256GcmSha256Evp
  | aes128Cfb
  | aes192Cfb
  | aes256Cfb
  | aes128Ctr
  | aes192Ctr
  | aes256Ctr
  | camellia128Cfb
  | camellia192Cfb
  | camellia256Cfb
  deriving DecidableEq, Repr

/-- How a crypter turns a packet number into a nonce. The mbed TLS crypters do not use it. -/
inductive NonceLayout where
  | sodium
  | evp
  | mbedtls
  deriving DecidableEq, Repr

namespace CipherMethod

/-- The number of the method, `cipher_id()`. -/
def cipherId : CipherMethod → ℕ
  | aes256GcmSha256 => 0x3
  | chacha20Poly1305Ietf => 0x4
  | xchacha20Poly1305Ietf => 0x5
  | chacha20Poly1305IetfEvp => 0x14
  | xchacha20Poly1305IetfEvp => 0x15
  | aes128GcmSha256Evp => 0x16
  | aes128Gcm12Sha256Evp => 0x17
  | aes192GcmSha256Evp => 0x18
  | aes256GcmSha256Evp => 0x19
  | aes128Cfb => 0x22
  | aes192Cfb => 0x23
  | aes256Cfb => 0x24
  | aes128Ctr => 0x25
  | aes192Ctr => 0x26
  | aes256Ctr => 0x27
  | camellia128Cfb => 0x29
  | camellia192Cfb => 0x30
  | camellia256Cfb => 0x31

/-- The range test by which `cipher` takes its stream-cipher branches. -/
def isStream (m : CipherMethod) : Bool :=
  aes128Cfb.cipherId ≤ m.cipherId && m.cipherId ≤ camellia256Cfb.cipherId

/-- Which crypter class `CreateFromCipherSuite` makes. -/
def layout : CipherMethod → NonceLayout
  | aes256GcmSha256 | chacha20Poly1305Ietf | xchacha20Poly1305Ietf => .sodium
  | chacha20Poly1305IetfEvp | xchacha20Poly1305IetfEvp | aes128GcmSha256Evp
  | aes128Gcm12Sha256Evp | aes192GcmSha256Evp | aes256GcmSha256Evp => .evp
  | aes128Cfb | aes192Cfb | aes256Cfb | aes128Ctr | aes192Ctr | aes256Ctr
  | camellia128Cfb | camellia192Cfb | camellia256Cfb => .mbedtls

/-- `GetKeySize()`. -/
def keySize : CipherMethod → ℕ
  | aes128GcmSha256Evp | aes128Gcm12Sha256Evp | aes128Cfb | aes128Ctr | camellia128Cfb => 16
  | aes192GcmSha256Evp | aes192Cfb | aes192Ctr | camellia192Cfb => 24
  | aes256GcmSha256 | chacha20Poly1305Ietf | xchacha20Poly1305Ietf | chacha20Poly1305IetfEvp
  | xchacha20Poly1305IetfEvp | aes256GcmSha256Evp | aes256Cfb | aes256Ctr | camellia256Cfb => 32

/-- `GetTagSize()`. -/
def tagSize : CipherMethod → ℕ
  | aes256GcmSha256 | chacha20Poly1305Ietf | xchacha20Poly1305Ietf | aes128GcmSha256Evp
  | aes192GcmSha256Evp | aes256GcmSha256Evp => 16
  | chacha20Poly1305IetfEvp | xchacha20Poly1305IetfEvp | aes128Gcm12Sha256Evp => 12
  | aes128Cfb | aes192Cfb | aes256Cfb | aes128Ctr | aes192Ctr | aes256Ctr
  | camellia128Cfb | camellia192Cfb | camellia256Cfb => 0

/-- `GetIVSize()`, the size of a nonce. -/
def nonceSize : CipherMethod → ℕ
  | xchacha20Poly1305Ietf | xchacha20Poly1305IetfEvp => 24
  | aes256GcmSha256 | chacha20Poly1305Ietf | chacha20Poly1305IetfEvp | aes128GcmSha256Evp
  | aes128Gcm12Sha256Evp | aes192GcmSha256Evp | aes256GcmSha256Evp => 12
  | aes128Cfb | aes192Cfb | aes256Cfb | aes128Ctr | aes192Ctr | aes256Ctr
  | camellia128Cfb | camellia192Cfb | camellia256Cfb => 16

lemma keySize_pos (m : CipherMethod) : 0 < m.keySize := by cases m <;> decide

lemma keySize_le (m : CipherMethod) : m.keySize ≤ 32 := by cases m <;> decide

end CipherMethod

/-! ## Nonces -/

/-- `PacketNumberToNonceSodium`: the four low bytes, at the front of the nonce. -/
def packetNumberToNonceSodium (nonce : List UInt8) (packetNumber : UInt64) : List UInt8 :=
  let pn₁ := (packetNumber &&& 0xff).toUInt8
  let pn₂ := ((packetNumber &&& 0xff00) >>> 8).toUInt8
  let pn₃ := ((packetNumber &&& 0xff0000) >>> 16).toUInt8
  let pn₄ := ((packetNumber &&& 0xff000000) >>> 24).toUInt8
  [pn₁, pn₂, pn₃, pn₄] ++ nonce.drop 4

/-- `PacketNumberToNonceEvp`: `memcpy` of all eight bytes, of a little-endian machine, to the end
of the nonce. -/
def packetNumberToNonceEvp (nonce : List UInt8) (packetNumber : UInt64) : List UInt8 :=
  nonce.take (nonce.length - 8) ++
    [packetNumber.toUInt8, (packetNumber >>> 8).toUInt8, (packetNumber >>> 16).toUInt8,
      (packetNumber >>> 24).toUInt8, (packetNumber >>> 32).toUInt8, (packetNumber >>> 40).toUInt8,
      (packetNumber >>> 48).toUInt8, (packetNumber >>> 56).toUInt8]

/-- The nonce a crypter with the bytes `iv` in `iv_` uses for a packet.
Source: `EncryptPacket` and `DecryptPacket` of the three crypter classes. -/
def packetNonce (layout : NonceLayout) (iv : List UInt8) (packetNumber : UInt64) : List UInt8 :=
  match layout with
  | .sodium => packetNumberToNonceSodium iv packetNumber
  | .evp => packetNumberToNonceEvp iv packetNumber
  | .mbedtls => iv

def NonceLayout.period : NonceLayout → ℕ
  | .sodium => 2 ^ 32
  | .evp => 2 ^ 64
  | .mbedtls => 1

lemma NonceLayout.period_pos (layout : NonceLayout) : 0 < layout.period := by
  cases layout <;> decide

lemma toNat_byte_masked (x mask k : UInt64) (hk : k.toNat < 64)
    (hmask : mask.toNat >>> k.toNat = 2 ^ 8 - 1) :
    (((x &&& mask) >>> k).toUInt8).toNat = x.toNat / 2 ^ k.toNat % 256 := by
  rw [UInt64.toNat_toUInt8, UInt64.toNat_shiftRight, UInt64.toNat_and, Nat.mod_eq_of_lt hk,
    Nat.shiftRight_and_distrib, hmask, Nat.and_two_pow_sub_one_eq_mod, Nat.shiftRight_eq_div_pow]
  omega

lemma packetNumberToNonceSodium_eq_iff (iv : List UInt8) (a b : UInt64) :
    packetNumberToNonceSodium iv a = packetNumberToNonceSodium iv b ↔
      a.toNat % 2 ^ 32 = b.toNat % 2 ^ 32 := by
  have byte₁ (x : UInt64) : ((x &&& 0xff).toUInt8).toNat = x.toNat / 2 ^ 0 % 256 := by
    simpa using toNat_byte_masked x 0xff 0 (by decide) rfl
  have byte₂ (x : UInt64) : (((x &&& 0xff00) >>> 8).toUInt8).toNat = x.toNat / 2 ^ 8 % 256 :=
    toNat_byte_masked x 0xff00 8 (by decide) rfl
  have byte₃ (x : UInt64) : (((x &&& 0xff0000) >>> 16).toUInt8).toNat = x.toNat / 2 ^ 16 % 256 :=
    toNat_byte_masked x 0xff0000 16 (by decide) rfl
  have byte₄ (x : UInt64) :
      (((x &&& 0xff000000) >>> 24).toUInt8).toNat = x.toNat / 2 ^ 24 % 256 :=
    toNat_byte_masked x 0xff000000 24 (by decide) rfl
  simp only [packetNumberToNonceSodium, List.append_left_inj, List.cons.injEq, and_true,
    ← UInt8.toNat_inj, byte₁, byte₂, byte₃, byte₄]
  omega

lemma packetNumberToNonceEvp_eq_iff (iv : List UInt8) (a b : UInt64) :
    packetNumberToNonceEvp iv a = packetNumberToNonceEvp iv b ↔
      a.toNat % 2 ^ 64 = b.toNat % 2 ^ 64 := by
  have ha := a.toNat_lt
  have hb := b.toNat_lt
  simp only [packetNumberToNonceEvp, List.append_right_inj, List.cons.injEq, and_true,
    ← UInt8.toNat_inj, UInt64.toNat_toUInt8, UInt64.toNat_shiftRight, UInt64.reduceToNat,
    Nat.reduceMod, Nat.shiftRight_eq_div_pow]
  omega

/-- **When two packet numbers share a nonce.** -/
theorem packetNonce_eq_iff (layout : NonceLayout) (iv : List UInt8) (a b : UInt64) :
    packetNonce layout iv a = packetNonce layout iv b ↔
      a.toNat % layout.period = b.toNat % layout.period := by
  cases layout with
  | sodium => exact packetNumberToNonceSodium_eq_iff iv a b
  | evp => exact packetNumberToNonceEvp_eq_iff iv a b
  | mbedtls => simp [packetNonce, NonceLayout.period, Nat.mod_one]

lemma NonceLayout.period_dvd (layout : NonceLayout) : layout.period ∣ 2 ^ 64 := by
  cases layout <;> decide

lemma packetNonce_ofNat_eq_iff (layout : NonceLayout) (iv : List UInt8) (a b : ℕ) :
    packetNonce layout iv (UInt64.ofNat a) = packetNonce layout iv (UInt64.ofNat b) ↔
      a % layout.period = b % layout.period := by
  rw [packetNonce_eq_iff, UInt64.toNat_ofNat', UInt64.toNat_ofNat',
    Nat.mod_mod_of_dvd _ layout.period_dvd, Nat.mod_mod_of_dvd _ layout.period_dvd]

/-! ## What the libraries supply -/

/-- `EVP_AEAD_CTX_seal` and `EVP_AEAD_CTX_open` for tags of `tag` bytes, with their documented
lengths. Whether a particular call of `seal` reports an error is not a function of its arguments;
see `Yass.Net.CipherEnv.sealFails`. -/
structure Aead (tag : ℕ) where
  /-- The output of a successful `EVP_AEAD_CTX_seal(key, nonce, plaintext)`. -/
  ctxSeal : (key nonce plaintext : List UInt8) → List UInt8
  /-- `EVP_AEAD_CTX_open(key, nonce, ciphertext)`. -/
  ctxOpen : (key nonce ciphertext : List UInt8) → Option (List UInt8)
  length_seal : ∀ k n p, (ctxSeal k n p).length = p.length + tag
  length_open : ∀ {k n c p}, ctxOpen k n c = some p → p.length + tag = c.length

/-- An AEAD that opens only what stands in a list of sealed (key, nonce, plaintext) triples. -/
def Aead.restrict {tag : ℕ} (A : Aead tag) (sealed : List (List UInt8 × List UInt8 × List UInt8)) :
    Aead tag where
  ctxSeal := A.ctxSeal
  ctxOpen k n c := (A.ctxOpen k n c).filter fun p => (k, n, p) ∈ sealed ∧ c = A.ctxSeal k n p
  length_seal := A.length_seal
  length_open := by
    intro k n c p h
    exact A.length_open (Option.filter_eq_some_iff.mp h).1

def Aead.Inverse {tag : ℕ} (A : Aead tag) : Prop :=
  ∀ k n p, A.ctxOpen k n (A.ctxSeal k n p) = some p

/-- An ideal AEAD, relative to the (key, nonce, plaintext) triples its user has sealed: it opens
exactly their ciphertexts. -/
def Aead.IdealFor {tag : ℕ} (A : Aead tag) (sealed : List (List UInt8 × List UInt8 × List UInt8)) :
    Prop :=
  ∀ k n c p, A.ctxOpen k n c = some p ↔ (k, n, p) ∈ sealed ∧ c = A.ctxSeal k n p

lemma Aead.Inverse.restrict_idealFor {tag : ℕ} {A : Aead tag} (h : A.Inverse)
    (sealed : List (List UInt8 × List UInt8 × List UInt8)) :
    (A.restrict sealed).IdealFor sealed := by
  intro k n c p
  simp only [Aead.restrict, Option.filter_eq_some_iff, decide_eq_true_eq]
  constructor
  · rintro ⟨-, hmem, rfl⟩
    exact ⟨hmem, rfl⟩
  · rintro ⟨hmem, rfl⟩
    exact ⟨h k n p, hmem, rfl⟩

/-- The plainest instance: the tag is `tag` zero bytes, and opening checks for them. -/
def Aead.zeroTag (tag : ℕ) : Aead tag where
  ctxSeal _ _ p := p ++ List.replicate tag 0
  ctxOpen _ _ c :=
    if c.drop (c.length - tag) = List.replicate tag 0 then some (c.take (c.length - tag)) else none
  length_seal := by simp
  length_open := by
    intro k n c p h
    split_ifs at h with htag
    cases h
    have hlen := congrArg List.length htag
    rw [List.length_drop, List.length_replicate] at hlen
    rw [List.length_take]
    omega

lemma Aead.zeroTag_inverse (tag : ℕ) : (Aead.zeroTag tag).Inverse := by
  intro k n p
  simp [Aead.zeroTag]

/-- Both CFB and CTR xor each byte with a key stream byte that the key, the initial vector and the
ciphertext so far determine (in CTR, through its length alone). A context's state is then the
ciphertext it has produced or consumed. -/
abbrev KeyStream := (key iv past : List UInt8) → UInt8

/-- `mbedtls_cipher_update` of an encrypting context: the output. -/
def streamEncrypt (ks : KeyStream) (key iv : List UInt8) : List UInt8 → List UInt8 → List UInt8
  | _, [] => []
  | past, p :: ps =>
    let c := p ^^^ ks key iv past
    c :: streamEncrypt ks key iv (past ++ [c]) ps

/-- `mbedtls_cipher_update` of a decrypting context: the output. -/
def streamDecrypt (ks : KeyStream) (key iv : List UInt8) : List UInt8 → List UInt8 → List UInt8
  | _, [] => []
  | past, c :: cs => (c ^^^ ks key iv past) :: streamDecrypt ks key iv (past ++ [c]) cs

@[simp] lemma length_streamEncrypt (ks : KeyStream) (key iv past ps : List UInt8) :
    (streamEncrypt ks key iv past ps).length = ps.length := by
  induction ps generalizing past with
  | nil => rfl
  | cons p ps ih => simp [streamEncrypt, ih]

@[simp] lemma length_streamDecrypt (ks : KeyStream) (key iv past cs : List UInt8) :
    (streamDecrypt ks key iv past cs).length = cs.length := by
  induction cs generalizing past with
  | nil => rfl
  | cons c cs ih => simp [streamDecrypt, ih]

lemma streamDecrypt_append (ks : KeyStream) (key iv past cs ds : List UInt8) :
    streamDecrypt ks key iv past (cs ++ ds) =
      streamDecrypt ks key iv past cs ++ streamDecrypt ks key iv (past ++ cs) ds := by
  induction cs generalizing past with
  | nil => simp [streamDecrypt]
  | cons c cs ih => simp [streamDecrypt, ih]

lemma streamEncrypt_append (ks : KeyStream) (key iv past ps qs : List UInt8) :
    streamEncrypt ks key iv past (ps ++ qs) = streamEncrypt ks key iv past ps ++
      streamEncrypt ks key iv (past ++ streamEncrypt ks key iv past ps) qs := by
  induction ps generalizing past with
  | nil => simp [streamEncrypt]
  | cons p ps ih => simp [streamEncrypt, ih]

lemma streamDecrypt_streamEncrypt (ks : KeyStream) (key iv past ps : List UInt8) :
    streamDecrypt ks key iv past (streamEncrypt ks key iv past ps) = ps := by
  induction ps generalizing past with
  | nil => rfl
  | cons p ps ih =>
    rw [streamEncrypt, streamDecrypt, UInt8.xor_assoc, UInt8.xor_self, UInt8.xor_zero, ih]

end Yass.Crypto
