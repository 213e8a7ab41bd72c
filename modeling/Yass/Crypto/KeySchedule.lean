import Mathlib.Data.List.Basic
import Mathlib.Tactic

/-!
# Key schedule: from a password to the subkey of one stream

* `hmacSha1`, `cryptoHkdf` — HMAC and HKDF over SHA-1, as the repository writes them out.

MD5 and SHA-1 themselves come from BoringSSL and are the fields of `Hashes`, of which only the
digest lengths are used.

Source: `net/cipher.cpp`, `net/hmac_sha1.cpp`, `net/hkdf_sha1.cpp`.
-/

namespace Yass.Crypto

structure Hashes where
  md5 : List UInt8 → List UInt8
  sha1 : List UInt8 → List UInt8
  length_md5 : ∀ m, (md5 m).length = 16
  length_sha1 : ∀ m, (sha1 m).length = 20

variable (H : Hashes)

/-! ## The master key -/

/-- The loop of `derive_key`: each turn hashes the previous digest (absent in the first turn)
followed by the password, and appends what still fits. A turn adds at least one byte, so `skeyLen`
turns are enough. -/
def deriveKeyLoop (pass : List UInt8) (skeyLen : ℕ) : ℕ → List UInt8 → List UInt8 → List UInt8
  | 0, _, skey => skey
  | turns + 1, mdBuf, skey =>
    if skey.length < skeyLen then
      let md := H.md5 (mdBuf ++ pass)
      deriveKeyLoop pass skeyLen turns md (skey ++ md.take (skeyLen - skey.length))
    else skey

/-- `derive_key`: an empty password leaves the zeroed key as it is. -/
def deriveKey (pass : List UInt8) (skeyLen : ℕ) : List UInt8 :=
  if pass.isEmpty then List.replicate skeyLen 0 else deriveKeyLoop H pass skeyLen skeyLen [] []

/-! ## The subkey -/

/-- One padded key block of HMAC: `pad` in every byte, xored with the key where there is one. -/
def hmacPad (pad : UInt8) (key : List UInt8) : List UInt8 :=
  (List.range 64).map fun i => pad ^^^ key.getD i 0

/-- `hmac_sha1`: keys longer than a block are hashed first. -/
def hmacSha1 (key input : List UInt8) : List UInt8 :=
  let key := if 64 < key.length then H.sha1 key else key
  H.sha1 (hmacPad 0x5C key ++ H.sha1 (hmacPad 0x36 key ++ input))

/-- `crypto_hkdf_extract` with a salt that is not null. -/
def cryptoHkdfExtract (salt ikm : List UInt8) : List UInt8 := hmacSha1 H salt ikm

/-- The loop of `crypto_hkdf_expand`, turns `i` to `n`; the last one copies only what is missing. -/
def cryptoHkdfExpandLoop (prk info : List UInt8) (okmLen n : ℕ) :
    ℕ → ℕ → List UInt8 → List UInt8 → List UInt8
  | 0, _, _, okm => okm
  | turns + 1, i, T, okm =>
    let T := hmacSha1 H prk (T ++ info ++ [UInt8.ofNat i])
    let copied := if i = n then okmLen - okm.length else 20
    cryptoHkdfExpandLoop prk info okmLen n turns (i + 1) T (okm ++ T.take copied)

/-- `crypto_hkdf_expand`; `none` is the error return. -/
def cryptoHkdfExpand (prk info : List UInt8) (okmLen : ℕ) : Option (List UInt8) :=
  let n := if okmLen % 20 = 0 then okmLen / 20 else okmLen / 20 + 1
  if prk.length < 20 then none
  else if 255 < n then none
  else some (cryptoHkdfExpandLoop H prk info okmLen n n 1 [] [])

def cryptoHkdf (salt ikm info : List UInt8) (okmLen : ℕ) : Option (List UInt8) :=
  cryptoHkdfExpand H (cryptoHkdfExtract H salt ikm) info okmLen

lemma cryptoHkdf_isSome (salt ikm info : List UInt8) {okmLen : ℕ} (h : okmLen ≤ 255 * 20) :
    (cryptoHkdf H salt ikm info okmLen).isSome = true := by
  have hprk : ¬ (cryptoHkdfExtract H salt ikm).length < 20 := by
    simp [cryptoHkdfExtract, hmacSha1, H.length_sha1]
  have hn : ¬ 255 < if okmLen % 20 = 0 then okmLen / 20 else okmLen / 20 + 1 := by
    split_ifs <;> omega
  simp only [cryptoHkdf, cryptoHkdfExpand, if_neg hprk, if_neg hn, Option.isSome_some]

end Yass.Crypto
