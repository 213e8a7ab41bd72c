import Yass.Crypto.KeySchedule

/-!
# The key schedule and its specifications

* `HmacCtx`, `hmacSha1Starts`, `hmacSha1Update`, `hmacSha1Finish` — HMAC as the source computes it,
  with a digest that is fed piece by piece. A context of SHA-1 is the bytes it has been fed.

Source: `net/hmac_sha1.cpp`, `net/hkdf_sha1.cpp`, `net/cipher.cpp`.
-/

namespace Yass.Crypto

variable (H : Hashes)

/-! ## HMAC, piece by piece -/

structure HmacCtx where
  /-- What the digest has been fed since `SHA1_Init`. -/
  ctx : List UInt8
  ipad : List UInt8
  opad : List UInt8

def xorKey : List UInt8 → List UInt8 → List UInt8
  | b :: pad, k :: key => (b ^^^ k) :: xorKey pad key
  | pad, _ => pad

def hmacSha1Starts (key : List UInt8) : HmacCtx :=
  let key := if 64 < key.length then H.sha1 key else key
  let ipad := xorKey (List.replicate 64 0x36) key
  let opad := xorKey (List.replicate 64 0x5C) key
  ⟨ipad, ipad, opad⟩

def hmacSha1Update (c : HmacCtx) (input : List UInt8) : HmacCtx :=
  { c with ctx := c.ctx ++ input }

/-- The inner digest, and a new one over `opad` and it. -/
def hmacSha1Finish (c : HmacCtx) : List UInt8 :=
  let tmp := H.sha1 c.ctx
  H.sha1 (c.opad ++ tmp)

/-- Source: `net/hmac_sha1.cpp`, `hmac_sha1`. -/
def hmacSha1Calls (key input : List UInt8) : List UInt8 :=
  hmacSha1Finish H (hmacSha1Update (hmacSha1Starts H key) input)

/-- One turn of `crypto_hkdf_expand`. -/
def hkdfTurn (prk T info : List UInt8) (i : ℕ) : List UInt8 :=
  let c := hmacSha1Starts H prk
  let c := hmacSha1Update (hmacSha1Update (hmacSha1Update c T) info) [UInt8.ofNat i]
  hmacSha1Finish H c

/-- `crypto_hkdf`: a null salt is a digest of zeros. -/
def cryptoHkdfNullable (salt : Option (List UInt8)) (ikm info : List UInt8) (okmLen : ℕ) :
    Option (List UInt8) :=
  cryptoHkdf H (salt.getD (List.replicate 20 0)) ikm info okmLen

/-! ## The specifications -/

/-- HMAC: the key, or its digest where it is longer than a block, is filled up with zeros. -/
def rfc2104 (key text : List UInt8) : List UInt8 :=
  let key := if 64 < key.length then H.sha1 key else key
  let block := key ++ List.replicate (64 - key.length) 0
  H.sha1 (block.map (0x5C ^^^ ·) ++ H.sha1 (block.map (0x36 ^^^ ·) ++ text))

/-- `T(0)`, `T(1)` and so on of HKDF. -/
def rfc5869Block (prk info : List UInt8) : ℕ → List UInt8
  | 0 => []
  | i + 1 => rfc2104 H prk (rfc5869Block prk info i ++ info ++ [UInt8.ofNat (i + 1)])

/-- `T(1) | … | T(n)`. -/
def rfc5869Blocks (prk info : List UInt8) (n : ℕ) : List UInt8 :=
  (List.range' 1 n).flatMap (rfc5869Block H prk info)

/-- HKDF: extract, then expand. -/
def rfc5869 (salt : Option (List UInt8)) (ikm info : List UInt8) (length : ℕ) : List UInt8 :=
  let prk := rfc2104 H (salt.getD (List.replicate 20 0)) ikm
  (rfc5869Blocks H prk info ((length + 19) / 20)).take length

/-- `D(1)`, `D(2)` and so on of `EVP_BytesToKey`, from `0`. -/
def bytesToKey (pass : List UInt8) : ℕ → List UInt8
  | 0 => H.md5 pass
  | i + 1 => H.md5 (bytesToKey pass i ++ pass)

/-! ## HMAC -/

lemma xorKey_replicate (pad : UInt8) {n : ℕ} {key : List UInt8} (h : key.length ≤ n) :
    xorKey (List.replicate n pad) key =
      (key ++ List.replicate (n - key.length) 0).map (pad ^^^ ·) := by
  induction key generalizing n with
  | nil => cases n <;> simp [xorKey]
  | cons k key ih =>
    obtain ⟨n, rfl⟩ := Nat.exists_eq_add_one_of_ne_zero (Nat.ne_zero_of_lt h)
    rw [List.replicate_succ, xorKey, ih (by simpa using h)]
    simp

lemma hmacPad_eq (pad : UInt8) {key : List UInt8} (h : key.length ≤ 64) :
    hmacPad pad key = (key ++ List.replicate (64 - key.length) 0).map (pad ^^^ ·) := by
  refine List.ext_getElem (by simp [hmacPad, h]) fun i h₁ h₂ => ?_
  rcases lt_or_ge i key.length with hi | hi
  · simp [hmacPad, hi]
  · simp [hmacPad, hi]

lemma length_key (key : List UInt8) :
    (if 64 < key.length then H.sha1 key else key).length ≤ 64 := by
  split_ifs with h
  · rw [H.length_sha1]
    decide
  · omega

lemma rfc2104_eq (key text : List UInt8) : rfc2104 H key text = hmacSha1 H key text := by
  rw [rfc2104, hmacSha1, hmacPad_eq _ (length_key H key), hmacPad_eq _ (length_key H key)]

lemma hmacSha1Finish_starts (key text : List UInt8) :
    hmacSha1Finish H { hmacSha1Starts H key with ctx := (hmacSha1Starts H key).ctx ++ text } =
      hmacSha1 H key text := by
  have hle := length_key H key
  rw [← rfc2104_eq, rfc2104, hmacSha1Finish, hmacSha1Starts, xorKey_replicate _ hle,
    xorKey_replicate _ hle]

lemma hkdfTurn_eq (prk T info : List UInt8) (i : ℕ) :
    hkdfTurn H prk T info i = hmacSha1 H prk (T ++ info ++ [UInt8.ofNat i]) := by
  rw [← hmacSha1Finish_starts, hkdfTurn]
  simp only [hmacSha1Update, List.append_assoc]

/-! ## HKDF -/

variable (prk info : List UInt8)

lemma length_rfc5869Block (k : ℕ) : (rfc5869Block H prk info (k + 1)).length = 20 := by
  rw [rfc5869Block, rfc2104]
  exact H.length_sha1 _

lemma rfc5869Blocks_succ (k : ℕ) : rfc5869Blocks H prk info (k + 1) =
    rfc5869Blocks H prk info k ++ rfc5869Block H prk info (k + 1) := by
  rw [rfc5869Blocks, List.range'_1_concat, List.flatMap_append, add_comm 1 k,
    List.flatMap_singleton, rfc5869Blocks]

lemma length_rfc5869Blocks (k : ℕ) : (rfc5869Blocks H prk info k).length = 20 * k := by
  induction k with
  | zero => rfl
  | succ k ih =>
    rw [rfc5869Blocks_succ, List.length_append, ih, length_rfc5869Block]
    omega

lemma cryptoHkdfExpandLoop_eq {okmLen n turns k : ℕ} (hn : n = (okmLen + 19) / 20)
    (hk : k + (turns + 1) = n) :
    cryptoHkdfExpandLoop H prk info okmLen n (turns + 1) (k + 1) (rfc5869Block H prk info k)
        (rfc5869Blocks H prk info k) =
      (rfc5869Blocks H prk info n).take okmLen := by
  have hT : ∀ k, hmacSha1 H prk (rfc5869Block H prk info k ++ info ++ [UInt8.ofNat (k + 1)]) =
      rfc5869Block H prk info (k + 1) := fun k => (rfc2104_eq H _ _).symm
  induction turns generalizing k with
  | zero =>
    obtain rfl : k + 1 = n := hk
    have hlength := length_rfc5869Blocks H prk info k
    have hfit : (rfc5869Blocks H prk info k).length ≤ okmLen := by omega
    rw [cryptoHkdfExpandLoop, hT, cryptoHkdfExpandLoop, if_pos rfl, rfc5869Blocks_succ,
      List.take_append, List.take_of_length_le hfit]
  | succ turns ih =>
    have hwhole := length_rfc5869Block H prk info k
    rw [cryptoHkdfExpandLoop, hT, if_neg (by omega), List.take_of_length_le hwhole.le,
      ← rfc5869Blocks_succ]
    exact ih (by omega)

lemma cryptoHkdf_eq (salt : Option (List UInt8)) (ikm : List UInt8) (okmLen : ℕ) :
    cryptoHkdfNullable H salt ikm info okmLen =
      if okmLen ≤ 255 * 20 then some (rfc5869 H salt ikm info okmLen) else none := by
  have hprk : ¬ (hmacSha1 H (salt.getD (List.replicate 20 0)) ikm).length < 20 := by
    simp [hmacSha1, H.length_sha1]
  have hn : (if okmLen % 20 = 0 then okmLen / 20 else okmLen / 20 + 1) = (okmLen + 19) / 20 := by
    split_ifs <;> omega
  simp only [cryptoHkdfNullable, cryptoHkdf, cryptoHkdfExpand, cryptoHkdfExtract, if_neg hprk, hn]
  by_cases hle : okmLen ≤ 255 * 20
  · rw [if_neg (by omega), if_pos hle, rfc5869, rfc2104_eq]
    cases hturns : (okmLen + 19) / 20 with
    | zero =>
      obtain rfl : okmLen = 0 := by omega
      rfl
    | succ turns =>
      exact congrArg some (cryptoHkdfExpandLoop_eq H _ info (k := 0) hturns.symm (Nat.zero_add _))
  · rw [if_pos (by omega), if_neg hle]

/-! ## `EVP_BytesToKey` -/

variable {H} {pass : List UInt8}

lemma length_bytesToKey (i : ℕ) : (bytesToKey H pass i).length = 16 := by
  cases i <;> exact H.length_md5 _

lemma deriveKeyLoop_eq {n turns k : ℕ} {md : List UInt8}
    (hmd : H.md5 (md ++ pass) = bytesToKey H pass k) (hturns : n ≤ 16 * k + turns) :
    deriveKeyLoop H pass n turns md (((List.range k).flatMap (bytesToKey H pass)).take n) =
      ((List.range (k + turns)).flatMap (bytesToKey H pass)).take n := by
  have hlength : ∀ k, ((List.range k).flatMap (bytesToKey H pass)).length = 16 * k := fun k => by
    simp [List.length_flatMap, length_bytesToKey, mul_comm]
  induction turns generalizing k md with
  | zero => rfl
  | succ turns ih =>
    rw [deriveKeyLoop, List.length_take, hlength, hmd]
    split_ifs with hmore
    · have hnext : (List.range (k + 1)).flatMap (bytesToKey H pass) =
          (List.range k).flatMap (bytesToKey H pass) ++ bytesToKey H pass k := by
        rw [List.range_succ, List.flatMap_append, List.flatMap_singleton]
      have hskey : ((List.range k).flatMap (bytesToKey H pass)).take n ++
          (bytesToKey H pass k).take (n - min n (16 * k)) =
            ((List.range (k + 1)).flatMap (bytesToKey H pass)).take n := by
        rw [hnext, List.take_append, hlength, Nat.min_eq_right (by omega)]
      dsimp only
      rw [hskey, ih rfl (by omega), show k + 1 + turns = k + (turns + 1) by omega]
    rw [List.range_add, List.flatMap_append, List.take_append_of_le_length]
    rw [hlength]
    omega

/-- **Key schedule.** HMAC, piece by piece as in HKDF or at once, is that of RFC 2104 for every key;
`crypto_hkdf` is HKDF of RFC 5869, and fails for outputs that are too long; and `derive_key` writes
the first bytes of what `EVP_BytesToKey` gives. -/
theorem key_schedule_exact (H : Hashes) :
    (∀ key text, hmacSha1Calls H key text = rfc2104 H key text ∧
      hmacSha1 H key text = rfc2104 H key text) ∧
    (∀ prk T info i, hkdfTurn H prk T info i = rfc2104 H prk (T ++ info ++ [UInt8.ofNat i])) ∧
    (∀ salt ikm info okmLen, cryptoHkdfNullable H salt ikm info okmLen =
      if okmLen ≤ 255 * 20 then some (rfc5869 H salt ikm info okmLen) else none) ∧
    ∀ pass skeyLen, pass ≠ [] → deriveKey H pass skeyLen =
      ((List.range skeyLen).flatMap (bytesToKey H pass)).take skeyLen := by
  refine ⟨fun key text => ⟨?_, (rfc2104_eq H key text).symm⟩, fun prk T info i => ?_,
    fun salt ikm info okmLen => cryptoHkdf_eq H info salt ikm okmLen,
    fun pass skeyLen hpass => ?_⟩
  · rw [rfc2104_eq]
    exact hmacSha1Finish_starts H key text
  · rw [hkdfTurn_eq, rfc2104_eq]
  have hloop := @deriveKeyLoop_eq H pass skeyLen skeyLen 0 [] rfl (by omega)
  rw [deriveKey, if_neg (by simpa using hpass)]
  simpa using hloop

theorem key_schedule_sample :
    let H : Hashes := ⟨fun m => (m ++ List.replicate 16 0).take 16, fun _ => List.replicate 20 0,
      fun _ => by simp, fun _ => rfl⟩
    deriveKey H [112, 119] 24 = ((List.range 24).flatMap (bytesToKey H [112, 119])).take 24 ∧
      cryptoHkdfNullable H none [1] [] 5101 = none :=
  ⟨(key_schedule_exact _).2.2.2 _ 24 (by decide),
    ((key_schedule_exact _).2.2.1 none [1] [] 5101).trans (if_neg (by decide))⟩

end Yass.Crypto
