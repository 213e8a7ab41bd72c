import Yass.Crypto.KeySchedule
import Yass.Crypto.Crypter
import Yass.Net.IoBuffer

/-!
# `net::cipher`: the Shadowsocks encoder and decoder

A faithful model of the class on real buffers.

* `CipherEnv` — what the class calls: hashes, AEADs, key streams, random bytes, the bytes `realloc`
  leaves undefined, and which seal operations report an error.

The visitor's answer to a delivery is a function `reply` of everything delivered so far, this
delivery included. Its calls are logged as `VisitorEvent`s.

An outer `none` is an abort (a failed `CHECK` or `LOG(FATAL)`) or a store outside an allocation.
`DCHECK`s are compiled out. Buffer sizes are `ℕ`; `counter_` is a 64-bit word.

Source: `net/cipher.hpp`, `net/cipher.cpp`.
-/

namespace Yass.Net

open Yass.Crypto

structure CipherEnv where
  hashes : Hashes
  aead : (m : CipherMethod) → Aead m.tagSize
  keyStream : CipherMethod → KeyStream
  /-- The bytes `RandBytes` writes. -/
  rand : ℕ → UInt8
  junk : ℕ → UInt8
  /-- Whether the `i`-th `EncryptPacket` of an encoder reports an error. -/
  sealFails : ℕ → Bool

/-- A concrete environment: constant hashes, zero tags, counting random bytes, and seals that fail
where `sealFails` says so. -/
def CipherEnv.sample (sealFails : ℕ → Bool) : CipherEnv where
  hashes := ⟨fun _ => List.replicate 16 0, fun _ => List.replicate 20 0, fun _ => rfl, fun _ => rfl⟩
  aead m := Aead.zeroTag m.tagSize
  keyStream _ _ _ _ := 0
  rand := UInt8.ofNat
  junk _ := 0
  sealFails := sealFails

/-- The environment `E` with AEADs that open only what is in `log`. -/
def CipherEnv.restrict (E : CipherEnv) (log : List (List UInt8 × List UInt8 × List UInt8)) :
    CipherEnv :=
  { E with aead := fun m => (E.aead m).restrict log }

def chunkSizeLen : ℕ := 2

def chunkSizeMask : ℕ := 0x3FFF

/-- `SUBKEY_INFO`, `"ss-subkey"`. -/
def subkeyInfo : List UInt8 := [115, 115, 45, 115, 117, 98, 107, 101, 121]

/-- One executed `EncryptPacket`: under which key and nonce, of what, and whether it succeeded. -/
structure PacketOp where
  key : List UInt8
  nonce : List UInt8
  plaintext : List UInt8
  ok : Bool
  deriving DecidableEq, Repr

/-- The state of a `cipher`, that of its `cipher_impl` included. -/
structure Cipher where
  method : CipherMethod
  /-- The first `key_len_` bytes of `key_`, the master key. -/
  key : List UInt8
  keyLen : ℕ
  /-- `key_` of the crypter, the subkey of an AEAD method. -/
  implKey : List UInt8
  /-- `iv_` of the crypter. -/
  iv : List UInt8
  past : List UInt8
  counter : UInt64
  init : Bool
  /-- `chunk_`: the ciphertext received and not yet consumed. -/
  chunk : Option GrowableIOBuffer
  /-- The `EncryptPacket` operations executed so far. -/
  ops : List PacketOp

namespace Cipher

variable (E : CipherEnv)

/-- `cipher::cipher` with a password. -/
def create (method : CipherMethod) (password : List UInt8) : Cipher where
  method := method
  key := deriveKey E.hashes password method.keySize
  keyLen := method.keySize
  implKey := List.replicate method.keySize 0
  iv := List.replicate method.nonceSize 0
  past := []
  counter := 0
  init := false
  chunk := none
  ops := []

/-! ## Keys and salts -/

/-- `SetKey`: refused, with a warning only, when the length is not the crypter's key size. -/
def setKey (c : Cipher) (key : List UInt8) (keyLen : ℕ) : Cipher :=
  if keyLen = c.method.keySize then { c with implKey := key, past := [] } else c

/-- `SetNoncePrefix`, with the length the crypter itself reports. -/
def setNoncePrefix (c : Cipher) (nonce : List UInt8) : Cipher :=
  let prefixLen := c.method.nonceSize - 8
  { c with iv := nonce.take prefixLen ++ c.iv.drop prefixLen }

/-- `set_key_aead`: a fresh subkey, counter `0` and an all-zero nonce prefix. -/
def setKeyAead (c : Cipher) (salt : List UInt8) : Option Cipher := do
  let skey ← cryptoHkdf E.hashes salt c.key subkeyInfo c.keyLen
  let c := { c with counter := 0 }
  let c := c.setKey skey c.keyLen
  some (c.setNoncePrefix (List.replicate 32 0))

/-- `set_key_stream`: the master key itself, with the nonce as initial vector. -/
def setKeyStream (c : Cipher) (nonce : List UInt8) : Cipher :=
  let c := { c with counter := 0, iv := nonce }
  c.setKey c.key c.keyLen

/-- `encrypt_salt`. An AEAD salt goes behind the buffer's contents; a stream cipher's nonce is
written at the read position, after the buffer has been grown at its end. -/
def encryptSalt (c : Cipher) (chunk : GrowableIOBuffer) : Option (Cipher × GrowableIOBuffer) := do
  if c.method.isStream then
    let nonce := (List.range c.method.nonceSize).map E.rand
    let chunk ← chunk.setCapacity E.junk (chunk.capacity + nonce.length)
    let chunk ← chunk.store chunk.offset nonce
    some (c.setKeyStream nonce, chunk)
  else
    let salt := (List.range c.keyLen).map E.rand
    let previousCapacity := chunk.capacity
    let chunk ← chunk.setCapacity E.junk (previousCapacity + salt.length)
    let chunk ← chunk.store previousCapacity salt
    let c ← c.setKeyAead E salt
    some (c, chunk)

/-- `decrypt_salt`. -/
def decryptSalt (c : Cipher) (chunk : GrowableIOBuffer) : Option (Cipher × GrowableIOBuffer) := do
  if c.method.isStream then
    let nonceLen := c.method.nonceSize
    let nonce := chunk.readable.take nonceLen
    let chunk ← chunk.setOffset (chunk.offset + nonceLen)
    some (c.setKeyStream nonce, chunk)
  else
    let salt := chunk.readable.take c.keyLen
    let chunk ← chunk.setOffset (chunk.offset + c.keyLen)
    let c ← c.setKeyAead E salt
    some (c, chunk)

/-! ## Packets -/

def nonce (c : Cipher) (packetNumber : UInt64) : List UInt8 :=
  packetNonce c.method.layout c.iv packetNumber

/-- `EncryptPacket`, for an output buffer of `maxOutput` bytes. -/
def encryptPacket (c : Cipher) (packetNumber : UInt64) (maxOutput : ℕ) (plaintext : List UInt8) :
    Cipher × Option (List UInt8) :=
  if maxOutput < plaintext.length + c.method.tagSize then (c, none)
  else
    let ok := !E.sealFails c.ops.length
    let op : PacketOp := ⟨c.implKey, c.nonce packetNumber, plaintext, ok⟩
    let c' := { c with ops := c.ops ++ [op] }
    if !ok then (c', none)
    else if c.method.isStream then
      let out := streamEncrypt (E.keyStream c.method) c.implKey c.iv c.past plaintext
      ({ c' with past := c.past ++ out }, some out)
    else (c', some ((E.aead c.method).ctxSeal c.implKey (c.nonce packetNumber) plaintext))

/-- `DecryptPacket`; the output has to fit `maxOutput` bytes. -/
def decryptPacket (c : Cipher) (packetNumber : UInt64) (maxOutput : ℕ) (ciphertext : List UInt8) :
    Cipher × Option (List UInt8) :=
  if ciphertext.length < c.method.tagSize then (c, none)
  else if c.method.isStream then
    let out := streamDecrypt (E.keyStream c.method) c.implKey c.iv c.past ciphertext
    ({ c with past := c.past ++ ciphertext }, some out)
  else
    (c, ((E.aead c.method).ctxOpen c.implKey (c.nonce packetNumber) ciphertext).filter
      fun p => p.length ≤ maxOutput)

/-! ## Frames -/

/-- `htons`: the two bytes of a length, high byte first. -/
def htons (n : ℕ) : List UInt8 := [UInt8.ofNat (n / 256), UInt8.ofNat (n % 256)]

def ntohs : List UInt8 → ℕ
  | [hi, lo] => hi.toNat * 256 + lo.toNat
  | _ => 0

/-- The outcomes of the frame functions: `0`, `-EAGAIN` and `-EBADMSG`. -/
inductive FrameRet where
  | ok
  | again
  | badmsg
  deriving DecidableEq, Repr

/-- `chunk_encrypt_frame_aead`: the sealed length, then the sealed payload, at the end of the
buffer; both are taken back when one of the two seals fails. Returns the advanced counter. -/
def chunkEncryptFrameAead (c : Cipher) (counter : UInt64) (plaintext : List UInt8)
    (ciphertext : GrowableIOBuffer) :
    Option (Cipher × UInt64 × FrameRet × GrowableIOBuffer) := do
  let tlen := c.method.tagSize
  let cTotalLen := 2 * tlen + chunkSizeLen + plaintext.length
  let previousCapacity := ciphertext.capacity
  let headroom := ciphertext.size
  let ciphertext ← ciphertext.setCapacity E.junk (previousCapacity + cTotalLen)
  match c.encryptPacket E counter (chunkSizeLen + tlen)
      (htons (plaintext.length &&& chunkSizeMask)) with
  | (c, none) =>
    let ciphertext ← ciphertext.setCapacity E.junk previousCapacity
    some (c, counter, .badmsg, ciphertext)
  | (c, some out) =>
    let ciphertext ← ciphertext.store (ciphertext.offset + headroom) out
    let headroom := headroom + out.length
    let counter := counter + 1
    let clen := plaintext.length + tlen
    let ciphertext ← ciphertext.store (ciphertext.offset + headroom) (List.replicate clen 0)
    match c.encryptPacket E counter clen plaintext with
    | (c, none) =>
      let ciphertext ← ciphertext.setCapacity E.junk previousCapacity
      some (c, counter, .badmsg, ciphertext)
    | (c, some out) =>
      let ciphertext ← ciphertext.store (ciphertext.offset + headroom) out
      some (c, counter + 1, .ok, ciphertext)

/-- `chunk_encrypt_frame_stream`: the encrypted bytes, with no framing. -/
def chunkEncryptFrameStream (c : Cipher) (counter : UInt64) (plaintext : List UInt8)
    (ciphertext : GrowableIOBuffer) :
    Option (Cipher × UInt64 × FrameRet × GrowableIOBuffer) := do
  let previousCapacity := ciphertext.capacity
  let headroom := previousCapacity - ciphertext.offset
  let ciphertext ← ciphertext.setCapacity E.junk (previousCapacity + plaintext.length)
  match c.encryptPacket E counter plaintext.length plaintext with
  | (c, none) =>
    let ciphertext ← ciphertext.setCapacity E.junk previousCapacity
    some (c, counter, .badmsg, ciphertext)
  | (c, some out) =>
    let ciphertext ← ciphertext.store (ciphertext.offset + headroom) out
    some (c, counter + 1, .ok, ciphertext)

def chunkEncryptFrame (c : Cipher) (counter : UInt64) (plaintext : List UInt8)
    (ciphertext : GrowableIOBuffer) :
    Option (Cipher × UInt64 × FrameRet × GrowableIOBuffer) :=
  if c.method.isStream then c.chunkEncryptFrameStream E counter plaintext ciphertext
  else c.chunkEncryptFrameAead E counter plaintext ciphertext

/-- The beginning of `encrypt`: the salt, unless it has been written. -/
def encryptSaltOnce (c : Cipher) (ciphertext : GrowableIOBuffer) :
    Option (Cipher × GrowableIOBuffer) :=
  if c.init then some (c, ciphertext)
  else do
    let (c, ciphertext) ← c.encryptSalt E ciphertext
    some ({ c with init := true }, ciphertext)

/-- `encrypt`: `counter_` is committed only when the frame succeeded; on a failure the visitor's
`on_protocol_error` is called, which the returned `Bool` (`false`) stands for. -/
def encrypt (c : Cipher) (plaintext : List UInt8) (ciphertext : GrowableIOBuffer) :
    Option (Cipher × Bool × GrowableIOBuffer) := do
  let (c, ciphertext) ← c.encryptSaltOnce E ciphertext
  let (c, counter, ret, ciphertext) ← c.chunkEncryptFrame E c.counter plaintext ciphertext
  if ret = .ok then some ({ c with counter := counter }, true, ciphertext)
  else some (c, false, ciphertext)

/-- `chunk_decrypt_frame_aead`. `-EAGAIN` and `-EBADMSG` put the ciphertext offset back. -/
def chunkDecryptFrameAead (c : Cipher) (counter : UInt64)
    (plaintext ciphertext : GrowableIOBuffer) :
    Option (Cipher × UInt64 × FrameRet × GrowableIOBuffer × GrowableIOBuffer) := do
  let tlen := c.method.tagSize
  let clen := chunkSizeLen + tlen
  if ciphertext.size < tlen + chunkSizeLen + tlen then
    some (c, counter, .again, plaintext, ciphertext)
  else
    match c.decryptPacket E counter chunkSizeLen (ciphertext.readable.take clen) with
    | (c, none) => some (c, counter, .badmsg, plaintext, ciphertext)
    | (c, some len) =>
      let mlen := ntohs len &&& chunkSizeMask
      if mlen = 0 then some (c, counter, .badmsg, plaintext, ciphertext)
      else
        let ciphertext ← ciphertext.setOffset (ciphertext.offset + clen)
        let plaintext ← plaintext.setCapacity E.junk (plaintext.offset + mlen)
        let clen := tlen + mlen
        if ciphertext.size < clen then
          let ciphertext ← ciphertext.setOffset (ciphertext.offset - chunkSizeLen - tlen)
          some (c, counter, .again, plaintext, ciphertext)
        else
          let counter := counter + 1
          match c.decryptPacket E counter plaintext.capacity (ciphertext.readable.take clen) with
          | (c, none) =>
            let ciphertext ← ciphertext.setOffset (ciphertext.offset - chunkSizeLen - tlen)
            some (c, counter, .badmsg, plaintext, ciphertext)
          | (c, some out) =>
            let plaintext ← plaintext.store plaintext.offset out
            let ciphertext ← ciphertext.setOffset (ciphertext.offset + clen)
            let plaintext ← plaintext.setOffset (plaintext.offset + out.length)
            some (c, counter + 1, .ok, plaintext, ciphertext)

/-- `chunk_decrypt_frame_stream`: everything that is there. -/
def chunkDecryptFrameStream (c : Cipher) (counter : UInt64)
    (plaintext ciphertext : GrowableIOBuffer) :
    Option (Cipher × UInt64 × FrameRet × GrowableIOBuffer × GrowableIOBuffer) := do
  let plaintext ← plaintext.setCapacity E.junk (plaintext.offset + ciphertext.size)
  match c.decryptPacket E counter ciphertext.size ciphertext.readable with
  | (c, none) => some (c, counter, .badmsg, plaintext, ciphertext)
  | (c, some out) =>
    let plaintext ← plaintext.store plaintext.offset out
    let plaintext ← plaintext.setOffset (plaintext.offset + out.length)
    let ciphertext ← ciphertext.setOffset (ciphertext.offset + ciphertext.size)
    some (c, counter + 1, .ok, plaintext, ciphertext)

def chunkDecryptFrame (c : Cipher) (counter : UInt64) (plaintext ciphertext : GrowableIOBuffer) :
    Option (Cipher × UInt64 × FrameRet × GrowableIOBuffer × GrowableIOBuffer) :=
  if c.method.isStream then c.chunkDecryptFrameStream E counter plaintext ciphertext
  else c.chunkDecryptFrameAead E counter plaintext ciphertext

/-! ## The decoder -/

inductive VisitorEvent where
  | receivedData (data : List UInt8)
  | protocolError
  deriving DecidableEq, Repr

def delivered (log : List VisitorEvent) : List (List UInt8) :=
  log.filterMap fun
    | .receivedData data => some data
    | .protocolError => none

/-- The loop of `process_bytes`. Every turn that goes on has consumed a byte of the chunk. -/
def processLoop (reply : List (List UInt8) → Bool) :
    ℕ → Cipher → GrowableIOBuffer → List VisitorEvent → Option (Cipher × List VisitorEvent)
  | 0, _, _, _ => none
  | turns + 1, c, chunk, log =>
    if chunk.isEmpty then some ({ c with chunk := some chunk }, log)
    else do
      let plaintext ← GrowableIOBuffer.fresh.setCapacity E.junk socketBufSize
      let (c, counter, ret, plaintext, chunk) ←
        c.chunkDecryptFrame E c.counter plaintext chunk
      match ret with
      | .again => some ({ c with chunk := some chunk }, log)
      | .badmsg => some ({ c with chunk := some chunk }, log ++ [.protocolError])
      | .ok =>
        let c := { c with counter := counter }
        let plaintext ← plaintext.setCapacity E.junk plaintext.offset
        let plaintext ← plaintext.setOffset 0
        let log := log ++ [.receivedData plaintext.readable]
        if reply (delivered log) then processLoop reply turns c chunk log
        else some ({ c with chunk := some chunk }, log)

/-- The chunk a call works on: what was left, followed by the new bytes, in a new buffer. -/
def rebuildChunk (c : Cipher) (ciphertext : GrowableIOBuffer) : Option GrowableIOBuffer :=
  match c.chunk with
  | none => some ciphertext
  | some previousChunk => GrowableIOBuffer.concat E.junk previousChunk ciphertext

/-- `process_bytes`. -/
def processBytes (reply : List (List UInt8) → Bool) (c : Cipher) (log : List VisitorEvent)
    (ciphertext : GrowableIOBuffer) : Option (Cipher × List VisitorEvent) := do
  let chunk ← c.rebuildChunk E ciphertext
  if c.init then processLoop E reply (chunk.size + 1) c chunk log
  else if chunk.size < c.keyLen then some ({ c with chunk := some chunk }, log)
  else
    let (c, chunk) ← c.decryptSalt E chunk
    processLoop E reply (chunk.size + 1) { c with init := true } chunk log

/-- Successive calls of `process_bytes`. -/
def processAll (reply : List (List UInt8) → Bool) (c : Cipher) (log : List VisitorEvent)
    (calls : List GrowableIOBuffer) : Option (Cipher × List VisitorEvent) :=
  calls.foldlM (fun (s : Cipher × List VisitorEvent) buf => processBytes E reply s.1 s.2 buf)
    (c, log)

/-- Successive calls of `encrypt`, each with a payload and the buffer it appends to. Returns the
encoder, the outcome of each call and each call's buffer. -/
def encryptAll (c : Cipher) : List (List UInt8 × GrowableIOBuffer) →
    Option (Cipher × List Bool × List GrowableIOBuffer)
  | [] => some (c, [], [])
  | (plaintext, ciphertext) :: calls => do
    let (c, ok, buf) ← c.encrypt E plaintext ciphertext
    let (c, oks, bufs) ← encryptAll c calls
    some (c, ok :: oks, buf :: bufs)

def appended (calls : List (List UInt8 × GrowableIOBuffer)) (bufs : List GrowableIOBuffer) :
    List UInt8 :=
  (List.zipWith (fun call buf => buf.everything.drop call.2.capacity) calls bufs).flatten

end Cipher

end Yass.Net
