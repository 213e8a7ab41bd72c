import Yass.Net.Cipher
import Yass.Net.IoQueue

/-!
# One direction of a relay

A connection has one queue per direction. The getters put buffers, or the ciphertext of what they
have read, behind the queue; the write loops hand its front to the socket.

* `Pipe` — the queue with two ghosts: `queued`, the bytes that were put into it, in the order of the
  queue, and `accepted`, the bytes the socket has taken.

Source: `cli/cli_connection.cpp`, `server/server_connection.cpp`, `net/stream.hpp`,
`net/network.hpp`, `net/protocol.hpp`.
-/

namespace Yass.Net

open Option (bind_eq_some_iff)

def ssFrameSize : ℕ := 16384 - 128

def kYieldAfterBytesRead : ℕ := 32 * 1024

/-! ## What the loops meet -/

/-- What the loops tell apart of an `asio::error_code`: `try_again` and `would_block` are one. -/
inductive Ec where
  | ok
  | tryAgain
  | failed
  deriving DecidableEq, Repr

/-- What `write_some` answers. -/
inductive Sent where
  | bytes (n : ℕ)
  | wouldBlock
  | failed
  deriving DecidableEq, Repr

/-- The bytes `write_some` was given room for. -/
def Sent.room : Sent → ℕ
  | .bytes n => n
  | .wouldBlock | .failed => 0

/-- A `stream`: the channel to a target, or to a proxy. -/
structure Channel where
  connected : Bool
  /-- `eof_`; the channel is closed. -/
  eof : Bool
  readInprogress : Bool
  writeInprogress : Bool
  deriving DecidableEq, Repr

namespace Channel

def new : Channel := ⟨false, false, false, false⟩

/-- `close()`. The waits are cancelled without their callbacks, so their flags stay. -/
def close (ch : Channel) : Channel := { ch with connected := false, eof := true }

/-- `wait_read`, where no wait is outstanding. -/
def waitRead (ch : Channel) : Channel :=
  if ch.connected && !ch.readInprogress then { ch with readInprogress := true } else ch

def waitWrite (ch : Channel) : Channel :=
  if ch.connected then { ch with writeInprogress := true } else ch

end Channel

/-- What one turn of the adapter's `Send()` hands to `OnReadyToSend`. -/
inductive Frame where
  | control (bytes : List UInt8)
  /-- A DATA frame of the current stream, for which the windows allow `max` bytes. -/
  | data (header : List UInt8) (max : ℕ)
  deriving DecidableEq, Repr

/-- `DataFrameSource`: the chunks of a stream that wait to be framed. The client and the server have
a copy each. -/
structure DataFrameSource where
  chunks : List GrowableIOBuffer
  lastFrame : Bool
  deriving DecidableEq, Repr

/-- `Send`, after `SelectPayloadLength(max)` has chosen the length: the payload of the frame, and
the source that is left. `none` is an abort; `some none` is `kBlocked`. -/
def DataFrameSource.send (src : DataFrameSource) (max : ℕ) :
    Option (Option (List UInt8 × DataFrameSource)) :=
  match src.chunks with
  -- an empty frame that ends the stream, if this is its end
  | [] => some (if src.lastFrame then some ([], src) else none)
  | chunk :: rest => do
    let payload := chunk.readable.take (min chunk.size max)
    let chunk ← chunk.setOffset (chunk.offset + min chunk.size max)
    some (some (payload,
      { src with chunks := if chunk.isEmpty then rest else chunk :: rest }))

/-! ## Buffers that grow at their end -/

namespace GrowableIOBuffer

/-- `b'` is `b` with bytes appended. -/
structure Extends (b b' : GrowableIOBuffer) : Prop where
  offset_eq : b'.offset = b.offset
  capacity_le : b.capacity ≤ b'.capacity
  take_eq : b'.everything.take b.capacity = b.everything

variable {b b' b'' : GrowableIOBuffer}

lemma Extends.refl (b : GrowableIOBuffer) : b.Extends b :=
  ⟨rfl, le_rfl, List.take_of_length_le b.length_everything.le⟩

lemma Extends.trans (h : b.Extends b') (h' : b'.Extends b'') : b.Extends b'' := by
  refine ⟨h'.offset_eq.trans h.offset_eq, h.capacity_le.trans h'.capacity_le, ?_⟩
  rw [← h.take_eq, ← h'.take_eq, List.take_take, Nat.min_eq_left h.capacity_le]

lemma Extends.everything_eq (h : b.Extends b') :
    b'.everything = b.everything ++ b'.everything.drop b.capacity := by
  conv_lhs => rw [← List.take_append_drop b.capacity b'.everything, h.take_eq]

lemma Extends.readable_eq (h : b.Extends b') :
    b'.readable = b.readable ++ b'.everything.drop b.capacity := by
  conv_lhs => rw [readable, h.everything_eq, h.offset_eq]
  rw [readable, List.drop_append_of_le_length]
  rw [length_everything]
  exact b.offset_le

lemma Extends.setCapacity {junk : ℕ → UInt8} {n : ℕ} (h : b.Extends b')
    (hn : b.capacity ≤ n) (hset : b'.setCapacity junk n = some b'') : b.Extends b'' := by
  rcases le_total n b'.capacity with hle | hge
  · have ho : b'.offset ≤ n := by
      rw [h.offset_eq]
      exact b.offset_le.trans hn
    obtain ⟨c, hc, hev, -, hcap, hoff⟩ := setCapacity_of_le junk hle ho
    rw [hset] at hc
    cases hc
    refine ⟨hoff.trans h.offset_eq, hcap ▸ hn, ?_⟩
    rw [hev, List.take_take, Nat.min_eq_left hn, h.take_eq]
  obtain ⟨c, hc, hev, hcap, hoff⟩ := setCapacity_of_ge junk hge
  rw [hset] at hc
  cases hc
  refine ⟨hoff.trans h.offset_eq, hcap ▸ hn, ?_⟩
  rw [← h.take_eq, ← hev, List.take_take, Nat.min_eq_left h.capacity_le]

lemma Extends.store {pos : ℕ} {bytes : List UInt8} (h : b.Extends b') (hpos : b.capacity ≤ pos)
    (hstore : b'.store pos bytes = some b'') : b.Extends b'' := by
  obtain ⟨hcap, hoff⟩ := store_eq_some hstore
  refine ⟨hoff.trans h.offset_eq, hcap ▸ h.capacity_le, ?_⟩
  have hall := b'.capacity_le
  have hle := h.capacity_le
  rw [← h.take_eq]
  unfold GrowableIOBuffer.store at hstore
  split_ifs at hstore
  cases hstore
  simp only [everything]
  rw [List.take_take, List.take_take, Nat.min_eq_left hle, List.append_assoc,
    List.take_append_of_le_length (by rw [List.length_take]; omega), List.take_take,
    Nat.min_eq_left hpos]

end GrowableIOBuffer

/-! ## Encryption extends a buffer -/

namespace Cipher

open GrowableIOBuffer (Extends)

variable {E : CipherEnv} {c c' : Cipher} {b b' : GrowableIOBuffer}

variable {pt : List UInt8}

lemma init_of_encryptPacket {packetNumber : UInt64} {maxOutput : ℕ} {out : Option (List UInt8)}
    (h : c.encryptPacket E packetNumber maxOutput pt = (c', out)) : c'.init = c.init := by
  have hsame : (c.encryptPacket E packetNumber maxOutput pt).1.init = c.init := by
    unfold encryptPacket
    dsimp only
    split_ifs <;> rfl
  rwa [h] at hsame

lemma chunkEncryptFrameAead_extends {counter counter' : UInt64} {ret : FrameRet}
    (h : c.chunkEncryptFrameAead E counter pt b = some (c', counter', ret, b')) :
    b.Extends b' ∧ c'.init = c.init := by
  obtain ⟨b₁, hb₁, h⟩ := bind_eq_some_iff.mp h
  have hext₁ := (Extends.refl b).setCapacity (Nat.le_add_right _ _) hb₁
  have hend : b.capacity ≤ b₁.offset + b.size := by
    have := b.offset_le
    rw [hext₁.offset_eq, GrowableIOBuffer.size]
    omega
  split at h
  · next c₁ hpacket =>
    obtain ⟨b₂, hb₂, h⟩ := bind_eq_some_iff.mp h
    cases h
    exact ⟨hext₁.setCapacity le_rfl hb₂, init_of_encryptPacket hpacket⟩
  · next c₁ out hpacket =>
    have hinit₁ := init_of_encryptPacket hpacket
    obtain ⟨b₂, hb₂, h⟩ := bind_eq_some_iff.mp h
    have hext₂ := hext₁.store hend hb₂
    have hend₂ : b.capacity ≤ b₂.offset + (b.size + out.length) := by
      rw [hext₂.offset_eq, ← hext₁.offset_eq]
      omega
    obtain ⟨b₃, hb₃, h⟩ := bind_eq_some_iff.mp h
    have hext₃ := hext₂.store hend₂ hb₃
    split at h
    · next c₂ hpacket₂ =>
      obtain ⟨b₄, hb₄, h⟩ := bind_eq_some_iff.mp h
      cases h
      exact ⟨hext₃.setCapacity le_rfl hb₄, (init_of_encryptPacket hpacket₂).trans hinit₁⟩
    · next c₂ out₂ hpacket₂ =>
      obtain ⟨b₄, hb₄, h⟩ := bind_eq_some_iff.mp h
      cases h
      refine ⟨hext₃.store ?_ hb₄, (init_of_encryptPacket hpacket₂).trans hinit₁⟩
      rw [hext₃.offset_eq, ← hext₂.offset_eq]
      exact hend₂

lemma chunkEncryptFrameStream_extends {counter counter' : UInt64} {ret : FrameRet}
    (h : c.chunkEncryptFrameStream E counter pt b = some (c', counter', ret, b')) :
    b.Extends b' ∧ c'.init = c.init := by
  obtain ⟨b₁, hb₁, h⟩ := bind_eq_some_iff.mp h
  have hext₁ := (Extends.refl b).setCapacity (Nat.le_add_right _ _) hb₁
  split at h
  · next c₁ hpacket =>
    obtain ⟨b₂, hb₂, h⟩ := bind_eq_some_iff.mp h
    cases h
    exact ⟨hext₁.setCapacity le_rfl hb₂, init_of_encryptPacket hpacket⟩
  · next c₁ out hpacket =>
    obtain ⟨b₂, hb₂, h⟩ := bind_eq_some_iff.mp h
    cases h
    refine ⟨hext₁.store ?_ hb₂, init_of_encryptPacket hpacket⟩
    have := b.offset_le
    rw [hext₁.offset_eq]
    omega

lemma encryptSaltOnce_extends (hinit : c.init = true ∨ b.readable = [])
    (h : c.encryptSaltOnce E b = some (c', b')) : b.Extends b' ∧ c'.init = true := by
  unfold encryptSaltOnce at h
  split_ifs at h with hc
  · cases h
    exact ⟨Extends.refl b, hc⟩
  have hempty : b.capacity ≤ b.offset := by
    have hread := hinit.resolve_left hc
    rw [← List.length_eq_zero_iff, b.length_readable, GrowableIOBuffer.size] at hread
    omega
  obtain ⟨⟨c₁, b₁⟩, hsalt, h⟩ := bind_eq_some_iff.mp h
  cases h
  refine ⟨?_, rfl⟩
  unfold encryptSalt at hsalt
  split_ifs at hsalt
  · obtain ⟨b₂, hb₂, hsalt⟩ := bind_eq_some_iff.mp hsalt
    have hext₂ := (Extends.refl b).setCapacity (Nat.le_add_right _ _) hb₂
    obtain ⟨b₃, hb₃, hsalt⟩ := bind_eq_some_iff.mp hsalt
    cases hsalt
    refine hext₂.store ?_ hb₃
    rw [hext₂.offset_eq]
    exact hempty
  obtain ⟨b₂, hb₂, hsalt⟩ := bind_eq_some_iff.mp hsalt
  have hext₂ := (Extends.refl b).setCapacity (Nat.le_add_right _ _) hb₂
  obtain ⟨b₃, hb₃, hsalt⟩ := bind_eq_some_iff.mp hsalt
  obtain ⟨c₂, -, hsalt⟩ := bind_eq_some_iff.mp hsalt
  cases hsalt
  exact hext₂.store le_rfl hb₃

/-- **Encryption only appends.** -/
theorem encrypt_extends {ok : Bool} (hinit : c.init = true ∨ b.readable = [])
    (h : c.encrypt E pt b = some (c', ok, b')) : b.Extends b' ∧ c'.init = true := by
  obtain ⟨⟨c₁, b₁⟩, hsalt, h⟩ := bind_eq_some_iff.mp h
  obtain ⟨hext₁, hinit₁⟩ := encryptSaltOnce_extends hinit hsalt
  obtain ⟨⟨c₂, counter, ret, b₂⟩, hframe, h⟩ := bind_eq_some_iff.mp h
  have hext₂ : b₁.Extends b₂ ∧ c₂.init = c₁.init := by
    unfold chunkEncryptFrame at hframe
    split_ifs at hframe
    · exact chunkEncryptFrameStream_extends hframe
    · exact chunkEncryptFrameAead_extends hframe
  dsimp only at h
  split_ifs at h
  all_goals
    cases h
    exact ⟨hext₁.trans hext₂.1, hext₂.2.trans hinit₁⟩

/-- The loop of `EncryptData`: the plaintext in pieces, all of them into one buffer. A piece that
cannot be encrypted makes the cipher call `on_protocol_error`, which the `Bool` records; the loop
goes on with the next piece. -/
def encryptPieces (E : CipherEnv) :
    ℕ → Cipher → List UInt8 → GrowableIOBuffer → Option (Cipher × Bool × GrowableIOBuffer)
  | 0, c, _, cipherbuf => some (c, true, cipherbuf)
  | turns + 1, c, plaintext, cipherbuf =>
    if plaintext = [] then some (c, true, cipherbuf)
    else do
      let (c, ok, cipherbuf) ← c.encrypt E (plaintext.take ssFrameSize) cipherbuf
      let (c, oks, cipherbuf) ←
        encryptPieces E turns c (plaintext.drop ssFrameSize) cipherbuf
      some (c, ok && oks, cipherbuf)

lemma encryptPieces_extends {turns : ℕ} {ok : Bool} (hinit : c.init = true ∨ b.readable = [])
    (h : encryptPieces E turns c pt b = some (c', ok, b')) :
    b.Extends b' ∧ (c.init = true → c'.init = true) := by
  induction turns generalizing c pt b ok with
  | zero =>
    cases h
    exact ⟨Extends.refl _, id⟩
  | succ turns ih =>
    unfold encryptPieces at h
    split_ifs at h
    · cases h
      exact ⟨Extends.refl _, id⟩
    obtain ⟨⟨c₁, ok₁, b₁⟩, hfirst, h⟩ := bind_eq_some_iff.mp h
    obtain ⟨⟨c₂, ok₂, b₂⟩, hrest, h⟩ := bind_eq_some_iff.mp h
    cases h
    obtain ⟨hext₁, hinit₁⟩ := encrypt_extends hinit hfirst
    obtain ⟨hext₂, hinit₂⟩ := ih (Or.inl hinit₁) hrest
    exact ⟨hext₁.trans hext₂, fun _ => hinit₂ hinit₁⟩

lemma encryptPieces_init {turns : ℕ} {ok : Bool} (hpt : pt ≠ [])
    (hturns : 0 < turns) (hinit : c.init = true ∨ b.readable = [])
    (h : encryptPieces E turns c pt b = some (c', ok, b')) : c'.init = true := by
  obtain ⟨turns, rfl⟩ := Nat.exists_eq_succ_of_ne_zero hturns.ne'
  rw [encryptPieces, if_neg hpt] at h
  obtain ⟨⟨c₁, ok₁, b₁⟩, hfirst, h⟩ := bind_eq_some_iff.mp h
  obtain ⟨⟨c₂, ok₂, b₂⟩, hrest, h⟩ := bind_eq_some_iff.mp h
  cases h
  have hinit₁ := (encrypt_extends hinit hfirst).2
  exact (encryptPieces_extends (Or.inl hinit₁) hrest).2 hinit₁

end Cipher

/-! ## The pipe -/

structure Pipe where
  /-- `downstream_` or `upstream_`. -/
  queue : IoQueue GrowableIOBuffer
  /-- The bytes put into the queue so far, in the order of the queue. -/
  queued : List UInt8
  accepted : List UInt8

namespace Pipe

def new : Pipe := ⟨.new, [], []⟩

def pending (p : Pipe) : List UInt8 := (p.queue.toList.map GrowableIOBuffer.readable).flatten

/-- `queue.byte_length()`. -/
def byteLength (p : Pipe) : ℕ := (p.queue.toList.map GrowableIOBuffer.size).sum

/-- `queue.push_back(buf)`. -/
def push (p : Pipe) (buf : GrowableIOBuffer) : Pipe :=
  { p with queue := p.queue.pushBack buf, queued := p.queued ++ buf.readable }

/-- `EncryptData`: the ciphertext goes to the end of the last buffer of the queue, which may have
been sent in part, or into a new buffer.
Source: `CliConnection::EncryptData`, `ServerConnection::EncryptData`. -/
def encryptData (E : CipherEnv) (encoder : Cipher) (p : Pipe) (plaintext : GrowableIOBuffer) :
    Option (Cipher × Bool × Pipe) := do
  let p := if p.queue.isEmpty then p.push .fresh else p
  let cipherbuf ← p.queue.back
  let (encoder, ok, cipherbuf') ←
    Cipher.encryptPieces E plaintext.size encoder plaintext.readable cipherbuf
  let queue ← p.queue.setBack cipherbuf'
  some (encoder, ok,
    { p with queue, queued := p.queued ++ cipherbuf'.everything.drop cipherbuf.capacity })

/-- `appendBytesAtEnd` on the front of the queue. The bytes come behind those of the front, and
before everything else that was queued. -/
def appendFront (junk : ℕ → UInt8) (p : Pipe) (bytes : List UInt8) : Option Pipe := do
  let buf ← p.queue.front
  let buf' ← buf.appendBytesAtEnd junk bytes
  let queue ← p.queue.setFront buf'
  let pos := p.accepted.length + buf.size
  some { p with queue, queued := p.queued.take pos ++ bytes ++ p.queued.drop pos }

/-- `pop_front`, if the front has become empty. -/
def popFrontIf (queue : IoQueue GrowableIOBuffer) (empty : Bool) :
    Option (IoQueue GrowableIOBuffer) :=
  if empty then queue.popFront else some queue

/-- `write_some` of the front of the queue, of which the socket takes at most `n` bytes, and
`pop_front` when nothing of it is left. Returns the number of bytes written and whether the buffer
is empty. -/
def writeFront (p : Pipe) (n : ℕ) : Option (Pipe × ℕ × Bool) := do
  let buf ← p.queue.front
  let written := min n buf.size
  let buf' ← buf.setOffset (buf.offset + written)
  let queue ← p.queue.setFront buf'
  let queue ← popFrontIf queue buf'.isEmpty
  some ({ p with queue, accepted := p.accepted ++ buf.readable.take written }, written,
    buf'.isEmpty)

/-! ### Nothing is lost, sent twice or reordered -/

/-- What was accepted, and then what is still in the queue, is what was queued. -/
def Sound (p : Pipe) : Prop := p.queued = p.accepted ++ p.pending

variable {E : CipherEnv} {encoder encoder' : Cipher} {p p' : Pipe} {plaintext : GrowableIOBuffer}
  {ok : Bool}

lemma Sound.isPrefix (h : p.Sound) : p.accepted <+: p.queued := ⟨p.pending, h.symm⟩

lemma pending_of_isEmpty (h : p.queue.isEmpty) : p.pending = [] := by
  rw [pending, p.queue.isEmpty_iff.mp h]
  rfl

lemma byteLength_eq (p : Pipe) : p.byteLength = p.pending.length := by
  simp [byteLength, pending, List.length_flatten, Function.comp_def]

lemma byteLength_of_isEmpty (h : p.queue.isEmpty) : p.byteLength = 0 := by
  rw [byteLength_eq, pending_of_isEmpty h, List.length_nil]

lemma Sound.accepted_eq (h : p.Sound) (hempty : p.queue.isEmpty) :
    p.accepted = p.queued := by
  rw [h, pending_of_isEmpty hempty, List.append_nil]

lemma sound_new : new.Sound := by
  simp [Sound, new, pending]

@[simp] lemma pending_push (p : Pipe) (buf : GrowableIOBuffer) :
    (p.push buf).pending = p.pending ++ buf.readable := by
  simp [pending, push]

@[simp] lemma accepted_push (p : Pipe) (buf : GrowableIOBuffer) :
    (p.push buf).accepted = p.accepted := rfl

lemma pending_pushAll (p : Pipe) (bufs : List GrowableIOBuffer) :
    (bufs.foldl push p).pending = p.pending ++ (bufs.map GrowableIOBuffer.readable).flatten := by
  induction bufs generalizing p with
  | nil => simp
  | cons buf bufs ih => simp [ih]

lemma queued_pushAll (p : Pipe) (bufs : List GrowableIOBuffer) :
    (bufs.foldl push p).queued = p.queued ++ (bufs.map GrowableIOBuffer.readable).flatten := by
  induction bufs generalizing p with
  | nil => simp
  | cons buf bufs ih => simp [ih, push]

lemma toList_push_ne_nil (p : Pipe) (buf : GrowableIOBuffer) : (p.push buf).queue.toList ≠ [] := by
  simp [push]

lemma Sound.push (h : p.Sound) (buf : GrowableIOBuffer) : (p.push buf).Sound := by
  rw [Sound, pending_push, accepted_push, ← List.append_assoc, ← h]
  rfl

/-- **`EncryptData`** encrypts onto the last buffer of the queue, or onto a new one. -/
lemma encryptData_pieces (h : p.encryptData E encoder plaintext = some (encoder', ok, p')) :
    ∃ b b', Cipher.encryptPieces E plaintext.size encoder plaintext.readable b =
        some (encoder', ok, b') ∧ (p.pending = [] → b.readable = []) ∧
      p'.queued = p.queued ++ b'.everything.drop b.capacity ∧ p'.accepted = p.accepted ∧
      (b.Extends b' → p'.pending = p.pending ++ b'.everything.drop b.capacity) := by
  unfold encryptData at h
  generalize hp₁ : (if p.queue.isEmpty then p.push .fresh else p) = p₁ at h
  have hsame : p₁.queued = p.queued ∧ p₁.pending = p.pending ∧ p₁.accepted = p.accepted ∧
      p₁.queue.toList ≠ [] := by
    rw [← hp₁]
    split_ifs with hempty
    · exact ⟨by simp [push], by simp, rfl, toList_push_ne_nil p _⟩
    · exact ⟨rfl, rfl, rfl, fun h => hempty (p.queue.isEmpty_iff.mpr h)⟩
  obtain ⟨hqueued, hpend, haccepted, hne⟩ := hsame
  have hlist := (List.dropLast_append_getLast hne).symm
  obtain ⟨b, hb, h⟩ := bind_eq_some_iff.mp h
  rw [p₁.queue.back_eq hne, List.getLast?_eq_some_getLast hne, Option.some_inj] at hb
  rw [hb] at hlist
  obtain ⟨⟨c₁, ok₁, b'⟩, hpieces, h⟩ := bind_eq_some_iff.mp h
  obtain ⟨q, hq, h⟩ := bind_eq_some_iff.mp h
  cases h
  obtain ⟨q', hq', hset⟩ := IoQueue.setBack_of_append hlist b'
  rw [hq] at hq'
  cases hq'
  rw [← hpend, ← hqueued, pending, hlist]
  refine ⟨b, b', hpieces, fun hnil => ?_, rfl, haccepted, fun hext => ?_⟩
  · rw [List.map_append, List.flatten_append, List.append_eq_nil_iff] at hnil
    simpa using hnil.2
  · rw [pending, hset]
    simp [hext.readable_eq]

/-- **`EncryptData` on a buffer that was sent in part.** The ciphertext is appended to what is
queued, and nothing else changes. -/
lemma encryptData_eq_some (hinit : encoder.init = true ∨ p.pending = [])
    (h : p.encryptData E encoder plaintext = some (encoder', ok, p')) :
    ∃ ciphertext, p'.queued = p.queued ++ ciphertext ∧ p'.pending = p.pending ++ ciphertext ∧
      p'.accepted = p.accepted ∧ (encoder'.init = true ∨ p'.pending = []) := by
  obtain ⟨b, b', hpieces, hread, hqueued, haccepted, hpending⟩ := encryptData_pieces h
  have hinit' : encoder.init = true ∨ b.readable = [] := hinit.imp_right hread
  have hpending := hpending (Cipher.encryptPieces_extends hinit' hpieces).1
  refine ⟨_, hqueued, hpending, haccepted, ?_⟩
  by_cases hne : plaintext.readable = []
  · -- nothing was encrypted
    have hsize : plaintext.size = 0 := by rw [← plaintext.length_readable, hne, List.length_nil]
    rw [hsize, hne] at hpieces
    cases hpieces
    refine hinit.imp_right fun hnil => ?_
    rw [hpending, hnil, List.nil_append, List.drop_eq_nil_iff]
    exact b.length_everything.le
  have hsize : 0 < plaintext.size := by
    rw [← plaintext.length_readable]
    exact List.length_pos_iff.mpr hne
  exact .inl (Cipher.encryptPieces_init hne hsize hinit' hpieces)

lemma Sound.encryptData (h : p.Sound) (hinit : encoder.init = true ∨ p.pending = [])
    (henc : p.encryptData E encoder plaintext = some (encoder', ok, p')) : p'.Sound := by
  obtain ⟨ciphertext, hqueued, hpending, haccepted, -⟩ := encryptData_eq_some hinit henc
  rw [Sound, hqueued, hpending, haccepted, ← List.append_assoc, ← h]

lemma front_cons {q q' : IoQueue GrowableIOBuffer} {buf buf' : GrowableIOBuffer}
    (hfront : q.front = some buf) (hset : q.setFront buf' = some q') :
    ∃ rest, q.toList = buf :: rest ∧ q'.toList = buf' :: rest := by
  have hne : q.toList ≠ [] := by
    intro hnil
    rw [IoQueue.setFront, dif_pos hnil] at hset
    cases hset
  obtain ⟨b, rest, hlist⟩ := List.exists_cons_of_ne_nil hne
  rw [q.front_eq hne, hlist] at hfront
  cases hfront
  obtain ⟨q₁, hq₁, hlist₁⟩ := IoQueue.setFront_of_cons hlist buf'
  rw [hset] at hq₁
  cases hq₁
  exact ⟨rest, hlist, hlist₁⟩

variable {n written : ℕ} {empty : Bool}

lemma writeFront_eq_some (h : p.writeFront n = some (p', written, empty)) :
    ∃ buf rest, p.queue.toList = buf :: rest ∧ written = min n buf.size ∧
      p'.queued = p.queued ∧ p'.accepted = p.accepted ++ buf.readable.take written ∧
      p.pending = buf.readable.take written ++ p'.pending ∧
      (empty = true → p'.queue.toList = rest) ∧
      (empty = false → ∃ buf', p'.queue.toList = buf' :: rest ∧ buf'.readable ≠ []) := by
  obtain ⟨buf, hfront, h⟩ := bind_eq_some_iff.mp h
  obtain ⟨buf', hoff, h⟩ := bind_eq_some_iff.mp h
  obtain ⟨q, hset, h⟩ := bind_eq_some_iff.mp h
  obtain ⟨q', hpop, h⟩ := bind_eq_some_iff.mp h
  cases h
  obtain ⟨rest, hlist, hlist'⟩ := front_cons hfront hset
  obtain ⟨b, hb, hread, -⟩ := GrowableIOBuffer.setOffset_add (Nat.min_le_right n buf.size)
  rw [hoff] at hb
  cases hb
  have hpending : p.pending = buf.readable ++ (rest.map GrowableIOBuffer.readable).flatten := by
    rw [pending, hlist]
    rfl
  refine ⟨buf, rest, hlist, rfl, rfl, rfl, ?_, fun hempty => ?_, fun hempty => ?_⟩
  · have hsplit : buf.readable = buf.readable.take (min n buf.size) ++ buf'.readable := by
      rw [hread, List.take_append_drop]
    unfold popFrontIf at hpop
    by_cases hempty : buf'.isEmpty
    · rw [if_pos hempty] at hpop
      obtain ⟨q₁, hq₁, hlist₁⟩ := IoQueue.popFront_of_cons hlist'
      rw [hpop] at hq₁
      cases hq₁
      rw [buf'.isEmpty_iff.mp hempty, List.append_nil] at hsplit
      rw [hpending, pending, hlist₁, ← hsplit]
    rw [if_neg hempty] at hpop
    cases hpop
    rw [hpending, pending, hlist']
    conv_lhs => rw [hsplit]
    simp
  · rw [popFrontIf, if_pos hempty] at hpop
    obtain ⟨q₁, hq₁, hlist₁⟩ := IoQueue.popFront_of_cons hlist'
    rw [hpop] at hq₁
    cases hq₁
    exact hlist₁
  rw [popFrontIf, if_neg (by simp [hempty])] at hpop
  cases hpop
  refine ⟨buf', hlist', fun hnil => ?_⟩
  rw [← buf'.isEmpty_iff, hempty] at hnil
  cases hnil

lemma byteLength_writeFront
    (h : p.writeFront n = some (p', written, empty)) : p'.byteLength ≤ p.byteLength := by
  obtain ⟨buf, rest, -, -, -, -, hpending, -, -⟩ := writeFront_eq_some h
  rw [byteLength_eq, byteLength_eq, hpending, List.length_append]
  exact Nat.le_add_left _ _

lemma Sound.writeFront (h : p.Sound)
    (hwrite : p.writeFront n = some (p', written, empty)) : p'.Sound := by
  obtain ⟨buf, rest, -, -, hqueued, haccepted, hpending, -, -⟩ := writeFront_eq_some hwrite
  rw [Sound, hqueued, haccepted, h, hpending, List.append_assoc]

variable {junk : ℕ → UInt8} {bytes : List UInt8}

lemma appendFront_eq_some (h : p.appendFront junk bytes = some p') :
    ∃ buf rest buf', p.queue.toList = buf :: rest ∧ p'.queue.toList = buf' :: rest ∧
      buf'.readable = buf.readable ++ bytes ∧ p'.accepted = p.accepted ∧
      p'.queued = p.queued.take (p.accepted.length + buf.size) ++ bytes ++
        p.queued.drop (p.accepted.length + buf.size) := by
  obtain ⟨buf, hfront, h⟩ := bind_eq_some_iff.mp h
  obtain ⟨buf', happ, h⟩ := bind_eq_some_iff.mp h
  obtain ⟨q, hset, h⟩ := bind_eq_some_iff.mp h
  cases h
  obtain ⟨rest, hlist, hlist'⟩ := front_cons hfront hset
  refine ⟨buf, rest, buf', hlist, hlist', ?_, rfl, rfl⟩
  obtain ⟨b₁, hb₁, hstore⟩ := bind_eq_some_iff.mp happ
  obtain ⟨b₁', rst, hb₁', hlen, hev, hcap, hoff⟩ :=
    GrowableIOBuffer.setCapacity_add junk buf bytes.length
  rw [hb₁] at hb₁'
  cases hb₁'
  obtain ⟨b₂, hb₂, hev₂, -, hoff₂⟩ := GrowableIOBuffer.store_append hev hlen.ge
  rw [GrowableIOBuffer.length_everything, hstore] at hb₂
  cases hb₂
  rw [GrowableIOBuffer.readable, hev₂, hoff₂, hoff, List.drop_eq_nil_of_le hlen.le,
    List.append_nil, List.drop_append_of_le_length]
  · rfl
  · rw [GrowableIOBuffer.length_everything]
    exact buf.offset_le

lemma Sound.appendFront (h : p.Sound) (happ : p.appendFront junk bytes = some p') : p'.Sound := by
  obtain ⟨buf, rest, buf', hlist, hlist', hread, haccepted, hpatched⟩ := appendFront_eq_some happ
  have hqueued : p.queued = p.accepted ++ buf.readable ++
      (rest.map GrowableIOBuffer.readable).flatten := by
    rw [h, pending, hlist]
    simp
  have hlen : (p.accepted ++ buf.readable).length = p.accepted.length + buf.size := by simp
  rw [Sound, hpatched, haccepted, pending, hlist', hqueued, ← hlen, List.take_left, List.drop_left]
  simp [hread]

end Pipe

end Yass.Net
