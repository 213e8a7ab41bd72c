import Yass.Lib.Framing
import Yass.Net.Cipher

/-!
# What the AEAD decoder and encoder compute, on lists of bytes

`Yass.Net.Cipher` works on buffers with offsets and capacities. Here the same two machines are
written on plain byte lists, and the buffer code is proved to compute them.

* `processBytes_spec`, `processAll_spec` — for every buffer, every cut and every visitor,
  `process_bytes` is `pump` of that framer on the bytes kept and the bytes given.
-/

namespace Yass.Net

open Yass.Crypto Framing
open Option (bind_eq_bind bind_some)
open List (length_append length_drop)
open GrowableIOBuffer (length_readable length_everything setOffset_add setOffset_of_le
  setCapacity_add setCapacity_of_le store_append)

inductive Phase where
  | salt
  | frames (key : List UInt8) (counter : UInt64)
  deriving DecidableEq, Repr

inductive StreamItem where
  | salt (bytes : List UInt8)
  | payload (bytes : List UInt8)
  deriving DecidableEq, Repr

def payloads (items : List StreamItem) : List (List UInt8) :=
  items.filterMap fun
    | .payload p => some p
    | .salt _ => none

@[simp] lemma payloads_nil : payloads [] = [] := rfl

@[simp] lemma payloads_append (l₁ l₂ : List StreamItem) :
    payloads (l₁ ++ l₂) = payloads l₁ ++ payloads l₂ := by
  simp [payloads]

@[simp] lemma payloads_salt (s : List UInt8) : payloads [.salt s] = [] := rfl

@[simp] lemma payloads_payload (p : List UInt8) : payloads [.payload p] = [p] := rfl

@[simp] lemma payloads_map_payload (l : List (List UInt8)) :
    payloads (l.map StreamItem.payload) = l := by
  induction l with
  | nil => rfl
  | cons p l ih => simp [payloads]

variable (E : CipherEnv) (m : CipherMethod) (master : List UInt8)

/-- The nonce of a packet: the crypter's `iv_` is all zero for an AEAD method. -/
def aeadNonce (packetNumber : UInt64) : List UInt8 :=
  packetNonce m.layout (List.replicate m.nonceSize 0) packetNumber

def subkey (salt : List UInt8) : List UInt8 :=
  (cryptoHkdf E.hashes salt master subkeyInfo m.keySize).getD []

/-- One try at a frame: a sealed length, then a sealed payload of that length. -/
def frameAttempt (key : List UInt8) (counter : UInt64) (b : List UInt8) :
    Attempt Phase StreamItem :=
  let t := m.tagSize
  if b.length < t + chunkSizeLen + t then .more
  else
    match (E.aead m).ctxOpen key (aeadNonce m counter) (b.take (chunkSizeLen + t)) with
    | none => .bad
    | some len =>
      let mlen := Cipher.ntohs len &&& chunkSizeMask
      if mlen = 0 then .bad
      else if (b.drop (chunkSizeLen + t)).length < t + mlen then .more
      else
        match (E.aead m).ctxOpen key (aeadNonce m (counter + 1))
            ((b.drop (chunkSizeLen + t)).take (t + mlen)) with
        | none => .bad
        | some p =>
          .item (.payload p) (chunkSizeLen + t + (t + mlen)) (.frames key (counter + 1 + 1))

lemma frameAttempt_item {key b : List UInt8} {counter : UInt64} {a : StreamItem} {n : ℕ}
    {s : Phase} (h : frameAttempt E m key counter b = .item a n s) :
    ∃ len p mlen, (E.aead m).ctxOpen key (aeadNonce m counter) (b.take (chunkSizeLen + m.tagSize)) =
        some len ∧ mlen = Cipher.ntohs len &&& chunkSizeMask ∧ 0 < mlen ∧
      (E.aead m).ctxOpen key (aeadNonce m (counter + 1))
        ((b.drop (chunkSizeLen + m.tagSize)).take (m.tagSize + mlen)) = some p ∧
      n = chunkSizeLen + m.tagSize + (m.tagSize + mlen) ∧ n ≤ b.length ∧
      a = .payload p ∧ s = .frames key (counter + 1 + 1) := by
  simp only [frameAttempt] at h
  split_ifs at h with hshort
  split at h
  · cases h
  rename_i len hlen
  split_ifs at h with hzero hbody
  split at h
  · cases h
  rename_i p hp
  cases h
  rw [length_drop] at hbody
  exact ⟨len, p, _, hlen, rfl, Nat.pos_of_ne_zero hzero, hp, rfl, by omega, rfl, rfl⟩

lemma frameAttempt_append {key b : List UInt8} {counter : UInt64} (c : List UInt8)
    (h : frameAttempt E m key counter b ≠ .more) :
    frameAttempt E m key counter (b ++ c) = frameAttempt E m key counter b := by
  simp only [frameAttempt] at h ⊢
  by_cases hshort : b.length < m.tagSize + chunkSizeLen + m.tagSize
  · simp [hshort] at h
  have hhead : chunkSizeLen + m.tagSize ≤ b.length := by omega
  rw [if_neg hshort] at h ⊢
  rw [if_neg (by rw [length_append]; omega), List.take_append_of_le_length hhead,
    List.drop_append_of_le_length hhead]
  split at h
  · rfl
  rename_i len hlen
  by_cases hzero : Cipher.ntohs len &&& chunkSizeMask = 0
  · simp [hzero]
  rw [if_neg hzero] at h ⊢
  by_cases hbody : (b.drop (chunkSizeLen + m.tagSize)).length <
      m.tagSize + (Cipher.ntohs len &&& chunkSizeMask)
  · exact absurd (if_pos hbody) h
  rw [if_neg (by rw [length_append]; omega), if_neg hbody,
    List.take_append_of_le_length (by omega), if_neg hzero]

def streamAttempt : Phase → List UInt8 → Attempt Phase StreamItem
  | .salt, b =>
    if b.length < m.keySize then .more
    else .item (.salt (b.take m.keySize)) m.keySize
      (.frames (subkey E m master (b.take m.keySize)) 0)
  | .frames key counter, b => frameAttempt E m key counter b

/-- The decoder's tries are a framer: a salt or a frame is never empty, and its verdict is final. -/
def aeadFramer : Framer UInt8 Phase StreamItem where
  attempt := streamAttempt E m master
  item_pos := by
    intro s b a n s' h
    cases s with
    | salt =>
      simp only [streamAttempt] at h
      split_ifs at h
      cases h
      exact m.keySize_pos
    | frames key counter =>
      obtain ⟨_, _, _, -, -, -, -, hn, -⟩ := frameAttempt_item E m h
      rw [hn, chunkSizeLen]
      omega
  item_le := by
    intro s b a n s' h
    cases s with
    | salt =>
      simp only [streamAttempt] at h
      split_ifs at h
      cases h
      omega
    | frames key counter =>
      obtain ⟨_, _, _, -, -, -, -, -, hn, -⟩ := frameAttempt_item E m h
      exact hn
  stable := by
    intro s b c h
    cases s with
    | salt =>
      simp only [streamAttempt] at h ⊢
      by_cases hshort : b.length < m.keySize
      · simp [hshort] at h
      rw [if_neg hshort, if_neg (by rw [length_append]; omega),
        List.take_append_of_le_length (by omega)]
    | frames key counter => exact frameAttempt_append E m c h

/-! ## The buffer code computes the framer -/

namespace Cipher

def rest (c : Cipher) : List UInt8 := (c.chunk.map GrowableIOBuffer.readable).getD []

def phase (c : Cipher) : Phase := if c.init then .frames c.implKey c.counter else .salt

/-- A cipher of AEAD method `m` with this master key, at any point of its life. -/
structure IsAead (c : Cipher) : Prop where
  method_eq : c.method = m
  notStream : m.isStream = false
  key_eq : c.key = master
  keyLen_eq : c.keyLen = m.keySize
  iv_eq : c.iv = List.replicate m.nonceSize 0
  fresh : c.init = false → c.counter = 0

variable {E m master} {c : Cipher}

lemma IsAead.nonce_eq (h : IsAead m master c) (pn : UInt64) : c.nonce pn = aeadNonce m pn := by
  rw [nonce, aeadNonce, h.method_eq, h.iv_eq]

lemma IsAead.decryptPacket_eq (h : IsAead m master c) (pn : UInt64) {maxOutput : ℕ}
    {ct : List UInt8} (hct : ct.length = maxOutput + m.tagSize) :
    c.decryptPacket E pn maxOutput ct =
      (c, (E.aead m).ctxOpen c.implKey (aeadNonce m pn) ct) := by
  obtain rfl := h.method_eq
  have hlen : ¬ ct.length < c.method.tagSize := by omega
  have hstream : ¬ c.method.isStream = true := by simp [h.notStream]
  rw [decryptPacket, if_neg hlen, if_neg hstream, h.nonce_eq]
  congr 1
  -- the output always fits: its length is fixed by that of the ciphertext
  cases hopen : (E.aead c.method).ctxOpen c.implKey (aeadNonce c.method pn) ct with
  | none => rfl
  | some p =>
    have hp := (E.aead c.method).length_open hopen
    have hfit : p.length ≤ maxOutput := by omega
    simp [Option.filter, hfit]

/-- The relation between a try of the framer and a call of `chunk_decrypt_frame_aead`: which
return value, how far the ciphertext offset moved, and what is in the plaintext buffer. -/
def FrameOutcome (key : List UInt8) (b b' p' : GrowableIOBuffer) (counter' : UInt64)
    (ret : FrameRet) : Attempt Phase StreamItem → Prop
  | .more => ret = .again ∧ b'.offset = b.offset
  | .bad => ret = .badmsg ∧ b'.offset = b.offset
  | .item a n s => ret = .ok ∧ b'.offset = b.offset + n ∧ s = .frames key counter' ∧
      a = .payload p'.everything ∧ p'.offset = p'.capacity

/-- **One frame.** `chunk_decrypt_frame_aead` on a buffer does what a try of the framer says about
the buffer's readable bytes; it never aborts, and it never changes the buffer's contents. -/
lemma IsAead.chunkDecryptFrameAead_spec (h : IsAead m master c) (counter : UInt64)
    {p : GrowableIOBuffer} (hp : p.offset = 0) (b : GrowableIOBuffer) :
    ∃ counter' ret p' b',
      c.chunkDecryptFrameAead E counter p b = some (c, counter', ret, p', b') ∧
      b'.everything = b.everything ∧ b'.capacity = b.capacity ∧
      FrameOutcome c.implKey b b' p' counter' ret
        (frameAttempt E m c.implKey counter b.readable) := by
  have hm := h.method_eq
  simp only [chunkDecryptFrameAead, frameAttempt, hm, length_readable]
  by_cases hshort : b.size < m.tagSize + chunkSizeLen + m.tagSize
  · simp only [if_pos hshort]
    exact ⟨_, _, _, _, rfl, rfl, rfl, rfl, rfl⟩
  simp only [if_neg hshort]
  have hhead : chunkSizeLen + m.tagSize ≤ b.size := by omega
  have hheadLen :
      (b.readable.take (chunkSizeLen + m.tagSize)).length = chunkSizeLen + m.tagSize := by
    simp [hhead]
  rw [h.decryptPacket_eq counter hheadLen]
  cases hlen : (E.aead m).ctxOpen c.implKey (aeadNonce m counter)
      (b.readable.take (chunkSizeLen + m.tagSize)) with
  | none => exact ⟨_, _, _, _, rfl, rfl, rfl, rfl, rfl⟩
  | some len =>
    simp only
    by_cases hzero : ntohs len &&& chunkSizeMask = 0
    · simp only [if_pos hzero]
      exact ⟨_, _, _, _, rfl, rfl, rfl, rfl, rfl⟩
    simp only [if_neg hzero]
    obtain ⟨b₁, hb₁, hread₁, hev₁, hcap₁, hoff₁⟩ := setOffset_add hhead
    have hsize₁ : b₁.size = b.size - (chunkSizeLen + m.tagSize) := by
      rw [GrowableIOBuffer.size, GrowableIOBuffer.size, hcap₁, hoff₁]
      omega
    have hback : b₁.offset - chunkSizeLen - m.tagSize = b.offset := by omega
    have hbackLe : b.offset ≤ b₁.capacity := by rw [hcap₁]; exact b.offset_le
    obtain ⟨b₂, hb₂, hev₂, -, hcap₂, hoff₂⟩ := setOffset_of_le hbackLe
    obtain ⟨p₁, hp₁, hpcap₁, hpoff₁⟩ := GrowableIOBuffer.setCapacity_of_offset_le E.junk
      (Nat.le_add_right p.offset (ntohs len &&& chunkSizeMask))
    simp only [hb₁, hp₁, hback, hb₂, bind_some, bind_eq_bind, length_drop,
      length_readable, ← hsize₁]
    by_cases hbody : b₁.size < m.tagSize + (ntohs len &&& chunkSizeMask)
    · simp only [if_pos hbody]
      exact ⟨_, _, _, _, rfl, hev₂.trans hev₁, hcap₂.trans hcap₁, rfl, hoff₂⟩
    simp only [if_neg hbody]
    rw [hp, Nat.zero_add] at hpcap₁
    have hbodyLen : (b₁.readable.take (m.tagSize + (ntohs len &&& chunkSizeMask))).length =
        p₁.capacity + m.tagSize := by
      simp only [List.length_take, length_readable]
      omega
    rw [h.decryptPacket_eq (counter + 1) hbodyLen, ← hread₁]
    cases hopen : (E.aead m).ctxOpen c.implKey (aeadNonce m (counter + 1))
        (b₁.readable.take (m.tagSize + (ntohs len &&& chunkSizeMask))) with
    | none => exact ⟨_, _, _, _, rfl, hev₂.trans hev₁, hcap₂.trans hcap₁, rfl, hoff₂⟩
    | some out =>
      have hout : out.length = p₁.capacity := by
        have := (E.aead m).length_open hopen
        omega
      obtain ⟨p₂, hp₂, hpev₂, hpcap₂, hpoff₂⟩ := GrowableIOBuffer.store_all hout
      obtain ⟨b₃, hb₃, -, hev₃, hcap₃, hoff₃⟩ :=
        setOffset_add (Nat.le_of_not_lt hbody)
      have hfull : p₂.offset + out.length ≤ p₂.capacity := by omega
      obtain ⟨p₃, hp₃, hpev₃, -, hpcap₃, hpoff₃⟩ := setOffset_of_le hfull
      have hstart : p₁.offset = 0 := hpoff₁.trans hp
      simp only [hstart, hp₂, hb₃, hp₃, bind_some]
      refine ⟨_, _, _, _, rfl, hev₃.trans hev₁, hcap₃.trans hcap₁, rfl, ?_, rfl, ?_, ?_⟩
      · omega
      · rw [hpev₃, hpev₂]
      · omega

def consumer (reply : List (List UInt8) → Bool) (items : List StreamItem) : Bool :=
  match items.getLast? with
  | some (.payload _) => reply (payloads items)
  | _ => true

def deliveries (items : List StreamItem) : List VisitorEvent :=
  (payloads items).map VisitorEvent.receivedData

def raised : Stop → List VisitorEvent
  | .stuck => [.protocolError]
  | .starved | .paused => []

@[simp] lemma delivered_append (l₁ l₂ : List VisitorEvent) :
    delivered (l₁ ++ l₂) = delivered l₁ ++ delivered l₂ := by
  simp [delivered]

@[simp] lemma delivered_deliveries (items : List StreamItem) :
    delivered (deliveries items) = payloads items := by
  simp [delivered, deliveries, List.filterMap_map]

@[simp] lemma deliveries_nil : deliveries [] = [] := rfl

lemma deliveries_append (l₁ l₂ : List StreamItem) :
    deliveries (l₁ ++ l₂) = deliveries l₁ ++ deliveries l₂ := by
  simp [deliveries]

variable {b : GrowableIOBuffer}

lemma readable_of_offset_add {b' : GrowableIOBuffer} {n : ℕ}
    (hev : b'.everything = b.everything) (hoff : b'.offset = b.offset + n) :
    b'.readable = b.readable.drop n := by
  rw [GrowableIOBuffer.readable, GrowableIOBuffer.readable, hev, hoff, List.drop_drop]

lemma deliver_plaintext (junk : ℕ → UInt8) {p : GrowableIOBuffer} (h : p.offset = p.capacity) :
    ∃ p₁ p₂, p.setCapacity junk p.offset = some p₁ ∧ p₁.setOffset 0 = some p₂ ∧
      p₂.readable = p.everything := by
  obtain ⟨p₁, hp₁, hev₁, -, -, -⟩ := setCapacity_of_le junk h.le le_rfl
  obtain ⟨p₂, hp₂, hev₂, -, -, hoff₂⟩ := setOffset_of_le (Nat.zero_le p₁.capacity)
  refine ⟨p₁, p₂, hp₁, hp₂, ?_⟩
  rw [GrowableIOBuffer.readable, hev₂, hoff₂, hev₁, List.drop_zero, h,
    ← length_everything, List.take_length]

variable (m master) in
/-- The outcome `out` of a call that started with this log is what taking items gave: the
deliveries and the error are logged, and the decoder is where the framer is. -/
def Realizes (out : Option (Cipher × List VisitorEvent)) (log : List VisitorEvent)
    (r : Taken UInt8 Phase StreamItem) : Prop :=
  ∃ c', out = some (c', log ++ deliveries r.items ++ raised r.why) ∧ IsAead m master c' ∧
    c'.phase = r.state ∧ c'.rest = r.rest

variable {log : List VisitorEvent}

/-- **The loop.** Given a turn for every byte of the chunk and one more, the loop of
`process_bytes` ends and does what `pump` says about the chunk's bytes. -/
lemma IsAead.processLoop_spec (h : IsAead m master c) (hinit : c.init)
    (reply : List (List UInt8) → Bool) {turns : ℕ} {chunk : GrowableIOBuffer}
    (hturns : chunk.size < turns) {past : List StreamItem} (hlog : delivered log = payloads past) :
    Realizes m master (processLoop E reply turns c chunk log) log
      ((aeadFramer E m master).pump (consumer reply) past c.phase chunk.readable) := by
  induction turns generalizing c chunk log past with
  | zero => omega
  | succ turns ih =>
    have hphase : c.phase = .frames c.implKey c.counter := by rw [phase, if_pos hinit]
    have hnext (chunk' : GrowableIOBuffer) : IsAead m master { c with chunk := some chunk' } :=
      { h with }
    rw [processLoop]
    by_cases hempty : chunk.isEmpty
    · have hnil : chunk.readable = [] := chunk.isEmpty_iff.mp hempty
      have hmore : (aeadFramer E m master).attempt c.phase chunk.readable = .more := by
        rw [hphase, hnil]
        exact if_pos (by simp [chunkSizeLen])
      rw [if_pos hempty, Framer.pump_of_more hmore]
      exact ⟨_, by simp [raised], hnext chunk, rfl, rfl⟩
    rw [if_neg hempty]
    obtain ⟨p, hp, -, hpoff⟩ := GrowableIOBuffer.setCapacity_fresh E.junk socketBufSize
    obtain ⟨counter', ret, p', b', hframe, hev, hcap, hout⟩ :=
      h.chunkDecryptFrameAead_spec (E := E) c.counter hpoff chunk
    have hstream : ¬ c.method.isStream = true := by simp [h.method_eq, h.notStream]
    simp only [hp, chunkDecryptFrame, if_neg hstream, hframe, bind_some,
      bind_eq_bind]
    have hatt : (aeadFramer E m master).attempt c.phase chunk.readable =
        frameAttempt E m c.implKey c.counter chunk.readable := by rw [hphase]; rfl
    cases htry : frameAttempt E m c.implKey c.counter chunk.readable with
    | more =>
      rw [htry] at hatt hout
      obtain ⟨rfl, hoff⟩ := hout
      rw [Framer.pump_of_more hatt]
      refine ⟨_, by simp [raised], hnext b', rfl, ?_⟩
      exact readable_of_offset_add (n := 0) hev hoff
    | bad =>
      rw [htry] at hatt hout
      obtain ⟨rfl, hoff⟩ := hout
      rw [Framer.pump_of_bad hatt]
      refine ⟨_, by simp [raised], hnext b', rfl, ?_⟩
      exact readable_of_offset_add (n := 0) hev hoff
    | item a n s =>
      rw [htry] at hatt hout
      obtain ⟨rfl, hoff, rfl, rfl, hfull⟩ := hout
      have hread := readable_of_offset_add hev hoff
      obtain ⟨p₁, p₂, hp₁, hp₂, hdel⟩ := deliver_plaintext E.junk hfull
      have hpos := (aeadFramer E m master).item_pos hatt
      have hle := (aeadFramer E m master).item_le hatt
      rw [Framer.pump_of_item hatt]
      simp only [hp₁, hp₂, bind_some, hdel]
      have hlog' : delivered (log ++ [.receivedData p'.everything]) =
          payloads (past ++ [.payload p'.everything]) := by
        rw [delivered_append, payloads_append, hlog]
        rfl
      have hgo : consumer reply (past ++ [.payload p'.everything]) =
          reply (delivered (log ++ [.receivedData p'.everything])) := by
        simp [consumer, hlog']
      rw [hgo]
      by_cases hreply : reply (delivered (log ++ [.receivedData p'.everything]))
      · -- the visitor wants more: the next turn starts behind this frame
        simp only [if_pos hreply]
        have hsize : b'.size < turns := by
          have hlen : b'.readable.length = (chunk.readable.drop n).length := by rw [hread]
          rw [length_drop, length_readable,
            length_readable] at hlen
          rw [length_readable] at hle
          omega
        have hnext' : IsAead m master { c with counter := counter' } :=
          { h with fresh := fun hf => by simp [hinit] at hf }
        have hphase' : { c with counter := counter' }.phase = .frames c.implKey counter' :=
          if_pos hinit
        obtain ⟨c', hrun, hc', hst, hrest⟩ := ih hnext' hinit hsize hlog'
        rw [hphase', hread] at hrun hst hrest
        refine ⟨c', ?_, hc', hst, hrest⟩
        rw [hrun]
        simp [deliveries, payloads]
      simp only [if_neg hreply]
      refine ⟨{ c with counter := counter', chunk := some b' }, ?_,
        { h with fresh := fun hf => by simp [hinit] at hf }, ?_, hread⟩
      · simp [raised, deliveries]
      · exact if_pos hinit

lemma rebuildChunk_spec (c : Cipher) (ciphertext : GrowableIOBuffer) :
    ∃ chunk, c.rebuildChunk E ciphertext = some chunk ∧
      chunk.readable = c.rest ++ ciphertext.readable := by
  unfold rebuildChunk rest
  cases c.chunk with
  | none => exact ⟨ciphertext, rfl, rfl⟩
  | some previous =>
    obtain ⟨chunk, hchunk, hread, -⟩ := GrowableIOBuffer.concat_spec E.junk previous ciphertext
    exact ⟨chunk, hchunk, hread⟩

lemma IsAead.setKeyAead_spec (h : IsAead m master c) (salt : List UInt8) :
    c.setKeyAead E salt =
      some { c with implKey := subkey E m master salt, past := [], counter := 0 } := by
  have hle : m.keySize ≤ 255 * 20 := m.keySize_le.trans (by decide)
  obtain ⟨skey, hskey⟩ := Option.isSome_iff_exists.mp
    (cryptoHkdf_isSome E.hashes salt master subkeyInfo hle)
  have hnonce : m.nonceSize - 8 ≤ 32 := by cases m <;> decide
  -- the prefix written is all zero, as the bytes behind it are
  have hiv : (List.replicate 32 (0 : UInt8)).take (m.nonceSize - 8) ++
      c.iv.drop (m.nonceSize - 8) = c.iv := by
    rw [h.iv_eq, List.take_replicate, List.drop_replicate, List.replicate_append_replicate]
    congr 1
    omega
  have hsub : subkey E m master salt = skey := by rw [subkey, hskey, Option.getD_some]
  rw [setKeyAead, h.key_eq, h.keyLen_eq, hskey, hsub]
  simp only [bind_eq_bind, bind_some, setKey, setNoncePrefix, if_true, h.method_eq,
    hiv]

lemma IsAead.decryptSalt_spec (h : IsAead m master c) {chunk : GrowableIOBuffer}
    (hsize : m.keySize ≤ chunk.size) :
    ∃ chunk', c.decryptSalt E chunk = some
        ({ c with implKey := subkey E m master (chunk.readable.take m.keySize), past := [],
                  counter := 0 }, chunk') ∧
      chunk'.readable = chunk.readable.drop m.keySize := by
  have hstream : ¬ c.method.isStream = true := by simp [h.method_eq, h.notStream]
  obtain ⟨chunk', hchunk, hread, -⟩ := setOffset_add hsize
  refine ⟨chunk', ?_, hread⟩
  simp only [decryptSalt, if_neg hstream, h.keyLen_eq, hchunk, bind_eq_bind,
    bind_some, h.setKeyAead_spec]

/-- **One call.** For every decoder, buffer and visitor, `process_bytes` does not abort and does
what `pump` says about the bytes kept followed by the bytes given. -/
theorem IsAead.processBytes_spec (h : IsAead m master c) (reply : List (List UInt8) → Bool)
    {past : List StreamItem} (hlog : delivered log = payloads past)
    (ciphertext : GrowableIOBuffer) :
    Realizes m master (processBytes E reply c log ciphertext) log
      ((aeadFramer E m master).pump (consumer reply) past c.phase
        (c.rest ++ ciphertext.readable)) := by
  obtain ⟨chunk, hchunk, hread⟩ := c.rebuildChunk_spec (E := E) ciphertext
  rw [← hread, processBytes, hchunk, bind_eq_bind, bind_some]
  by_cases hinit : c.init
  · rw [if_pos hinit]
    exact h.processLoop_spec hinit reply (Nat.lt_succ_self _) hlog
  rw [if_neg hinit]
  have hphase : c.phase = .salt := if_neg hinit
  by_cases hshort : chunk.size < c.keyLen
  · have hmore : (aeadFramer E m master).attempt c.phase chunk.readable = .more := by
      rw [h.keyLen_eq] at hshort
      rw [hphase]
      exact if_pos (by simpa using hshort)
    rw [if_pos hshort, Framer.pump_of_more hmore]
    exact ⟨{ c with chunk := some chunk }, by simp [raised],
      { h with }, rfl, rfl⟩
  rw [if_neg hshort]
  rw [h.keyLen_eq] at hshort
  obtain ⟨chunk', hsalt, hread'⟩ := h.decryptSalt_spec (E := E) (Nat.le_of_not_lt hshort)
  rw [hsalt, bind_eq_bind, bind_some]
  have hitem : (aeadFramer E m master).attempt c.phase chunk.readable =
      .item (.salt (chunk.readable.take m.keySize)) m.keySize
        (.frames (subkey E m master (chunk.readable.take m.keySize)) 0) := by
    rw [hphase]
    exact if_neg (by simpa using hshort)
  have hgo : consumer reply (past ++ [.salt (chunk.readable.take m.keySize)]) = true := by
    simp [consumer]
  rw [Framer.pump_of_item hitem, if_pos hgo, ← hread']
  have hlog' : delivered log =
      payloads (past ++ [.salt (chunk.readable.take m.keySize)]) := by
    rw [payloads_append, payloads_salt, List.append_nil, hlog]
  -- the salt itself delivers nothing, so the loop's log is the call's
  exact IsAead.processLoop_spec
    (c := { c with implKey := subkey E m master (chunk.readable.take m.keySize), past := [],
                   counter := 0, init := true })
    { h with fresh := fun _ => rfl } rfl reply
    (Nat.lt_succ_self _) hlog'

variable (E m master) in
/-- A decoder and its log, related to a session of the framer: after an error the front of the
buffered bytes is one that can never be decoded. -/
structure Tracks (c : Cipher) (log : List VisitorEvent) (d : Taken UInt8 Phase StreamItem)
    (errors : ℕ) : Prop where
  isAead : IsAead m master c
  phase_eq : c.phase = d.state
  rest_eq : c.rest = d.rest
  log_eq : log = deliveries d.items ++ List.replicate errors .protocolError
  stuck : 0 < errors → (aeadFramer E m master).attempt d.state d.rest = .bad

variable {d : Taken UInt8 Phase StreamItem} {errors : ℕ}

lemma Tracks.delivered_eq
    (h : Tracks E m master c log d errors) : delivered log = payloads d.items := by
  rw [h.log_eq, delivered_append, delivered_deliveries]
  simp [delivered]

lemma Tracks.processBytes
    (h : Tracks E m master c log d errors) (reply : List (List UInt8) → Bool)
    (ciphertext : GrowableIOBuffer) :
    ∃ c' log' errors', c.processBytes E reply log ciphertext = some (c', log') ∧
      Tracks E m master c' log'
        ((aeadFramer E m master).feed (consumer reply) d ciphertext.readable) errors' := by
  obtain ⟨c', hrun, hc', hst, hrest⟩ :=
    h.isAead.processBytes_spec (E := E) reply h.delivered_eq ciphertext
  rw [h.phase_eq, h.rest_eq] at hrun hst hrest
  refine ⟨c', _, errors + (raised ((aeadFramer E m master).pump (consumer reply) d.items d.state
    (d.rest ++ ciphertext.readable)).why).length, hrun, hc', hst, hrest, ?_, ?_⟩
  · rcases Nat.eq_zero_or_pos errors with rfl | hpos
    · -- no error so far: the new deliveries follow the old ones
      rw [h.log_eq, Framer.feed, Taken.prepend_items, deliveries_append]
      cases ((aeadFramer E m master).pump (consumer reply) d.items d.state
        (d.rest ++ ciphertext.readable)).why <;> simp [raised]
    -- an error before: nothing is delivered, and there is one error more
    rw [Framer.feed_of_bad _ _ (h.stuck hpos), h.log_eq,
      Framer.pump_of_bad ((aeadFramer E m master).bad_append _ (h.stuck hpos))]
    simp [raised, List.replicate_add]
  intro hpos
  rcases Nat.eq_zero_or_pos errors with rfl | hpos'
  · apply Framer.attempt_of_pump_stuck
    revert hpos
    cases ((aeadFramer E m master).pump (consumer reply) d.items d.state
      (d.rest ++ ciphertext.readable)).why <;> simp [raised]
  · rw [Framer.feed_of_bad _ _ (h.stuck hpos')]
    exact (aeadFramer E m master).bad_append _ (h.stuck hpos')

/-- **The decoder.** For every sequence of calls and every visitor, the decoder never aborts and
stays in step with the framer. -/
theorem Tracks.processAll
    (h : Tracks E m master c log d errors) (reply : List (List UInt8) → Bool)
    (calls : List GrowableIOBuffer) :
    ∃ c' log' errors', Cipher.processAll E reply c log calls = some (c', log') ∧
      Tracks E m master c' log' ((aeadFramer E m master).feedAll (consumer reply) d
        (calls.map GrowableIOBuffer.readable)) errors' := by
  induction calls generalizing c log d errors with
  | nil => exact ⟨c, log, errors, rfl, h⟩
  | cons buf calls ih =>
    obtain ⟨c₁, log₁, errors₁, hrun₁, h₁⟩ := h.processBytes reply buf
    obtain ⟨c₂, log₂, errors₂, hrun₂, h₂⟩ := ih h₁
    refine ⟨c₂, log₂, errors₂, ?_, h₂⟩
    rw [Cipher.processAll, List.foldlM_cons, hrun₁, bind_eq_bind, bind_some]
    exact hrun₂

lemma tracks_create (hm : m.isStream = false) (password : List UInt8) :
    Tracks E m (deriveKey E.hashes password m.keySize) (create E m password) []
      ⟨[], .salt, [], .starved⟩ 0 :=
  ⟨⟨rfl, hm, rfl, rfl, rfl, fun _ => rfl⟩, rfl, rfl, rfl, fun h => absurd h (lt_irrefl 0)⟩

/-! ## The encoder -/

variable (E m master)

def freshSalt : List UInt8 := (List.range m.keySize).map E.rand

def frameBytes (key : List UInt8) (counter : UInt64) (plaintext : List UInt8) : List UInt8 :=
  (E.aead m).ctxSeal key (aeadNonce m counter) (htons (plaintext.length &&& chunkSizeMask)) ++
    (E.aead m).ctxSeal key (aeadNonce m (counter + 1)) plaintext

/-- The seals that one frame executes when `n` were executed before, and whether it succeeds. The
second one is executed only if the first succeeded. -/
def frameOps (key : List UInt8) (counter : UInt64) (n : ℕ) (plaintext : List UInt8) :
    List PacketOp × Bool :=
  let len := htons (plaintext.length &&& chunkSizeMask)
  if E.sealFails n then ([⟨key, aeadNonce m counter, len, false⟩], false)
  else
    let ok := !E.sealFails (n + 1)
    ([⟨key, aeadNonce m counter, len, true⟩, ⟨key, aeadNonce m (counter + 1), plaintext, ok⟩], ok)

def salted (c : Cipher) : Cipher :=
  if c.init then c
  else { c with implKey := subkey E m master (freshSalt E m), past := [], counter := 0,
                init := true }

/-- One call of the encoder: its state afterwards, whether the frame succeeded, and the bytes it
appends. -/
def emit (c : Cipher) (plaintext : List UInt8) : Cipher × Bool × List UInt8 :=
  let s := salted E m master c
  let ops := frameOps E m s.implKey s.counter s.ops.length plaintext
  ({ s with ops := s.ops ++ ops.1, counter := if ops.2 then s.counter + 1 + 1 else s.counter },
    ops.2,
    (if c.init then [] else freshSalt E m) ++
      if ops.2 then frameBytes E m s.implKey s.counter plaintext else [])

variable {E m master}

lemma IsAead.encryptPacket_eq (h : IsAead m master c) (pn : UInt64) {maxOutput : ℕ}
    {pt : List UInt8} (hmax : maxOutput = pt.length + m.tagSize) :
    c.encryptPacket E pn maxOutput pt =
      ({ c with ops := c.ops ++ [⟨c.implKey, aeadNonce m pn, pt, !E.sealFails c.ops.length⟩] },
        if E.sealFails c.ops.length then none
        else some ((E.aead m).ctxSeal c.implKey (aeadNonce m pn) pt)) := by
  obtain rfl := h.method_eq
  have hfit : ¬ maxOutput < pt.length + c.method.tagSize := by omega
  have hstream : ¬ c.method.isStream = true := by simp [h.notStream]
  rw [encryptPacket, if_neg hfit, h.nonce_eq]
  cases E.sealFails c.ops.length <;> simp [hstream]

@[simp] lemma length_htons (n : ℕ) : (htons n).length = chunkSizeLen := rfl

lemma setCapacity_undo (junk : ℕ → UInt8) {b' : GrowableIOBuffer} {x : List UInt8}
    (hev : b'.everything = b.everything ++ x) (hoff : b'.offset = b.offset) :
    ∃ b'', b'.setCapacity junk b.capacity = some b'' ∧ b''.everything = b.everything ∧
      b''.offset = b.offset := by
  have hcap : b'.capacity = b.capacity + x.length := by
    rw [← length_everything, hev, length_append,
      length_everything]
  have hle : b.capacity ≤ b'.capacity := by omega
  obtain ⟨b'', hb'', hev'', -, -, hoff''⟩ :=
    setCapacity_of_le junk hle (hoff ▸ b.offset_le)
  refine ⟨b'', hb'', ?_, hoff''.trans hoff⟩
  rw [hev'', hev, ← b.length_everything, List.take_left]

/-- **One frame.** `chunk_encrypt_frame_aead` never aborts; it appends the frame, or nothing when a
seal failed, and leaves the offset. -/
lemma IsAead.chunkEncryptFrameAead_spec (h : IsAead m master c) (counter : UInt64)
    (pt : List UInt8) (b : GrowableIOBuffer) :
    ∃ counter' ret b', c.chunkEncryptFrameAead E counter pt b =
        some ({ c with ops := c.ops ++ (frameOps E m c.implKey counter c.ops.length pt).1 },
          counter', ret, b') ∧
      b'.offset = b.offset ∧
      if (frameOps E m c.implKey counter c.ops.length pt).2 then
        ret = .ok ∧ counter' = counter + 1 + 1 ∧
          b'.everything = b.everything ++ frameBytes E m c.implKey counter pt
      else ret = .badmsg ∧ b'.everything = b.everything := by
  obtain rfl := h.method_eq
  obtain ⟨b₁, rest, hb₁, hrest, hev₁, hcap₁, hoff₁⟩ :=
    setCapacity_add E.junk b (2 * c.method.tagSize + chunkSizeLen + pt.length)
  have hend : b.offset + b.size = b.everything.length := by
    rw [GrowableIOBuffer.size, length_everything]
    exact Nat.add_sub_of_le b.offset_le
  simp only [chunkEncryptFrameAead, hb₁, bind_eq_bind, bind_some]
  rw [h.encryptPacket_eq counter (by rw [length_htons])]
  by_cases hfail₁ : E.sealFails c.ops.length
  · -- the length could not be sealed
    obtain ⟨b₂, hb₂, hev₂, hoff₂⟩ := setCapacity_undo E.junk hev₁ hoff₁
    simp only [hfail₁, if_true, hb₂, bind_some, frameOps]
    exact ⟨_, .badmsg, _, rfl, hoff₂, by simpa using hev₂⟩
  set sealed₁ := (E.aead c.method).ctxSeal c.implKey (aeadNonce c.method counter)
    (htons (pt.length &&& chunkSizeMask)) with hdef₁
  have hlen₁ : sealed₁.length = chunkSizeLen + c.method.tagSize :=
    (E.aead c.method).length_seal _ _ _
  have hfit₁ : sealed₁.length ≤ rest.length := by omega
  obtain ⟨b₂, hb₂, hev₂, -, hoff₂⟩ := store_append hev₁ hfit₁
  -- the room for the payload is zeroed first; the second seal overwrites it
  have hroom : (List.replicate (pt.length + c.method.tagSize) (0 : UInt8)).length ≤
      (rest.drop sealed₁.length).length := by
    rw [List.length_replicate, length_drop]
    omega
  obtain ⟨b₃, hb₃, hev₃, -, hoff₃⟩ := store_append hev₂ hroom
  rw [List.append_assoc] at hev₃
  have hpos₁ : b₁.offset + b.size = b.everything.length := by rw [hoff₁, hend]
  have hpos₂ : b₂.offset + (b.size + sealed₁.length) = (b.everything ++ sealed₁).length := by
    rw [hoff₂, length_append]
    omega
  have hpos₃ : b₃.offset + (b.size + sealed₁.length) = (b.everything ++ sealed₁).length := by
    rw [hoff₃, hpos₂]
  have hc₂ : IsAead c.method master { c with
      ops := c.ops ++ [⟨c.implKey, aeadNonce c.method counter, htons (pt.length &&& chunkSizeMask),
        !E.sealFails c.ops.length⟩] } :=
    { h with }
  simp only [hfail₁, hpos₁, hb₂, hpos₂, hb₃, bind_some, Bool.false_eq_true, if_false]
  rw [Bool.not_eq_true] at hfail₁
  rw [hfail₁] at hc₂
  rw [hc₂.encryptPacket_eq (counter + 1) rfl]
  simp only [length_append, List.length_singleton, frameOps, hfail₁, Bool.false_eq_true,
    if_false]
  by_cases hfail₂ : E.sealFails (c.ops.length + 1)
  · -- the payload could not be sealed: the sealed length is taken back as well
    obtain ⟨b₄, hb₄, hev₄, hoff₄⟩ := setCapacity_undo E.junk (hev₃.trans (List.append_assoc _ _ _))
      (hoff₃.trans (hoff₂.trans hoff₁))
    simp only [hfail₂, if_true, hb₄, bind_some]
    exact ⟨counter + 1, .badmsg, _, by simp, hoff₄, by simpa using hev₄⟩
  set sealed₂ := (E.aead c.method).ctxSeal c.implKey (aeadNonce c.method (counter + 1)) pt
    with hdef₂
  have hlen₂ : sealed₂.length = pt.length + c.method.tagSize :=
    (E.aead c.method).length_seal _ _ _
  have hfit₂ : sealed₂.length ≤ (List.replicate (pt.length + c.method.tagSize) 0 ++
      List.drop (List.replicate (pt.length + c.method.tagSize) (0 : UInt8)).length
        (List.drop sealed₁.length rest)).length := by
    rw [length_append, List.length_replicate]
    omega
  obtain ⟨b₄, hb₄, hev₄, -, hoff₄⟩ := store_append hev₃ hfit₂
  simp only [hfail₂, hpos₃, hb₄, bind_some, Bool.false_eq_true, if_false]
  refine ⟨counter + 1 + 1, .ok, b₄, by simp, ?_, ?_⟩
  · rw [hoff₄, hoff₃, hoff₂, hoff₁]
  rw [Bool.not_eq_true] at hfail₂
  have htail : List.drop sealed₂.length (List.replicate (pt.length + c.method.tagSize) 0 ++
      List.drop (List.replicate (pt.length + c.method.tagSize) (0 : UInt8)).length
        (List.drop sealed₁.length rest)) = [] := by
    apply List.drop_of_length_le
    simp only [length_append, List.length_replicate, length_drop]
    omega
  rw [hev₄, htail]
  simp [frameBytes, ← hdef₁, ← hdef₂]

@[simp] lemma salted_init : (salted E m master c).init = true := by
  unfold salted
  split_ifs with hinit
  · exact hinit
  · rfl

lemma IsAead.salted (h : IsAead m master c) : IsAead m master (salted E m master c) := by
  unfold Cipher.salted
  split_ifs
  · exact h
  · exact { h with fresh := fun _ => rfl }

lemma IsAead.emit (h : IsAead m master c) (pt : List UInt8) :
    IsAead m master (emit E m master c pt).1 := by
  refine { h.salted (E := E) with fresh := fun hf => ?_ }
  have hinit : (Cipher.salted E m master c).init = false := hf
  simp at hinit

lemma IsAead.encryptSalt_spec (h : IsAead m master c) (b : GrowableIOBuffer) :
    ∃ b', c.encryptSalt E b = some
        ({ c with implKey := subkey E m master (freshSalt E m), past := [], counter := 0 }, b') ∧
      b'.everything = b.everything ++ freshSalt E m ∧ b'.offset = b.offset := by
  have hstream : ¬ c.method.isStream = true := by simp [h.method_eq, h.notStream]
  obtain ⟨b₁, rest, hb₁, hrest, hev₁, -, hoff₁⟩ :=
    setCapacity_add E.junk b (freshSalt E m).length
  obtain ⟨b₂, hb₂, hev₂, -, hoff₂⟩ := store_append hev₁ hrest.ge
  rw [length_everything] at hb₂
  have hsalt : (List.range c.keyLen).map E.rand = freshSalt E m := by rw [h.keyLen_eq, freshSalt]
  refine ⟨b₂, ?_, ?_, hoff₂.trans hoff₁⟩
  · simp only [encryptSalt, if_neg hstream, hsalt, hb₁, hb₂, bind_eq_bind,
      bind_some, h.setKeyAead_spec]
  · rw [hev₂, ← hrest, List.drop_length, List.append_nil]

lemma IsAead.encryptSaltOnce_spec (h : IsAead m master c) (b : GrowableIOBuffer) :
    ∃ b', c.encryptSaltOnce E b = some (Cipher.salted E m master c, b') ∧
      b'.everything = b.everything ++ (if c.init then [] else freshSalt E m) ∧
      b'.offset = b.offset := by
  by_cases hinit : c.init
  · exact ⟨b, by simp [encryptSaltOnce, hinit, Cipher.salted], by simp [hinit], rfl⟩
  · obtain ⟨b₁, hb₁, hev₁, hoff₁⟩ := h.encryptSalt_spec (E := E) b
    exact ⟨b₁, by simp [encryptSaltOnce, hinit, hb₁, Cipher.salted], by simp [hinit, hev₁], hoff₁⟩

/-- **One call.** For every encoder and buffer, `encrypt` does not abort; it appends exactly the
bytes of `emit` and leaves the buffer's earlier bytes and its offset. -/
theorem IsAead.encrypt_spec (h : IsAead m master c) (pt : List UInt8) (b : GrowableIOBuffer) :
    ∃ b', c.encrypt E pt b =
        some ((Cipher.emit E m master c pt).1, (Cipher.emit E m master c pt).2.1, b') ∧
      b'.everything = b.everything ++ (Cipher.emit E m master c pt).2.2 ∧
      b'.offset = b.offset := by
  obtain ⟨b₁, hsalt, hev₁, hoff₁⟩ := h.encryptSaltOnce_spec (E := E) b
  have hs := h.salted (E := E)
  have hstream : ¬ (Cipher.salted E m master c).method.isStream = true := by
    simp [hs.method_eq, hs.notStream]
  obtain ⟨counter', ret, b₂, hframe, hoff₂, hout⟩ :=
    hs.chunkEncryptFrameAead_spec (E := E) (Cipher.salted E m master c).counter pt b₁
  refine ⟨b₂, ?_, ?_, hoff₂.trans hoff₁⟩
  all_goals
    simp only [Cipher.emit]
    split_ifs at hout with hok
  · obtain ⟨rfl, rfl, -⟩ := hout
    simp [encrypt, hsalt, chunkEncryptFrame, hstream, hframe, hok]
  · obtain ⟨rfl, -⟩ := hout
    simp [encrypt, hsalt, chunkEncryptFrame, hstream, hframe, hok]
  · rw [if_pos hok, hout.2.2, hev₁, List.append_assoc]
  · rw [if_neg hok, hout.2, hev₁, List.append_nil]

variable (E m master) in
def emitAll (c : Cipher) : List (List UInt8) → Cipher × List Bool × List (List UInt8)
  | [] => (c, [], [])
  | p :: ps =>
    let r := Cipher.emit E m master c p
    let rs := emitAll r.1 ps
    (rs.1, r.2.1 :: rs.2.1, r.2.2 :: rs.2.2)

variable (E m master) in
lemma emit_eq_salted (c : Cipher) (p : List UInt8) :
    emit E m master c p = ((emit E m master (salted E m master c) p).1,
      (emit E m master (salted E m master c) p).2.1,
      (if c.init then [] else freshSalt E m) ++ (emit E m master (salted E m master c) p).2.2) := by
  have hs : salted E m master (salted E m master c) = salted E m master c := by
    rw [salted, if_pos salted_init]
  simp only [emit, hs, salted_init, if_true, List.nil_append]

variable (E m master) in
lemma emitAll_salted (c : Cipher) (p : List UInt8) (ps : List (List UInt8)) :
    (emitAll E m master c (p :: ps)).1 = (emitAll E m master (salted E m master c) (p :: ps)).1 ∧
      (emitAll E m master c (p :: ps)).2.1 =
        (emitAll E m master (salted E m master c) (p :: ps)).2.1 ∧
      (emitAll E m master c (p :: ps)).2.2.flatten = (if c.init then [] else freshSalt E m) ++
        (emitAll E m master (salted E m master c) (p :: ps)).2.2.flatten := by
  have hfirst := emit_eq_salted E m master c p
  refine ⟨?_, ?_, ?_⟩
  · simp only [emitAll, hfirst]
  · simp only [emitAll, hfirst]
  · simp only [emitAll, hfirst, List.flatten_cons, List.append_assoc]

lemma appended_cons (call : List UInt8 × GrowableIOBuffer)
    (calls : List (List UInt8 × GrowableIOBuffer))
    {bufs : List GrowableIOBuffer} {out : List UInt8} (h : b.everything = call.2.everything ++ out)
    :
    appended (call :: calls) (b :: bufs) = out ++ appended calls bufs := by
  have hdrop : b.everything.drop call.2.capacity = out := by
    rw [h, ← call.2.length_everything, List.drop_left]
  simp only [appended, List.zipWith_cons_cons, List.flatten_cons, hdrop]

/-- **The encoder.** For every sequence of calls, whatever buffers they append to, the ciphertext
stream is that of `emitAll`. -/
theorem IsAead.encryptAll_spec (h : IsAead m master c)
    (calls : List (List UInt8 × GrowableIOBuffer)) :
    ∃ bufs, c.encryptAll E calls = some ((emitAll E m master c (calls.map Prod.fst)).1,
        (emitAll E m master c (calls.map Prod.fst)).2.1, bufs) ∧
      appended calls bufs = (emitAll E m master c (calls.map Prod.fst)).2.2.flatten := by
  induction calls generalizing c with
  | nil => exact ⟨[], rfl, rfl⟩
  | cons call calls ih =>
    obtain ⟨pt, b⟩ := call
    obtain ⟨b', hrun, hev, -⟩ := h.encrypt_spec (E := E) pt b
    obtain ⟨bufs, hruns, happ⟩ := ih (h.emit (E := E) pt)
    refine ⟨b' :: bufs, ?_, ?_⟩
    · simp only [encryptAll, hrun, bind_eq_bind, bind_some, hruns]
      rfl
    · rw [appended_cons (pt, b) calls hev, happ]
      rfl

end Cipher

end Yass.Net
