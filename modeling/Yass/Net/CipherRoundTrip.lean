import Yass.Net.CipherFrames

/-!
# AEAD stream round trip

What an encoder appends, however it is cut into calls of the decoder, comes out as the payloads
that went in, and both counters end at the same value.

* `streamEncode`, `streamNext` — the encoder as a `Framing` encoder; `encodes_stream` is the
  agreement with the decoder's framer that the general round trip `Encodes.drain_encodeAll` needs.
* `emitAll_create` — the ciphertext stream of `encrypt` is that encoder's output for the payloads
  whose call succeeded.
* `drain_stream` — draining it gives those payloads back.
-/

namespace Yass.Net

open Yass.Crypto Framing

variable (E : CipherEnv) (m : CipherMethod) (master : List UInt8)

def streamEncode : Phase → StreamItem → List UInt8
  | .salt, .salt s => s
  | .frames key counter, .payload p => Cipher.frameBytes E m key counter p
  | _, _ => []

def streamNext : Phase → StreamItem → Phase
  | .salt, .salt s => .frames (subkey E m master s) 0
  | .frames key counter, .payload _ => .frames key (counter + 1 + 1)
  | phase, _ => phase

def Opens (key : List UInt8) (counter : UInt64) (p : List UInt8) : Prop :=
  let len := Cipher.htons (p.length &&& chunkSizeMask)
  (E.aead m).ctxOpen key (aeadNonce m counter)
      ((E.aead m).ctxSeal key (aeadNonce m counter) len) = some len ∧
    (E.aead m).ctxOpen key (aeadNonce m (counter + 1))
      ((E.aead m).ctxSeal key (aeadNonce m (counter + 1)) p) = some p

/-- The items that come through: the salt first, then payloads that fit a frame and whose seals can
be opened. -/
def streamOk : Phase → StreamItem → Prop
  | .salt, .salt s => s.length = m.keySize
  | .frames key counter, .payload p =>
    (1 ≤ p.length ∧ p.length ≤ chunkSizeMask) ∧ Opens E m key counter p
  | _, _ => False

lemma ntohs_htons {n : ℕ} (h : n ≤ chunkSizeMask) :
    Cipher.ntohs (Cipher.htons (n &&& chunkSizeMask)) &&& chunkSizeMask = n := by
  have hmask : chunkSizeMask = 2 ^ 14 - 1 := rfl
  rw [hmask] at h ⊢
  simp only [Nat.and_two_pow_sub_one_eq_mod, Cipher.htons, Cipher.ntohs, UInt8.toNat_ofNat']
  omega

/-- **The decoder takes back what the encoder writes.** -/
lemma encodes_stream :
    Framer.Encodes (aeadFramer E m master) (streamEncode E m) (streamNext E m master)
      (streamOk E m) where
  attempt_enc := by
    intro s a hok
    match s, a, hok with
    | .salt, .salt salt, hlen =>
      show streamAttempt E m master .salt salt = _
      have hlen : salt.length = m.keySize := hlen
      have htake : salt.take m.keySize = salt := by rw [← hlen, List.take_length]
      simp only [streamAttempt, streamEncode, streamNext, hlen, htake, lt_irrefl, if_false]
    | .frames key counter, .payload p, ⟨⟨hpos, hle⟩, hopen₁, hopen₂⟩ =>
      have hlen₁ := (E.aead m).length_seal key (aeadNonce m counter)
        (Cipher.htons (p.length &&& chunkSizeMask))
      have hlen₂ := (E.aead m).length_seal key (aeadNonce m (counter + 1)) p
      rw [Cipher.length_htons] at hlen₁
      show frameAttempt E m key counter (Cipher.frameBytes E m key counter p) = _
      simp only [frameAttempt, Cipher.frameBytes, streamNext, streamEncode, List.length_append,
        List.length_drop]
      rw [if_neg (by omega), ← hlen₁, List.take_left, hopen₁]
      simp only [ntohs_htons hle, List.drop_left]
      rw [if_neg (by omega), if_neg (by omega), List.take_of_length_le (by omega), hopen₂]
      simp only
      congr 1
      omega

/-! ## The ciphertext stream -/

variable {E m master} {c : Cipher}

namespace Cipher

def framed (ps : List (List UInt8)) (oks : List Bool) : List (List UInt8) :=
  ((ps.zip oks).filter Prod.snd).map Prod.fst

@[simp] lemma framed_cons_true (p : List UInt8) (ps : List (List UInt8)) (oks : List Bool) :
    framed (p :: ps) (true :: oks) = p :: framed ps oks := rfl

@[simp] lemma framed_cons_false (p : List UInt8) (ps : List (List UInt8)) (oks : List Bool) :
    framed (p :: ps) (false :: oks) = framed ps oks := rfl

lemma framed_all (ps : List (List UInt8)) : framed ps (ps.map fun _ => true) = ps := by
  induction ps with
  | nil => rfl
  | cons p ps ih => rw [List.map_cons, framed_cons_true, ih]

variable (m master) in
lemma emit_of_ok (hinit : c.init) {p : List UInt8} (hok : (emit E m master c p).2.1 = true) :
    (emit E m master c p).2.2 = frameBytes E m c.implKey c.counter p ∧
      (emit E m master c p).1.phase = .frames c.implKey (c.counter + 1 + 1) := by
  have hs : salted E m master c = c := by rw [salted, if_pos hinit]
  have hinit' : (emit E m master c p).1.init = true := salted_init
  simp only [emit, hs] at hok
  refine ⟨?_, ?_⟩
  · simp only [emit, hs, hok, hinit, if_true, List.nil_append]
  · rw [phase, if_pos hinit']
    simp only [emit, hs, hok, if_true]

variable (m master) in
lemma emit_of_failed (hinit : c.init) {p : List UInt8} (hok : (emit E m master c p).2.1 = false) :
    (emit E m master c p).2.2 = [] ∧ (emit E m master c p).1.phase = c.phase := by
  have hs : salted E m master c = c := by rw [salted, if_pos hinit]
  have hinit' : (emit E m master c p).1.init = true := salted_init
  simp only [emit, hs] at hok
  refine ⟨?_, ?_⟩
  · simp only [emit, hs, hok, hinit, if_true, Bool.false_eq_true, if_false, List.append_nil]
  · rw [phase, phase, if_pos hinit', if_pos hinit]
    simp only [emit, hs, hok, Bool.false_eq_true, if_false]

variable (m master) in
lemma emitAll_eq_encodeAll (hinit : c.init) (ps : List (List UInt8)) :
    (emitAll E m master c ps).2.2.flatten = Framer.encodeAll (streamEncode E m)
        (streamNext E m master) c.phase
        ((framed ps (emitAll E m master c ps).2.1).map .payload) ∧
      (emitAll E m master c ps).1.phase =
        ((framed ps (emitAll E m master c ps).2.1).map StreamItem.payload).foldl
          (streamNext E m master) c.phase := by
  induction ps generalizing c with
  | nil => exact ⟨rfl, rfl⟩
  | cons p ps ih =>
    have hphase : c.phase = .frames c.implKey c.counter := if_pos hinit
    obtain ⟨hstream, hend⟩ := ih (c := (emit E m master c p).1) salted_init
    simp only [emitAll, List.flatten_cons]
    cases hok : (emit E m master c p).2.1 with
    | true =>
      obtain ⟨hbytes, hnext⟩ := emit_of_ok m master hinit hok
      rw [hnext] at hstream hend
      rw [framed_cons_true, List.map_cons, List.foldl_cons, Framer.encodeAll, hstream, hend,
        hbytes, hphase]
      exact ⟨rfl, rfl⟩
    | false =>
      obtain ⟨hbytes, hnext⟩ := emit_of_failed m master hinit hok
      rw [hnext] at hstream hend
      rw [framed_cons_false, hstream, hend, hbytes]
      exact ⟨rfl, rfl⟩

def streamItems (E : CipherEnv) (m : CipherMethod) (ps : List (List UInt8)) (oks : List Bool) :
    List StreamItem :=
  if ps.isEmpty then [] else .salt (freshSalt E m) :: (framed ps oks).map .payload

variable (m master) in
lemma emitAll_create (hc : c.init = false) (ps : List (List UInt8)) :
    (emitAll E m master c ps).2.2.flatten = Framer.encodeAll (streamEncode E m)
        (streamNext E m master) .salt (streamItems E m ps (emitAll E m master c ps).2.1) ∧
      (emitAll E m master c ps).1.phase =
        (streamItems E m ps (emitAll E m master c ps).2.1).foldl (streamNext E m master) .salt := by
  cases ps with
  | nil => exact ⟨rfl, by simp [emitAll, phase, hc, streamItems]⟩
  | cons p ps =>
    have hphase :
        (salted E m master c).phase = .frames (subkey E m master (freshSalt E m)) 0 := by
      simp [phase, salted, hc]
    obtain ⟨hstream, hend⟩ :=
      emitAll_eq_encodeAll m master (c := salted E m master c) salted_init (p :: ps)
    rw [hphase] at hstream hend
    obtain ⟨hencoder, hoks, hbytes⟩ := emitAll_salted E m master c p ps
    rw [hencoder, hoks, hbytes, hstream, hend, hc]
    exact ⟨rfl, rfl⟩

lemma payloads_streamItems (ps : List (List UInt8)) (oks : List Bool) :
    payloads (streamItems E m ps oks) = framed ps oks := by
  unfold streamItems
  split_ifs with hnil
  · rw [List.isEmpty_iff.mp hnil]
    rfl
  · exact payloads_map_payload _

lemma emitAll_oks (hseal : ∀ i, E.sealFails i = false) (c : Cipher) (ps : List (List UInt8)) :
    (emitAll E m master c ps).2.1 = ps.map fun _ => true := by
  induction ps generalizing c with
  | nil => rfl
  | cons p ps ih => simp [emitAll, emit, frameOps, hseal, ih]

lemma allOk_payloads {ps : List (List UInt8)} {key : List UInt8} {j : ℕ}
    (h : ∀ i p, ps[i]? = some p → (1 ≤ p.length ∧ p.length ≤ chunkSizeMask) ∧
      Opens E m key (UInt64.ofNat (2 * (j + i))) p) :
    Framer.AllOk (streamNext E m master) (streamOk E m) (.frames key (UInt64.ofNat (2 * j)))
      (ps.map .payload) := by
  induction ps generalizing j with
  | nil => trivial
  | cons p ps ih =>
    have hnext : UInt64.ofNat (2 * j) + 1 + 1 = UInt64.ofNat (2 * (j + 1)) := by
      rw [Nat.mul_succ, UInt64.ofNat_add, UInt64.add_assoc]
      rfl
    refine ⟨h 0 p rfl, ?_⟩
    show Framer.AllOk _ _ (Phase.frames key (UInt64.ofNat (2 * j) + 1 + 1)) _
    rw [hnext]
    apply ih
    intro i q hq
    have hshift : 2 * (j + 1 + i) = 2 * (j + (i + 1)) := by omega
    rw [hshift]
    exact h (i + 1) q hq

lemma IsAead.counter_eq {c' : Cipher} (h : IsAead m master c) (h' : IsAead m master c')
    (hphase : c.phase = c'.phase) : c.counter = c'.counter := by
  unfold phase at hphase
  cases hinit : c.init <;> cases hinit' : c'.init <;> simp [hinit, hinit'] at hphase
  · rw [h.fresh hinit, h'.fresh hinit']
  · exact hphase.2

lemma IsAead.emitAll (h : IsAead m master c) (ps : List (List UInt8)) :
    IsAead m master (emitAll E m master c ps).1 := by
  induction ps generalizing c with
  | nil => exact h
  | cons p ps ih => exact ih (h.emit p)

variable (E m master) in
lemma attempt_nil (s : Phase) : (aeadFramer E m master).attempt s [] = .more := by
  cases s with
  | salt => exact if_pos m.keySize_pos
  | frames key counter => exact if_pos (by simp [chunkSizeLen])

lemma drain_stream {items : List StreamItem}
    (hok : Framer.AllOk (streamNext E m master) (streamOk E m) .salt items) :
    (aeadFramer E m master).drain .salt
        (Framer.encodeAll (streamEncode E m) (streamNext E m master) .salt items) =
      ⟨items, items.foldl (streamNext E m master) .salt, [], .starved⟩ := by
  have h := (encodes_stream E m master).drain_encodeAll .salt items hok []
  rw [List.append_nil, Framer.drain_of_more _ (attempt_nil E m master _)] at h
  simpa [Taken.prepend] using h

variable (m master) in
lemma emitAll_init (c : Cipher) (p : List UInt8) (ps : List (List UInt8)) :
    (emitAll E m master c (p :: ps)).1.init = true := by
  induction ps generalizing c p with
  | nil => exact salted_init
  | cons q ps ih => exact ih (emit E m master c p).1 q

lemma allOk_streamItems (hinv : (E.aead m).Inverse) {ps : List (List UInt8)} {oks : List Bool}
    (hsize : ∀ p ∈ framed ps oks, 1 ≤ p.length ∧ p.length ≤ chunkSizeMask) :
    Framer.AllOk (streamNext E m master) (streamOk E m) .salt (streamItems E m ps oks) := by
  unfold streamItems
  split_ifs
  · trivial
  · exact ⟨by simp [streamOk, freshSalt], allOk_payloads (j := 0) fun i p hp =>
      ⟨hsize p (List.mem_of_getElem? hp), hinv _ _ _, hinv _ _ _⟩⟩

/-- **The decoder.** However the encoding of items that come through is cut, a decoder that is never
told to stop delivers exactly their payloads. -/
lemma processAll_items (hm : m.isStream = false) (password : List UInt8) {items : List StreamItem}
    (hok : Framer.AllOk (streamNext E m (deriveKey E.hashes password m.keySize)) (streamOk E m)
      .salt items)
    (reply : List (List UInt8) → Bool) (hreply : ∀ l, reply l = true)
    (pieces : List GrowableIOBuffer)
    (hpieces : (pieces.map GrowableIOBuffer.readable).flatten = Framer.encodeAll (streamEncode E m)
      (streamNext E m (deriveKey E.hashes password m.keySize)) .salt items) :
    ∃ decoder, (create E m password).processAll E reply [] pieces =
        some (decoder, (payloads items).map .receivedData) ∧
      IsAead m (deriveKey E.hashes password m.keySize) decoder ∧
      decoder.phase =
        items.foldl (streamNext E m (deriveKey E.hashes password m.keySize)) .salt := by
  obtain ⟨decoder, log, errors, hdec, htracks⟩ :=
    (tracks_create (E := E) hm password).processAll reply pieces
  have hgo : ∀ l, consumer reply l = true := by
    intro l
    unfold consumer
    split
    · exact hreply _
    · rfl
  rw [Framer.feedAll_fresh _ hgo (attempt_nil E m _ .salt), hpieces, drain_stream hok] at htracks
  have herrors : errors = 0 := by
    rcases Nat.eq_zero_or_pos errors with h | h
    · exact h
    have hbad := htracks.stuck h
    rw [attempt_nil] at hbad
    cases hbad
  refine ⟨decoder, ?_, htracks.isAead, htracks.phase_eq⟩
  rw [hdec, htracks.log_eq, herrors]
  simp [deliveries]

/-- **Round trip.** Take any AEAD method, password and payloads of `1` to `0x3FFF` bytes, encrypted
one after the other into any buffers. Then every call succeeds, and for every way to hand the
appended bytes to a decoder with the same password, the visitor gets exactly the payloads and no
error, and the two counters agree. -/
theorem process_encrypt_round_trip (E : CipherEnv) (m : CipherMethod) (hm : m.isStream = false)
    (hinv : (E.aead m).Inverse) (hseal : ∀ i, E.sealFails i = false) (password : List UInt8)
    (calls : List (List UInt8 × GrowableIOBuffer))
    (hsize : ∀ call ∈ calls, 1 ≤ call.1.length ∧ call.1.length ≤ chunkSizeMask)
    (junk : ℕ → UInt8) (reply : List (List UInt8) → Bool) (hreply : ∀ l, reply l = true) :
    ∃ encoder oks bufs,
      (create E m password).encryptAll E calls = some (encoder, oks, bufs) ∧
      oks = calls.map (fun _ => true) ∧
      ∀ pieces : List GrowableIOBuffer,
        (pieces.map GrowableIOBuffer.readable).flatten = appended calls bufs →
        ∃ decoder log,
          processAll { E with junk := junk } reply (create { E with junk := junk } m password) []
            pieces = some (decoder, log) ∧
          log = calls.map (fun call => .receivedData call.1) ∧
          decoder.counter = encoder.counter := by
  set ps := calls.map Prod.fst with hps
  have hencoder := (tracks_create (E := E) hm password).isAead
  obtain ⟨bufs, hrun, happ⟩ := hencoder.encryptAll_spec (E := E) calls
  obtain ⟨hstream, hend⟩ := emitAll_create m
    (deriveKey E.hashes password m.keySize) (c := create E m password) rfl ps
  rw [emitAll_oks hseal] at hstream hend
  have hsized : ∀ p ∈ framed ps (ps.map fun _ => true),
      1 ≤ p.length ∧ p.length ≤ chunkSizeMask := by
    intro p hp
    rw [framed_all] at hp
    obtain ⟨call, hcall, rfl⟩ := List.mem_map.mp hp
    exact hsize call hcall
  refine ⟨_, _, bufs, hrun, by rw [emitAll_oks hseal, List.map_map]; rfl, ?_⟩
  intro pieces hpieces
  -- the decoder's undefined bytes are its own; the AEAD and the hashes are shared
  obtain ⟨decoder, hdec, hdecoder, hphase⟩ :=
    processAll_items (E := { E with junk := junk }) hm password (allOk_streamItems hinv hsized)
      reply hreply pieces (hpieces.trans (happ.trans hstream))
  refine ⟨decoder, _, hdec, ?_, ?_⟩
  · rw [payloads_streamItems, framed_all, hps, List.map_map]
    rfl
  · exact hdecoder.counter_eq (hencoder.emitAll ps) (hphase.trans hend.symm)

theorem process_encrypt_round_trip_chacha20 :
    ∃ encoder oks bufs,
      (create (.sample fun _ => false) .chacha20Poly1305Ietf [112, 119]).encryptAll
        (.sample fun _ => false) [([1, 2, 3], .fresh), ([4], .copyBuffer [9])] =
          some (encoder, oks, bufs) ∧
      oks = [true, true] ∧
      ∀ pieces : List GrowableIOBuffer,
        (pieces.map GrowableIOBuffer.readable).flatten =
          appended [([1, 2, 3], .fresh), ([4], .copyBuffer [9])] bufs →
        ∃ decoder log,
          processAll (.sample fun _ => false) (fun _ => true)
            (create (.sample fun _ => false) .chacha20Poly1305Ietf [112, 119]) [] pieces =
              some (decoder, log) ∧
          log = [.receivedData [1, 2, 3], .receivedData [4]] ∧
          decoder.counter = encoder.counter :=
  process_encrypt_round_trip (.sample fun _ => false) .chacha20Poly1305Ietf (by decide)
    (Aead.zeroTag_inverse _) (fun _ => rfl) [112, 119]
    [([1, 2, 3], .fresh), ([4], .copyBuffer [9])] (by decide) (fun _ => 0) (fun _ => true)
    (fun _ => rfl)

end Cipher

end Yass.Net
