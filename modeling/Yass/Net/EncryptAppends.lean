import Yass.Net.CipherWire

/-!
# What one call of `encrypt` does to its buffer

An AEAD salt goes behind the buffer's contents, and so does every frame. The nonce of a stream
method is written at the read position after the buffer has been grown at its end, so it lands on
unread bytes when there are any. A frame that cannot be sealed is taken back, but the salt or nonce
that the same call wrote is not.
-/

namespace Yass.Net.Cipher

open Yass.Crypto Framing

variable {E : CipherEnv} {m : CipherMethod} {master : List UInt8} {c : Cipher}

/-! ## Encoders of the stream methods -/

structure IsStream (m : CipherMethod) (master : List UInt8) (c : Cipher) : Prop where
  method_eq : c.method = m
  isStream : m.isStream = true
  key_eq : c.key = master
  keyLen_eq : c.keyLen = m.keySize

lemma isStream_create (hm : m.isStream) (password : List UInt8) :
    IsStream m (deriveKey E.hashes password m.keySize) (create E m password) :=
  ⟨rfl, hm, rfl, rfl⟩

def freshNonce (E : CipherEnv) (m : CipherMethod) : List UInt8 :=
  (List.range m.nonceSize).map E.rand

@[simp] lemma length_freshNonce : (freshNonce E m).length = m.nonceSize := by simp [freshNonce]

/-- `encrypt_salt` of a stream method. -/
def nonced (E : CipherEnv) (m : CipherMethod) (master : List UInt8) (c : Cipher) : Cipher :=
  if c.init then c
  else { c with counter := 0, iv := freshNonce E m, implKey := master, past := [], init := true }

/-- `chunk_encrypt_frame` of a stream method. -/
def streamFrame (E : CipherEnv) (s : Cipher) (pt : List UInt8) : Cipher × Bool × List UInt8 :=
  let ok := !E.sealFails s.ops.length
  let out := streamEncrypt (E.keyStream s.method) s.implKey s.iv s.past pt
  let s' := { s with ops := s.ops ++ [⟨s.implKey, s.nonce s.counter, pt, ok⟩] }
  if ok then ({ s' with past := s.past ++ out, counter := s.counter + 1 }, true, out)
  else (s', false, [])

lemma IsStream.afterNonce (h : IsStream m master c) : IsStream m master (nonced E m master c) := by
  unfold nonced
  split_ifs
  · exact h
  · exact { h with }

lemma nonced_init : (nonced E m master c).init = true := by
  unfold nonced
  split_ifs with hinit
  · exact hinit
  · rfl

lemma IsStream.behindFrame (h : IsStream m master c) (pt : List UInt8) :
    IsStream m master (streamFrame E c pt).1 ∧ (streamFrame E c pt).1.init = c.init := by
  unfold streamFrame
  dsimp only
  split_ifs
  · exact ⟨{ h with }, rfl⟩
  · exact ⟨{ h with }, rfl⟩

lemma IsStream.encryptSaltOnce_spec (h : IsStream m master c) (hinit : c.init = false)
    (b : GrowableIOBuffer) :
    ∃ b', c.encryptSaltOnce E b = some (nonced E m master c, b') ∧
      b'.offset = b.offset ∧ b'.capacity = b.capacity + m.nonceSize ∧
      b'.everything.take (b.offset + m.nonceSize) =
        b.everything.take b.offset ++ freshNonce E m := by
  obtain rfl := h.method_eq
  obtain ⟨b₁, rest, hb₁, -, hev₁, hcap₁, hoff₁⟩ :=
    GrowableIOBuffer.setCapacity_add E.junk b (freshNonce E c.method).length
  have hle := b.offset_le
  have hin : b₁.offset + (freshNonce E c.method).length ≤ b₁.capacity := by omega
  obtain ⟨b₂, hb₂, hev₂, hcap₂, hoff₂⟩ := GrowableIOBuffer.store_of_le hin
  have hfront : (b.everything.take b.offset).length = b.offset := by
    rw [List.length_take, b.length_everything]
    omega
  refine ⟨b₂, ?_, hoff₂.trans hoff₁, ?_, ?_⟩
  · have hkey : c.setKeyStream (freshNonce E c.method) = { c with
        counter := 0, iv := freshNonce E c.method, implKey := master, past := [] } := by
      simp [setKeyStream, setKey, h.keyLen_eq, h.key_eq]
    rw [freshNonce] at hb₁ hb₂ hkey
    simp only [encryptSaltOnce, hinit, Bool.false_eq_true, if_false, encryptSalt,
      if_pos h.isStream, hb₁, hb₂, Option.bind_eq_bind, Option.bind_some, hkey, nonced,
      freshNonce]
  · rw [hcap₂, hcap₁, length_freshNonce]
  have hlen : (b.everything.take b.offset ++ freshNonce E c.method).length =
      b.offset + c.method.nonceSize := by
    rw [List.length_append, hfront, length_freshNonce]
  rw [hev₂, hoff₁, hev₁, List.take_append_of_le_length (hle.trans b.length_everything.ge),
    ← hlen, List.take_left]

lemma everything_of_size_eq_zero {b b' : GrowableIOBuffer} {nonce : List UInt8} {n : ℕ}
    (hsize : b.size = 0) (hcap : b'.capacity = b.capacity + n)
    (htake : b'.everything.take (b.offset + n) = b.everything.take b.offset ++ nonce) :
    b'.everything = b.everything ++ nonce := by
  have hle := b.offset_le
  have hend : b.offset = b.capacity := by
    rw [GrowableIOBuffer.size] at hsize
    omega
  have hall : b'.everything.length ≤ b.offset + n := by rw [b'.length_everything, hcap, hend]
  rw [List.take_of_length_le hall, hend, ← b.length_everything, List.take_length] at htake
  exact htake

/-- **A call that has its nonce.** It appends the encrypted bytes, or nothing when the context
reported an error. -/
lemma IsStream.encrypt_spec (h : IsStream m master c) (hinit : c.init) (pt : List UInt8)
    (b : GrowableIOBuffer) :
    ∃ b', c.encrypt E pt b = some ((streamFrame E c pt).1, (streamFrame E c pt).2.1, b') ∧
      b'.offset = b.offset ∧ b'.everything = b.everything ++ (streamFrame E c pt).2.2 := by
  have hm : c.method.isStream = true := h.method_eq ▸ h.isStream
  have htag : c.method.tagSize = 0 := by
    revert hm
    cases c.method <;> decide
  obtain ⟨b₁, rest, hb₁, hrest, hev₁, -, hoff₁⟩ :=
    GrowableIOBuffer.setCapacity_add E.junk b pt.length
  have hend : b₁.offset + (b.capacity - b.offset) = b.capacity := by
    have := b.offset_le
    omega
  cases hfail : E.sealFails c.ops.length with
  | true =>
    obtain ⟨b₂, hb₂, hev₂, hoff₂⟩ := setCapacity_undo E.junk hev₁ hoff₁
    refine ⟨b₂, ?_, hoff₂, by simp [streamFrame, hfail, hev₂]⟩
    simp [encrypt, encryptSaltOnce, hinit, chunkEncryptFrame, hm, chunkEncryptFrameStream, hb₁,
      encryptPacket, htag, hfail, hb₂, streamFrame]
  | false =>
    set out := streamEncrypt (E.keyStream c.method) c.implKey c.iv c.past pt with hout
    have hlen : out.length = rest.length := by rw [hout, length_streamEncrypt, hrest]
    obtain ⟨b₂, hb₂, hev₂, -, hoff₂⟩ := GrowableIOBuffer.store_append hev₁ hlen.le
    rw [b.length_everything] at hb₂
    refine ⟨b₂, ?_, hoff₂.trans hoff₁, by simp [streamFrame, hfail, hev₂, hlen, ← hout]⟩
    simp [encrypt, encryptSaltOnce, hinit, chunkEncryptFrame, hm, chunkEncryptFrameStream, hb₁,
      encryptPacket, htag, hfail, ← hout, hend, hb₂, streamFrame]

lemma encrypt_of_encryptSaltOnce {s : Cipher} {b b₁ : GrowableIOBuffer}
    (hsalt : c.encryptSaltOnce E b = some (s, b₁)) (hs : s.init) (pt : List UInt8) :
    c.encrypt E pt b = s.encrypt E pt b₁ := by
  have hagain : s.encryptSaltOnce E b₁ = some (s, b₁) := if_pos hs
  rw [encrypt, encrypt, hsalt, hagain]

lemma IsStream.encrypt_first (h : IsStream m master c) (hinit : c.init = false) (pt : List UInt8)
    (b : GrowableIOBuffer) :
    ∃ b', c.encrypt E pt b = some ((streamFrame E (nonced E m master c) pt).1,
        (streamFrame E (nonced E m master c) pt).2.1, b') ∧
      b'.offset = b.offset ∧
      b'.everything.take (b.offset + m.nonceSize) =
        b.everything.take b.offset ++ freshNonce E m ∧
      b'.capacity = b.capacity + m.nonceSize +
        (streamFrame E (nonced E m master c) pt).2.2.length ∧
      (b.size = 0 → b'.everything = b.everything ++ freshNonce E m ++
        (streamFrame E (nonced E m master c) pt).2.2) := by
  obtain ⟨b₁, hsalt, hoff₁, hcap₁, htake⟩ := h.encryptSaltOnce_spec (E := E) hinit b
  obtain ⟨b₂, hrun, hoff₂, hev₂⟩ := h.afterNonce.encrypt_spec (E := E) nonced_init pt b₁
  refine ⟨b₂, ?_, hoff₂.trans hoff₁, ?_, ?_, ?_⟩
  · rw [encrypt_of_encryptSaltOnce hsalt nonced_init, hrun]
  · have hle : b.offset + m.nonceSize ≤ b₁.everything.length := by
      have := b.offset_le
      rw [b₁.length_everything, hcap₁]
      omega
    rw [hev₂, List.take_append_of_le_length hle, htake]
  · rw [← b₂.length_everything, hev₂, List.length_append, b₁.length_everything, hcap₁]
  · intro hsize
    rw [hev₂, everything_of_size_eq_zero hsize hcap₁ htake]

/-! ## Whole runs of a stream encoder -/

lemma IsStream.frame_append (h : IsStream m master c) (pt : List UInt8) (ps : List (List UInt8))
    (oks : List Bool) :
    (streamFrame E c pt).2.2 ++ streamEncrypt (E.keyStream m) (streamFrame E c pt).1.implKey
        (streamFrame E c pt).1.iv (streamFrame E c pt).1.past (framed ps oks).flatten =
      streamEncrypt (E.keyStream m) c.implKey c.iv c.past
        (framed (pt :: ps) ((streamFrame E c pt).2.1 :: oks)).flatten := by
  unfold streamFrame
  cases E.sealFails c.ops.length with
  | true => simp
  | false => simp [streamEncrypt_append, h.method_eq]

lemma IsStream.encryptAll_spec (h : IsStream m master c) (hinit : c.init)
    (calls : List (List UInt8 × GrowableIOBuffer)) :
    ∃ c' oks bufs, c.encryptAll E calls = some (c', oks, bufs) ∧ IsStream m master c' ∧
      c'.init = true ∧ appended calls bufs = streamEncrypt (E.keyStream m) c.implKey c.iv c.past
        (framed (calls.map Prod.fst) oks).flatten := by
  induction calls generalizing c with
  | nil => exact ⟨c, [], [], rfl, h, hinit, rfl⟩
  | cons call calls ih =>
    obtain ⟨pt, b⟩ := call
    obtain ⟨b', hrun, -, hev⟩ := h.encrypt_spec (E := E) hinit pt b
    obtain ⟨hnext, hinit'⟩ := h.behindFrame (E := E) pt
    obtain ⟨c', oks, bufs, hruns, hc', hcinit, happ⟩ := ih hnext (hinit'.trans hinit)
    refine ⟨c', (streamFrame E c pt).2.1 :: oks, b' :: bufs, ?_, hc', hcinit, ?_⟩
    · simp only [encryptAll, hrun, Option.bind_eq_bind, Option.bind_some, hruns]
    rw [appended_cons (pt, b) calls hev, happ, List.map_cons, h.frame_append]

lemma IsStream.encryptAll_first (h : IsStream m master c) (hinit : c.init = false)
    (call : List UInt8 × GrowableIOBuffer) (calls : List (List UInt8 × GrowableIOBuffer)) :
    ∃ c' oks bufs, c.encryptAll E (call :: calls) = some (c', oks, bufs) ∧ c'.init = true ∧
      IsStream m master c' ∧ (call.2.size = 0 → appended (call :: calls) bufs = freshNonce E m ++
        streamEncrypt (E.keyStream m) master (freshNonce E m) []
          (framed ((call :: calls).map Prod.fst) oks).flatten) := by
  obtain ⟨pt, b⟩ := call
  obtain ⟨b', hrun, -, -, -, hev⟩ := h.encrypt_first (E := E) hinit pt b
  obtain ⟨hnext, hinit'⟩ := (h.afterNonce (E := E)).behindFrame (E := E) pt
  obtain ⟨c', oks, bufs, hruns, hc', hcinit, happ⟩ :=
    hnext.encryptAll_spec (E := E) (hinit'.trans nonced_init) calls
  refine ⟨c', (streamFrame E (nonced E m master c) pt).2.1 :: oks, b' :: bufs, ?_, hcinit, hc',
    fun hsize => ?_⟩
  · simp only [encryptAll, hrun, Option.bind_eq_bind, Option.bind_some, hruns]
  rw [appended_cons (pt, b) calls ((hev hsize).trans (List.append_assoc _ _ _)), happ,
    List.map_cons, List.append_assoc, h.afterNonce.frame_append]
  simp [nonced, hinit]

/-! ## Appending -/

variable (E m master) in
/-- The cipher once it has its subkey. -/
def keyed (c : Cipher) : Cipher :=
  if m.isStream then nonced E m master c else salted E m master c

/-- The salt or nonce in front of the first frame. -/
def opening (E : CipherEnv) (m : CipherMethod) : List UInt8 :=
  if m.isStream then freshNonce E m else freshSalt E m

/-- One frame, from a cipher that is keyed. -/
def frame (E : CipherEnv) (m : CipherMethod) (s : Cipher) (pt : List UInt8) : List UInt8 :=
  if m.isStream then streamEncrypt (E.keyStream m) s.implKey s.iv s.past pt
  else frameBytes E m s.implKey s.counter pt

/-- A call of `encrypt` does not abort and only appends: the salt or nonce, if there was none, and
one frame; or nothing at all. -/
def Appends (E : CipherEnv) (m : CipherMethod) (master : List UInt8) (c : Cipher) (pt : List UInt8)
    (b : GrowableIOBuffer) : Prop :=
  ∃ c' ok b', c.encrypt E pt b = some (c', ok, b') ∧ b'.offset = b.offset ∧
    b'.everything = b.everything ++
      if ok then (if c.init then [] else opening E m) ++ frame E m (keyed E m master c) pt else []

/-- No seal of the first call fails: two for an AEAD, one for a stream method. -/
def Sealed (E : CipherEnv) (m : CipherMethod) : Prop :=
  E.sealFails 0 = false ∧ (m.isStream = false → E.sealFails 1 = false)

/-- The nonce of a stream method does not land on bytes that are still to be read. -/
def Clear (m : CipherMethod) (b : GrowableIOBuffer) : Prop :=
  m.isStream = true → b.size = 0

lemma IsAead.appends_iff (h : IsAead m master c) (pt : List UInt8) (b : GrowableIOBuffer) :
    Appends E m master c pt b ↔ c.init = true ∨ (Cipher.emit E m master c pt).2.1 = true := by
  have hstream : ¬ m.isStream = true := by simp [h.notStream]
  obtain ⟨b', hrun, hev, hoff⟩ := h.encrypt_spec (E := E) pt b
  constructor
  · rintro ⟨c', ok, b'', hrun', -, hev'⟩
    rw [hrun] at hrun'
    cases hrun'
    by_contra hnot
    obtain ⟨hinit, hok⟩ := not_or.mp hnot
    -- the salt stays
    rw [hev, if_neg hok, List.append_nil, List.append_right_eq_self] at hev'
    have hlen := congrArg List.length hev'
    simp only [Cipher.emit, if_neg hinit, List.length_append, freshSalt, List.length_map,
      List.length_range, List.length_nil] at hlen
    have := m.keySize_pos
    omega
  intro hcases
  refine ⟨_, _, b', hrun, hoff, ?_⟩
  rw [hev, opening, frame, keyed, if_neg hstream, if_neg hstream, if_neg hstream]
  congr 1
  simp only [Cipher.emit] at hcases ⊢
  rcases hcases with hinit | hok
  · simp [hinit]
  · simp [hok]

lemma appends_create_aead_iff (hm : m.isStream = false) (password pt : List UInt8)
    (b : GrowableIOBuffer) :
    Appends E m (deriveKey E.hashes password m.keySize) (create E m password) pt b ↔
      Sealed E m := by
  rw [(tracks_create (E := E) hm password).isAead.appends_iff, Sealed]
  cases hfirst : E.sealFails 0 <;> simp [emit, salted, create, frameOps, hm, hfirst]

lemma IsStream.frame_eq (h : IsStream m master c) (pt : List UInt8) :
    (streamFrame E c pt).2.2 = if (streamFrame E c pt).2.1 then frame E m c pt else [] := by
  rw [frame, if_pos h.isStream]
  unfold streamFrame
  cases E.sealFails c.ops.length with
  | true => rfl
  | false => simp [h.method_eq]

lemma IsStream.appends (h : IsStream m master c) (hinit : c.init) (pt : List UInt8)
    (b : GrowableIOBuffer) : Appends E m master c pt b := by
  obtain ⟨b', hrun, hoff, hev⟩ := h.encrypt_spec (E := E) hinit pt b
  refine ⟨_, _, b', hrun, hoff, ?_⟩
  rw [hev, h.frame_eq, keyed, if_pos h.isStream, if_pos hinit, nonced, if_pos hinit]
  rfl

lemma IsStream.of_appends (h : IsStream m master c) (hinit : c.init = false) {pt : List UInt8}
    {b : GrowableIOBuffer} (happ : Appends E m master c pt b) :
    (streamFrame E (nonced E m master c) pt).2.1 = true ∧
      (b.everything ++ freshNonce E m).take (b.offset + m.nonceSize) =
        b.everything.take b.offset ++ freshNonce E m := by
  obtain ⟨b', hrun, -, htake, hcap, -⟩ := h.encrypt_first (E := E) hinit pt b
  obtain ⟨c', ok, b'', hrun', -, hev⟩ := happ
  rw [hrun] at hrun'
  cases hrun'
  have hnonce : 0 < m.nonceSize := by
    have hm := h.isStream
    revert hm
    cases m <;> decide
  have hok : (streamFrame E (nonced E m master c) pt).2.1 = true := by
    by_contra hfail
    rw [if_neg hfail, List.append_nil] at hev
    rw [← b'.length_everything, hev, b.length_everything] at hcap
    omega
  refine ⟨hok, ?_⟩
  have hle : b.offset + m.nonceSize ≤ (b.everything ++ freshNonce E m).length := by
    have := b.offset_le
    rw [List.length_append, b.length_everything, length_freshNonce]
    omega
  rw [if_pos hok, hinit, if_neg (by simp), opening, if_pos h.isStream, ← List.append_assoc] at hev
  rw [← htake, hev, List.take_append_of_le_length hle]

lemma IsStream.appends_first (h : IsStream m master c) (hinit : c.init = false) {pt : List UInt8}
    {b : GrowableIOBuffer} (hok : (streamFrame E (nonced E m master c) pt).2.1 = true)
    (hsize : b.size = 0) : Appends E m master c pt b := by
  obtain ⟨b', hrun, hoff, -, -, hev⟩ := h.encrypt_first (E := E) hinit pt b
  refine ⟨_, _, b', hrun, hoff, ?_⟩
  rw [hev hsize, h.afterNonce.frame_eq, if_pos hok, if_pos hok, hinit, if_neg (by simp), opening,
    keyed, if_pos h.isStream, if_pos h.isStream, List.append_assoc]

lemma streamFrame_first_ok (hinit : c.init = false) (hops : c.ops = []) (pt : List UInt8) :
    (streamFrame E (nonced E m master c) pt).2.1 = !E.sealFails 0 := by
  unfold streamFrame
  simp only [nonced, hinit, hops, Bool.false_eq_true, if_false, List.length_nil]
  cases E.sealFails 0 <;> rfl

/-- **First calls.** Random bytes that differ from the unread ones show where the nonce is. -/
lemma appends_create_iff (E : CipherEnv) (m : CipherMethod) (password pt : List UInt8)
    (b : GrowableIOBuffer) :
    (∀ rand junk, Appends { E with rand := rand, junk := junk } m
      (deriveKey E.hashes password m.keySize) (create E m password) pt b) ↔
      Sealed E m ∧ Clear m b := by
  cases hm : m.isStream with
  | false =>
    have hclear : Clear m b := fun h => by simp [hm] at h
    have hone (rand junk) := appends_create_aead_iff (E := { E with rand := rand, junk := junk })
      hm password pt b
    exact ⟨fun h => ⟨(hone E.rand E.junk).mp (h E.rand E.junk), hclear⟩,
      fun h rand junk => (hone rand junk).mpr h.1⟩
  | true =>
    have hs : IsStream m (deriveKey E.hashes password m.keySize) (create E m password) :=
      isStream_create hm password
    constructor
    · intro h
      -- a byte that is not the first unread one
      set other : UInt8 := (b.everything[b.offset]?).getD 0 + 1 with hother
      obtain ⟨hok, htake⟩ := hs.of_appends rfl (h (fun _ => other) E.junk)
      rw [streamFrame_first_ok rfl rfl, Bool.not_eq_true'] at hok
      refine ⟨⟨hok, fun h => by simp [hm] at h⟩, fun _ => ?_⟩
      by_contra hsize
      have hlt : b.offset < b.everything.length := by
        rw [b.length_everything]
        rw [GrowableIOBuffer.size] at hsize
        omega
      have hnonce : 0 < m.nonceSize := by
        revert hm
        cases m <;> decide
      have hat := congrArg (fun l => l[b.offset]?) htake
      have hfront : (b.everything.take b.offset).length = b.offset := by
        rw [List.length_take]
        omega
      rw [List.getElem?_take_of_lt (by omega), List.getElem?_append_left hlt,
        List.getElem?_append_right (by omega), hfront, Nat.sub_self] at hat
      have hnew : (freshNonce { E with rand := fun _ => other, junk := E.junk } m)[0]? =
          some other := by
        simp [freshNonce, hnonce]
      rw [hnew] at hat
      rw [hat, Option.getD_some] at hother
      exact absurd hother (by simp)
    · rintro ⟨⟨hseal, -⟩, hclear⟩ rand junk
      refine hs.appends_first rfl ?_ (hclear hm)
      rw [streamFrame_first_ok rfl rfl]
      simp [hseal]

/-! ## What the peer decodes -/

/-- However `bytes` is cut, a peer with the same password gets `plain` and no error. -/
def PeerDecodes (E : CipherEnv) (m : CipherMethod) (password plain bytes : List UInt8) : Prop :=
  ∀ junk reply, (∀ l, reply l = true) → ∀ pieces : List GrowableIOBuffer,
    (pieces.map GrowableIOBuffer.readable).flatten = bytes →
    ∃ decoder log, processAll { E with junk := junk } reply
        (create { E with junk := junk } m password) [] pieces = some (decoder, log) ∧
      VisitorEvent.protocolError ∉ log ∧ (delivered log).flatten = plain

lemma peerDecodes_aead (hm : m.isStream = false) (hinv : (E.aead m).Inverse)
    (password : List UInt8) {ps : List (List UInt8)} {oks : List Bool} {bytes : List UInt8}
    (hsize : ∀ p ∈ framed ps oks, 1 ≤ p.length ∧ p.length ≤ chunkSizeMask)
    (hbytes : bytes = Framer.encodeAll (streamEncode E m)
      (streamNext E m (deriveKey E.hashes password m.keySize)) .salt (streamItems E m ps oks)) :
    PeerDecodes E m password (framed ps oks).flatten bytes := by
  intro junk reply hreply pieces hpieces
  obtain ⟨decoder, hrun, -, -⟩ := processAll_items (E := { E with junk := junk }) hm password
    (allOk_streamItems hinv hsize) reply hreply pieces (hpieces.trans hbytes)
  refine ⟨decoder, _, hrun, by simp, ?_⟩
  rw [delivered_map_receivedData, payloads_streamItems]

lemma peerDecodes_stream (hm : m.isStream) (password : List UInt8)
    {plain nonce bytes : List UInt8} (hnonce : nonce.length = m.nonceSize)
    (hbytes : bytes = nonce ++ streamEncrypt (E.keyStream m)
      (deriveKey E.hashes password m.keySize) nonce [] plain)
    (hlong : m.keySize ≤ bytes.length) : PeerDecodes E m password plain bytes := by
  intro junk reply hreply pieces hpieces
  obtain ⟨decoder, got, hrun, hdecoded⟩ := processAll_stream hm reply pieces []
    (decodedAll_create (E := { E with junk := junk }) password)
  refine ⟨decoder, _, hrun, by simp, ?_⟩
  rw [List.nil_append, delivered_map_receivedData]
  rw [decoded_nil, List.nil_append, List.nil_append, hpieces] at hdecoded
  rw [← hdecoded, hbytes]
  exact decoded_nonce_append hm hnonce (hbytes ▸ hlong)

/-- **Encryption appends, but for the first call.** After every sequence of calls, for every payload
and buffer: the next call only appends, whatever the random and the undefined bytes are, iff it is
not the first one, or its seals succeed and it is of an AEAD method or there is nothing to read in
the buffer. If the first buffer of the sequence was such, the peer decodes the payloads of exactly
the calls that succeeded: AEAD payloads have to fit a frame, and a stream decoder has to be given
the `key_len_` bytes it waits for. -/
theorem encrypt_appends_iff (E : CipherEnv) (m : CipherMethod) (password : List UInt8)
    (calls : List (List UInt8 × GrowableIOBuffer)) (pt : List UInt8) (b : GrowableIOBuffer) :
    ∃ c oks bufs, (create E m password).encryptAll E calls = some (c, oks, bufs) ∧
      ((∀ rand junk, Appends { E with rand := rand, junk := junk } m
          (deriveKey E.hashes password m.keySize) c pt b) ↔
        (calls = [] → Sealed E m ∧ Clear m b)) ∧
      ((∀ call ∈ calls.head?, Clear m call.2) →
        (m.isStream = false → (E.aead m).Inverse ∧
          ∀ p ∈ framed (calls.map Prod.fst) oks, 1 ≤ p.length ∧ p.length ≤ chunkSizeMask) →
        (m.isStream = true → m.keySize ≤ (appended calls bufs).length) →
        PeerDecodes E m password (framed (calls.map Prod.fst) oks).flatten
          (appended calls bufs)) := by
  cases hm : m.isStream with
  | false =>
    have hc := (tracks_create (E := E) hm password).isAead
    obtain ⟨bufs, hrun, happ⟩ := hc.encryptAll_spec (E := E) calls
    refine ⟨_, _, bufs, hrun, ?_, fun _ hsize _ => ?_⟩
    · cases calls with
      | nil => exact (appends_create_iff E m password pt b).trans ⟨fun h _ => h, fun h => h rfl⟩
      | cons call calls =>
        have hnext := hc.emitAll (E := E) ((call :: calls).map Prod.fst)
        have hinit := emitAll_init (E := E) m (deriveKey E.hashes password m.keySize)
          (create E m password) call.1 (calls.map Prod.fst)
        refine ⟨fun _ h => absurd h (List.cons_ne_nil _ _), fun _ rand junk => ?_⟩
        exact (hnext.appends_iff pt b).mpr (.inl hinit)
    obtain ⟨hinv, hsize⟩ := hsize rfl
    exact peerDecodes_aead hm hinv password hsize (happ.trans
      (emitAll_create m (deriveKey E.hashes password m.keySize) rfl _).1)
  | true =>
    have hc : IsStream m (deriveKey E.hashes password m.keySize) (create E m password) :=
      isStream_create hm password
    cases calls with
    | nil =>
      refine ⟨_, [], [], rfl, ?_, fun _ _ hlong => ?_⟩
      · exact (appends_create_iff E m password pt b).trans ⟨fun h _ => h, fun h => h rfl⟩
      · exact absurd (hlong rfl) (Nat.not_le_of_lt m.keySize_pos)
    | cons call calls =>
      obtain ⟨c, oks, bufs, hrun, hinit, hnext, happ⟩ := hc.encryptAll_first (E := E) rfl call calls
      refine ⟨c, oks, bufs, hrun, ?_, fun hclear _ hlong => ?_⟩
      · exact ⟨fun _ h => absurd h (List.cons_ne_nil _ _),
          fun _ rand junk => hnext.appends hinit pt b⟩
      · exact peerDecodes_stream hm password length_freshNonce (happ (hclear call rfl hm))
          (hlong rfl)

def sampleCalls : List (List UInt8 × GrowableIOBuffer) :=
  [([1, 2], .fresh), ([3], .fresh), ([4], .copyBuffer [9])]

/-- The second call cannot seal its length: the peer gets the first and the third payload. -/
theorem encrypt_appends_chacha20 :
    ∃ c bufs, (create (.sample (· == 2)) .chacha20Poly1305Ietf [112]).encryptAll (.sample (· == 2))
        sampleCalls = some (c, [true, false, true], bufs) ∧
      PeerDecodes (.sample (· == 2)) .chacha20Poly1305Ietf [112] [1, 2, 4]
        (appended sampleCalls bufs) := by
  obtain ⟨c, oks, bufs, hrun, -, hpeer⟩ :=
    encrypt_appends_iff (.sample (· == 2)) .chacha20Poly1305Ietf [112] sampleCalls [] .fresh
  have hoks : ((create (.sample (· == 2)) .chacha20Poly1305Ietf [112]).encryptAll
      (.sample (· == 2)) sampleCalls).map (fun r => r.2.1) = some [true, false, true] := by
    decide +kernel
  rw [hrun] at hoks
  cases hoks
  exact ⟨c, bufs, hrun, hpeer (fun _ _ h => absurd h (by decide))
    (fun _ => ⟨Aead.zeroTag_inverse _, by decide⟩) (fun h => absurd h (by decide))⟩

/-- A stream method writes its nonce over the byte that was to be read, and a first call of an AEAD
method that has no frame leaves its salt. -/
theorem first_call_not_appended :
    ((create (.sample fun _ => false) .aes128Ctr [112]).encrypt (.sample fun _ => false) [1]
        (.copyBuffer [9])).map (fun r => (r.2.1, r.2.2.everything)) =
      some (true, [0, 1, 2, 3, 4, 5, 6, 7, 8, 9, 10, 11, 12, 13, 14, 15, 0, 1]) ∧
    ((create (.sample fun _ => true) .aes128GcmSha256Evp [112]).encrypt (.sample fun _ => true) [1]
        (.copyBuffer [9])).map (fun r => (r.2.1, r.2.2.everything)) =
      some (false, [9, 0, 1, 2, 3, 4, 5, 6, 7, 8, 9, 10, 11, 12, 13, 14, 15]) := by
  decide +kernel

end Yass.Net.Cipher
