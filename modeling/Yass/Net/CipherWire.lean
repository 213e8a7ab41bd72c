import Yass.Net.CipherRoundTrip

/-!
# What a decoder has delivered after any prefix of a ciphertext

The two kinds of method side by side. An AEAD decoder takes a salt and then whole frames; a decoder
of an mbed TLS method waits for `key_len_` bytes, although its nonce is shorter, and from then on
delivers every byte in the call that brings it.
-/

namespace Yass.Net.Cipher

open Yass.Crypto Framing

variable {E : CipherEnv} {m : CipherMethod} {master : List UInt8} {c : Cipher}

/-! ## AEAD methods: every payload is non-empty -/

def ItemOk : StreamItem → Prop
  | .salt _ => True
  | .payload p => p ≠ []

lemma attempt_itemOk {s s' : Phase} {b : List UInt8} {a : StreamItem} {n : ℕ}
    (h : (aeadFramer E m master).attempt s b = .item a n s') : ItemOk a := by
  cases s with
  | salt =>
    change streamAttempt E m master .salt b = _ at h
    simp only [streamAttempt] at h
    split_ifs at h
    cases h
    trivial
  | frames key counter =>
    obtain ⟨len, p, mlen, -, -, hpos, hopen, hn, hle, rfl, -⟩ := frameAttempt_item E m h
    intro hnil
    have hlen := (E.aead m).length_open hopen
    rw [hnil, List.length_take, List.length_drop] at hlen
    simp only [List.length_nil] at hlen
    omega

variable {reply : List (List UInt8) → Bool}

lemma consumer_accepts
    (hreply : ∀ l p, p ≠ [] → reply (l ++ [p]) = true) {a : StreamItem} (ha : ItemOk a)
    (l : List StreamItem) : consumer reply (l ++ [a]) = true := by
  cases a with
  | salt s => simp [consumer]
  | payload p => simpa [consumer] using hreply (payloads l) p ha

lemma payloads_pump_ne_nil {go : List StreamItem → Bool} {past : List StreamItem} {s : Phase}
    {b p : List UInt8} (hp : p ∈ payloads ((aeadFramer E m master).pump go past s b).items) :
    p ≠ [] := by
  obtain ⟨a, ha, hap⟩ := List.mem_filterMap.mp hp
  have hok := (aeadFramer E m master).mem_pump attempt_itemOk ha
  cases a with
  | salt s => cases hap
  | payload q =>
    cases hap
    exact hok

/-! ## Stream methods: everything that is there -/

lemma nonceSize_le_keySize (hm : m.isStream) : m.nonceSize ≤ m.keySize := by
  revert hm
  cases m <;> decide

/-- What the loop of `process_bytes` leaves behind when a stream cipher has consumed `bytes`. -/
structure Consumed (c c' : Cipher) (bytes : List UInt8) : Prop where
  method_eq : c'.method = c.method
  key_eq : c'.key = c.key
  keyLen_eq : c'.keyLen = c.keyLen
  init_eq : c'.init = c.init
  implKey_eq : c'.implKey = c.implKey
  iv_eq : c'.iv = c.iv
  past_eq : c'.past = c.past ++ bytes
  rest_eq : c'.rest = []

lemma chunkDecryptFrame_stream (hm : c.method.isStream) (counter : UInt64)
    {p : GrowableIOBuffer} (hp : p.offset = 0) (b : GrowableIOBuffer) :
    ∃ p' b', c.chunkDecryptFrame E counter p b =
        some ({ c with past := c.past ++ b.readable }, counter + 1, .ok, p', b') ∧
      b'.readable = [] ∧ p'.offset = p'.capacity ∧
      p'.everything = streamDecrypt (E.keyStream c.method) c.implKey c.iv c.past b.readable := by
  have htag : c.method.tagSize = 0 := by
    revert hm
    cases c.method <;> decide
  set out := streamDecrypt (E.keyStream c.method) c.implKey c.iv c.past b.readable with hout
  obtain ⟨p₁, hp₁, hpcap₁, hpoff₁⟩ := GrowableIOBuffer.setCapacity_of_offset_le E.junk
    (Nat.le_add_right p.offset b.size)
  rw [hp, Nat.zero_add] at hp₁ hpcap₁
  have hlen : out.length = p₁.capacity := by
    rw [hpcap₁, hout, length_streamDecrypt, GrowableIOBuffer.length_readable]
  obtain ⟨p₂, hp₂, hpev₂, hpcap₂, hpoff₂⟩ := GrowableIOBuffer.store_all hlen
  have hstart : p₁.offset = 0 := hpoff₁.trans hp
  have hfull : p₂.offset + out.length ≤ p₂.capacity := by omega
  obtain ⟨p₃, hp₃, hpev₃, -, hpcap₃, hpoff₃⟩ := GrowableIOBuffer.setOffset_of_le hfull
  obtain ⟨b₁, hb₁, hread₁, -⟩ := GrowableIOBuffer.setOffset_add (le_refl b.size)
  refine ⟨p₃, b₁, ?_, ?_, ?_, ?_⟩
  · have hnot : ¬ b.readable.length < c.method.tagSize := by omega
    simp only [chunkDecryptFrame, if_pos hm, chunkDecryptFrameStream, hp, Nat.zero_add, hp₁,
      Option.bind_eq_bind, Option.bind_some, decryptPacket, if_neg hnot, ← hout, hstart, hp₂, hp₃,
      hb₁]
  · rw [hread₁]
    exact List.drop_of_length_le (by simp)
  · omega
  · rw [hpev₃, hpev₂]

/-- **The loop, stream methods.** A non-empty chunk is delivered in one piece. -/
lemma processLoop_stream (hm : c.method.isStream) (reply : List (List UInt8) → Bool)
    (chunk : GrowableIOBuffer) (log : List VisitorEvent) :
    ∃ (c' : Cipher) (pieces : List (List UInt8)), processLoop E reply (chunk.size + 1) c chunk log =
        some (c', log ++ pieces.map .receivedData) ∧ Consumed c c' chunk.readable ∧
      (∀ p ∈ pieces, p ≠ []) ∧
      pieces.flatten =
        streamDecrypt (E.keyStream c.method) c.implKey c.iv c.past chunk.readable := by
  rw [processLoop]
  by_cases hempty : chunk.isEmpty
  · have hnil : chunk.readable = [] := chunk.isEmpty_iff.mp hempty
    refine ⟨{ c with chunk := some chunk }, [], by simp [hempty], ?_, by simp, ?_⟩
    · exact ⟨rfl, rfl, rfl, rfl, rfl, rfl, by simp [hnil], hnil⟩
    · simp [hnil, streamDecrypt]
  have hne : chunk.readable ≠ [] := fun h => hempty (chunk.isEmpty_iff.mpr h)
  obtain ⟨p, hp, -, hpoff⟩ := GrowableIOBuffer.setCapacity_fresh E.junk socketBufSize
  obtain ⟨p', b', hframe, hdone, hfull, hev⟩ :=
    chunkDecryptFrame_stream (E := E) hm c.counter hpoff chunk
  obtain ⟨p₁, p₂, hp₁, hp₂, hdel⟩ := deliver_plaintext E.junk hfull
  rw [hev] at hdel
  obtain ⟨turns, hturns⟩ : ∃ turns, chunk.size = turns + 1 := by
    rw [← GrowableIOBuffer.length_readable]
    exact Nat.exists_eq_succ_of_ne_zero (List.length_eq_zero_iff.not.mpr hne)
  have hempty' : b'.isEmpty = true := b'.isEmpty_iff.mpr hdone
  refine ⟨{ c with past := c.past ++ chunk.readable, counter := c.counter + 1, chunk := some b' },
    [streamDecrypt (E.keyStream c.method) c.implKey c.iv c.past chunk.readable], ?_,
    ⟨rfl, rfl, rfl, rfl, rfl, rfl, rfl, hdone⟩, ?_, by simp⟩
  · -- the visitor's answer does not matter: there is nothing left to decrypt
    simp only [if_neg hempty, hp, Option.bind_eq_bind, Option.bind_some, hframe, hp₁, hp₂, hdel,
      hturns, processLoop, if_pos hempty', ite_self, List.map_cons, List.map_nil]
  intro q hq hnil
  rw [List.mem_singleton] at hq
  rw [hq, ← List.length_eq_zero_iff, length_streamDecrypt] at hnil
  exact hne (List.length_eq_zero_iff.mp hnil)

/-! ## Both kinds -/

variable (E m master) in
/-- The plaintext a decoder has delivered once it has been given the bytes `got`. -/
def decoded (got : List UInt8) : List UInt8 :=
  if m.isStream then
    if got.length < m.keySize then []
    else streamDecrypt (E.keyStream m) master (got.take m.nonceSize) [] (got.drop m.nonceSize)
  else (payloads ((aeadFramer E m master).drain .salt got).items).flatten

variable (E m master) in
def Clean (got : List UInt8) : Prop :=
  m.isStream = false → ((aeadFramer E m master).drain .salt got).why = .starved

variable (E m master) in
/-- A decoder that has been given the bytes `got`. -/
inductive DecodedAll (c : Cipher) (got : List UInt8) : Prop
  | aead (isAead : IsAead m master c)
      (phase_eq : c.phase = ((aeadFramer E m master).drain .salt got).state)
      (rest_eq : c.rest = ((aeadFramer E m master).drain .salt got).rest)
  /-- A stream cipher that still waits for `key_len_` bytes. -/
  | waiting (method_eq : c.method = m) (isStream : m.isStream = true) (key_eq : c.key = master)
      (keyLen_eq : c.keyLen = m.keySize) (short : got.length < m.keySize) (init_eq : c.init = false)
      (rest_eq : c.rest = got)
  | keyed (method_eq : c.method = m) (isStream : m.isStream = true)
      (long : m.keySize ≤ got.length) (init_eq : c.init = true) (implKey_eq : c.implKey = master)
      (iv_eq : c.iv = got.take m.nonceSize) (past_eq : c.past = got.drop m.nonceSize)
      (rest_eq : c.rest = [])

lemma decodedAll_create (password : List UInt8) :
    DecodedAll E m (deriveKey E.hashes password m.keySize) (create E m password) [] := by
  by_cases hm : m.isStream
  · exact .waiting rfl hm rfl rfl m.keySize_pos rfl rfl
  have htracks := tracks_create (E := E) (Bool.not_eq_true _ ▸ hm) password
  refine .aead htracks.isAead ?_ ?_
  · rw [Framer.drain_of_more _ (attempt_nil E m _ .salt)]
    exact htracks.phase_eq
  · rw [Framer.drain_of_more _ (attempt_nil E m _ .salt)]
    exact htracks.rest_eq

@[simp] lemma decoded_nil : decoded E m master [] = [] := by
  unfold decoded
  split_ifs with hm hlen
  · rfl
  · exact absurd m.keySize_pos (by simpa using hlen)
  · rw [Framer.drain_of_more _ (attempt_nil E m _ .salt)]
    rfl

variable (E m master) in
/-- One call of `process_bytes` that delivers `pieces`, all of them non-empty, and goes on behind
`buf`. -/
def Delivers (reply : List (List UInt8) → Bool) (c : Cipher) (got : List UInt8)
    (buf : GrowableIOBuffer) : Prop :=
  ∃ (c' : Cipher) (pieces : List (List UInt8)),
    c.processBytes E reply [] buf = some (c', pieces.map .receivedData) ∧
    DecodedAll E m master c' (got ++ buf.readable) ∧ (∀ p ∈ pieces, p ≠ []) ∧
    decoded E m master (got ++ buf.readable) = decoded E m master got ++ pieces.flatten

variable {got : List UInt8}

lemma IsAead.delivers (hreply : ∀ l p, p ≠ [] → reply (l ++ [p]) = true) {buf : GrowableIOBuffer}
    (hclean : Clean E m master (got ++ buf.readable)) (h : IsAead m master c)
    (hphase : c.phase = ((aeadFramer E m master).drain .salt got).state)
    (hrest : c.rest = ((aeadFramer E m master).drain .salt got).rest) :
    Delivers E m master reply c got buf := by
  set F := aeadFramer E m master with hF
  have hlog : delivered [] = payloads [] := rfl
  obtain ⟨c', hrun, hc', hst, hkept⟩ := h.processBytes_spec (E := E) reply hlog buf
  rw [← hF, F.pump_eq_drain_of fun l hi => consumer_accepts hreply (attempt_itemOk hi) l]
    at hrun hst hkept
  rw [hphase, hrest] at hrun hst hkept
  have hcut := F.drain_append .salt got buf.readable
  have hstop := hclean h.notStream
  rw [← hF, hcut, Taken.prepend_why] at hstop
  rw [hstop] at hrun
  refine ⟨c', payloads (F.drain (F.drain .salt got).state
    ((F.drain .salt got).rest ++ buf.readable)).items, ?_, .aead hc' ?_ ?_, ?_, ?_⟩
  · rw [hrun]
    simp [deliveries, raised]
  · rw [← hF, hcut, hst]
    rfl
  · rw [← hF, hcut, hkept]
    rfl
  · intro p hp
    exact payloads_pump_ne_nil hp
  have hm : ¬ m.isStream = true := by simp [h.notStream]
  rw [decoded, decoded, if_neg hm, if_neg hm, ← hF, hcut]
  simp

variable (E m master) in
/-- The same for a stream cipher, behind the callbacks `log`. What the visitor answers does not
matter. -/
def DeliversBehind (log : List VisitorEvent) (reply : List (List UInt8) → Bool) (c : Cipher)
    (got : List UInt8) (buf : GrowableIOBuffer) : Prop :=
  ∃ (c' : Cipher) (pieces : List (List UInt8)),
    c.processBytes E reply log buf = some (c', log ++ pieces.map .receivedData) ∧
    DecodedAll E m master c' (got ++ buf.readable) ∧ (∀ p ∈ pieces, p ≠ []) ∧
    decoded E m master (got ++ buf.readable) = decoded E m master got ++ pieces.flatten

lemma deliversBehind_of_loop {log : List VisitorEvent} {buf : GrowableIOBuffer}
    (chunk : GrowableIOBuffer) (hmethod : c.method = m)
    (hm : m.isStream) (hinit : c.init) (hkey : c.implKey = master)
    (hlong : m.keySize ≤ (got ++ buf.readable).length)
    (hiv : c.iv = (got ++ buf.readable).take m.nonceSize)
    (hpast : c.past ++ chunk.readable = (got ++ buf.readable).drop m.nonceSize)
    (hdecoded : decoded E m master got = streamDecrypt (E.keyStream m) master c.iv [] c.past)
    {c₀ : Cipher} (hcall : c₀.processBytes E reply log buf =
      processLoop E reply (chunk.size + 1) c chunk log) :
    DeliversBehind E m master log reply c₀ got buf := by
  obtain rfl := hmethod
  obtain ⟨c', pieces, hrun, hc', hne, hflat⟩ := processLoop_stream (E := E) hm reply chunk log
  refine ⟨c', pieces, hcall.trans hrun, ?_, hne, ?_⟩
  · exact .keyed hc'.method_eq hm hlong (hc'.init_eq.trans hinit) (hc'.implKey_eq.trans hkey)
      (hc'.iv_eq.trans hiv) (hc'.past_eq.trans hpast) hc'.rest_eq
  · rw [decoded, if_pos hm, if_neg (by omega), ← hpast, ← hiv, streamDecrypt_append, hdecoded,
      hflat, hkey, List.nil_append]

lemma DecodedAll.processBytes_stream (h : DecodedAll E m master c got)
    (hm : m.isStream) (log : List VisitorEvent) (reply : List (List UInt8) → Bool)
    (buf : GrowableIOBuffer) : DeliversBehind E m master log reply c got buf := by
  obtain ⟨chunk, hchunk, hread⟩ := c.rebuildChunk_spec (E := E) buf
  have hnonce := nonceSize_le_keySize hm
  cases h with
  | aead haead => exact absurd hm (by simp [haead.notStream])
  | waiting hmethod _ hkey hkeyLen hshort hinit hrest =>
    rw [hrest] at hread
    have hsize : chunk.size = (got ++ buf.readable).length := by
      rw [← GrowableIOBuffer.length_readable, hread]
    have hnone : decoded E m master got = [] := by rw [decoded, if_pos hm, if_pos hshort]
    by_cases hmore : (got ++ buf.readable).length < m.keySize
    · -- the bytes are only kept
      have hkept : chunk.size < m.keySize := by omega
      refine ⟨{ c with chunk := some chunk }, [], ?_, ?_, by simp, ?_⟩
      · simp [Cipher.processBytes, hchunk, hinit, hkeyLen, hkept]
      · exact .waiting hmethod hm hkey hkeyLen hmore hinit hread
      · rw [hnone, decoded, if_pos hm, if_pos hmore]
        rfl
    -- the nonce is taken off, and the rest is decrypted in the same call
    obtain rfl := hmethod
    have hfit : c.method.nonceSize ≤ chunk.size := by omega
    obtain ⟨chunk', hchunk', hread', -⟩ := GrowableIOBuffer.setOffset_add hfit
    have hlong : ¬ chunk.size < c.method.keySize := by omega
    refine deliversBehind_of_loop chunk' (c := { c with
        counter := 0, iv := chunk.readable.take c.method.nonceSize, implKey := c.key,
        past := [], init := true }) rfl hm rfl hkey (Nat.le_of_not_lt hmore) ?_ ?_ ?_ ?_
    · rw [hread]
    · rw [hread', hread]
      rfl
    · rw [hnone]
      rfl
    · simp [Cipher.processBytes, hchunk, hinit, hkeyLen, hlong, decryptSalt, hm, hchunk',
        setKeyStream, setKey]
  | keyed hmethod _ hlong hinit hkey hiv hpast hrest =>
    rw [hrest, List.nil_append] at hread
    apply deliversBehind_of_loop chunk hmethod hm hinit hkey
    · rw [List.length_append]
      omega
    · rw [hiv, List.take_append_of_le_length (hnonce.trans hlong)]
    · rw [hpast, hread, List.drop_append_of_le_length (hnonce.trans hlong)]
    · rw [decoded, if_pos hm, if_neg (by omega), hiv, hpast]
    · simp [Cipher.processBytes, hchunk, hinit]

/-- **One call.** For every decoder, whatever it has been given, and every buffer whose bytes do
not make it refuse a frame: `process_bytes` delivers what the new bytes add to `decoded`. -/
theorem DecodedAll.processBytes (h : DecodedAll E m master c got)
    (hreply : ∀ l p, p ≠ [] → reply (l ++ [p]) = true)
    (buf : GrowableIOBuffer) (hclean : Clean E m master (got ++ buf.readable)) :
    Delivers E m master reply c got buf := by
  by_cases hm : m.isStream
  · exact h.processBytes_stream hm [] reply buf
  · cases h with
    | aead haead hphase hrest => exact haead.delivers hreply hclean hphase hrest
    | waiting _ hm' => exact absurd hm' hm
    | keyed _ hm' => exact absurd hm' hm

/-! ## Ciphertexts -/

variable (E m master) in
/-- `bytes` is a ciphertext of `plain`: for an AEAD method a salt and the plaintext in frames of any
sizes, for a stream method a nonce and the encrypted bytes. -/
inductive Wire (plain bytes : List UInt8) : Prop
  | aead (notStream : m.isStream = false) (salt : List UInt8) (frames : List (List UInt8))
      (salt_length : salt.length = m.keySize)
      (frame_length : ∀ p ∈ frames, 1 ≤ p.length ∧ p.length ≤ chunkSizeMask)
      (plain_eq : plain = frames.flatten)
      (bytes_eq : bytes = Framer.encodeAll (streamEncode E m) (streamNext E m master) .salt
        (.salt salt :: frames.map .payload))
  | stream (isStream : m.isStream = true) (nonce : List UInt8)
      (nonce_length : nonce.length = m.nonceSize)
      (bytes_eq : bytes = nonce ++ streamEncrypt (E.keyStream m) master nonce [] plain)

lemma Clean.of_append (more : List UInt8) (h : Clean E m master (got ++ more)) :
    Clean E m master got := by
  intro hm
  exact (aeadFramer E m master).drain_starved_of_append (h hm)

lemma decoded_append {more : List UInt8} :
    decoded E m master got <+: decoded E m master (got ++ more) := by
  unfold decoded
  split_ifs with hm hshort hshort' hshort'
  · exact List.nil_prefix
  · exact List.nil_prefix
  · rw [List.length_append] at hshort'
    omega
  · have hnonce := nonceSize_le_keySize hm
    rw [List.take_append_of_le_length (by omega), List.drop_append_of_le_length (by omega),
      streamDecrypt_append]
    exact List.prefix_append _ _
  · rw [Framer.drain_append, Taken.prepend_items, payloads_append, List.flatten_append]
    exact List.prefix_append _ _

variable {plain bytes : List UInt8}

lemma drain_wire (hinv : (E.aead m).Inverse) {salt : List UInt8} {frames : List (List UInt8)}
    (hsalt : salt.length = m.keySize)
    (hframes : ∀ p ∈ frames, 1 ≤ p.length ∧ p.length ≤ chunkSizeMask) :
    ((aeadFramer E m master).drain .salt (Framer.encodeAll (streamEncode E m)
        (streamNext E m master) .salt (.salt salt :: frames.map .payload))).items =
      .salt salt :: frames.map .payload ∧
    ((aeadFramer E m master).drain .salt (Framer.encodeAll (streamEncode E m)
        (streamNext E m master) .salt (.salt salt :: frames.map .payload))).why = .starved := by
  have hok : Framer.AllOk (streamNext E m master) (streamOk E m) .salt
      (.salt salt :: frames.map .payload) :=
    ⟨hsalt, allOk_payloads (j := 0) fun i p hp =>
      ⟨hframes p (List.mem_of_getElem? hp), hinv _ _ _, hinv _ _ _⟩⟩
  rw [drain_stream hok]
  exact ⟨rfl, rfl⟩

lemma Wire.clean (h : Wire E m master plain bytes) (hinv : (E.aead m).Inverse)
    (hgot : got <+: bytes) : Clean E m master got := by
  obtain ⟨more, rfl⟩ := hgot
  apply Clean.of_append more
  cases h with
  | aead hm salt frames hsalt hframes hplain hbytes =>
    intro _
    rw [hbytes]
    exact (drain_wire hinv hsalt hframes).2
  | stream hm nonce hnonce hbytes => intro hm'; simp [hm] at hm'

lemma Wire.decoded_of_aead (h : Wire E m master plain bytes) (hinv : (E.aead m).Inverse)
    (hm : m.isStream = false) : decoded E m master bytes = plain := by
  cases h with
  | aead _ salt frames hsalt hframes hplain hbytes =>
    rw [decoded, if_neg (by simp [hm]), hbytes, (drain_wire hinv hsalt hframes).1, hplain]
    congr 1
    exact payloads_map_payload frames
  | stream hm' => simp [hm] at hm'

lemma decoded_nonce_append (hm : m.isStream) {nonce plain : List UInt8}
    (hnonce : nonce.length = m.nonceSize)
    (hlong : m.keySize ≤
      (nonce ++ streamEncrypt (E.keyStream m) master nonce [] plain).length) :
    decoded E m master (nonce ++ streamEncrypt (E.keyStream m) master nonce [] plain) = plain := by
  rw [decoded, if_pos hm, if_neg (by omega), ← hnonce, List.take_left, List.drop_left,
    streamDecrypt_streamEncrypt]

lemma Wire.decoded_eq (h : Wire E m master plain bytes) (hinv : (E.aead m).Inverse)
    (hgot : got <+: bytes) (hne : decoded E m master got ≠ []) :
    decoded E m master bytes = plain := by
  cases h with
  | aead hm salt frames hsalt hframes hplain hbytes =>
    exact (Wire.aead hm salt frames hsalt hframes hplain hbytes).decoded_of_aead hinv hm
  | stream hm nonce hnonce hbytes =>
    have hlong : m.keySize ≤ got.length := by
      by_contra hshort
      exact hne (by rw [decoded, if_pos hm, if_pos (by omega)])
    have hle := hgot.length_le
    rw [hbytes]
    exact decoded_nonce_append hm hnonce (hbytes ▸ hlong.trans hle)

lemma Wire.decoded_prefix (h : Wire E m master plain bytes) (hinv : (E.aead m).Inverse)
    (hgot : got <+: bytes) : decoded E m master got <+: plain := by
  by_cases hne : decoded E m master got = []
  · rw [hne]
    exact List.nil_prefix
  rw [← h.decoded_eq hinv hgot hne]
  obtain ⟨more, rfl⟩ := hgot
  exact decoded_append

/-! ## Promptness of stream methods -/

lemma processAll_stream (hm : m.isStream)
    (reply : List (List UInt8) → Bool) (calls : List GrowableIOBuffer) (log : List VisitorEvent)
    (h : DecodedAll E m master c got) :
    ∃ (c' : Cipher) (pieces : List (List UInt8)),
      c.processAll E reply log calls = some (c', log ++ pieces.map .receivedData) ∧
      decoded E m master (got ++ (calls.map GrowableIOBuffer.readable).flatten) =
        decoded E m master got ++ pieces.flatten := by
  induction calls generalizing c got log with
  | nil => exact ⟨c, [], by simp [processAll], by simp⟩
  | cons buf calls ih =>
    obtain ⟨c₁, pieces, hcall, h₁, -, hadds⟩ := h.processBytes_stream hm log reply buf
    obtain ⟨c₂, more, hrest, hadds'⟩ := ih (log ++ pieces.map .receivedData) h₁
    refine ⟨c₂, pieces ++ more, ?_, ?_⟩
    · unfold processAll at hrest ⊢
      rw [List.foldlM_cons, hcall, Option.bind_eq_bind, Option.bind_some, hrest, List.map_append,
        List.append_assoc]
    · rw [List.map_cons, List.flatten_cons, ← List.append_assoc, hadds', hadds,
        List.flatten_append, List.append_assoc]

def decryptable (E : CipherEnv) (m : CipherMethod) (master got : List UInt8) : List UInt8 :=
  streamDecrypt (E.keyStream m) master (got.take m.nonceSize) [] (got.drop m.nonceSize)

lemma decoded_eq_decryptable_iff (hm : m.isStream) (got : List UInt8) :
    decoded E m master got = decryptable E m master got ↔
      ¬ (m.nonceSize < got.length ∧ got.length < m.keySize) := by
  rw [decoded, if_pos hm]
  by_cases hshort : got.length < m.keySize
  · rw [if_pos hshort]
    have hempty : decryptable E m master got = [] ↔ got.length ≤ m.nonceSize := by
      rw [decryptable, ← List.length_eq_zero_iff, length_streamDecrypt, List.length_drop,
        Nat.sub_eq_zero_iff_le]
    rw [eq_comm, hempty]
    omega
  rw [if_neg hshort]
  have := nonceSize_le_keySize hm
  refine ⟨fun _ => ?_, fun _ => rfl⟩
  omega

lemma delivered_map_receivedData (ps : List (List UInt8)) :
    delivered (ps.map .receivedData) = ps := by
  simp [delivered, List.filterMap_map]

/-- **Promptness.** A decoder of a stream method, given any bytes in any pieces: no call fails, and
what has been delivered is the decryption of everything received behind the nonce, unless more than
the nonce and less than `key_len_` bytes have been received. -/
theorem stream_decoder_prompt_iff (E : CipherEnv) (m : CipherMethod) (hm : m.isStream = true)
    (password : List UInt8) (reply : List (List UInt8) → Bool) (calls : List GrowableIOBuffer) :
    ∃ c log, (create E m password).processAll E reply [] calls = some (c, log) ∧
      VisitorEvent.protocolError ∉ log ∧
      let got := (calls.map GrowableIOBuffer.readable).flatten
      ((delivered log).flatten = decryptable E m (deriveKey E.hashes password m.keySize) got ↔
        ¬ (m.nonceSize < got.length ∧ got.length < m.keySize)) := by
  obtain ⟨c, pieces, hrun, hdecoded⟩ :=
    processAll_stream hm reply calls [] (decodedAll_create (E := E) password)
  rw [List.nil_append, decoded_nil, List.nil_append] at hdecoded
  refine ⟨c, pieces.map .receivedData, hrun, by simp, ?_⟩
  rw [delivered_map_receivedData, ← hdecoded]
  exact decoded_eq_decryptable_iff hm _

theorem stream_decoder_prompt_aes128 :
    ∃ c log, (create (.sample fun _ => false) .aes128Ctr [112]).processAll (.sample fun _ => false)
        (fun _ => true) [] ((List.replicate 18 7).map fun b => .copyBuffer [b]) = some (c, log) ∧
      (delivered log).flatten = [7, 7] := by
  obtain ⟨c, log, hrun, -, hiff⟩ := stream_decoder_prompt_iff (.sample fun _ => false) .aes128Ctr
    (by decide) [112] (fun _ => true) ((List.replicate 18 7).map fun b => .copyBuffer [b])
  refine ⟨c, log, hrun, (hiff.mpr (by decide)).trans ?_⟩
  decide

/-- A 256-bit key: of twenty bytes the last four could be decrypted, and none is delivered. -/
theorem stream_decoder_withholds :
    ((create (.sample fun _ => false) .aes256Ctr [112]).processAll (.sample fun _ => false)
        (fun _ => true) [] [.copyBuffer (List.replicate 20 7)]).map (fun r => delivered r.2) =
      some [] ∧
    decryptable (.sample fun _ => false) .aes256Ctr
      (deriveKey (CipherEnv.sample fun _ => false).hashes [112] CipherMethod.aes256Ctr.keySize)
      (List.replicate 20 7) = [7, 7, 7, 7] := by
  decide +kernel

end Yass.Net.Cipher
