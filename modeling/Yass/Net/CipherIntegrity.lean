import Yass.Lib.Lists
import Yass.Net.CipherRoundTrip

/-!
# AEAD decoder integrity

Against an ideal AEAD, what a decoder delivers on any stream of bytes whatever is a prefix, frame by
frame, of what its peer's encoder framed — as long as the peer has not run through all nonces.

* `sealed` — what an encoder's log sealed; the AEAD is ideal (`Aead.IdealFor`) for it.
-/

namespace Yass.Net.Cipher

open Yass.Crypto Framing

variable {E : CipherEnv} {m : CipherMethod} {master : List UInt8} {c : Cipher}

def sealed (ops : List PacketOp) : List (List UInt8 × List UInt8 × List UInt8) :=
  (ops.filter PacketOp.ok).map fun op => (op.key, op.nonce, op.plaintext)

variable {ops : List PacketOp}

lemma mem_sealed {k n p : List UInt8} :
    (k, n, p) ∈ sealed ops ↔ ⟨k, n, p, true⟩ ∈ ops := by
  simp only [sealed, List.mem_map, List.mem_filter, Prod.mk.injEq]
  constructor
  · rintro ⟨⟨k', n', p', ok⟩, ⟨hop, hok⟩, rfl, rfl, rfl⟩
    obtain rfl : ok = true := hok
    exact hop
  · intro hop
    exact ⟨_, ⟨hop, rfl⟩, rfl, rfl, rfl⟩

/-! ## What the peer sealed -/

lemma ofNat_succ_even (j : ℕ) : UInt64.ofNat (2 * j) + 1 = UInt64.ofNat (2 * j + 1) := by simp

variable {key : List UInt8}

lemma mem_frameOps {p : List UInt8} {j n : ℕ} {op : PacketOp}
    (hop : op ∈ (frameOps E m key (UInt64.ofNat (2 * j)) n p).1) (hok : op.ok) :
    op.key = key ∧ (op.nonce = aeadNonce m (UInt64.ofNat (2 * j)) ∨
      (frameOps E m key (UInt64.ofNat (2 * j)) n p).2 = true ∧
        op.nonce = aeadNonce m (UInt64.ofNat (2 * j + 1)) ∧ op.plaintext = p) := by
  unfold frameOps at hop ⊢
  split_ifs at hop ⊢
  · obtain rfl := List.mem_singleton.mp hop
    cases hok
  simp only [List.mem_cons, List.not_mem_nil, or_false, ofNat_succ_even] at hop
  rcases hop with rfl | rfl
  · exact ⟨rfl, .inl rfl⟩
  · exact ⟨rfl, .inr ⟨hok, rfl, rfl⟩⟩

variable (m master) in
lemma emit_moves (hinit : c.init) {j : ℕ} (hj : c.counter = UInt64.ofNat (2 * j)) (p : List UInt8) :
    (emit E m master c p).2.1 = (frameOps E m c.implKey (UInt64.ofNat (2 * j)) c.ops.length p).2 ∧
      (emit E m master c p).1.ops =
        c.ops ++ (frameOps E m c.implKey (UInt64.ofNat (2 * j)) c.ops.length p).1 ∧
      (emit E m master c p).1.implKey = c.implKey ∧
      (emit E m master c p).1.counter =
        UInt64.ofNat (2 * if (emit E m master c p).2.1 then j + 1 else j) := by
  have hs : salted E m master c = c := by rw [salted, if_pos hinit]
  simp only [emit, hs, ← hj, true_and]
  split_ifs
  · rw [hj, Nat.mul_succ, UInt64.ofNat_add, UInt64.add_assoc]
    rfl
  · exact hj

variable (m master) in
lemma mem_emitAll_ops (hinit : c.init) {j : ℕ} (hj : c.counter = UInt64.ofNat (2 * j))
    (ps : List (List UInt8)) {op : PacketOp} (hop : op ∈ (emitAll E m master c ps).1.ops)
    (hok : op.ok) :
    op ∈ c.ops ∨ op.key = c.implKey ∧
      ((∃ i ≤ (framed ps (emitAll E m master c ps).2.1).length,
          op.nonce = aeadNonce m (UInt64.ofNat (2 * (j + i)))) ∨
        ∃ i, (framed ps (emitAll E m master c ps).2.1)[i]? = some op.plaintext ∧
          op.nonce = aeadNonce m (UInt64.ofNat (2 * (j + i) + 1))) := by
  induction ps generalizing c j with
  | nil => exact .inl hop
  | cons p ps ih =>
    obtain ⟨hoks, hops, hkey, hcounter⟩ := emit_moves (E := E) m master hinit hj p
    have hlater := ih (c := (emit E m master c p).1) salted_init hcounter hop
    rw [hops, hkey, List.mem_append] at hlater
    simp only [emitAll]
    rcases hlater with (hold | hnow) | ⟨hk, hnext⟩
    · exact .inl hold
    · -- one of this call's own seals
      obtain ⟨hk, hlen | ⟨hframed, hpay, rfl⟩⟩ := mem_frameOps hnow hok
      · exact .inr ⟨hk, .inl ⟨0, Nat.zero_le _, hlen⟩⟩
      · rw [hoks, hframed, framed_cons_true]
        exact .inr ⟨hk, .inr ⟨0, rfl, hpay⟩⟩
    -- a later call's, which counts from this one
    cases hout : (emit E m master c p).2.1 with
    | false =>
      rw [hout] at hnext
      exact .inr ⟨hk, hnext⟩
    | true =>
      rw [hout, if_pos rfl] at hnext
      refine .inr ⟨hk, ?_⟩
      rw [framed_cons_true]
      rcases hnext with ⟨i, hi, hn⟩ | ⟨i, hi, hn⟩
      · refine .inl ⟨i + 1, by simpa using hi, ?_⟩
        rw [hn]
        congr 3
        omega
      refine .inr ⟨i + 1, by simpa using hi, ?_⟩
      rw [hn]
      congr 3
      omega

variable (E m master) in
lemma ops_subset_emitAll (c : Cipher) (ps : List (List UInt8)) :
    c.ops ⊆ (emitAll E m master c ps).1.ops := by
  induction ps generalizing c with
  | nil => exact List.Subset.refl _
  | cons p ps ih =>
    refine List.Subset.trans ?_ (ih (emit E m master c p).1)
    have hsalted : (salted E m master c).ops = c.ops := by
      unfold salted
      split_ifs <;> rfl
    simp only [emit, hsalted]
    exact List.subset_append_left _ _

variable (m master) in
lemma framed_mem_ops (hinit : c.init) {j : ℕ} (hj : c.counter = UInt64.ofNat (2 * j))
    (ps : List (List UInt8)) {i : ℕ} {p : List UInt8}
    (hp : (framed ps (emitAll E m master c ps).2.1)[i]? = some p) :
    ⟨c.implKey, aeadNonce m (UInt64.ofNat (2 * (j + i))), htons (p.length &&& chunkSizeMask), true⟩
        ∈ (emitAll E m master c ps).1.ops ∧
      ⟨c.implKey, aeadNonce m (UInt64.ofNat (2 * (j + i) + 1)), p, true⟩
        ∈ (emitAll E m master c ps).1.ops := by
  induction ps generalizing c j i with
  | nil => simp [emitAll, framed] at hp
  | cons q ps ih =>
    obtain ⟨hoks, hops, hkey, hcounter⟩ := emit_moves (E := E) m master hinit hj q
    have hlater := @ih (emit E m master c q).1 salted_init _ hcounter
    rw [hkey] at hlater
    simp only [emitAll] at hp ⊢
    cases hout : (emit E m master c q).2.1 with
    | false =>
      rw [hout] at hp hlater
      exact hlater hp
    | true =>
      rw [hout, framed_cons_true] at hp
      rw [hout, if_pos rfl] at hlater
      cases i with
      | zero =>
        obtain rfl : q = p := by simpa using hp
        have hsub := ops_subset_emitAll E m master (emit E m master c q).1 ps
        rw [hout] at hoks
        have hframe : (frameOps E m c.implKey (UInt64.ofNat (2 * j)) c.ops.length q).1 =
            [⟨c.implKey, aeadNonce m (UInt64.ofNat (2 * j)),
              htons (q.length &&& chunkSizeMask), true⟩,
              ⟨c.implKey, aeadNonce m (UInt64.ofNat (2 * j + 1)), q, true⟩] := by
          unfold frameOps at hoks ⊢
          split_ifs at hoks ⊢
          have hsecond : (!E.sealFails (c.ops.length + 1)) = true := hoks.symm
          simp only [hsecond, ofNat_succ_even]
        rw [hops, hframe] at hsub
        exact ⟨hsub (by simp), hsub (by simp)⟩
      | succ i =>
        have hshift : j + 1 + i = j + (i + 1) := by omega
        rw [← hshift]
        exact hlater (by simpa using hp)

/-! ## Integrity -/

/-- What a visitor's log guarantees about the stream its peer framed: at every moment the
deliveries so far are a prefix of the framed payloads, and nothing is delivered after an error. -/
structure Intact (framed : List (List UInt8)) (log : List VisitorEvent) : Prop where
  atEveryMoment : ∀ l, l <+: log → delivered l <+: framed
  sticky : ∀ before after, log = before ++ .protocolError :: after → delivered after = []

variable {F : List (List UInt8)}

lemma intact_of_log {l : List (List UInt8)} {errors : ℕ} (h : l <+: F) :
    Intact F (l.map VisitorEvent.receivedData ++ List.replicate errors .protocolError) := by
  have hdel : delivered (l.map VisitorEvent.receivedData ++ List.replicate errors .protocolError) =
      l := by
    rw [delivered_append]
    simp [delivered, List.filterMap_map]
  refine ⟨?_, ?_⟩
  · rintro a ⟨b, hab⟩
    have hpre : delivered a <+: l := by
      rw [← hdel, ← hab, delivered_append]
      exact List.prefix_append _ _
    exact hpre.trans h
  intro before after heq
  have hafter : after ⊆ List.replicate errors VisitorEvent.protocolError := by
    rcases List.append_eq_append_iff.mp heq with ⟨x, -, hx⟩ | ⟨x, hx, hx'⟩
    · rw [hx]
      intro e he
      simp [he]
    · cases x with
      | nil =>
        rw [List.nil_append] at hx'
        rw [← hx']
        exact List.subset_cons_self _ _
      | cons e x =>
        -- an error inside the deliveries
        have hmem : VisitorEvent.protocolError ∈ l.map VisitorEvent.receivedData := by
          rw [hx]
          have : e = .protocolError := by
            simp only [List.cons_append, List.cons.injEq] at hx'
            exact hx'.1.symm
          simp [this]
        simp at hmem
  have hall : ∀ e ∈ after, e = VisitorEvent.protocolError := fun e he =>
    List.eq_of_mem_replicate (hafter he)
  unfold delivered
  rw [List.filterMap_eq_nil_iff]
  intro e he
  rw [hall e he]

/-- What the peer has sealed under `key`, when it framed `F`: lengths under even packet numbers up
to `2 * F.length`, and each payload under its own odd one. -/
structure PeerSealed (m : CipherMethod) (key : List UInt8) (F : List (List UInt8))
    (ops : List PacketOp) : Prop where
  only : ∀ op ∈ ops, op.ok = true → op.key = key ∧
    ((∃ i ≤ F.length, op.nonce = aeadNonce m (UInt64.ofNat (2 * i))) ∨
      ∃ i, F[i]? = some op.plaintext ∧ op.nonce = aeadNonce m (UInt64.ofNat (2 * i + 1)))
  all : ∀ i p, F[i]? = some p →
    ⟨key, aeadNonce m (UInt64.ofNat (2 * i)), htons (p.length &&& chunkSizeMask), true⟩ ∈ ops ∧
      ⟨key, aeadNonce m (UInt64.ofNat (2 * i + 1)), p, true⟩ ∈ ops

variable (E m master) in
lemma peerSealed_emitAll (hc : c.init = false) (hops : c.ops = []) (ps : List (List UInt8)) :
    PeerSealed m (subkey E m master (freshSalt E m)) (framed ps (emitAll E m master c ps).2.1)
      (emitAll E m master c ps).1.ops := by
  cases ps with
  | nil =>
    refine ⟨?_, ?_⟩
    · simp [emitAll, hops]
    · simp [emitAll, framed]
  | cons p ps =>
    obtain ⟨hencoder, hoks, -⟩ := emitAll_salted E m master c p ps
    have hkey : (salted E m master c).implKey = subkey E m master (freshSalt E m) := by
      simp [salted, hc]
    have hcounter : (salted E m master c).counter = UInt64.ofNat (2 * 0) := by simp [salted, hc]
    have hsops : (salted E m master c).ops = [] := by simp [salted, hc, hops]
    rw [hencoder, hoks]
    refine ⟨?_, ?_⟩
    · intro op hop hok
      have h := mem_emitAll_ops (E := E) m master salted_init hcounter (p :: ps) hop hok
      simpa [hsops, hkey] using h
    intro i q hq
    have h := framed_mem_ops (E := E) m master salted_init hcounter (p :: ps) hq
    simpa [hkey] using h

lemma peerSealed_of_run (hm : m.isStream = false) {password : List UInt8}
    {calls : List (List UInt8 × GrowableIOBuffer)} {encoder : Cipher} {oks : List Bool}
    {bufs : List GrowableIOBuffer}
    (hrun : (create E m password).encryptAll E calls = some (encoder, oks, bufs)) :
    PeerSealed m (subkey E m (deriveKey E.hashes password m.keySize) (freshSalt E m))
      (framed (calls.map Prod.fst) oks) encoder.ops := by
  have hencoder := (tracks_create (E := E) hm password).isAead
  obtain ⟨bufs', hspec, -⟩ := hencoder.encryptAll_spec (E := E) calls
  rw [hrun] at hspec
  simp only [Option.some.injEq, Prod.mk.injEq] at hspec
  obtain ⟨hend, houtcomes, -⟩ := hspec
  rw [hend, houtcomes]
  exact peerSealed_emitAll E m _ rfl rfl (calls.map Prod.fst)

@[simp] lemma length_freshSalt : (freshSalt E m).length = m.keySize := by simp [freshSalt]

lemma even_period (hm : m.isStream = false) : m.layout.period % 2 = 0 := by
  cases m <;> first | rfl | cases hm

/-- **One frame.** What a decoder at frame `j` accepts is the peer's frame `j`. -/
lemma frame_integrity (hm : m.isStream = false) {key' b : List UInt8}
    (hpeer : PeerSealed m key F ops)
    (hideal : (E.aead m).IdealFor (sealed ops)) (hn : 2 * F.length < m.layout.period) {j n : ℕ}
    (hj : j ≤ F.length) {a : StreamItem} {s : Phase}
    (h : frameAttempt E m key' (UInt64.ofNat (2 * j)) b = .item a n s) :
    ∃ p, a = .payload p ∧ F[j]? = some p ∧ s = .frames key' (UInt64.ofNat (2 * (j + 1))) := by
  obtain ⟨len, p, mlen, -, -, -, hopen, -, -, rfl, rfl⟩ := frameAttempt_item E m h
  rw [ofNat_succ_even] at hopen
  have heven := even_period hm
  obtain ⟨-, hnonce⟩ := hpeer.only _ (mem_sealed.mp ((hideal _ _ _ _).mp hopen).1) rfl
  refine ⟨p, rfl, ?_, ?_⟩
  · rcases hnonce with ⟨i, hi, heq⟩ | ⟨i, hi, heq⟩
    · rw [aeadNonce, aeadNonce, packetNonce_ofNat_eq_iff, Nat.mod_eq_of_lt (by omega),
        Nat.mod_eq_of_lt (by omega)] at heq
      omega
    have hlt : i < F.length := (List.getElem?_eq_some_iff.mp hi).1
    rw [aeadNonce, aeadNonce, packetNonce_ofNat_eq_iff, Nat.mod_eq_of_lt (by omega),
      Nat.mod_eq_of_lt (by omega)] at heq
    obtain rfl : j = i := by omega
    exact hi
  · rw [ofNat_succ_even, Nat.mul_succ, UInt64.ofNat_add, UInt64.ofNat_add, UInt64.add_assoc]
    rfl

/-- Where a decoder is, relative to its peer: it has taken a prefix of the framed payloads, and its
counter is at the next one. -/
def InStep (F : List (List UInt8)) (past : List StreamItem) : Phase → Prop
  | .salt => payloads past = []
  | .frames _ counter =>
    payloads past <+: F ∧ counter = UInt64.ofNat (2 * (payloads past).length)

lemma InStep.payloads_prefix {past : List StreamItem} {s : Phase}
    (h : InStep F past s) : payloads past <+: F := by
  cases s with
  | salt =>
    have hnil : payloads past = [] := h
    rw [hnil]
    exact List.nil_prefix
  | frames key counter => exact h.1

variable (master) in
lemma InStep.step (hm : m.isStream = false) {key : List UInt8} {F : List (List UInt8)}
    {ops : List PacketOp} (hpeer : PeerSealed m key F ops)
    (hideal : (E.aead m).IdealFor (sealed ops)) (hn : 2 * F.length < m.layout.period)
    (past : List StreamItem) (s : Phase) (b : List UInt8) (a : StreamItem) (n : ℕ) (s' : Phase)
    (h : (aeadFramer E m master).attempt s b = .item a n s') (hs : InStep F past s) :
    InStep F (past ++ [a]) s' := by
  cases s with
  | salt =>
    have hatt : streamAttempt E m master .salt b = .item a n s' := h
    have hnil : payloads past = [] := hs
    simp only [streamAttempt] at hatt
    split_ifs at hatt
    cases hatt
    simp [InStep, hnil]
  | frames key' counter =>
    obtain ⟨hpre, rfl⟩ := hs
    obtain ⟨p, rfl, hp, rfl⟩ := frame_integrity hm hpeer hideal hn hpre.length_le h
    refine ⟨?_, ?_⟩
    · rw [payloads_append, payloads_payload]
      exact Lists.prefix_snoc hpre hp
    · simp

/-- **Integrity.** While the peer has framed fewer than `period / 2` payloads, every stream of
bytes, cut in any way, leaves the visitor with an intact log. -/
theorem processAll_intact (hm : m.isStream = false) (hpeer : PeerSealed m key F ops)
    (hideal : (E.aead m).IdealFor (sealed ops)) (hn : 2 * F.length < m.layout.period)
    (password : List UInt8) (reply : List (List UInt8) → Bool) (pieces : List GrowableIOBuffer) :
    ∃ decoder log, processAll E reply (create E m password) [] pieces = some (decoder, log) ∧
      Intact F log := by
  obtain ⟨decoder, log, errors, hrun, htracks⟩ :=
    (tracks_create (E := E) hm password).processAll reply pieces
  refine ⟨decoder, log, hrun, ?_⟩
  have hstart : InStep F [] Phase.salt := rfl
  have hstep := Framer.feedAll_invariant _
    (InStep.step (deriveKey E.hashes password m.keySize) hm hpeer hideal hn) (consumer reply)
    ⟨[], .salt, [], .starved⟩ (pieces.map GrowableIOBuffer.readable) hstart
  rw [htracks.log_eq]
  exact intact_of_log hstep.payloads_prefix

lemma PeerSealed.opens
    (hpeer : PeerSealed m key F ops) (hideal : (E.aead m).IdealFor (sealed ops)) {i j : ℕ}
    {p : List UInt8} (hp : F[i]? = some p)
    (hij : 2 * i % m.layout.period = 2 * j % m.layout.period) :
    Opens E m key (UInt64.ofNat (2 * j)) p := by
  obtain ⟨hlen, hpay⟩ := hpeer.all i p hp
  have hsame : aeadNonce m (UInt64.ofNat (2 * i)) = aeadNonce m (UInt64.ofNat (2 * j)) :=
    (packetNonce_ofNat_eq_iff _ _ _ _).mpr hij
  have hsame' : aeadNonce m (UInt64.ofNat (2 * i + 1)) = aeadNonce m (UInt64.ofNat (2 * j + 1)) :=
    (packetNonce_ofNat_eq_iff _ _ _ _).mpr (Nat.ModEq.add_right 1 hij)
  rw [hsame] at hlen
  rw [hsame'] at hpay
  refine ⟨(hideal _ _ _ _).mpr ⟨mem_sealed.mpr hlen, rfl⟩, ?_⟩
  rw [ofNat_succ_even]
  exact (hideal _ _ _ _).mpr ⟨mem_sealed.mpr hpay, rfl⟩

/-- **Replay.** Once the peer has framed `period / 2` payloads, its stream followed by a copy of the
frame of `period / 2` frames ago is accepted to the end. -/
theorem replay_delivered (hm : m.isStream = false) {salt password : List UInt8}
    (hsalt : salt.length = m.keySize)
    (hpeer : PeerSealed m (subkey E m (deriveKey E.hashes password m.keySize) salt) F ops)
    (hideal : (E.aead m).IdealFor (sealed ops))
    (hsize : ∀ p ∈ F, 1 ≤ p.length ∧ p.length ≤ chunkSizeMask)
    (hn : m.layout.period ≤ 2 * F.length) :
    ∃ pieces decoder log x,
      processAll E (fun _ => true) (create E m password) [] pieces = some (decoder, log) ∧
      delivered log = F ++ [x] := by
  have heven := even_period hm
  have hpos := m.layout.period_pos
  set k := F.length - m.layout.period / 2 with hk
  have hlt : k < F.length := by omega
  obtain ⟨x, hx⟩ : ∃ x, F[k]? = some x := ⟨F[k], List.getElem?_eq_getElem hlt⟩
  set items : List StreamItem := .salt salt :: (F ++ [x]).map .payload with hitems
  have hok : Framer.AllOk (streamNext E m (deriveKey E.hashes password m.keySize)) (streamOk E m)
      .salt items := by
    refine ⟨hsalt, allOk_payloads (j := 0) ?_⟩
    intro i p hp
    rw [Nat.zero_add]
    rcases Nat.lt_or_ge i F.length with hi | hi
    · rw [List.getElem?_append_left hi] at hp
      exact ⟨hsize p (List.mem_of_getElem? hp), hpeer.opens hideal hp rfl⟩
    -- the replayed frame: its packet numbers are a whole period past its own
    rw [List.getElem?_append_right hi] at hp
    obtain ⟨hi', rfl⟩ : i - F.length = 0 ∧ x = p := by
      cases hd : i - F.length with
      | zero =>
        rw [hd] at hp
        exact ⟨rfl, by simpa using hp⟩
      | succ d =>
        rw [hd] at hp
        simp at hp
    refine ⟨hsize x (List.mem_of_getElem? hx), hpeer.opens hideal hx ?_⟩
    have hperiod : 2 * i = 2 * k + m.layout.period := by omega
    rw [hperiod, Nat.add_mod_right]
  set bytes := Framer.encodeAll (streamEncode E m)
    (streamNext E m (deriveKey E.hashes password m.keySize)) .salt items with hbytes
  obtain ⟨decoder, log, errors, hrun, htracks⟩ :=
    (tracks_create (E := E) hm password).processAll (fun _ => true)
      [GrowableIOBuffer.copyBuffer bytes]
  refine ⟨[GrowableIOBuffer.copyBuffer bytes], decoder, log, x, hrun, ?_⟩
  have hgo : ∀ l, consumer (fun _ => true) l = true := by
    intro l
    unfold consumer
    split <;> rfl
  rw [Framer.feedAll_fresh _ hgo (attempt_nil E m _ .salt)] at htracks
  simp only [List.map_cons, List.map_nil, GrowableIOBuffer.readable_copyBuffer,
    List.flatten_cons, List.flatten_nil, List.append_nil] at htracks
  rw [hbytes, drain_stream hok] at htracks
  rw [htracks.delivered_eq, hitems]
  exact payloads_map_payload _

lemma IsAead.chunkDecryptFrame_unchanged (h : IsAead m master c) {counter counter' : UInt64}
    {p p' b b' : GrowableIOBuffer} {c' : Cipher} {ret : FrameRet} (hp : p.offset = 0)
    (hrun : c.chunkDecryptFrame E counter p b = some (c', counter', ret, p', b'))
    (hret : ret ≠ .ok) :
    c' = c ∧ b'.everything = b.everything ∧ b'.offset = b.offset := by
  have hstream : ¬ c.method.isStream = true := by simp [h.method_eq, h.notStream]
  obtain ⟨counter₁, ret₁, p₁, b₁, hrun₁, hev, -, hout⟩ :=
    h.chunkDecryptFrameAead_spec (E := E) counter hp b
  rw [chunkDecryptFrame, if_neg hstream, hrun₁] at hrun
  cases hrun
  refine ⟨rfl, hev, ?_⟩
  cases htry : frameAttempt E m c.implKey counter b.readable with
  | more =>
    rw [htry] at hout
    exact hout.2
  | bad =>
    rw [htry] at hout
    exact hout.2
  | item a n s =>
    rw [htry] at hout
    exact absurd hout.1 hret

/-- **Integrity and sticky failure, exactly.** Let a peer frame any payloads, whichever of its seals
fail, and let the AEAD be ideal for what it sealed. Then:
* a frame that is incomplete or bad leaves the decoder, its counter and its buffer as they were;
* if the peer framed fewer than `period / 2` payloads, every sequence of bytes, cut in any way and
  with any visitor, leaves an intact log;
* and, for payloads that fit a frame, only then. -/
theorem decoder_intact_iff (E : CipherEnv) (m : CipherMethod) (hm : m.isStream = false)
    (password : List UInt8) (calls : List (List UInt8 × GrowableIOBuffer)) (encoder : Cipher)
    (oks : List Bool) (bufs : List GrowableIOBuffer)
    (hrun : (create E m password).encryptAll E calls = some (encoder, oks, bufs))
    (hideal : (E.aead m).IdealFor (sealed encoder.ops)) (junk : ℕ → UInt8) :
    (∀ (c c' : Cipher) (counter counter' : UInt64) (p p' b b' : GrowableIOBuffer) (ret : FrameRet),
      IsAead m (deriveKey E.hashes password m.keySize) c → p.offset = 0 →
      c.chunkDecryptFrame { E with junk := junk } counter p b = some (c', counter', ret, p', b') →
      ret ≠ .ok → c' = c ∧ b'.everything = b.everything ∧ b'.offset = b.offset) ∧
    (2 * (framed (calls.map Prod.fst) oks).length < m.layout.period →
      ∀ (reply : List (List UInt8) → Bool) (pieces : List GrowableIOBuffer),
        ∃ decoder log, processAll { E with junk := junk } reply
            (create { E with junk := junk } m password) [] pieces = some (decoder, log) ∧
          Intact (framed (calls.map Prod.fst) oks) log) ∧
    ((∀ p ∈ framed (calls.map Prod.fst) oks, 1 ≤ p.length ∧ p.length ≤ chunkSizeMask) →
      (∀ (reply : List (List UInt8) → Bool) (pieces : List GrowableIOBuffer),
        ∃ decoder log, processAll { E with junk := junk } reply
            (create { E with junk := junk } m password) [] pieces = some (decoder, log) ∧
          Intact (framed (calls.map Prod.fst) oks) log) →
      2 * (framed (calls.map Prod.fst) oks).length < m.layout.period) := by
  have hpeer := peerSealed_of_run hm hrun
  refine ⟨?_, ?_, ?_⟩
  · intro c c' counter counter' p p' b b' ret hc hp hframe hret
    exact hc.chunkDecryptFrame_unchanged hp hframe hret
  · intro hn reply pieces
    exact processAll_intact (E := { E with junk := junk }) hm hpeer hideal hn password reply pieces
  intro hsize hall
  by_contra hlong
  obtain ⟨pieces, decoder, log, x, hdec, hdel⟩ := replay_delivered
    (E := { E with junk := junk }) hm length_freshSalt hpeer hideal hsize
    (Nat.le_of_not_lt hlong)
  obtain ⟨decoder', log', hdec', hintact⟩ := hall (fun _ => true) pieces
  obtain ⟨rfl, rfl⟩ : decoder = decoder' ∧ log = log' := by
    rw [hdec] at hdec'
    simpa using hdec'
  have hprefix := (hintact.atEveryMoment log (List.prefix_refl log)).length_le
  rw [hdel, List.length_append] at hprefix
  simp at hprefix

/-! ## An ideal environment exists -/

lemma emitAll_restrict (E : CipherEnv) (m : CipherMethod) (master : List UInt8)
    (log : List (List UInt8 × List UInt8 × List UInt8)) (c : Cipher) (ps : List (List UInt8)) :
    emitAll (E.restrict log) m master c ps = emitAll E m master c ps := by
  induction ps generalizing c with
  | nil => rfl
  | cons p ps ih =>
    have hemit : emit (E.restrict log) m master c p = emit E m master c p := rfl
    simp only [emitAll, hemit, ih]

lemma exists_ideal_peer (m : CipherMethod) (hm : m.isStream = false) (password : List UInt8)
    (calls : List (List UInt8 × GrowableIOBuffer)) :
    ∃ E encoder oks bufs,
      (create E m password).encryptAll E calls = some (encoder, oks, bufs) ∧
      (E.aead m).IdealFor (sealed encoder.ops) ∧ oks = calls.map fun _ => true := by
  set E₀ := CipherEnv.sample fun _ => false with hE₀
  set run := emitAll E₀ m (deriveKey E₀.hashes password m.keySize) (create E₀ m password)
    (calls.map Prod.fst) with hrun
  have hencoder := (tracks_create (E := E₀.restrict (sealed run.1.ops)) hm password).isAead
  obtain ⟨bufs, hspec, -⟩ := hencoder.encryptAll_spec (E := E₀.restrict (sealed run.1.ops)) calls
  rw [emitAll_restrict] at hspec
  refine ⟨E₀.restrict (sealed run.1.ops), _, _, bufs, hspec, ?_, ?_⟩
  · exact (Aead.zeroTag_inverse m.tagSize).restrict_idealFor _
  · rw [emitAll_oks fun _ => rfl, List.map_map]
    rfl

theorem decoder_intact_iff_one_frame :
    ∃ E encoder oks bufs,
      (create E .chacha20Poly1305Ietf [112, 119]).encryptAll E [([7], .fresh)] =
        some (encoder, oks, bufs) ∧
      (E.aead .chacha20Poly1305Ietf).IdealFor (sealed encoder.ops) ∧
      ∀ (reply : List (List UInt8) → Bool) (pieces : List GrowableIOBuffer),
        ∃ decoder log, processAll { E with junk := fun _ => 0 } reply
            (create { E with junk := fun _ => 0 } .chacha20Poly1305Ietf [112, 119]) [] pieces =
              some (decoder, log) ∧ Intact [[7]] log := by
  obtain ⟨E, encoder, oks, bufs, hrun, hideal, rfl⟩ :=
    exists_ideal_peer .chacha20Poly1305Ietf (by decide) [112, 119] [([7], .fresh)]
  exact ⟨E, encoder, _, bufs, hrun, hideal,
    (decoder_intact_iff E .chacha20Poly1305Ietf (by decide) [112, 119] [([7], .fresh)] encoder _
      bufs hrun hideal fun _ => 0).2.1 (by decide)⟩

/-- The peer frames `2 ^ 31` payloads of one byte under a sodium method. The next bytes the decoder
gets are a copy of the first frame, and it delivers them: one payload more than the peer framed. -/
theorem replay_after_nonces_run_out :
    ∃ (E : CipherEnv) (encoder : Cipher) (oks : List Bool) (bufs : List GrowableIOBuffer),
      (create E .chacha20Poly1305Ietf [112, 119]).encryptAll E
        (List.replicate (2 ^ 31) ([7], .fresh)) = some (encoder, oks, bufs) ∧
      (E.aead .chacha20Poly1305Ietf).IdealFor (sealed encoder.ops) ∧
      ∃ pieces decoder log,
        processAll E (fun _ => true) (create E .chacha20Poly1305Ietf [112, 119]) [] pieces =
          some (decoder, log) ∧
        (delivered log).length = 2 ^ 31 + 1 ∧
        ¬ delivered log <+: List.replicate (2 ^ 31) [7] := by
  obtain ⟨E, encoder, oks, bufs, hrun, hideal, hoks⟩ := exists_ideal_peer .chacha20Poly1305Ietf
    (by decide) [112, 119] (List.replicate (2 ^ 31) ([7], .fresh))
  have hframed : framed ((List.replicate (2 ^ 31) (([7] : List UInt8), GrowableIOBuffer.fresh)).map
      Prod.fst) oks = List.replicate (2 ^ 31) [7] := by
    rw [hoks, List.map_replicate, List.map_replicate]
    have hall := framed_all (List.replicate (2 ^ 31) [7])
    rwa [List.map_replicate] at hall
  have hpeer := peerSealed_of_run (by decide) hrun
  rw [hframed] at hpeer
  obtain ⟨pieces, decoder, log, x, hdec, hdel⟩ := replay_delivered (by decide) length_freshSalt
    hpeer hideal (fun p hp => by rw [List.eq_of_mem_replicate hp]; decide)
    (by rw [List.length_replicate]; decide)
  have hlen : (delivered log).length = 2 ^ 31 + 1 := by
    rw [hdel, List.length_append, List.length_replicate]
    rfl
  refine ⟨E, encoder, oks, bufs, hrun, hideal, pieces, decoder, log, hdec, hlen, ?_⟩
  intro hprefix
  have hle := hprefix.length_le
  rw [hlen, List.length_replicate] at hle
  omega

end Yass.Net.Cipher
