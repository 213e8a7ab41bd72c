import Yass.Net.Padding

/-!
# Both ends of a padded stream

Source: `net/padding.cpp` (`AddPadding`), `CliConnection::OnDataForStream`,
`ServerConnection::OnDataForStream`.
-/

namespace Yass.Net

def kMaxPaddingSize : ℕ := 255

/-- `AddPadding`, with the random `padding_size`. The payload size is cut to 16 bits. -/
def addPadding (junk : ℕ → UInt8) (buf : GrowableIOBuffer) (paddingSize : ℕ) :
    Option GrowableIOBuffer := do
  let payloadSize := buf.size % 65536
  let ret ← GrowableIOBuffer.fresh.setCapacity junk (kPaddingHeaderSize + payloadSize + paddingSize)
  let p : List UInt8 := [UInt8.ofNat (payloadSize / 256), UInt8.ofNat (payloadSize % 256),
    UInt8.ofNat paddingSize]
  let ret ← ret.store ret.offset p
  let ret ← ret.store (ret.offset + kPaddingHeaderSize) (buf.readable.take payloadSize)
  ret.store (ret.offset + kPaddingHeaderSize + payloadSize) (List.replicate paddingSize 0)

def paddedChunk (payload : List UInt8) (paddingSize : ℕ) : List UInt8 :=
  [UInt8.ofNat (payload.length / 256), UInt8.ofNat (payload.length % 256),
    UInt8.ofNat paddingSize] ++ payload ++ List.replicate paddingSize 0

variable {buf : GrowableIOBuffer}

/-- **The sender's chunk.** A payload whose length fits in 16 bits is sent whole. -/
lemma addPadding_spec (junk : ℕ → UInt8) (hsize : buf.size < 65536) (paddingSize : ℕ) :
    ∃ ret, addPadding junk buf paddingSize = some ret ∧
      ret.readable = paddedChunk buf.readable paddingSize := by
  set head : List UInt8 := [UInt8.ofNat (buf.size / 256), UInt8.ofNat (buf.size % 256),
    UInt8.ofNat paddingSize]
  have hheadlen : head.length = kPaddingHeaderSize := rfl
  have hmod : buf.size % 65536 = buf.size := Nat.mod_eq_of_lt hsize
  have htake : buf.readable.take buf.size = buf.readable :=
    List.take_of_length_le buf.length_readable.le
  obtain ⟨r, hr, hcap, hoff⟩ := GrowableIOBuffer.setCapacity_fresh junk
    (kPaddingHeaderSize + buf.size + paddingSize)
  -- header, payload and padding are stored one behind the other, and fill the buffer
  have hlen : r.everything.length = head.length + buf.readable.length +
      (List.replicate paddingSize (0 : UInt8)).length := by
    rw [r.length_everything, hcap, hheadlen, buf.length_readable, List.length_replicate]
  have hfit₁ : head.length ≤ r.everything.length := by omega
  obtain ⟨r₁, hr₁, hev₁, -, hoff₁⟩ :=
    GrowableIOBuffer.store_append (List.nil_append r.everything).symm hfit₁
  have hfit₂ : buf.readable.length ≤ (r.everything.drop head.length).length := by
    rw [List.length_drop]
    omega
  obtain ⟨r₂, hr₂, hev₂, -, hoff₂⟩ := GrowableIOBuffer.store_append hev₁ hfit₂
  have hfit₃ : (List.replicate paddingSize (0 : UInt8)).length ≤
      ((r.everything.drop head.length).drop buf.readable.length).length := by
    rw [List.length_drop, List.length_drop]
    omega
  obtain ⟨r₃, hr₃, hev₃, -, hoff₃⟩ := GrowableIOBuffer.store_append hev₂ hfit₃
  refine ⟨r₃, ?_, ?_⟩
  · rw [List.nil_append, hheadlen] at hr₂
    rw [List.nil_append, List.length_append, hheadlen, buf.length_readable] at hr₃
    simp only [List.length_nil, head] at hr₁
    unfold addPadding
    simp only [hmod, htake, hr, Option.bind_eq_bind, Option.bind_some, hoff, hr₁, hoff₁,
      Nat.zero_add, hr₂, hoff₂]
    exact hr₃
  have hend : ((r.everything.drop head.length).drop buf.readable.length).drop
      (List.replicate paddingSize (0 : UInt8)).length = [] := by
    rw [List.drop_drop, List.drop_drop, ← Nat.add_assoc]
    exact List.drop_of_length_le hlen.le
  rw [GrowableIOBuffer.readable, hev₃, hoff₃, hoff₂, hoff₁, hoff, hend, paddedChunk,
    buf.length_readable]
  simp [head]

/-! ## The chunks on the wire -/

/-- A chunk that is sent: its payload, and the padding size `AddPadding` chooses if it is padded. -/
abbrev SentChunk := List UInt8 × ℕ

/-- The chunks that can be padded: the header has two bytes for the payload size and one byte for
the padding size. -/
def SentChunk.Ok (c : SentChunk) : Prop :=
  1 ≤ c.1.length ∧ c.1.length ≤ 65535 ∧ c.2 ≤ kMaxPaddingSize

/-- The chunks as they are sent by a connection that has already padded `num` of them. -/
def wires : ℕ → List SentChunk → List (List UInt8)
  | _, [] => []
  | num, (payload, paddingSize) :: chunks =>
    if num < kFirstPaddings then paddedChunk payload paddingSize :: wires (num + 1) chunks
    else payload :: wires num chunks

def sentPayload (chunks : List SentChunk) : List UInt8 := (chunks.map Prod.fst).flatten

def sentChunks (bufs : List (GrowableIOBuffer × ℕ)) : List SentChunk :=
  bufs.map fun c => (c.1.readable, c.2)

lemma sentPayload_sentChunks (bufs : List (GrowableIOBuffer × ℕ)) :
    sentPayload (sentChunks bufs) = (bufs.map fun c => c.1.readable).flatten := by
  simp [sentPayload, sentChunks, Function.comp_def]

lemma length_paddedChunk (payload : List UInt8) (n : ℕ) :
    (paddedChunk payload n).length = kPaddingHeaderSize + payload.length + n := by
  simp [paddedChunk, kPaddingHeaderSize]
  omega

variable {payload : List UInt8} {n : ℕ}

lemma header_paddedChunk (h : SentChunk.Ok (payload, n)) :
    payloadSize (paddedChunk payload n) = payload.length ∧
      paddingSize (paddedChunk payload n) = n := by
  obtain ⟨-, hlen, hn⟩ := h
  have hn : n ≤ 255 := hn
  dsimp only at hlen
  have hhigh : payload.length / 256 < 256 := by omega
  have hlow : payload.length % 256 < 256 := by omega
  constructor
  · simp [payloadSize, paddedChunk, Nat.mod_eq_of_lt hhigh]
    omega
  · simp [paddingSize, paddedChunk]
    omega

lemma attempt_paddedChunk (h : SentChunk.Ok (payload, n)) (num : ℕ) :
    paddingAttempt num (paddedChunk payload n) =
      .item payload (paddedChunk payload n).length (num + 1) := by
  obtain ⟨hpayload, hpadding⟩ := header_paddedChunk h
  have hpos : 1 ≤ payload.length := h.1
  have hlen := length_paddedChunk payload n
  have hbody : ((paddedChunk payload n).drop kPaddingHeaderSize).take payload.length = payload := by
    simp [paddedChunk, kPaddingHeaderSize]
  unfold paddingAttempt
  rw [hpayload, hpadding, hbody, if_neg (by omega), if_neg (by omega), if_neg (by omega), hlen]

variable {bytes : List UInt8}

lemma attempt_of_short (h : SentChunk.Ok (payload, n)) (hpre : bytes <+: paddedChunk payload n)
    (hlt : bytes.length < (paddedChunk payload n).length) (num : ℕ) :
    paddingAttempt num bytes = .more := by
  obtain ⟨more, hmore⟩ := hpre
  unfold paddingAttempt
  by_cases hhead : bytes.length < kPaddingHeaderSize
  · rw [if_pos hhead]
  obtain ⟨hpayload, hpadding⟩ := payloadSize_append (Nat.le_of_not_lt hhead) more
  rw [hmore] at hpayload hpadding
  obtain ⟨hpayload', hpadding'⟩ := header_paddedChunk h
  have hpos : 1 ≤ payload.length := h.1
  have hlen := length_paddedChunk payload n
  rw [if_neg hhead, ← hpayload, ← hpadding, hpayload', hpadding', if_neg (by omega),
    if_pos (by omega)]

/-- What a receiver has made of the bytes `received` of a stream that was sent as `sent`: it has
counted `num` padded chunks and has queued `out`. -/
structure Unpads (sent : List (List UInt8)) (payload received : List UInt8) (num : ℕ)
    (out : List UInt8) : Prop where
  num_le : num ≤ kFirstPaddings
  /-- The count is full exactly when the last padded chunk is complete. -/
  full_iff : num = kFirstPaddings ↔ kFirstPaddings ≤ sent.length ∧
    (sent.take kFirstPaddings).flatten.length ≤ received.length
  /-- What is queued is a beginning of the payload, and all of it in the end. -/
  out_isPrefix : out <+: payload
  out_eq : received = sent.flatten → out = payload

variable {num : ℕ}

lemma wires_cons_of_lt (h : num < kFirstPaddings) (payload : List UInt8) (n : ℕ)
    (chunks : List SentChunk) :
    wires num ((payload, n) :: chunks) = paddedChunk payload n :: wires (num + 1) chunks :=
  if_pos h

lemma wires_cons_of_ge (h : kFirstPaddings ≤ num) (payload : List UInt8) (n : ℕ)
    (chunks : List SentChunk) :
    wires num ((payload, n) :: chunks) = payload :: wires num chunks :=
  if_neg (Nat.not_lt.mpr h)

lemma flatten_wires_of_ge (h : kFirstPaddings ≤ num) (chunks : List SentChunk) :
    (wires num chunks).flatten = sentPayload chunks := by
  induction chunks with
  | nil => rfl
  | cons c chunks ih =>
    rw [wires_cons_of_ge h, List.flatten_cons, ih]
    rfl

lemma length_wires (num : ℕ) (chunks : List SentChunk) :
    (wires num chunks).length = chunks.length := by
  induction chunks generalizing num with
  | nil => rfl
  | cons c chunks ih =>
    unfold wires
    split_ifs <;> simp [ih]

lemma wires_concat (num : ℕ) (chunks : List SentChunk) (payload : List UInt8) (n : ℕ) :
    wires num (chunks ++ [(payload, n)]) = wires num chunks ++
      [if num + chunks.length < kFirstPaddings then paddedChunk payload n else payload] := by
  induction chunks generalizing num with
  | nil => by_cases h : num < kFirstPaddings <;> simp [wires, h]
  | cons c chunks ih =>
    obtain ⟨first, m⟩ := c
    rw [List.cons_append]
    by_cases h : num < kFirstPaddings
    · rw [wires_cons_of_lt h, wires_cons_of_lt h, ih, List.length_cons, List.cons_append,
        Nat.add_right_comm, Nat.add_assoc]
    have hge := Nat.le_of_not_lt h
    rw [wires_cons_of_ge hge, wires_cons_of_ge hge, ih, List.length_cons, List.cons_append,
      if_neg (by omega), if_neg (by omega)]

/-- What a receiver that has counted `num` chunks queues for these bytes. -/
def carried (num : ℕ) (bytes : List UInt8) : List UInt8 :=
  let t := paddingFramer.drain num bytes
  t.items.flatten ++ if t.state < kFirstPaddings then [] else t.rest

/-- `Unpads`, for a stream of which `num` chunks have been padded before. -/
structure UnpadsFrom (num : ℕ) (chunks : List SentChunk) (bytes : List UInt8) : Prop where
  num_le : (paddingFramer.drain num bytes).state ≤ kFirstPaddings
  full_iff : (paddingFramer.drain num bytes).state = kFirstPaddings ↔
    kFirstPaddings - num ≤ chunks.length ∧
      ((wires num chunks).take (kFirstPaddings - num)).flatten.length ≤ bytes.length
  out_isPrefix : carried num bytes <+: sentPayload chunks
  out_eq : bytes = (wires num chunks).flatten → carried num bytes = sentPayload chunks
  num_eq : bytes = (wires num chunks).flatten →
    (paddingFramer.drain num bytes).state = min kFirstPaddings (num + chunks.length)

variable {chunks : List SentChunk}

lemma unpadsFrom_kFirstPaddings (h : bytes <+: (wires kFirstPaddings chunks).flatten) :
    UnpadsFrom kFirstPaddings chunks bytes := by
  have hdrain := drain_of_ge (le_refl kFirstPaddings) bytes
  have hcarried : carried kFirstPaddings bytes = bytes := by simp [carried, hdrain]
  rw [flatten_wires_of_ge le_rfl] at h
  refine ⟨by rw [hdrain], by simp [hdrain], by rwa [hcarried], ?_, by simp [hdrain]⟩
  rw [hcarried, flatten_wires_of_ge le_rfl]
  exact id

lemma unpadsFrom_of_more (hnum : num < kFirstPaddings) (hmore : paddingAttempt num bytes = .more)
    (hshort : ∀ w ∈ (wires num chunks).head?, bytes.length < w.length) :
    UnpadsFrom num chunks bytes := by
  have hdrain := paddingFramer.drain_of_more ((attempt_of_lt hnum bytes).trans hmore)
  have hcarried : carried num bytes = [] := by simp [carried, hdrain, hnum]
  -- with a chunk to come, its bytes have not all arrived
  have hnone : bytes = (wires num chunks).flatten → chunks = [] := by
    intro hall
    cases chunks with
    | nil => rfl
    | cons c chunks =>
      obtain ⟨payload, n⟩ := c
      rw [wires_cons_of_lt hnum] at hshort hall
      have := hshort _ rfl
      rw [hall, List.flatten_cons, List.length_append] at this
      omega
  refine ⟨by rw [hdrain]; exact hnum.le, ?_, by rw [hcarried]; exact List.nil_prefix, ?_, ?_⟩
  · rw [hdrain]
    refine ⟨fun h => absurd h hnum.ne, fun ⟨hlen, hle⟩ => ?_⟩
    obtain ⟨left, hleft⟩ := Nat.exists_eq_add_one_of_ne_zero (Nat.sub_ne_zero_of_lt hnum)
    cases hwires : wires num chunks with
    | nil =>
      rw [← length_wires num, hwires, List.length_nil] at hlen
      omega
    | cons w ws =>
      have := hshort w (by rw [hwires]; rfl)
      rw [hwires, hleft, List.take_succ_cons, List.flatten_cons, List.length_append] at hle
      omega
  · intro hall
    rw [hcarried, hnone hall]
    rfl
  intro hall
  rw [hdrain, hnone hall]
  simp [hnum.le]

lemma UnpadsFrom.cons (hnum : num < kFirstPaddings) (hok : SentChunk.Ok (payload, n))
    (h : UnpadsFrom (num + 1) chunks bytes) :
    UnpadsFrom num ((payload, n) :: chunks) (paddedChunk payload n ++ bytes) := by
  have hitem := (attempt_of_lt hnum (paddedChunk payload n)).trans (attempt_paddedChunk hok num)
  have hdrain := paddingFramer.drain_of_item (paddingFramer.item_append bytes hitem)
  rw [List.drop_left] at hdrain
  have hstate : (paddingFramer.drain num (paddedChunk payload n ++ bytes)).state =
      (paddingFramer.drain (num + 1) bytes).state := by rw [hdrain]; rfl
  have hcarried : carried num (paddedChunk payload n ++ bytes) =
      payload ++ carried (num + 1) bytes := by
    unfold carried
    simp only [hdrain, Framing.Taken.prepend_items, Framing.Taken.prepend_state,
      Framing.Taken.prepend_rest, List.singleton_append, List.flatten_cons, List.append_assoc]
  have hpayloads : sentPayload ((payload, n) :: chunks) = payload ++ sentPayload chunks := rfl
  obtain ⟨left, hleft⟩ : ∃ left, kFirstPaddings - num = left + 1 :=
    Nat.exists_eq_add_one_of_ne_zero (Nat.sub_ne_zero_of_lt hnum)
  have hleft' : kFirstPaddings - (num + 1) = left := by omega
  constructor
  · rw [hstate]
    exact h.num_le
  · rw [hstate, h.full_iff, hleft, hleft', wires_cons_of_lt hnum]
    simp
  · rw [hcarried, hpayloads]
    exact (List.prefix_append_right_inj payload).mpr h.out_isPrefix
  · rw [wires_cons_of_lt hnum, List.flatten_cons, List.append_cancel_left_eq, hcarried, hpayloads]
    intro hall
    rw [h.out_eq hall]
  rw [wires_cons_of_lt hnum, List.flatten_cons, List.append_cancel_left_eq, hstate,
    List.length_cons, ← Nat.add_assoc, Nat.add_right_comm]
  exact h.num_eq

/-- **Any beginning of the stream.** The receiver takes the chunks that are complete. -/
lemma unpadsFrom_of_isPrefix (hnum : num ≤ kFirstPaddings)
    (hok : ∀ c ∈ chunks, c.Ok) (h : bytes <+: (wires num chunks).flatten) :
    UnpadsFrom num chunks bytes := by
  induction chunks generalizing num bytes with
  | nil =>
    have hnil : bytes = [] := List.prefix_nil.mp h
    rcases hnum.lt_or_eq with hlt | heq
    · apply unpadsFrom_of_more hlt
      · rw [hnil]
        rfl
      · intro w hw
        cases hw
    · rw [heq] at h ⊢
      exact unpadsFrom_kFirstPaddings h
  | cons c chunks ih =>
    obtain ⟨payload, n⟩ := c
    rcases hnum.lt_or_eq with hlt | heq
    · have hc := hok _ List.mem_cons_self
      rw [wires_cons_of_lt hlt, List.flatten_cons] at h
      have hwhole := List.prefix_append (paddedChunk payload n) (wires (num + 1) chunks).flatten
      by_cases hshort : bytes.length < (paddedChunk payload n).length
      · have hpart := List.prefix_of_prefix_length_le h hwhole hshort.le
        apply unpadsFrom_of_more hlt (attempt_of_short hc hpart hshort num)
        rw [wires_cons_of_lt hlt]
        rintro w ⟨⟩
        exact hshort
      obtain ⟨bytes, rfl⟩ :=
        List.prefix_of_prefix_length_le hwhole h (Nat.le_of_not_lt hshort)
      apply UnpadsFrom.cons hlt hc
      apply ih hlt
      · intro c hmem
        exact hok c (List.mem_cons_of_mem _ hmem)
      · exact (List.prefix_append_right_inj _).mp h
    · rw [heq] at h ⊢
      exact unpadsFrom_kFirstPaddings h

lemma unpads_of_isPrefix (hok : ∀ c ∈ chunks, c.Ok) (h : bytes <+: (wires 0 chunks).flatten) :
    Unpads (wires 0 chunks) (sentPayload chunks) bytes (paddingFramer.drain 0 bytes).state
      (unpadded true bytes) := by
  have hfrom := unpadsFrom_of_isPrefix (Nat.zero_le _) hok h
  refine ⟨hfrom.num_le, ?_, hfrom.out_isPrefix, hfrom.out_eq⟩
  rw [length_wires]
  exact hfrom.full_iff

/-! ## The state of a connection -/

/-- What a connection keeps of a padded stream, in both directions. -/
structure PaddingState where
  supportInFact : Bool
  numPaddingSend : ℕ
  numPaddingRecv : ℕ
  inMiddleBuf : Option GrowableIOBuffer

namespace PaddingState

def new (supportInFact : Bool) : PaddingState := ⟨supportInFact, 0, 0, none⟩

/-- `OnEndHeadersForStream`: `padding_support_in_fact_ &= padding_support`, where the header block
of the peer has a `padding` field or not. -/
def agree (p : PaddingState) (field : Bool) : PaddingState :=
  { p with supportInFact := p.supportInFact && field }

/-- What becomes of a chunk before it is added to the data frame: the first ones are padded.
Source: `GetNextUpstreamBuf` and `OnStreamRead` of the client, `GetNextDownstreamBuf` of the
server. -/
def send (junk : ℕ → UInt8) (p : PaddingState) (buf : GrowableIOBuffer) (paddingSize : ℕ) :
    Option (PaddingState × GrowableIOBuffer) :=
  if p.supportInFact && decide (p.numPaddingSend < kFirstPaddings) then do
    let buf ← addPadding junk buf paddingSize
    some ({ p with numPaddingSend := p.numPaddingSend + 1 }, buf)
  else some (p, buf)

/-- `padding_in_middle_buf_` with `bytes` appended. -/
def inMiddle (junk : ℕ → UInt8) (p : PaddingState) (bytes : List UInt8) :
    Option GrowableIOBuffer :=
  match p.inMiddleBuf with
  | some previousChunk => GrowableIOBuffer.concat junk previousChunk (.copyBuffer bytes)
  | none => some (.copyBuffer bytes)

/-- `OnDataForStream`: the state afterwards, and the buffers pushed to the queue. -/
def receive (junk : ℕ → UInt8) (p : PaddingState) (bytes : List UInt8) :
    Option (PaddingState × List GrowableIOBuffer) :=
  if p.supportInFact && decide (p.numPaddingRecv < kFirstPaddings) then do
    let buf ← p.inMiddle junk bytes
    let (payloads, buf, left) ← removePaddings junk (kFirstPaddings - p.numPaddingRecv) buf
    let p := { p with numPaddingRecv := kFirstPaddings - left }
    -- what is behind the last padded chunk
    if left = 0 ∧ ¬ buf.isEmpty then some ({ p with inMiddleBuf := none }, payloads ++ [buf])
    else some ({ p with inMiddleBuf := some buf }, payloads)
  else some (p, [.copyBuffer bytes])

def sendAll (junk : ℕ → UInt8) :
    PaddingState → List (GrowableIOBuffer × ℕ) → Option (PaddingState × List GrowableIOBuffer)
  | p, [] => some (p, [])
  | p, (buf, paddingSize) :: chunks => do
    let (p, buf) ← p.send junk buf paddingSize
    let (p, bufs) ← sendAll junk p chunks
    some (p, buf :: bufs)

def receiveAll (junk : ℕ → UInt8) :
    PaddingState → List (List UInt8) → Option (PaddingState × List GrowableIOBuffer)
  | p, [] => some (p, [])
  | p, piece :: pieces => do
    let (p, bufs) ← p.receive junk piece
    let (p, more) ← receiveAll junk p pieces
    some (p, bufs ++ more)

/-! ### The sender -/

structure SameReceiver (p p' : PaddingState) : Prop where
  supportInFact : p'.supportInFact = p.supportInFact
  numPaddingRecv : p'.numPaddingRecv = p.numPaddingRecv
  inMiddleBuf : p'.inMiddleBuf = p.inMiddleBuf

variable {p : PaddingState}

lemma sameReceiver_send {junk : ℕ → UInt8} {p' : PaddingState} {buf' : GrowableIOBuffer}
    (h : p.send junk buf n = some (p', buf')) : SameReceiver p p' := by
  unfold PaddingState.send at h
  split_ifs at h
  · obtain ⟨padded, -, h⟩ := Option.bind_eq_some_iff.mp h
    cases h
    exact ⟨rfl, rfl, rfl⟩
  · cases h
    exact ⟨rfl, rfl, rfl⟩

/-- A sender that was given `chunks` and has sent `sent`. -/
structure Sending (p : PaddingState) (chunks : List SentChunk) (sent : List (List UInt8)) :
    Prop where
  num_eq : p.numPaddingSend = if p.supportInFact then min kFirstPaddings chunks.length else 0
  sent_eq : sent = if p.supportInFact then wires 0 chunks else chunks.map Prod.fst

lemma sending_new (hsend : p.numPaddingSend = 0) : Sending p [] [] := by
  rw [← Nat.min_zero kFirstPaddings] at hsend
  constructor <;> cases p.supportInFact <;> first | exact hsend | rfl

/-- **One chunk.** -/
theorem Sending.send (junk : ℕ → UInt8) {sent : List (List UInt8)} (h : Sending p chunks sent)
    (hsize : buf.size < 65536) (paddingSize : ℕ) :
    ∃ p' buf', p.send junk buf paddingSize = some (p', buf') ∧ SameReceiver p p' ∧
      Sending p' (chunks ++ [(buf.readable, paddingSize)]) (sent ++ [buf'.readable]) := by
  have hsent := h.sent_eq
  have hnum := h.num_eq
  by_cases hsupport : p.supportInFact
  · rw [if_pos hsupport] at hsent hnum
    by_cases hlt : p.numPaddingSend < kFirstPaddings
    · obtain ⟨ret, hret, hread⟩ := addPadding_spec junk hsize paddingSize
      refine ⟨{ p with numPaddingSend := p.numPaddingSend + 1 }, ret, ?_, ⟨rfl, rfl, rfl⟩, ?_, ?_⟩
      · simp [PaddingState.send, hsupport, hlt, hret]
      · rw [if_pos hsupport, List.length_append, List.length_singleton]
        dsimp only
        omega
      · rw [if_pos hsupport, wires_concat, if_pos (by omega), hsent, hread]
    refine ⟨p, buf, ?_, ⟨rfl, rfl, rfl⟩, ?_, ?_⟩
    · simp [PaddingState.send, hlt]
    · rw [if_pos hsupport, List.length_append, List.length_singleton]
      omega
    · rw [if_pos hsupport, wires_concat, if_neg (by omega), hsent]
  rw [if_neg hsupport] at hsent hnum
  refine ⟨p, buf, ?_, ⟨rfl, rfl, rfl⟩, ?_, ?_⟩
  · simp [PaddingState.send, hsupport]
  · rw [if_neg hsupport, hnum]
  · rw [if_neg hsupport, hsent, List.map_append]
    rfl

/-- **All chunks.** -/
theorem Sending.sendAll (junk : ℕ → UInt8)
    {sent : List (List UInt8)} (h : Sending p chunks sent) {more : List (GrowableIOBuffer × ℕ)}
    (hsize : ∀ c ∈ more, c.1.size < 65536) :
    ∃ p' bufs, p.sendAll junk more = some (p', bufs) ∧ SameReceiver p p' ∧
      Sending p' (chunks ++ sentChunks more) (sent ++ bufs.map GrowableIOBuffer.readable) := by
  induction more generalizing p chunks sent with
  | nil => exact ⟨p, [], rfl, ⟨rfl, rfl, rfl⟩, by simpa [sentChunks] using h⟩
  | cons c more ih =>
    obtain ⟨buf, n⟩ := c
    obtain ⟨p₁, buf', hsend, hsame, h₁⟩ := h.send junk (hsize _ List.mem_cons_self) n
    obtain ⟨p₂, bufs, hall, hsame', h₂⟩ :=
      ih h₁ fun c hc => hsize c (List.mem_cons_of_mem _ hc)
    refine ⟨p₂, buf' :: bufs, by simp [PaddingState.sendAll, hsend, hall], ?_, ?_⟩
    · exact ⟨hsame'.1.trans hsame.1, hsame'.2.trans hsame.2, hsame'.3.trans hsame.3⟩
    · simpa [sentChunks] using h₂

/-! ### The receiver -/

/-- The bytes of `padding_in_middle_buf_`. -/
def kept (p : PaddingState) : List UInt8 := p.inMiddleBuf.elim [] GrowableIOBuffer.readable

lemma inMiddle_spec (junk : ℕ → UInt8) (p : PaddingState) (bytes : List UInt8) :
    ∃ buf, p.inMiddle junk bytes = some buf ∧ buf.readable = p.kept ++ bytes := by
  unfold inMiddle kept
  cases p.inMiddleBuf with
  | none => exact ⟨_, rfl, by simp⟩
  | some previous =>
    obtain ⟨buf, hbuf, hread, -⟩ :=
      GrowableIOBuffer.concat_spec junk previous (.copyBuffer bytes)
    exact ⟨buf, hbuf, by simpa using hread⟩

structure SameSender (p p' : PaddingState) : Prop where
  supportInFact : p'.supportInFact = p.supportInFact
  numPaddingSend : p'.numPaddingSend = p.numPaddingSend

lemma receive_plain (junk : ℕ → UInt8)
    (h : p.supportInFact = false ∨ kFirstPaddings ≤ p.numPaddingRecv) (piece : List UInt8) :
    p.receive junk piece = some (p, [.copyBuffer piece]) := by
  have hplain : (p.supportInFact && decide (p.numPaddingRecv < kFirstPaddings)) = false := by
    rcases h with h | h
    · simp [h]
    · simp [Nat.not_lt.mpr h]
  unfold receive
  rw [hplain]
  rfl

/-- **Padded payload.** What is complete is queued without its padding, and the rest is kept. -/
lemma receive_padded (junk : ℕ → UInt8) (hsupport : p.supportInFact)
    (hnum : p.numPaddingRecv < kFirstPaddings) (piece : List UInt8) :
    let t := paddingFramer.drain p.numPaddingRecv (p.kept ++ piece)
    ∃ p' bufs, p.receive junk piece = some (p', bufs) ∧ SameSender p p' ∧
      p'.numPaddingRecv = t.state ∧
      p'.kept = (if t.state < kFirstPaddings then t.rest else []) ∧
      (bufs.map GrowableIOBuffer.readable).flatten =
        t.items.flatten ++ if t.state < kFirstPaddings then [] else t.rest := by
  intro t
  obtain ⟨buf, hbuf, hread⟩ := p.inMiddle_spec junk piece
  obtain ⟨payloads, rest, left, hloop, hstate, hrest, hitems⟩ := removePaddings_drain junk hnum buf
  rw [hread] at hstate hrest hitems
  have hguard : (p.supportInFact && decide (p.numPaddingRecv < kFirstPaddings)) = true := by
    simp [hsupport, hnum]
  rw [show t.state = _ from hstate, show t.rest = _ from hrest, show t.items = _ from hitems]
  unfold receive
  simp only [hguard, if_true, hbuf, hloop, Option.bind_eq_bind, Option.bind_some]
  have hpos : 0 < kFirstPaddings := by decide
  by_cases hdone : left = 0
  · have hend : ¬ kFirstPaddings - left < kFirstPaddings := by omega
    rw [if_neg hend, if_neg hend]
    by_cases hempty : rest.isEmpty
    · have hnil := rest.isEmpty_iff.mp hempty
      rw [if_neg (by simp [hempty])]
      refine ⟨_, _, rfl, ⟨rfl, rfl⟩, rfl, hnil, ?_⟩
      rw [hnil, List.append_nil]
    rw [if_pos ⟨hdone, hempty⟩]
    refine ⟨_, _, rfl, ⟨rfl, rfl⟩, rfl, rfl, ?_⟩
    simp
  have hmore : kFirstPaddings - left < kFirstPaddings := by omega
  rw [if_pos hmore, if_pos hmore, if_neg (by simp [hdone])]
  exact ⟨_, _, rfl, ⟨rfl, rfl⟩, rfl, rfl, (List.append_nil _).symm⟩

/-- A receiver that has got `bytes` and has queued `out`. -/
structure Receiving (p : PaddingState) (bytes out : List UInt8) : Prop where
  unpadding : p.supportInFact = true → Unpadding bytes p.numPaddingRecv p.kept
  num_eq : p.supportInFact = false → p.numPaddingRecv = 0
  out_eq : out = unpadded p.supportInFact bytes

lemma receiving_new (hrecv : p.numPaddingRecv = 0)
    (hbuf : p.inMiddleBuf = none) : Receiving p [] [] := by
  refine ⟨fun _ => ?_, fun _ => hrecv, (unpadded_nil _).symm⟩
  rw [hrecv, kept, hbuf]
  exact unpadding_nil

variable {out : List UInt8}

/-- **One delivery.** -/
theorem Receiving.receive (junk : ℕ → UInt8) (h : Receiving p bytes out) (piece : List UInt8) :
    ∃ p' bufs, p.receive junk piece = some (p', bufs) ∧ SameSender p p' ∧
      Receiving p' (bytes ++ piece) (out ++ (bufs.map GrowableIOBuffer.readable).flatten) := by
  by_cases hsupport : p.supportInFact
  · have hunpadding := h.unpadding hsupport
    have hout := h.out_eq
    rw [hsupport] at hout
    by_cases hnum : p.numPaddingRecv < kFirstPaddings
    · obtain ⟨p', bufs, hrecv, hsame, hstate, hrest, hbufs⟩ :=
        receive_padded junk hsupport hnum piece
      obtain ⟨hunpadding', hmore⟩ := hunpadding.append_of_lt hnum piece
      refine ⟨p', bufs, hrecv, hsame, fun _ => ⟨?_, fun hlt => ?_⟩, fun hoff => ?_, ?_⟩
      · rw [hunpadding'.num_eq, hstate]
      · rw [hstate] at hlt
        rw [hunpadding'.kept_eq hlt, hrest, if_pos hlt]
      · rw [hsame.supportInFact, hsupport] at hoff
        cases hoff
      · rw [hsame.supportInFact, hsupport, hmore, hout, hbufs, List.append_assoc]
    have hge := Nat.le_of_not_lt hnum
    obtain ⟨hunpadding', hmore⟩ := hunpadding.append_of_ge hge piece p.kept
    refine ⟨p, _, receive_plain junk (Or.inr hge) piece, ⟨rfl, rfl⟩, fun _ => hunpadding',
      h.num_eq, ?_⟩
    rw [hsupport, hmore, hout]
    simp
  have hoff : p.supportInFact = false := by simpa using hsupport
  refine ⟨p, _, receive_plain junk (Or.inl hoff) piece, ⟨rfl, rfl⟩,
    fun hon => absurd hon hsupport, h.num_eq, ?_⟩
  rw [h.out_eq, hoff]
  simp [unpadded]

/-- **All deliveries.** -/
theorem Receiving.receiveAll (junk : ℕ → UInt8)
    (h : Receiving p bytes out) (pieces : List (List UInt8)) :
    ∃ p' bufs, p.receiveAll junk pieces = some (p', bufs) ∧ SameSender p p' ∧
      Receiving p' (bytes ++ pieces.flatten)
        (out ++ (bufs.map GrowableIOBuffer.readable).flatten) := by
  induction pieces generalizing p bytes out with
  | nil => exact ⟨p, [], rfl, ⟨rfl, rfl⟩, by simpa using h⟩
  | cons piece pieces ih =>
    obtain ⟨p₁, bufs, hfirst, hsame, h₁⟩ := h.receive junk piece
    obtain ⟨p₂, more, hrest, hsame', h₂⟩ := ih h₁
    refine ⟨p₂, bufs ++ more, by simp [PaddingState.receiveAll, hfirst, hrest], ?_, ?_⟩
    · exact ⟨hsame'.1.trans hsame.1, hsame'.2.trans hsame.2⟩
    · simpa using h₂

lemma Receiving.unpads (hok : ∀ c ∈ chunks, c.Ok)
    (h : Receiving p bytes out) (hsupport : p.supportInFact)
    (hpre : bytes <+: (wires 0 chunks).flatten) :
    Unpads (wires 0 chunks) (sentPayload chunks) bytes p.numPaddingRecv out := by
  rw [h.out_eq, hsupport, ← (h.unpadding hsupport).num_eq]
  exact unpads_of_isPrefix hok hpre

/-! ### Both ends -/

/-- A sender that was given `chunks`, and a receiver that has queued `out` for the bytes `received`;
`data` is on its way. -/
structure Carries (sender receiver : PaddingState) (chunks : List SentChunk)
    (received data out : List UInt8) : Prop where
  ok : ∀ c ∈ chunks, c.Ok
  sending : ∃ sent, Sending sender chunks sent ∧ received ++ data = sent.flatten
  receiving : Receiving receiver received out

section Carries

variable {sender receiver : PaddingState} {chunks : List SentChunk} {received data out : List UInt8}

lemma carries_new (hsend : sender.numPaddingSend = 0) (hrecv : receiver.numPaddingRecv = 0)
    (hbuf : receiver.inMiddleBuf = none) : Carries sender receiver [] [] [] [] where
  ok := by simp
  sending := ⟨[], sending_new hsend, rfl⟩
  receiving := receiving_new hrecv hbuf

lemma Carries.received_eq_nil (h : Carries sender receiver [] received data out) :
    received = [] ∧ data = [] := by
  obtain ⟨sent, hsending, hall⟩ := h.sending
  have hsent : sent = [] := by
    rw [hsending.sent_eq]
    cases sender.supportInFact <;> rfl
  rw [hsent, List.flatten_nil, List.append_eq_nil_iff] at hall
  exact hall

lemma Carries.out_eq_nil (h : Carries sender receiver chunks [] data out) : out = [] := by
  rw [h.receiving.out_eq, unpadded_nil]

/-- **Safety.** What is queued is a beginning of what was sent, if the two ends agree on the padding
as soon as something is received. -/
lemma Carries.isPrefix (h : Carries sender receiver chunks received data out)
    (hsame : received ≠ [] → receiver.supportInFact = sender.supportInFact) :
    out <+: sentPayload chunks := by
  by_cases hnil : received = []
  · subst hnil
    rw [h.out_eq_nil]
    exact List.nil_prefix
  obtain ⟨sent, hsending, hall⟩ := h.sending
  have hsent := hsending.sent_eq
  have hpre : received <+: sent.flatten := ⟨data, hall⟩
  rw [← hsame hnil] at hsent
  by_cases hsupport : receiver.supportInFact
  · rw [if_pos hsupport] at hsent
    rw [hsent] at hpre
    exact (h.receiving.unpads h.ok hsupport hpre).out_isPrefix
  rw [if_neg hsupport] at hsent
  rw [h.receiving.out_eq, Bool.eq_false_iff.mpr hsupport]
  rwa [hsent] at hpre

/-- **All of it.** Once nothing is on its way, everything has been queued, and as many chunks were
unpadded as were padded. -/
lemma Carries.drained (h : Carries sender receiver chunks received [] out)
    (hsame : chunks ≠ [] → receiver.supportInFact = sender.supportInFact) :
    out = sentPayload chunks ∧ receiver.numPaddingRecv = sender.numPaddingSend := by
  obtain ⟨sent, hsending, hall⟩ := h.sending
  rw [List.append_nil] at hall
  have hsent := hsending.sent_eq
  have hnum := hsending.num_eq
  have hrecv := h.receiving
  by_cases hsupport : receiver.supportInFact
  · rw [hrecv.out_eq, hsupport, ← (hrecv.unpadding hsupport).num_eq]
    by_cases hnil : chunks = []
    · subst hnil
      rw [h.received_eq_nil.1, unpadded_nil, drain_nil, hnum]
      refine ⟨rfl, ?_⟩
      cases sender.supportInFact <;> rfl
    rw [← hsame hnil, if_pos hsupport] at hsent hnum
    rw [hsent] at hall
    have hpre : received <+: (wires 0 chunks).flatten := by
      rw [← hall]
    have hfrom := unpadsFrom_of_isPrefix (Nat.zero_le _) h.ok hpre
    refine ⟨hfrom.out_eq hall, ?_⟩
    rw [hfrom.num_eq hall, hnum, Nat.zero_add]
  have hoff : receiver.supportInFact = false := Bool.eq_false_iff.mpr hsupport
  rw [hrecv.out_eq, hrecv.num_eq hoff, hoff, hnum]
  by_cases hnil : chunks = []
  · subst hnil
    rw [h.received_eq_nil.1, unpadded_nil]
    refine ⟨rfl, ?_⟩
    cases sender.supportInFact <;> rfl
  rw [← hsame hnil, if_neg hsupport] at hsent
  rw [← hsame hnil, if_neg hsupport]
  refine ⟨?_, rfl⟩
  rw [hall, hsent]
  rfl

lemma Carries.same_receiver (h : Carries sender receiver chunks received data out)
    {receiver' : PaddingState} (hsame : SameReceiver receiver receiver') :
    Carries sender receiver' chunks received data out := by
  have hkept : receiver'.kept = receiver.kept := by rw [kept, kept, hsame.inMiddleBuf]
  refine ⟨h.ok, h.sending, ?_, ?_, ?_⟩
  · rw [hsame.supportInFact, hsame.numPaddingRecv, hkept]
    exact h.receiving.unpadding
  · rw [hsame.supportInFact, hsame.numPaddingRecv]
    exact h.receiving.num_eq
  · rw [hsame.supportInFact]
    exact h.receiving.out_eq

lemma Carries.same_sender (h : Carries sender receiver chunks received data out)
    {sender' : PaddingState} (hsame : SameSender sender sender') :
    Carries sender' receiver chunks received data out := by
  obtain ⟨sent, hsending, hall⟩ := h.sending
  refine ⟨h.ok, ⟨sent, ⟨?_, ?_⟩, hall⟩, h.receiving⟩
  · rw [hsame.supportInFact, hsame.numPaddingSend]
    exact hsending.num_eq
  · rw [hsame.supportInFact]
    exact hsending.sent_eq

lemma Carries.send (junk : ℕ → UInt8) (h : Carries sender receiver chunks received data out)
    {paddingSize : ℕ} (hok : SentChunk.Ok (buf.readable, paddingSize)) :
    ∃ sender' buf', sender.send junk buf paddingSize = some (sender', buf') ∧
      SameReceiver sender sender' ∧
      Carries sender' receiver (chunks ++ [(buf.readable, paddingSize)]) received
        (data ++ buf'.readable) out := by
  obtain ⟨sent, hsending, hall⟩ := h.sending
  have hsize : buf.size < 65536 := by
    have : buf.readable.length ≤ 65535 := hok.2.1
    rw [buf.length_readable] at this
    omega
  obtain ⟨sender', buf', hsend, hsame, hsending'⟩ := hsending.send junk hsize paddingSize
  refine ⟨sender', buf', hsend, hsame, ?_, ⟨_, hsending', ?_⟩, h.receiving⟩
  · intro c hc
    rcases List.mem_append.mp hc with hc | hc
    · exact h.ok c hc
    · rw [List.mem_singleton.mp hc]
      exact hok
  · rw [← List.append_assoc, hall]
    simp

lemma Carries.receive (junk : ℕ → UInt8) (h : Carries sender receiver chunks received data out)
    (n : ℕ) :
    ∃ receiver' bufs, receiver.receive junk (data.take n) = some (receiver', bufs) ∧
      SameSender receiver receiver' ∧
      Carries sender receiver' chunks (received ++ data.take n) (data.drop n)
        (out ++ (bufs.map GrowableIOBuffer.readable).flatten) := by
  obtain ⟨sent, hsending, hall⟩ := h.sending
  obtain ⟨receiver', bufs, hrecv, hsame, hreceiving⟩ := h.receiving.receive junk (data.take n)
  refine ⟨receiver', bufs, hrecv, hsame, h.ok, ⟨sent, hsending, ?_⟩, hreceiving⟩
  rw [List.append_assoc, List.take_append_drop, hall]

lemma Carries.agree_sender (h : Carries sender receiver chunks received data out) {field : Bool}
    (hsame : chunks ≠ [] → (sender.agree field).supportInFact = sender.supportInFact) :
    Carries (sender.agree field) receiver chunks received data out := by
  obtain ⟨sent, hsending, hall⟩ := h.sending
  refine ⟨h.ok, ⟨sent, ?_, hall⟩, h.receiving⟩
  have hnum := hsending.num_eq
  have hsent := hsending.sent_eq
  by_cases hnil : chunks = []
  · subst hnil
    have hzero : sender.numPaddingSend = 0 := by
      rw [hnum]
      cases sender.supportInFact <;> rfl
    have hnone : sent = [] := by
      rw [hsent]
      cases sender.supportInFact <;> rfl
    rw [hnone]
    exact sending_new hzero
  constructor
  · rw [hsame hnil]
    exact hnum
  · rw [hsame hnil]
    exact hsent

lemma Carries.agree_receiver (h : Carries sender receiver chunks [] data out) (field : Bool) :
    Carries sender (receiver.agree field) chunks [] data out := by
  refine ⟨h.ok, h.sending, fun hon => ?_, fun hoff => ?_, ?_⟩
  · exact h.receiving.unpadding (Bool.and_eq_true_iff.mp hon).1
  · by_cases hsupport : receiver.supportInFact
    · show receiver.numPaddingRecv = 0
      rw [← (h.receiving.unpadding hsupport).num_eq, drain_nil]
    · exact h.receiving.num_eq (Bool.eq_false_iff.mpr hsupport)
  · rw [h.out_eq_nil, unpadded_nil]

end Carries

end PaddingState

end Yass.Net
