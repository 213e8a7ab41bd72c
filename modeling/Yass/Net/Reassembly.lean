import Yass.Net.PaddedStream
import Yass.Net.Pipe

/-!
# The buffer in which padded chunks are put together

While padding is active every delivery is appended to `padding_in_middle_buf_`, and complete chunks
are taken off its front. A header without a payload is an error that `OnDataForStream` does not
tell from an incomplete chunk: it returns, and the buffer stays.

Source: `net/padding.cpp`, `cli/cli_connection.cpp`, `server/server_connection.cpp`.
-/

namespace Yass.Net

/-! ## Headers -/

/-- The largest padded chunk: a header, the largest payload it can announce and the most padding. -/
def maxPaddedChunk : ℕ := kPaddingHeaderSize + 65535 + 255

def Malformed (bytes : List UInt8) : Prop :=
  kPaddingHeaderSize ≤ bytes.length ∧ payloadSize bytes = 0

/-- The headers of the first `k` chunks, as far as they are there, all announce a payload. -/
def headersOk : ℕ → List UInt8 → Bool
  | 0, _ => true
  | k + 1, bytes =>
    if bytes.length < kPaddingHeaderSize then true
    else if payloadSize bytes = 0 then false
    else if bytes.length < kPaddingHeaderSize + payloadSize bytes + paddingSize bytes then true
    else headersOk k (bytes.drop (kPaddingHeaderSize + payloadSize bytes + paddingSize bytes))

lemma payloadSize_le (bytes : List UInt8) : payloadSize bytes ≤ 65535 := by
  have h₀ := (bytes.getD 0 0).toNat_lt
  have h₁ := (bytes.getD 1 0).toNat_lt
  unfold payloadSize
  omega

lemma paddingSize_le (bytes : List UInt8) : paddingSize bytes ≤ 255 := by
  have h := (bytes.getD 2 0).toNat_lt
  unfold paddingSize
  omega

variable {bytes : List UInt8}

lemma length_of_attempt_more {num : ℕ} (hnum : num < kFirstPaddings)
    (h : paddingFramer.attempt num bytes = .more) : bytes.length < maxPaddedChunk := by
  have hpayload := payloadSize_le bytes
  have hpadding := paddingSize_le bytes
  have hmax : kPaddingHeaderSize + payloadSize bytes + paddingSize bytes ≤ maxPaddedChunk :=
    Nat.add_le_add (Nat.add_le_add_left hpayload _) hpadding
  rw [attempt_of_lt hnum, paddingAttempt] at h
  split_ifs at h with hhead hzero hall
  · have hheader : kPaddingHeaderSize ≤ maxPaddedChunk := by decide
    omega
  · omega

lemma attempt_eq_bad_iff {num : ℕ} :
    paddingFramer.attempt num bytes = .bad ↔ num < kFirstPaddings ∧ Malformed bytes := by
  constructor
  · intro h
    by_cases hnum : num < kFirstPaddings
    · rw [attempt_of_lt hnum, paddingAttempt] at h
      split_ifs at h with hhead hzero hall
      exact ⟨hnum, Nat.le_of_not_lt hhead, hzero⟩
    have hmore : paddingFramer.attempt num bytes = .more := if_neg hnum
    rw [hmore] at h
    cases h
  intro h
  obtain ⟨hnum, hhead, hzero⟩ := h
  rw [attempt_of_lt hnum, paddingAttempt, if_neg (Nat.not_lt.mpr hhead), if_pos hzero]

/-- **Headers.** The receiver does not get stuck as long as the headers are in order. -/
lemma headersOk_iff {k : ℕ} (hk : k ≤ kFirstPaddings) (bytes : List UInt8) :
    headersOk k bytes = true ↔
      (paddingFramer.drain (kFirstPaddings - k) bytes).why = .starved := by
  induction k generalizing bytes with
  | zero => simp [headersOk, drain_of_ge]
  | succ k ih =>
    have hlt : kFirstPaddings - (k + 1) < kFirstPaddings := by omega
    have hnext : kFirstPaddings - (k + 1) + 1 = kFirstPaddings - k := by omega
    have hattempt := attempt_of_lt hlt bytes
    unfold paddingAttempt at hattempt
    unfold headersOk
    split_ifs at hattempt ⊢ with hhead hzero hall
    · rw [paddingFramer.drain_of_more hattempt]
      exact ⟨fun _ => rfl, fun _ => rfl⟩
    · rw [paddingFramer.drain_of_bad hattempt]
      exact ⟨fun h => (nomatch h), fun h => (nomatch h)⟩
    · rw [paddingFramer.drain_of_more hattempt]
      exact ⟨fun _ => rfl, fun _ => rfl⟩
    rw [paddingFramer.drain_of_item hattempt, hnext, Framing.Taken.prepend_why]
    apply ih
    omega

lemma stuck_of_not_headersOk (h : ¬ headersOk kFirstPaddings bytes) :
    (paddingFramer.drain 0 bytes).why = .stuck := by
  rw [headersOk_iff le_rfl, Nat.sub_self] at h
  cases hwhy : (paddingFramer.drain 0 bytes).why with
  | starved => exact absurd hwhy h
  | stuck => rfl
  | paused => exact absurd hwhy (paddingFramer.drain_why_ne_paused 0 bytes)

lemma headersOk_of_append {bytes more : List UInt8}
    (h : headersOk kFirstPaddings (bytes ++ more) = true) :
    headersOk kFirstPaddings bytes = true := by
  rw [headersOk_iff le_rfl, Nat.sub_self] at h ⊢
  exact paddingFramer.drain_starved_of_append h

/-! ## One delivery -/

/-- What is asked of the delivery of `piece` to a receiver: `padding_in_middle_buf_` does not get
larger than a chunk and the delivery, neither while the piece is appended nor afterwards, and no
header that is refused is left in it. -/
structure Contained (junk : ℕ → UInt8) (p : PaddingState) (piece : List UInt8)
    (p' : PaddingState) : Prop where
  appended : p.numPaddingRecv < kFirstPaddings →
    ∃ buf, p.inMiddle junk piece = some buf ∧ buf.size ≤ maxPaddedChunk + piece.length
  kept : p'.kept.length ≤ maxPaddedChunk + piece.length
  rejected : p'.numPaddingRecv < kFirstPaddings → ¬ Malformed p'.kept

namespace PaddingState

structure Awaiting (p : PaddingState) : Prop where
  supportInFact : p.supportInFact = true
  numPaddingRecv : p.numPaddingRecv = 0
  inMiddleBuf : p.inMiddleBuf = none

/-- A receiver of padded chunks that has got `bytes`. -/
structure Assembling (p : PaddingState) (bytes : List UInt8) : Prop where
  supportInFact : p.supportInFact = true
  num_eq : p.numPaddingRecv = (paddingFramer.drain 0 bytes).state
  kept_eq : p.kept =
    if p.numPaddingRecv < kFirstPaddings then (paddingFramer.drain 0 bytes).rest else []

variable {junk : ℕ → UInt8} {p p' : PaddingState} {bytes piece : List UInt8}
  {bufs : List GrowableIOBuffer}

lemma Awaiting.assembling (h : p.Awaiting) : p.Assembling [] := by
  refine ⟨h.supportInFact, ?_, ?_⟩
  · rw [drain_nil, h.numPaddingRecv]
  · rw [drain_nil, kept, h.inMiddleBuf, Option.elim_none, ite_self]

lemma Assembling.receive (junk : ℕ → UInt8) (h : p.Assembling bytes) (piece : List UInt8) :
    ∃ p' bufs, p.receive junk piece = some (p', bufs) ∧ p'.Assembling (bytes ++ piece) := by
  have hdrain := paddingFramer.drain_append 0 bytes piece
  rw [← h.num_eq] at hdrain
  by_cases hnum : p.numPaddingRecv < kFirstPaddings
  · obtain ⟨p', bufs, hrecv, hsame, hstate, hkept, -⟩ :=
      receive_padded junk h.supportInFact hnum piece
    have hrest := h.kept_eq
    rw [if_pos hnum] at hrest
    rw [hrest] at hstate hkept
    refine ⟨p', bufs, hrecv, hsame.supportInFact.trans h.supportInFact, ?_, ?_⟩
    · rw [hstate, hdrain, Framing.Taken.prepend_state]
    · rw [hkept, hstate, hdrain, Framing.Taken.prepend_rest]
  have hrest := h.kept_eq
  rw [if_neg hnum] at hrest
  rw [drain_of_ge (Nat.le_of_not_lt hnum)] at hdrain
  refine ⟨p, _, receive_plain junk (Or.inr (Nat.le_of_not_lt hnum)) piece, h.supportInFact,
    ?_, ?_⟩
  · rw [hdrain, Framing.Taken.prepend_state]
  · rw [hrest, if_neg hnum]

lemma Assembling.kept_of_headersOk (h : p.Assembling bytes) (hok : headersOk kFirstPaddings bytes) :
    p.kept.length < maxPaddedChunk ∧
      (p.numPaddingRecv < kFirstPaddings → ¬ Malformed p.kept) := by
  rw [headersOk_iff le_rfl, Nat.sub_self] at hok
  have hattempt := paddingFramer.attempt_of_drain_starved hok
  rw [← h.num_eq] at hattempt
  by_cases hnum : p.numPaddingRecv < kFirstPaddings
  · rw [h.kept_eq, if_pos hnum]
    refine ⟨length_of_attempt_more hnum hattempt, ?_⟩
    intro _ hbad
    rw [attempt_eq_bad_iff.mpr ⟨hnum, hbad⟩] at hattempt
    cases hattempt
  · rw [h.kept_eq, if_neg hnum]
    exact ⟨by decide, fun hlt => absurd hlt hnum⟩

lemma Assembling.malformed (h : p.Assembling bytes) (hbad : ¬ headersOk kFirstPaddings bytes) :
    p.numPaddingRecv < kFirstPaddings ∧ Malformed p.kept := by
  have hattempt := paddingFramer.attempt_of_pump_stuck (stuck_of_not_headersOk hbad)
  obtain ⟨hnum, hmalformed⟩ := attempt_eq_bad_iff.mp hattempt
  have hlt : p.numPaddingRecv < kFirstPaddings := by
    rw [h.num_eq]
    exact hnum
  refine ⟨hlt, ?_⟩
  rw [h.kept_eq, if_pos hlt]
  exact hmalformed

/-- **One delivery is contained** exactly if the headers up to its end are in order. -/
lemma Assembling.contained_iff (h : p.Assembling bytes) (h' : p'.Assembling (bytes ++ piece)) :
    Contained junk p piece p' ↔ headersOk kFirstPaddings (bytes ++ piece) = true := by
  constructor
  · intro hcontained
    by_contra hbad
    obtain ⟨hnum, hmalformed⟩ := h'.malformed hbad
    exact hcontained.rejected hnum hmalformed
  intro hok
  obtain ⟨hsize, -⟩ := h.kept_of_headersOk (headersOk_of_append hok)
  obtain ⟨hsize', hrejected⟩ := h'.kept_of_headersOk hok
  refine ⟨?_, hsize'.le.trans (Nat.le_add_right _ _), hrejected⟩
  intro _
  obtain ⟨buf, hbuf, hread⟩ := p.inMiddle_spec junk piece
  refine ⟨buf, hbuf, ?_⟩
  rw [← buf.length_readable, hread, List.length_append]
  exact Nat.add_le_add_right hsize.le _

end PaddingState

/-! ## What is queued -/

lemma length_drain_le (num : ℕ) (bytes : List UInt8) :
    (paddingFramer.drain num bytes).items.flatten.length +
      (paddingFramer.drain num bytes).rest.length ≤ bytes.length := by
  induction num, bytes using paddingFramer.attempt_induction with
  | more num bytes hmore => simp [paddingFramer.drain_of_more hmore]
  | bad num bytes hbad => simp [paddingFramer.drain_of_bad hbad]
  | item num bytes payload n num' hitem ih =>
    have hle := paddingFramer.item_le hitem
    have hpayload : payload.length ≤ n := by
      by_cases hnum : num < kFirstPaddings
      · rw [attempt_of_lt hnum, paddingAttempt] at hitem
        split_ifs at hitem
        cases hitem
        rw [List.length_take]
        omega
      · rw [show paddingFramer.attempt num bytes = .more from if_neg hnum] at hitem
        cases hitem
    rw [paddingFramer.drain_of_item hitem]
    rw [List.length_drop] at ih
    simp only [Framing.Taken.prepend_items, Framing.Taken.prepend_rest, List.flatten_append,
      List.flatten_singleton, List.length_append]
    omega

namespace PaddingState

variable {junk : ℕ → UInt8} {p p' : PaddingState} {piece : List UInt8}
  {bufs : List GrowableIOBuffer}

/-- Nothing that is kept is queued any more: the padded chunks are over, or the header of the next
one is refused. -/
def Sealed (p : PaddingState) : Prop :=
  p.numPaddingRecv < kFirstPaddings → Malformed p.kept

def Drained (p : PaddingState) : Prop :=
  ∀ payload n num, paddingFramer.attempt p.numPaddingRecv p.kept ≠ .item payload n num

/-- **Conservation.** What is queued, and what is kept then, was kept before or delivered. -/
lemma receive_conserves (h : p.receive junk piece = some (p', bufs)) :
    (bufs.map GrowableIOBuffer.readable).flatten.length + p'.kept.length ≤
      p.kept.length + piece.length := by
  by_cases hplain : p.supportInFact = false ∨ kFirstPaddings ≤ p.numPaddingRecv
  · rw [receive_plain junk hplain] at h
    cases h
    simp [Nat.add_comm]
  rw [not_or, Bool.not_eq_false, Nat.not_le] at hplain
  obtain ⟨q, out, hrecv, -, -, hkept, hout⟩ := receive_padded junk hplain.1 hplain.2 piece
  rw [h] at hrecv
  cases hrecv
  have hle := length_drain_le p.numPaddingRecv (p.kept ++ piece)
  rw [List.length_append] at hle
  rw [hout, hkept, List.length_append]
  split_ifs <;> simp only [List.length_nil] <;> omega

lemma receive_drained (hp : p.Drained) (h : p.receive junk piece = some (p', bufs)) :
    p'.Drained := by
  by_cases hplain : p.supportInFact = false ∨ kFirstPaddings ≤ p.numPaddingRecv
  · rw [receive_plain junk hplain] at h
    cases h
    exact hp
  rw [not_or, Bool.not_eq_false, Nat.not_le] at hplain
  obtain ⟨q, out, hrecv, -, hstate, hkept, -⟩ := receive_padded junk hplain.1 hplain.2 piece
  rw [h] at hrecv
  cases hrecv
  intro payload n num
  rw [hstate, hkept]
  by_cases hnum : (paddingFramer.drain p.numPaddingRecv (p.kept ++ piece)).state < kFirstPaddings
  · rw [if_pos hnum]
    exact paddingFramer.attempt_drain_ne_item _ _ payload n num
  have hmore : paddingFramer.attempt
      (paddingFramer.drain p.numPaddingRecv (p.kept ++ piece)).state [] = .more := if_neg hnum
  rw [if_neg hnum, hmore]
  exact fun hitem => nomatch hitem

/-- **Nothing comes out.** A receiver that has refused a header, or has got all its padded chunks,
queues no more than it is given. -/
lemma receive_sealed (hp : p.Sealed) (h : p.receive junk piece = some (p', bufs)) :
    p'.Sealed ∧ (bufs.map GrowableIOBuffer.readable).flatten.length ≤ piece.length := by
  by_cases hplain : p.supportInFact = false ∨ kFirstPaddings ≤ p.numPaddingRecv
  · rw [receive_plain junk hplain] at h
    cases h
    exact ⟨hp, by simp⟩
  rw [not_or, Bool.not_eq_false, Nat.not_le] at hplain
  obtain ⟨q, out, hrecv, -, hstate, hkept, hout⟩ := receive_padded junk hplain.1 hplain.2 piece
  rw [h] at hrecv
  cases hrecv
  have hbad := attempt_eq_bad_iff.mpr ⟨hplain.2, hp hplain.2⟩
  rw [paddingFramer.drain_of_bad (paddingFramer.bad_append piece hbad)] at hstate hkept hout
  rw [if_pos hplain.2] at hkept hout
  refine ⟨?_, by simp [hout]⟩
  intro _
  have hmore := attempt_eq_bad_iff.mp (paddingFramer.bad_append piece hbad)
  rw [hkept]
  exact hmore.2

lemma Drained.sealed_of_le (hp : p.Drained) (hsize : maxPaddedChunk ≤ p.kept.length) :
    p.Sealed := by
  intro hnum
  cases hattempt : paddingFramer.attempt p.numPaddingRecv p.kept with
  | more => exact absurd (length_of_attempt_more hnum hattempt) (Nat.not_lt.mpr hsize)
  | bad => exact (attempt_eq_bad_iff.mp hattempt).2
  | item payload n num => exact absurd hattempt (hp payload n num)

structure SameBuffer (p p' : PaddingState) : Prop where
  numPaddingRecv : p'.numPaddingRecv = p.numPaddingRecv
  inMiddleBuf : p'.inMiddleBuf = p.inMiddleBuf

lemma SameReceiver.sameBuffer (h : p.SameReceiver p') : p.SameBuffer p' :=
  ⟨h.numPaddingRecv, h.inMiddleBuf⟩

lemma SameBuffer.kept_eq (h : p.SameBuffer p') : p'.kept = p.kept := by
  rw [kept, h.inMiddleBuf, kept]

end PaddingState

/-! ## A queue behind a receiver -/

/-- A queue of `level` bytes and its receiver `p`, and what `n` bytes of data make of them. -/
structure Intake (n : ℕ) (level : ℕ) (p : PaddingState) (level' : ℕ) (p' : PaddingState) :
    Prop where
  conserves : level' + p'.kept.length ≤ level + p.kept.length + n
  drained : p.Drained → p'.Drained
  seals : p.Sealed → p'.Sealed ∧ level' ≤ level + n

section Intake

variable {n n' level level' level'' : ℕ} {p p' p'' : PaddingState}

lemma intake_of_sameBuffer (hlevel : level' ≤ level) (h : p.SameBuffer p') :
    Intake 0 level p level' p' := by
  have hkept := h.kept_eq
  refine ⟨?_, ?_, ?_⟩
  · rw [hkept]
    omega
  · intro hp
    rwa [PaddingState.Drained, h.numPaddingRecv, hkept]
  intro hp
  rw [PaddingState.Sealed, h.numPaddingRecv, hkept]
  exact ⟨hp, hlevel⟩

lemma Intake.trans (h : Intake n level p level' p') (h' : Intake n' level' p' level'' p'') :
    Intake (n + n') level p level'' p'' := by
  refine ⟨?_, h'.drained ∘ h.drained, ?_⟩
  · have hfirst := h.conserves
    have hsecond := h'.conserves
    omega
  intro hp
  obtain ⟨hp', hle⟩ := h.seals hp
  obtain ⟨hp'', hle'⟩ := h'.seals hp'
  exact ⟨hp'', by omega⟩

lemma intake_receive {junk : ℕ → UInt8} {piece : List UInt8} {bufs : List GrowableIOBuffer}
    (h : p.receive junk piece = some (p', bufs)) (q : Pipe) :
    Intake piece.length q.byteLength p (bufs.foldl Pipe.push q).byteLength p' := by
  have hlevel : (bufs.foldl Pipe.push q).byteLength =
      q.byteLength + (bufs.map GrowableIOBuffer.readable).flatten.length := by
    rw [Pipe.byteLength_eq, Pipe.byteLength_eq, Pipe.pending_pushAll, List.length_append]
  have hconserves := PaddingState.receive_conserves h
  refine ⟨by omega, fun hp => PaddingState.receive_drained hp h, ?_⟩
  intro hp
  obtain ⟨hp', hle⟩ := PaddingState.receive_sealed hp h
  exact ⟨hp', by omega⟩

/-- **One read.** A queue that is low takes the data of a read, and what an incomplete chunk has
left. -/
lemma Intake.bounded {window room : ℕ} (h : Intake n level p level' p') (hp : p.Drained)
    (hlevel : level ≤ window) (hn : n ≤ room) :
    level' ≤ window + room ∨
      p.kept.length < maxPaddedChunk ∧ level' ≤ window + room + p.kept.length := by
  by_cases hsize : maxPaddedChunk ≤ p.kept.length
  · have hle := (h.seals (hp.sealed_of_le hsize)).2
    left
    omega
  have hconserves := h.conserves
  right
  exact ⟨Nat.lt_of_not_le hsize, by omega⟩

end Intake

end Yass.Net
