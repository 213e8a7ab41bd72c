import Yass.Lib.Framing
import Yass.Net.IoBuffer

/-!
# The padding of the first chunks of a stream

Each of the first eight chunks of a padded stream is sent as
`<payload length, 2> <padding length, 1> <payload> <padding>`; the rest of the stream is sent as it
is.

* `Unpadding.append_of_lt`, `Unpadding.append_of_ge` — one more piece of the stream: what it adds
  depends only on the number of chunks seen and on the bytes that were kept.

Source: `net/padding.hpp`, `net/padding.cpp` (`RemovePadding`).
-/

namespace Yass.Net

def kFirstPaddings : ℕ := 8

def kPaddingHeaderSize : ℕ := 3

/-- The errors of `RemovePadding`. -/
inductive PaddingError where
  | tryAgain
  | invalidArgument
  deriving DecidableEq, Repr

/-! ## One chunk -/

/-- `payload_size` of a chunk that starts with these bytes. -/
def payloadSize (bytes : List UInt8) : ℕ := (bytes.getD 0 0).toNat * 256 + (bytes.getD 1 0).toNat

/-- `padding_size` of a chunk that starts with these bytes. -/
def paddingSize (bytes : List UInt8) : ℕ := (bytes.getD 2 0).toNat

/-- `RemovePadding`: the payload in a new buffer, and the buffer that is left. -/
def removePadding (junk : ℕ → UInt8) (buf : GrowableIOBuffer) :
    Option (Except PaddingError (GrowableIOBuffer × GrowableIOBuffer)) :=
  if buf.size < kPaddingHeaderSize then some (.error .tryAgain)
  else
    let p := buf.readable
    let payloadSize := payloadSize p
    if payloadSize = 0 then some (.error .invalidArgument)
    else
      let paddingSize := paddingSize p
      if buf.size < kPaddingHeaderSize + payloadSize + paddingSize then some (.error .tryAgain)
      else do
        let buf ← buf.setOffset (buf.offset + kPaddingHeaderSize)
        let ret ← GrowableIOBuffer.fresh.setCapacity junk payloadSize
        let ret ← ret.store ret.offset (buf.readable.take payloadSize)
        let buf ← buf.setOffset (buf.offset + payloadSize + paddingSize)
        some (.ok (ret, buf))

/-- `RemovePadding` on bytes, as one try of a receiver that counts the chunks. -/
def paddingAttempt (num : ℕ) (bytes : List UInt8) : Framing.Attempt ℕ (List UInt8) :=
  if bytes.length < kPaddingHeaderSize then .more
  else if payloadSize bytes = 0 then .bad
  else if bytes.length < kPaddingHeaderSize + payloadSize bytes + paddingSize bytes then .more
  else
    .item ((bytes.drop kPaddingHeaderSize).take (payloadSize bytes))
      (kPaddingHeaderSize + payloadSize bytes + paddingSize bytes) (num + 1)

/-- **Refinement.** `RemovePadding` does to the buffer what the attempt does to its bytes. -/
lemma removePadding_spec (junk : ℕ → UInt8) (buf : GrowableIOBuffer) (num : ℕ) :
    match paddingAttempt num buf.readable with
    | .more => removePadding junk buf = some (.error .tryAgain)
    | .bad => removePadding junk buf = some (.error .invalidArgument)
    | .item payload n _ => ∃ ret rest, removePadding junk buf = some (.ok (ret, rest)) ∧
        ret.readable = payload ∧ rest.readable = buf.readable.drop n := by
  unfold paddingAttempt removePadding
  rw [GrowableIOBuffer.length_readable]
  by_cases hhead : buf.size < kPaddingHeaderSize
  · simp [hhead]
  by_cases hzero : payloadSize buf.readable = 0
  · simp [hhead, hzero]
  by_cases hall : buf.size < kPaddingHeaderSize + payloadSize buf.readable +
      paddingSize buf.readable
  · simp [hhead, hzero, hall]
  simp only [hhead, hzero, hall, if_false]
  have hfirst : kPaddingHeaderSize ≤ buf.size := by omega
  obtain ⟨b₁, hb₁, hread₁, -, hcap₁, hoff₁⟩ := GrowableIOBuffer.setOffset_add hfirst
  have hsize₁ : b₁.size = buf.size - kPaddingHeaderSize := by
    rw [← b₁.length_readable, hread₁, List.length_drop, buf.length_readable]
  obtain ⟨r₀, hr₀, hcap, hoff⟩ :=
    GrowableIOBuffer.setCapacity_fresh junk (payloadSize buf.readable)
  have htake : (b₁.readable.take (payloadSize buf.readable)).length = r₀.capacity := by
    rw [List.length_take, b₁.length_readable, hcap]
    omega
  obtain ⟨r₁, hr₁, hev₁, -, hroff₁⟩ := GrowableIOBuffer.store_all htake
  have hsecond : payloadSize buf.readable + paddingSize buf.readable ≤ b₁.size := by omega
  obtain ⟨b₂, hb₂, hread₂, -⟩ := GrowableIOBuffer.setOffset_add hsecond
  refine ⟨r₁, b₂, ?_, ?_, ?_⟩
  · rw [← Nat.add_assoc] at hb₂
    simp [hb₁, hr₀, hoff, hr₁, hb₂]
  · rw [GrowableIOBuffer.readable, hev₁, hroff₁, hoff, List.drop_zero, hread₁]
  · rw [hread₂, hread₁, List.drop_drop, Nat.add_assoc]

/-! ## The loop -/

/-- The loop of `OnDataForStream`, for `k` more chunks: the payloads, the buffer that is left and
the number of chunks still to come. -/
def removePaddings (junk : ℕ → UInt8) :
    ℕ → GrowableIOBuffer → Option (List GrowableIOBuffer × GrowableIOBuffer × ℕ)
  | 0, buf => some ([], buf, 0)
  | k + 1, buf => do
    match ← removePadding junk buf with
    | .error _ => some ([], buf, k + 1)
    | .ok (payload, buf) =>
      let (payloads, buf, left) ← removePaddings junk k buf
      some (payload :: payloads, buf, left)

lemma payloadSize_append {bytes : List UInt8} (h : kPaddingHeaderSize ≤ bytes.length)
    (more : List UInt8) : payloadSize (bytes ++ more) = payloadSize bytes ∧
      paddingSize (bytes ++ more) = paddingSize bytes := by
  have h3 : 3 ≤ bytes.length := h
  simp only [payloadSize, paddingSize, List.getD_eq_getElem?_getD]
  rw [List.getElem?_append_left (by omega), List.getElem?_append_left (by omega),
    List.getElem?_append_left (by omega)]
  exact ⟨rfl, rfl⟩

/-- The receiver of a padded stream. Its state is the number of chunks received; behind the last
padded chunk it takes nothing. -/
def paddingFramer : Framing.Framer UInt8 ℕ (List UInt8) where
  attempt num bytes := if num < kFirstPaddings then paddingAttempt num bytes else .more
  item_pos := by
    intro num bytes a n num' h
    unfold paddingAttempt at h
    split_ifs at h
    cases h
    unfold kPaddingHeaderSize
    omega
  item_le := by
    intro num bytes a n num' h
    unfold paddingAttempt at h
    split_ifs at h
    cases h
    omega
  stable := by
    intro num bytes more h
    unfold paddingAttempt at h ⊢
    rw [List.length_append]
    split_ifs at h with hnum hhead hzero hall
    all_goals first | exact absurd rfl h | skip
    all_goals
      obtain ⟨hpay, hpad⟩ := payloadSize_append (Nat.le_of_not_lt hhead) more
      rw [if_pos hnum, if_neg (by omega), hpay, hpad]
    · rw [if_pos hzero, if_pos hnum, if_neg hhead, if_pos hzero]
    · have hdrop : ((bytes ++ more).drop kPaddingHeaderSize).take (payloadSize bytes) =
          (bytes.drop kPaddingHeaderSize).take (payloadSize bytes) := by
        rw [List.drop_append_of_le_length (by omega), List.take_append_of_le_length]
        rw [List.length_drop]
        omega
      rw [if_neg hzero, if_neg (by omega), if_pos hnum, if_neg hhead, if_neg hzero, if_neg hall,
        hdrop]

variable {num : ℕ}

lemma attempt_of_lt (h : num < kFirstPaddings) (bytes : List UInt8) :
    paddingFramer.attempt num bytes = paddingAttempt num bytes := if_pos h

lemma drain_of_ge (h : kFirstPaddings ≤ num) (bytes : List UInt8) :
    paddingFramer.drain num bytes = ⟨[], num, bytes, .starved⟩ :=
  paddingFramer.drain_of_more (if_neg (Nat.not_lt.mpr h))

/-- **Refinement.** The loop drains the buffer. -/
lemma removePaddings_spec (junk : ℕ → UInt8) {k : ℕ} (hk : k ≤ kFirstPaddings)
    (buf : GrowableIOBuffer) :
    ∃ payloads rest left, removePaddings junk k buf = some (payloads, rest, left) ∧ left ≤ k ∧
      paddingFramer.drain (kFirstPaddings - k) buf.readable =
        ⟨payloads.map GrowableIOBuffer.readable, kFirstPaddings - left, rest.readable,
          (paddingFramer.drain (kFirstPaddings - k) buf.readable).why⟩ := by
  induction k generalizing buf with
  | zero =>
    refine ⟨[], buf, 0, rfl, le_rfl, ?_⟩
    rw [drain_of_ge (le_of_eq (Nat.sub_zero _).symm)]
    rfl
  | succ k ih =>
    have hlt : kFirstPaddings - (k + 1) < kFirstPaddings := by omega
    have hattempt := attempt_of_lt hlt buf.readable
    have hspec := removePadding_spec junk buf (kFirstPaddings - (k + 1))
    cases hone : paddingAttempt (kFirstPaddings - (k + 1)) buf.readable with
    | more =>
      rw [hone] at hspec hattempt
      refine ⟨[], buf, k + 1, by simp [removePaddings, hspec], le_rfl, ?_⟩
      rw [paddingFramer.drain_of_more hattempt]
      rfl
    | bad =>
      rw [hone] at hspec hattempt
      refine ⟨[], buf, k + 1, by simp [removePaddings, hspec], le_rfl, ?_⟩
      rw [paddingFramer.drain_of_bad hattempt]
      rfl
    | item payload n num =>
      rw [hone] at hspec hattempt
      obtain ⟨ret, rest, hremove, hret, hrest⟩ := hspec
      obtain ⟨payloads, last, left, hloop, hleft, hdrain⟩ := ih (by omega) rest
      have hnum : num = kFirstPaddings - k := by
        unfold paddingAttempt at hone
        split_ifs at hone
        cases hone
        omega
      refine ⟨ret :: payloads, last, left, by simp [removePaddings, hremove, hloop],
        hleft.trans (Nat.le_succ k), ?_⟩
      rw [paddingFramer.drain_of_item hattempt, hnum, ← hrest, hdrain, ← hret]
      rfl

lemma removePaddings_drain (junk : ℕ → UInt8) (hnum : num < kFirstPaddings)
    (buf : GrowableIOBuffer) :
    let t := paddingFramer.drain num buf.readable
    ∃ payloads rest left, removePaddings junk (kFirstPaddings - num) buf =
        some (payloads, rest, left) ∧ t.state = kFirstPaddings - left ∧
      t.rest = rest.readable ∧ t.items = payloads.map GrowableIOBuffer.readable := by
  obtain ⟨payloads, rest, left, hloop, -, hdrain⟩ :=
    removePaddings_spec junk (Nat.sub_le kFirstPaddings num) buf
  rw [Nat.sub_sub_self hnum.le] at hdrain
  exact ⟨payloads, rest, left, hloop, congrArg Framing.Taken.state hdrain,
    congrArg Framing.Taken.rest hdrain, congrArg Framing.Taken.items hdrain⟩

/-! ## The payload of a stream -/

/-- What a stream carries, from the bytes received for it: those of the chunks that are complete,
and everything behind the last padded chunk. -/
def unpadded (padding : Bool) (bytes : List UInt8) : List UInt8 :=
  if padding then
    let t := paddingFramer.drain 0 bytes
    t.items.flatten ++ if t.state < kFirstPaddings then [] else t.rest
  else bytes

/-- A receiver that has got `bytes` of a padded stream, has seen `num` chunks and keeps `kept`. -/
structure Unpadding (bytes : List UInt8) (num : ℕ) (kept : List UInt8) : Prop where
  num_eq : (paddingFramer.drain 0 bytes).state = num
  kept_eq : num < kFirstPaddings → (paddingFramer.drain 0 bytes).rest = kept

lemma drain_nil : paddingFramer.drain 0 [] = ⟨[], 0, [], .starved⟩ :=
  paddingFramer.drain_of_more rfl

lemma unpadding_nil : Unpadding [] 0 [] :=
  ⟨by rw [drain_nil], fun _ => by rw [drain_nil]⟩

lemma unpadded_nil (padding : Bool) : unpadded padding [] = [] := by
  cases padding <;> simp [unpadded, drain_nil]

lemma Unpadding.append_of_lt {bytes kept : List UInt8} (h : Unpadding bytes num kept)
    (hnum : num < kFirstPaddings) (more : List UInt8) :
    let t := paddingFramer.drain num (kept ++ more)
    Unpadding (bytes ++ more) t.state t.rest ∧
      unpadded true (bytes ++ more) = unpadded true bytes ++ t.items.flatten ++
        if t.state < kFirstPaddings then [] else t.rest := by
  intro t
  have hdrain : paddingFramer.drain 0 (bytes ++ more) =
      t.prepend (paddingFramer.drain 0 bytes).items := by
    rw [paddingFramer.drain_append, h.num_eq, h.kept_eq hnum]
  refine ⟨⟨by rw [hdrain]; rfl, fun _ => by rw [hdrain]; rfl⟩, ?_⟩
  simp only [unpadded, if_true, hdrain, Framing.Taken.prepend_items, Framing.Taken.prepend_state,
    Framing.Taken.prepend_rest, h.num_eq, if_pos hnum, List.append_nil, List.flatten_append]

lemma Unpadding.append_of_ge {bytes kept : List UInt8} (h : Unpadding bytes num kept)
    (hnum : kFirstPaddings ≤ num) (more kept' : List UInt8) :
    Unpadding (bytes ++ more) num kept' ∧
      unpadded true (bytes ++ more) = unpadded true bytes ++ more := by
  have hdrain : paddingFramer.drain 0 (bytes ++ more) =
      ⟨(paddingFramer.drain 0 bytes).items, num, (paddingFramer.drain 0 bytes).rest ++ more,
        .starved⟩ := by
    rw [paddingFramer.drain_append, h.num_eq, drain_of_ge hnum]
    simp [Framing.Taken.prepend]
  refine ⟨⟨by rw [hdrain], fun hlt => absurd hlt (Nat.not_lt.mpr hnum)⟩, ?_⟩
  simp only [unpadded, if_true, hdrain, h.num_eq, if_neg (Nat.not_lt.mpr hnum), List.append_assoc]

end Yass.Net
