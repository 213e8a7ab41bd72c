import Yass.Lib.Run
import Yass.Net.Pipe

/-!
# `DataFrameSource` between the connection and the HTTP/2 adapter

`Net/Pipe` has the frames that the adapter makes of a source. Here the calls are taken one by one,
in any order the adapter and the connection make them, with the conversions to `int`.

* `Event`, `step` — the calls. The adapter sends what was selected, or it does not.
* `emitted`, `pending`, `added` — the payload so far, the chunks left, and all chunks.

Source: `DataFrameSource` and `OnReadyToSend` of `cli/cli_connection.{hpp,cpp}` and
`server/server_connection.{hpp,cpp}`.
-/

namespace Yass.Net.FrameSource

/-- The conversion of a `size_t` to `int`. -/
def toInt (n : ℕ) : ℤ := (n : ℤ).bmod (2 ^ 32)

def kBlocked : ℤ := 0

structure Sent where
  header : List UInt8
  payload : List UInt8
  /-- The flag that ends the stream, which is part of the header. -/
  fin : Bool
  deriving DecidableEq, Repr

structure State where
  source : DataFrameSource
  /-- Whether `send_completion_callback_` is set. -/
  callback : Bool
  completions : ℕ
  /-- What `OnReadyToSend` has put into the queue of the connection. -/
  queue : List (List UInt8)
  blockedStream : ℕ
  deriving DecidableEq, Repr

def State.onReadyToSend (s : State) (serialized : List UInt8) : State :=
  { s with queue := s.queue ++ [serialized] }

/-! ## The two copies -/

/-- `SelectPayloadLength` of the client: the length, and whether the stream ends with it. -/
def clientSelectPayloadLength (s : State) (maxLength : ℕ) : ℤ × Bool :=
  match s.source.chunks with
  | [] => (kBlocked, s.source.lastFrame)
  | chunk :: rest =>
    let finished := (chunk :: rest).length ≤ 1 ∧ (chunk.size : ℤ) ≤ toInt maxLength ∧
      s.source.lastFrame
    (min (chunk.size : ℤ) (toInt maxLength), finished)

/-- What `Send` does to the source behind the payload. -/
def State.consumed (s : State) (chunk : GrowableIOBuffer) (rest : List GrowableIOBuffer) : State :=
  let chunks := if chunk.isEmpty then rest else chunk :: rest
  { s with
    source := { s.source with chunks := chunks }
    callback := s.callback && !chunks.isEmpty
    completions := if chunks.isEmpty && s.callback then s.completions + 1 else s.completions
    blockedStream := if chunks.isEmpty then 0 else s.blockedStream }

/-- `Send` of the client. `none` is an abort, or a payload from a source without chunks. -/
def clientSend (s : State) (frameHeader : List UInt8) (payloadLength : ℕ) : Option State :=
  if payloadLength = 0 then some (s.onReadyToSend frameHeader)
  else
    match s.source.chunks with
    | [] => none
    | chunk :: rest => do
      let s := s.onReadyToSend (frameHeader ++ chunk.readable.take payloadLength)
      let chunk ← chunk.setOffset (chunk.offset + payloadLength)
      some (s.consumed chunk rest)

/-- `SelectPayloadLength` of the server. -/
def serverSelectPayloadLength (s : State) (maxLength : ℕ) : ℤ × Bool :=
  match s.source.chunks with
  | [] => (kBlocked, s.source.lastFrame)
  | chunk :: rest =>
    let finished := (chunk :: rest).length ≤ 1 ∧ (chunk.size : ℤ) ≤ toInt maxLength ∧
      s.source.lastFrame
    (min (chunk.size : ℤ) (toInt maxLength), finished)

/-- `Send` of the server. -/
def serverSend (s : State) (frameHeader : List UInt8) (payloadLength : ℕ) : Option State :=
  if payloadLength = 0 then some (s.onReadyToSend frameHeader)
  else
    match s.source.chunks with
    | [] => none
    | chunk :: rest => do
      let s := s.onReadyToSend (frameHeader ++ chunk.readable.take payloadLength)
      let chunk ← chunk.setOffset (chunk.offset + payloadLength)
      some (s.consumed chunk rest)

structure Copy where
  selectPayloadLength : State → ℕ → ℤ × Bool
  send : State → List UInt8 → ℕ → Option State

/-- `DataFrameSource` of the client. -/
def client : Copy := ⟨clientSelectPayloadLength, clientSend⟩

/-- `DataFrameSource` of the server. -/
def server : Copy := ⟨serverSelectPayloadLength, serverSend⟩

lemma copies_agree : client = server := rfl

/-! ## The calls -/

inductive Event where
  | addChunk (chunk : GrowableIOBuffer)
  | setLastFrame (lastFrame : Bool)
  /-- `SelectPayloadLength`, and no `Send`, or one that is refused. -/
  | select (max : ℕ)
  /-- `SelectPayloadLength`, and a `Send` of this length. -/
  | frame (header : List UInt8) (max : ℕ)
  deriving DecidableEq, Repr

structure Stream where
  state : State
  frames : List Sent
  deriving DecidableEq, Repr

def start (callback : Bool) (blockedStream : ℕ) : Stream :=
  ⟨⟨⟨[], false⟩, callback, 0, [], blockedStream⟩, []⟩

/-- One call. The adapter sends nothing for `kBlocked`, unless the stream ends, and nothing for an
error, which is negative. -/
def step (copy : Copy) (s : Stream) : Event → Option Stream
  | .addChunk chunk =>
    let source := { s.state.source with chunks := s.state.source.chunks ++ [chunk] }
    some { s with state := { s.state with source := source } }
  | .setLastFrame lastFrame =>
    let source := { s.state.source with lastFrame := lastFrame }
    some { s with state := { s.state with source := source } }
  | .select _ => some s
  | .frame header max => do
    let (length, finished) := copy.selectPayloadLength s.state max
    if 0 < length ∨ length = kBlocked ∧ finished = true then
      let state ← copy.send s.state header length.toNat
      let payload := (state.queue.getLastD []).drop header.length
      some ⟨state, s.frames ++ [⟨header, payload, finished⟩]⟩
    else some s

/-! ## The bytes of the stream -/

def State.pending (s : State) : List UInt8 :=
  (s.source.chunks.map GrowableIOBuffer.readable).flatten

def Stream.emitted (s : Stream) : List UInt8 := (s.frames.map Sent.payload).flatten

def added : List Event → List UInt8
  | [] => []
  | .addChunk chunk :: es => chunk.readable ++ added es
  | _ :: es => added es

lemma added_append (es es' : List Event) : added (es ++ es') = added es ++ added es' := by
  induction es with
  | nil => rfl
  | cons e es ih => cases e <;> simp [added, ih]

/-! ## One frame -/

variable {s s' : State}

lemma selectPayloadLength_spec {max : ℕ} {length : ℤ} {finished : Bool}
    (h : clientSelectPayloadLength s max = (length, finished)) :
    (∀ chunk ∈ s.source.chunks.head?, length ≤ chunk.size) ∧
      (0 < length → s.source.chunks ≠ []) ∧
      (finished = true → s.source.lastFrame = true ∧ (s.pending.length : ℤ) ≤ length) := by
  unfold clientSelectPayloadLength at h
  rcases hchunks : s.source.chunks with _ | ⟨chunk, rest⟩
  · rw [hchunks] at h
    obtain ⟨rfl, rfl⟩ := Prod.mk.inj h
    refine ⟨by simp, by simp [kBlocked], fun hlast => ⟨hlast, ?_⟩⟩
    simp [State.pending, hchunks, kBlocked]
  rw [hchunks] at h
  obtain ⟨rfl, rfl⟩ := Prod.mk.inj h
  refine ⟨by simp, by simp, fun hfin => ?_⟩
  obtain ⟨hone, hfits, hlast⟩ := of_decide_eq_true hfin
  have hrest : rest = [] := by
    rw [List.length_cons] at hone
    exact List.length_eq_zero_iff.mp (by omega)
  refine ⟨hlast, ?_⟩
  rw [min_eq_left hfits, State.pending, hchunks, hrest]
  simp

lemma send_spec (header : List UInt8) {n : ℕ} (hne : n ≠ 0 → s.source.chunks ≠ [])
    (hn : ∀ chunk ∈ s.source.chunks.head?, n ≤ chunk.size)
    (hfilled : ∀ chunk ∈ s.source.chunks, chunk.isEmpty = false) :
    ∃ s', clientSend s header n = some s' ∧
      s'.queue = s.queue ++ [header ++ s.pending.take n] ∧ s'.pending = s.pending.drop n ∧
      s'.source.lastFrame = s.source.lastFrame ∧
      ∀ chunk ∈ s'.source.chunks, chunk.isEmpty = false := by
  unfold clientSend
  by_cases hzero : n = 0
  · subst hzero
    exact ⟨_, if_pos rfl, by simp [State.onReadyToSend], rfl, rfl, hfilled⟩
  obtain ⟨chunk, rest, hchunks⟩ := List.exists_cons_of_ne_nil (hne hzero)
  have hsize : n ≤ chunk.size := hn chunk (by rw [hchunks]; rfl)
  obtain ⟨chunk', hchunk', hreadable, -⟩ := GrowableIOBuffer.setOffset_add hsize
  have hpending : s.pending = chunk.readable ++ (rest.map GrowableIOBuffer.readable).flatten := by
    rw [State.pending, hchunks]
    rfl
  have hle : n ≤ chunk.readable.length := by rwa [GrowableIOBuffer.length_readable]
  rw [if_neg hzero, hchunks]
  refine ⟨(s.onReadyToSend (header ++ chunk.readable.take n)).consumed chunk' rest,
    Option.bind_eq_some_iff.mpr ⟨chunk', hchunk', rfl⟩, ?_, ?_, rfl, ?_⟩
  · rw [hpending, List.take_append_of_le_length hle]
    rfl
  · rw [hpending, List.drop_append_of_le_length hle, ← hreadable]
    exact GrowableIOBuffer.flatten_pop chunk' rest
  rw [hchunks, List.forall_mem_cons] at hfilled
  intro c hc
  have hc : c ∈ if chunk'.isEmpty then rest else chunk' :: rest := hc
  split_ifs at hc with hempty
  · exact hfilled.2 c hc
  rcases List.mem_cons.mp hc with rfl | hc
  · exact Bool.eq_false_iff.mpr hempty
  · exact hfilled.2 c hc

lemma step_frame {t : Stream} (header : List UInt8) (max : ℕ)
    (hfilled : ∀ chunk ∈ t.state.source.chunks, chunk.isEmpty = false) :
    ∃ t' frames, step client t (.frame header max) = some t' ∧ t'.frames = t.frames ++ frames ∧
      (frames.map Sent.payload).flatten ++ t'.state.pending = t.state.pending ∧
      t'.state.source.lastFrame = t.state.source.lastFrame ∧
      (∀ chunk ∈ t'.state.source.chunks, chunk.isEmpty = false) ∧
      (∀ frame ∈ frames, frame.fin = true →
        t.state.source.lastFrame = true ∧ t'.state.pending = []) ∧
      (0 < (clientSelectPayloadLength t.state max).1 → (frames.map Sent.payload).flatten ≠ []) := by
  rcases hselect : clientSelectPayloadLength t.state max with ⟨length, finished⟩
  obtain ⟨hle, hne, hfin⟩ := selectPayloadLength_spec hselect
  unfold step
  dsimp only [client]
  rw [hselect]
  dsimp only
  by_cases hsend : 0 < length ∨ length = kBlocked ∧ finished
  · rw [if_pos hsend]
    have hnonneg : 0 ≤ length := by
      rcases hsend with hpos | ⟨rfl, -⟩
      · exact hpos.le
      · exact le_rfl
    obtain ⟨s', hs', hqueue, hpending, hlast, hfilled'⟩ := send_spec header
      (n := length.toNat) (fun hn => hne (by omega))
      (fun chunk hchunk => by have := hle chunk hchunk; omega) hfilled
    have hpayload : (s'.queue.getLastD []).drop header.length =
        t.state.pending.take length.toNat := by
      rw [hqueue, List.getLastD_concat, List.drop_left]
    refine ⟨_, [⟨header, (s'.queue.getLastD []).drop header.length, finished⟩],
      Option.bind_eq_some_iff.mpr ⟨s', hs', rfl⟩, rfl, ?_, hlast, hfilled', ?_, ?_⟩
    · rw [List.map_singleton, List.flatten_singleton, hpayload]
      exact (congrArg _ hpending).trans (List.take_append_drop _ _)
    · intro frame hframe hframefin
      obtain rfl := List.mem_singleton.mp hframe
      obtain ⟨hlastFrame, hall⟩ := hfin hframefin
      refine ⟨hlastFrame, ?_⟩
      rw [hpending]
      exact List.drop_eq_nil_of_le (by omega)
    intro hpos
    rw [List.map_singleton, List.flatten_singleton, hpayload]
    obtain ⟨chunk, rest, hchunks⟩ := List.exists_cons_of_ne_nil (hne hpos)
    have hchunk : chunk.readable ≠ [] := by
      rw [ne_eq, ← chunk.isEmpty_iff, hfilled chunk (by rw [hchunks]; exact List.mem_cons_self)]
      exact Bool.false_ne_true
    have hcount : 0 < t.state.pending.length := by
      rw [State.pending, hchunks, List.map_cons, List.flatten_cons, List.length_append]
      have := List.length_pos_iff.mpr hchunk
      omega
    rw [← List.length_pos_iff, List.length_take]
    omega
  rw [if_neg hsend]
  refine ⟨t, [], rfl, by simp, rfl, rfl, hfilled, by simp, fun hpos => ?_⟩
  exact absurd (Or.inl hpos) hsend

/-! ## Runs -/

/-- What holds after the calls `es`. -/
structure Conserved (es : List Event) (t : Stream) : Prop where
  bytes : t.emitted ++ t.state.pending = added es
  filled : ∀ chunk ∈ t.state.source.chunks, chunk.isEmpty = false
  marked : t.state.source.lastFrame = true → Event.setLastFrame true ∈ es

lemma Conserved.step {es : List Event} {t : Stream} (h : Conserved es t) {e : Event}
    (he : ∀ chunk, e = .addChunk chunk → chunk.isEmpty = false) :
    ∃ t', step client t e = some t' ∧ Conserved (es ++ [e]) t' := by
  have hmarked : t.state.source.lastFrame = true → Event.setLastFrame true ∈ es ++ [e] :=
    fun hlast => List.mem_append_left _ (h.marked hlast)
  rcases e with chunk | lastFrame | max | ⟨header, max⟩
  · refine ⟨_, rfl, ?_, ?_, hmarked⟩
    · rw [added_append, ← h.bytes, List.append_assoc]
      refine congrArg (t.emitted ++ ·) ?_
      show (List.map _ (t.state.source.chunks ++ [chunk])).flatten = t.state.pending ++ _
      simp [State.pending, added]
    intro c hc
    rcases List.mem_append.mp hc with hc | hc
    · exact h.filled c hc
    · rw [List.mem_singleton.mp hc]
      exact he chunk rfl
  · refine ⟨_, rfl, ?_, h.filled, ?_⟩
    · rw [added_append, ← h.bytes]
      exact (List.append_nil _).symm
    intro hlast
    have hlast : lastFrame = true := hlast
    rw [hlast]
    exact List.mem_append_right _ List.mem_cons_self
  · refine ⟨t, rfl, ?_, h.filled, hmarked⟩
    rw [added_append, ← h.bytes]
    exact (List.append_nil _).symm
  obtain ⟨t', frames, ht', hframes, hbytes, hlast, hfilled, -, -⟩ :=
    step_frame header max h.filled
  refine ⟨t', ht', ?_, hfilled, fun hlast' => hmarked (hlast ▸ hlast')⟩
  rw [added_append, ← h.bytes, ← hbytes, Stream.emitted, hframes, List.map_append,
    List.flatten_append, List.append_assoc]
  exact (List.append_nil _).symm

lemma conserved_exec (callback : Bool) (blockedStream : ℕ) {es : List Event}
    (hes : ∀ chunk, Event.addChunk chunk ∈ es → chunk.isEmpty = false) :
    ∃ t, Run.exec (step client) (start callback blockedStream) es = some t ∧ Conserved es t := by
  induction es using List.reverseRecOn with
  | nil => exact ⟨_, rfl, rfl, by simp [start], by simp [start]⟩
  | append_singleton es e ih =>
    obtain ⟨t, ht, hconserved⟩ := ih fun chunk h => hes chunk (List.mem_append_left _ h)
    obtain ⟨t', ht', hconserved'⟩ := hconserved.step (e := e) fun chunk he =>
      hes chunk (he ▸ List.mem_append_right _ List.mem_cons_self)
    refine ⟨t', ?_, hconserved'⟩
    rw [Run.exec_append, ht, Option.bind_some, Run.exec_cons, ht', Option.bind_some,
      Run.exec_nil]

lemma selectPayloadLength_pos {max : ℕ} (hpos : 0 < max) (hmax : max < 2 ^ 31)
    (hfilled : ∀ chunk ∈ s.source.chunks, chunk.isEmpty = false) (hpending : s.pending ≠ []) :
    0 < (clientSelectPayloadLength s max).1 := by
  unfold clientSelectPayloadLength
  rcases hchunks : s.source.chunks with _ | ⟨chunk, rest⟩
  · exact absurd (by rw [State.pending, hchunks]; rfl) hpending
  have hint : toInt max = max := by
    exact Int.bmod_eq_of_le (by norm_num) (by norm_num; omega)
  have hsize : 0 < chunk.size := by
    have hempty := hfilled chunk (hchunks ▸ List.mem_cons_self)
    rw [← chunk.length_readable, List.length_pos_iff, ne_eq, ← chunk.isEmpty_iff, hempty]
    exact Bool.false_ne_true
  show 0 < Min.min (chunk.size : ℤ) (toInt max)
  rw [hint, lt_min_iff]
  omega

/-- The two copies are the same. Whatever calls are made, with chunks that are not empty, they all
return, and the payload of the frames and the chunks left are together the chunks added, in order.
A frame that ends the stream comes after `set_last_frame(true)` and with the last byte there is, or
behind it; and while bytes are left, a frame with room takes some of them. -/
theorem emits_chunks :
    client = server ∧ ∀ (callback : Bool) (blockedStream : ℕ) (es : List Event),
      (∀ chunk, Event.addChunk chunk ∈ es → chunk.isEmpty = false) →
      ∃ t, Run.exec (step client) (start callback blockedStream) es = some t ∧
        t.emitted ++ t.state.pending = added es ∧
        ∀ header max, ∃ t' frames, step client t (.frame header max) = some t' ∧
          t'.frames = t.frames ++ frames ∧
          (∀ frame ∈ frames, frame.fin = true →
            Event.setLastFrame true ∈ es ∧ t'.emitted = added es) ∧
          (0 < max → max < 2 ^ 31 → t.state.pending ≠ [] → t.emitted ≠ t'.emitted) := by
  refine ⟨copies_agree, fun callback blockedStream es hes => ?_⟩
  obtain ⟨t, ht, hconserved⟩ := conserved_exec callback blockedStream hes
  refine ⟨t, ht, hconserved.bytes, fun header max => ?_⟩
  obtain ⟨t', frames, ht', hframes, hbytes, -, -, hfin, hsome⟩ :=
    step_frame header max hconserved.filled
  have hemitted : t'.emitted = t.emitted ++ (frames.map Sent.payload).flatten := by
    rw [Stream.emitted, hframes, List.map_append, List.flatten_append]
    rfl
  refine ⟨t', frames, ht', hframes, fun frame hframe hframefin => ?_, fun hpos hmax hpending => ?_⟩
  · obtain ⟨hlast, hnothing⟩ := hfin frame hframe hframefin
    refine ⟨hconserved.marked hlast, ?_⟩
    rw [hnothing, List.append_nil] at hbytes
    rw [hemitted, hbytes, hconserved.bytes]
  have hpayload := hsome (selectPayloadLength_pos hpos hmax hconserved.filled hpending)
  rw [hemitted]
  exact fun h => hpayload (List.append_right_eq_self.mp h.symm)

theorem emits_chunks_sample :
    let chunks : List Event := [.addChunk (.copyBuffer [1, 2, 3]), .addChunk (.copyBuffer [4])]
    let es := chunks ++ [.frame [0] 2, .setLastFrame true, .select 9, .frame [0] 9]
    ∃ t, Run.exec (step client) (start false 7) es = some t ∧
      t.emitted ++ t.state.pending = [1, 2, 3, 4] ∧ t.emitted = [1, 2, 3] ∧
      ∃ t' frames, step client t (.frame [0] 1) = some t' ∧ t'.frames = t.frames ++ frames ∧
        ∀ frame ∈ frames, frame.fin = true → t'.emitted = [1, 2, 3, 4] := by
  intro chunks es
  have hes : ∀ chunk, Event.addChunk chunk ∈ es → chunk.isEmpty = false := by
    intro chunk h
    simp [es, chunks] at h
    rcases h with rfl | rfl
    · rfl
    · rfl
  obtain ⟨t, ht, hbytes, hframe⟩ := emits_chunks.2 false 7 es hes
  obtain ⟨t', frames, ht', hframes, hfin, -⟩ := hframe [0] 1
  have ht₀ : t.emitted = [1, 2, 3] := by
    have hrun : (Run.exec (step client) (start false 7) es).map Stream.emitted =
        some [1, 2, 3] := by decide
    rw [ht] at hrun
    exact Option.some.inj hrun
  exact ⟨t, ht, hbytes, ht₀, t', frames, ht', hframes, fun frame h h' => (hfin frame h h').2⟩

end Yass.Net.FrameSource
