import Yass.Server.Http2

/-!
# One HTTP/2 stream after another

Every accepted `CONNECT` opens a channel of its own, but the upstream queue, the number of padded
chunks and the chunk that is being put together are those of the connection.

* `dataOf` — the payload the adapter has reported for a stream.

Source: `server/server_connection.cpp`.
-/

namespace Yass.Server.Http2

open Yass.Net
open Connection

/-! ## What streams carry -/

namespace Connection

def dataOf (s : Connection) (id : ℕ) : List UInt8 :=
  ((s.data.filter fun piece => piece.1 = id).map Prod.snd).flatten

/-- The bytes of `padding_in_middle_buf_`. -/
def kept (s : Connection) : List UInt8 :=
  (s.paddingInMiddleBuf.map GrowableIOBuffer.readable).getD []

def records (s : Connection) : List Channel := s.channels.map Channel.record

end Connection

/-- Every channel has got the payload of its stream and nothing else. -/
structure Isolated (s : Connection) : Prop where
  current : ∀ ch ∈ s.channels.head?,
    ch.written ++ s.queued = unpadded ch.padding (s.dataOf ch.stream)
  earlier : ∀ ch ∈ s.channels.tail, ch.written = unpadded ch.padding (s.dataOf ch.stream)

/-! ## The condition -/

structure Clean (s : Connection) (id : ℕ) : Prop where
  new : id ∉ s.channels.map Channel.stream
  queued : s.queued = []
  numPaddingRecv : (s.paddingSupportInFact && s.contains paddingField) = true → s.numPaddingRecv = 0
  kept : (s.paddingSupportInFact && s.contains paddingField) = true → s.kept = []

instance (s : Connection) (id : ℕ) : Decidable (Clean s id) :=
  decidable_of_iff (_ ∧ _ ∧ _ ∧ _) ⟨fun ⟨h₁, h₂, h₃, h₄⟩ => ⟨h₁, h₂, h₃, h₄⟩,
    fun ⟨h₁, h₂, h₃, h₄⟩ => ⟨h₁, h₂, h₃, h₄⟩⟩

/-- Streams do not meet: a `CONNECT` is accepted when the connection is clean, and payload is of the
stream that was connected last. -/
def Separate (env : Environment) (cfg : Credentials) (s : Connection) : Event → Prop
  | .endHeaders id => (s.request env cfg).isSome = true → Clean s id
  | .data id _ => s.channels.head?.map Channel.stream = some id
  | _ => True

instance (env : Environment) (cfg : Credentials) (s : Connection) :
    (e : Event) → Decidable (Separate env cfg s e)
  | .endHeaders _ => inferInstanceAs (Decidable (_ → _))
  | .data _ _ => inferInstanceAs (Decidable (_ = _))
  | .frameHeader _ | .beginHeaders _ | .header _ _ _ | .endStream _ | .closeStream _
  | .invalidFrame _ | .rstStream _ | .goAway | .connectionError | .connected _ | .write _
  | .writeFailed | .lost _ | .streamWrite _ => isTrue trivial

/-! ## Payload -/

section Payload

variable {env : Environment} {s s' : Connection} {id : ℕ} {bytes : List UInt8}

lemma dataOf_of_data_eq (h : s'.data = s.data ++ [(id, bytes)]) (id' : ℕ) :
    s'.dataOf id' = s.dataOf id' ++ if id = id' then bytes else [] := by
  unfold dataOf
  rw [h, List.filter_append, List.map_append, List.flatten_append]
  by_cases heq : id = id' <;> simp [heq]

lemma inMiddle_spec (env : Environment) (s : Connection) (bytes : List UInt8) :
    ∃ buf, s.inMiddle env bytes = some buf ∧ buf.readable = s.kept ++ bytes := by
  unfold inMiddle kept
  cases s.paddingInMiddleBuf with
  | none => exact ⟨_, rfl, by simp⟩
  | some previous =>
    obtain ⟨buf, hbuf, hread, -⟩ :=
      GrowableIOBuffer.concat_spec env.junk previous (.copyBuffer bytes)
    exact ⟨buf, hbuf, by simpa using hread⟩

lemma onDataForStream_plain (env : Environment) (id : ℕ) (bytes : List UInt8)
    (h : s.paddingSupportInFact = false ∨ kFirstPaddings ≤ s.numPaddingRecv) :
    ∃ s', s.onDataForStream env id bytes = some s' ∧ s'.queued = s.queued ++ bytes ∧
      s'.numPaddingRecv = s.numPaddingRecv := by
  have hplain : (s.paddingSupportInFact && decide (s.numPaddingRecv < kFirstPaddings)) = false := by
    rcases h with h | h
    · simp [h]
    · simp [Nat.not_lt.mpr h]
  refine ⟨{ s with
    data := s.data ++ [(id, bytes)]
    upstream := s.upstream ++ [.copyBuffer bytes] }, ?_, ?_, rfl⟩
  · simp only [onDataForStream, hplain, Bool.false_eq_true, if_false]
  · simp [queued]

/-- **Padded payload.** What is complete is queued without its padding, and the rest is kept. -/
lemma onDataForStream_padded (env : Environment) (id : ℕ) (bytes : List UInt8)
    (hpadding : s.paddingSupportInFact) (hnum : s.numPaddingRecv < kFirstPaddings) :
    let t := paddingFramer.drain s.numPaddingRecv (s.kept ++ bytes)
    ∃ s', s.onDataForStream env id bytes = some s' ∧ s'.numPaddingRecv = t.state ∧
      (t.state < kFirstPaddings → s'.kept = t.rest) ∧
      s'.queued =
        s.queued ++ (t.items.flatten ++ if t.state < kFirstPaddings then [] else t.rest) := by
  intro t
  obtain ⟨buf, hbuf, hread⟩ := inMiddle_spec env { s with data := s.data ++ [(id, bytes)] } bytes
  obtain ⟨payloads, rest, left, hloop, hstate, hrest, hitems⟩ :=
    removePaddings_drain env.junk hnum buf
  rw [hread] at hstate hrest hitems
  have hguard : (s.paddingSupportInFact && decide (s.numPaddingRecv < kFirstPaddings)) = true := by
    simp [hpadding, hnum]
  rw [show t.state = _ from hstate, show t.rest = _ from hrest, show t.items = _ from hitems]
  unfold onDataForStream
  simp only [hguard, if_true, hbuf, hloop, Option.bind_eq_bind, Option.bind_some]
  have hpos : 0 < kFirstPaddings := by decide
  by_cases hdone : left = 0
  · have hend : ¬ kFirstPaddings - left < kFirstPaddings := by omega
    rw [if_neg hend]
    by_cases hempty : rest.isEmpty
    · refine ⟨_, by rw [if_neg (by simp [hempty])], rfl, fun h => absurd h hend, ?_⟩
      simp [queued, rest.isEmpty_iff.mp hempty]
    · refine ⟨_, by rw [if_pos ⟨hdone, hempty⟩], rfl, fun h => absurd h hend, ?_⟩
      simp [queued]
  have hmore : kFirstPaddings - left < kFirstPaddings := by omega
  rw [if_pos hmore]
  refine ⟨_, by rw [if_neg (by simp [hdone])], rfl, fun _ => rfl, ?_⟩
  simp [queued]

end Payload

/-! ## The invariant -/

/-- `Isolated`, with what it takes to go on: the padding state is that of the stream of `channel_`,
and no other stream has sent anything. -/
structure Apart (s : Connection) : Prop where
  current : ∀ ch ∈ s.records.head?,
    ch.written ++ s.queued = unpadded ch.padding (s.dataOf ch.stream)
  padding : ∀ ch ∈ s.records.head?, ch.padding = s.paddingSupportInFact
  unpadding : ∀ ch ∈ s.records.head?, ch.padding = true →
    Unpadding (s.dataOf ch.stream) s.numPaddingRecv s.kept
  earlier : ∀ ch ∈ s.records.tail, ch.written = unpadded ch.padding (s.dataOf ch.stream)
  distinct : (s.records.map Channel.stream).Nodup
  unopened : ∀ id ∉ s.records.map Channel.stream, s.dataOf id = []

section Invariant

variable {env : Environment} {cfg : Credentials} {s s' : Connection}

lemma streams_records (s : Connection) :
    s.records.map Channel.stream = s.channels.map Channel.stream := by
  rw [records, List.map_map]
  rfl

lemma Apart.isolated (h : Apart s) : Isolated s := by
  constructor
  · intro ch hch
    apply h.current ch.record
    rw [records, List.head?_map]
    exact Option.mem_map_of_mem Channel.record hch
  intro ch hch
  apply h.earlier ch.record
  rw [records, ← List.map_tail]
  exact List.mem_map_of_mem hch

lemma Apart.of_quiet (h : Apart s) (hquiet : Quiet s s') : Apart s' := by
  have hrecords : s'.records = s.records := hquiet.records_eq
  have hqueued : s'.queued = s.queued := by
    rw [queued, hquiet.upstream_eq]
    rfl
  have hkept : s'.kept = s.kept := by
    rw [kept, hquiet.paddingInMiddleBuf_eq]
    rfl
  have hdata : s'.dataOf = s.dataOf := by
    funext id
    rw [dataOf, hquiet.data_eq]
    rfl
  constructor
  · rw [hrecords, hqueued, hdata]
    exact h.current
  · rw [hrecords, hquiet.paddingSupportInFact_eq]
    exact h.padding
  · rw [hrecords, hdata, hquiet.numPaddingRecv_eq, hkept]
    exact h.unpadding
  · rw [hrecords, hdata]
    exact h.earlier
  · rw [hrecords]
    exact h.distinct
  · rw [hrecords, hdata]
    exact h.unopened

lemma Apart.accepted (h : Apart s) {id : ℕ} {target : Target}
    (hrequest : s.request env cfg = some target) (hclean : Clean s id) :
    Apart (s.onEndHeadersForStream env cfg id) := by
  have hnew := hclean.new
  rw [← streams_records] at hnew
  have hnone := h.unopened id hnew
  rw [onEndHeadersForStream_of_some hrequest]
  constructor
  · rintro ch ⟨⟩
    show [] ++ s.queued = unpadded _ (s.dataOf id)
    rw [hclean.queued, hnone, unpadded_nil]
    rfl
  · rintro ch ⟨⟩
    rfl
  · rintro ch ⟨⟩ hpadding
    show Unpadding (s.dataOf id) s.numPaddingRecv s.kept
    rw [hnone, hclean.numPaddingRecv hpadding, hclean.kept hpadding]
    exact unpadding_nil
  · intro ch hch
    change ch ∈ s.records at hch
    cases hrecords : s.records with
    | nil =>
      rw [hrecords] at hch
      cases hch
    | cons last earlier =>
      rw [hrecords] at hch
      rcases List.mem_cons.mp hch with rfl | hch
      -- the queue is empty, so that the last stream has been written to its end
      · have hcurrent := h.current ch (by rw [hrecords]; rfl)
        rwa [hclean.queued, List.append_nil] at hcurrent
      apply h.earlier
      rw [hrecords]
      exact hch
  · exact List.nodup_cons.mpr ⟨hnew, h.distinct⟩
  · intro id' hid'
    exact h.unopened id' fun hmem => hid' (List.mem_cons_of_mem _ hmem)

lemma Apart.append (h : Apart s) {ch : Channel} {chs : List Channel}
    (hrecords : s.records = ch :: chs) {bytes more : List UInt8}
    (hcall : s.onDataForStream env ch.stream bytes = some s')
    (hqueued : s'.queued = s.queued ++ more)
    (hmore : unpadded ch.padding (s.dataOf ch.stream ++ bytes) =
      unpadded ch.padding (s.dataOf ch.stream) ++ more)
    (hunpadding : ch.padding = true →
      Unpadding (s.dataOf ch.stream ++ bytes) s'.numPaddingRecv s'.kept) : Apart s' := by
  obtain ⟨hchannels, -, -, hinfact, hdata⟩ := onDataForStream_frame hcall
  have hrecords' : s'.records = ch :: chs := by
    rw [← hrecords, records, hchannels]
    rfl
  have hdistinct := h.distinct
  rw [hrecords, List.map_cons, List.nodup_cons] at hdistinct
  have hself : s'.dataOf ch.stream = s.dataOf ch.stream ++ bytes := by
    rw [dataOf_of_data_eq hdata, if_pos rfl]
  have hother : ∀ id, ch.stream ≠ id → s'.dataOf id = s.dataOf id := by
    intro id hne
    rw [dataOf_of_data_eq hdata, if_neg hne, List.append_nil]
  have hfirst : ch ∈ s.records.head? := by
    rw [hrecords]
    rfl
  constructor
  · rw [hrecords']
    rintro _ ⟨⟩
    rw [hqueued, hself, hmore, ← h.current ch hfirst, List.append_assoc]
  · rw [hrecords', hinfact]
    rintro _ ⟨⟩
    exact h.padding ch hfirst
  · rw [hrecords']
    rintro _ ⟨⟩ hpadding
    rw [hself]
    exact hunpadding hpadding
  · rw [hrecords']
    intro old hold
    have hne : ch.stream ≠ old.stream := fun heq =>
      hdistinct.1 (heq ▸ List.mem_map_of_mem hold)
    rw [hother _ hne]
    apply h.earlier
    rw [hrecords]
    exact hold
  · rw [hrecords', ← hrecords]
    exact h.distinct
  rw [hrecords', ← hrecords]
  intro id hid
  have hne : ch.stream ≠ id := by
    rintro rfl
    apply hid
    rw [hrecords]
    exact List.mem_cons_self
  rw [hother id hne]
  exact h.unopened id hid

lemma Apart.onDataForStream (env : Environment) (h : Apart s) {id : ℕ}
    (hhead : s.channels.head?.map Channel.stream = some id) (bytes : List UInt8) :
    ∃ s', s.onDataForStream env id bytes = some s' ∧ Apart s' := by
  obtain ⟨ch, chs, hrecords, rfl⟩ : ∃ ch chs, s.records = ch :: chs ∧ ch.stream = id := by
    cases hchannels : s.channels with
    | nil => simp [hchannels] at hhead
    | cons ch chs =>
      have hstream : ch.stream = id := by simpa [hchannels] using hhead
      have hrecords : s.records = ch.record :: chs.map Channel.record := by
        rw [records, hchannels]
        rfl
      exact ⟨ch.record, chs.map Channel.record, hrecords, hstream⟩
  have hfirst : ch ∈ s.records.head? := by
    rw [hrecords]
    rfl
  have hinfact := h.padding ch hfirst
  cases hpadding : ch.padding with
  | false =>
    obtain ⟨s', hs', hqueued, -⟩ :=
      onDataForStream_plain env ch.stream bytes (Or.inl (hinfact.symm.trans hpadding))
    refine ⟨s', hs', ?_⟩
    apply h.append hrecords hs' hqueued
    · rw [hpadding]
      rfl
    rw [hpadding]
    intro hno
    cases hno
  | true =>
    have hbefore := h.unpadding ch hfirst hpadding
    rw [hpadding] at hinfact
    by_cases hnum : s.numPaddingRecv < kFirstPaddings
    · obtain ⟨s', hs', hstate, hkept, hqueued⟩ :=
        onDataForStream_padded env ch.stream bytes hinfact.symm hnum
      obtain ⟨hafter, hmore⟩ := hbefore.append_of_lt hnum bytes
      refine ⟨s', hs', ?_⟩
      apply h.append hrecords hs' hqueued
      · rw [hpadding, hmore, List.append_assoc]
      intro _
      refine ⟨hafter.num_eq.trans hstate.symm, ?_⟩
      intro hlt
      rw [hstate] at hlt
      rw [hkept hlt]
      exact hafter.kept_eq hlt
    obtain ⟨s', hs', hqueued, hsame⟩ :=
      onDataForStream_plain env ch.stream bytes (Or.inr (Nat.le_of_not_lt hnum))
    obtain ⟨hafter, hmore⟩ := hbefore.append_of_ge (Nat.le_of_not_lt hnum) bytes s'.kept
    refine ⟨s', hs', ?_⟩
    apply h.append hrecords hs' hqueued
    · rw [hpadding, hmore]
    intro _
    rw [hsame]
    exact hafter

lemma Apart.writeUpstream (h : Apart s) {n : ℕ} (hwrite : s.writeUpstream n = some s') :
    Apart s' := by
  obtain rfl | ⟨ch, chs, sent, upstream, hchannels, hqueued, rfl⟩ := writeUpstream_eq_some hwrite
  · exact h
  have hrecords : s.records = ch.record :: chs.map Channel.record := by
    rw [records, hchannels]
    rfl
  have hfirst : ch.record ∈ s.records.head? := by
    rw [hrecords]
    rfl
  constructor
  · rintro _ ⟨⟩
    have hcurrent := h.current ch.record hfirst
    rw [hqueued, ← List.append_assoc] at hcurrent
    exact hcurrent
  · rintro _ ⟨⟩
    exact h.padding ch.record hfirst
  · rintro _ ⟨⟩
    exact h.unpadding ch.record hfirst
  · intro old hold
    apply h.earlier
    rw [hrecords]
    exact hold
  · have hdistinct := h.distinct
    rw [hrecords] at hdistinct
    exact hdistinct
  have hunopened := h.unopened
  rw [hrecords] at hunopened
  exact hunopened

lemma exists_step (h : Apart s) {e : Event} (hreported : Reported s e)
    (hseparate : Separate env cfg s e) : ∃ s', step env cfg s e = some s' := by
  unfold step
  split_ifs with hreport hfailed hclosed
  · exact ⟨s, rfl⟩
  · cases e with
    | data id bytes =>
      obtain ⟨s', hs', -⟩ := h.onDataForStream env hseparate bytes
      exact ⟨s', hs'⟩
    | _ => exact ⟨_, rfl⟩
  · exact ⟨s, rfl⟩
  · cases e with
    | write n => exact exists_writeUpstream hreported
    | lost drained => exact ⟨_, if_neg hreported⟩
    | _ => exact ⟨_, rfl⟩

lemma Apart.step (h : Apart s) {e : Event} (hreported : Reported s e)
    (hseparate : Separate env cfg s e) : ∃ s', step env cfg s e = some s' ∧ Apart s' := by
  obtain ⟨s', hs'⟩ := exists_step h hreported hseparate
  refine ⟨s', hs', ?_⟩
  cases effect_of_step hs' with
  | quiet hquiet => exact h.of_quiet hquiet
  | beginHeaders id | header id key value => exact { h with }
  | accepted id hrequest => exact h.accepted hrequest (hseparate (by rw [hrequest]; rfl))
  | data id bytes hcall =>
    obtain ⟨s'', hs'', h''⟩ := h.onDataForStream env hseparate bytes
    rw [hcall] at hs''
    cases hs''
    exact h''
  | write n hwrite => exact h.writeUpstream hwrite

lemma apart_start (env : Environment) : Apart (start env) := by
  refine ⟨?_, ?_, ?_, ?_, List.nodup_nil, fun _ _ => rfl⟩
  all_goals
    rintro ch ⟨⟩

end Invariant

/-- **Streams are isolated.** In every run whose steps are separate, nothing stops the connection,
and what was written to each channel is, in order, the payload of the stream whose `CONNECT` opened
it, without the padding that was negotiated for it: all of it for a channel that has been replaced,
and up to what is still queued for `channel_`. -/
theorem streams_isolated (env : Environment) (cfg : Credentials) (es : List Event)
    (hes : Run.Along (step env cfg) (fun s e => Reported s e ∧ Separate env cfg s e)
      (start env) es) :
    ∃ s, Run.exec (step env cfg) (start env) es = some s ∧ Isolated s := by
  obtain ⟨s, hs, hapart⟩ :=
    Run.exec_invariant (fun s e h hc => h.step hc.1 hc.2) (apart_start env) hes
  exact ⟨s, hs, hapart.isolated⟩

theorem streams_isolated_sample :
    ∃ s, Run.exec (step sampleHttp2 ⟨[], []⟩) (start sampleHttp2)
        (sampleConnect 1 [(paddingField, [126])] ++
          [.connected 0, .frameHeader 1, .data 1 [0, 1], .data 1 [1, 7, 0], .write 1,
            .closeStream 1] ++ sampleConnect 3 [] ++
          [.connected 0, .frameHeader 3, .data 3 [9], .write 1]) = some s ∧ Isolated s :=
  streams_isolated sampleHttp2 ⟨[], []⟩ _ (by decide +kernel)

/-- The channel of stream 1 is lost. The client, which has not seen that yet, sends a byte and the
end of the stream, and connects stream 3, all in one read. -/
def sampleLeak : List Event :=
  sampleConnect 1 [] ++
    [.connected 0, .lost true, .frameHeader 1, .data 1 [7], .endStream 1, .closeStream 1] ++
    sampleConnect 3 [] ++ [.connected 0, .write 1]

/-- **Failure.** The byte of stream 1 is written to the channel of stream 3, which has sent
nothing. -/
theorem byte_of_earlier_stream_written :
    Run.Along (step sampleHttp2 ⟨[], []⟩) Reported (start sampleHttp2) sampleLeak ∧
    ∃ s ch, Run.exec (step sampleHttp2 ⟨[], []⟩) (start sampleHttp2) sampleLeak = some s ∧
      ch ∈ s.channels ∧ ch.stream = 3 ∧ ch.written = [7] ∧ s.dataOf 3 = [] ∧ ¬ Isolated s := by
  refine ⟨by decide +kernel, ?_⟩
  have hrun : ((Run.exec (step sampleHttp2 ⟨[], []⟩) (start sampleHttp2) sampleLeak).map fun s =>
      (s.channels.head?, s.dataOf 3)) =
      some (some ⟨3, [(methodField, connectMethod), (authorityField, [104])], ⟨[104], 443⟩, false,
        true, false, [7]⟩, []) := by decide +kernel
  obtain ⟨s, hs, hvalues⟩ := Option.map_eq_some_iff.mp hrun
  obtain ⟨hhead, hdata⟩ := Prod.mk.inj hvalues
  refine ⟨s, _, hs, List.mem_of_head? hhead, rfl, rfl, hdata, ?_⟩
  intro hisolated
  have hcurrent := hisolated.current _ hhead
  rw [hdata, unpadded_nil] at hcurrent
  cases hcurrent

end Yass.Server.Http2
