import Yass.Lib.Run

/-!
# Messages that must each arrive in one piece

A receiver expects a sequence of messages and has a recogniser for each. It gets a stream in reads
and looks at each read alone: the next recogniser is tried at its start, what is left goes to the
one after it, and what is left behind the last one is delivered. The receiver ends where a
recogniser does not accept.

* `Message` — a message with its recogniser, which accepts no part of it. One that is `good` is
  accepted whatever follows it, any other one is refused.
-/

namespace Staged

universe u

variable {β : Type u}

def feed : List (List β → Option ℕ) → List β → Option (List (List β → Option ℕ) × List β)
  | [], bytes => some ([], bytes)
  | p :: ps, bytes =>
    (p bytes).bind fun n =>
      if (bytes.drop n).isEmpty then some (ps, []) else feed ps (bytes.drop n)

/-- A receiver: the recognisers that are left, and what was delivered. -/
structure Receiver (β : Type u) where
  left : List (List β → Option ℕ)
  delivered : List β

def Receiver.read (r : Receiver β) (bytes : List β) : Option (Receiver β) :=
  (feed r.left bytes).map fun x => ⟨x.1, r.delivered ++ x.2⟩

structure Message (β : Type u) where
  recogniser : List β → Option ℕ
  bytes : List β
  good : Prop
  ne_nil : bytes ≠ []
  taken : good → ∀ rest, recogniser (bytes ++ rest) = some bytes.length
  short : ∀ part, part <+: bytes → part ≠ bytes → recogniser part = none
  refused : ¬ good → ∀ rest, recogniser (bytes ++ rest) = none

def recognisers (ms : List (Message β)) : List (List β → Option ℕ) := ms.map Message.recogniser

def stream (ms : List (Message β)) : List β := (ms.map Message.bytes).flatten

@[simp] lemma stream_nil : stream ([] : List (Message β)) = [] := rfl

@[simp] lemma stream_cons (m : Message β) (ms : List (Message β)) :
    stream (m :: ms) = m.bytes ++ stream ms := rfl

@[simp] lemma stream_append (ms ms' : List (Message β)) :
    stream (ms ++ ms') = stream ms ++ stream ms' := by
  simp [stream]

lemma stream_take_append_drop (ms : List (Message β)) (k : ℕ) :
    stream (ms.take k) ++ stream (ms.drop k) = stream ms := by
  rw [← stream_append, List.take_append_drop]

/-- `n` bytes end inside a message, or go beyond the start of one that is not good. -/
def Cut (ms : List (Message β)) (n : ℕ) : Prop :=
  ∃ k m, ms[k]? = some m ∧ (stream (ms.take k)).length < n ∧
    (m.good → n < (stream (ms.take (k + 1))).length)

/-! ## One read -/

variable {bytes : List β}

lemma feed_cases (ms : List (Message β)) {rest : List β} (hne : bytes ≠ [])
    (hpre : bytes <+: stream ms ++ rest) :
    (∃ k tail, feed (recognisers ms) bytes = some (recognisers (ms.drop k), tail) ∧
      bytes = stream (ms.take k) ++ tail ∧ (tail = [] ∨ ms.length ≤ k) ∧
      ∀ m ∈ ms.take k, m.good) ∨
    feed (recognisers ms) bytes = none ∧ Cut ms bytes.length := by
  induction ms generalizing bytes with
  | nil => exact .inl ⟨0, bytes, rfl, rfl, Or.inr le_rfl, by simp⟩
  | cons m ms ih =>
    rw [stream_cons, List.append_assoc] at hpre
    have hpos : 0 < bytes.length := List.length_pos_iff.mpr hne
    by_cases hshort : bytes <+: m.bytes ∧ bytes ≠ m.bytes
    · -- the read ends inside the message
      have hnone := m.short bytes hshort.1 hshort.2
      refine .inr ⟨by simp [recognisers, feed, hnone], 0, m, rfl, hpos, fun _ => ?_⟩
      have hlt : bytes.length < m.bytes.length :=
        lt_of_le_of_ne hshort.1.length_le fun heq => hshort.2 (hshort.1.eq_of_length heq)
      simpa using hlt
    obtain ⟨tail, rfl⟩ : m.bytes <+: bytes := by
      rcases List.prefix_or_prefix_of_prefix hpre (List.prefix_append _ _) with h | h
      · have heq : bytes = m.bytes := by
          by_contra hne'
          exact hshort ⟨h, hne'⟩
        exact heq ▸ List.prefix_refl _
      · exact h
    have htail : tail <+: stream ms ++ rest := (List.prefix_append_right_inj _).mp hpre
    by_cases hgood : m.good
    · have htaken := m.taken hgood tail
      by_cases hnil : tail = []
      · refine .inl ⟨1, [], ?_, ?_, Or.inl rfl, ?_⟩
        · subst hnil
          rw [List.append_nil] at htaken
          simp [recognisers, feed, htaken]
        · simp [hnil]
        · simpa using hgood
      have hfeed : feed (recognisers (m :: ms)) (m.bytes ++ tail) =
          feed (recognisers ms) tail := by
        simp [recognisers, feed, htaken, hnil]
      rw [hfeed]
      rcases ih hnil htail with
        ⟨k, t, hsome, heq, hlast, hgoods⟩ | ⟨hnone, k, m', hm, hlt, hend⟩
      · refine .inl ⟨k + 1, t, hsome, ?_, hlast.imp_right Nat.succ_le_succ, ?_⟩
        · conv_lhs => rw [heq]
          simp
        · simpa [hgood] using hgoods
      refine .inr ⟨hnone, k + 1, m', hm, ?_, fun hg => ?_⟩
      · simpa using hlt
      · simpa using hend hg
    -- the message is refused
    have hnone := m.refused hgood tail
    exact .inr ⟨by simp [recognisers, feed, hnone], 0, m, rfl, hpos,
      fun hg => absurd hg hgood⟩

/-! ## Runs -/

section Runs

variable {ms : List (Message β)} {reads : List (List β)} {rest : List β} {r : Receiver β}

/-- What a receiver has taken: the first messages, all of them good, and what came behind the last
one is delivered. -/
structure Took (ms : List (Message β)) (bytes : List β) (r : Receiver β) (k : ℕ) : Prop where
  le : k ≤ ms.length
  left : r.left = recognisers (ms.drop k)
  bytes_eq : bytes = stream (ms.take k) ++ r.delivered
  behind : r.delivered = [] ∨ k = ms.length
  good : ∀ m ∈ ms.take k, m.good

variable {k : ℕ} {taken : List β}

lemma Took.next (h : Took ms taken r k) (hpre : taken ++ bytes <+: stream ms ++ rest) :
    ∃ rest', bytes <+: stream (ms.drop k) ++ rest' := by
  rcases h.behind with hnil | hk
  · refine ⟨rest, ?_⟩
    rw [h.bytes_eq, hnil, List.append_nil, ← stream_take_append_drop ms k,
      List.append_assoc] at hpre
    exact (List.prefix_append_right_inj _).mp hpre
  · exact ⟨bytes, by simp [hk]⟩

lemma Took.read {r' : Receiver β} (h : Took ms taken r k)
    (hne : bytes ≠ []) (hpre : taken ++ bytes <+: stream ms ++ rest)
    (hread : r.read bytes = some r') : ∃ k', Took ms (taken ++ bytes) r' k' := by
  obtain ⟨rest', hnext⟩ := h.next hpre
  obtain ⟨x, hfeed, rfl⟩ := Option.map_eq_some_iff.mp hread
  rw [h.left] at hfeed
  rcases feed_cases (ms.drop k) hne hnext with ⟨j, tail, hsome, heq, hlast, hgood⟩ | ⟨hnone, -⟩
  · rw [hsome] at hfeed
    cases hfeed
    have hle := h.le
    -- `j` may be larger than the number of messages there are
    refine ⟨min (k + j) ms.length, Nat.min_le_right _ _, ?_, ?_, ?_, ?_⟩
    · rcases le_total (k + j) ms.length with hj | hj
      · rw [Nat.min_eq_left hj, List.drop_drop]
      · rw [Nat.min_eq_right hj, List.drop_drop, List.drop_of_length_le hj, List.drop_length]
    · have htake : stream (ms.take (min (k + j) ms.length)) =
          stream (ms.take k) ++ stream ((ms.drop k).take j) := by
        rw [← stream_append, ← List.take_add, ← List.take_eq_take_min]
      rw [htake, h.bytes_eq]
      rcases h.behind with hnil | hk
      · simp [hnil, heq]
      · simp [hk] at heq
        simp [hk, heq]
    · rcases h.behind with hnil | hk
      · rcases hlast with htail | hj
        · exact .inl (by simp [hnil, htail])
        refine .inr ?_
        rw [List.length_drop] at hj
        omega
      · exact .inr (by omega)
    intro m hm
    rw [← List.take_eq_take_min, List.take_add] at hm
    rcases List.mem_append.mp hm with hm | hm
    · exact h.good m hm
    · exact hgood m hm
  · rw [hnone] at hfeed
    cases hfeed

/-- **What a receiver takes.** -/
theorem run_spec (hne : ∀ bytes ∈ reads, bytes ≠ []) (hpre : reads.flatten <+: stream ms ++ rest)
    (hrun : Run.exec Receiver.read ⟨recognisers ms, []⟩ reads = some r) :
    ∃ k, Took ms reads.flatten r k := by
  refine Run.exec_keeps_history (I := fun reads r => (∀ bytes ∈ reads, bytes ≠ []) →
    reads.flatten <+: stream ms ++ rest → ∃ k, Took ms reads.flatten r k)
    (fun reads r bytes r' ih hread hne hpre => ?_) (fun _ _ => ?_) hrun hne hpre
  · rw [List.flatten_append, List.flatten_singleton] at hpre ⊢
    obtain ⟨k, htook⟩ := ih (fun b hb => hne b (List.mem_append_left _ hb))
      ((List.prefix_append _ _).trans hpre)
    exact htook.read (hne bytes (by simp)) hpre hread
  · exact ⟨0, Nat.zero_le _, rfl, rfl, Or.inl rfl, by simp⟩

lemma Took.delivered_eq (h : Took ms taken r k) :
    r.delivered = taken.drop (stream ms).length := by
  rcases h.behind with hnil | hk
  · rw [hnil, eq_comm, List.drop_eq_nil_iff, h.bytes_eq, hnil, List.append_nil,
      ← stream_take_append_drop ms k, List.length_append]
    exact Nat.le_add_right _ _
  · rw [h.bytes_eq, hk, List.take_length, List.drop_left]

lemma Took.left_nil (h : Took ms taken r k)
    (hall : (stream ms).length ≤ taken.length) : r.left = [] := by
  rw [h.left]
  rcases h.behind with hnil | hk
  · have hlength := congrArg List.length h.bytes_eq
    rw [hnil, List.append_nil] at hlength
    rw [hlength, ← stream_take_append_drop ms k, List.length_append] at hall
    have hrest : stream (ms.drop k) = [] := List.length_eq_zero_iff.mp (by omega)
    cases hdrop : ms.drop k with
    | nil => rfl
    | cons m rest =>
      rw [hdrop, stream_cons, List.append_eq_nil_iff] at hrest
      exact absurd hrest.1 m.ne_nil
  · rw [hk, List.drop_length]
    rfl

lemma Took.not_cut (h : Took ms taken r k) : ¬ Cut ms taken.length := by
  rintro ⟨i, m, hm, hstart, hend⟩
  have htaken : (stream (ms.take k)).length ≤ taken.length := by
    rw [h.bytes_eq, List.length_append]
    exact Nat.le_add_right _ _
  obtain ⟨hi, hget⟩ := List.getElem?_eq_some_iff.mp hm
  by_cases hik : i < k
  · -- the message was taken as a whole
    have hmem : m ∈ ms.take k := by
      rw [← hget]
      exact List.mem_take_iff_getElem.mpr ⟨i, by omega, rfl⟩
    have hsub : stream (ms.take (i + 1)) <+: stream (ms.take k) := by
      have hsplit := stream_take_append_drop (ms.take k) (i + 1)
      rw [List.take_take, Nat.min_eq_left hik] at hsplit
      exact ⟨_, hsplit⟩
    have := hend (h.good m hmem)
    have := hsub.length_le
    omega
  rcases h.behind with hnil | hk
  · have hsub : stream (ms.take k) <+: stream (ms.take i) := by
      have hsplit := stream_take_append_drop (ms.take i) k
      rw [List.take_take, Nat.min_eq_left (by omega)] at hsplit
      exact ⟨_, hsplit⟩
    have := hsub.length_le
    rw [h.bytes_eq, hnil, List.append_nil] at hstart
    omega
  · omega

/-- **Segmentation.** A receiver goes on exactly as long as no read ends at a cut. -/
theorem run_isSome_iff (hne : ∀ bytes ∈ reads, bytes ≠ [])
    (hpre : reads.flatten <+: stream ms ++ rest) :
    (∃ r, Run.exec Receiver.read ⟨recognisers ms, []⟩ reads = some r) ↔
      ∀ j ≤ reads.length, ¬ Cut ms (reads.take j).flatten.length := by
  have hpart : ∀ rs, rs <+: reads → (∀ bytes ∈ rs, bytes ≠ []) ∧
      rs.flatten <+: stream ms ++ rest := by
    rintro rs ⟨rs', rfl⟩
    rw [List.flatten_append] at hpre
    exact ⟨fun b hb => hne b (List.mem_append_left _ hb), (List.prefix_append _ _).trans hpre⟩
  constructor
  · rintro ⟨r, hrun⟩ j -
    obtain ⟨hne', hpre'⟩ := hpart _ (List.take_prefix j reads)
    rw [← List.take_append_drop j reads, Run.exec_append] at hrun
    obtain ⟨r₁, hrun₁, -⟩ := Option.bind_eq_some_iff.mp hrun
    obtain ⟨k, htook⟩ := run_spec hne' hpre' hrun₁
    exact htook.not_cut
  intro hcut
  by_contra hnone
  have hstop : Run.exec Receiver.read ⟨recognisers ms, []⟩ reads = none := by
    rw [Option.eq_none_iff_forall_ne_some]
    exact fun r hr => hnone ⟨r, hr⟩
  obtain ⟨rs, bytes, rs', r, rfl, hrun, hread⟩ := Run.exec_eq_none hstop
  obtain ⟨hne', hpre'⟩ := hpart rs (List.prefix_append _ _)
  obtain ⟨k, htook⟩ := run_spec hne' hpre' hrun
  have hbytes : rs.flatten ++ bytes <+: stream ms ++ rest := by
    have hsub := (hpart (rs ++ [bytes]) ⟨rs', by simp⟩).2
    simpa using hsub
  obtain ⟨rest', hnext⟩ := htook.next hbytes
  rw [Receiver.read, Option.map_eq_none_iff, htook.left] at hread
  rcases feed_cases (ms.drop k) (hne bytes (by simp)) hnext with
    ⟨_, _, hsome, -⟩ | ⟨-, i, m, hm, hstart, hend⟩
  · rw [hsome] at hread
    cases hread
  -- nothing was delivered before, so the cut is one of the whole stream
  have hk : k < ms.length := by
    have := (List.getElem?_eq_some_iff.mp hm).1
    rw [List.length_drop] at this
    omega
  have hnil := htook.behind.resolve_right hk.ne
  have htaken : rs.flatten = stream (ms.take k) := by rw [htook.bytes_eq, hnil, List.append_nil]
  have hsum : ∀ n, (stream (ms.take (k + n))).length =
      (stream (ms.take k)).length + (stream ((ms.drop k).take n)).length := by
    intro n
    rw [List.take_add, stream_append, List.length_append]
  have hread : ((rs ++ bytes :: rs').take (rs.length + 1)).flatten.length =
      (stream (ms.take k)).length + bytes.length := by
    rw [← htaken, List.take_append, List.take_of_length_le (Nat.le_succ _),
      Nat.add_sub_cancel_left]
    simp
  apply hcut (rs.length + 1) (by simp)
  rw [hread]
  refine ⟨k + i, m, by rwa [List.getElem?_drop] at hm, ?_, fun hg => ?_⟩
  · rw [hsum]
    exact Nat.add_lt_add_left hstart _
  · rw [Nat.add_assoc, hsum]
    exact Nat.add_lt_add_left (hend hg) _

end Runs

end Staged
