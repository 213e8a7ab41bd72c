import Yass.Net.Reassembly
import Yass.Server.RelayMoves

/-!
# How much a server queues for a target

An HTTP/2 connection reads the client only while its queue for the target is empty, and goes on to
read only while the queue is shorter than its window.

Source: `server/server_connection.cpp`.
-/

namespace Yass.Server.Relay

open Yass.Net
open Relation (ReflTransGen)
open Option (bind_eq_some_iff)

/-! ## Reads -/

def Visit.dataLength : Visit → ℕ
  | .data _ bytes => bytes.length
  | _ => 0

/-- A read brings no more than its buffer holds, and the adapter delivers no more data than it was
fed. -/
def UpRead.Fed (r : UpRead) : Prop :=
  ∀ bytes, r.read = .data bytes →
    bytes.length ≤ socketDebufSize ∧ (r.visits.map Visit.dataLength).sum ≤ bytes.length

def AllFed (turns : List UpTurn) : Prop := ∀ t ∈ turns, ∀ r ∈ t.reads, r.Fed

inductive Fill (env : Environment) (s : Connection) : Connection → Prop where
  | still {s' : Connection} (hmethod : s'.method = s.method) (hup : s'.up = s.up)
      (hreceiver : s.padding.SameReceiver s'.padding) : Fill env s s'
  | wrote {n written : ℕ} {empty : Bool} {up : Pipe}
      (h : s.up.writeFront n = some (up, written, empty)) : Fill env s { s with up }
  | read {r : UpRead} {bytes : List UInt8} (hread : r.read = .data bytes) (hfed : r.Fed)
      (hroom : s.up.queue.isEmpty = true ∨ s.up.byteLength < env.h2ConnWindowSize)
      {s' : Connection} (h : r.visits.foldlM (Connection.visit env) s = some s') : Fill env s s'

def Fills (env : Environment) : Connection → Connection → Prop := ReflTransGen (Fill env)

variable {env : Environment} {s s' s'' : Connection}

lemma Fills.refl (s : Connection) : Fills env s s := ReflTransGen.refl

lemma Fills.trans (h : Fills env s s') (h' : Fills env s' s'') : Fills env s s'' :=
  ReflTransGen.trans h h'

lemma Fill.fills (h : Fill env s s') : Fills env s s' := ReflTransGen.single h

/-! ## The callbacks of the adapter -/

structure Same (s s' : Connection) : Prop where
  method : s'.method = s.method
  up : s'.up = s.up
  buffer : s.padding.SameBuffer s'.padding

lemma same_onDisconnect (h : Same s s') : Same s s'.onDisconnect := by
  unfold Connection.onDisconnect
  split_ifs
  · exact h
  · exact ⟨h.method, h.up, h.buffer⟩

lemma intake_visit {v : Visit} (h : s.visit env v = some s') :
    s'.method = s.method ∧
      Intake v.dataLength s.up.byteLength s.padding s'.up.byteLength s'.padding := by
  have hsame : ∀ {s' : Connection}, Same s s' → s'.method = s.method ∧
      Intake 0 s.up.byteLength s.padding s'.up.byteLength s'.padding := by
    intro s' hs
    refine ⟨hs.method, intake_of_sameBuffer ?_ hs.buffer⟩
    rw [hs.up]
  cases v with
  | frameHeader id =>
    cases h
    apply hsame
    have hid : Same s (if s.streamId = 0 then { s with streamId := id } else s) := by
      split_ifs <;> exact ⟨rfl, rfl, rfl, rfl⟩
    generalize (if s.streamId = 0 then { s with streamId := id } else s) = s₁ at hid ⊢
    split_ifs
    · exact same_onDisconnect ⟨hid.method, hid.up, hid.buffer⟩
    · exact hid
  | endHeaders id field =>
    cases h
    apply hsame
    unfold Connection.onConnect Connection.record
    dsimp only
    split_ifs <;> exact ⟨rfl, rfl, rfl, rfl⟩
  | data id bytes =>
    obtain ⟨⟨padding, bufs⟩, hreceive, h⟩ := bind_eq_some_iff.mp h
    cases h
    exact ⟨rfl, intake_receive hreceive s.up⟩
  | closeStream id =>
    cases h
    apply hsame
    split_ifs <;> exact ⟨rfl, rfl, rfl, rfl⟩
  | connectionError =>
    cases h
    exact hsame (same_onDisconnect ⟨rfl, rfl, rfl, rfl⟩)
  | disconnect =>
    cases h
    exact hsame (same_onDisconnect ⟨rfl, rfl, rfl, rfl⟩)

lemma intake_visits {visits : List Visit} (h : visits.foldlM (Connection.visit env) s = some s') :
    s'.method = s.method ∧ Intake (visits.map Visit.dataLength).sum s.up.byteLength s.padding
      s'.up.byteLength s'.padding := by
  induction visits generalizing s with
  | nil =>
    cases h
    exact ⟨rfl, intake_of_sameBuffer le_rfl ⟨rfl, rfl⟩⟩
  | cons v visits ih =>
    rw [List.foldlM_cons] at h
    obtain ⟨s₁, hvisit, h⟩ := bind_eq_some_iff.mp h
    obtain ⟨hmethod, hintake⟩ := intake_visit hvisit
    obtain ⟨hmethod', hintake'⟩ := ih h
    exact ⟨hmethod'.trans hmethod, hintake.trans hintake'⟩

lemma Fill.method (h : Fill env s s') : s'.method = s.method := by
  rcases h with ⟨hmethod, -, -⟩ | _ | ⟨-, -, -, h⟩
  · exact hmethod
  · rfl
  · exact (intake_visits h).1

lemma Fills.method (h : Fills env s s') : s'.method = s.method :=
  Run.reflTransGen_keeps (I := fun a => a.method = s.method)
    (fun _ _ hm hfill => hfill.method.trans hm) h rfl

/-- **The bound.** At every moment the queue for the target holds at most the window, one read, and
as much as the receiver had kept of an incomplete chunk at some moment before. -/
theorem fills_bounded {encoder decoder : Cipher}
    (h : Fills env (start env .http2 encoder decoder) s) :
    ∃ t, Fills env (start env .http2 encoder decoder) t ∧ Fills env t s ∧
      t.padding.kept.length < maxPaddedChunk ∧
      s.up.byteLength ≤ env.h2ConnWindowSize + socketDebufSize + t.padding.kept.length := by
  refine Run.reflTransGen_level (I := fun s => s.padding.Drained)
    (fun s => s.up.byteLength) (fun s => s.padding.kept.length) ?_ ?_ ?_ ?_ h
  · intro s s' hdrained hfill
    rcases hfill with ⟨-, hup, hreceiver⟩ | hwrite | ⟨hread, hfed, hroom, h⟩
    · have hintake : Intake 0 s.up.byteLength s.padding s'.up.byteLength s'.padding :=
        intake_of_sameBuffer (by rw [hup]) hreceiver.sameBuffer
      exact ⟨hintake.drained hdrained, Or.inl (by rw [hup])⟩
    · exact ⟨hdrained, Or.inl (Pipe.byteLength_writeFront hwrite)⟩
    obtain ⟨-, hintake⟩ := intake_visits h
    obtain ⟨hsize, hdata⟩ := hfed _ hread
    have hlow : s.up.byteLength ≤ env.h2ConnWindowSize := by
      rcases hroom with hempty | hlt
      · rw [Pipe.byteLength_of_isEmpty hempty]
        exact Nat.zero_le _
      · exact hlt.le
    exact ⟨hintake.drained hdrained,
      Or.inr (hintake.bounded hdrained hlow (hdata.trans hsize))⟩
  · intro payload n num hitem
    rw [show (start env .http2 encoder decoder).padding.kept = [] from rfl] at hitem
    cases hitem
  · have hempty : (start env .http2 encoder decoder).up.byteLength = 0 :=
      Pipe.byteLength_of_isEmpty rfl
    rw [hempty]
    exact Nat.zero_le _
  · exact Nat.zero_lt_succ _

/-! ## A callback is a sequence of changes -/

lemma Inwards.fills (h : Inwards env UpRead.Fed s s') (hmethod : s.method = .http2) :
    Fills env s s' := by
  refine Run.reflTransGen_keeps (I := Fills env s) (fun a b hfills hinward => ?_) h (Fills.refl s)
  refine hfills.trans ?_
  cases hinward with
  | outward h => exact (Fill.still h.method h.up h.receiver).fills
  | wrote h => exact (Fill.wrote h).fills
  | visited hfed hread hroom h => exact (Fill.read hread hfed hroom h).fills
  | received hno _ => exact absurd (hfills.method.trans hmethod) hno

/-- **A callback is a sequence of changes.** -/
theorem fills_step (hmethod : s.method = .http2) {e : Event} (hfed : AllFed e.upTurns)
    (h : step env s e = some s') : Fills env s s' := by
  unfold step at h
  split_ifs at h with hskip
  · cases h
    exact .refl _
  · simp only [Bool.or_eq_true, not_or, Bool.not_eq_true, Bool.not_eq_false'] at hskip
    refine (inwards_callback hfed (fun reply left up he => ?_) h).fills hmethod
    -- only the other methods have one
    rw [he] at hskip
    simp [due, hmethod] at hskip

/-- **A run is a sequence of changes.** -/
theorem fills_run {encoder decoder : Cipher} {es : List Event} (hfed : ∀ e ∈ es, AllFed e.upTurns)
    (hrun : Run.exec (step env) (start env .http2 encoder decoder) es = some s) :
    Fills env (start env .http2 encoder decoder) s := by
  have hstep : ∀ s e s', Fills env (start env .http2 encoder decoder) s → AllFed e.upTurns →
      step env s e = some s' → Fills env (start env .http2 encoder decoder) s' := by
    intro s e s' hfills hfed hstep
    have hmethod : s.method = .http2 := hfills.method
    exact hfills.trans (fills_step hmethod hfed hstep)
  exact Run.reached_invariant hstep (Fills.refl _) (Run.along_of_forall hfed)
    (List.prefix_refl es) hrun

end Yass.Server.Relay
