import Yass.Net.Reassembly
import Yass.PaddedTunnel

/-!
# Padded chunks on the client and on the server

* `AllContained` — every delivery to a connection is contained.

Source: `cli/cli_connection.cpp`, `server/server_connection.cpp`.
-/

namespace Yass

open Yass.Net

/-! ## A connection -/

section Deliveries

variable {σ : Type} (deliver : σ → List UInt8 → Option σ) (padding : σ → PaddingState)
  (junk : ℕ → UInt8)

def AllContained (s : σ) (pieces : List (List UInt8)) : Prop :=
  ∀ front piece back, pieces = front ++ piece :: back →
    ∃ s₁ s₂, front.foldlM deliver s = some s₁ ∧ deliver s₁ piece = some s₂ ∧
      Contained junk (padding s₁) piece (padding s₂)

variable {deliver padding junk}

lemma assembling_deliveries
    (hdeliver : ∀ s piece, (deliver s piece).map padding =
      ((padding s).receive junk piece).map Prod.fst)
    {s : σ} {bytes : List UInt8} (hs : (padding s).Assembling bytes) (pieces : List (List UInt8)) :
    ∃ s', pieces.foldlM deliver s = some s' ∧
      (padding s').Assembling (bytes ++ pieces.flatten) := by
  induction pieces generalizing s bytes with
  | nil => exact ⟨s, rfl, by simpa using hs⟩
  | cons piece pieces ih =>
    obtain ⟨p, bufs, hrecv, hp⟩ := hs.receive junk piece
    have hone := hdeliver s piece
    rw [hrecv] at hone
    obtain ⟨s₁, hs₁, hpadding⟩ := Option.map_eq_some_iff.mp hone
    subst hpadding
    obtain ⟨s₂, hs₂, hend⟩ := ih hp
    refine ⟨s₂, ?_, ?_⟩
    · rw [List.foldlM_cons, hs₁]
      exact hs₂
    · rwa [List.flatten_cons, ← List.append_assoc]

/-- **All deliveries are contained** exactly if the headers of the stream are in order. -/
lemma allContained_iff
    (hdeliver : ∀ s piece, (deliver s piece).map padding =
      ((padding s).receive junk piece).map Prod.fst)
    {s : σ} (hs : (padding s).Awaiting) (pieces : List (List UInt8)) :
    AllContained deliver padding junk s pieces ↔
      headersOk kFirstPaddings pieces.flatten = true := by
  -- the states in front of and behind a delivery
  have hsplit : ∀ (front : List (List UInt8)) (piece : List UInt8),
      ∃ s₁ s₂, front.foldlM deliver s = some s₁ ∧
      deliver s₁ piece = some s₂ ∧ (Contained junk (padding s₁) piece (padding s₂) ↔
        headersOk kFirstPaddings (front.flatten ++ piece) = true) := by
    intro front piece
    obtain ⟨s₁, hfront, h₁⟩ := assembling_deliveries hdeliver hs.assembling front
    obtain ⟨s₂, hpiece, h₂⟩ := assembling_deliveries hdeliver h₁ [piece]
    rw [List.foldlM_cons] at hpiece
    obtain ⟨s₃, hs₃, hend⟩ := Option.bind_eq_some_iff.mp hpiece
    cases hend
    rw [List.flatten_singleton] at h₂
    exact ⟨s₁, s₂, hfront, hs₃, h₁.contained_iff h₂⟩
  constructor
  · intro hall
    rcases List.eq_nil_or_concat pieces with rfl | ⟨front, last, rfl⟩
    · rfl
    obtain ⟨s₁, s₂, hfront, hlast, hcontained⟩ := hall front last [] (by simp)
    obtain ⟨s₃, s₄, hfront', hlast', hiff⟩ := hsplit front last
    rw [hfront] at hfront'
    cases hfront'
    rw [hlast] at hlast'
    cases hlast'
    simpa using hiff.mp hcontained
  intro hok front piece back heq
  obtain ⟨s₁, s₂, hfront, hpiece, hiff⟩ := hsplit front piece
  refine ⟨s₁, s₂, hfront, hpiece, hiff.mpr ?_⟩
  rw [heq, List.flatten_append, List.flatten_cons, ← List.append_assoc] at hok
  exact headersOk_of_append hok

end Deliveries

lemma Cli.Relay.padding_onDataForStream (env : Environment) (s : Connection)
    (piece : List UInt8) : (s.onDataForStream env piece).map Connection.padding =
      (s.padding.receive env.cipher.junk piece).map Prod.fst := by
  unfold Connection.onDataForStream
  cases s.padding.receive env.cipher.junk piece <;> rfl

lemma Server.Relay.padding_onDataForStream (env : Environment) (s : Connection)
    (piece : List UInt8) : (s.onDataForStream env piece).map Connection.padding =
      (s.padding.receive env.cipher.junk piece).map Prod.fst := by
  unfold Connection.onDataForStream
  cases s.padding.receive env.cipher.junk piece <;> rfl

/-- **Re-assembly.** On the client and on the server, whatever is delivered: the buffer stays within
a chunk and the delivery, and refuses what it cannot decode, exactly if every header of a padded
chunk announces a payload. -/
theorem reassembly_contained_iff (cenv : Cli.Relay.Environment) (c : Cli.Relay.Connection)
    (hc : c.padding.Awaiting) (senv : Server.Relay.Environment) (s : Server.Relay.Connection)
    (hs : s.padding.Awaiting) (pieces : List (List UInt8)) :
    (AllContained (Cli.Relay.Connection.onDataForStream cenv) Cli.Relay.Connection.padding
        cenv.cipher.junk c pieces ↔ headersOk kFirstPaddings pieces.flatten = true) ∧
      (AllContained (Server.Relay.Connection.onDataForStream senv) Server.Relay.Connection.padding
        senv.cipher.junk s pieces ↔ headersOk kFirstPaddings pieces.flatten = true) := by
  constructor
  · exact allContained_iff (Cli.Relay.padding_onDataForStream cenv) hc pieces
  · exact allContained_iff (Server.Relay.padding_onDataForStream senv) hs pieces

def samplePaddedClient : Cli.Relay.Connection :=
  { Cli.Relay.start (.sample true [] []) .http2 with padding := .new true }

def samplePaddedServer : Server.Relay.Connection :=
  Server.Relay.start (.sample true) .http2 (Cipher.create (.sample fun _ => false) .aes256Ctr [])
    (Cipher.create (.sample fun _ => false) .aes256Ctr [])

lemma awaiting_new : (PaddingState.new true).Awaiting := ⟨rfl, rfl, rfl⟩

theorem reassembly_contained_sample :
    AllContained (Cli.Relay.Connection.onDataForStream (.sample true [] []))
        Cli.Relay.Connection.padding (Cli.Relay.Environment.sample true [] []).cipher.junk
        samplePaddedClient [[0, 2, 1, 65], [66, 0, 0]] ∧
      AllContained (Server.Relay.Connection.onDataForStream (.sample true))
        Server.Relay.Connection.padding (Server.Relay.Environment.sample true).cipher.junk
        samplePaddedServer [[0, 2, 1, 65], [66, 0, 0]] := by
  obtain ⟨hclient, hserver⟩ := reassembly_contained_iff (.sample true [] []) samplePaddedClient
    awaiting_new (.sample true) samplePaddedServer awaiting_new [[0, 2, 1, 65], [66, 0, 0]]
  exact ⟨hclient.mpr (by decide), hserver.mpr (by decide)⟩

/-- A header that announces nothing, and `n` bytes that come one by one. -/
def zeroHeader (n : ℕ) : List (List UInt8) := [0, 0, 0] :: List.replicate n [0]

lemma length_flatten_zeroHeader (n : ℕ) : (zeroHeader n).flatten.length = 3 + n := by
  simp [zeroHeader]
  omega

lemma kept_zeroHeader {p : PaddingState} {n : ℕ} (h : p.Assembling (zeroHeader n).flatten) :
    p.kept.length = 3 + n := by
  have hbad : paddingFramer.attempt 0 (zeroHeader n).flatten = .bad := by
    refine attempt_eq_bad_iff.mpr ⟨by decide, ?_, by simp [zeroHeader, payloadSize]⟩
    rw [length_flatten_zeroHeader]
    exact Nat.le_add_right 3 n
  have hdrain := paddingFramer.drain_of_bad hbad
  have hnum := h.num_eq
  rw [hdrain] at hnum
  have hlt : p.numPaddingRecv < kFirstPaddings := by
    rw [hnum]
    exact Nat.zero_lt_succ 7
  rw [h.kept_eq, if_pos hlt, hdrain, length_flatten_zeroHeader]

/-- **Growth.** Behind a header that announces nothing both ends keep whatever comes. -/
theorem reassembly_grows :
    (∀ n, ∃ c, (zeroHeader n).foldlM (Cli.Relay.Connection.onDataForStream (.sample true [] []))
        samplePaddedClient = some c ∧ c.padding.kept.length = 3 + n) ∧
      ∀ n, ∃ s, (zeroHeader n).foldlM (Server.Relay.Connection.onDataForStream (.sample true))
        samplePaddedServer = some s ∧ s.padding.kept.length = 3 + n := by
  refine ⟨fun n => ?_, fun n => ?_⟩
  · obtain ⟨c, hc, hkept⟩ := assembling_deliveries
      (Cli.Relay.padding_onDataForStream (.sample true [] [])) (s := samplePaddedClient)
      awaiting_new.assembling (zeroHeader n)
    exact ⟨c, hc, kept_zeroHeader hkept⟩
  · obtain ⟨s, hs, hkept⟩ := assembling_deliveries
      (Server.Relay.padding_onDataForStream (.sample true)) (s := samplePaddedServer)
      awaiting_new.assembling (zeroHeader n)
    exact ⟨s, hs, kept_zeroHeader hkept⟩

end Yass
