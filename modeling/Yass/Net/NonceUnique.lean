import Yass.Net.CipherFrames

/-!
# Which nonces an encoder uses

`EncryptPacket` must never see the same nonce twice under one key. Each call of `encrypt` seals the
length under `counter_` and the payload under `counter_ + 1`, and commits `counter_ + 2` only when
both seals succeeded.

* `sealNumbers_eq_range` — when only the last call may fail, they are consecutive.
* `sealNumbers_not_nodup` — when a call follows a failed one, some number occurs twice: the failed
  call's counter was not committed.
* `packetNonce_range_nodup_iff` — consecutive packet numbers have different nonces exactly up to
  the period of the layout.
-/

namespace Yass.Net.Cipher

open Yass.Crypto

variable (fails : ℕ → Bool)

/-- The packet numbers one call seals under, from counter `start` and after `n` earlier seals, and
whether it succeeds. -/
def callNumbers (start n : ℕ) : List ℕ × Bool :=
  if fails n then ([start], false) else ([start, start + 1], !fails (n + 1))

/-- The same for `k` successive calls, with the outcome of each. -/
def sealNumbers : ℕ → ℕ → ℕ → List ℕ × List Bool
  | _, _, 0 => ([], [])
  | start, n, k + 1 =>
    let call := callNumbers fails start n
    let later := sealNumbers (if call.2 then start + 2 else start) (n + call.1.length) k
    (call.1 ++ later.1, call.2 :: later.2)

lemma callNumbers_of_ok {start n : ℕ} (h : (callNumbers fails start n).2 = true) :
    (callNumbers fails start n).1 = [start, start + 1] := by
  unfold callNumbers at h ⊢
  split_ifs at h ⊢
  rfl

lemma callNumbers_head (start n : ℕ) :
    ∃ rest, (callNumbers fails start n).1 = start :: rest := by
  unfold callNumbers
  split_ifs
  · exact ⟨[], rfl⟩
  · exact ⟨[start + 1], rfl⟩

lemma length_sealNumbers_snd (start n k : ℕ) : (sealNumbers fails start n k).2.length = k := by
  induction k generalizing start n with
  | zero => rfl
  | succ k ih => simp [sealNumbers, ih]

lemma sealNumbers_eq_range (start n k : ℕ) (h : false ∉ (sealNumbers fails start n k).2.dropLast) :
    (sealNumbers fails start n k).1 =
      List.range' start (sealNumbers fails start n k).1.length := by
  induction k generalizing start n with
  | zero => rfl
  | succ k ih =>
    cases k with
    | zero =>
      simp only [sealNumbers, List.append_nil, callNumbers]
      split_ifs <;> rfl
    | succ k =>
      have hne : (sealNumbers fails (if (callNumbers fails start n).2 then start + 2 else start)
          (n + (callNumbers fails start n).1.length) (k + 1)).2 ≠ [] := by
        rw [← List.length_pos_iff, length_sealNumbers_snd]
        omega
      rw [sealNumbers] at h ⊢
      simp only [List.dropLast_cons_of_ne_nil hne, List.mem_cons, not_or] at h
      have hok : (callNumbers fails start n).2 = true := by simpa using h.1
      simp only [hok, if_true, callNumbers_of_ok fails hok] at h ⊢
      obtain ⟨l, hl⟩ : ∃ l, (sealNumbers fails (start + 2) (n + 2) (k + 1)).1 =
          List.range' (start + 2) l := ⟨_, ih (start + 2) (n + 2) h.2⟩
      simp only [List.length_cons, List.length_nil, Nat.zero_add, Nat.reduceAdd] at *
      rw [hl]
      simp [List.range'_succ]

lemma sealNumbers_not_nodup (start n k : ℕ) (h : false ∈ (sealNumbers fails start n k).2.dropLast) :
    ¬ (sealNumbers fails start n k).1.Nodup := by
  induction k generalizing start n with
  | zero => simp [sealNumbers] at h
  | succ k ih =>
    have hne : k ≠ 0 := by
      rintro rfl
      simp [sealNumbers] at h
    obtain ⟨j, rfl⟩ := Nat.exists_eq_succ_of_ne_zero hne
    rw [sealNumbers] at h ⊢
    intro hnodup
    by_cases hok : (callNumbers fails start n).2
    · -- the failure is among the later calls
      simp only [hok, if_true] at h hnodup
      have hlater : (sealNumbers fails (start + 2) (n + (callNumbers fails start n).1.length)
          (j + 1)).2 ≠ [] := by
        rw [← List.length_pos_iff, length_sealNumbers_snd]
        omega
      rw [List.dropLast_cons_of_ne_nil hlater] at h
      refine ih _ _ ?_ (List.Nodup.of_append_right hnodup)
      simpa using h
    -- this call failed, so the next one starts with the same number
    simp only [hok, Bool.false_eq_true, if_false] at hnodup
    obtain ⟨rest, hrest⟩ := callNumbers_head fails start n
    obtain ⟨rest', hrest'⟩ :=
      callNumbers_head fails start (n + (callNumbers fails start n).1.length)
    rw [sealNumbers, hrest'] at hnodup
    rw [hrest] at hnodup
    simp at hnodup

/-! ## The log -/

variable {E : CipherEnv} {m : CipherMethod} {master : List UInt8} {c : Cipher}

lemma frameOps_eq_callNumbers (key : List UInt8) (start n : ℕ) (p : List UInt8) :
    (frameOps E m key (UInt64.ofNat start) n p).1.map (fun op => (op.key, op.nonce)) =
        (callNumbers E.sealFails start n).1.map
          (fun i => (key, aeadNonce m (UInt64.ofNat i))) ∧
      (frameOps E m key (UInt64.ofNat start) n p).2 = (callNumbers E.sealFails start n).2 := by
  have hsucc : UInt64.ofNat start + 1 = UInt64.ofNat (start + 1) := by
    simp
  unfold frameOps callNumbers
  split_ifs
  · exact ⟨rfl, rfl⟩
  · exact ⟨by simp only [List.map_cons, List.map_nil, hsucc], rfl⟩

variable (m master) in
lemma emitAll_ops (hinit : c.init) {start : ℕ} (hstart : c.counter = UInt64.ofNat start)
    (ps : List (List UInt8)) :
    (emitAll E m master c ps).1.ops.map (fun op => (op.key, op.nonce)) =
        c.ops.map (fun op => (op.key, op.nonce)) ++
          (sealNumbers E.sealFails start c.ops.length ps.length).1.map
            (fun i => (c.implKey, aeadNonce m (UInt64.ofNat i))) ∧
      (emitAll E m master c ps).2.1 = (sealNumbers E.sealFails start c.ops.length ps.length).2 := by
  induction ps generalizing c start with
  | nil => simp [emitAll, sealNumbers]
  | cons p ps ih =>
    have hs : salted E m master c = c := by rw [salted, if_pos hinit]
    obtain ⟨hops, hok⟩ := frameOps_eq_callNumbers (E := E) (m := m) c.implKey start c.ops.length p
    have hlen := congrArg List.length hops
    rw [List.length_map, List.length_map] at hlen
    rw [← hstart] at hops hok hlen
    have hinit' : (emit E m master c p).1.init = true := salted_init
    have hkey' : (emit E m master c p).1.implKey = c.implKey := by simp only [emit, hs]
    have hops' : (emit E m master c p).1.ops =
        c.ops ++ (frameOps E m c.implKey c.counter c.ops.length p).1 := by
      simp only [emit, hs]
    have hok' : (emit E m master c p).2.1 = (callNumbers E.sealFails start c.ops.length).2 := by
      simp only [emit, hs, hok]
    have hstart' : (emit E m master c p).1.counter = UInt64.ofNat
        (if (callNumbers E.sealFails start c.ops.length).2 then start + 2 else start) := by
      simp only [emit, hs, hok]
      split_ifs
      · rw [hstart, UInt64.ofNat_add, UInt64.add_assoc]
        rfl
      · exact hstart
    obtain ⟨hlater, hoks⟩ := ih hinit' hstart'
    rw [hkey', hops', List.length_append, hlen] at hlater
    rw [hops', List.length_append, hlen] at hoks
    refine ⟨?_, ?_⟩
    · simp only [emitAll, List.length_cons, sealNumbers, hlater]
      simp [hops]
    · simp only [emitAll, List.length_cons, sealNumbers, hoks, hok']

/-! ## Uniqueness -/

lemma range_nonces_nodup_iff (m : CipherMethod) (start len : ℕ) :
    ((List.range' start len).map fun i => aeadNonce m (UInt64.ofNat i)).Nodup ↔
      len ≤ m.layout.period := by
  have hpos : 0 < m.layout.period := m.layout.period_pos
  rw [List.nodup_map_iff_inj_on List.nodup_range']
  constructor
  · intro hinj
    by_contra hlong
    -- the first number and the one a period later are both there
    have hfirst : start ∈ List.range' start len := by
      rw [List.mem_range'_1]
      omega
    have hagain : start + m.layout.period ∈ List.range' start len := by
      rw [List.mem_range'_1]
      omega
    have hsame := hinj start hfirst _ hagain
      ((packetNonce_ofNat_eq_iff _ _ _ _).mpr (Nat.add_mod_right _ _).symm)
    omega
  intro hshort a ha b hb hab
  rw [List.mem_range'_1] at ha hb
  rw [aeadNonce, aeadNonce, packetNonce_ofNat_eq_iff] at hab
  have hba := Nat.sub_mod_eq_zero_of_mod_eq hab
  have hab' := Nat.sub_mod_eq_zero_of_mod_eq hab.symm
  rw [Nat.mod_eq_of_lt (by omega)] at hba hab'
  omega

lemma sealNumbers_nonces_nodup_iff (m : CipherMethod) (key : List UInt8) (start n k : ℕ) :
    ((sealNumbers fails start n k).1.map fun i => (key, aeadNonce m (UInt64.ofNat i))).Nodup ↔
      false ∉ (sealNumbers fails start n k).2.dropLast ∧
        (sealNumbers fails start n k).1.length ≤ m.layout.period := by
  by_cases hfail : false ∈ (sealNumbers fails start n k).2.dropLast
  · have hdup := sealNumbers_not_nodup fails start n k hfail
    have hmap := mt (List.Nodup.of_map fun i => (key, aeadNonce m (UInt64.ofNat i))) hdup
    simp [hfail, hmap]
  have hrange := sealNumbers_eq_range fails start n k hfail
  have hkey : ((sealNumbers fails start n k).1.map fun i =>
      (key, aeadNonce m (UInt64.ofNat i))).Nodup ↔
      ((sealNumbers fails start n k).1.map fun i => aeadNonce m (UInt64.ofNat i)).Nodup := by
    rw [← List.nodup_map_iff (Prod.mk_right_injective key)
      (l := (sealNumbers fails start n k).1.map fun i => aeadNonce m (UInt64.ofNat i)),
      List.map_map]
    rfl
  rw [hkey]
  generalize (sealNumbers fails start n k).1.length = len at hrange ⊢
  rw [hrange, range_nonces_nodup_iff]
  simp [hfail]

end Yass.Net.Cipher
