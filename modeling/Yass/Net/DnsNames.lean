import Yass.Lib.Orbit
import Yass.Net.DnsResponse

/-!
# Names in a DNS message

A name is a sequence of labels that ends with the root or with a pointer. Where the two loops over
names go is described by a partial function each, which is followed from the start of the name.

* `skipqname_error_iff`, `skipqname_true_iff` — the loop does nothing else.

Source: `net/dns_message_response_parser.hpp`, `skipqname` and `rdata`.
-/

namespace Yass.Net.DnsMessage

open Relation (ReflTransGen)

/-! ## Bytes of a name -/

lemma and_c0_eq_iff (b : UInt8) : b &&& 0xc0 = 0xc0 ↔ 192 ≤ b.toNat := by
  have h : ∀ n : Fin 256, (UInt8.ofNat n) &&& 0xc0 = 0xc0 ↔ 192 ≤ (UInt8.ofNat n).toNat := by
    decide +kernel
  simpa using h ⟨b.toNat, b.toNat_lt⟩

lemma and_c0_eq_zero_iff (b : UInt8) : b &&& 0xc0 = 0 ↔ b.toNat < 64 := by
  have h : ∀ n : Fin 256, (UInt8.ofNat n) &&& 0xc0 = 0 ↔ (UInt8.ofNat n).toNat < 64 := by
    decide +kernel
  simpa using h ⟨b.toNat, b.toNat_lt⟩

lemma and_3f_toNat (b : UInt8) : (b &&& 0x3f).toNat = b.toNat % 64 := by
  rw [UInt8.toNat_and]
  exact Nat.and_two_pow_sub_one_eq_mod b.toNat 6

def pointer (length low : UInt8) : ℕ := 256 * (length.toNat % 64) + low.toNat

lemma offset_eq {signed : Bool} {length low : UInt8} (h : signed = true → low.toNat < 128) :
    offset signed length low = (pointer length low : ℤ) := by
  have hl := low.toNat_lt
  have hm : length.toNat % 64 < 64 := Nat.mod_lt _ (by omega)
  have hlow : (if signed then low.toBitVec.signExtend 32 else low.toBitVec.setWidth 32) =
      low.toBitVec.setWidth 32 := by
    split_ifs with hs
    · apply BitVec.signExtend_eq_setWidth_of_msb_false
      rw [BitVec.msb_eq_decide]
      simpa using h hs
    · rfl
  have hnat : (((length &&& 0x3f).toBitVec.setWidth 32 <<< 8) ||| low.toBitVec.setWidth 32).toNat =
      pointer length low := by
    rw [BitVec.toNat_or, BitVec.toNat_shiftLeft, BitVec.toNat_setWidth, BitVec.toNat_setWidth,
      UInt8.toNat_toBitVec, UInt8.toNat_toBitVec, and_3f_toNat,
      Nat.mod_eq_of_lt (show length.toNat % 64 < 2 ^ 32 by omega),
      Nat.mod_eq_of_lt (show low.toNat < 2 ^ 32 by omega), Nat.shiftLeft_eq,
      Nat.mod_eq_of_lt (by omega), ← Nat.shiftLeft_eq, ← Nat.shiftLeft_add_eq_or_of_lt hl,
      Nat.shiftLeft_eq, pointer]
    omega
  rw [offset, hlow, BitVec.toInt_eq_toNat_of_lt, hnat]
  rw [hnat, pointer]
  omega

lemma offset_neg {length low : UInt8} (h : 128 ≤ low.toNat) : offset true length low < 0 := by
  have hlow : low.toBitVec.msb = true := by
    rw [BitVec.msb_eq_decide]
    simpa using h
  have hmsb : (((length &&& 0x3f).toBitVec.setWidth 32 <<< 8) |||
      low.toBitVec.signExtend 32).msb = true := by
    rw [BitVec.msb_or, BitVec.msb_signExtend]
    simp [hlow]
  rw [BitVec.msb_eq_toInt, decide_eq_true_eq] at hmsb
  exact hmsb

section Names

variable {bytes : List UInt8}

variable {i : ℕ} {b : UInt8}

lemma fetch_of_some (h : bytes[i]? = some b) : fetch bytes i = .ok b := by
  rw [fetch, h]

lemma fetch_of_none (h : bytes[i]? = none) : fetch bytes i = .error .outside := by
  rw [fetch, h]

/-! ## Names that are skipped -/

/-- Where the label at `p` is followed by another one, which has to be shorter than `limit`. -/
def labelNext (bytes : List UInt8) (limit p : ℕ) : Option ℕ :=
  match bytes[p]? with
  | some b =>
    if 0 < b.toNat ∧ b.toNat < 64 ∧ b.toNat < limit then some (p + (1 + b.toNat)) else none
  | none => none

/-- At `q` the name ends, and `j` is behind it. -/
def EndsAt (bytes : List UInt8) (limit q j : ℕ) : Prop :=
  (bytes[q]? = some 0 ∧ j = q + 1) ∨
    ∃ b, bytes[q]? = some b ∧ 192 ≤ b.toNat ∧ 2 ≤ limit ∧ j = q + 2

/-- The labels at `i`, none longer than what is left, go on behind the message. -/
def RunsOff (bytes : List UInt8) (i : ℕ) : Prop :=
  0 < dohlen bytes i ∧ ∃ q, ReflTransGen (Orbit.Step (labelNext bytes (dohlen bytes i))) i q ∧
    bytes.length ≤ q

/-- The labels at `i`, none longer than what is left, end in front of `j`. -/
def Skips (bytes : List UInt8) (i j : ℕ) : Prop :=
  0 < dohlen bytes i ∧ ∃ q, ReflTransGen (Orbit.Step (labelNext bytes (dohlen bytes i))) i q ∧
    EndsAt bytes (dohlen bytes i) q j

variable {limit p fuel : ℕ}

lemma skipLoop_of_some (hlimit : 0 < limit) (h : bytes[p]? = some b) :
    skipLoop bytes limit (fuel + 1) p =
      if 192 ≤ b.toNat then if limit < 2 then .ok (false, p) else .ok (true, p + 2)
      else if 64 ≤ b.toNat then .ok (false, p)
      else if limit < 1 + b.toNat then .ok (false, p)
      else if b.toNat = 0 then .ok (true, p + 1)
      else skipLoop bytes limit fuel (p + (1 + b.toNat)) := by
  have hzero : (b = 0) ↔ b.toNat = 0 := by rw [← UInt8.toNat_inj]; rfl
  rw [skipLoop, if_neg (by omega), fetch_of_some h]
  change (if _ then _ else _) = _
  simp only [and_c0_eq_iff, and_c0_eq_zero_iff, ne_eq, hzero, not_lt]
  by_cases h192 : 192 ≤ b.toNat
  · simp [h192]
  by_cases h64 : 64 ≤ b.toNat
  · simp [h192, h64]
  by_cases hlong : limit < 1 + b.toNat
  · simp [h192, h64, hlong]
  by_cases h0 : b.toNat = 0
  · simp [h0]
  · simp [h192, h64, hlong, h0]

lemma skipLoop_of_none (hlimit : 0 < limit) (h : bytes[p]? = none) :
    skipLoop bytes limit (fuel + 1) p = .error .outside := by
  rw [skipLoop, if_neg (by omega), fetch_of_none h]
  rfl

lemma labelNext_of_some (h : bytes[p]? = some b) :
    labelNext bytes limit p =
      if 0 < b.toNat ∧ b.toNat < 64 ∧ b.toNat < limit then some (p + (1 + b.toNat)) else none := by
  rw [labelNext, h]

/-- **Skipping.** The loop leaves the message exactly if the labels do, and succeeds exactly if the
name ends. -/
lemma skipLoop_spec (hlimit : 0 < limit) (hpos : 0 < fuel) (hfuel : bytes.length < p + fuel) :
    (∀ f, skipLoop bytes limit fuel p = .error f ↔ f = .outside ∧
      ∃ q, ReflTransGen (Orbit.Step (labelNext bytes limit)) p q ∧ bytes.length ≤ q) ∧
    ∀ j, skipLoop bytes limit fuel p = .ok (true, j) ↔
      ∃ q, ReflTransGen (Orbit.Step (labelNext bytes limit)) p q ∧ EndsAt bytes limit q j := by
  induction fuel generalizing p with
  | zero => exact absurd hpos (by omega)
  | succ fuel ih =>
    cases hb : bytes[p]? with
    | none =>
      have hnext : labelNext bytes limit p = none := by rw [labelNext, hb]
      rw [skipLoop_of_none hlimit hb]
      refine ⟨fun f => ?_, fun j => ?_⟩
      · rw [Orbit.exists_reaches_of_none hnext]
        simp [List.getElem?_eq_none_iff.mp hb, eq_comm]
      · rw [Orbit.exists_reaches_of_none hnext, EndsAt, hb]
        simp
    | some b =>
      have hp : p < bytes.length := (List.getElem?_eq_some_iff.mp hb).1
      rw [skipLoop_of_some hlimit hb]
      by_cases hgo : 0 < b.toNat ∧ b.toNat < 64 ∧ b.toNat < limit
      · -- a label, with another one behind it
        have hnext : labelNext bytes limit p = some (p + (1 + b.toNat)) := by
          rw [labelNext_of_some hb, if_pos hgo]
        rw [if_neg (by omega), if_neg (by omega), if_neg (by omega), if_neg (by omega)]
        obtain ⟨herror, hgood⟩ := ih (p := p + (1 + b.toNat)) (by omega) (by omega)
        refine ⟨fun f => ?_, fun j => ?_⟩
        · rw [herror, Orbit.exists_reaches_of_some hnext (by omega)]
        rw [hgood, Orbit.exists_reaches_of_some hnext]
        rintro (⟨hzero, -⟩ | ⟨b', hb', hlarge, -⟩)
        · rw [hb] at hzero
          cases hzero
          simp at hgo
        rw [hb] at hb'
        cases hb'
        omega
      have hnext : labelNext bytes limit p = none := by
        rw [labelNext_of_some hb, if_neg hgo]
      refine ⟨fun f => ?_, fun j => ?_⟩
      · rw [Orbit.exists_reaches_of_none hnext]
        constructor
        · intro h
          split_ifs at h
          omega
        · rintro ⟨-, hle⟩
          omega
      rw [Orbit.exists_reaches_of_none hnext, EndsAt, hb]
      have hzero : b = 0 ↔ b.toNat = 0 := by rw [← UInt8.toNat_inj]; rfl
      simp only [Option.some_inj, hzero, exists_eq_left']
      rcases Nat.lt_or_ge b.toNat 64 with h64 | h64
      · rw [if_neg (by omega), if_neg (by omega)]
        by_cases hzero : b.toNat = 0
        · rw [if_neg (by omega), if_pos hzero]
          simp [hzero, eq_comm]
        rw [if_pos (by omega)]
        simp [hzero]
        omega
      · split_ifs <;> simp <;> omega

lemma skipqname_of_zero (h : ¬ 0 < dohlen bytes i) :
    skipqname bytes i = .ok (false, i) := by
  rw [skipqname, skipLoop, if_pos (by omega)]

lemma skipqname_error_iff {f : Fault} :
    skipqname bytes i = .error f ↔ f = .outside ∧ RunsOff bytes i := by
  by_cases hlimit : 0 < dohlen bytes i
  · rw [skipqname, (skipLoop_spec hlimit (Nat.succ_pos _) (by omega)).1, RunsOff,
      and_iff_right hlimit]
  · rw [skipqname_of_zero hlimit, RunsOff]
    simp [hlimit]

lemma skipqname_true_iff {j : ℕ} : skipqname bytes i = .ok (true, j) ↔ Skips bytes i j := by
  by_cases hlimit : 0 < dohlen bytes i
  · rw [skipqname, (skipLoop_spec hlimit (Nat.succ_pos _) (by omega)).2, Skips,
      and_iff_right hlimit]
  · rw [skipqname_of_zero hlimit, Skips]
    simp [hlimit]

/-! ## Names that are decoded -/

/-- Where the decoding goes on behind the label or the pointer at `p`. -/
def nameNext (signed : Bool) (bytes : List UInt8) (p : ℕ) : Option ℕ :=
  match bytes[p]? with
  | none => none
  | some b =>
    if 192 ≤ b.toNat then
      match bytes[p + 1]? with
      | none => none
      | some low =>
        match offset signed b low with
        | .ofNat q => some q
        | .negSucc _ => none
    else if 0 < b.toNat ∧ b.toNat < 64 ∧ p + 1 + b.toNat ≤ bytes.length then
      some (p + 1 + b.toNat)
    else none

/-- At `q` a byte is read that is outside the message. -/
def LeavesAt (signed : Bool) (bytes : List UInt8) (q : ℕ) : Prop :=
  bytes.length ≤ q ∨ ∃ b, bytes[q]? = some b ∧ 192 ≤ b.toNat ∧
    (bytes.length ≤ q + 1 ∨ ∃ low, bytes[q + 1]? = some low ∧ offset signed b low < 0)

/-- The decoding of the name at `p` leaves the message. -/
def Leaves (signed : Bool) (bytes : List UInt8) (p : ℕ) : Prop :=
  ∃ q, ReflTransGen (Orbit.Step (nameNext signed bytes)) p q ∧ LeavesAt signed bytes q

/-- The decoding of the name at `p` gets to a root. -/
def Ends (signed : Bool) (bytes : List UInt8) (p : ℕ) : Prop :=
  ∃ q, ReflTransGen (Orbit.Step (nameNext signed bytes)) p q ∧ bytes[q]? = some 0

/-- The decoding of the name at `p` comes back to where it has been. -/
def Loops (signed : Bool) (bytes : List UInt8) (p : ℕ) : Prop :=
  Orbit.Loops (nameNext signed bytes) p

/-- What becomes of a name at `p`. -/
def grow (bytes : List UInt8) (p : ℕ) (name : List UInt8) : List UInt8 :=
  match bytes[p]? with
  | none => name
  | some b =>
    if 192 ≤ b.toNat then name
    else (if name = [] then [] else name ++ [dot]) ++ (bytes.drop (p + 1)).take b.toNat

variable {signed : Bool} {q : ℕ}

lemma nameNext_of_leavesAt (h : LeavesAt signed bytes q) :
    nameNext signed bytes q = none := by
  rcases h with hle | ⟨b, hb, hlarge, hnext⟩
  · rw [nameNext, List.getElem?_eq_none_iff.mpr hle]
  rw [nameNext, hb]
  dsimp only
  rw [if_pos hlarge]
  rcases hnext with hle | ⟨low, hlow, hneg⟩
  · rw [List.getElem?_eq_none_iff.mpr hle]
  rw [hlow]
  dsimp only
  cases hoff : offset signed b low with
  | ofNat q => rw [hoff] at hneg; exact absurd hneg (by simp)
  | negSucc q => rfl

lemma cnameLoop_next (h : nameNext signed bytes p = some q) (fuel : ℕ) (name : List UInt8) :
    cnameLoop bytes signed (fuel + 1) p name =
      cnameLoop bytes signed fuel q (grow bytes p name) := by
  unfold nameNext at h
  unfold grow
  cases hb : bytes[p]? with
  | none => rw [hb] at h; cases h
  | some b =>
    have hp : p < bytes.length := (List.getElem?_eq_some_iff.mp hb).1
    have hzero : b = 0 ↔ b.toNat = 0 := by rw [← UInt8.toNat_inj]; rfl
    rw [hb] at h
    dsimp only at h ⊢
    rw [cnameLoop, fetch_of_some hb]
    change (if _ then _ else _) = _
    by_cases hlarge : 192 ≤ b.toNat
    · rw [if_pos ((and_c0_eq_iff b).mpr hlarge), if_neg (by omega)]
      rw [if_pos hlarge] at h ⊢
      cases hlow : bytes[p + 1]? with
      | none => rw [hlow] at h; cases h
      | some low =>
        rw [hlow] at h
        dsimp only at h
        rw [fetch_of_some hlow]
        change (match offset signed b low with | .ofNat q => _ | .negSucc _ => _) = _
        cases hoff : offset signed b low with
        | ofNat q' => rw [hoff] at h; cases h; rfl
        | negSucc q' => rw [hoff] at h; cases h
    rw [if_neg ((and_c0_eq_iff b).not.mpr hlarge)]
    rw [if_neg hlarge] at h ⊢
    obtain ⟨hgo, h⟩ := Option.ite_none_right_eq_some.mp h
    cases h
    rw [if_neg (by rw [not_not, and_c0_eq_zero_iff]; omega), if_pos (by rw [ne_eq, hzero]; omega),
      if_neg (by omega)]

lemma cnameLoop_last (h : nameNext signed bytes p = none)
    (hleaves : ¬ LeavesAt signed bytes p) (fuel : ℕ) (name : List UInt8) :
    cnameLoop bytes signed (fuel + 1) p name = .ok (decide (bytes[p]? = some 0), name) := by
  unfold LeavesAt at hleaves
  push Not at hleaves
  obtain ⟨hp, hpointer⟩ := hleaves
  obtain ⟨b, hb⟩ : ∃ b, bytes[p]? = some b := ⟨_, List.getElem?_eq_getElem hp⟩
  have hzero : b = 0 ↔ b.toNat = 0 := by rw [← UInt8.toNat_inj]; rfl
  rw [nameNext, hb] at h
  dsimp only at h
  rw [cnameLoop, fetch_of_some hb]
  change (if _ then _ else _) = _
  by_cases hlarge : 192 ≤ b.toNat
  · obtain ⟨hp', hnonneg⟩ := hpointer b hb hlarge
    obtain ⟨low, hlow⟩ : ∃ low, bytes[p + 1]? = some low := ⟨_, List.getElem?_eq_getElem hp'⟩
    rw [if_pos hlarge, hlow] at h
    have hnat := hnonneg low hlow
    dsimp only at h
    cases hoff : offset signed b low with
    | ofNat q => rw [hoff] at h; cases h
    | negSucc q => rw [hoff] at hnat; exact absurd hnat (by simp)
  rw [if_neg hlarge] at h
  rw [if_neg ((and_c0_eq_iff b).not.mpr hlarge), hb]
  have hstop : ¬ (0 < b.toNat ∧ b.toNat < 64 ∧ p + 1 + b.toNat ≤ bytes.length) := by
    intro hgo
    rw [if_pos hgo] at h
    cases h
  by_cases h64 : b.toNat < 64
  · rw [if_neg (by rw [not_not, and_c0_eq_zero_iff]; exact h64)]
    by_cases h0 : b = 0
    · simp [h0]
    · rw [if_pos h0, if_pos (by rw [hzero] at h0; omega)]
      simp [h0]
  rw [if_pos (by rw [ne_eq, and_c0_eq_zero_iff]; exact h64)]
  have h0 : b ≠ 0 := by rw [ne_eq, hzero]; omega
  simp [h0]

lemma cnameLoop_leaves (h : LeavesAt signed bytes p) (fuel : ℕ) (name : List UInt8) :
    cnameLoop bytes signed (fuel + 1) p name = .error .outside := by
  rw [cnameLoop]
  rcases h with hle | ⟨b, hb, hlarge, hnext⟩
  · rw [fetch_of_none (List.getElem?_eq_none_iff.mpr hle)]
    rfl
  have hp : p < bytes.length := (List.getElem?_eq_some_iff.mp hb).1
  rw [fetch_of_some hb]
  change (if _ then _ else _) = _
  rw [if_pos ((and_c0_eq_iff b).mpr hlarge), if_neg (by omega)]
  rcases hnext with hle | ⟨low, hlow, hneg⟩
  · rw [fetch_of_none (List.getElem?_eq_none_iff.mpr hle)]
    rfl
  rw [fetch_of_some hlow]
  change (match offset signed b low with | .ofNat q => _ | .negSucc _ => _) = _
  cases hoff : offset signed b low with
  | ofNat q => rw [hoff] at hneg; exact absurd hneg (by simp)
  | negSucc q => rfl

lemma length_grow_le (bytes : List UInt8) (h : nameNext signed bytes p = some q)
    (name : List UInt8) : (grow bytes p name).length ≤ name.length + 64 := by
  unfold nameNext at h
  unfold grow
  cases hb : bytes[p]? with
  | none => exact Nat.le_add_right _ _
  | some b =>
    rw [hb] at h
    dsimp only at h ⊢
    by_cases hlarge : 192 ≤ b.toNat
    · rw [if_pos hlarge]
      exact Nat.le_add_right _ _
    rw [if_neg hlarge] at h ⊢
    obtain ⟨hgo, -⟩ := Option.ite_none_right_eq_some.mp h
    have hlabel : ((bytes.drop (p + 1)).take b.toNat).length ≤ 63 := by
      rw [List.length_take]
      omega
    rw [List.length_append]
    split_ifs <;> simp <;> omega

lemma cnameLoop_iter {k q : ℕ} (h : Orbit.iter (nameNext signed bytes) k p = some q)
    (name : List UInt8) :
    ∃ name', name'.length ≤ name.length + 64 * k ∧ ∀ fuel,
      cnameLoop bytes signed (k + fuel) p name = cnameLoop bytes signed fuel q name' := by
  induction k generalizing p name with
  | zero =>
    cases h
    exact ⟨name, le_rfl, fun fuel => by rw [Nat.zero_add]⟩
  | succ k ih =>
    obtain ⟨p', hnext, hrest⟩ := Option.bind_eq_some_iff.mp h
    obtain ⟨name', hlength, hloop⟩ := ih hrest (grow bytes p name)
    have hgrow := length_grow_le bytes hnext name
    refine ⟨name', by omega, fun fuel => ?_⟩
    rw [Nat.add_right_comm, cnameLoop_next hnext, hloop]

lemma cnameLoop_endless
    (h : (Orbit.iter (nameNext signed bytes) fuel p).isSome = true) (name : List UInt8) :
    cnameLoop bytes signed fuel p name = .error .endless := by
  obtain ⟨q, hq⟩ := Option.isSome_iff_exists.mp h
  obtain ⟨name', -, hloop⟩ := cnameLoop_iter hq name
  have hzero := hloop 0
  rw [Nat.add_zero] at hzero
  rw [hzero, cnameLoop]

lemma reached_mem_range (h : ¬ Leaves signed bytes p) (q : ℕ)
    (hq : ReflTransGen (Orbit.Step (nameNext signed bytes)) p q) :
    q ∈ Finset.range bytes.length := by
  rw [Finset.mem_range]
  by_contra hle
  exact h ⟨q, hq, Or.inl (by omega)⟩

lemma cnameLoop_eq_ok {name name' : List UInt8} {found : Bool}
    (h : cnameLoop bytes signed fuel p name = .ok (found, name')) :
    ∃ k q, k < fuel ∧ Orbit.iter (nameNext signed bytes) k p = some q ∧
      nameNext signed bytes q = none ∧ ¬ LeavesAt signed bytes q ∧
      found = decide (bytes[q]? = some 0) ∧ name'.length ≤ name.length + 64 * k ∧
      ∀ fuel', k < fuel' → cnameLoop bytes signed fuel' p name = .ok (found, name') := by
  have hover : Orbit.iter (nameNext signed bytes) fuel p = none := by
    by_contra hne
    rw [cnameLoop_endless (Option.isSome_iff_ne_none.mpr hne)] at h
    cases h
  obtain ⟨k, q, hlt, hiter, hlast⟩ := Orbit.exists_last hover
  obtain ⟨name'', hlength, hloop⟩ := cnameLoop_iter hiter name
  obtain ⟨rest, rfl⟩ := Nat.exists_eq_add_of_lt hlt
  have hleaves : ¬ LeavesAt signed bytes q := by
    intro hleaves
    rw [Nat.add_assoc, hloop, cnameLoop_leaves hleaves] at h
    cases h
  rw [Nat.add_assoc, hloop, cnameLoop_last hlast hleaves] at h
  cases h
  refine ⟨k, q, hlt, hiter, hlast, hleaves, rfl, hlength, fun fuel' hlt' => ?_⟩
  obtain ⟨rest', rfl⟩ := Nat.exists_eq_add_of_lt hlt'
  rw [Nat.add_assoc, hloop, cnameLoop_last hlast hleaves]

lemma cnameLoop_isOk (hinside : ¬ Leaves signed bytes p) (hloops : ¬ Loops signed bytes p)
    (name : List UInt8) :
    ∃ found name', cnameLoop bytes signed bytes.length p name = .ok (found, name') := by
  have hover := (Orbit.iter_card_eq_none_iff (reached_mem_range hinside)).mpr hloops
  rw [Finset.card_range] at hover
  obtain ⟨k, q, hlt, hiter, hlast⟩ := Orbit.exists_last hover
  obtain ⟨name', -, hloop⟩ := cnameLoop_iter hiter name
  obtain ⟨rest, hrest⟩ := Nat.exists_eq_add_of_lt hlt
  have hleaves : ¬ LeavesAt signed bytes q :=
    fun hleaves => hinside ⟨q, Orbit.reaches_iff.mpr ⟨k, hiter⟩, hleaves⟩
  refine ⟨decide (bytes[q]? = some 0), name', ?_⟩
  rw [hrest, Nat.add_assoc, hloop, cnameLoop_last hlast hleaves]

/-- **Decoding.** The loop ends with some number of turns exactly if the message is not left and no
place is visited twice; then the length of the message is enough, and it succeeds if it gets to a
root. -/
lemma cnameLoop_spec {name name' : List UInt8} {found : Bool}
    (h : cnameLoop bytes signed fuel p name = .ok (found, name')) :
    ¬ Leaves signed bytes p ∧ ¬ Loops signed bytes p ∧ (found = true ↔ Ends signed bytes p) ∧
      cnameLoop bytes signed bytes.length p name = .ok (found, name') := by
  obtain ⟨k, q, hlt, hiter, hlast, hleaves, hfound, -, hmore⟩ := cnameLoop_eq_ok h
  have hq := Orbit.reaches_iff.mpr ⟨k, hiter⟩
  have hinside : ¬ Leaves signed bytes p := by
    rintro ⟨q', hreach, hleaves'⟩
    rw [Orbit.last_unique hq hlast hreach (nameNext_of_leavesAt hleaves')] at hleaves'
    exact hleaves hleaves'
  have hloops : ¬ Loops signed bytes p := by
    intro hloops
    rw [cnameLoop_endless (hloops.isSome fuel)] at h
    cases h
  refine ⟨hinside, hloops, ?_, ?_⟩
  · rw [hfound, decide_eq_true_iff]
    constructor
    · intro hroot
      exact ⟨q, hq, hroot⟩
    · rintro ⟨q', hreach, hroot⟩
      have hstop : nameNext signed bytes q' = none := by
        rw [nameNext, hroot]
        rfl
      rwa [Orbit.last_unique hq hlast hreach hstop] at hroot
  obtain ⟨found', name'', hok⟩ := cnameLoop_isOk hinside hloops name
  obtain ⟨k', -, -, -, -, -, -, -, hmore'⟩ := cnameLoop_eq_ok hok
  have hlarge := hmore (k + k' + 1) (by omega)
  rw [hmore' (k + k' + 1) (by omega)] at hlarge
  rw [hok, hlarge]

lemma Ends.inside (h : Ends signed bytes p) :
    ¬ Leaves signed bytes p ∧ ¬ Loops signed bytes p := by
  obtain ⟨q, hreach, hroot⟩ := h
  have hstop : nameNext signed bytes q = none := by
    rw [nameNext, hroot]
    rfl
  refine ⟨?_, ?_⟩
  · rintro ⟨q', hreach', hleaves⟩
    rw [Orbit.last_unique hreach hstop hreach' (nameNext_of_leavesAt hleaves)] at hleaves
    rcases hleaves with hle | ⟨b, hb, hlarge, -⟩
    · rw [List.getElem?_eq_none_iff.mpr hle] at hroot
      cases hroot
    rw [hroot] at hb
    cases hb
    exact absurd hlarge (by decide)
  intro hloops
  obtain ⟨k, hiter⟩ := Orbit.reaches_iff.mp hreach
  have hsome := hloops.isSome (k + 1)
  rw [Orbit.iter_add, hiter, Option.bind_some, Orbit.iter, hstop] at hsome
  exact absurd hsome (by simp)

/-- **Bounded decoding.** Where no byte outside the message is read, the name of a CNAME is decoded
with at most as many turns as the message has bytes, into at most 64 times as many bytes, if and
only if the pointers do not lead back to a place where the loop has been. -/
theorem decode_bounded_iff (signed : Bool) (bytes : List UInt8) (p : ℕ)
    (hinside : ¬ Leaves signed bytes p) :
    (∃ found name, cnameLoop bytes signed bytes.length p [] = .ok (found, name) ∧
      name.length ≤ 64 * bytes.length) ↔ ¬ Loops signed bytes p := by
  constructor
  · rintro ⟨found, name, hloop, -⟩
    exact (cnameLoop_spec hloop).2.1
  intro hloops
  obtain ⟨found, name, hok⟩ := cnameLoop_isOk hinside hloops []
  obtain ⟨k, q, hlt, -, -, -, -, hlength, -⟩ := cnameLoop_eq_ok hok
  rw [List.length_nil] at hlength
  exact ⟨found, name, hok, by omega⟩

def cnameResponse (target : List UInt8) : List UInt8 :=
  [0, 0, 128, 0, 0, 0, 0, 1, 0, 0, 0, 0] ++ [0, 0, 5, 0, 1, 0, 0, 0, 0, 0, 2] ++ target

theorem decode_bounded_sample :
    ¬ Leaves true (cnameResponse [192, 12]) 23 ∧ ¬ Loops true (cnameResponse [192, 12]) 23 ∧
      ∃ found name, cnameLoop (cnameResponse [192, 12]) true 25 23 [] = .ok (found, name) ∧
        name.length ≤ 64 * 25 := by
  have hnext : nameNext true (cnameResponse [192, 12]) 23 = some 12 := by decide +kernel
  have hlast : nameNext true (cnameResponse [192, 12]) 12 = none := by decide +kernel
  have hsteps : ∀ n, Orbit.iter (nameNext true (cnameResponse [192, 12])) (n + 2) 23 = none := by
    intro n
    rw [Orbit.iter, hnext, Option.bind_some, Orbit.iter, hlast, Option.bind_none]
  have hinside : ¬ Leaves true (cnameResponse [192, 12]) 23 := by
    rintro ⟨q, hreach, hleaves⟩
    obtain ⟨n, hn⟩ := Orbit.reaches_iff.mp hreach
    rcases n with _ | _ | n
    · cases hn
      rw [nameNext_of_leavesAt hleaves] at hnext
      cases hnext
    · rw [Orbit.iter, hnext, Option.bind_some, Orbit.iter] at hn
      cases hn
      rcases hleaves with hle | ⟨b, hb, hlarge, -⟩
      · exact absurd hle (by decide)
      · obtain rfl : (0 : UInt8) = b := by simpa [cnameResponse] using hb
        exact absurd hlarge (by decide)
    · rw [hsteps] at hn
      cases hn
  have hloops : ¬ Loops true (cnameResponse [192, 12]) 23 := by
    intro h
    have hsome := h.isSome 2
    rw [hsteps 0] at hsome
    exact absurd hsome (by simp)
  exact ⟨hinside, hloops, (decode_bounded_iff true _ 23 hinside).mpr hloops⟩

lemma selfPointer_iter (signed : Bool) (n : ℕ) :
    Orbit.iter (nameNext signed (cnameResponse [192, 23])) n 23 = some 23 := by
  have hnext : nameNext signed (cnameResponse [192, 23]) 23 = some 23 := by
    cases signed <;> decide +kernel
  induction n with
  | zero => rfl
  | succ n ih => rw [Orbit.iter, hnext, Option.bind_some, ih]

lemma selfPointer_loop (signed : Bool) (fuel : ℕ) :
    cnameLoop (cnameResponse [192, 23]) signed fuel 23 [] = .error .endless :=
  cnameLoop_endless (by rw [selfPointer_iter]; rfl) []

/-- **Endless.** A target that is a pointer to itself: no byte outside the message is read, and the
loop does not end, whether bytes have a sign or not. -/
theorem self_pointer :
    (¬ ∃ signed, Leaves signed (cnameResponse [192, 23]) 23) ∧
      ∀ signed fuel, cnameLoop (cnameResponse [192, 23]) signed fuel 23 [] = .error .endless := by
  refine ⟨?_, selfPointer_loop⟩
  rintro ⟨signed, q, hreach, hleaves⟩
  obtain ⟨n, hn⟩ := Orbit.reaches_iff.mp hreach
  rw [selfPointer_iter] at hn
  cases hn
  have hnext := selfPointer_iter signed 1
  rw [Orbit.iter, nameNext_of_leavesAt hleaves] at hnext
  cases hnext

end Names

end Yass.Net.DnsMessage
