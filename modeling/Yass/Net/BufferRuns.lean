import Yass.Lib.Run
import Yass.Net.IoBuffer

/-!
# `GrowableIOBuffer` under any sequence of operations

In `Net/IoBuffer` a buffer carries its invariant. Here the members are as they are, with those of
the base class, and nothing is known of them.

* `members` — a buffer of `Net/IoBuffer`; each method agrees with its operation there.
* `Op`, `step` — the operations. `copyBuffer` goes on with a new buffer.
* `known` — what the bytes have to be, from the operations alone.

Source: `net/io_buffer.hpp`, `net/io_buffer.cpp`.
-/

namespace Yass.Net.GrowableIOBuffer

def intMax : ℕ := 2 ^ 31 - 1

/-- `data` is where `data_` points inside the allocation. -/
structure Members where
  realData : List UInt8
  capacity : ℕ
  offset : ℕ
  data : ℕ
  size : ℕ
  deriving DecidableEq, Repr

namespace Members

variable (junk : ℕ → UInt8) (s : Members)

def new : Members := ⟨[], 0, 0, 0, 0⟩

def setOffset (offset : ℕ) : Option Members :=
  if offset ≤ s.capacity then
    some { s with offset := offset, data := offset, size := s.capacity - offset }
  else none

def setCapacity (capacity : ℕ) : Option Members :=
  if capacity ≤ s.capacity then { s with capacity := capacity }.setOffset s.offset
  else
    let grown : Members := ⟨realloc junk s.realData capacity, capacity, s.offset, 0, 0⟩
    if capacity < s.offset then grown.setOffset capacity else grown.setOffset s.offset

/-- `memcpy` to the position `pos` of the allocation. -/
def store (pos : ℕ) (bytes : List UInt8) : Option Members :=
  if pos + bytes.length ≤ s.realData.length then
    some { s with
      realData := s.realData.take pos ++ bytes ++ s.realData.drop (pos + bytes.length) }
  else none

def appendBytesAtEnd (bytes : List UInt8) : Option Members := do
  if s.capacity + bytes.length ≤ intMax then
    let grown ← s.setCapacity junk (s.capacity + bytes.length)
    grown.store s.capacity bytes
  else none

def copyBuffer (bytes : List UInt8) : Option Members := do
  let buf ← new.setCapacity junk bytes.length
  buf.store buf.data bytes

end Members

inductive Op where
  | setCapacity (capacity : ℕ)
  | setOffset (offset : ℕ)
  | appendBytesAtEnd (bytes : List UInt8)
  | copyBuffer (bytes : List UInt8)
  deriving DecidableEq, Repr

def step (junk : ℕ → UInt8) (s : Members) : Op → Option Members
  | .setCapacity capacity => s.setCapacity junk capacity
  | .setOffset offset => s.setOffset offset
  | .appendBytesAtEnd bytes => s.appendBytesAtEnd junk bytes
  | .copyBuffer bytes => Members.copyBuffer junk bytes

/-- The arguments are of type `int`, and an offset is in range. -/
def InRange (s : Members) : Op → Prop
  | .setCapacity capacity => capacity ≤ intMax
  | .setOffset offset => offset ≤ s.capacity
  | .appendBytesAtEnd bytes | .copyBuffer bytes => bytes.length ≤ intMax

/-- The condition: no capacity below the offset, and none that overflows. -/
def Meets (s : Members) : Op → Prop
  | .setCapacity capacity => s.offset ≤ capacity
  | .appendBytesAtEnd bytes => s.capacity + bytes.length ≤ intMax
  | .setOffset _ | .copyBuffer _ => True

instance (s : Members) : (op : Op) → Decidable (InRange s op)
  | .setCapacity _ | .setOffset _ | .appendBytesAtEnd _ | .copyBuffer _ =>
    inferInstanceAs (Decidable (_ ≤ _))

instance (s : Members) : (op : Op) → Decidable (Meets s op)
  | .setCapacity _ | .appendBytesAtEnd _ => inferInstanceAs (Decidable (_ ≤ _))
  | .setOffset _ | .copyBuffer _ => isTrue trivial

/-- What is known of the bytes: `none` where nothing was written since the capacity was above. -/
def remember (known : List (Option UInt8)) : Op → List (Option UInt8)
  | .setCapacity capacity =>
    known.take capacity ++ List.replicate (capacity - known.length) none
  | .setOffset _ => known
  | .appendBytesAtEnd bytes => known ++ bytes.map some
  | .copyBuffer bytes => bytes.map some

def known (ops : List Op) : List (Option UInt8) := ops.foldl remember []

/-- `data()` and `size()` are the bytes from the offset to the capacity. -/
structure Sound (s : Members) : Prop where
  offset_le : s.offset ≤ s.capacity
  capacity_le : s.capacity ≤ s.realData.length
  data : s.data = s.offset
  size : s.data + s.size = s.capacity

/-- The bytes that are known are there. -/
def Keeps (known : List (Option UInt8)) (bytes : List UInt8) : Prop :=
  List.Forall₂ (fun k byte => ∀ v, k = some v → byte = v) known bytes

/-! ## The methods and the operations of `Net/IoBuffer` -/

def members (b : GrowableIOBuffer) : Members :=
  ⟨b.realData, b.capacity, b.offset, b.offset, b.size⟩

variable {junk : ℕ → UInt8} {b : GrowableIOBuffer}

lemma sound_members (b : GrowableIOBuffer) : Sound b.members :=
  ⟨b.offset_le, b.capacity_le, rfl, Nat.add_sub_cancel' b.offset_le⟩

lemma setOffset_members (b : GrowableIOBuffer) (offset : ℕ) :
    b.members.setOffset offset = (b.setOffset offset).map members := by
  unfold Members.setOffset setOffset
  by_cases h : offset ≤ b.capacity
  · rw [dif_pos h]
    exact if_pos h
  · rw [dif_neg h]
    exact if_neg h

lemma setCapacity_members (junk : ℕ → UInt8) (b : GrowableIOBuffer) (n : ℕ) :
    b.members.setCapacity junk n = (b.setCapacity junk n).map members := by
  have hoffset := b.offset_le
  unfold Members.setCapacity setCapacity
  by_cases hn : n ≤ b.capacity
  · rw [dif_pos hn, if_pos (show n ≤ b.members.capacity from hn)]
    by_cases h : b.offset ≤ n
    · rw [dif_pos h]
      exact if_pos h
    · rw [dif_neg h]
      exact if_neg h
  have hbelow : ¬ n < b.members.offset := fun h => by
    simp only [members] at h
    omega
  rw [dif_neg hn, if_neg (show ¬ n ≤ b.members.capacity from hn)]
  dsimp only
  rw [if_neg hbelow]
  exact if_pos (not_lt.mp hbelow)

lemma store_members (b : GrowableIOBuffer) (pos : ℕ) (bytes : List UInt8) :
    b.members.store pos bytes = (b.store pos bytes).map members := by
  unfold Members.store store
  by_cases h : pos + bytes.length ≤ b.realData.length
  · rw [dif_pos h]
    exact if_pos h
  · rw [dif_neg h]
    exact if_neg h

lemma appendBytesAtEnd_members {bytes : List UInt8} (h : b.capacity + bytes.length ≤ intMax) :
    b.members.appendBytesAtEnd junk bytes = (b.appendBytesAtEnd junk bytes).map members := by
  unfold Members.appendBytesAtEnd appendBytesAtEnd
  rw [if_pos (show b.members.capacity + bytes.length ≤ intMax from h), Option.bind_eq_bind,
    setCapacity_members, Option.bind_map, Option.map_bind]
  exact congrArg _ (funext fun grown => store_members grown _ bytes)

lemma copyBuffer_members (junk : ℕ → UInt8) (bytes : List UInt8) :
    Members.copyBuffer junk bytes = some (copyBuffer bytes).members := by
  obtain ⟨buf, hbuf, hcap, hoff⟩ := setCapacity_fresh junk bytes.length
  obtain ⟨hlen, -⟩ := length_realData_of_fresh hbuf
  have hnew : Members.new.setCapacity junk bytes.length = some buf.members := by
    rw [show Members.new = fresh.members from rfl, setCapacity_members, hbuf, Option.map_some]
  have hend : buf.realData.drop bytes.length = [] := List.drop_of_length_le hlen.le
  rw [Members.copyBuffer, hnew]
  simp [members, Members.store, copyBuffer, size, hlen, hoff, hcap, hend]

/-! ## Runs -/

lemma keeps_none (bytes : List UInt8) :
    Keeps (List.replicate bytes.length none) bytes := by
  induction bytes with
  | nil => exact .nil
  | cons byte bytes ih => exact .cons (fun v h => by cases h) ih

lemma keeps_some (bytes : List UInt8) : Keeps (bytes.map some) bytes :=
  List.forall₂_map_left_iff.mpr (List.forall₂_same.mpr fun _ _ _ h => Option.some.inj h)

lemma Keeps.append {k k' : List (Option UInt8)} {l l' : List UInt8} (h : Keeps k l)
    (h' : Keeps k' l') : Keeps (k ++ k') (l ++ l') :=
  List.rel_append h h'

variable {k : List (Option UInt8)}

lemma keeps_setCapacity (h : Keeps k b.everything) {n : ℕ} (ho : b.offset ≤ n) :
    ∃ b', b.setCapacity junk n = some b' ∧ Keeps (remember k (.setCapacity n)) b'.everything := by
  have hlength : k.length = b.capacity := by rw [h.length_eq, length_everything]
  rw [remember, hlength]
  rcases le_total n b.capacity with hn | hn
  · obtain ⟨b', hb', heverything, -⟩ := setCapacity_of_le junk hn ho
    rw [Nat.sub_eq_zero_of_le hn, List.replicate_zero, List.append_nil]
    exact ⟨b', hb', heverything ▸ List.forall₂_take n h⟩
  obtain ⟨m, rfl⟩ := Nat.exists_eq_add_of_le hn
  obtain ⟨b', rest, hb', rfl, heverything, -⟩ := setCapacity_add junk b m
  rw [List.take_of_length_le (by omega), Nat.add_sub_cancel_left]
  exact ⟨b', hb', heverything ▸ h.append (keeps_none rest)⟩

lemma keeps_appendBytesAtEnd (h : Keeps k b.everything) (bytes : List UInt8) :
    ∃ b', b.appendBytesAtEnd junk bytes = some b' ∧ Keeps (k ++ bytes.map some) b'.everything := by
  obtain ⟨b₁, rest, hb₁, hrest, heverything, -⟩ := setCapacity_add junk b bytes.length
  obtain ⟨b', hb', hend, -⟩ := store_append heverything hrest.ge
  rw [length_everything] at hb'
  refine ⟨b', by rw [appendBytesAtEnd, hb₁, Option.bind_some, hb'], ?_⟩
  rw [hend, ← hrest, List.drop_length, List.append_nil]
  exact h.append (keeps_some bytes)

lemma step_members (junk : ℕ → UInt8) (h : Keeps k b.everything)
    {op : Op} (hrange : InRange b.members op) (hmeets : Meets b.members op) :
    ∃ b' : GrowableIOBuffer, step junk b.members op = some b'.members ∧
      Keeps (remember k op) b'.everything := by
  cases op with
  | setCapacity n =>
    obtain ⟨b', hb', hkeeps⟩ := keeps_setCapacity h hmeets
    exact ⟨b', by rw [step, setCapacity_members, hb', Option.map_some], hkeeps⟩
  | setOffset offset =>
    obtain ⟨b', hb', heverything, -⟩ := setOffset_of_le hrange
    exact ⟨b', by rw [step, setOffset_members, hb', Option.map_some], heverything ▸ h⟩
  | appendBytesAtEnd bytes =>
    obtain ⟨b', hb', hkeeps⟩ := keeps_appendBytesAtEnd h bytes
    exact ⟨b', by rw [step, appendBytesAtEnd_members hmeets, hb', Option.map_some], hkeeps⟩
  | copyBuffer bytes =>
    refine ⟨copyBuffer bytes, copyBuffer_members junk bytes, ?_⟩
    have heverything : (copyBuffer bytes).everything = bytes := List.take_length
    rw [heverything]
    exact keeps_some bytes

lemma meets_of_step {op : Op} {s : Members} (hstep : step junk b.members op = some s) :
    Meets b.members op ∧ ∃ b' : GrowableIOBuffer, s = b'.members := by
  cases op with
  | setCapacity n =>
    rw [step, setCapacity_members] at hstep
    obtain ⟨b', hb', rfl⟩ := Option.map_eq_some_iff.mp hstep
    obtain ⟨hcap, hoff⟩ := setCapacity_eq_some hb'
    refine ⟨?_, b', rfl⟩
    change b.offset ≤ n
    rw [← hoff, ← hcap]
    exact b'.offset_le
  | setOffset offset =>
    rw [step, setOffset_members] at hstep
    obtain ⟨b', -, rfl⟩ := Option.map_eq_some_iff.mp hstep
    exact ⟨trivial, b', rfl⟩
  | appendBytesAtEnd bytes =>
    by_cases h : b.capacity + bytes.length ≤ intMax
    · rw [step, appendBytesAtEnd_members h] at hstep
      obtain ⟨b', -, rfl⟩ := Option.map_eq_some_iff.mp hstep
      exact ⟨h, b', rfl⟩
    rw [step, Members.appendBytesAtEnd,
      if_neg (show ¬ b.members.capacity + bytes.length ≤ intMax from h)] at hstep
    cases hstep
  | copyBuffer bytes =>
    rw [step, copyBuffer_members] at hstep
    cases hstep
    exact ⟨trivial, _, rfl⟩

/-- **Buffers.** For every sequence of operations with arguments in range: none aborts, the members
are in order and all known bytes are there, exactly if the condition holds at each of them. -/
theorem buffer_sound_iff (junk : ℕ → UInt8) (ops : List Op)
    (hrange : Run.Along (step junk) InRange Members.new ops) :
    (∃ s, Run.exec (step junk) Members.new ops = some s ∧ Sound s ∧
      Keeps (known ops) (s.realData.take s.capacity)) ↔
      Run.Along (step junk) Meets Members.new ops := by
  constructor
  · rintro ⟨s, hrun, -, -⟩
    refine Run.along_of_exec (I := fun s => ∃ b : GrowableIOBuffer, s = b.members) ?_
      ⟨fresh, rfl⟩ hrun
    rintro _ op s' ⟨b, rfl⟩ hstep
    exact meets_of_step hstep
  intro hmeets
  have hboth := hrange.and hmeets
  obtain ⟨s, hrun, -⟩ : ∃ s, Run.exec (step junk) Members.new ops = some s ∧
      ∃ b : GrowableIOBuffer, s = b.members := by
    refine Run.exec_invariant ?_ ⟨fresh, rfl⟩ hboth
    rintro _ op ⟨b, rfl⟩ ⟨hin, hmeet⟩
    obtain ⟨b', hb', -⟩ := step_members junk (keeps_none b.everything) hin hmeet
    exact ⟨_, hb', b', rfl⟩
  obtain ⟨b, rfl, hkeeps⟩ : ∃ b : GrowableIOBuffer, s = b.members ∧
      Keeps (known ops) b.everything := by
    refine Run.along_keeps_history (I := fun ops s => ∃ b : GrowableIOBuffer, s = b.members ∧
      Keeps (known ops) b.everything) ?_ ⟨fresh, rfl, .nil⟩ hboth hrun
    rintro ops _ op s' ⟨b, rfl, hkeeps⟩ ⟨hin, hmeet⟩ hstep
    obtain ⟨b', hb', hkeeps'⟩ := step_members junk hkeeps hin hmeet
    cases hstep.symm.trans hb'
    exact ⟨b', rfl, by rwa [known, List.foldl_append]⟩
  exact ⟨_, hrun, sound_members b, hkeeps⟩

theorem buffer_sound_sample :
    let ops : List Op := [.setCapacity 8, .setOffset 3, .setCapacity 3, .appendBytesAtEnd [7, 9],
      .copyBuffer [1, 2], .appendBytesAtEnd [3]]
    ∃ s, Run.exec (step fun _ => 0) Members.new ops = some s ∧ Sound s ∧
      Keeps [some 1, some 2, some 3] (s.realData.take s.capacity) :=
  (buffer_sound_iff _ _ (by decide)).mpr (by decide)

/-- The capacity is set below the offset. -/
theorem shrunk_below_offset :
    (∀ junk, Run.exec (step junk) Members.new [.setCapacity 8, .setOffset 5] =
      some ⟨(List.range 8).map junk, 8, 5, 5, 3⟩) ∧
    ∀ junk, Run.exec (step junk) Members.new
      [.setCapacity 8, .setOffset 5, .setCapacity 2] = none :=
  ⟨fun _ => rfl, fun _ => rfl⟩

end Yass.Net.GrowableIOBuffer
