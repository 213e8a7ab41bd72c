import Yass.Net.IoBuffer

/-!
# `IoQueue`: the ring of buffers in front of every socket

* `cells` — the slots from `idx_` up to `end_idx_`. Each operation has one lemma on `cells`.
* `IoQueue` — a ring whose used slots are not null. `toList` is the queue as a list of buffers,
  oldest first, and the operations are the list operations on it.

A queue holds pointers, and a buffer is changed through the pointer that `front()` or `back()`
returned. `setFront` and `setBack` are such changes.

Source: `net/io_queue.hpp`.
-/

namespace Yass.Net

open List (length_set map_append map_congr_left map_cons mem_range)

/-- `DEFAULT_QUEUE_LENGTH`, on the platforms that are not mobile. -/
def defaultQueueLength : ℕ := 16

/-! ## The ring -/

/-- The members of an `IoQueue`. -/
structure Ring (α : Type) where
  /-- `queue_`. -/
  slots : List (Option α)
  idx : ℕ
  endIdx : ℕ
  idx_lt : idx < slots.length
  endIdx_lt : endIdx < slots.length
  deriving DecidableEq, Repr

namespace Ring

variable {α : Type}

def length (r : Ring α) : ℕ := (r.endIdx + r.slots.length - r.idx) % r.slots.length

/-- What is in the slot `i`; a null pointer, or no slot at all, is `none`. -/
def slot (r : Ring α) (i : ℕ) : Option α := (r.slots[i]?).join

def cells (r : Ring α) : List (Option α) :=
  (List.range r.length).map fun i => r.slot ((r.idx + i) % r.slots.length)

/-- `enlarge_queue_by_2x`, which is called when the two indices have met: what is in front of the
end of the vector, what has wrapped around, and as many null pointers. -/
def enlargeQueueBy2x (r : Ring α) : Ring α where
  slots := r.slots.drop r.idx ++ r.slots.take r.endIdx ++
    List.replicate (2 * r.slots.length - (r.slots.length - r.idx + r.endIdx)) none
  idx := 0
  endIdx := r.slots.length
  idx_lt := by
    have := r.idx_lt
    have := r.endIdx_lt
    simp only [List.length_append, List.length_drop, List.length_take, List.length_replicate]
    omega
  endIdx_lt := by
    have := r.idx_lt
    have := r.endIdx_lt
    simp only [List.length_append, List.length_drop, List.length_take, List.length_replicate]
    omega

def set (r : Ring α) (i : ℕ) (x : Option α) : Ring α :=
  { r with
    slots := r.slots.set i x
    idx_lt := by simpa using r.idx_lt
    endIdx_lt := by simpa using r.endIdx_lt }

/-- `end_idx_ = (end_idx_ + 1) % queue_.size()`. -/
def advanceEnd (r : Ring α) : Ring α :=
  { r with
    endIdx := (r.endIdx + 1) % r.slots.length
    endIdx_lt := Nat.mod_lt _ (Nat.zero_lt_of_lt r.endIdx_lt) }

/-- `idx_ = (idx_ + 1) % queue_.size()`. -/
def advance (r : Ring α) : Ring α :=
  { r with
    idx := (r.idx + 1) % r.slots.length
    idx_lt := Nat.mod_lt _ (Nat.zero_lt_of_lt r.idx_lt) }

def pushBack (r : Ring α) (x : α) : Ring α :=
  let r := (r.set r.endIdx (some x)).advanceEnd
  if r.endIdx = r.idx then r.enlargeQueueBy2x else r

def popFront (r : Ring α) : Ring α := (r.set r.idx none).advance

def front (r : Ring α) : Option α := r.slot r.idx

/-- The index that `back()` reads. -/
def lastIdx (r : Ring α) : ℕ := (r.endIdx + r.slots.length - 1) % r.slots.length

def back (r : Ring α) : Option α := r.slot r.lastIdx

/-- `empty()`. -/
def isEmpty (r : Ring α) : Bool := r.idx == r.endIdx

/-! ## One lemma per operation -/

lemma add_mod_eq_ite {a b n : ℕ} (ha : a < n) (hb : b ≤ n) :
    (a + b) % n = if a + b < n then a + b else a + b - n := by
  split_ifs with h
  · exact Nat.mod_eq_of_lt h
  · rw [Nat.mod_eq_sub_mod (Nat.le_of_not_lt h)]
    exact Nat.mod_eq_of_lt (by omega)

lemma length_eq (r : Ring α) :
    r.length = if r.idx ≤ r.endIdx then r.endIdx - r.idx
      else r.endIdx + r.slots.length - r.idx := by
  have hidx := r.idx_lt
  have hend := r.endIdx_lt
  rw [length]
  split_ifs with h
  · rw [show r.endIdx + r.slots.length - r.idx = r.endIdx - r.idx + r.slots.length by omega,
      Nat.add_mod_right, Nat.mod_eq_of_lt (by omega)]
  · exact Nat.mod_eq_of_lt (by omega)

lemma length_lt (r : Ring α) : r.length < r.slots.length :=
  Nat.mod_lt _ (Nat.zero_lt_of_lt r.idx_lt)

@[simp] lemma length_cells (r : Ring α) : r.cells.length = r.length := by
  simp [cells]

lemma idx_add_length (r : Ring α) : (r.idx + r.length) % r.slots.length = r.endIdx := by
  have hidx := r.idx_lt
  have hend := r.endIdx_lt
  have hlt := r.length_lt
  rw [add_mod_eq_ite hidx hlt.le]
  have hlen := r.length_eq
  split_ifs at hlen ⊢ <;> omega

/-- Different cells are in different slots. -/
lemma idx_add_inj (r : Ring α) {i j : ℕ} (hi : i < r.slots.length) (hj : j < r.slots.length) :
    (r.idx + i) % r.slots.length = (r.idx + j) % r.slots.length ↔ i = j := by
  have hidx := r.idx_lt
  rw [add_mod_eq_ite hidx hi.le, add_mod_eq_ite hidx hj.le]
  split_ifs <;> omega

lemma idx_add_ne_endIdx (r : Ring α) {i : ℕ} (hi : i < r.length) :
    (r.idx + i) % r.slots.length ≠ r.endIdx := by
  have hlt := r.length_lt
  rw [← r.idx_add_length, Ne, r.idx_add_inj (hi.trans hlt) hlt]
  exact hi.ne

lemma isEmpty_iff (r : Ring α) : r.isEmpty = true ↔ r.cells = [] := by
  have hidx := r.idx_lt
  have hend := r.endIdx_lt
  have hlen := r.length_eq
  rw [← List.length_eq_zero_iff, length_cells, isEmpty, beq_iff_eq]
  split_ifs at hlen <;> omega

lemma slot_set (r : Ring α) {i : ℕ} (hi : i < r.slots.length) (x : Option α) (j : ℕ) :
    (r.set i x).slot j = if i = j then x else r.slot j := by
  simp only [slot, set, List.getElem?_set]
  split_ifs with hij
  · rfl
  · rfl

variable {r : Ring α}

lemma map_slot_store (x : α) :
    ((List.range (r.length + 1)).map fun i =>
      (r.set r.endIdx (some x)).slot ((r.idx + i) % r.slots.length)) = r.cells ++ [some x] := by
  have hend := r.endIdx_lt
  rw [List.range_succ, map_append]
  congr 1
  · refine map_congr_left fun i hi => ?_
    have hne := r.idx_add_ne_endIdx (mem_range.mp hi)
    rw [slot_set r hend, if_neg (Ne.symm hne)]
  · show [(r.set r.endIdx (some x)).slot ((r.idx + r.length) % r.slots.length)] = _
    rw [slot_set r hend, idx_add_length, if_pos rfl]

lemma cells_store (x : α) (h : (r.endIdx + 1) % r.slots.length ≠ r.idx) :
    ((r.set r.endIdx (some x)).advanceEnd).cells = r.cells ++ [some x] := by
  have hidx := r.idx_lt
  have hend := r.endIdx_lt
  have hlen : ((r.set r.endIdx (some x)).advanceEnd).length = r.length + 1 := by
    have hone : 1 ≤ r.slots.length := by omega
    simp only [length_eq, advanceEnd, set, length_set] at *
    rw [add_mod_eq_ite hend hone] at h ⊢
    split_ifs at h ⊢ <;> omega
  rw [cells, hlen, ← map_slot_store]
  refine map_congr_left fun i _ => ?_
  show (r.set r.endIdx (some x)).slot ((r.idx + i) % (r.slots.set r.endIdx (some x)).length) = _
  rw [length_set]

lemma cells_enlargeQueueBy2x (h : r.endIdx = r.idx) :
    r.enlargeQueueBy2x.cells =
      (List.range r.slots.length).map fun i => r.slot ((r.idx + i) % r.slots.length) := by
  have hidx := r.idx_lt
  have hcount : r.enlargeQueueBy2x.slots.length = 2 * r.slots.length := by
    simp only [enlargeQueueBy2x, h, List.length_append, List.length_drop, List.length_take,
      List.length_replicate]
    omega
  have hlen : r.enlargeQueueBy2x.length = r.slots.length := by
    rw [length_eq, hcount]
    simp [enlargeQueueBy2x]
  rw [cells, hlen]
  refine map_congr_left fun i hi => ?_
  have hi : i < r.slots.length := mem_range.mp hi
  have hidx0 : (r.enlargeQueueBy2x.idx + i) % r.enlargeQueueBy2x.slots.length = i := by
    rw [hcount]
    show (0 + i) % _ = i
    rw [Nat.zero_add, Nat.mod_eq_of_lt (by omega)]
  have hrotate : r.slots.drop r.idx ++ r.slots.take r.endIdx = r.slots.rotate r.idx := by
    rw [h, List.rotate_eq_drop_append_take hidx.le]
  rw [hidx0, slot, slot]
  show ((r.slots.drop r.idx ++ r.slots.take r.endIdx ++ _)[i]?).join = _
  rw [hrotate, List.getElem?_append_left (by simpa using hi), List.getElem?_rotate hi,
    Nat.add_comm i]

lemma cells_pushBack (r : Ring α) (x : α) : (r.pushBack x).cells = r.cells ++ [some x] := by
  have hidx := r.idx_lt
  have hend := r.endIdx_lt
  rw [pushBack]
  by_cases hfull : (r.endIdx + 1) % r.slots.length = r.idx
  · have hmet : ((r.set r.endIdx (some x)).advanceEnd).endIdx =
        ((r.set r.endIdx (some x)).advanceEnd).idx := by
      simpa [advanceEnd, set] using hfull
    have hlen : r.slots.length = r.length + 1 := by
      have hone : 1 ≤ r.slots.length := by omega
      rw [add_mod_eq_ite hend hone] at hfull
      have := r.length_eq
      split_ifs at hfull this <;> omega
    rw [if_pos hmet, cells_enlargeQueueBy2x hmet]
    show ((List.range (r.slots.set r.endIdx (some x)).length).map fun i =>
      (r.set r.endIdx (some x)).slot
        ((r.idx + i) % (r.slots.set r.endIdx (some x)).length)) = _
    rw [length_set, ← map_slot_store, ← hlen]
  have hfree : ((r.set r.endIdx (some x)).advanceEnd).endIdx ≠
      ((r.set r.endIdx (some x)).advanceEnd).idx := by
    simpa [advanceEnd, set] using hfull
  rw [if_neg hfree, cells_store x hfull]

lemma length_pos (h : r.cells ≠ []) : 0 < r.length := by
  rw [← length_cells]
  exact List.length_pos_iff.mpr h

lemma cells_eq_cons (h : r.cells ≠ []) :
    r.cells = r.front :: (List.range (r.length - 1)).map fun i =>
      r.slot ((r.idx + (i + 1)) % r.slots.length) := by
  obtain ⟨k, hk⟩ := Nat.exists_eq_succ_of_ne_zero (length_pos h).ne'
  rw [cells, hk, List.range_succ_eq_map, map_cons, List.map_map]
  refine congrArg₂ List.cons ?_ rfl
  show r.slot ((r.idx + 0) % r.slots.length) = r.slot r.idx
  rw [Nat.add_zero, Nat.mod_eq_of_lt r.idx_lt]

lemma lastIdx_eq (h : 0 < r.length) :
    r.lastIdx = (r.idx + (r.length - 1)) % r.slots.length := by
  have hidx := r.idx_lt
  have hend := r.endIdx_lt
  have hlt := r.length_lt
  have hlen := r.length_eq
  rw [lastIdx, show r.endIdx + r.slots.length - 1 = r.endIdx + (r.slots.length - 1) by omega,
    add_mod_eq_ite hidx (by omega), add_mod_eq_ite hend (by omega)]
  split_ifs at hlen ⊢ <;> omega

lemma cells_eq_append (h : r.cells ≠ []) :
    r.cells = ((List.range (r.length - 1)).map fun i =>
      r.slot ((r.idx + i) % r.slots.length)) ++ [r.back] := by
  obtain ⟨k, hk⟩ := Nat.exists_eq_succ_of_ne_zero (length_pos h).ne'
  have hlast : (r.idx + k) % r.slots.length = r.lastIdx := by
    rw [lastIdx_eq (length_pos h), hk, Nat.succ_sub_one]
  rw [cells, hk, List.range_succ, map_append, Nat.succ_sub_one]
  refine congrArg₂ _ rfl ?_
  show [r.slot ((r.idx + k) % r.slots.length)] = [r.back]
  rw [hlast, back]

lemma cells_popFront (h : r.cells ≠ []) : r.popFront.cells = r.cells.tail := by
  have hidx := r.idx_lt
  have hend := r.endIdx_lt
  have hlt := r.length_lt
  have hpos := length_pos h
  have hlen : r.popFront.length = r.length - 1 := by
    have hone : 1 ≤ r.slots.length := by omega
    simp only [length_eq, popFront, advance, set, length_set] at hpos ⊢
    rw [add_mod_eq_ite hidx hone]
    split_ifs at hpos ⊢ <;> omega
  rw [cells_eq_cons h, List.tail_cons, cells, hlen]
  refine map_congr_left fun i hi => ?_
  have hi : i + 1 < r.length := by
    have := mem_range.mp hi
    omega
  have hne : (r.idx + (i + 1)) % r.slots.length ≠ (r.idx + 0) % r.slots.length := by
    rw [Ne, r.idx_add_inj (hi.trans hlt) (by omega)]
    exact Nat.succ_ne_zero i
  rw [show (r.idx + 0) % r.slots.length = r.idx from Nat.mod_eq_of_lt hidx] at hne
  show (r.set r.idx none).slot
    (((r.idx + 1) % (r.slots.set r.idx none).length + i) % (r.slots.set r.idx none).length) = _
  rw [length_set, Nat.mod_add_mod, Nat.add_assoc, Nat.add_comm 1 i, slot_set r hidx,
    if_neg (Ne.symm hne)]

lemma cells_set {i : ℕ} (hi : i < r.length) (x : Option α) :
    (r.set ((r.idx + i) % r.slots.length) x).cells = r.cells.set i x := by
  have hlt := r.length_lt
  have hin : (r.idx + i) % r.slots.length < r.slots.length := Nat.mod_lt _ (by omega)
  have hlen : (r.set ((r.idx + i) % r.slots.length) x).length = r.length := by simp [length, set]
  refine List.ext_getElem (by simp [hlen]) fun j hj _ => ?_
  rw [length_cells, hlen] at hj
  rw [List.getElem_set]
  simp only [cells, List.getElem_map, List.getElem_range]
  show (r.set _ x).slot ((r.idx + j) % (r.slots.set _ x).length) = _
  rw [length_set, slot_set r hin]
  exact if_congr (r.idx_add_inj (hi.trans hlt) (hj.trans hlt)) rfl rfl

lemma cells_set_idx (h : r.cells ≠ []) (x : α) :
    (r.set r.idx (some x)).cells = some x :: r.cells.tail := by
  have hset := cells_set (length_pos h) (some x)
  rw [Nat.add_zero, Nat.mod_eq_of_lt r.idx_lt] at hset
  rw [hset, cells_eq_cons h]
  rfl

lemma cells_set_lastIdx (h : r.cells ≠ []) (x : α) :
    (r.set r.lastIdx (some x)).cells = r.cells.dropLast ++ [some x] := by
  have hpos := length_pos h
  have hset := cells_set (Nat.sub_lt hpos Nat.one_pos) (some x)
  rw [← lastIdx_eq hpos] at hset
  rw [hset, cells_eq_append h, List.dropLast_concat, List.set_append_right _ _ (by simp)]
  simp

end Ring

/-! ## The queue -/

structure IoQueue (α : Type) extends Ring α where
  held : none ∉ toRing.cells
  deriving DecidableEq, Repr

namespace IoQueue

variable {α : Type}

def toList (q : IoQueue α) : List α := q.cells.filterMap id

lemma cells_eq (q : IoQueue α) : q.cells = q.toList.map some := by
  have held := q.held
  rw [toList]
  generalize q.cells = cells at held
  induction cells with
  | nil => rfl
  | cons c cs ih =>
    obtain ⟨hc, hcs⟩ := not_or.mp (List.mem_cons.not.mp held)
    obtain ⟨x, rfl⟩ := Option.ne_none_iff_exists'.mp (Ne.symm hc)
    have hx : (some x :: cs).filterMap id = x :: cs.filterMap id := rfl
    rw [hx, map_cons, ← ih hcs]

variable {q : IoQueue α}

lemma toList_of_cells {l : List α} (h : q.cells = l.map some) :
    q.toList = l := by
  rw [toList, h, List.filterMap_map]
  exact List.filterMap_some

lemma held_of_cells {r : Ring α} {l : List α} (h : r.cells = l.map some) : none ∉ r.cells := by
  simp [h]

lemma cells_ne_nil (h : q.toList ≠ []) : q.cells ≠ [] := by
  rw [cells_eq]
  simpa using h

def new : IoQueue α where
  slots := List.replicate defaultQueueLength none
  idx := 0
  endIdx := 0
  idx_lt := by simp [defaultQueueLength]
  endIdx_lt := by simp [defaultQueueLength]
  held := by simp [Ring.cells, Ring.length]

def pushBack (q : IoQueue α) (x : α) : IoQueue α :=
  ⟨q.toRing.pushBack x,
    held_of_cells (l := q.toList ++ [x]) (by simp [Ring.cells_pushBack, cells_eq])⟩

/-- `pop_front`; `none` where the queue is empty, which the source does not allow. -/
def popFront (q : IoQueue α) : Option (IoQueue α) :=
  if h : q.toList = [] then none
  else some ⟨q.toRing.popFront, held_of_cells (l := q.toList.tail) (by
    rw [Ring.cells_popFront (cells_ne_nil h), cells_eq, List.map_tail])⟩

/-- A change of the buffer `front()` points to. -/
def setFront (q : IoQueue α) (x : α) : Option (IoQueue α) :=
  if h : q.toList = [] then none
  else some ⟨q.set q.idx (some x), held_of_cells (l := x :: q.toList.tail) (by
    rw [Ring.cells_set_idx (cells_ne_nil h), cells_eq, ← List.map_tail, map_cons])⟩

/-- A change of the buffer `back()` points to. -/
def setBack (q : IoQueue α) (x : α) : Option (IoQueue α) :=
  if h : q.toList = [] then none
  else some ⟨q.set q.lastIdx (some x), held_of_cells (l := q.toList.dropLast ++ [x]) (by
    rw [Ring.cells_set_lastIdx (cells_ne_nil h), cells_eq, ← List.map_dropLast, map_append]
    rfl)⟩

/-! ### The queue is a list -/

@[simp] lemma toList_new : (new : IoQueue α).toList = [] := by
  simp [toList, new, Ring.cells, Ring.length]

@[simp] lemma toList_pushBack (q : IoQueue α) (x : α) :
    (q.pushBack x).toList = q.toList ++ [x] :=
  toList_of_cells (by simp [pushBack, Ring.cells_pushBack, cells_eq])

lemma isEmpty_iff (q : IoQueue α) : q.isEmpty = true ↔ q.toList = [] := by
  rw [Ring.isEmpty_iff, cells_eq, List.map_eq_nil_iff]

lemma front_eq (q : IoQueue α) (h : q.toList ≠ []) : q.front = q.toList.head? := by
  have hcells := Ring.cells_eq_cons (cells_ne_nil h)
  rw [cells_eq] at hcells
  cases hlist : q.toList with
  | nil => exact absurd hlist h
  | cons x xs =>
    rw [hlist, map_cons] at hcells
    exact (List.cons.inj hcells).1.symm

lemma back_eq (q : IoQueue α) (h : q.toList ≠ []) : q.back = q.toList.getLast? := by
  have hcells := Ring.cells_eq_append (cells_ne_nil h)
  rw [cells_eq] at hcells
  have hlast := congrArg List.getLast? hcells
  rw [List.getLast?_map, List.getLast?_concat] at hlast
  cases hq : q.toList.getLast? with
  | none => exact absurd (List.getLast?_eq_none_iff.mp hq) h
  | some x =>
    rw [hq] at hlast
    exact (Option.some.inj hlast).symm

lemma popFront_of_cons {x : α} {xs : List α} (h : q.toList = x :: xs) :
    ∃ q', q.popFront = some q' ∧ q'.toList = xs := by
  have hne : q.toList ≠ [] := by simp [h]
  rw [popFront, dif_neg hne]
  refine ⟨_, rfl, toList_of_cells ?_⟩
  rw [Ring.cells_popFront (cells_ne_nil hne), cells_eq, h]
  rfl

lemma setFront_of_cons {x : α} {xs : List α} (h : q.toList = x :: xs) (y : α) :
    ∃ q', q.setFront y = some q' ∧ q'.toList = y :: xs := by
  have hne : q.toList ≠ [] := by simp [h]
  rw [setFront, dif_neg hne]
  refine ⟨_, rfl, toList_of_cells ?_⟩
  rw [Ring.cells_set_idx (cells_ne_nil hne), cells_eq, h]
  rfl

lemma setBack_of_append {x : α} {xs : List α} (h : q.toList = xs ++ [x]) (y : α) :
    ∃ q', q.setBack y = some q' ∧ q'.toList = xs ++ [y] := by
  have hne : q.toList ≠ [] := by simp [h]
  rw [setBack, dif_neg hne]
  refine ⟨_, rfl, toList_of_cells ?_⟩
  rw [Ring.cells_set_lastIdx (cells_ne_nil hne), cells_eq, h, ← List.map_dropLast,
    List.dropLast_concat, map_append]
  rfl

end IoQueue

end Yass.Net
