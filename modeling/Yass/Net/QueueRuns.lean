import Yass.Lib.Lists
import Yass.Lib.Run
import Yass.Net.IoQueue

/-!
# `IoQueue` as a list of buffers

The operations that no socket needs (`byte_length`, `clear`, the moves and `swap`), and what holds
of any number of queues under any sequence of operations.

* `byteLength` — the loop over the ring; `none` is a null pointer that is used.
* `moveConstruct`, `moveAssign`, `clear`, `swap` — the members as the source moves them.
* `Used`, `Vacant` — the slots outside of the queue hold null pointers.

Indices are `ℕ` where the source has `int`; a debug check there keeps them below `INT_MAX`.

Source: `net/io_queue.hpp`.
-/

namespace Yass.Net

open Option (bind_eq_some_iff)

namespace Ring

variable {α : Type}

/-! ## The other operations -/

section Constructors

variable (n : ℕ) [NeZero n]

/-- A queue with the default length `n`. All slots are null. -/
def fresh : Ring α where
  slots := List.replicate n none
  idx := 0
  endIdx := 0
  idx_lt := by simpa using Nat.pos_of_neZero n
  endIdx_lt := by simpa using Nat.pos_of_neZero n

/-- The move constructor: the new queue, and what is left of `rhs`. The `queue_` of a new queue is
exchanged with that of `rhs`, and the indices of `rhs` are set to `0`. -/
def moveConstruct (rhs : Ring α) : Ring α × Ring α := (rhs, fresh n)

/-- Move assignment: `queue_` is exchanged with that of `rhs`, which then gets a new one. -/
def moveAssign (_this rhs : Ring α) : Ring α × Ring α := (rhs, fresh n)

/-- `clear()`: move assignment from a new queue. -/
def clear (this : Ring α) : Ring α := (moveAssign n this (fresh n)).1

end Constructors

def swap (this other : Ring α) : Ring α × Ring α := (other, this)

/-- The loop of `byte_length`, from slot `i` to `end_idx_`. It takes fewer turns than there are
slots. -/
def byteLengthLoop (r : Ring α) (size : α → ℕ) : ℕ → ℕ → ℕ → Option ℕ
  | 0, _, ret => some ret
  | turns + 1, i, ret =>
    if i = r.endIdx then some ret
    else do
      let buf ← r.slot i
      r.byteLengthLoop size turns ((i + 1) % r.slots.length) (ret + size buf)

def byteLength (r : Ring α) (size : α → ℕ) : Option ℕ :=
  if r.isEmpty then some 0 else r.byteLengthLoop size r.slots.length r.idx 0

/-! ## The slots that are not in use -/

/-- The slots from `idx_` up to `end_idx_`. -/
def Used (r : Ring α) (i : ℕ) : Prop := ∃ k < r.length, (r.idx + k) % r.slots.length = i

def Vacant (r : Ring α) : Prop := ∀ i, ¬r.Used i → r.slot i = none

lemma vacant_fresh (n : ℕ) [NeZero n] : (fresh n : Ring α).Vacant := by
  intro i _
  show ((List.replicate n none)[i]?).join = none
  rw [List.getElem?_replicate]
  split_ifs
  · rfl
  · rfl

lemma cells_fresh (n : ℕ) [NeZero n] : (fresh n : Ring α).cells = [] := by
  rw [← List.length_eq_zero_iff, length_cells]
  exact Nat.mod_eq_zero_of_dvd (by simp [fresh])

variable {r : Ring α}

lemma vacant_store (x : α) (h : (r.endIdx + 1) % r.slots.length ≠ r.idx)
    (hr : r.Vacant) : ((r.set r.endIdx (some x)).advanceEnd).Vacant := by
  have hlength : ((r.set r.endIdx (some x)).advanceEnd).length = r.length + 1 := by
    rw [← length_cells, cells_store x h, List.length_append, length_cells, List.length_singleton]
  have hslots : ((r.set r.endIdx (some x)).advanceEnd).slots.length = r.slots.length :=
    List.length_set
  intro i hi
  have hend : r.endIdx ≠ i := by
    intro hend
    exact hi ⟨r.length, by omega, by rw [hslots]; exact r.idx_add_length.trans hend⟩
  have hunused : ¬r.Used i := by
    rintro ⟨k, hk, hki⟩
    exact hi ⟨k, by omega, by rw [hslots]; exact hki⟩
  show (r.set r.endIdx (some x)).slot i = none
  rw [slot_set r r.endIdx_lt, if_neg hend, hr i hunused]

lemma vacant_enlargeQueueBy2x (h : r.endIdx = r.idx) :
    r.enlargeQueueBy2x.Vacant := by
  have hidx := r.idx_lt
  have hold : (r.slots.drop r.idx ++ r.slots.take r.endIdx).length = r.slots.length := by
    rw [h, List.length_append, List.length_drop, List.length_take]
    omega
  have hlength : r.enlargeQueueBy2x.length = r.slots.length := by
    rw [← length_cells, cells_enlargeQueueBy2x h, List.length_map, List.length_range]
  have hslots : r.slots.length < r.enlargeQueueBy2x.slots.length :=
    hlength ▸ r.enlargeQueueBy2x.length_lt
  intro i hi
  have hbehind : r.slots.length ≤ i := by
    by_contra hlt
    refine hi ⟨i, by omega, ?_⟩
    show (0 + i) % _ = i
    rw [Nat.zero_add, Nat.mod_eq_of_lt (by omega)]
  show ((r.slots.drop r.idx ++ r.slots.take r.endIdx ++ List.replicate _ none)[i]?).join = none
  rw [List.getElem?_append_right (by omega), List.getElem?_replicate]
  split_ifs
  · rfl
  · rfl

lemma vacant_pushBack (x : α) (hr : r.Vacant) : (r.pushBack x).Vacant := by
  rw [pushBack]
  by_cases hmet : ((r.set r.endIdx (some x)).advanceEnd).endIdx =
      ((r.set r.endIdx (some x)).advanceEnd).idx
  · rw [if_pos hmet]
    exact vacant_enlargeQueueBy2x hmet
  · rw [if_neg hmet]
    exact vacant_store x (by simpa [advanceEnd, set] using hmet) hr

lemma vacant_popFront (h : r.cells ≠ []) (hr : r.Vacant) : r.popFront.Vacant := by
  have hlength : r.popFront.length + 1 = r.length := by
    have hpos := List.length_pos_iff.mpr h
    have htail := congrArg List.length (cells_popFront h)
    rw [length_cells, List.length_tail] at htail
    rw [length_cells] at htail hpos
    omega
  have hslots : r.popFront.slots.length = r.slots.length := List.length_set
  intro i hi
  show (r.set r.idx none).slot i = none
  rw [slot_set r r.idx_lt]
  by_cases hfront : r.idx = i
  · rw [if_pos hfront]
  rw [if_neg hfront]
  apply hr
  rintro ⟨k, hk, hki⟩
  cases k with
  | zero => exact hfront (by rw [← hki, Nat.add_zero, Nat.mod_eq_of_lt r.idx_lt])
  | succ k =>
    -- the slot is still in use, one place further to the front
    refine hi ⟨k, by omega, ?_⟩
    rw [hslots, ← hki]
    show ((r.idx + 1) % (r.slots.set r.idx none).length + k) % r.slots.length = _
    rw [List.length_set, Nat.mod_add_mod, Nat.add_assoc, Nat.add_comm 1 k]

/-! ## The bytes that are held -/

variable {l : List α}

lemma slot_of_cells (h : r.cells = l.map some) {k : ℕ} {x : α}
    (hk : l[k]? = some x) : r.slot ((r.idx + k) % r.slots.length) = some x := by
  have hcell : r.cells[k]? = some (some x) := by rw [h, List.getElem?_map, hk, Option.map_some]
  rw [cells, List.getElem?_map] at hcell
  obtain ⟨j, hj, hslot⟩ := Option.map_eq_some_iff.mp hcell
  obtain ⟨hlt, hval⟩ := List.getElem?_eq_some_iff.mp hj
  rw [List.getElem_range] at hval
  exact hval ▸ hslot

lemma byteLengthLoop_eq (h : r.cells = l.map some) (size : α → ℕ)
    (m k turns ret : ℕ) (hm : k + m = r.length) (hturns : m < turns) :
    r.byteLengthLoop size turns ((r.idx + k) % r.slots.length) ret =
      some (ret + ((l.drop k).map size).sum) := by
  have hlength : l.length = r.length := by rw [← length_cells, h, List.length_map]
  induction m generalizing k turns ret with
  | zero =>
    obtain ⟨turns, rfl⟩ := Nat.exists_eq_add_one_of_ne_zero hturns.ne'
    have hk : k = r.length := by omega
    rw [byteLengthLoop, if_pos (hk ▸ r.idx_add_length), List.drop_of_length_le (by omega)]
    rfl
  | succ m ih =>
    obtain ⟨turns, rfl⟩ := Nat.exists_eq_add_one_of_ne_zero (Nat.ne_zero_of_lt hturns)
    have hk : k < l.length := by omega
    have hx : l[k]? = some l[k] := List.getElem?_eq_getElem hk
    have hnext : ((r.idx + k) % r.slots.length + 1) % r.slots.length =
        (r.idx + (k + 1)) % r.slots.length := by
      rw [Nat.mod_add_mod, Nat.add_assoc]
    rw [byteLengthLoop, if_neg (r.idx_add_ne_endIdx (by omega)), slot_of_cells h hx,
      Option.bind_eq_bind, Option.bind_some, hnext, ih (k + 1) turns _ (by omega) (by omega),
      List.drop_eq_getElem_cons hk, List.map_cons, List.sum_cons, Nat.add_assoc]

lemma byteLength_eq (h : r.cells = l.map some) (size : α → ℕ) :
    r.byteLength size = some (l.map size).sum := by
  rw [byteLength]
  by_cases hempty : r.isEmpty
  · have hl : l = [] := by
      rw [isEmpty_iff, h, List.map_eq_nil_iff] at hempty
      exact hempty
    rw [if_pos hempty, hl]
    rfl
  have hloop := byteLengthLoop_eq h size r.length 0 r.slots.length 0 (by omega) r.length_lt
  rw [Nat.add_zero, Nat.mod_eq_of_lt r.idx_lt, Nat.zero_add, List.drop_zero] at hloop
  rw [if_neg hempty, hloop]

end Ring

/-! ## Programs with queues -/

namespace Queue

variable {α : Type}

/-- An implementation of queues. `none` is an operation on an empty queue, which is not allowed;
a buffer that is returned can be a null pointer. -/
structure Impl (Q α : Type) where
  new : Q
  pushBack : Q → α → Q
  popFront : Q → Option Q
  front : Q → Option (Option α)
  back : Q → Option (Option α)
  clear : Q → Q
  moveConstruct : Q → Q × Q
  moveAssign : Q → Q → Q × Q
  swap : Q → Q → Q × Q

/-- The queues of the source, with the default length `n`. -/
def rings (n : ℕ) [NeZero n] : Impl (Ring α) α where
  new := Ring.fresh n
  pushBack := Ring.pushBack
  popFront r := if r.isEmpty then none else some r.popFront
  front r := if r.isEmpty then none else some r.front
  back r := if r.isEmpty then none else some r.back
  clear := Ring.clear n
  moveConstruct := Ring.moveConstruct n
  moveAssign := Ring.moveAssign n
  swap := Ring.swap

def lists : Impl (List α) α where
  new := []
  pushBack l x := l ++ [x]
  popFront l := if l = [] then none else some l.tail
  front l := if l = [] then none else some l.head?
  back l := if l = [] then none else some l.getLast?
  clear _ := []
  moveConstruct l := (l, [])
  moveAssign _ l := (l, [])
  swap l l' := (l', l)

inductive Op (α : Type) where
  | construct
  | pushBack (i : ℕ) (x : α)
  | popFront (i : ℕ)
  | front (i : ℕ)
  | back (i : ℕ)
  | clear (i : ℕ)
  | moveConstruct (i : ℕ)
  | moveAssign (i j : ℕ)
  | swap (i j : ℕ)
  deriving DecidableEq, Repr

/-- The queues, and what `front()` and `back()` have returned. -/
structure Program (Q α : Type) where
  queues : List Q
  returned : List (Option α)
  deriving DecidableEq, Repr

section Step

variable {Q : Type} (I : Impl Q α) (s : Program Q α)

/-- One operation. In a move or a `swap` of a queue with itself the later store wins. -/
def step : Op α → Option (Program Q α)
  | .construct => some { s with queues := s.queues ++ [I.new] }
  | .pushBack i x => do
    let q ← s.queues[i]?
    some { s with queues := s.queues.set i (I.pushBack q x) }
  | .popFront i => do
    let q ← s.queues[i]?
    let q' ← I.popFront q
    some { s with queues := s.queues.set i q' }
  | .front i => do
    let q ← s.queues[i]?
    let x ← I.front q
    some { s with returned := s.returned ++ [x] }
  | .back i => do
    let q ← s.queues[i]?
    let x ← I.back q
    some { s with returned := s.returned ++ [x] }
  | .clear i => do
    let q ← s.queues[i]?
    some { s with queues := s.queues.set i (I.clear q) }
  | .moveConstruct i => do
    let q ← s.queues[i]?
    some { s with queues := s.queues.set i (I.moveConstruct q).2 ++ [(I.moveConstruct q).1] }
  | .moveAssign i j => do
    let q ← s.queues[i]?
    let q' ← s.queues[j]?
    some { s with queues := (s.queues.set i (I.moveAssign q q').1).set j (I.moveAssign q q').2 }
  | .swap i j => do
    let q ← s.queues[i]?
    let q' ← s.queues[j]?
    some { s with queues := (s.queues.set i (I.swap q q').1).set j (I.swap q q').2 }

end Step

def start {Q : Type} : Program Q α := ⟨[], []⟩

/-! ## One implementation follows another -/

section Simulation

variable {Q L : Type}

/-- Every operation keeps the relation, and what is returned is the same. -/
structure Simulates (R : Q → L → Prop) (I : Impl Q α) (J : Impl L α) : Prop where
  new : R I.new J.new
  pushBack {q l} (h : R q l) (x : α) : R (I.pushBack q x) (J.pushBack l x)
  popFront {q l l'} (h : R q l) (hl : J.popFront l = some l') :
    ∃ q', I.popFront q = some q' ∧ R q' l'
  front {q l} (h : R q l) : I.front q = J.front l
  back {q l} (h : R q l) : I.back q = J.back l
  clear {q l} (h : R q l) : R (I.clear q) (J.clear l)
  moveConstruct {q l} (h : R q l) :
    R (I.moveConstruct q).1 (J.moveConstruct l).1 ∧ R (I.moveConstruct q).2 (J.moveConstruct l).2
  moveAssign {q l q' l'} (h : R q l) (h' : R q' l') :
    R (I.moveAssign q q').1 (J.moveAssign l l').1 ∧ R (I.moveAssign q q').2 (J.moveAssign l l').2
  swap {q l q' l'} (h : R q l) (h' : R q' l') :
    R (I.swap q q').1 (J.swap l l').1 ∧ R (I.swap q q').2 (J.swap l l').2

def Related (R : Q → L → Prop) (s : Program Q α) (t : Program L α) : Prop :=
  List.Forall₂ R s.queues t.queues ∧ s.returned = t.returned

variable {R : Q → L → Prop} {I : Impl Q α} {J : Impl L α}

lemma Related.lookup {s : Program Q α} {t t' : Program L α} (hst : Related R s t) {i : ℕ}
    {f : L → Option (Program L α)} {g : Q → Option (Program Q α)}
    (hstep : (do let l ← t.queues[i]?; f l) = some t')
    (h : ∀ q l, R q l → f l = some t' → ∃ s', g q = some s' ∧ Related R s' t') :
    ∃ s', (do let q ← s.queues[i]?; g q) = some s' ∧ Related R s' t' := by
  obtain ⟨l, hl, hf⟩ := bind_eq_some_iff.mp hstep
  obtain ⟨q, hq, hql⟩ := Lists.forall₂_getElem? hst.1 hl
  obtain ⟨s', hg, hs'⟩ := h q l hql hf
  exact ⟨s', bind_eq_some_iff.mpr ⟨q, hq, hg⟩, hs'⟩

theorem Simulates.step (hIJ : Simulates R I J) (s : Program Q α) (t : Program L α) (op : Op α)
    (t' : Program L α) (hst : Related R s t) (hstep : step J t op = some t') :
    ∃ s', step I s op = some s' ∧ Related R s' t' := by
  obtain ⟨hqueues, hreturned⟩ := id hst
  cases op with
  | construct =>
    cases hstep
    exact ⟨_, rfl, Lists.forall₂_snoc hqueues hIJ.new, hreturned⟩
  | pushBack i x =>
    refine hst.lookup hstep fun q l hql hl => ?_
    cases hl
    exact ⟨_, rfl, Lists.forall₂_set hqueues (hIJ.pushBack hql x) i, hreturned⟩
  | popFront i =>
    refine hst.lookup hstep fun q l hql hl => ?_
    obtain ⟨l', hl', hl⟩ := bind_eq_some_iff.mp hl
    obtain ⟨q', hq', hql'⟩ := hIJ.popFront hql hl'
    cases hl
    exact ⟨_, bind_eq_some_iff.mpr ⟨q', hq', rfl⟩, Lists.forall₂_set hqueues hql' i, hreturned⟩
  | front i =>
    refine hst.lookup hstep fun q l hql hl => ?_
    obtain ⟨x, hx, hl⟩ := bind_eq_some_iff.mp hl
    cases hl
    exact ⟨_, bind_eq_some_iff.mpr ⟨x, (hIJ.front hql).trans hx, rfl⟩, hqueues,
      congrArg (· ++ [x]) hreturned⟩
  | back i =>
    refine hst.lookup hstep fun q l hql hl => ?_
    obtain ⟨x, hx, hl⟩ := bind_eq_some_iff.mp hl
    cases hl
    exact ⟨_, bind_eq_some_iff.mpr ⟨x, (hIJ.back hql).trans hx, rfl⟩, hqueues,
      congrArg (· ++ [x]) hreturned⟩
  | clear i =>
    refine hst.lookup hstep fun q l hql hl => ?_
    cases hl
    exact ⟨_, rfl, Lists.forall₂_set hqueues (hIJ.clear hql) i, hreturned⟩
  | moveConstruct i =>
    refine hst.lookup hstep fun q l hql hl => ?_
    obtain ⟨hthis, hrhs⟩ := hIJ.moveConstruct hql
    cases hl
    exact ⟨_, rfl, Lists.forall₂_snoc (Lists.forall₂_set hqueues hrhs i) hthis, hreturned⟩
  | moveAssign i j =>
    refine hst.lookup hstep fun q l hql hl => hst.lookup hl fun q' l' hql' hl => ?_
    obtain ⟨hthis, hrhs⟩ := hIJ.moveAssign hql hql'
    cases hl
    exact ⟨_, rfl, Lists.forall₂_set (Lists.forall₂_set hqueues hthis i) hrhs j, hreturned⟩
  | swap i j =>
    refine hst.lookup hstep fun q l hql hl => hst.lookup hl fun q' l' hql' hl => ?_
    obtain ⟨hthis, hother⟩ := hIJ.swap hql hql'
    cases hl
    exact ⟨_, rfl, Lists.forall₂_set (Lists.forall₂_set hqueues hthis i) hother j, hreturned⟩

end Simulation

/-! ## Rings follow lists -/

/-- The ring holds the buffers of the list, and null pointers elsewhere. -/
structure Represents (r : Ring α) (l : List α) : Prop where
  cells : r.cells = l.map some
  vacant : r.Vacant

namespace Represents

variable {r : Ring α} {l : List α}

lemma isEmpty_iff (h : Represents r l) : r.isEmpty = true ↔ l = [] := by
  rw [r.isEmpty_iff, h.cells, List.map_eq_nil_iff]

lemma cells_ne_nil (h : Represents r l) (hl : l ≠ []) : r.cells ≠ [] := by
  rw [h.cells]
  simpa using hl

lemma front_eq (h : Represents r l) (hl : l ≠ []) : r.front = l.head? := by
  obtain ⟨x, l, rfl⟩ := List.exists_cons_of_ne_nil hl
  have hcells := Ring.cells_eq_cons (h.cells_ne_nil hl)
  rw [h.cells, List.map_cons] at hcells
  exact (List.cons.inj hcells).1.symm

lemma back_eq (h : Represents r l) (hl : l ≠ []) : r.back = l.getLast? := by
  have hcells := Ring.cells_eq_append (h.cells_ne_nil hl)
  have hlast := congrArg List.getLast? hcells
  rw [h.cells, List.getLast?_concat, List.getLast?_map] at hlast
  obtain ⟨x, hx, hback⟩ := Option.map_eq_some_iff.mp hlast
  rw [hx, ← hback]

lemma fresh (n : ℕ) [NeZero n] : Represents (Ring.fresh n) ([] : List α) :=
  ⟨Ring.cells_fresh n, Ring.vacant_fresh n⟩

end Represents

theorem rings_simulate_lists (n : ℕ) [NeZero n] :
    Simulates (Represents (α := α)) (rings n) lists where
  new := Represents.fresh n
  pushBack {r l} h x := by
    constructor
    · show (r.pushBack x).cells = (l ++ [x]).map some
      rw [Ring.cells_pushBack, h.cells, List.map_append]
      rfl
    · exact Ring.vacant_pushBack x h.vacant
  popFront {r l l'} h hl := by
    have hne : l ≠ [] := by
      rintro rfl
      exact absurd hl (by simp [lists])
    obtain rfl : l.tail = l' := by simpa [lists, hne] using hl
    have hempty : ¬r.isEmpty = true := mt h.isEmpty_iff.mp hne
    refine ⟨r.popFront, if_neg hempty, ?_, Ring.vacant_popFront (h.cells_ne_nil hne) h.vacant⟩
    rw [Ring.cells_popFront (h.cells_ne_nil hne), h.cells, List.map_tail]
  front {r l} h := by
    show (if r.isEmpty = true then none else some r.front) = if l = [] then none else some l.head?
    by_cases hl : l = []
    · rw [if_pos (h.isEmpty_iff.mpr hl), if_pos hl]
    · rw [if_neg (mt h.isEmpty_iff.mp hl), if_neg hl, h.front_eq hl]
  back {r l} h := by
    show (if r.isEmpty = true then none else some r.back) = if l = [] then none else some l.getLast?
    by_cases hl : l = []
    · rw [if_pos (h.isEmpty_iff.mpr hl), if_pos hl]
    · rw [if_neg (mt h.isEmpty_iff.mp hl), if_neg hl, h.back_eq hl]
  clear _ := Represents.fresh n
  moveConstruct h := ⟨h, Represents.fresh n⟩
  moveAssign _ h' := ⟨h', Represents.fresh n⟩
  swap h h' := ⟨h', h⟩

structure Behaves (r : Ring α) (l : List α) : Prop where
  contents : r.cells = l.map some
  empty : r.isEmpty = true ↔ l = []
  length : r.length = l.length
  byteLength (size : α → ℕ) : r.byteLength size = some (l.map size).sum
  free : r.length < r.slots.length
  unused (i : ℕ) (h : ¬r.Used i) : r.slot i = none

lemma Represents.behaves {r : Ring α} {l : List α} (h : Represents r l) : Behaves r l where
  contents := h.cells
  empty := h.isEmpty_iff
  length := by rw [← Ring.length_cells, h.cells, List.length_map]
  byteLength := Ring.byteLength_eq h.cells
  free := r.length_lt
  unused := h.vacant

/-- Whatever a program does with its queues, it could do with lists: each operation that is allowed
returns, `front()` and `back()` return what is in the list, and every queue behaves as its list, a
queue that was moved from as an empty one. -/
theorem runs_as_lists (n : ℕ) [NeZero n] (ops : List (Op α)) (t : Program (List α) α)
    (hrun : Run.exec (step lists) start ops = some t) :
    ∃ s, Run.exec (step (rings n)) start ops = some s ∧ s.returned = t.returned ∧
      List.Forall₂ Behaves s.queues t.queues := by
  have hstart : Related Represents (start : Program (Ring α) α) start := ⟨.nil, rfl⟩
  obtain ⟨s, hs, hqueues, hreturned⟩ :=
    Run.exec_simulates (rings_simulate_lists n).step hstart hrun
  exact ⟨s, hs, hreturned, hqueues.imp fun _ _ => Represents.behaves⟩

theorem runs_as_lists_sample :
    ∃ s, Run.exec (step (rings 2)) start [.construct, .pushBack 0 'a', .popFront 0, .pushBack 0 'b',
        .pushBack 0 'c', .back 0, .moveConstruct 0, .pushBack 0 'd', .front 1] = some s ∧
      s.returned = [some 'c', some 'b'] ∧ List.Forall₂ Behaves s.queues [['d'], ['b', 'c']] :=
  runs_as_lists 2 _ ⟨[['d'], ['b', 'c']], [some 'c', some 'b']⟩ (by decide)

end Queue

end Yass.Net
