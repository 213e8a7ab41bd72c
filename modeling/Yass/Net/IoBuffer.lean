import Mathlib.Data.List.Basic
import Mathlib.Tactic

/-!
# `GrowableIOBuffer`: the resizable byte buffer every connection reads and writes through

* `setOffset`, `setCapacity`, `store`, `memmove`, `copyBuffer`, `appendBytesAtEnd` — the
  operations. `none` is a failed `CHECK` (the process aborts) or, for `store` and `memmove`, a
  write outside the allocation.
* `everything` (`[0, capacity_)`) and `readable` (`[offset_, capacity_)`) — the two views the rest
  of the development reasons about; each operation has one lemma on `everything`.

`realloc` leaves the bytes it adds undefined. They are taken from an arbitrary function
`junk : ℕ → UInt8` of the address inside the allocation; every theorem is for all `junk`.
Sizes are `ℕ` where the source has `int`.

Source: `net/io_buffer.hpp`, `net/io_buffer.cpp`.
-/

namespace Yass.Net

open List (length_take nil_append take_take)

/-- `SOCKET_BUF_SIZE`, the size of the buffers into which plaintext is read. -/
def socketBufSize : ℕ := 17 * 1024

/-- `SOCKET_DEBUF_SIZE`, the size of the buffers into which ciphertext is read. -/
def socketDebufSize : ℕ := 17 * 1024

inductive ReadOutcome where
  | data (bytes : List UInt8)
  | wouldBlock
  | error
  deriving DecidableEq, Repr

inductive WriteOutcome where
  | written (n : ℕ)
  | error
  deriving DecidableEq, Repr

/-- A growable buffer: `data()` is `realData` from `offset` on, `size()` is `capacity - offset`.
The allocation can be larger than `capacity`, because shrinking does not give memory back. -/
structure GrowableIOBuffer where
  /-- The allocated bytes, `real_data_`. -/
  realData : List UInt8
  capacity : ℕ
  offset : ℕ
  offset_le : offset ≤ capacity
  capacity_le : capacity ≤ realData.length
  deriving DecidableEq, Repr

namespace GrowableIOBuffer

/-- `MakeRefCounted<GrowableIOBuffer>()`: no allocation, capacity `0`. -/
def fresh : GrowableIOBuffer := ⟨[], 0, 0, le_rfl, le_rfl⟩

/-- `size()`, which is also `RemainingCapacity()`. -/
def size (b : GrowableIOBuffer) : ℕ := b.capacity - b.offset

/-- `empty()`. -/
def isEmpty (b : GrowableIOBuffer) : Bool := b.size == 0

/-- `everything()`: the bytes of the buffer, those before `offset()` included. -/
def everything (b : GrowableIOBuffer) : List UInt8 := b.realData.take b.capacity

/-- The bytes `data()` and `size()` describe. -/
def readable (b : GrowableIOBuffer) : List UInt8 := b.everything.drop b.offset

/-- `set_offset`: aborts when the new offset is past the capacity. -/
def setOffset (b : GrowableIOBuffer) (o : ℕ) : Option GrowableIOBuffer :=
  if h : o ≤ b.capacity then some { b with offset := o, offset_le := h } else none

/-- What `realloc` returns for a block of contents `l`: the first `n` bytes of the old block, and
undefined bytes up to length `n`. -/
def realloc (junk : ℕ → UInt8) (l : List UInt8) (n : ℕ) : List UInt8 :=
  l.take n ++ (List.range' l.length (n - l.length)).map junk

lemma length_realloc (junk : ℕ → UInt8) (l : List UInt8) (n : ℕ) :
    (realloc junk l n).length = n := by
  simp only [realloc, List.length_append, length_take, List.length_map, List.length_range']
  omega

/-- `SetCapacity`. Shrinking keeps the block and only moves `capacity_`, and then re-checks the
offset against it (so shrinking below the offset aborts); growing reallocates to exactly the new
capacity, even when the block was already larger. -/
def setCapacity (junk : ℕ → UInt8) (b : GrowableIOBuffer) (n : ℕ) : Option GrowableIOBuffer :=
  if hn : n ≤ b.capacity then
    if h : b.offset ≤ n then
      some { b with
        capacity := n, offset_le := h, capacity_le := hn.trans b.capacity_le }
    else none
  else
    some ⟨realloc junk b.realData n, n, b.offset,
      b.offset_le.trans (Nat.le_of_not_le hn), (length_realloc junk b.realData n).ge⟩

/-- `memcpy(StartOfBuffer() + pos, bytes, length)`: defined inside the allocation only. -/
def store (b : GrowableIOBuffer) (pos : ℕ) (bytes : List UInt8) : Option GrowableIOBuffer :=
  if h : pos + bytes.length ≤ b.realData.length then
    some { b with
      realData := b.realData.take pos ++ bytes ++ b.realData.drop (pos + bytes.length)
      capacity_le := by
        have := b.capacity_le
        simp only [List.length_append, length_take, List.length_drop]
        omega }
  else none

/-- `memmove(StartOfBuffer() + dst, StartOfBuffer() + src, n)`: both ranges have to lie inside the
allocation. -/
def memmove (b : GrowableIOBuffer) (dst src n : ℕ) : Option GrowableIOBuffer :=
  if src + n ≤ b.realData.length then b.store dst ((b.realData.drop src).take n) else none

/-- `GrowableIOBuffer::copyBuffer(data, size)`. -/
def copyBuffer (bytes : List UInt8) : GrowableIOBuffer :=
  ⟨bytes, bytes.length, 0, Nat.zero_le _, le_rfl⟩

def appendBytesAtEnd (junk : ℕ → UInt8) (b : GrowableIOBuffer) (bytes : List UInt8) :
    Option GrowableIOBuffer :=
  (b.setCapacity junk (b.capacity + bytes.length)).bind fun b' => b'.store b.capacity bytes

/-- A new buffer that holds the readable bytes of two: `SetCapacity` and two `memcpy`s, as the
cipher and the server connection write it out. -/
def concat (junk : ℕ → UInt8) (previous buf : GrowableIOBuffer) : Option GrowableIOBuffer := do
  let chunk ← fresh.setCapacity junk (previous.size + buf.size)
  let chunk ← chunk.store chunk.offset previous.readable
  chunk.store (chunk.offset + previous.size) buf.readable

/-- A new buffer of `size` bytes into which `read_some` has put `bytes`, shrunk to what was read. -/
def readSome (junk : ℕ → UInt8) (size : ℕ) (bytes : List UInt8) : Option GrowableIOBuffer := do
  let buf ← fresh.setCapacity junk size
  let buf ← buf.store buf.offset bytes
  buf.setCapacity junk bytes.length

/-! ## The two views -/

@[simp] lemma length_everything (b : GrowableIOBuffer) : b.everything.length = b.capacity := by
  have := b.capacity_le
  simp [everything, this]

@[simp] lemma length_readable (b : GrowableIOBuffer) : b.readable.length = b.size := by
  simp [readable, size]

lemma isEmpty_iff (b : GrowableIOBuffer) : b.isEmpty = true ↔ b.readable = [] := by
  rw [← List.length_eq_zero_iff, length_readable]
  simp [isEmpty]

@[simp] lemma readable_fresh : fresh.readable = [] := rfl

@[simp] lemma everything_fresh : fresh.everything = [] := rfl

@[simp] lemma readable_copyBuffer (bytes : List UInt8) : (copyBuffer bytes).readable = bytes := by
  simp [readable, everything, copyBuffer]

@[simp] lemma size_copyBuffer (bytes : List UInt8) : (copyBuffer bytes).size = bytes.length := by
  simp [size, copyBuffer]

lemma flatten_pop (b : GrowableIOBuffer) (rest : List GrowableIOBuffer) :
    ((if b.isEmpty then rest else b :: rest).map readable).flatten =
      b.readable ++ (rest.map readable).flatten := by
  split_ifs with hempty
  · rw [b.isEmpty_iff.mp hempty, nil_append]
  · rfl

/-! ## One lemma per operation -/

variable {b : GrowableIOBuffer}

lemma setOffset_of_le {o : ℕ} (h : o ≤ b.capacity) :
    ∃ b', b.setOffset o = some b' ∧ b'.everything = b.everything ∧
      b'.realData = b.realData ∧ b'.capacity = b.capacity ∧ b'.offset = o := by
  refine ⟨{ b with offset := o, offset_le := h }, ?_, rfl, rfl, rfl, rfl⟩
  rw [setOffset, dif_pos h]

variable {b' : GrowableIOBuffer}

lemma setOffset_eq_some {o : ℕ} (h : b.setOffset o = some b') :
    o ≤ b.capacity ∧ b'.everything = b.everything ∧ b'.capacity = b.capacity ∧ b'.offset = o := by
  unfold setOffset at h
  split_ifs at h with ho
  cases h
  exact ⟨ho, rfl, rfl, rfl⟩

variable {n : ℕ}

lemma setOffset_add (h : n ≤ b.size) :
    ∃ b', b.setOffset (b.offset + n) = some b' ∧ b'.readable = b.readable.drop n ∧
      b'.everything = b.everything ∧ b'.capacity = b.capacity ∧ b'.offset = b.offset + n := by
  have hle : b.offset + n ≤ b.capacity := by
    have := b.offset_le
    unfold size at h
    omega
  obtain ⟨b', hb', hev, -, hcap, hoff⟩ := setOffset_of_le hle
  refine ⟨b', hb', ?_, hev, hcap, hoff⟩
  rw [readable, readable, hev, hoff, List.drop_drop]

lemma setCapacity_of_le (junk : ℕ → UInt8) (hn : n ≤ b.capacity) (ho : b.offset ≤ n) :
    ∃ b', b.setCapacity junk n = some b' ∧ b'.everything = b.everything.take n ∧
      b'.realData = b.realData ∧ b'.capacity = n ∧ b'.offset = b.offset := by
  refine ⟨{ b with capacity := n, offset_le := ho, capacity_le := hn.trans b.capacity_le }, ?_, ?_,
    rfl, rfl, rfl⟩
  · rw [setCapacity, dif_pos hn, dif_pos ho]
  · simp [everything, take_take, hn]

lemma setCapacity_of_ge (junk : ℕ → UInt8) (hn : b.capacity ≤ n) :
    ∃ b', b.setCapacity junk n = some b' ∧ b'.everything.take b.capacity = b.everything ∧
      b'.capacity = n ∧ b'.offset = b.offset := by
  rcases hn.eq_or_lt with heq | hlt
  · obtain ⟨b', hb', hev, -, hcap, hoff⟩ := setCapacity_of_le junk heq.ge (heq ▸ b.offset_le)
    refine ⟨b', hb', ?_, hcap, hoff⟩
    rw [hev, take_take, heq, Nat.min_self, ← heq]
    exact List.take_of_length_le b.length_everything.le
  refine ⟨⟨realloc junk b.realData n, n, b.offset, b.offset_le.trans hn,
    (length_realloc junk b.realData n).ge⟩, ?_, ?_, rfl, rfl⟩
  · rw [setCapacity, dif_neg (by omega)]
  have hcap := b.capacity_le
  simp only [everything, realloc, take_take, Nat.min_eq_left hlt.le]
  rw [List.take_append_of_le_length (by simp only [length_take]; omega), take_take,
    Nat.min_eq_left hlt.le]

lemma setCapacity_take (junk : ℕ → UInt8) (ho : b.offset = 0) (hn : n ≤ b.size) :
    ∃ b', b.setCapacity junk n = some b' ∧ b'.readable = b.readable.take n ∧ b'.offset = 0 := by
  have hcap : n ≤ b.capacity := hn.trans (Nat.sub_le _ _)
  obtain ⟨b', hb', hev, -, -, hoff⟩ := setCapacity_of_le junk hcap (ho ▸ Nat.zero_le n)
  refine ⟨b', hb', ?_, hoff.trans ho⟩
  rw [readable, readable, hev, hoff, ho, List.drop_zero, List.drop_zero]

lemma setCapacity_of_offset_le (junk : ℕ → UInt8) (h : b.offset ≤ n) :
    ∃ b', b.setCapacity junk n = some b' ∧ b'.capacity = n ∧ b'.offset = b.offset := by
  rcases le_total n b.capacity with hle | hge
  · obtain ⟨b', hb', -, -, hcap, hoff⟩ := setCapacity_of_le junk hle h
    exact ⟨b', hb', hcap, hoff⟩
  · obtain ⟨b', hb', -, hcap, hoff⟩ := setCapacity_of_ge junk hge
    exact ⟨b', hb', hcap, hoff⟩

variable {bytes : List UInt8}

lemma store_of_le {pos : ℕ} (h : pos + bytes.length ≤ b.capacity) :
    ∃ b', b.store pos bytes = some b' ∧
      b'.everything = b.everything.take pos ++ bytes ++ b.everything.drop (pos + bytes.length) ∧
      b'.capacity = b.capacity ∧ b'.offset = b.offset := by
  have hcap := b.capacity_le
  have hin : pos + bytes.length ≤ b.realData.length := h.trans hcap
  rw [store, dif_pos hin]
  refine ⟨_, rfl, ?_, rfl, rfl⟩
  simp only [everything]
  rw [List.take_append, List.take_append, take_take, List.drop_take]
  simp only [List.length_append, length_take]
  congr 1
  · congr 1
    · rw [take_take]
      congr 1
      omega
    · exact List.take_of_length_le (by omega)
  · congr 1
    omega

variable {junk : ℕ → UInt8}

lemma setCapacity_eq_some
    (h : b.setCapacity junk n = some b') : b'.capacity = n ∧ b'.offset = b.offset := by
  unfold setCapacity at h
  split_ifs at h <;> cases h <;> exact ⟨rfl, rfl⟩

lemma store_eq_some {pos : ℕ}
    (h : b.store pos bytes = some b') : b'.capacity = b.capacity ∧ b'.offset = b.offset := by
  unfold store at h
  split_ifs at h
  cases h
  exact ⟨rfl, rfl⟩

lemma memmove_eq_some {dst src : ℕ}
    (h : b.memmove dst src n = some b') : b'.capacity = b.capacity ∧ b'.offset = b.offset := by
  unfold memmove at h
  split_ifs at h
  exact store_eq_some h

lemma memmove_of_le {dst src : ℕ} (hsrc : src + n ≤ b.capacity) (hdst : dst + n ≤ b.capacity) :
    ∃ b', b.memmove dst src n = some b' ∧
      b'.everything = b.everything.take dst ++ (b.everything.drop src).take n ++
        b.everything.drop (dst + n) ∧
      b'.capacity = b.capacity ∧ b'.offset = b.offset := by
  have hcap := b.capacity_le
  have hread : (b.realData.drop src).take n = (b.everything.drop src).take n := by
    rw [everything, List.drop_take, take_take, Nat.min_eq_left (by omega)]
  have hlen : ((b.realData.drop src).take n).length = n := by
    rw [length_take, List.length_drop]
    omega
  have hfit : dst + ((b.realData.drop src).take n).length ≤ b.capacity := by rw [hlen]; exact hdst
  obtain ⟨b', hb', hev, hcap', hoff'⟩ := store_of_le hfit
  refine ⟨b', ?_, ?_, hcap', hoff'⟩
  · rw [memmove, if_pos (hsrc.trans hcap), hb']
  · rw [hev, hlen, hread]

lemma store_append {pre rest : List UInt8}
    (h : b.everything = pre ++ rest) (hle : bytes.length ≤ rest.length) :
    ∃ b', b.store pre.length bytes = some b' ∧
      b'.everything = pre ++ bytes ++ rest.drop bytes.length ∧
      b'.capacity = b.capacity ∧ b'.offset = b.offset := by
  have hcap : pre.length + rest.length = b.capacity := by
    rw [← length_everything, h, List.length_append]
  have hin : pre.length + bytes.length ≤ b.capacity := by omega
  obtain ⟨b', hb', hev, hcap', hoff⟩ := store_of_le hin
  refine ⟨b', hb', ?_, hcap', hoff⟩
  rw [hev, h, List.take_left, List.drop_length_add_append]

lemma setCapacity_add (junk : ℕ → UInt8) (b : GrowableIOBuffer) (n : ℕ) :
    ∃ b' rest, b.setCapacity junk (b.capacity + n) = some b' ∧ rest.length = n ∧
      b'.everything = b.everything ++ rest ∧ b'.capacity = b.capacity + n ∧
      b'.offset = b.offset := by
  obtain ⟨b', hb', hev, hcap, hoff⟩ := setCapacity_of_ge junk (Nat.le_add_right b.capacity n)
  refine ⟨b', b'.everything.drop b.capacity, hb', ?_, ?_, hcap, hoff⟩
  · rw [List.length_drop, length_everything, hcap]
    omega
  · rw [← hev, List.take_append_drop]

lemma setCapacity_fresh (junk : ℕ → UInt8) (n : ℕ) :
    ∃ b, fresh.setCapacity junk n = some b ∧ b.capacity = n ∧ b.offset = 0 :=
  setCapacity_of_offset_le junk (Nat.zero_le n)

lemma store_all (h : bytes.length = b.capacity) :
    ∃ b', b.store 0 bytes = some b' ∧ b'.everything = bytes ∧ b'.capacity = b.capacity ∧
      b'.offset = b.offset := by
  have hle : bytes.length ≤ b.everything.length := by simp [h]
  obtain ⟨b', hb', hev, hcap, hoff⟩ := store_append (nil_append b.everything).symm hle
  refine ⟨b', hb', ?_, hcap, hoff⟩
  rw [hev, h, ← length_everything, List.drop_length]
  simp

lemma concat_spec (junk : ℕ → UInt8) (previous buf : GrowableIOBuffer) :
    ∃ chunk, concat junk previous buf = some chunk ∧
      chunk.readable = previous.readable ++ buf.readable ∧ chunk.offset = 0 := by
  obtain ⟨b, hb, hcap, hoff⟩ := setCapacity_fresh junk (previous.size + buf.size)
  have hev : b.everything = [] ++ b.everything := rfl
  have hfit₁ : previous.readable.length ≤ b.everything.length := by simp [hcap]
  obtain ⟨b₁, hb₁, hev₁, -, hoff₁⟩ := store_append hev hfit₁
  have hfit₂ : buf.readable.length ≤ (b.everything.drop previous.readable.length).length := by
    simp [hcap]
  obtain ⟨b₂, hb₂, hev₂, -, hoff₂⟩ := store_append hev₁ hfit₂
  refine ⟨b₂, ?_, ?_, ?_⟩
  · simp only [List.length_nil] at hb₁
    simp only [nil_append, length_readable] at hb₂
    simp [concat, hb, hoff, hb₁, hoff₁, hb₂]
  · have htail : (b.everything.drop previous.readable.length).drop buf.readable.length = [] := by
      rw [List.drop_drop]
      exact List.drop_of_length_le (by simp [hcap])
    rw [readable, hev₂, hoff₂, hoff₁, hoff, htail]
    simp
  · rw [hoff₂, hoff₁, hoff]

variable {size : ℕ}

lemma readSome_spec (junk : ℕ → UInt8) (h : bytes.length ≤ size) :
    ∃ buf, readSome junk size bytes = some buf ∧ buf.readable = bytes ∧ buf.offset = 0 := by
  obtain ⟨b, hb, hcap, hoff⟩ := setCapacity_fresh junk size
  have hfit : bytes.length ≤ b.everything.length := by simp [hcap, h]
  obtain ⟨b₁, hb₁, hev₁, hcap₁, hoff₁⟩ := store_append (nil_append b.everything).symm hfit
  have hle : bytes.length ≤ b₁.capacity := by rw [hcap₁, hcap]; exact h
  have hlo : b₁.offset ≤ bytes.length := by rw [hoff₁, hoff]; exact Nat.zero_le _
  obtain ⟨b₂, hb₂, hev₂, -, -, hoff₂⟩ := setCapacity_of_le junk hle hlo
  refine ⟨b₂, ?_, ?_, ?_⟩
  · simp only [List.length_nil] at hb₁
    simp [readSome, hb, hoff, hb₁, hb₂]
  · rw [readable, hev₂, hoff₂, hoff₁, hoff, hev₁]
    simp
  · rw [hoff₂, hoff₁, hoff]

lemma length_realData_of_fresh
    (h : fresh.setCapacity junk size = some b) : b.realData.length = size ∧ b.offset = 0 := by
  unfold setCapacity at h
  split_ifs at h with hsize
  · cases h
    exact ⟨(Nat.le_zero.mp hsize).symm, rfl⟩
  · cases h
    exact ⟨length_realloc _ _ _, rfl⟩

lemma length_le_of_readSome
    {buf : GrowableIOBuffer} (h : readSome junk size bytes = some buf) : bytes.length ≤ size := by
  by_contra hle
  obtain ⟨b, hb, -, -⟩ := setCapacity_fresh junk size
  obtain ⟨hlen, hoff⟩ := length_realData_of_fresh hb
  simp [readSome, hb, store, hlen, hoff, hle] at h

lemma readSome_eq_some {buf : GrowableIOBuffer}
    (h : readSome junk size bytes = some buf) : buf.readable = bytes ∧ buf.offset = 0 := by
  obtain ⟨b, hb, hread⟩ := readSome_spec junk (length_le_of_readSome h)
  rw [hb] at h
  cases h
  exact hread

end GrowableIOBuffer

end Yass.Net
