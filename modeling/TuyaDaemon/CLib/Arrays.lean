import TuyaDaemon.CLib.Sprintf

/-!
# Character arrays

`CArray size` is the memory of a `char[size]`; a copy that does not fit with its terminator is the fault `overflow`,
and reading a string from an array without terminator is `outOfBounds`.  `CText size` is an array that holds a string;
copying a string keeps that.
-/

namespace CLib

/-- An array behind `strcpy`: the string, its terminator, and the rest as it was. -/
def copiedMem (mem s : List UInt8) : List UInt8 := s ++ 0 :: mem.drop (s.length + 1)

theorem length_copiedMem {mem s : List UInt8} (h : s.length < mem.length) :
    (copiedMem mem s).length = mem.length := by
  simp only [copiedMem, List.length_append, List.length_cons, List.length_drop]
  omega

theorem upToNul_copiedMem (mem : List UInt8) {s : List UInt8} (h : 0 ∉ s) : upToNul (copiedMem mem s) = s :=
  upToNul_append_nul h

theorem zero_mem_copiedMem (mem s : List UInt8) : 0 ∈ copiedMem mem s := by
  simp [copiedMem]

/-- The memory of a `char[size]`. -/
@[ext] structure CArray (size : Nat) where
  mem : List UInt8
  length_mem : mem.length = size

namespace CArray

variable {size : Nat}

def zero (size : Nat) : CArray size := ⟨List.replicate size 0, List.length_replicate⟩

/-- The string in the array. -/
def str (a : CArray size) : Except Fault (List UInt8) :=
  if 0 ∈ a.mem then .ok (upToNul a.mem) else .error .outOfBounds

/-- `strcpy(a, s)` -/
def strcpy (a : CArray size) (s : List UInt8) : Except Fault (CArray size) :=
  if h : s.length < size then
    .ok ⟨copiedMem a.mem s, (length_copiedMem (by rw [a.length_mem]; exact h)).trans a.length_mem⟩
  else .error .overflow

/-- The bytes `bs` are read to the start of the array; there are no more than it has room for. -/
def readInto (a : CArray size) (bs : List UInt8) : CArray size :=
  ⟨bs.take size ++ a.mem.drop bs.length, by
    simp only [List.length_append, List.length_take, List.length_drop, a.length_mem]
    omega⟩

theorem str_iff {a : CArray size} {s : List UInt8} : a.str = .ok s ↔ 0 ∈ a.mem ∧ upToNul a.mem = s := by
  unfold str
  split
  · rename_i h
    simp [h]
  · rename_i h
    simp [h]

theorem noNul_of_str {a : CArray size} {s : List UInt8} (h : a.str = .ok s) : 0 ∉ s := by
  rw [← (str_iff.1 h).2]
  exact zero_notMem_upToNul a.mem

theorem length_str_lt {a : CArray size} {s : List UInt8} (h : a.str = .ok s) : s.length < size := by
  obtain ⟨hmem, rfl⟩ := str_iff.1 h
  have hle := length_upToNul_le a.mem
  rw [a.length_mem] at hle
  refine Nat.lt_of_le_of_ne hle fun heq => ?_
  -- without a NUL nothing is cut off
  have hall : upToNul a.mem = a.mem :=
    (List.takeWhile_prefix _).eq_of_length (by rw [a.length_mem]; exact heq)
  exact zero_notMem_upToNul a.mem (by rw [hall]; exact hmem)

theorem str_zero (h : 0 < size) : (zero size).str = .ok [] := by
  rw [str_iff]
  obtain ⟨n, rfl⟩ := Nat.exists_eq_succ_of_ne_zero h.ne'
  simp [zero, upToNul, List.replicate_succ]

/-- The beginning of the string that is there is read without effect. -/
theorem readInto_prefix {a : CArray size} {s bs : List UInt8} (h : a.str = .ok s) (hbs : bs <+: s) :
    a.readInto bs = a := by
  have hmem : bs <+: a.mem := by
    rw [← (str_iff.1 h).2] at hbs
    exact hbs.trans (List.takeWhile_prefix _)
  have hlen : bs.length ≤ size := by
    rw [← a.length_mem]
    exact hmem.length_le
  apply CArray.ext
  show bs.take size ++ a.mem.drop bs.length = a.mem
  rw [List.take_of_length_le hlen]
  conv_lhs => rw [List.prefix_iff_eq_take.1 hmem]
  rw [List.length_take, Nat.min_eq_left hmem.length_le]
  exact List.take_append_drop bs.length a.mem

/-- A zeroed array holds what is read to it, when that leaves room for the terminator. -/
theorem str_readInto_zero {bs : List UInt8} (hlen : bs.length < size) (hbs : 0 ∉ bs) :
    ((zero size).readInto bs).str = .ok bs := by
  have hmem : ((zero size).readInto bs).mem = bs ++ 0 :: List.replicate (size - bs.length - 1) 0 := by
    show bs.take size ++ (List.replicate size 0).drop bs.length = _
    rw [List.take_of_length_le (Nat.le_of_lt hlen), List.drop_replicate, ← List.replicate_succ]
    congr 2
    omega
  rw [str_iff, hmem]
  exact ⟨by simp, upToNul_append_nul hbs⟩

theorem strcpy_ok (a : CArray size) {s : List UInt8} (hs : 0 ∉ s) (h : s.length < size) :
    ∃ a', a.strcpy s = .ok a' ∧ a'.str = .ok s := by
  rw [strcpy, dif_pos h]
  refine ⟨_, rfl, ?_⟩
  rw [str, if_pos (zero_mem_copiedMem a.mem s), upToNul_copiedMem a.mem hs]

theorem strcpy_overflow (a : CArray size) {s : List UInt8} (h : size ≤ s.length) : a.strcpy s = .error .overflow := by
  rw [strcpy, dif_neg (by omega)]

end CArray

/-- A `char[size]` that holds a string. -/
structure CText (size : Nat) extends CArray size where
  terminated : 0 ∈ mem

namespace CText

variable {size : Nat}

/-- A zeroed array. -/
def empty (size : Nat) (h : 0 < size) : CText size :=
  ⟨CArray.zero size, List.mem_replicate.2 ⟨Nat.ne_of_gt h, rfl⟩⟩

/-- An array with an initialiser; the rest is zeroed. -/
def literal (size : Nat) (s : List UInt8) (h : s.length < size) : CText size :=
  ⟨⟨s ++ List.replicate (size - s.length) 0, by rw [List.length_append, List.length_replicate]; omega⟩,
    List.mem_append_right s (List.mem_replicate.2 ⟨by omega, rfl⟩)⟩

def chars (a : CText size) : List UInt8 := upToNul a.mem

/-- The copy of a string, as `strcpy` and `%[` make it. -/
def strcpy (a : CText size) (s : List UInt8) : Except Fault (CText size) :=
  if h : s.length < size then
    .ok ⟨⟨copiedMem a.mem s, (length_copiedMem (by rw [a.length_mem]; exact h)).trans a.length_mem⟩,
      zero_mem_copiedMem a.mem s⟩
  else .error .overflow

/-- A string leaves room for its terminator. -/
theorem length_chars_lt (a : CText size) : a.chars.length < size :=
  CArray.length_str_lt (CArray.str_iff.2 ⟨a.terminated, rfl⟩)

theorem strcpy_ok (a : CText size) {s : List UInt8} (hs : 0 ∉ s) (h : s.length < size) :
    ∃ a', a.strcpy s = .ok a' ∧ a'.chars = s := by
  rw [strcpy, dif_pos h]
  exact ⟨_, rfl, upToNul_copiedMem a.mem hs⟩

theorem strcpy_overflow (a : CText size) {s : List UInt8} (h : size ≤ s.length) : a.strcpy s = .error .overflow := by
  rw [strcpy, dif_neg (by omega)]

end CText

end CLib
