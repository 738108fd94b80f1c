import TuyaDaemon.CLib.Blocks
import TuyaDaemon.CLib.Sprintf

/-!
# Blocks that grow

The memory of a block, with writes at a position and the length of the string that starts there; both stay inside the
block or are a fault.  `realloc` hands out a new block with the old contents in front, and what is behind them is
anything.
-/

namespace CLib

/-! ### Memory -/

def writeAt (mem : List UInt8) (off : Nat) (bs : List UInt8) : Except Fault (List UInt8) :=
  if off + bs.length ≤ mem.length then .ok (mem.take off ++ (bs ++ mem.drop (off + bs.length))) else .error .overflow

/-- `strlen(mem + off)` -/
def strlenAt (mem : List UInt8) (off : Nat) : Except Fault Nat :=
  if 0 ∈ mem.drop off then .ok (upToNul (mem.drop off)).length else .error .outOfBounds

/-- A write behind the first bytes. -/
theorem writeAt_append (front bs rest : List UInt8) {off : Nat} (hoff : off = front.length)
    (h : bs.length ≤ rest.length) : writeAt (front ++ rest) off bs = .ok ((front ++ bs) ++ rest.drop bs.length) := by
  subst hoff
  have hfits : front.length + bs.length ≤ (front ++ rest).length := by
    rw [List.length_append]
    omega
  rw [writeAt, if_pos hfits, List.take_left, List.drop_append, List.drop_eq_nil_of_le (Nat.le_add_right _ _),
    List.nil_append, Nat.add_sub_cancel_left, List.append_assoc]

/-- A print behind the first bytes. -/
theorem sprintfAt_append (front text rest : List UInt8) {off : Nat} (hoff : off = front.length)
    (h : text.length < rest.length) :
    sprintfAt (front ++ rest) off text = .ok ((front ++ text) ++ 0 :: rest.drop (text.length + 1)) := by
  subst hoff
  have hfits : front.length + text.length + 1 ≤ (front ++ rest).length := by
    rw [List.length_append]
    omega
  rw [sprintfAt_ok _ _ hfits, List.take_left, List.drop_append, List.drop_eq_nil_of_le (by omega), List.nil_append,
    List.append_assoc, show front.length + text.length + 1 - front.length = text.length + 1 by omega]

theorem strlenAt_behind (s : List UInt8) {t : List UInt8} (ht : 0 ∉ t) (rest : List UInt8) :
    strlenAt (s ++ (t ++ 0 :: rest)) s.length = .ok t.length := by
  rw [strlenAt, List.drop_left, if_pos (List.mem_append_right _ List.mem_cons_self), upToNul_append_nul ht]

/-! ### Blocks -/

/-- Which allocations succeed, by their number, and what a new block holds. -/
structure Allocator where
  ok : Nat → Bool
  fresh : Nat → Nat → UInt8

def Allocator.bytes (alloc : Allocator) (b size : Nat) : List UInt8 := (List.range size).map (alloc.fresh b)

@[simp] theorem Allocator.length_bytes (alloc : Allocator) (b size : Nat) : (alloc.bytes b size).length = size := by
  rw [bytes, List.length_map, List.length_range]

section Realloc

variable {κ : Type} (alloc : Allocator)

/-- `realloc(b, size)` of a block with its memory; on failure the block stays. -/
def realloc (b : Nat) (mem : List UInt8) (size : Nat) (heap : Heap κ) : Option (Nat × List UInt8) × Heap κ :=
  match heap.malloc alloc.ok with
  | (some b', heap) => (some (b', mem.take size ++ (alloc.bytes b' size).drop mem.length), heap.free b)
  | (none, heap) => (none, heap)

/-- A `realloc` to a larger block, or to the bytes in front. -/
inductive Realloc (b : Nat) (mem : List UInt8) (size : Nat) (owned : List Nat) (heap : Heap κ) :
    Option (Nat × List UInt8) × Heap κ → Prop where
  | moved {b' : Nat} {mem' : List UInt8} {heap' : Heap κ} (owns : heap'.Owns (b' :: owned))
      (front : mem.take size <+: mem') (length : mem'.length = size) (next : heap.next ≤ heap'.next) :
      Realloc b mem size owned heap (some (b', mem'), heap')
  | failed {heap' : Heap κ} (owns : heap'.Owns (b :: owned)) (refused : alloc.ok heap.next = false)
      (next : heap'.next = heap.next + 1) : Realloc b mem size owned heap (none, heap')

theorem realloc_cases {b : Nat} (mem : List UInt8) (size : Nat) {owned : List Nat} {heap : Heap κ}
    (h : heap.Owns (b :: owned)) : Realloc alloc b mem size owned heap (realloc alloc b mem size heap) := by
  rw [realloc]
  cases hok : alloc.ok heap.next with
  | true =>
    simp only [Heap.malloc_ok hok]
    refine .moved (Heap.Owns.free (h.malloc.perm (List.Perm.swap _ _ _))) (List.prefix_append _ _) ?_ (Nat.le_succ _)
    rw [List.length_append, List.length_take, List.length_drop, Allocator.length_bytes]
    omega
  | false =>
    simp only [Heap.malloc_fail hok]
    exact .failed ((Heap.OwnerStep.mallocFail heap (b :: owned)).owns h) hok rfl

end Realloc

end CLib
