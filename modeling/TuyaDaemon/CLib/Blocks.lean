import Mathlib.Data.List.Basic
import Mathlib.Data.List.Nodup
import Mathlib.Data.List.Perm.Basic

/-!
# Heap blocks

A computation that allocates, releases and calls out leaves a log of those events; a block is named by the number
of the allocation that made it.  `Heap.Owns h owned` is the ownership invariant: the blocks in `owned` are live,
every other block of the log was released exactly once, and numbers not handed out yet do not occur.  The rules
`Owns.malloc`, `Owns.free` and `Owns.call` say how each event changes the owned blocks, so a computation that ends
owning nothing has released each of its blocks exactly once (`Owns.releasedOnce`).  A computation that may release a
block twice still leaves the older blocks alone when it releases only its own (`ReleasesFrom.frees_eq`).
-/

namespace CLib

/-- An event of a computation over blocks; `κ` is the type of its calls to other code. -/
inductive HeapEvent (κ : Type) where
  | malloc (b : Nat)
  | free (b : Nat)
  | call (c : κ)

namespace HeapEvent

variable {κ : Type}

def isFree (b : Nat) : HeapEvent κ → Bool
  | free b' => b' == b
  | _ => false

def isMalloc (b : Nat) : HeapEvent κ → Bool
  | malloc b' => b' == b
  | _ => false

end HeapEvent

/-- The number of times a block is released in a log. -/
def frees {κ : Type} (log : List (HeapEvent κ)) (b : Nat) : Nat := log.countP (HeapEvent.isFree b)

/-- The number of times a block is handed out in a log. -/
def mallocs {κ : Type} (log : List (HeapEvent κ)) (b : Nat) : Nat := log.countP (HeapEvent.isMalloc b)

/-- The calls of a log, in order. -/
def callsOf {κ : Type} (log : List (HeapEvent κ)) : List κ :=
  log.filterMap fun
    | .call c => some c
    | _ => none

section Counting

variable {κ : Type} (log : List (HeapEvent κ)) {b c : Nat}

@[simp] theorem frees_malloc : frees (log ++ [.malloc c]) b = frees log b := by
  simp [frees, HeapEvent.isFree]

@[simp] theorem frees_call (x : κ) : frees (log ++ [.call x]) b = frees log b := by
  simp [frees, HeapEvent.isFree]

@[simp] theorem frees_free_self : frees (log ++ [.free b]) b = frees log b + 1 := by
  simp [frees, HeapEvent.isFree]

theorem frees_free_of_ne (h : c ≠ b) : frees (log ++ [.free c]) b = frees log b := by
  simp [frees, HeapEvent.isFree, h]

@[simp] theorem mallocs_free : mallocs (log ++ [.free c]) b = mallocs log b := by
  simp [mallocs, HeapEvent.isMalloc]

@[simp] theorem mallocs_call (x : κ) : mallocs (log ++ [.call x]) b = mallocs log b := by
  simp [mallocs, HeapEvent.isMalloc]

theorem mallocs_malloc_of_ne (h : c ≠ b) : mallocs (log ++ [.malloc c]) b = mallocs log b := by
  simp [mallocs, HeapEvent.isMalloc, h]

@[simp] theorem callsOf_malloc : callsOf (log ++ [.malloc b]) = callsOf log := by
  simp [callsOf]

@[simp] theorem callsOf_free : callsOf (log ++ [.free b]) = callsOf log := by
  simp [callsOf]

@[simp] theorem callsOf_call (x : κ) : callsOf (log ++ [.call x]) = callsOf log ++ [x] := by
  simp [callsOf]

end Counting

/-- The events so far, oldest first, and the number of the next allocation. -/
structure Heap (κ : Type) where
  next : Nat
  log : List (HeapEvent κ)

/-- Every block handed out is released exactly once. -/
def ReleasedOnce {κ : Type} (log : List (HeapEvent κ)) : Prop := ∀ b, 0 < mallocs log b → frees log b = 1

namespace Heap

variable {κ : Type}

/-- An allocation that `ok` lets succeed or fail by its number. -/
def malloc (ok : Nat → Bool) (h : Heap κ) : Option Nat × Heap κ :=
  if ok h.next then (some h.next, { next := h.next + 1, log := h.log ++ [.malloc h.next] })
  else (none, { h with next := h.next + 1 })

def free (b : Nat) (h : Heap κ) : Heap κ := { h with log := h.log ++ [.free b] }

def call (c : κ) (h : Heap κ) : Heap κ := { h with log := h.log ++ [.call c] }

/-- `if (p) free(p)`. -/
def freeIf (p : Option Nat) (h : Heap κ) : Heap κ :=
  match p with
  | some b => h.free b
  | none => h

@[simp] theorem free_next (b : Nat) (h : Heap κ) : (h.free b).next = h.next := rfl

@[simp] theorem call_next (c : κ) (h : Heap κ) : (h.call c).next = h.next := rfl

@[simp] theorem free_log (b : Nat) (h : Heap κ) : (h.free b).log = h.log ++ [.free b] := rfl

@[simp] theorem call_log (c : κ) (h : Heap κ) : (h.call c).log = h.log ++ [.call c] := rfl

@[simp] theorem freeIf_none (h : Heap κ) : h.freeIf none = h := rfl

@[simp] theorem freeIf_some (b : Nat) (h : Heap κ) : h.freeIf (some b) = h.free b := rfl

@[simp] theorem callsOf_freeIf (p : Option Nat) (h : Heap κ) : callsOf (h.freeIf p).log = callsOf h.log := by
  cases p with
  | none => rfl
  | some b => exact callsOf_free h.log

@[simp] theorem malloc_ok {ok : Nat → Bool} {h : Heap κ} (hok : ok h.next = true) :
    h.malloc ok = (some h.next, { next := h.next + 1, log := h.log ++ [.malloc h.next] }) := by
  simp [malloc, hok]

@[simp] theorem malloc_fail {ok : Nat → Bool} {h : Heap κ} (hok : ok h.next = false) :
    h.malloc ok = (none, { h with next := h.next + 1 }) := by
  simp [malloc, hok]

/-- The blocks in `owned` are live, all others were released exactly once. -/
structure Owns (h : Heap κ) (owned : List Nat) : Prop where
  nodup : owned.Nodup
  held : ∀ b ∈ owned, b < h.next ∧ frees h.log b = 0
  released : ∀ b, b ∉ owned → 0 < mallocs h.log b → frees h.log b = 1
  beyond : ∀ b, h.next ≤ b → mallocs h.log b = 0 ∧ frees h.log b = 0

namespace Owns

variable {h : Heap κ} {owned : List Nat}

theorem start (n : Nat) : Owns ({ next := n, log := [] } : Heap κ) [] :=
  ⟨List.nodup_nil, by simp, by simp [mallocs], by simp [mallocs, frees]⟩

theorem perm {owned' : List Nat} (ho : Owns h owned) (hp : owned.Perm owned') : Owns h owned' :=
  ⟨hp.nodup_iff.1 ho.nodup, fun b hb => ho.held b (hp.mem_iff.2 hb),
    fun b hb => ho.released b (fun hm => hb (hp.mem_iff.1 hm)), ho.beyond⟩

/-- A successful allocation adds its block. -/
theorem malloc (ho : Owns h owned) :
    Owns ({ next := h.next + 1, log := h.log ++ [.malloc h.next] } : Heap κ) (h.next :: owned) := by
  have hnew := ho.beyond h.next (Nat.le_refl _)
  refine ⟨List.nodup_cons.2 ⟨fun hm => ?_, ho.nodup⟩, fun b hb => ?_, fun b hb hm => ?_, fun b hb => ?_⟩
  · have := (ho.held _ hm).1
    omega
  · rw [frees_malloc]
    rcases List.mem_cons.1 hb with rfl | hb
    · exact ⟨Nat.lt_succ_self _, hnew.2⟩
    · exact ⟨Nat.lt_succ_of_lt (ho.held b hb).1, (ho.held b hb).2⟩
  · simp only [List.mem_cons, not_or] at hb
    rw [mallocs_malloc_of_ne h.log (Ne.symm hb.1)] at hm
    rw [frees_malloc]
    exact ho.released b hb.2 hm
  · have hb' : h.next + 1 ≤ b := hb
    rw [mallocs_malloc_of_ne h.log (by omega), frees_malloc]
    exact ho.beyond b (by omega)

/-- Releasing an owned block takes it away. -/
theorem free {b : Nat} (ho : Owns h (b :: owned)) : Owns (h.free b) owned := by
  have hnd := List.nodup_cons.1 ho.nodup
  have hb := ho.held b (by simp)
  refine ⟨hnd.2, fun c hc => ?_, fun c hc hm => ?_, fun c hc => ?_⟩
  · have hne : b ≠ c := fun e => hnd.1 (e ▸ hc)
    rw [free_next, free_log, frees_free_of_ne h.log hne]
    exact ho.held c (by simp [hc])
  · rw [free_log, mallocs_free] at hm
    rw [free_log]
    by_cases e : b = c
    · subst e
      rw [frees_free_self, hb.2]
    · rw [frees_free_of_ne h.log e]
      exact ho.released c (by simp [Ne.symm e, hc]) hm
  · rw [free_next] at hc
    have hne : b ≠ c := by
      have := hb.1
      omega
    rw [free_log, mallocs_free, frees_free_of_ne h.log hne]
    exact ho.beyond c hc

/-- A call to other code changes nothing. -/
theorem call (ho : Owns h owned) (c : κ) : Owns (h.call c) owned := by
  refine ⟨ho.nodup, fun b hb => ?_, fun b hb hm => ?_, fun b hb => ?_⟩
  · rw [call_next, call_log, frees_call]
    exact ho.held b hb
  · rw [call_log, mallocs_call] at hm
    rw [call_log, frees_call]
    exact ho.released b hb hm
  · rw [call_next] at hb
    rw [call_log, mallocs_call, frees_call]
    exact ho.beyond b hb

/-- `if (p) free(p)` releases the block when there is one. -/
theorem freeIf {p : Option Nat} (ho : Owns h (p.toList ++ owned)) : Owns (h.freeIf p) owned := by
  cases p with
  | none => simpa using ho
  | some b => exact Owns.free (by simpa using ho)

theorem releasedOnce (ho : Owns h []) : ReleasedOnce h.log := fun b hb => ho.released b (by simp) hb

end Owns

/-! ### Steps of an owner -/

/-- On the way from `h` to `h'` an owner of `owned` comes to own `owned'`, and the log grows. -/
structure OwnerStep (h : Heap κ) (owned : List Nat) (h' : Heap κ) (owned' : List Nat) : Prop where
  owns : Owns h owned → Owns h' owned'
  log : h.log <+: h'.log

namespace OwnerStep

variable {h h' h'' : Heap κ} {owned owned' owned'' : List Nat}

theorem refl (h : Heap κ) (owned : List Nat) : OwnerStep h owned h owned := ⟨id, List.prefix_refl _⟩

theorem trans (h₁ : OwnerStep h owned h' owned') (h₂ : OwnerStep h' owned' h'' owned'') :
    OwnerStep h owned h'' owned'' :=
  ⟨fun ho => h₂.owns (h₁.owns ho), h₁.log.trans h₂.log⟩

theorem malloc (h : Heap κ) (owned : List Nat) :
    OwnerStep h owned { next := h.next + 1, log := h.log ++ [.malloc h.next] } (h.next :: owned) :=
  ⟨Owns.malloc, List.prefix_append _ _⟩

/-- A number that is used up without a block. -/
theorem mallocFail (h : Heap κ) (owned : List Nat) : OwnerStep h owned { h with next := h.next + 1 } owned := by
  refine ⟨fun ho => ⟨ho.nodup, fun b hb => ?_, ho.released, fun b hb => ?_⟩, List.prefix_refl _⟩
  · exact ⟨Nat.lt_succ_of_lt (ho.held b hb).1, (ho.held b hb).2⟩
  · exact ho.beyond b (Nat.le_of_succ_le hb)

theorem free (h : Heap κ) (b : Nat) (owned : List Nat) : OwnerStep h (b :: owned) (h.free b) owned :=
  ⟨Owns.free, List.prefix_append _ _⟩

theorem call (h : Heap κ) (c : κ) (owned : List Nat) : OwnerStep h owned (h.call c) owned :=
  ⟨fun ho => ho.call c, List.prefix_append _ _⟩

theorem perm (hs : OwnerStep h owned h' owned') (hp : owned'.Perm owned'') : OwnerStep h owned h' owned'' :=
  ⟨fun ho => (hs.owns ho).perm hp, hs.log⟩

end OwnerStep

/-! ### Older blocks -/

/-- On the way from `h` to `h'` only blocks with a number from `n` on are released. -/
structure ReleasesFrom (n : Nat) (h h' : Heap κ) : Prop where
  next_le : h.next ≤ h'.next
  events : ∃ es, h'.log = h.log ++ es ∧ ∀ b, HeapEvent.free b ∈ es → n ≤ b ∧ b < h'.next

namespace ReleasesFrom

variable {n : Nat} {h h' h'' : Heap κ}

theorem refl (n : Nat) (h : Heap κ) : ReleasesFrom n h h := ⟨Nat.le_refl _, [], by simp, by simp⟩

theorem trans (h₁ : ReleasesFrom n h h') (h₂ : ReleasesFrom n h' h'') : ReleasesFrom n h h'' := by
  obtain ⟨es₁, hlog₁, hfree₁⟩ := h₁.events
  obtain ⟨es₂, hlog₂, hfree₂⟩ := h₂.events
  refine ⟨Nat.le_trans h₁.next_le h₂.next_le, es₁ ++ es₂, by rw [hlog₂, hlog₁, List.append_assoc], ?_⟩
  intro b hb
  rcases List.mem_append.1 hb with hb | hb
  · have hle := h₂.next_le
    have hbounds := hfree₁ b hb
    omega
  · exact hfree₂ b hb

theorem malloc (n : Nat) (ok : Nat → Bool) (h : Heap κ) : ReleasesFrom n h (h.malloc ok).2 := by
  unfold Heap.malloc
  split
  · exact ⟨Nat.le_succ _, [.malloc h.next], rfl, by simp⟩
  · exact ⟨Nat.le_succ _, [], by simp, by simp⟩

theorem free {b : Nat} (hn : n ≤ b) (hb : b < h.next) : ReleasesFrom n h (h.free b) := by
  refine ⟨Nat.le_refl _, [.free b], rfl, ?_⟩
  intro c hc
  rw [List.mem_singleton] at hc
  cases hc
  exact ⟨hn, hb⟩

theorem freeIf {p : Option Nat} (hp : ∀ b, p = some b → n ≤ b ∧ b < h.next) : ReleasesFrom n h (h.freeIf p) := by
  cases p with
  | none => exact refl n h
  | some b => exact free (hp b rfl).1 (hp b rfl).2

theorem call (n : Nat) (c : κ) (h : Heap κ) : ReleasesFrom n h (h.call c) :=
  ⟨Nat.le_refl _, [.call c], rfl, by simp⟩

/-- The blocks below are not released, and neither are those that are handed out later. -/
theorem frees_eq (hr : ReleasesFrom n h h') {b : Nat} (hb : b < n ∨ h'.next ≤ b) : frees h'.log b = frees h.log b := by
  obtain ⟨es, hlog, hfree⟩ := hr.events
  have hnone : es.countP (HeapEvent.isFree b) = 0 := by
    rw [List.countP_eq_zero]
    intro e he hfreed
    cases e with
    | free c =>
      have hbounds := hfree c he
      simp only [HeapEvent.isFree, beq_iff_eq] at hfreed
      omega
    | malloc c => cases hfreed
    | call c => cases hfreed
  rw [hlog, frees, List.countP_append, hnone]
  rfl

theorem mallocs_le (hr : ReleasesFrom n h h') (b : Nat) : mallocs h.log b ≤ mallocs h'.log b := by
  obtain ⟨es, hlog, -⟩ := hr.events
  rw [hlog, mallocs, mallocs, List.countP_append]
  exact Nat.le_add_right _ _

end ReleasesFrom

end Heap

end CLib
