import Mathlib.Data.List.Basic

/-!
# Descriptor tables

A table of open descriptors, each with its owner.  A new descriptor gets the lowest free number.
-/

namespace CLib

/-- The owners of the descriptors by number. -/
abbrev FdTable (ω : Type) := List (Option ω)

namespace FdTable

variable {ω : Type}

/-- Who has the descriptor `n` open. -/
def owner (t : FdTable ω) (n : Nat) : Option ω := t[n]?.join

/-- The lowest free number. -/
def lowest (t : FdTable ω) : Nat := t.findIdx Option.isNone

/-- The table with a new descriptor of `o`. -/
def openAs (t : FdTable ω) (o : ω) : FdTable ω :=
  if t.lowest < t.length then t.set t.lowest (some o) else t ++ [some o]

def close (t : FdTable ω) (n : Nat) : FdTable ω := t.set n none

theorem mem_iff_owner (t : FdTable ω) (o : ω) : some o ∈ t ↔ ∃ n, t.owner n = some o := by
  unfold owner
  simp only [List.mem_iff_getElem?, Option.join_eq_some_iff]

theorem owner_lowest (t : FdTable ω) : t.owner t.lowest = none := by
  unfold owner
  by_cases h : t.lowest < t.length
  · have hfree : t[t.lowest].isNone = true := List.findIdx_getElem
    rw [List.getElem?_eq_getElem h, Option.isNone_iff_eq_none.1 hfree]
    rfl
  · rw [List.getElem?_eq_none (Nat.le_of_not_lt h)]
    rfl

theorem owner_openAs (t : FdTable ω) (o : ω) (n : Nat) :
    (t.openAs o).owner n = if n = t.lowest then some o else t.owner n := by
  unfold openAs owner
  by_cases h : t.lowest < t.length
  · rw [if_pos h, List.getElem?_set]
    by_cases hn : n = t.lowest
    · subst hn
      simp [h]
    · rw [if_neg (Ne.symm hn), if_neg hn]
  · have hle : t.lowest ≤ t.length := List.findIdx_le_length
    have heq : t.lowest = t.length := by omega
    rw [if_neg h, heq]
    by_cases hn : n = t.length
    · subst hn
      simp
    · rw [if_neg hn]
      by_cases hlt : n < t.length
      · rw [List.getElem?_append_left hlt]
      · rw [List.getElem?_eq_none (by simp; omega), List.getElem?_eq_none (by omega)]

theorem owner_close (t : FdTable ω) (n m : Nat) : (t.close n).owner m = if m = n then none else t.owner m := by
  unfold close owner
  rw [List.getElem?_set]
  by_cases h : m = n
  · subst h
    rw [if_pos rfl, if_pos rfl]
    split <;> rfl
  · rw [if_neg (Ne.symm h), if_neg h]

end FdTable

end CLib
