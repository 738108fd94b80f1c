import Mathlib.Algebra.Group.Nat.Defs
import Mathlib.Data.List.Basic

/-!
# UTF-8 in groups of six bits

A character behind ASCII is a first byte, which says how many bytes follow and has the high bits of the code point, and
six bits with each byte behind it (`CodeShape.encode`).  A character has one shape only, the shortest one.
-/

namespace CLib

/-- The byte `10xxxxxx` with these six bits. -/
def trailingByte (bits : Fin 64) : UInt8 := UInt8.ofNat (bits + 0x80)

/-- A code point in six bits with each byte behind the first. -/
def codePoint (top : Nat) (ts : List (Fin 64)) : Nat := ts.foldl (fun v t => v * 64 + t.val) top

/-- How many bytes follow the first one of this code point. -/
structure CodeShape (c : Char) (top : Nat) (ts : List (Fin 64)) : Prop where
  code : c.toNat = codePoint top ts
  shortest : ts.length = 1 ∧ 0x80 ≤ c.toNat ∧ c.toNat < 0x800 ∨ ts.length = 2 ∧ 0x800 ≤ c.toNat ∧ c.toNat < 0x10000 ∨
    ts.length = 3 ∧ 0x10000 ≤ c.toNat

theorem char_lt (c : Char) : c.toNat < 0x110000 := by
  rcases c.valid with h | ⟨-, h⟩
  · exact Nat.lt_trans h (by decide)
  · exact h

theorem exists_codeShape {c : Char} (h : 0x80 ≤ c.toNat) : ∃ top ts, CodeShape c top ts := by
  have hsix : ∀ n, n % 64 < 64 := fun n => Nat.mod_lt n (by decide)
  by_cases h₂ : c.toNat < 0x800
  · refine ⟨c.toNat / 64, [⟨c.toNat % 64, hsix _⟩], ?_, Or.inl ⟨rfl, h, h₂⟩⟩
    simp only [codePoint, List.foldl_cons, List.foldl_nil]
    omega
  by_cases h₃ : c.toNat < 0x10000
  · refine ⟨c.toNat / 4096, [⟨c.toNat / 64 % 64, hsix _⟩, ⟨c.toNat % 64, hsix _⟩], ?_,
      Or.inr (Or.inl ⟨rfl, Nat.le_of_not_lt h₂, h₃⟩)⟩
    simp only [codePoint, List.foldl_cons, List.foldl_nil]
    omega
  · refine ⟨c.toNat / 262144,
      [⟨c.toNat / 4096 % 64, hsix _⟩, ⟨c.toNat / 64 % 64, hsix _⟩, ⟨c.toNat % 64, hsix _⟩], ?_,
      Or.inr (Or.inr ⟨rfl, Nat.le_of_not_lt h₃⟩)⟩
    simp only [codePoint, List.foldl_cons, List.foldl_nil]
    omega

/-- The lists of these lengths. -/
theorem CodeShape.cases {c : Char} {top : Nat} {ts : List (Fin 64)} (h : CodeShape c top ts) :
    (∃ t, ts = [t] ∧ c.toNat = top * 64 + t.val ∧ 0x80 ≤ c.toNat ∧ c.toNat < 0x800) ∨
    (∃ t u, ts = [t, u] ∧ c.toNat = (top * 64 + t.val) * 64 + u.val ∧ 0x800 ≤ c.toNat ∧ c.toNat < 0x10000) ∨
    (∃ t u v, ts = [t, u, v] ∧ c.toNat = ((top * 64 + t.val) * 64 + u.val) * 64 + v.val ∧ 0x10000 ≤ c.toNat) := by
  obtain ⟨hcode, ⟨hlength, hlow, hhigh⟩ | ⟨hlength, hlow, hhigh⟩ | ⟨hlength, hlow⟩⟩ := h
  · obtain ⟨t, rfl⟩ := List.length_eq_one_iff.1 hlength
    exact Or.inl ⟨t, rfl, hcode, hlow, hhigh⟩
  · obtain ⟨t, u, rfl⟩ := List.length_eq_two.1 hlength
    exact Or.inr (Or.inl ⟨t, u, rfl, hcode, hlow, hhigh⟩)
  · obtain ⟨t, u, v, rfl⟩ := List.length_eq_three.1 hlength
    exact Or.inr (Or.inr ⟨t, u, v, rfl, hcode, hlow⟩)

/-- The high bits of the first byte, which say how many follow. -/
def leadMark : Nat → Nat
  | 1 => 0xC0
  | 2 => 0xE0
  | _ => 0xF0

theorem CodeShape.encode {c : Char} {top : Nat} {ts : List (Fin 64)} (h : CodeShape c top ts) :
    String.utf8EncodeChar c = UInt8.ofNat (leadMark ts.length + top) :: ts.map trailingByte := by
  have hmax := char_lt c
  have hval : c.val.toNat = c.toNat := rfl
  rcases h.cases with ⟨t, rfl, hcode, hlow, hhigh⟩ | ⟨t, u, rfl, hcode, hlow, hhigh⟩ | ⟨t, u, v, rfl, hcode, hlow⟩
  · have htop : c.toNat / 64 % 0x20 + 0xc0 = 0xC0 + top := by omega
    have ht : c.toNat % 0x40 = t := by omega
    rw [String.utf8EncodeChar, hval, if_neg (by omega), if_pos (by omega), htop, ht]
    rfl
  · have htop : c.toNat / 4096 % 0x10 + 0xe0 = 0xE0 + top := by omega
    have ht : c.toNat / 64 % 0x40 = t := by omega
    have hu : c.toNat % 0x40 = u := by omega
    rw [String.utf8EncodeChar, hval, if_neg (by omega), if_neg (by omega), if_pos (by omega), htop, ht, hu]
    rfl
  · have htop : c.toNat / 262144 % 0x08 + 0xf0 = 0xF0 + top := by omega
    have ht : c.toNat / 4096 % 0x40 = t := by omega
    have hu : c.toNat / 64 % 0x40 = u := by omega
    have hv : c.toNat % 0x40 = v := by omega
    rw [String.utf8EncodeChar, hval, if_neg (by omega), if_neg (by omega), if_neg (by omega), htop, ht, hu, hv]
    rfl

/-- What the first byte of a code point can be. -/
theorem CodeShape.top_le {c : Char} {top : Nat} {ts : List (Fin 64)} (h : CodeShape c top ts) :
    ts.length = 1 ∧ 2 ≤ top ∧ top < 32 ∨ ts.length = 2 ∧ top < 16 ∨ ts.length = 3 ∧ top < 5 := by
  have hmax := char_lt c
  rcases h.cases with ⟨t, rfl, hcode, hlow, hhigh⟩ | ⟨t, u, rfl, hcode, hlow, hhigh⟩ | ⟨t, u, v, rfl, hcode, hlow⟩
  · exact Or.inl ⟨rfl, by omega, by omega⟩
  · exact Or.inr (Or.inl ⟨rfl, by omega⟩)
  · exact Or.inr (Or.inr ⟨rfl, by omega⟩)

theorem leadMark_unique {j j' top top' : Nat} (h : j = 1 ∧ top < 32 ∨ j = 2 ∧ top < 16 ∨ j = 3 ∧ top < 8)
    (h' : j' = 1 ∧ top' < 32 ∨ j' = 2 ∧ top' < 16 ∨ j' = 3 ∧ top' < 8) (heq : leadMark j + top = leadMark j' + top') :
    j = j' ∧ top = top' := by
  rcases h with ⟨rfl, h⟩ | ⟨rfl, h⟩ | ⟨rfl, h⟩ <;> rcases h' with ⟨rfl, h'⟩ | ⟨rfl, h'⟩ | ⟨rfl, h'⟩ <;>
    simp only [leadMark] at heq <;> omega

theorem utf8EncodeChar_ascii {ch : Char} (h : ch.toNat < 0x80) : String.utf8EncodeChar ch = [UInt8.ofNat ch.toNat] := by
  have hval : ch.val.toNat = ch.toNat := rfl
  rw [String.utf8EncodeChar, hval, if_pos (by omega)]

/-- A first byte below `0x80` is the whole character. -/
theorem utf8EncodeChar_head {ch : Char} {c : UInt8} {s : List UInt8} (h : String.utf8EncodeChar ch = c :: s) :
    if c.toNat < 0x80 then ch.toNat = c.toNat ∧ s = [] else 0x80 ≤ ch.toNat := by
  by_cases hch : ch.toNat < 0x80
  · rw [utf8EncodeChar_ascii hch, List.cons.injEq] at h
    have hc : c.toNat = ch.toNat := by
      rw [← h.1, UInt8.toNat_ofNat']
      omega
    rw [if_pos (by omega)]
    exact ⟨hc.symm, h.2.symm⟩
  · obtain ⟨top, ts, hshape⟩ := exists_codeShape (Nat.le_of_not_lt hch)
    rw [hshape.encode, List.cons.injEq] at h
    have hc : ¬ c.toNat < 0x80 := by
      rw [← h.1, UInt8.toNat_ofNat']
      rcases hshape.top_le with ⟨hlength, -, htop⟩ | ⟨hlength, htop⟩ | ⟨hlength, htop⟩ <;>
        rw [hlength, leadMark] <;> omega
    rw [if_neg hc]
    exact Nat.le_of_not_lt hch

theorem exists_asciiChar {n : Nat} (h : n < 0x80) : ∃ ch : Char, ch.toNat = n := by
  refine ⟨Char.ofNat n, ?_⟩
  rw [Char.ofNat, dif_pos (Or.inl (by omega))]
  rfl

end CLib
