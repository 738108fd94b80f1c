import Mathlib.Algebra.Group.Nat.Defs
import Mathlib.Data.List.Basic

/-!
# Lengths of variable size

Natural numbers in groups of seven bits, the lowest group first; the high bit of a byte says that another one follows.
`varint` is the shortest encoding, `varintFrom` decodes bytes as they arrive, with at most so many of them.
`varintFrom_varint` is the round trip, and `length_varint_le_iff` says how long an encoding is.
-/

namespace CLib

/-- The bytes that a `do` loop writes, which divides by 128 until nothing is left; so many passes are enough. -/
def varintLoop : Nat → Nat → List UInt8
  | 0, n => [UInt8.ofNat n]
  | passes + 1, n =>
    if n < 128 then [UInt8.ofNat n] else (UInt8.ofNat (n % 128) ||| 0x80) :: varintLoop passes (n / 128)

/-- No number needs more passes than it has units. -/
def varint (n : Nat) : List UInt8 := varintLoop n n

theorem varintLoop_eq {passes n : Nat} (h : n ≤ passes) : varintLoop passes n = varint n := by
  induction passes using Nat.strongRecOn generalizing n with
  | ind passes ih =>
    rw [varint]
    cases passes with
    | zero => rw [Nat.le_zero.1 h]
    | succ passes =>
      cases n with
      | zero => rfl
      | succ n =>
        rw [varintLoop, varintLoop]
        split
        · rfl
        · rw [ih passes (Nat.lt_succ_self passes) (by omega)]
          rcases Nat.lt_or_eq_of_le h with hlt | heq
          · rw [ih n (by omega) (by omega)]
          · rw [Nat.succ_inj.1 heq, ih passes (Nat.lt_succ_self passes) (by omega)]

theorem varint_of_lt {n : Nat} (h : n < 128) : varint n = [UInt8.ofNat n] := by
  rw [varint]
  cases n with
  | zero => rfl
  | succ n => rw [varintLoop, if_pos h]

theorem varint_of_ge {n : Nat} (h : ¬ n < 128) : varint n = (UInt8.ofNat (n % 128) ||| 0x80) :: varint (n / 128) := by
  obtain ⟨m, rfl⟩ := Nat.exists_eq_succ_of_ne_zero (by omega : n ≠ 0)
  rw [varint, varintLoop, if_neg h, varintLoop_eq (by omega)]

theorem varint_ne_nil (n : Nat) : varint n ≠ [] := by
  by_cases h : n < 128
  · rw [varint_of_lt h]
    exact List.cons_ne_nil _ _
  · rw [varint_of_ge h]
    exact List.cons_ne_nil _ _

/-! ### Groups of seven bits -/

set_option maxRecDepth 4000 in
private theorem byte_facts : ∀ b : Fin 256, (UInt8.ofNat b &&& 0x7F).toNat < 128 ∧
    (UInt8.ofNat b &&& 0x80 = 0 → UInt8.ofNat (UInt8.ofNat b &&& 0x7F).toNat = UInt8.ofNat b) ∧
      (UInt8.ofNat b &&& 0x80 ≠ 0 → UInt8.ofNat (UInt8.ofNat b &&& 0x7F).toNat ||| 0x80 = UInt8.ofNat b) := by
  decide

/-- A byte is its group, with the high bit or without. -/
theorem group_of_byte (b : UInt8) : (b &&& 0x7F).toNat < 128 ∧
    (b &&& 0x80 = 0 → UInt8.ofNat (b &&& 0x7F).toNat = b) ∧
      (b &&& 0x80 ≠ 0 → UInt8.ofNat (b &&& 0x7F).toNat ||| 0x80 = b) := by
  have h := byte_facts ⟨b.toNat, b.toNat_lt⟩
  rwa [UInt8.ofNat_toNat] at h

private theorem group_facts : ∀ n : Fin 128,
    (UInt8.ofNat n &&& 0x7F).toNat = n ∧ UInt8.ofNat n &&& 0x80 = 0 ∧
      ((UInt8.ofNat n ||| 0x80) &&& 0x7F).toNat = n ∧ (UInt8.ofNat n ||| 0x80) &&& 0x80 ≠ 0 := by
  decide

/-- The last byte holds its group, and the high bit is not set. -/
theorem last_group {n : Nat} (h : n < 128) : (UInt8.ofNat n &&& 0x7F).toNat = n ∧ UInt8.ofNat n &&& 0x80 = 0 :=
  ⟨(group_facts ⟨n, h⟩).1, (group_facts ⟨n, h⟩).2.1⟩

/-- The bytes in front of it hold theirs, and the high bit is set. -/
theorem inner_group {n : Nat} (h : n < 128) :
    ((UInt8.ofNat n ||| 0x80) &&& 0x7F).toNat = n ∧ (UInt8.ofNat n ||| 0x80) &&& 0x80 ≠ 0 :=
  (group_facts ⟨n, h⟩).2.2

/-! ### How long an encoding is -/

theorem length_varint_pos (n : Nat) : 0 < (varint n).length := List.length_pos_iff.2 (varint_ne_nil n)

/-- So many bytes hold the numbers below a power of 128. -/
theorem length_varint_le_iff {k : Nat} (hk : 0 < k) (n : Nat) : (varint n).length ≤ k ↔ n < 128 ^ k := by
  induction k generalizing n with
  | zero => exact absurd hk (Nat.lt_irrefl 0)
  | succ k ih =>
    by_cases hn : n < 128
    · rw [varint_of_lt hn]
      refine iff_of_true (Nat.le_add_left 1 k) (Nat.lt_of_lt_of_le hn ?_)
      exact Nat.le_self_pow (Nat.succ_ne_zero k) 128
    · rw [varint_of_ge hn, List.length_cons, Nat.add_le_add_iff_right, Nat.pow_succ,
        ← Nat.div_lt_iff_lt_mul (by decide)]
      rcases Nat.eq_zero_or_pos k with rfl | hpos
      · have hlength := length_varint_pos (n / 128)
        have hdiv : 0 < n / 128 := by omega
        rw [Nat.pow_zero]
        omega
      · exact ih hpos (n / 128)

/-! ### Decoding -/

/-- Decode at most `left` bytes, each worth `multiplier` more than the one in front: the number and what is behind. -/
def varintFrom : Nat → Nat → Nat → List UInt8 → Option (Nat × List UInt8)
  | 0, _, _, _ => none
  | _ + 1, _, _, [] => none
  | left + 1, multiplier, n, b :: bs =>
    let n := n + (b &&& 0x7F).toNat * multiplier
    if b &&& 0x80 ≠ 0 then varintFrom left (multiplier * 128) n bs else some (n, bs)

/-- The round trip, by induction on the bytes that may be read. -/
theorem varintFrom_varint {left n : Nat} (hleft : 0 < left) (h : n < 128 ^ left) (multiplier start : Nat)
    (rest : List UInt8) :
    varintFrom left multiplier start (varint n ++ rest) = some (start + n * multiplier, rest) := by
  induction left generalizing n multiplier start with
  | zero => exact absurd hleft (Nat.lt_irrefl 0)
  | succ left ih =>
    by_cases hn : n < 128
    · obtain ⟨hvalue, hlast⟩ := last_group hn
      rw [varint_of_lt hn, List.singleton_append, varintFrom]
      simp only [hvalue, hlast, ne_eq, not_true_eq_false, ite_false]
    · obtain ⟨hvalue, hinner⟩ := inner_group (Nat.mod_lt n (by decide : 0 < 128))
      have hdiv : n / 128 < 128 ^ left := by
        rw [Nat.div_lt_iff_lt_mul (by decide), ← Nat.pow_succ]
        exact h
      have hpos : 0 < left := by
        refine Nat.pos_of_ne_zero fun hzero => ?_
        rw [hzero, Nat.pow_zero] at hdiv
        omega
      rw [varint_of_ge hn, List.cons_append, varintFrom]
      simp only [hvalue, if_pos hinner, ih hpos hdiv]
      have hsplit : n % 128 * multiplier + n / 128 * (multiplier * 128) = n * multiplier := by
        rw [Nat.mul_comm multiplier 128, ← Nat.mul_assoc, ← Nat.add_mul, Nat.mul_comm (n / 128) 128, Nat.mod_add_div]
      rw [Nat.add_assoc, hsplit]

/-- What is decoded stands in front, and that is the shortest encoding when it is as long as one. -/
theorem varintFrom_sound {left multiplier start : Nat} {bs rest : List UInt8} {m : Nat}
    (h : varintFrom left multiplier start bs = some (m, rest)) :
    ∃ front n, bs = front ++ rest ∧ m = start + n * multiplier ∧ n < 128 ^ left ∧ 0 < front.length ∧
      (front.length = (varint n).length → front = varint n) := by
  induction left generalizing multiplier start bs with
  | zero => cases h
  | succ left ih =>
    cases bs with
    | nil => cases h
    | cons b bs =>
      obtain ⟨hlt, hlast, hinner⟩ := group_of_byte b
      rw [varintFrom] at h
      split at h
      · rename_i hmore
        obtain ⟨front, n, rfl, rfl, hbound, hpos, hshortest⟩ := ih h
        refine ⟨b :: front, (b &&& 0x7F).toNat + n * 128, rfl, ?_, ?_, Nat.succ_pos _, fun hlength => ?_⟩
        · rw [Nat.add_mul, Nat.mul_assoc n, Nat.mul_comm 128, Nat.add_assoc]
        · rw [Nat.pow_succ]
          omega
        · by_cases hn : (b &&& 0x7F).toNat + n * 128 < 128
          · rw [varint_of_lt hn, List.length_cons, List.length_singleton] at hlength
            omega
          · have hmod : ((b &&& 0x7F).toNat + n * 128) % 128 = (b &&& 0x7F).toNat := by omega
            have hdiv : ((b &&& 0x7F).toNat + n * 128) / 128 = n := by omega
            rw [varint_of_ge hn, hmod, hdiv, List.length_cons, List.length_cons] at hlength
            rw [varint_of_ge hn, hmod, hdiv, hinner hmore, hshortest (Nat.succ_inj.1 hlength)]
      · rename_i hend
        obtain ⟨rfl, rfl⟩ := Prod.mk.inj (Option.some.inj h)
        refine ⟨[b], (b &&& 0x7F).toNat, rfl, rfl, ?_, Nat.one_pos, fun _ => ?_⟩
        · rw [Nat.pow_succ]
          have hpos : 0 < 128 ^ left := Nat.pow_pos (by decide)
          omega
        · rw [varint_of_lt hlt, hlast (not_ne_iff.1 hend)]

end CLib
