import Mathlib.Data.List.Basic
import TuyaDaemon.CLib.Strings

/-!
# `mbedtls_base64_decode`

The first pass over the text checks it and counts its characters (`base64Check`), which gives the length that the
buffer must have; the second decodes groups of four (`base64Step`).  What the second pass writes fits in that length
(`length_base64Output_le`).
-/

namespace TuyaDaemon

open CLib

abbrev mbedtlsErrBase64BufferTooSmall : Int := -0x002A
abbrev mbedtlsErrBase64InvalidCharacter : Int := -0x002C

/-- `base64_dec_map`, where `127` is no character of the alphabet and `64` is the padding. -/
def base64DecMap (c : UInt8) : UInt32 :=
  if 65 ≤ c ∧ c ≤ 90 then (c - 65).toUInt32
  else if 97 ≤ c ∧ c ≤ 122 then (c - 97 + 26).toUInt32
  else if 48 ≤ c ∧ c ≤ 57 then (c - 48 + 52).toUInt32
  else if c = 43 then 62
  else if c = 47 then 63
  else if c = 61 then 64
  else 127

/-- The first pass: the numbers of characters and of paddings.  `space` is whether a blank came last, which the end of
the text or of a line has to follow. -/
def base64Check (space : Bool) (n j : Nat) : List UInt8 → Option (Nat × Nat)
  | [] => some (n, j)
  | c :: rest =>
    if c = 32 then base64Check true n j rest
    else if c = 13 ∧ rest.head? = some 10 then base64Check false n j rest
    else if c = 10 then base64Check false n j rest
    else if space then none
    else
      let j := if c = 61 then j + 1 else j
      if 2 < j then none
      else if base64DecMap c = 127 then none
      else if base64DecMap c < 64 ∧ j ≠ 0 then none
      else base64Check false (n + 1) j rest

/-- The state of the second pass: `j`, the characters of the group, their bits, and what was written. -/
structure Base64State where
  j : Nat
  n : Nat
  x : UInt32
  output : List UInt8

/-- One character of the second pass. -/
def base64Step (s : Base64State) (c : UInt8) : Base64State :=
  if c = 13 ∨ c = 10 ∨ c = 32 then s
  else
    let j := if base64DecMap c = 64 then s.j - 1 else s.j
    let x := (s.x <<< 6) ||| (base64DecMap c &&& 0x3F)
    if s.n + 1 = 4 then
      { j := j
        n := 0
        x := x
        output := s.output ++ [(x >>> 16).toUInt8, (x >>> 8).toUInt8, x.toUInt8].take j }
    else { s with j := j, n := s.n + 1, x := x }

/-- What the second pass writes. -/
def base64Output (src : List UInt8) : List UInt8 := (src.foldl base64Step ⟨3, 0, 0, []⟩).output

/-- The length that the buffer must have. -/
def base64Length (n j : Nat) : Nat := 6 * (n / 8) + (6 * (n % 8) + 7) / 8 - j

/-- `mbedtls_base64_decode(dst, dlen, &olen, src, slen)`; `dst` is whether the buffer is there. -/
def mbedtlsBase64Decode (dst : Bool) (dlen : Nat) (src : List UInt8) : Except Int (List UInt8) :=
  match base64Check false 0 0 src with
  | none => .error mbedtlsErrBase64InvalidCharacter
  | some (n, j) =>
    if n = 0 then .ok []
    else if dst = false ∨ dlen < base64Length n j then .error mbedtlsErrBase64BufferTooSmall
    else .ok (base64Output src)

/-! ### The buffer -/

/-- Where the second pass is behind `n` characters with `e` paddings: every group has written its bytes. -/
structure Base64Bounds (n e : Nat) (s : Base64State) : Prop where
  group : s.n = n % 4
  pads : s.j + e = 3
  whole : s.output.length ≤ 3 * (n / 4)
  needed : s.output.length + e ≤ base64Length n 0

/-- Only `=` is mapped to the padding. -/
theorem base64DecMap_ne {c : UInt8} (h : c ≠ 61) : base64DecMap c ≠ 64 := by
  have hall : ∀ k < 256, UInt8.ofNat k ≠ 61 → base64DecMap (UInt8.ofNat k) ≠ 64 := by decide +kernel
  have hc := hall c.toNat c.toNat_lt
  rw [UInt8.ofNat_toNat] at hc
  exact hc h

private theorem base64Length_eq (n : Nat) : base64Length n 0 = (6 * n + 7) / 8 := by
  unfold base64Length
  omega

/-- One character that counts. -/
theorem Base64Bounds.step {n e : Nat} {s : Base64State} (h : Base64Bounds n e s) {c : UInt8}
    (hc : ¬ (c = 13 ∨ c = 10 ∨ c = 32)) {e' : Nat} (he : e' = if base64DecMap c = 64 then e + 1 else e)
    (hmax : e' ≤ 2) : Base64Bounds (n + 1) e' (base64Step s c) := by
  obtain ⟨hgroup, hpads, hwhole, hneeded⟩ := h
  rw [base64Length_eq] at hneeded
  have hj : (if base64DecMap c = 64 then s.j - 1 else s.j) + e' = 3 := by
    split at he
    · rename_i hpad
      rw [if_pos hpad]
      omega
    · rename_i hpad
      rw [if_neg hpad]
      omega
  have hle : e ≤ e' ∧ e' ≤ e + 1 := by
    split at he <;> omega
  unfold base64Step
  rw [if_neg hc]
  dsimp only
  by_cases hlast : s.n + 1 = 4
  · -- the group is complete, and `j` of its bytes are written
    have hlen : ∀ j : Nat, j ≤ 3 → ∀ l : List UInt8, ∀ a b d : UInt8,
        (l ++ [a, b, d].take j).length = l.length + j := by
      intro j hj l a b d
      rw [List.length_append, List.length_take]
      simp only [List.length_cons, List.length_nil]
      omega
    rw [if_pos hlast]
    refine ⟨by dsimp only; omega, hj, ?_, ?_⟩
    · rw [hlen _ (by omega)]
      omega
    · rw [hlen _ (by omega), base64Length_eq]
      omega
  · rw [if_neg hlast]
    refine ⟨by dsimp only; omega, hj, ?_, ?_⟩
    · dsimp only
      omega
    · rw [base64Length_eq]
      dsimp only
      have hmod : n % 4 = 0 ∨ n % 4 = 1 ∨ n % 4 = 2 := by omega
      rcases hmod with h0 | h1 | h2 <;> omega

theorem base64Check_bounds (src : List UInt8) {space : Bool} {n j n' j' : Nat} {s : Base64State}
    (h : Base64Bounds n j s) (hcheck : base64Check space n j src = some (n', j')) :
    Base64Bounds n' j' (src.foldl base64Step s) := by
  induction src generalizing space n j s with
  | nil =>
    cases hcheck
    exact h
  | cons c rest ih =>
    rw [List.foldl_cons]
    have hskip : (c = 13 ∨ c = 10 ∨ c = 32) → base64Step s c = s := fun hc => if_pos hc
    rw [base64Check] at hcheck
    split at hcheck
    · rename_i hspace
      rw [hskip (Or.inr (Or.inr hspace))]
      exact ih h hcheck
    split at hcheck
    · rename_i hreturn
      rw [hskip (Or.inl hreturn.1)]
      exact ih h hcheck
    split at hcheck
    · rename_i hline
      rw [hskip (Or.inr (Or.inl hline))]
      exact ih h hcheck
    split at hcheck
    · cases hcheck
    · rename_i hspace hreturn hline hblank
      dsimp only at hcheck
      generalize hj : (if c = 61 then j + 1 else j) = j₁ at hcheck
      split at hcheck
      · cases hcheck
      rename_i hmax
      split at hcheck
      · cases hcheck
      rename_i hvalid
      split at hcheck
      · cases hcheck
      refine ih (h.step ?_ ?_ (by omega)) hcheck
      · -- a carriage return is no character of the alphabet
        rintro (hc | hc | hc)
        · rw [hc] at hvalid
          exact hvalid (by decide)
        · exact hline hc
        · exact hspace hc
      · by_cases hpad : c = 61
        · rw [← hj, if_pos hpad, hpad]
          rfl
        · have hother : base64DecMap c ≠ 64 := base64DecMap_ne hpad
          rw [← hj, if_neg hpad, if_neg hother]

/-- The second pass writes no more than the first has found to be needed. -/
theorem length_base64Output_le {src : List UInt8} {n j : Nat} (h : base64Check false 0 0 src = some (n, j)) :
    (base64Output src).length ≤ base64Length n j := by
  have hstart : Base64Bounds 0 0 ⟨3, 0, 0, []⟩ := ⟨rfl, rfl, Nat.le_refl _, Nat.le_refl _⟩
  have hneeded := (base64Check_bounds src hstart h).needed
  unfold base64Output base64Length at *
  omega

/-- What is decoded fits the buffer. -/
theorem length_mbedtlsBase64Decode_le {dst : Bool} {dlen : Nat} {src der : List UInt8}
    (h : mbedtlsBase64Decode dst dlen src = .ok der) : der.length ≤ dlen := by
  unfold mbedtlsBase64Decode at h
  cases hcheck : base64Check false 0 0 src with
  | none =>
    rw [hcheck] at h
    cases h
  | some counted =>
    obtain ⟨n, j⟩ := counted
    simp only [hcheck] at h
    by_cases hn : n = 0
    · rw [if_pos hn] at h
      cases h
      exact Nat.zero_le dlen
    · rw [if_neg hn] at h
      by_cases hsmall : dst = false ∨ dlen < base64Length n j
      · rw [if_pos hsmall] at h
        cases h
      · rw [if_neg hsmall] at h
        cases h
        have hwritten := length_base64Output_le hcheck
        omega

end TuyaDaemon
