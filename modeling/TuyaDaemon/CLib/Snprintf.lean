import TuyaDaemon.CLib.Strings

/-!
# Chained `snprintf`

`len += snprintf(buf + len, size - len, …)`, repeated.  An `OutBuf` is the block, the running length as a 64-bit
`size_t` and the calls made so far; `OutBuf.snprintf` adds one call, and is `none` when the call writes past the
block.  `snprintfAll_spec` is the rule for a whole chain: if the pieces fit together with a terminator, no call is
cut short, no bound wraps, and the block holds exactly the pieces.  `snprintfAll_overflow` is the rule for pieces
that do not fit: the chain writes behind the block, or ends with a terminator inside its length.
-/

namespace CLib

/-- `INT_MAX`, the largest length `snprintf` can return. -/
def intMax : Nat := 2147483647

/-- The arguments of one call: where it writes, the bound it was given, and the characters it had to produce. -/
structure SnprintfCall where
  off : Nat
  bound : Nat
  need : Nat
deriving Repr, DecidableEq

/-- The call produced its whole output: the length is representable and the bound leaves room for the terminator. -/
def SnprintfCall.Complete (c : SnprintfCall) : Prop := c.need ≤ intMax ∧ c.need < c.bound

/-- `size_t` subtraction. -/
def sizeSub (a b : Nat) : Nat := (a + 2 ^ 64 - b) % 2 ^ 64

theorem sizeSub_of_le {a b : Nat} (h : b ≤ a) (ha : a < 2 ^ 64) : sizeSub a b = a - b := by
  unfold sizeSub; omega

/-- The return value: the length of the whole output, or a negative value when an `int` cannot hold it. -/
def snprintfRet (s : List UInt8) : Int := if s.length ≤ intMax then s.length else -1

/-- `size_t += int`. -/
def sizeAdd (a : Nat) (i : Int) : Nat := (((a : Int) + i) % 2 ^ 64).toNat

structure OutBuf where
  mem : List UInt8
  len : Nat
  calls : List SnprintfCall
deriving Repr, DecidableEq

namespace OutBuf

/-- A fresh block of `size` bytes. -/
def new (fill : Nat → UInt8) (size : Nat) : OutBuf := ⟨(List.range size).map fill, 0, []⟩

/-- One call printing `s` at the current length; `none` when it writes outside the block. -/
def snprintf (b : OutBuf) (s : List UInt8) : Option OutBuf :=
  let bound := sizeSub b.mem.length b.len
  let written := if bound = 0 then [] else s.take (bound - 1) ++ [0]
  if b.len + written.length ≤ b.mem.length then
    some ⟨b.mem.take b.len ++ written ++ b.mem.drop (b.len + written.length),
      sizeAdd b.len (snprintfRet s), b.calls ++ [⟨b.len, bound, s.length⟩]⟩
  else none

/-- A chain of calls, one for each piece. -/
def snprintfAll (b : OutBuf) : List (List UInt8) → Option OutBuf
  | [] => some b
  | s :: rest => (b.snprintf s).bind fun b' => b'.snprintfAll rest

/-- The block holds `s`, and is not longer than a `size_t` can say. -/
structure Holds (b : OutBuf) (s : List UInt8) : Prop where
  len : b.len = s.length
  mem : b.mem.take s.length = s
  room : s.length < b.mem.length
  small : b.mem.length < 2 ^ 64

/-- The bound that the next call is given. -/
theorem Holds.bound {b : OutBuf} {s : List UInt8} (h : b.Holds s) :
    sizeSub b.mem.length b.len = b.mem.length - s.length := by
  have hroom := h.room
  rw [h.len]
  exact sizeSub_of_le (by omega) h.small

theorem new_holds (fill : Nat → UInt8) {size : Nat} (h0 : 0 < size) (h : size < 2 ^ 64) :
    (new fill size).Holds [] :=
  ⟨rfl, rfl, by simpa [new] using h0, by simpa [new] using h⟩

/-- A block that holds `s` and a terminator is the C string `s`. -/
theorem Holds.upToNul {b : OutBuf} {s : List UInt8} (h : b.Holds s) (hz : b.mem[s.length]? = some 0) (hs : 0 ∉ s) :
    upToNul b.mem = s := by
  obtain ⟨hlt, hget⟩ := List.getElem?_eq_some_iff.1 hz
  have hmem : b.mem = s ++ 0 :: b.mem.drop (s.length + 1) := by
    conv_lhs => rw [← List.take_append_drop s.length b.mem, h.mem, List.drop_eq_getElem_cons hlt, hget]
  rw [hmem]
  exact upToNul_append_nul hs

/-- The call made from a block that holds `s`. -/
def nextCall (b : OutBuf) (s t : List UInt8) : SnprintfCall := ⟨s.length, b.mem.length - s.length, t.length⟩

/-- One call with enough room appends its piece and the terminator. -/
theorem snprintf_spec {b : OutBuf} {s t : List UInt8} (h : b.Holds s) (ht : t.length ≤ intMax)
    (hroom : s.length + t.length < b.mem.length) :
    ∃ b', b.snprintf t = some b' ∧ b'.Holds (s ++ t) ∧ b'.mem.length = b.mem.length ∧
      b'.mem[(s ++ t).length]? = some 0 ∧ b'.calls = b.calls ++ [b.nextCall s t] := by
  have hsmall := h.small
  have hlen := h.len
  have hbound := h.bound
  have hne : b.mem.length - s.length ≠ 0 := by omega
  have htake : t.take (b.mem.length - s.length - 1) = t := List.take_of_length_le (by omega)
  have hret : sizeAdd b.len (snprintfRet t) = (s ++ t).length := by
    simp only [sizeAdd, snprintfRet, ht, ite_true, hlen, List.length_append]
    omega
  have hpre : b.mem.take b.len = s := by rw [hlen]; exact h.mem
  have hfit : b.len + (t ++ [0]).length ≤ b.mem.length := by simp [hlen]; omega
  refine ⟨⟨s ++ (t ++ [0]) ++ b.mem.drop (b.len + (t ++ [0]).length), (s ++ t).length,
    b.calls ++ [b.nextCall s t]⟩, ?_, ⟨rfl, ?_, ?_, ?_⟩, ?_, ?_, rfl⟩
  · simp only [OutBuf.snprintf, hbound, hne, ite_false, htake, hfit, ite_true, hpre, hret, nextCall]
    simp [hlen]
  · rw [← List.append_assoc, List.append_assoc, List.take_left]
  · simp
  · simp [hlen]; omega
  · simp [hlen]; omega
  · have e : s ++ (t ++ [0]) ++ b.mem.drop (b.len + (t ++ [0]).length) =
        (s ++ t) ++ 0 :: b.mem.drop (b.len + (t ++ [0]).length) := by simp
    rw [e, List.getElem?_append_right (Nat.le_refl _)]
    simp

/-- The bounds a chain passes are exact: each is the rest of the block, and leaves room for its piece. -/
def CallsFit (size : Nat) (calls : List SnprintfCall) : Prop :=
  ∀ c ∈ calls, c.Complete ∧ c.off ≤ size ∧ c.bound = size - c.off

theorem callsFit_append {size : Nat} {calls : List SnprintfCall} {c : SnprintfCall} (h : CallsFit size calls)
    (hc : c.Complete ∧ c.off ≤ size ∧ c.bound = size - c.off) : CallsFit size (calls ++ [c]) := by
  intro d hd
  rcases List.mem_append.1 hd with hd | hd
  · exact h d hd
  · rw [List.mem_singleton.1 hd]; exact hc

theorem nextCall_fits {b : OutBuf} {s t : List UInt8} (ht : t.length ≤ intMax)
    (hroom : s.length + t.length < b.mem.length) :
    (b.nextCall s t).Complete ∧ (b.nextCall s t).off ≤ b.mem.length ∧
      (b.nextCall s t).bound = b.mem.length - (b.nextCall s t).off := by
  refine ⟨⟨ht, ?_⟩, ?_, rfl⟩ <;> simp only [nextCall] <;> omega

/-- A chain whose pieces fit in the block writes all of them. -/
theorem snprintfAll_spec {pieces : List (List UInt8)} {b : OutBuf} {s : List UInt8} (h : b.Holds s)
    (hint : ∀ t ∈ pieces, t.length ≤ intMax) (hroom : (s ++ pieces.flatten).length < b.mem.length)
    (hcalls : CallsFit b.mem.length b.calls) (hne : pieces ≠ []) :
    ∃ b', b.snprintfAll pieces = some b' ∧ b'.Holds (s ++ pieces.flatten) ∧ b'.mem.length = b.mem.length ∧
      b'.mem[(s ++ pieces.flatten).length]? = some 0 ∧ CallsFit b.mem.length b'.calls := by
  induction pieces generalizing b s with
  | nil => exact absurd rfl hne
  | cons t rest ih =>
    simp only [List.flatten_cons, List.length_append] at hroom
    obtain ⟨b₁, hb₁, h₁, hl₁, hz₁, hc₁⟩ := snprintf_spec (t := t) h (hint t (by simp)) (by omega)
    have hfit₁ : CallsFit b₁.mem.length b₁.calls := by
      rw [hc₁, hl₁]
      exact callsFit_append hcalls (nextCall_fits (hint t (by simp)) (by omega))
    rcases rest with _ | ⟨t', rest⟩
    · rw [hl₁] at hfit₁
      exact ⟨b₁, by simp [snprintfAll, hb₁], by simpa using h₁, hl₁, by simpa using hz₁, hfit₁⟩
    · obtain ⟨b', hb', h', hl', hz', hc'⟩ := ih h₁ (fun u hu => hint u (by simp [hu]))
        (by simp only [List.length_append]; omega) hfit₁ (by simp)
      rw [hl₁] at hc'
      refine ⟨b', ?_, ?_, hl'.trans hl₁, ?_, hc'⟩
      · rw [snprintfAll, hb₁, Option.bind_some]; exact hb'
      · simpa using h'
      · simpa using hz'

/-- The same without a record of the calls before. -/
theorem snprintfAll_holds {pieces : List (List UInt8)} {b : OutBuf} {s : List UInt8} (h : b.Holds s)
    (hint : ∀ t ∈ pieces, t.length ≤ intMax) (hroom : (s ++ pieces.flatten).length < b.mem.length) :
    ∃ b', b.snprintfAll pieces = some b' ∧ b'.Holds (s ++ pieces.flatten) ∧ b'.mem.length = b.mem.length := by
  induction pieces generalizing b s with
  | nil => exact ⟨b, rfl, by simpa using h, rfl⟩
  | cons t rest ih =>
    simp only [List.flatten_cons, List.length_append] at hroom
    obtain ⟨b₁, hb₁, h₁, hl₁, -, -⟩ := snprintf_spec (t := t) h (hint t (by simp)) (by omega)
    obtain ⟨b', hb', h', hl'⟩ := ih h₁ (fun u hu => hint u (by simp [hu]))
      (by simp only [List.length_append]; omega)
    refine ⟨b', ?_, by simpa using h', hl'.trans hl₁⟩
    rw [snprintfAll, hb₁, Option.bind_some]
    exact hb'

/-- What a call that stays in the block records. -/
theorem calls_of_snprintf {b b' : OutBuf} {t : List UInt8} (h : b.snprintf t = some b') :
    b'.calls = b.calls ++ [⟨b.len, sizeSub b.mem.length b.len, t.length⟩] := by
  unfold OutBuf.snprintf at h
  have hb' := Option.some.inj (Option.ite_none_right_eq_some.1 h).2
  rw [← hb']

/-- Every call a chain makes stays in its record. -/
theorem calls_subset_snprintfAll {pieces : List (List UInt8)} {b b' : OutBuf}
    (h : b.snprintfAll pieces = some b') : ∀ c ∈ b.calls, c ∈ b'.calls := by
  induction pieces generalizing b with
  | nil => intro c hc; cases h; exact hc
  | cons t rest ih =>
    obtain ⟨b₁, hb₁, hrest⟩ := Option.bind_eq_some_iff.1 h
    intro c hc
    apply ih hrest
    rw [calls_of_snprintf hb₁]
    exact List.mem_append_left _ hc

/-- A piece longer than an `int` can say leaves a call that is not complete. -/
theorem exists_incomplete_of_long {pieces : List (List UInt8)} {b b' : OutBuf}
    (h : b.snprintfAll pieces = some b') {t : List UInt8} (ht : t ∈ pieces) (hlong : intMax < t.length) :
    ∃ c ∈ b'.calls, ¬ c.Complete := by
  induction pieces generalizing b with
  | nil => cases ht
  | cons u rest ih =>
    obtain ⟨b₁, hb₁, hrest⟩ := Option.bind_eq_some_iff.1 h
    rcases List.mem_cons.1 ht with rfl | ht
    · have hmem : ⟨b.len, sizeSub b.mem.length b.len, t.length⟩ ∈ b₁.calls := by
        rw [calls_of_snprintf hb₁]
        exact List.mem_append_right _ (by simp)
      exact ⟨_, calls_subset_snprintfAll hrest _ hmem, fun hc => Nat.not_lt.2 hc.1 hlong⟩
    · exact ih hrest ht

/-! ### Chains that do not fit -/

theorem snprintfAll_append (b : OutBuf) (pieces rest : List (List UInt8)) :
    b.snprintfAll (pieces ++ rest) = (b.snprintfAll pieces).bind fun b' => b'.snprintfAll rest := by
  induction pieces generalizing b with
  | nil => rfl
  | cons t pieces ih =>
    rw [List.cons_append, snprintfAll, snprintfAll, Option.bind_assoc]
    exact congrArg _ (funext ih)

/-- The length has reached the end of the block, which ends with a terminator. -/
structure Full (b : OutBuf) : Prop where
  len : b.mem.length ≤ b.len
  last : b.mem.getLast? = some 0
  small : b.mem.length + intMax < 2 ^ 64

/-- The terminator of a full block is among the bytes that its length counts. -/
theorem Full.zero_mem {b : OutBuf} (h : b.Full) : 0 ∈ b.mem.take b.len := by
  rw [List.take_of_length_le h.len]
  exact List.mem_of_getLast? h.last

/-- A call without enough room is cut, and fills the block. -/
theorem snprintf_overflow {b : OutBuf} {s t : List UInt8} (h : b.Holds s) (ht : t.length ≤ intMax)
    (hsmall : b.mem.length + intMax < 2 ^ 64) (hover : b.mem.length ≤ s.length + t.length) :
    ∃ b', b.snprintf t = some b' ∧ b'.Full := by
  have hroom := h.room
  have hlen := h.len
  have hbound := h.bound
  have hne : b.mem.length - s.length ≠ 0 := by omega
  have htake : (t.take (b.mem.length - s.length - 1)).length = b.mem.length - s.length - 1 := by
    rw [List.length_take]
    omega
  have hfit : b.len + (t.take (b.mem.length - s.length - 1) ++ [0]).length = b.mem.length := by
    rw [List.length_append, htake, List.length_singleton]
    omega
  have hret : sizeAdd b.len (snprintfRet t) = s.length + t.length := by
    simp only [sizeAdd, snprintfRet, ht, ite_true, hlen]
    omega
  have hmem : (b.mem.take b.len ++ (t.take (b.mem.length - s.length - 1) ++ [0]) ++
      b.mem.drop b.mem.length).length = b.mem.length := by
    simp only [List.length_append, List.length_take, List.length_drop, List.length_singleton, List.length_take] at hfit ⊢
    omega
  refine ⟨⟨b.mem.take b.len ++ (t.take (b.mem.length - s.length - 1) ++ [0]) ++ b.mem.drop b.mem.length,
    s.length + t.length, b.calls ++ [⟨b.len, b.mem.length - s.length, t.length⟩]⟩, ?_, ?_, ?_, ?_⟩
  · simp only [OutBuf.snprintf, hbound, hne, ite_false, hfit, le_refl, ite_true, hret]
  · rw [hmem]
    exact hover
  · simp
  · rw [hmem]
    exact hsmall

/-- A call on a full block writes behind its end, or nothing. -/
theorem Full.snprintf {b : OutBuf} (h : b.Full) {t : List UInt8} (ht : t.length ≤ intMax) :
    b.snprintf t = none ∨ ∃ b', b.snprintf t = some b' ∧ b'.Full := by
  have hsmall := h.small
  have hlen := h.len
  rcases Nat.lt_or_eq_of_le hlen with hlt | heq
  · left
    unfold OutBuf.snprintf
    apply if_neg
    split <;> simp only [List.length_append, List.length_nil, List.length_singleton] <;> omega
  · right
    have hbound : sizeSub b.mem.length b.len = 0 := by
      rw [sizeSub_of_le heq.ge (by omega)]
      omega
    have hret : sizeAdd b.len (snprintfRet t) = b.len + t.length := by
      simp only [sizeAdd, snprintfRet, ht, ite_true]
      omega
    have hmem : b.mem.take b.len ++ [] ++ b.mem.drop (b.len + ([] : List UInt8).length) = b.mem := by simp
    refine ⟨⟨b.mem, b.len + t.length, b.calls ++ [⟨b.len, 0, t.length⟩]⟩, ?_, ?_, h.last, hsmall⟩
    · simp only [OutBuf.snprintf, hbound, ite_true, hmem, hret]
      exact if_pos heq.ge
    · show b.mem.length ≤ b.len + t.length
      omega

theorem Full.snprintfAll {pieces : List (List UInt8)} {b : OutBuf} (h : b.Full)
    (hint : ∀ t ∈ pieces, t.length ≤ intMax) :
    b.snprintfAll pieces = none ∨ ∃ b', b.snprintfAll pieces = some b' ∧ b'.Full := by
  induction pieces generalizing b with
  | nil => exact Or.inr ⟨b, rfl, h⟩
  | cons t rest ih =>
    rcases h.snprintf (hint t (by simp)) with hnone | ⟨b₁, hb₁, h₁⟩
    · left
      rw [OutBuf.snprintfAll, hnone, Option.bind_none]
    · rw [OutBuf.snprintfAll, hb₁, Option.bind_some]
      exact ih h₁ fun u hu => hint u (by simp [hu])

/-- A chain whose pieces do not fit in the block writes behind its end, or leaves a full block. -/
theorem snprintfAll_overflow {pieces : List (List UInt8)} {b : OutBuf} {s : List UInt8} (h : b.Holds s)
    (hint : ∀ t ∈ pieces, t.length ≤ intMax) (hsmall : b.mem.length + intMax < 2 ^ 64)
    (hover : b.mem.length ≤ (s ++ pieces.flatten).length) :
    b.snprintfAll pieces = none ∨ ∃ b', b.snprintfAll pieces = some b' ∧ b'.Full := by
  induction pieces generalizing b s with
  | nil =>
    have hroom := h.room
    simp only [List.flatten_nil, List.append_nil] at hover
    omega
  | cons t rest ih =>
    simp only [List.flatten_cons, List.length_append] at hover
    have ht := hint t (by simp)
    have hrest : ∀ u ∈ rest, u.length ≤ intMax := fun u hu => hint u (by simp [hu])
    by_cases hroom : s.length + t.length < b.mem.length
    · obtain ⟨b₁, hb₁, h₁, hl₁, -, -⟩ := snprintf_spec h ht hroom
      rw [OutBuf.snprintfAll, hb₁, Option.bind_some]
      apply ih h₁ hrest
      · rw [hl₁]
        exact hsmall
      · rw [hl₁]
        simp only [List.length_append]
        omega
    · obtain ⟨b₁, hb₁, h₁⟩ := snprintf_overflow h ht hsmall (by omega)
      rw [OutBuf.snprintfAll, hb₁, Option.bind_some]
      exact h₁.snprintfAll hrest

/-- A piece longer than an `int` can say takes the last character of the block back. -/
theorem snprintf_long {b : OutBuf} {s t : List UInt8} (h : b.Holds s) (hs : s ≠ []) (ht : intMax < t.length) :
    ∃ b', b.snprintf t = some b' ∧ b'.Holds s.dropLast ∧ b'.mem.length = b.mem.length := by
  have hroom := h.room
  have hlen := h.len
  have hpos : 0 < s.length := List.length_pos_of_ne_nil hs
  have hbound := h.bound
  have hne : b.mem.length - s.length ≠ 0 := by omega
  obtain ⟨written, hwritten⟩ : ∃ written : List UInt8, written = t.take (b.mem.length - s.length - 1) ++ [0] := ⟨_, rfl⟩
  have hfit : written.length ≤ b.mem.length - s.length := by
    rw [hwritten, List.length_append, List.length_take, List.length_singleton]
    omega
  have hret : sizeAdd b.len (snprintfRet t) = s.dropLast.length := by
    have hnot : ¬ t.length ≤ intMax := by omega
    have hsmall := h.small
    simp only [sizeAdd, snprintfRet, hnot, ite_false, hlen, List.length_dropLast]
    omega
  have hpre : b.mem.take b.len = s := by
    rw [hlen]
    exact h.mem
  have hmem : (s ++ written ++ b.mem.drop (b.len + written.length)).length = b.mem.length := by
    simp only [List.length_append, List.length_drop]
    omega
  refine ⟨⟨s ++ written ++ b.mem.drop (b.len + written.length), s.dropLast.length,
    b.calls ++ [⟨b.len, b.mem.length - s.length, t.length⟩]⟩, ?_, ⟨rfl, ?_, ?_, ?_⟩, hmem⟩
  · simp only [OutBuf.snprintf, hbound, hne, ite_false, ← hwritten, hpre, hret]
    apply if_pos
    omega
  · rw [List.length_dropLast, List.append_assoc, List.take_append_of_le_length (by omega), ← List.dropLast_eq_take]
  · rw [hmem, List.length_dropLast]
    omega
  · rw [hmem]
    exact h.small

end OutBuf

end CLib
