import TuyaDaemon.CLib.Strings

/-!
# `sprintf` into arrays

`sprintfAt mem off s` prints `s` and the terminator at position `off` of an array; a write behind the end is the
fault `overflow`.  A loop that prints one byte after the other with `%02x`, each call overwriting the terminator of
the one before, leaves the hexadecimal text of the bytes (`sprintfHex_spec`).
-/

namespace CLib

/-- What an access outside an array is. -/
inductive Fault where
  | overflow
  | outOfBounds
deriving DecidableEq, Repr

def sprintfAt (mem : List UInt8) (off : Nat) (s : List UInt8) : Except Fault (List UInt8) :=
  if off + s.length + 1 ≤ mem.length then
    .ok (mem.take off ++ (s ++ 0 :: mem.drop (off + s.length + 1)))
  else .error .overflow

/-- A lowercase hexadecimal digit. -/
def hexDigit (n : Nat) : UInt8 := UInt8.ofNat (if n < 10 then 48 + n else 87 + n)

/-- `%02x` of a byte. -/
def hexByte (b : UInt8) : List UInt8 := [hexDigit (b.toNat / 16), hexDigit (b.toNat % 16)]

def hexText (bs : List UInt8) : List UInt8 := bs.flatMap hexByte

/-- `sprintf(mem + 2*i, "%02x", bs[i])` for each byte, from the index `i` on. -/
def sprintfHex (mem : List UInt8) (i : Nat) : List UInt8 → Except Fault (List UInt8)
  | [] => .ok mem
  | b :: bs => do
    let mem ← sprintfAt mem (2 * i) (hexByte b)
    sprintfHex mem (i + 1) bs

theorem sprintfAt_ok (mem : List UInt8) (off : Nat) {s : List UInt8} (h : off + s.length + 1 ≤ mem.length) :
    sprintfAt mem off s = .ok (mem.take off ++ (s ++ 0 :: mem.drop (off + s.length + 1))) :=
  if_pos h

theorem sprintfAt_overflow {mem s : List UInt8} {off : Nat} (h : mem.length < off + s.length + 1) :
    sprintfAt mem off s = .error .overflow :=
  if_neg (by omega)

/-- A print at the start of an array that has room for it. -/
theorem sprintfAt_start (mem : List UInt8) {s : List UInt8} (h : s.length < mem.length) :
    ∃ rest, sprintfAt mem 0 s = .ok (s ++ 0 :: rest) :=
  ⟨mem.drop (0 + s.length + 1), by rw [sprintfAt_ok mem 0 (by omega), List.take_zero, List.nil_append]⟩

@[simp] theorem ok_bind {α β : Type} (a : α) (f : α → Except Fault β) : (Except.ok a >>= f) = f a := rfl

@[simp] theorem error_bind {α β : Type} (e : Fault) (f : α → Except Fault β) :
    ((Except.error e : Except Fault α) >>= f) = .error e := rfl

/-- A computation that succeeds has succeeded in its first step. -/
theorem exists_of_bind_eq_ok {α β : Type} {x : Except Fault α} {f : α → Except Fault β} {r : β}
    (h : (x >>= f) = .ok r) : ∃ a, x = .ok a ∧ f a = .ok r := by
  cases x with
  | error e => cases h
  | ok a => exact ⟨a, rfl, h⟩

/-! ### Hexadecimal text -/

private theorem toNat_hexDigit {n : Nat} (h : n < 16) :
    (hexDigit n).toNat = if n < 10 then 48 + n else 87 + n := by
  unfold hexDigit
  split <;> simp <;> omega

private theorem hexDigit_injective {m n : Nat} (hm : m < 16) (hn : n < 16) (h : hexDigit m = hexDigit n) : m = n := by
  have := congrArg UInt8.toNat h
  rw [toNat_hexDigit hm, toNat_hexDigit hn] at this
  split at this <;> split at this <;> omega

theorem hexByte_injective {a b : UInt8} (h : hexByte a = hexByte b) : a = b := by
  have ha := a.toNat_lt
  have hb := b.toNat_lt
  simp only [hexByte, List.cons.injEq, and_true] at h
  have h₁ := hexDigit_injective (by omega) (by omega) h.1
  have h₂ := hexDigit_injective (by omega) (by omega) h.2
  apply UInt8.toNat_inj.1
  omega

theorem hexText_noNul (bs : List UInt8) : 0 ∉ hexText bs := by
  intro h
  obtain ⟨b, -, hb⟩ := List.mem_flatMap.1 h
  have hlt := b.toNat_lt
  have hne : ∀ n < 16, (0 : UInt8) ≠ hexDigit n := by
    intro n hn h0
    have := congrArg UInt8.toNat h0
    rw [toNat_hexDigit hn] at this
    simp only [UInt8.toNat_zero] at this
    split at this <;> omega
  simp only [hexByte, List.mem_cons, List.not_mem_nil, or_false] at hb
  rcases hb with h0 | h0
  · exact hne _ (by omega) h0
  · exact hne _ (by omega) h0

theorem length_hexText (bs : List UInt8) : (hexText bs).length = 2 * bs.length := by
  induction bs with
  | nil => rfl
  | cons b bs ih =>
    simp only [hexText, List.flatMap_cons, List.length_append, List.length_cons] at ih ⊢
    rw [ih]
    simp only [hexByte, List.length_cons, List.length_nil]
    omega

theorem hexText_injective {as bs : List UInt8} (h : hexText as = hexText bs) : as = bs := by
  induction as generalizing bs with
  | nil =>
    have := length_hexText bs
    rw [← h] at this
    have hzero : bs.length = 0 := by
      have h0 : (hexText []).length = 0 := rfl
      omega
    exact (List.length_eq_zero_iff.1 hzero).symm
  | cons a as ih =>
    cases bs with
    | nil =>
      have := length_hexText (a :: as)
      rw [h] at this
      simp [hexText] at this
    | cons b bs =>
      simp only [hexText, List.flatMap_cons] at h
      obtain ⟨h₁, h₂⟩ := List.append_inj h rfl
      rw [hexByte_injective h₁, ih h₂]

/-- The loop keeps what stands before its first position, and ends with a terminator behind its text. -/
theorem sprintfHex_spec {bs : List UInt8} (hne : bs ≠ []) (mem : List UInt8) (i : Nat)
    (h : 2 * (i + bs.length) + 1 ≤ mem.length) :
    ∃ rest, sprintfHex mem i bs = .ok (mem.take (2 * i) ++ (hexText bs ++ 0 :: rest)) := by
  induction bs generalizing mem i with
  | nil => exact absurd rfl hne
  | cons b bs ih =>
    have hb : (hexByte b).length = 2 := rfl
    simp only [List.length_cons] at h
    have hstep := sprintfAt_ok mem (2 * i) (s := hexByte b) (by omega)
    simp only [sprintfHex, hstep]
    rcases bs with _ | ⟨b', bs⟩
    · refine ⟨mem.drop (2 * i + (hexByte b).length + 1), ?_⟩
      show Except.ok _ = _
      simp [hexText]
    · have hlen : (mem.take (2 * i) ++ (hexByte b ++ 0 :: mem.drop (2 * i + (hexByte b).length + 1))).length =
          mem.length := by
        simp only [List.length_append, List.length_take, List.length_cons, List.length_drop, hb]
        omega
      obtain ⟨rest, hrest⟩ := ih (by simp)
        (mem.take (2 * i) ++ (hexByte b ++ 0 :: mem.drop (2 * i + (hexByte b).length + 1))) (i + 1)
        (by rw [hlen]; simp only [List.length_cons] at h ⊢; omega)
      refine ⟨rest, ?_⟩
      show sprintfHex _ (i + 1) (b' :: bs) = _
      rw [hrest]
      -- the terminator of this call is overwritten by the next one
      have htake : (mem.take (2 * i) ++ (hexByte b ++ 0 :: mem.drop (2 * i + (hexByte b).length + 1))).take
          (2 * (i + 1)) = mem.take (2 * i) ++ hexByte b := by
        rw [← List.append_assoc]
        apply List.take_left'
        simp only [List.length_append, List.length_take, hb]
        omega
      rw [htake]
      simp [hexText]

theorem sprintfHex_start {bs : List UInt8} (hne : bs ≠ []) (mem : List UInt8) (h : 2 * bs.length + 1 ≤ mem.length) :
    ∃ rest, sprintfHex mem 0 bs = .ok (hexText bs ++ 0 :: rest) := by
  obtain ⟨rest, hrest⟩ := sprintfHex_spec hne mem 0 (by omega)
  exact ⟨rest, by rw [hrest, Nat.mul_zero, List.take_zero, List.nil_append]⟩

end CLib
