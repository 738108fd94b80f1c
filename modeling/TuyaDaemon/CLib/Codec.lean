import TuyaDaemon.CLib.Varint

/-!
# Codes for bytes

A `PrefixCode` decodes a value in front of other bytes, a `Code` one that takes all of them.  Both carry their round
trip in both directions: what is decoded is exactly what `encode` writes.  The codes of parts make the code of a whole:
one value behind another (`pair`, `before`), data behind its length (`lengthPrefixed`), values until the bytes end (`many`).
-/

namespace CLib

/-- A value in front of other bytes. -/
structure PrefixCode (α : Type) where
  encode : α → List UInt8
  decode : List UInt8 → Option (α × List UInt8)
  decode_eq_some_iff : ∀ bs a rest, decode bs = some (a, rest) ↔ bs = encode a ++ rest

/-- A value that takes all of the bytes. -/
structure Code (α : Type) where
  encode : α → List UInt8
  decode : List UInt8 → Option α
  decode_eq_some_iff : ∀ bs a, decode bs = some a ↔ bs = encode a

@[simp] theorem PrefixCode.decode_encode {α : Type} (c : PrefixCode α) (a : α) (rest : List UInt8) :
    c.decode (c.encode a ++ rest) = some (a, rest) :=
  (c.decode_eq_some_iff _ a rest).2 rfl

@[simp] theorem Code.decode_encode {α : Type} (c : Code α) (a : α) : c.decode (c.encode a) = some a :=
  (c.decode_eq_some_iff _ a).2 rfl

/-! ### Bytes and words -/

namespace PrefixCode

def byte : PrefixCode UInt8 where
  encode b := [b]
  decode
    | [] => none
    | b :: rest => some (b, rest)
  decode_eq_some_iff bs a rest := by
    cases bs with
    | nil => simp
    | cons b bs => simp

/-- The high byte comes first. -/
def wordBytes (x : UInt16) : List UInt8 := [(x >>> 8).toUInt8, x.toUInt8]

def wordOf (high low : UInt8) : UInt16 := (high.toUInt16 <<< 8) ||| low.toUInt16

theorem toNat_wordOf (high low : UInt8) : (wordOf high low).toNat = high.toNat * 256 + low.toNat := by
  have hhigh := high.toNat_lt
  have hlow := low.toNat_lt
  have hshift : high.toNat <<< 8 = 2 ^ 8 * high.toNat := by rw [Nat.shiftLeft_eq, Nat.mul_comm]
  simp only [wordOf, UInt16.toNat_or, UInt16.toNat_shiftLeft, UInt8.toNat_toUInt16, UInt16.reduceToNat]
  rw [hshift, Nat.mod_eq_of_lt (by omega), ← Nat.two_pow_add_eq_or_of_lt hlow]
  omega

theorem wordBytes_wordOf (high low : UInt8) : wordBytes (wordOf high low) = [high, low] := by
  have hhigh := high.toNat_lt
  have hlow := low.toNat_lt
  have hword := toNat_wordOf high low
  have h1 : (wordOf high low >>> 8).toUInt8 = high := by
    apply UInt8.toNat.inj
    simp only [UInt16.toNat_toUInt8, UInt16.toNat_shiftRight, UInt16.reduceToNat, hword, Nat.shiftRight_eq_div_pow,
      Nat.reduceMod, Nat.reducePow]
    omega
  have h2 : (wordOf high low).toUInt8 = low := by
    apply UInt8.toNat.inj
    rw [UInt16.toNat_toUInt8, hword]
    omega
  rw [wordBytes, h1, h2]

theorem wordOf_wordBytes (x : UInt16) : wordOf (x >>> 8).toUInt8 x.toUInt8 = x := by
  have hx := x.toNat_lt
  apply UInt16.toNat.inj
  simp only [toNat_wordOf, UInt16.toNat_toUInt8, UInt16.toNat_shiftRight, UInt16.reduceToNat,
    Nat.shiftRight_eq_div_pow, Nat.reduceMod, Nat.reducePow]
  omega

def uint16 : PrefixCode UInt16 where
  encode := wordBytes
  decode
    | high :: low :: rest => some (wordOf high low, rest)
    | _ => none
  decode_eq_some_iff bs a rest := by
    match bs with
    | [] => simp [wordBytes]
    | [_] => simp [wordBytes]
    | high :: low :: tail =>
      simp only [Option.some.injEq, Prod.mk.injEq]
      constructor
      · rintro ⟨rfl, rfl⟩
        rw [wordBytes_wordOf]
        rfl
      · intro h
        obtain ⟨rfl, htail⟩ := List.cons.inj h
        obtain ⟨rfl, rfl⟩ := List.cons.inj htail
        exact ⟨wordOf_wordBytes a, rfl⟩

/-! ### Codes from codes -/

variable {α β : Type}

/-- Another type for the same bytes, or for some of them. -/
def via (c : PrefixCode α) (inj : β → α) (of : α → Option β) (h : ∀ a b, of a = some b ↔ a = inj b) : PrefixCode β where
  encode b := c.encode (inj b)
  decode bs :=
    match c.decode bs with
    | none => none
    | some (a, rest) => (of a).map (·, rest)
  decode_eq_some_iff bs b rest := by
    rw [← c.decode_eq_some_iff bs (inj b) rest]
    cases c.decode bs with
    | none => simp
    | some p => simp [Option.map_eq_some_iff, h, Prod.ext_iff]

/-- One value behind another. -/
def pair (c : PrefixCode α) (d : PrefixCode β) : PrefixCode (α × β) where
  encode p := c.encode p.1 ++ d.encode p.2
  decode bs :=
    match c.decode bs with
    | none => none
    | some (a, bs) => (d.decode bs).map fun p => ((a, p.1), p.2)
  decode_eq_some_iff bs p rest := by
    rw [List.append_assoc, ← c.decode_eq_some_iff bs p.1 (d.encode p.2 ++ rest)]
    cases c.decode bs with
    | none => simp
    | some q =>
      obtain ⟨a, bs⟩ := q
      obtain ⟨a', b'⟩ := p
      simp only [Option.map_eq_some_iff, Prod.exists, Prod.mk.injEq, d.decode_eq_some_iff, Option.some.injEq]
      constructor
      · rintro ⟨b, rest, rfl, ⟨rfl, rfl⟩, rfl⟩
        exact ⟨rfl, rfl⟩
      · rintro ⟨rfl, rfl⟩
        exact ⟨b', rest, rfl, ⟨rfl, rfl⟩, rfl⟩

/-- Data behind its length. -/
def lengthPrefixed {n : Nat} (c : PrefixCode (Fin n)) : PrefixCode {l : List UInt8 // l.length < n} where
  encode l := c.encode ⟨l.1.length, l.2⟩ ++ l.1
  decode bs :=
    match c.decode bs with
    | none => none
    | some (k, bs) =>
      if h : k ≤ bs.length then
        some (⟨bs.take k, (List.length_take_of_le h).symm ▸ k.2⟩, bs.drop k)
      else none
  decode_eq_some_iff bs l rest := by
    rw [List.append_assoc, ← c.decode_eq_some_iff bs _ (l.1 ++ rest)]
    cases c.decode bs with
    | none => simp
    | some q =>
      obtain ⟨k, bs⟩ := q
      obtain ⟨l, hl⟩ := l
      simp only [Option.some.injEq, Prod.mk.injEq]
      constructor
      · intro h
        split at h
        · rename_i hle
          obtain ⟨hl, rfl⟩ := Prod.mk.inj (Option.some.inj h)
          obtain rfl := Subtype.mk.inj hl
          exact ⟨Fin.ext (List.length_take_of_le hle).symm, (List.take_append_drop _ _).symm⟩
        · cases h
      · rintro ⟨rfl, rfl⟩
        rw [dif_pos (by rw [List.length_append]; exact Nat.le_add_right _ _)]
        simp only [List.take_left, List.drop_left]

/-- The shortest encodings of so many bytes at most. -/
def ofVarint (left : Nat) (hleft : 0 < left) : PrefixCode (Fin (128 ^ left)) where
  encode n := varint n
  decode bs :=
    match varintFrom left 1 0 bs with
    | none => none
    | some (n, rest) =>
      if h : n < 128 ^ left ∧ bs.length = (varint n).length + rest.length then some (⟨n, h.1⟩, rest) else none
  decode_eq_some_iff bs n rest := by
    constructor
    · intro h
      split at h
      · cases h
      · rename_i m rest' hdecode
        split at h
        · rename_i hshortest
          obtain ⟨rfl, rfl⟩ := Prod.mk.inj (Option.some.inj h)
          obtain ⟨front, m', rfl, hm, -, -, hfront⟩ := varintFrom_sound hdecode
          rw [Nat.mul_one, Nat.zero_add] at hm
          subst hm
          rw [List.length_append] at hshortest
          rw [← hfront (by omega)]
        · cases h
    · rintro rfl
      rw [varintFrom_varint hleft n.2]
      simp only [Nat.mul_one, Nat.zero_add, List.length_append]
      rw [dif_pos ⟨n.2, trivial⟩]

/-! ### All of the bytes -/

/-- Nothing is behind the value. -/
def alone (c : PrefixCode α) : Code α where
  encode := c.encode
  decode bs :=
    match c.decode bs with
    | some (a, []) => some a
    | _ => none
  decode_eq_some_iff bs a := by
    have h := c.decode_eq_some_iff bs a []
    rw [List.append_nil] at h
    rw [← h]
    split
    · rename_i b heq
      simp [heq]
    · rename_i hne
      refine iff_of_false (Option.some_ne_none a).symm fun heq => ?_
      exact hne a heq

/-- A value in front of the code of the others. -/
def before (c : PrefixCode α) (d : Code β) : Code (α × β) where
  encode p := c.encode p.1 ++ d.encode p.2
  decode bs :=
    match c.decode bs with
    | none => none
    | some (a, bs) => (d.decode bs).map (a, ·)
  decode_eq_some_iff bs p := by
    rw [← c.decode_eq_some_iff bs p.1 (d.encode p.2)]
    cases c.decode bs with
    | none => simp
    | some q =>
      obtain ⟨a, bs⟩ := q
      obtain ⟨a', b'⟩ := p
      simp only [Option.map_eq_some_iff, Prod.mk.injEq, d.decode_eq_some_iff, Option.some.injEq]
      constructor
      · rintro ⟨b, rfl, rfl, rfl⟩
        exact ⟨rfl, rfl⟩
      · rintro ⟨rfl, rfl⟩
        exact ⟨b', rfl, rfl, rfl⟩

/-- Values until the bytes end. -/
def manyFrom (c : PrefixCode α) : Nat → List UInt8 → Option (List α)
  | _, [] => some []
  | 0, _ :: _ => none
  | fuel + 1, b :: bs =>
    match c.decode (b :: bs) with
    | none => none
    | some (a, rest) => (manyFrom c fuel rest).map (a :: ·)

theorem manyFrom_eq_some_iff (c : PrefixCode α) (hne : ∀ a, c.encode a ≠ []) {fuel : Nat} {bs : List UInt8}
    (hfuel : bs.length ≤ fuel) (as : List α) : manyFrom c fuel bs = some as ↔ bs = as.flatMap c.encode := by
  induction fuel generalizing bs as with
  | zero =>
    obtain rfl := List.length_eq_zero_iff.1 (Nat.le_zero.1 hfuel)
    cases as with
    | nil => exact iff_of_true rfl rfl
    | cons a as =>
      refine iff_of_false (fun h => List.cons_ne_nil a as (Option.some.inj h).symm) fun h => ?_
      exact hne a (List.append_eq_nil_iff.1 h.symm).1
  | succ fuel ih =>
    cases bs with
    | nil =>
      cases as with
      | nil => exact iff_of_true rfl rfl
      | cons a as =>
        refine iff_of_false (fun h => List.cons_ne_nil a as (Option.some.inj h).symm) fun h => ?_
        exact hne a (List.append_eq_nil_iff.1 h.symm).1
    | cons b bs =>
      rw [manyFrom]
      constructor
      · intro h
        split at h
        · cases h
        · rename_i a rest hdecode
          obtain ⟨as, has, rfl⟩ := Option.map_eq_some_iff.1 h
          have hbytes := (c.decode_eq_some_iff _ _ _).1 hdecode
          have hpos := List.length_pos_iff.2 (hne a)
          have hlength := congrArg List.length hbytes
          rw [List.length_append] at hlength
          rw [hbytes, (ih (by omega) as).1 has, List.flatMap_cons]
      · intro h
        cases as with
        | nil => exact absurd h (List.cons_ne_nil b bs)
        | cons a as =>
          rw [List.flatMap_cons] at h
          have hpos := List.length_pos_iff.2 (hne a)
          have hlength := congrArg List.length h
          rw [List.length_append] at hlength
          rw [(c.decode_eq_some_iff _ _ _).2 h]
          simp only [(ih (by omega) as).2 rfl, Option.map_some]

def many (c : PrefixCode α) (hne : ∀ a, c.encode a ≠ []) : Code (List α) where
  encode as := as.flatMap c.encode
  decode bs := manyFrom c bs.length bs
  decode_eq_some_iff _ as := manyFrom_eq_some_iff c hne (Nat.le_refl _) as

end PrefixCode

end CLib
