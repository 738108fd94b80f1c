import TuyaDaemon.CLib.Utf8
import TuyaDaemon.Json.Text

/-!
# Strings in coreJSON

The functions of `core_json.c` that move an index beyond a code point, an escape or a string.  A text stands for what is
ahead of the index, so an index at `max` is an empty text; a function that fails leaves the index where it is.  A `char`
is signed.  `skipUTF8_iff` and `skipString_iff` say exactly what is skipped.
-/

namespace Json.Core

open CLib

/-! ### UTF-8 -/

def countHighBitsFrom : Nat → UInt8 → Nat
  | 0, _ => 0
  | passes + 1, n => if n &&& 0x80 ≠ 0 then countHighBitsFrom passes ((n &&& 0x7F) <<< 1) + 1 else 0

/-- `countHighBits`; a byte has eight bits. -/
def countHighBits (c : UInt8) : Nat := countHighBitsFrom 8 c

/-- `shortestUTF8` -/
def shortestUTF8 (length : Nat) (value : UInt32) : Bool :=
  let (min, max) : UInt32 × UInt32 :=
    match length with
    | 2 => ((1 : UInt32) <<< 7, ((1 : UInt32) <<< 11) - 1)
    | 3 => ((1 : UInt32) <<< 11, ((1 : UInt32) <<< 16) - 1)
    | _ => ((1 : UInt32) <<< 16, 0x10FFFF)
  decide (min ≤ value ∧ value ≤ max ∧ (value < 0xD800 ∨ 0xDFFF < value))

/-- The loop over the bytes behind the first one of a code point; it breaks at a byte that is not `10xxxxxx`. -/
def trailingBytes : Nat → UInt32 → List UInt8 → Option (UInt32 × List UInt8)
  | 0, value, s => some (value, s)
  | _ + 1, _, [] => none
  | j + 1, value, c :: s =>
    if c &&& 0xC0 ≠ 0x80 then none else trailingBytes j (value <<< 6 ||| (c &&& 0x3F).toUInt32) s

/-- `skipUTF8MultiByte`, behind the first byte `c`. -/
def skipUTF8MultiByte (c : UInt8) (s : List UInt8) : Option (List UInt8) :=
  if 0xC1 < c ∧ c < 0xF5 then
    let bitCount := countHighBits c
    let value := c.toUInt32 &&& (((1 : UInt32) <<< (7 - UInt32.ofNat bitCount)) - 1)
    match trailingBytes (bitCount - 1) value s with
    | some (value, r) => if shortestUTF8 bitCount value then some r else none
    | none => none
  else none

/-- `skipUTF8` -/
def skipUTF8 : List UInt8 → Option (List UInt8)
  | [] => none
  | c :: s => if c < 0x80 then some s else skipUTF8MultiByte c s

set_option maxRecDepth 8000 in
private theorem trailing_facts : ∀ c : Fin 256, UInt8.ofNat c &&& 0xC0 = 0x80 →
    0x80 ≤ c.val ∧ c.val < 0xC0 ∧ (UInt8.ofNat c &&& 0x3F).toNat = c.val - 0x80 := by
  decide

private theorem trailingByte_facts : ∀ bits : Fin 64, trailingByte bits &&& 0xC0 = 0x80 ∧
    (trailingByte bits &&& 0x3F).toNat = bits := by
  decide

theorem exists_trailingByte {c : UInt8} (h : c &&& 0xC0 = 0x80) : ∃ bits, c = trailingByte bits := by
  obtain ⟨h₁, h₂, -⟩ := trailing_facts ⟨c.toNat, c.toNat_lt⟩ (by rwa [UInt8.ofNat_toNat])
  refine ⟨⟨c.toNat - 0x80, ?_⟩, ?_⟩
  · dsimp only at h₁ h₂
    omega
  · dsimp only at h₁
    rw [trailingByte, Nat.sub_add_cancel h₁, UInt8.ofNat_toNat]

/-- Six more bits. -/
theorem toNat_shift_or {value : UInt32} {bits : UInt8} (hvalue : value.toNat < 2 ^ 26) (hbits : bits.toNat < 64) :
    (value <<< 6 ||| bits.toUInt32).toNat = value.toNat * 64 + bits.toNat := by
  rw [UInt32.toNat_or, UInt32.toNat_shiftLeft, UInt8.toNat_toUInt32]
  have hsix : (6 : UInt32).toNat % 32 = 6 := rfl
  rw [hsix, Nat.shiftLeft_eq, Nat.mod_eq_of_lt (by omega), show (2 : Nat) ^ 6 = 64 from rfl]
  rw [← Nat.shiftLeft_eq value.toNat 6, ← Nat.shiftLeft_add_eq_or_of_lt hbits]

/-- What the loop passes over. -/
theorem trailingBytes_iff {j : Nat} {value : UInt32} (hvalue : (value.toNat + 1) * 64 ^ j ≤ 2 ^ 32) {s r : List UInt8}
    {value' : UInt32} :
    trailingBytes j value s = some (value', r) ↔
      ∃ ts : List (Fin 64), ts.length = j ∧ s = ts.map trailingByte ++ r ∧
        value'.toNat = codePoint value.toNat ts := by
  induction j generalizing value s with
  | zero =>
    rw [trailingBytes, Option.some.injEq, Prod.mk.injEq]
    constructor
    · rintro ⟨rfl, rfl⟩
      exact ⟨[], rfl, rfl, rfl⟩
    · rintro ⟨ts, hlength, rfl, hcode⟩
      obtain rfl := List.length_eq_zero_iff.1 hlength
      exact ⟨UInt32.toNat_inj.1 hcode.symm, rfl⟩
  | succ j ih =>
    rw [Nat.pow_succ'] at hvalue
    have hstep : ∀ t : Fin 64,
        (value <<< 6 ||| (trailingByte t &&& 0x3F).toUInt32).toNat = value.toNat * 64 + t.val := by
      intro t
      have ht := (trailingByte_facts t).2
      have hpos : 0 < 64 ^ j := Nat.pow_pos (by decide)
      rw [toNat_shift_or, ht]
      · by_contra hlarge
        have hle : 2 ^ 32 < (value.toNat + 1) * 64 := by omega
        have hmul := Nat.le_mul_of_pos_right ((value.toNat + 1) * 64) hpos
        rw [← Nat.mul_assoc] at hvalue
        omega
      · rw [ht]
        exact t.2
    have hnext : ∀ t : Fin 64, (value.toNat * 64 + t.val + 1) * 64 ^ j ≤ 2 ^ 32 := by
      intro t
      refine Nat.le_trans (Nat.mul_le_mul_right _ ?_) (Nat.mul_assoc _ _ _ ▸ hvalue)
      omega
    constructor
    · intro h
      cases s with
      | nil => cases h
      | cons c s =>
        rw [trailingBytes] at h
        split at h
        · cases h
        · rename_i hc
          obtain ⟨t, rfl⟩ := exists_trailingByte (not_ne_iff.1 hc)
          obtain ⟨ts, hlength, rfl, hcode⟩ := (ih (by rw [hstep]; exact hnext t)).1 h
          refine ⟨t :: ts, by rw [List.length_cons, hlength], rfl, ?_⟩
          rw [hcode, hstep]
          rfl
    · rintro ⟨ts, hlength, rfl, hcode⟩
      cases ts with
      | nil => cases hlength
      | cons t ts =>
        rw [List.map_cons, List.cons_append, trailingBytes, if_neg (not_not_intro (trailingByte_facts t).1)]
        refine (ih (by rw [hstep]; exact hnext t)).2 ⟨ts, Nat.succ.inj hlength, rfl, ?_⟩
        rw [hcode, hstep]
        rfl

/-- The bits of the first byte that belong to the code point. -/
def topBits (c : UInt8) : UInt32 := c.toUInt32 &&& (((1 : UInt32) <<< (7 - UInt32.ofNat (countHighBits c))) - 1)

set_option maxRecDepth 8000 in
private theorem firstByte_facts : ∀ c : Fin 256, 0xC1 < c.val ∧ c.val < 0xF5 →
    (countHighBits (UInt8.ofNat c) = 2 ∧ (topBits (UInt8.ofNat c)).toNat < 32 ∨
      countHighBits (UInt8.ofNat c) = 3 ∧ (topBits (UInt8.ofNat c)).toNat < 16 ∨
      countHighBits (UInt8.ofNat c) = 4 ∧ (topBits (UInt8.ofNat c)).toNat < 8) ∧
    c.val = leadMark (countHighBits (UInt8.ofNat c) - 1) + (topBits (UInt8.ofNat c)).toNat := by
  decide

theorem firstByte_spec {c : UInt8} (h : 0xC1 < c.toNat ∧ c.toNat < 0xF5) :
    (countHighBits c = 2 ∧ (topBits c).toNat < 32 ∨ countHighBits c = 3 ∧ (topBits c).toNat < 16 ∨
      countHighBits c = 4 ∧ (topBits c).toNat < 8) ∧ c.toNat = leadMark (countHighBits c - 1) + (topBits c).toNat := by
  have hfacts := firstByte_facts ⟨c.toNat, c.toNat_lt⟩ h
  rwa [UInt8.ofNat_toNat] at hfacts

/-- A value is in its shortest form when it is a character that needs so many bytes. -/
theorem shortestUTF8_iff {j : Nat} (hj : j = 1 ∨ j = 2 ∨ j = 3) (value : UInt32) :
    shortestUTF8 (j + 1) value = true ↔
      ∃ c : Char, c.toNat = value.toNat ∧ (j = 1 ∧ 0x80 ≤ c.toNat ∧ c.toNat < 0x800 ∨
        j = 2 ∧ 0x800 ≤ c.toNat ∧ c.toNat < 0x10000 ∨ j = 3 ∧ 0x10000 ≤ c.toNat) := by
  have hchar : ∀ P : Nat → Prop, (∃ c : Char, c.toNat = value.toNat ∧ P c.toNat) ↔
      (value.toNat < 0xD800 ∨ 0xDFFF < value.toNat ∧ value.toNat < 0x110000) ∧ P value.toNat := by
    intro P
    constructor
    · rintro ⟨c, hc, h⟩
      rw [← hc]
      exact ⟨c.valid, h⟩
    · rintro ⟨hvalid, h⟩
      exact ⟨⟨value, hvalid⟩, rfl, h⟩
  rw [hchar fun n => j = 1 ∧ 0x80 ≤ n ∧ n < 0x800 ∨ j = 2 ∧ 0x800 ≤ n ∧ n < 0x10000 ∨ j = 3 ∧ 0x10000 ≤ n]
  have h₁ : ((1 : UInt32) <<< 7).toNat = 0x80 ∧ (((1 : UInt32) <<< 11) - 1).toNat = 0x7FF := ⟨rfl, rfl⟩
  have h₂ : ((1 : UInt32) <<< 11).toNat = 0x800 ∧ (((1 : UInt32) <<< 16) - 1).toNat = 0xFFFF := ⟨rfl, rfl⟩
  have h₃ : ((1 : UInt32) <<< 16).toNat = 0x10000 ∧ (0x10FFFF : UInt32).toNat = 0x10FFFF := ⟨rfl, rfl⟩
  have h₄ : (0xD800 : UInt32).toNat = 0xD800 ∧ (0xDFFF : UInt32).toNat = 0xDFFF := ⟨rfl, rfl⟩
  rcases hj with rfl | rfl | rfl <;>
    simp only [shortestUTF8, decide_eq_true_eq, UInt32.le_iff_toNat_le, UInt32.lt_iff_toNat_lt, h₁, h₂, h₃, h₄,
      true_and] <;>
    omega

/-- The bytes of a character behind ASCII. -/
theorem skipUTF8MultiByte_iff {c : UInt8} {s r : List UInt8} :
    skipUTF8MultiByte c s = some r ↔ ∃ ch : Char, 0x80 ≤ ch.toNat ∧ c :: s = String.utf8EncodeChar ch ++ r := by
  have hrange : 0xC1 < c ∧ c < 0xF5 ↔ 0xC1 < c.toNat ∧ c.toNat < 0xF5 := by
    rw [UInt8.lt_iff_toNat_lt, UInt8.lt_iff_toNat_lt]
    rfl
  constructor
  · intro h
    unfold skipUTF8MultiByte at h
    split at h
    · rename_i hc
      obtain ⟨hcount, hlead⟩ := firstByte_spec (hrange.1 hc)
      obtain ⟨j, hj, hcountj, hfits⟩ : ∃ j, (j = 1 ∨ j = 2 ∨ j = 3) ∧ countHighBits c = j + 1 ∧
          ((topBits c).toNat + 1) * 64 ^ j ≤ 2 ^ 32 := by
        rcases hcount with ⟨hcount, htop⟩ | ⟨hcount, htop⟩ | ⟨hcount, htop⟩
        · exact ⟨1, Or.inl rfl, hcount, by omega⟩
        · exact ⟨2, Or.inr (Or.inl rfl), hcount, by omega⟩
        · exact ⟨3, Or.inr (Or.inr rfl), hcount, by omega⟩
      rw [hcountj, Nat.add_sub_cancel] at hlead
      dsimp only at h
      split at h
      · rename_i value r' htrailing
        split at h
        · rename_i hshortest
          obtain rfl := Option.some.inj h
          rw [hcountj] at htrailing hshortest
          obtain ⟨ts, hlength, rfl, hcode⟩ := (trailingBytes_iff hfits).1
            (by simpa only [topBits, hcountj, Nat.add_sub_cancel] using htrailing)
          obtain ⟨ch, hch, hcases⟩ := (shortestUTF8_iff hj value).1 hshortest
          have hshape : CodeShape ch (topBits c).toNat ts := by
            rw [← hlength] at hcases
            exact ⟨hch.trans hcode, hcases⟩
          refine ⟨ch, by omega, ?_⟩
          rw [hshape.encode, hlength, ← hlead, UInt8.ofNat_toNat, List.cons_append]
        · cases h
      · cases h
    · cases h
  · rintro ⟨ch, hch, hencode⟩
    obtain ⟨top, ts, hshape⟩ := exists_codeShape hch
    rw [hshape.encode, List.cons_append, List.cons.injEq] at hencode
    obtain ⟨rfl, rfl⟩ := hencode
    have hnat : (UInt8.ofNat (leadMark ts.length + top)).toNat = leadMark ts.length + top := by
      rw [UInt8.toNat_ofNat']
      rcases hshape.top_le with ⟨hlength, -, htop⟩ | ⟨hlength, htop⟩ | ⟨hlength, htop⟩ <;> rw [hlength, leadMark] <;> omega
    generalize UInt8.ofNat (leadMark ts.length + top) = c at hrange hnat ⊢
    have hc : 0xC1 < c.toNat ∧ c.toNat < 0xF5 := by
      rw [hnat]
      rcases hshape.top_le with ⟨hlength, hlow, htop⟩ | ⟨hlength, htop⟩ | ⟨hlength, htop⟩ <;> rw [hlength, leadMark] <;> omega
    obtain ⟨hcount, hlead⟩ := firstByte_spec hc
    obtain ⟨hlength, htop⟩ : ts.length = countHighBits c - 1 ∧ top = (topBits c).toNat := by
      refine leadMark_unique ?_ ?_ (hnat.symm.trans hlead)
      · have htop := hshape.top_le
        omega
      · omega
    have hfits : ((topBits c).toNat + 1) * 64 ^ ts.length ≤ 2 ^ 32 := by
      rcases hshape.top_le with ⟨hlength, -, hlow⟩ | ⟨hlength, hlow⟩ | ⟨hlength, hlow⟩ <;> rw [hlength] <;> omega
    obtain ⟨value, hvalue⟩ : ∃ value : UInt32, value.toNat = ch.toNat := ⟨ch.val, rfl⟩
    have htrailing : trailingBytes ts.length (topBits c) (ts.map trailingByte ++ r) = some (value, r) := by
      refine (trailingBytes_iff hfits).2 ⟨ts, rfl, rfl, ?_⟩
      rw [hvalue, hshape.code, htop]
    have hcount' : countHighBits c = ts.length + 1 := by omega
    have hshortest : shortestUTF8 (countHighBits c) value = true := by
      rw [hcount']
      exact (shortestUTF8_iff (by have htop := hshape.top_le; omega) value).2 ⟨ch, hvalue.symm, hshape.shortest⟩
    rw [hlength, topBits] at htrailing
    rw [skipUTF8MultiByte, if_pos (hrange.2 hc)]
    simp only [htrailing, hshortest, ite_true]

/-- A code point is skipped when it is the encoding of a character. -/
theorem skipUTF8_iff {s r : List UInt8} : skipUTF8 s = some r ↔ ∃ ch : Char, s = String.utf8EncodeChar ch ++ r := by
  cases s with
  | nil =>
    refine iff_of_false (by simp [skipUTF8]) ?_
    rintro ⟨ch, h⟩
    exact String.utf8EncodeChar_ne_nil (List.append_eq_nil_iff.1 h.symm).1
  | cons c s =>
    have hhead : ∀ ch : Char, c :: s = String.utf8EncodeChar ch ++ r →
        if c.toNat < 0x80 then ch.toNat = c.toNat ∧ s = r else 0x80 ≤ ch.toNat := by
      intro ch h
      obtain ⟨b, l, hch⟩ := List.exists_cons_of_ne_nil (String.utf8EncodeChar_ne_nil (c := ch))
      have hfacts := utf8EncodeChar_head hch
      rw [hch, List.cons_append, List.cons.injEq] at h
      obtain ⟨rfl, rfl⟩ := h
      split at hfacts
      · rename_i hlow
        obtain ⟨hval, rfl⟩ := hfacts
        rw [if_pos hlow]
        exact ⟨hval, rfl⟩
      · rename_i hlow
        rwa [if_neg hlow]
    have hc : c < 0x80 ↔ c.toNat < 0x80 := UInt8.lt_iff_toNat_lt
    rw [skipUTF8]
    by_cases hlow : c.toNat < 0x80
    · rw [if_pos (hc.2 hlow), Option.some.injEq]
      constructor
      · rintro rfl
        obtain ⟨ch, hch⟩ := exists_asciiChar hlow
        refine ⟨ch, ?_⟩
        rw [utf8EncodeChar_ascii (by rwa [hch]), hch, UInt8.ofNat_toNat]
        rfl
      · rintro ⟨ch, h⟩
        have hfacts := hhead ch h
        rw [if_pos hlow] at hfacts
        exact hfacts.2
    · rw [if_neg (mt hc.1 hlow), skipUTF8MultiByte_iff]
      constructor
      · rintro ⟨ch, -, h⟩
        exact ⟨ch, h⟩
      · rintro ⟨ch, h⟩
        have hfacts := hhead ch h
        rw [if_neg hlow] at hfacts
        exact ⟨ch, hfacts, h⟩

/-! ### Escapes -/

/-- `NOT_A_HEX_CHAR` -/
abbrev notAHexChar : UInt8 := 0x10

/-- `hexToInt` -/
def hexToInt (c : UInt8) : UInt8 :=
  if 97 ≤ c ∧ c ≤ 102 then c - 97 + 10
  else if 65 ≤ c ∧ c ≤ 70 then c - 65 + 10
  else if isDigit c then c - 48
  else notAHexChar

/-- The loop over the digits of an escape. -/
def hexDigits : Nat → UInt16 → List UInt8 → Option (UInt16 × List UInt8)
  | 0, value, s => some (value, s)
  | _ + 1, _, [] => none
  | left + 1, value, c :: s =>
    if hexToInt c = notAHexChar then none else hexDigits left (value <<< 4 ||| (hexToInt c).toUInt16) s

/-- `skipOneHexEscape`; a character must follow the escape, and its value is not zero. -/
def skipOneHexEscape : List UInt8 → Option (UInt16 × List UInt8)
  | a :: b :: s =>
    if 4 < s.length ∧ a = backslash ∧ b = 117 then
      match hexDigits 4 0 s with
      | some (value, r) => if 0 < value then some (value, r) else none
      | none => none
    else none
  | _ => none

def isHighSurrogate (x : UInt16) : Bool := decide (0xD800 ≤ x ∧ x ≤ 0xDBFF)

def isLowSurrogate (x : UInt16) : Bool := decide (0xDC00 ≤ x ∧ x ≤ 0xDFFF)

/-- `skipHexEscape` -/
def skipHexEscape (s : List UInt8) : Option (List UInt8) :=
  match skipOneHexEscape s with
  | some (value, r) =>
    if isHighSurrogate value then
      match skipOneHexEscape r with
      | some (value, r) => if isLowSurrogate value then some r else none
      | none => none
    else if isLowSurrogate value then none
    else some r
  | none => none

/-- `iscntrl_` of a signed character -/
def iscntrl (c : UInt8) : Bool := decide (c < 32)

/-- `skipEscape`: a control character may be escaped, except NUL. -/
def skipEscape : List UInt8 → Option (List UInt8)
  | a :: c :: s =>
    if a = backslash then
      if c = 0 then none
      else if c = 117 then skipHexEscape (a :: c :: s)
      else if c ∈ escapes then some s
      else if iscntrl c then some s
      else none
    else none
  | _ => none

/-! ### Strings -/

/-- A pass of the loop of `skipString` that does not end it. -/
def skipStringChar : List UInt8 → Option (List UInt8)
  | [] => none
  | c :: s =>
    if c = backslash then skipEscape (c :: s)
    else if iscntrl c then none
    else skipUTF8 (c :: s)

/-- The loop of `skipString`; a pass moves the index, so the characters ahead bound the passes. -/
def skipStringFrom : Nat → List UInt8 → Option (List UInt8)
  | 0, _ => none
  | _ + 1, [] => none
  | passes + 1, c :: s => if c = dquote then some s else (skipStringChar (c :: s)).bind (skipStringFrom passes)

/-- `skipString` -/
def skipString : List UInt8 → Option (List UInt8)
  | [] => none
  | c :: s => if c = dquote then skipStringFrom s.length s else none

/-- The value of hexadecimal digits behind others. -/
def hexValue (value : UInt16) (ds : List UInt8) : UInt16 :=
  ds.foldl (fun (v : UInt16) d => v <<< 4 ||| (hexToInt d).toUInt16) value

/-- Four hexadecimal digits of this value, which is not zero. -/
structure HexUnit (ds : List UInt8) (value : UInt16) : Prop where
  length : ds.length = 4
  digits : ∀ d ∈ ds, isHex d = true
  value_eq : hexValue 0 ds = value
  pos : 0 < value

/-- What stands for one character between the quotes of a string. -/
inductive StringChar : List UInt8 → Prop where
  | char {c : Char} (control : 32 ≤ c.toNat) (quote : c.toNat ≠ 34) (slash : c.toNat ≠ 92) : StringChar (String.utf8EncodeChar c)
  | escape {c : UInt8} (h : c ∈ escapes) : StringChar [backslash, c]
  | unit {ds : List UInt8} {value : UInt16} (h : HexUnit ds value) (high : isHighSurrogate value = false)
      (low : isLowSurrogate value = false) : StringChar (backslash :: 117 :: ds)
  | pair {ds ds' : List UInt8} {value value' : UInt16} (h : HexUnit ds value) (high : isHighSurrogate value = true)
      (h' : HexUnit ds' value') (low : isLowSurrogate value' = true) :
      StringChar (backslash :: 117 :: (ds ++ backslash :: 117 :: ds'))

/-- What coreJSON takes for a character: it also lets a control character be escaped, which is not JSON. -/
def ReadChar (ch : List UInt8) : Prop := StringChar ch ∨ ∃ c, c ≠ 0 ∧ c < 32 ∧ ch = [backslash, c]

set_option maxRecDepth 8000 in
private theorem hex_facts : ∀ c : Fin 256, hexToInt (UInt8.ofNat c) ≠ notAHexChar ↔ isHex (UInt8.ofNat c) = true := by
  decide

theorem hexToInt_ne_iff (c : UInt8) : hexToInt c ≠ notAHexChar ↔ isHex c = true := by
  have h := hex_facts ⟨c.toNat, c.toNat_lt⟩
  rwa [UInt8.ofNat_toNat] at h

theorem hexDigits_iff {left : Nat} {value value' : UInt16} {s r : List UInt8} :
    hexDigits left value s = some (value', r) ↔
      ∃ ds : List UInt8, ds.length = left ∧ (∀ d ∈ ds, isHex d = true) ∧ s = ds ++ r ∧
        hexValue value ds = value' := by
  induction left generalizing value s with
  | zero =>
    rw [hexDigits, Option.some.injEq, Prod.mk.injEq]
    constructor
    · rintro ⟨rfl, rfl⟩
      exact ⟨[], rfl, fun _ hmem => absurd hmem List.not_mem_nil, rfl, rfl⟩
    · rintro ⟨ds, hlength, -, rfl, hvalue⟩
      obtain rfl := List.length_eq_zero_iff.1 hlength
      exact ⟨hvalue, rfl⟩
  | succ left ih =>
    constructor
    · intro h
      cases s with
      | nil => cases h
      | cons c s =>
        rw [hexDigits] at h
        split at h
        · cases h
        · rename_i hc
          obtain ⟨ds, hlength, hdigits, rfl, hvalue⟩ := ih.1 h
          exact ⟨c :: ds, by rw [List.length_cons, hlength], List.forall_mem_cons.2 ⟨(hexToInt_ne_iff c).1 hc, hdigits⟩, rfl,
            hvalue⟩
    · rintro ⟨ds, hlength, hdigits, rfl, hvalue⟩
      cases ds with
      | nil => cases hlength
      | cons d ds =>
        obtain ⟨hd, hdigits⟩ := List.forall_mem_cons.1 hdigits
        rw [List.cons_append, hexDigits, if_neg ((hexToInt_ne_iff d).2 hd)]
        exact ih.2 ⟨ds, Nat.succ.inj hlength, hdigits, rfl, hvalue⟩

/-- An escape that is not the last thing in the buffer. -/
theorem skipOneHexEscape_iff {s r : List UInt8} {value : UInt16} :
    skipOneHexEscape s = some (value, r) ↔
      ∃ ds, HexUnit ds value ∧ r ≠ [] ∧ s = backslash :: 117 :: (ds ++ r) := by
  constructor
  · intro h
    unfold skipOneHexEscape at h
    split at h
    · rename_i a b s
      split at h
      · rename_i hfront
        obtain ⟨hlong, rfl, rfl⟩ := hfront
        split at h
        · rename_i value' r' hdigits
          split at h
          · rename_i hpos
            obtain ⟨rfl, rfl⟩ := Prod.mk.inj (Option.some.inj h)
            obtain ⟨ds, hlength, hhex, rfl, hvalue⟩ := hexDigits_iff.1 hdigits
            refine ⟨ds, ⟨hlength, hhex, hvalue, hpos⟩, ?_, rfl⟩
            rintro rfl
            rw [List.append_nil, hlength] at hlong
            omega
          · cases h
        · cases h
      · cases h
    · cases h
  · rintro ⟨ds, hunit, hr, rfl⟩
    have hlong : 4 < (ds ++ r).length := by
      have hpos := List.length_pos_iff.2 hr
      rw [List.length_append, hunit.length]
      omega
    have hdigits : hexDigits 4 0 (ds ++ r) = some (value, r) :=
      hexDigits_iff.2 ⟨ds, hunit.length, hunit.digits, rfl, hunit.value_eq⟩
    rw [skipOneHexEscape, if_pos ⟨hlong, rfl, rfl⟩, hdigits]
    exact if_pos hunit.pos

/-- A character that starts with a backslash is an escape. -/
theorem StringChar.backslash_cases {ch : List UInt8} (h : StringChar (backslash :: ch)) :
    (∃ c, c ∈ escapes ∧ ch = [c]) ∨
    (∃ ds value, HexUnit ds value ∧ isHighSurrogate value = false ∧ isLowSurrogate value = false ∧ ch = 117 :: ds) ∨
    (∃ ds ds' value value', HexUnit ds value ∧ isHighSurrogate value = true ∧ HexUnit ds' value' ∧
      isLowSurrogate value' = true ∧ ch = 117 :: (ds ++ backslash :: 117 :: ds')) := by
  generalize hbytes : backslash :: ch = bytes at h
  cases h with
  | @char c control quote slash =>
    have hfacts := utf8EncodeChar_head hbytes.symm
    rw [if_pos (by decide)] at hfacts
    exact absurd hfacts.1 slash
  | escape h => exact Or.inl ⟨_, h, (List.cons.inj hbytes).2⟩
  | unit h high low => exact Or.inr (Or.inl ⟨_, _, h, high, low, (List.cons.inj hbytes).2⟩)
  | pair h high h' low => exact Or.inr (Or.inr ⟨_, _, _, _, h, high, h', low, (List.cons.inj hbytes).2⟩)

/-- A `\u` escape, or two of them for a character of two units. -/
theorem skipHexEscape_iff {s r : List UInt8} :
    skipHexEscape (backslash :: 117 :: s) = some r ↔
      r ≠ [] ∧ ∃ ch, StringChar (backslash :: 117 :: ch) ∧ s = ch ++ r := by
  have hinj : ∀ {a b : List UInt8}, backslash :: 117 :: a = backslash :: 117 :: b → a = b := fun h =>
    (List.cons.inj (List.cons.inj h).2).2
  constructor
  · intro h
    unfold skipHexEscape at h
    split at h
    · rename_i value r₁ hone
      obtain ⟨ds, hunit, hr₁, hs⟩ := skipOneHexEscape_iff.1 hone
      obtain rfl := hinj hs
      split at h
      · rename_i hhigh
        split at h
        · rename_i value' r₂ htwo
          obtain ⟨ds', hunit', hr₂, rfl⟩ := skipOneHexEscape_iff.1 htwo
          split at h
          · rename_i hlow
            obtain rfl := Option.some.inj h
            exact ⟨hr₂, _, .pair hunit hhigh hunit' hlow, by simp⟩
          · cases h
        · cases h
      · rename_i hhigh
        split at h
        · cases h
        · rename_i hlow
          obtain rfl := Option.some.inj h
          exact ⟨hr₁, ds, .unit hunit (Bool.not_eq_true _ ▸ hhigh) (Bool.not_eq_true _ ▸ hlow), rfl⟩
    · cases h
  · rintro ⟨hr, ch, hch, rfl⟩
    rcases hch.backslash_cases with ⟨c, hc, heq⟩ | ⟨ds, value, hunit, hhigh, hlow, heq⟩ |
        ⟨ds, ds', value, value', hunit, hhigh, hunit', hlow, heq⟩
    · obtain ⟨rfl, -⟩ := List.cons.inj heq
      exact absurd hc (by decide)
    · obtain rfl := (List.cons.inj heq).2
      have hone : skipOneHexEscape (backslash :: 117 :: (ch ++ r)) = some (value, r) :=
        skipOneHexEscape_iff.2 ⟨ch, hunit, hr, rfl⟩
      rw [skipHexEscape, hone]
      simp only [hhigh, hlow, Bool.false_eq_true, ite_false]
    · obtain rfl := (List.cons.inj heq).2
      have hone : skipOneHexEscape (backslash :: 117 :: (ds ++ backslash :: 117 :: ds' ++ r)) =
          some (value, backslash :: 117 :: (ds' ++ r)) :=
        skipOneHexEscape_iff.2 ⟨ds, hunit, by simp, by simp⟩
      have htwo : skipOneHexEscape (backslash :: 117 :: (ds' ++ r)) = some (value', r) :=
        skipOneHexEscape_iff.2 ⟨ds', hunit', hr, rfl⟩
      rw [skipHexEscape, hone]
      simp only [hhigh, htwo, hlow, ite_true]

/-- What `skipEscape` passes over. -/
theorem skipEscape_iff {s r : List UInt8} (hr : r ≠ []) :
    skipEscape (backslash :: s) = some r ↔ ∃ ch, ReadChar (backslash :: ch) ∧ s = ch ++ r := by
  constructor
  · intro h
    cases s with
    | nil => cases h
    | cons c s =>
      rw [skipEscape, if_pos rfl] at h
      split at h
      · cases h
      · rename_i hzero
        split at h
        · rename_i hu
          subst hu
          obtain ⟨-, ch, hch, rfl⟩ := skipHexEscape_iff.1 h
          exact ⟨117 :: ch, Or.inl hch, rfl⟩
        · split at h
          · rename_i hescape
            obtain rfl := Option.some.inj h
            exact ⟨[c], Or.inl (.escape hescape), rfl⟩
          · split at h
            · rename_i hcontrol
              obtain rfl := Option.some.inj h
              exact ⟨[c], Or.inr ⟨c, hzero, of_decide_eq_true hcontrol, rfl⟩, rfl⟩
            · cases h
  · rintro ⟨ch, hch | ⟨c, hzero, hcontrol, heq⟩, rfl⟩
    · rcases hch.backslash_cases with ⟨c, hc, rfl⟩ | ⟨ds, value, hunit, hhigh, hlow, rfl⟩ |
          ⟨ds, ds', value, value', hunit, hhigh, hunit', hlow, rfl⟩
      · have hne : c ≠ 0 ∧ c ≠ 117 := by
          constructor <;> rintro rfl <;> exact absurd hc (by decide)
        rw [List.singleton_append, skipEscape, if_pos rfl, if_neg hne.1, if_neg hne.2, if_pos hc]
      · rw [List.cons_append, skipEscape, if_pos rfl, if_neg (by decide), if_pos rfl]
        exact skipHexEscape_iff.2 ⟨hr, ds, hch, rfl⟩
      · rw [List.cons_append, skipEscape, if_pos rfl, if_neg (by decide), if_pos rfl]
        exact skipHexEscape_iff.2 ⟨hr, _, hch, rfl⟩
    · obtain rfl := (List.cons.inj heq).2
      have hu : c ≠ 117 := by
        rintro rfl
        exact absurd hcontrol (by decide)
      have hiscntrl : iscntrl c = true := decide_eq_true hcontrol
      rw [List.singleton_append, skipEscape, if_pos rfl, if_neg hzero, if_neg hu, if_pos hiscntrl, ite_self]

theorem ReadChar.ne_nil {ch : List UInt8} (h : ReadChar ch) : ch ≠ [] := by
  rcases h with h | ⟨c, -, -, rfl⟩
  · cases h with
    | char control quote slash => exact String.utf8EncodeChar_ne_nil
    | escape h => exact List.cons_ne_nil _ _
    | unit h high low => exact List.cons_ne_nil _ _
    | pair h high h' low => exact List.cons_ne_nil _ _
  · exact List.cons_ne_nil _ _

theorem ReadChar.of_ne_backslash {c : UInt8} {s : List UInt8} (h : ReadChar (c :: s)) (hc : c ≠ backslash) :
    ∃ ch : Char, String.utf8EncodeChar ch = c :: s ∧ 32 ≤ ch.toNat ∧ ch.toNat ≠ 34 ∧ ch.toNat ≠ 92 := by
  generalize hbytes : c :: s = bytes at h
  rcases h with h | ⟨b, -, -, rfl⟩
  · cases h with
    | @char ch control quote slash => exact ⟨ch, rfl, control, quote, slash⟩
    | escape h => exact absurd (List.cons.inj hbytes).1 hc
    | unit h high low => exact absurd (List.cons.inj hbytes).1 hc
    | pair h high h' low => exact absurd (List.cons.inj hbytes).1 hc
  · exact absurd (List.cons.inj hbytes).1 hc

theorem ReadChar.ne_dquote {c : UInt8} {s : List UInt8} (h : ReadChar (c :: s)) : c ≠ dquote := by
  rintro rfl
  obtain ⟨ch, hch, -, hquote, -⟩ := h.of_ne_backslash (by decide)
  have hfacts := utf8EncodeChar_head hch
  rw [if_pos (by decide)] at hfacts
  exact hquote hfacts.1

/-- A pass inside a string reads one character. -/
theorem skipStringChar_iff {c : UInt8} {s r : List UInt8} (hc : c ≠ dquote) (hr : r ≠ []) :
    skipStringChar (c :: s) = some r ↔ ∃ ch, ReadChar ch ∧ c :: s = ch ++ r := by
  have hnum : (c = dquote ↔ c.toNat = 34) ∧ (c = backslash ↔ c.toNat = 92) ∧ (c < 32 ↔ c.toNat < 32) :=
    ⟨UInt8.toNat_inj.symm, UInt8.toNat_inj.symm, UInt8.lt_iff_toNat_lt⟩
  rw [skipStringChar]
  by_cases hslash : c = backslash
  · subst hslash
    rw [if_pos rfl, skipEscape_iff hr]
    constructor
    · rintro ⟨ch, hch, rfl⟩
      exact ⟨_, hch, rfl⟩
    · rintro ⟨ch, hch, heq⟩
      obtain ⟨b, ch, rfl⟩ := List.exists_cons_of_ne_nil hch.ne_nil
      obtain ⟨rfl, rfl⟩ := List.cons.inj heq
      exact ⟨ch, hch, rfl⟩
  · rw [if_neg hslash]
    constructor
    · intro h
      split at h
      · cases h
      · rename_i hcontrol
        have hlow : ¬ c.toNat < 32 := fun hlow => hcontrol (decide_eq_true (hnum.2.2.2 hlow))
        rw [ne_eq, hnum.1] at hc
        rw [hnum.2.1] at hslash
        obtain ⟨ch, heq⟩ := skipUTF8_iff.1 h
        refine ⟨_, Or.inl (.char (c := ch) ?_ ?_ ?_), heq⟩ <;>
          obtain ⟨b, l, hch⟩ := List.exists_cons_of_ne_nil (String.utf8EncodeChar_ne_nil (c := ch)) <;>
          have hfacts := utf8EncodeChar_head hch <;>
          rw [hch, List.cons_append, List.cons.injEq] at heq <;>
          rw [← heq.1] at hfacts <;> split at hfacts <;> omega
    · rintro ⟨ch, hch, heq⟩
      obtain ⟨b, l, rfl⟩ := List.exists_cons_of_ne_nil hch.ne_nil
      obtain ⟨rfl, rfl⟩ := List.cons.inj heq
      obtain ⟨ch, hencode, hcontrol, hquote, -⟩ := hch.of_ne_backslash hslash
      have hfacts := utf8EncodeChar_head hencode
      have hiscntrl : iscntrl c = false := by
        rw [iscntrl, decide_eq_false_iff_not, hnum.2.2]
        split at hfacts <;> omega
      rw [hiscntrl, if_neg Bool.false_ne_true, skipUTF8_iff]
      exact ⟨ch, by rw [hencode]; rfl⟩

/-- Text made of such characters. -/
def MadeOf (P : List UInt8 → Prop) (body : List UInt8) : Prop :=
  ∃ chars : List (List UInt8), (∀ ch ∈ chars, P ch) ∧ body = chars.flatten

theorem MadeOf.nil (P : List UInt8 → Prop) : MadeOf P [] := ⟨[], fun _ hmem => absurd hmem List.not_mem_nil, rfl⟩

theorem MadeOf.cons {P : List UInt8 → Prop} {ch body : List UInt8} (hch : P ch) (h : MadeOf P body) :
    MadeOf P (ch ++ body) := by
  obtain ⟨chars, hchars, rfl⟩ := h
  exact ⟨ch :: chars, List.forall_mem_cons.2 ⟨hch, hchars⟩, rfl⟩

theorem MadeOf.mono {P Q : List UInt8 → Prop} (hPQ : ∀ ch, P ch → Q ch) {body : List UInt8} (h : MadeOf P body) :
    MadeOf Q body := by
  obtain ⟨chars, hchars, rfl⟩ := h
  exact ⟨chars, fun ch hch => hPQ ch (hchars ch hch), rfl⟩

theorem skipStringFrom_iff {passes : Nat} {s : List UInt8} (hpasses : s.length ≤ passes) {r : List UInt8} :
    skipStringFrom passes s = some r ↔ ∃ body, MadeOf ReadChar body ∧ s = body ++ dquote :: r := by
  induction passes generalizing s with
  | zero =>
    obtain rfl := List.length_eq_zero_iff.1 (Nat.le_zero.1 hpasses)
    refine iff_of_false (by simp [skipStringFrom]) ?_
    rintro ⟨body, -, h⟩
    cases body <;> cases h
  | succ passes ih =>
    cases s with
    | nil =>
      refine iff_of_false (by simp [skipStringFrom]) ?_
      rintro ⟨body, -, h⟩
      cases body <;> cases h
    | cons c s =>
      rw [skipStringFrom]
      by_cases hc : c = dquote
      · subst hc
        rw [if_pos rfl, Option.some.injEq]
        constructor
        · rintro rfl
          exact ⟨[], MadeOf.nil _, rfl⟩
        · rintro ⟨body, ⟨chars, hchars, rfl⟩, heq⟩
          cases chars with
          | nil => exact (List.cons.inj heq).2
          | cons ch chars =>
            obtain ⟨b, l, rfl⟩ := List.exists_cons_of_ne_nil (hchars ch List.mem_cons_self).ne_nil
            have hb := (hchars (b :: l) List.mem_cons_self).ne_dquote
            exact absurd (List.cons.inj heq).1.symm hb
      · rw [if_neg hc, Option.bind_eq_some_iff]
        constructor
        · rintro ⟨u, hu, hrest⟩
          have hne : u ≠ [] := by
            rintro rfl
            cases passes <;> cases hrest
          obtain ⟨ch, hch, heq⟩ := (skipStringChar_iff hc hne).1 hu
          have hlength : u.length ≤ passes := by
            have hpos := List.length_pos_iff.2 hch.ne_nil
            have htotal := congrArg List.length heq
            rw [List.length_cons, List.length_append] at htotal
            rw [List.length_cons] at hpasses
            omega
          obtain ⟨body, hbody, rfl⟩ := (ih hlength).1 hrest
          exact ⟨ch ++ body, hbody.cons hch, by rw [heq, List.append_assoc]⟩
        · rintro ⟨body, ⟨chars, hchars, rfl⟩, heq⟩
          cases chars with
          | nil => exact absurd (List.cons.inj heq).1 hc
          | cons ch chars =>
            obtain ⟨hch, hchars⟩ := List.forall_mem_cons.1 hchars
            rw [List.flatten_cons, List.append_assoc] at heq
            refine ⟨chars.flatten ++ dquote :: r, (skipStringChar_iff hc (by simp)).2 ⟨ch, hch, heq⟩, ?_⟩
            have hlength : (chars.flatten ++ dquote :: r).length ≤ passes := by
              have hpos := List.length_pos_iff.2 hch.ne_nil
              have htotal := congrArg List.length heq
              rw [List.length_cons, List.length_append] at htotal
              rw [List.length_cons] at hpasses
              omega
            exact (ih hlength).2 ⟨chars.flatten, ⟨chars, hchars, rfl⟩, rfl⟩

/-- A string is a text of characters between two quotes. -/
theorem skipString_iff {s r : List UInt8} :
    skipString s = some r ↔ ∃ body, MadeOf ReadChar body ∧ s = dquote :: (body ++ dquote :: r) := by
  cases s with
  | nil =>
    refine iff_of_false (by simp [skipString]) ?_
    rintro ⟨body, -, h⟩
    cases h
  | cons c s =>
    rw [skipString]
    by_cases hc : c = dquote
    · subst hc
      rw [if_pos rfl, skipStringFrom_iff (Nat.le_refl _)]
      simp only [List.cons.injEq, true_and]
    · rw [if_neg hc]
      refine iff_of_false (by simp) ?_
      rintro ⟨body, -, h⟩
      exact hc (List.cons.inj h).1

end Json.Core
