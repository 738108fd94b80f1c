import TuyaDaemon.CoreJson.Strings

/-!
# Scalars in coreJSON

Literals, numbers and strings, as `core_json.c` skips them.  `skipSpace` is `Json.skipWs`.  A number is skipped as the
grammar says (`skipNumber_eq`).
-/

namespace Json.Core

/-! ### Literals and numbers -/

/-- `skipLiteral`, with the comparison of `strnEq`. -/
def skipLiteral (literal s : List UInt8) : Option (List UInt8) :=
  if literal <+: s then some (s.drop literal.length) else none

/-- `skipAnyLiteral` -/
def skipAnyLiteral (s : List UInt8) : Option (List UInt8) :=
  ((skipLiteral (CLib.bytes "true") s).or (skipLiteral (CLib.bytes "false") s)).or
    (skipLiteral (CLib.bytes "null") s)

/-- `MAX_FACTOR` -/
abbrev maxFactor : Int := 0x7FFFFFF7 / 10

/-- The loop of `skipDigits`, with the value so far; it is `-1` once it is too large. -/
def skipDigitsFrom : Int → List UInt8 → Int × List UInt8
  | value, [] => (value, [])
  | value, c :: s =>
    if isDigit c then
      skipDigitsFrom
        (if -1 < value then if value ≤ maxFactor then value * 10 + (hexToInt c).toNat else -1 else value) s
    else (value, c :: s)

/-- `skipDigits`, with the value of the digits. -/
def skipDigits (s : List UInt8) : Option (Int × List UInt8) :=
  let (value, r) := skipDigitsFrom 0 s
  if r.length < s.length then some (value, r) else none

/-- `skipDecimals` -/
def skipDecimals : List UInt8 → List UInt8
  | [] => []
  | c :: s =>
    if c = 46 then
      match skipDigits s with
      | some (_, r) => r
      | none => c :: s
    else c :: s

/-- `skipExponent` -/
def skipExponent : List UInt8 → List UInt8
  | [] => []
  | c :: s =>
    if c = 101 ∨ c = 69 then
      let digits :=
        match s with
        | sign :: s' => if sign = 45 ∨ sign = 43 then s' else sign :: s'
        | [] => []
      match skipDigits digits with
      | some (_, r) => r
      | none => c :: s
    else c :: s

/-- `skipNumber` -/
def skipNumber (s : List UInt8) : Option (List UInt8) :=
  let ahead :=
    match s with
    | c :: s' => if c = 45 then s' else c :: s'
    | [] => []
  let digits :=
    match ahead with
    | c :: s' => if c = 48 then some s' else (skipDigits (c :: s')).map Prod.snd
    | [] => none
  digits.map fun r => skipExponent (skipDecimals r)

/-- `skipAnyScalar` -/
def skipAnyScalar (s : List UInt8) : Option (List UInt8) :=
  ((skipString s).or (skipAnyLiteral s)).or (skipNumber s)

/-! ### The scalars of the grammar -/

theorem skipDigitsFrom_snd (value : Int) (s : List UInt8) : (skipDigitsFrom value s).2 = dropDigits s := by
  induction s generalizing value with
  | nil => rfl
  | cons c s ih =>
    by_cases hc : isDigit c = true
    · rw [skipDigitsFrom, if_pos hc, ih, dropDigits, dropDigits, List.dropWhile_cons_of_pos hc]
    · rw [skipDigitsFrom, if_neg hc, dropDigits, List.dropWhile_cons_of_neg hc]

/-- Digits are skipped when there is one. -/
theorem skipDigits_cons (c : UInt8) (s : List UInt8) :
    (skipDigits (c :: s)).map Prod.snd = if isDigit c then some (dropDigits s) else none := by
  have hrest : (skipDigitsFrom 0 (c :: s)).2 = dropDigits (c :: s) := skipDigitsFrom_snd 0 (c :: s)
  have hle := length_dropDigits_le s
  simp only [skipDigits, hrest]
  by_cases hc : isDigit c = true
  · have hdrop : dropDigits (c :: s) = dropDigits s := List.dropWhile_cons_of_pos hc
    rw [hdrop, if_pos hc, if_pos (by rw [List.length_cons]; omega)]
    rfl
  · have hdrop : dropDigits (c :: s) = c :: s := List.dropWhile_cons_of_neg hc
    rw [hdrop, if_neg hc, if_neg (Nat.lt_irrefl _)]
    rfl

theorem skipDigits_nil : (skipDigits []).map Prod.snd = none := rfl

/-- A match on the digits that only looks at what follows them. -/
theorem match_skipDigits (s t : List UInt8) :
    (match skipDigits s with
      | some (_, r) => r
      | none => t) = ((skipDigits s).map Prod.snd).getD t := by
  cases skipDigits s <;> rfl

theorem skipDecimals_eq (s : List UInt8) : skipDecimals s = fracPart s := by
  cases s with
  | nil => rfl
  | cons p s =>
    rw [skipDecimals]
    cases s with
    | nil =>
      rw [match_skipDigits, skipDigits_nil, fracPart]
      · simp
      · simp
    | cons c s =>
      rw [match_skipDigits, skipDigits_cons, fracPart]
      by_cases hp : p = 46 <;> by_cases hc : isDigit c = true <;> simp [hp, hc]

theorem skipExponent_eq (s : List UInt8) : skipExponent s = expPart s := by
  cases s with
  | nil => rfl
  | cons e s =>
    have hsign : (match s with
      | sign :: s' => if sign = 45 ∨ sign = 43 then s' else sign :: s'
      | [] => []) = expSign s := by
      cases s with
      | nil => rfl
      | cons sign s => simp only [expSign, or_comm]
    unfold skipExponent expPart
    simp only [hsign, match_skipDigits]
    cases expSign s with
    | nil => simp [skipDigits_nil]
    | cons c s' =>
      rw [skipDigits_cons]
      by_cases hc : isDigit c = true <;> simp [hc]

/-- A number is skipped as the grammar says. -/
theorem skipNumber_eq (s : List UInt8) : skipNumber s = number s := by
  have hint : ∀ s : List UInt8, (match s with
      | c :: s' => if c = 48 then some s' else (skipDigits (c :: s')).map Prod.snd
      | [] => none) = intPart s := by
    intro s
    cases s with
    | nil => rfl
    | cons c s => simp only [intPart, skipDigits_cons]
  cases s with
  | nil => rfl
  | cons c s =>
    simp only [skipNumber, number, hint, skipDecimals_eq, skipExponent_eq]
    by_cases hc : c = 45 <;> simp [hc]

theorem skipAnyLiteral_eq (s : List UInt8) :
    skipAnyLiteral s = (literals.find? fun l => decide (l <+: s)).map fun l => s.drop l.length := by
  simp only [skipAnyLiteral, skipLiteral, literals, List.find?]
  by_cases h₁ : CLib.bytes "true" <+: s <;> by_cases h₂ : CLib.bytes "false" <+: s <;>
    by_cases h₃ : CLib.bytes "null" <+: s <;> simp [h₁, h₂, h₃]

/-- A scalar as coreJSON takes it, and what follows it. -/
inductive ReadScalar : List UInt8 → List UInt8 → Prop where
  | string {body : List UInt8} (h : MadeOf ReadChar body) (r : List UInt8) :
      ReadScalar (dquote :: (body ++ dquote :: r)) r
  | literal {l : List UInt8} (h : l ∈ literals) (r : List UInt8) : ReadScalar (l ++ r) r
  | number {s r : List UInt8} (h : number s = some r) : ReadScalar s r

theorem skipString_of_ne {c : UInt8} (h : c ≠ dquote) (s : List UInt8) : skipString (c :: s) = none := if_neg h

theorem skipAnyLiteral_of_ne {c : UInt8} (h : c ≠ 116 ∧ c ≠ 102 ∧ c ≠ 110) (s : List UInt8) :
    skipAnyLiteral (c :: s) = none := by
  rw [skipAnyLiteral_eq]
  simp [literals, CLib.bytes, List.find?, Ne.symm h.1, Ne.symm h.2.1, Ne.symm h.2.2]

/-- A number starts with a sign or a digit. -/
theorem number_sign {c : UInt8} {s r : List UInt8} (h : number (c :: s) = some r) : c = 45 ∨ isDigit c = true := by
  by_contra hc
  rw [not_or] at hc
  have hzero : c ≠ 48 := by
    rintro rfl
    exact hc.2 (by decide)
  simp [number, intPart, hc.1, hc.2, hzero] at h

theorem number_first {c : UInt8} {s r : List UInt8} (h : number (c :: s) = some r) :
    c ≠ dquote ∧ c ≠ 116 ∧ c ≠ 102 ∧ c ≠ 110 := by
  have hsign := number_sign h
  refine ⟨?_, ?_, ?_, ?_⟩ <;> rintro rfl <;> revert hsign <;> decide

theorem skipAnyScalar_iff {s r : List UInt8} : skipAnyScalar s = some r ↔ ReadScalar s r := by
  constructor
  · intro h
    rw [skipAnyScalar, Option.or_assoc, Option.or_eq_some_iff, Option.or_eq_some_iff] at h
    rcases h with h | ⟨-, h | ⟨-, h⟩⟩
    · obtain ⟨body, hbody, rfl⟩ := skipString_iff.1 h
      exact .string hbody r
    · rw [skipAnyLiteral_eq, Option.map_eq_some_iff] at h
      obtain ⟨l, hl, rfl⟩ := h
      have hstarts := List.find?_some hl
      obtain ⟨t, rfl⟩ := (of_decide_eq_true hstarts : l <+: s)
      rw [List.drop_left]
      exact .literal (List.mem_of_find?_eq_some hl) t
    · rw [skipNumber_eq] at h
      exact .number h
  · intro h
    cases h with
    | string h =>
      rw [skipAnyScalar, skipString_iff.2 ⟨_, h, rfl⟩]
      rfl
    | @literal l h =>
      have hliteral : skipString (l ++ r) = none ∧ skipAnyLiteral (l ++ r) = some r := by
        simp only [literals, List.mem_cons, List.not_mem_nil, or_false] at h
        rcases h with rfl | rfl | rfl
        · exact ⟨skipString_of_ne (by decide) _, rfl⟩
        · exact ⟨skipString_of_ne (by decide) _, rfl⟩
        · exact ⟨skipString_of_ne (by decide) _, rfl⟩
      rw [skipAnyScalar, hliteral.1, hliteral.2]
      rfl
    | number h =>
      cases s with
      | nil => cases h
      | cons c s =>
        obtain ⟨hquote, hword⟩ := number_first h
        rw [skipAnyScalar, skipString_of_ne hquote, skipAnyLiteral_of_ne hword, skipNumber_eq, h]
        rfl

end Json.Core
