import TuyaDaemon.Json.Build

/-!
# Objects of strings and integers

A writer for objects whose values are strings of bytes and integers, and its reader; reading undoes writing
(`readScalars_scalarsText`).  Control characters are written as short escapes or as `\u00XX`, everything else but
the quote and the backslash as it is.
-/

namespace Json

inductive Scalar where
  | string (chars : List UInt8)
  | int (n : Int)
deriving DecidableEq, Repr

/-! ### Strings -/

def hexDigit (n : UInt8) : UInt8 := if n < 10 then 48 + n else 87 + n

def hexValue (c : UInt8) : UInt8 := if c < 58 then c - 48 else c - 87

/-- The letter of a short escape. -/
def shortEscape (c : UInt8) : Option UInt8 :=
  if c = dquote then some dquote
  else if c = backslash then some backslash
  else if c = 8 then some 98
  else if c = 9 then some 116
  else if c = 10 then some 110
  else if c = 12 then some 102
  else if c = 13 then some 114
  else none

/-- The character that a short escape stands for. -/
def unescapeChar (e : UInt8) : UInt8 :=
  if e = 98 then 8
  else if e = 116 then 9
  else if e = 110 then 10
  else if e = 102 then 12
  else if e = 114 then 13
  else e

def escapeChar (c : UInt8) : List UInt8 :=
  match shortEscape c with
  | some e => [backslash, e]
  | none => if c < 32 then [backslash, 117, 48, 48, hexDigit (c / 16), hexDigit (c % 16)] else [c]

def escape (s : List UInt8) : List UInt8 := s.flatMap escapeChar

def unescape : List UInt8 → List UInt8
  | c :: e :: s =>
    if c = backslash then
      if e = 117 then (16 * hexValue (s.getD 2 0) + hexValue (s.getD 3 0)) :: unescape (s.drop 4)
      else unescapeChar e :: unescape s
    else c :: unescape (e :: s)
  | s => s
termination_by s => s.length

/-- What a short escape looks like. -/
private theorem shortEscape_spec {c e : UInt8} (h : shortEscape c = some e) :
    e ∈ escapes ∧ e ≠ 117 ∧ unescapeChar e = c := by
  unfold shortEscape at h
  repeat' split at h
  all_goals
    cases h
    try
      rename_i hc
      subst hc
      decide

private theorem controlEscape_spec : ∀ n < 32, isHex (hexDigit (UInt8.ofNat n / 16)) = true ∧
    isHex (hexDigit (UInt8.ofNat n % 16)) = true ∧
    16 * hexValue (hexDigit (UInt8.ofNat n / 16)) + hexValue (hexDigit (UInt8.ofNat n % 16)) = UInt8.ofNat n := by
  decide

/-- The three shapes of an escaped character. -/
private theorem escapeChar_cases (c : UInt8) :
    (∃ e, escapeChar c = [backslash, e] ∧ e ∈ escapes ∧ e ≠ 117 ∧ unescapeChar e = c) ∨
      (∃ high low, escapeChar c = [backslash, 117, 48, 48, high, low] ∧ isHex high = true ∧ isHex low = true ∧
        16 * hexValue high + hexValue low = c) ∨
      (escapeChar c = [c] ∧ c ≠ dquote ∧ c ≠ backslash ∧ ¬ c < 32) := by
  have hc : UInt8.ofNat c.toNat = c := UInt8.ofNat_toNat
  cases hshort : shortEscape c with
  | some e =>
    left
    exact ⟨e, by simp [escapeChar, hshort], shortEscape_spec hshort⟩
  | none =>
    right
    by_cases hctl : c < 32
    · left
      have hspec := controlEscape_spec c.toNat (UInt8.lt_iff_toNat_lt.1 hctl)
      rw [hc] at hspec
      exact ⟨_, _, by simp [escapeChar, hshort, hctl], hspec⟩
    · right
      refine ⟨by simp [escapeChar, hshort, hctl], ?_, ?_, hctl⟩
      · rintro rfl
        exact absurd hshort (by decide)
      · rintro rfl
        exact absurd hshort (by decide)

private theorem unescape_short {e : UInt8} (he : e ≠ 117) (s : List UInt8) :
    unescape (backslash :: e :: s) = unescapeChar e :: unescape s := by
  rw [unescape, if_pos rfl, if_neg he]

private theorem unescape_control (a b high low : UInt8) (s : List UInt8) :
    unescape (backslash :: 117 :: a :: b :: high :: low :: s) = (16 * hexValue high + hexValue low) :: unescape s := by
  rw [unescape, if_pos rfl, if_pos rfl]
  rfl

private theorem unescape_plain {c : UInt8} (hc : c ≠ backslash) (s : List UInt8) :
    unescape (c :: s) = c :: unescape s := by
  cases s with
  | nil => simp [unescape]
  | cons d s => rw [unescape, if_neg hc]

theorem unescape_escapeChar_append (c : UInt8) (s : List UInt8) : unescape (escapeChar c ++ s) = c :: unescape s := by
  rcases escapeChar_cases c with ⟨e, h, -, hu, hc⟩ | ⟨high, low, h, -, -, hc⟩ | ⟨h, -, hb, -⟩
  · rw [h, ← hc]
    exact unescape_short hu s
  · rw [h, ← hc]
    exact unescape_control 48 48 high low s
  · rw [h]
    exact unescape_plain hb s

/-- Escaping is undone exactly. -/
theorem unescape_escape (s : List UInt8) : unescape (escape s) = s := by
  induction s with
  | nil => simp [escape, unescape]
  | cons c s ih =>
    rw [escape, List.flatMap_cons, unescape_escapeChar_append]
    exact congrArg (c :: ·) ih

private theorem stringTail_backslash (s : List UInt8) : stringTail .plain (backslash :: s) = stringTail .escape s := by
  rw [stringTail, if_neg (by decide), if_pos rfl]

private theorem stringTail_escapeChar_append (c : UInt8) (s : List UInt8) :
    stringTail .plain (escapeChar c ++ s) = stringTail .plain s := by
  rcases escapeChar_cases c with ⟨e, h, he, -, -⟩ | ⟨high, low, h, hhigh, hlow, -⟩ | ⟨h, hq, hb, hctl⟩
  · rw [h]
    show stringTail .plain (backslash :: e :: s) = _
    rw [stringTail_backslash, stringTail, if_pos he]
  · rw [h]
    show stringTail .plain (backslash :: 117 :: 48 :: 48 :: high :: low :: s) = _
    rw [stringTail_backslash, stringTail, if_neg (by decide), if_pos rfl]
    have hzero : isHex 48 = true := by decide
    simp only [stringTail, hzero, hhigh, hlow, ite_true]
  · rw [h]
    simp [stringTail, hq, hb, hctl]

theorem stringTail_escape (s r : List UInt8) : stringTail .plain (escape s ++ dquote :: r) = some r := by
  induction s with
  | nil => simp [escape, stringTail]
  | cons c s ih =>
    rw [escape, List.flatMap_cons, List.append_assoc, stringTail_escapeChar_append]
    exact ih

/-! ### Objects -/

def Scalar.text : Scalar → List UInt8
  | .string chars => dquote :: (escape chars ++ [dquote])
  | .int n => CLib.formatInt n

def readInt : List UInt8 → Int
  | c :: s => if c = 45 then -(CLib.digitsValue s : Int) else CLib.digitsValue (c :: s)
  | [] => 0

def Scalar.read : List UInt8 → Scalar
  | c :: s => if c = dquote then .string (unescape s.dropLast) else .int (readInt (c :: s))
  | [] => .int 0

def scalarsText (ms : List (List UInt8 × Scalar)) : List UInt8 := objectText (ms.map fun m => (m.1, m.2.text))

def readScalars (text : List UInt8) : Option (List (List UInt8 × Scalar)) :=
  (members text).map fun ms => ms.map fun m => (m.1, Scalar.read m.2)

theorem Scalar.valueText (v : Scalar) : ValueText v.text v.text := by
  cases v with
  | string chars => exact valueText_self rfl (.string (stringTail_escape chars []))
  | int n => exact valueText_formatInt n

private theorem readInt_formatInt (n : Int) : readInt (CLib.formatInt n) = n := by
  unfold CLib.formatInt
  by_cases hn : n < 0
  · rw [if_pos hn]
    show -(CLib.digitsValue (CLib.decimal n.natAbs) : Int) = n
    rw [CLib.digitsValue_decimal]
    omega
  · rw [if_neg hn]
    obtain ⟨c, l, h⟩ := List.exists_cons_of_ne_nil (CLib.decimal_ne_nil n.natAbs)
    have hc : c ≠ 45 := by
      rintro rfl
      exact absurd (CLib.decimal_digits (n := n.natAbs) (c := 45) (by simp [h])) (by decide)
    have hvalue := CLib.digitsValue_decimal n.natAbs
    rw [h] at hvalue ⊢
    simp only [readInt, hc, ite_false, hvalue]
    omega

theorem Scalar.read_text (v : Scalar) : Scalar.read v.text = v := by
  cases v with
  | string chars =>
    show Scalar.string (unescape (escape chars ++ [dquote]).dropLast) = _
    rw [List.dropLast_concat, unescape_escape]
  | int n =>
    obtain ⟨c, l, h, hc⟩ := formatInt_head n
    have hread := readInt_formatInt n
    show Scalar.read (CLib.formatInt n) = _
    rw [h] at hread ⊢
    simp only [Scalar.read, hc, ite_false, hread]

/-- Reading undoes writing. -/
theorem readScalars_scalarsText {ms : List (List UInt8 × Scalar)} (h : ∀ m ∈ ms, PlainKey m.1) :
    readScalars (scalarsText ms) = some ms := by
  have hread : (ms.map fun m => (m.1, m.2.text)).map (fun m : Member => (m.1, Scalar.read m.2)) = ms := by
    rw [List.map_map]
    conv_rhs => rw [← List.map_id ms]
    apply List.map_congr_left
    intro m _
    simp [Scalar.read_text]
  by_cases hne : ms = []
  · subst hne
    rfl
  · have htexts : MemberTexts (ms.map fun m => (m.1, m.2.text)) (ms.map fun m => (m.1, m.2.text)) := by
      clear hne hread
      induction ms with
      | nil => exact List.Forall₂.nil
      | cons m ms ih =>
        refine List.Forall₂.cons ⟨h m (by simp), rfl, m.2.valueText⟩ (ih ?_)
        intro m' hm'
        exact h m' (by simp [hm'])
    have hobj := objectText_isObject htexts (by simpa using hne)
    rw [readScalars, scalarsText, members_eq_some_iff.2 hobj, Option.map_some, hread]

end Json
