import TuyaDaemon.Json.CJsonParse
import TuyaDaemon.Json.CJsonPrint

/-!
# Printed trees are parsed back

`cJSON_Parse` reads what `cJSON_Print` and `cJSON_PrintUnformatted` write, up to the value of a number: the tree comes
back with its strings byte for byte, when it is nested at most as deep as the parser goes (`cJsonParse_print`).
-/

namespace TuyaDaemon.Printer

open CLib

/-! ### Numbers -/

/-- What follows does not continue a number. -/
def EndsNumber (rest : List UInt8) : Prop := ∀ c ∈ rest.head?, isNumberChar c = false

/-- What is in front of the rest is made of the characters that are copied. -/
def NumberChars (s r : List UInt8) : Prop := ∃ t, s = t ++ r ∧ ∀ c ∈ t, isNumberChar c = true

theorem NumberChars.refl (s : List UInt8) : NumberChars s s := ⟨[], rfl, fun _ hmem => absurd hmem List.not_mem_nil⟩

theorem NumberChars.cons {c : UInt8} {s r : List UInt8} (hc : isNumberChar c = true) (h : NumberChars s r) :
    NumberChars (c :: s) r := by
  obtain ⟨t, rfl, ht⟩ := h
  exact ⟨c :: t, rfl, List.forall_mem_cons.2 ⟨hc, ht⟩⟩

theorem NumberChars.trans {s r r' : List UInt8} (h : NumberChars s r) (h' : NumberChars r r') : NumberChars s r' := by
  obtain ⟨t, rfl, ht⟩ := h
  obtain ⟨t', rfl, ht'⟩ := h'
  exact ⟨t ++ t', (List.append_assoc _ _ _).symm, fun c hc => (List.mem_append.1 hc).elim (ht c) (ht' c)⟩

theorem isNumberChar_digit {c : UInt8} (h : Json.isDigit c = true) : isNumberChar c = true := by
  simp [isNumberChar, h]

theorem numberChars_dropDigits (s : List UInt8) : NumberChars s (Json.dropDigits s) := by
  refine ⟨s.takeWhile Json.isDigit, (List.takeWhile_append_dropWhile).symm, fun c hc => ?_⟩
  exact isNumberChar_digit (List.mem_takeWhile_imp hc)

theorem numberChars_fracPart (s : List UInt8) : NumberChars s (Json.fracPart s) := by
  unfold Json.fracPart
  split
  · rename_i p c s
    split
    · rename_i h
      refine .cons ?_ (.cons (isNumberChar_digit h.2) (numberChars_dropDigits s))
      rw [h.1]
      decide
    · exact .refl _
  · exact .refl _

theorem numberChars_expPart (s : List UInt8) : NumberChars s (Json.expPart s) := by
  cases s with
  | nil => exact .refl _
  | cons e s =>
    rw [Json.expPart]
    split
    · rename_i he
      have hexp : isNumberChar e = true := by
        rcases he with rfl | rfl <;> decide
      have hsign : NumberChars s (Json.expSign s) := by
        cases s with
        | nil => exact .refl _
        | cons c s =>
          rw [Json.expSign]
          split
          · rename_i hc
            refine .cons ?_ (.refl _)
            rcases hc with rfl | rfl <;> decide
          · exact .refl _
      split
      · rename_i c s' heq
        split
        · rename_i hdigit
          rw [heq] at hsign
          exact .cons hexp (hsign.trans (.cons (isNumberChar_digit hdigit) (numberChars_dropDigits s')))
        · exact .refl _
      · exact .refl _
    · exact .refl _

theorem numberChars_intPart {s r : List UInt8} (h : Json.intPart s = some r) : NumberChars s r := by
  cases s with
  | nil => cases h
  | cons c s =>
    rw [Json.intPart] at h
    split at h
    · rename_i hc
      obtain rfl := Option.some.inj h
      exact .cons (by rw [hc]; decide) (.refl _)
    · split at h
      · rename_i hdigit
        obtain rfl := Option.some.inj h
        exact .cons (isNumberChar_digit hdigit) (numberChars_dropDigits s)
      · cases h

/-- The digits in front of the fraction, for `strtod` and in JSON. -/
theorem fraction_of_intPart {u v : List UInt8} (h : Json.intPart u = some v)
    (hend : Json.expPart (Json.fracPart v) = []) :
    u.dropWhile Json.isDigit = v ∧ u.takeWhile Json.isDigit ≠ [] := by
  cases u with
  | nil => cases h
  | cons c s =>
    rw [Json.intPart] at h
    split at h
    · rename_i hc
      obtain rfl := Option.some.inj h
      subst hc
      have hdigit : Json.isDigit 48 = true := by decide
      rw [List.dropWhile_cons_of_pos hdigit, List.takeWhile_cons_of_pos hdigit]
      refine ⟨?_, List.cons_ne_nil _ _⟩
      -- no digit follows a leading zero
      cases s with
      | nil => rfl
      | cons d s =>
        refine List.dropWhile_cons_of_neg fun hd => ?_
        have hd46 : d ≠ 46 ∧ ¬ (d = 101 ∨ d = 69) := by
          constructor
          · rintro rfl
            exact absurd hd (by decide)
          · rintro (rfl | rfl) <;> exact absurd hd (by decide)
        have hfrac : Json.fracPart (d :: s) = d :: s := by
          cases s with
          | nil => rfl
          | cons e s => exact if_neg fun hboth => hd46.1 hboth.1
        rw [hfrac, Json.expPart, if_neg hd46.2] at hend
        cases hend
    · split at h
      · rename_i hdigit
        obtain rfl := Option.some.inj h
        rw [List.dropWhile_cons_of_pos hdigit, List.takeWhile_cons_of_pos hdigit]
        exact ⟨rfl, List.cons_ne_nil _ _⟩
      · cases h

/-- A JSON number: its characters are copied, and `strtod` takes all of them. -/
theorem strtodEnd_number {t : List UInt8} (h : Json.number t = some []) :
    (∀ c ∈ t, isNumberChar c = true) ∧ strtodEnd t = some [] := by
  -- behind the sign
  obtain ⟨u, v, hu, hv, hend, hsign⟩ : ∃ u v, Json.expSign t = u ∧ Json.intPart u = some v ∧
      Json.expPart (Json.fracPart v) = [] ∧ NumberChars t u := by
    cases t with
    | nil => cases h
    | cons c s =>
      obtain ⟨v, hv, hend⟩ := Option.map_eq_some_iff.1 h
      split at hv
      · rename_i hc
        subst hc
        exact ⟨s, v, rfl, hv, hend, .cons (by decide) (.refl _)⟩
      · rename_i hminus
        refine ⟨c :: s, v, ?_, hv, hend, .refl _⟩
        refine if_neg ?_
        rintro (rfl | rfl)
        · cases hv
        · exact hminus rfl
  have hchars : NumberChars t [] := by
    have hall := hsign.trans ((numberChars_intPart hv).trans ((numberChars_fracPart v).trans (numberChars_expPart _)))
    rwa [hend] at hall
  obtain ⟨t', ht', hcopied⟩ := hchars
  rw [List.append_nil] at ht'
  subst ht'
  refine ⟨hcopied, ?_⟩
  obtain ⟨hfraction, hdigits⟩ := fraction_of_intPart hv hend
  simp only [strtodEnd, hu, hfraction, hdigits, ne_eq, not_false_eq_true, true_or, ite_true]
  split
  · rename_i digits
    cases digits with
    | nil => exact absurd hend (by decide)
    | cons c s =>
      by_cases hc : Json.isDigit c = true
      · rw [Json.fracPart, if_pos ⟨rfl, hc⟩] at hend
        rw [List.dropWhile_cons_of_pos hc]
        exact congrArg some hend
      · rw [Json.fracPart, if_neg (fun hboth => hc hboth.2), Json.expPart, if_neg (by decide)] at hend
        cases hend
  · rename_i hpoint
    have hfrac : Json.fracPart v = v := by
      unfold Json.fracPart
      split
      · exact if_neg fun hboth => hpoint _ (by rw [hboth.1])
      · rfl
    rw [hfrac] at hend
    exact congrArg some hend

theorem parseNumber_text {t rest : List UInt8} (h : Json.number t = some []) (hshort : t.length ≤ 24)
    (hrest : EndsNumber rest) : parseNumber (t ++ rest) = some rest := by
  obtain ⟨hchars, hstrtod⟩ := strtodEnd_number h
  have hcopied : ((t ++ rest).take 63).takeWhile isNumberChar = t := by
    rw [List.take_append, List.take_of_length_le (by omega), List.takeWhile_append_of_pos hchars]
    have hnone : (rest.take (63 - t.length)).takeWhile isNumberChar = [] := by
      obtain ⟨n, hn⟩ : ∃ n, 63 - t.length = n + 1 := ⟨62 - t.length, by omega⟩
      rw [hn]
      cases rest with
      | nil => rfl
      | cons c rest =>
        have hc : isNumberChar c = false := hrest c rfl
        rw [List.take_succ_cons, List.takeWhile_cons_of_neg (by rw [hc]; exact Bool.false_ne_true)]
    rw [hnone, List.append_nil]
  rw [parseNumber, hcopied, hstrtod, Option.map_some, List.length_nil, Nat.sub_zero, List.drop_left]

/-! ### Strings -/

theorem closingQuoteFrom_plain {t : List UInt8} (h : ∀ c ∈ t, c ≠ Json.dquote ∧ c ≠ Json.backslash) (u : List UInt8) :
    closingQuoteFrom false (t ++ u) = (closingQuoteFrom false u).map fun p => (t ++ p.1, p.2) := by
  induction t with
  | nil =>
    rw [List.nil_append]
    cases closingQuoteFrom false u <;> rfl
  | cons c t ih =>
    obtain ⟨⟨hquote, hslash⟩, ht⟩ := List.forall_mem_cons.1 h
    rw [List.cons_append, closingQuoteFrom, if_neg hquote, beq_false_of_ne hslash, ih ht, Option.map_map]
    rfl

private theorem hexDigit_plain : ∀ n < 16, hexDigit n ≠ Json.dquote ∧ hexDigit n ≠ Json.backslash := by
  decide

theorem hexByte_plain (b : UInt8) : ∀ c ∈ bytes "00" ++ hexByte b, c ≠ Json.dquote ∧ c ≠ Json.backslash := by
  have hlt := b.toNat_lt
  intro c hc
  rcases List.mem_append.1 hc with hc | hc
  · have hzeros : bytes "00" = [48, 48] := rfl
    obtain rfl : c = 48 := by simpa [hzeros] using hc
    decide
  · rw [hexByte, List.mem_cons, List.mem_singleton] at hc
    rcases hc with rfl | rfl
    · exact hexDigit_plain (b.toNat / 16) (by omega)
    · exact hexDigit_plain (b.toNat % 16) (by omega)

/-- An escaped character does not end the string. -/
theorem closingQuoteFrom_escapeChar (c : UInt8) (u : List UInt8) :
    closingQuoteFrom false (Json.escapeChar c ++ u) =
      (closingQuoteFrom false u).map fun p => (Json.escapeChar c ++ p.1, p.2) := by
  have hslash : ∀ e u, closingQuoteFrom false (Json.backslash :: e :: u) =
      (closingQuoteFrom false u).map fun p => (Json.backslash :: e :: p.1, p.2) := by
    intro e u
    rw [closingQuoteFrom, if_neg (by decide), show (Json.backslash == Json.backslash) = true from rfl, closingQuoteFrom,
      Option.map_map]
    rfl
  rcases printedChar_cases c with ⟨⟨-, hquote, hbackslash⟩, hchar⟩ | ⟨-, ⟨e, -, hchar⟩ | ⟨-, -, hchar⟩⟩
  · rw [hchar]
    exact closingQuoteFrom_plain (List.forall_mem_singleton.2 ⟨hquote, hbackslash⟩) u
  · rw [hchar]
    exact hslash e u
  · have hsplit : Json.escapeChar c = Json.backslash :: 117 :: (bytes "00" ++ hexByte c) := hchar
    rw [hsplit, List.cons_append, List.cons_append, hslash, closingQuoteFrom_plain (hexByte_plain c), Option.map_map]
    rfl

theorem closingQuoteFrom_escape (s rest : List UInt8) :
    closingQuoteFrom false (Json.escape s ++ Json.dquote :: rest) = some (Json.escape s, rest) := by
  induction s with
  | nil => rfl
  | cons c s ih =>
    have hcons : Json.escape (c :: s) = Json.escapeChar c ++ Json.escape s := rfl
    rw [hcons, List.append_assoc, closingQuoteFrom_escapeChar, ih]
    rfl

theorem escapeSequence_short {c e : UInt8} (h : Json.shortEscape c = some e) (u : List UInt8) :
    escapeSequence (e :: u) = some ([c], 2) := by
  unfold Json.shortEscape at h
  repeat' split at h
  all_goals
    cases h
    try
      rename_i hc
      subst hc
      rfl

private theorem controlCode : ∀ n : Fin 32, ¬ (0xDC00 ≤ parseHex4 (bytes "00" ++ hexByte (UInt8.ofNat n)) ∧
      parseHex4 (bytes "00" ++ hexByte (UInt8.ofNat n)) ≤ 0xDFFF) ∧
    ¬ (0xD800 ≤ parseHex4 (bytes "00" ++ hexByte (UInt8.ofNat n)) ∧
      parseHex4 (bytes "00" ++ hexByte (UInt8.ofNat n)) ≤ 0xDBFF) ∧
    encodeUtf8 (parseHex4 (bytes "00" ++ hexByte (UInt8.ofNat n))) = some [UInt8.ofNat n] := by
  decide

theorem escapeSequence_control {c : UInt8} (h : c.toNat < 32) (u : List UInt8) :
    escapeSequence (bytes "u00" ++ hexByte c ++ u) = some ([c], 6) := by
  have hcode := controlCode ⟨c.toNat, h⟩
  rw [UInt8.ofNat_toNat] at hcode
  obtain ⟨hlow, hhigh, hencode⟩ := hcode
  have hparse : parseHex4 (bytes "00" ++ hexByte c ++ u) = parseHex4 (bytes "00" ++ hexByte c) := rfl
  have hlength : ¬ (bytes "u00" ++ hexByte c ++ u).length < 5 := by
    rw [List.length_append]
    exact Nat.not_lt.2 (Nat.le_add_right 5 _)
  have hdrop : (bytes "u00" ++ hexByte c ++ u).drop 1 = bytes "00" ++ hexByte c ++ u := rfl
  have hsequence : escapeSequence (bytes "u00" ++ hexByte c ++ u) =
      utf16LiteralToUtf8 (bytes "u00" ++ hexByte c ++ u) := rfl
  rw [hsequence, utf16LiteralToUtf8, if_neg hlength, hdrop, hparse]
  dsimp only
  rw [if_neg hlow, if_neg hhigh, hencode]
  rfl

/-- The parser undoes the escape of a character. -/
theorem unescapeFrom_escapeChar (c : UInt8) (u : List UInt8) :
    unescapeFrom 0 (Json.escapeChar c ++ u) = (unescapeFrom 0 u).map (c :: ·) := by
  rcases printedChar_cases c with ⟨⟨-, -, hslash⟩, hchar⟩ | ⟨-, ⟨e, hshort, hchar⟩ | ⟨hlow, -, hchar⟩⟩
  · rw [hchar, List.singleton_append, unescapeFrom, if_pos hslash]
  · rw [hchar, List.cons_append, List.singleton_append, unescapeFrom, if_neg (not_not_intro rfl),
      escapeSequence_short hshort, Option.bind_some]
    rfl
  · rw [hchar, List.cons_append, unescapeFrom, if_neg (not_not_intro rfl), escapeSequence_control hlow, Option.bind_some]
    rfl

theorem unescapeFrom_escape (s : List UInt8) : unescapeFrom 0 (Json.escape s) = some s := by
  induction s with
  | nil => rfl
  | cons c s ih =>
    have hcons : Json.escape (c :: s) = Json.escapeChar c ++ Json.escape s := rfl
    rw [hcons, unescapeFrom_escapeChar, ih]
    rfl

/-- The string that is read; it is never `NULL`. -/
def readString : Option NulFree → List UInt8
  | none => []
  | some s => s.1

theorem parseString_text (input : Option NulFree) (rest : List UInt8) :
    parseString (stringText input ++ rest) = some (readString input, rest) := by
  cases input with
  | none => rfl
  | some s =>
    have hsplit : stringText (some s) ++ rest = Json.dquote :: (Json.escape s.1 ++ Json.dquote :: rest) := by
      simp [stringText]
    rw [hsplit, parseString, if_neg (not_not_intro rfl), closingQuoteFrom_escape, Option.bind_some, unescapeFrom_escape]
    rfl

/-! ### Blanks -/

/-- What the parser skips. -/
def Blank (w : List UInt8) : Prop := ∀ b ∈ w, b ≤ 32

theorem Blank.append {w w' : List UInt8} (h : Blank w) (h' : Blank w') : Blank (w ++ w') := by
  intro b hb
  exact (List.mem_append.1 hb).elim (h b) (h' b)

theorem blank_whenFormatted {w : List UInt8} (h : Blank w) (format : Bool) : Blank (whenFormatted format w) := by
  cases format with
  | false => exact fun b hb => absurd hb List.not_mem_nil
  | true => exact h

theorem blank_byte {b : UInt8} (h : b ≤ 32) (format : Bool) : Blank (whenFormatted format [b]) :=
  blank_whenFormatted (List.forall_mem_singleton.2 h) format

theorem blank_newline (format : Bool) : Blank (whenFormatted format [10]) := blank_byte (by decide) format

theorem blank_tabs (format : Bool) (depth : Nat) : Blank (tabs format depth) := by
  refine blank_whenFormatted (fun b hb => ?_) format
  rw [List.eq_of_mem_replicate hb]
  decide

theorem skip_blank {w : List UInt8} (h : Blank w) (s : List UInt8) :
    bufferSkipWhitespace (w ++ s) = bufferSkipWhitespace s :=
  List.dropWhile_append_of_pos fun b hb => decide_eq_true (h b hb)

theorem skip_none {c : UInt8} (h : 32 < c) (s : List UInt8) : bufferSkipWhitespace (c :: s) = c :: s := by
  refine List.dropWhile_cons_of_neg ?_
  rw [decide_eq_true_eq]
  exact UInt8.not_le.2 h

/-- A text whose first character starts a value. -/
def Starts (t : List UInt8) : Prop := ∃ c s, t = c :: s ∧ 32 < c ∧ c ≠ Json.rbracket ∧ c ≠ 0xEF

theorem Starts.skip {t : List UInt8} (h : Starts t) (s : List UInt8) : bufferSkipWhitespace (t ++ s) = t ++ s := by
  obtain ⟨c, t, rfl, hc, -⟩ := h
  exact skip_none hc (t ++ s)

theorem Starts.append {t : List UInt8} (h : Starts t) (u : List UInt8) : Starts (t ++ u) := by
  obtain ⟨c, s, rfl, hc⟩ := h
  exact ⟨c, s ++ u, rfl, hc⟩

theorem starts_number {t : List UInt8} (h : Json.number t = some []) :
    ∃ c s, t = c :: s ∧ (c = 45 ∨ Json.isDigit c = true) := by
  cases t with
  | nil => cases h
  | cons c s =>
    refine ⟨c, s, rfl, or_iff_not_imp_left.2 fun hminus => ?_⟩
    obtain ⟨v, hv, -⟩ := Option.map_eq_some_iff.1 h
    rw [if_neg hminus, Json.intPart] at hv
    split at hv
    · rename_i hzero
      rw [hzero]
      decide
    · split at hv
      · rename_i hdigit
        exact hdigit
      · cases hv

theorem digit_bounds {c : UInt8} (h : Json.isDigit c = true) : 48 ≤ c.toNat ∧ c.toNat ≤ 57 := by
  obtain ⟨hlow, hhigh⟩ := of_decide_eq_true h
  exact ⟨UInt8.le_iff_toNat_le.1 hlow, UInt8.le_iff_toNat_le.1 hhigh⟩

/-! ### Trees -/

section Trees

variable {Val : Type} (double : DoubleFormat Val)

mutual

/-- What the parser makes of the text: a number that is not finite is printed as `null`. -/
def CJsonNode.item : CJsonNode Val → CJsonItem
  | .null => .null
  | .false => .false
  | .true => .true
  | .number x => if double.finite x then .number else .null
  | .string s => .string (readString s)
  | .array items => .array (elementItems items)
  | .object members => .object (memberItems members)
termination_by structural node => node

def elementItems : List (CJsonNode Val) → List CJsonItem
  | [] => []
  | item :: items => item.item :: elementItems items
termination_by structural items => items

def memberItems : List (Option NulFree × CJsonNode Val) → List (List UInt8 × CJsonItem)
  | [] => []
  | member :: members => (readString member.1, member.2.item) :: memberItems members
termination_by structural members => members

end

mutual

/-- How deep a tree is nested. -/
def CJsonNode.height : CJsonNode Val → Nat
  | .array items => elementsHeight items + 1
  | .object members => membersHeight members + 1
  | _ => 0
termination_by structural node => node

def elementsHeight : List (CJsonNode Val) → Nat
  | [] => 0
  | item :: items => max item.height (elementsHeight items)
termination_by structural items => items

def membersHeight : List (Option NulFree × CJsonNode Val) → Nat
  | [] => 0
  | member :: members => max member.2.height (membersHeight members)
termination_by structural members => members

end

end Trees

/-- With enough fuel the parser takes `t` off the front and leaves `rest`. -/
def Reads {α : Type} (parser : Nat → Parser α) (t rest : List UInt8) (x : α) : Prop :=
  ∃ n, ∀ fuel, n ≤ fuel → parser fuel (t ++ rest) = some (x, rest)

section Steps

variable {Val : Type} {double : DoubleFormat Val} {format : Bool} {array object value : Parser CJsonItem}

/-- A value that is no literal. -/
theorem parseValueWith_cons {c : UInt8} (h : c ≠ 110 ∧ c ≠ 102 ∧ c ≠ 116) (rest : List UInt8) :
    parseValueWith array object (c :: rest) =
      if c = Json.dquote then (parseString (c :: rest)).map fun p => (.string p.1, p.2)
      else if c = 45 ∨ Json.isDigit c = true then (parseNumber (c :: rest)).map fun r => (.number, r)
      else if c = Json.lbracket then array rest
      else if c = Json.lbrace then object rest
      else none := by
  obtain ⟨hn, hf, ht⟩ := h
  have hnull : ¬ bytes "null" <+: c :: rest := fun hprefix => hn (List.cons_prefix_cons.1 hprefix).1.symm
  have hfalse : ¬ bytes "false" <+: c :: rest := fun hprefix => hf (List.cons_prefix_cons.1 hprefix).1.symm
  have htrue : ¬ bytes "true" <+: c :: rest := fun hprefix => ht (List.cons_prefix_cons.1 hprefix).1.symm
  rw [parseValueWith, if_neg hnull, if_neg hfalse, if_neg htrue]

theorem parseValueWith_null (rest : List UInt8) :
    parseValueWith array object (bytes "null" ++ rest) = some (.null, rest) := by
  unfold parseValueWith
  rw [if_pos (List.prefix_append _ _)]
  rfl

theorem parseValueWith_false (rest : List UInt8) :
    parseValueWith array object (bytes "false" ++ rest) = some (.false, rest) := by
  have hnull : ¬ bytes "null" <+: bytes "false" ++ rest := fun hprefix =>
    absurd (List.cons_prefix_cons.1 hprefix).1 (by decide)
  unfold parseValueWith
  rw [if_neg hnull, if_pos (List.prefix_append _ _)]
  rfl

theorem parseValueWith_true (rest : List UInt8) :
    parseValueWith array object (bytes "true" ++ rest) = some (.true, rest) := by
  have hnull : ¬ bytes "null" <+: bytes "true" ++ rest := fun hprefix =>
    absurd (List.cons_prefix_cons.1 hprefix).1 (by decide)
  have hfalse : ¬ bytes "false" <+: bytes "true" ++ rest := fun hprefix =>
    absurd (List.cons_prefix_cons.1 hprefix).1 (by decide)
  unfold parseValueWith
  rw [if_neg hnull, if_neg hfalse, if_pos (List.prefix_append _ _)]
  rfl

theorem parseValueWith_string (input : Option NulFree) (rest : List UInt8) :
    parseValueWith array object (stringText input ++ rest) = some (.string (readString input), rest) := by
  have hparse := parseString_text input rest
  have hquote : ∃ t, stringText input ++ rest = Json.dquote :: t := by
    cases input with
    | none => exact ⟨_, rfl⟩
    | some s => exact ⟨_, rfl⟩
  obtain ⟨t, ht⟩ := hquote
  rw [ht] at hparse ⊢
  rw [parseValueWith_cons (by decide), if_pos rfl, hparse]
  rfl

theorem parseValueWith_number {t rest : List UInt8} (h : Json.number t = some []) (hshort : t.length ≤ 24)
    (hrest : EndsNumber rest) : parseValueWith array object (t ++ rest) = some (.number, rest) := by
  have hparse := parseNumber_text h hshort hrest
  obtain ⟨c, s, rfl, hc⟩ := starts_number h
  have hbounds : c.toNat = 45 ∨ 48 ≤ c.toNat ∧ c.toNat ≤ 57 := hc.imp (congrArg UInt8.toNat) digit_bounds
  have hne : ∀ b : UInt8, b.toNat < 45 ∨ 57 < b.toNat → c ≠ b := by
    rintro b hb rfl
    omega
  rw [List.cons_append, parseValueWith_cons ⟨hne 110 (by decide), hne 102 (by decide), hne 116 (by decide)⟩,
    if_neg (hne Json.dquote (by decide)), if_pos hc, ← List.cons_append, hparse]
  rfl

theorem starts_value (hdouble : double.Documented) (depth : Nat) (node : CJsonNode Val) :
    Starts (node.text double format depth) := by
  cases node with
  | null => exact ⟨110, bytes "ull", rfl, by decide, by decide, by decide⟩
  | false => exact ⟨102, bytes "alse", rfl, by decide, by decide, by decide⟩
  | true => exact ⟨116, bytes "rue", rfl, by decide, by decide, by decide⟩
  | number x =>
    have hnumber : ∀ digits ∈ [15, 17], double.finite x = true → Starts (double.precise digits x) := by
      intro digits hdigits hfinite
      obtain ⟨c, s, heq, hc⟩ := starts_number (hdouble.number digits hdigits x hfinite)
      have hbounds : c.toNat = 45 ∨ 48 ≤ c.toNat ∧ c.toNat ≤ 57 := hc.imp (congrArg UInt8.toNat) digit_bounds
      refine ⟨c, s, heq, UInt8.lt_iff_toNat_lt.2 ?_, ?_, ?_⟩
      · have h32 : (32 : UInt8).toNat = 32 := rfl
        omega
      · rintro rfl
        exact absurd hbounds (by decide)
      · rintro rfl
        exact absurd hbounds (by decide)
    rw [CJsonNode.text, DoubleFormat.text]
    split
    · rename_i hfinite
      split
      · exact hnumber 15 (by decide) hfinite
      · exact hnumber 17 (by decide) hfinite
    · exact ⟨110, bytes "ull", rfl, by decide, by decide, by decide⟩
  | string s =>
    cases s with
    | none => exact ⟨Json.dquote, _, rfl, by decide, by decide, by decide⟩
    | some s => exact ⟨Json.dquote, _, rfl, by decide, by decide, by decide⟩
  | array items => exact ⟨Json.lbracket, _, rfl, by decide, by decide, by decide⟩
  | object members => exact ⟨Json.lbrace, _, rfl, by decide, by decide, by decide⟩

theorem parseValueWith_double (hdouble : double.Documented) (x : Val) {rest : List UInt8} (hrest : EndsNumber rest) :
    parseValueWith array object (double.text x ++ rest) =
      some (if double.finite x then .number else .null, rest) := by
  rw [DoubleFormat.text]
  split
  · rename_i hfinite
    split
    · exact parseValueWith_number (hdouble.number 15 (by decide) x hfinite)
        (hdouble.short 15 (by decide) x hfinite) hrest
    · exact parseValueWith_number (hdouble.number 17 (by decide) x hfinite)
        (hdouble.short 17 (by decide) x hfinite) hrest
  · exact parseValueWith_null rest

theorem endsNumber_cons {c : UInt8} (h : isNumberChar c = false) (rest : List UInt8) : EndsNumber (c :: rest) := by
  rintro b hb
  obtain rfl := Option.some.inj hb
  exact h

/-- A scalar, whatever the fuel. -/
theorem reads_scalar {k : Nat} {t rest : List UInt8} {item : CJsonItem}
    (h : ∀ array object, parseValueWith array object (t ++ rest) = some (item, rest)) :
    Reads (fun fuel => parseValue fuel k) t rest item := by
  refine ⟨1, ?_⟩
  rintro (_ | fuel) hfuel
  · omega
  · exact h (parseArray fuel k) (parseObject fuel k)

theorem reads_emptyArray {k : Nat} (hk : k < cJsonNestingLimit) (rest : List UInt8) :
    Reads (fun fuel => parseValue fuel k) [Json.lbracket, Json.rbracket] rest (.array []) := by
  refine ⟨2, ?_⟩
  rintro (_ | _ | fuel) hfuel
  · omega
  · omega
  · show parseValueWith (parseArrayWith k _) _ (Json.lbracket :: Json.rbracket :: rest) = _
    rw [parseValueWith_cons (by decide), if_neg (by decide), if_neg (by decide), if_pos rfl, parseArrayWith,
      if_neg (Nat.not_le.2 hk), skip_none (by decide)]
    rfl

/-- An array from its elements and the bracket behind them. -/
theorem reads_array {k : Nat} (hk : k < cJsonNestingLimit) {t rest : List UInt8} {items : List CJsonItem}
    (ht : Starts t) (h : Reads (fun fuel => parseElements fuel (k + 1)) t rest items) :
    Reads (fun fuel => parseValue fuel k) (Json.lbracket :: t) rest (.array items) := by
  obtain ⟨n, h⟩ := h
  refine ⟨n + 2, ?_⟩
  rintro (_ | _ | fuel) hfuel
  · omega
  · omega
  · have helements : parseElements fuel (k + 1) (t ++ rest) = some (items, rest) := h fuel (by omega)
    have hskip := ht.skip rest
    obtain ⟨c, s, rfl, -, hc, -⟩ := ht
    show parseValueWith (parseArrayWith k (parseElements fuel (k + 1))) _ (Json.lbracket :: (c :: s ++ rest)) = _
    rw [parseValueWith_cons (by decide), if_neg (by decide), if_neg (by decide), if_pos rfl, parseArrayWith,
      if_neg (Nat.not_le.2 hk), hskip]
    simp only [List.cons_append, if_neg hc] at helements ⊢
    rw [helements]
    rfl

/-- The last element and the bracket. -/
theorem reads_lastElement {k : Nat} {t rest : List UInt8} {item : CJsonItem}
    (h : Reads (fun fuel => parseValue fuel k) t (Json.rbracket :: rest) item) :
    Reads (fun fuel => parseElements fuel k) (t ++ [Json.rbracket]) rest [item] := by
  obtain ⟨n, h⟩ := h
  refine ⟨n + 1, ?_⟩
  rintro (_ | fuel) hfuel
  · omega
  · have hvalue : parseValue fuel k (t ++ Json.rbracket :: rest) = some (item, Json.rbracket :: rest) := h fuel (by omega)
    show parseElementsWith (parseValue fuel k) _ (t ++ [Json.rbracket] ++ rest) = _
    rw [List.append_assoc, List.singleton_append, parseElementsWith, hvalue, Option.bind_some, skip_none (by decide)]
    rfl

/-- An element, a comma and the other elements. -/
theorem reads_element {k : Nat} {t w t' rest : List UInt8} {item : CJsonItem} {items : List CJsonItem} (hw : Blank w)
    (ht' : Starts t') (h : Reads (fun fuel => parseValue fuel k) t (Json.comma :: (w ++ (t' ++ rest))) item)
    (h' : Reads (fun fuel => parseElements fuel k) t' rest items) :
    Reads (fun fuel => parseElements fuel k) (t ++ Json.comma :: (w ++ t')) rest (item :: items) := by
  obtain ⟨n, h⟩ := h
  obtain ⟨n', h'⟩ := h'
  refine ⟨max n n' + 1, ?_⟩
  rintro (_ | fuel) hfuel
  · omega
  · have hvalue : parseValue fuel k (t ++ Json.comma :: (w ++ (t' ++ rest))) =
        some (item, Json.comma :: (w ++ (t' ++ rest))) := h fuel (by omega)
    have helements : parseElements fuel k (t' ++ rest) = some (items, rest) := h' fuel (by omega)
    show parseElementsWith (parseValue fuel k) (parseElements fuel k) _ = _
    rw [List.append_assoc, List.cons_append, List.append_assoc, parseElementsWith, hvalue, Option.bind_some,
      skip_none (by decide)]
    dsimp only
    rw [if_pos rfl, skip_blank hw, ht'.skip, helements]
    rfl

theorem reads_emptyObject {k : Nat} (hk : k < cJsonNestingLimit) {w : List UInt8} (hw : Blank w) (rest : List UInt8) :
    Reads (fun fuel => parseValue fuel k) (Json.lbrace :: (w ++ [Json.rbrace])) rest (.object []) := by
  refine ⟨2, ?_⟩
  rintro (_ | _ | fuel) hfuel
  · omega
  · omega
  · show parseValueWith _ (parseObjectWith k _) (Json.lbrace :: (w ++ [Json.rbrace] ++ rest)) = _
    rw [parseValueWith_cons (by decide), if_neg (by decide), if_neg (by decide), if_neg (by decide), if_pos rfl,
      parseObjectWith, if_neg (Nat.not_le.2 hk), List.append_assoc, skip_blank hw, List.singleton_append,
      skip_none (by decide)]
    rfl

/-- A text whose first character opens a key. -/
def StartsKey (t : List UInt8) : Prop := ∃ s, t = Json.dquote :: s

theorem startsKey_stringText (input : Option NulFree) (t : List UInt8) : StartsKey (stringText input ++ t) := by
  cases input with
  | none => exact ⟨_, rfl⟩
  | some s => exact ⟨_, rfl⟩

theorem StartsKey.skip {t : List UInt8} (h : StartsKey t) (s : List UInt8) : bufferSkipWhitespace (t ++ s) = t ++ s := by
  obtain ⟨t, rfl⟩ := h
  exact skip_none (by decide) (t ++ s)

/-- An object from its members and the brace behind them. -/
theorem reads_object {k : Nat} (hk : k < cJsonNestingLimit) {w t rest : List UInt8}
    {members : List (List UInt8 × CJsonItem)} (hw : Blank w) (ht : StartsKey t)
    (h : Reads (fun fuel => parseMembers fuel (k + 1)) t rest members) :
    Reads (fun fuel => parseValue fuel k) (Json.lbrace :: (w ++ t)) rest (.object members) := by
  obtain ⟨n, h⟩ := h
  refine ⟨n + 2, ?_⟩
  rintro (_ | _ | fuel) hfuel
  · omega
  · omega
  · have hmembers : parseMembers fuel (k + 1) (t ++ rest) = some (members, rest) := h fuel (by omega)
    have hskip := ht.skip rest
    obtain ⟨s, rfl⟩ := ht
    show parseValueWith _ (parseObjectWith k (parseMembers fuel (k + 1)))
      (Json.lbrace :: (w ++ Json.dquote :: s ++ rest)) = _
    rw [parseValueWith_cons (by decide), if_neg (by decide), if_neg (by decide), if_neg (by decide), if_pos rfl,
      parseObjectWith, if_neg (Nat.not_le.2 hk), List.append_assoc, skip_blank hw, hskip]
    simp only [List.cons_append] at hmembers ⊢
    rw [if_neg (by decide), hmembers]
    rfl

theorem parseMemberValue_text {k fuel : Nat} {w t rest : List UInt8} {item : CJsonItem} (hw : Blank w) (ht : Starts t)
    (h : parseValue fuel k (t ++ rest) = some (item, rest)) :
    parseMemberValue (parseValue fuel k) (Json.colon :: (w ++ (t ++ rest))) = some (item, rest) := by
  rw [parseMemberValue, skip_none (by decide)]
  dsimp only
  rw [if_pos rfl, skip_blank hw, ht.skip, h]

/-- The last member and the brace. -/
theorem reads_lastMember {k : Nat} {key : Option NulFree} {w t w' rest : List UInt8} {item : CJsonItem} (hw : Blank w)
    (ht : Starts t) (hw' : Blank w')
    (h : Reads (fun fuel => parseValue fuel k) t (w' ++ Json.rbrace :: rest) item) :
    Reads (fun fuel => parseMembers fuel k) (stringText key ++ Json.colon :: (w ++ (t ++ (w' ++ [Json.rbrace])))) rest
      [(readString key, item)] := by
  obtain ⟨n, h⟩ := h
  refine ⟨n + 1, ?_⟩
  rintro (_ | fuel) hfuel
  · omega
  · have hvalue := parseMemberValue_text hw ht (h fuel (by omega))
    show parseMembersWith (parseValue fuel k) _ _ = _
    simp only [List.append_assoc, List.cons_append, List.nil_append]
    rw [parseMembersWith, parseString_text, Option.bind_some, hvalue, Option.bind_some, skip_blank hw',
      skip_none (by decide)]
    rfl

/-- A member, a comma and the other members. -/
theorem reads_member {k : Nat} {key : Option NulFree} {w t w' t' rest : List UInt8} {item : CJsonItem}
    {members : List (List UInt8 × CJsonItem)} (hw : Blank w) (ht : Starts t) (hw' : Blank w') (ht' : StartsKey t')
    (h : Reads (fun fuel => parseValue fuel k) t (Json.comma :: (w' ++ (t' ++ rest))) item)
    (h' : Reads (fun fuel => parseMembers fuel k) t' rest members) :
    Reads (fun fuel => parseMembers fuel k) (stringText key ++ Json.colon :: (w ++ (t ++ Json.comma :: (w' ++ t')))) rest
      ((readString key, item) :: members) := by
  obtain ⟨n, h⟩ := h
  obtain ⟨n', h'⟩ := h'
  refine ⟨max n n' + 1, ?_⟩
  rintro (_ | fuel) hfuel
  · omega
  · have hvalue := parseMemberValue_text hw ht (h fuel (by omega))
    have hmembers : parseMembers fuel k (t' ++ rest) = some (members, rest) := h' fuel (by omega)
    show parseMembersWith (parseValue fuel k) (parseMembers fuel k) _ = _
    simp only [List.append_assoc, List.cons_append]
    rw [parseMembersWith, parseString_text, Option.bind_some, hvalue, Option.bind_some, skip_none (by decide)]
    dsimp only
    rw [if_pos rfl, skip_blank hw', ht'.skip, hmembers]
    rfl

/-- Behind the last value of an object. -/
theorem endsNumber_behind (format : Bool) (close : Nat) (rest : List UInt8) :
    EndsNumber (whenFormatted format [10] ++ (tabs format close ++ Json.rbrace :: rest)) := by
  cases format with
  | false => exact endsNumber_cons (by decide) rest
  | true => exact endsNumber_cons (by decide) _

mutual

/-- The text of a tree is read as its item, by recursion on the tree. -/
theorem parseValue_text (hdouble : double.Documented) (depth k : Nat) : ∀ node : CJsonNode Val,
    k + node.height ≤ cJsonNestingLimit → ∀ rest, EndsNumber rest →
      Reads (fun fuel => parseValue fuel k) (node.text double format depth) rest (node.item double)
  | .null, _, rest, _ => reads_scalar fun _ _ => parseValueWith_null rest
  | .false, _, rest, _ => reads_scalar fun _ _ => parseValueWith_false rest
  | .true, _, rest, _ => reads_scalar fun _ _ => parseValueWith_true rest
  | .number x, _, _, hrest => reads_scalar fun _ _ => parseValueWith_double hdouble x hrest
  | .string s, _, rest, _ => reads_scalar fun _ _ => parseValueWith_string s rest
  | .array items, hk, rest, _ => by
    have hheight : k + 1 + elementsHeight items ≤ cJsonNestingLimit := by
      rw [CJsonNode.height] at hk
      omega
    have hlimit : k < cJsonNestingLimit := by omega
    by_cases hnil : items = []
    · rw [hnil]
      exact reads_emptyArray hlimit rest
    · obtain ⟨hstarts, hreads⟩ := parseElements_text hdouble (depth + 1) (k + 1) items hnil hheight rest
      exact reads_array hlimit hstarts hreads
  | .object members, hk, rest, _ => by
    have hheight : k + 1 + membersHeight members ≤ cJsonNestingLimit := by
      rw [CJsonNode.height] at hk
      omega
    have hlimit : k < cJsonNestingLimit := by omega
    by_cases hnil : members = []
    · have hreads := reads_emptyObject hlimit ((blank_newline format).append (blank_tabs format depth)) rest
      rw [List.append_assoc] at hreads
      rw [hnil]
      exact hreads
    · obtain ⟨t, htext, hstarts, hreads⟩ := parseMembers_text hdouble (depth + 1) depth (k + 1) members hnil hheight rest
      have hobject := reads_object hlimit ((blank_newline format).append (blank_tabs format (depth + 1))) hstarts hreads
      rw [List.append_assoc, ← htext] at hobject
      exact hobject
termination_by structural node => node

theorem parseElements_text (hdouble : double.Documented) (depth k : Nat) :
    ∀ items : List (CJsonNode Val), items ≠ [] → k + elementsHeight items ≤ cJsonNestingLimit → ∀ rest,
      Starts (elementsText double format depth items ++ [Json.rbracket]) ∧
        Reads (fun fuel => parseElements fuel k) (elementsText double format depth items ++ [Json.rbracket]) rest
          (elementItems double items)
  | [], hne, _, _ => absurd rfl hne
  | [item], _, hk, rest => by
    have hvalue := parseValue_text hdouble depth k item (by simpa [elementsHeight] using hk) (Json.rbracket :: rest)
      (endsNumber_cons (by decide) rest)
    have htext : elementsText double format depth [item] = item.text double format depth := by
      simp [elementsText]
    rw [htext]
    exact ⟨(starts_value hdouble depth item).append _, reads_lastElement hvalue⟩
  | item :: next :: items, _, hk, rest => by
    have hheight : k + item.height ≤ cJsonNestingLimit ∧ k + elementsHeight (next :: items) ≤ cJsonNestingLimit := by
      rw [elementsHeight] at hk
      omega
    obtain ⟨hstarts, hrest⟩ := parseElements_text hdouble depth k (next :: items) (List.cons_ne_nil _ _) hheight.2 rest
    have hvalue := parseValue_text hdouble depth k item hheight.1 (Json.comma :: (whenFormatted format [32] ++
      (elementsText double format depth (next :: items) ++ [Json.rbracket] ++ rest))) (endsNumber_cons (by decide) _)
    have hblank : Blank (whenFormatted format [32]) := blank_byte (by decide) format
    have htext : elementsText double format depth (item :: next :: items) ++ [Json.rbracket] =
        item.text double format depth ++ Json.comma :: (whenFormatted format [32] ++
          (elementsText double format depth (next :: items) ++ [Json.rbracket])) := by
      rw [elementsText]
      simp
    rw [htext]
    exact ⟨(starts_value hdouble depth item).append _, reads_element hblank hstarts hvalue hrest⟩
termination_by structural items => items

theorem parseMembers_text (hdouble : double.Documented) (depth close k : Nat) :
    ∀ members : List (Option NulFree × CJsonNode Val), members ≠ [] → k + membersHeight members ≤ cJsonNestingLimit →
      ∀ rest, ∃ t, membersText double format depth members ++ (tabs format close ++ [Json.rbrace]) =
          tabs format depth ++ t ∧ StartsKey t ∧
        Reads (fun fuel => parseMembers fuel k) t rest (memberItems double members)
  | [], hne, _, _ => absurd rfl hne
  | [member], _, hk, rest => by
    have hvalue := parseValue_text hdouble depth k member.2 (by simpa [membersHeight] using hk)
      ((whenFormatted format [10] ++ tabs format close) ++ Json.rbrace :: rest) (by
        rw [List.append_assoc]
        exact endsNumber_behind format close rest)
    have hblank : Blank (whenFormatted format [9]) := blank_byte (by decide) format
    refine ⟨_, ?_, startsKey_stringText member.1 _, reads_lastMember hblank (starts_value hdouble depth member.2)
      ((blank_newline format).append (blank_tabs format close)) hvalue⟩
    simp [membersText]
  | member :: next :: members, _, hk, rest => by
    have hheight : k + member.2.height ≤ cJsonNestingLimit ∧ k + membersHeight (next :: members) ≤ cJsonNestingLimit := by
      rw [membersHeight] at hk
      omega
    obtain ⟨t, htext, hstarts, hrest⟩ :=
      parseMembers_text hdouble depth close k (next :: members) (List.cons_ne_nil _ _) hheight.2 rest
    have hvalue := parseValue_text hdouble depth k member.2 hheight.1 (Json.comma ::
      ((whenFormatted format [10] ++ tabs format depth) ++ (t ++ rest))) (endsNumber_cons (by decide) _)
    have hblank : Blank (whenFormatted format [9]) := blank_byte (by decide) format
    refine ⟨_, ?_, startsKey_stringText member.1 _, reads_member hblank (starts_value hdouble depth member.2)
      ((blank_newline format).append (blank_tabs format depth)) hstarts hvalue hrest⟩
    rw [membersText]
    simp [← htext]
termination_by structural members => members

end

end Steps

/-! ### The whole text -/

section Whole

variable {K Val : Type} {double : DoubleFormat Val}

theorem number_noNul {t : List UInt8} (h : Json.number t = some []) : 0 ∉ t :=
  fun hzero => absurd ((strtodEnd_number h).1 0 hzero) (by decide)

theorem whenFormatted_noNul {w : List UInt8} (h : 0 ∉ w) (format : Bool) : 0 ∉ whenFormatted format w := by
  cases format with
  | false => exact List.not_mem_nil
  | true => exact h

mutual

theorem text_noNul (hdouble : double.Documented) (format : Bool) (depth : Nat) :
    ∀ node : CJsonNode Val, 0 ∉ node.text double format depth
  | .null => show 0 ∉ bytes "null" by decide
  | .false => show 0 ∉ bytes "false" by decide
  | .true => show 0 ∉ bytes "true" by decide
  | .number x => by
    rw [CJsonNode.text, DoubleFormat.text]
    split
    · rename_i hfinite
      split
      · exact number_noNul (hdouble.number 15 (by decide) x hfinite)
      · exact number_noNul (hdouble.number 17 (by decide) x hfinite)
    · decide
  | .string s => stringText_noNul s
  | .array items => by
    have hitems := elementsText_noNul hdouble format (depth + 1) items
    have hbrackets : (0 : UInt8) ≠ Json.lbracket ∧ (0 : UInt8) ≠ Json.rbracket := by decide
    simp [CJsonNode.text, hitems, hbrackets]
  | .object members => by
    have hmembers := membersText_noNul hdouble format (depth + 1) members
    have hbraces : (0 : UInt8) ≠ Json.lbrace ∧ (0 : UInt8) ≠ Json.rbrace := by decide
    have hnewline : 0 ∉ whenFormatted format [10] := whenFormatted_noNul (by decide) format
    have htabs : 0 ∉ tabs format depth := whenFormatted_noNul (by simp) format
    simp [CJsonNode.text, hmembers, hbraces, hnewline, htabs]
termination_by structural node => node

theorem elementsText_noNul (hdouble : double.Documented) (format : Bool) (depth : Nat) :
    ∀ items : List (CJsonNode Val), 0 ∉ elementsText double format depth items
  | [] => List.not_mem_nil
  | item :: items => by
    have hitem := text_noNul hdouble format depth item
    have hitems := elementsText_noNul hdouble format depth items
    have hcomma : (0 : UInt8) ≠ Json.comma := by decide
    have hspace : 0 ∉ whenFormatted format [32] := whenFormatted_noNul (by decide) format
    cases hempty : items.isEmpty <;> simp [elementsText, hempty, hitem, hitems, hcomma, hspace]
termination_by structural items => items

theorem membersText_noNul (hdouble : double.Documented) (format : Bool) (depth : Nat) :
    ∀ members : List (Option NulFree × CJsonNode Val), 0 ∉ membersText double format depth members
  | [] => List.not_mem_nil
  | member :: members => by
    have hkey := stringText_noNul member.1
    have hvalue := text_noNul hdouble format depth member.2
    have hmembers := membersText_noNul hdouble format depth members
    have hmarks : (0 : UInt8) ≠ Json.comma ∧ (0 : UInt8) ≠ Json.colon := by decide
    have htabs : 0 ∉ tabs format depth := whenFormatted_noNul (by simp) format
    have htab : 0 ∉ whenFormatted format [9] := whenFormatted_noNul (by decide) format
    have hnewline : 0 ∉ whenFormatted format [10] := whenFormatted_noNul (by decide) format
    cases hempty : members.isEmpty <;> simp [membersText, hempty, hkey, hvalue, hmembers, hmarks, htabs, htab, hnewline]
termination_by structural members => members

end

end Whole

end TuyaDaemon.Printer
