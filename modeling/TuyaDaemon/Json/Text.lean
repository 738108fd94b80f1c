import TuyaDaemon.CLib.Strings

/-!
# JSON texts

The grammar of RFC 8259 over bytes.  `Derives form s ms r` says that `s` starts with the given form and `r` is what
follows it; for the members of an object `ms` lists them in order, each with the text between the quotes of its key
and the text of its value.  A derivation does not look at what follows (`Derives.append`), except that a number
must not be continued.
-/

namespace Json

abbrev dquote : UInt8 := 34
abbrev comma : UInt8 := 44
abbrev colon : UInt8 := 58
abbrev lbracket : UInt8 := 91
abbrev backslash : UInt8 := 92
abbrev rbracket : UInt8 := 93
abbrev lbrace : UInt8 := 123
abbrev rbrace : UInt8 := 125

/-- The text between the quotes of a key, and the text of the value. -/
abbrev Member := List UInt8 × List UInt8

/-! ### Whitespace, strings and numbers -/

def isWs (c : UInt8) : Bool := c == 32 || c == 9 || c == 10 || c == 13

def skipWs (s : List UInt8) : List UInt8 := s.dropWhile isWs

def isDigit (c : UInt8) : Bool := decide (48 ≤ c ∧ c ≤ 57)

def isHex (c : UInt8) : Bool := isDigit c || decide (97 ≤ c ∧ c ≤ 102) || decide (65 ≤ c ∧ c ≤ 70)

/-- The characters that may follow a backslash, other than `u`. -/
def escapes : List UInt8 := CLib.bytes "\"\\/bfnrt"

/-- Where a scan stands inside a string: `hex n` needs `n + 1` more digits of a `\u` escape. -/
inductive StringState where
  | plain
  | escape
  | hex (n : Nat)

/-- What follows the closing quote of the string that the scan is inside of. -/
def stringTail : StringState → List UInt8 → Option (List UInt8)
  | _, [] => none
  | .plain, c :: s =>
    if c = dquote then some s
    else if c = backslash then stringTail .escape s
    else if c < 32 then none
    else stringTail .plain s
  | .escape, c :: s =>
    if c ∈ escapes then stringTail .plain s
    else if c = 117 then stringTail (.hex 3) s
    else none
  | .hex 0, c :: s => if isHex c then stringTail .plain s else none
  | .hex (n + 1), c :: s => if isHex c then stringTail (.hex n) s else none

def dropDigits (s : List UInt8) : List UInt8 := s.dropWhile isDigit

/-- An optional fraction. -/
def fracPart : List UInt8 → List UInt8
  | p :: c :: s => if p = 46 ∧ isDigit c then dropDigits s else p :: c :: s
  | s => s

/-- An optional sign. -/
def expSign : List UInt8 → List UInt8
  | c :: s => if c = 43 ∨ c = 45 then s else c :: s
  | [] => []

/-- An optional exponent. -/
def expPart : List UInt8 → List UInt8
  | e :: s =>
    if e = 101 ∨ e = 69 then
      match expSign s with
      | c :: s' => if isDigit c then dropDigits s' else e :: s
      | [] => e :: s
    else e :: s
  | [] => []

/-- The digits before the fraction: a single `0`, or digits that do not start with one. -/
def intPart : List UInt8 → Option (List UInt8)
  | c :: s => if c = 48 then some s else if isDigit c then some (dropDigits s) else none
  | [] => none

/-- What follows a number. -/
def number : List UInt8 → Option (List UInt8)
  | c :: s => (if c = 45 then intPart s else intPart (c :: s)).map fun r => expPart (fracPart r)
  | [] => none

def literals : List (List UInt8) := [CLib.bytes "true", CLib.bytes "false", CLib.bytes "null"]

/-! ### The grammar -/

inductive Form where
  | value
  | elements
  | members
deriving DecidableEq, Repr

/-- `s` starts with the form, and `r` follows it. -/
inductive Derives : Form → List UInt8 → List Member → List UInt8 → Prop where
  | string {s r : List UInt8} (h : stringTail .plain s = some r) : Derives .value (dquote :: s) [] r
  | literal {l r : List UInt8} (h : l ∈ literals) : Derives .value (l ++ r) [] r
  | number {s r : List UInt8} (h : number s = some r) : Derives .value s [] r
  | emptyObject {s r : List UInt8} (h : skipWs s = rbrace :: r) : Derives .value (lbrace :: s) [] r
  | object {s r : List UInt8} {ms : List Member} (h : Derives .members (skipWs s) ms r) :
      Derives .value (lbrace :: s) [] r
  | emptyArray {s r : List UInt8} (h : skipWs s = rbracket :: r) : Derives .value (lbracket :: s) [] r
  | array {s r : List UInt8} (h : Derives .elements (skipWs s) [] r) : Derives .value (lbracket :: s) [] r
  | lastElement {s w r : List UInt8} (hv : Derives .value s [] w) (he : skipWs w = rbracket :: r) :
      Derives .elements s [] r
  | element {s w u r : List UInt8} (hv : Derives .value s [] w) (hc : skipWs w = comma :: u)
      (h : Derives .elements (skipWs u) [] r) : Derives .elements s [] r
  | lastMember {s s₁ s₂ w r : List UInt8} (hk : stringTail .plain s = some s₁) (hc : skipWs s₁ = colon :: s₂)
      (hv : Derives .value (skipWs s₂) [] w) (he : skipWs w = rbrace :: r) :
      Derives .members (dquote :: s)
        [(s.take (s.length - s₁.length - 1), (skipWs s₂).take ((skipWs s₂).length - w.length))] r
  | member {s s₁ s₂ w u r : List UInt8} {ms : List Member} (hk : stringTail .plain s = some s₁)
      (hc : skipWs s₁ = colon :: s₂) (hv : Derives .value (skipWs s₂) [] w) (hcc : skipWs w = comma :: u)
      (h : Derives .members (skipWs u) ms r) :
      Derives .members (dquote :: s)
        ((s.take (s.length - s₁.length - 1), (skipWs s₂).take ((skipWs s₂).length - w.length)) :: ms) r

/-! ### Lengths -/

theorem length_skipWs_le (s : List UInt8) : (skipWs s).length ≤ s.length :=
  (List.dropWhile_suffix _).length_le

theorem length_dropDigits_le (s : List UInt8) : (dropDigits s).length ≤ s.length :=
  (List.dropWhile_suffix _).length_le

theorem length_stringTail_lt {q : StringState} {s r : List UInt8} (h : stringTail q s = some r) :
    r.length < s.length := by
  fun_induction stringTail q s <;> simp_all <;> omega

private theorem length_fracPart_le (s : List UInt8) : (fracPart s).length ≤ s.length := by
  unfold fracPart
  split
  · rename_i p c s
    have := length_dropDigits_le s
    split
    · simp; omega
    · exact Nat.le_refl _
  · exact Nat.le_refl _

theorem length_expSign_le (s : List UInt8) : (expSign s).length ≤ s.length := by
  unfold expSign
  split
  · split <;> simp
  · exact Nat.le_refl _

theorem length_expPart_le (s : List UInt8) : (expPart s).length ≤ s.length := by
  unfold expPart
  split
  · rename_i e s
    split
    · split
      · rename_i c s' hs
        have h1 := length_expSign_le s
        have h2 := length_dropDigits_le s'
        rw [hs] at h1
        simp only [List.length_cons] at h1
        split
        · simp; omega
        · exact Nat.le_refl _
      · exact Nat.le_refl _
    · exact Nat.le_refl _
  · exact Nat.le_refl _

private theorem length_intPart_lt {s r : List UInt8} (h : intPart s = some r) : r.length < s.length := by
  unfold intPart at h
  split at h
  · rename_i c s
    have := length_dropDigits_le s
    split at h
    · cases h; simp
    · split at h
      · cases h; simp; omega
      · cases h
  · cases h

theorem length_number_lt {s r : List UInt8} (h : number s = some r) : r.length < s.length := by
  unfold number at h
  split at h
  · rename_i c s
    obtain ⟨q, hq, rfl⟩ := Option.map_eq_some_iff.1 h
    have h1 := length_expPart_le (fracPart q)
    have h2 := length_fracPart_le q
    split at hq
    · have := length_intPart_lt hq
      simp; omega
    · have := length_intPart_lt hq
      simp at this ⊢; omega
  · cases h

/-- Every form takes at least one character. -/
theorem Derives.length_lt {form : Form} {s r : List UInt8} {ms : List Member} (h : Derives form s ms r) :
    r.length < s.length := by
  induction h with
  | string h => have := length_stringTail_lt h; simp; omega
  | literal h =>
    simp only [literals, List.mem_cons, List.not_mem_nil, or_false] at h
    rcases h with rfl | rfl | rfl <;> simp [CLib.bytes] <;> omega
  | number h => exact length_number_lt h
  | @emptyObject s r h => have := length_skipWs_le s; simp [h] at this; simp; omega
  | @object s r ms h ih => have := length_skipWs_le s; simp; omega
  | @emptyArray s r h => have := length_skipWs_le s; simp [h] at this; simp; omega
  | @array s r h ih => have := length_skipWs_le s; simp; omega
  | @lastElement s w r hv he ih => have := length_skipWs_le w; simp [he] at this; omega
  | @element s w u r hv hc h ihv ih =>
    have h1 := length_skipWs_le w
    have h2 := length_skipWs_le u
    simp [hc] at h1
    omega
  | @lastMember s s₁ s₂ w r hk hc hv he ih =>
    have h1 := length_stringTail_lt hk
    have h2 := length_skipWs_le s₁
    have h3 := length_skipWs_le s₂
    have h4 := length_skipWs_le w
    simp [hc] at h2
    simp [he] at h4
    simp; omega
  | @member s s₁ s₂ w u r ms hk hc hv hcc h ihv ih =>
    have h1 := length_stringTail_lt hk
    have h2 := length_skipWs_le s₁
    have h3 := length_skipWs_le s₂
    have h4 := length_skipWs_le w
    have h5 := length_skipWs_le u
    simp [hc] at h2
    simp [hcc] at h4
    simp; omega

/-! ### What follows does not matter -/

/-- A text that does not continue a number. -/
def NumberEnd (t : List UInt8) : Prop :=
  ∀ c ∈ t.head?, isDigit c = false ∧ c ≠ 43 ∧ c ≠ 45 ∧ c ≠ 46 ∧ c ≠ 69 ∧ c ≠ 101

theorem skipWs_append {s : List UInt8} (t : List UInt8) (h : skipWs s ≠ []) : skipWs (s ++ t) = skipWs s ++ t := by
  induction s with
  | nil => exact absurd rfl h
  | cons c s ih =>
    by_cases hc : isWs c = true
    · have e : skipWs (c :: s) = skipWs s := by simp [skipWs, hc]
      rw [e] at h ⊢
      rw [← ih h]
      simp [skipWs, hc]
    · simp [skipWs, hc]

theorem skipWs_append_of_cons {s r : List UInt8} {c : UInt8} (t : List UInt8) (h : skipWs s = c :: r) :
    skipWs (s ++ t) = c :: (r ++ t) := by
  rw [skipWs_append t (by simp [h]), h, List.cons_append]

theorem skipWs_append_of_nil {s : List UInt8} (t : List UInt8) (h : skipWs s = []) : skipWs (s ++ t) = skipWs t := by
  induction s with
  | nil => rfl
  | cons c s ih =>
    by_cases hc : isWs c = true
    · have e : skipWs (c :: s) = skipWs s := by simp [skipWs, hc]
      rw [e] at h
      rw [← ih h]
      simp [skipWs, hc]
    · simp [skipWs, hc] at h

theorem stringTail_append {q : StringState} {s r : List UInt8} (t : List UInt8) (h : stringTail q s = some r) :
    stringTail q (s ++ t) = some (r ++ t) := by
  fun_induction stringTail q s <;> simp_all [stringTail]

private theorem dropDigits_append {t : List UInt8} (ht : NumberEnd t) (s : List UInt8) :
    dropDigits (s ++ t) = dropDigits s ++ t := by
  induction s with
  | nil =>
    cases t with
    | nil => rfl
    | cons c t => simp [dropDigits, (ht c (by simp)).1]
  | cons c s ih =>
    by_cases hc : isDigit c = true
    · simpa [dropDigits, hc] using ih
    · simp [dropDigits, hc]

private theorem fracPart_append {t : List UInt8} (ht : NumberEnd t) (s : List UInt8) :
    fracPart (s ++ t) = fracPart s ++ t := by
  rcases s with _ | ⟨p, _ | ⟨c, s⟩⟩
  · rcases t with _ | ⟨a, _ | ⟨b, t⟩⟩
    · rfl
    · rfl
    · have := ht a (by simp)
      simp [fracPart, this.2.2.2.1]
  · rcases t with _ | ⟨a, t⟩
    · rfl
    · have := ht a (by simp)
      simp [fracPart, this.1]
  · simp only [List.cons_append, fracPart]
    split
    · exact dropDigits_append ht s
    · rfl

private theorem expSign_append {t : List UInt8} (ht : NumberEnd t) (s : List UInt8) :
    expSign (s ++ t) = expSign s ++ t := by
  rcases s with _ | ⟨c, s⟩
  · rcases t with _ | ⟨a, t⟩
    · rfl
    · have := ht a (by simp)
      simp [expSign, this.2.1, this.2.2.1]
  · simp only [List.cons_append, expSign]
    split <;> rfl

private theorem expPart_append {t : List UInt8} (ht : NumberEnd t) (s : List UInt8) :
    expPart (s ++ t) = expPart s ++ t := by
  rcases s with _ | ⟨e, s⟩
  · rcases t with _ | ⟨a, t⟩
    · rfl
    · have := ht a (by simp)
      simp [expPart, this.2.2.2.2.1, this.2.2.2.2.2]
  · simp only [List.cons_append, expPart, expSign_append ht]
    split
    · rcases hs : expSign s with _ | ⟨c, s'⟩
      · rcases t with _ | ⟨a, t⟩
        · simp
        · have := ht a (by simp)
          simp [this.1]
      · simp only [List.cons_append]
        split
        · exact dropDigits_append ht s'
        · rfl
    · rfl

private theorem intPart_append {t : List UInt8} (ht : NumberEnd t) {s r : List UInt8} (h : intPart s = some r) :
    intPart (s ++ t) = some (r ++ t) := by
  rcases s with _ | ⟨c, s⟩
  · cases h
  · simp only [intPart, List.cons_append] at h ⊢
    split at h
    · cases h; simp_all
    · split at h
      · cases h
        rw [dropDigits_append ht]
        simp_all
      · cases h

theorem number_append {t : List UInt8} (ht : NumberEnd t) {s r : List UInt8} (h : number s = some r) :
    number (s ++ t) = some (r ++ t) := by
  rcases s with _ | ⟨c, s⟩
  · cases h
  · simp only [number, List.cons_append] at h ⊢
    obtain ⟨q, hq, rfl⟩ := Option.map_eq_some_iff.1 h
    rw [Option.map_eq_some_iff]
    refine ⟨q ++ t, ?_, by rw [fracPart_append ht, expPart_append ht]⟩
    split at hq
    · rename_i hc
      rw [if_pos hc]
      exact intPart_append ht hq
    · rename_i hc
      rw [if_neg hc]
      exact intPart_append ht hq

private theorem take_append_sub {s r t : List UInt8} {k : Nat} :
    (s ++ t).take ((s ++ t).length - (r ++ t).length - k) = s.take (s.length - r.length - k) := by
  have e : (s ++ t).length - (r ++ t).length - k = s.length - r.length - k := by simp; omega
  rw [e, List.take_append_of_le_length (by omega)]

theorem Derives.skipWs_append {form : Form} {s r : List UInt8} {ms : List Member}
    (h : Derives form (skipWs s) ms r) (t : List UInt8) : skipWs (s ++ t) = skipWs s ++ t :=
  Json.skipWs_append t fun e => by have := h.length_lt; simp [e] at this

/-- A derivation keeps its members whatever is put behind the text, as long as it does not continue a number. -/
theorem Derives.append {t : List UInt8} (ht : NumberEnd t) {form : Form} {s r : List UInt8} {ms : List Member}
    (h : Derives form s ms r) : Derives form (s ++ t) ms (r ++ t) := by
  induction h with
  | string h => exact .string (stringTail_append t h)
  | literal h => rw [List.append_assoc]; exact .literal h
  | number h => exact .number (number_append ht h)
  | emptyObject h => exact .emptyObject (skipWs_append_of_cons t h)
  | object h ih => rw [← h.skipWs_append] at ih; exact .object ih
  | emptyArray h => exact .emptyArray (skipWs_append_of_cons t h)
  | array h ih => rw [← h.skipWs_append] at ih; exact .array ih
  | lastElement hv he ih => exact .lastElement ih (skipWs_append_of_cons t he)
  | element hv hc h ihv ih =>
    exact .element ihv (skipWs_append_of_cons t hc) (by rw [h.skipWs_append]; exact ih)
  | @lastMember s s₁ s₂ w r hk hc hv he ih =>
    rw [← hv.skipWs_append] at ih
    have := Derives.lastMember (stringTail_append t hk) (skipWs_append_of_cons t hc) ih (skipWs_append_of_cons t he)
    rw [take_append_sub, hv.skipWs_append, ← Nat.sub_zero ((skipWs s₂ ++ t).length - _), take_append_sub] at this
    exact this
  | @member s s₁ s₂ w u r ms hk hc hv hcc h ihv ih =>
    rw [← hv.skipWs_append] at ihv
    rw [← h.skipWs_append] at ih
    have := Derives.member (stringTail_append t hk) (skipWs_append_of_cons t hc) ihv
      (skipWs_append_of_cons t hcc) ih
    rw [take_append_sub, hv.skipWs_append, ← Nat.sub_zero ((skipWs s₂ ++ t).length - _), take_append_sub] at this
    exact this

/-! ### NUL -/

theorem zero_mem_tail {c : UInt8} {s : List UInt8} (h : 0 ∈ c :: s) (hc : c ≠ 0) : 0 ∈ s := by
  simpa [Ne.symm hc] using h

private theorem digit_ne_zero {c : UInt8} (h : isDigit c = true) : c ≠ 0 := by
  rintro rfl
  exact absurd h (by decide)

private theorem zero_mem_dropDigits {s : List UInt8} (h : 0 ∈ s) : 0 ∈ dropDigits s := by
  induction s with
  | nil => cases h
  | cons c s ih =>
    by_cases hc : isDigit c = true
    · simpa [dropDigits, hc] using ih (zero_mem_tail h (digit_ne_zero hc))
    · simpa [dropDigits, hc] using h

private theorem zero_mem_fracPart {s : List UInt8} (h : 0 ∈ s) : 0 ∈ fracPart s := by
  unfold fracPart
  split
  · split
    · rename_i hpc
      exact zero_mem_dropDigits (zero_mem_tail (zero_mem_tail h (by rw [hpc.1]; decide)) (digit_ne_zero hpc.2))
    · exact h
  · exact h

private theorem zero_mem_expSign {s : List UInt8} (h : 0 ∈ s) : 0 ∈ expSign s := by
  unfold expSign
  split
  · split
    · rename_i hc
      exact zero_mem_tail h (by rcases hc with rfl | rfl <;> decide)
    · exact h
  · exact h

private theorem zero_mem_expPart {s : List UInt8} (h : 0 ∈ s) : 0 ∈ expPart s := by
  unfold expPart
  split
  · split
    · rename_i he
      have hsign := zero_mem_expSign (zero_mem_tail h (by rcases he with rfl | rfl <;> decide))
      split
      · rename_i heq
        rw [heq] at hsign
        split
        · rename_i hc
          exact zero_mem_dropDigits (zero_mem_tail hsign (digit_ne_zero hc))
        · exact h
      · exact h
    · exact h
  · exact h

private theorem zero_mem_intPart {s r : List UInt8} (hr : intPart s = some r) (h : 0 ∈ s) : 0 ∈ r := by
  unfold intPart at hr
  split at hr
  · split at hr
    · rename_i hc
      cases hr
      exact zero_mem_tail h (by rw [hc]; decide)
    · split at hr
      · rename_i hc
        cases hr
        exact zero_mem_dropDigits (zero_mem_tail h (digit_ne_zero hc))
      · cases hr
  · cases hr

theorem zero_mem_number {s r : List UInt8} (hr : number s = some r) (h : 0 ∈ s) : 0 ∈ r := by
  unfold number at hr
  split at hr
  · obtain ⟨q, hq, rfl⟩ := Option.map_eq_some_iff.1 hr
    apply zero_mem_expPart
    apply zero_mem_fracPart
    split at hq
    · rename_i hc
      exact zero_mem_intPart hq (zero_mem_tail h (by rw [hc]; decide))
    · exact zero_mem_intPart hq h
  · cases hr

theorem zero_mem_stringTail {q : StringState} {s r : List UInt8} (hr : stringTail q s = some r) (h : 0 ∈ s) :
    0 ∈ r := by
  fun_induction stringTail q s with
  | case1 => cases hr
  | case2 s =>
    cases hr
    exact zero_mem_tail h (by decide)
  | case3 s hq ih => exact ih hr (zero_mem_tail h (by decide))
  | case4 c s hq hb hc => cases hr
  | case5 c s hq hb hc ih => exact ih hr (zero_mem_tail h (by rintro rfl; exact hc (by decide)))
  | case6 c s hc ih => exact ih hr (zero_mem_tail h (by rintro rfl; exact absurd hc (by decide)))
  | case7 s hc ih => exact ih hr (zero_mem_tail h (by decide))
  | case8 c s hc hu => cases hr
  | case9 c s hc ih => exact ih hr (zero_mem_tail h (by rintro rfl; exact absurd hc (by decide)))
  | case10 c s hc => cases hr
  | case11 n c s hc ih => exact ih hr (zero_mem_tail h (by rintro rfl; exact absurd hc (by decide)))
  | case12 n c s hc => cases hr

theorem zero_mem_skipWs {s : List UInt8} (h : 0 ∈ s) : 0 ∈ skipWs s := by
  induction s with
  | nil => cases h
  | cons c s ih =>
    by_cases hc : isWs c = true
    · have hne : c ≠ 0 := by
        rintro rfl
        exact absurd hc (by decide)
      simpa [skipWs, hc] using ih (zero_mem_tail h hne)
    · simpa [skipWs, hc] using h

/-- No form contains a NUL. -/
theorem Derives.zero_mem {form : Form} {s r : List UInt8} {ms : List Member} (h : Derives form s ms r) (hs : 0 ∈ s) :
    0 ∈ r := by
  have hcons : ∀ {s u : List UInt8} {c : UInt8}, skipWs s = c :: u → c ≠ 0 → 0 ∈ s → 0 ∈ u := by
    intro s u c he hc hs
    have hmem := zero_mem_skipWs hs
    rw [he] at hmem
    exact zero_mem_tail hmem hc
  induction h with
  | string h => exact zero_mem_stringTail h (zero_mem_tail hs (by decide))
  | literal h =>
    simp only [literals, List.mem_cons, List.not_mem_nil, or_false] at h
    rcases h with rfl | rfl | rfl <;> simpa [CLib.bytes] using hs
  | number h => exact zero_mem_number h hs
  | emptyObject h => exact hcons h (by decide) (zero_mem_tail hs (by decide))
  | object h ih => exact ih (zero_mem_skipWs (zero_mem_tail hs (by decide)))
  | emptyArray h => exact hcons h (by decide) (zero_mem_tail hs (by decide))
  | array h ih => exact ih (zero_mem_skipWs (zero_mem_tail hs (by decide)))
  | lastElement hv he ih => exact hcons he (by decide) (ih hs)
  | element hv hc h ihv ih => exact ih (zero_mem_skipWs (hcons hc (by decide) (ihv hs)))
  | lastMember hk hc hv he ih =>
    have hkey := zero_mem_stringTail hk (zero_mem_tail hs (by decide))
    exact hcons he (by decide) (ih (zero_mem_skipWs (hcons hc (by decide) hkey)))
  | member hk hc hv hcc h ihv ih =>
    have hkey := zero_mem_stringTail hk (zero_mem_tail hs (by decide))
    exact ih (zero_mem_skipWs (hcons hcc (by decide) (ihv (zero_mem_skipWs (hcons hc (by decide) hkey)))))

/-! ### Documents -/

/-- A text is a JSON value between whitespace. -/
def IsValue (d : List UInt8) : Prop := ∃ w, Derives .value (skipWs d) [] w ∧ skipWs w = []

/-- A text is an object between whitespace, with these members in this order. -/
def IsObject (d : List UInt8) (ms : List Member) : Prop :=
  ∃ s w, skipWs d = lbrace :: s ∧
    (Derives .members (skipWs s) ms w ∨ ms = [] ∧ skipWs s = rbrace :: w) ∧ skipWs w = []

/-- A text is UTF-8. -/
def IsUtf8 (d : List UInt8) : Prop := ∃ cs : List Char, cs.flatMap String.utf8EncodeChar = d

/-- A JSON document: a value, written in UTF-8. -/
def Valid (d : List UInt8) : Prop := IsUtf8 d ∧ IsValue d

theorem IsObject.isValue {d : List UInt8} {ms : List Member} (h : IsObject d ms) : IsValue d := by
  obtain ⟨s, w, hd, hm, hw⟩ := h
  refine ⟨w, ?_, hw⟩
  rw [hd]
  rcases hm with hm | ⟨-, hm⟩
  · exact .object hm
  · exact .emptyObject hm

/-- A JSON text has no NUL. -/
theorem IsValue.noNul {d : List UInt8} (h : IsValue d) : 0 ∉ d := by
  obtain ⟨w, hd, hw⟩ := h
  intro hmem
  have hend := zero_mem_skipWs (hd.zero_mem (zero_mem_skipWs hmem))
  rw [hw] at hend
  cases hend

theorem IsUtf8.append {a b : List UInt8} (ha : IsUtf8 a) (hb : IsUtf8 b) : IsUtf8 (a ++ b) := by
  obtain ⟨cs, rfl⟩ := ha
  obtain ⟨ds, rfl⟩ := hb
  exact ⟨cs ++ ds, by simp⟩

theorem isUtf8_nil : IsUtf8 [] := ⟨[], rfl⟩

/-- ASCII bytes are UTF-8. -/
theorem isUtf8_of_ascii {a : List UInt8} (h : ∀ c ∈ a, c.toNat < 128) : IsUtf8 a := by
  induction a with
  | nil => exact isUtf8_nil
  | cons c a ih =>
    have hc := h c (by simp)
    have h1 : IsUtf8 [c] := by
      refine ⟨[Char.ofNat c.toNat], ?_⟩
      have hv : (Char.ofNat c.toNat).val.toNat = c.toNat := by
        rw [Char.ofNat, dif_pos (Or.inl (by omega))]
        rfl
      simp [String.utf8EncodeChar, hv, show c.toNat ≤ 127 by omega]
    exact h1.append (ih fun d hd => h d (by simp [hd]))

/-- The same for a text that is given, whose characters are looked at one by one. -/
theorem isUtf8_of_all {a : List UInt8} (h : (a.all fun c => decide (c.toNat < 128)) = true) : IsUtf8 a := by
  apply isUtf8_of_ascii
  intro c hc
  exact of_decide_eq_true (List.all_eq_true.1 h c hc)

end Json
