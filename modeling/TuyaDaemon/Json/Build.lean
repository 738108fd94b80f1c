import Mathlib.Data.List.TakeWhile
import TuyaDaemon.Json.Parse

/-!
# Writing JSON objects

`objectText` joins keys and value texts to an object.  When the keys need no escaping and every text is a value,
the result is an object whose members are exactly these keys, in order, each with its value
(`objectText_isObject`).  This is the rule for code that prints an object piece by piece.
-/

namespace Json

/-- A key that is written as it is. -/
def PlainKey (k : List UInt8) : Prop := ∀ c ∈ k, c ≠ dquote ∧ c ≠ backslash ∧ ¬ c < 32

instance (k : List UInt8) : Decidable (PlainKey k) :=
  List.decidableBAll (fun c => c ≠ dquote ∧ c ≠ backslash ∧ ¬ c < 32) k

/-- `v` is the text of the value that `d` is, without the whitespace around it. -/
def ValueText (d v : List UInt8) : Prop :=
  ∃ w, Derives .value (skipWs d) [] w ∧ skipWs w = [] ∧ v = (skipWs d).take ((skipWs d).length - w.length)

theorem IsValue.valueText {d : List UInt8} (h : IsValue d) : ∃ v, ValueText d v := by
  obtain ⟨w, hd, hw⟩ := h
  exact ⟨_, w, hd, hw, rfl⟩

theorem ValueText.isValue {d v : List UInt8} (h : ValueText d v) : IsValue d := by
  obtain ⟨w, hd, hw, -⟩ := h
  exact ⟨w, hd, hw⟩

theorem ValueText.unique {d v v' : List UInt8} (h : ValueText d v) (h' : ValueText d v') : v = v' := by
  obtain ⟨w, hd, -, rfl⟩ := h
  obtain ⟨w', hd', -, rfl⟩ := h'
  have hparse := parse_complete hd _ (Nat.le_refl _)
  rw [parse_complete hd' _ (Nat.le_refl _)] at hparse
  cases hparse
  rfl

/-- A text without whitespace around it is its own value text. -/
theorem valueText_self {d : List UInt8} (hws : skipWs d = d) (h : Derives .value d [] []) : ValueText d d := by
  refine ⟨[], ?_, rfl, ?_⟩
  · rw [hws]
    exact h
  · simp [hws]

/-- `"key":value` -/
def memberText (m : Member) : List UInt8 := dquote :: (m.1 ++ dquote :: colon :: m.2)

def membersText : List Member → List UInt8
  | [] => []
  | [m] => memberText m
  | m :: ms => memberText m ++ comma :: membersText ms

def objectText (ms : List Member) : List UInt8 := lbrace :: (membersText ms ++ [rbrace])

theorem stringTail_plainKey {k : List UInt8} (hk : PlainKey k) (s : List UInt8) :
    stringTail .plain (k ++ dquote :: s) = some s := by
  induction k with
  | nil => simp [stringTail]
  | cons c k ih =>
    have hc := hk c (by simp)
    have hks : PlainKey k := fun d hd => hk d (by simp [hd])
    simp only [List.cons_append, stringTail, hc.1, hc.2.1, hc.2.2, ite_false]
    exact ih hks

theorem skipWs_cons {c : UInt8} (s : List UInt8) (hc : isWs c = false) : skipWs (c :: s) = c :: s := by
  simp [skipWs, hc]

private theorem numberEnd_cons {c : UInt8} (t : List UInt8) (hc : c = comma ∨ c = rbrace) : NumberEnd (c :: t) := by
  intro e he
  simp only [List.head?_cons, Option.mem_def, Option.some.injEq] at he
  subst he
  rcases hc with rfl | rfl <;> decide

/-- What the grammar reads of `"key":value`, in front of a comma or a closing brace. -/
private theorem memberText_reads {m : Member} {v : List UInt8} (hk : PlainKey m.1) (hv : ValueText m.2 v)
    {c : UInt8} (hc : c = comma ∨ c = rbrace) (t : List UInt8) :
    ∃ s s₁ s₂ w, memberText m ++ c :: t = dquote :: s ∧ stringTail .plain s = some s₁ ∧ skipWs s₁ = colon :: s₂ ∧
      Derives .value (skipWs s₂) [] w ∧ skipWs w = c :: t ∧ s.take (s.length - s₁.length - 1) = m.1 ∧
      (skipWs s₂).take ((skipWs s₂).length - w.length) = v := by
  obtain ⟨w, hd, hw, rfl⟩ := hv
  have hend := numberEnd_cons t hc
  have hskip : skipWs (m.2 ++ c :: t) = skipWs m.2 ++ c :: t := hd.skipWs_append (c :: t)
  have hcw : isWs c = false := by rcases hc with rfl | rfl <;> decide
  have hlen := hd.length_lt
  refine ⟨m.1 ++ dquote :: colon :: (m.2 ++ c :: t), colon :: (m.2 ++ c :: t), m.2 ++ c :: t, w ++ c :: t,
    ?_, ?_, ?_, ?_, ?_, ?_, ?_⟩
  · simp [memberText]
  · exact stringTail_plainKey hk _
  · exact skipWs_cons _ (by decide)
  · rw [hskip]
    exact hd.append hend
  · rw [skipWs_append_of_nil _ hw]
    exact skipWs_cons t hcw
  · have e : (m.1 ++ dquote :: colon :: (m.2 ++ c :: t)).length - (colon :: (m.2 ++ c :: t)).length - 1 =
        m.1.length := by simp; omega
    rw [e, List.take_left]
  · rw [hskip]
    have e : (skipWs m.2 ++ c :: t).length - (w ++ c :: t).length = (skipWs m.2).length - w.length := by
      simp; omega
    rw [e, List.take_append_of_le_length (by omega)]

/-- A string without escapes is a value. -/
theorem valueText_string {k : List UInt8} (hk : PlainKey k) :
    ValueText (dquote :: (k ++ [dquote])) (dquote :: (k ++ [dquote])) :=
  valueText_self (skipWs_cons _ (by decide)) (.string (stringTail_plainKey hk []))

theorem plainKey_decimal (n : Nat) : PlainKey (CLib.decimal n) := by
  intro c hc
  have hdigit := CLib.decimal_digits hc
  refine ⟨?_, ?_, ?_⟩
  · rintro rfl
    exact absurd hdigit (by decide)
  · rintro rfl
    exact absurd hdigit (by decide)
  · rw [UInt8.lt_iff_toNat_lt]
    have : (32 : UInt8).toNat = 32 := rfl
    omega

private theorem isDigit_decimal {n : Nat} {c : UInt8} (hc : c ∈ CLib.decimal n) : isDigit c = true := by
  have hdigit := CLib.decimal_digits hc
  simp only [isDigit, decide_eq_true_eq, UInt8.le_iff_toNat_le]
  exact hdigit

theorem number_decimal (n : Nat) : number (CLib.decimal n) = some [] := by
  rcases CLib.decimal_head n with ⟨-, h⟩ | ⟨c, l, h, hc⟩
  · rw [h]
    decide
  · have hdigit : ∀ d ∈ c :: l, isDigit d = true := by
      intro d hd
      rw [← h] at hd
      exact isDigit_decimal hd
    have hminus : c ≠ 45 := by
      rintro rfl
      exact absurd (hdigit 45 (by simp)) (by decide)
    have hdrop : dropDigits l = [] := by
      rw [dropDigits, List.dropWhile_eq_nil_iff]
      intro d hd
      exact hdigit d (by simp [hd])
    rw [h]
    simp only [number, hminus, ite_false, intPart, hc, hdigit c (by simp), ite_true, hdrop, Option.map_some]
    rfl

/-- An unsigned decimal is a value. -/
theorem valueText_decimal (n : Nat) : ValueText (CLib.decimal n) (CLib.decimal n) := by
  refine valueText_self ?_ (.number (number_decimal n))
  obtain ⟨c, l, h⟩ := List.exists_cons_of_ne_nil (CLib.decimal_ne_nil n)
  rw [h]
  apply skipWs_cons
  have hdigit : isDigit c = true := isDigit_decimal (n := n) (by simp [h])
  by_contra hws
  simp only [isWs, Bool.or_eq_false_iff, beq_eq_false_iff_ne, not_and, not_not, ne_eq] at hws
  have hne : ∀ d : UInt8, isDigit d = false → c ≠ d := by
    rintro d hd rfl
    rw [hd] at hdigit
    cases hdigit
  exact hne 13 (by decide) (hws ⟨⟨hne 32 (by decide), hne 9 (by decide)⟩, hne 10 (by decide)⟩)

/-- A signed decimal is a value. -/
theorem valueText_formatInt (i : Int) : ValueText (CLib.formatInt i) (CLib.formatInt i) := by
  unfold CLib.formatInt
  by_cases hi : i < 0
  · rw [if_pos hi]
    refine valueText_self (skipWs_cons _ (by decide)) (.number ?_)
    show (intPart (CLib.decimal i.natAbs)).map (fun r => expPart (fracPart r)) = some []
    obtain ⟨c, l, h⟩ := List.exists_cons_of_ne_nil (CLib.decimal_ne_nil i.natAbs)
    have hc : c ≠ 45 := by
      rintro rfl
      exact absurd (CLib.decimal_digits (n := i.natAbs) (c := 45) (by simp [h])) (by decide)
    have hnum := number_decimal i.natAbs
    rw [h] at hnum ⊢
    simpa [number, hc] using hnum
  · rw [if_neg hi]
    exact valueText_decimal i.natAbs

/-- A signed decimal is not a string. -/
theorem formatInt_head (n : Int) : ∃ c l, CLib.formatInt n = c :: l ∧ c ≠ dquote := by
  unfold CLib.formatInt
  split
  · exact ⟨45, _, rfl, by decide⟩
  · obtain ⟨c, l, h⟩ := List.exists_cons_of_ne_nil (CLib.decimal_ne_nil n.natAbs)
    refine ⟨c, l, h, ?_⟩
    rintro rfl
    exact absurd (CLib.decimal_digits (n := n.natAbs) (c := dquote) (by simp [h])) (by decide)

/-- The members in the texts `ms` have the value texts `vs`. -/
def MemberTexts (ms vs : List Member) : Prop :=
  List.Forall₂ (fun m v => PlainKey m.1 ∧ v.1 = m.1 ∧ ValueText m.2 v.2) ms vs

theorem MemberTexts.keys {ms vs : List Member} (h : MemberTexts ms vs) : vs.map Prod.fst = ms.map Prod.fst := by
  induction h with
  | nil => rfl
  | cons h _ ih => simp [h.2.1, ih]

private theorem membersText_derives {ms vs : List Member} (h : MemberTexts ms vs) (hne : ms ≠ [])
    (r : List UInt8) : Derives .members (membersText ms ++ rbrace :: r) vs r := by
  induction h with
  | nil => exact absurd rfl hne
  | @cons m v ms vs hm htail ih =>
    obtain ⟨hk, hkey, hv⟩ := hm
    have hmem : v = (m.1, v.2) := by rw [← hkey]
    cases htail with
    | nil =>
      obtain ⟨s, s₁, s₂, w, hs, htl, hc, hd, hw, hkt, hvt⟩ := memberText_reads hk hv (Or.inr rfl) r
      have hder := Derives.lastMember htl hc hd hw
      rw [hkt, hvt, ← hs, ← hmem] at hder
      exact hder
    | @cons m' v' ms' vs' hm' htail' =>
      have hrest := ih (by simp)
      obtain ⟨c, u, hcu, hq⟩ : ∃ c u, membersText (m' :: ms') ++ rbrace :: r = c :: u ∧ isWs c = false := by
        cases ms' with
        | nil => exact ⟨dquote, _, rfl, by decide⟩
        | cons => exact ⟨dquote, _, rfl, by decide⟩
      have hws : skipWs (membersText (m' :: ms') ++ rbrace :: r) = membersText (m' :: ms') ++ rbrace :: r := by
        rw [hcu]
        exact skipWs_cons u hq
      obtain ⟨s, s₁, s₂, w, hs, htl, hc, hd, hw, hkt, hvt⟩ :=
        memberText_reads hk hv (Or.inl rfl) (membersText (m' :: ms') ++ rbrace :: r)
      have hder := Derives.member htl hc hd hw (by rw [hws]; exact hrest)
      rw [hkt, hvt, ← hs, ← hmem] at hder
      have e : membersText (m :: m' :: ms') ++ rbrace :: r =
          memberText m ++ comma :: (membersText (m' :: ms') ++ rbrace :: r) := by
        simp [membersText]
      rw [e]
      exact hder

/-- The text of an object has the members it was made of. -/
theorem objectText_isObject {ms vs : List Member} (h : MemberTexts ms vs) (hne : ms ≠ []) :
    IsObject (objectText ms) vs := by
  refine ⟨membersText ms ++ [rbrace], [], ?_, Or.inl ?_, rfl⟩
  · exact skipWs_cons _ (by decide)
  · have hder := membersText_derives h hne []
    rcases hms : ms with _ | ⟨m, ms'⟩
    · exact absurd hms hne
    · have hws : skipWs (membersText (m :: ms') ++ [rbrace]) = membersText (m :: ms') ++ [rbrace] := by
        cases ms' with
        | nil => exact skipWs_cons _ (by decide)
        | cons => exact skipWs_cons _ (by decide)
      rw [hws, ← hms]
      exact hder

private theorem isUtf8_membersText {ms : List Member} (hk : ∀ m ∈ ms, IsUtf8 m.1) (hv : ∀ m ∈ ms, IsUtf8 m.2) :
    IsUtf8 (membersText ms) := by
  have hmember : ∀ m ∈ ms, IsUtf8 (memberText m) := by
    intro m hm
    have h1 : IsUtf8 [dquote] := isUtf8_of_all (by decide)
    have h2 : IsUtf8 [dquote, colon] := isUtf8_of_all (by decide)
    have := h1.append ((hk m hm).append (h2.append (hv m hm)))
    simpa [memberText] using this
  have hcomma : IsUtf8 [comma] := isUtf8_of_all (by decide)
  clear hk hv
  induction ms with
  | nil => exact isUtf8_nil
  | cons m ms ih =>
    have htail := ih fun m' hm' => hmember m' (by simp [hm'])
    cases ms with
    | nil => exact hmember m (by simp)
    | cons m' ms =>
      have := (hmember m (by simp)).append (hcomma.append htail)
      simpa [membersText] using this

theorem isUtf8_objectText {ms : List Member} (hk : ∀ m ∈ ms, IsUtf8 m.1) (hv : ∀ m ∈ ms, IsUtf8 m.2) :
    IsUtf8 (objectText ms) := by
  have h1 : IsUtf8 [lbrace] := isUtf8_of_all (by decide)
  have h2 : IsUtf8 [rbrace] := isUtf8_of_all (by decide)
  have := h1.append ((isUtf8_membersText hk hv).append h2)
  simpa [objectText] using this

end Json
