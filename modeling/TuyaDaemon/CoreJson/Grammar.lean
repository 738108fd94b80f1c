import Mathlib.Data.List.DropRight
import TuyaDaemon.CoreJson.Validate

/-!
# What coreJSON accepts

`Items` is the grammar of a collection behind its open bracket, with the depth that is left.  `skipCollection_iff` says
that the stack of `skipCollection` does what recursion over this grammar would do.
-/

namespace Json.Core

open TuyaDaemon (JSONStatus)

/-! ### The grammar -/

/-- What stands behind an item: a comma that no closing bracket follows, or only space. -/
inductive Separates : List UInt8 → Bool → List UInt8 → Prop where
  | comma {s u v : List UInt8} {c : UInt8} (hs : skipWs s = Json.comma :: u) (hu : skipWs u = c :: v)
      (hc : isCloseBracket c = false) : Separates s true (c :: v)
  | space (s : List UInt8) : Separates s false (skipWs s)

/-- A key and its colon, with the space around the colon. -/
inductive ReadKey : List UInt8 → List UInt8 → Prop where
  | key {body w v : List UInt8} (h : MadeOf ReadChar body) (hcolon : skipWs w = colon :: v) :
      ReadKey (dquote :: (body ++ dquote :: w)) (skipWs v)

/-- An item of an object starts with a key. -/
def Keyed (mode : UInt8) (s t : List UInt8) : Prop := if mode = lbracket then t = s else ReadKey s t

theorem skipKey_iff {s t : List UInt8} : skipKey s = some t ↔ ReadKey s t := by
  constructor
  · intro h
    obtain ⟨w, hw, hbehind⟩ := Option.bind_eq_some_iff.1 h
    obtain ⟨body, hbody, rfl⟩ := skipString_iff.1 hw
    split at hbehind
    · cases hbehind
    · rename_i c v heq
      split at hbehind
      · rename_i hc
        obtain rfl := Option.some.inj hbehind
        exact .key hbody (hc ▸ heq)
      · cases hbehind
  · intro h
    cases h with
    | key hbody hcolon =>
      rw [skipKey, skipString_iff.2 ⟨_, hbody, rfl⟩, Option.bind_some, hcolon]
      exact if_pos rfl

theorem keyed_array {s t : List UInt8} : Keyed lbracket s t ↔ t = s := by rw [Keyed, if_pos rfl]

theorem keyed_object {mode : UInt8} (h : mode ≠ lbracket) {s t : List UInt8} : Keyed mode s t ↔ skipKey s = some t := by
  rw [Keyed, if_neg h, skipKey_iff]

/-- `s` starts with items of a collection that is opened by `mode`, and `r` with the bracket that closes it.  Scalars are
items at the front and behind a comma; other collections may also follow without one, and need no key in an object. -/
inductive Items : Nat → UInt8 → Bool → List UInt8 → List UInt8 → Prop where
  | close {d : Nat} {mode e : UInt8} {front : Bool} {r : List UInt8} (h : isCloseBracket e = true) :
      Items d mode front (e :: r) (e :: r)
  | scalar {d : Nat} {mode : UInt8} {s t u v r : List UInt8} {front : Bool} (key : Keyed mode s t)
      (value : ReadScalar t u) (sep : Separates u front v) (rest : Items d mode front v r) :
      Items d mode true s r
  | nested {d : Nat} {mode c e : UInt8} {front front' : Bool} {s t u v r : List UInt8}
      (key : s = c :: t ∨ front = true ∧ Keyed mode s (c :: t)) (isOpen : isOpenBracket c = true)
      (inner : Items d c true (skipWs t) (e :: u)) (closes : isMatchingBracket c e = true) (sep : Separates u front' v)
      (rest : Items (d + 1) mode front' v r) : Items (d + 1) mode front s r

/-! ### First characters -/

theorem bracket_facts {c : UInt8} (h : isOpenBracket c = true ∨ isCloseBracket c = true) :
    c ≠ dquote ∧ c ≠ Json.comma ∧ c ≠ 45 ∧ isDigit c = false ∧ c ≠ 116 ∧ c ≠ 102 ∧ c ≠ 110 := by
  simp only [isOpenBracket, isCloseBracket, Bool.or_eq_true, beq_iff_eq] at h
  rcases h with (rfl | rfl) | (rfl | rfl) <;> decide

theorem not_close_of_open {c : UInt8} (h : isOpenBracket c = true) : isCloseBracket c = false := by
  simp only [isOpenBracket, Bool.or_eq_true, beq_iff_eq] at h
  rcases h with rfl | rfl <;> decide

theorem skipKey_of_ne {c : UInt8} (h : c ≠ dquote) (s : List UInt8) : skipKey (c :: s) = none := by
  rw [skipKey, skipString_of_ne h]
  rfl

/-- A bracket starts no scalar. -/
theorem skipAnyScalar_bracket {c : UInt8} (h : isOpenBracket c = true ∨ isCloseBracket c = true) (s : List UInt8) :
    skipAnyScalar (c :: s) = none := by
  obtain ⟨hquote, -, hminus, hdigit, ht, hf, hn⟩ := bracket_facts h
  have hzero : c ≠ 48 := by
    rintro rfl
    exact absurd hdigit (by decide)
  have hliteral := skipAnyLiteral_of_ne ⟨ht, hf, hn⟩ s
  have hnumber : skipNumber (c :: s) = none := by
    rw [skipNumber_eq]
    simp [number, intPart, hminus, hzero, hdigit]
  rw [skipAnyScalar, skipString_of_ne hquote, hliteral, hnumber]
  rfl

theorem skipAnyScalar_nil : skipAnyScalar [] = none := by decide

theorem not_keyed_bracket {mode c : UInt8} (h : isOpenBracket c = true ∨ isCloseBracket c = true) (hmode : mode ≠ lbracket)
    (s t : List UInt8) : ¬ Keyed mode (c :: s) t := by
  rw [keyed_object hmode, skipKey_of_ne (bracket_facts h).1]
  simp

/-- Without a comma in front, a bracket comes next. -/
theorem Items.head {d : Nat} {mode : UInt8} {s r : List UInt8} (h : Items d mode false s r) :
    ∃ c t, s = c :: t ∧ (isOpenBracket c = true ∨ isCloseBracket c = true) := by
  cases h with
  | close h => exact ⟨_, _, rfl, Or.inr h⟩
  | nested key isOpen inner closes sep rest =>
    rcases key with rfl | ⟨hfront, -⟩
    · exact ⟨_, _, rfl, Or.inl isOpen⟩
    · cases hfront

theorem Items.front {d : Nat} {mode : UInt8} {s r : List UInt8} (h : Items d mode false s r) : Items d mode true s r := by
  cases h with
  | close h => exact .close h
  | nested key isOpen inner closes sep rest =>
    rcases key with rfl | ⟨hfront, -⟩
    · exact .nested (Or.inl rfl) isOpen inner closes sep rest
    · cases hfront

theorem Items.mono {d d' : Nat} (hle : d ≤ d') {mode : UInt8} {front : Bool} {s r : List UInt8}
    (h : Items d mode front s r) : Items d' mode front s r := by
  induction h generalizing d' with
  | close h => exact .close h
  | scalar key value sep rest ih => exact .scalar key value sep (ih hle)
  | nested key isOpen inner closes sep rest ihinner ihrest =>
    obtain ⟨e, rfl⟩ := Nat.exists_eq_succ_of_ne_zero (Nat.ne_of_gt (Nat.lt_of_lt_of_le (Nat.succ_pos _) hle))
    exact .nested key isOpen (ihinner (Nat.le_of_succ_le_succ hle)) closes sep (ihrest hle)

theorem Separates.length_lt {s v : List UInt8} (h : Separates s true v) : v.length < s.length := by
  cases h with
  | @comma u v c hs hu hc =>
    have h₁ := length_skipWs_le s
    have h₂ := length_skipWs_le u
    rw [hs, List.length_cons] at h₁
    rw [hu] at h₂
    omega

theorem skipSpaceAndComma_separates (s : List UInt8) :
    Separates s (skipSpaceAndComma s).1 (skipSpaceAndComma s).2 := by
  unfold skipSpaceAndComma
  split
  · rename_i heq
    exact heq ▸ Separates.space s
  · rename_i c u heq
    split
    · rename_i hc
      subst hc
      split
      · exact heq ▸ Separates.space s
      · rename_i d v hv
        split
        · exact heq ▸ Separates.space s
        · rename_i hd
          exact .comma heq hv (Bool.not_eq_true _ ▸ hd)
    · exact heq ▸ Separates.space s

/-- What stands behind an item is what the code skips, when items follow. -/
theorem Separates.eq {d : Nat} {mode : UInt8} {front : Bool} {s v r : List UInt8} (h : Separates s front v)
    (hitems : Items d mode front v r) : skipSpaceAndComma s = (front, v) := by
  unfold skipSpaceAndComma
  cases h with
  | comma hs hu hc =>
    rw [hs]
    dsimp only
    rw [if_pos rfl, hu]
    dsimp only
    rw [hc]
    rfl
  | space =>
    obtain ⟨c, t, heq, hbracket⟩ := hitems.head
    rw [heq]
    dsimp only
    rw [if_neg (bracket_facts hbracket).2.1]

/-- No comma stands in front of a closing bracket. -/
theorem skipSpaceAndComma_close {s r : List UInt8} {c : UInt8} (hc : isCloseBracket c = true) (hs : skipWs s = c :: r) :
    skipSpaceAndComma s = (false, c :: r) := by
  have hsep := Separates.space s
  rw [hs] at hsep
  exact hsep.eq (@Items.close 0 lbrace c false r hc)

/-! ### Scalars between two brackets -/

theorem array_front {d passes : Nat} {s r : List UInt8} (h : Items d lbracket false (skipArrayScalarsFrom passes s) r) :
    Items d lbracket true s r := by
  induction passes generalizing s with
  | zero => exact h.front
  | succ passes ih =>
    rw [skipArrayScalarsFrom] at h
    split at h
    · exact h.front
    · rename_i u hu
      have hsep := skipSpaceAndComma_separates u
      generalize skipSpaceAndComma u = p at h hsep
      obtain ⟨front, v⟩ := p
      have hrest : Items d lbracket front v r := by
        cases front with
        | true => exact ih h
        | false => exact h
      exact .scalar (keyed_array.2 rfl) (skipAnyScalar_iff.1 hu) hsep hrest

theorem array_behind {d passes : Nat} {s r : List UInt8} (h : Items d lbracket true s r) (hpasses : s.length ≤ passes) :
    Items d lbracket false (skipArrayScalarsFrom passes s) r := by
  induction passes generalizing s with
  | zero =>
    obtain rfl := List.length_eq_zero_iff.1 (Nat.le_zero.1 hpasses)
    cases h with
    | scalar key value sep rest =>
      obtain rfl := keyed_array.1 key
      cases (skipAnyScalar_iff.2 value).symm.trans skipAnyScalar_nil
    | nested key isOpen inner closes sep rest =>
      rcases key with hkey | ⟨-, hkey⟩
      · cases hkey
      · cases keyed_array.1 hkey
  | succ passes ih =>
    cases h with
    | close h =>
      rw [skipArrayScalarsFrom, skipAnyScalar_bracket (Or.inr h)]
      exact .close h
    | @scalar d mode s t u v r front key value sep rest =>
      obtain rfl := keyed_array.1 key
      rw [← skipAnyScalar_iff] at value
      have hlength := length_skipAnyScalar_lt value
      simp only [skipArrayScalarsFrom, value, sep.eq rest]
      cases front with
      | true =>
        have hcomma := sep.length_lt
        exact ih rest (by omega)
      | false => exact rest
    | nested key isOpen inner closes sep rest =>
      rcases key with rfl | ⟨-, hkey⟩
      · rw [skipArrayScalarsFrom, skipAnyScalar_bracket (Or.inl isOpen)]
        exact .nested (Or.inl rfl) isOpen inner closes sep rest
      · rw [← keyed_array.1 hkey, skipArrayScalarsFrom, skipAnyScalar_bracket (Or.inl isOpen)]
        exact .nested (Or.inl rfl) isOpen inner closes sep rest

theorem object_front {d passes : Nat} {mode : UInt8} (hmode : mode ≠ lbracket) {s r : List UInt8}
    (h : Items d mode false (skipObjectScalarsFrom passes s) r) : Items d mode true s r := by
  induction passes generalizing s with
  | zero => exact h.front
  | succ passes ih =>
    rw [skipObjectScalarsFrom] at h
    split at h
    · exact h.front
    · exact h.front
    · rename_i c t hkey
      have hkeyed := (keyed_object hmode).2 hkey
      split at h
      · rename_i hopen
        generalize hs : c :: t = s' at h
        cases h with
        | close h =>
          obtain rfl := (List.cons.inj hs).1
          rw [not_close_of_open hopen] at h
          cases h
        | nested key isOpen inner closes sep rest =>
          rcases key with rfl | ⟨hfront, -⟩
          · exact .nested (Or.inr ⟨rfl, hs ▸ hkeyed⟩) isOpen inner closes sep rest
          · cases hfront
      · split at h
        · exact h.front
        · rename_i u hu
          have hsep := skipSpaceAndComma_separates u
          generalize skipSpaceAndComma u = p at h hsep
          obtain ⟨front, v⟩ := p
          have hrest : Items d mode front v r := by
            cases front with
            | true => exact ih h
            | false => exact h
          exact .scalar hkeyed (skipAnyScalar_iff.1 hu) hsep hrest

theorem skipObjectScalarsFrom_of_ne {c : UInt8} (h : c ≠ dquote) (passes : Nat) (s : List UInt8) :
    skipObjectScalarsFrom passes (c :: s) = c :: s := by
  cases passes with
  | zero => rfl
  | succ passes => rw [skipObjectScalarsFrom, skipKey_of_ne h]

theorem object_behind {d passes : Nat} {mode : UInt8} (hmode : mode ≠ lbracket) {s r : List UInt8}
    (h : Items d mode true s r) (hpasses : s.length ≤ passes) :
    Items d mode false (skipObjectScalarsFrom passes s) r := by
  induction passes generalizing s with
  | zero =>
    obtain rfl := List.length_eq_zero_iff.1 (Nat.le_zero.1 hpasses)
    have hnone : ∀ t, ¬ Keyed mode [] t := by
      intro t hkey
      cases (keyed_object hmode).1 hkey
    cases h with
    | scalar key value sep rest => exact absurd key (hnone _)
    | nested key isOpen inner closes sep rest =>
      rcases key with hkey | ⟨-, hkey⟩
      · cases hkey
      · exact absurd hkey (hnone _)
  | succ passes ih =>
    cases h with
    | close h =>
      rw [skipObjectScalarsFrom_of_ne (bracket_facts (Or.inr h)).1]
      exact .close h
    | @scalar d mode s t u v r front key value sep rest =>
      rw [keyed_object hmode] at key
      rw [← skipAnyScalar_iff] at value
      cases t with
      | nil =>
        rw [skipAnyScalar_nil] at value
        cases value
      | cons c t =>
        have hopen : isOpenBracket c = false := by
          by_contra hopen
          rw [skipAnyScalar_bracket (Or.inl (Bool.not_eq_false _ ▸ hopen))] at value
          cases value
        have hlength := length_skipKey_lt key
        have hvalue := length_skipAnyScalar_lt value
        simp only [skipObjectScalarsFrom, key, hopen, value, sep.eq rest, Bool.false_eq_true, ite_false]
        cases front with
        | true =>
          have hcomma := sep.length_lt
          exact ih rest (by omega)
        | false => exact rest
    | nested key isOpen inner closes sep rest =>
      rcases key with rfl | ⟨-, hkey⟩
      · rw [skipObjectScalarsFrom_of_ne (bracket_facts (Or.inl isOpen)).1]
        exact .nested (Or.inl rfl) isOpen inner closes sep rest
      · rw [skipObjectScalarsFrom, (keyed_object hmode).1 hkey]
        simp only [isOpen, ite_true]
        exact .nested (Or.inl rfl) isOpen inner closes sep rest

/-- Behind the scalars of a collection its next bracket comes. -/
theorem skipScalars_items {d : Nat} {mode : UInt8} {s r : List UInt8} :
    Items d mode false (skipScalars mode s) r ↔ Items d mode true (skipWs s) r := by
  unfold skipScalars
  dsimp only
  by_cases hmode : mode = lbracket
  · subst hmode
    rw [if_pos rfl]
    exact ⟨array_front, fun h => array_behind h (Nat.le_refl _)⟩
  · rw [if_neg hmode]
    exact ⟨object_front hmode, fun h => object_behind hmode h (Nat.le_refl _)⟩

theorem skipWs_skipWs (s : List UInt8) : skipWs (skipWs s) = skipWs s := List.dropWhile_idempotent isWs s

theorem skipBehindNested_items {d : Nat} {mode : UInt8} {s r : List UInt8} :
    Items d mode false (skipBehindNested mode s) r ↔ ∃ front v, Separates s front v ∧ Items d mode front v r := by
  have hcomma : ∀ v, Separates s true v → skipWs v = v := by
    intro v hsep
    cases hsep with
    | comma hs hu hc => rw [← hu, skipWs_skipWs]
  constructor
  · intro h
    have hsep := skipSpaceAndComma_separates s
    rw [skipBehindNested] at h
    generalize skipSpaceAndComma s = p at h hsep
    obtain ⟨front, v⟩ := p
    refine ⟨front, v, hsep, ?_⟩
    cases front with
    | true =>
      have hitems := skipScalars_items.1 h
      rwa [hcomma v hsep] at hitems
    | false => exact h
  · rintro ⟨front, v, hsep, hitems⟩
    rw [skipBehindNested, hsep.eq hitems]
    cases front with
    | true =>
      refine skipScalars_items.2 ?_
      rwa [hcomma v hsep]
    | false => exact hitems

/-! ### The stack -/

theorem items_close_iff {c : UInt8} (h : isCloseBracket c = true) {d : Nat} {mode : UInt8} {front : Bool}
    {s r : List UInt8} : Items d mode front (c :: s) r ↔ r = c :: s := by
  have hkeyed : ∀ t, Keyed mode (c :: s) t → mode = lbracket ∧ t = c :: s := by
    intro t hkey
    by_cases hmode : mode = lbracket
    · subst hmode
      exact ⟨rfl, keyed_array.1 hkey⟩
    · exact absurd hkey (not_keyed_bracket (Or.inr h) hmode s t)
  constructor
  · intro hitems
    generalize hs : c :: s = s' at hitems hkeyed
    cases hitems with
    | close _ => rfl
    | scalar key value sep rest =>
      obtain ⟨-, rfl⟩ := hkeyed _ key
      rw [← skipAnyScalar_iff, ← hs, skipAnyScalar_bracket (Or.inr h)] at value
      cases value
    | nested key isOpen inner closes sep rest =>
      have heq : c :: s = _ := hs.trans (key.elim id fun hkey => (hkeyed _ hkey.2).2.symm)
      rw [← (List.cons.inj heq).1] at isOpen
      rw [not_close_of_open isOpen] at h
      cases h
  · rintro rfl
    exact .close h

theorem items_open_iff {c : UInt8} (h : isOpenBracket c = true) {d : Nat} {mode : UInt8} {s r : List UInt8} :
    Items d mode false (c :: s) r ↔
      ∃ d' e u, d = d' + 1 ∧ Items d' c false (skipScalars c s) (e :: u) ∧ isMatchingBracket c e = true ∧
        Items d mode false (skipBehindNested mode u) r := by
  constructor
  · intro hitems
    generalize hs : c :: s = s' at hitems
    cases hitems with
    | close hclose =>
      rw [← (List.cons.inj hs).1, not_close_of_open h] at hclose
      cases hclose
    | @nested d mode _ e front front' s' t u v r key isOpen inner closes sep rest =>
      rcases key with heq | ⟨hfront, -⟩
      · obtain ⟨rfl, rfl⟩ := List.cons.inj (hs.trans heq)
        exact ⟨_, _, _, rfl, skipScalars_items.2 inner, closes, skipBehindNested_items.2 ⟨_, _, sep, rest⟩⟩
      · cases hfront
  · rintro ⟨d', e, u, rfl, inner, closes, rest⟩
    obtain ⟨front, v, sep, rest⟩ := skipBehindNested_items.1 rest
    exact .nested (Or.inl rfl) h (skipScalars_items.1 inner) closes sep rest

/-- The collections that are open end one after the other, the outermost one with either bracket. -/
def Unwinds : List UInt8 → List UInt8 → List UInt8 → Prop
  | [], _, _ => False
  | [mode], s, r => ∃ e, Items (jsonMaxDepth - 1) mode false s (e :: r)
  | mode :: below :: stack, s, r =>
    ∃ e u, Items (jsonMaxDepth - (stack.length + 2)) mode false s (e :: u) ∧ isMatchingBracket mode e = true ∧
      Unwinds (below :: stack) (skipBehindNested below u) r

theorem unwinds_open_iff {c mode : UInt8} (h : isOpenBracket c = true) {stack s r : List UInt8} :
    Unwinds (mode :: stack) (c :: s) r ↔
      stack.length + 1 < jsonMaxDepth ∧ Unwinds (c :: mode :: stack) (skipScalars c s) r := by
  have hdepth : ∀ d', jsonMaxDepth - (stack.length + 1) = d' + 1 →
      stack.length + 1 < jsonMaxDepth ∧ d' = jsonMaxDepth - (stack.length + 2) := by
    intro d' hd
    omega
  cases stack with
  | nil =>
    simp only [Unwinds, items_open_iff h]
    constructor
    · rintro ⟨e, d', e', u, hd, inner, closes, rest⟩
      obtain ⟨hlt, rfl⟩ := hdepth d' hd
      exact ⟨hlt, e', u, inner, closes, e, rest⟩
    · rintro ⟨-, e', u, inner, closes, e, rest⟩
      exact ⟨e, _, e', u, rfl, inner, closes, rest⟩
  | cons below stack =>
    simp only [Unwinds, items_open_iff h]
    constructor
    · rintro ⟨e, w, ⟨d', e', u, hd, inner, closes, rest⟩, hmatch, hrest⟩
      obtain ⟨hlt, rfl⟩ := hdepth d' hd
      exact ⟨hlt, e', u, inner, closes, e, w, rest, hmatch, hrest⟩
    · rintro ⟨hlt, e', u, inner, closes, e, w, rest, hmatch, hrest⟩
      refine ⟨e, w, ⟨_, e', u, ?_, inner, closes, rest⟩, hmatch, hrest⟩
      rw [List.length_cons] at hlt ⊢
      omega

theorem not_unwinds_other {c mode : UInt8} (hopen : isOpenBracket c = false) (hclose : isCloseBracket c = false)
    (stack s r : List UInt8) : ¬ Unwinds (mode :: stack) (c :: s) r := by
  have hnone : ∀ {d : Nat} {x : List UInt8}, ¬ Items d mode false (c :: s) x := by
    intro d x h
    obtain ⟨b, t, heq, hb⟩ := h.head
    obtain ⟨rfl, -⟩ := List.cons.inj heq
    rw [hopen, hclose] at hb
    rcases hb with hb | hb <;> cases hb
  cases stack with
  | nil =>
    rintro ⟨_, h⟩
    exact hnone h
  | cons below stack =>
    rintro ⟨_, _, h, -⟩
    exact hnone h

theorem not_unwinds_nil (mode : UInt8) (stack r : List UInt8) : ¬ Unwinds (mode :: stack) [] r := by
  have hnone : ∀ {d : Nat} {x : List UInt8}, ¬ Items d mode false [] x := by
    intro d x h
    obtain ⟨b, t, heq, -⟩ := h.head
    cases heq
  cases stack with
  | nil =>
    rintro ⟨_, h⟩
    exact hnone h
  | cons below stack =>
    rintro ⟨_, _, h, -⟩
    exact hnone h

/-- What the loop does with a closing bracket. -/
def closeCollection (passes : Nat) (c : UInt8) (s : List UInt8) : List UInt8 → JSONStatus × List UInt8
  | top :: below :: rest =>
    if isMatchingBracket top c then skipCollectionFrom passes (below :: rest) (skipBehindNested below s)
    else (.illegalDocument, s)
  | [_] => (.success, s)
  | [] => (.illegalDocument, s)

theorem skipCollectionFrom_cons (passes : Nat) (stack : List UInt8) (c : UInt8) (s : List UInt8) :
    skipCollectionFrom (passes + 1) stack (c :: s) =
      if isOpenBracket c then
        if stack.length = jsonMaxDepth then (.maxDepthExceeded, s)
        else skipCollectionFrom passes (c :: stack) (skipScalars c s)
      else if isCloseBracket c then closeCollection passes c s stack
      else (.illegalDocument, s) := by
  rw [skipCollectionFrom.eq_def]
  rcases stack with _ | ⟨top, _ | ⟨below, rest⟩⟩ <;> rfl

/-- The loop with a stack does what recursion would do. -/
theorem skipCollectionFrom_iff {passes : Nat} {mode : UInt8} {stack s r : List UInt8} (hpasses : s.length ≤ passes)
    (hstack : stack.length < jsonMaxDepth) :
    skipCollectionFrom passes (mode :: stack) s = (.success, r) ↔ Unwinds (mode :: stack) s r := by
  induction passes generalizing mode stack s with
  | zero =>
    obtain rfl := List.length_eq_zero_iff.1 (Nat.le_zero.1 hpasses)
    exact iff_of_false (by simp [skipCollectionFrom]) (not_unwinds_nil mode stack r)
  | succ passes ih =>
    cases s with
    | nil => exact iff_of_false (by simp [skipCollectionFrom]) (not_unwinds_nil mode stack r)
    | cons c s =>
      rw [List.length_cons] at hpasses
      rw [skipCollectionFrom_cons]
      by_cases hopen : isOpenBracket c = true
      · rw [if_pos hopen, unwinds_open_iff hopen]
        by_cases hfull : (mode :: stack).length = jsonMaxDepth
        · rw [if_pos hfull]
          rw [List.length_cons] at hfull
          exact iff_of_false (by simp) (fun h => by omega)
        · rw [if_neg hfull]
          rw [List.length_cons] at hfull
          have hlength := length_skipScalars_le c s
          rw [ih (by omega) (by rw [List.length_cons]; omega)]
          exact (and_iff_right (by omega)).symm
      · rw [if_neg hopen]
        by_cases hclose : isCloseBracket c = true
        · rw [if_pos hclose]
          cases stack with
          | nil =>
            simp only [closeCollection, Unwinds, items_close_iff hclose, Prod.mk.injEq, true_and, List.cons.injEq]
            constructor
            · intro h
              exact ⟨c, rfl, h.symm⟩
            · rintro ⟨_, _, h⟩
              exact h.symm
          | cons below stack =>
            rw [List.length_cons] at hstack
            simp only [closeCollection, Unwinds, items_close_iff hclose, List.cons.injEq]
            by_cases hmatch : isMatchingBracket mode c = true
            · have hlength := length_skipBehindNested_le below s
              rw [if_pos hmatch, ih (by omega) (by omega)]
              constructor
              · intro h
                exact ⟨c, s, ⟨rfl, rfl⟩, hmatch, h⟩
              · rintro ⟨e, u, ⟨rfl, rfl⟩, -, h⟩
                exact h
            · rw [if_neg hmatch]
              refine iff_of_false (by simp) ?_
              rintro ⟨e, u, ⟨rfl, rfl⟩, h, -⟩
              exact hmatch h
        · rw [if_neg hclose]
          exact iff_of_false (by simp) (not_unwinds_other (Bool.not_eq_true _ ▸ hopen) (Bool.not_eq_true _ ▸ hclose) stack s r)

/-! ### Documents -/

/-- A collection as coreJSON takes it: an open bracket, items with at most 31 collections inside one another, and either
closing bracket. -/
def Collection (s r : List UInt8) : Prop :=
  ∃ c t e, s = c :: t ∧ isOpenBracket c = true ∧ Items (jsonMaxDepth - 1) c true (skipWs t) (e :: r)

theorem skipCollection_iff {s r : List UInt8} : skipCollection s = (.success, r) ↔ Collection s r := by
  cases s with
  | nil =>
    refine iff_of_false (by simp [skipCollection, skipCollectionFrom]) ?_
    rintro ⟨_, _, _, h, -⟩
    cases h
  | cons c s =>
    have hlength := length_skipScalars_le c s
    rw [skipCollection, List.length_cons, skipCollectionFrom_cons]
    by_cases hopen : isOpenBracket c = true
    · rw [if_pos hopen, if_neg (by decide), skipCollectionFrom_iff hlength (by decide)]
      constructor
      · rintro ⟨e, h⟩
        exact ⟨c, s, e, rfl, hopen, skipScalars_items.1 h⟩
      · rintro ⟨c', t, e, heq, -, h⟩
        obtain ⟨rfl, rfl⟩ := List.cons.inj heq
        exact ⟨e, skipScalars_items.2 h⟩
    · rw [if_neg hopen]
      have hnone : ¬ Collection (c :: s) r := by
        rintro ⟨c', t, e, heq, hopen', -⟩
        obtain ⟨rfl, -⟩ := List.cons.inj heq
        exact hopen hopen'
      refine iff_of_false ?_ hnone
      split <;> simp [closeCollection]

theorem jsonValidate_of_scalar {buf r : List UInt8} (h : ReadScalar (skipWs buf) r) (hend : skipWs r = []) :
    jsonValidate buf = .success := by
  have hscalar := skipAnyScalar_iff.2 h
  have hne : buf ≠ [] := by
    rintro rfl
    rw [show skipWs [] = [] from rfl, skipAnyScalar_nil] at hscalar
    cases hscalar
  rw [jsonValidate, if_neg hne, hscalar]
  simp [hend]

theorem not_scalar_of_collection {s r : List UInt8} (h : Collection s r) : skipAnyScalar s = none := by
  obtain ⟨c, t, e, rfl, hopen, -⟩ := h
  exact skipAnyScalar_bracket (Or.inl hopen) t

theorem jsonValidate_of_collection {buf r : List UInt8} (h : Collection (skipWs buf) r) (hend : skipWs r = []) :
    jsonValidate buf = .success := by
  have hne : buf ≠ [] := by
    rintro rfl
    obtain ⟨c, t, e, heq, -⟩ := h
    cases heq
  rw [jsonValidate, if_neg hne, not_scalar_of_collection h]
  simp [skipCollection_iff.2 h, hend]

/-- Exactly these texts are accepted. -/
theorem jsonValidate_iff (buf : List UInt8) :
    jsonValidate buf = .success ↔
      ∃ r, (ReadScalar (skipWs buf) r ∨ Collection (skipWs buf) r) ∧ skipWs r = [] := by
  constructor
  · intro h
    unfold jsonValidate at h
    split at h
    · cases h
    · dsimp only at h
      cases hscalar : skipAnyScalar (skipWs buf) with
      | some r =>
        rw [hscalar] at h
        by_cases hend : skipWs r = []
        · exact ⟨r, Or.inl (skipAnyScalar_iff.1 hscalar), hend⟩
        · simp [hend] at h
      | none =>
        rw [hscalar] at h
        generalize hskip : skipCollection (skipWs buf) = result at h
        obtain ⟨status, r⟩ := result
        by_cases hsuccess : status = .success
        · subst hsuccess
          by_cases hend : skipWs r = []
          · exact ⟨r, Or.inr (skipCollection_iff.1 hskip), hend⟩
          · simp [hend] at h
        · simp [hsuccess] at h
  · rintro ⟨r, h | h, hend⟩
    · exact jsonValidate_of_scalar h hend
    · exact jsonValidate_of_collection h hend

end Json.Core
