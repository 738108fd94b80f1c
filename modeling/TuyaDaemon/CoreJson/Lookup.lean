import TuyaDaemon.CoreJson.Search

/-!
# Members in coreJSON

On a JSON text that `JSON_Validate` accepts, the code finds the end of each value where the grammar of JSON has it
(`ends_of_derives`), so `JSON_Search` with one key finds the first member that has it (`jsonSearch_lookup`).  On every text:
what is accepted has no NUL (`jsonValidate_noNul`), and the search for a key stays in front of what it has passed
(`length_objectSearch_le`).
-/

namespace Json.Core

open TuyaDaemon (JSONStatus SimpleQuery unquote)

/-! ### The end of a string -/

/-- Behind a character the string goes on, unless the character is an escape that JSON does not have. -/
theorem ReadChar.stringTail {ch : List UInt8} (h : ReadChar ch) {s r : List UInt8}
    (htail : Json.stringTail .plain (ch ++ s) = some r) : Json.stringTail .plain s = some r := by
  rcases h with h | ⟨c, hzero, hcontrol, rfl⟩
  · rwa [h.stringTail] at htail
  · have hescape : c ∉ escapes ∧ c ≠ 117 := by
      have hescapes : escapes = [34, 92, 47, 98, 102, 110, 114, 116] := by decide
      rw [UInt8.lt_iff_toNat_lt] at hcontrol
      rw [hescapes]
      constructor
      · intro hc
        simp only [List.mem_cons, List.not_mem_nil, or_false] at hc
        rcases hc with rfl | rfl | rfl | rfl | rfl | rfl | rfl | rfl <;> exact absurd hcontrol (by decide)
      · rintro rfl
        exact absurd hcontrol (by decide)
    have hnone : Json.stringTail .plain ([backslash, c] ++ s) = none := by
      show Json.stringTail .escape (c :: s) = none
      rw [Json.stringTail, if_neg hescape.1, if_neg hescape.2]
    rw [hnone] at htail
    cases htail

theorem stringTail_of_read {body w r : List UInt8} (h : MadeOf ReadChar body)
    (htail : Json.stringTail .plain (body ++ dquote :: w) = some r) : w = r := by
  obtain ⟨chars, hchars, rfl⟩ := h
  induction chars with
  | nil => exact Option.some.inj htail
  | cons ch chars ih =>
    obtain ⟨hch, hrest⟩ := List.forall_mem_cons.1 hchars
    rw [List.flatten_cons, List.append_assoc] at htail
    exact ih hrest (hch.stringTail htail)

/-! ### The end of a value -/

/-- A text that starts with a quote is read as a string. -/
theorem skipAnyScalar_quote (s : List UInt8) : skipAnyScalar (dquote :: s) = skipString (dquote :: s) := by
  have hnumber : skipNumber (dquote :: s) = none := by
    rw [skipNumber_eq]
    rfl
  rw [skipAnyScalar, skipAnyLiteral_of_ne (by decide), hnumber, Option.or_none, Option.or_none]

theorem skipString_tail {s u r : List UInt8} (h : skipString (dquote :: s) = some u)
    (htail : Json.stringTail .plain s = some r) : u = r := by
  obtain ⟨body, hbody, heq⟩ := skipString_iff.1 h
  obtain rfl := (List.cons.inj heq).2
  exact stringTail_of_read hbody htail

theorem ReadValue.of_not_open {d : Nat} {c : UInt8} {s r : List UInt8} (h : ReadValue d (c :: s) r)
    (hc : isOpenBracket c = false) : skipAnyScalar (c :: s) = some r := by
  rcases h with h | ⟨_, c', t, e, -, heq, hopen, -⟩
  · exact skipAnyScalar_iff.2 h
  · rw [(List.cons.inj heq).1, hopen] at hc
    cases hc

theorem ReadValue.of_open {d : Nat} {c : UInt8} {s r : List UInt8} (h : ReadValue d (c :: s) r)
    (hc : isOpenBracket c = true) : ∃ d' e, Items d' c true (skipWs s) (e :: r) := by
  rcases h with h | ⟨d', c', t, e, -, heq, -, inner, -⟩
  · rw [← skipAnyScalar_iff, skipAnyScalar_bracket (Or.inl hc)] at h
    cases h
  · obtain ⟨rfl, rfl⟩ := List.cons.inj heq
    exact ⟨d', e, inner⟩

/-- A scalar ends where the grammar has it. -/
theorem ReadValue.scalar_eq {d : Nat} {s r r' : List UInt8} (h : ReadValue d s r') (hscalar : skipAnyScalar s = some r) :
    r' = r := by
  rcases h with h | ⟨_, c, t, e, -, rfl, hopen, -⟩
  · exact Option.some.inj ((skipAnyScalar_iff.2 h).symm.trans hscalar)
  · rw [skipAnyScalar_bracket (Or.inl hopen)] at hscalar
    cases hscalar

/-- Items that do not start with a bracket of their own start with a value, with its key in an object. -/
theorem Items.item {d : Nat} {mode : UInt8} {s r : List UInt8} (h : Items d mode true s r)
    (hclose : ∀ c t, s = c :: t → isCloseBracket c = false)
    (hopen : mode ≠ lbracket → ∀ c t, s = c :: t → isOpenBracket c = false) :
    ∃ t u front v, Keyed mode s t ∧ ReadValue d t u ∧ Separates u front v ∧ Items d mode front v r := by
  cases h with
  | close h =>
    rw [hclose _ _ rfl] at h
    cases h
  | scalar key value sep rest => exact ⟨_, _, _, _, key, Or.inl value, sep, rest⟩
  | @nested d mode c e front front' s t u v r key isOpen inner closes sep rest =>
    have hkeyed : Keyed mode s (c :: t) := by
      rcases key with rfl | ⟨-, hkey⟩
      · by_cases hmode : mode = lbracket
        · subst hmode
          exact keyed_array.2 rfl
        · rw [hopen hmode _ _ rfl] at isOpen
          cases isOpen
      · exact hkey
    exact ⟨_, u, front', v, hkeyed, Or.inr ⟨d, c, t, e, rfl, rfl, isOpen, inner, closes⟩, sep, rest⟩

/-- Behind the last item the closing bracket stands. -/
theorem Items.last {d : Nat} {mode c e : UInt8} {front : Bool} {s u r r' : List UInt8} (hc : isCloseBracket c = true)
    (hend : skipWs u = c :: r) (sep : Separates u front s) (rest : Items d mode front s (e :: r')) : r' = r := by
  obtain ⟨rfl, rfl⟩ := Prod.mk.inj ((sep.eq rest).symm.trans (skipSpaceAndComma_close hc hend))
  exact (List.cons.inj ((items_close_iff hc).1 rest)).2

/-- Behind a comma the next item stands. -/
theorem Items.next {d : Nat} {mode : UInt8} {front : Bool} {s u w r : List UInt8} (hcomma : skipWs u = Json.comma :: w)
    (sep : Separates u front s) (rest : Items d mode front s r) : front = true ∧ s = skipWs w := by
  cases sep with
  | comma hs hu hc =>
    rw [hcomma] at hs
    obtain rfl := (List.cons.inj hs).2
    exact ⟨rfl, hu.symm⟩
  | space =>
    rw [hcomma] at rest
    obtain ⟨c, t, heq, hbracket⟩ := rest.head
    exact absurd (List.cons.inj heq).1.symm (bracket_facts hbracket).2.1

/-- What coreJSON reads of a form ends where the form does. -/
def Ends : Form → List UInt8 → List UInt8 → Prop
  | .value, s, r => ∀ d r', ReadValue d s r' → r' = r
  | .elements, s, r => ∀ d e r', Items d lbracket true s (e :: r') → r' = r
  | .members, s, r => ∀ d e r', Items d lbrace true s (e :: r') → r' = r

theorem not_close_of_head {form : Form} {s r : List UInt8} {ms : List Member} (h : Derives form s ms r) :
    ∀ c t, s = c :: t → isCloseBracket c = false := by
  rintro c t rfl
  obtain ⟨c', u, heq, hbrace, hbracket, -⟩ := h.head
  obtain ⟨rfl, rfl⟩ := List.cons.inj heq
  rw [isCloseBracket, beq_false_of_ne hbrace, beq_false_of_ne hbracket]
  rfl

/-- An item of an array and what stands behind it. -/
theorem Items.element {d : Nat} {s w r : List UInt8} (h : Items d lbracket true s r) (hv : Derives .value s [] w)
    (hends : Ends .value s w) : ∃ front v, Separates w front v ∧ Items d lbracket front v r := by
  obtain ⟨t, u, front, v, hkey, hvalue, sep, rest⟩ := h.item (not_close_of_head hv) (fun hmode => absurd rfl hmode)
  obtain rfl := keyed_array.1 hkey
  obtain rfl := hends d u hvalue
  exact ⟨front, v, sep, rest⟩

/-- A key, its colon and its value. -/
structure Pair (d : Nat) (s s₁ s₂ w : List UInt8) : Prop where
  key : skipString (dquote :: s) = some s₁
  colon : skipWs s₁ = Json.colon :: s₂
  value : ReadValue d (skipWs s₂) w

/-- An item of an object and what stands behind it. -/
theorem Items.member {d : Nat} {s s₁ s₂ w r : List UInt8} (h : Items d lbrace true (dquote :: s) r)
    (hk : Json.stringTail .plain s = some s₁) (hc : skipWs s₁ = Json.colon :: s₂) (hends : Ends .value (skipWs s₂) w) :
    Pair d s s₁ s₂ w ∧ ∃ front v, Separates w front v ∧ Items d lbrace front v r := by
  have hquote : ∀ c t, dquote :: s = c :: t → isCloseBracket c = false ∧ isOpenBracket c = false := by
    intro c t heq
    rw [← (List.cons.inj heq).1]
    decide
  obtain ⟨t, u, front, v, hkey, hvalue, sep, rest⟩ :=
    h.item (fun c t heq => (hquote c t heq).1) (fun _ c t heq => (hquote c t heq).2)
  obtain ⟨s', hstring, hbehind⟩ := Option.bind_eq_some_iff.1 ((keyed_object (by decide)).1 hkey)
  obtain rfl := skipString_tail hstring hk
  rw [hc] at hbehind
  dsimp only at hbehind
  rw [if_pos rfl] at hbehind
  obtain rfl := Option.some.inj hbehind
  obtain rfl := hends d u hvalue
  exact ⟨⟨hstring, hc, hvalue⟩, front, v, sep, rest⟩

/-- By induction on what the grammar derives. -/
theorem ends_of_derives {form : Form} {s r : List UInt8} {ms : List Member} (h : Derives form s ms r) : Ends form s r := by
  have hempty : ∀ {c mode : UInt8} {s r : List UInt8}, isCloseBracket c = true → skipWs s = c :: r →
      ∀ d e r', Items d mode true (skipWs s) (e :: r') → r' = r := by
    intro c mode s r hc hs d e r' hitems
    rw [hs] at hitems
    exact (List.cons.inj ((items_close_iff hc).1 hitems)).2
  induction h with
  | string h =>
    intro d r' hread
    have hscalar := hread.of_not_open (by decide)
    rw [skipAnyScalar_quote] at hscalar
    exact skipString_tail hscalar h
  | literal h => exact fun d r' hread => hread.scalar_eq (skipAnyScalar_iff.2 (.literal h _))
  | number h => exact fun d r' hread => hread.scalar_eq (skipAnyScalar_iff.2 (.number h))
  | emptyObject h =>
    intro d r' hread
    obtain ⟨d', e, hitems⟩ := hread.of_open (by decide)
    exact hempty (by decide) h d' e r' hitems
  | object h ih =>
    intro d r' hread
    obtain ⟨d', e, hitems⟩ := hread.of_open (by decide)
    exact ih d' e r' hitems
  | emptyArray h =>
    intro d r' hread
    obtain ⟨d', e, hitems⟩ := hread.of_open (by decide)
    exact hempty (by decide) h d' e r' hitems
  | array h ih =>
    intro d r' hread
    obtain ⟨d', e, hitems⟩ := hread.of_open (by decide)
    exact ih d' e r' hitems
  | lastElement hv he ih =>
    intro d e r' hitems
    obtain ⟨front, v, sep, rest⟩ := hitems.element hv ih
    exact rest.last (by decide) he sep
  | element hv hc h ihv ih =>
    intro d e r' hitems
    obtain ⟨front, v, sep, rest⟩ := hitems.element hv ihv
    obtain ⟨rfl, rfl⟩ := rest.next hc sep
    exact ih d e r' rest
  | lastMember hk hc hv he ih =>
    intro d e r' hitems
    obtain ⟨-, front, v, sep, rest⟩ := hitems.member hk hc ih
    exact rest.last (by decide) he sep
  | member hk hc hv hcc h ihv ih =>
    intro d e r' hitems
    obtain ⟨-, front, v, sep, rest⟩ := hitems.member hk hc ihv
    obtain ⟨rfl, rfl⟩ := rest.next hcc sep
    exact ih d e r' rest

/-! ### The search for a key -/

theorem Pair.next {d : Nat} (hd : d ≤ jsonMaxDepth) {s s₁ s₂ w : List UInt8} (h : Pair d s s₁ s₂ w) :
    nextKeyValuePair (dquote :: s) =
      some ((s.take (s.length - s₁.length - 1), (skipWs s₂).take ((skipWs s₂).length - w.length)), w) := by
  have hlength : (dquote :: s).length - s₁.length - 2 = s.length - s₁.length - 1 := by
    rw [List.length_cons]
    omega
  rw [nextKeyValuePair, h.key, Option.bind_some, hlength, h.colon]
  simp only [nextValue_of_read hd h.value, List.drop_one, List.tail_cons, ite_true, Option.map_some]

/-- By induction on the members. -/
theorem objectSearchFrom_of_derives {form : Form} {s r : List UInt8} {ms : List Member} (h : Derives form s ms r)
    (hform : form = .members) {d : Nat} (hd : d ≤ jsonMaxDepth) {u : List UInt8} (hitems : Items d lbrace true s u)
    {passes : Nat} (hpasses : s.length ≤ passes) (query : List UInt8) :
    objectSearchFrom query passes s = ms.lookup query := by
  induction h generalizing passes with
  | @lastMember s s₁ s₂ w r hk hc hv he ih =>
    obtain ⟨hpair, -⟩ := hitems.member hk hc (ends_of_derives hv)
    cases passes with
    | zero => cases hpasses
    | succ passes =>
      rw [objectSearchFrom, hpair.next hd, lookup_cons]
      simp only [skipSpaceAndComma_close (by decide) he, Bool.false_eq_true, ite_false, List.lookup_nil]
  | @member s s₁ s₂ w t r ms hk hc hv hcc h ihv ih =>
    obtain ⟨hpair, front, v, sep, rest⟩ := hitems.member hk hc (ends_of_derives hv)
    obtain ⟨rfl, rfl⟩ := rest.next hcc sep
    cases passes with
    | zero => cases hpasses
    | succ passes =>
      have hlength : (skipWs t).length ≤ passes := by
        have h₁ := length_stringTail_lt hk
        have h₂ := length_skipWs_le s₁
        have h₃ := length_skipWs_le s₂
        have h₄ := hv.length_lt
        have h₅ := sep.length_lt
        rw [hc, List.length_cons] at h₂
        rw [List.length_cons] at hpasses
        omega
      rw [objectSearchFrom, hpair.next hd, lookup_cons]
      simp only [sep.eq rest, ite_true]
      rw [ih rfl rest hlength]
  | _ => cases hform

theorem isObject_of_value {s w : List UInt8} (h : Derives .value (lbrace :: s) [] w) {d : List UInt8}
    (hd : skipWs d = lbrace :: s) (hw : skipWs w = []) : ∃ ms, IsObject d ms := by
  generalize hu : lbrace :: s = u at h
  generalize hform : Form.value = form at h
  have hnot : skipAnyScalar u = none := by
    rw [← hu]
    exact skipAnyScalar_bracket (Or.inl (by decide)) s
  cases h with
  | string h => cases (List.cons.inj hu).1
  | literal h => cases (skipAnyScalar_iff.2 (.literal h w)).symm.trans hnot
  | number h => cases (skipAnyScalar_iff.2 (.number h)).symm.trans hnot
  | emptyObject h =>
    rw [hu] at hd
    exact ⟨[], _, w, hd, Or.inr ⟨rfl, h⟩, hw⟩
  | object h =>
    rw [hu] at hd
    exact ⟨_, _, w, hd, Or.inl h, hw⟩
  | emptyArray h => cases (List.cons.inj hu).1
  | array h => cases (List.cons.inj hu).1
  | lastElement hv he => cases hform
  | element hv hc h => cases hform

theorem objectSearch_of_isObject {payload : List UInt8} {ms : List Member} (h : IsObject payload ms)
    (hvalid : jsonValidate payload = .success) (query : List UInt8) : objectSearch query payload = ms.lookup query := by
  obtain ⟨s, w, hs, hms, -⟩ := h
  obtain ⟨r, hread | ⟨c, t, e, heq, -, hitems⟩, -⟩ := (jsonValidate_iff payload).1 hvalid
  · rw [hs, ← skipAnyScalar_iff, skipAnyScalar_bracket (Or.inl (by decide))] at hread
    cases hread
  · obtain ⟨rfl, rfl⟩ := List.cons.inj (hs.symm.trans heq)
    rw [objectSearch, hs]
    dsimp only
    rw [if_pos rfl]
    rcases hms with hms | ⟨rfl, hempty⟩
    · exact objectSearchFrom_of_derives hms rfl (Nat.sub_le _ _) hitems (length_skipWs_le s) query
    · rw [hempty]
      cases s.length with
      | zero => rfl
      | succ passes =>
        rw [objectSearchFrom, nextKeyValuePair, skipString_of_ne (by decide), Option.bind_none, List.lookup_nil]

/-- On JSON that is accepted, the search for a key finds the first member with it. -/
theorem objectSearch_lookup {payload : List UInt8} (hjson : IsValue payload) (hvalid : jsonValidate payload = .success)
    (query : List UInt8) : objectSearch query payload = Json.lookup payload query := by
  obtain ⟨w, hd, hw⟩ := hjson
  obtain ⟨c, s, hs, -⟩ := hd.head
  by_cases hc : c = lbrace
  · subst hc
    rw [hs] at hd
    obtain ⟨ms, hms⟩ := isObject_of_value hd hs hw
    rw [objectSearch_of_isObject hms hvalid, Json.lookup, members_eq_some_iff.2 hms, Option.getD_some]
  · have hnone : members payload = none := by
      rw [members, hs]
      exact if_neg hc
    rw [Json.lookup, hnone, objectSearch, hs]
    exact if_neg hc

/-- A query that is one key is a search in one object. -/
theorem jsonSearch_key (payload : List UInt8) {key : List UInt8} (hkey : SimpleQuery key) :
    (jsonSearch payload key).toOption = (objectSearch key payload).map unquote := by
  obtain ⟨c, k, rfl⟩ := List.exists_cons_of_ne_nil hkey.1
  have hbracket : c ≠ lbracket := fun hc => hkey.2.2 (hc ▸ List.mem_cons_self)
  have hpart := skipQueryPart_key (k := c :: k) hkey []
  rw [queryRest, List.append_nil] at hpart
  by_cases hpayload : payload = []
  · subst hpayload
    rfl
  · rw [jsonSearch, if_neg (fun hempty => hempty.elim hpayload hkey.1), multiSearch, List.length_cons, multiSearchFrom,
      if_neg hbracket]
    simp only [hpart, List.length_nil, Nat.zero_ne_one, ite_false]
    cases objectSearch (c :: k) payload with
    | none => rfl
    | some found => cases k <;> rfl

/-- `JSON_Search` with one key, on JSON that `JSON_Validate` accepts. -/
theorem jsonSearch_lookup {payload key : List UInt8} (hjson : IsValue payload)
    (hvalid : jsonValidate payload = .success) (hkey : SimpleQuery key) :
    (jsonSearch payload key).toOption = (Json.lookup payload key).map unquote := by
  rw [jsonSearch_key payload hkey, objectSearch_lookup hjson hvalid]

/-! ### NUL -/

theorem ReadChar.noNul {ch : List UInt8} (h : ReadChar ch) : 0 ∉ ch := by
  rcases h with h | ⟨c, hc, -, rfl⟩
  · intro hmem
    have htail : Json.stringTail .plain (ch ++ [dquote]) = some [] := by
      rw [h.stringTail]
      rfl
    cases zero_mem_stringTail htail (List.mem_append_left _ hmem)
  · rw [List.mem_cons, List.mem_singleton, not_or]
    exact ⟨by decide, hc.symm⟩

/-- A NUL stands behind a string, or there is none. -/
theorem zero_mem_string {body w : List UInt8} (h : MadeOf ReadChar body) (hmem : 0 ∈ dquote :: (body ++ dquote :: w)) :
    0 ∈ w := by
  obtain ⟨chars, hchars, rfl⟩ := h
  rcases List.mem_append.1 (zero_mem_tail hmem (by decide)) with hbody | hbehind
  · obtain ⟨ch, hch, hzero⟩ := List.mem_flatten.1 hbody
    exact absurd hzero (hchars ch hch).noNul
  · exact zero_mem_tail hbehind (by decide)

theorem zero_mem_behind {c : UInt8} {s u : List UInt8} (hs : skipWs s = c :: u) (hc : c ≠ 0) (hmem : 0 ∈ s) :
    0 ∈ u := by
  have hzero := zero_mem_skipWs hmem
  rw [hs] at hzero
  exact zero_mem_tail hzero hc

theorem ReadScalar.zero_mem {s r : List UInt8} (h : ReadScalar s r) (hmem : 0 ∈ s) : 0 ∈ r := by
  cases h with
  | string h => exact zero_mem_string h hmem
  | literal h => exact (Derives.literal (r := r) h).zero_mem hmem
  | number h => exact zero_mem_number h hmem

theorem Keyed.zero_mem {mode : UInt8} {s t : List UInt8} (h : Keyed mode s t) (hmem : 0 ∈ s) : 0 ∈ t := by
  by_cases hmode : mode = lbracket
  · subst hmode
    rwa [keyed_array.1 h]
  · rw [Keyed, if_neg hmode] at h
    cases h with
    | key h hcolon => exact zero_mem_skipWs (zero_mem_behind hcolon (by decide) (zero_mem_string h hmem))

theorem Separates.zero_mem {s v : List UInt8} {front : Bool} (h : Separates s front v) (hmem : 0 ∈ s) : 0 ∈ v := by
  cases h with
  | comma hs hu hc =>
    rw [← hu]
    exact zero_mem_skipWs (zero_mem_behind hs (by decide) hmem)
  | space => exact zero_mem_skipWs hmem

theorem Items.closed {d : Nat} {mode e : UInt8} {front : Bool} {s r : List UInt8} (h : Items d mode front s (e :: r)) :
    isCloseBracket e = true := by
  generalize ht : e :: r = t at h
  induction h with
  | close h =>
    rw [(List.cons.inj ht).1]
    exact h
  | scalar key value sep rest ih => exact ih ht
  | nested key isOpen inner closes sep rest ihinner ihrest => exact ihrest ht

/-- No item contains a NUL. -/
theorem Items.zero_mem {d : Nat} {mode : UInt8} {front : Bool} {s r : List UInt8} (h : Items d mode front s r)
    (hmem : 0 ∈ s) : 0 ∈ r := by
  have hopen : ∀ {c : UInt8}, isOpenBracket c = true → c ≠ 0 := by
    rintro c hc rfl
    cases hc
  induction h with
  | close h => exact hmem
  | scalar key value sep rest ih => exact ih (sep.zero_mem (value.zero_mem (key.zero_mem hmem)))
  | @nested d mode c e front front' s t u v r key isOpen inner closes sep rest ihinner ihrest =>
    have hstart : 0 ∈ c :: t := by
      rcases key with rfl | ⟨-, key⟩
      · exact hmem
      · exact key.zero_mem hmem
    have hinner := ihinner (zero_mem_skipWs (zero_mem_tail hstart (hopen isOpen)))
    have he : e ≠ 0 := by
      rintro rfl
      cases inner.closed
    exact ihrest (sep.zero_mem (zero_mem_tail hinner he))

/-- A text that is accepted has no NUL. -/
theorem jsonValidate_noNul {payload : List UInt8} (h : jsonValidate payload = .success) : 0 ∉ payload := by
  intro hmem
  obtain ⟨r, hread, hend⟩ := (jsonValidate_iff payload).1 h
  have hr : 0 ∈ r := by
    rcases hread with hread | ⟨c, t, e, hs, hopen, hitems⟩
    · exact hread.zero_mem (zero_mem_skipWs hmem)
    · have hc : c ≠ 0 := by
        rintro rfl
        cases hopen
      have he : e ≠ 0 := by
        rintro rfl
        cases hitems.closed
      exact zero_mem_tail (hitems.zero_mem (zero_mem_skipWs (zero_mem_behind hs hc hmem))) he
  have hzero := zero_mem_skipWs hr
  rw [hend] at hzero
  cases hzero

/-- A text that is accepted starts with no comma. -/
theorem not_jsonValidate_comma (s : List UInt8) : jsonValidate (Json.comma :: s) ≠ .success := by
  intro h
  obtain ⟨r, hread | ⟨c, t, e, hs, hopen, -⟩, -⟩ := (jsonValidate_iff _).1 h
  · rw [skipWs_cons s (by decide), ← skipAnyScalar_iff] at hread
    have hnumber : skipNumber (Json.comma :: s) = none := by
      rw [skipNumber_eq]
      rfl
    rw [skipAnyScalar, skipString_of_ne (by decide), skipAnyLiteral_of_ne (by decide), hnumber] at hread
    cases hread
  · rw [skipWs_cons s (by decide)] at hs
    obtain ⟨rfl, -⟩ := List.cons.inj hs
    cases hopen

/-! ### What is ahead of the search -/

theorem Keyed.length_le {mode : UInt8} {s t : List UInt8} (h : Keyed mode s t) : t.length ≤ s.length := by
  by_cases hmode : mode = lbracket
  · subst hmode
    rw [keyed_array.1 h]
  · exact (length_skipKey_lt ((keyed_object hmode).1 h)).le

theorem Separates.length_le {s v : List UInt8} {front : Bool} (h : Separates s front v) : v.length ≤ s.length := by
  cases front with
  | true => exact h.length_lt.le
  | false =>
    cases h with
    | space => exact length_skipWs_le s

theorem Items.length_le {d : Nat} {mode : UInt8} {front : Bool} {s r : List UInt8} (h : Items d mode front s r) :
    r.length ≤ s.length := by
  induction h with
  | close h => exact Nat.le_refl _
  | scalar key value sep rest ih =>
    have h₁ := key.length_le
    have h₂ := length_skipAnyScalar_lt (skipAnyScalar_iff.2 value)
    have h₃ := sep.length_le
    omega
  | @nested d mode c e front front' s t u v r key isOpen inner closes sep rest ihinner ihrest =>
    have h₁ : (c :: t).length ≤ s.length := by
      rcases key with rfl | ⟨-, key⟩
      · exact Nat.le_refl _
      · exact key.length_le
    have h₂ := length_skipWs_le t
    have h₃ := sep.length_le
    rw [List.length_cons] at h₁ ihinner
    omega

/-- A value and what follows it are not longer than the text. -/
theorem length_nextValue_le {s v r : List UInt8} (h : nextValue s = some (v, r)) :
    v.length ≤ s.length ∧ r.length ≤ s.length := by
  have htake : ∀ n, (s.take n).length ≤ s.length := by
    intro n
    rw [List.length_take]
    exact Nat.min_le_right _ _
  unfold nextValue at h
  split at h
  · rename_i r' hscalar
    obtain ⟨rfl, rfl⟩ := Prod.mk.inj (Option.some.inj h)
    exact ⟨htake _, (length_skipAnyScalar_lt hscalar).le⟩
  · split at h
    · rename_i r' hcollection
      obtain ⟨rfl, rfl⟩ := Prod.mk.inj (Option.some.inj h)
      obtain ⟨c, t, e, rfl, -, hitems⟩ := skipCollection_iff.1 hcollection
      have h₁ := hitems.length_le
      have h₂ := length_skipWs_le t
      rw [List.length_cons] at h₁
      refine ⟨htake _, ?_⟩
      rw [List.length_cons]
      omega
    · cases h

theorem length_nextKeyValuePair_le {s k v r : List UInt8} (h : nextKeyValuePair s = some ((k, v), r)) :
    v.length ≤ s.length ∧ r.length ≤ s.length := by
  obtain ⟨u, hu, h⟩ := Option.bind_eq_some_iff.1 h
  have h₁ := length_skipString_lt hu
  have h₂ := length_skipWs_le u
  dsimp only at h
  split at h
  · cases h
  · rename_i c w hw
    rw [hw, List.length_cons] at h₂
    split at h
    · obtain ⟨⟨v', r'⟩, hvalue, heq⟩ := Option.map_eq_some_iff.1 h
      obtain ⟨hkv, rfl⟩ := Prod.mk.inj heq
      obtain ⟨-, rfl⟩ := Prod.mk.inj hkv
      have h₃ := length_nextValue_le hvalue
      have h₄ := length_skipWs_le w
      dsimp only at h₃ ⊢
      omega
    · cases h

/-- A value that is found lies ahead. -/
theorem length_objectSearchFrom_le {query v : List UInt8} {passes : Nat} {s : List UInt8}
    (h : objectSearchFrom query passes s = some v) : v.length ≤ s.length := by
  induction passes generalizing s with
  | zero => cases h
  | succ passes ih =>
    rw [objectSearchFrom] at h
    split at h
    · cases h
    · rename_i key value r hpair
      have hpair := length_nextKeyValuePair_le hpair
      split at h
      · obtain rfl := Option.some.inj h
        exact hpair.1
      · have hcomma := length_skipSpaceAndComma r
        dsimp only at h
        split at h
        · have hrest := ih h
          omega
        · cases h

/-- What is read of a pair whose key needs no escape. -/
theorem nextKeyValuePair_plain {k k' rest v r : List UInt8} (hk : PlainKey k)
    (h : nextKeyValuePair (dquote :: (k ++ dquote :: colon :: rest)) = some ((k', v), r)) :
    k' = k ∧ nextValue (skipWs rest) = some (v, r) := by
  obtain ⟨u, hu, h⟩ := Option.bind_eq_some_iff.1 h
  obtain rfl := skipString_tail hu (stringTail_plainKey hk _)
  have hlength : (dquote :: (k ++ dquote :: colon :: rest)).length - (colon :: rest).length - 2 = k.length := by
    simp only [List.length_cons, List.length_append]
    omega
  rw [hlength, List.drop_one, List.tail_cons, List.take_left, skipWs_cons rest (by decide)] at h
  dsimp only at h
  rw [if_pos rfl] at h
  obtain ⟨⟨v', r'⟩, hvalue, heq⟩ := Option.map_eq_some_iff.1 h
  obtain ⟨hkv, rfl⟩ := Prod.mk.inj heq
  obtain ⟨rfl, rfl⟩ := Prod.mk.inj hkv
  exact ⟨rfl, hvalue⟩

theorem nextValue_plain {u s v r : List UInt8} (hu : PlainKey u)
    (h : nextValue (dquote :: (u ++ dquote :: s)) = some (v, r)) : r = s := by
  unfold nextValue at h
  rw [skipAnyScalar_quote] at h
  split at h
  · rename_i r' hstring
    obtain ⟨-, rfl⟩ := Prod.mk.inj (Option.some.inj h)
    exact skipString_tail hstring (stringTail_plainKey hu _)
  · split at h
    · rename_i r' hcollection
      obtain ⟨c, t, e, heq, hopen, -⟩ := skipCollection_iff.1 hcollection
      rw [← (List.cons.inj heq).1] at hopen
      cases hopen
    · cases h

/-- A value that is found behind two pairs with other keys lies in the text behind their keys. -/
theorem length_objectSearch_le {k₁ u k₂ rest query v : List UInt8} (hk₁ : PlainKey k₁) (hu : PlainKey u)
    (hk₂ : PlainKey k₂) (hne₁ : query ≠ k₁) (hne₂ : query ≠ k₂)
    (h : objectSearch query (lbrace :: (memberText (k₁, dquote :: (u ++ [dquote])) ++
      Json.comma :: dquote :: (k₂ ++ dquote :: colon :: rest))) = some v) : v.length ≤ rest.length := by
  have htext : memberText (k₁, dquote :: (u ++ [dquote])) ++ Json.comma :: dquote :: (k₂ ++ dquote :: colon :: rest) =
      dquote :: (k₁ ++ dquote :: colon :: dquote :: (u ++ dquote :: Json.comma :: dquote ::
        (k₂ ++ dquote :: colon :: rest))) := by
    simp [memberText]
  rw [htext, objectSearch, skipWs_cons _ (by decide)] at h
  dsimp only at h
  rw [if_pos rfl, skipWs_cons _ (by decide), List.length_cons, objectSearchFrom] at h
  split at h
  · cases h
  · rename_i key value r hpair
    obtain ⟨rfl, hvalue⟩ := nextKeyValuePair_plain hk₁ hpair
    rw [skipWs_cons _ (by decide)] at hvalue
    obtain rfl := nextValue_plain hu hvalue
    have hcomma : skipSpaceAndComma (Json.comma :: dquote :: (k₂ ++ dquote :: colon :: rest)) =
        (true, dquote :: (k₂ ++ dquote :: colon :: rest)) := rfl
    rw [if_neg hne₁, hcomma] at h
    dsimp only at h
    rw [if_pos rfl] at h
    generalize (key ++ dquote :: colon :: dquote :: (u ++ dquote :: Json.comma :: dquote ::
      (k₂ ++ dquote :: colon :: rest))).length = passes at h
    cases passes with
    | zero => cases h
    | succ passes =>
      rw [objectSearchFrom] at h
      split at h
      · cases h
      · rename_i key' value' r' hpair'
        obtain ⟨rfl, hvalue'⟩ := nextKeyValuePair_plain hk₂ hpair'
        have hlength := (length_nextValue_le hvalue').2
        have hskip := length_skipWs_le rest
        have hbehind := length_skipSpaceAndComma r'
        rw [if_neg hne₂] at h
        dsimp only at h
        split at h
        · have hrest := length_objectSearchFrom_le h
          omega
        · cases h

end Json.Core

namespace TuyaDaemon

/-- The coreJSON of the repository. -/
def coreJson : CoreJson where
  validate := Json.Core.jsonValidate
  search payload key := (Json.Core.jsonSearch payload key).toOption

theorem coreJson_search (payload : List UInt8) {key : List UInt8} (hkey : SimpleQuery key) :
    coreJson.search payload key = (Json.Core.objectSearch key payload).map unquote :=
  Json.Core.jsonSearch_key payload hkey

end TuyaDaemon
