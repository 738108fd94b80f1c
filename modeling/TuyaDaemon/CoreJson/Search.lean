import TuyaDaemon.CoreJson.Documents

/-!
# Queries in coreJSON

`JSON_Search`.  A value is the text that `outValue` and `outValueLength` describe.  `At` says what stands at a path of
keys and indexes in a document, and `jsonSearch_path` that the search for the text of a path finds it.
-/

namespace Json.Core

open CLib
open TuyaDaemon (JSONStatus unquote)

/-! ### The search -/

/-- `nextValue`: the text of the value, and what follows it. -/
def nextValue (s : List UInt8) : Option (List UInt8 × List UInt8) :=
  match skipAnyScalar s with
  | some r => some (s.take (s.length - r.length), r)
  | none =>
    match skipCollection s with
    | (.success, r) => some (s.take (s.length - r.length), r)
    | _ => none

/-- `nextKeyValuePair`: the text between the quotes of the key, the text of the value, and what follows the pair. -/
def nextKeyValuePair (s : List UInt8) : Option ((List UInt8 × List UInt8) × List UInt8) :=
  (skipString s).bind fun u =>
    let key := (s.drop 1).take (s.length - u.length - 2)
    match skipWs u with
    | [] => none
    | c :: v => if c = colon then (nextValue (skipWs v)).map fun p => ((key, p.1), p.2) else none

/-- The loop of `objectSearch`; a pass moves the index. -/
def objectSearchFrom (query : List UInt8) : Nat → List UInt8 → Option (List UInt8)
  | 0, _ => none
  | passes + 1, s =>
    match nextKeyValuePair s with
    | none => none
    | some ((key, value), r) =>
      if query = key then some value
      else
        let (comma, v) := skipSpaceAndComma r
        if comma then objectSearchFrom query passes v else none

/-- `objectSearch` -/
def objectSearch (query buf : List UInt8) : Option (List UInt8) :=
  match skipWs buf with
  | [] => none
  | c :: s => if c = lbrace then objectSearchFrom query s.length (skipWs s) else none

/-- The loop of `arraySearch`. -/
def arraySearchFrom (queryIndex : UInt32) : Nat → UInt32 → List UInt8 → Option (List UInt8)
  | 0, _, _ => none
  | passes + 1, currentIndex, s =>
    match nextValue s with
    | none => none
    | some (value, r) =>
      if currentIndex = queryIndex then some value
      else
        let (comma, v) := skipSpaceAndComma r
        if comma then arraySearchFrom queryIndex passes (currentIndex + 1) v else none

/-- `arraySearch` -/
def arraySearch (queryIndex : UInt32) (buf : List UInt8) : Option (List UInt8) :=
  match skipWs buf with
  | [] => none
  | c :: s => if c = lbracket then arraySearchFrom queryIndex s.length 0 (skipWs s) else none

/-- `JSON_QUERY_KEY_SEPARATOR` -/
abbrev dot : UInt8 := 46

/-- `skipQueryPart`: the part, and the query behind it. -/
def skipQueryPart (query : List UInt8) : Option (List UInt8 × List UInt8) :=
  let part := query.takeWhile fun c => c != dot && c != lbracket
  if part = [] then none else some (part, query.drop part.length)

/-- The separator behind a part is optional. -/
def skipSeparator : List UInt8 → List UInt8
  | [] => []
  | c :: query => if c = dot then query else c :: query

/-- The loop of `multiSearch`, with the text of the value that is searched. -/
def multiSearchFrom : Nat → List UInt8 → List UInt8 → Except JSONStatus (List UInt8)
  | 0, value, _ => .ok value
  | _ + 1, value, [] => .ok value
  | passes + 1, value, c :: query =>
    if c = lbracket then
      let (queryIndex, ahead) := (skipDigits query).getD (-1, query)
      match ahead with
      | [] => .error .badParameter
      | e :: ahead =>
        if queryIndex < 0 ∨ e ≠ rbracket then .error .badParameter
        else
          match arraySearch (UInt32.ofNat queryIndex.toNat) value with
          | none => .error .notFound
          | some found => multiSearchFrom passes found (skipSeparator ahead)
    else
      match skipQueryPart (c :: query) with
      | none => .error .badParameter
      | some (key, ahead) =>
        -- a part that one character follows is taken for one with a separator at the end
        if ahead.length = 1 then .error .badParameter
        else
          match objectSearch key value with
          | none => .error .notFound
          | some found => multiSearchFrom passes found (skipSeparator ahead)

/-- `multiSearch` -/
def multiSearch (buf query : List UInt8) : Except JSONStatus (List UInt8) := multiSearchFrom query.length buf query

/-- `JSON_Search`, without the quotes of a string. -/
def jsonSearch (buf query : List UInt8) : Except JSONStatus (List UInt8) :=
  if buf = [] ∨ query = [] then .error .badParameter else (multiSearch buf query).map unquote

/-! ### The next value and the next pair -/

theorem nextValue_of_read {d : Nat} (hd : d ≤ jsonMaxDepth) {s r : List UInt8} (h : ReadValue d s r) :
    nextValue s = some (s.take (s.length - r.length), r) := by
  rcases h.mono hd with hread | ⟨d', c, t, e, hmax, rfl, hopen, inner, -⟩
  · rw [nextValue, skipAnyScalar_iff.2 hread]
  · have hcollection : skipCollection (c :: t) = (.success, r) := by
      refine skipCollection_iff.2 ⟨c, t, e, rfl, hopen, ?_⟩
      rwa [hmax, Nat.add_sub_cancel]
    simp only [nextValue, skipAnyScalar_bracket (Or.inl hopen), hcollection]

theorem lookup_cons (query k v : List UInt8) (ms : List Member) :
    ((k, v) :: ms).lookup query = if query = k then some v else ms.lookup query := by
  rw [List.lookup_cons]
  by_cases hk : query = k
  · rw [if_pos hk, hk, beq_self_eq_true]
  · rw [if_neg hk, beq_false_of_ne hk]

/-- A document: a value that is nested at most 32 deep, between space. -/
structure Document (buf t : List UInt8) (ms : List Member) : Prop where
  text : Text jsonMaxDepth .value t ms
  layout : ∃ ws ws', Blank ws ∧ Blank ws' ∧ buf = ws ++ (t ++ ws')

theorem Text.document {t : List UInt8} {ms : List Member} (h : Text jsonMaxDepth .value t ms) : Document t t ms :=
  ⟨h, [], [], fun _ hmem => absurd hmem List.not_mem_nil, fun _ hmem => absurd hmem List.not_mem_nil,
    (List.append_nil t).symm⟩

/-- A step of a path. -/
inductive Step where
  | key (k : List UInt8)
  | index (n : Nat)

/-- The text of a step that a query can have. -/
def Step.Plain : Step → Prop
  | .key k => k ≠ [] ∧ dot ∉ k ∧ lbracket ∉ k
  | .index n => n ≤ 0x7FFFFFF7

/-- What a step selects in a document. -/
inductive Selects : List UInt8 → Step → List UInt8 → Prop where
  | key {buf t k v : List UInt8} {ms : List Member} (h : Document buf (lbrace :: t) ms) (hv : ms.lookup k = some v) :
      Selects buf (.key k) v
  | index {buf t k v : List UInt8} {es : List Member} {n : Nat} (h : Document buf (lbracket :: t) es)
      (hv : es[n]? = some (k, v)) : Selects buf (.index n) v

/-- What stands at a path in a document. -/
inductive At : List UInt8 → List Step → List UInt8 → Prop where
  | here (buf : List UInt8) : At buf [] buf
  | step {buf v w : List UInt8} {step : Step} {path : List Step} (h : Selects buf step v) (rest : At v path w) :
      At buf (step :: path) w

/-- The items of a collection are less deep. -/
theorem Text.item {d : Nat} {form : Form} {t : List UInt8} {ms : List Member} (h : Text d form t ms) :
    ∀ m ∈ ms, ∃ ms', Text d .value m.2 ms' := by
  have hsucc : ∀ {d : Nat} {ms : List Member}, (∀ m ∈ ms, ∃ ms', Text d .value m.2 ms') →
      ∀ m ∈ ms, ∃ ms', Text (d + 1) .value m.2 ms' := by
    intro d ms h m hm
    obtain ⟨ms', hms'⟩ := h m hm
    exact ⟨ms', hms'.mono (Nat.le_succ d)⟩
  induction h with
  | string h => exact fun m hm => absurd hm List.not_mem_nil
  | literal h => exact fun m hm => absurd hm List.not_mem_nil
  | number h => exact fun m hm => absurd hm List.not_mem_nil
  | emptyObject blank => exact fun m hm => absurd hm List.not_mem_nil
  | object blank h blank' ih => exact hsucc ih
  | emptyArray blank => exact fun m hm => absurd hm List.not_mem_nil
  | array blank h blank' ih => exact hsucc ih
  | lastElement hv ih => exact List.forall_mem_singleton.2 ⟨_, hv⟩
  | element hv blank blank' h ihv ih => exact List.forall_mem_cons.2 ⟨⟨_, hv⟩, ih⟩
  | lastMember hk blank blank' hv ih => exact List.forall_mem_singleton.2 ⟨_, hv⟩
  | member hk blank blank' hv blank₁ blank₂ h ihv ih => exact List.forall_mem_cons.2 ⟨⟨_, hv⟩, ih⟩

theorem mem_of_lookup {ms : List Member} {k v : List UInt8} (h : ms.lookup k = some v) : (k, v) ∈ ms := by
  obtain ⟨front, back, rfl, -⟩ := List.lookup_eq_some_iff.1 h
  exact List.mem_append_right front List.mem_cons_self

theorem Selects.document {buf v : List UInt8} {step : Step} (h : Selects buf step v) : ∃ ms, Document v v ms := by
  cases h with
  | @key t k _ ms h hv =>
    obtain ⟨ms', htext⟩ := h.text.item (k, v) (mem_of_lookup hv)
    exact ⟨ms', htext.document⟩
  | @index t k _ es n h hv =>
    obtain ⟨ms', htext⟩ := h.text.item (k, v) (List.mem_of_getElem? hv)
    exact ⟨ms', htext.document⟩

theorem Document.skipWs {buf t : List UInt8} {ms : List Member} (h : Document buf t ms) :
    ∃ ws, Json.skipWs buf = t ++ ws := by
  obtain ⟨ws, ws', blank, -, rfl⟩ := h.layout
  exact ⟨ws', h.text.behind_blank blank ws'⟩

/-- The text of a path behind its first step. -/
def queryRest : List Step → List UInt8
  | [] => []
  | .key k :: path => dot :: (k ++ queryRest path)
  | .index n :: path => lbracket :: (decimal n ++ rbracket :: queryRest path)

/-- A part of a query ends in front of the next step. -/
theorem skipQueryPart_key {k : List UInt8} (hk : (Step.key k).Plain) (path : List Step) :
    skipQueryPart (k ++ queryRest path) = some (k, queryRest path) := by
  obtain ⟨hne, hdot, hbracket⟩ := hk
  have hall : ∀ c ∈ k, (c != dot && c != lbracket) = true := by
    intro c hc
    rw [Bool.and_eq_true, bne_iff_ne, bne_iff_ne]
    exact ⟨fun h => hdot (h ▸ hc), fun h => hbracket (h ▸ hc)⟩
  have hrest : (queryRest path).takeWhile (fun c => c != dot && c != lbracket) = [] := by
    cases path with
    | nil => rfl
    | cons step path =>
      cases step with
      | key k => rfl
      | index n => rfl
  have htake : (k ++ queryRest path).takeWhile (fun c => c != dot && c != lbracket) = k := by
    rw [List.takeWhile_append_of_pos hall, hrest, List.append_nil]
  simp only [skipQueryPart, htake, if_neg hne, List.drop_left]

end Json.Core
