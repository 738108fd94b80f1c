import TuyaDaemon.Json.Text

/-!
# Parsing JSON texts

`parse` computes the derivations of `Json.Derives` with fuel, and `members` gives the members of a text that is an
object.  The parser finds every derivation once its fuel exceeds twice the length of the text (`parse_complete`) and
finds nothing else (`parse_sound`), so the members of a text are unique (`members_eq_some_iff`).
-/

namespace Json

/-- The members and what follows the form, when `s` starts with it. -/
def parse : Nat → Form → List UInt8 → Option (List Member × List UInt8)
  | 0, _, _ => none
  | f + 1, .value, s =>
    match s with
    | [] => none
    | c :: s =>
      if c = dquote then (stringTail .plain s).map fun r => ([], r)
      else if c = lbrace then
        match skipWs s with
        | [] => none
        | d :: r => if d = rbrace then some ([], r) else (parse f .members (d :: r)).map fun p => ([], p.2)
      else if c = lbracket then
        match skipWs s with
        | [] => none
        | d :: r => if d = rbracket then some ([], r) else (parse f .elements (d :: r)).map fun p => ([], p.2)
      else
        match literals.find? fun l => decide (l <+: c :: s) with
        | some l => some ([], (c :: s).drop l.length)
        | none => (number (c :: s)).map fun r => ([], r)
  | f + 1, .elements, s =>
    (parse f .value s).bind fun p =>
      match skipWs p.2 with
      | [] => none
      | d :: u =>
        if d = rbracket then some ([], u)
        else if d = comma then parse f .elements (skipWs u)
        else none
  | f + 1, .members, s =>
    match s with
    | [] => none
    | c :: s =>
      if c = dquote then
        (stringTail .plain s).bind fun s₁ =>
          match skipWs s₁ with
          | [] => none
          | d :: s₂ =>
            if d = colon then
              (parse f .value (skipWs s₂)).bind fun p =>
                let m := (s.take (s.length - s₁.length - 1), (skipWs s₂).take ((skipWs s₂).length - p.2.length))
                match skipWs p.2 with
                | [] => none
                | e :: u =>
                  if e = rbrace then some ([m], u)
                  else if e = comma then (parse f .members (skipWs u)).map fun q => (m :: q.1, q.2)
                  else none
            else none
      else none

/-- Fuel that is always enough. -/
def need : Form → Nat → Nat
  | .value, n => 2 * n + 1
  | _, n => 2 * n + 2

@[simp] private theorem lbrace_ne_dquote : lbrace ≠ dquote := by decide

@[simp] private theorem lbracket_ne_dquote : lbracket ≠ dquote := by decide

@[simp] private theorem lbracket_ne_lbrace : lbracket ≠ lbrace := by decide

@[simp] private theorem comma_ne_rbracket : comma ≠ rbracket := by decide

@[simp] private theorem comma_ne_rbrace : comma ≠ rbrace := by decide

private theorem number_head {c : UInt8} {s r : List UInt8} (h : number (c :: s) = some r) :
    c = 45 ∨ isDigit c = true := by
  by_contra hc
  rw [not_or] at hc
  have h48 : c ≠ 48 := by rintro rfl; exact hc.2 (by decide)
  simp [number, intPart, hc.1, hc.2, h48] at h

/-- The first character of a derivable text. -/
theorem Derives.head {form : Form} {s r : List UInt8} {ms : List Member} (h : Derives form s ms r) :
    ∃ c u, s = c :: u ∧ c ≠ rbrace ∧ c ≠ rbracket ∧ c ≠ comma := by
  induction h with
  | string h => exact ⟨_, _, rfl, by decide, by decide, by decide⟩
  | literal h =>
    simp only [literals, List.mem_cons, List.not_mem_nil, or_false] at h
    rcases h with rfl | rfl | rfl
    · exact ⟨_, _, rfl, by decide, by decide, by decide⟩
    · exact ⟨_, _, rfl, by decide, by decide, by decide⟩
    · exact ⟨_, _, rfl, by decide, by decide, by decide⟩
  | @number s r h =>
    rcases s with _ | ⟨c, s⟩
    · cases h
    · have hc := number_head h
      refine ⟨c, s, rfl, ?_, ?_, ?_⟩ <;> rintro rfl <;> revert hc <;> decide
  | emptyObject h => exact ⟨_, _, rfl, by decide, by decide, by decide⟩
  | object h ih => exact ⟨_, _, rfl, by decide, by decide, by decide⟩
  | emptyArray h => exact ⟨_, _, rfl, by decide, by decide, by decide⟩
  | array h ih => exact ⟨_, _, rfl, by decide, by decide, by decide⟩
  | lastElement hv he ih => exact ih
  | element hv hc h ihv ih => exact ihv
  | lastMember hk hc hv he ih => exact ⟨_, _, rfl, by decide, by decide, by decide⟩
  | member hk hc hv hcc h ihv ih => exact ⟨_, _, rfl, by decide, by decide, by decide⟩

private theorem literal_find {l r : List UInt8} (hl : l ∈ literals) :
    literals.find? (fun l' => decide (l' <+: l ++ r)) = some l := by
  simp only [literals, List.mem_cons, List.not_mem_nil, or_false] at hl
  rcases hl with rfl | rfl | rfl <;> simp [literals, CLib.bytes, List.find?]

private theorem number_find {c : UInt8} {s r : List UInt8} (h : number (c :: s) = some r) :
    literals.find? (fun l' => decide (l' <+: c :: s)) = none := by
  have hc := number_head h
  have : c ≠ 116 ∧ c ≠ 102 ∧ c ≠ 110 := by
    refine ⟨?_, ?_, ?_⟩ <;> rintro rfl <;> revert hc <;> decide
  simp [literals, CLib.bytes, List.find?, Ne.symm this.1, Ne.symm this.2.1, Ne.symm this.2.2]

private theorem number_ne {c : UInt8} {s r : List UInt8} (h : number (c :: s) = some r) :
    c ≠ dquote ∧ c ≠ lbrace ∧ c ≠ lbracket := by
  have hc := number_head h
  refine ⟨?_, ?_, ?_⟩ <;> rintro rfl <;> revert hc <;> decide

/-- The parser finds every derivation. -/
theorem parse_complete {form : Form} {s r : List UInt8} {ms : List Member} (h : Derives form s ms r) :
    ∀ f, need form s.length ≤ f → parse f form s = some (ms, r) := by
  induction h with
  | string h =>
    intro f hf
    obtain ⟨f, rfl⟩ : ∃ g, f = g + 1 := ⟨f - 1, by simp [need] at hf; omega⟩
    simp [parse, h]
  | @literal l r h =>
    intro f hf
    obtain ⟨f, rfl⟩ : ∃ g, f = g + 1 := ⟨f - 1, by simp [need] at hf; omega⟩
    have hfind := literal_find (r := r) h
    have hdrop : (l ++ r).drop l.length = r := List.drop_left
    obtain ⟨c, u, hc⟩ : ∃ c u, l ++ r = c :: u := by
      obtain ⟨c, u, hc, -, -⟩ := (Derives.literal (r := r) h).head
      exact ⟨c, u, hc⟩
    have hq : c ≠ dquote ∧ c ≠ lbrace ∧ c ≠ lbracket := by
      simp only [literals, List.mem_cons, List.not_mem_nil, or_false] at h
      rcases h with rfl | rfl | rfl <;> simp [CLib.bytes] at hc <;> rw [← hc.1] <;> decide
    rw [hc] at hfind hdrop ⊢
    simp only [parse, hq.1, hq.2.1, hq.2.2, ite_false, hfind, hdrop]
  | @number s r h =>
    intro f hf
    obtain ⟨f, rfl⟩ : ∃ g, f = g + 1 := ⟨f - 1, by simp [need] at hf; omega⟩
    rcases s with _ | ⟨c, s⟩
    · cases h
    · have hq := number_ne h
      simp only [parse, hq.1, hq.2.1, hq.2.2, ite_false, number_find h, h, Option.map_some]
  | emptyObject h =>
    intro f hf
    obtain ⟨f, rfl⟩ : ∃ g, f = g + 1 := ⟨f - 1, by simp [need] at hf; omega⟩
    simp [parse, h]
  | @object s r ms h ih =>
    intro f hf
    obtain ⟨f, rfl⟩ : ∃ g, f = g + 1 := ⟨f - 1, by simp [need] at hf; omega⟩
    obtain ⟨c, u, hc, hb, -⟩ := h.head
    have hl := length_skipWs_le s
    have := ih f (by simp [need] at hf ⊢; omega)
    rw [hc] at this
    simp [parse, hc, hb, this]
  | emptyArray h =>
    intro f hf
    obtain ⟨f, rfl⟩ : ∃ g, f = g + 1 := ⟨f - 1, by simp [need] at hf; omega⟩
    simp [parse, h]
  | @array s r h ih =>
    intro f hf
    obtain ⟨f, rfl⟩ : ∃ g, f = g + 1 := ⟨f - 1, by simp [need] at hf; omega⟩
    obtain ⟨c, u, hc, -, hb, -⟩ := h.head
    have hl := length_skipWs_le s
    have := ih f (by simp [need] at hf ⊢; omega)
    rw [hc] at this
    simp [parse, hc, hb, this]
  | lastElement hv he ih =>
    intro f hf
    obtain ⟨f, rfl⟩ : ∃ g, f = g + 1 := ⟨f - 1, by simp [need] at hf; omega⟩
    have := ih f (by simp [need] at hf ⊢; omega)
    simp [parse, this, he]
  | @element s w u r hv hc h ihv ih =>
    intro f hf
    obtain ⟨f, rfl⟩ : ∃ g, f = g + 1 := ⟨f - 1, by simp [need] at hf; omega⟩
    have h1 := hv.length_lt
    have h2 := length_skipWs_le w
    have h3 := length_skipWs_le u
    rw [hc, List.length_cons] at h2
    have hv' := ihv f (by simp [need] at hf ⊢; omega)
    have h' := ih f (by simp [need] at hf ⊢; omega)
    simp [parse, hv', hc, h']
  | @lastMember s s₁ s₂ w r hk hc hv he ih =>
    intro f hf
    obtain ⟨f, rfl⟩ : ∃ g, f = g + 1 := ⟨f - 1, by simp [need] at hf; omega⟩
    have h1 := length_stringTail_lt hk
    have h2 := length_skipWs_le s₁
    have h3 := length_skipWs_le s₂
    rw [hc, List.length_cons] at h2
    have := ih f (by simp [need] at hf ⊢; omega)
    simp [parse, hk, hc, this, he]
  | @member s s₁ s₂ w u r ms hk hc hv hcc h ihv ih =>
    intro f hf
    obtain ⟨f, rfl⟩ : ∃ g, f = g + 1 := ⟨f - 1, by simp [need] at hf; omega⟩
    have h1 := length_stringTail_lt hk
    have h2 := length_skipWs_le s₁
    have h3 := length_skipWs_le s₂
    have h4 := hv.length_lt
    have h5 := length_skipWs_le w
    have h6 := length_skipWs_le u
    rw [hc, List.length_cons] at h2
    rw [hcc, List.length_cons] at h5
    have hv' := ihv f (by simp [need] at hf ⊢; omega)
    have h' := ih f (by simp [need] at hf ⊢; omega)
    simp [parse, hk, hc, hv', hcc, h']

/-- The parser finds nothing but derivations. -/
theorem parse_sound {f : Nat} {form : Form} {s r : List UInt8} {ms : List Member}
    (h : parse f form s = some (ms, r)) : Derives form s ms r ∧ (form ≠ .members → ms = []) := by
  induction f generalizing form s ms r with
  | zero => exact absurd h (by simp [parse])
  | succ f ih =>
    cases form with
    | value =>
      rcases s with _ | ⟨c, s⟩
      · exact absurd h (by simp [parse])
      · simp only [parse] at h
        split at h
        · rename_i hc
          subst hc
          obtain ⟨r', hr', e⟩ := Option.map_eq_some_iff.1 h
          cases e
          exact ⟨.string hr', fun _ => rfl⟩
        · split at h
          · rename_i _ hc
            subst hc
            split at h
            · cases h
            · rename_i d u hd
              split at h
              · rename_i hb
                cases h
                exact ⟨.emptyObject (by rw [hd, hb]), fun _ => rfl⟩
              · obtain ⟨p, hp, e⟩ := Option.map_eq_some_iff.1 h
                cases e
                have := (ih hp).1
                rw [← hd] at this
                exact ⟨.object this, fun _ => rfl⟩
          · split at h
            · rename_i _ _ hc
              subst hc
              split at h
              · cases h
              · rename_i d u hd
                split at h
                · rename_i hb
                  cases h
                  exact ⟨.emptyArray (by rw [hd, hb]), fun _ => rfl⟩
                · obtain ⟨p, hp, e⟩ := Option.map_eq_some_iff.1 h
                  cases e
                  obtain ⟨hd', hnil⟩ := ih hp
                  rw [← hd, hnil (by simp)] at hd'
                  exact ⟨.array hd', fun _ => rfl⟩
            · split at h
              · rename_i l hl
                cases h
                have hm := List.mem_of_find?_eq_some hl
                obtain ⟨t, ht⟩ : l <+: c :: s := by simpa using List.find?_some hl
                have := Derives.literal (r := t) hm
                rw [← ht, List.drop_left]
                exact ⟨this, fun _ => rfl⟩
              · obtain ⟨r', hr', e⟩ := Option.map_eq_some_iff.1 h
                cases e
                exact ⟨.number hr', fun _ => rfl⟩
    | elements =>
      simp only [parse] at h
      obtain ⟨p, hp, h⟩ := Option.bind_eq_some_iff.1 h
      obtain ⟨hv, hnil⟩ := ih hp
      rw [hnil (by simp)] at hv
      split at h
      · cases h
      · rename_i d u hd
        split at h
        · rename_i hb
          cases h
          exact ⟨.lastElement hv (by rw [hd, hb]), fun _ => rfl⟩
        · split at h
          · rename_i hc
            obtain ⟨he, hnil'⟩ := ih h
            rw [hnil' (by simp)] at he ⊢
            exact ⟨.element hv (by rw [hd, hc]) he, fun _ => rfl⟩
          · cases h
    | members =>
      rcases s with _ | ⟨c, s⟩
      · exact absurd h (by simp [parse])
      · simp only [parse] at h
        split at h
        · rename_i hc
          subst hc
          obtain ⟨s₁, hk, h⟩ := Option.bind_eq_some_iff.1 h
          split at h
          · cases h
          · rename_i d s₂ hd
            split at h
            · rename_i hcol
              obtain ⟨p, hp, h⟩ := Option.bind_eq_some_iff.1 h
              obtain ⟨hv, hnil⟩ := ih hp
              rw [hnil (by simp)] at hv
              split at h
              · cases h
              · rename_i e u he
                split at h
                · rename_i hb
                  cases h
                  exact ⟨.lastMember hk (by rw [hd, hcol]) hv (by rw [he, hb]), fun hn => absurd rfl hn⟩
                · split at h
                  · rename_i hcc
                    obtain ⟨q, hq, e⟩ := Option.map_eq_some_iff.1 h
                    cases e
                    exact ⟨.member hk (by rw [hd, hcol]) hv (by rw [he, hcc]) (ih hq).1, fun hn => absurd rfl hn⟩
                  · cases h
            · cases h
        · cases h

/-- The members of a text that is an object between whitespace. -/
def members (d : List UInt8) : Option (List Member) :=
  match skipWs d with
  | [] => none
  | c :: s =>
    if c = lbrace then
      match skipWs s with
      | [] => none
      | e :: u =>
        if e = rbrace then if skipWs u = [] then some [] else none
        else
          match parse (2 * d.length + 2) .members (e :: u) with
          | some (ms, w) => if skipWs w = [] then some ms else none
          | none => none
    else none

theorem members_eq_some_iff {d : List UInt8} {ms : List Member} : members d = some ms ↔ IsObject d ms := by
  constructor
  · intro h
    unfold members at h
    split at h
    · cases h
    · rename_i c s hd
      split at h
      · rename_i hc
        subst hc
        split at h
        · cases h
        · rename_i e u he
          split at h
          · rename_i hb
            subst hb
            split at h
            · rename_i hw
              cases h
              exact ⟨s, u, hd, Or.inr ⟨rfl, he⟩, hw⟩
            · cases h
          · split at h
            · rename_i ms' w hp
              split at h
              · rename_i hw
                cases h
                have := (parse_sound hp).1
                rw [← he] at this
                exact ⟨s, w, hd, Or.inl this, hw⟩
              · cases h
            · cases h
      · cases h
  · rintro ⟨s, w, hd, hm, hw⟩
    rcases hm with hm | ⟨rfl, hm⟩
    · obtain ⟨e, u, he, hb, -⟩ := hm.head
      have h1 := length_skipWs_le d
      have h2 := length_skipWs_le s
      rw [hd, List.length_cons] at h1
      have hp := parse_complete hm (2 * d.length + 2) (by simp [need]; omega)
      rw [he] at hp
      simp [members, hd, he, hb, hp, hw]
    · simp [members, hd, hm, hw]

theorem IsObject.unique {d : List UInt8} {ms ms' : List Member} (h : IsObject d ms) (h' : IsObject d ms') :
    ms = ms' := by
  have h1 := members_eq_some_iff.2 h
  have h2 := members_eq_some_iff.2 h'
  exact Option.some.inj (h1.symm.trans h2)

/-- The text of the first member with this key, of a text that is an object. -/
def lookup (d key : List UInt8) : Option (List UInt8) :=
  ((members d).getD []).lookup key

end Json
