import TuyaDaemon.CoreJson.Grammar
import TuyaDaemon.Json.Build

/-!
# JSON documents in coreJSON

`Text` generates JSON texts with their members, in any layout, up to a depth; a string has no `\u0000` and no single
surrogate.  Such a text is JSON in the sense of `Json.Derives` (`Text.derives`), and coreJSON accepts each of them that
is nested at most 32 deep (`jsonValidate_document`).
-/

namespace Json.Core

open CLib
open TuyaDaemon (JSONStatus)

/-! ### The grammar -/

def Blank (ws : List UInt8) : Prop := ∀ c ∈ ws, isWs c = true

/-- A JSON text that is nested at most so deep.  A collection comes with its items in order, each with its key, which is
empty in an array. -/
inductive Text : Nat → Form → List UInt8 → List Member → Prop where
  | string {d : Nat} {body : List UInt8} (h : MadeOf StringChar body) :
      Text d .value (dquote :: (body ++ [dquote])) []
  | literal {d : Nat} {l : List UInt8} (h : l ∈ literals) : Text d .value l []
  | number {d : Nat} {t : List UInt8} (h : number t = some []) : Text d .value t []
  | emptyObject {d : Nat} {ws : List UInt8} (blank : Blank ws) : Text (d + 1) .value (lbrace :: (ws ++ [rbrace])) []
  | object {d : Nat} {ws t ws' : List UInt8} {ms : List Member} (blank : Blank ws) (h : Text d .members t ms)
      (blank' : Blank ws') : Text (d + 1) .value (lbrace :: (ws ++ (t ++ (ws' ++ [rbrace])))) ms
  | emptyArray {d : Nat} {ws : List UInt8} (blank : Blank ws) : Text (d + 1) .value (lbracket :: (ws ++ [rbracket])) []
  | array {d : Nat} {ws t ws' : List UInt8} {es : List Member} (blank : Blank ws) (h : Text d .elements t es)
      (blank' : Blank ws') : Text (d + 1) .value (lbracket :: (ws ++ (t ++ (ws' ++ [rbracket])))) es
  | lastElement {d : Nat} {v : List UInt8} {ms : List Member} (hv : Text d .value v ms) : Text d .elements v [([], v)]
  | element {d : Nat} {v ws ws' t : List UInt8} {ms es : List Member} (hv : Text d .value v ms) (blank : Blank ws)
      (blank' : Blank ws') (h : Text d .elements t es) :
      Text d .elements (v ++ (ws ++ comma :: (ws' ++ t))) (([], v) :: es)
  | lastMember {d : Nat} {k ws ws' v : List UInt8} {ms : List Member} (hk : MadeOf StringChar k) (blank : Blank ws)
      (blank' : Blank ws') (hv : Text d .value v ms) :
      Text d .members (dquote :: (k ++ dquote :: (ws ++ colon :: (ws' ++ v)))) [(k, v)]
  | member {d : Nat} {k ws ws' v ws₁ ws₂ t : List UInt8} {ms rest : List Member} (hk : MadeOf StringChar k)
      (blank : Blank ws) (blank' : Blank ws') (hv : Text d .value v ms) (blank₁ : Blank ws₁) (blank₂ : Blank ws₂)
      (h : Text d .members t rest) :
      Text d .members (dquote :: (k ++ dquote :: (ws ++ colon :: (ws' ++ (v ++ (ws₁ ++ comma :: (ws₂ ++ t)))))))
        ((k, v) :: rest)

theorem Text.mono {d d' : Nat} (hle : d ≤ d') {form : Form} {t : List UInt8} {ms : List Member} (h : Text d form t ms) :
    Text d' form t ms := by
  induction h generalizing d' with
  | string h => exact .string h
  | literal h => exact .literal h
  | number h => exact .number h
  | emptyObject blank =>
    obtain ⟨d', rfl⟩ := Nat.exists_eq_succ_of_ne_zero (Nat.ne_of_gt (Nat.lt_of_lt_of_le (Nat.succ_pos _) hle))
    exact .emptyObject blank
  | object blank h blank' ih =>
    obtain ⟨d', rfl⟩ := Nat.exists_eq_succ_of_ne_zero (Nat.ne_of_gt (Nat.lt_of_lt_of_le (Nat.succ_pos _) hle))
    exact .object blank (ih (Nat.le_of_succ_le_succ hle)) blank'
  | emptyArray blank =>
    obtain ⟨d', rfl⟩ := Nat.exists_eq_succ_of_ne_zero (Nat.ne_of_gt (Nat.lt_of_lt_of_le (Nat.succ_pos _) hle))
    exact .emptyArray blank
  | array blank h blank' ih =>
    obtain ⟨d', rfl⟩ := Nat.exists_eq_succ_of_ne_zero (Nat.ne_of_gt (Nat.lt_of_lt_of_le (Nat.succ_pos _) hle))
    exact .array blank (ih (Nat.le_of_succ_le_succ hle)) blank'
  | lastElement hv ih => exact .lastElement (ih hle)
  | element hv blank blank' h ihv ih => exact .element (ihv hle) blank blank' (ih hle)
  | lastMember hk blank blank' hv ih => exact .lastMember hk blank blank' (ih hle)
  | member hk blank blank' hv blank₁ blank₂ h ihv ih =>
    exact .member hk blank blank' (ihv hle) blank₁ blank₂ (ih hle)

/-! ### First characters and space -/

theorem skipWs_blank {ws : List UInt8} (h : Blank ws) (s : List UInt8) : skipWs (ws ++ s) = skipWs s := by
  induction ws with
  | nil => rfl
  | cons c ws ih =>
    obtain ⟨hc, hws⟩ := List.forall_mem_cons.1 h
    rw [List.cons_append, skipWs, List.dropWhile_cons_of_pos hc]
    exact ih hws

theorem skipWs_blank_cons {ws : List UInt8} (h : Blank ws) {c : UInt8} (hc : isWs c = false) (s : List UInt8) :
    skipWs (ws ++ c :: s) = c :: s := by
  rw [skipWs_blank h, skipWs_cons s hc]

theorem Text.first {d : Nat} {form : Form} {t : List UInt8} {ms : List Member} (h : Text d form t ms) :
    ∃ c u, t = c :: u ∧ isWs c = false ∧ isCloseBracket c = false := by
  induction h with
  | string h => exact ⟨_, _, rfl, by decide, by decide⟩
  | literal h =>
    simp only [literals, List.mem_cons, List.not_mem_nil, or_false] at h
    rcases h with rfl | rfl | rfl
    · exact ⟨_, _, rfl, by decide, by decide⟩
    · exact ⟨_, _, rfl, by decide, by decide⟩
    · exact ⟨_, _, rfl, by decide, by decide⟩
  | @number d t h =>
    cases t with
    | nil => cases h
    | cons c t =>
      refine ⟨c, t, rfl, ?_⟩
      rcases number_sign h with rfl | hdigit
      · decide
      · simp only [isDigit, decide_eq_true_eq, UInt8.le_iff_toNat_le] at hdigit
        have hne : ∀ b : UInt8, b.toNat < 48 ∨ 57 < b.toNat → (c == b) = false := by
          intro b hb
          refine beq_false_of_ne ?_
          rintro rfl
          have h₁ : (48 : UInt8).toNat = 48 ∧ (57 : UInt8).toNat = 57 := ⟨rfl, rfl⟩
          omega
        have h₂ : (c == 32) = false ∧ (c == 9) = false ∧ (c == 10) = false ∧ (c == 13) = false :=
          ⟨hne _ (by decide), hne _ (by decide), hne _ (by decide), hne _ (by decide)⟩
        have h₃ : (c == rbrace) = false ∧ (c == rbracket) = false := ⟨hne _ (by decide), hne _ (by decide)⟩
        rw [isWs, isCloseBracket, h₂.1, h₂.2.1, h₂.2.2.1, h₂.2.2.2, h₃.1, h₃.2]
        exact ⟨rfl, rfl⟩
  | emptyObject blank => exact ⟨_, _, rfl, by decide, by decide⟩
  | object blank h blank' ih => exact ⟨_, _, rfl, by decide, by decide⟩
  | emptyArray blank => exact ⟨_, _, rfl, by decide, by decide⟩
  | array blank h blank' ih => exact ⟨_, _, rfl, by decide, by decide⟩
  | lastElement hv ih => exact ih
  | element hv blank blank' h ihv ih =>
    obtain ⟨c, u, rfl, hc⟩ := ihv
    exact ⟨c, _, rfl, hc⟩
  | lastMember hk blank blank' hv ih => exact ⟨_, _, rfl, by decide, by decide⟩
  | member hk blank blank' hv blank₁ blank₂ h ihv ih => exact ⟨_, _, rfl, by decide, by decide⟩

theorem Text.behind_blank {d : Nat} {form : Form} {t : List UInt8} {ms : List Member} (h : Text d form t ms)
    {ws : List UInt8} (blank : Blank ws) (s : List UInt8) : skipWs (ws ++ (t ++ s)) = t ++ s := by
  obtain ⟨c, u, rfl, hc, -⟩ := h.first
  exact skipWs_blank_cons blank hc _

/-- Space, or what stands behind a value, does not continue a number. -/
theorem numberEnd_blank {ws : List UInt8} (h : Blank ws) {s : List UInt8} (hs : NumberEnd s) : NumberEnd (ws ++ s) := by
  cases ws with
  | nil => exact hs
  | cons c ws =>
    intro b hb
    obtain rfl : c = b := Option.some.inj hb
    have hc := h c List.mem_cons_self
    simp only [isWs, Bool.or_eq_true, beq_iff_eq] at hc
    rcases hc with ((rfl | rfl) | rfl) | rfl <;> decide

theorem numberEnd_of_mem {c : UInt8} (h : c ∈ [comma, rbrace, rbracket]) (s : List UInt8) : NumberEnd (c :: s) := by
  intro b hb
  obtain rfl : c = b := Option.some.inj hb
  simp only [List.mem_cons, List.not_mem_nil, or_false] at h
  rcases h with rfl | rfl | rfl <;> decide

/-! ### coreJSON reads them -/

/-- What the code finds of a value. -/
def ReadValue (d : Nat) (s r : List UInt8) : Prop :=
  ReadScalar s r ∨ ∃ d' c t e, d = d' + 1 ∧ s = c :: t ∧ isOpenBracket c = true ∧
    Items d' c true (skipWs t) (e :: r) ∧ isMatchingBracket c e = true

/-- An item and what stands behind it. -/
theorem ReadValue.items {d : Nat} {mode : UInt8} {s t u v r : List UInt8} {front : Bool} (h : ReadValue d t u)
    (key : Keyed mode s t) (sep : Separates u front v) (rest : Items d mode front v r) : Items d mode true s r := by
  rcases h with h | ⟨d', c, t', e, rfl, rfl, hopen, inner, closes⟩
  · exact .scalar key h sep rest
  · exact .nested (Or.inr ⟨rfl, key⟩) hopen inner closes sep rest

theorem ReadValue.mono {d d' : Nat} (hle : d ≤ d') {s r : List UInt8} (h : ReadValue d s r) : ReadValue d' s r := by
  rcases h with h | ⟨e, c, t, b, rfl, rfl, hopen, inner, closes⟩
  · exact Or.inl h
  · obtain ⟨e', rfl⟩ := Nat.exists_eq_succ_of_ne_zero (Nat.ne_of_gt (Nat.lt_of_lt_of_le (Nat.succ_pos _) hle))
    exact Or.inr ⟨e', c, t, b, rfl, rfl, hopen, inner.mono (Nat.le_of_succ_le_succ hle), closes⟩

/-- What the code finds of each form. -/
def Reads (d : Nat) : Form → List UInt8 → Prop
  | .value, t => ∀ r, NumberEnd r → ReadValue d (t ++ r) r
  | .elements, t => ∀ ws r, Blank ws → Items d lbracket true (t ++ (ws ++ rbracket :: r)) (rbracket :: r)
  | .members, t => ∀ ws r, Blank ws → Items d lbrace true (t ++ (ws ++ rbrace :: r)) (rbrace :: r)

theorem separates_close {ws : List UInt8} (h : Blank ws) {e : UInt8} (he : isWs e = false) (r : List UInt8) :
    Separates (ws ++ e :: r) false (e :: r) := by
  have hsep := Separates.space (ws ++ e :: r)
  rwa [skipWs_blank_cons h he] at hsep

theorem Text.separates {d : Nat} {form : Form} {t : List UInt8} {ms : List Member} (h : Text d form t ms)
    {ws ws' : List UInt8} (blank : Blank ws) (blank' : Blank ws') (s : List UInt8) :
    Separates (ws ++ comma :: (ws' ++ (t ++ s))) true (t ++ s) := by
  have hskip := h.behind_blank blank' s
  obtain ⟨c, u, rfl, -, hc⟩ := h.first
  exact .comma (skipWs_blank_cons blank (by decide) _) hskip hc

theorem Text.readKey {d : Nat} {form : Form} {v : List UInt8} {ms : List Member} (h : Text d form v ms)
    {k ws ws' : List UInt8} (hk : MadeOf StringChar k) (blank : Blank ws) (blank' : Blank ws') (s : List UInt8) :
    ReadKey (dquote :: (k ++ dquote :: (ws ++ colon :: (ws' ++ (v ++ s))))) (v ++ s) := by
  have hkey := ReadKey.key (hk.mono fun ch hch => Or.inl hch) (skipWs_blank_cons blank (by decide) (ws' ++ (v ++ s)))
  rwa [h.behind_blank blank'] at hkey

theorem Text.reads {d : Nat} {form : Form} {t : List UInt8} {ms : List Member} (h : Text d form t ms) :
    Reads d form t := by
  have hmode : lbrace ≠ lbracket := by decide
  have hcomma : ∀ s, NumberEnd (comma :: s) := numberEnd_of_mem (by decide)
  induction h with
  | @string d body h =>
    intro r _
    left
    rw [List.cons_append, List.append_assoc, List.singleton_append]
    exact .string (h.mono fun ch hch => Or.inl hch) r
  | literal h => exact fun r _ => Or.inl (.literal h r)
  | number h => exact fun r hr => Or.inl (.number (number_append hr h))
  | @emptyObject d ws blank =>
    intro r _
    refine Or.inr ⟨d, lbrace, ws ++ rbrace :: r, rbrace, rfl, by simp, by decide, ?_, by decide⟩
    rw [skipWs_blank_cons blank (by decide)]
    exact .close (by decide)
  | @object d ws t ws' ms blank h blank' ih =>
    intro r _
    refine Or.inr ⟨d, lbrace, ws ++ (t ++ (ws' ++ rbrace :: r)), rbrace, rfl, by simp, by decide, ?_, by decide⟩
    rw [h.behind_blank blank]
    exact ih ws' r blank'
  | @emptyArray d ws blank =>
    intro r _
    refine Or.inr ⟨d, lbracket, ws ++ rbracket :: r, rbracket, rfl, by simp, by decide, ?_, by decide⟩
    rw [skipWs_blank_cons blank (by decide)]
    exact .close (by decide)
  | @array d ws t ws' es blank h blank' ih =>
    intro r _
    refine Or.inr ⟨d, lbracket, ws ++ (t ++ (ws' ++ rbracket :: r)), rbracket, rfl, by simp, by decide, ?_, by decide⟩
    rw [h.behind_blank blank]
    exact ih ws' r blank'
  | lastElement hv ih =>
    intro ws r hws
    exact (ih _ (numberEnd_blank hws (numberEnd_of_mem (by decide) r))).items (keyed_array.2 rfl)
      (separates_close hws (by decide) r) (.close (by decide))
  | @element d v ws ws' t ms es hv blank blank' h ihv ih =>
    intro ws'' r hws
    rw [List.append_assoc, List.append_assoc, List.cons_append, List.append_assoc]
    exact (ihv _ (numberEnd_blank blank (hcomma _))).items (keyed_array.2 rfl) (h.separates blank blank' _)
      (ih ws'' r hws)
  | @lastMember d k ws ws' v ms hk blank blank' hv ih =>
    intro ws'' r hws
    have hkey := hv.readKey hk blank blank' (ws'' ++ rbrace :: r)
    have hitems := (ih _ (numberEnd_blank hws (numberEnd_of_mem (by decide) r))).items
      ((keyed_object hmode).2 (skipKey_iff.2 hkey)) (separates_close hws (by decide) r)
      (@Items.close d lbrace rbrace false r (by decide))
    simpa using hitems
  | @member d k ws ws' v ws₁ ws₂ t ms rest hk blank blank' hv blank₁ blank₂ h ihv ih =>
    intro ws'' r hws
    have hkey := hv.readKey hk blank blank' (ws₁ ++ comma :: (ws₂ ++ (t ++ (ws'' ++ rbrace :: r))))
    have hitems := (ihv _ (numberEnd_blank blank₁ (hcomma _))).items ((keyed_object hmode).2 (skipKey_iff.2 hkey))
      (h.separates blank₁ blank₂ _) (ih ws'' r hws)
    simpa using hitems

theorem numberEnd_nil : NumberEnd [] := fun c hc => by cases hc

theorem stringTail_plain_append {l : List UInt8} (h : ∀ c ∈ l, c ≠ dquote ∧ c ≠ backslash ∧ ¬ c < 32) (s : List UInt8) :
    stringTail .plain (l ++ s) = stringTail .plain s := by
  induction l with
  | nil => rfl
  | cons c l ih =>
    obtain ⟨⟨hquote, hslash, hcontrol⟩, hl⟩ := List.forall_mem_cons.1 h
    rw [List.cons_append, stringTail, if_neg hquote, if_neg hslash, if_neg hcontrol]
    exact ih hl

theorem stringTail_hex {ds : List UInt8} (hlength : ds.length = 4) (hdigits : ∀ d ∈ ds, isHex d = true)
    (s : List UInt8) : stringTail .plain (backslash :: 117 :: (ds ++ s)) = stringTail .plain s := by
  obtain ⟨a, b, c, d, rfl⟩ : ∃ a b c d, ds = [a, b, c, d] := by
    obtain ⟨a, ds, rfl⟩ := List.exists_cons_of_length_eq_add_one hlength
    obtain ⟨b, c, d, rfl⟩ := List.length_eq_three.1 (Nat.succ.inj hlength)
    exact ⟨a, b, c, d, rfl⟩
  simp only [List.forall_mem_cons] at hdigits
  obtain ⟨ha, hb, hc, hd, -⟩ := hdigits
  have hstart : stringTail .plain (backslash :: 117 :: ([a, b, c, d] ++ s)) =
      stringTail (.hex 3) ([a, b, c, d] ++ s) := rfl
  rw [hstart]
  simp only [List.cons_append, List.nil_append, stringTail, ha, hb, hc, hd, ite_true]

/-- A character behind ASCII is of bytes behind ASCII. -/
theorem utf8EncodeChar_high {ch : Char} (h : 0x80 ≤ ch.toNat) : ∀ c ∈ String.utf8EncodeChar ch, 0x80 ≤ c.toNat := by
  obtain ⟨top, ts, hshape⟩ := exists_codeShape h
  rw [hshape.encode, List.forall_mem_cons]
  constructor
  · rw [UInt8.toNat_ofNat']
    rcases hshape.top_le with ⟨hlength, -, htop⟩ | ⟨hlength, htop⟩ | ⟨hlength, htop⟩ <;>
      rw [hlength, leadMark] <;> omega
  · intro c hc
    obtain ⟨bits, -, rfl⟩ := List.mem_map.1 hc
    have hbits := bits.2
    rw [trailingByte, UInt8.toNat_ofNat']
    omega

theorem StringChar.stringTail {ch : List UInt8} (h : StringChar ch) (s : List UInt8) :
    Json.stringTail .plain (ch ++ s) = Json.stringTail .plain s := by
  cases h with
  | @char c control quote slash =>
    refine stringTail_plain_append (fun b hb => ?_) s
    have hnum : (b = dquote ↔ b.toNat = 34) ∧ (b = backslash ↔ b.toNat = 92) ∧ (b < 32 ↔ b.toNat < 32) :=
      ⟨UInt8.toNat_inj.symm, UInt8.toNat_inj.symm, UInt8.lt_iff_toNat_lt⟩
    rw [ne_eq, ne_eq, hnum.1, hnum.2.1, hnum.2.2]
    by_cases hlow : c.toNat < 0x80
    · rw [utf8EncodeChar_ascii hlow, List.mem_singleton] at hb
      have hb' : b.toNat = c.toNat := by
        rw [hb, UInt8.toNat_ofNat']
        omega
      omega
    · have hhigh := utf8EncodeChar_high (Nat.le_of_not_lt hlow) b hb
      omega
  | @escape c h =>
    show Json.stringTail .escape (c :: s) = _
    rw [Json.stringTail, if_pos h]
  | unit h high low => exact stringTail_hex h.length h.digits s
  | @pair ds ds' value value' h high h' low =>
    have hsplit : backslash :: 117 :: (ds ++ backslash :: 117 :: ds') ++ s =
        backslash :: 117 :: (ds ++ backslash :: 117 :: (ds' ++ s)) := by simp
    rw [hsplit, stringTail_hex h.length h.digits, stringTail_hex h'.length h'.digits]

theorem MadeOf.stringTail {body : List UInt8} (h : MadeOf StringChar body) (r : List UInt8) :
    Json.stringTail .plain (body ++ dquote :: r) = some r := by
  obtain ⟨chars, hchars, rfl⟩ := h
  induction chars with
  | nil => rfl
  | cons ch chars ih =>
    obtain ⟨hch, hrest⟩ := List.forall_mem_cons.1 hchars
    rw [List.flatten_cons, List.append_assoc, hch.stringTail]
    exact ih hrest

/-- What the grammar of RFC 8259 derives of each form. -/
def Derived : Form → List UInt8 → List Member → Prop
  | .value, t, _ => ∀ r, NumberEnd r → Derives .value (t ++ r) [] r
  | .elements, t, _ => ∀ ws r, Blank ws → Derives .elements (t ++ (ws ++ rbracket :: r)) [] r
  | .members, t, ms => ∀ ws r, Blank ws → Derives .members (t ++ (ws ++ rbrace :: r)) ms r

theorem take_front (k s : List UInt8) : (k ++ s).take ((k ++ s).length - s.length) = k := by
  rw [List.length_append, Nat.add_sub_cancel, List.take_left]

theorem take_key (k s : List UInt8) : (k ++ dquote :: s).take ((k ++ dquote :: s).length - s.length - 1) = k := by
  have hlength : (k ++ dquote :: s).length - s.length - 1 = k.length := by
    rw [List.length_append, List.length_cons]
    omega
  rw [hlength, List.take_left]

theorem Text.derives {d : Nat} {form : Form} {t : List UInt8} {ms : List Member} (h : Text d form t ms) :
    Derived form t ms := by
  have hcomma : ∀ s, NumberEnd (comma :: s) := numberEnd_of_mem (by decide)
  have hbrace : ∀ s, NumberEnd (rbrace :: s) := numberEnd_of_mem (by decide)
  induction h with
  | @string d body h =>
    intro r _
    rw [List.cons_append, List.append_assoc, List.singleton_append]
    exact .string (h.stringTail r)
  | literal h => exact fun r _ => .literal h
  | number h => exact fun r hr => .number (number_append hr h)
  | emptyObject blank =>
    intro r _
    rw [List.cons_append, List.append_assoc, List.singleton_append]
    exact .emptyObject (skipWs_blank_cons blank (by decide) r)
  | @object d ws t ws' ms blank h blank' ih =>
    intro r _
    have hderives := ih ws' r blank'
    rw [← h.behind_blank blank] at hderives
    simpa using Derives.object hderives
  | emptyArray blank =>
    intro r _
    rw [List.cons_append, List.append_assoc, List.singleton_append]
    exact .emptyArray (skipWs_blank_cons blank (by decide) r)
  | @array d ws t ws' es blank h blank' ih =>
    intro r _
    have hderives := ih ws' r blank'
    rw [← h.behind_blank blank] at hderives
    simpa using Derives.array hderives
  | lastElement hv ih =>
    intro ws r hws
    exact .lastElement (ih _ (numberEnd_blank hws (numberEnd_of_mem (by decide) r)))
      (skipWs_blank_cons hws (by decide) r)
  | @element d v ws ws' t ms es hv blank blank' h ihv ih =>
    intro ws'' r hws
    have hderives := ih ws'' r hws
    rw [← h.behind_blank blank'] at hderives
    rw [List.append_assoc, List.append_assoc, List.cons_append, List.append_assoc]
    exact .element (ihv _ (numberEnd_blank blank (hcomma _))) (skipWs_blank_cons blank (by decide) _) hderives
  | @lastMember d k ws ws' v ms hk blank blank' hv ih =>
    intro ws'' r hws
    have hvalue := ih _ (numberEnd_blank hws (hbrace r))
    rw [← hv.behind_blank blank'] at hvalue
    have hderives := Derives.lastMember (hk.stringTail _) (skipWs_blank_cons blank (by decide) _) hvalue
      (skipWs_blank_cons hws (by decide) r)
    rw [take_key, hv.behind_blank blank', take_front] at hderives
    simpa using hderives
  | @member d k ws ws' v ws₁ ws₂ t ms rest hk blank blank' hv blank₁ blank₂ h ihv ih =>
    intro ws'' r hws
    have hrest := ih ws'' r hws
    rw [← h.behind_blank blank₂] at hrest
    have hvalue := ihv _ (numberEnd_blank blank₁ (hcomma (ws₂ ++ (t ++ (ws'' ++ rbrace :: r)))))
    rw [← hv.behind_blank blank'] at hvalue
    have hderives := Derives.member (hk.stringTail _) (skipWs_blank_cons blank (by decide) _) hvalue
      (skipWs_blank_cons blank₁ (by decide) _) hrest
    rw [take_key, hv.behind_blank blank', take_front] at hderives
    simpa using hderives

/-- A document is JSON. -/
theorem Text.isValue {d : Nat} {t : List UInt8} {ms : List Member} (h : Text d .value t ms) {ws ws' : List UInt8}
    (blank : Blank ws) (blank' : Blank ws') : IsValue (ws ++ (t ++ ws')) := by
  have hend := numberEnd_blank blank' numberEnd_nil
  rw [List.append_nil] at hend
  refine ⟨ws', ?_, ?_⟩
  · rw [h.behind_blank blank]
    exact h.derives ws' hend
  · have hskip := skipWs_blank blank' []
    rwa [List.append_nil] at hskip

end Json.Core
