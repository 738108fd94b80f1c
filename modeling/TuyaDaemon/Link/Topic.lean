import TuyaDaemon.Link.Types
import Mathlib.Data.List.GetD

/-!
# Topics

`tylink_suffix_map`, `string_find` and `thing_type_match`.  The match compares as many characters as the received
text has, and returns the first entry that agrees so far, so it accepts the prefixes of an entry that no earlier
entry shares: `thingTypeMatch_eq_iff` is the exact condition for any entry of the table.
-/

namespace TuyaDaemon

open CLib

def tylinkSuffixMap : List (List UInt8) :=
  [bytes "thing/model/get",
    bytes "thing/model/get_response",
    bytes "thing/property/report",
    bytes "thing/property/report_response",
    bytes "thing/property/set",
    bytes "thing/property/set_response",
    bytes "thing/property/desired/get",
    bytes "thing/property/desired/get_response",
    bytes "thing/property/desired/delete",
    bytes "thing/property/desired/delete_response",
    bytes "thing/event/trigger",
    bytes "thing/event/trigger_response",
    bytes "thing/action/execute",
    bytes "thing/action/execute_response",
    bytes "thing/data/batch_report",
    bytes "thing/data/batch_report_response",
    bytes "device/sub/bind",
    bytes "device/sub/bind_response",
    bytes "device/sub/login",
    bytes "device/sub/logout",
    bytes "device/topo/add",
    bytes "device/topo/add_response",
    bytes "device/topo/delete",
    bytes "device/topo/delete_response",
    bytes "device/topo/get",
    bytes "device/topo/get_response",
    bytes "ota/firmware/report",
    bytes "ota/issue",
    bytes "ota/get",
    bytes "ota/get_response",
    bytes "ota/progress/report",
    bytes "ext/time/request",
    bytes "ext/time/response",
    bytes "ext/file/upload/request",
    bytes "ext/file/upload/response",
    bytes "ext/file/download/request",
    bytes "ext/file/download/response",
    bytes "ext/config/get",
    bytes "ext/config/get_response",
    bytes "channel/raw/up",
    bytes "channel/raw/down",
    bytes "channel/rpc/request",
    bytes "channel/rpc/response",
    bytes "device/tag/report",
    bytes "device/tag/report_response",
    bytes "device/tag/get",
    bytes "device/tag/get_response",
    bytes "device/tag/delete",
    bytes "device/tag/delete_response"]

abbrev slash : UInt8 := 47

/-- `"tylink/"` -/
def tylinkPrefix : List UInt8 := bytes "tylink/"

/-- The scan of `string_find`: `count` matches were seen, and `s` starts at position `pos`. -/
def stringFindFrom (c : UInt8) (index : Nat) : Nat → Nat → List UInt8 → Int
  | _, _, [] => -1
  | count, pos, x :: s =>
    if x = c then
      if count = index then pos else stringFindFrom c index (count + 1) (pos + 1) s
    else stringFindFrom c index count (pos + 1) s

/-- The position of the `index`-th `c`, or `-1`. -/
def stringFind (str : List UInt8) (c : UInt8) (index : Nat) : Int :=
  if c = 0 then -1 else stringFindFrom c index 0 0 str

def thingTypeMatch (thing : List UInt8) (length : UInt8) : ThingType :=
  match tylinkSuffixMap.findIdx? fun suffix => strncmp suffix thing length.toNat == 0 with
  | some i => ThingType.ofIndex i
  | none => .unknown

/-! ### `string_find` -/

/-- A list is cut in one way at the first separator. -/
theorem append_cons_cancel {α : Type} {c : α} {x x' y y' : List α} (hx : c ∉ x) (hx' : c ∉ x')
    (h : x ++ c :: y = x' ++ c :: y') : x = x' ∧ y = y' := by
  induction x generalizing x' with
  | nil =>
    cases x' with
    | nil => simpa using h
    | cons b x' =>
      simp only [List.nil_append, List.cons_append, List.cons.injEq] at h
      simp [← h.1] at hx'
  | cons a x ih =>
    cases x' with
    | nil =>
      simp only [List.nil_append, List.cons_append, List.cons.injEq] at h
      simp [h.1] at hx
    | cons b x' =>
      simp only [List.cons_append, List.cons.injEq] at h
      simp only [List.mem_cons, not_or] at hx hx'
      obtain ⟨hxx, hyy⟩ := ih hx.2 hx'.2 h.2
      exact ⟨by rw [h.1, hxx], hyy⟩

/-- A text with a separator that occurs in `d ++ c :: s` straddles that separator, or lies behind it. -/
theorem infix_append_cons {α : Type} {c : α} {p q d s : List α} (hp : c ∉ p) (hd : c ∉ d)
    (h : p ++ c :: q <:+: d ++ c :: s) : (p <:+ d ∧ q <+: s) ∨ p ++ c :: q <:+: s := by
  obtain ⟨u, v, huv⟩ := h
  by_cases hu : c ∈ u
  · right
    obtain ⟨u₁, u₂, rfl, hu₁⟩ := List.eq_append_cons_of_mem hu
    have hcut : u₁ ++ c :: (u₂ ++ (p ++ c :: q) ++ v) = d ++ c :: s := by
      rw [← huv]
      simp
    obtain ⟨-, h₂⟩ := append_cons_cancel hu₁ hd hcut
    exact ⟨u₂, v, h₂⟩
  · left
    have hup : c ∉ u ++ p := by simp [hu, hp]
    have hcut : (u ++ p) ++ c :: (q ++ v) = d ++ c :: s := by
      rw [← huv]
      simp
    obtain ⟨h₁, h₂⟩ := append_cons_cancel hup hd hcut
    exact ⟨⟨u, h₁⟩, ⟨v, h₂⟩⟩

theorem stringFindFrom_append {c : UInt8} {a : List UInt8} (ha : c ∉ a) (index count pos : Nat) (s : List UInt8) :
    stringFindFrom c index count pos (a ++ s) = stringFindFrom c index count (pos + a.length) s := by
  induction a generalizing pos with
  | nil => rfl
  | cons x a ih =>
    simp only [List.mem_cons, not_or] at ha
    simp only [List.cons_append, stringFindFrom, Ne.symm ha.1, ite_false, List.length_cons]
    rw [ih ha.2, Nat.add_assoc, Nat.add_comm 1]

theorem stringFindFrom_of_notMem {c : UInt8} {s : List UInt8} (hs : c ∉ s) (index count pos : Nat) :
    stringFindFrom c index count pos s = -1 := by
  have h := stringFindFrom_append hs index count pos []
  rw [List.append_nil] at h
  rw [h]
  rfl

/-- The first separator of a topic. -/
theorem stringFind_first {a : List UInt8} (ha : slash ∉ a) (s : List UInt8) :
    stringFind (a ++ slash :: s) slash 0 = a.length := by
  simp only [stringFind, show slash ≠ 0 by decide, ite_false]
  rw [stringFindFrom_append ha]
  simp [stringFindFrom]

/-- The second separator of a topic. -/
theorem stringFind_second {a b : List UInt8} (ha : slash ∉ a) (hb : slash ∉ b) (s : List UInt8) :
    stringFind (a ++ slash :: (b ++ slash :: s)) slash 1 = a.length + 1 + b.length := by
  simp only [stringFind, show slash ≠ 0 by decide, ite_false]
  rw [stringFindFrom_append ha]
  simp only [stringFindFrom, ite_true, show ¬ 0 = 1 by decide, ite_false]
  rw [stringFindFrom_append hb]
  simp [stringFindFrom]

theorem stringFind_second_none {a b : List UInt8} (ha : slash ∉ a) (hb : slash ∉ b) :
    stringFind (a ++ slash :: b) slash 1 = -1 := by
  simp only [stringFind, show slash ≠ 0 by decide, ite_false]
  rw [stringFindFrom_append ha]
  simp only [stringFindFrom, ite_true, show ¬ 0 = 1 by decide, ite_false]
  exact stringFindFrom_of_notMem hb 1 1 _

/-! ### `thing_type_match` -/

theorem length_tylinkSuffixMap : tylinkSuffixMap.length = 49 := rfl

theorem zero_notMem_suffix : ∀ s ∈ tylinkSuffixMap, (0 : UInt8) ∉ s := by decide +kernel

/-- The match picks entry `i` exactly when that is the first entry that agrees with the text on `length` characters. -/
theorem thingTypeMatch_eq_iff {thing : List UInt8} (hthing : 0 ∉ thing) (length : UInt8) {i : Nat} (hi : i < 49) :
    thingTypeMatch thing length = ThingType.ofIndex i ↔
      (tylinkSuffixMap.getD i []).take length.toNat = thing.take length.toNat ∧
        ∀ j < i, (tylinkSuffixMap.getD j []).take length.toNat ≠ thing.take length.toNat := by
  have hcmp : ∀ j < 49, ((strncmp (tylinkSuffixMap.getD j []) thing length.toNat == 0) = true ↔
      (tylinkSuffixMap.getD j []).take length.toNat = thing.take length.toNat) := by
    intro j hj
    rw [beq_iff_eq]
    apply strncmp_eq_zero_iff _ hthing
    rw [List.getD_eq_getElem _ _ (by rw [length_tylinkSuffixMap]; exact hj)]
    exact zero_notMem_suffix _ (List.getElem_mem _)
  have hget : ∀ j (hj : j < tylinkSuffixMap.length), tylinkSuffixMap[j] = tylinkSuffixMap.getD j [] :=
    fun j hj => (List.getD_eq_getElem _ _ hj).symm
  unfold thingTypeMatch
  constructor
  · intro h
    rcases hf : tylinkSuffixMap.findIdx? fun suffix => strncmp suffix thing length.toNat == 0 with _ | k
    · rw [hf] at h
      have := congrArg ThingType.toIndex h
      rw [ThingType.toIndex_ofIndex (by show i < 51; omega)] at this
      change 50 = i at this
      omega
    · rw [hf] at h
      obtain ⟨hk, hmatch, hfirst⟩ := List.findIdx?_eq_some_iff_getElem.1 hf
      rw [length_tylinkSuffixMap] at hk
      have hki : k = i := by
        have := congrArg ThingType.toIndex h
        rwa [ThingType.toIndex_ofIndex (by show k < 51; omega),
          ThingType.toIndex_ofIndex (by show i < 51; omega)] at this
      subst hki
      refine ⟨(hcmp k hk).1 ?_, ?_⟩
      · rw [← hget]
        exact hmatch
      · intro j hj hagree
        apply hfirst j hj
        rw [hget]
        exact (hcmp j (by omega)).2 hagree
  · rintro ⟨hmatch, hfirst⟩
    have hf : tylinkSuffixMap.findIdx? (fun suffix => strncmp suffix thing length.toNat == 0) = some i := by
      apply List.findIdx?_eq_some_iff_getElem.2
      refine ⟨by rw [length_tylinkSuffixMap]; exact hi, ?_, ?_⟩
      · rw [hget]
        exact (hcmp i hi).2 hmatch
      · intro j hj hc
        rw [hget] at hc
        exact hfirst j hj ((hcmp j (by omega)).1 hc)
    rw [hf]

/-- No entry of the table starts with a later one. -/
theorem suffixes_separate : tylinkSuffixMap.Pairwise fun s u => s.take u.length ≠ u := by
  decide +kernel

/-- An entry of the table matches itself, and none before it. -/
theorem thingTypeMatch_suffix {i : Nat} (hi : i < 49) {length : UInt8}
    (hlength : length.toNat = (tylinkSuffixMap.getD i []).length) :
    thingTypeMatch (tylinkSuffixMap.getD i []) length = ThingType.ofIndex i := by
  have hget : ∀ j (hj : j < 49), tylinkSuffixMap.getD j [] = tylinkSuffixMap[j] :=
    fun j hj => List.getD_eq_getElem _ _ hj
  have hnul : 0 ∉ tylinkSuffixMap.getD i [] := by
    rw [hget i hi]
    exact zero_notMem_suffix _ (List.getElem_mem _)
  rw [thingTypeMatch_eq_iff hnul length hi, hlength]
  refine ⟨rfl, ?_⟩
  intro j hj
  rw [List.take_of_length_le (Nat.le_refl (tylinkSuffixMap.getD i []).length), hget i hi, hget j (by omega)]
  exact List.pairwise_iff_getElem.1 suffixes_separate j i (by show j < 49; omega) hi hj

/-- No entry of the table is found in the prefix and the id of a topic. -/
theorem entry_take_ne {d e : List UInt8} (hd : slash ∉ d) (he : e ∈ tylinkSuffixMap) (s : List UInt8) {start n : Nat}
    (hn : 8 ≤ n) (hin : start + n ≤ 7 + d.length) :
    e.take n ≠ ((tylinkPrefix ++ (d ++ slash :: s)).drop start).take n := by
  intro h
  have hfirst : ∀ e ∈ tylinkSuffixMap, ∃ k < 8, e[k]? = some slash ∧ e.take k ≠ (bytes "tylink").drop (6 - k) := by
    decide +kernel
  obtain ⟨k, hk, hslash, hne⟩ := hfirst e he
  have hget : ∀ i ≤ k, (tylinkPrefix ++ d)[start + i]? = e[i]? := by
    intro i hi
    have hi' := congrArg (·[i]?) h
    simp only [List.getElem?_take_of_lt (show i < n by omega), List.getElem?_drop] at hi'
    have hlt : start + i < (tylinkPrefix ++ d).length := by
      rw [List.length_append, show tylinkPrefix.length = 7 by decide]
      omega
    rw [hi', ← List.append_assoc]
    exact (List.getElem?_append_left hlt).symm
  -- the separator of the entry can only be that of the prefix
  have honly : start + k = 6 := by
    have hsep := (hget k (Nat.le_refl k)).trans hslash
    by_cases hlt : start + k < 7
    · have hall : ∀ i < 7, tylinkPrefix[i]? = some slash → i = 6 := by decide
      rw [List.getElem?_append_left (by rw [show tylinkPrefix.length = 7 by decide]; exact hlt)] at hsep
      exact hall _ hlt hsep
    · rw [List.getElem?_append_right (by rw [show tylinkPrefix.length = 7 by decide]; omega)] at hsep
      exact absurd (List.mem_of_getElem? hsep) hd
  apply hne
  apply List.ext_getElem?
  intro i
  by_cases hi : i < k
  · have htail : ∀ j < 6, tylinkPrefix[j]? = (bytes "tylink")[j]? := by decide
    rw [List.getElem?_take_of_lt hi, ← hget i (by omega), List.getElem?_drop,
      List.getElem?_append_left (by rw [show tylinkPrefix.length = 7 by decide]; omega), htail _ (by omega)]
    congr 1
    omega
  · have hshort : ((bytes "tylink").drop (6 - k)).length ≤ i := by
      rw [List.length_drop, show (bytes "tylink").length = 6 by decide]
      omega
    rw [List.getElem?_eq_none (by rw [List.length_take]; omega), List.getElem?_eq_none hshort]

end TuyaDaemon
