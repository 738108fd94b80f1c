import Mathlib.Data.List.Induction

/-!
# Slots

An array of slots, each used or vacant, that is vacated in place and appended to behind its last used slot.  `live` is
what the array holds, in order.  Compaction moves the used slots to the front and keeps what the array holds
(`live_compact`, `packed_compact`); storing behind the last used slot appends to it (`live_set_behind`), and a change
of one used slot changes one element of it (`live_eq_of_getElem`).
-/

namespace CLib

section Slots

variable {α : Type} (used : α → Bool)

/-- The used slots, in order. -/
def live (slots : List α) : List α := slots.filter used

/-- No slot is used behind a vacant one. -/
def Packed (slots : List α) : Prop :=
  ∃ front gap, slots = front ++ gap ∧ (∀ a ∈ front, used a = true) ∧ ∀ a ∈ gap, used a = false

variable {used}

theorem live_append (l r : List α) : live used (l ++ r) = live used l ++ live used r := List.filter_append l r

theorem live_cons_used {a : α} (h : used a = true) (l : List α) : live used (a :: l) = a :: live used l :=
  List.filter_cons_of_pos h

theorem live_cons_vacant {a : α} (h : used a = false) (l : List α) : live used (a :: l) = live used l :=
  List.filter_cons_of_neg (by simp [h])

theorem live_of_all_used {l : List α} (h : ∀ a ∈ l, used a = true) : live used l = l := List.filter_eq_self.2 h

theorem live_of_all_vacant {l : List α} (h : ∀ a ∈ l, used a = false) : live used l = [] :=
  List.filter_eq_nil_iff.2 fun a ha => by simp [h a ha]

theorem length_live_le (slots : List α) : (live used slots).length ≤ slots.length := List.length_filter_le _ _

/-- A packed array whose last slot is used has no vacant slot. -/
theorem Packed.used_of_last {init : List α} {a : α} (h : Packed used (init ++ [a])) (ha : used a = true) :
    ∀ b ∈ init ++ [a], used b = true := by
  obtain ⟨front, gap, hslots, hfront, hgap⟩ := h
  rcases List.eq_nil_or_concat gap with rfl | ⟨gap', b, rfl⟩
  · rw [hslots, List.append_nil]
    exact hfront
  · rw [List.concat_eq_append, ← List.append_assoc] at hslots
    have hab := List.singleton_inj.1 (List.append_inj' hslots rfl).2
    have hvacant := hgap b (by simp)
    rw [← hab, ha] at hvacant
    cases hvacant

/-- The slots up to the last used one, and the vacant slots behind it. -/
theorem exists_front_gap (used : α → Bool) (slots : List α) :
    ∃ front gap, slots = front ++ gap ∧ (∀ a ∈ gap, used a = false) ∧
      (front = [] ∨ ∃ init a, front = init ++ [a] ∧ used a = true) := by
  induction slots using List.reverseRecOn with
  | nil => exact ⟨[], [], rfl, by simp, Or.inl rfl⟩
  | append_singleton slots a ih =>
    by_cases ha : used a = true
    · exact ⟨slots ++ [a], [], by simp, by simp, Or.inr ⟨slots, a, rfl, ha⟩⟩
    · obtain ⟨front, gap, rfl, hgap, hfront⟩ := ih
      refine ⟨front, gap ++ [a], List.append_assoc _ _ _, ?_, hfront⟩
      intro b hb
      rcases List.mem_append.1 hb with hb | hb
      · exact hgap b hb
      · rw [List.mem_singleton.1 hb]
        simpa using ha

/-! ### One slot -/

/-- Around a used slot: what is stored there instead. -/
theorem live_eq_of_getElem {slots : List α} {i : Nat} {a : α} (h : slots[i]? = some a) (ha : used a = true) :
    live used slots = live used (slots.take i) ++ a :: live used (slots.drop (i + 1)) ∧
      ∀ b, live used (slots.set i b) =
        live used (slots.take i) ++ ((if used b then [b] else []) ++ live used (slots.drop (i + 1))) := by
  obtain ⟨hi, hget⟩ := List.getElem?_eq_some_iff.1 h
  have hdrop : slots.drop i = a :: slots.drop (i + 1) := by rw [List.drop_eq_getElem_cons hi, hget]
  constructor
  · conv_lhs => rw [← List.take_append_drop i slots]
    rw [hdrop, live_append, live_cons_used ha]
  · intro b
    rw [List.set_eq_take_append_cons_drop, if_pos hi, live_append]
    by_cases hb : used b = true
    · rw [live_cons_used hb, if_pos hb, List.singleton_append]
    · rw [live_cons_vacant (by simpa using hb), if_neg hb, List.nil_append]

/-- Storing behind the last used slot appends. -/
theorem live_set_behind (front : List α) {gap : List α} {e a : α} (hgap : ∀ b ∈ e :: gap, used b = false)
    (ha : used a = true) :
    live used ((front ++ e :: gap).set front.length a) = live used (front ++ e :: gap) ++ [a] := by
  rw [List.set_append_right _ _ (Nat.le_refl _), Nat.sub_self, List.set_cons_zero, live_append, live_append,
    live_of_all_vacant hgap, live_cons_used ha, live_of_all_vacant fun b hb => hgap b (List.mem_cons_of_mem _ hb),
    List.append_nil]

/-! ### Compaction -/

/-- One pass of the loop over the slots, with the first vacant slot once there is one: a used slot behind it is copied
there and vacated. -/
def compactStep (used : α → Bool) (vacate : α → α) (s : List α × Option Nat) (index : Nat) : List α × Option Nat :=
  match s.1[index]? with
  | none => s
  | some a =>
    if used a then
      match s.2 with
      | none => s
      | some emptyIndex => ((s.1.set emptyIndex a).set index (vacate a), some (emptyIndex + 1))
    else
      match s.2 with
      | none => (s.1, some index)
      | some _ => s

def compact (used : α → Bool) (vacate : α → α) (slots : List α) : List α :=
  ((List.range slots.length).foldl (compactStep used vacate) (slots, none)).1

/-- The first slot of a gap behind `n` slots. -/
def gapIndex (n : Nat) (gap : List α) : Option Nat := if gap = [] then none else some n

variable {vacate : α → α}

private theorem getElem?_middle (front gap rest : List α) (a : α) :
    (front ++ gap ++ a :: rest)[front.length + gap.length]? = some a := by
  rw [← List.length_append, List.getElem?_append_right (Nat.le_refl _), Nat.sub_self, List.getElem?_cons_zero]

/-- What one pass does behind the used slots `front` and the vacant slots `gap`. -/
theorem compactStep_spec (hvacate : ∀ a, used (vacate a) = false) {front gap : List α} (a : α) (rest : List α)
    (hfront : ∀ b ∈ front, used b = true) (hgap : ∀ b ∈ gap, used b = false) :
    ∃ front' gap', compactStep used vacate (front ++ gap ++ a :: rest, gapIndex front.length gap)
        (front.length + gap.length) = (front' ++ gap' ++ rest, gapIndex front'.length gap') ∧
      front' = front ++ live used [a] ∧ front'.length + gap'.length = front.length + gap.length + 1 ∧
      (∀ b ∈ front', used b = true) ∧ ∀ b ∈ gap', used b = false := by
  unfold compactStep
  rw [getElem?_middle]
  by_cases ha : used a = true
  · have hlive : live used [a] = [a] := live_cons_used ha []
    have hfront' : ∀ b ∈ front ++ [a], used b = true := by
      intro b hb
      rcases List.mem_append.1 hb with hb | hb
      · exact hfront b hb
      · rw [List.mem_singleton.1 hb]
        exact ha
    cases gap with
    | nil =>
      refine ⟨front ++ [a], [], ?_, by rw [hlive], by simp, hfront', hgap⟩
      simp [ha, gapIndex]
    | cons e gap =>
      refine ⟨front ++ [a], gap ++ [vacate a], ?_, by rw [hlive], ?_, hfront', ?_⟩
      · simp [ha, gapIndex]
      · simp only [List.length_append, List.length_cons, List.length_nil]
        omega
      · intro b hb
        rcases List.mem_append.1 hb with hb | hb
        · exact hgap b (List.mem_cons_of_mem _ hb)
        · rw [List.mem_singleton.1 hb]
          exact hvacate a
  · have ha' : used a = false := by simpa using ha
    have hlive : live used [a] = [] := live_cons_vacant ha' []
    refine ⟨front, gap ++ [a], ?_, by rw [hlive, List.append_nil], ?_, hfront, ?_⟩
    · cases gap with
      | nil => simp [ha', gapIndex]
      | cons e gap => simp [ha', gapIndex]
    · rw [List.length_append, List.length_singleton, Nat.add_assoc]
    · intro b hb
      rcases List.mem_append.1 hb with hb | hb
      · exact hgap b hb
      · rw [List.mem_singleton.1 hb]
        exact ha'

/-- The loop from any slot on, by induction on the slots that are left. -/
theorem foldl_compactStep (hvacate : ∀ a, used (vacate a) = false) (front gap rest : List α)
    (hfront : ∀ b ∈ front, used b = true) (hgap : ∀ b ∈ gap, used b = false) :
    ∃ gap', ((List.range' (front.length + gap.length) rest.length).foldl (compactStep used vacate)
        (front ++ gap ++ rest, gapIndex front.length gap)).1 = front ++ live used rest ++ gap' ∧
      ∀ b ∈ gap', used b = false := by
  induction rest generalizing front gap with
  | nil => exact ⟨gap, by simp [live], hgap⟩
  | cons a rest ih =>
    obtain ⟨front', gap', hstep, hlive, hlength, hfront', hgap'⟩ := compactStep_spec hvacate a rest hfront hgap
    rw [List.length_cons, List.range'_succ, List.foldl_cons, hstep, ← hlength]
    obtain ⟨gap'', hloop, hgap''⟩ := ih front' gap' hfront' hgap'
    refine ⟨gap'', ?_, hgap''⟩
    rw [hloop, hlive, List.append_assoc front, ← live_append, List.singleton_append]

/-- Compaction leaves what the array holds in front, and vacant slots behind it. -/
theorem compact_spec (hvacate : ∀ a, used (vacate a) = false) (slots : List α) :
    ∃ gap, compact used vacate slots = live used slots ++ gap ∧ ∀ a ∈ gap, used a = false := by
  obtain ⟨gap, hloop, hgap⟩ := foldl_compactStep hvacate [] [] slots (by simp) (by simp)
  refine ⟨gap, ?_, hgap⟩
  simpa [compact, List.range_eq_range', gapIndex] using hloop

theorem live_compact (hvacate : ∀ a, used (vacate a) = false) (slots : List α) :
    live used (compact used vacate slots) = live used slots := by
  obtain ⟨gap, hcompact, hgap⟩ := compact_spec hvacate slots
  rw [hcompact, live_append, live_of_all_vacant hgap, List.append_nil]
  exact live_of_all_used fun a ha => (List.mem_filter.1 ha).2

theorem packed_compact (hvacate : ∀ a, used (vacate a) = false) (slots : List α) :
    Packed used (compact used vacate slots) := by
  obtain ⟨gap, hcompact, hgap⟩ := compact_spec hvacate slots
  exact ⟨live used slots, gap, hcompact, fun a ha => (List.mem_filter.1 ha).2, hgap⟩

private theorem length_compactStep (s : List α × Option Nat) (index : Nat) :
    (compactStep used vacate s index).1.length = s.1.length := by
  unfold compactStep
  split
  · rfl
  · split <;> split <;> simp

theorem length_compact (slots : List α) : (compact used vacate slots).length = slots.length := by
  have hloop : ∀ (indices : List Nat) (s : List α × Option Nat),
      (indices.foldl (compactStep used vacate) s).1.length = s.1.length := by
    intro indices
    induction indices with
    | nil => exact fun s => rfl
    | cons index indices ih => exact fun s => (ih _).trans (length_compactStep s index)
  exact hloop _ _

end Slots

end CLib
