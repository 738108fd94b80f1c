import Mathlib.Data.List.Basic
import Mathlib.Data.List.Nodup

/-!
# Registries

A registry of values under keys, seen through the history of what was added under a key and which keys were cleared.
`Represents entries history` is the representation invariant of a list that holds each registered pair once; the rules
`Represents.add`, `Represents.addAgain` and `Represents.clear` say how it follows the history.
-/

namespace CLib

/-- A change of a registry. -/
inductive RegistryEvent (κ β : Type) where
  | add (key : κ) (value : β)
  | clear (key : κ)

section Registry

variable {κ β : Type} {history : List (RegistryEvent κ β)}

/-- The value was added under the key after the key was last cleared. -/
def Registered (history : List (RegistryEvent κ β)) (key : κ) (value : β) : Prop :=
  ∃ before after, history = before ++ .add key value :: after ∧ .clear key ∉ after

theorem not_registered_nil (key : κ) (value : β) : ¬ Registered [] key value := by
  rintro ⟨before, after, h, -⟩
  simp at h

private theorem append_singleton_eq {e e' : RegistryEvent κ β} {before after : List (RegistryEvent κ β)}
    (h : history ++ [e] = before ++ e' :: after) :
    after = [] ∧ e = e' ∨ ∃ after', after = after' ++ [e] ∧ history = before ++ e' :: after' := by
  rcases List.eq_nil_or_concat after with rfl | ⟨after', last, rfl⟩
  · left
    have hlast := (List.append_inj' h rfl).2
    exact ⟨rfl, List.singleton_inj.1 hlast⟩
  · right
    rw [List.concat_eq_append, ← List.cons_append, ← List.append_assoc] at h
    obtain ⟨hinit, hlast⟩ := List.append_inj' h rfl
    cases hlast
    exact ⟨after', List.concat_eq_append, hinit⟩

theorem registered_add_iff (k key : κ) (v value : β) :
    Registered (history ++ [.add k v]) key value ↔ Registered history key value ∨ key = k ∧ value = v := by
  constructor
  · rintro ⟨before, after, h, hclear⟩
    rcases append_singleton_eq h with ⟨-, he⟩ | ⟨after', rfl, h'⟩
    · cases he
      exact Or.inr ⟨rfl, rfl⟩
    · exact Or.inl ⟨before, after', h', fun hm => hclear (List.mem_append_left _ hm)⟩
  · rintro (⟨before, after, rfl, hclear⟩ | ⟨rfl, rfl⟩)
    · refine ⟨before, after ++ [.add k v], by rw [List.append_assoc, List.cons_append], ?_⟩
      intro hm
      rcases List.mem_append.1 hm with hm | hm
      · exact hclear hm
      · cases List.mem_singleton.1 hm
    · exact ⟨history, [], rfl, List.not_mem_nil⟩

theorem registered_clear_iff (k key : κ) (value : β) :
    Registered (history ++ [.clear k]) key value ↔ Registered history key value ∧ key ≠ k := by
  constructor
  · rintro ⟨before, after, h, hclear⟩
    rcases append_singleton_eq h with ⟨-, he⟩ | ⟨after', rfl, h'⟩
    · cases he
    · refine ⟨⟨before, after', h', fun hm => hclear (List.mem_append_left _ hm)⟩, ?_⟩
      rintro rfl
      exact hclear (List.mem_append_right _ (List.mem_singleton_self _))
  · rintro ⟨⟨before, after, rfl, hclear⟩, hne⟩
    refine ⟨before, after ++ [.clear k], by rw [List.append_assoc, List.cons_append], ?_⟩
    intro hm
    rcases List.mem_append.1 hm with hm | hm
    · exact hclear hm
    · cases List.mem_singleton.1 hm
      exact hne rfl

/-- The list holds each registered pair once. -/
structure Represents (entries : List (κ × β)) (history : List (RegistryEvent κ β)) : Prop where
  nodup : entries.Nodup
  mem : ∀ key value, (key, value) ∈ entries ↔ Registered history key value

namespace Represents

variable {entries : List (κ × β)}

theorem empty : Represents ([] : List (κ × β)) [] :=
  ⟨List.nodup_nil, fun key value => ⟨fun h => absurd h List.not_mem_nil, fun h => absurd h (not_registered_nil key value)⟩⟩

/-- A new pair goes in front. -/
theorem add (h : Represents entries history) {k : κ} {v : β} (hnew : (k, v) ∉ entries) :
    Represents ((k, v) :: entries) (history ++ [.add k v]) := by
  refine ⟨List.nodup_cons.2 ⟨hnew, h.nodup⟩, fun key value => ?_⟩
  rw [List.mem_cons, registered_add_iff, ← h.mem, Prod.mk.injEq, or_comm]

/-- A pair that is there stays there. -/
theorem addAgain (h : Represents entries history) {k : κ} {v : β} (hmem : (k, v) ∈ entries) :
    Represents entries (history ++ [.add k v]) := by
  refine ⟨h.nodup, fun key value => ?_⟩
  rw [registered_add_iff, ← h.mem]
  constructor
  · exact Or.inl
  · rintro (hm | ⟨rfl, rfl⟩)
    · exact hm
    · exact hmem

theorem clear (h : Represents entries history) (k : κ) (keep : κ × β → Bool) (hkeep : ∀ p, keep p = true ↔ p.1 ≠ k) :
    Represents (entries.filter keep) (history ++ [.clear k]) := by
  refine ⟨h.nodup.filter _, fun key value => ?_⟩
  rw [List.mem_filter, hkeep, registered_clear_iff, ← h.mem]

end Represents

end Registry

end CLib
