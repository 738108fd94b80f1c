import Mathlib.Data.Rat.Defs
import TuyaDaemon.Telemetry.TelemetryJson

/-!
# A text for flat trees

Doubles with exact arithmetic, and the text that cJSON prints for objects of strings and integers.  It is lossless
(`flatText_lossless`), so the theorems that assume a lossless text are about something.
-/

namespace TuyaDaemon

open CLib

/-- `round`: halves go away from zero. -/
def roundHalfAway (x : Rat) : Int := if 0 ≤ x then (x + 1 / 2).floor else (x - 1 / 2).ceil

def exactDoubles : Doubles where
  Val := Rat
  ofInt n := n
  mul x y := x * y
  div x y := x / y
  round x := roundHalfAway x
  ofInt_injective a b _ _ h := by simpa using congrArg Rat.num h

/-- A string or an integer. -/
def scalarOf : CJson Rat → Option Json.Scalar
  | .string s => some (.string s)
  | .number x => if x.den = 1 then some (.int x.num) else none
  | _ => none

def ofScalar : Json.Scalar → CJson Rat
  | .string s => .string s
  | .int n => .number n

def scalarMembers : CJsonMembers Rat → Option (List (List UInt8 × Json.Scalar))
  | [] => some []
  | m :: ms =>
    match scalarOf m.2, scalarMembers ms with
    | some v, some vs => some ((m.1, v) :: vs)
    | _, _ => none

/-- Only objects of strings and integers have a text. -/
def flatPrint : CJson Rat → List UInt8
  | .object ms => match scalarMembers ms with
    | some vs => Json.scalarsText vs
    | none => []
  | _ => []

def flatText : CJsonText exactDoubles where
  print := flatPrint
  parse s := (Json.readScalars s).map fun vs => .object (vs.map fun v => (v.1, ofScalar v.2))

private theorem scalarOf_flat {m : List UInt8 × CJson Rat} (h : FlatMember exactDoubles m) :
    ∃ v, scalarOf m.2 = some v ∧ ofScalar v = m.2 := by
  rcases h.2 with ⟨s, hs, -⟩ | ⟨n, hn, -⟩
  · exact ⟨.string s, by rw [hs]; rfl, hs.symm⟩
  · have hn' : m.2 = .number (n : Rat) := hn
    refine ⟨.int n, ?_, hn'.symm⟩
    rw [hn']
    simp [scalarOf]

private theorem scalarMembers_flat {ms : CJsonMembers Rat} (h : ∀ m ∈ ms, FlatMember exactDoubles m) :
    ∃ vs, scalarMembers ms = some vs ∧ vs.map (fun v => (v.1, ofScalar v.2)) = ms ∧
      ∀ v ∈ vs, Json.PlainKey v.1 := by
  induction ms with
  | nil => exact ⟨[], rfl, rfl, by simp⟩
  | cons m ms ih =>
    obtain ⟨v, hv, hof⟩ := scalarOf_flat (h m (by simp))
    obtain ⟨vs, hvs, hmap, hkeys⟩ := ih fun m' hm' => h m' (by simp [hm'])
    refine ⟨(m.1, v) :: vs, by simp [scalarMembers, hv, hvs], by simp [hof, hmap], ?_⟩
    intro v' hv'
    rcases List.mem_cons.1 hv' with rfl | hv'
    · exact (h m (by simp)).1
    · exact hkeys v' hv'

theorem flatText_lossless : flatText.Lossless := by
  intro ms h
  obtain ⟨vs, hvs, hmap, hkeys⟩ := scalarMembers_flat h
  show (Json.readScalars (flatPrint (.object ms))).map _ = _
  simp only [flatPrint, hvs, Json.readScalars_scalarsText hkeys, Option.map_some]
  exact congrArg (fun ms => some (CJson.object ms)) hmap

end TuyaDaemon
