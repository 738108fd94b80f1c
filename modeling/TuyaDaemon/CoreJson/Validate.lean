import TuyaDaemon.CoreJson.Scalars
import TuyaDaemon.Link.MessageParse

/-!
# Documents in coreJSON

`JSON_Validate`.  Its loop over the brackets of a document keeps a stack, and skips the scalars between two brackets with
two other loops.  `Items` is a grammar, with the depth that is left: `skipCollection_iff` says that the stack does what
recursion over the grammar would do, so `jsonValidate_iff` is exactly what is accepted.  That is more than JSON: a
collection needs neither a comma in front nor a key when it is an item of an object, and the outermost bracket may be
closed by either bracket.
-/

namespace Json.Core

open TuyaDaemon (JSONStatus)

/-! ### The loops -/

def isOpenBracket (c : UInt8) : Bool := c == lbrace || c == lbracket

def isCloseBracket (c : UInt8) : Bool := c == rbrace || c == rbracket

def isMatchingBracket (x y : UInt8) : Bool := x == lbrace && y == rbrace || x == lbracket && y == rbracket

/-- `skipSpaceAndComma`: the space is skipped even when there is no comma that something follows. -/
def skipSpaceAndComma (s : List UInt8) : Bool × List UInt8 :=
  match skipWs s with
  | [] => (false, [])
  | c :: u =>
    if c = comma then
      match skipWs u with
      | [] => (false, c :: u)
      | d :: v => if isCloseBracket d then (false, c :: u) else (true, d :: v)
    else (false, c :: u)

/-- The loop of `skipArrayScalars`. -/
def skipArrayScalarsFrom : Nat → List UInt8 → List UInt8
  | 0, s => s
  | passes + 1, s =>
    match skipAnyScalar s with
    | none => s
    | some u =>
      let (comma, v) := skipSpaceAndComma u
      if comma then skipArrayScalarsFrom passes v else v

/-- The key and the colon of a pair, with the space behind them. -/
def skipKey (s : List UInt8) : Option (List UInt8) :=
  (skipString s).bind fun u =>
    match skipWs u with
    | [] => none
    | c :: v => if c = colon then some (skipWs v) else none

/-- The loop of `skipObjectScalars`; it stays in front of a pair whose value is no scalar, except that it goes on to an
open bracket. -/
def skipObjectScalarsFrom : Nat → List UInt8 → List UInt8
  | 0, start => start
  | passes + 1, start =>
    match skipKey start with
    | none => start
    | some [] => start
    | some (c :: s) =>
      if isOpenBracket c then c :: s
      else
        match skipAnyScalar (c :: s) with
        | none => start
        | some u =>
          let (comma, v) := skipSpaceAndComma u
          if comma then skipObjectScalarsFrom passes v else v

/-- `skipScalars`; a pass of its loops moves the index. -/
def skipScalars (mode : UInt8) (s : List UInt8) : List UInt8 :=
  let s := skipWs s
  if mode = lbracket then skipArrayScalarsFrom s.length s else skipObjectScalarsFrom s.length s

/-- `JSON_MAX_DEPTH` -/
abbrev jsonMaxDepth : Nat := 32

/-- Where `skipCollection` goes on behind a collection in another one. -/
def skipBehindNested (mode : UInt8) (s : List UInt8) : List UInt8 :=
  let (comma, s) := skipSpaceAndComma s
  if comma then skipScalars mode s else s

/-- The loop of `skipCollection`, with the open brackets, the innermost first. -/
def skipCollectionFrom : Nat → List UInt8 → List UInt8 → JSONStatus × List UInt8
  | 0, _, s => (.partialDocument, s)
  | _ + 1, _, [] => (.partialDocument, [])
  | passes + 1, stack, c :: s =>
    if isOpenBracket c then
      if stack.length = jsonMaxDepth then (.maxDepthExceeded, s)
      else skipCollectionFrom passes (c :: stack) (skipScalars c s)
    else if isCloseBracket c then
      match stack with
      | top :: below :: rest =>
        if isMatchingBracket top c then skipCollectionFrom passes (below :: rest) (skipBehindNested below s)
        else (.illegalDocument, s)
      | [_] => (.success, s)
      | [] => (.illegalDocument, s)
    else (.illegalDocument, s)

/-- `skipCollection` -/
def skipCollection (s : List UInt8) : JSONStatus × List UInt8 := skipCollectionFrom s.length [] s

/-- `JSON_Validate` -/
def jsonValidate (buf : List UInt8) : JSONStatus :=
  if buf = [] then .badParameter
  else
    let (status, s) :=
      match skipAnyScalar (skipWs buf) with
      | some s => (JSONStatus.success, s)
      | none => skipCollection (skipWs buf)
    if status = .success ∧ skipWs s ≠ [] then .illegalDocument else status

/-! ### The index moves -/

theorem length_skipString_lt {s r : List UInt8} (h : skipString s = some r) : r.length < s.length := by
  obtain ⟨body, -, rfl⟩ := skipString_iff.1 h
  rw [List.length_cons, List.length_append, List.length_cons]
  omega

theorem length_skipAnyScalar_lt {s r : List UInt8} (h : skipAnyScalar s = some r) : r.length < s.length := by
  cases skipAnyScalar_iff.1 h with
  | string hbody =>
    rw [List.length_cons, List.length_append, List.length_cons]
    omega
  | @literal l hl =>
    have hpos : 0 < l.length := by
      simp only [literals, List.mem_cons, List.not_mem_nil, or_false] at hl
      rcases hl with rfl | rfl | rfl <;> decide
    rw [List.length_append]
    omega
  | number hnumber => exact length_number_lt hnumber

theorem length_skipSpaceAndComma (s : List UInt8) :
    (skipSpaceAndComma s).2.length + (if (skipSpaceAndComma s).1 then 1 else 0) ≤ s.length := by
  have hs := length_skipWs_le s
  unfold skipSpaceAndComma
  split
  · simp
  · rename_i c u heq
    have hu := length_skipWs_le u
    rw [heq, List.length_cons] at hs
    split
    · split
      · simpa using hs
      · rename_i d v hv
        rw [hv] at hu
        split
        · simpa using hs
        · simp only [ite_true]
          omega
    · simpa using hs

theorem length_skipKey_lt {s r : List UInt8} (h : skipKey s = some r) : r.length < s.length := by
  obtain ⟨u, hu, h⟩ := Option.bind_eq_some_iff.1 h
  have h₁ := length_skipString_lt hu
  have h₂ := length_skipWs_le u
  split at h
  · cases h
  · rename_i c v heq
    have h₃ := length_skipWs_le v
    rw [heq, List.length_cons] at h₂
    split at h
    · obtain rfl := Option.some.inj h
      omega
    · cases h

theorem length_skipArrayScalarsFrom_le (passes : Nat) (s : List UInt8) :
    (skipArrayScalarsFrom passes s).length ≤ s.length := by
  induction passes generalizing s with
  | zero => exact Nat.le_refl _
  | succ passes ih =>
    rw [skipArrayScalarsFrom]
    split
    · exact Nat.le_refl _
    · rename_i u hu
      have h₁ := length_skipAnyScalar_lt hu
      have h₂ := length_skipSpaceAndComma u
      dsimp only
      split
      · exact (ih _).trans (by omega)
      · omega

theorem length_skipObjectScalarsFrom_le (passes : Nat) (s : List UInt8) :
    (skipObjectScalarsFrom passes s).length ≤ s.length := by
  induction passes generalizing s with
  | zero => exact Nat.le_refl _
  | succ passes ih =>
    rw [skipObjectScalarsFrom]
    split
    · exact Nat.le_refl _
    · exact Nat.le_refl _
    · rename_i c t hkey
      have h₀ := length_skipKey_lt hkey
      split
      · exact h₀.le
      · split
        · exact Nat.le_refl _
        · rename_i u hu
          have h₁ := length_skipAnyScalar_lt hu
          have h₂ := length_skipSpaceAndComma u
          dsimp only
          split
          · exact (ih _).trans (by omega)
          · omega

theorem length_skipScalars_le (mode : UInt8) (s : List UInt8) : (skipScalars mode s).length ≤ s.length := by
  unfold skipScalars
  dsimp only
  split
  · exact (length_skipArrayScalarsFrom_le _ _).trans (length_skipWs_le s)
  · exact (length_skipObjectScalarsFrom_le _ _).trans (length_skipWs_le s)

theorem length_skipBehindNested_le (mode : UInt8) (s : List UInt8) : (skipBehindNested mode s).length ≤ s.length := by
  have h := length_skipSpaceAndComma s
  unfold skipBehindNested
  dsimp only
  split
  · exact (length_skipScalars_le _ _).trans (by omega)
  · omega

end Json.Core
