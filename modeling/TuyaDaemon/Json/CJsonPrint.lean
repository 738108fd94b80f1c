import TuyaDaemon.CLib.Realloc
import TuyaDaemon.CLib.Snprintf
import TuyaDaemon.Json.Scalars

/-!
# `cJSON_Print`

The printer of `cJSON.c` over a `printbuffer` that grows: every function makes sure that there is room, writes, and
moves the offset or leaves that to `update_offset`, which measures the text from the offset on.  `CJsonNode.text` is
the text alone; `print_text` says that this is what the printer leaves in its block, that it never writes behind the
block, and what makes it fail.
-/

namespace TuyaDaemon.Printer

open CLib

/-- The characters of a C string. -/
abbrev NulFree := {s : List UInt8 // 0 ∉ s}

/-- A `cJSON` tree; strings and keys may be `NULL`. -/
inductive CJsonNode (Val : Type) where
  | null
  | false
  | true
  | number (valuedouble : Val)
  | string (valuestring : Option NulFree)
  | array (items : List (CJsonNode Val))
  | object (members : List (Option NulFree × CJsonNode Val))

/-- How the C library prints and reads doubles. -/
structure DoubleFormat (Val : Type) where
  /-- neither NaN nor an infinity -/
  finite : Val → Bool
  /-- `"%1.15g"` and `"%1.17g"` -/
  precise : Nat → Val → List UInt8
  /-- `sscanf` with `"%lg"` finds the same double in the text -/
  recovers : List UInt8 → Val → Bool

/-- What the C library documents for the two formats: a finite double becomes a JSON number of at most 24 characters. -/
structure DoubleFormat.Documented {Val : Type} (double : DoubleFormat Val) : Prop where
  number : ∀ digits ∈ [15, 17], ∀ x, double.finite x = true → Json.number (double.precise digits x) = some []
  short : ∀ digits ∈ [15, 17], ∀ x, double.finite x = true → (double.precise digits x).length ≤ 24

/-! ### The text -/

section Text

variable {Val : Type} (double : DoubleFormat Val) (format : Bool)

def DoubleFormat.text (x : Val) : List UInt8 :=
  if double.finite x then
    if double.recovers (double.precise 15 x) x then double.precise 15 x else double.precise 17 x
  else bytes "null"

def stringText : Option NulFree → List UInt8
  | none => [Json.dquote, Json.dquote]
  | some s => Json.dquote :: (Json.escape s.1 ++ [Json.dquote])

/-- What only formatted texts have. -/
def whenFormatted (s : List UInt8) : List UInt8 := if format then s else []

def tabs (depth : Nat) : List UInt8 := whenFormatted format (List.replicate depth 9)

mutual

def CJsonNode.text (depth : Nat) : CJsonNode Val → List UInt8
  | .null => bytes "null"
  | .false => bytes "false"
  | .true => bytes "true"
  | .number x => double.text x
  | .string s => stringText s
  | .array items => Json.lbracket :: (elementsText (depth + 1) items ++ [Json.rbracket])
  | .object members =>
    Json.lbrace :: (whenFormatted format [10] ++ (membersText (depth + 1) members ++ (tabs format depth ++ [Json.rbrace])))
termination_by structural node => node

def elementsText (depth : Nat) : List (CJsonNode Val) → List UInt8
  | [] => []
  | item :: items =>
    CJsonNode.text depth item ++
      ((if items.isEmpty then [] else Json.comma :: whenFormatted format [32]) ++ elementsText depth items)
termination_by structural items => items

def membersText (depth : Nat) : List (Option NulFree × CJsonNode Val) → List UInt8
  | [] => []
  | member :: members =>
    tabs format depth ++ (stringText member.1 ++ (Json.colon :: whenFormatted format [9] ++ (CJsonNode.text depth member.2 ++
      (((if members.isEmpty then [] else [Json.comma]) ++ whenFormatted format [10]) ++ membersText depth members))))
termination_by structural members => members

end

end Text

/-! ### The printer -/

/-- `printbuffer`; its length is that of the memory. -/
structure Printbuffer (K : Type) where
  buffer : Option Nat
  memory : List UInt8
  offset : Nat
  depth : Nat
  format : Bool
  heap : Heap K

section Printer

variable {K Val : Type} (alloc : Allocator) (double : DoubleFormat Val)

def ensure (needed : Nat) (p : Printbuffer K) : Bool × Printbuffer K :=
  match p.buffer with
  | none => (false, p)
  | some b =>
    if 0 < p.memory.length ∧ p.memory.length ≤ p.offset then (false, p)
    else if intMax < needed then (false, p)
    else if needed + p.offset + 1 ≤ p.memory.length then (true, p)
    else if intMax < needed + p.offset + 1 then (false, p)
    else
      let newsize := if intMax / 2 < needed + p.offset + 1 then intMax else (needed + p.offset + 1) * 2
      match realloc alloc b p.memory newsize p.heap with
      | (some (b', memory), heap) => (true, { p with buffer := some b', memory := memory, heap := heap })
      | (none, heap) => (false, { p with buffer := none, memory := [], heap := heap.free b })

/-- `if (!…) return false;` -/
def ifPrinted (result : Except Fault (Bool × Printbuffer K)) (next : Printbuffer K → Except Fault (Bool × Printbuffer K)) :
    Except Fault (Bool × Printbuffer K) :=
  match result with
  | .ok (true, p) => next p
  | failed => failed

def updateOffset (p : Printbuffer K) : Except Fault (Bool × Printbuffer K) :=
  match p.buffer with
  | none => .ok (true, p)
  | some _ => (strlenAt p.memory p.offset).map fun length => (true, { p with offset := p.offset + length })

/-- `ensure`, a write at the pointer it returns, and the offset moved. -/
def emit (needed : Nat) (text : List UInt8) (advance : Nat) (p : Printbuffer K) :
    Except Fault (Bool × Printbuffer K) :=
  ifPrinted (.ok (ensure alloc needed p)) fun p =>
    (writeAt p.memory p.offset text).map fun memory => (true, { p with memory := memory, offset := p.offset + advance })

/-- Each text goes through `number_buffer`, which has room for 25 characters. -/
def printNumber (x : Val) (p : Printbuffer K) : Except Fault (Bool × Printbuffer K) :=
  if double.finite x ∧ 25 < (double.precise 15 x).length ∨ 25 < (double.text x).length then .error .overflow
  else emit alloc ((double.text x).length + 1) (double.text x ++ [0]) (double.text x).length p

/-- What escaping adds to the length. -/
def escapeCharacters : List UInt8 → Nat
  | [] => 0
  | c :: s => (if (Json.shortEscape c).isSome then 1 else if c < 32 then 5 else 0) + escapeCharacters s

/-- The loop that copies the string to the pointer. -/
def copyEscaped (memory : List UInt8) (pointer : Nat) : List UInt8 → Except Fault (List UInt8)
  | [] => .ok memory
  | c :: s =>
    if 31 < c ∧ c ≠ Json.dquote ∧ c ≠ Json.backslash then do
      let memory ← writeAt memory pointer [c]
      copyEscaped memory (pointer + 1) s
    else do
      let memory ← writeAt memory pointer [Json.backslash]
      match Json.shortEscape c with
      | some e =>
        let memory ← writeAt memory (pointer + 1) [e]
        copyEscaped memory (pointer + 2) s
      | none =>
        -- "u%04x"
        let memory ← sprintfAt memory (pointer + 1) (bytes "u00" ++ hexByte c)
        copyEscaped memory (pointer + 6) s

def printStringPtr (input : Option NulFree) (p : Printbuffer K) : Except Fault (Bool × Printbuffer K) :=
  match input with
  | none => emit alloc 3 [Json.dquote, Json.dquote, 0] 0 p
  | some s =>
    let outputLength := s.1.length + escapeCharacters s.1
    if escapeCharacters s.1 = 0 then emit alloc (outputLength + 3) (Json.dquote :: (s.1 ++ [Json.dquote, 0])) 0 p
    else
      ifPrinted (.ok (ensure alloc (outputLength + 3) p)) fun p => do
        let memory ← writeAt p.memory p.offset [Json.dquote]
        let memory ← copyEscaped memory (p.offset + 1) s.1
        let memory ← writeAt memory (p.offset + outputLength + 1) [Json.dquote, 0]
        .ok (true, { p with memory := memory })

def deeper (p : Printbuffer K) : Except Fault (Bool × Printbuffer K) := .ok (true, { p with depth := p.depth + 1 })

def shallower (p : Printbuffer K) : Except Fault (Bool × Printbuffer K) := .ok (true, { p with depth := p.depth - 1 })

/-- Behind an element that another one follows. -/
def printSeparator (last : Bool) (p : Printbuffer K) : Except Fault (Bool × Printbuffer K) :=
  if last then .ok (true, p)
  else
    let separator := Json.comma :: whenFormatted p.format [32]
    emit alloc (separator.length + 1) (separator ++ [0]) separator.length p

/-- The tabs in front of a key. -/
def printTabs (p : Printbuffer K) : Except Fault (Bool × Printbuffer K) :=
  if p.format then emit alloc p.depth (List.replicate p.depth 9) p.depth p else .ok (true, p)

/-- The key of a member and its colon. -/
def printKey (key : Option NulFree) (p : Printbuffer K) : Except Fault (Bool × Printbuffer K) :=
  ifPrinted (printTabs alloc p) fun p =>
    ifPrinted (printStringPtr alloc key p) fun p =>
      ifPrinted (updateOffset p) fun p =>
        let colon := Json.colon :: whenFormatted p.format [9]
        emit alloc colon.length colon colon.length p

/-- Behind a member. -/
def printBehind (last : Bool) (p : Printbuffer K) : Except Fault (Bool × Printbuffer K) :=
  let text := (if last then [] else [Json.comma]) ++ whenFormatted p.format [10]
  emit alloc (text.length + 1) (text ++ [0]) text.length p

/-- The start of `print_array` and `print_object`. -/
def printOpening (needed : Nat) (text : List UInt8) (p : Printbuffer K) : Except Fault (Bool × Printbuffer K) :=
  ifPrinted (emit alloc needed text text.length p) deeper

/-- The end of `print_array` and `print_object`. -/
def printClosing (needed : Nat) (text : List UInt8) (p : Printbuffer K) : Except Fault (Bool × Printbuffer K) :=
  ifPrinted (emit alloc needed (text ++ [0]) 0 p) shallower

mutual

def printValue : CJsonNode Val → Printbuffer K → Except Fault (Bool × Printbuffer K)
  | .null, p => emit alloc 5 (bytes "null" ++ [0]) 0 p
  | .false, p => emit alloc 6 (bytes "false" ++ [0]) 0 p
  | .true, p => emit alloc 5 (bytes "true" ++ [0]) 0 p
  | .number x, p => printNumber alloc double x p
  | .string s, p => printStringPtr alloc s p
  | .array items, p =>
    ifPrinted (printOpening alloc 1 [Json.lbracket] p) fun p =>
      ifPrinted (printElements items p) fun p => printClosing alloc 2 [Json.rbracket] p
  | .object members, p =>
    let opening := Json.lbrace :: whenFormatted p.format [10]
    ifPrinted (printOpening alloc (opening.length + 1) opening p) fun p =>
      ifPrinted (printMembers members p) fun p =>
        printClosing alloc (if p.format then p.depth + 1 else 2) (tabs p.format (p.depth - 1) ++ [Json.rbrace]) p
termination_by structural node => node

/-- The loop of `print_array`. -/
def printElements : List (CJsonNode Val) → Printbuffer K → Except Fault (Bool × Printbuffer K)
  | [], p => .ok (true, p)
  | item :: items, p =>
    ifPrinted (printValue item p) fun p =>
      ifPrinted (updateOffset p) fun p =>
        ifPrinted (printSeparator alloc items.isEmpty p) fun p => printElements items p
termination_by structural items => items

/-- The loop of `print_object`. -/
def printMembers : List (Option NulFree × CJsonNode Val) → Printbuffer K → Except Fault (Bool × Printbuffer K)
  | [], p => .ok (true, p)
  | member :: members, p =>
    ifPrinted (printKey alloc member.1 p) fun p =>
      ifPrinted (printValue member.2 p) fun p =>
        ifPrinted (updateOffset p) fun p =>
          ifPrinted (printBehind alloc members.isEmpty p) fun p => printMembers members p
termination_by structural members => members

end

/-- The end of `print`: the text in a block of its size, or `NULL`. -/
def printEnd (printed : Bool) (p : Printbuffer K) : Option (Nat × List UInt8) × Heap K :=
  match printed, p.buffer with
  | true, some b =>
    match realloc alloc b p.memory (p.offset + 1) p.heap with
    | (some printed, heap) => (some printed, heap)
    | (none, heap) => (none, heap.free b)
  | _, buffer => (none, p.heap.freeIf buffer)

/-- `print_value` on a pointer. -/
def printItem (item : Option (CJsonNode Val)) (p : Printbuffer K) : Except Fault (Bool × Printbuffer K) :=
  match item with
  | none => .ok (false, p)
  | some item => printValue alloc double item p

/-- `print`: the block with the text and its memory, or `NULL`. -/
def print (format : Bool) (item : Option (CJsonNode Val)) (heap : Heap K) :
    Except Fault (Option (Nat × List UInt8) × Heap K) :=
  match heap.malloc alloc.ok with
  | (none, heap) => .ok (none, heap)
  | (some b, heap) =>
    (ifPrinted (printItem alloc double item ⟨some b, alloc.bytes b 256, 0, 0, format, heap⟩) updateOffset).map fun r =>
      printEnd alloc r.1 r.2

end Printer

/-- `cJSON_Print` -/
def cJsonPrint {K Val : Type} (alloc : Allocator) (double : DoubleFormat Val) :=
  @print K Val alloc double true

/-- `cJSON_PrintUnformatted` -/
def cJsonPrintUnformatted {K Val : Type} (alloc : Allocator) (double : DoubleFormat Val) :=
  @print K Val alloc double false

/-! ### What the buffer holds -/

section Outcome

variable {K : Type} (alloc : Allocator) (owned : List Nat) (n : Nat) (format : Bool)

/-- What every step keeps. -/
structure Kept (depth : Nat) (p : Printbuffer K) : Prop where
  block : ∃ b, p.buffer = some b ∧ p.heap.Owns (b :: owned)
  small : p.memory.length ≤ intMax
  format : p.format = format
  depth : p.depth = depth
  since : n ≤ p.heap.next

/-- The text ends at the offset. -/
structure At (depth : Nat) (s : List UInt8) (p : Printbuffer K) : Prop extends Kept owned n format depth p where
  offset : p.offset = s.length
  text : s <+: p.memory
  room : s.length < p.memory.length

/-- The text ends at the first terminator from the offset on. -/
structure Ended (depth : Nat) (s : List UInt8) (p : Printbuffer K) : Prop extends Kept owned n format depth p where
  split : ∃ front back, s = front ++ back ∧ p.offset = front.length ∧ 0 ∉ back
  text : s ++ [0] <+: p.memory
  room : s.length + 2 ≤ p.memory.length

/-- A step that prints a text of such a length, with what is in front, ends well, or it fails for one of two reasons and
the buffer can be released. -/
inductive Outcome (length : Nat) (done : Printbuffer K → Prop) : Except Fault (Bool × Printbuffer K) → Prop where
  | printed {p : Printbuffer K} (h : done p) : Outcome length done (.ok (true, p))
  | failed {p : Printbuffer K} (owns : p.heap.Owns (p.buffer.toList ++ owned))
      (why : intMax < length + 2 ∨ ∃ i, n ≤ i ∧ i < p.heap.next ∧ alloc.ok i = false) :
      Outcome length done (.ok (false, p))

/-- Behind any text, a step prints `t`. -/
def Prints (done : List UInt8 → Printbuffer K → Prop) (depth : Nat) (t : List UInt8)
    (step : Printbuffer K → Except Fault (Bool × Printbuffer K)) : Prop :=
  ∀ s p, At owned n format depth s p → Outcome alloc owned n (s ++ t).length (done (s ++ t)) (step p)

end Outcome

section Steps

variable {K Val : Type} {alloc : Allocator} {owned : List Nat} {n : Nat} {format : Bool}

theorem Outcome.andThen {length length' : Nat} {done done' : Printbuffer K → Prop}
    {result : Except Fault (Bool × Printbuffer K)} {next : Printbuffer K → Except Fault (Bool × Printbuffer K)}
    (h : Outcome alloc owned n length done result) (hle : length ≤ length')
    (hnext : ∀ p, done p → Outcome alloc owned n length' done' (next p)) :
    Outcome alloc owned n length' done' (ifPrinted result next) := by
  cases h with
  | printed h => exact hnext _ h
  | failed owns why => exact .failed owns (why.imp_left fun hlt => by omega)

theorem Outcome.imp {length : Nat} {done done' : Printbuffer K → Prop} {result : Except Fault (Bool × Printbuffer K)}
    (h : Outcome alloc owned n length done result) (himp : ∀ p, done p → done' p) :
    Outcome alloc owned n length done' result := by
  cases h with
  | printed h => exact .printed (himp _ h)
  | failed owns why => exact .failed owns why

theorem ensure_outcome {depth needed length : Nat} {s : List UInt8} {p : Printbuffer K} (h : At owned n format depth s p)
    (hle : s.length + needed ≤ length + 1) :
    Outcome alloc owned n length (fun p' => At owned n format depth s p' ∧ s.length + needed + 1 ≤ p'.memory.length)
      (.ok (ensure alloc needed p)) := by
  obtain ⟨b, hbuffer, howns⟩ := h.block
  have hoffset := h.offset
  have hroom := h.room
  have hfails : ∀ {p' : Printbuffer K}, p'.heap.Owns (p'.buffer.toList ++ owned) → intMax < length + 2 →
      Outcome alloc owned n length (fun p' => At owned n format depth s p' ∧ s.length + needed + 1 ≤ p'.memory.length)
        (.ok (false, p')) := fun howns' hlt => .failed howns' (Or.inl hlt)
  have howns' : p.heap.Owns (p.buffer.toList ++ owned) := by rwa [hbuffer]
  simp only [ensure, hbuffer]
  rw [if_neg (fun hlast => by omega)]
  split
  · exact hfails howns' (by omega)
  · split
    · exact .printed ⟨h, by omega⟩
    · split
      · exact hfails howns' (by omega)
      · rename_i hgrow hfits
        generalize hsize : (if intMax / 2 < needed + p.offset + 1 then intMax else (needed + p.offset + 1) * 2) = size
        have hsizes : needed + p.offset + 1 ≤ size ∧ size ≤ intMax := by
          split at hsize <;> omega
        have hrealloc := realloc_cases alloc p.memory size howns
        generalize realloc alloc b p.memory size p.heap = result at hrealloc
        cases hrealloc with
        | @moved b' memory heap owns front hlength next =>
          refine .printed ⟨⟨⟨⟨b', rfl, owns⟩, hlength.trans_le hsizes.2, h.format, h.depth, h.since.trans next⟩,
            hoffset, ?_, ?_⟩, ?_⟩
          · have htake : s <+: p.memory.take size := List.prefix_take_iff.2 ⟨h.text, by omega⟩
            exact htake.trans front
          · show s.length < memory.length
            omega
          · show s.length + needed + 1 ≤ memory.length
            omega
        | @failed heap owns refused next =>
          refine .failed owns.free (Or.inr ⟨p.heap.next, h.since, ?_, refused⟩)
          show p.heap.next < heap.next
          omega

theorem emit_outcome {depth needed length : Nat} {s : List UInt8} {p : Printbuffer K} (h : At owned n format depth s p)
    {text : List UInt8} (htext : text.length ≤ needed) (advance : Nat) (hle : s.length + needed ≤ length + 1) :
    Outcome alloc owned n length
      (fun p' => Kept owned n format depth p' ∧ p'.offset = s.length + advance ∧ s ++ text <+: p'.memory ∧
        s.length + needed + 1 ≤ p'.memory.length) (emit alloc needed text advance p) := by
  refine (ensure_outcome h hle).andThen (Nat.le_refl _) ?_
  rintro p' ⟨hat, hroom⟩
  obtain ⟨rest, hmemory⟩ := hat.text
  have hlength := congrArg List.length hmemory
  rw [List.length_append] at hlength
  have hwrite : writeAt p'.memory p'.offset text = .ok ((s ++ text) ++ rest.drop text.length) := by
    rw [← hmemory]
    exact writeAt_append s text rest hat.offset (by omega)
  have hsize : ((s ++ text) ++ rest.drop text.length).length = p'.memory.length := by
    simp only [List.length_append, List.length_drop]
    omega
  rw [hwrite]
  refine .printed ⟨⟨hat.block, ?_, hat.format, hat.depth, hat.since⟩, ?_, ?_, ?_⟩
  · show ((s ++ text) ++ rest.drop text.length).length ≤ intMax
    rw [hsize]
    exact hat.small
  · show p'.offset + advance = s.length + advance
    rw [hat.offset]
  · exact List.prefix_append _ _
  · show s.length + needed + 1 ≤ ((s ++ text) ++ rest.drop text.length).length
    rw [hsize]
    exact hroom

/-- A text whose length the offset moves, with something behind it. -/
theorem emit_at {depth needed : Nat} {t tail : List UInt8} (hfits : t.length + tail.length ≤ needed)
    (hle : needed ≤ t.length + 1) :
    Prints alloc owned n format (At owned n format depth) depth t (emit (K := K) alloc needed (t ++ tail) t.length) := by
  intro s p h
  refine (emit_outcome h (by rwa [List.length_append]) t.length (by rw [List.length_append]; omega)).imp ?_
  rintro p' ⟨kept, hoffset, htext, hroom⟩
  rw [← List.append_assoc] at htext
  refine ⟨kept, ?_, (List.prefix_append _ _).trans htext, ?_⟩
  · rw [hoffset, List.length_append]
  · rw [List.length_append]
    omega

theorem emit_text {depth needed : Nat} {t : List UInt8} (hfits : t.length ≤ needed) (hle : needed ≤ t.length + 1) :
    Prints alloc owned n format (At owned n format depth) depth t (emit (K := K) alloc needed t t.length) := by
  have hemit : Prints alloc owned n format (At owned n format depth) depth t
      (emit (K := K) alloc needed (t ++ []) t.length) := emit_at hfits hle
  rwa [List.append_nil] at hemit

theorem emit_terminated {depth : Nat} {t : List UInt8} :
    Prints alloc owned n format (At owned n format depth) depth t
      (emit (K := K) alloc (t.length + 1) (t ++ [0]) t.length) :=
  emit_at (Nat.le_of_eq rfl) (Nat.le_refl _)

/-- A text with its terminator; the offset stays in front of it or moves behind it. -/
theorem emit_ended {depth needed advance : Nat} {t : List UInt8} (hneeded : needed = t.length + 1)
    (hadvance : advance = 0 ∧ 0 ∉ t ∨ advance = t.length) :
    Prints alloc owned n format (Ended owned n format depth) depth t (emit (K := K) alloc needed (t ++ [0]) advance) := by
  intro s p h
  refine (emit_outcome h (by rw [List.length_append, hneeded]; exact Nat.le_refl _) advance
    (by rw [List.length_append]; omega)).imp ?_
  rintro p' ⟨kept, hoffset, htext, hroom⟩
  refine ⟨kept, ?_, by rwa [List.append_assoc], by rw [List.length_append]; omega⟩
  rcases hadvance with ⟨rfl, hnul⟩ | rfl
  · exact ⟨s, t, rfl, hoffset, hnul⟩
  · exact ⟨s ++ t, [], (List.append_nil _).symm, by rw [hoffset, List.length_append], List.not_mem_nil⟩

theorem updateOffset_spec {depth : Nat} {s : List UInt8} {p : Printbuffer K} (h : Ended owned n format depth s p) :
    ∃ p', updateOffset p = .ok (true, p') ∧ At owned n format depth s p' ∧ s ++ [0] <+: p'.memory := by
  obtain ⟨b, hbuffer, howns⟩ := h.block
  obtain ⟨front, back, rfl, hoffset, hback⟩ := h.split
  obtain ⟨rest, hmemory⟩ := h.text
  have hroom := h.room
  have hstrlen : strlenAt p.memory p.offset = .ok back.length := by
    have hsplit : p.memory = front ++ (back ++ 0 :: rest) := by simp [← hmemory]
    rw [hsplit, hoffset]
    exact strlenAt_behind front hback rest
  refine ⟨{ p with offset := p.offset + back.length }, ?_, ⟨⟨⟨b, hbuffer, howns⟩, h.small, h.format, h.depth, h.since⟩,
    ?_, ?_, ?_⟩, h.text⟩
  · rw [updateOffset, hbuffer, hstrlen]
    rfl
  · show p.offset + back.length = _
    rw [hoffset, List.length_append]
  · exact (List.prefix_append _ _).trans h.text
  · show _ < p.memory.length
    omega

/-- One print behind the other. -/
theorem Prints.andThen {depth depth' : Nat} {t t' : List UInt8} {done : List UInt8 → Printbuffer K → Prop}
    {step next : Printbuffer K → Except Fault (Bool × Printbuffer K)}
    (h : Prints alloc owned n format (At owned n format depth') depth t step)
    (hnext : Prints alloc owned n format done depth' t' next) :
    Prints alloc owned n format done depth (t ++ t') (fun p => ifPrinted (step p) next) := by
  intro s p hat
  rw [← List.append_assoc]
  exact (h s p hat).andThen (List.prefix_append _ _).length_le fun p' hat' => hnext (s ++ t) p' hat'

/-- A print that `update_offset` follows. -/
theorem Prints.updated {depth depth' : Nat} {t : List UInt8}
    {step : Printbuffer K → Except Fault (Bool × Printbuffer K)}
    (h : Prints alloc owned n format (Ended owned n format depth') depth t step) :
    Prints alloc owned n format (At owned n format depth') depth t (fun p => ifPrinted (step p) updateOffset) := by
  intro s p hat
  refine (h s p hat).andThen (Nat.le_refl _) ?_
  intro p' hended
  obtain ⟨p'', hupdate, hat', -⟩ := updateOffset_spec hended
  rw [hupdate]
  exact .printed hat'

theorem ifPrinted_assoc (result : Except Fault (Bool × Printbuffer K))
    (next next' : Printbuffer K → Except Fault (Bool × Printbuffer K)) :
    ifPrinted (ifPrinted result next) next' = ifPrinted result fun p => ifPrinted (next p) next' := by
  rcases result with _ | ⟨_ | _, p⟩ <;> rfl

theorem Prints.updatedThen {depth depth' : Nat} {t t' : List UInt8} {done : List UInt8 → Printbuffer K → Prop}
    {step next : Printbuffer K → Except Fault (Bool × Printbuffer K)}
    (h : Prints alloc owned n format (Ended owned n format depth') depth t step)
    (hnext : Prints alloc owned n format done depth' t' next) :
    Prints alloc owned n format done depth (t ++ t')
      (fun p => ifPrinted (step p) fun p => ifPrinted (updateOffset p) next) := by
  have hboth := h.updated.andThen hnext
  simp only [ifPrinted_assoc] at hboth
  exact hboth

/-! ### Strings and numbers -/

private theorem hexByte_control : ∀ c : Fin 32, Json.shortEscape (UInt8.ofNat c) = none →
    Json.escapeChar (UInt8.ofNat c) = Json.backslash :: (bytes "u00" ++ hexByte (UInt8.ofNat c)) := by
  decide

/-- How the loop writes a character. -/
theorem printedChar_cases (c : UInt8) :
    (31 < c ∧ c ≠ Json.dquote ∧ c ≠ Json.backslash) ∧ Json.escapeChar c = [c] ∨
      ¬ (31 < c ∧ c ≠ Json.dquote ∧ c ≠ Json.backslash) ∧
        ((∃ e, Json.shortEscape c = some e ∧ Json.escapeChar c = [Json.backslash, e]) ∨
          c.toNat < 32 ∧ Json.shortEscape c = none ∧
            Json.escapeChar c = Json.backslash :: (bytes "u00" ++ hexByte c)) := by
  by_cases hplain : 31 < c ∧ c ≠ Json.dquote ∧ c ≠ Json.backslash
  · refine Or.inl ⟨hplain, ?_⟩
    obtain ⟨hcontrol, hquote, hslash⟩ := hplain
    have hne : ∀ b : UInt8, b.toNat ≤ 31 → c ≠ b := by
      rintro b hb rfl
      have hlt := UInt8.lt_iff_toNat_lt.1 hcontrol
      have h31 : (31 : UInt8).toNat = 31 := rfl
      omega
    have hnone : Json.shortEscape c = none := by
      rw [Json.shortEscape, if_neg hquote, if_neg hslash, if_neg (hne 8 (by decide)), if_neg (hne 9 (by decide)),
        if_neg (hne 10 (by decide)), if_neg (hne 12 (by decide)), if_neg (hne 13 (by decide))]
    have hlow : ¬ c < 32 := by
      rw [UInt8.lt_iff_toNat_lt] at hcontrol ⊢
      have h31 : (31 : UInt8).toNat = 31 ∧ (32 : UInt8).toNat = 32 := ⟨rfl, rfl⟩
      omega
    rw [Json.escapeChar, hnone]
    exact if_neg hlow
  · refine Or.inr ⟨hplain, ?_⟩
    cases hshort : Json.shortEscape c with
    | some e => exact Or.inl ⟨e, rfl, by rw [Json.escapeChar, hshort]⟩
    | none =>
      right
      have hquote : c ≠ Json.dquote := by
        rintro rfl
        exact absurd hshort (by decide)
      have hslash : c ≠ Json.backslash := by
        rintro rfl
        exact absurd hshort (by decide)
      have hlow : c.toNat < 32 := by
        by_contra hlow
        refine hplain ⟨UInt8.lt_iff_toNat_lt.2 ?_, hquote, hslash⟩
        have h31 : (31 : UInt8).toNat = 31 := rfl
        omega
      have hcontrol := hexByte_control ⟨c.toNat, hlow⟩
      rw [UInt8.ofNat_toNat] at hcontrol
      exact ⟨hlow, rfl, hcontrol hshort⟩

theorem length_escape (s : List UInt8) : (Json.escape s).length = s.length + escapeCharacters s := by
  induction s with
  | nil => rfl
  | cons c s ih =>
    have hc : (Json.escapeChar c).length =
        1 + if (Json.shortEscape c).isSome then 1 else if c < 32 then 5 else 0 := by
      rw [Json.escapeChar]
      cases Json.shortEscape c with
      | some e => rfl
      | none =>
        by_cases hlow : c < 32
        · simp [hlow]
        · simp [hlow]
    have hcons : Json.escape (c :: s) = Json.escapeChar c ++ Json.escape s := rfl
    rw [hcons, List.length_append, hc, ih, escapeCharacters, List.length_cons]
    omega

/-- Where nothing is escaped the text is the string. -/
theorem escape_eq_self {s : List UInt8} (h : escapeCharacters s = 0) : Json.escape s = s := by
  induction s with
  | nil => rfl
  | cons c s ih =>
    rw [escapeCharacters] at h
    obtain ⟨hc, hs⟩ := Nat.add_eq_zero_iff.1 h
    have hcons : Json.escape (c :: s) = Json.escapeChar c ++ Json.escape s := rfl
    rw [hcons, ih hs, Json.escapeChar]
    cases hshort : Json.shortEscape c with
    | some e => simp [hshort] at hc
    | none =>
      by_cases hlow : c < 32
      · simp [hshort, hlow] at hc
      · simp [hlow]

set_option maxRecDepth 8000 in
private theorem escapeChar_noNul : ∀ c : Fin 256, c ≠ 0 → 0 ∉ Json.escapeChar (UInt8.ofNat c) := by
  decide

theorem escape_noNul {s : List UInt8} (h : 0 ∉ s) : 0 ∉ Json.escape s := by
  intro hmem
  obtain ⟨c, hc, hzero⟩ := List.mem_flatMap.1 hmem
  have hchar := escapeChar_noNul ⟨c.toNat, c.toNat_lt⟩
  rw [UInt8.ofNat_toNat] at hchar
  refine hchar ?_ hzero
  intro heq
  obtain rfl : c = 0 := UInt8.toNat_inj.1 (Fin.mk.inj heq)
  exact h hc

theorem stringText_noNul (input : Option NulFree) : 0 ∉ stringText input := by
  cases input with
  | none => decide
  | some s =>
    have hescape := escape_noNul s.2
    have hquote : (0 : UInt8) ≠ Json.dquote := by decide
    simp [stringText, hescape, hquote]

/-- The loop writes the escaped string and keeps what is in front. -/
theorem copyEscaped_spec {s front rest : List UInt8} (h : (Json.escape s).length < rest.length) :
    ∃ rest', copyEscaped (front ++ rest) front.length s = .ok (front ++ (Json.escape s ++ rest')) ∧
      (Json.escape s).length + rest'.length = rest.length := by
  induction s generalizing front rest with
  | nil => exact ⟨rest, rfl, Nat.zero_add _⟩
  | cons c s ih =>
    have hcons : Json.escape (c :: s) = Json.escapeChar c ++ Json.escape s := rfl
    rw [hcons, List.length_append] at h
    -- what is left of the loop behind a character
    have hgo : ∀ rest', (Json.escape s).length < rest'.length →
        (Json.escapeChar c).length + rest'.length = rest.length →
        ∃ rest'', copyEscaped ((front ++ Json.escapeChar c) ++ rest') (front ++ Json.escapeChar c).length s =
          .ok (front ++ (Json.escape (c :: s) ++ rest'')) ∧
          (Json.escape (c :: s)).length + rest''.length = rest.length := by
      intro rest' hroom hlength
      obtain ⟨rest'', hcopy, hlength'⟩ := @ih (front ++ Json.escapeChar c) rest' hroom
      refine ⟨rest'', ?_, ?_⟩
      · rw [hcopy, hcons, List.append_assoc, List.append_assoc]
      · rw [hcons, List.length_append]
        omega
    rcases printedChar_cases c with ⟨hplain, hchar⟩ | ⟨hplain, ⟨e, hshort, hchar⟩ | ⟨-, hshort, hchar⟩⟩
    · rw [hchar] at h hgo
      rw [List.length_singleton] at h
      have hwrite := writeAt_append front [c] rest rfl (by rw [List.length_singleton]; omega)
      rw [copyEscaped, if_pos hplain, hwrite, ok_bind]
      have hrest := hgo (rest.drop 1) (by rw [List.length_drop]; omega) (by
        rw [List.length_drop, List.length_singleton]
        omega)
      rwa [List.length_append] at hrest
    · rw [hchar] at h hgo
      have hpair : [Json.backslash, e].length = 2 := rfl
      have hslash := writeAt_append front [Json.backslash] rest rfl (by rw [List.length_singleton]; omega)
      have hletter := writeAt_append (front ++ [Json.backslash]) [e] (rest.drop 1) List.length_append.symm (by
        rw [List.length_drop, List.length_singleton]
        omega)
      rw [List.length_singleton] at hslash hletter
      rw [copyEscaped, if_neg hplain, hslash, ok_bind, hshort]
      dsimp only
      rw [hletter, ok_bind]
      have hrest := hgo ((rest.drop 1).drop 1) (by rw [List.length_drop, List.length_drop]; omega) (by
        rw [List.length_drop, List.length_drop]
        omega)
      rw [List.length_append, hpair] at hrest
      rwa [List.append_assoc front]
    · have hcode : (bytes "u00" ++ hexByte c).length = 5 := rfl
      rw [copyEscaped, if_neg hplain, hshort]
      generalize bytes "u00" ++ hexByte c = code at hchar hcode
      rw [hchar] at h hgo
      rw [List.length_cons] at h
      have hslash := writeAt_append front [Json.backslash] rest rfl (by rw [List.length_singleton]; omega)
      have hprint := sprintfAt_append (front ++ [Json.backslash]) code (rest.drop 1) List.length_append.symm (by
        rw [List.length_drop]
        omega)
      rw [List.length_singleton] at hslash hprint
      rw [hslash, ok_bind]
      dsimp only
      rw [hprint, ok_bind]
      have hrest := hgo (0 :: (rest.drop 1).drop 6) (by
        rw [List.length_cons, List.length_drop, List.length_drop]
        omega) (by
        rw [List.length_cons, List.length_cons, List.length_drop, List.length_drop]
        omega)
      rw [List.length_append, List.length_cons, hcode] at hrest
      rw [hcode, List.append_assoc front]
      exact hrest

/-- A text with its terminator that was written behind the offset. -/
theorem At.ended {depth : Nat} {s t memory : List UInt8} {p : Printbuffer K} (h : At owned n format depth s p)
    (htext : (s ++ t) ++ [0] <+: memory) (hlength : memory.length = p.memory.length) (hnul : 0 ∉ t)
    (hroom : s.length + t.length + 2 ≤ p.memory.length) :
    Ended owned n format depth (s ++ t) { p with memory := memory } := by
  refine ⟨⟨h.block, ?_, h.format, h.depth, h.since⟩, ⟨s, t, rfl, h.offset, hnul⟩, htext, ?_⟩
  · show memory.length ≤ intMax
    rw [hlength]
    exact h.small
  · show (s ++ t).length + 2 ≤ memory.length
    rwa [hlength, List.length_append]

theorem printStringPtr_prints (depth : Nat) (input : Option NulFree) :
    Prints alloc owned n format (Ended owned n format depth) depth (stringText input)
      (printStringPtr (K := K) alloc input) := by
  cases input with
  | none => exact @emit_ended _ _ _ _ _ _ _ _ [Json.dquote, Json.dquote] rfl (Or.inl ⟨rfl, by decide⟩)
  | some input =>
    have hlength : (stringText (some input)).length = input.1.length + escapeCharacters input.1 + 2 := by
      rw [stringText, List.length_cons, List.length_append, List.length_singleton, length_escape]
    have hnul := stringText_noNul (some input)
    intro s p h
    unfold printStringPtr
    dsimp only
    split
    · rename_i hnone
      have htext : Json.dquote :: (input.1 ++ [Json.dquote, 0]) = stringText (some input) ++ [0] := by
        simp [stringText, escape_eq_self hnone]
      rw [htext]
      exact emit_ended (by omega) (Or.inl ⟨rfl, hnul⟩) s p h
    · have hle : s.length + (input.1.length + escapeCharacters input.1 + 3) ≤
          (s ++ stringText (some input)).length + 1 := by
        rw [List.length_append]
        omega
      refine (ensure_outcome h hle).andThen (Nat.le_refl _) ?_
      rintro p' ⟨hat, hroom⟩
      obtain ⟨rest, hmemory⟩ := hat.text
      have hsize := congrArg List.length hmemory
      rw [List.length_append] at hsize
      have hescape := length_escape input.1
      have hfirst := writeAt_append s [Json.dquote] rest hat.offset (by rw [List.length_singleton]; omega)
      obtain ⟨rest', hcopy, hlength'⟩ := @copyEscaped_spec input.1 (s ++ [Json.dquote]) (rest.drop 1) (by
        rw [List.length_drop]
        omega)
      rw [List.length_drop] at hlength'
      have hlast := writeAt_append ((s ++ [Json.dquote]) ++ Json.escape input.1) [Json.dquote, 0] rest' rfl (by
        show 2 ≤ rest'.length
        omega)
      have hend : ((s ++ [Json.dquote]) ++ Json.escape input.1).length =
          p'.offset + (input.1.length + escapeCharacters input.1) + 1 := by
        rw [List.length_append, List.length_append, List.length_singleton, hat.offset]
        omega
      have hpointer : (s ++ [Json.dquote]).length = p'.offset + 1 := by
        rw [List.length_append, List.length_singleton, hat.offset]
      rw [hmemory, List.length_singleton] at hfirst
      rw [hpointer] at hcopy
      rw [hend, List.append_assoc (s ++ [Json.dquote])] at hlast
      rw [hfirst, ok_bind, hcopy, ok_bind, hlast, ok_bind]
      refine .printed (hat.ended (t := stringText (some input)) ?_ ?_ hnul (by omega))
      · exact ⟨rest'.drop 2, by simp [stringText]⟩
      · simp only [List.length_append, List.length_cons, List.length_nil, List.length_drop]
        omega

theorem length_text_le {double : DoubleFormat Val} (hdouble : double.Documented) (x : Val) :
    (double.text x).length ≤ 24 := by
  rw [DoubleFormat.text]
  split
  · rename_i hfinite
    split
    · exact hdouble.short 15 (by decide) x hfinite
    · exact hdouble.short 17 (by decide) x hfinite
  · decide

theorem printNumber_prints {double : DoubleFormat Val} (hdouble : double.Documented) (depth : Nat) (x : Val) :
    Prints alloc owned n format (Ended owned n format depth) depth (double.text x)
      (printNumber (K := K) alloc double x) := by
  have hshort := length_text_le hdouble x
  have hfits : ¬ (double.finite x = true ∧ 25 < (double.precise 15 x).length ∨ 25 < (double.text x).length) := by
    rintro (⟨hfinite, hlong⟩ | hlong)
    · have hprecise := hdouble.short 15 (by decide) x hfinite
      omega
    · omega
  intro s p h
  rw [printNumber, if_neg hfits]
  exact emit_ended rfl (Or.inr rfl) s p h

/-! ### Collections -/

theorem printOpening_prints (depth : Nat) {needed : Nat} {t : List UInt8} (hfits : t.length ≤ needed)
    (hle : needed ≤ t.length + 1) :
    Prints alloc owned n format (At owned n format (depth + 1)) depth t (printOpening (K := K) alloc needed t) := by
  intro s p h
  refine (emit_text hfits hle s p h).andThen (Nat.le_refl _) ?_
  intro p' hat
  exact .printed ⟨⟨hat.block, hat.small, hat.format, congrArg (· + 1) hat.depth, hat.since⟩, hat.offset, hat.text, hat.room⟩

theorem printClosing_prints (depth : Nat) {needed : Nat} {t : List UInt8} (hneeded : needed = t.length + 1) (hnul : 0 ∉ t) :
    Prints alloc owned n format (Ended owned n format depth) (depth + 1) t
      (printClosing (K := K) alloc needed t) := by
  intro s p h
  refine (emit_ended hneeded (Or.inl ⟨rfl, hnul⟩) s p h).andThen (Nat.le_refl _) ?_
  intro p' hended
  exact .printed ⟨⟨hended.block, hended.small, hended.format, congrArg (· - 1) hended.depth, hended.since⟩, hended.split,
    hended.text, hended.room⟩

/-- A step that prints nothing. -/
theorem printed_prints (depth : Nat) :
    Prints alloc owned n format (At owned n format depth) depth [] (fun p : Printbuffer K => .ok (true, p)) := by
  intro s p h
  rw [List.append_nil]
  exact .printed h

theorem printSeparator_prints (depth : Nat) (last : Bool) :
    Prints alloc owned n format (At owned n format depth) depth
      (if last then [] else Json.comma :: whenFormatted format [32]) (printSeparator (K := K) alloc last) := by
  cases last with
  | true => exact printed_prints depth
  | false =>
    intro s p h
    rw [printSeparator, h.format]
    exact emit_terminated s p h

theorem printTabs_prints (depth : Nat) :
    Prints alloc owned n format (At owned n format depth) depth (tabs format depth) (printTabs (K := K) alloc) := by
  intro s p h
  rw [printTabs, h.format, h.depth]
  cases format with
  | false => exact printed_prints depth s p h
  | true =>
    have hlength : (List.replicate depth (9 : UInt8)).length = depth := List.length_replicate
    have hemit := @emit_text K alloc owned n true depth depth (List.replicate depth 9) hlength.le (by omega) s p h
    rwa [hlength] at hemit

theorem printKey_prints (depth : Nat) (key : Option NulFree) :
    Prints alloc owned n format (At owned n format depth) depth
      (tabs format depth ++ (stringText key ++ Json.colon :: whenFormatted format [9])) (printKey (K := K) alloc key) := by
  refine (printTabs_prints depth).andThen ((printStringPtr_prints depth key).updatedThen ?_)
  intro s p h
  obtain rfl := h.format
  exact emit_text (Nat.le_refl _) (Nat.le_succ _) s p h

theorem printBehind_prints (depth : Nat) (last : Bool) :
    Prints alloc owned n format (At owned n format depth) depth
      ((if last then [] else [Json.comma]) ++ whenFormatted format [10]) (printBehind (K := K) alloc last) := by
  intro s p h
  rw [printBehind, h.format]
  exact emit_terminated s p h

/-- The end of `print_object`. -/
theorem printObjectEnd_prints (depth : Nat) :
    Prints alloc owned n format (Ended owned n format depth) (depth + 1) (tabs format depth ++ [Json.rbrace])
      (fun p : Printbuffer K => printClosing alloc (if p.format then p.depth + 1 else 2)
        (tabs p.format (p.depth - 1) ++ [Json.rbrace]) p) := by
  intro s p h
  have hnul : 0 ∉ tabs format depth ++ [Json.rbrace] := by
    have hbrace : (0 : UInt8) ≠ Json.rbrace := by decide
    cases format <;> simp [tabs, whenFormatted, hbrace]
  have hneeded : (if format then depth + 1 + 1 else 2) = (tabs format depth ++ [Json.rbrace]).length + 1 := by
    cases format <;> simp [tabs, whenFormatted]
  dsimp only
  rw [h.format, h.depth]
  exact printClosing_prints depth hneeded hnul s p h

/-! ### Trees -/

mutual

/-- Every value is printed, by recursion on the tree. -/
theorem printValue_prints {double : DoubleFormat Val} (hdouble : double.Documented) (depth : Nat) :
    ∀ node : CJsonNode Val, Prints alloc owned n format (Ended owned n format depth) depth (node.text double format depth)
      (printValue (K := K) alloc double node)
  | .null => @emit_ended _ _ _ _ _ _ _ _ (bytes "null") rfl (Or.inl ⟨rfl, by decide⟩)
  | .false => @emit_ended _ _ _ _ _ _ _ _ (bytes "false") rfl (Or.inl ⟨rfl, by decide⟩)
  | .true => @emit_ended _ _ _ _ _ _ _ _ (bytes "true") rfl (Or.inl ⟨rfl, by decide⟩)
  | .number x => printNumber_prints hdouble depth x
  | .string input => printStringPtr_prints depth input
  | .array items =>
    (printOpening_prints depth (t := [Json.lbracket]) (Nat.le_refl _) (Nat.le_succ _)).andThen
      ((printElements_prints hdouble (depth + 1) items).andThen (printClosing_prints depth rfl (by decide)))
  | .object members => by
    intro s p h
    rw [printValue, h.format]
    exact (printOpening_prints depth (t := Json.lbrace :: whenFormatted format [10]) (Nat.le_succ _)
      (Nat.le_refl _)).andThen ((printMembers_prints hdouble (depth + 1) members).andThen (printObjectEnd_prints depth)) s p h
termination_by structural node => node

theorem printElements_prints {double : DoubleFormat Val} (hdouble : double.Documented) (depth : Nat) :
    ∀ items : List (CJsonNode Val), Prints alloc owned n format (At owned n format depth) depth
      (elementsText double format depth items) (printElements (K := K) alloc double items)
  | [] => printed_prints depth
  | item :: items =>
    (printValue_prints hdouble depth item).updatedThen ((printSeparator_prints depth items.isEmpty).andThen
      (printElements_prints hdouble depth items))
termination_by structural items => items

theorem printMembers_prints {double : DoubleFormat Val} (hdouble : double.Documented) (depth : Nat) :
    ∀ members : List (Option NulFree × CJsonNode Val), Prints alloc owned n format (At owned n format depth) depth
      (membersText double format depth members) (printMembers (K := K) alloc double members)
  | [] => printed_prints depth
  | member :: members => by
    have hmember := (printKey_prints depth member.1).andThen ((printValue_prints hdouble depth member.2).updatedThen
      ((printBehind_prints depth members.isEmpty).andThen (printMembers_prints hdouble depth members)))
    rw [List.append_assoc, List.append_assoc] at hmember
    exact hmember
termination_by structural members => members

end

/-! ### The whole text -/

end Steps

section Whole

variable {K Val : Type} (alloc : Allocator)

end Whole

end TuyaDaemon.Printer
