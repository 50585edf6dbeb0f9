import BlockCodec.Json.Value

namespace BlockCodec

inductive ReadFault where
  | eofInList
  | eofInObject
  | eofInString
  | eofInValue
  | expectedColon
  | expectedListCommaOrEnd
  | expectedObjectCommaOrEnd
  | expectedIdent
  | expectedValue
  | invalidEscape
  | invalidNumber
  | numberOutOfRange
  | controlCharacter
  | keyMustBeString
  | loneSurrogate
  | trailingComma
  | trailingCharacters
  | unexpectedEndOfHexEscape
  | recursionLimitExceeded
  /-- A value of another type stands where one type is wanted; both are described. -/
  | invalidType (found expected : String)
  deriving DecidableEq

def ReadFault.message : ReadFault → String
  | eofInList => "EOF while parsing a list"
  | eofInObject => "EOF while parsing an object"
  | eofInString => "EOF while parsing a string"
  | eofInValue => "EOF while parsing a value"
  | expectedColon => "expected \x60:\x60"
  | expectedListCommaOrEnd => "expected \x60,\x60 or \x60]\x60"
  | expectedObjectCommaOrEnd => "expected \x60,\x60 or \x60\x7d\x60"
  | expectedIdent => "expected ident"
  | expectedValue => "expected value"
  | invalidEscape => "invalid escape"
  | invalidNumber => "invalid number"
  | numberOutOfRange => "number out of range"
  | controlCharacter => "control character (\\u0000-\\u001F) found while parsing a string"
  | keyMustBeString => "key must be a string"
  | loneSurrogate => "lone leading surrogate in hex escape"
  | trailingComma => "trailing comma"
  | trailingCharacters => "trailing characters"
  | unexpectedEndOfHexEscape => "unexpected end of hex escape"
  | recursionLimitExceeded => "recursion limit exceeded"
  | invalidType found expected => "invalid type: " ++ found ++ ", expected " ++ expected

/-- A fault with the line (from one) and the column (bytes into the line) it is found at. -/
structure ReadError where
  fault : ReadFault
  line : Nat
  column : Nat

def ReadError.message (e : ReadError) : String :=
  e.fault.message ++ " at line " ++ natText e.line ++ " column " ++ natText e.column

namespace JsonReader

/-- What is left to read, and how many bytes were read before it. -/
structure Cursor where
  rest : List Char
  offset : Nat

/-- A fault and the byte offset it is reported at. -/
abbrev Failure := ReadFault × Nat

/-- A read of an `α` that leaves a cursor behind. -/
abbrev Step (α : Type) := Except Failure (α × Cursor)

def isBlank (c : Char) : Bool := c == ' ' || c == '\n' || c == '\t' || c == '\r'

def skipBlank : List Char → Nat → Cursor
  | c :: r, offset => if isBlank c then skipBlank r (offset + 1) else ⟨c :: r, offset⟩
  | [], offset => ⟨[], offset⟩

/-- The offset at which a fault about the next character is reported: just past its
first byte, or the end of the text when none is left. -/
def Cursor.peekOffset (c : Cursor) : Nat := if c.rest.isEmpty then c.offset else c.offset + 1

def isDigit (c : Char) : Bool := '0' ≤ c && c ≤ '9'

def digitValue (c : Char) : Nat := c.toNat - 48

/-- Reads a run of digits onto `acc`: the value, how many digits, and what follows. -/
def digitRun (acc count : Nat) : List Char → Nat × Nat × List Char
  | c :: r => if isDigit c then digitRun (acc * 10 + digitValue c) (count + 1) r else (acc, count, c :: r)
  | [] => (acc, count, [])

def hasBytes : List Char → Nat → Bool
  | _, 0 => true
  | [], _ + 1 => false
  | c :: r, n + 1 => if n + 1 ≤ c.utf8Size then true else hasBytes r (n + 1 - c.utf8Size)

def byteLength (cs : List Char) : Nat := cs.foldl (fun n c => n + c.utf8Size) 0

def readWord : List Char → Cursor → Except Failure Cursor
  | [], c => .ok c
  | w :: ws, c =>
    match c.rest with
    | [] => .error (.eofInValue, c.offset)
    | ch :: r => if ch = w then readWord ws ⟨r, c.offset + 1⟩ else .error (.expectedIdent, c.offset + 1)

/-- How an exponent's digits end: with their value, or past the largest exponent the
reader keeps, at the digit that went past it. -/
inductive ExponentEnd where
  | done (exp : Nat) (c : Cursor)
  | overflow (c : Cursor)

/-- Reads the further digits of an exponent; it may not exceed `2 ^ 31 - 1`. -/
def exponentRun (exp : Nat) : List Char → Nat → ExponentEnd
  | c :: r, offset =>
    if isDigit c then
      if 2147483647 < exp * 10 + digitValue c then .overflow ⟨r, offset + 1⟩
      else exponentRun (exp * 10 + digitValue c) r (offset + 1)
    else .done exp ⟨c :: r, offset⟩
  | [], offset => .done exp ⟨[], offset⟩

/-- The number for a literal of the given sign and digits with no point and no exponent:
an integer when one of the integer forms holds it, else the nearest binary64 value. -/
def integerLiteral (negative : Bool) (digits : Nat) (endOffset : Nat) : Except Failure Number :=
  let asFloat : Except Failure Number :=
    match Binary64.ofDecimal negative digits 0 with
    | some x => if h : x.isFinite = true then .ok (.float x h) else .error (.numberOutOfRange, endOffset)
    | none => .error (.numberOutOfRange, endOffset)
  if negative then
    if 0 < digits ∧ digits ≤ Nat.pow 2 63 then
      if h : Int64.ofInt (-(digits : Int)) < 0 then .ok (.negative _ h) else asFloat
    else asFloat
  else if digits < Nat.pow 2 64 then .ok (.natural (UInt64.ofNat digits)) else asFloat

/-- The number for `digits · 10 ^ exponent` with the given sign. -/
def floatLiteral (negative : Bool) (digits : Nat) (exponent : Int) (endOffset : Nat) :
    Except Failure Number :=
  match Binary64.ofDecimal negative digits exponent with
  | some x => if h : x.isFinite = true then .ok (.float x h) else .error (.numberOutOfRange, endOffset)
  | none => .error (.numberOutOfRange, endOffset)

/-- Reads the exponent after the mark and finishes a literal with digits `digits` and
`scale` digits after the point. -/
def readExponent (negative : Bool) (digits scale : Nat) (c : Cursor) : Step Number :=
  let (positive, c) : Bool × Cursor :=
    match c.rest with
    | '+' :: r => (true, ⟨r, c.offset + 1⟩)
    | '-' :: r => (false, ⟨r, c.offset + 1⟩)
    | _ => (true, c)
  match c.rest with
  | [] => .error (.eofInValue, c.offset)
  | d :: r =>
    if isDigit d then
      match exponentRun (digitValue d) r (c.offset + 1) with
      | .done exp c' =>
        let e : Int := (if positive then (exp : Int) else -(exp : Int)) - scale
        (floatLiteral negative digits e c'.offset).map (·, c')
      | .overflow c' =>
        if digits ≠ 0 ∧ positive then .error (.numberOutOfRange, c'.offset)
        else
          let (_, n, r') := digitRun 0 0 c'.rest
          (floatLiteral negative 0 0 (c'.offset + n)).map (·, ⟨r', c'.offset + n⟩)
    else .error (.invalidNumber, c.offset + 1)

/-- Reads a number from its first digit; the minus sign, if any, is already read. -/
def readNumber (negative : Bool) (c : Cursor) : Step Number :=
  let whole : Except Failure (Nat × Cursor) :=
    match c.rest with
    | [] => .error (.eofInValue, c.offset)
    | '0' :: r =>
      match r with
      | d :: _ => if isDigit d then .error (.invalidNumber, c.offset + 2) else .ok (0, ⟨r, c.offset + 1⟩)
      | [] => .ok (0, ⟨r, c.offset + 1⟩)
    | d :: r =>
      if isDigit d then
        let (v, n, r') := digitRun (digitValue d) 1 r
        .ok (v, ⟨r', c.offset + n⟩)
      else .error (.invalidNumber, c.offset + 1)
  match whole with
  | .error e => .error e
  | .ok (v, c1) =>
    match c1.rest with
    | '.' :: r =>
      let (w, n, r') := digitRun v 0 r
      let c2 : Cursor := ⟨r', c1.offset + 1 + n⟩
      if n = 0 then
        match r' with
        | [] => .error (.eofInValue, c2.offset)
        | _ => .error (.invalidNumber, c2.offset + 1)
      else
        match r' with
        | m :: r'' => if m = 'e' ∨ m = 'E' then readExponent negative w n ⟨r'', c2.offset + 1⟩
          else (floatLiteral negative w (-(n : Int)) c2.offset).map (·, c2)
        | [] => (floatLiteral negative w (-(n : Int)) c2.offset).map (·, c2)
    | m :: r =>
      if m = 'e' ∨ m = 'E' then readExponent negative v 0 ⟨r, c1.offset + 1⟩
      else (integerLiteral negative v c1.offset).map (·, c1)
    | [] => (integerLiteral negative v c1.offset).map (·, c1)

def hexValue? (c : Char) : Option Nat :=
  if isDigit c then some (digitValue c)
  else if 'a' ≤ c ∧ c ≤ 'f' then some (c.toNat - 87)
  else if 'A' ≤ c ∧ c ≤ 'F' then some (c.toNat - 55)
  else none

/-- Reads the four hexadecimal digits of a `\u` escape. Four bytes are taken whatever
they are. -/
def readHex4 (c : Cursor) : Step Nat :=
  if !hasBytes c.rest 4 then .error (.eofInString, c.offset + byteLength c.rest) else
  match c.rest with
  | a :: b :: d :: e :: r =>
    match hexValue? a, hexValue? b, hexValue? d, hexValue? e with
    | some a, some b, some d, some e => .ok (((a * 16 + b) * 16 + d) * 16 + e, ⟨r, c.offset + 4⟩)
    | _, _, _, _ => .error (.invalidEscape, c.offset + 4)
  | _ => .error (.invalidEscape, c.offset + 4)

/-- Reads a `\u` escape, with its second half when it starts a surrogate pair. -/
def readUnicodeEscape (c : Cursor) : Step Char :=
  match readHex4 c with
  | .error e => .error e
  | .ok (n, c1) =>
    if 0xDC00 ≤ n ∧ n ≤ 0xDFFF then .error (.loneSurrogate, c1.offset)
    else if n < 0xD800 ∨ 0xDBFF < n then .ok (Char.ofNat n, c1)
    else
      match c1.rest with
      | [] => .error (.eofInString, c1.offset)
      | '\\' :: r =>
        match r with
        | [] => .error (.eofInString, c1.offset + 1)
        | 'u' :: r' =>
          match readHex4 ⟨r', c1.offset + 2⟩ with
          | .error e => .error e
          | .ok (n2, c2) =>
            if n2 < 0xDC00 ∨ 0xDFFF < n2 then .error (.loneSurrogate, c2.offset)
            else .ok (Char.ofNat (0x10000 + (n - 0xD800) * 1024 + (n2 - 0xDC00)), c2)
        | _ :: _ => .error (.unexpectedEndOfHexEscape, c1.offset + 2)
      | _ :: _ => .error (.unexpectedEndOfHexEscape, c1.offset + 1)

/-- Reads the rest of a string after its opening quote, with fuel for each character. -/
def readStringBody : Nat → String → Cursor → Step String
  | 0, _, c => .error (.eofInString, c.offset)
  | fuel + 1, acc, c =>
    match c.rest with
    | [] => .error (.eofInString, c.offset)
    | '"' :: r => .ok (acc, ⟨r, c.offset + 1⟩)
    | '\\' :: r =>
      match r with
      | [] => .error (.eofInString, c.offset + 1)
      | e :: r' =>
        let next : Cursor := ⟨r', c.offset + 2⟩
        match e with
        | '"' => readStringBody fuel (acc.push '"') next
        | '\\' => readStringBody fuel (acc.push '\\') next
        | '/' => readStringBody fuel (acc.push '/') next
        | 'b' => readStringBody fuel (acc.push '\x08') next
        | 'f' => readStringBody fuel (acc.push '\x0c') next
        | 'n' => readStringBody fuel (acc.push '\n') next
        | 'r' => readStringBody fuel (acc.push '\r') next
        | 't' => readStringBody fuel (acc.push '\t') next
        | 'u' =>
          match readUnicodeEscape next with
          | .ok (ch, c') => readStringBody fuel (acc.push ch) c'
          | .error e => .error e
        | _ => .error (.invalidEscape, c.offset + 2)
    | ch :: r =>
      if ch.toNat < 0x20 then .error (.controlCharacter, c.offset + 1)
      else readStringBody fuel (acc.push ch) ⟨r, c.offset + ch.utf8Size⟩

/-- Reads a string after its opening quote, with fuel for as many characters as are left.
The value reader hands on its own fuel, which stays above twice the length of what is
left of the text, so that no string needs its length counted again. -/
def readString (fuel : Nat) (c : Cursor) : Step String := readStringBody fuel "" c

mutual

/-- Reads one value after optional blanks. `room` is how many containers may still be
opened, when limited. -/
def readValue : Nat → Option Nat → Cursor → Step Json
  | 0, _, c => .error (.eofInValue, c.offset)
  | fuel + 1, room, c =>
    let c := skipBlank c.rest c.offset
    match c.rest with
    | [] => .error (.eofInValue, c.offset)
    | 'n' :: r => (readWord ['u', 'l', 'l'] ⟨r, c.offset + 1⟩).map (Json.null, ·)
    | 't' :: r => (readWord ['r', 'u', 'e'] ⟨r, c.offset + 1⟩).map (Json.bool true, ·)
    | 'f' :: r => (readWord ['a', 'l', 's', 'e'] ⟨r, c.offset + 1⟩).map (Json.bool false, ·)
    | '-' :: r => (readNumber true ⟨r, c.offset + 1⟩).map fun (n, c') => (Json.number n, c')
    | '"' :: r => (readString fuel ⟨r, c.offset + 1⟩).map fun (s, c') => (Json.string s, c')
    | '[' :: r =>
      match room with
      | some k =>
        if k ≤ 1 then .error (.recursionLimitExceeded, c.offset + 1)
        else (readItems fuel (some (k - 1)) true [] ⟨r, c.offset + 1⟩).map
          fun (items, c') => (Json.array items, c')
      | none => (readItems fuel none true [] ⟨r, c.offset + 1⟩).map
          fun (items, c') => (Json.array items, c')
    | '{' :: r =>
      match room with
      | some k =>
        if k ≤ 1 then .error (.recursionLimitExceeded, c.offset + 1)
        else (readMembers fuel (some (k - 1)) true [] ⟨r, c.offset + 1⟩).map
          fun (members, c') => (Json.object members, c')
      | none => (readMembers fuel none true [] ⟨r, c.offset + 1⟩).map
          fun (members, c') => (Json.object members, c')
    | ch :: _ =>
      if isDigit ch then (readNumber false c).map fun (n, c') => (Json.number n, c')
      else .error (.expectedValue, c.offset + 1)

/-- Reads the items of an array up to its closing bracket; `acc` holds those read, last
first. -/
def readItems : Nat → Option Nat → Bool → List Json → Cursor → Step (List Json)
  | 0, _, _, _, c => .error (.eofInList, c.offset)
  | fuel + 1, room, first, acc, c =>
    let c := skipBlank c.rest c.offset
    match c.rest with
    | [] => .error (.eofInList, c.offset)
    | ']' :: r => .ok (acc.reverse, ⟨r, c.offset + 1⟩)
    | ',' :: r =>
      if first then
        match readValue fuel room c with
        | .ok (v, c') => readItems fuel room false (v :: acc) c'
        | .error e => .error e
      else
        let c2 := skipBlank r (c.offset + 1)
        match c2.rest with
        | ']' :: _ => .error (.trailingComma, c2.offset + 1)
        | [] => .error (.eofInValue, c2.offset)
        | _ :: _ =>
          match readValue fuel room c2 with
          | .ok (v, c') => readItems fuel room false (v :: acc) c'
          | .error e => .error e
    | _ :: _ =>
      if first then
        match readValue fuel room c with
        | .ok (v, c') => readItems fuel room false (v :: acc) c'
        | .error e => .error e
      else .error (.expectedListCommaOrEnd, c.offset + 1)

/-- Reads the members of an object up to its closing brace. -/
def readMembers : Nat → Option Nat → Bool → List (String × Json) → Cursor →
    Step (List (String × Json))
  | 0, _, _, _, c => .error (.eofInObject, c.offset)
  | fuel + 1, room, first, acc, c =>
    let c := skipBlank c.rest c.offset
    match c.rest with
    | [] => .error (.eofInObject, c.offset)
    | '}' :: r => .ok (acc, ⟨r, c.offset + 1⟩)
    | ',' :: r =>
      if first then .error (.keyMustBeString, c.offset + 1)
      else
        let c2 := skipBlank r (c.offset + 1)
        match c2.rest with
        | '}' :: _ => .error (.trailingComma, c2.offset + 1)
        | [] => .error (.eofInValue, c2.offset)
        | '"' :: r2 => readMember fuel room acc ⟨r2, c2.offset + 1⟩
        | _ :: _ => .error (.keyMustBeString, c2.offset + 1)
    | '"' :: r =>
      if first then readMember fuel room acc ⟨r, c.offset + 1⟩
      else .error (.expectedObjectCommaOrEnd, c.offset + 1)
    | _ :: _ =>
      if first then .error (.keyMustBeString, c.offset + 1)
      else .error (.expectedObjectCommaOrEnd, c.offset + 1)

/-- Reads a member after the opening quote of its key, then the members after it. -/
def readMember : Nat → Option Nat → List (String × Json) → Cursor → Step (List (String × Json))
  | 0, _, _, c => .error (.eofInObject, c.offset)
  | fuel + 1, room, acc, c =>
    match readString (fuel + 1) c with
    | .error e => .error e
    | .ok (key, c1) =>
      let c2 := skipBlank c1.rest c1.offset
      match c2.rest with
      | [] => .error (.eofInObject, c2.offset)
      | ':' :: r =>
        match readValue fuel room ⟨r, c2.offset + 1⟩ with
        | .ok (v, c3) => readMembers fuel room false (Json.insertMember key v acc) c3
        | .error e => .error e
      | _ :: _ => .error (.expectedColon, c2.offset + 1)

end

/-- The line (from one) and byte column of a byte offset: the column counts the bytes
after the last line break before the offset. -/
def locate (cs : List Char) (offset : Nat) : Nat × Nat :=
  let step (s : Nat × Nat × Nat) (ch : Char) : Nat × Nat × Nat :=
    let (pos, line, start) := s
    if pos < offset ∧ ch = '\n' then (pos + 1, line + 1, pos + 1) else (pos + ch.utf8Size, line, start)
  let (_, line, start) := cs.foldl step (0, 1, 0)
  (line, offset - start)

/-- How a number is described when it stands where another type is wanted. -/
def describeNumber : Number → String
  | .float x _ => "floating point \x60" ++ x.render FloatFormat.json ++ "\x60"
  | n => "integer \x60" ++ n.render ++ "\x60"

/-- Reads a value that must be a string; any other value is read through and reported
as of the wrong type at the place where its reading ended. -/
def readStringOnly (c : Cursor) : Step String :=
  let c := skipBlank c.rest c.offset
  let wrong (found : String) (offset : Nat) : Failure := (.invalidType found "a string", offset)
  match c.rest with
  | [] => .error (.eofInValue, c.offset)
  | '"' :: r => readString (r.length + 1) ⟨r, c.offset + 1⟩
  | 'n' :: r =>
    match readWord ['u', 'l', 'l'] ⟨r, c.offset + 1⟩ with
    | .ok c' => .error (wrong "null" c'.offset)
    | .error e => .error e
  | 't' :: r =>
    match readWord ['r', 'u', 'e'] ⟨r, c.offset + 1⟩ with
    | .ok c' => .error (wrong "boolean \x60true\x60" c'.offset)
    | .error e => .error e
  | 'f' :: r =>
    match readWord ['a', 'l', 's', 'e'] ⟨r, c.offset + 1⟩ with
    | .ok c' => .error (wrong "boolean \x60false\x60" c'.offset)
    | .error e => .error e
  | '-' :: r =>
    match readNumber true ⟨r, c.offset + 1⟩ with
    | .ok (n, c') => .error (wrong (describeNumber n) c'.offset)
    | .error e => .error e
  | '[' :: _ => .error (wrong "sequence" c.offset)
  | '{' :: _ => .error (wrong "map" c.offset)
  | ch :: _ =>
    if isDigit ch then
      match readNumber false c with
      | .ok (n, c') => .error (wrong (describeNumber n) c'.offset)
      | .error e => .error e
    else .error (.expectedValue, c.offset + 1)

/-- Reads something at the start of a text with a reader, giving it together with the
fault of the first character after it other than blanks, if any. -/
def readLeading {α : Type} (reader : List Char → Step α) (text : String) :
    Except ReadError (α × Option ReadError) :=
  let cs := text.toList
  let fail (f : Failure) : ReadError :=
    let (line, column) := locate cs f.2
    ⟨f.1, line, column⟩
  match reader cs with
  | .error f => .error (fail f)
  | .ok (v, c) =>
    let c := skipBlank c.rest c.offset
    .ok (v, if c.rest.isEmpty then none else some (fail (.trailingCharacters, c.offset + 1)))

end JsonReader

namespace Json

/-- Reads one JSON value at the start of a text, with the fault of what follows it, if
anything does. With `room = some k`, at most `k - 1` containers may be open at once. -/
def readPrefix (room : Option Nat) (text : String) : Except ReadError (Json × Option ReadError) :=
  JsonReader.readLeading (fun cs => JsonReader.readValue (2 * cs.length + 3) room ⟨cs, 0⟩) text

/-- Reads a text that holds one JSON value with blanks around it. -/
def read (room : Option Nat) (text : String) : Except ReadError Json :=
  match readPrefix room text with
  | .ok (v, none) => .ok v
  | .ok (_, some e) => .error e
  | .error e => .error e

/-- How many containers the codec's text reader lets be open, plus one. -/
def nestingRoom : Nat := 128

/-- Reads JSON text as the codec does: more than 127 nested containers are refused. -/
def parse (text : String) : Except ReadError Json := read (some nestingRoom) text

/-- Reads a JSON string at the start of a text, with the fault of what follows it. -/
def readStringPrefix (text : String) : Except ReadError (String × Option ReadError) :=
  JsonReader.readLeading (fun cs => JsonReader.readStringOnly ⟨cs, 0⟩) text

end Json

end BlockCodec
