import BlockCodec.Json.Value

namespace BlockCodec

/-- Which characters a string is written with escapes. The quote, the backslash and
every control character below U+0020 always are; `lineSeparators` adds U+0085, U+2028
and U+2029, so that the text splits into lines only at its own line breaks. -/
structure TextStyle where
  lineSeparators : Bool

def TextStyle.compact : TextStyle := ⟨false⟩

def TextStyle.lines : TextStyle := ⟨true⟩

def hexDigit (n : Nat) : Char :=
  if n < 10 then Char.ofNat (48 + n) else Char.ofNat (87 + n)

/-- The escape `\uXXXX` of a code point below `0x10000`. -/
def unicodeEscape (n : Nat) : List Char :=
  ['\\', 'u', hexDigit (n / 4096 % 16), hexDigit (n / 256 % 16), hexDigit (n / 16 % 16),
    hexDigit (n % 16)]

def escapeChar (style : TextStyle) (c : Char) : List Char :=
  match c with
  | '"' => ['\\', '"']
  | '\\' => ['\\', '\\']
  | '\n' => ['\\', 'n']
  | '\r' => ['\\', 'r']
  | '\t' => ['\\', 't']
  | '\x08' => ['\\', 'b']
  | '\x0c' => ['\\', 'f']
  | c =>
    if c.toNat < 0x20 then unicodeEscape c.toNat
    else if style.lineSeparators && (c.toNat == 0x85 || c.toNat == 0x2028 || c.toNat == 0x2029)
    then unicodeEscape c.toNat
    else [c]

def quote (style : TextStyle) (s : String) : String :=
  String.ofList ('"' :: (s.toList.flatMap (escapeChar style) ++ ['"']))

namespace Json

mutual

/-- Appends the compact text of a value to `out`. Writing into one growing text keeps
the cost linear in the size of the result, however deeply the value nests. -/
def renderTo (style : TextStyle) (out : String) : Json → String
  | null => out ++ "null"
  | bool b => out ++ if b then "true" else "false"
  | number n => out ++ n.render
  | string s => out ++ quote style s
  | array items => renderItemsTo style (out ++ "[") items ++ "]"
  | object members => renderMembersTo style (out ++ "\x7b") members ++ "\x7d"

def renderItemsTo (style : TextStyle) (out : String) : List Json → String
  | [] => out
  | [j] => renderTo style out j
  | j :: rest => renderItemsTo style (renderTo style out j ++ ",") rest

def renderMembersTo (style : TextStyle) (out : String) : List (String × Json) → String
  | [] => out
  | [(k, v)] => renderTo style (out ++ quote style k ++ ":") v
  | (k, v) :: rest =>
    renderMembersTo style (renderTo style (out ++ quote style k ++ ":") v ++ ",") rest

end

def render (style : TextStyle) (j : Json) : String := renderTo style "" j

def compact (j : Json) : String := render TextStyle.compact j

end Json

end BlockCodec
