import BlockCodec.Text.Case

namespace BlockCodec

namespace Text

def inRanges (n : Nat) (ranges : List (Nat × Nat)) : Bool :=
  ranges.any fun r => r.1 ≤ n && n ≤ r.2

def isCaseIgnorable (c : Char) : Bool := inRanges c.toNat caseIgnorableRanges

def isCased (c : Char) : Bool := inRanges c.toNat casedRanges

/-- The lowercase of a code point that maps to one code point. -/
def lowerCodePoint (n : Nat) : Nat :=
  match lowercaseRuns.find? fun r => r.1 ≤ n && n ≤ r.2.1 && (n - r.1) % r.2.2.1 == 0 with
  | some r => (n + r.2.2.2).toNat
  | none => n

def lowerChar (c : Char) : List Char :=
  if c.toNat = 0x130 then ['i', '̇'] else [Char.ofNat (lowerCodePoint c.toNat)]

/-- Whether the first character that is not case-ignorable is cased. -/
def casedPast (cs : List Char) : Bool :=
  match cs.dropWhile isCaseIgnorable with
  | c :: _ => isCased c
  | [] => false

/-- Lowercases characters; `before` holds those already passed, nearest first, for the
final-sigma test. -/
def lowerFrom (before : List Char) : List Char → List Char
  | [] => []
  | c :: after =>
    let here :=
      if c = 'Σ' then [if casedPast before && !casedPast after then 'ς' else 'σ']
      else lowerChar c
    here ++ lowerFrom (c :: before) after

def lowercase (s : String) : String :=
  String.ofList (lowerFrom [] s.toList)

end Text

end BlockCodec
