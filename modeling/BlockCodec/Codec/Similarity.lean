import BlockCodec.Text.Lowercase

namespace BlockCodec

def isInfixOf (small : List Char) : List Char → Bool
  | [] => small.isEmpty
  | c :: rest => small.isPrefixOf (c :: rest) || isInfixOf small rest

/-- The tier of a candidate: 100 when it starts with the query, 50 when it contains it,
30 when the query contains it, else 0. -/
def similarityTier (query candidate : List Char) : Nat :=
  if query.isPrefixOf candidate then 100
  else if isInfixOf query candidate then 50
  else if isInfixOf candidate query then 30
  else 0

/-- The likeness of a lowercased candidate to a lowercased query. -/
def similarity (query candidate : String) : Nat :=
  let q := query.toList
  let c := candidate.toList
  let tier := similarityTier q c
  let qs := q.eraseDups
  let cs := c.eraseDups
  let common := (qs.filter fun x => cs.contains x).length
  if tier = 0 ∧ common * 2 < max qs.length cs.length then 0
  else
    let a := query.utf8ByteSize
    let b := candidate.utf8ByteSize
    let diff := if a ≤ b then b - a else a - b
    tier + common * 2 + (if diff < 5 then 5 - diff else 0)

/-- The at most three names most like the query, best first, ties in name order; names
that score nothing are left out. -/
def similarNames (query : String) (names : List String) : List String :=
  let q := Text.lowercase query
  let scored := names.filterMap fun n =>
    let s := similarity q (Text.lowercase n)
    if 0 < s then some (n, s) else none
  let ranked := scored.mergeSort fun a b => b.2 < a.2 || (a.2 == b.2 && decide (a.1 ≤ b.1))
  (ranked.take 3).map (·.1)

end BlockCodec
