import SipXRouter.Bytes

/-!
# Glob patterns

The patterns that search the keys of a Redis server: `*` stands for any text, `?` for any
byte, brackets for one byte of a class, and a backslash takes the byte behind it as it is.
-/

namespace SipXRouter.Glob

/-- An item of a pattern. -/
inductive Item where
  | star
  | any
  | literal (c : Byte)
  | class (negated : Bool) (ranges : List (Byte × Byte))
  deriving DecidableEq

/-- The ranges of a class, and what follows its closing bracket. -/
def parseRanges : Text → List (Byte × Byte) × Text
  | [] => ([], [])
  | 92 :: c :: rest => ((c, c) :: (parseRanges rest).1, (parseRanges rest).2)
  | 93 :: rest => ([], rest)
  | lo :: 45 :: hi :: rest =>
    ((min lo hi, max lo hi) :: (parseRanges rest).1, (parseRanges rest).2)
  | c :: rest => ((c, c) :: (parseRanges rest).1, (parseRanges rest).2)

/-- The items of a pattern of at most `fuel` bytes. -/
def parseAux : Nat → Text → List Item
  | 0, _ => []
  | _ + 1, [] => []
  | fuel + 1, c :: rest =>
    if c = byte '*' then .star :: parseAux fuel rest
    else if c = byte '?' then .any :: parseAux fuel rest
    else if c = byte '[' then
      let negated := rest.head? == some (byte '^')
      let ranges := parseRanges (if negated then rest.tail else rest)
      .class negated ranges.1 :: parseAux fuel ranges.2
    else if c = byte '\\' ∧ rest ≠ [] then
      .literal (rest.headD 0) :: parseAux fuel rest.tail
    else .literal c :: parseAux fuel rest

/-- A search pattern as a list of items. -/
def parse (pattern : Text) : List Item := parseAux pattern.length pattern

def Item.accepts : Item → Byte → Bool
  | .star, _ => false
  | .any, _ => true
  | .literal c, d => c == d
  | .class negated ranges, c => negated != ranges.any fun r => decide (r.1 ≤ c) && decide (c ≤ r.2)

/-- Whether a key is covered by the items, a star by any piece of it. -/
def matchItems : List Item → Text → Bool
  | [], t => t.isEmpty
  | .star :: items, t => t.tails.any (matchItems items)
  | _ :: _, [] => false
  | item :: items, c :: t => item.accepts c && matchItems items t

/-- Whether a search pattern covers a key. -/
def covers (pattern t : Text) : Bool := matchItems (parse pattern) t

end SipXRouter.Glob
