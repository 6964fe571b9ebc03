/-!
White space. A blank is a character with the Unicode property `White_Space`; trimming and
splitting into words go by it.
-/

namespace LiveMigration.Text

def isBlank (c : Char) : Bool :=
  let n := c.toNat
  (0x09 ≤ n && n ≤ 0x0D) || n == 0x20 || n == 0x85 || n == 0xA0 || n == 0x1680 ||
    (0x2000 ≤ n && n ≤ 0x200A) || n == 0x2028 || n == 0x2029 || n == 0x202F ||
    n == 0x205F || n == 0x3000

def trimStartChars (cs : List Char) : List Char := cs.dropWhile isBlank

def trimEndChars (cs : List Char) : List Char := (cs.reverse.dropWhile isBlank).reverse

def trim (s : String) : String := String.ofList (trimEndChars (trimStartChars s.toList))

def trimEnd (s : String) : String := String.ofList (trimEndChars s.toList)

/-- Adds one character in front of what `wordsFrom` found: the first list is the word in
progress, empty after a blank. -/
def addToWords (c : Char) (acc : List Char × List (List Char)) : List Char × List (List Char) :=
  if isBlank c then ([], if acc.1.isEmpty then acc.2 else acc.1 :: acc.2)
  else (c :: acc.1, acc.2)

/-- The maximal runs of non-blank characters, in order. -/
def words (s : String) : List String :=
  let (word, rest) := s.toList.foldr addToWords ([], [])
  ((if word.isEmpty then rest else word :: rest).map String.ofList)

end LiveMigration.Text
