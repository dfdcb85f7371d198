/-!
Blank characters of Unicode text and the two trimmings that configuration and
assignments use. The table lists the code points with the White_Space property;
nothing here knows about line structure.
-/
namespace StartPage.Text

/-- Inclusive ranges of the code points that carry the White_Space property. -/
def blankRanges : List (Nat × Nat) :=
  [(0x09, 0x0D), (0x20, 0x20), (0x85, 0x85), (0xA0, 0xA0), (0x1680, 0x1680), (0x2000, 0x200A),
    (0x2028, 0x2029), (0x202F, 0x202F), (0x205F, 0x205F), (0x3000, 0x3000)]

def isWithin (ranges : List (Nat × Nat)) (c : Char) : Bool :=
  ranges.any fun range => range.1 ≤ c.toNat && c.toNat ≤ range.2

def isBlank (c : Char) : Bool := isWithin blankRanges c

def trimStart (text : List Char) : List Char := text.dropWhile isBlank

def trimEnd (text : List Char) : List Char := (text.reverse.dropWhile isBlank).reverse

def trim (text : String) : String := String.ofList (trimEnd (trimStart text.toList))

/-- ASCII capitals become small letters; every other character stays. -/
def lower (text : String) : String := String.ofList (text.toList.map Char.toLower)

end StartPage.Text
