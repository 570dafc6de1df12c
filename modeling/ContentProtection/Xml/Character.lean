/-!
# Character classes of XML

Which characters a document may hold, which separate the parts of a tag, and which make up names.
-/

namespace ContentProtection.Xml

/-- Space, tab, line feed and carriage return. -/
def isSpace (c : Char) : Bool := c == ' ' || c == '\t' || c == '\n' || c == '\r'

/-- No control characters but the spaces, and neither U+FFFE nor U+FFFF. -/
def isCharacter (c : Char) : Bool :=
  if c.toNat < 0x20 then isSpace c else c.toNat ≠ 0xFFFE && c.toNat ≠ 0xFFFF

/-- The ranges of characters beyond ASCII that may start a name. -/
def nameStartRanges : List (Nat × Nat) :=
  [(0xC0, 0xD6), (0xD8, 0xF6), (0xF8, 0x2FF), (0x370, 0x37D), (0x37F, 0x1FFF), (0x200C, 0x200D), (0x2070, 0x218F),
    (0x2C00, 0x2FEF), (0x3001, 0xD7FF), (0xF900, 0xFDCF), (0xFDF0, 0xFFFD), (0x10000, 0xEFFFF)]

/-- The ranges beyond ASCII that may only continue a name. -/
def nameInnerRanges : List (Nat × Nat) := [(0xB7, 0xB7), (0x300, 0x36F), (0x203F, 0x2040)]

def inRanges (ranges : List (Nat × Nat)) (code : Nat) : Bool :=
  ranges.any fun (low, high) => low ≤ code && code ≤ high

def isNameStart (c : Char) : Bool :=
  if c.toNat ≤ 128 then c.isAlpha || c == ':' || c == '_' else inRanges nameStartRanges c.toNat

def isNameCharacter (c : Char) : Bool :=
  if c.toNat ≤ 128 then c.isAlphanum || c == ':' || c == '_' || c == '-' || c == '.'
  else inRanges nameStartRanges c.toNat || inRanges nameInnerRanges c.toNat

end ContentProtection.Xml
