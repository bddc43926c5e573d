/-!
# Blank text

The characters that count as white space anywhere in Unicode, and text that holds nothing else.
-/

set_option autoImplicit false

namespace VmFleet.Text

/-- Members of the Unicode property White_Space. -/
def isBlankChar (c : Char) : Bool :=
  let n := c.toNat
  (9 ≤ n && n ≤ 13) || n == 0x20 || n == 0x85 || n == 0xA0 || n == 0x1680 ||
  (0x2000 ≤ n && n ≤ 0x200A) || n == 0x2028 || n == 0x2029 || n == 0x202F || n == 0x205F ||
  n == 0x3000

/-- Nothing is left of the text once white space is trimmed from its ends. -/
def isBlank (s : String) : Bool := s.toList.all isBlankChar

end VmFleet.Text
