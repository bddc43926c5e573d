/-!
# Upper-casing to ASCII

Comparison that ignores case goes through full upper-casing. Only characters whose upper case lies
inside ASCII can ever match an ASCII word, so the table lists these and leaves all others alone.
-/

set_option autoImplicit false

namespace VmFleet.Text

/-- Characters outside ASCII whose full upper case is ASCII text. -/
def foreignUpper : List (Nat × String) :=
  [(0xDF, "SS"), (0x131, "I"), (0x17F, "S"), (0xFB00, "FF"), (0xFB01, "FI"), (0xFB02, "FL"),
   (0xFB03, "FFI"), (0xFB04, "FFL"), (0xFB05, "ST"), (0xFB06, "ST")]

def upperChar (c : Char) : List Char :=
  match foreignUpper.lookup c.toNat with
  | some s => s.toList
  | none => [c.toUpper]

/-- Whether `s` and the upper-case word `word` agree once case is ignored. -/
def upperEquals (s word : String) : Bool := s.toList.flatMap upperChar == word.toList

end VmFleet.Text
