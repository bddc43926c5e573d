/-!
# File paths

Two texts may say the same path: separators may be repeated or stand at the end, and a dot after the
first separator stands for nothing.
-/

set_option autoImplicit false

namespace VmFleet.Text.FilePath

/-- What a path leads through. The root is a part of its own, and a dot is one only where the path
begins with it. -/
def parts (text : String) : List String :=
  let pieces := (text.toList.splitOn '/').map String.ofList
  let inner := (pieces.drop 1).filter fun piece => piece ≠ "" && piece ≠ "."
  if text.toList.head? = some '/' then "/" :: inner
  else (pieces.take 1).filter (· ≠ "") ++ inner

end VmFleet.Text.FilePath
