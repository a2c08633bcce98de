import PlanRace.Library.JsonText

/-!
# JSON documents on lines

A compact document never contains a newline, so documents that are joined by
newlines are read back as they were.
-/

namespace JsonLines

open UniqueReadability JsonText

end JsonLines
