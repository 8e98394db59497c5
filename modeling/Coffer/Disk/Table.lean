import Coffer.Entries
import Coffer.Text.Utf8

-- The one table of a database file: rows of a text key and a text value. Some
-- keys may be shut out, and the table may have been dropped.

namespace Coffer

structure Table where
  rows : Entries String String
  denied : List String
  present : Bool
  deriving DecidableEq, Repr

namespace Table

def empty : Table := ⟨[], [], true⟩

-- Keys are ordered by the bytes of their UTF-8 form.
def keyOrder (a b : String) : Bool := decide (Utf8.encode a ≤ Utf8.encode b)

def sortedKeys (t : Table) : List String := t.rows.keys.mergeSort keyOrder

end Table

end Coffer
