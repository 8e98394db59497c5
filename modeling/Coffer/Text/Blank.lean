import Coffer.Text.CodePoints

-- Blank characters: what separates the words of a text. ASCII information
-- separators count, the zero width space and the soft hyphen do not.

namespace Coffer.Text

def isBlank (c : Char) : Bool :=
  let n := c.toNat
  (9 ≤ n && n ≤ 13) || (28 ≤ n && n ≤ 32) || n = 0x85 || n = 0xA0 || n = 0x1680 ||
    (0x2000 ≤ n && n ≤ 0x200A) || n = 0x2028 || n = 0x2029 || n = 0x202F || n = 0x205F ||
    n = 0x3000

-- The words of a text, without the blanks around and between them.
def blankSeparatedFrom (word : List Char) : List Char → List (List Char)
  | [] => if word.isEmpty then [] else [word.reverse]
  | c :: rest =>
      if isBlank c then
        if word.isEmpty then blankSeparatedFrom [] rest
        else word.reverse :: blankSeparatedFrom [] rest
      else blankSeparatedFrom (c :: word) rest

def blankSeparated (cs : List Char) : List (List Char) := blankSeparatedFrom [] cs

theorem isBlank_of_isWhitespace (c : Char) (h : c.isWhitespace = true) : isBlank c = true := by
  simp only [Char.isWhitespace, Bool.or_eq_true, decide_eq_true_eq] at h
  rcases h with ((rfl | rfl) | rfl) | rfl <;> decide

end Coffer.Text
