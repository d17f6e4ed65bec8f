/-!
Blank characters and the texts between them.

A character is blank when it has the Unicode property White_Space. `words` cuts a text at its
blanks; joining the words with one space gives the text with its blanks collapsed.
-/

namespace JavaCallGraph.Text

/-- The characters with the property White_Space. -/
def isBlank (c : Char) : Bool :=
  let n := c.toNat
  (9 ≤ n && n ≤ 13) || n == 32 || n == 133 || n == 160 || n == 5760 ||
    (8192 ≤ n && n ≤ 8202) || n == 8232 || n == 8233 || n == 8239 || n == 8287 || n == 12288

/-- Maximal runs of non-blank characters; `run` is the run being read, in reverse. -/
def wordsFrom (run : List Char) : List Char → List (List Char)
  | [] => if run.isEmpty then [] else [run.reverse]
  | c :: rest =>
    if isBlank c then
      if run.isEmpty then wordsFrom [] rest else run.reverse :: wordsFrom [] rest
    else wordsFrom (c :: run) rest

/-- The words of a text: its maximal runs of non-blank characters. -/
def words (s : String) : List String := (wordsFrom [] s.toList).map String.ofList

/-- Remove blanks at both ends. -/
def trim (s : String) : String :=
  String.ofList ((s.toList.dropWhile isBlank).reverse.dropWhile isBlank).reverse

/-- Remove blanks at both ends and write every inner run of blanks as one space. -/
def collapse (s : String) : String := " ".intercalate (words s)

end JavaCallGraph.Text
