import LeadDesk.Text.Blank
/-!
# Lines of words

A line that a person types, parted into words at its blanks. Between two marks of quotation
blanks belong to the word, so that a word can hold the text of a whole object; a word may be
empty if it is quoted.
-/

namespace LeadDesk

namespace Terminal

/-- The mark that begins and ends a quotation. -/
def quotationMark : Char := '\''

/-- The words of the rest of a line. `word` is the word that has begun, if any. -/
def wordsFrom (quoted : Bool) (word : Option (List Char)) : List Char → List String
  | [] => (word.map String.ofList).toList
  | c :: rest =>
    if c = quotationMark then wordsFrom (!quoted) (some (word.getD [])) rest
    else if !quoted && Text.isBlank c then
      (word.map String.ofList).toList ++ wordsFrom false none rest
    else wordsFrom quoted (some (word.getD [] ++ [c])) rest

/-- The words of a line. -/
def wordsOfLine (line : String) : List String := wordsFrom false none line.toList

/-- A word without marks of quotation is kept as it is between them. -/
theorem wordsFrom_quoted (word cs : List Char) (h : quotationMark ∉ cs) :
    wordsFrom true (some word) (cs ++ [quotationMark]) = [String.ofList (word ++ cs)] := by
  induction cs generalizing word with
  | nil => simp [wordsFrom]
  | cons c cs ih =>
    have hc : c ≠ quotationMark := fun e => h (by simp [e])
    have hcs : quotationMark ∉ cs := fun m => h (by simp [m])
    simp [wordsFrom, hc, ih _ hcs]

end Terminal

end LeadDesk
