import LeadDesk.Condition.Basic
import LeadDesk.Text.Letter
/-!
# Tokens of an expression

Before an expression is cut into tokens it is tidied (`Condition.normalize`): a
quoted `true`, `false` or `null` loses its quotes, a loose comparison with one of
them becomes strict, and characters that no token has are left out.

The tokens are numbers, quoted texts, operators and paths; blanks only part them. At
each place the longest token is taken.
-/

namespace LeadDesk

namespace Condition

/-- The three constants that comparisons are tightened for. -/
def constantNames : List (List Char) := ["true".toList, "false".toList, "null".toList]

/-- The constant in quotes that stands in front. -/
def quotedConstant? : List Char → Option (List Char)
  | quote :: rest =>
    if quote == '"' || quote == '\'' then
      constantNames.find? fun name => (name ++ [quote]).isPrefixOf rest
    else none
  | [] => none

/-- The characters with quotes taken off constants, where the first `skip` are already done. -/
def unquoteConstants : Nat → List Char → List Char
  | _, [] => []
  | skip + 1, _ :: rest => unquoteConstants skip rest
  | 0, c :: rest =>
    match quotedConstant? (c :: rest) with
    | some name => name ++ unquoteConstants (name.length + 1) rest
    | none => c :: unquoteConstants 0 rest

/-- The loose comparison with a constant that stands in front: its first character, the constant
and the number of characters it takes. -/
def looseComparison? : List Char → Option (Char × List Char × Nat)
  | c :: '=' :: rest =>
    if (c == '=' || c == '!') && rest.head? != some '=' then
      let blanks := rest.takeWhile Text.isBlank
      let after := rest.drop blanks.length
      let hit := constantNames.find? fun name =>
        name.isPrefixOf after && !((after.drop name.length).head?.any Text.isWordChar)
      hit.map fun name => (c, name, 2 + blanks.length + name.length)
    else none
  | _ => none

/-- The characters with loose comparisons tightened, where the first `skip` are already done and
`before` is the character passed last. -/
def tightenComparisons (before : Option Char) : Nat → List Char → List Char
  | _, [] => []
  | skip + 1, c :: rest => tightenComparisons (some c) skip rest
  | 0, c :: rest =>
    let hit :=
      if before == some '=' || before == some '!' then none else looseComparison? (c :: rest)
    match hit with
    | some (first, name, size) =>
      first :: '=' :: '=' :: ' ' :: name ++ tightenComparisons (some c) (size - 1) rest
    | none => c :: tightenComparisons (some c) 0 rest

/-- A character that may occur in an expression. -/
def isSafe (c : Char) : Bool :=
  c.isAlphanum || c == '_' || Text.isBlank c || ".><=!&|()\"'-+".toList.contains c

/-- The characters of an expression in tidy form. -/
def normalizeChars (cs : List Char) : List Char :=
  (tightenComparisons none 0 (unquoteConstants 0 cs)).filter isSafe

/-- An expression in tidy form. -/
def normalize (expression : String) : String :=
  String.ofList (normalizeChars expression.toList)

/-- The kinds of tokens. -/
inductive TokenKind where
  | number
  | text
  | operator
  | path
  deriving DecidableEq, Repr

/-- A token with the characters that write it. -/
structure Token where
  kind : TokenKind
  text : String
  deriving DecidableEq, Repr

/-- The operators; of two that fit the earlier one is taken. -/
def operators : List (List Char) :=
  ["===", "!==", "==", "!=", "<=", ">=", "&&", "||", "<", ">", "!", "(", ")", "+", "-"].map
    String.toList

/-- A letter, digit or underscore of a path. Tidy expressions have no others. -/
def isPathChar (c : Char) : Bool := c.isAlphanum || c == '_'

/-- What follows the first segment of a path: further segments behind points. Characters of a
segment are taken until `stop`, a point only with a path character behind it. -/
def pathTail : List Char → List Char
  | [] => []
  | '.' :: c :: rest => if isPathChar c then '.' :: pathTail (c :: rest) else []
  | c :: rest => if isPathChar c then c :: pathTail rest else []

/-- The characters of the number in front. -/
def numberChars (cs : List Char) : List Char :=
  let whole := cs.takeWhile Text.isAsciiDigit
  match cs.drop whole.length with
  | '.' :: rest =>
    match rest.takeWhile Text.isAsciiDigit with
    | [] => whole
    | fraction => whole ++ '.' :: fraction
  | _ => whole

/-- The token in front, or `none` when no token starts there. Its text is never empty. -/
def token? (cs : List Char) : Option Token :=
  match cs with
  | [] => none
  | c :: rest =>
    if Text.isAsciiDigit c then some ⟨.number, String.ofList (numberChars cs)⟩
    else if c == '"' || c == '\'' then
      let body := rest.takeWhile (· != c)
      if body.length < rest.length then some ⟨.text, String.ofList (c :: body ++ [c])⟩ else none
    else if c.isAlpha || c == '_' then some ⟨.path, String.ofList (c :: pathTail rest)⟩
    else (operators.find? (·.isPrefixOf cs)).map fun o => ⟨.operator, String.ofList o⟩

/-- The tokens of characters from an index on, where the first `skip` belong to the token before. -/
def tokensFrom : Nat → Nat → List Char → Except Fault (List Token)
  | _, _, [] => .ok []
  | skip + 1, index, _ :: rest => tokensFrom skip (index + 1) rest
  | 0, index, c :: rest =>
    if Text.isBlank c then tokensFrom 0 (index + 1) rest
    else match token? (c :: rest) with
      | some t => (tokensFrom (t.text.length - 1) (index + 1) rest).map (t :: ·)
      | none => .error (.unexpectedChar c index)

/-- The tokens of an expression in tidy form. -/
def tokenize (expression : String) : Except Fault (List Token) :=
  tokensFrom 0 0 expression.toList

end Condition

end LeadDesk
