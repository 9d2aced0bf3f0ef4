import LeadDesk.Failure
/-!
# Data in replies of a language model

A model that is asked for data may put it into a fenced block of its reply, with or without
the word `json` behind the fence. `Reply.candidate` is the text of the first such block, or
the whole reply without blanks around it when there is none; `Reply.data` reads it.
-/

namespace LeadDesk

namespace Reply

/-- The characters behind a prefix, if they start with it. -/
def after? (front cs : List Char) : Option (List Char) :=
  if front.isPrefixOf cs then some (cs.drop front.length) else none

/-- Three backticks. -/
def fence : List Char := ['\x60', '\x60', '\x60']

/-- The characters before and after the first fence. -/
def splitAtFence : List Char → Option (List Char × List Char)
  | [] => none
  | c :: rest =>
    match after? fence (c :: rest) with
    | some more => some ([], more)
    | none => (splitAtFence rest).map fun (before, more) => (c :: before, more)

/-- The characters without the blanks in front. -/
def dropBlanks (cs : List Char) : List Char := cs.dropWhile Text.isBlank

/-- The contents of the first fenced block. -/
def block? (cs : List Char) : Option (List Char) := do
  let (_, inside) ← splitAtFence cs
  let inside := (after? "json".toList inside).getD inside
  let (contents, _) ← splitAtFence (dropBlanks inside)
  return Text.trimBlanks contents

/-- The text that is read as data. -/
def candidate (reply : String) : String :=
  match block? reply.toList with
  | some contents => String.ofList contents
  | none => Text.trim reply

/-- The data of a reply. -/
def data (reply : String) : Except Failure Json :=
  match Json.read (candidate reply) with
  | .ok v => .ok v
  | .error e => .error (.json e)

/-- A text without a fence has no block. -/
theorem block?_eq_none {cs : List Char} (h : splitAtFence cs = none) : block? cs = none := by
  simp [block?, h]

end Reply

end LeadDesk
