import LeadDesk.Failure
/-!
# Options and cells of the command line

An option may hold a JSON object as text. A cell of a table shows a value as text that is
cut to a width, with an ellipsis for what is cut off.
-/

namespace LeadDesk

namespace Terminal

/-- The object that an option gives; an option that is empty or left out gives the empty one. -/
def objectOption (name : String) (raw : Option String) : Except Failure Fields :=
  match raw with
  | none | some "" => .ok []
  | some text =>
    match Json.read text with
    | .ok (.object fields) => .ok fields
    | .ok _ => .error (.option s!"{name} must be a JSON object")
    | .error (.problem what line column index) =>
      let reason := Json.ReadFault.shortMessage (.problem what line column index)
      .error (.option s!"{name} is not valid JSON: {reason}")
    | .error (.number fault) => .error (.json (.number fault))

/-- The characters up to an end that may be counted from the back. -/
def takeTo (stop : Int) (cs : List Char) : List Char :=
  if 0 ≤ stop then cs.take stop.toNat else cs.take (cs.length + stop).toNat

/-- The text of a value. -/
def cellText : Json → String
  | .string s => s
  | v => v.spaced

/-- The text of a value, cut to a width. -/
def short (value : Json) (width : Int) : String :=
  let text := cellText value
  if (text.length : Int) ≤ width then text
  else String.ofList (takeTo (width - 1) text.toList) ++ "…"

/-- A text that fits is not cut. -/
theorem short_of_le {value : Json} {width : Int} (h : ((cellText value).length : Int) ≤ width) :
    short value width = cellText value := by
  simp [short, h]

end Terminal

end LeadDesk
