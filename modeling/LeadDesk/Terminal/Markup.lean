import LeadDesk.Template.Path
import LeadDesk.Text.Case
/-!
# Marked-up text

Text for the terminal holds style tags in square brackets, such as `[bold]` and `[/bold]`.
`Markup.plain?` is the text without its tags. A tag begins with a lower-case letter, `#`, `/`
or `@`; all other brackets, and brackets behind a backslash, are text. A closing tag must
close a style that is open, and `[/]` closes the one that was opened last.
-/

namespace LeadDesk

namespace Markup

/-- The short names of styles. -/
def shortNames : List (String × String) := [
  ("b", "bold"), ("d", "dim"), ("i", "italic"), ("u", "underline"), ("r", "reverse"),
  ("c", "conceal"), ("s", "strike"), ("uu", "underline2"), ("o", "overline")]

/-- The name of a style in its one form. -/
def styleName (name : String) : String :=
  let name := Text.lower (Text.trim name)
  ((shortNames.find? (·.1 == name)).map (·.2)).getD name

/-- A character that can begin a tag. -/
def beginsTag (c : Char) : Bool :=
  ('a' ≤ c && c ≤ 'z') || c == '#' || c == '/' || c == '@'

/-- The contents of the tag behind an opening bracket. -/
def tagBehind? (cs : List Char) : Option (List Char) :=
  match cs with
  | c :: rest =>
    let more := rest.takeWhile fun c => c != ']' && c != '['
    if beginsTag c && (rest.drop more.length).head? == some ']' then some (c :: more) else none
  | [] => none

/-- The styles that are open after a tag, the last one first; `none` when there is none that the
tag could close. -/
def afterTag (styles : List String) (tag : List Char) : Option (List String) :=
  match tag.takeWhile (· != '=') with
  | '/' :: name =>
    let name := Text.trim (String.ofList name)
    if name == "" then
      match styles with
      | [] => none
      | _ :: outer => some outer
    else if styles.contains (styleName name) then some (styles.erase (styleName name))
    else none
  | name => some (styleName (String.ofList name) :: styles)

/-- The characters that a terminal does not show. -/
def isControl (c : Char) : Bool := [7, 8, 11, 12, 13].contains c.toNat

/-- The text of marked-up characters, in reverse before `out`. `slashes` counts the backslashes
directly in front, and `skip` the characters of a tag that are still to be passed over. -/
def strip (styles : List String) (slashes skip : Nat) (out : List Char) :
    List Char → Option (List Char)
  | [] => some (List.replicate slashes '\\' ++ out)
  | c :: rest =>
    match skip with
    | skip + 1 => strip styles 0 skip out rest
    | 0 =>
      if c == '\\' then strip styles (slashes + 1) 0 out rest
      else if c == '[' then
        match tagBehind? rest with
        | none => strip styles 0 0 ('[' :: (List.replicate (slashes - 1) '\\' ++ out)) rest
        | some tag =>
          let out := List.replicate (slashes / 2) '\\' ++ out
          if slashes % 2 = 1 then strip styles 0 0 ('[' :: out) rest
          else
            match afterTag styles tag with
            | none => none
            | some styles => strip styles 0 (tag.length + 1) out rest
      else strip styles 0 0 (c :: (List.replicate slashes '\\' ++ out)) rest

/-- The text of a marked-up text, `none` when a tag closes nothing. -/
def plain? (s : String) : Option String :=
  (strip [] 0 0 [] s.toList).map fun cs =>
    String.ofList (cs.reverse.filter (!isControl ·))

/-- Text without brackets and backslashes is text as it stands. -/
theorem strip_eq_of_plain (styles : List String) (out cs : List Char)
    (h : ∀ c ∈ cs, c ≠ '[' ∧ c ≠ '\\') : strip styles 0 0 out cs = some (cs.reverse ++ out) := by
  induction cs generalizing out with
  | nil => simp [strip]
  | cons c rest ih =>
    have hc := h c (by simp)
    have hr := ih (c :: out) fun d hd => h d (List.mem_cons_of_mem c hd)
    simp [strip, hc.1, hc.2, hr]

end Markup

end LeadDesk
