import LeadDesk.Validation.Basic
import LeadDesk.Validation.Moment
import LeadDesk.Text.Case
/-!
# Checks of single values

A text must be a text. An integer may also be written as a text or as a number
without a fraction, and a truth value counts as zero or one. A truth value may be
written in words or as zero or one. Checks of fields look a field up in an object and
put its name in front of the place.
-/

namespace LeadDesk

namespace Validation

/-- A check of a value. -/
abbrev Check (α : Type) := Json → Checked α

/-- Any value. -/
def any : Check Json := .good

/-- A text. -/
def text : Check String
  | .string s => .good s
  | v => .complain .text v

/-- A value or null. -/
def optional {α : Type} (check : Check α) : Check (Option α)
  | .null => .good none
  | v => (check v).map some

/-- A text or null. -/
def optionalText : Check (Option String) := optional text

/-- The digits with single underscores between them taken out. -/
def plainDigits (cs : List Char) : Option (List Char) :=
  (withoutUnderscores false cs).bind fun cs =>
    if !cs.isEmpty && cs.all Text.isAsciiDigit then some cs else none

/-- The characters without a fraction of zeros. -/
def withoutZeroFraction (cs : List Char) : List Char :=
  let whole := cs.takeWhile (· != '.')
  match cs.drop whole.length with
  | '.' :: zeros => if zeros.all (· == '0') then whole else cs
  | _ => cs

/-- A character that stands for blank around an integer. -/
def isPlainSpace (c : Char) : Bool :=
  Text.isBlank c && !(0x1c ≤ c.toNat && c.toNat ≤ 0x1f)

/-- The integer that a text writes: a minus sign, digits with single underscores between them, and
possibly a fraction of zeros, with blanks around. A plus sign stands before plain digits only. -/
def integerText? (s : String) : Option Int :=
  let cs := ((s.toList.dropWhile isPlainSpace).reverse.dropWhile isPlainSpace).reverse
  match cs with
  | '+' :: digits =>
    if !digits.isEmpty && digits.all Text.isAsciiDigit then some (Text.digitsValue digits : Int)
    else none
  | '-' :: rest =>
    (plainDigits (withoutZeroFraction rest)).map fun digits => -(Text.digitsValue digits : Int)
  | rest =>
    (plainDigits (withoutZeroFraction rest)).map fun digits => (Text.digitsValue digits : Int)

/-- An integer within 64 bits. -/
def fitsWord (n : Int) : Bool := -(twoTo 63 : Int) ≤ n && n < twoTo 63

/-- An integer. -/
def integer : Check Int
  | .int n => .good n
  | .bool b => .good (if b then 1 else 0)
  | .string s =>
    if s.utf8ByteSize > maxDigits then .complain .integerSize (.string s)
    else match integerText? s with
      | some n => .good n
      | none => .complain .integerText (.string s)
  | .float d =>
    match d.scaled? with
    | none => .complain .notFinite (.float d)
    | some _ =>
      match d.toInt? with
      | none => .complain .integerFraction (.float d)
      | some n => if fitsWord n then .good n else .complain .integerSize (.float d)
  | v => .complain .integer v

/-- The truth value that a word writes, in any case. -/
def truthWord? (s : String) : Option Bool :=
  match Text.lowerAscii s with
  | "0" | "off" | "f" | "false" | "n" | "no" => some false
  | "1" | "on" | "t" | "true" | "y" | "yes" => some true
  | _ => none

/-- The truth value that zero and one stand for. -/
def truthNumber? (n : Int) : Option Bool :=
  if n = 0 then some false else if n = 1 then some true else none

/-- A truth value. -/
def truth : Check Bool
  | .bool b => .good b
  | .string s =>
    match truthWord? s with
    | some b => .good b
    | none => .complain .truthText (.string s)
  | .int n =>
    match truthNumber? n with
    | some b => .good b
    | none => .complain (if fitsWord n then .truthText else .truth) (.int n)
  | .float d =>
    match d.toInt? with
    | some n =>
      match truthNumber? n with
      | some b => .good b
      | none => .complain (if fitsWord n then .truthText else .truth) (.float d)
    | none => .complain .truth (.float d)
  | v => .complain .truth v

/-- An object. -/
def object : Check Fields
  | .object fields => .good fields
  | v => .complain .object v

/-- A timestamp. -/
def timestamp : Check Timestamp
  | .string s =>
    match Moment.ofText? s with
    | some t => .good t
    | none => .complain (.dateText "input is not a date") (.string s)
  | .int n =>
    match Moment.ofCount? n with
    | some t => .good t
    | none => .complain (.timestampText "the count is out of range") (.int n)
  | .float d =>
    match Moment.ofNumber? d with
    | some t => .good t
    | none => .complain (.timestampText "the count is out of range") (.float d)
  | v => .complain .timestamp v

/-- One of several words, each of which stands for a value. -/
def choice {α : Type} (options : List (String × α)) : Check α
  | .string s =>
    match options.find? (·.1 == s) with
    | some (_, a) => .good a
    | none => .complain (.choice (options.map (·.1))) (.string s)
  | v => .complain (.choice (options.map (·.1))) v

/-- The items of a list from an index on, each under its index. -/
def itemsFrom {α : Type} (check : Check α) (index : Nat) : List Json → Checked (List α)
  | [] => .good []
  | v :: rest =>
    Checked.ap ((Checked.under (.index index) (check v)).map List.cons) fun _ =>
      itemsFrom check (index + 1) rest

/-- A list. -/
def list {α : Type} (check : Check α) : Check (List α)
  | .array items => itemsFrom check 0 items
  | v => .complain .list v

/-- A field that must be there. -/
def required {α : Type} (fields : Fields) (key : String) (check : Check α) : Checked α :=
  match Fields.get? fields key with
  | some v => Checked.under (.key key) (check v)
  | none => .bad [⟨[.key key], .missing, .object fields⟩]

/-- A field that may be left out. -/
def defaulted {α : Type} (fields : Fields) (key : String) (default : α) (check : Check α) :
    Checked α :=
  match Fields.get? fields key with
  | some v => Checked.under (.key key) (check v)
  | none => .good default

/-- The fields of a record of the given name. -/
def record {α : Type} (name : String) (check : Fields → Checked α) : Check α
  | .object fields => check fields
  | v => .complain (.record name) v

end Validation

end LeadDesk
