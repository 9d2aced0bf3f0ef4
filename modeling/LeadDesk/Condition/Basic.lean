import LeadDesk.Template.Basic
/-!
# Operands of conditions

How conditions read data values: as numbers, as text, as truth values, and how two
of them compare. An operand without a value is `none`; it reads `undefined`, counts
as no number and does not hold.

An integer that no floating-point number comes near cannot be compared as a number
(`Condition.Fault.tooLarge`).
-/

namespace LeadDesk

namespace Condition

/-- Why a condition has no truth value. -/
inductive Fault where
  /-- A character that starts no token, with its index. -/
  | unexpectedChar (c : Char) (index : Nat)
  /-- There is nothing to evaluate. -/
  | nothing
  /-- A token that does not belong where it stands. -/
  | unexpectedToken (text : String)
  /-- The tokens end inside an operand. -/
  | unexpectedEnd
  /-- A parenthesis is not closed. -/
  | unclosed
  /-- A path without a value. -/
  | undefinedPath (path : String)
  /-- An integer beyond all floating-point numbers. -/
  | tooLarge
  /-- A number that cannot be read. -/
  | number (fault : NumberFault)
  deriving DecidableEq, Repr

/-- The wording of a fault. -/
def Fault.message : Fault → String
  | unexpectedChar c index => s!"Invalid expression: unexpected '{c}' at {index}"
  | nothing => "Invalid expression: empty"
  | unexpectedToken text => s!"Invalid expression: unexpected '{text}'"
  | unexpectedEnd => "Invalid expression: unexpected end"
  | unclosed => "Invalid expression: missing ')'"
  | undefinedPath path => s!"Invalid expression: '{path}' is not defined"
  | tooLarge => "int too large to convert to float"
  | number fault => fault.message

/-- The fault is about the expression itself and not about the size of a number. -/
def Fault.isExpressionFault : Fault → Bool
  | tooLarge | number _ => false
  | _ => true

/-- A value, or none for a path that leads nowhere. -/
abbrev Operand := Option Json

/-- An integer as a floating-point number. -/
def ofInt (n : Int) : Except Fault Double :=
  match Double.ofInt? n with
  | some d => .ok d
  | none => .error .tooLarge

/-- An operand read as a number. Null is zero, a text is the number it writes, and what is no
number is the undefined number. -/
def toNumber : Operand → Except Fault Double
  | none => .ok .nan
  | some .null => .ok .zero
  | some (.bool b) => .ok (if b then .one else .zero)
  | some (.int n) => ofInt n
  | some (.float d) => .ok d
  | some (.string s) =>
    let s := Text.trim s
    .ok (if s == "" then .zero else (readDouble? s).getD .nan)
  | some _ => .ok .nan

/-- An operand read as text. -/
def toText : Operand → String
  | none => "undefined"
  | some .null => "null"
  | some v => Template.render v

/-- Whether an operand holds: a true truth value, a number other than zero, a text that is not
empty, or any list or object. -/
def holds : Operand → Except Fault Bool
  | none | some .null => .ok false
  | some (.bool b) => .ok b
  | some (.int n) => if n = 0 then .ok false else (ofInt n).map fun _ => true
  | some (.float d) => .ok (!d.isZero && !d.isNan)
  | some (.string s) => .ok (s != "")
  | some _ => .ok true

/-- No value, null, or the empty text. -/
def isEmpty : Operand → Bool
  | none | some .null => true
  | some (.string s) => s == ""
  | some _ => false

/-- An integer or a floating-point number. -/
def isNumber : Json → Bool
  | .int _ | .float _ => true
  | _ => false

/-- A truth value or a number. -/
def isScalarNumber : Json → Bool
  | .bool _ => true
  | v => isNumber v

/-- A list or an object. -/
def isStructure : Json → Bool
  | .array _ | .object _ => true
  | _ => false

/-- Equality within one kind: numbers compare as floating-point numbers, truth values only with
truth values. -/
def strictEqual : Operand → Operand → Except Fault Bool
  | none, b => .ok b.isNone
  | some _, none => .ok false
  | some (.bool a), some (.bool b) => .ok (a == b)
  | some (.bool _), some _ | some _, some (.bool _) => .ok false
  | some a, some b =>
    if isNumber a && isNumber b then do
      let x ← toNumber (some a)
      let y ← toNumber (some b)
      return x.equals y
    else .ok (a.kindName == b.kindName && a.same b)

/-- A missing value or null. -/
def isNullish : Operand → Bool
  | none | some .null => true
  | _ => false

/-- Equality across kinds: a missing value equals null, and a number equals what reads as that
number. -/
def looseEqual (a b : Operand) : Except Fault Bool :=
  if isNullish a || isNullish b then .ok (isNullish a && isNullish b)
  else match a, b with
    | some (.string s), some (.string t) => .ok (s == t)
    | some v, some w =>
      if isScalarNumber v || isScalarNumber w then
        if isStructure v || isStructure w then .ok false
        else do
          let x ← toNumber a
          let y ← toNumber b
          return x.equals y
      else .ok (v.same w)
    | _, _ => .ok false

/-- The four orders. -/
inductive Order where
  | less
  | lessOrEqual
  | greater
  | greaterOrEqual
  deriving DecidableEq, Repr

/-- What an order says of two things that lie to each other in the given way. -/
def Order.admits : Order → Ordering → Bool
  | less, o => o == .lt
  | lessOrEqual, o => o != .gt
  | greater, o => o == .gt
  | greaterOrEqual, o => o != .lt

/-- How two texts lie to each other, by code points. -/
def compareTexts (s t : String) : Ordering :=
  if s < t then .lt else if s == t then .eq else .gt

/-- Order of two numbers. The undefined number is in no order. -/
def ordered (order : Order) (x y : Double) : Bool :=
  match x.compare? y with
  | some o => order.admits o
  | none => false

/-- Order of two operands: of two texts by code points, of all else as numbers. -/
def compareBy (order : Order) (a b : Operand) : Except Fault Bool :=
  match a, b with
  | some (.string s), some (.string t) => .ok (order.admits (compareTexts s t))
  | a, b => do
    let x ← toNumber a
    let y ← toNumber b
    return ordered order x y

/-- A missing value equals itself and nothing else. -/
theorem strictEqual_none (b : Operand) : strictEqual none b = .ok b.isNone := by
  cases b <;> rfl

/-- Loose equality takes a missing value for null. -/
theorem looseEqual_none_null : looseEqual none (some .null) = .ok true := rfl

end Condition

end LeadDesk
