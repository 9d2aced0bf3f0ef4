import LeadDesk.Number.Double
/-!
# Data values

`Json` is the type of all data that flows through the desk: event payloads, tool
input and output, and the context of a run. Objects keep their fields in the order
in which they were written. Integers are exact and of any size; other numbers are
`Double`s.

A path that leads nowhere is no value at all, so lookups answer `Option Json` and
`none` is distinct from `null`.
-/

namespace LeadDesk

/-- A data value. -/
inductive Json where
  | null
  | bool (b : Bool)
  | int (n : Int)
  | float (d : Double)
  | string (s : String)
  | array (items : List Json)
  | object (fields : List (String × Json))
  deriving Inhabited, Repr

/-- The fields of an object in the order of writing. -/
abbrev Fields := List (String × Json)

namespace Fields

/-- The value under a key. -/
def get? (fields : Fields) (key : String) : Option Json :=
  match fields with
  | [] => none
  | (k, v) :: rest => if k == key then some v else get? rest key

/-- The value under a key, `null` when there is none. -/
def getD (fields : Fields) (key : String) : Json := (get? fields key).getD .null

/-- There is a value under the key. -/
def has (fields : Fields) (key : String) : Bool := (get? fields key).isSome

/-- Put a value under a key: in place when the key is there, else at the end. -/
def put (fields : Fields) (key : String) (value : Json) : Fields :=
  match fields with
  | [] => [(key, value)]
  | (k, v) :: rest => if k == key then (k, value) :: rest else (k, v) :: put rest key value

/-- The fields with a function applied to the value under a key, if there is one. -/
def alter (fields : Fields) (key : String) (f : Json → Json) : Fields :=
  match get? fields key with
  | some v => put fields key (f v)
  | none => fields

/-- The fields without a key. -/
def drop (fields : Fields) (key : String) : Fields := fields.filter (·.1 != key)

/-- The keys in order. -/
def keys (fields : Fields) : List String := fields.map (·.1)

/-- Put every field of `more` on top of `fields`, in order. -/
def overlay (fields more : Fields) : Fields := more.foldl (fun acc f => put acc f.1 f.2) fields

@[simp] theorem get?_nil (key : String) : get? [] key = none := rfl

@[simp] theorem get?_put_self (fields : Fields) (key : String) (value : Json) :
    get? (put fields key value) key = some value := by
  induction fields with
  | nil => simp [put, get?]
  | cons f rest ih =>
    by_cases h : f.1 == key
    · simp [put, get?, h]
    · simp [put, get?, h, ih]

theorem get?_put_of_ne (fields : Fields) {key other : String} (value : Json) (h : key ≠ other) :
    get? (put fields key value) other = get? fields other := by
  induction fields with
  | nil => simp [put, get?, h]
  | cons f rest ih =>
    by_cases hk : f.1 = key
    · have : f.1 ≠ other := by rw [hk]; exact h
      simp [put, get?, hk, h]
    · by_cases ho : f.1 = other
      · simp [put, get?, ho, Ne.symm h]
      · simp [put, get?, hk, ho, ih]

end Fields

namespace Json

instance : Coe String Json := ⟨.string⟩
instance : Coe Bool Json := ⟨.bool⟩
instance : Coe Int Json := ⟨.int⟩
instance : OfNat Json n := ⟨.int n⟩

/-- An optional text, `null` when there is none. -/
def ofText? (s : Option String) : Json := s.elim .null .string

/-- A list of texts. -/
def ofTexts (ss : List String) : Json := .array (ss.map .string)

/-- The empty object. -/
def empty : Json := .object []

/-- The name of a value's kind, as messages write it. -/
def kindName : Json → String
  | null => "NoneType"
  | bool _ => "bool"
  | int _ => "int"
  | float _ => "float"
  | string _ => "str"
  | array _ => "list"
  | object _ => "dict"

/-- A value that counts as given: neither null, false nor zero, nor an empty text, list or
object. -/
def isGiven : Json → Bool
  | null => false
  | bool b => b
  | int n => n != 0
  | float d => !d.isZero
  | string s => s != ""
  | array items => !items.isEmpty
  | object fields => !fields.isEmpty

/-- The value itself when it counts as given, else the other one. -/
def orElse (a b : Json) : Json := if a.isGiven then a else b

/-- The text of a text value. -/
def text? : Json → Option String
  | string s => some s
  | _ => none

/-- The fields of an object. -/
def fields? : Json → Option Fields
  | object fields => some fields
  | _ => none

/-- Null. -/
def isNull : Json → Bool
  | null => true
  | _ => false

/-- How two numbers lie to each other by exact value, where truth values count as zero and one.
`none` for other values and for undefined numbers. -/
def compareNumbers? (a b : Json) : Option Ordering :=
  let whole : Json → Option Int
    | bool b => some (if b then 1 else 0)
    | int n => some n
    | _ => none
  match whole a, whole b, a, b with
  | some m, some n, _, _ => some (compare m n)
  | some m, none, _, float e => (e.compareInt? m).map Ordering.swap
  | none, some n, float d, _ => d.compareInt? n
  | none, none, float d, float e => d.compare? e
  | _, _, _, _ => none

mutual

/-- Equality of data: numbers by value whatever their form, lists by items and objects by keys
whatever their order. -/
def same : Json → Json → Bool
  | null, null => true
  | string s, string t => s == t
  | array xs, array ys => sameItems xs ys
  | object fs, object gs => fs.length == gs.length && sameFields fs gs
  | a, b => compareNumbers? a b == some .eq

/-- Item by item equality. -/
def sameItems : List Json → List Json → Bool
  | [], [] => true
  | x :: xs, y :: ys => same x y && sameItems xs ys
  | _, _ => false

/-- Every field of the first object has an equal field in the second. -/
def sameFields : List (String × Json) → Fields → Bool
  | [], _ => true
  | (k, v) :: rest, gs =>
    (match Fields.get? gs k with
      | some w => same v w
      | none => false) && sameFields rest gs

end

mutual

/-- Identity of data: the same constructor throughout, fields in the same order. -/
def identical : Json → Json → Bool
  | null, null => true
  | bool a, bool b => a == b
  | int m, int n => m == n
  | float d, float e => d == e
  | string s, string t => s == t
  | array xs, array ys => identicalItems xs ys
  | object fs, object gs => identicalFields fs gs
  | _, _ => false

/-- Item by item identity. -/
def identicalItems : List Json → List Json → Bool
  | [], [] => true
  | x :: xs, y :: ys => identical x y && identicalItems xs ys
  | _, _ => false

/-- Field by field identity. -/
def identicalFields : List (String × Json) → List (String × Json) → Bool
  | [], [] => true
  | (k, v) :: fs, (l, w) :: gs => k == l && identical v w && identicalFields fs gs
  | _, _ => false

end

instance : BEq Json := ⟨identical⟩

mutual

/-- All numbers of a value are finite. -/
def isFinite : Json → Bool
  | float d => d.scaled?.isSome
  | array items => areFinite items
  | object fields => areFieldsFinite fields
  | _ => true

/-- All numbers of all items are finite. -/
def areFinite : List Json → Bool
  | [] => true
  | v :: rest => isFinite v && areFinite rest

/-- All numbers of the values of fields are finite. -/
def areFieldsFinite : List (String × Json) → Bool
  | [] => true
  | (_, v) :: rest => isFinite v && areFieldsFinite rest

end

end Json

end LeadDesk
