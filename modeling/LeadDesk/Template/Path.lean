import LeadDesk.Json.Basic
import LeadDesk.Number.Reader
/-!
# Paths into data

A path is a text of segments parted by points. A segment names a field of an
object, or an item of a list by its index, where negative indices count from the
end; `length` is the size of a list or a text. A path that leads nowhere has no
value, and nothing lies below null.

An index written with digits that form no number is a fault of the path.
-/

namespace LeadDesk

/-- Split a list at every occurrence of an item. There is always at least one part. -/
def splitAtEach (sep : Char) : List Char → List (List Char)
  | [] => [[]]
  | c :: rest =>
    match splitAtEach sep rest with
    | [] => [[]]
    | part :: parts => if c == sep then [] :: part :: parts else (c :: part) :: parts

theorem splitAtEach_ne_nil (sep : Char) (cs : List Char) : splitAtEach sep cs ≠ [] := by
  cases cs with
  | nil => simp [splitAtEach]
  | cons c rest => simp only [splitAtEach]; split <;> (try split) <;> simp

/-- A list without its occurrences of `sep` is its own single part. -/
theorem splitAtEach_of_not_mem {sep : Char} {cs : List Char} (h : sep ∉ cs) :
    splitAtEach sep cs = [cs] := by
  induction cs with
  | nil => rfl
  | cons c rest ih =>
    simp only [List.mem_cons, not_or] at h
    simp [splitAtEach, ih h.2, Ne.symm h.1]

/-- Splitting goes part by part. -/
theorem splitAtEach_append (sep : Char) (xs ys : List Char) :
    splitAtEach sep (xs ++ sep :: ys) = splitAtEach sep xs ++ splitAtEach sep ys := by
  induction xs with
  | nil =>
    obtain ⟨p, ps, hp⟩ := List.exists_cons_of_ne_nil (splitAtEach_ne_nil sep ys)
    simp [splitAtEach, hp]
  | cons x xs ih =>
    obtain ⟨p, ps, hp⟩ := List.exists_cons_of_ne_nil (splitAtEach_ne_nil sep xs)
    simp only [List.cons_append, splitAtEach, ih, hp]
    split <;> simp

namespace Path

/-- The segments of a path, without blanks at the two ends of the whole. -/
def segments (path : String) : List String :=
  (splitAtEach '.' (Text.trimBlanks path.toList)).map String.ofList

/-- The segment is an index: digits after any number of minus signs. -/
def isIndex (segment : String) : Bool :=
  let digits := segment.toList.dropWhile (· == '-')
  !digits.isEmpty && digits.all Text.isDigit

/-- The item at an index, counted from the end when the index is negative. -/
def item? (items : List Json) (i : Int) : Option Json :=
  if 0 ≤ i then items[i.toNat]?
  else if -(items.length : Int) ≤ i then items[(items.length + i).toNat]? else none

/-- The value of one segment in a value. -/
def step (value : Json) (segment : String) : Except NumberFault (Option Json) :=
  match value with
  | .object fields => .ok (Fields.get? fields segment)
  | .array items =>
    if segment == "length" then .ok (some (.int items.length))
    else if isIndex segment then (readInt segment).map (item? items)
    else .ok none
  | .string s => .ok (if segment == "length" then some (.int s.length) else none)
  | _ => .ok none

/-- Follow segments from a value that may be missing. -/
def walk : Option Json → List String → Except NumberFault (Option Json)
  | value, [] => .ok value
  | none, _ :: _ => .ok none
  | some value, segment :: rest =>
    match step value segment with
    | .error e => .error e
    | .ok next => walk next rest

/-- The value that a path leads to. -/
def lookup (value : Json) (path : String) : Except NumberFault (Option Json) :=
  walk (some value) (segments path)

/-- The position that a segment names in a list of some size. -/
def position? (size : Nat) (segment : String) : Option Nat :=
  match isIndex segment, readInt segment with
  | true, .ok i =>
    if 0 ≤ i then some i.toNat
    else if -(size : Int) ≤ i then some (size + i).toNat else none
  | _, _ => none

/-- A value with more items in the list that segments lead to, if they lead to one that is not
empty. -/
def extend (more : List Json) : List String → Json → Json
  | [], .array (item :: items) => .array (item :: items ++ more)
  | segment :: rest, .object fields => .object (Fields.alter fields segment (extend more rest))
  | segment :: rest, .array items =>
    match position? items.length segment with
    | some n => .array (items.modify n (extend more rest))
    | none => .array items
  | _, v => v

/-- An object with more items in the list that segments lead to. -/
def lengthen (more : List Json) : List String → Fields → Fields
  | [], fields => fields
  | segment :: rest, fields => Fields.alter fields segment (extend more rest)

@[simp] theorem walk_none (segments : List String) : walk none segments = .ok none := by
  cases segments <;> rfl

/-- Nothing lies below null. -/
@[simp] theorem step_null (segment : String) : step .null segment = .ok none := rfl

/-- Following two lists of segments is following the first and then the second. -/
theorem walk_append (value : Option Json) (first second : List String) :
    walk value (first ++ second) = (walk value first).bind (walk · second) := by
  induction first generalizing value with
  | nil => rfl
  | cons segment rest ih =>
    cases value with
    | none => simp [walk, Except.bind]
    | some v =>
      simp only [List.cons_append, walk]
      cases step v segment with
      | error e => rfl
      | ok next => exact ih next

end Path

end LeadDesk
