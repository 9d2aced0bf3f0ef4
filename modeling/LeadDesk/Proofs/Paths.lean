import LeadDesk.Template.Path
/-!
# Paths in two parts

A path that is cut at a point is followed in two stages: its first part, and from there the rest
(`Path.lookup_join`). Where the cut is made does not matter, so that a fault is the same fault for
every cut, and what is not found by a part is not found by the whole.
-/

namespace LeadDesk

/-! ## Blanks around a point -/

namespace Text

variable {xs ys : List Char} {c : Char}

/-- Blanks are dropped up to a character that is none, whatever follows it. -/
theorem dropBlanks_append_cons (hc : isBlank c = false) (xs ys : List Char) :
    (xs ++ c :: ys).dropWhile isBlank = xs.dropWhile isBlank ++ c :: ys := by
  rw [List.dropWhile_append]
  split
  · rename_i hempty
    rw [List.isEmpty_iff.1 hempty, List.dropWhile_cons_of_neg (by simp [hc]), List.nil_append]
  · rfl

theorem dropBlanks_of_head? (h : ∀ x ∈ xs.head?, isBlank x = false) :
    xs.dropWhile isBlank = xs := by
  cases xs with
  | nil => rfl
  | cons x xs => exact List.dropWhile_cons_of_neg (by simp [h x rfl])

/-- What is left of a text that ends with no blank ends with the same character. -/
theorem getLast?_dropBlanks (h : ∀ x ∈ xs.getLast?, isBlank x = false) :
    ∀ x ∈ (xs.dropWhile isBlank).getLast?, isBlank x = false := by
  intro x hx
  have hsplit : xs.takeWhile isBlank ++ xs.dropWhile isBlank = xs :=
    List.takeWhile_append_dropWhile
  refine h x ?_
  rw [← hsplit, List.getLast?_append, Option.mem_def.1 hx]
  rfl

/-- Two texts without blanks at a character that is none between them are trimmed one by one. -/
theorem trimBlanks_join (hc : isBlank c = false) (hx : ∀ x ∈ xs.getLast?, isBlank x = false)
    (hy : ∀ y ∈ ys.head?, isBlank y = false) :
    trimBlanks (xs ++ c :: ys) = trimBlanks xs ++ c :: trimBlanks ys := by
  have hfront : trimBlanks xs = xs.dropWhile isBlank := by
    rw [trimBlanks, dropBlanks_of_head?, List.reverse_reverse]
    rw [List.head?_reverse]
    exact getLast?_dropBlanks hx
  have hbehind : trimBlanks ys = (ys.reverse.dropWhile isBlank).reverse := by
    rw [trimBlanks, dropBlanks_of_head? hy]
  calc trimBlanks (xs ++ c :: ys)
    _ = ((ys.reverse ++ c :: (xs.dropWhile isBlank).reverse).dropWhile isBlank).reverse := by
      rw [trimBlanks, dropBlanks_append_cons hc, List.reverse_append, List.reverse_cons,
        List.append_assoc, List.singleton_append]
    _ = xs.dropWhile isBlank ++ c :: (ys.reverse.dropWhile isBlank).reverse := by
      rw [dropBlanks_append_cons hc, List.reverse_append, List.reverse_cons, List.reverse_reverse,
        List.append_assoc, List.singleton_append]
    _ = trimBlanks xs ++ c :: trimBlanks ys := by rw [hfront, hbehind]

end Text

/-! ## Segments -/

namespace Path

variable {p q : String}

/-- The segments on both sides of a point are those of the whole path. Either side may be empty,
and is then a segment without characters. -/
theorem segments_join (hp : ∀ c ∈ p.toList.getLast?, Text.isBlank c = false)
    (hq : ∀ c ∈ q.toList.head?, Text.isBlank c = false) :
    segments (p ++ "." ++ q) = segments p ++ segments q := by
  have hpoint : Text.isBlank '.' = false := by decide
  have hchars : (p ++ "." ++ q).toList = p.toList ++ '.' :: q.toList := by
    rw [String.toList_append, String.toList_append, List.append_assoc]
    rfl
  rw [segments, hchars, Text.trimBlanks_join hpoint hp hq, splitAtEach_append, List.map_append]
  rfl

/-- There is no path without segments. -/
theorem exists_segments (path : String) : ∃ first rest, segments path = first :: rest := by
  obtain ⟨part, parts, h⟩ :=
    List.exists_cons_of_ne_nil (splitAtEach_ne_nil '.' (Text.trimBlanks path.toList))
  exact ⟨String.ofList part, parts.map String.ofList, by rw [segments, h, List.map_cons]⟩

/-- Nothing lies below null, by any path. -/
theorem lookup_null (path : String) : lookup .null path = .ok none := by
  obtain ⟨first, rest, h⟩ := exists_segments path
  rw [lookup, h, walk, step_null]
  exact walk_none rest

/-- Lookup composes. What a path finds that goes on behind a point is what its rest finds in the
value of its first part: nothing where that part finds no value or null, and its fault where it is
at fault. -/
theorem lookup_join (context : Json) (hp : ∀ c ∈ p.toList.getLast?, Text.isBlank c = false)
    (hq : ∀ c ∈ q.toList.head?, Text.isBlank c = false) :
    lookup context (p ++ "." ++ q) =
        (lookup context p).bind (fun found => found.elim (.ok none) fun v => lookup v q) ∧
      lookup .null q = .ok none := by
  refine ⟨?_, lookup_null q⟩
  rw [lookup, segments_join hp hq, walk_append]
  refine congrArg (Except.bind _) (funext fun found => ?_)
  cases found with
  | none => exact walk_none _
  | some v => rfl

/-- The last of the tags of a contact has three characters, with blanks around the whole path and
the cut made before an index from the end. -/
theorem lookup_join_tags :
    let c : Json := .object [("contact", .object [("tags", .array ["new", "vip"])])]
    (∀ c ∈ " contact.tags".toList.getLast?, Text.isBlank c = false) ∧
    (∀ c ∈ "-1.length ".toList.head?, Text.isBlank c = false) ∧
    lookup c " contact.tags" = .ok (some (.array ["new", "vip"])) ∧
    lookup c (" contact.tags" ++ "." ++ "-1.length ") = .ok (some (.int 3)) := by
  intro c
  have hlast : " contact.tags".toList.getLast? = some 's' := rfl
  have hp : ∀ c ∈ " contact.tags".toList.getLast?, Text.isBlank c = false := by
    simp only [hlast, Option.mem_some_iff, forall_eq']
    decide
  have hhead : "-1.length ".toList.head? = some '-' := rfl
  have hq : ∀ c ∈ "-1.length ".toList.head?, Text.isBlank c = false := by
    simp only [hhead, Option.mem_some_iff, forall_eq']
    decide
  have hfirst : lookup c " contact.tags" = .ok (some (.array ["new", "vip"])) := by
    have hsegments : segments " contact.tags" = ["contact", "tags"] := by decide +kernel
    rw [lookup, hsegments]
    rfl
  have hrest : lookup (.array ["new", "vip"]) "-1.length " = .ok (some (.int 3)) := by
    have hsegments : segments "-1.length " = ["-1", "length"] := by decide +kernel
    rw [lookup, hsegments]
    rfl
  refine ⟨hp, hq, hfirst, ?_⟩
  rw [(lookup_join c hp hq).1, hfirst]
  exact hrest

end Path

end LeadDesk
