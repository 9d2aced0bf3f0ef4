import LeadDesk.Model.Reply
import LeadDesk.Proofs.Fallbacks
import LeadDesk.Proofs.JsonText
/-!
# Data behind fences

A value that a placeholder writes as JSON text is found again in a reply of a language model: when
the reply is the text itself, and when the text stands in a fenced block behind an introduction
without a fence (`Reply.data_of_render`). The fence that ends the block is the first behind the
text, since there is none in it.
-/

namespace LeadDesk

namespace Reply

/-- There are three backticks in a row. -/
def HasFence (cs : List Char) : Prop := fence <:+: cs

instance (cs : List Char) : Decidable (HasFence cs) := inferInstanceAs (Decidable (_ <:+: _))

/-! ## Splitting at a fence -/

section

variable {cs : List Char}

theorem after?_append (front more : List Char) : after? front (front ++ more) = some more := by
  rw [after?, if_pos (List.isPrefixOf_iff_prefix.2 (List.prefix_append front more)),
    List.drop_left]

theorem after?_of_not_prefix {front : List Char} (h : ¬ front <+: cs) : after? front cs = none :=
  if_neg fun hprefix => h (List.isPrefixOf_iff_prefix.1 hprefix)

theorem splitAtFence_of_not_hasFence (h : ¬ HasFence cs) : splitAtFence cs = none := by
  induction cs with
  | nil => rfl
  | cons c cs ih =>
    rw [HasFence, List.infix_cons_iff, not_or] at h
    rw [splitAtFence, after?_of_not_prefix h.1, ih h.2]
    rfl

/-- A fence ends before the end of the line on which it starts. -/
theorem fence_prefix_of_append {more : List Char} (h : fence <+: cs ++ '\n' :: more) :
    fence <+: cs := by
  obtain hfence | ⟨others, hothers⟩ :=
    List.prefix_or_prefix_of_prefix h (List.prefix_append cs ('\n' :: more))
  · exact hfence
  · rw [← hothers, List.prefix_append_right_inj] at h
    cases others with
    | nil => rw [← hothers, List.append_nil]
    | cons c others =>
      obtain ⟨rfl, -⟩ := List.cons_prefix_cons.1 h
      have hmem : '\n' ∈ fence := hothers ▸ List.mem_append_right cs List.mem_cons_self
      exact absurd hmem (by decide)

/-- A fence at the start of a line parts what stands before it from what stands behind. -/
theorem splitAtFence_append (h : ¬ HasFence cs) (more : List Char) :
    splitAtFence (cs ++ '\n' :: (fence ++ more)) = some (cs ++ ['\n'], more) := by
  induction cs with
  | nil => rfl
  | cons c cs ih =>
    rw [HasFence, List.infix_cons_iff, not_or] at h
    have hhere : ¬ fence <+: c :: (cs ++ '\n' :: (fence ++ more)) :=
      fun hprefix => h.1 (fence_prefix_of_append hprefix)
    rw [List.cons_append, splitAtFence, after?_of_not_prefix hhere, ih h.2]
    rfl

end

/-! ## Fenced blocks -/

/-- A reply that holds a text in a fenced block, on lines of its own, between two other texts. -/
def fenced (before text after : String) : String :=
  before ++ "\n\x60\x60\x60json\n" ++ text ++ "\n\x60\x60\x60\n" ++ after

variable {text : String}

/-- Without a fence the whole text is read. -/
theorem candidate_of_not_hasFence (h : ¬ HasFence text.toList)
    (htrim : Text.IsTrimmed text.toList) :
    candidate text = text := by
  rw [candidate, block?_eq_none (splitAtFence_of_not_hasFence h)]
  exact (congrArg String.ofList (Text.trimBlanks_of_isTrimmed htrim)).trans (String.ofList_toList)

/-- The text of the first fenced block is read. -/
theorem candidate_fenced {before : String} (hbefore : ¬ HasFence before.toList)
    (h : ¬ HasFence text.toList) (htrim : Text.IsTrimmed text.toList) (hne : text.toList ≠ [])
    (after : String) : candidate (fenced before text after) = text := by
  have hchars : (fenced before text after).toList = before.toList ++ '\n' :: (fence ++
      ("json".toList ++ '\n' :: (text.toList ++ '\n' :: (fence ++ '\n' :: after.toList)))) := by
    simp [fenced, fence]
  obtain ⟨c, more, htext⟩ := List.exists_cons_of_ne_nil hne
  have hfirst : Text.isBlank c = false := htrim.1 c (by rw [htext]; rfl)
  have hline : Text.isBlank '\n' = true := by decide
  have hblanks (others : List Char) :
      dropBlanks ('\n' :: (text.toList ++ others)) = text.toList ++ others := by
    rw [htext, dropBlanks, List.dropWhile_cons_of_pos hline, List.cons_append,
      List.dropWhile_cons_of_neg (by simp [hfirst])]
  have hcontents : Text.trimBlanks (text.toList ++ ['\n']) = text.toList := by
    have hdrop : Text.trimBlanks ([] ++ (text.toList ++ ['\n'])) = _ :=
      Text.trimBlanks_append (by simp) (by simpa using hline) text.toList
    rw [← List.nil_append (text.toList ++ ['\n']), hdrop, Text.trimBlanks_of_isTrimmed htrim]
  have hblock : block? (fenced before text after).toList = some text.toList := by
    rw [block?, hchars, splitAtFence_append hbefore]
    simp only [bind, Option.bind, pure, after?_append, Option.getD_some, hblanks,
      splitAtFence_append h, hcontents]
  rw [candidate, hblock]
  exact String.ofList_toList

end Reply

/-! ## Rendered values -/

namespace Json

/-- The value is a list or an object. -/
def IsStructure : Json → Prop
  | array _ | object _ => True
  | _ => False

variable {v : Json}

theorem IsStructure.render (h : IsStructure v) : Template.render v = compact v := by
  cases v with
  | array | object => rfl
  | null | bool | int | float | string => exact h.elim

/-- The text of a structure starts and ends with its brackets. -/
theorem IsStructure.exists_brackets (h : IsStructure v) :
    ∃ first inside last, (compact v).toList = first :: (inside ++ [last]) ∧
      Text.isBlank first = false ∧ Text.isBlank last = false := by
  cases v with
  | array items =>
    exact ⟨'[', (printItems tight items).toList, ']', by simp [compact, print], by decide,
      by decide⟩
  | object fields =>
    exact ⟨'\x7b', (printFields tight fields).toList, '\x7d', by simp [compact, print], by decide,
      by decide⟩
  | null | bool | int | float | string => exact h.elim

theorem IsStructure.isTrimmed (h : IsStructure v) : Text.IsTrimmed (compact v).toList := by
  obtain ⟨first, inside, last, htext, hfirst, hlast⟩ := h.exists_brackets
  rw [htext]
  refine ⟨fun c hc => ?_, fun c hc => ?_⟩
  · cases hc
    exact hfirst
  · rw [← List.cons_append, List.getLast?_append, List.getLast?_singleton] at hc
    cases hc
    exact hlast

end Json

namespace Reply

/-- A rendered list or object without a fence in it is the data of the reply that is its text, and
of any reply whose first fenced block holds it. -/
theorem data_of_render {v : Json} (hv : v.IsExact) (hshape : v.IsStructure)
    (hfence : ¬ HasFence (Template.render v).toList) :
    data (Template.render v) = .ok v ∧
      ∀ before after : String, ¬ HasFence before.toList →
        data (fenced before (Template.render v) after) = .ok v := by
  rw [hshape.render] at hfence ⊢
  have htrim := hshape.isTrimmed
  have hne : (Json.compact v).toList ≠ [] := by
    obtain ⟨first, inside, last, htext, -⟩ := hshape.exists_brackets
    rw [htext]
    exact List.cons_ne_nil _ _
  refine ⟨?_, fun before after hbefore => ?_⟩
  · rw [data, candidate_of_not_hasFence hfence htrim, Json.read_compact hv]
  · rw [data, candidate_fenced hbefore hfence htrim hne, Json.read_compact hv]

theorem data_of_render_lead :
    let lead : Json := .object [("name", .string "Zo\u00eb \"Z\"\n"),
      ("scores", .array [.int (-12), .null]),
      ("mark", .string (String.singleton (Char.ofNat 0x1f600)))]
    lead.IsExact ∧ lead.IsStructure ∧ ¬ HasFence (Template.render lead).toList ∧
      data (Template.render lead) = .ok lead ∧
      ∀ before after : String, ¬ HasFence before.toList →
        data (fenced before (Template.render lead) after) = .ok lead := by
  intro lead
  have hkeys : (Fields.keys [("name", Json.string "Zo\u00eb \"Z\"\n"),
      ("scores", .array [.int (-12), .null]),
      ("mark", .string (String.singleton (Char.ofNat 0x1f600)))]).Nodup := by decide
  have hsmall : (-12 : Int).natAbs < tenTo maxDigits := by
    rw [tenTo_eq]
    exact lt_of_lt_of_le (by decide : 12 < 10 ^ 2) (Nat.pow_le_pow_right (by decide) (by decide))
  have hexact : lead.IsExact := ⟨hkeys, trivial, ⟨hsmall, trivial, trivial⟩, trivial, trivial⟩
  have hfence : ¬ HasFence (Template.render lead).toList := by decide +kernel
  exact ⟨hexact, trivial, hfence, data_of_render hexact trivial hfence⟩

end Reply

end LeadDesk
