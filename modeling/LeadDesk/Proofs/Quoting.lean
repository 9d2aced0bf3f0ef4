import LeadDesk.Proofs.Tidying
import Mathlib.Data.List.Basic
/-!
# Placeholders between quotes

A condition is filled before it is tidied and cut into tokens, so what a placeholder stands
for becomes part of the text. Between quotes it becomes part of one quoted text and nothing
else, under three conditions: the placeholder stands between quotes once all others are filled,
its value does not have the quote that closes the text, and the text does not read as one of the
constants, which lose their quotes (`tokens_of_quoted`). Without them a value can bring tokens
of its own and decide the condition (`tokens_differ`).

The text with gaps in the place of the placeholder is cut into an `Outline`: quotations and
what stands between them. Each step from the filled text to its tokens is followed on the
outline, so that the tokens are found before the value is known (`Slot`).
-/

namespace LeadDesk

namespace Condition

/-! ### Texts with gaps -/

/-- A text with gaps. -/
abbrev Frame := List (Option Char)

/-- The text with a value in its gaps. -/
def fillGaps (value : List Char) : Frame → List Char
  | [] => []
  | none :: rest => value ++ fillGaps value rest
  | some c :: rest => c :: fillGaps value rest

theorem fillGaps_append (value : List Char) (xs ys : Frame) :
    fillGaps value (xs ++ ys) = fillGaps value xs ++ fillGaps value ys := by
  induction xs with
  | nil => rfl
  | cons x xs ih => cases x <;> simp [fillGaps, ih]

@[simp] theorem fillGaps_map_some (value cs : List Char) : fillGaps value (cs.map some) = cs := by
  induction cs with
  | nil => rfl
  | cons c cs ih => simp [fillGaps, ih]

/-- A character of a filled text comes from the text or from the value. -/
theorem mem_of_mem_fillGaps {value : List Char} {frame : Frame} {c : Char}
    (h : c ∈ fillGaps value frame) : some c ∈ frame ∨ none ∈ frame ∧ c ∈ value := by
  induction frame with
  | nil => cases h
  | cons x frame ih =>
    cases x with
    | none =>
      rcases List.mem_append.mp h with h | h
      · exact .inr ⟨List.mem_cons_self, h⟩
      · exact (ih h).imp (List.mem_cons_of_mem _) fun h => ⟨List.mem_cons_self, h.2⟩
    | some d =>
      rcases List.mem_cons.mp h with rfl | h
      · exact .inl List.mem_cons_self
      · exact (ih h).imp (List.mem_cons_of_mem _) fun h => h.imp_left (List.mem_cons_of_mem _)

/-- A text without gaps is the same with any value. -/
theorem fillGaps_eq {frame : Frame} (h : none ∉ frame) (value value' : List Char) :
    fillGaps value frame = fillGaps value' frame := by
  induction frame with
  | nil => rfl
  | cons x frame ih =>
    cases x with
    | none => exact absurd List.mem_cons_self h
    | some c => simp only [fillGaps, ih fun hmem => h (List.mem_cons_of_mem _ hmem)]

/-- The frame of a template: the placeholders of a path are gaps, and all others are filled. -/
def frameOf (context : Json) (path : String) : List Template.Piece → Except NumberFault Frame
  | [] => .ok []
  | .char c :: rest => (frameOf context path rest).map (some c :: ·)
  | .placeholder body :: rest =>
    if String.ofList (Text.trimBlanks body) = path then
      (frameOf context path rest).map (none :: ·)
    else
      match Template.valueOf context body with
      | .error e => .error e
      | .ok v => (frameOf context path rest).map
          ((Template.keepMissing v (Template.Piece.written (.placeholder body))).map some ++ ·)

theorem exists_of_map_eq_ok {ε α β : Type} {r : Except ε α} {f : α → β} {b : β}
    (h : r.map f = .ok b) : ∃ a, r = .ok a ∧ f a = b := by
  cases r with
  | error e => cases h
  | ok a => exact ⟨a, rfl, Except.ok.inj h⟩

/-- The frame of a template with the value of the path in its gaps is the filled template. -/
theorem fill_eq_of_frameOf {context : Json} {path value : String} {pieces : List Template.Piece}
    {frame : Frame} (hpath : Operand.resolve context path = .ok (some (.string value)))
    (h : frameOf context path pieces = .ok frame) :
    Template.fill Template.keepMissing context pieces = .ok (fillGaps value.toList frame) := by
  induction pieces generalizing frame with
  | nil =>
    cases h
    rfl
  | cons piece pieces ih =>
    cases piece with
    | char c =>
      rw [frameOf] at h
      obtain ⟨rest, hrest, rfl⟩ := exists_of_map_eq_ok h
      rw [Template.fill, ih hrest]
      rfl
    | placeholder body =>
      rw [frameOf] at h
      rw [Template.fill]
      split at h
      next hname =>
        obtain ⟨rest, hrest, rfl⟩ := exists_of_map_eq_ok h
        have hvalue : Template.valueOf context body = .ok (some (.string value)) := by
          simp [Template.valueOf, hname, hpath, Template.isWritable]
        simp only [hvalue, ih hrest]
        rfl
      next =>
        cases hvalue : Template.valueOf context body with
        | error e => simp only [hvalue, reduceCtorEq] at h
        | ok v =>
          simp only [hvalue] at h
          obtain ⟨rest, hrest, rfl⟩ := exists_of_map_eq_ok h
          simp only [ih hrest, fillGaps_append, fillGaps_map_some]
          rfl

/-- The frame only depends on the values of the other placeholders. -/
theorem frameOf_congr {context context' : Json} {path : String} {pieces : List Template.Piece}
    (h : ∀ body, .placeholder body ∈ pieces → String.ofList (Text.trimBlanks body) ≠ path →
      Template.valueOf context body = Template.valueOf context' body) :
    frameOf context path pieces = frameOf context' path pieces := by
  induction pieces with
  | nil => rfl
  | cons piece pieces ih =>
    have ih := ih fun body hmem => h body (List.mem_cons_of_mem _ hmem)
    cases piece with
    | char c => rw [frameOf, frameOf, ih]
    | placeholder body =>
      rw [frameOf, frameOf, ih]
      split
      · rfl
      next hother => rw [h body List.mem_cons_self hother]

/-- A template is filled with its frame and the value of the path. -/
theorem resolve_eq_of_frameOf {context : Json} {text path value : String} {frame : Frame}
    (hpath : Operand.resolve context path = .ok (some (.string value)))
    (h : frameOf context path (Template.pieces text) = .ok frame) :
    Template.resolve text context = .ok (String.ofList (fillGaps value.toList frame)) := by
  rw [Template.resolve, fill_eq_of_frameOf hpath h]
  rfl

/-! ### Outlines -/

/-- A text as a row of quotations with runs of other characters before them. It ends with a run,
or with a quote that is not closed. -/
inductive Outline (β : Type) where
  | plain (run : List Char)
  | unclosed (run : List Char) (quote : Char) (body : β)
  | quotation (run : List Char) (quote : Char) (body : β) (rest : Outline β)
  deriving DecidableEq

namespace Outline

variable {β : Type}

/-- The text of an outline, from the text of the bodies of its quotations. -/
def text (f : β → List Char) : Outline β → List Char
  | plain run => run
  | unclosed run quote body => run ++ quote :: f body
  | quotation run quote body rest => run ++ quote :: (f body ++ quote :: rest.text f)

/-- Runs have no quotes, and no body has the quote that closes it. -/
def Parts (f : β → List Char) : Outline β → Prop
  | plain run => Unquoted run
  | unclosed run quote body => Unquoted run ∧ isQuote quote = true ∧ quote ∉ f body
  | quotation run quote body rest =>
    Unquoted run ∧ isQuote quote = true ∧ quote ∉ f body ∧ rest.Parts f

/-- The quotations that are closed, each with its quote. -/
def quotations : Outline β → List (Char × β)
  | plain _ | unclosed _ _ _ => []
  | quotation _ quote body rest => (quote, body) :: rest.quotations

/-- The outline with characters in front. -/
def behind (cs : List Char) : Outline β → Outline β
  | plain run => plain (cs ++ run)
  | unclosed run quote body => unclosed (cs ++ run) quote body
  | quotation run quote body rest => quotation (cs ++ run) quote body rest

theorem text_behind (f : β → List Char) (cs : List Char) (o : Outline β) :
    (o.behind cs).text f = cs ++ o.text f := by
  cases o <;> simp [behind, text]

theorem Parts.behind {f : β → List Char} {o : Outline β} (h : o.Parts f) {cs : List Char}
    (hcs : Unquoted cs) : (o.behind cs).Parts f := by
  cases o with
  | plain run => exact hcs.append h
  | unclosed run quote body => exact h.imp_left hcs.append
  | quotation run quote body rest => exact h.imp_left hcs.append

end Outline

/-- The outline of a frame, or `none` where a gap stands outside of closed quotations. The run
before the next quotation is handed on, and what is read so far of an open one. -/
def outline? (run : List Char) : Option (Char × Frame) → Frame → Option (Outline Frame)
  | none, [] => some (.plain run)
  | none, none :: _ => none
  | none, some c :: rest =>
    if isQuote c then outline? run (some (c, [])) rest else outline? (run ++ [c]) none rest
  | some (q, body), [] => if none ∈ body then none else some (.unclosed run q body)
  | some (q, body), x :: rest =>
    if x = some q then (outline? [] none rest).map (.quotation run q body ·)
    else outline? run (some (q, body ++ [x])) rest

/-- The value has no quote that closes a quotation with gaps, and makes none of the constants of
it. -/
def Keeps (value : String) (o : Outline Frame) : Prop :=
  ∀ x ∈ o.quotations, none ∈ x.2 →
    x.1 ∉ value.toList ∧ fillGaps value.toList x.2 ∉ constantNames

instance (value : String) (o : Outline Frame) : Decidable (Keeps value o) :=
  inferInstanceAs (Decidable (∀ x ∈ _, _ → _))

/-- The characters read so far: a run, and an open quotation if there is one. -/
def readSoFar (value run : List Char) : Option (Char × Frame) → List Char
  | none => run
  | some (q, body) => run ++ q :: fillGaps value body

/-- The outline of a frame has the text of the frame, whatever is kept in its gaps. -/
theorem outline?_spec {value : String} {run : List Char} {open? : Option (Char × Frame)}
    {frame : Frame} {o : Outline Frame} (h : outline? run open? frame = some o)
    (hkeeps : Keeps value o) (hrun : Unquoted run)
    (hopen : ∀ x ∈ open?, isQuote x.1 = true ∧ some x.1 ∉ x.2) :
    o.Parts (fillGaps value.toList) ∧
      o.text (fillGaps value.toList) =
        readSoFar value.toList run open? ++ fillGaps value.toList frame := by
  induction frame generalizing run open? o with
  | nil =>
    cases open? with
    | none =>
      obtain rfl : Outline.plain run = o := by simpa [outline?] using h
      exact ⟨hrun, by simp [Outline.text, readSoFar, fillGaps]⟩
    | some x =>
      obtain ⟨q, body⟩ := x
      obtain ⟨hq, hbody⟩ := hopen _ rfl
      rw [outline?] at h
      split at h
      · cases h
      next hgap =>
        obtain rfl := Option.some.inj h
        refine ⟨⟨hrun, hq, fun hmem => ?_⟩, by simp [Outline.text, readSoFar, fillGaps]⟩
        exact (mem_of_mem_fillGaps hmem).elim hbody fun h => hgap h.1
  | cons x frame ih =>
    cases open? with
    | none =>
      cases x with
      | none => cases h
      | some c =>
        rw [outline?] at h
        split at h
        next hc =>
          obtain ⟨hparts, htext⟩ := ih h hkeeps hrun (by simp [hc])
          exact ⟨hparts, by simp [htext, readSoFar, fillGaps]⟩
        next hc =>
          have hrun' : Unquoted (run ++ [c]) :=
            hrun.append fun d hd => by simpa [List.mem_singleton.mp hd] using hc
          obtain ⟨hparts, htext⟩ := ih h hkeeps hrun' (by simp)
          exact ⟨hparts, by simp [htext, readSoFar, fillGaps]⟩
    | some found =>
      obtain ⟨q, body⟩ := found
      obtain ⟨hq, hbody⟩ := hopen _ rfl
      rw [outline?] at h
      split at h
      next hclosing =>
        subst hclosing
        obtain ⟨rest, hrest, rfl⟩ := Option.map_eq_some_iff.mp h
        obtain ⟨hkept, hkeeps⟩ := List.forall_mem_cons.mp hkeeps
        obtain ⟨hparts, htext⟩ := ih hrest hkeeps (fun _ h => by cases h) (by simp)
        refine ⟨⟨hrun, hq, fun hmem => ?_, hparts⟩, ?_⟩
        · exact (mem_of_mem_fillGaps hmem).elim hbody fun h => (hkept h.1).1 h.2
        · simp [Outline.text, htext, readSoFar, fillGaps]
      next hinside =>
        have hbody' : some q ∉ body ++ [x] := by
          simp only [List.mem_append, List.mem_singleton, not_or]
          exact ⟨hbody, Ne.symm hinside⟩
        obtain ⟨hparts, htext⟩ := ih h hkeeps hrun (by simp [hq, hbody'])
        have hmore : fillGaps value.toList (body ++ [x]) ++ fillGaps value.toList frame =
            fillGaps value.toList body ++ fillGaps value.toList (x :: frame) := by
          rw [← fillGaps_append, ← fillGaps_append, List.append_assoc]
          rfl
        exact ⟨hparts, by simpa [readSoFar, hmore] using htext⟩

/-! ### Quotes taken off constants -/

/-- The text of a body that is put together of several when quotes are taken off constants. -/
def joinedText (value : List Char) (parts : List Frame) : List Char :=
  parts.flatMap fun part => unquoteConstants 0 (fillGaps value part)

@[simp] theorem joinedText_singleton (value : List Char) (part : Frame) :
    joinedText value [part] = unquoteConstants 0 (fillGaps value part) := by
  simp [joinedText]

/-- A body with a run and another body joined to it. -/
theorem joinedText_merged (value : List Char) (parts : List Frame) {run : List Char}
    (hrun : Unquoted run) (body : Frame) :
    joinedText value (parts ++ [run.map some, body]) =
      joinedText value parts ++ (run ++ unquoteConstants 0 (fillGaps value body)) := by
  simp [joinedText, unquote_of_unquoted hrun]

/-- Taking quotes off constants leads from the one outline to the other, whatever is kept in the
gaps. -/
def UnquotesTo (o : Outline Frame) (o' : Outline (List Frame)) : Prop :=
  ∀ value : String, Keeps value o → o.Parts (fillGaps value.toList) →
    o'.Parts (joinedText value.toList) ∧
      o'.text (joinedText value.toList) = unquoteConstants 0 (o.text (fillGaps value.toList))

/-- The same behind an open quotation, with the quote that would close it. -/
def ClosesTo (run : List Char) (q : Char) (parts : List Frame) (o : Outline Frame)
    (o' : Outline (List Frame)) : Prop :=
  ∀ value : String, Keeps value o → o.Parts (fillGaps value.toList) → Unquoted run →
    isQuote q = true → q ∉ joinedText value.toList parts →
    o'.Parts (joinedText value.toList) ∧
      o'.text (joinedText value.toList) = run ++ q :: (joinedText value.toList parts ++
        unquoteConstants 0 (q :: o.text (fillGaps value.toList)))

/-- A quote that stays closes the quotation before it. -/
theorem UnquotesTo.closesTo {o : Outline Frame} {o' : Outline (List Frame)} (h : UnquotesTo o o')
    {q : Char} (hstays : ∀ value : String, o.Parts (fillGaps value.toList) → isQuote q = true →
      unquoteConstants 0 (q :: o.text (fillGaps value.toList)) =
        q :: unquoteConstants 0 (o.text (fillGaps value.toList)))
    (run : List Char) (parts : List Frame) :
    ClosesTo run q parts o (.quotation run q parts o') := by
  intro value hkeeps hparts hrun hq hbody
  obtain ⟨hparts', htext⟩ := h value hkeeps hparts
  exact ⟨⟨hrun, hq, hbody, hparts'⟩, by rw [Outline.text, htext, hstays value hparts hq]⟩

/-- What is joined to an open quotation does not close it. -/
theorem not_mem_joinedText {value : List Char} {q : Char} {parts : List Frame} {run : List Char}
    {body : Frame} (hq : isQuote q = true) (hparts : q ∉ joinedText value parts)
    (hrun : Unquoted run) (hbody : q ∉ fillGaps value body) :
    q ∉ joinedText value (parts ++ [run.map some, body]) := by
  rw [joinedText_merged _ _ hrun, List.mem_append, List.mem_append, not_or, not_or]
  exact ⟨hparts, hrun.not_mem hq, not_mem_unquote hbody 0⟩

section

variable {run run' : List Char} {q q' : Char} {body : Frame} {parts : List Frame}
  {rest : Outline Frame} {rest' o' : Outline (List Frame)}

theorem unquotesTo_plain (run : List Char) : UnquotesTo (.plain run) (.plain run) :=
  fun _ _ hparts => ⟨hparts, (unquote_of_unquoted hparts).symm⟩

theorem unquotesTo_unclosed (run : List Char) (q : Char) (body : Frame) :
    UnquotesTo (.unclosed run q body) (.unclosed run q [body]) := by
  rintro value - ⟨hrun, hq, hbody⟩
  refine ⟨⟨hrun, hq, ?_⟩, ?_⟩
  · rw [joinedText_singleton]
    exact not_mem_unquote hbody 0
  · rw [Outline.text, Outline.text, unquote_append hrun, unquote_unclosed hbody,
      joinedText_singleton]

/-- A quotation without gaps that is a constant becomes part of the run behind it. -/
theorem UnquotesTo.constant (h : UnquotesTo rest rest') (hgap : none ∉ body)
    (hconstant : fillGaps [] body ∈ constantNames) :
    UnquotesTo (.quotation run q body rest) (rest'.behind (run ++ fillGaps [] body)) := by
  rintro value hkeeps ⟨hrun, hq, -, hparts⟩
  obtain ⟨-, hkeeps⟩ := List.forall_mem_cons.mp hkeeps
  obtain ⟨hparts', htext⟩ := h value hkeeps hparts
  refine ⟨hparts'.behind (hrun.append (unquoted_of_constant hconstant)), ?_⟩
  rw [Outline.text_behind, htext, Outline.text, unquote_append hrun,
    fillGaps_eq hgap value.toList [], unquote_constant hq hconstant, List.append_assoc]

/-- Any other quotation is opened, and what closes it is found behind it. -/
theorem ClosesTo.quotation (h : ClosesTo run q [body] rest o')
    (hfree : none ∈ body ∨ fillGaps [] body ∉ constantNames) :
    UnquotesTo (.quotation run q body rest) o' := by
  rintro value hkeeps ⟨hrun, hq, hbody, hparts⟩
  obtain ⟨hkept, hkeeps⟩ := List.forall_mem_cons.mp hkeeps
  have hfree : fillGaps value.toList body ∉ constantNames := by
    by_cases hgap : none ∈ body
    · exact (hkept hgap).2
    · rw [fillGaps_eq hgap value.toList []]
      exact hfree.resolve_left hgap
  have hopen : q ∉ joinedText value.toList [body] := by
    rw [joinedText_singleton]
    exact not_mem_unquote hbody 0
  obtain ⟨hparts', htext⟩ := h value hkeeps hparts hrun hq hopen
  refine ⟨hparts', ?_⟩
  rw [htext, Outline.text, unquote_append hrun, unquote_quotation hq hbody hfree,
    joinedText_singleton]

/-- Where the run is a constant between quotes of one kind, an open quotation goes on in the next
one, and its body is joined to it. -/
theorem closesTo_unclosed (hconstant : run' ∈ constantNames) :
    ClosesTo run q parts (.unclosed run' q body)
      (.unclosed run q (parts ++ [run'.map some, body])) := by
  rintro value - ⟨hrun', hq', hbody'⟩ hrun hq hbody
  refine ⟨⟨hrun, hq, not_mem_joinedText hq hbody hrun' hbody'⟩, ?_⟩
  rw [Outline.text, Outline.text, unquote_closing hq hq' hrun', if_pos ⟨rfl, hconstant⟩,
    joinedText_merged _ _ hrun']

theorem ClosesTo.joined (h : ClosesTo run q (parts ++ [run'.map some, body]) rest o')
    (hconstant : run' ∈ constantNames) :
    ClosesTo run q parts (.quotation run' q body rest) o' := by
  rintro value hkeeps ⟨hrun', hq', hbody', hparts⟩ hrun hq hbody
  obtain ⟨-, hkeeps⟩ := List.forall_mem_cons.mp hkeeps
  obtain ⟨hparts', htext⟩ := h value hkeeps hparts hrun hq
    (not_mem_joinedText hq hbody hrun' hbody')
  refine ⟨hparts', ?_⟩
  rw [htext, Outline.text, unquote_closing hq hq' hrun', if_pos ⟨rfl, hconstant⟩,
    joinedText_merged _ _ hrun', unquote_append_quote hq hbody' (Nat.zero_le _)]
  simp only [List.append_assoc]

/-- Where quotes are taken off does not depend on the value in the gaps. -/
theorem Outline.exists_unquoted (o : Outline Frame) :
    (∃ o', UnquotesTo o o') ∧ ∀ run q parts, ∃ o', ClosesTo run q parts o o' := by
  -- Both at once: a quotation is closed by what stands behind it, which may be a quoted constant.
  induction o with
  | plain run' =>
    have hplain := unquotesTo_plain run'
    refine ⟨⟨_, hplain⟩, fun run q parts => ⟨_, hplain.closesTo ?_ run parts⟩⟩
    intro value hparts hq
    rw [text, unquote_unclosed (Unquoted.not_mem hparts hq)]
  | unclosed run' q' body =>
    have hopen := unquotesTo_unclosed run' q' body
    refine ⟨⟨_, hopen⟩, fun run q parts => ?_⟩
    by_cases hmerges : q' = q ∧ run' ∈ constantNames
    · obtain ⟨rfl, hconstant⟩ := hmerges
      exact ⟨_, closesTo_unclosed hconstant⟩
    · refine ⟨_, hopen.closesTo ?_ run parts⟩
      rintro value ⟨hrun', hq', -⟩ hq
      rw [text, unquote_closing hq hq' hrun', if_neg hmerges]
  | quotation run' q' body rest ih =>
    obtain ⟨⟨rest', hrest⟩, hcloses⟩ := ih
    have hquotation : ∃ o', UnquotesTo (.quotation run' q' body rest) o' := by
      by_cases hconstant : none ∉ body ∧ fillGaps [] body ∈ constantNames
      · exact ⟨_, hrest.constant hconstant.1 hconstant.2⟩
      · rw [not_and_or, not_not] at hconstant
        obtain ⟨o', ho'⟩ := hcloses run' q' [body]
        exact ⟨o', ho'.quotation hconstant⟩
    obtain ⟨quotation', hquotation⟩ := hquotation
    refine ⟨⟨_, hquotation⟩, fun run q parts => ?_⟩
    by_cases hmerges : q' = q ∧ run' ∈ constantNames
    · obtain ⟨rfl, hconstant⟩ := hmerges
      obtain ⟨o', ho'⟩ := hcloses run q' (parts ++ [run'.map some, body])
      exact ⟨o', ho'.joined hconstant⟩
    · refine ⟨_, hquotation.closesTo ?_ run parts⟩
      rintro value ⟨hrun', hq', -⟩ hq
      rw [text, unquote_closing hq hq' hrun', if_neg hmerges]

end

/-! ### Tokens of an outline -/

/-- A token of a text with gaps: one that is known without the value, or a text in quotes with the
bodies that it is joined of. -/
inductive Slot where
  | fixed (token : Token)
  | quoted (quote : Char) (parts : List Frame)

namespace Slot

/-- The token, once the value is known. -/
def token (value : String) : Slot → Token
  | fixed token => token
  | quoted q parts =>
    ⟨.text, String.ofList (q :: (tidied (some q) (joinedText value.toList parts) ++ [q]))⟩

/-- The value stands in the token. -/
def HasGap : Slot → Prop
  | fixed _ => False
  | quoted _ parts => ∃ part ∈ parts, none ∈ part

/-- The kind of the token does not depend on the value. -/
theorem kind_token (slot : Slot) (value value' : String) :
    (slot.token value).kind = (slot.token value').kind := by
  cases slot <;> rfl

/-- Only a quoted text with gaps depends on the value. -/
theorem hasGap_of_ne {slot : Slot} {value value' : String}
    (h : slot.token value ≠ slot.token value') :
    slot.HasGap ∧ (slot.token value).kind = .text := by
  cases slot with
  | fixed token => exact absurd rfl h
  | quoted q parts =>
    refine ⟨?_, rfl⟩
    by_contra hnone
    have hparts : joinedText value.toList parts = joinedText value'.toList parts := by
      simp only [HasGap, not_exists, not_and] at hnone
      refine List.flatMap_congr fun part hpart => ?_
      rw [fillGaps_eq (hnone part hpart) value.toList value'.toList]
    exact h (by rw [token, token, hparts])

end Slot

/-- The tokens of an outline behind the character `before`, or `none` where it cannot be cut into
tokens. -/
def Outline.slots? (before : Option Char) : Outline (List Frame) → Option (List Slot)
  | plain run => (tokensOf (tidied before run)).map (·.map .fixed)
  | unclosed _ _ _ => none
  | quotation run q parts rest => do
    let tokens ← tokensOf (tidied before run)
    let later ← rest.slots? (some q)
    return tokens.map .fixed ++ .quoted q parts :: later

theorem map_token_fixed (value : String) (tokens : List Token) :
    (tokens.map Slot.fixed).map (·.token value) = tokens :=
  List.map_map.trans (List.map_id tokens)

/-- The tokens of the text of an outline are those of the outline. -/
theorem Outline.tokensOf_text {o : Outline (List Frame)} {value : String}
    (h : o.Parts (joinedText value.toList)) (before : Option Char) :
    tokensOf (tidied before (o.text (joinedText value.toList))) =
      (o.slots? before).map (·.map (·.token value)) := by
  induction o generalizing before with
  | plain run =>
    rw [text, slots?]
    cases tokensOf (tidied before run) with
    | none => rfl
    | some tokens => exact congrArg some (map_token_fixed value tokens).symm
  | unclosed run q parts =>
    obtain ⟨hrun, hq, hbody⟩ := h
    rw [text, tidied_append_quote hq, tokensOf_append_quote hq (hrun.tidied before),
      tokensOf_unclosed hq fun h => hbody (quote_of_mem_tidied hq h)]
    cases tokensOf (tidied before run) <;> rfl
  | quotation run q parts rest ih =>
    obtain ⟨hrun, hq, hbody, hparts⟩ := h
    rw [text, tidied_append_quote hq, tidied_append_quote hq,
      tokensOf_append_quote hq (hrun.tidied before),
      tokensOf_quoted hq fun h => hbody (quote_of_mem_tidied hq h), ih hparts, slots?]
    cases tokensOf (tidied before run) with
    | none => rfl
    | some tokens =>
      cases rest.slots? (some q) with
      | none => rfl
      | some later =>
        have hmap : (tokens.map Slot.fixed ++ Slot.quoted q parts :: later).map
            (Slot.token value) =
            tokens ++ (Slot.quoted q parts).token value :: later.map (Slot.token value) := by
          rw [List.map_append, map_token_fixed, List.map_cons]
        exact congrArg some hmap.symm

/-- The tokens of a frame are known before the value in its gaps is, where they stand in quotations
that keep it. -/
theorem exists_slots {frame : Frame} {o : Outline Frame} (h : outline? [] none frame = some o) :
    ∃ slots : Option (List Slot), ∀ value : String, Keeps value o →
      tokensOf (normalizeChars (fillGaps value.toList frame)) =
        slots.map (·.map (·.token value)) := by
  obtain ⟨⟨o', ho'⟩, -⟩ := o.exists_unquoted
  refine ⟨o'.slots? none, fun value hkeeps => ?_⟩
  obtain ⟨hparts, htext⟩ := outline?_spec h hkeeps (fun _ h => by cases h) (by simp)
  obtain ⟨hparts', htext'⟩ := ho' value hkeeps hparts
  have htext : o.text (fillGaps value.toList) = fillGaps value.toList frame := htext
  rw [normalizeChars_eq, ← htext, ← htext', Outline.tokensOf_text hparts']

/-! ### The tokens of a condition -/

theorem tokenize_normalize_eq_ok {cs : List Char} {tokens : List Token} :
    tokenize (normalize (String.ofList cs)) = .ok tokens ↔
      tokensOf (normalizeChars cs) = some tokens := by
  rw [tokenize_eq_ok, normalize, String.toList_ofList, String.toList_ofList]

/-- Where a placeholder stands between quotes, once all others are filled, two texts for it give a
condition the same number of tokens, of the same kinds, and the tokens differ only where they are
texts in quotes that the placeholder stands in. The two texts do not have the quotes around the
placeholder, and make no constant of what stands between them. -/
theorem tokens_of_quoted {text path value value' : String} {context context' : Json}
    {frame : Frame} {o : Outline Frame}
    (hvalue : Operand.resolve context path = .ok (some (.string value)))
    (hvalue' : Operand.resolve context' path = .ok (some (.string value')))
    (hothers : ∀ body, .placeholder body ∈ Template.pieces text →
      String.ofList (Text.trimBlanks body) ≠ path →
      Template.valueOf context body = Template.valueOf context' body)
    (hframe : frameOf context path (Template.pieces text) = .ok frame)
    (hquoted : outline? [] none frame = some o) (hkeeps : Keeps value o)
    (hkeeps' : Keeps value' o) :
    ∃ filled filled', Template.resolve text context = .ok filled ∧
      Template.resolve text context' = .ok filled' ∧
      ((∃ slots : List Slot,
          tokenize (normalize filled) = .ok (slots.map (·.token value)) ∧
          tokenize (normalize filled') = .ok (slots.map (·.token value')) ∧
          ∀ slot ∈ slots, (slot.token value).kind = (slot.token value').kind ∧
            (slot.token value ≠ slot.token value' →
              slot.HasGap ∧ (slot.token value).kind = .text)) ∨
        (∀ ts, tokenize (normalize filled) ≠ .ok ts) ∧
          ∀ ts, tokenize (normalize filled') ≠ .ok ts) := by
  have hframe' : frameOf context' path (Template.pieces text) = .ok frame :=
    (frameOf_congr hothers).symm.trans hframe
  refine ⟨_, _, resolve_eq_of_frameOf hvalue hframe, resolve_eq_of_frameOf hvalue' hframe', ?_⟩
  simp only [ne_eq, tokenize_normalize_eq_ok]
  obtain ⟨slots, hslots⟩ := exists_slots hquoted
  rw [hslots value hkeeps, hslots value' hkeeps']
  cases slots with
  | none => exact .inr ⟨by simp, by simp⟩
  | some slots =>
    exact .inl ⟨slots, rfl, rfl, fun slot _ =>
      ⟨slot.kind_token value value', Slot.hasGap_of_ne⟩⟩

/-- In a comparison of a quoted name, a value that reads like an operator stays part of the name. -/
theorem tokens_of_quoted_name :
    let text := "'\x7b\x7bp\x7d\x7d!' == x"
    let context (value : String) := Json.object [("p", .string value)]
    ∃ ts us, HasTokens (context "a") text ts ∧ HasTokens (context "|| \"y") text us ∧
      ts.map (·.kind) = us.map (·.kind) := by
  intro text context
  let frame : Frame := some '\'' :: none :: "!' == x".toList.map some
  let o : Outline Frame := .quotation [] '\'' [none, some '!'] (.plain " == x".toList)
  have hvalue : Operand.resolve (context "a") "p" = .ok (some (.string "a")) := by rfl
  have hvalue' : Operand.resolve (context "|| \"y") "p" = .ok (some (.string "|| \"y")) := by
    rfl
  have hpieces : Template.pieces text =
      .char '\'' :: .placeholder ['p'] :: "!' == x".toList.map .char := by decide +kernel
  have hothers : ∀ body, .placeholder body ∈ Template.pieces text →
      String.ofList (Text.trimBlanks body) ≠ "p" →
      Template.valueOf (context "a") body = Template.valueOf (context "|| \"y") body := by
    intro body hmem hne
    obtain rfl : body = ['p'] := by simpa [hpieces] using hmem
    exact absurd (by decide +kernel) hne
  have hframe : frameOf (context "a") "p" (Template.pieces text) = .ok frame := by decide +kernel
  have hquoted : outline? [] none frame = some o := by decide +kernel
  obtain ⟨filled, filled', hfilled, hfilled', ⟨slots, hts, hus, hslots⟩ | ⟨hnone, -⟩⟩ :=
    tokens_of_quoted hvalue hvalue' hothers hframe hquoted (by decide +kernel) (by decide +kernel)
  · refine ⟨_, _, ⟨filled, hfilled, hts⟩, ⟨filled', hfilled', hus⟩, ?_⟩
    simpa using fun slot hmem => (hslots slot hmem).1
  · have hname : HasTokens (context "a") text
        [⟨.text, "'a!'"⟩, ⟨.operator, "=="⟩, ⟨.path, "x"⟩] := by decide +kernel
    obtain ⟨again, hagain, htokens⟩ := hname
    obtain rfl := Except.ok.inj (hagain.symm.trans hfilled)
    exact absurd htokens (hnone _)

/-- A placeholder between quotes can bring tokens of its own: with a value that closes the quote,
and decides the condition; with a value that makes a constant of the text; where the placeholder
stands outside of quotes as well; and where another placeholder brings a quote. -/
theorem tokens_differ :
    let p := "\x7b\x7bp\x7d\x7d"
    let o := "\x7b\x7bo\x7d\x7d"
    let context (value : String) := Json.object [("p", .string value), ("o", .string "'")]
    (∃ ts us, HasTokens (context "a") ("'" ++ p ++ "' == 'x'") ts ∧
      HasTokens (context "' || true || '") ("'" ++ p ++ "' == 'x'") us ∧ ts.length ≠ us.length ∧
      evaluate (.string ("'" ++ p ++ "' == 'x'")) (context "a") = .ok false ∧
      evaluate (.string ("'" ++ p ++ "' == 'x'")) (context "' || true || '") = .ok true) ∧
    (∃ ts us, HasTokens (context "a") ("'" ++ p ++ "' == 'x'") ts ∧
      HasTokens (context "true") ("'" ++ p ++ "' == 'x'") us ∧
      ts.map (·.kind) ≠ us.map (·.kind)) ∧
    (∃ ts us, HasTokens (context "a") ("'" ++ p ++ "' == " ++ p) ts ∧
      HasTokens (context "1") ("'" ++ p ++ "' == " ++ p) us ∧
      ts.map (·.kind) ≠ us.map (·.kind)) ∧
    ∃ ts us, HasTokens (context "a") (o ++ " '" ++ p ++ "' " ++ o) ts ∧
      HasTokens (context "1") (o ++ " '" ++ p ++ "' " ++ o) us ∧
      ts.map (·.kind) ≠ us.map (·.kind) := by
  intro p o context
  have hcompared : HasTokens (context "a") ("'" ++ p ++ "' == 'x'")
      [⟨.text, "'a'"⟩, ⟨.operator, "=="⟩, ⟨.text, "'x'"⟩] := by decide +kernel
  have hclosing : HasTokens (context "' || true || '") ("'" ++ p ++ "' == 'x'")
      [⟨.text, "''"⟩, ⟨.operator, "||"⟩, ⟨.path, "true"⟩, ⟨.operator, "||"⟩, ⟨.text, "''"⟩,
        ⟨.operator, "=="⟩, ⟨.text, "'x'"⟩] := by decide +kernel
  have hconstant : HasTokens (context "true") ("'" ++ p ++ "' == 'x'")
      [⟨.path, "true"⟩, ⟨.operator, "=="⟩, ⟨.text, "'x'"⟩] := by decide +kernel
  have hname : HasTokens (context "a") ("'" ++ p ++ "' == " ++ p)
      [⟨.text, "'a'"⟩, ⟨.operator, "=="⟩, ⟨.path, "a"⟩] := by decide +kernel
  have hnumber : HasTokens (context "1") ("'" ++ p ++ "' == " ++ p)
      [⟨.text, "'1'"⟩, ⟨.operator, "=="⟩, ⟨.number, "1"⟩] := by decide +kernel
  have hbetween : HasTokens (context "a") (o ++ " '" ++ p ++ "' " ++ o)
      [⟨.text, "' '"⟩, ⟨.path, "a"⟩, ⟨.text, "' '"⟩] := by decide +kernel
  have hbetween' : HasTokens (context "1") (o ++ " '" ++ p ++ "' " ++ o)
      [⟨.text, "' '"⟩, ⟨.number, "1"⟩, ⟨.text, "' '"⟩] := by decide +kernel
  exact ⟨⟨_, _, hcompared, hclosing, by decide, by decide +kernel, by decide +kernel⟩,
    ⟨_, _, hcompared, hconstant, by decide⟩, ⟨_, _, hname, hnumber, by decide⟩,
    ⟨_, _, hbetween, hbetween', by decide⟩⟩

end Condition

end LeadDesk
