import LeadDesk.Proofs.Literals
import LeadDesk.Proofs.Resolvers
/-!
# Chains of operands

A placeholder may offer several operands, each of them a path or a literal as documented
(`Operand.Form.IsDocumented`). Its value is that of the first operand that is present
(`Template.fallbacks_follow`). The text is split at every `||` before operands are told apart, so a
literal with `||` in it is not read as it is written, and no more is an empty object, whose brace
ends the placeholder.
-/

namespace LeadDesk

/-! ## Splitting at bars -/

/-- There are two bars in a row. -/
def HasBars (cs : List Char) : Prop := ['|', '|'] <:+: cs

section

variable {cs : List Char} {c : Char}

instance (cs : List Char) : Decidable (HasBars cs) := inferInstanceAs (Decidable (_ <:+: _))

theorem hasBars_cons (h : c ≠ '|') : HasBars (c :: cs) ↔ HasBars cs := by
  rw [HasBars, List.infix_cons_iff, List.cons_prefix_cons, HasBars]
  simp [Ne.symm h]

theorem hasBars_concat (h : c ≠ '|') : HasBars (cs ++ [c]) ↔ HasBars cs := by
  rw [HasBars, List.infix_concat_iff, List.suffix_concat_iff, HasBars]
  refine or_iff_right fun hend => ?_
  obtain hnil | ⟨front, hfront, -⟩ := hend
  · cases hnil
  · have hlast := congrArg List.getLast? hfront
    simp only [List.getLast?_append, List.getLast?_singleton] at hlast
    exact h (Option.some.inj hlast).symm

theorem splitAtBars_of_not_hasBars (h : ¬ HasBars cs) : splitAtBars cs = [cs] := by
  induction cs with
  | nil => rfl
  | cons c cs ih =>
    rw [HasBars, List.infix_cons_iff, not_or] at h
    rw [splitAtBars_cons h.1, ih h.2]
    rfl

/-- Two bars behind another character part what stands before them from what stands behind. -/
theorem splitAtBars_append (h : ¬ HasBars (cs ++ [c])) (hc : c ≠ '|') (more : List Char) :
    splitAtBars (cs ++ c :: '|' :: '|' :: more) = (cs ++ [c]) :: splitAtBars more := by
  induction cs with
  | nil =>
    rw [List.nil_append, splitAtBars_cons (by simp [Ne.symm hc]), splitAtBars]
    rfl
  | cons x cs ih =>
    rw [List.cons_append, HasBars, List.infix_cons_iff, not_or] at h
    rw [List.cons_append, splitAtBars_cons, ih h.2]
    · rfl
    · cases cs with
      | nil => simp [Ne.symm hc]
      | cons y cs => simpa using h.1

end

namespace Text

/-- The characters have no blanks at their two ends. -/
def IsTrimmed (cs : List Char) : Prop :=
  (∀ c ∈ cs.head?, isBlank c = false) ∧ ∀ c ∈ cs.getLast?, isBlank c = false

theorem trimBlanks_of_isTrimmed {cs : List Char} (h : IsTrimmed cs) : trimBlanks cs = cs := by
  have hdrop {xs : List Char} (hfirst : ∀ c ∈ xs.head?, isBlank c = false) :
      xs.dropWhile isBlank = xs := by
    cases xs with
    | nil => rfl
    | cons x xs => simp [hfirst x rfl]
  rw [trimBlanks, hdrop h.1, hdrop (by rw [List.head?_reverse]; exact h.2), List.reverse_reverse]

theorem isTrimmed_of_not {cs : List Char} (h : ∀ c ∈ cs, isBlank c = false) : IsTrimmed cs :=
  ⟨fun c hc => h c (List.mem_of_mem_head? hc), fun c hc => h c (List.mem_of_mem_getLast? hc)⟩

/-- What stands between two texts without blanks at their ends does not matter. -/
theorem IsTrimmed.append {xs ys : List Char} (hx : IsTrimmed xs) (hy : IsTrimmed ys)
    (hxne : xs ≠ []) (hyne : ys ≠ []) (cs : List Char) : IsTrimmed (xs ++ (cs ++ ys)) := by
  constructor
  · rw [List.head?_append_of_ne_nil _ hxne]
    exact hx.1
  · rw [List.getLast?_append_of_ne_nil _ (by simp [hyne]), List.getLast?_append_of_ne_nil _ hyne]
    exact hy.2

theorem isBlank_space : isBlank ' ' = true := by decide

/-- Blanks around do not matter to trimming. -/
theorem trimBlanks_append {front behind : List Char} (hfront : ∀ c ∈ front, isBlank c = true)
    (hbehind : ∀ c ∈ behind, isBlank c = true) (cs : List Char) :
    trimBlanks (front ++ (cs ++ behind)) = trimBlanks cs := by
  rw [trimBlanks, List.dropWhile_append_of_pos hfront, List.dropWhile_append, trimBlanks]
  split
  · rename_i hempty
    rw [List.isEmpty_iff.1 hempty, List.dropWhile_eq_nil_iff.2 hbehind]
  · rw [List.reverse_append,
      List.dropWhile_append_of_pos fun c hc => hbehind c (List.mem_reverse.1 hc)]

end Text

namespace Operand

variable {f : Form}

/-! ## Documented operands -/

namespace Form

/-- The operand is as documented: a path that no literal writes, with no blanks at its ends and no
bars to part it, or a literal. No brace that closes stands in a path or a text. -/
def IsDocumented : Form → Prop
  | path cs => (cs ≠ [] ∧ Text.IsTrimmed cs ∧ '\x7d' ∉ cs ∧ ¬ HasBars cs) ∧
      ∀ f : Form, f.IsLiteral → f.written ≠ cs
  | quoted quote content => (quote = '\'' ∨ quote = '"') ∧ '\x7d' ∉ content
  | f => f.IsLiteral

/-- The operand is read as it is written: no bars part it, and its digits are few enough. -/
def IsWhole (f : Form) : Prop := ¬ HasBars f.written ∧ f.IsShort

theorem IsDocumented.path_or_literal (h : f.IsDocumented) :
    (∃ cs, f = .path cs) ∨ f.IsLiteral := by
  cases f with
  | path cs => exact .inl ⟨cs, rfl⟩
  | quoted _ _ => exact .inr h.1
  | integer _ _ | decimal _ _ _ | truth _ | null | emptyList | emptyObject => exact .inr h

/-- What a documented operand is written with has no blanks at its ends. -/
theorem IsDocumented.trimmed (h : f.IsDocumented) :
    f.written ≠ [] ∧ Text.IsTrimmed f.written := by
  have hnumber (hf : f.IsLiteral) (hnumber : f.IsNumber) : Text.IsTrimmed f.written :=
    Text.isTrimmed_of_not fun c hc => (hf.isNumberChar hnumber c hc).not_blank
  cases f with
  | path cs => exact ⟨h.1.1, h.1.2.1⟩
  | quoted quote content =>
    have hquote : Text.isBlank quote = false := by
      obtain rfl | rfl := h.1 <;> decide
    refine ⟨List.cons_ne_nil _ _, ?_, ?_⟩
    · rintro c ⟨⟩
      exact hquote
    · rw [written, List.getLast?_concat]
      rintro c ⟨⟩
      exact hquote
  | integer negative digits =>
    refine ⟨?_, hnumber h trivial⟩
    cases negative with
    | true => exact List.cons_ne_nil _ _
    | false => exact h.1
  | decimal negative whole fraction =>
    refine ⟨?_, hnumber h trivial⟩
    cases negative <;> simp [written, Double.withSign]
  | truth b =>
    cases b <;> exact ⟨List.cons_ne_nil _ _, by simp [written, Text.IsTrimmed]; decide⟩
  | null | emptyList | emptyObject =>
    exact ⟨List.cons_ne_nil _ _, by simp [written, Text.IsTrimmed]; decide⟩

theorem IsDocumented.not_mem (h : f.IsDocumented) (hobject : f ≠ .emptyObject) :
    '\x7d' ∉ f.written := by
  have hclose : ¬ IsNumberChar '\x7d' := by
    simp only [IsNumberChar]
    decide
  cases f with
  | path cs => exact h.1.2.2.1
  | quoted quote content =>
    have hquote : '\x7d' ≠ quote := by
      rintro rfl
      exact absurd h.1 (by decide)
    simp [written, hquote, h.2]
  | integer _ _ | decimal _ _ _ =>
    have hliteral := h.path_or_literal.resolve_left (by simp)
    exact fun hmem => hclose (hliteral.isNumberChar trivial _ hmem)
  | truth b => cases b <;> decide
  | null | emptyList => decide
  | emptyObject => exact absurd rfl hobject

end Form

/-- Blanks around a documented operand do not matter to its value. -/
theorem value_written (h : f.IsDocumented) (hshort : f.IsShort) (context : Json)
    {front behind : List Char} (hfront : ∀ c ∈ front, Text.isBlank c = true)
    (hbehind : ∀ c ∈ behind, Text.isBlank c = true) :
    value context (front ++ (f.written ++ behind)) = f.meaning context := by
  have htrim : Text.trimBlanks (front ++ (f.written ++ behind)) = f.written := by
    rw [Text.trimBlanks_append hfront hbehind, Text.trimBlanks_of_isTrimmed h.trimmed.2]
  rw [value, htrim]
  obtain ⟨cs, rfl⟩ | hliteral := h.path_or_literal
  · rw [Form.written, literal?_eq_none h.2]
    rfl
  · obtain ⟨v, hv⟩ := hliteral.exists_value
    rw [literal?_of_isLiteral hliteral hshort context, hv]

/-! ## Chains -/

/-- The characters of operands in a row, with bars between them. -/
def chain (ops : List Form) : List Char := " || ".toList.intercalate (ops.map Form.written)

/-- The value of the first operand that is present, or the fault of an operand before it. -/
def choose (context : Json) : List Form → Except NumberFault (Option Json)
  | [] => .ok none
  | o :: rest =>
    match o.meaning context with
    | .error e => .error e
    | .ok v => if v.any isPresent then .ok v else choose context rest

/-- The operands up to the first that is present or at fault. -/
def reached (context : Json) : List Form → List Form
  | [] => []
  | o :: rest =>
    match o.meaning context with
    | .error _ => [o]
    | .ok v => if v.any isPresent then [o] else o :: reached context rest

variable {ops : List Form} {context : Json}

theorem mem_reached_cons (o : Form) (rest : List Form) : o ∈ reached context (o :: rest) := by
  rw [reached]
  split
  · exact List.mem_singleton_self o
  · split <;> exact List.mem_cons_self

theorem chain_singleton (o : Form) : chain [o] = o.written := List.append_nil _

theorem chain_cons_cons (o o' : Form) (rest : List Form) :
    chain (o :: o' :: rest) =
      o.written ++ ' ' :: '|' :: '|' :: ' ' :: chain (o' :: rest) := rfl

/-- The closing brace of an empty object is the only one that a chain may have. -/
theorem mem_chain (hdocumented : ∀ o ∈ ops, o.IsDocumented) :
    '\x7d' ∈ chain ops ↔ .emptyObject ∈ ops := by
  have hwritten {o : Form} (h : o.IsDocumented) : '\x7d' ∈ o.written ↔ .emptyObject = o := by
    constructor
    · intro hmem
      by_contra hobject
      exact h.not_mem (Ne.symm hobject) hmem
    · rintro rfl
      decide
  induction ops with
  | nil => simp [chain]
  | cons o rest ih =>
    rw [List.forall_mem_cons] at hdocumented
    have ih := ih hdocumented.2
    cases rest with
    | nil => rw [chain_singleton, hwritten hdocumented.1, List.mem_singleton]
    | cons o' rest =>
      rw [chain_cons_cons, List.mem_append, hwritten hdocumented.1, List.mem_cons (l := o' :: rest)]
      exact or_congr_right (Iff.trans (by simp) ih)

theorem trimmed_chain (hne : ops ≠ []) (hdocumented : ∀ o ∈ ops, o.IsDocumented) :
    chain ops ≠ [] ∧ Text.IsTrimmed (chain ops) := by
  induction ops with
  | nil => exact absurd rfl hne
  | cons o rest ih =>
    rw [List.forall_mem_cons] at hdocumented
    obtain ⟨hwritten, htrimmed⟩ := hdocumented.1.trimmed
    cases rest with
    | nil =>
      rw [chain_singleton]
      exact ⟨hwritten, htrimmed⟩
    | cons o' rest =>
      obtain ⟨hrest, htail⟩ := ih (List.cons_ne_nil _ _) hdocumented.2
      rw [chain_cons_cons]
      exact ⟨by simp, htrimmed.append htail hwritten hrest [' ', '|', '|', ' ']⟩

/-- A documented operand in front is taken if it is present. -/
theorem firstPresent_written {o : Form} (h : o.IsDocumented) (hshort : o.IsShort)
    {front behind : List Char} (hfront : ∀ c ∈ front, Text.isBlank c = true)
    (hbehind : ∀ c ∈ behind, Text.isBlank c = true) (parts : List (List Char)) :
    firstPresent context ((front ++ (o.written ++ behind)) :: parts) =
      match o.meaning context with
      | .error e => .error e
      | .ok v => if v.any isPresent then .ok v else firstPresent context parts := by
  rw [firstPresent, value_written h hshort context hfront hbehind]
  rcases o.meaning context with e | _ | v <;> rfl

/-- The first operand of a chain is split off if no bars part it. -/
theorem splitAtBars_chain {o o' : Form} {rest : List Form} {front : List Char}
    (h : ¬ HasBars (front ++ o.written)) :
    splitAtBars (front ++ chain (o :: o' :: rest)) =
      (front ++ (o.written ++ [' '])) :: splitAtBars ([' '] ++ chain (o' :: rest)) := by
  have hspace : ' ' ≠ '|' := by decide
  rw [chain_cons_cons, ← List.append_assoc, splitAtBars_append _ hspace, List.append_assoc]
  · rfl
  · exact fun hbars => h ((hasBars_concat hspace).1 hbars)

/-- The parts of a chain give the value of the first operand that is present. -/
theorem firstPresent_chain (hne : ops ≠ []) (hdocumented : ∀ o ∈ ops, o.IsDocumented)
    (hwhole : ∀ o ∈ reached context ops, o.IsWhole) {front : List Char}
    (hfront : front = [] ∨ front = [' ']) :
    firstPresent context (splitAtBars (front ++ chain ops)) = choose context ops := by
  induction ops generalizing front with
  | nil => exact absurd rfl hne
  | cons o rest ih =>
    rw [List.forall_mem_cons] at hdocumented
    obtain ⟨hbars, hshort⟩ := hwhole o (mem_reached_cons o rest)
    have hblank : ∀ c ∈ front, Text.isBlank c = true := by
      obtain rfl | rfl := hfront
      · simp
      · simpa using Text.isBlank_space
    have hparted : ¬ HasBars (front ++ o.written) := by
      obtain rfl | rfl := hfront
      · exact hbars
      · exact fun h => hbars ((hasBars_cons (by decide)).1 h)
    cases rest with
    | nil =>
      rw [chain_singleton, splitAtBars_of_not_hasBars hparted]
      have hvalue : firstPresent context ((front ++ (o.written ++ [])) :: []) = _ :=
        firstPresent_written hdocumented.1 hshort hblank (by simp) []
      rw [List.append_nil] at hvalue
      exact hvalue
    | cons o' rest =>
      have hspace : ∀ c ∈ [' '], Text.isBlank c = true := by simpa using Text.isBlank_space
      rw [splitAtBars_chain hparted, firstPresent_written hdocumented.1 hshort hblank hspace,
        choose]
      cases hmeaning : o.meaning context with
      | error e => rfl
      | ok v =>
        dsimp only
        split
        · rfl
        · rename_i hpresent
          refine ih (List.cons_ne_nil _ _) hdocumented.2 (fun x hx => hwhole x ?_) (.inr rfl)
          rw [reached, hmeaning]
          dsimp only
          rw [if_neg hpresent]
          exact List.mem_cons_of_mem o hx

/-- A chain of two or more operands is parted, and so it is no path as a whole. -/
theorem resolve_chain (hlen : 2 ≤ ops.length) (hdocumented : ∀ o ∈ ops, o.IsDocumented)
    (hwhole : ∀ o ∈ reached context ops, o.IsWhole) :
    resolve context (String.ofList (chain ops)) = choose context ops := by
  match ops, hlen with
  | o :: o' :: rest, _ =>
    have hchain := firstPresent_chain (List.cons_ne_nil _ _) hdocumented hwhole (.inl rfl)
    have hbars := (hwhole o (mem_reached_cons o _)).1
    rw [splitAtBars_chain hbars] at hchain
    have hparts : splitAtBars ([] ++ chain (o :: o' :: rest)) = _ := splitAtBars_chain hbars
    rw [List.nil_append] at hparts
    rw [resolve, String.toList_ofList, hparts, ← hchain]
    split
    · rename_i hone
      exact absurd (List.cons.inj hone).2 (splitAtBars_ne_nil _)
    · rfl

end Operand

namespace Template

open Operand (Form)

/-- A chain of two or more documented operands has the value of the first operand that is present,
by itself and as input for a tool: a value that is there and neither null nor the empty text. This
holds as long as the operands up to that one are read whole. A chain with an empty object among its
operands is no single placeholder and gives a filled text. -/
theorem fallbacks_follow {ops : List Form} (hlen : 2 ≤ ops.length)
    (hdocumented : ∀ o ∈ ops, o.IsDocumented) (c : Json) :
    let t := String.ofList (Piece.written (.placeholder (Operand.chain ops)))
    (.emptyObject ∉ ops → (∀ o ∈ Operand.reached c ops, o.IsWhole) →
      resolvePure (.string t) c = Operand.choose c ops ∧
        resolveData c (.string t) = Operand.choose c ops) ∧
    (.emptyObject ∈ ops → isPure t = false ∧
      resolvePure (.string t) c = (resolve t c).map fun s => some (.string s)) := by
  intro t
  have hne : ops ≠ [] := by
    rintro rfl
    simp at hlen
  obtain ⟨hchain, htrimmed⟩ := Operand.trimmed_chain hne hdocumented
  have hwritten : Text.trimBlanks t.toList = Piece.written (.placeholder (Operand.chain ops)) := by
    have hopen : Text.IsTrimmed ['\x7b', '\x7b'] := by simp [Text.IsTrimmed]; decide
    have hclose : Text.IsTrimmed ['\x7d', '\x7d'] := by simp [Text.IsTrimmed]; decide
    rw [String.toList_ofList]
    exact Text.trimBlanks_of_isTrimmed (hopen.append hclose (by simp) (by simp) _)
  constructor
  · intro hobject hwhole
    have hplaceholder : IsPlaceholder t (Operand.chain ops) :=
      ⟨hchain, fun hmem => hobject ((Operand.mem_chain hdocumented).1 hmem), hwritten⟩
    have hpure : resolvePure (.string t) c = Operand.choose c ops := by
      rw [hplaceholder.resolvePure_eq, Text.trimBlanks_of_isTrimmed htrimmed]
      exact Operand.resolve_chain hlen hdocumented hwhole
    exact ⟨hpure, hplaceholder.resolveData_eq.trans hpure⟩
  · intro hobject
    have hnone : ∀ body, ¬ IsPlaceholder t body := by
      rintro body ⟨-, hclose, hbody⟩
      obtain rfl : Operand.chain ops = body := by
        simpa [Piece.written] using hwritten.symm.trans hbody
      exact hclose ((Operand.mem_chain hdocumented).2 hobject)
    exact ⟨Bool.eq_false_iff.2 fun h => (isPure_iff.1 h).elim hnone,
      resolvePure_of_not_placeholder hnone⟩

/-- An age of zero is present, and so a text behind it is not reached, whatever bars it has. An
empty object at the end makes the text no single placeholder. -/
theorem fallbacks_follow_age :
    let c : Json := .object [("lead", .object [("nick", ""), ("age", 0)])]
    let age := "\x7b\x7blead.nick || null || lead.age || 'a || b'\x7d\x7d"
    let nick := "\x7b\x7blead.nick || \x7b\x7d\x7d\x7d"
    (resolvePure (.string age) c = .ok (some 0) ∧ resolveData c (.string age) = .ok (some 0)) ∧
      isPure nick = false := by
  intro c age nick
  let names : Form := .path "lead.nick".toList
  let ages : Form := .path "lead.age".toList
  have hpath {s : String} (hs : s ∈ ["lead.nick", "lead.age"]) :
      (Form.path s.toList).IsDocumented := by
    have hstart : ∀ cs : List Char, ∀ f : Form, f.IsLiteral → f.written ≠ 'l' :: cs := fun cs =>
      Form.written_ne (by simp only [IsNumberChar]; decide) (by decide)
    simp only [List.mem_cons, List.not_mem_nil, or_false] at hs
    obtain rfl | rfl := hs
    all_goals
      refine ⟨⟨by decide, ?_, by decide, by decide⟩, hstart _⟩
      simp [Text.IsTrimmed]
      decide
  let ops : List Form := [names, .null, ages, .quoted '\'' "a || b".toList]
  have hdocumented : ∀ o ∈ ops, o.IsDocumented := by
    simp only [ops, List.forall_mem_cons]
    exact ⟨hpath (by simp), trivial, hpath (by simp), ⟨.inl rfl, by decide⟩, by simp⟩
  have htext : String.ofList (Piece.written (.placeholder (Operand.chain ops))) = age := by
    decide +kernel
  have hchosen : Operand.choose c ops = .ok (some 0) := by rfl
  have hreached : Operand.reached c ops = [names, .null, ages] := by rfl
  have hlen : 2 ≤ ops.length := by decide
  obtain ⟨hvalue, -⟩ := fallbacks_follow hlen hdocumented c
  rw [htext, hchosen, hreached] at hvalue
  have hobject : .emptyObject ∉ ops := by simp [ops, names, ages]
  refine ⟨hvalue hobject ?_, ?_⟩
  · simp only [List.forall_mem_cons]
    exact ⟨⟨by decide, trivial⟩, ⟨by decide, trivial⟩, ⟨by decide, trivial⟩, by simp⟩
  · have htext : String.ofList
        (Piece.written (.placeholder (Operand.chain [names, .emptyObject]))) = nick := by
      decide +kernel
    have hdocumented : ∀ o ∈ [names, .emptyObject], o.IsDocumented := by
      simp only [List.forall_mem_cons]
      exact ⟨hpath (by simp), trivial, by simp⟩
    have hlen : 2 ≤ [names, .emptyObject].length := by decide
    obtain ⟨-, hnone⟩ := fallbacks_follow hlen hdocumented c
    rw [htext] at hnone
    exact (hnone (by simp)).1

end Template

end LeadDesk
