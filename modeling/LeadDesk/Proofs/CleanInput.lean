import LeadDesk.Proofs.Placeholders
import LeadDesk.Proofs.Quoting
import Mathlib.Data.List.Forall2
import Mathlib.Data.List.Infix
/-!
# The input that a tool gets

A structure that is filled as input for a tool keeps its shape (`Template.Fills`): a field goes
only with a placeholder that has no value, and such an item of a list becomes null. Where the
texts of the structure have no braces but those of whole placeholders, and the context has none,
no placeholder is left in the result and none is made by what is put next to each other
(`Template.clean_input`): braces then come from JSON text alone, where an opening brace is never
followed by another (`OpensApart`).
-/

namespace LeadDesk

/-! ## Texts in which no two braces open together -/

/-- Every opening brace is followed by a character that is not one. -/
inductive OpensApart : List Char → Prop
  | nil : OpensApart []
  | cons {c : Char} {cs : List Char}
      (h : c = '\x7b' → ∃ d more, cs = d :: more ∧ d ≠ '\x7b') (hcs : OpensApart cs) :
      OpensApart (c :: cs)

namespace OpensApart

theorem append {xs ys : List Char} (hx : OpensApart xs) (hy : OpensApart ys) :
    OpensApart (xs ++ ys) := by
  induction hx with
  | nil => exact hy
  | cons h _ ih =>
    refine .cons (fun hc => ?_) ih
    obtain ⟨d, more, rfl, hd⟩ := h hc
    exact ⟨d, more ++ ys, rfl, hd⟩

theorem of_not_mem {cs : List Char} (h : '\x7b' ∉ cs) : OpensApart cs := by
  induction cs with
  | nil => exact .nil
  | cons c cs ih =>
    simp only [List.mem_cons, not_or] at h
    exact .cons (fun hc => absurd hc.symm h.1) (ih h.2)

theorem of_suffix {xs ys : List Char} (hy : OpensApart ys) (h : xs <:+ ys) : OpensApart xs := by
  obtain ⟨front, rfl⟩ := h
  induction front with
  | nil => exact hy
  | cons c front ih =>
    cases hy with
    | cons _ hcs => exact ih hcs

theorem joined {x y : String} (hx : OpensApart x.toList) (hy : OpensApart y.toList) :
    OpensApart (x ++ y).toList := by
  rw [String.toList_append]
  exact hx.append hy

/-- No placeholder stands in front. -/
theorem placeholder?_eq_none {cs : List Char} (h : OpensApart cs) :
    Template.placeholder? cs = none := by
  refine Option.eq_none_iff_forall_ne_some.2 fun body hbody => ?_
  obtain ⟨-, -, more, rfl⟩ := Template.placeholder?_eq_some.1 hbody
  cases h with
  | cons h _ =>
    obtain ⟨d, rest, heq, hd⟩ := h rfl
    exact hd (List.cons.inj heq).1.symm

end OpensApart

/-! ## Text of values -/

namespace Text

theorem brace_not_mem_toDigits (base n : Nat) : '\x7b' ∉ Nat.toDigits base n := by
  have hdigit : ∀ k, Nat.digitChar k ≠ '\x7b' := fun k => by
    have hsmall : ∀ k < 16, Nat.digitChar k ≠ '\x7b' := by decide
    by_cases hk : k < 16
    · exact hsmall k hk
    · have hother : Nat.digitChar k = '*' := by
        unfold Nat.digitChar
        repeat rw [if_neg (by omega)]
      rw [hother]
      decide
  have hcore : ∀ fuel n ds, '\x7b' ∉ ds → '\x7b' ∉ Nat.toDigitsCore base fuel n ds := by
    intro fuel
    induction fuel with
    | zero => exact fun _ _ h => h
    | succ fuel ih =>
      intro n ds h
      have hcons : '\x7b' ∉ Nat.digitChar (n % base) :: ds :=
        List.not_mem_cons_of_ne_of_not_mem (hdigit _).symm h
      rw [Nat.toDigitsCore]
      split
      · exact hcons
      · exact ih _ _ hcons
  exact hcore _ _ _ List.not_mem_nil

theorem brace_not_mem_hexDigits (width n : Nat) : '\x7b' ∉ hexDigits width n := by
  rw [hexDigits, List.mem_append, not_or]
  refine ⟨fun h => ?_, brace_not_mem_toDigits 16 n⟩
  exact absurd (List.eq_of_mem_replicate h) (by decide)

theorem brace_not_mem_int (n : Int) : '\x7b' ∉ (toString n).toList := by
  change '\x7b' ∉ (Int.repr n).toList
  cases n with
  | ofNat n =>
    rw [Int.repr, Nat.toList_repr]
    exact brace_not_mem_toDigits 10 n
  | negSucc n =>
    rw [Int.repr, String.toList_append, List.mem_append, not_or, Nat.toList_repr]
    exact ⟨by decide, brace_not_mem_toDigits 10 _⟩

end Text

namespace Double

theorem brace_not_mem_layout {digits : List Char} (h : '\x7b' ∉ digits) (place : Int) :
    '\x7b' ∉ layout digits place := by
  have htake : ∀ k, '\x7b' ∉ digits.take k := fun k hmem => h (List.mem_of_mem_take hmem)
  have hdrop : ∀ k, '\x7b' ∉ digits.drop k := fun k hmem => h (List.mem_of_mem_drop hmem)
  have hzeros : ∀ k, '\x7b' ∉ List.replicate k '0' := fun k hmem =>
    absurd (List.eq_of_mem_replicate hmem) (by decide)
  have hsize := Text.brace_not_mem_toDigits 10 (place - 1).natAbs
  unfold layout
  split
  · split
    · split
      · simp [h]
      · split <;> simp [h, hzeros, htake, hdrop]
    · simp [h, hzeros]
  · dsimp only
    generalize Nat.toDigits 10 (place - 1).natAbs = size at hsize ⊢
    have hrest := hdrop 1
    simp only [List.mem_append, List.mem_cons, not_or]
    refine ⟨⟨htake 1, ?_⟩, by decide, ?_, ?_⟩
    · split
      · exact List.not_mem_nil
      · exact List.not_mem_cons_of_ne_of_not_mem (by decide) hrest
    · split <;> decide
    · split
      · exact List.not_mem_cons_of_ne_of_not_mem (by decide) hsize
      · exact hsize

theorem brace_not_mem_text (d : Double) : '\x7b' ∉ d.text.toList := by
  cases d with
  | nan => decide
  | infinity negative => cases negative <;> decide
  | finite negative significand unit =>
    have hbody : '\x7b' ∉ (if significand = 0 then ['0', '.', '0'] else
        layout (trimZeros (Nat.toDigits 10 (shortest significand unit).digits))
          ((shortest significand unit).exponent +
            (Nat.toDigits 10 (shortest significand unit).digits).length)) := by
      split
      · decide
      · refine brace_not_mem_layout (fun hmem => ?_) _
        rw [trimZeros, List.mem_reverse] at hmem
        exact Text.brace_not_mem_toDigits _ _
          (List.mem_reverse.1 ((List.dropWhile_sublist _).subset hmem))
    rw [text, String.toList_ofList]
    dsimp only
    split
    · exact List.not_mem_cons_of_ne_of_not_mem (by decide) hbody
    · exact hbody

end Double

namespace Json

mutual

/-- The texts of a value, at any depth. -/
def texts : Json → List String
  | string s => [s]
  | array items => itemTexts items
  | object fields => fieldTexts fields
  | _ => []

/-- The texts in the items of a list. -/
def itemTexts : List Json → List String
  | [] => []
  | v :: rest => texts v ++ itemTexts rest

/-- The texts in the values of an object. -/
def fieldTexts : List (String × Json) → List String
  | [] => []
  | (_, v) :: rest => texts v ++ fieldTexts rest

end

mutual

/-- The keys of the objects of a value, at any depth. -/
def names : Json → List String
  | array items => itemNames items
  | object fields => fieldNames fields
  | _ => []

/-- The keys in the items of a list. -/
def itemNames : List Json → List String
  | [] => []
  | v :: rest => names v ++ itemNames rest

/-- The keys of an object and of its values. -/
def fieldNames : List (String × Json) → List String
  | [] => []
  | (key, v) :: rest => key :: names v ++ fieldNames rest

end

/-- No text and no key of the value has an opening brace. -/
def NoneOpens (v : Json) : Prop := ∀ s ∈ v.texts ++ v.names, '\x7b' ∉ s.toList

theorem noneOpens_array_cons {v : Json} {rest : List Json} :
    NoneOpens (.array (v :: rest)) ↔ NoneOpens v ∧ NoneOpens (.array rest) := by
  simp only [NoneOpens, texts, names, itemTexts, itemNames, List.mem_append]
  grind

theorem noneOpens_object_cons {key : String} {v : Json} {rest : List (String × Json)} :
    NoneOpens (.object ((key, v) :: rest)) ↔
      '\x7b' ∉ key.toList ∧ NoneOpens v ∧ NoneOpens (.object rest) := by
  simp only [NoneOpens, texts, names, fieldTexts, fieldNames, List.mem_append, List.mem_cons]
  grind

theorem brace_not_mem_printText {s : String} (h : '\x7b' ∉ s.toList) :
    '\x7b' ∉ (printText s).toList := by
  have hunit : ∀ n, '\x7b' ∉ unitEscape n := fun n => by
    rw [unitEscape]
    exact List.not_mem_cons_of_ne_of_not_mem (by decide)
      (List.not_mem_cons_of_ne_of_not_mem (by decide) (Text.brace_not_mem_hexDigits 4 n))
  have hchar : ∀ c ∈ s.toList, '\x7b' ∉ escapeChar c := by
    intro c hc
    have hne : '\x7b' ≠ c := fun heq => h (heq ▸ hc)
    unfold escapeChar
    repeat' split
    all_goals simp [hunit, hne]
  have hbody : '\x7b' ∉ s.toList.flatMap escapeChar := fun hmem => by
    obtain ⟨c, hc, hin⟩ := List.mem_flatMap.1 hmem
    exact hchar c hc hin
  rw [printText, String.toList_ofList]
  exact List.not_mem_append (List.not_mem_cons_of_ne_of_not_mem (by decide) hbody) (by decide)

theorem brace_not_mem_printFloat (d : Double) : '\x7b' ∉ (printFloat d).toList := by
  cases d with
  | nan => decide
  | infinity negative => cases negative <;> decide
  | finite negative significand unit => exact Double.brace_not_mem_text _

/-- Behind the brace that opens an object stands the quote of a key, or the brace that closes it. -/
theorem printFields_starts (style : Separators) (fields : List (String × Json)) :
    ∃ d more, (printFields style fields ++ "\x7d").toList = d :: more ∧ d ≠ '\x7b' := by
  have hkey : ∀ key, (printText key).toList = '"' :: (key.toList.flatMap escapeChar ++ ['"']) :=
    fun key => by rw [printText, String.toList_ofList, List.cons_append]
  match fields with
  | [] => exact ⟨'\x7d', [], by simp [printFields], by decide⟩
  | [(key, v)] =>
    simp only [printFields, String.toList_append, hkey]
    exact ⟨'"', _, rfl, by decide⟩
  | (key, v) :: f :: rest =>
    simp only [printFields, String.toList_append, hkey]
    exact ⟨'"', _, rfl, by decide⟩

mutual

/-- In JSON text without blanks no two braces open together. -/
theorem opensApart_print : (v : Json) → NoneOpens v → OpensApart (print tight v).toList
  | null, _ => .of_not_mem (by simp [print])
  | bool b, _ => .of_not_mem (by cases b <;> simp [print])
  | int n, _ => .of_not_mem (Text.brace_not_mem_int n)
  | float d, _ => .of_not_mem (brace_not_mem_printFloat d)
  | string s, h => .of_not_mem (brace_not_mem_printText (h s (by simp [texts])))
  | array items, h => by
    have hopen : OpensApart "[".toList := .of_not_mem (by simp)
    have hclose : OpensApart "]".toList := .of_not_mem (by simp)
    rw [print]
    exact (hopen.joined (opensApart_printItems items h)).joined hclose
  | object fields, h => by
    have hclose : OpensApart "\x7d".toList := .of_not_mem (by simp)
    have hfields := (opensApart_printFields fields h).joined hclose
    have hopen : "\x7b".toList = ['\x7b'] := by simp
    rw [print, String.append_assoc, String.toList_append, hopen]
    exact .cons (fun _ => printFields_starts tight fields) hfields

theorem opensApart_printItems : (items : List Json) → NoneOpens (.array items) →
    OpensApart (printItems tight items).toList
  | [], _ => .of_not_mem (by simp [printItems])
  | v :: rest, h => by
    obtain ⟨hv, hrest⟩ := noneOpens_array_cons.1 h
    have hv := opensApart_print v hv
    have hrest := opensApart_printItems rest hrest
    have hcomma : OpensApart tight.item.toList := .of_not_mem (by simp [tight])
    cases rest with
    | nil =>
      rw [printItems]
      exact hv
    | cons w rest =>
      rw [printItems]
      exact (hv.joined hcomma).joined hrest

theorem opensApart_printFields : (fields : List (String × Json)) → NoneOpens (.object fields) →
    OpensApart (printFields tight fields).toList
  | [], _ => .of_not_mem (by simp [printFields])
  | (key, v) :: rest, h => by
    obtain ⟨hkey, hv, hrest⟩ := noneOpens_object_cons.1 h
    have hrest := opensApart_printFields rest hrest
    have hkey : OpensApart (printText key).toList :=
      .of_not_mem (brace_not_mem_printText hkey)
    have hcolon : OpensApart tight.field.toList := .of_not_mem (by simp [tight])
    have hcomma : OpensApart tight.item.toList := .of_not_mem (by simp [tight])
    have hfield := (hkey.joined hcolon).joined (opensApart_print v hv)
    cases rest with
    | nil =>
      rw [printFields]
      exact hfield
    | cons f rest =>
      rw [printFields]
      exact (hfield.joined hcomma).joined hrest

end

theorem noneOpens_of_mem {items : List Json} {v : Json} (h : NoneOpens (.array items))
    (hv : v ∈ items) : NoneOpens v := by
  induction items with
  | nil => cases hv
  | cons w rest ih =>
    obtain ⟨hw, hrest⟩ := noneOpens_array_cons.1 h
    obtain rfl | hv := List.mem_cons.1 hv
    · exact hw
    · exact ih hrest hv

theorem noneOpens_of_get? {fields : Fields} {key : String} {v : Json}
    (h : NoneOpens (.object fields)) (hv : fields.get? key = some v) : NoneOpens v := by
  induction fields with
  | nil => cases hv
  | cons f rest ih =>
    obtain ⟨-, hf, hrest⟩ := noneOpens_object_cons.1 h
    rw [Fields.get?] at hv
    split at hv
    · exact Option.some.inj hv ▸ hf
    · exact ih hrest hv

theorem noneOpens_int (n : Int) : NoneOpens (.int n) := by simp [NoneOpens, texts, names]

theorem noneOpens_string {s : String} (h : '\x7b' ∉ s.toList) : NoneOpens (.string s) := by
  simpa [NoneOpens, texts, names] using h

end Json

open Json (NoneOpens)

/-! ## What placeholders stand for -/

/-- What a path leads to is part of the context, or a size. -/
theorem Path.noneOpens_walk {segments : List String} {value : Option Json} {v : Json}
    (hvalue : ∀ w ∈ value, NoneOpens w) (h : walk value segments = .ok (some v)) :
    NoneOpens v :=
  holds_of_walk (P := NoneOpens) (fun _ _ _ => Json.noneOpens_of_get?)
    (fun _ _ => Json.noneOpens_of_mem) (fun n => Json.noneOpens_int n) hvalue h

theorem mem_of_mem_splitAtBars {cs part : List Char} {c : Char} (hpart : part ∈ splitAtBars cs)
    (hc : c ∈ part) : c ∈ cs := by
  fun_induction splitAtBars cs generalizing part with
  | case1 =>
    obtain rfl := List.mem_singleton.1 hpart
    exact hc
  | case2 rest ih =>
    obtain rfl | hpart := List.mem_cons.1 hpart
    · cases hc
    · exact List.mem_cons_of_mem _ (List.mem_cons_of_mem _ (ih hpart hc))
  | case3 x rest hbar hsplit ih =>
    obtain rfl := List.mem_singleton.1 hpart
    exact List.mem_cons.2 (.inl (List.mem_singleton.1 hc))
  | case4 x rest hbar first parts hsplit ih =>
    rw [hsplit] at ih
    obtain rfl | hpart := List.mem_cons.1 hpart
    · obtain rfl | hc := List.mem_cons.1 hc
      · exact List.mem_cons_self
      · exact List.mem_cons_of_mem _ (ih List.mem_cons_self hc)
    · exact List.mem_cons_of_mem _ (ih (List.mem_cons_of_mem _ hpart) hc)

theorem Text.mem_of_mem_trimBlanks {cs : List Char} {c : Char} (h : c ∈ trimBlanks cs) :
    c ∈ cs := by
  obtain ⟨front, behind, -, hcs⟩ := Template.exists_blanks_around cs
  rw [hcs]
  exact List.mem_append_left _ (List.mem_append_right _ h)

namespace Operand

variable {c : Json} (hc : NoneOpens c)

/-- A literal is made of the characters that write it. -/
theorem noneOpens_literal? {cs : List Char} {v : Json} (hcs : '\x7b' ∉ cs)
    (h : literal? cs = .ok (some v)) : NoneOpens v := by
  -- all literals but a quoted text have no text in them
  have hplain : ∀ {w : Json}, w.texts ++ w.names = [] → NoneOpens w := fun hw s hs =>
    absurd (hw ▸ hs) List.not_mem_nil
  unfold literal? at h
  split at h
  · cases h
  · rename_i quote rest
    split at h
    · cases h
      refine Json.noneOpens_string fun hmem => hcs ?_
      rw [String.toList_ofList] at hmem
      exact List.mem_cons_of_mem _ (List.mem_of_mem_dropLast hmem)
    · iterate 5
        split at h
        · cases h
          exact hplain rfl
      dsimp only at h
      generalize (if quote == '-' then rest else quote :: rest) = unsigned at h
      split at h
      · cases h
      · split at h
        · obtain ⟨n, -, hn⟩ := Condition.exists_of_map_eq_ok h
          cases hn
          exact hplain rfl
        · split at h
          · obtain ⟨d, -, rfl⟩ := Option.map_eq_some_iff.1 (Except.ok.inj h)
            exact hplain rfl
          · cases h
        · cases h

include hc

/-- What a placeholder without braces stands for has none, where the context has none. -/
theorem noneOpens_resolve {body : List Char} {v : Json} (hbody : '\x7b' ∉ body)
    (h : resolve c (String.ofList (Text.trimBlanks body)) = .ok (some v)) : NoneOpens v := by
  refine holds_of_resolve (P := NoneOpens) (fun _ v hv => ?_) (fun part hpart v hv => ?_) h
  · exact Path.noneOpens_walk (fun w hw => Option.mem_some.1 hw ▸ hc) hv
  · refine noneOpens_literal? (fun hmem => hbody ?_) hv
    rw [String.toList_ofList] at hpart
    exact Text.mem_of_mem_trimBlanks
      (mem_of_mem_splitAtBars hpart (Text.mem_of_mem_trimBlanks hmem))

end Operand

/-! ## Filled texts -/

namespace Template

/-- A character that is no brace, or a placeholder with no brace between its own. -/
def Piece.IsPlain : Piece → Prop
  | char c => c ≠ '\x7b' ∧ c ≠ '\x7d'
  | placeholder body => body ≠ [] ∧ '\x7b' ∉ body ∧ '\x7d' ∉ body

/-- All braces of the text belong to placeholders that have no braces between their own. -/
def WellBraced (s : String) : Prop :=
  ∃ ps : List Piece, (∀ p ∈ ps, p.IsPlain) ∧ s.toList = ps.flatMap Piece.written

/-- A text that is written by plain pieces has these pieces. -/
theorem piecesAfter_written {ps : List Piece} (h : ∀ p ∈ ps, p.IsPlain) :
    piecesAfter 0 (ps.flatMap Piece.written) = ps := by
  induction ps with
  | nil => rfl
  | cons p ps ih =>
    have ih := ih fun q hq => h q (List.mem_cons_of_mem _ hq)
    have hp := h p List.mem_cons_self
    rw [List.flatMap_cons]
    cases p with
    | char c =>
      rw [Piece.written, List.cons_append, List.nil_append, piecesAfter_cons_of_ne hp.1, ih]
    | placeholder body => rw [piecesAfter_placeholder hp.1 hp.2.2, ih]

theorem wellBraced_iff {s : String} : WellBraced s ↔ ∀ p ∈ pieces s, p.IsPlain := by
  constructor
  · rintro ⟨ps, hps, hs⟩
    rw [pieces, hs, piecesAfter_written hps]
    exact hps
  · exact fun h => ⟨pieces s, h, (flatMap_written_pieces s).symm⟩

instance : (p : Piece) → Decidable p.IsPlain
  | .char c => inferInstanceAs (Decidable (c ≠ '\x7b' ∧ c ≠ '\x7d'))
  | .placeholder body => inferInstanceAs (Decidable (body ≠ [] ∧ '\x7b' ∉ body ∧ '\x7d' ∉ body))

instance (s : String) : Decidable (WellBraced s) := decidable_of_iff _ wellBraced_iff.symm

variable {c : Json}

theorem opensApart_render {v : Json} (hv : NoneOpens v) : OpensApart (render v).toList := by
  cases v with
  | null => exact .of_not_mem (by simp [render])
  | bool b => exact .of_not_mem (by cases b <;> simp [render])
  | int n => exact .of_not_mem (Text.brace_not_mem_int n)
  | float d =>
    rw [render]
    split
    · exact .of_not_mem (Text.brace_not_mem_int _)
    · exact .of_not_mem (Double.brace_not_mem_text d)
  | string s => exact .of_not_mem (hv s (by simp [Json.texts]))
  | array items => exact Json.opensApart_print (.array items) hv
  | object fields => exact Json.opensApart_print (.object fields) hv

theorem opensApart_dropMissing {v : Option Json} (hv : ∀ w ∈ v, NoneOpens w)
    (written : List Char) : OpensApart (dropMissing v written) := by
  unfold dropMissing
  split
  · exact .nil
  · exact .nil
  · exact opensApart_render (hv _ rfl)

/-- What is put together from the characters of a text and from what its placeholders stand for
has no two braces that open together. -/
theorem opensApart_fill (hc : NoneOpens c) {ps : List Piece} (hps : ∀ p ∈ ps, p.IsPlain)
    {cs : List Char} (h : fill dropMissing c ps = .ok cs) : OpensApart cs := by
  induction ps generalizing cs with
  | nil =>
    cases h
    exact .nil
  | cons p ps ih =>
    have ih : ∀ {ds}, fill dropMissing c ps = .ok ds → OpensApart ds :=
      ih fun q hq => hps q (List.mem_cons_of_mem _ hq)
    have hp := hps p List.mem_cons_self
    cases p with
    | char x =>
      obtain ⟨ds, hds, rfl⟩ := Condition.exists_of_map_eq_ok h
      exact .cons (fun hx => absurd hx hp.1) (ih hds)
    | placeholder body =>
      rw [fill] at h
      split at h
      · cases h
      · rename_i v hv
        obtain ⟨ds, hds, rfl⟩ := Condition.exists_of_map_eq_ok h
        refine (opensApart_dropMissing (fun w hw => ?_) _).append (ih hds)
        obtain rfl := Option.mem_def.1 hw
        unfold valueOf at hv
        split at hv
        · cases hv
        · rename_i u hu
          split at hv
          · cases hv
            exact Operand.noneOpens_resolve hc hp.2.1 hu
          · cases hv

mutual

/-- No two braces open together in the texts of a filled structure. -/
theorem opensApart_resolveData (hc : NoneOpens c) : (t : Json) →
    (∀ s ∈ t.texts, WellBraced s) → ∀ {v : Json}, resolveData c t = .ok (some v) →
    ∀ s ∈ v.texts, OpensApart s.toList
  | .string s, ht, v, h => by
    have hs := wellBraced_iff.1 (ht s (by simp [Json.texts]))
    rw [resolveData] at h
    split at h
    · cases h
    · rename_i w hw
      cases h
      unfold pureValue? at hw
      split at hw
      · rename_i body hbody
        obtain ⟨u, hu, heq⟩ := Condition.exists_of_map_eq_ok hw
        cases heq
        have hopen := (hs _ (mem_pieces_of_pureBody? hbody)).2.1
        exact fun s hs => .of_not_mem
          (Operand.noneOpens_resolve hc hopen hu s (List.mem_append_left _ hs))
      · cases hw
    · obtain ⟨cs, hcs, heq⟩ := Condition.exists_of_map_eq_ok h
      cases heq
      intro s' hs'
      obtain rfl := List.mem_singleton.1 hs'
      rw [String.toList_ofList]
      exact opensApart_fill hc hs hcs
  | .array items, ht, v, h => by
    rw [resolveData] at h
    obtain ⟨values, hvalues, heq⟩ := Condition.exists_of_map_eq_ok h
    cases heq
    exact opensApart_resolveItems hc items ht hvalues
  | .object fields, ht, v, h => by
    rw [resolveData] at h
    obtain ⟨values, hvalues, heq⟩ := Condition.exists_of_map_eq_ok h
    cases heq
    exact opensApart_resolveFields hc fields ht hvalues
  | .null, _, _, h | .bool _, _, _, h | .int _, _, _, h | .float _, _, _, h => by
    cases h
    exact fun s hs => absurd hs List.not_mem_nil

theorem opensApart_resolveItems (hc : NoneOpens c) : (items : List Json) →
    (∀ s ∈ Json.itemTexts items, WellBraced s) → ∀ {values : List Json},
    resolveItems c items = .ok values → ∀ s ∈ Json.itemTexts values, OpensApart s.toList
  | [], _, _, h => by
    cases h
    exact fun s hs => absurd hs List.not_mem_nil
  | item :: rest, ht, values, h => by
    rw [Json.itemTexts, List.forall_mem_append] at ht
    rw [resolveItems] at h
    split at h
    · cases h
    · rename_i v hv
      obtain ⟨vs, hvs, rfl⟩ := Condition.exists_of_map_eq_ok h
      rw [Json.itemTexts, List.forall_mem_append]
      refine ⟨?_, opensApart_resolveItems hc rest ht.2 hvs⟩
      cases v with
      | none => exact fun s hs => absurd hs List.not_mem_nil
      | some w => exact opensApart_resolveData hc item ht.1 hv

theorem opensApart_resolveFields (hc : NoneOpens c) : (fields : List (String × Json)) →
    (∀ s ∈ Json.fieldTexts fields, WellBraced s) → ∀ {values : List (String × Json)},
    resolveFields c fields = .ok values → ∀ s ∈ Json.fieldTexts values, OpensApart s.toList
  | [], _, _, h => by
    cases h
    exact fun s hs => absurd hs List.not_mem_nil
  | (key, t) :: rest, ht, values, h => by
    rw [Json.fieldTexts, List.forall_mem_append] at ht
    rw [resolveFields] at h
    split at h
    · cases h
    · rename_i v hv
      obtain ⟨vs, hvs, rfl⟩ := Condition.exists_of_map_eq_ok h
      rw [Json.fieldTexts, List.forall_mem_append]
      exact ⟨opensApart_resolveData hc t ht.1 hv, opensApart_resolveFields hc rest ht.2 hvs⟩
    · exact opensApart_resolveFields hc rest ht.2 h

end

/-! ## Filled structures -/

/-- The template is a single placeholder, and it has no value. -/
def misses (context : Json) : Json → Bool
  | .string s =>
    match pureBody? s with
    | some body =>
      match Operand.resolve context (String.ofList (Text.trimBlanks body)) with
      | .ok none => true
      | _ => false
    | none => false
  | _ => false

/-- The value has the shape of the template. A list has the items of the template in their places,
with null for those that miss. An object has the keys of the template in their order, without
those whose values miss. A single placeholder gives the value that it stands for, another text is
filled, and all other values are unchanged. -/
inductive Fills (context : Json) : Json → Json → Prop
  | value {s : String} {body : List Char} {v : Json} (hpure : pureBody? s = some body)
      (h : Operand.resolve context (String.ofList (Text.trimBlanks body)) = .ok (some v)) :
      Fills context (.string s) v
  | text {s : String} {cs : List Char} (hpure : pureBody? s = none)
      (h : fill dropMissing context (pieces s) = .ok cs) :
      Fills context (.string s) (.string (String.ofList cs))
  | array {items values : List Json} (hlength : values.length = items.length)
      (hmiss : ∀ t v, (t, v) ∈ items.zip values → misses context t = true → v = .null)
      (h : ∀ t v, (t, v) ∈ items.zip values → misses context t = false → Fills context t v) :
      Fills context (.array items) (.array values)
  | object {fields values : Fields}
      (hkeys : values.keys = Fields.keys (fields.filter fun f => !misses context f.2))
      (h : ∀ f g, (f, g) ∈ (fields.filter fun f => !misses context f.2).zip values →
        Fills context f.2 g.2) :
      Fills context (.object fields) (.object values)
  | null : Fills context .null .null
  | bool (b : Bool) : Fills context (.bool b) (.bool b)
  | int (n : Int) : Fills context (.int n) (.int n)
  | float (d : Double) : Fills context (.float d) (.float d)

/-- What becomes of an item of a list. -/
def ItemFills (context t v : Json) : Prop :=
  (misses context t = true → v = .null) ∧ (misses context t = false → Fills context t v)

/-- What becomes of a field of an object, unless it misses. -/
def FieldFills (context : Json) (f g : String × Json) : Prop := g.1 = f.1 ∧ Fills context f.2 g.2

theorem keys_eq_of_forall₂ {fields values : Fields}
    (h : List.Forall₂ (FieldFills c) fields values) : values.keys = fields.keys := by
  induction h with
  | nil => rfl
  | cons hfield _ ih =>
    rw [Fields.keys, Fields.keys, List.map_cons, List.map_cons, hfield.1]
    exact congrArg _ ih

/-- What is known of a structure that is filled without a fault. -/
def Filled (context t : Json) : Option Json → Prop
  | none => misses context t = true
  | some v => misses context t = false ∧ Fills context t v

mutual

theorem filled_resolveData : (t : Json) → ∀ {r : Option Json}, resolveData c t = .ok r →
    Filled c t r
  | .string s, r, h => by
    rw [resolveData] at h
    unfold pureValue? at h
    cases hbody : pureBody? s with
    | none =>
      simp only [hbody] at h
      obtain ⟨cs, hcs, rfl⟩ := Condition.exists_of_map_eq_ok h
      exact ⟨by simp [misses, hbody], .text hbody hcs⟩
    | some body =>
      simp only [hbody] at h
      cases hvalue : Operand.resolve c (String.ofList (Text.trimBlanks body)) with
      | error e =>
        simp only [hvalue] at h
        cases h
      | ok u =>
        simp only [hvalue] at h
        obtain rfl : u = r := Except.ok.inj h
        cases u with
        | none => simp [Filled, misses, hbody, hvalue]
        | some v => exact ⟨by simp [misses, hbody, hvalue], .value hbody hvalue⟩
  | .array items, r, h => by
    obtain ⟨values, hvalues, rfl⟩ := Condition.exists_of_map_eq_ok h
    have hitems := filled_resolveItems items hvalues
    exact ⟨rfl, .array hitems.length_eq.symm
      (fun t v hmem => (List.forall₂_zip hitems hmem).1)
      (fun t v hmem => (List.forall₂_zip hitems hmem).2)⟩
  | .object fields, r, h => by
    obtain ⟨values, hvalues, rfl⟩ := Condition.exists_of_map_eq_ok h
    have hfields := filled_resolveFields fields hvalues
    exact ⟨rfl, .object (keys_eq_of_forall₂ hfields)
      (fun f g hmem => (List.forall₂_zip hfields hmem).2)⟩
  | .null, _, h => by
    cases h
    exact ⟨rfl, .null⟩
  | .bool b, _, h => by
    cases h
    exact ⟨rfl, .bool b⟩
  | .int n, _, h => by
    cases h
    exact ⟨rfl, .int n⟩
  | .float d, _, h => by
    cases h
    exact ⟨rfl, .float d⟩

theorem filled_resolveItems : (items : List Json) → ∀ {values : List Json},
    resolveItems c items = .ok values → List.Forall₂ (ItemFills c) items values
  | [], _, h => by
    cases h
    exact .nil
  | item :: rest, values, h => by
    rw [resolveItems] at h
    split at h
    · cases h
    · rename_i v hv
      obtain ⟨vs, hvs, rfl⟩ := Condition.exists_of_map_eq_ok h
      refine .cons ?_ (filled_resolveItems rest hvs)
      have hitem := filled_resolveData item hv
      cases v with
      | none => exact ⟨fun _ => rfl, fun hhit => absurd hitem (by simp [Filled, hhit])⟩
      | some w => exact ⟨fun hmiss => absurd hitem.1 (by simp [hmiss]), fun _ => hitem.2⟩

theorem filled_resolveFields : (fields : List (String × Json)) →
    ∀ {values : List (String × Json)}, resolveFields c fields = .ok values →
    List.Forall₂ (FieldFills c) (fields.filter fun f => !misses c f.2) values
  | [], _, h => by
    cases h
    exact .nil
  | (key, t) :: rest, values, h => by
    rw [resolveFields] at h
    split at h
    · cases h
    · rename_i v hv
      obtain ⟨vs, hvs, rfl⟩ := Condition.exists_of_map_eq_ok h
      obtain ⟨hhit, hfills⟩ := filled_resolveData t hv
      rw [List.filter_cons_of_pos (by simp [hhit])]
      exact .cons ⟨rfl, hfills⟩ (filled_resolveFields rest hvs)
    · rename_i hv
      have hmiss : misses c t = true := filled_resolveData t hv
      rw [List.filter_cons_of_neg (by simp [hmiss])]
      exact filled_resolveFields rest h

end

/-- A placeholder begins nowhere in the text. -/
def IsClean (s : String) : Prop := ∀ rest, rest <:+ s.toList → placeholder? rest = none

/-- The input that a tool gets is clean. Only a single placeholder without a value comes to
nothing as a whole. All else is filled in its own shape, where a missing value takes its field
with it and is null in a list. Where all braces in the texts of the template belong to whole
placeholders, and the texts and keys of the context have none, no text of the result has a
placeholder in it. -/
theorem clean_input {t : Json} {r : Option Json} (h : resolveData c t = .ok r) :
    (r = none ↔ misses c t = true) ∧ (∀ v, r = some v → Fills c t v) ∧
      ((∀ s ∈ t.texts, WellBraced s) →
        (∀ s ∈ c.texts ++ c.names, '\x7b' ∉ s.toList ∧ '\x7d' ∉ s.toList) →
        ∀ v, r = some v → ∀ s ∈ v.texts, IsClean s) := by
  have hfilled := filled_resolveData t h
  refine ⟨?_, ?_, ?_⟩
  · cases r with
    | none => exact ⟨fun _ => hfilled, fun _ => rfl⟩
    | some v =>
      have hmiss : misses c t = false := hfilled.1
      simp [hmiss]
  · rintro v rfl
    exact hfilled.2
  · rintro ht hc v rfl s hs rest hrest
    have hnone : NoneOpens c := fun s hs => (hc s hs).1
    exact ((opensApart_resolveData hnone t ht h s hs).of_suffix hrest).placeholder?_eq_none

/-- A field without a value is gone and such an item is null. The braces in the text come from an
object that is written as JSON text. -/
theorem clean_input_letter :
    let t : Json := .object [("to", "\x7b\x7b lead.name || 'you' \x7d\x7d"),
      ("cc", "\x7b\x7b lead.cc \x7d\x7d"),
      ("lines", .array ["\x7b\x7blead.cc\x7d\x7d",
        "all: \x7b\x7blead\x7d\x7d\x7b\x7bin\x7d\x7d", 3])]
    let c : Json := .object [("lead", .object [("name", ""), ("by", .object [])]), ("in", false)]
    let v : Json := .object [("to", "you"),
      ("lines", .array [.null, "all: \x7b\"name\":\"\",\"by\":\x7b\x7d\x7dfalse", 3])]
    resolveData c t = .ok (some v) ∧ misses c t = false ∧ Fills c t v ∧
      (∀ s ∈ t.texts, WellBraced s) ∧
      (∀ s ∈ c.texts ++ c.names, '\x7b' ∉ s.toList ∧ '\x7d' ∉ s.toList) ∧
      ∀ s ∈ v.texts, IsClean s := by
  intro t c v
  have hresolved : resolveData c t = .ok (some v) := rfl
  have htexts : t.texts = ["\x7b\x7b lead.name || 'you' \x7d\x7d", "\x7b\x7b lead.cc \x7d\x7d",
      "\x7b\x7blead.cc\x7d\x7d", "all: \x7b\x7blead\x7d\x7d\x7b\x7bin\x7d\x7d"] := rfl
  have ht : ∀ s ∈ t.texts, WellBraced s := by
    rw [htexts]
    decide +kernel
  have hc : ∀ s ∈ c.texts ++ c.names, '\x7b' ∉ s.toList ∧ '\x7d' ∉ s.toList := by decide +kernel
  obtain ⟨hmisses, hfills, hclean⟩ := clean_input hresolved
  exact ⟨hresolved, by simpa using hmisses, hfills v rfl, ht, hc, hclean ht hc v rfl⟩

end Template

end LeadDesk
