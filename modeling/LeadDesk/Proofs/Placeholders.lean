import LeadDesk.Template.Basic
import Mathlib.Data.List.Basic
import Mathlib.Data.List.TakeWhile
/-!
# What a template reads

The pieces of a template are its text and nothing else (`Template.flatMap_written_pieces`), and
each placeholder is looked up by the paths that it writes (`Operand.paths`). Two contexts in which
these lead to the same values fill the template in the same way, and a value that is inserted is
not looked at again, whatever it says (`Template.reads_only`).
-/

namespace LeadDesk

/-! ## The pieces of a text -/

namespace Template

/-- What a placeholder in front says of the characters. -/
theorem placeholder?_eq_some {cs body : List Char} :
    placeholder? cs = some body ↔
      body ≠ [] ∧ '\x7d' ∉ body ∧ Piece.written (.placeholder body) <+: cs := by
  constructor
  · intro h
    unfold placeholder? at h
    split at h
    · rename_i rest
      dsimp only at h
      split at h
      · rename_i x xs more hbody hbehind
        obtain rfl := Option.some.inj h
        refine ⟨by simp [hbody], fun hmem => ?_, more, ?_⟩
        · simpa using List.mem_takeWhile_imp hmem
        · have hsplit := List.takeWhile_append_dropWhile (p := (· != '\x7d')) (l := rest)
          have hdrop : rest.drop (rest.takeWhile (· != '\x7d')).length =
              rest.dropWhile (· != '\x7d') :=
            (congrArg (List.drop _) hsplit).symm.trans List.drop_left
          rw [hdrop] at hbehind
          rw [hbehind] at hsplit
          simp only [Piece.written, List.cons_append, List.append_assoc, List.nil_append]
          rw [hsplit]
      · cases h
    · cases h
  · rintro ⟨hne, hclose, more, rfl⟩
    obtain ⟨x, xs, rfl⟩ := List.exists_cons_of_ne_nil hne
    have hbody : ((x :: xs) ++ '\x7d' :: '\x7d' :: more).takeWhile (· != '\x7d') = x :: xs := by
      rw [List.takeWhile_append_of_pos]
      · simp
      · intro c hc
        simpa using fun h : c = '\x7d' => hclose (h ▸ hc)
    simp only [placeholder?, Piece.written, List.cons_append, List.append_assoc, List.nil_append]
      at hbody ⊢
    rw [hbody]
    simp

theorem piecesAfter_append (front more : List Char) :
    piecesAfter front.length (front ++ more) = piecesAfter 0 more := by
  induction front with
  | nil => rfl
  | cons c front ih => exact ih

/-- A character that opens no placeholder is a piece of its own. -/
theorem piecesAfter_cons_of_ne {c : Char} (h : c ≠ '\x7b') (cs : List Char) :
    piecesAfter 0 (c :: cs) = .char c :: piecesAfter 0 cs := by
  have hnone : placeholder? (c :: cs) = none := by
    unfold placeholder?
    split
    · rename_i heq
      exact absurd (List.cons.inj heq).1 h
    · rfl
  simp only [piecesAfter, hnone]

theorem piecesAfter_append_of_not_mem {front : List Char} (h : '\x7b' ∉ front)
    (more : List Char) :
    piecesAfter 0 (front ++ more) = front.map .char ++ piecesAfter 0 more := by
  induction front with
  | nil => rfl
  | cons c front ih =>
    simp only [List.mem_cons, not_or] at h
    rw [List.cons_append, piecesAfter_cons_of_ne (Ne.symm h.1), ih h.2]
    rfl

/-- A placeholder in front is the first piece. -/
theorem piecesAfter_placeholder {body : List Char} (hne : body ≠ []) (hclose : '\x7d' ∉ body)
    (more : List Char) :
    piecesAfter 0 (Piece.written (.placeholder body) ++ more) =
      .placeholder body :: piecesAfter 0 more := by
  have hfound : placeholder? (Piece.written (.placeholder body) ++ more) = some body :=
    placeholder?_eq_some.2 ⟨hne, hclose, List.prefix_append _ _⟩
  have hlen : ('\x7b' :: body ++ ['\x7d', '\x7d']).length = body.length + 3 := by simp
  have hrest := piecesAfter_append ('\x7b' :: body ++ ['\x7d', '\x7d']) more
  rw [hlen] at hrest
  simp only [Piece.written, List.cons_append] at hfound hrest ⊢
  rw [piecesAfter, hfound]
  dsimp only
  rw [hrest]

/-- The pieces of a text write the text. -/
theorem flatMap_written_piecesAfter (cs : List Char) (skip : Nat) :
    (piecesAfter skip cs).flatMap Piece.written = cs.drop skip := by
  induction cs generalizing skip with
  | nil => cases skip <;> rfl
  | cons c rest ih =>
    cases skip with
    | succ skip => exact ih skip
    | zero =>
      rw [piecesAfter]
      split
      · rename_i body hfound
        obtain ⟨-, -, more, hmore⟩ := placeholder?_eq_some.1 hfound
        have hrest : rest.drop (body.length + 3) = more := by
          have hdrop := congrArg (List.drop (body.length + 4)) hmore
          simp only [List.drop_succ_cons] at hdrop
          rw [← hdrop]
          simp [Piece.written]
        rw [List.flatMap_cons, ih, hrest, hmore]
        rfl
      · rw [List.flatMap_cons, ih]
        rfl

theorem flatMap_written_pieces (s : String) : (pieces s).flatMap Piece.written = s.toList :=
  flatMap_written_piecesAfter _ 0

/-- The body of a placeholder among the pieces of a text is not empty and has no closing brace. -/
theorem body_of_mem_piecesAfter {cs : List Char} {skip : Nat} {body : List Char}
    (h : .placeholder body ∈ piecesAfter skip cs) : body ≠ [] ∧ '\x7d' ∉ body := by
  induction cs generalizing skip with
  | nil => cases skip <;> simp [piecesAfter] at h
  | cons c rest ih =>
    cases skip with
    | succ skip => exact ih h
    | zero =>
      rw [piecesAfter] at h
      split at h
      · rename_i found hfound
        obtain heq | h := List.mem_cons.1 h
        · obtain rfl := Piece.placeholder.inj heq
          exact ⟨(placeholder?_eq_some.1 hfound).1, (placeholder?_eq_some.1 hfound).2.1⟩
        · exact ih h
      · exact ih (by simpa using h)

/-- A text is what trimming leaves of it between two runs of blanks. -/
theorem exists_blanks_around (cs : List Char) :
    ∃ front behind, (∀ c ∈ front, Text.isBlank c = true) ∧
      cs = front ++ Text.trimBlanks cs ++ behind := by
  have hfront := List.takeWhile_append_dropWhile (p := Text.isBlank) (l := cs)
  have hbehind := List.takeWhile_append_dropWhile (p := Text.isBlank)
    (l := (cs.dropWhile Text.isBlank).reverse)
  refine ⟨cs.takeWhile Text.isBlank,
    ((cs.dropWhile Text.isBlank).reverse.takeWhile Text.isBlank).reverse,
    fun c hc => List.mem_takeWhile_imp hc, ?_⟩
  rw [List.append_assoc, Text.trimBlanks, ← List.reverse_append, hbehind, List.reverse_reverse,
    hfront]

/-- The placeholder that is the whole text is one of its pieces. -/
theorem mem_pieces_of_pureBody? {s : String} {body : List Char} (h : pureBody? s = some body) :
    Piece.placeholder body ∈ pieces s := by
  unfold pureBody? at h
  split at h
  · rename_i found hpieces
    obtain rfl := Option.some.inj h
    obtain ⟨front, behind, hblank, hs⟩ := exists_blanks_around s.toList
    have hwritten := flatMap_written_piecesAfter (Text.trimBlanks s.toList) 0
    rw [hpieces, List.flatMap_cons, List.flatMap_nil, List.append_nil, List.drop_zero] at hwritten
    obtain ⟨hne, hclose⟩ := body_of_mem_piecesAfter (hpieces ▸ List.mem_singleton_self _)
    have hopen : '\x7b' ∉ front := fun hmem => absurd (hblank _ hmem) (by decide)
    rw [pieces, hs, ← hwritten, List.append_assoc, piecesAfter_append_of_not_mem hopen,
      piecesAfter_placeholder hne hclose]
    exact List.mem_append_right _ List.mem_cons_self
  · cases h

end Template

/-! ## The paths of a template -/

namespace Operand

/-- The path that one operand of several writes, if it is no literal. -/
def path? (cs : List Char) : Option String :=
  match literal? (Text.trimBlanks cs) with
  | .ok none => some (String.ofList (Text.trimBlanks cs))
  | _ => none

/-- The paths among the operands that stand between the braces. -/
def paths (body : String) : List String :=
  match splitAtBars body.toList with
  | [_] => [body]
  | operands => operands.filterMap path?

end Operand

namespace Template

/-- The paths that a piece writes. -/
def Piece.paths : Piece → List String
  | char _ => []
  | placeholder body => Operand.paths (String.ofList (Text.trimBlanks body))

/-- The paths that the placeholders of a text write. -/
def textPaths (s : String) : List String := (pieces s).flatMap Piece.paths

mutual

/-- The paths that the placeholders of a template write, in all of its texts. -/
def paths : Json → List String
  | .string s => textPaths s
  | .array items => itemPaths items
  | .object fields => fieldPaths fields
  | _ => []

/-- The paths in the items of a list. -/
def itemPaths : List Json → List String
  | [] => []
  | item :: rest => paths item ++ itemPaths rest

/-- The paths in the values of an object. -/
def fieldPaths : List (String × Json) → List String
  | [] => []
  | (_, value) :: rest => paths value ++ fieldPaths rest

end

end Template

theorem Path.mem_of_item? {items : List Json} {i : Int} {v : Json} (h : item? items i = some v) :
    v ∈ items := by
  unfold item? at h
  split at h
  · exact List.mem_of_getElem? h
  · split at h
    · exact List.mem_of_getElem? h
    · cases h

/-- What passes from a value to its parts, and holds of all sizes, holds of whatever a path leads
to. -/
theorem Path.holds_of_walk {P : Json → Prop}
    (hfield : ∀ fields key v, P (.object fields) → Fields.get? fields key = some v → P v)
    (hitem : ∀ items v, P (.array items) → v ∈ items → P v) (hsize : ∀ n : Nat, P (.int n))
    {segments : List String} {value : Option Json} {v : Json} (hvalue : ∀ w ∈ value, P w)
    (h : walk value segments = .ok (some v)) : P v := by
  induction segments generalizing value with
  | nil =>
    cases h
    exact hvalue v rfl
  | cons segment rest ih =>
    cases value with
    | none => cases h
    | some w =>
      have hw := hvalue w rfl
      rw [walk] at h
      split at h
      · cases h
      · rename_i next hnext
        refine ih (fun u hu => ?_) h
        obtain rfl := Option.mem_def.1 hu
        unfold step at hnext
        split at hnext
        · exact hfield _ _ _ hw (Except.ok.inj hnext)
        · split at hnext
          · cases hnext
            exact hsize _
          · split at hnext
            · cases hread : readInt segment with
              | error e =>
                rw [hread] at hnext
                cases hnext
              | ok i =>
                rw [hread] at hnext
                exact hitem _ _ hw (mem_of_item? (Except.ok.inj hnext))
            · cases hnext
        · split at hnext
          · cases hnext
            exact hsize _
          · cases hnext
        · cases hnext

/-- Two contexts in which some paths lead to the same values, or are at fault in the same way. -/
def Path.Agree (c₁ c₂ : Json) (paths : List String) : Prop :=
  ∀ p ∈ paths, lookup c₁ p = lookup c₂ p

theorem Path.agree_append {c₁ c₂ : Json} {ps qs : List String} :
    Agree c₁ c₂ (ps ++ qs) ↔ Agree c₁ c₂ ps ∧ Agree c₁ c₂ qs := List.forall_mem_append

open LeadDesk.Path (Agree)

namespace Operand

section

variable {context v : Json} {P : Json → Prop}
  (hpath : ∀ path v, Path.lookup context path = .ok (some v) → P v)

include hpath

/-- What holds of the values of paths and of the literals among some operands holds of the first
operand that is present. -/
theorem holds_of_firstPresent {operands : List (List Char)}
    (hliteral : ∀ cs ∈ operands, ∀ v, literal? (Text.trimBlanks cs) = .ok (some v) → P v)
    (h : firstPresent context operands = .ok (some v)) : P v := by
  induction operands with
  | nil => cases h
  | cons cs rest ih =>
    rw [List.forall_mem_cons] at hliteral
    have ih := ih hliteral.2
    rw [firstPresent] at h
    split at h
    · cases h
    · rename_i w hw
      split at h
      · cases h
        unfold value at hw
        dsimp only at hw
        split at hw
        · cases hw
        · rename_i u hu
          cases hw
          exact hliteral.1 v hu
        · exact hpath _ v hw
      · exact ih h
    · exact ih h

theorem holds_of_resolve {body : String}
    (hliteral : ∀ cs ∈ splitAtBars body.toList, ∀ v,
      literal? (Text.trimBlanks cs) = .ok (some v) → P v)
    (h : resolve context body = .ok (some v)) : P v := by
  unfold resolve at h
  split at h
  · exact hpath _ v h
  · exact holds_of_firstPresent hpath hliteral h

end

variable {c₁ c₂ : Json}

theorem value_congr {cs : List Char} (h : Agree c₁ c₂ (path? cs).toList) :
    value c₁ cs = value c₂ cs := by
  unfold value
  unfold path? at h
  dsimp only
  split
  · rfl
  · rfl
  · rename_i hpath
    simp only [hpath, Option.toList] at h
    exact h _ (List.mem_singleton_self _)

theorem firstPresent_congr {operands : List (List Char)}
    (h : Agree c₁ c₂ (operands.filterMap path?)) :
    firstPresent c₁ operands = firstPresent c₂ operands := by
  induction operands with
  | nil => rfl
  | cons cs rest ih =>
    have hmem : ∀ p ∈ (path? cs).toList, p ∈ (cs :: rest).filterMap path? := fun p hp =>
      List.mem_filterMap.2 ⟨cs, List.mem_cons_self, Option.mem_toList.1 hp⟩
    have hrest : ∀ p ∈ rest.filterMap path?, p ∈ (cs :: rest).filterMap path? := fun p hp =>
      have ⟨operand, hoperand, hpath⟩ := List.mem_filterMap.1 hp
      List.mem_filterMap.2 ⟨operand, List.mem_cons_of_mem _ hoperand, hpath⟩
    rw [firstPresent, firstPresent, value_congr fun p hp => h p (hmem p hp),
      ih fun p hp => h p (hrest p hp)]

theorem resolve_congr {body : String} (h : Agree c₁ c₂ (paths body)) :
    resolve c₁ body = resolve c₂ body := by
  unfold resolve
  unfold paths at h
  split
  · rename_i hone
    simp only [hone] at h
    exact h _ (List.mem_singleton_self _)
  · rename_i hmany
    refine firstPresent_congr ?_
    split at h
    · rename_i hone
      exact absurd hone (hmany _)
    · exact h

end Operand

namespace Template

variable {c₁ c₂ : Json}

theorem fill_congr (filling : Filling) {ps : List Piece}
    (h : Agree c₁ c₂ (ps.flatMap Piece.paths)) : fill filling c₁ ps = fill filling c₂ ps := by
  induction ps with
  | nil => rfl
  | cons piece rest ih =>
    rw [List.flatMap_cons, Path.agree_append] at h
    cases piece with
    | char c => rw [fill, fill, ih h.2]
    | placeholder body =>
      have hvalue : valueOf c₁ body = valueOf c₂ body := by
        rw [valueOf, valueOf, Operand.resolve_congr h.1]
      rw [fill, fill, hvalue, ih h.2]

/-- What stands before and behind some pieces is filled on its own. -/
theorem fill_append (filling : Filling) (context : Json) (ps qs : List Piece) :
    fill filling context (ps ++ qs) =
      (fill filling context ps).bind fun xs => (fill filling context qs).map (xs ++ ·) := by
  induction ps with
  | nil =>
    rw [List.nil_append, fill, Except.bind]
    cases fill filling context qs <;> rfl
  | cons piece rest ih =>
    cases piece with
    | char c =>
      rw [List.cons_append, fill, fill, ih]
      cases fill filling context rest with
      | error e => rfl
      | ok xs => cases fill filling context qs <;> rfl
    | placeholder body =>
      rw [List.cons_append, fill, fill]
      cases valueOf context body with
      | error e => rfl
      | ok v =>
        dsimp only
        rw [ih]
        cases fill filling context rest with
        | error e => rfl
        | ok xs => cases fill filling context qs <;> simp [Except.map, Except.bind]

theorem pureValue?_congr {s : String} (h : Agree c₁ c₂ (textPaths s)) :
    pureValue? s c₁ = pureValue? s c₂ := by
  unfold pureValue?
  cases hpure : pureBody? s with
  | none => rfl
  | some body =>
    have hpaths : ∀ p ∈ Operand.paths (String.ofList (Text.trimBlanks body)), p ∈ textPaths s :=
      fun p hp => List.mem_flatMap.2 ⟨_, mem_pieces_of_pureBody? hpure, hp⟩
    dsimp only
    rw [Operand.resolve_congr fun p hp => h p (hpaths p hp)]

theorem resolve_congr {s : String} (h : Agree c₁ c₂ (textPaths s)) :
    resolve s c₁ = resolve s c₂ := by
  rw [resolve, resolve, fill_congr keepMissing h]

mutual

theorem resolveData_congr :
    (t : Json) → Agree c₁ c₂ (paths t) → resolveData c₁ t = resolveData c₂ t
  | .string s, h => by
    rw [resolveData, resolveData, pureValue?_congr h, fill_congr dropMissing h]
  | .array items, h => by rw [resolveData, resolveData, resolveItems_congr items h]
  | .object fields, h => by rw [resolveData, resolveData, resolveFields_congr fields h]
  | .null, _ | .bool _, _ | .int _, _ | .float _, _ => rfl

theorem resolveItems_congr :
    (items : List Json) → Agree c₁ c₂ (itemPaths items) →
      resolveItems c₁ items = resolveItems c₂ items
  | [], _ => rfl
  | item :: rest, h => by
    rw [itemPaths, Path.agree_append] at h
    rw [resolveItems, resolveItems, resolveData_congr item h.1, resolveItems_congr rest h.2]

theorem resolveFields_congr :
    (fields : List (String × Json)) → Agree c₁ c₂ (fieldPaths fields) →
      resolveFields c₁ fields = resolveFields c₂ fields
  | [], _ => rfl
  | (key, value) :: rest, h => by
    rw [fieldPaths, Path.agree_append] at h
    rw [resolveFields, resolveFields, resolveData_congr value h.1, resolveFields_congr rest h.2]

end

/-- A text that a placeholder stands for is inserted between what stands before and behind, and its
own pieces are not looked for. -/
theorem fill_of_string {filling : Filling} (hf : filling ∈ [keepMissing, dropMissing])
    {context : Json} {body : List Char} {v : String}
    (hv : Operand.resolve context (String.ofList (Text.trimBlanks body)) = .ok (some (.string v)))
    (before behind : List Piece) :
    fill filling context (before ++ .placeholder body :: behind) =
      (fill filling context before).bind fun xs =>
        (fill filling context behind).map fun ys => xs ++ v.toList ++ ys := by
  have hvalue : valueOf context body = .ok (some (.string v)) := by
    rw [valueOf, hv]
    rfl
  have hfills : filling (some (.string v)) (Piece.written (.placeholder body)) = v.toList := by
    simp only [List.mem_cons, List.not_mem_nil, or_false] at hf
    obtain rfl | rfl := hf <;> rfl
  rw [fill_append, fill, hvalue]
  dsimp only
  rw [hfills]
  cases fill filling context before with
  | error e => rfl
  | ok xs => cases fill filling context behind <;> simp [Except.map, Except.bind]

/-- A template reads only what it names. Where the paths that it writes lead to the same values in
two contexts, it is filled in the same way from both, or is at fault in the same way: for reading,
as a value, and as input for a tool. It is filled in one pass: a text from the context is inserted
as it is, with whatever looks like a placeholder in it. -/
theorem reads_only {t c₁ c₂ : Json} (h : Agree c₁ c₂ (paths t)) :
    resolveValue t c₁ = resolveValue t c₂ ∧ resolvePure t c₁ = resolvePure t c₂ ∧
      resolveData c₁ t = resolveData c₂ t ∧
      ∀ (s : String) (before behind : List Piece) (body : List Char) (v : String),
        t = .string s → pieces s = before ++ .placeholder body :: behind →
        Operand.resolve c₁ (String.ofList (Text.trimBlanks body)) = .ok (some (.string v)) →
        ∀ filling ∈ [keepMissing, dropMissing], fill filling c₁ (pieces s) =
          (fill filling c₁ before).bind fun xs =>
            (fill filling c₁ behind).map fun ys => xs ++ v.toList ++ ys := by
  refine ⟨?_, ?_, resolveData_congr t h, ?_⟩
  · cases t with
    | string s => rw [resolveValue, resolveValue, resolve_congr h]
    | null | bool _ | int _ | float _ | array _ | object _ => rfl
  · cases t with
    | string s => rw [resolvePure, resolvePure, pureValue?_congr h, resolve_congr h]
    | null | bool _ | int _ | float _ | array _ | object _ => rfl
  · intro s before behind body v _ hpieces hv filling hf
    rw [hpieces]
    exact fill_of_string hf hv before behind

/-- A name that reads like a placeholder is inserted as it is, whatever team it is about. -/
theorem reads_only_team :
    let t : Json := .object [("to", "\x7b\x7b name || 'you' \x7d\x7d:"),
      ("about", .array ["\x7b\x7bcompany.name\x7d\x7d"])]
    let context : Json → Json := fun team => .object [("name", "\x7b\x7bteam_id\x7d\x7d"),
      ("team_id", team), ("company", .object [("name", .null)])]
    paths t = ["name", "company.name"] ∧ Agree (context "red") (context 7) (paths t) ∧
      resolveData (context "red") t = resolveData (context 7) t ∧
      resolveData (context 7) t = .ok (some (.object [("to", "\x7b\x7bteam_id\x7d\x7d:"),
        ("about", .array [.null])])) := by
  intro t context
  have hpaths : paths t = ["name", "company.name"] := by cbv
  have hagree : Agree (context "red") (context 7) (paths t) := by
    rw [hpaths]
    intro p hp
    simp only [List.mem_cons, List.not_mem_nil, or_false] at hp
    obtain rfl | rfl := hp <;> cbv
  exact ⟨hpaths, hagree, (reads_only hagree).2.2.1, by cbv⟩

end Template

end LeadDesk
