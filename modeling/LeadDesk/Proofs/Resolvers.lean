import LeadDesk.Proofs.Placeholders
/-!
# Three ways to resolve a text

A text is resolved for reading, as a value, or as input for a tool. Whether it is a single
placeholder is found out on the trimmed text as a whole (`Template.IsPlaceholder`), while
placeholders are filled in one pass from the left of the text as it is. The two find the same body
(`Template.pureBody?_eq_some`). So the three ways agree where all placeholders have values, and
differ in nothing but what they leave for a missing value and for null
(`Template.resolvers_agree`).
-/

namespace LeadDesk

namespace Template

variable {t : String} {c : Json} {body : List Char}

/-! ## Single placeholders -/

/-- The whole text is one placeholder, blanks around it aside: two braces, characters among which
no brace closes, and two braces again. -/
def IsPlaceholder (t : String) (body : List Char) : Prop :=
  body ≠ [] ∧ '\x7d' ∉ body ∧
    Text.trimBlanks t.toList = '\x7b' :: '\x7b' :: body ++ ['\x7d', '\x7d']

/-- The pieces of a placeholder by itself. -/
theorem pieces_written (hne : body ≠ []) (hclose : '\x7d' ∉ body) :
    pieces (String.ofList (Piece.written (.placeholder body))) = [.placeholder body] := by
  have hpieces := piecesAfter_placeholder hne hclose []
  rw [List.append_nil] at hpieces
  rw [pieces, String.toList_ofList, hpieces]
  rfl

/-- A text that is looked at as a whole and a text that is scanned from the left have the same
single placeholder. -/
theorem pureBody?_eq_some : pureBody? t = some body ↔ IsPlaceholder t body := by
  unfold pureBody?
  constructor
  · intro h
    split at h
    · rename_i found hpieces
      obtain rfl := Option.some.inj h
      have hwritten := flatMap_written_piecesAfter (Text.trimBlanks t.toList) 0
      obtain ⟨hne, hclose⟩ := body_of_mem_piecesAfter (hpieces ▸ List.mem_singleton_self _)
      rw [hpieces, List.flatMap_singleton, List.drop_zero] at hwritten
      exact ⟨hne, hclose, hwritten.symm⟩
    · cases h
  · rintro ⟨hne, hclose, htrim⟩
    have hpieces := pieces_written hne hclose
    rw [pieces, String.toList_ofList, Piece.written, ← htrim] at hpieces
    rw [hpieces]

theorem isPure_iff : isPure t = true ↔ ∃ body, IsPlaceholder t body := by
  simp only [isPure, Option.isSome_iff_exists, pureBody?_eq_some]

theorem pureBody?_eq_none (h : ∀ body, ¬ IsPlaceholder t body) : pureBody? t = none :=
  Option.eq_none_iff_forall_ne_some.2 fun body hbody => h body (pureBody?_eq_some.1 hbody)

theorem IsPlaceholder.pureValue?_eq (h : IsPlaceholder t body) :
    pureValue? t c = (Operand.resolve c (String.ofList (Text.trimBlanks body))).map some := by
  rw [pureValue?, pureBody?_eq_some.2 h]

/-- A single placeholder has the value of its body. -/
theorem IsPlaceholder.resolvePure_eq (h : IsPlaceholder t body) :
    resolvePure (.string t) c = Operand.resolve c (String.ofList (Text.trimBlanks body)) := by
  rw [resolvePure, h.pureValue?_eq]
  cases Operand.resolve c (String.ofList (Text.trimBlanks body)) <;> rfl

/-- As input for a tool it has the same value. -/
theorem IsPlaceholder.resolveData_eq (h : IsPlaceholder t body) :
    resolveData c (.string t) = resolvePure (.string t) c := by
  rw [h.resolvePure_eq, resolveData, h.pureValue?_eq]
  cases Operand.resolve c (String.ofList (Text.trimBlanks body)) <;> rfl

theorem IsPlaceholder.pieces_trim (h : IsPlaceholder t body) :
    pieces (Text.trim t) = [.placeholder body] := by
  obtain ⟨hne, hclose, htrim⟩ := h
  rw [Text.trim, htrim]
  exact pieces_written hne hclose

/-- Any other text is as a value what it is for reading. -/
theorem resolvePure_of_not_placeholder (h : ∀ body, ¬ IsPlaceholder t body) :
    resolvePure (.string t) c = (resolve t c).map fun s => some (.string s) := by
  rw [resolvePure, pureValue?, pureBody?_eq_none h]

theorem resolveData_of_not_placeholder (h : ∀ body, ¬ IsPlaceholder t body) :
    resolveData c (.string t) =
      (fill dropMissing c (pieces t)).map fun cs => some (.string (String.ofList cs)) := by
  rw [resolveData, pureValue?, pureBody?_eq_none h]

/-! ## Filling as replacement -/

/-- The text that a value leaves, provided that it can be written. -/
def textOf (v : Json) : Except NumberFault String :=
  if isWritable v then .ok (render v) else .error .unwritable

/-- The characters of pieces with every placeholder replaced, from the left. -/
def replaced (put : List Char → Except NumberFault (List Char)) :
    List Piece → Except NumberFault (List Char)
  | [] => .ok []
  | .char x :: rest => (replaced put rest).map (x :: ·)
  | .placeholder body :: rest =>
    match put body with
    | .error e => .error e
    | .ok cs => (replaced put rest).map (cs ++ ·)

/-- What is put in the place of a placeholder when it is filled for reading, as a text of its
own. -/
def putFor (c : Json) (body : List Char) : Except NumberFault (List Char) :=
  (resolve (String.ofList (Piece.written (.placeholder body))) c).map String.toList

/-- A placeholder has no value, or null. -/
def lacksValue (c : Json) (body : List Char) : Bool :=
  match Operand.resolve c (String.ofList (Text.trimBlanks body)) with
  | .ok none | .ok (some .null) => true
  | _ => false

/-- To fill is to replace each placeholder by what the filling leaves. -/
theorem fill_eq_replaced {filling : Filling} {put : List Char → Except NumberFault (List Char)}
    {ps : List Piece} (h : ∀ body, .placeholder body ∈ ps →
      put body = (valueOf c body).map fun v => filling v (Piece.written (.placeholder body))) :
    fill filling c ps = replaced put ps := by
  induction ps with
  | nil => rfl
  | cons p ps ih =>
    have ih := ih fun body hbody => h body (List.mem_cons_of_mem _ hbody)
    cases p with
    | char x => rw [fill, replaced, ih]
    | placeholder body =>
      rw [fill, replaced, ih, h body List.mem_cons_self]
      cases valueOf c body <;> rfl

theorem putFor_eq (hne : body ≠ []) (hclose : '\x7d' ∉ body) :
    putFor c body =
      (valueOf c body).map fun v => keepMissing v (Piece.written (.placeholder body)) := by
  rw [putFor, resolve, pieces_written hne hclose, fill]
  cases valueOf c body with
  | error e => rfl
  | ok v => simp [fill, Except.map]

/-- A placeholder without a value leaves nothing in the input for a tool, and any other what it
leaves for reading. -/
theorem map_dropMissing_valueOf (c : Json) (body written : List Char) :
    (valueOf c body).map (dropMissing · written) =
      if lacksValue c body then .ok [] else (valueOf c body).map (keepMissing · written) := by
  unfold valueOf lacksValue
  cases Operand.resolve c (String.ofList (Text.trimBlanks body)) with
  | error e => rfl
  | ok found =>
    rcases found with _ | v
    · rfl
    · cases v with
      | null => rfl
      | bool _ | int _ | float _ | string _ | array _ | object _ =>
        dsimp only
        split <;> rfl

theorem fill_keepMissing (t : String) (c : Json) :
    fill keepMissing c (pieces t) = replaced (putFor c) (pieces t) :=
  fill_eq_replaced fun _ hbody =>
    have ⟨hne, hclose⟩ := body_of_mem_piecesAfter hbody
    putFor_eq hne hclose

theorem fill_dropMissing (t : String) (c : Json) :
    fill dropMissing c (pieces t) =
      replaced (fun body => if lacksValue c body then .ok [] else putFor c body) (pieces t) := by
  refine fill_eq_replaced fun body hbody => ?_
  obtain ⟨hne, hclose⟩ := body_of_mem_piecesAfter hbody
  rw [map_dropMissing_valueOf, putFor_eq hne hclose]

theorem keepMissing_of_ne_null {v : Json} (h : v ≠ .null) (written : List Char) :
    keepMissing (some v) written = (render v).toList := by
  cases v with
  | null => exact absurd rfl h
  | bool _ | int _ | float _ | string _ | array _ | object _ => rfl

/-- A single placeholder with a value is filled with the text of the value. -/
theorem IsPlaceholder.resolve_trim (h : IsPlaceholder t body) {v : Json}
    (hv : resolvePure (.string t) c = .ok (some v)) (hnull : v ≠ .null) :
    resolve (Text.trim t) c = textOf v := by
  rw [h.resolvePure_eq] at hv
  have hvalue : valueOf c body = if isWritable v then .ok (some v) else .error .unwritable := by
    rw [valueOf, hv]
    rfl
  rw [resolve, h.pieces_trim, fill, hvalue, textOf]
  by_cases hwrites : isWritable v = true
  · simp [hwrites, fill, Except.map, keepMissing_of_ne_null hnull]
  · simp [hwrites, Except.map]

/-- Where no placeholder lacks a value, both fillings are the same. -/
theorem fill_dropMissing_eq (h : ∀ body, .placeholder body ∈ pieces t → lacksValue c body = false) :
    fill dropMissing c (pieces t) = fill keepMissing c (pieces t) := by
  rw [fill_keepMissing]
  refine fill_eq_replaced fun body hbody => ?_
  obtain ⟨hne, hclose⟩ := body_of_mem_piecesAfter hbody
  rw [map_dropMissing_valueOf, h body hbody, putFor_eq hne hclose]
  rfl

/-! ## The three ways -/

/-- The three ways to resolve a text agree. A single placeholder is the same value by itself and as
input for a tool; if it is there and not null, the trimmed text is filled with what the value
leaves, and a fault is a fault of both. Any other text is as a value what it is for reading, and is
filled for a tool by the same replacements, except that nothing is put for a missing value and
null; so it is filled alike where no placeholder lacks a value. -/
theorem resolvers_agree (t : String) (c : Json) :
    (isPure t = true ↔ ∃ body, IsPlaceholder t body) ∧
      (∀ body, IsPlaceholder t body →
        resolveData c (.string t) = resolvePure (.string t) c ∧
        (∀ v, resolvePure (.string t) c = .ok (some v) → v ≠ .null →
          resolve (Text.trim t) c = textOf v) ∧
        ∀ e, resolvePure (.string t) c = .error e → resolve (Text.trim t) c = .error e) ∧
      ((∀ body, ¬ IsPlaceholder t body) →
        resolvePure (.string t) c = (resolve t c).map (fun s => some (.string s)) ∧
        resolve t c = (replaced (putFor c) (pieces t)).map String.ofList ∧
        resolveData c (.string t) =
          (replaced (fun body => if lacksValue c body then .ok [] else putFor c body)
            (pieces t)).map (fun cs => some (.string (String.ofList cs))) ∧
        ((∀ body, .placeholder body ∈ pieces t → lacksValue c body = false) →
          resolveData c (.string t) = (resolve t c).map fun s => some (.string s))) := by
  refine ⟨isPure_iff, fun body h =>
    ⟨h.resolveData_eq, fun v hv hnull => h.resolve_trim hv hnull, fun e he => ?_⟩,
    fun h => ⟨resolvePure_of_not_placeholder h, ?_, ?_, fun hall => ?_⟩⟩
  · rw [h.resolvePure_eq] at he
    rw [resolve, h.pieces_trim, fill, valueOf, he]
    rfl
  · rw [resolve, fill_keepMissing]
  · rw [resolveData_of_not_placeholder h, fill_dropMissing]
  · rw [resolveData_of_not_placeholder h, fill_dropMissing_eq hall, resolve]
    cases fill keepMissing c (pieces t) <;> rfl

/-- A list of tags is itself as a value and JSON text for reading. A greeting with a brace too many
is no single placeholder, and its title, which is null, reads `null` and is left out for a tool.
Braces that close alone are no end of a placeholder. -/
theorem resolvers_agree_greeting :
    let c : Json := .object [("name", "Ann"), ("tags", .array [1, 2]), ("title", .null)]
    let tags := " \x7b\x7b tags \x7d\x7d\n"
    let greeting := "\x7b\x7bname\x7d\x7d\x7d, \x7b\x7btitle\x7d\x7d"
    let parting := "\x7b\x7b\x7bBye\x7d \x7b\x7bname\x7d\x7d"
    (IsPlaceholder tags " tags ".toList ∧
      resolveData c (.string tags) = .ok (some (.array [1, 2])) ∧
      resolve (Text.trim tags) c = .ok "[1,2]") ∧
    ((∀ body, ¬ IsPlaceholder greeting body) ∧
      resolvePure (.string greeting) c = .ok (some "Ann\x7d, null") ∧
      resolveData c (.string greeting) = .ok (some "Ann\x7d, ")) ∧
    (∀ body, ¬ IsPlaceholder parting body) ∧
      (∀ body, .placeholder body ∈ pieces parting → lacksValue c body = false) ∧
      resolveData c (.string parting) = .ok (some "\x7b\x7b\x7bBye\x7d Ann") := by
  intro c tags greeting parting
  have htags : IsPlaceholder tags " tags ".toList := by
    refine ⟨?_, ?_, ?_⟩ <;> decide +kernel
  have hvalue : resolvePure (.string tags) c = .ok (some (.array [1, 2])) := by
    have hbody : String.ofList (Text.trimBlanks " tags ".toList) = "tags" := by decide +kernel
    rw [htags.resolvePure_eq, hbody]
    rfl
  have hgreeting : ∀ body, ¬ IsPlaceholder greeting body := fun body h =>
    absurd ((resolvers_agree greeting c).1.2 ⟨body, h⟩) (by decide +kernel)
  have hparting : ∀ body, ¬ IsPlaceholder parting body := fun body h =>
    absurd ((resolvers_agree parting c).1.2 ⟨body, h⟩) (by decide +kernel)
  have hname : ∀ body, .placeholder body ∈ pieces parting → lacksValue c body = false := by
    intro body hbody
    have hpieces : pieces parting =
        "\x7b\x7b\x7bBye\x7d ".toList.map .char ++ [.placeholder "name".toList] := by
      decide +kernel
    rw [hpieces, List.mem_append, List.mem_map, List.mem_singleton] at hbody
    obtain ⟨_, _, heq⟩ | heq := hbody
    · cases heq
    · obtain rfl := Piece.placeholder.inj heq
      decide +kernel
  have hread : resolve greeting c = .ok "Ann\x7d, null" := by decide +kernel
  have hbye : resolve parting c = .ok "\x7b\x7b\x7bBye\x7d Ann" := by decide +kernel
  have hfilled : replaced (fun body => if lacksValue c body then .ok [] else putFor c body)
      (pieces greeting) = .ok "Ann\x7d, ".toList := by decide +kernel
  have hlist : textOf (.array [1, 2]) = .ok "[1,2]" := by decide +kernel
  obtain ⟨hdata, htext, -⟩ := (resolvers_agree tags c).2.1 _ htags
  obtain ⟨hpure, -, hinput, -⟩ := (resolvers_agree greeting c).2.2 hgreeting
  obtain ⟨-, -, -, halike⟩ := (resolvers_agree parting c).2.2 hparting
  rw [hread] at hpure
  rw [hfilled] at hinput
  have hsame := halike hname
  rw [hbye] at hsame
  exact ⟨⟨htags, hdata.trans hvalue, (htext _ hvalue (by simp)).trans hlist⟩,
    ⟨hgreeting, hpure, hinput⟩, hparting, hname, hsame⟩

end Template

end LeadDesk
