import LeadDesk.Proofs.Literals
import LeadDesk.Proofs.Resolvers
/-!
# Faults of templates

Which paths and templates are at fault. A path is at fault only where it comes to a list with an
index that cannot be read (`Path.Trips`): every other segment, whatever its characters, leads to a
value or to none in every kind of value. A placeholder is at fault by such a path, or by an integer
of too many digits among its operands (`Operand.Trips`), where these are reached. To fill a text
from a context that can be written adds no further fault but that of a size too large to be written
(`Template.faults_iff`).
-/

namespace LeadDesk

/-! ## Paths -/

namespace Path

/-- The path comes to a list with an index that cannot be read. -/
def Trips (context : Json) (path : String) : Prop :=
  ∃ front segment behind items, segments path = front ++ segment :: behind ∧
    walk (some context) front = .ok (some (.array items)) ∧ Unreadable segment

theorem not_unreadable_length : ¬ Unreadable "length" := fun h =>
  absurd (unreadable_iff.1 h).1 (by decide)

/-- Of all segments in all kinds of values just the unreadable indices of lists are at fault. -/
theorem step_eq_error_iff {v : Json} {segment : String} :
    (∃ e, step v segment = .error e) ↔ (∃ items, v = .array items) ∧ Unreadable segment := by
  cases v with
  | array items =>
    simp only [step, Json.array.injEq, exists_eq', true_and]
    split
    · rename_i hlength
      obtain rfl := beq_iff_eq.1 hlength
      simp [not_unreadable_length]
    · rw [unreadable_iff]
      split
      · rename_i hindex
        cases readInt segment <;> simp [hindex, Except.map]
      · rename_i hindex
        simp [hindex]
  | null | bool _ | int _ | float _ | string _ | object _ => simp [step]

theorem walk_eq_error_iff {value : Option Json} {segments : List String} :
    (∃ e, walk value segments = .error e) ↔
      ∃ front segment behind items, segments = front ++ segment :: behind ∧
        walk value front = .ok (some (.array items)) ∧ Unreadable segment := by
  constructor
  · induction segments generalizing value with
    | nil =>
      rintro ⟨e, he⟩
      cases he
    | cons segment rest ih =>
      rintro ⟨e, he⟩
      cases value with
      | none => cases he
      | some v =>
        rw [walk] at he
        cases hstep : step v segment with
        | error e' =>
          obtain ⟨⟨items, rfl⟩, hbad⟩ := step_eq_error_iff.1 ⟨e', hstep⟩
          exact ⟨[], segment, rest, items, rfl, rfl, hbad⟩
        | ok next =>
          rw [hstep] at he
          obtain ⟨front, bad, behind, items, rfl, hwalk, hbad⟩ := ih ⟨e, he⟩
          refine ⟨segment :: front, bad, behind, items, rfl, ?_, hbad⟩
          rw [walk, hstep]
          exact hwalk
  · rintro ⟨front, segment, behind, items, rfl, hwalk, hbad⟩
    obtain ⟨e, he⟩ := step_eq_error_iff.2 ⟨⟨items, rfl⟩, hbad⟩
    refine ⟨e, ?_⟩
    rw [walk_append, hwalk]
    show walk (some (.array items)) (segment :: behind) = _
    rw [walk, he]

theorem lookup_eq_error_iff {context : Json} {path : String} :
    (∃ e, lookup context path = .error e) ↔ Trips context path := walk_eq_error_iff

end Path

/-! ## Operands -/

namespace Operand

variable {context : Json} {cs : List Char} {body : String}

/-- One operand of several is at fault: an integer of too many digits, or a path that trips. -/
def IsFault (context : Json) (cs : List Char) : Prop :=
  (∃ negative digits, (Form.integer negative digits).IsLiteral ∧
      (Form.integer negative digits).written = cs ∧ maxDigits < digits.length) ∨
    (∀ f : Form, f.IsLiteral → f.written ≠ cs) ∧ Path.Trips context (String.ofList cs)

/-- One operand of several has a value, or none, but is not present. -/
def Passes (context : Json) (cs : List Char) : Prop :=
  ∃ v, value context cs = .ok v ∧ v.any isPresent = false

/-- What stands between the braces is at fault: a path that trips, or of several operands the first
that does not pass. -/
def Trips (context : Json) (body : String) : Prop :=
  match splitAtBars body.toList with
  | [_] => Path.Trips context body
  | operands => ∃ front cs behind, operands = front ++ cs :: behind ∧
      (∀ x ∈ front, Passes context x) ∧ IsFault context (Text.trimBlanks cs)

theorem value_eq_error_iff :
    (∃ e, value context cs = .error e) ↔ IsFault context (Text.trimBlanks cs) := by
  unfold value
  dsimp only
  obtain ⟨hnone, hread⟩ | ⟨f, v, hf, -, hwritten, -, hread⟩ |
    ⟨negative, digits, hf, hwritten, hlong, hread⟩ := literal?_cases (Text.trimBlanks cs)
  · rw [hread]
    refine Path.lookup_eq_error_iff.trans ⟨fun h => .inr ⟨hnone, h⟩, fun h => ?_⟩
    obtain ⟨negative, digits, hf, hwritten, -⟩ | ⟨-, h⟩ := h
    · exact absurd hwritten (hnone _ hf)
    · exact h
  · rw [hread]
    refine ⟨by simp, fun h => ?_⟩
    obtain ⟨negative, digits, hf', hwritten', hlong⟩ | ⟨hnone, -⟩ := h
    · have hlong := (literal?_integer hf').trans (if_pos hlong)
      rw [hwritten', hread] at hlong
      cases hlong
    · exact absurd hwritten (hnone f hf)
  · rw [hread]
    exact ⟨fun _ => .inl ⟨negative, digits, hf, hwritten, hlong⟩, fun _ => ⟨_, rfl⟩⟩

theorem firstPresent_cons (h : Passes context cs) (rest : List (List Char)) :
    firstPresent context (cs :: rest) = firstPresent context rest := by
  obtain ⟨_ | v, hv, habsent⟩ := h
  · rw [firstPresent, hv]
  · rw [firstPresent, hv]
    exact if_neg (by simpa using habsent)

theorem firstPresent_eq_error_iff {operands : List (List Char)} :
    (∃ e, firstPresent context operands = .error e) ↔
      ∃ front cs behind, operands = front ++ cs :: behind ∧
        (∀ x ∈ front, Passes context x) ∧ IsFault context (Text.trimBlanks cs) := by
  induction operands with
  | nil => simp [firstPresent]
  | cons cs rest ih =>
    constructor
    · rintro ⟨e, he⟩
      cases hvalue : value context cs with
      | error e' => exact ⟨[], cs, rest, rfl, by simp, value_eq_error_iff.1 ⟨e', hvalue⟩⟩
      | ok v =>
        by_cases hpresent : v.any isPresent = true
        · obtain ⟨w, rfl, hw⟩ := (Option.any_eq_true _ _).1 hpresent
          rw [firstPresent, hvalue] at he
          dsimp only at he
          rw [if_pos hw] at he
          cases he
        · have hpasses : Passes context cs := ⟨v, hvalue, Bool.eq_false_iff.2 hpresent⟩
          rw [firstPresent_cons hpasses] at he
          obtain ⟨front, bad, behind, rfl, hfront, hbad⟩ := ih.1 ⟨e, he⟩
          exact ⟨cs :: front, bad, behind, rfl, List.forall_mem_cons.2 ⟨hpasses, hfront⟩, hbad⟩
    · rintro ⟨front, bad, behind, heq, hfront, hbad⟩
      cases front with
      | nil =>
        obtain ⟨rfl, rfl⟩ := List.cons.inj heq
        obtain ⟨e, he⟩ := value_eq_error_iff.2 hbad
        exact ⟨e, by rw [firstPresent, he]⟩
      | cons x front =>
        obtain ⟨rfl, rfl⟩ := List.cons.inj heq
        rw [List.forall_mem_cons] at hfront
        rw [firstPresent_cons hfront.1]
        exact ih.2 ⟨front, bad, behind, rfl, hfront.2, hbad⟩

theorem resolve_eq_error_iff : (∃ e, resolve context body = .error e) ↔ Trips context body := by
  unfold resolve Trips
  rcases splitAtBars body.toList with _ | ⟨_, _ | ⟨_, _⟩⟩
  · exact firstPresent_eq_error_iff
  · exact Path.lookup_eq_error_iff
  · exact firstPresent_eq_error_iff

end Operand

/-! ## Values that can be written -/

namespace Template

variable {context : Json}

theorem isWritable_of_get? {fields : Fields} {key : String} {v : Json}
    (h : fieldsWritable fields = true) (hv : fields.get? key = some v) : isWritable v = true := by
  induction fields with
  | nil => cases hv
  | cons f rest ih =>
    rw [fieldsWritable, Bool.and_eq_true] at h
    rw [Fields.get?] at hv
    split at hv
    · exact Option.some.inj hv ▸ h.1
    · exact ih h.2 hv

theorem isWritable_of_mem {items : List Json} {v : Json} (h : itemsWritable items = true)
    (hv : v ∈ items) : isWritable v = true := by
  induction items with
  | nil => cases hv
  | cons w rest ih =>
    rw [itemsWritable, Bool.and_eq_true] at h
    obtain rfl | hv := List.mem_cons.1 hv
    · exact h.1
    · exact ih h.2 hv

/-- The value can be written, or it is a size. -/
def IsWritableOrSize (v : Json) : Prop := isWritable v = true ∨ ∃ n : Nat, v = .int n

theorem walk_writable (hcontext : isWritable context = true) {segments : List String} {v : Json}
    (h : Path.walk (some context) segments = .ok (some v)) : IsWritableOrSize v := by
  refine Path.holds_of_walk (P := IsWritableOrSize) ?_ ?_ (fun n => .inr ⟨n, rfl⟩) ?_ h
  · rintro fields key w (hw | ⟨n, hn⟩) hget
    · exact .inl (isWritable_of_get? hw hget)
    · cases hn
  · rintro items w (hw | ⟨n, hn⟩) hmem
    · exact .inl (isWritable_of_mem hw hmem)
    · cases hn
  · rintro w hw
    exact .inl (Option.mem_some.1 hw ▸ hcontext)

/-- What a literal of few enough digits stands for can be written. -/
theorem isWritable_of_isLiteral {f : Operand.Form} {v : Json} (h : f.IsLiteral) (hshort : f.IsShort)
    (hv : f.meaning context = .ok (some v)) : isWritable v = true := by
  cases f with
  | path _ => exact h.elim
  | integer negative digits =>
    cases hv
    have hshort : digits.length ≤ maxDigits := hshort
    have hlt : Text.digitsValue digits < tenTo maxDigits := by
      rw [tenTo_eq]
      exact (Text.digitsValue_lt digits).trans_le (Nat.pow_le_pow_right (by decide) hshort)
    have hsize : (if negative then -(Text.digitsValue digits : Int)
        else Text.digitsValue digits).natAbs = Text.digitsValue digits := by
      split
      · rw [Int.natAbs_neg, Int.natAbs_natCast]
      · exact Int.natAbs_natCast _
    rw [isWritable, hsize]
    exact decide_eq_true hlt
  | quoted _ _ | decimal _ _ _ | truth _ | null | emptyList | emptyObject =>
    cases hv
    rfl

/-- What stands between the braces has a value that can be written, or a size. -/
theorem resolve_writable (hcontext : isWritable context = true) {body : String} {v : Json}
    (h : Operand.resolve context body = .ok (some v)) : IsWritableOrSize v := by
  refine Operand.holds_of_resolve (P := IsWritableOrSize) (fun _ v hv => walk_writable hcontext hv)
    (fun cs _ v hv => .inl ?_) h
  obtain ⟨-, hread⟩ | ⟨f, w, hf, hshort, -, hmeaning, hread⟩ | ⟨_, _, -, -, -, hread⟩ :=
    Operand.literal?_cases (Text.trimBlanks cs)
  · rw [hread] at hv
    cases hv
  · rw [hread] at hv
    cases hv
    exact isWritable_of_isLiteral hf hshort (hmeaning .null)
  · rw [hread] at hv
    cases hv

/-! ## Placeholders -/

/-- The value is a size too large to be written: of a list or a text with more parts than a number
of `maxDigits` digits can count. -/
def IsOversize (context : Json) (body : String) : Prop :=
  ∃ n : Nat, tenTo maxDigits ≤ n ∧ Operand.resolve context body = .ok (some (.int n))

theorem isWritable_size (n : Nat) : isWritable (.int n) = decide (n < tenTo maxDigits) := by
  rw [isWritable, Int.natAbs_natCast]

theorem valueOf_eq_error_iff (hcontext : isWritable context = true) {body : List Char} :
    (∃ e, valueOf context body = .error e) ↔
      Operand.Trips context (String.ofList (Text.trimBlanks body)) ∨
        IsOversize context (String.ofList (Text.trimBlanks body)) := by
  rw [← Operand.resolve_eq_error_iff, IsOversize, valueOf]
  rcases hresolve : Operand.resolve context (String.ofList (Text.trimBlanks body)) with e | _ | v
  · simp
  · simp
  · cases hwrites : isWritable v with
    | true =>
      refine ⟨by simp [hwrites], ?_⟩
      rintro (⟨e, he⟩ | ⟨n, hlarge, hv⟩)
      · cases he
      · cases hv
        rw [isWritable_size, decide_eq_true_eq] at hwrites
        omega
    | false =>
      refine ⟨fun _ => .inr ?_, fun _ => ⟨.unwritable, by simp [hwrites]⟩⟩
      obtain hwrites' | ⟨n, rfl⟩ := resolve_writable hcontext hresolve
      · rw [hwrites] at hwrites'
        cases hwrites'
      · rw [isWritable_size, decide_eq_false_iff_not, Nat.not_lt] at hwrites
        exact ⟨n, hwrites, rfl⟩

theorem map_eq_error_iff {α β : Type} {x : Except NumberFault α} {f : α → β} :
    (∃ e, x.map f = .error e) ↔ ∃ e, x = .error e := by
  cases x <;> simp [Except.map]

/-- A fault of a placeholder is the only fault of a text. -/
theorem fill_eq_error_iff {filling : Filling} {ps : List Piece} :
    (∃ e, fill filling context ps = .error e) ↔
      ∃ body, .placeholder body ∈ ps ∧ ∃ e, valueOf context body = .error e := by
  induction ps with
  | nil => simp [fill]
  | cons p ps ih =>
    cases p with
    | char c =>
      rw [fill, map_eq_error_iff, ih]
      simp
    | placeholder body =>
      rw [fill]
      cases hvalue : valueOf context body with
      | error e => exact ⟨fun _ => ⟨body, List.mem_cons_self, e, hvalue⟩, fun _ => ⟨e, rfl⟩⟩
      | ok v =>
        dsimp only
        rw [map_eq_error_iff, ih]
        constructor
        · rintro ⟨other, hmem, herror⟩
          exact ⟨other, List.mem_cons_of_mem _ hmem, herror⟩
        · rintro ⟨other, hmem, e, he⟩
          obtain heq | hmem := List.mem_cons.1 hmem
          · obtain rfl := Piece.placeholder.inj heq
            rw [hvalue] at he
            cases he
          · exact ⟨other, hmem, e, he⟩

/-- Lookup and resolution return a value but for these faults. A path is at fault exactly when it
comes to a list with an index that cannot be read, whatever its segments look like and whatever kind
of value they are applied to. A text that is filled from a context that can be written is at fault
exactly when one of its placeholders has such a path or an integer of too many digits among the
operands that are reached, or stands for a size too large to be written. As input for a tool a
single placeholder is at fault exactly when its own operands are, and any other text as it is for
reading. -/
theorem faults_iff (hcontext : isWritable context = true) (t : String) :
    ((∃ e, Path.lookup context t = .error e) ↔ Path.Trips context t) ∧
    ((∃ e, resolve t context = .error e) ↔ ∃ body, .placeholder body ∈ pieces t ∧
      (Operand.Trips context (String.ofList (Text.trimBlanks body)) ∨
        IsOversize context (String.ofList (Text.trimBlanks body)))) ∧
    (∀ body, IsPlaceholder t body →
      ((∃ e, resolveData context (.string t) = .error e) ↔
        Operand.Trips context (String.ofList (Text.trimBlanks body)))) ∧
    ((∀ body, ¬ IsPlaceholder t body) →
      ((∃ e, resolveData context (.string t) = .error e) ↔ ∃ e, resolve t context = .error e)) := by
  refine ⟨Path.lookup_eq_error_iff, ?_, fun body h => ?_, fun h => ?_⟩
  · rw [resolve, map_eq_error_iff, fill_eq_error_iff]
    simp only [valueOf_eq_error_iff hcontext]
  · rw [h.resolveData_eq, h.resolvePure_eq, Operand.resolve_eq_error_iff]
  · rw [resolveData_of_not_placeholder h, resolve, map_eq_error_iff, map_eq_error_iff,
      fill_eq_error_iff, fill_eq_error_iff]

/-- A superscript counts as a digit, and so do the digits behind two minus signs: as indices of a
list they are faults, by themselves and behind an operand without a value. In a text the same
segment leads to no value. -/
theorem faults_iff_superscript :
    let c : Json := .object [("items", .array ["a", "b"]), ("name", "Ann")]
    (∃ e, Path.lookup c "items.²" = .error e) ∧
    (∃ e, resolve "\x7b\x7bname\x7d\x7d: \x7b\x7bitems.²\x7d\x7d" c = .error e) ∧
    (∃ e, resolveData c (.string "\x7b\x7btitle || items.--1\x7d\x7d") = .error e) ∧
    Path.lookup c "name.²" = .ok none ∧ ¬ Path.Trips c "name.²" := by
  intro c
  have hcontext : isWritable c = true := rfl
  have hsegments : Path.segments "items.²" = ["items", "²"] := by decide +kernel
  have hsuperscript : Path.Unreadable "²" :=
    ⟨0, ['²'], by decide +kernel, by simp, by simpa using by decide +kernel,
      .inr (.inl ⟨'²', by simp, by decide +kernel⟩)⟩
  have hitems : Path.Trips c "items.²" :=
    ⟨["items"], "²", [], ["a", "b"], hsegments, rfl, hsuperscript⟩
  have hminus : Path.Trips c "items.--1" :=
    ⟨["items"], "--1", [], ["a", "b"], by decide +kernel, rfl, 2, ['1'], by decide +kernel,
      by simp, by simpa using by decide +kernel, .inl (by decide)⟩
  have hname : Path.lookup c "name.²" = .ok none := rfl
  let greeting := "\x7b\x7bname\x7d\x7d: \x7b\x7bitems.²\x7d\x7d"
  let title := "\x7b\x7btitle || items.--1\x7d\x7d"
  have hgreeting : Operand.Trips c (String.ofList (Text.trimBlanks "items.²".toList)) := by
    have hbody : String.ofList (Text.trimBlanks "items.²".toList) = "items.²" := by decide +kernel
    have hbars : splitAtBars "items.²".toList = ["items.²".toList] := by decide +kernel
    rw [hbody, Operand.Trips, hbars]
    exact hitems
  have hplaceholder : IsPlaceholder title "title || items.--1".toList := by
    refine ⟨?_, ?_, ?_⟩ <;> decide +kernel
  have htitle : Operand.Trips c (String.ofList (Text.trimBlanks "title || items.--1".toList)) := by
    have hbars : splitAtBars
        (String.ofList (Text.trimBlanks "title || items.--1".toList)).toList =
          ["title ".toList, " items.--1".toList] := by decide +kernel
    have hpath : Text.trimBlanks " items.--1".toList = "items.--1".toList := by decide +kernel
    rw [Operand.Trips, hbars]
    refine ⟨["title ".toList], " items.--1".toList, [], rfl, ?_, .inr ⟨?_, ?_⟩⟩
    · exact fun x hx => List.mem_singleton.1 hx ▸ ⟨none, rfl, rfl⟩
    · rw [hpath]
      exact Operand.Form.written_ne (by simp only [IsNumberChar]; decide) (by decide)
    · rw [hpath, String.ofList_toList]
      exact hminus
  refine ⟨(faults_iff hcontext "items.²").1.2 hitems, (faults_iff hcontext greeting).2.1.2
    ⟨"items.²".toList, by decide +kernel, .inl hgreeting⟩,
    ((faults_iff hcontext title).2.2.1 _ hplaceholder).2 htitle, hname, fun h => ?_⟩
  obtain ⟨e, he⟩ := (faults_iff hcontext "name.²").1.2 h
  rw [hname] at he
  cases he

end Template

end LeadDesk
