import LeadDesk.Store.Row
import Mathlib.Data.List.Nodup
/-!
# Rows

A column keeps a form of each value that is written to it, unless it holds an equal value already. A
change of a row writes each of its values so and leaves the other columns as they are
(`Row.change_spec`), and a new row has what it is given or the default in each column
(`Row.create_spec`).
-/

namespace LeadDesk

/-! ## Fields -/

namespace Fields

theorem get?_cons (k : String) (v : Json) (rest : Fields) (key : String) :
    get? ((k, v) :: rest) key = if k = key then some v else get? rest key := by
  simp only [get?, beq_iff_eq]

theorem get?_put (fields : Fields) (key other : String) (v : Json) :
    get? (put fields key v) other = if key = other then some v else get? fields other := by
  split
  · rename_i h
    rw [h, get?_put_self]
  · rename_i h
    exact get?_put_of_ne fields v h

theorem get?_append (fields more : Fields) (key : String) :
    get? (fields ++ more) key = (get? fields key).or (get? more key) := by
  induction fields with
  | nil => rfl
  | cons f rest ih =>
    obtain ⟨k, v⟩ := f
    rw [List.cons_append, get?_cons, get?_cons, ih]
    split <;> rfl

theorem mem_of_get? {fields : Fields} {key : String} {v : Json} (h : get? fields key = some v) :
    (key, v) ∈ fields := by
  induction fields with
  | nil => cases h
  | cons f rest ih =>
    obtain ⟨k, w⟩ := f
    rw [get?_cons] at h
    split at h
    · rename_i hk
      rw [hk, Option.some.inj h]
      exact List.mem_cons_self
    · exact List.mem_cons_of_mem _ (ih h)

theorem get?_eq_none_iff {fields : Fields} {key : String} :
    get? fields key = none ↔ key ∉ keys fields := by
  induction fields with
  | nil => simp [keys]
  | cons f rest ih =>
    obtain ⟨k, w⟩ := f
    rw [get?_cons]
    by_cases hk : k = key
    · simp [hk, keys]
    · simp only [hk, if_false, ih, keys, List.map_cons, List.mem_cons, not_or]
      exact ⟨fun h => ⟨Ne.symm hk, h⟩, And.right⟩

/-- In fields with distinct keys each field is found under its key. -/
theorem get?_of_mem {fields : Fields} (hkeys : (keys fields).Nodup) {key : String} {v : Json}
    (h : (key, v) ∈ fields) : get? fields key = some v := by
  induction fields with
  | nil => cases h
  | cons f rest ih =>
    obtain ⟨k, w⟩ := f
    obtain ⟨hk, hrest⟩ := List.nodup_cons.1 hkeys
    rw [get?_cons]
    rcases List.mem_cons.1 h with heq | hmem
    · obtain ⟨rfl, rfl⟩ := Prod.mk.inj heq
      exact if_pos rfl
    · rw [if_neg, ih hrest hmem]
      rintro rfl
      exact hk (List.mem_map.2 ⟨_, hmem, rfl⟩)

theorem keys_put (fields : Fields) (key : String) (v : Json) :
    keys (put fields key v) = if key ∈ keys fields then keys fields else keys fields ++ [key] := by
  induction fields with
  | nil => rfl
  | cons f rest ih =>
    obtain ⟨k, w⟩ := f
    by_cases hk : k = key
    · simp [put, keys, hk]
    · have hcons : keys (put ((k, w) :: rest) key v) = k :: keys (put rest key v) := by
        simp [put, keys, hk]
      have hmem : key ∈ keys ((k, w) :: rest) ↔ key ∈ keys rest := by simp [keys, Ne.symm hk]
      simp only [hcons, ih, hmem]
      split <;> rfl

theorem nodup_keys_nil : (keys []).Nodup := List.nodup_nil

theorem nodup_keys_put {fields : Fields} (hkeys : (keys fields).Nodup) (key : String) (v : Json) :
    (keys (put fields key v)).Nodup := by
  rw [keys_put]
  split
  · exact hkeys
  · rename_i hnew
    exact List.nodup_append.2 ⟨hkeys, by simp, fun a ha b hb => by
      rintro rfl
      exact hnew (List.mem_singleton.1 hb ▸ ha)⟩

theorem nodup_keys_overlay {fields : Fields} (hkeys : (keys fields).Nodup) (more : Fields) :
    (keys (overlay fields more)).Nodup := by
  induction more generalizing fields with
  | nil => exact hkeys
  | cons f rest ih => exact ih (nodup_keys_put hkeys f.1 f.2)

/-- The value that is written last under a key. -/
def last? (fields : Fields) (key : String) : Option Json := get? fields.reverse key

theorem last?_cons (k : String) (v : Json) (rest : Fields) (key : String) :
    last? ((k, v) :: rest) key = (last? rest key).or (if k = key then some v else none) := by
  rw [last?, List.reverse_cons, get?_append, get?_cons, get?_nil]
  rfl

theorem last?_append (fields more : Fields) (key : String) :
    last? (fields ++ more) key = (last? more key).or (last? fields key) := by
  rw [last?, List.reverse_append, get?_append]
  rfl

/-- Where keys are distinct there is one value under each. -/
theorem last?_eq_get? {fields : Fields} (hkeys : (keys fields).Nodup) (key : String) :
    last? fields key = get? fields key := by
  induction fields with
  | nil => rfl
  | cons f rest ih =>
    obtain ⟨k, v⟩ := f
    obtain ⟨hk, hrest⟩ := List.nodup_cons.1 hkeys
    rw [last?_cons, get?_cons, ih hrest]
    by_cases heq : k = key
    · have hnone : get? rest key = none := get?_eq_none_iff.2 (heq ▸ hk)
      simp [heq, hnone]
    · simp [heq]

/-- On top of other fields are those that were put there last. -/
theorem get?_overlay (fields more : Fields) (key : String) :
    get? (overlay fields more) key = (last? more key).or (get? fields key) := by
  induction more generalizing fields with
  | nil => rfl
  | cons f rest ih =>
    obtain ⟨k, v⟩ := f
    show get? (overlay (put fields k v) rest) key = _
    rw [ih, last?_cons, get?_put, Option.or_assoc]
    split <;> rfl

theorem last?_eq_none_iff {fields : Fields} {key : String} :
    last? fields key = none ↔ key ∉ keys fields := by
  rw [last?, get?_eq_none_iff, keys, List.map_reverse, List.mem_reverse]
  rfl

theorem not_mem_keys_overlay {fields more : Fields} {key : String} (hf : key ∉ keys fields)
    (hm : key ∉ keys more) : key ∉ keys (overlay fields more) := by
  rw [← get?_eq_none_iff, get?_overlay, last?_eq_none_iff.2 hm, get?_eq_none_iff.2 hf]
  rfl

end Fields

/-! ## Values in columns -/

/-- A value is another one or equals it. A value that equals what is stored is not written, so that
a one may stand for a true. -/
def Json.Agrees (w v : Json) : Prop := w = v ∨ v.same w = true

/-- What a column of a kind may hold. -/
def ColumnKind.Holds : ColumnKind → Json → Prop
  | .text, v | .moment, v => v = .null ∨ ∃ s, v = .string s
  | .integer, .int n => Column.fits n = true
  | .integer, .array _ | .integer, .object _ | .integer, .bool _ => False
  | .integer, _ => True
  | .truth, v => v = .null ∨ ∃ b, v = .bool b
  | .data, _ => True

/-- A value is of the kind that a column is for, so that it is kept as it is. A data column is for
everything but numbers that the store has in another form. -/
def ColumnKind.Suits : ColumnKind → Json → Prop
  | .integer, .int n | .data, .int n => Column.fits n = true
  | .data, .float _ => False
  | .text, .string _ | .truth, .bool _ | .data, _ => True
  | _, _ => False

namespace Column

variable {kind : ColumnKind} {v w held : Json}

/-- What is held after a value is written is its form, or what was held before and equals it. -/
theorem renewed_cases (h : renewed kind held v = .ok w) :
    form kind v = .ok w ∨ w = held ∧ v.same w = true := by
  unfold renewed at h
  split at h
  · rename_i hsame
    obtain rfl := Except.ok.inj h
    exact .inr ⟨rfl, hsame⟩
  · exact .inl h

theorem form_of_suits (h : kind.Suits v) : form kind v = .ok v := by
  cases kind <;> cases v <;>
    first | rfl | exact h.elim | exact if_pos h | exact congrArg _ (if_pos h)

theorem dataForm_of_suits (h : ColumnKind.data.Suits v) : dataForm v = v :=
  Except.ok.inj (form_of_suits h)

/-- A value of the kind of its column is held, or one that equals it. -/
theorem agrees_of_renewed (hsuits : kind.Suits v) (h : renewed kind held v = .ok w) :
    w.Agrees v := by
  obtain hform | ⟨-, hsame⟩ := renewed_cases h
  · exact .inl (Except.ok.inj (hform.symm.trans (form_of_suits hsuits)))
  · exact .inr hsame

/-- A text or null equals itself only. -/
theorem eq_of_same (hw : w = .null ∨ ∃ s, w = .string s) (h : v.same w = true) : v = w := by
  obtain rfl | ⟨s, rfl⟩ := hw
  · cases v with
    | null => rfl
    | _ => cases h
  · cases v with
    | string t => rw [eq_of_beq (show (t == s) = true from h)]
    | _ => cases h

/-- A text column holds the text form of what is written. -/
theorem textForm_of_renewed (hheld : ColumnKind.text.Holds held)
    (h : renewed .text held v = .ok w) : textForm v = .ok w := by
  obtain hform | ⟨rfl, hsame⟩ := renewed_cases h
  · exact hform
  · obtain rfl := eq_of_same hheld hsame
    obtain rfl | ⟨s, rfl⟩ := hheld <;> rfl

theorem holds_wholeForm (d : Double) : ColumnKind.integer.Holds (wholeForm d) := by
  unfold wholeForm
  split
  · split
    · rename_i n _ hn
      show fits n = true
      simp only [Bool.and_eq_true, decide_eq_true_eq, fits] at hn ⊢
      omega
    · trivial
  · split <;> trivial

theorem holds_textForm (h : textForm v = .ok w) : ColumnKind.text.Holds w := by
  unfold textForm at h
  split at h
  · exact .inl (Except.ok.inj h).symm
  · exact .inr ⟨_, (Except.ok.inj h).symm⟩
  · exact .inr ⟨_, (Except.ok.inj h).symm⟩
  · split at h
    · exact .inr ⟨_, (Except.ok.inj h).symm⟩
    · cases h
  · split at h
    · exact .inl (Except.ok.inj h).symm
    · exact .inr ⟨_, (Except.ok.inj h).symm⟩
  · cases h
  · cases h

theorem holds_integerForm (h : integerForm v = .ok w) : ColumnKind.integer.Holds w := by
  unfold integerForm at h
  split at h
  · obtain rfl := Except.ok.inj h
    trivial
  · rename_i b
    obtain rfl := Except.ok.inj h
    cases b <;> rfl
  · split at h
    · rename_i hfits
      obtain rfl := Except.ok.inj h
      exact hfits
    · cases h
  · obtain rfl := Except.ok.inj h
    exact holds_wholeForm _
  · split at h
    · obtain rfl := Except.ok.inj h
      trivial
    · rename_i isWhole negative d n hnumber
      obtain rfl := Except.ok.inj h
      by_cases hwhole : (isWhole && fits (if negative = true then -(n : Int) else n)) = true
      · rw [if_pos hwhole]
        exact (Bool.and_eq_true_iff.1 hwhole).2
      · rw [if_neg hwhole]
        exact holds_wholeForm d
  · cases h
  · cases h

theorem holds_truthForm (h : truthForm v = .ok w) : ColumnKind.truth.Holds w := by
  unfold truthForm at h
  split at h
  · exact .inl (Except.ok.inj h).symm
  · exact .inr ⟨_, (Except.ok.inj h).symm⟩
  · exact .inr ⟨_, (Except.ok.inj h).symm⟩
  · exact .inr ⟨_, (Except.ok.inj h).symm⟩
  · cases h

theorem holds_momentForm (h : momentForm v = .ok w) : ColumnKind.moment.Holds w := by
  unfold momentForm at h
  split at h
  · exact .inl (Except.ok.inj h).symm
  · exact .inr ⟨_, (Except.ok.inj h).symm⟩
  · cases h

/-- What a column keeps is what it may hold. -/
theorem holds_of_form (h : form kind v = .ok w) : kind.Holds w := by
  cases kind with
  | text => exact holds_textForm h
  | integer => exact holds_integerForm h
  | truth => exact holds_truthForm h
  | moment => exact holds_momentForm h
  | data => trivial

theorem holds_of_renewed (hheld : kind.Holds held) (h : renewed kind held v = .ok w) :
    kind.Holds w := by
  unfold renewed at h
  split at h
  · exact Except.ok.inj h ▸ hheld
  · exact holds_of_form h

/-- A data column takes every value. -/
theorem exists_renewed_data (held v : Json) : ∃ w, renewed .data held v = .ok w := by
  unfold renewed
  split
  · exact ⟨held, rfl⟩
  · exact ⟨dataForm v, rfl⟩

/-- A moment column takes every text, and null. -/
theorem exists_renewed_moment (held : Json) (hv : ColumnKind.moment.Holds v) :
    ∃ w, renewed .moment held v = .ok w := by
  unfold renewed
  split
  · exact ⟨held, rfl⟩
  · obtain rfl | ⟨s, rfl⟩ := hv
    · exact ⟨.null, rfl⟩
    · exact ⟨.string s, rfl⟩

/-- The text of a moment is read as a text or as nothing; what is no text stays as it is. -/
theorem readMoment_cases (h : readMoment v = .ok w) : ColumnKind.moment.Holds w ∨ w = v := by
  cases v with
  | string s =>
    refine .inl ?_
    simp only [readMoment] at h
    split at h
    · exact .inr ⟨_, (Except.ok.inj h).symm⟩
    · exact .inl (Except.ok.inj h).symm
    · cases h
  | _ => exact .inr (Except.ok.inj h).symm

/-- The text of a moment is written as it is. -/
theorem renewed_momentText (held : Json) (t : Timestamp) :
    renewed .moment held (momentText t) = .ok (momentText t) := by
  unfold renewed
  split
  · rename_i hsame
    have hheld : held = momentText t := by
      cases held with
      | string s => rw [momentText, eq_of_beq (show (t.atUniversal.text == s) = true from hsame)]
      | _ => cases hsame
    rw [hheld]
  · rfl

end Column

/-! ## Changes of a row -/

namespace Row

variable {columns : List Column} {row changed : Row} {changes : Fields}

theorem value_put (row : Row) (name other : String) (v : Json) :
    value (Fields.put row name v) other = if name = other then v else value row other := by
  rw [value, Fields.getD, Fields.get?_put]
  split <;> rfl

/-- What the first of some changes does: nothing, if no column has its name, and else its value is
written over what the column holds. -/
theorem change_cons {name : String} {v : Json} {rest : Fields}
    (h : change columns row ((name, v) :: rest) = .ok changed) :
    column? columns name = none ∧ change columns row rest = .ok changed ∨
      ∃ c w, column? columns name = some c ∧ Column.renewed c.kind (value row name) v = .ok w ∧
        change columns (Fields.put row name w) rest = .ok changed := by
  simp only [change] at h
  split at h
  · exact .inl ⟨by assumption, h⟩
  · rename_i c hc
    split at h
    · cases h
    · rename_i w hw
      exact .inr ⟨c, w, hc, hw, h⟩

/-- A column that no change names is left as it is. -/
theorem value_change_of_not_mem (h : change columns row changes = .ok changed) {name : String}
    (hname : name ∉ Fields.keys changes) : value changed name = value row name := by
  induction changes generalizing row with
  | nil => rw [Except.ok.inj h]
  | cons f rest ih =>
    obtain ⟨hne, hrest⟩ := not_or.1 fun h => hname (List.mem_cons.2 h)
    obtain ⟨-, h⟩ | ⟨c, w, -, -, h⟩ := change_cons h
    · exact ih h hrest
    · rw [ih h hrest, value_put, if_neg (Ne.symm hne)]

/-- Whatever is changed, the columns go on to hold what suits them. -/
theorem holds_change (h : change columns row changes = .ok changed) {c : Column}
    (hc : column? columns c.name = some c) (hrow : c.kind.Holds (value row c.name)) :
    c.kind.Holds (value changed c.name) := by
  induction changes generalizing row with
  | nil => exact Except.ok.inj h ▸ hrow
  | cons f rest ih =>
    obtain ⟨-, h⟩ | ⟨c', w, hc', hw, h⟩ := change_cons h
    · exact ih h hrow
    · refine ih h ?_
      rw [value_put]
      split
      · rename_i heq
        rw [heq] at hc' hw
        obtain rfl := Option.some.inj (hc'.symm.trans hc)
        exact Column.holds_of_renewed hrow hw
      · exact hrow

/-- What stands in a row after a change: each column that is named holds its value, written over
what it held; all else is as it was. -/
theorem change_spec (hkeys : (Fields.keys changes).Nodup)
    (h : change columns row changes = .ok changed) :
    (∀ name v c, Fields.get? changes name = some v → column? columns name = some c →
      Column.renewed c.kind (value row name) v = .ok (value changed name)) ∧
    ∀ name, Fields.get? changes name = none ∨ column? columns name = none →
      value changed name = value row name := by
  induction changes generalizing row with
  | nil =>
    obtain rfl := Except.ok.inj h
    exact ⟨fun _ _ _ hv => (by cases hv), fun _ _ => rfl⟩
  | cons f rest ih =>
    obtain ⟨n, u⟩ := f
    obtain ⟨hnew, hrest⟩ := List.nodup_cons.1 hkeys
    obtain ⟨hc, h⟩ | ⟨c, w, hc, hw, h⟩ := change_cons h
    · obtain ⟨hset, hkept⟩ := ih hrest h
      refine ⟨fun name v c hv hcol => ?_, fun name hname => ?_⟩
      · have hne : n ≠ name := by
          rintro rfl
          rw [hc] at hcol
          cases hcol
        rw [Fields.get?_cons, if_neg hne] at hv
        exact hset name v c hv hcol
      · refine hkept name (hname.imp_left fun hnone => ?_)
        rw [Fields.get?_cons] at hnone
        split at hnone
        · cases hnone
        · exact hnone
    · obtain ⟨hset, hkept⟩ := ih hrest h
      refine ⟨fun name v c' hv hcol => ?_, fun name hname => ?_⟩
      · rw [Fields.get?_cons] at hv
        by_cases heq : n = name
        · -- the names are distinct, so that no later change writes over the first one
          subst heq
          rw [if_pos rfl] at hv
          obtain rfl := Option.some.inj hv
          obtain rfl := Option.some.inj (hc.symm.trans hcol)
          rw [value_change_of_not_mem h hnew, value_put, if_pos rfl, hw]
        · rw [if_neg heq] at hv
          have hwritten := hset name v c' hv hcol
          rwa [value_put, if_neg heq] at hwritten
      · by_cases heq : n = name
        · subst heq
          rw [Fields.get?_cons, if_pos rfl, hc] at hname
          simp at hname
        · rw [Fields.get?_cons, if_neg heq] at hname
          rw [hkept name hname, value_put, if_neg heq]

/-- A change that every column can take is made. -/
theorem exists_change (hkeys : (Fields.keys changes).Nodup)
    (h : ∀ name v c, Fields.get? changes name = some v → column? columns name = some c →
      ∃ w, Column.renewed c.kind (value row name) v = .ok w) :
    ∃ changed, change columns row changes = .ok changed := by
  induction changes generalizing row with
  | nil => exact ⟨row, rfl⟩
  | cons f rest ih =>
    obtain ⟨n, u⟩ := f
    obtain ⟨hnew, hrest⟩ := List.nodup_cons.1 hkeys
    have hne : ∀ name v, Fields.get? rest name = some v → n ≠ name := by
      rintro name v hv rfl
      rw [Fields.get?_eq_none_iff.2 hnew] at hv
      cases hv
    simp only [change]
    cases hc : column? columns n with
    | none =>
      refine ih hrest fun name v c hv hcol => h name v c ?_ hcol
      rw [Fields.get?_cons, if_neg (hne name v hv), hv]
    | some c =>
      obtain ⟨w, hw⟩ := h n u c (by rw [Fields.get?_cons, if_pos rfl]) hc
      simp only [hw]
      refine ih hrest fun name v c' hv hcol => ?_
      rw [value_put, if_neg (hne name v hv)]
      refine h name v c' ?_ hcol
      rw [Fields.get?_cons, if_neg (hne name v hv), hv]

/-! ## New rows -/

/-- What a column holds when nothing is given for it suits its kind. -/
def hasSoundDefault (c : Column) : Bool :=
  match c.default, c.kind with
  | .nothing, _ | .freshId, .text | .now, .moment | .value _, .data => true
  | .value (.string _), .text | .value (.bool _), .truth => true
  | .value (.int n), .integer => Column.fits n
  | _, _ => false

theorem holds_defaultOf {c : Column} (h : hasSoundDefault c = true) (freshId : String)
    (now : Timestamp) : c.kind.Holds (defaultOf freshId now c.default) := by
  obtain ⟨name, kind, default, isRequired⟩ := c
  cases default with
  | nothing => cases kind <;> first | exact .inl rfl | trivial
  | freshId =>
    cases kind with
    | text => exact .inr ⟨_, rfl⟩
    | _ => cases h
  | now =>
    cases kind with
    | moment => exact .inr ⟨_, rfl⟩
    | _ => cases h
  | value v =>
    cases kind with
    | data => trivial
    | moment => cases v <;> cases h
    | text =>
      cases v with
      | string s => exact .inr ⟨s, rfl⟩
      | _ => cases h
    | integer =>
      cases v with
      | int n => exact h
      | _ => cases h
    | truth =>
      cases v with
      | bool b => exact .inr ⟨b, rfl⟩
      | _ => cases h

theorem holds_initial {c : Column} (hc : hasSoundDefault c = true) {freshId : String}
    {now : Timestamp} {given : Fields} {v : Json} (h : initial freshId now given c = .ok v) :
    c.kind.Holds v := by
  unfold initial at h
  split at h
  · exact Except.ok.inj h ▸ holds_defaultOf hc freshId now
  · obtain rfl := Except.ok.inj h
    split
    · rename_i hdata
      rw [hdata]
      trivial
    · exact holds_defaultOf hc freshId now
  · exact Column.holds_of_form h

/-- A new row holds the first value of each column, which is there where it must be. -/
theorem create_spec (hnames : (columns.map (·.name)).Nodup) {freshId : String} {now : Timestamp}
    {given : Fields} (h : create columns freshId now given = .ok row) {c : Column}
    (hc : c ∈ columns) : initial freshId now given c = .ok (value row c.name) ∧
      (c.isRequired = true → (value row c.name).isNull = false) := by
  induction columns generalizing row with
  | nil => cases hc
  | cons first rest ih =>
    obtain ⟨hfirst, hrest⟩ := List.nodup_cons.1 hnames
    simp only [create, bind, Except.bind] at h
    cases hv : initial freshId now given first with
    | error failure => simp [hv] at h
    | ok v =>
      simp only [hv] at h
      split at h
      · cases h
      · rename_i hrequired
        cases hr : create rest freshId now given with
        | error failure => simp [hr] at h
        | ok others =>
          simp only [hr, pure, Except.pure, Except.ok.injEq] at h
          subst h
          rcases List.mem_cons.1 hc with rfl | hmem
          · have hvalue : value ((c.name, v) :: others) c.name = v := by
              simp [value, Fields.getD, Fields.get?_cons]
            rw [hvalue]
            refine ⟨hv, fun hreq => ?_⟩
            simpa [hreq] using hrequired
          · have hne : first.name ≠ c.name := fun heq =>
              hfirst (List.mem_map.2 ⟨c, hmem, heq.symm⟩)
            have hvalue : value ((first.name, v) :: others) c.name = value others c.name := by
              simp [value, Fields.getD, Fields.get?_cons, hne]
            rw [hvalue]
            exact ih hrest hr hmem

/-! ## Moments among given values -/

/-- A value for a column as it is before it is written: a moment that is given as text is read. -/
def readFor (columns : List Column) (name : String) (v : Json) : Except Failure Json :=
  match column? columns name with
  | some c => if c.kind = .moment then Column.readMoment v else .ok v
  | none => .ok v

theorem readFor_of_ne_moment {name : String} {c : Column} (hc : column? columns name = some c)
    (hkind : c.kind ≠ .moment) (v : Json) : readFor columns name v = .ok v := by
  simp only [readFor, hc, hkind, if_false]

theorem readFor_of_moment {name : String} {c : Column} (hc : column? columns name = some c)
    (hkind : c.kind = .moment) (v : Json) : readFor columns name v = Column.readMoment v := by
  simp only [readFor, hc, hkind, if_true]

theorem readMoments_cons (columns : List Column) (name : String) (v : Json) (rest : Fields) :
    readMoments columns ((name, v) :: rest) =
      (readFor columns name v).bind fun w =>
        (readMoments columns rest).map fun read => (name, w) :: read := by
  simp only [readMoments, readFor, bind, Except.bind, pure, Except.pure, Except.map]
  cases column? columns name with
  | none => rfl
  | some c => by_cases hk : c.kind = .moment <;> simp only [hk, if_true, if_false]

/-- Reading moments keeps the names, and reads the value under each. -/
theorem readMoments_spec {fields read : Fields} (h : readMoments columns fields = .ok read) :
    Fields.keys read = Fields.keys fields ∧
      ∀ name v, Fields.get? fields name = some v →
        ∃ w, readFor columns name v = .ok w ∧ Fields.get? read name = some w := by
  induction fields generalizing read with
  | nil =>
    obtain rfl := Except.ok.inj h
    exact ⟨rfl, fun _ _ hv => (by cases hv)⟩
  | cons f rest ih =>
    obtain ⟨n, u⟩ := f
    rw [readMoments_cons] at h
    cases hw : readFor columns n u with
    | error failure => simp [hw, Except.bind] at h
    | ok w =>
      cases hr : readMoments columns rest with
      | error failure => simp [hw, hr, Except.bind, Except.map] at h
      | ok rest' =>
        simp only [hw, hr, Except.bind, Except.map, Except.ok.injEq] at h
        subst h
        obtain ⟨hkeys, hread⟩ := ih hr
        refine ⟨congrArg (n :: ·) hkeys, fun name v hv => ?_⟩
        rw [Fields.get?_cons] at hv ⊢
        by_cases heq : n = name
        · rw [if_pos heq] at hv ⊢
          obtain rfl := Option.some.inj hv
          exact ⟨w, heq ▸ hw, rfl⟩
        · rw [if_neg heq] at hv ⊢
          exact hread name v hv

theorem exists_readMoments {fields : Fields}
    (h : ∀ f ∈ fields, ∃ w, readFor columns f.1 f.2 = .ok w) :
    ∃ read, readMoments columns fields = .ok read := by
  induction fields with
  | nil => exact ⟨[], rfl⟩
  | cons f rest ih =>
    obtain ⟨w, hw⟩ := h f List.mem_cons_self
    obtain ⟨read, hread⟩ := ih fun g hg => h g (List.mem_cons_of_mem f hg)
    exact ⟨(f.1, w) :: read, by rw [readMoments_cons, hw, hread]; rfl⟩

end Row

end LeadDesk
