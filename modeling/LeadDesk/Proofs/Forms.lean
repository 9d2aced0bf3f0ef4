import LeadDesk.Proofs.ContactAccess
/-!
# Forms that contacts submit

An entry of a form is kept in the column that its key stands for, or under its own key among the
custom fields. Of several entries for one column the last one is kept, which is the only way in
which an entry is lost (`ContactTool.parseForm_keeps`).
-/

namespace LeadDesk

namespace ContactTool

variable {o : Office} {d e : Desk} {row changed contact : Row}
  {input payload columns custom updates : Fields}

/-! ## Where an entry belongs -/

/-- The column that a key of a form stands for. -/
def columnOf (key : String) : Option String :=
  (formColumns.find? (·.1 == normalizeKey key)).map Prod.snd

/-- A key of a form that is not kept. -/
def isIgnored (key : String) : Bool := ignoredKeys.contains (normalizeKey key)

/-- The given entries that have a column, under it. -/
def columnEntries (payload : Fields) : Fields :=
  payload.filterMap fun f => if f.2.isGiven then (columnOf f.1).map fun c => (c, f.2) else none

/-- The given entries that become custom fields. -/
def customEntries (payload : Fields) : Fields :=
  payload.filter fun f => f.2.isGiven && (columnOf f.1).isNone && !isIgnored f.1

/-- Sorting the entries of a form puts each on top of the earlier ones. -/
theorem sortEntries_eq (columns custom payload : Fields) :
    sortEntries columns custom payload =
      (Fields.overlay columns (columnEntries payload),
        Fields.overlay custom (customEntries payload)) := by
  -- both accumulators vary, as each entry goes on top of one of them
  induction payload generalizing columns custom with
  | nil => rfl
  | cons f rest ih =>
    obtain ⟨key, v⟩ := f
    simp only [sortEntries]
    cases hgiven : v.isGiven with
    | false => simp [ih, columnEntries, customEntries, hgiven]
    | true =>
      cases hfind : formColumns.find? (·.1 == normalizeKey key) with
      | some p =>
        obtain ⟨normalized, column⟩ := p
        have hcolumn : columnOf key = some column := by rw [columnOf, hfind]; rfl
        simp [ih, columnEntries, customEntries, hgiven, hcolumn, Fields.overlay]
      | none =>
        have hcolumn : columnOf key = none := by rw [columnOf, hfind]; rfl
        cases hignored : isIgnored key with
        | true =>
          have hcontains : ignoredKeys.contains (normalizeKey key) = true := hignored
          simp only [Bool.not_true, Bool.false_eq_true, if_false, hcontains, if_true, ih]
          simp [columnEntries, customEntries, hgiven, hcolumn, hignored]
        | false =>
          have hcontains : ignoredKeys.contains (normalizeKey key) = false := hignored
          simp only [Bool.not_true, Bool.false_eq_true, if_false, hcontains, ih]
          simp [columnEntries, customEntries, hgiven, hcolumn, hignored, Fields.overlay]

theorem mem_columnEntries {column : String} {v : Json} :
    (column, v) ∈ columnEntries payload ↔
      ∃ key, (key, v) ∈ payload ∧ v.isGiven = true ∧ columnOf key = some column := by
  simp only [columnEntries, List.mem_filterMap]
  constructor
  · rintro ⟨⟨key, w⟩, hmem, hf⟩
    split at hf
    · rename_i hgiven
      obtain ⟨c, hc, heq⟩ := Option.map_eq_some_iff.1 hf
      obtain ⟨rfl, rfl⟩ := Prod.mk.inj heq
      exact ⟨key, hmem, hgiven, hc⟩
    · cases hf
  · rintro ⟨key, hmem, hgiven, hc⟩
    exact ⟨(key, v), hmem, by simp [hgiven, hc]⟩

theorem mem_customEntries {key : String} {v : Json} :
    (key, v) ∈ customEntries payload ↔
      (key, v) ∈ payload ∧ v.isGiven = true ∧ columnOf key = none ∧ isIgnored key = false := by
  simp [customEntries, and_assoc]

theorem columnOf_mem {key column : String} (h : columnOf key = some column) :
    column ∈ formColumns.map Prod.snd := by
  obtain ⟨p, hp, rfl⟩ := Option.map_eq_some_iff.1 h
  exact List.mem_map_of_mem (List.mem_of_find?_eq_some hp)

/-- The last entry for a column has no other one for it behind it. -/
theorem last?_columnEntries_of_split {pre post : Fields} {key column : String} {v : Json}
    (hgiven : v.isGiven = true) (hcolumn : columnOf key = some column)
    (hlast : ∀ f ∈ post, f.2.isGiven = true → columnOf f.1 ≠ some column) :
    (columnEntries (pre ++ (key, v) :: post)).last? column = some v := by
  have hnone : (columnEntries post).last? column = none := by
    rw [Fields.last?_eq_none_iff]
    intro hmem
    obtain ⟨⟨_, w⟩, hw, rfl⟩ := List.mem_map.1 hmem
    obtain ⟨other, hother, hgiven, hc⟩ := mem_columnEntries.1 hw
    exact hlast _ hother hgiven hc
  have hsplit : columnEntries (pre ++ (key, v) :: post) =
      columnEntries pre ++ (column, v) :: columnEntries post := by
    simp [columnEntries, hgiven, hcolumn]
  rw [hsplit, Fields.last?_append, Fields.last?_cons, hnone]
  simp

/-! ## What is written for a form -/

/-- The value of technologies as it is written: a text is split into its parts. -/
def techForm : Json → Json
  | .string s => splitList s
  | v => v

/-- The columns that a form sets. -/
def formUpdates (payload : Fields) : Fields :=
  withTechList (Fields.overlay [] (columnEntries payload))

theorem get?_withTechList (columns : Fields) (name : String) :
    Fields.get? (withTechList columns) name =
      (Fields.get? columns name).map fun v => if name = "tech_stack" then techForm v else v := by
  unfold withTechList
  split
  · rename_i s hs
    rw [Fields.get?_put]
    by_cases hname : name = "tech_stack"
    · subst hname
      rw [if_pos rfl, hs]
      rfl
    · rw [if_neg (Ne.symm hname)]
      simp [hname]
  · rename_i hother
    by_cases hname : name = "tech_stack"
    · subst hname
      cases hv : Fields.get? columns "tech_stack" with
      | none => rfl
      | some v =>
        cases v with
        | string s => exact absurd hv (hother s)
        | _ => rfl
    · simp [hname]

theorem get?_formUpdates (payload : Fields) (name : String) :
    Fields.get? (formUpdates payload) name =
      ((columnEntries payload).last? name).map fun v =>
        if name = "tech_stack" then techForm v else v := by
  rw [formUpdates, get?_withTechList, Fields.get?_overlay]
  simp

theorem nodup_keys_formUpdates (payload : Fields) :
    (Fields.keys (formUpdates payload)).Nodup := by
  have hoverlay : (Fields.keys (Fields.overlay [] (columnEntries payload))).Nodup :=
    Fields.nodup_keys_overlay Fields.nodup_keys_nil _
  unfold formUpdates withTechList
  split
  · exact Fields.nodup_keys_put hoverlay _ _
  · exact hoverlay

/-- The further fields that a form has for the custom fields. -/
def formCustom (payload : Fields) : Fields := Fields.overlay [] (customEntries payload)

/-- What is shown of a form that is read. -/
def shownForm (updates : Fields) (contact : Option Row) : Json :=
  .object [("parsed", .bool true), ("fields_updated", .int updates.length),
    ("updated_fields", Json.ofTexts (Fields.keys updates)), ("contact", Input.row? contact)]

/-- To read a form is to write its updates, if it has any. -/
def writeForm (input updates : Fields) : Action Json :=
  if updates.isEmpty then pure (.object [("parsed", .bool true), ("fields_updated", 0)])
  else Archive.updateContact (Input.text input "contact_id") updates [] >>= fun contact =>
    pure (shownForm updates contact)

theorem parseForm_eq (hpayload : Input.value input "payload" .null = .object payload)
    (hsome : payload ≠ []) :
    parseForm input =
      if (formCustom payload).isEmpty then writeForm input (formUpdates payload)
      else require (Input.text input "contact_id") >>= fun contact =>
        Action.ofExcept (Input.onTopOf (Row.value contact "custom_fields") (formCustom payload)) >>=
          fun merged =>
            writeForm input (Fields.put (formUpdates payload) "custom_fields" merged) := by
  cases payload with
  | nil => exact absurd rfl hsome
  | cons entry more =>
    simp only [parseForm, hpayload, sortEntries_eq]
    rfl

/-- What is written for a form over the row of a contact, each column once. -/
structure FormWrites (row : Row) (payload written : Fields) : Prop where
  nodup : (Fields.keys written).Nodup
  columns : ∀ name, name ≠ "custom_fields" → Fields.get? written name =
    ((columnEntries payload).last? name).map fun v => if name = "tech_stack" then techForm v else v
  custom : Fields.get? written "custom_fields" =
    if (formCustom payload).isEmpty then none else some (.object
      (Fields.overlay ((Row.value row "custom_fields").fields?.getD []) (formCustom payload)))

theorem last?_columnEntries_eq_none {name : String} (h : name ∉ formColumns.map Prod.snd)
    (payload : Fields) : (columnEntries payload).last? name = none := by
  rw [Fields.last?_eq_none_iff]
  intro hmem
  obtain ⟨⟨_, v⟩, hv, rfl⟩ := List.mem_map.1 hmem
  obtain ⟨key, -, -, hcolumn⟩ := mem_columnEntries.1 hv
  exact h (columnOf_mem hcolumn)

theorem formWrites_of_empty (hempty : (formCustom payload).isEmpty = true) (row : Row) :
    FormWrites row payload (formUpdates payload) := by
  refine ⟨nodup_keys_formUpdates payload, fun name _ => get?_formUpdates payload name, ?_⟩
  rw [get?_formUpdates, last?_columnEntries_eq_none (by decide), if_pos hempty]
  rfl

theorem formWrites_of_merged {merged : Json} (hsome : (formCustom payload).isEmpty = false)
    (h : Input.onTopOf (Row.value row "custom_fields") (formCustom payload) = .ok merged) :
    FormWrites row payload (Fields.put (formUpdates payload) "custom_fields" merged) := by
  refine ⟨Fields.nodup_keys_put (nodup_keys_formUpdates payload) _ _, fun name hname => ?_, ?_⟩
  · rw [Fields.get?_put_of_ne _ _ (Ne.symm hname), get?_formUpdates]
  · rw [Fields.get?_put_self, hsome, Input.onTopOf_eq_ok h]
    rfl

/-- A form that is read for a stored contact has written what it sets over the row of the
contact. -/
theorem parseForm_cases {v : Json} (h : (parseForm input).run o d = (.done v, e))
    (hpayload : Input.value input "payload" .null = .object payload)
    (hrow : d.store.contact? (Input.text input "contact_id") = .ok (some row)) :
    ∃ written, FormWrites row payload written ∧
      (written = [] ∧ e = d ∨ ∃ changed,
        Store.checkContactUpdates written = .ok () ∧
        Store.updatedContact row d.time written [] = .ok changed ∧
        e.store = { d.store with contacts := Row.replace changed d.store.contacts }) := by
  -- with and without custom fields the reading ends in `writeForm`, which is followed once for both
  have hwrite : ∀ written, FormWrites row payload written →
      (writeForm input written).run o d = (.done v, e) →
        written = [] ∧ e = d ∨ ∃ changed,
          Store.checkContactUpdates written = .ok () ∧
          Store.updatedContact row d.time written [] = .ok changed ∧
          e.store = { d.store with contacts := Row.replace changed d.store.contacts } := by
    intro written hwrites h
    unfold writeForm at h
    split at h
    · rename_i hempty
      obtain ⟨-, rfl⟩ := Action.run_pure_eq_done.1 h
      exact .inl ⟨List.isEmpty_iff.1 hempty, rfl⟩
    · obtain ⟨found, m, hupdate, h⟩ := Action.run_bind_eq_done.1 h
      obtain ⟨-, rfl⟩ := Action.run_pure_eq_done.1 h
      obtain ⟨failure, hfailed, -⟩ | ⟨found', t, -, rfl, ht⟩ := Archive.updateContact_cases hupdate
      · cases hfailed
      obtain ⟨hcheck, ⟨hnone, -, -⟩ | ⟨row', changed, hrow', hchanged, -, rfl⟩⟩ :=
        Store.updateContact_eq_ok ht
      · rw [hrow] at hnone
        cases hnone
      obtain rfl : row = row' := by simpa [hrow] using hrow'
      exact .inr ⟨changed, hcheck, hchanged, rfl⟩
  by_cases hsome : payload = []
  · subst hsome
    refine ⟨[], formWrites_of_empty rfl row, .inl ⟨rfl, ?_⟩⟩
    simp only [parseForm, hpayload] at h
    exact (Action.run_pure_eq_done.1 h).2.symm
  rw [parseForm_eq hpayload hsome] at h
  split at h
  · rename_i hempty
    exact ⟨_, formWrites_of_empty hempty row, hwrite _ (formWrites_of_empty hempty row) h⟩
  · rename_i hcustom
    obtain ⟨contact, m, hrequire, h⟩ := Action.run_bind_eq_done.1 h
    obtain ⟨rfl, ⟨failure, hfailed⟩ | ⟨-, row', summary, hcontact, hrow'⟩⟩ := require_cases hrequire
    · cases hfailed
    obtain rfl : row = row' := by simpa [hrow] using hrow'
    obtain rfl := Ending.done.inj hcontact
    rw [value_shown row summary (by decide)] at h
    obtain ⟨merged, m', hmerge, h⟩ := Action.run_bind_eq_done.1 h
    obtain ⟨hmerged, rfl⟩ := Action.run_ofExcept_eq_done.1 hmerge
    have hwrites := formWrites_of_merged (by simpa using hcustom) hmerged
    exact ⟨_, hwrites, hwrite _ hwrites h⟩

/-! ## What a contact keeps of a form -/

/-- An entry of a form is found in a contact. -/
inductive IsFound (changed : Row) (key : String) (v : Json) : Prop
  /-- As a text, in the column that its key stands for. -/
  | text {column text : String} (belongs : columnOf key = some column)
      (plain : column ≠ "tech_stack") (form : Column.textForm v = .ok (.string text))
      (held : Row.value changed column = .string text)
  /-- In the list of technologies. -/
  | tech (belongs : columnOf key = some "tech_stack")
      (held : (Row.value changed "tech_stack").Agrees (techForm v))
  /-- Under the key itself among the custom fields. -/
  | custom {fields : Fields} {w : Json} (belongs : columnOf key = none)
      (object : Row.value changed "custom_fields" = .object fields)
      (held : Fields.get? fields key = some w) (agrees : w.Agrees v)

/-- The column that an entry of a form is for keeps its value: a text column nothing of what is no
number, and the list of technologies no number that the store has in another form. -/
def IsKept (key : String) (v : Json) : Prop :=
  if columnOf key = some "tech_stack" then ColumnKind.data.Suits (techForm v)
  else Column.textForm v ≠ .ok .null

/-- No given entry behind an entry of a form is for the same column. -/
def IsLast (payload : Fields) (key : String) (v : Json) : Prop :=
  ∃ pre post, payload = pre ++ (key, v) :: post ∧
    ∀ f ∈ post, f.2.isGiven = true → columnOf f.1 ≠ columnOf key

/-- What the columns and the custom fields of a contact hold after a form was read. -/
structure TakesForm (row changed : Row) (payload : Fields) : Prop where
  text : ∀ name v, (columnEntries payload).last? name = some v → name ≠ "tech_stack" →
    Column.textForm v = .ok (Row.value changed name)
  tech : ∀ v, (columnEntries payload).last? "tech_stack" = some v →
    ColumnKind.data.Suits (techForm v) → (Row.value changed "tech_stack").Agrees (techForm v)
  custom : formCustom payload ≠ [] →
    (Row.value changed "custom_fields").Extends (Row.value row "custom_fields") (formCustom payload)
  customKept : formCustom payload = [] →
    Row.value changed "custom_fields" = Row.value row "custom_fields"

theorem takesForm_of_nothing (h : FormWrites row payload []) : TakesForm row row payload := by
  have hnone : ∀ name, name ≠ "custom_fields" → (columnEntries payload).last? name = none := by
    intro name hname
    simpa using (h.columns name hname).symm
  have hcustom : formCustom payload = [] := by
    by_contra hsome
    have hget := h.custom
    rw [if_neg (by simpa using hsome)] at hget
    cases hget
  refine ⟨fun name v hv _ => ?_, fun v hv _ => ?_, fun hsome => absurd hcustom hsome, fun _ => rfl⟩
  · by_cases hname : name = "custom_fields"
    · rw [hname, last?_columnEntries_eq_none (by decide)] at hv
      cases hv
    · rw [hnone name hname] at hv
      cases hv
  · rw [hnone _ (by decide)] at hv
    cases hv

theorem kind_of_formColumn : ∀ name ∈ formColumns.map Prod.snd, name ≠ "tech_stack" →
    (Row.column? Tables.contacts name).map (·.kind) = some .text := by
  decide

theorem takesForm_of_updated {written : Fields} {now : Timestamp}
    (hrow : ∀ c ∈ Tables.contacts, c.kind.Holds (Row.value row c.name))
    (hwrites : FormWrites row payload written)
    (h : Store.Updated row changed written (Store.ownMoments now [])) :
    TakesForm row changed payload := by
  refine ⟨fun name v hv htech => ?_, fun v hv hsuits => ?_, fun hsome => ?_, fun hnone => ?_⟩
  · have hname : name ∈ formColumns.map Prod.snd := by
      by_contra hno
      rw [last?_columnEntries_eq_none hno] at hv
      cases hv
    obtain ⟨hcustom, hpresent⟩ := (by decide : ∀ name ∈ formColumns.map Prod.snd,
      name ≠ "custom_fields" ∧ name ≠ "updated_at") name hname
    obtain ⟨c, hc, hkind⟩ := Option.map_eq_some_iff.1 (kind_of_formColumn name hname htech)
    refine h.textForm hrow hc hkind ?_ (Store.get?_ownMoments hpresent)
    rw [hwrites.columns name hcustom, hv]
    simp [htech]
  · have hwritten := hwrites.columns "tech_stack" (by decide)
    rw [hv] at hwritten
    obtain ⟨w, hw, hrenewed⟩ := h.written "tech_stack" (techForm v) (Tables.list "tech_stack")
      hwritten (Store.get?_ownMoments (by decide)) rfl
    obtain rfl := Except.ok.inj hw
    exact Column.agrees_of_renewed (show (Tables.list "tech_stack").kind.Suits _ from hsuits)
      hrenewed
  · have hwritten := hwrites.custom
    rw [if_neg (by simpa using hsome)] at hwritten
    obtain ⟨w, hw, hrenewed⟩ := h.written "custom_fields" _ (Tables.object "custom_fields") hwritten
      (Store.get?_ownMoments (by decide)) rfl
    obtain rfl := Except.ok.inj hw
    exact Json.extends_of_renewed hrenewed
  · refine h.kept "custom_fields" ?_ (Store.get?_ownMoments (by decide))
    rw [hwrites.custom, hnone]
    rfl

/-- What becomes of the entries of a form. -/
structure KeepsForm (row changed : Row) (payload : Fields) : Prop where
  /-- An entry that no column stands for is found, unless its key is one that is not kept. -/
  custom : ∀ key v, (key, v) ∈ payload → v.isGiven = true → columnOf key = none →
    isIgnored key = false → IsFound changed key v
  /-- An entry with a column that keeps its value is found if no later one is for this column. -/
  last : ∀ key v, v.isGiven = true → columnOf key ≠ none → IsLast payload key v → IsKept key v →
    IsFound changed key v
  /-- An entry for a text column is found just if the last one for this column has the same text. -/
  found_iff : ∀ key v column last, columnOf key = some column → column ≠ "tech_stack" →
    (columnEntries payload).last? column = some last → Column.textForm last ≠ .ok .null →
      (IsFound changed key v ↔ Column.textForm v = Column.textForm last)
  /-- Custom fields under other keys stay. -/
  others : ∀ key, (∀ v, (key, v) ∉ customEntries payload) →
    Fields.get? ((Row.value changed "custom_fields").fields?.getD []) key =
      Fields.get? ((Row.value row "custom_fields").fields?.getD []) key

theorem nodup_keys_customEntries (hkeys : (Fields.keys payload).Nodup) :
    (Fields.keys (customEntries payload)).Nodup :=
  hkeys.sublist (List.filter_sublist.map _)

theorem last?_formCustom (hkeys : (Fields.keys payload).Nodup) (key : String) :
    (formCustom payload).last? key = Fields.get? (customEntries payload) key := by
  have hcustom := nodup_keys_customEntries hkeys
  have hoverlay : (Fields.keys (formCustom payload)).Nodup :=
    Fields.nodup_keys_overlay Fields.nodup_keys_nil _
  rw [Fields.last?_eq_get? hoverlay, formCustom, Fields.get?_overlay, Fields.last?_eq_get? hcustom]
  simp

theorem last?_of_isLast {key column : String} {v : Json} (hgiven : v.isGiven = true)
    (hcolumn : columnOf key = some column) (h : IsLast payload key v) :
    (columnEntries payload).last? column = some v := by
  obtain ⟨pre, post, rfl, hlast⟩ := h
  exact last?_columnEntries_of_split hgiven hcolumn fun f hf hg => hcolumn ▸ hlast f hf hg

/-- What is the text of a value, and not null, is found in a column as this text. -/
theorem isFound_of_textForm {key column : String} {v : Json} (hcolumn : columnOf key = some column)
    (htech : column ≠ "tech_stack") (hform : Column.textForm v = .ok (Row.value changed column))
    (hsome : Column.textForm v ≠ .ok .null) : IsFound changed key v := by
  obtain hnull | ⟨text, htext⟩ := Column.holds_textForm hform
  · exact absurd (hnull ▸ hform) hsome
  · exact .text hcolumn htech (htext ▸ hform) htext

theorem keepsForm_of_takes (hkeys : (Fields.keys payload).Nodup)
    (h : TakesForm row changed payload) : KeepsForm row changed payload := by
  refine ⟨fun key v hmem hgiven hcolumn hignored => ?_, fun key v hgiven hcolumn hlast hkept => ?_,
    fun key v column last hcolumn htech hlast hsome => ?_, fun key hnone => ?_⟩
  · have hget : (formCustom payload).last? key = some v := by
      rw [last?_formCustom hkeys]
      exact Fields.get?_of_mem (nodup_keys_customEntries hkeys)
        (mem_customEntries.2 ⟨hmem, hgiven, hcolumn, hignored⟩)
    have hsome : formCustom payload ≠ [] := by
      intro hnil
      rw [hnil] at hget
      cases hget
    obtain ⟨fields, hfields, hon, -⟩ := h.custom hsome
    obtain ⟨w, hw, hagrees⟩ := hon key v hget
    exact .custom hcolumn hfields hw hagrees
  · obtain ⟨column, hcolumn⟩ := Option.ne_none_iff_exists'.1 hcolumn
    have hget := last?_of_isLast hgiven hcolumn hlast
    by_cases htech : column = "tech_stack"
    · subst htech
      rw [IsKept, if_pos hcolumn] at hkept
      exact .tech hcolumn (h.tech v hget hkept)
    · rw [IsKept, if_neg fun heq => htech (Option.some.inj (hcolumn.symm.trans heq))] at hkept
      exact isFound_of_textForm hcolumn htech (h.text column v hget htech) hkept
  · have hform := h.text column last hlast htech
    constructor
    · intro hfound
      cases hfound with
      | text belongs _ form held =>
        obtain rfl := Option.some.inj (hcolumn.symm.trans belongs)
        rw [form, hform, held]
      | tech belongs => exact absurd (Option.some.inj (hcolumn.symm.trans belongs)) htech
      | custom belongs =>
        rw [hcolumn] at belongs
        cases belongs
    · intro hsame
      exact isFound_of_textForm hcolumn htech (hsame.trans hform) (hsame ▸ hsome)
  · by_cases hcustom : formCustom payload = []
    · rw [h.customKept hcustom]
    · obtain ⟨fields, hfields, -, hrest⟩ := h.custom hcustom
      rw [hfields]
      refine hrest key ?_
      rw [last?_formCustom hkeys, Fields.get?_eq_none_iff]
      intro hmem
      obtain ⟨⟨_, v⟩, hv, rfl⟩ := List.mem_map.1 hmem
      exact hnone v hv

/-- **Forms.** Reading a form for a stored contact changes the row of this contact alone, which
keeps what `KeepsForm` says of the entries. -/
theorem parseForm_keeps (hs : d.store.IsOrderly) {v : Json}
    (hpayload : Input.value input "payload" .null = .object payload)
    (hkeys : (Fields.keys payload).Nodup)
    (hrow : d.store.contact? (Input.text input "contact_id") = .ok (some row))
    (h : (parseForm input).run o d = (.done v, e)) :
    ∃ changed, Row.id changed = Row.id row ∧ KeepsForm row changed payload ∧
      e.store = { d.store with
        contacts := d.store.contacts.map fun r =>
          if Row.id r = Row.id row then changed else r } := by
  have hmem := (Store.mem_of_contact? hrow).1
  obtain ⟨written, hwrites, ⟨rfl, rfl⟩ | ⟨changed, hcheck, hchanged, hstore⟩⟩ :=
    parseForm_cases h hpayload hrow
  · refine ⟨row, rfl, keepsForm_of_takes hkeys (takesForm_of_nothing hwrites), ?_⟩
    rw [hs.map_self hmem]
  · have hid := Store.id_of_updatedContact hcheck hchanged
    have htakes := takesForm_of_updated (hs.holds row hmem) hwrites
      (Store.updatedContact_spec hwrites.nodup (Store.nodup_ownMoments _) hchanged)
    exact ⟨changed, hid, keepsForm_of_takes hkeys htakes, by rw [hstore, Store.replace_eq hid]⟩

/-- Of a title and a role the later one is kept. -/
theorem parseForm_keeps_role :
    ∃ s, Store.ContactWrite {} s ∧ ∃ changed v e,
      (parseForm [("contact_id", .string "c1"),
        ("payload", .object [("title", .string "CTO"), ("role", .string "Founder")])]).run {}
          { store := s } = (.done v, e) ∧
      IsFound changed "role" (.string "Founder") ∧ ¬ IsFound changed "title" (.string "CTO") ∧
      e.store.contacts = [changed] := by
  have hwrite : Store.ContactWrite {} _ :=
    .added "c1" (Timestamp.utc 0) [("first_name", .string "Ann")] rfl
  refine ⟨_, hwrite, ?_⟩
  have hpayload : Input.value [("contact_id", .string "c1"),
      ("payload", .object [("title", .string "CTO"), ("role", .string "Founder")])]
        "payload" .null =
      .object [("title", .string "CTO"), ("role", .string "Founder")] := rfl
  obtain ⟨changed, hid, hkeeps, hstore⟩ := parseForm_keeps (o := {}) (d := { store := _ })
    (Store.IsOrderly.of_writes (.single hwrite)) hpayload (by decide) rfl rfl
  have hrole : columnOf "role" = some "title" := by decide +kernel
  have hlast : IsLast [("title", .string "CTO"), ("role", .string "Founder")] "role"
      (.string "Founder") := ⟨[("title", .string "CTO")], [], rfl, fun f hf => by cases hf⟩
  refine ⟨changed, _, _, rfl, ?_, ?_, ?_⟩
  · have hkept : IsKept "role" (.string "Founder") := by
      rw [IsKept, hrole, if_neg (by decide)]
      exact nofun
    exact hkeeps.last "role" _ rfl (by rw [hrole]; exact nofun) hlast hkept
  · rw [hkeeps.found_iff "title" _ "title" _ (by decide +kernel) (by decide)
      (last?_of_isLast rfl hrole hlast) nofun]
    intro hsame
    exact absurd (Json.string.inj (Except.ok.inj hsame)) (by decide)
  · rw [hstore]
    rfl

end ContactTool

end LeadDesk
