import LeadDesk.Proofs.ContactAccess
/-!
# Updating contacts

An update of a contact is refused for one of a few reasons, with the store unchanged
(`ContactTool.UpdateRefused`); in all other cases each value that is not blank is written in the
form that its column keeps, custom fields are put on top of the stored ones, and nothing else
changes but the moment of the last update (`ContactTool.update_settles`).
-/

namespace LeadDesk

namespace ContactTool

variable {o : Office} {d e : Desk} {row changed contact : Row} {input updates : Fields}
  {now : Timestamp}

/-! ## What an update asks for -/

/-- The input names a value for a column, which is not blank. -/
def Asks (input : Fields) (name : String) (v : Json) : Prop :=
  Fields.get? input name = some v ∧ name ≠ "contact_id" ∧ isBlankUpdate v = false

/-- The values that are not blank, by the columns that they are for. -/
def updatesOf (input : Fields) : Fields :=
  (Fields.drop input "contact_id").filter fun f => !isBlankUpdate f.2

theorem update_eq (input : Fields) :
    update input = require (Input.text input "contact_id") >>= fun contact =>
      if (updatesOf input).isEmpty then pure (.object contact)
      else Action.ofExcept (withCustomFields contact (updatesOf input)) >>= fun updates =>
        Archive.updateContact (Input.text input "contact_id") updates [] >>= fun found =>
          pure (Input.row? found) := rfl

theorem nodup_updatesOf (hkeys : (Fields.keys input).Nodup) :
    (Fields.keys (updatesOf input)).Nodup :=
  hkeys.sublist ((List.filter_sublist.trans List.filter_sublist).map _)

theorem mem_updatesOf {name : String} {v : Json} :
    (name, v) ∈ updatesOf input ↔
      (name, v) ∈ input ∧ name ≠ "contact_id" ∧ isBlankUpdate v = false := by
  simp only [updatesOf, Fields.drop, List.mem_filter, and_assoc, bne_iff_ne, Bool.not_eq_true']

theorem get?_updatesOf (hkeys : (Fields.keys input).Nodup) {name : String} {v : Json} :
    Fields.get? (updatesOf input) name = some v ↔ Asks input name v := by
  constructor
  · intro h
    obtain ⟨hmem, hrest⟩ := mem_updatesOf.1 (Fields.mem_of_get? h)
    exact ⟨Fields.get?_of_mem hkeys hmem, hrest⟩
  · rintro ⟨h, hrest⟩
    exact Fields.get?_of_mem (nodup_updatesOf hkeys)
      (mem_updatesOf.2 ⟨Fields.mem_of_get? h, hrest⟩)

theorem updatesOf_isEmpty_iff (hkeys : (Fields.keys input).Nodup) :
    (updatesOf input).isEmpty = true ↔ ∀ name v, ¬ Asks input name v := by
  rw [List.isEmpty_iff, List.eq_nil_iff_forall_not_mem]
  constructor
  · intro h name v hv
    exact h _ (Fields.mem_of_get? ((get?_updatesOf hkeys).2 hv))
  · rintro h ⟨name, v⟩ hmem
    exact h name v ((get?_updatesOf hkeys).1
      (Fields.get?_of_mem (nodup_updatesOf hkeys) hmem))

/-- Why an update is refused. -/
inductive UpdateRefused (s : Store) (input : Fields) : Prop
  /-- No contact is stored under the id. -/
  | absent (missing : ∀ row, (Input.text input "contact_id").isGiven = true →
      s.contact? (Input.text input "contact_id") ≠ .ok (some row))
  /-- The id, the moment of creation or what is no column is to be changed. -/
  | foreign {name : String} {v : Json} (asked : Asks input name v)
      (fixed : name ∉ Tables.changeableContactColumns)
  /-- The text for a moment is none of a moment. -/
  | unreadable {name text : String} {c : Column} {failure : Failure}
      (asked : Asks input name (.string text))
      (column : Row.column? Tables.contacts name = some c) (kind : c.kind = .moment)
      (fault : Column.readMoment (.string text) = .error failure)
  /-- The store does not write such a value into such a column. The moment of the last update is
  not written from the input. -/
  | unsuitable {row : Row} {name : String} {v : Json} {c : Column} {failure : Failure}
      (asked : Asks input name v) (other : name ≠ "updated_at")
      (stored : s.contact? (Input.text input "contact_id") = .ok (some row))
      (column : Row.column? Tables.contacts name = some c)
      (fault : Column.renewed c.kind (Row.value row name) v = .error failure)
  /-- Custom fields are to be put on top of what is no object. -/
  | unmergeable {row : Row} {more : Fields} (asked : Asks input "custom_fields" (.object more))
      (stored : s.contact? (Input.text input "contact_id") = .ok (some row))
      (given : (Row.value row "custom_fields").isGiven = true)
      (noObject : (Row.value row "custom_fields").fields? = none)

/-! ## What an update writes -/

/-- What is written for an update names the same columns, with custom fields on top of the stored
ones. -/
theorem withCustomFields_spec {final : Fields} (h : withCustomFields contact updates = .ok final) :
    Fields.keys final = Fields.keys updates ∧
      (∀ name, name ≠ "custom_fields" → Fields.get? final name = Fields.get? updates name) ∧
      (∀ more, Fields.get? updates "custom_fields" = some (.object more) →
        Fields.get? final "custom_fields" = some (.object
          (Fields.overlay ((Row.value contact "custom_fields").fields?.getD []) more))) ∧
      ((∀ more, Fields.get? updates "custom_fields" ≠ some (.object more)) → final = updates) := by
  unfold withCustomFields at h
  split at h
  · rename_i more hmore
    cases hm : Input.onTopOf (Row.value contact "custom_fields") more with
    | error failure => simp [hm, bind, Except.bind] at h
    | ok merged =>
      simp only [hm, bind, Except.bind, pure, Except.pure, Except.ok.injEq] at h
      subst h
      have hin : "custom_fields" ∈ Fields.keys updates :=
        List.mem_map_of_mem (Fields.mem_of_get? hmore)
      refine ⟨by rw [Fields.keys_put, if_pos hin], fun name hname => ?_, fun more' hmore' => ?_,
        fun hnone => absurd hmore (hnone more)⟩
      · exact Fields.get?_put_of_ne _ _ (Ne.symm hname)
      · obtain rfl : more = more' := by simpa [hmore] using hmore'
        rw [Fields.get?_put_self, Input.onTopOf_eq_ok hm]
  · rename_i hother
    obtain rfl := Except.ok.inj h
    exact ⟨rfl, fun _ _ => rfl, fun more hmore => absurd hmore (hother more), fun _ => rfl⟩

/-- What is asked for is written as it is, of custom fields apart. -/
theorem get?_final {final : Fields} (hkeys : (Fields.keys input).Nodup)
    (hfinal : withCustomFields contact (updatesOf input) = .ok final) {name : String} {v : Json}
    (hv : Asks input name v) (hplain : name = "custom_fields" → v.fields? = none) :
    Fields.get? final name = some v := by
  obtain ⟨-, hget, -, hother⟩ := withCustomFields_spec hfinal
  have hgiven := (get?_updatesOf hkeys).2 hv
  by_cases hname : name = "custom_fields"
  · subst hname
    rw [hother fun more hmore => ?_, hgiven]
    obtain rfl := Option.some.inj (hgiven.symm.trans hmore)
    cases hplain rfl
  · rw [hget name hname, hgiven]

/-- What a contact holds after an update at a moment. -/
structure TakesUpdates (row changed : Row) (input : Fields) (now : Timestamp) : Prop where
  /-- Each value that is not blank is written over what its column held, unless it is a number in a
  data column that the store has in another form. -/
  written : ∀ name v c, Asks input name v → Row.column? Tables.contacts name = some c →
    c.kind ≠ .moment → (name = "custom_fields" → v.fields? = none) →
      (c.kind = .data → c.kind.Suits v) →
        Column.renewed c.kind (Row.value row name) v = .ok (Row.value changed name)
  /-- A value of the kind of its column is held as it is. -/
  suiting : ∀ name v c, Asks input name v → Row.column? Tables.contacts name = some c →
    (name = "custom_fields" → v.fields? = none) → c.kind.Suits v →
      (Row.value changed name).Agrees v
  /-- Custom fields are put on top of the stored ones. -/
  merged : ∀ more, Asks input "custom_fields" (.object more) →
    (Row.value changed "custom_fields").Extends (Row.value row "custom_fields") more
  /-- A moment is held as its text is read. -/
  moment : ∀ name text c t, Asks input name (.string text) → name ≠ "updated_at" →
    Row.column? Tables.contacts name = some c → c.kind = .moment →
      Timestamp.ofJson? (.string text) = .ok (some t) →
        Row.value changed name = Column.momentText t
  /-- What is not named, or with a blank value, stays as it was. -/
  kept : ∀ name, (∀ v, ¬ Asks input name v) → name ≠ "updated_at" →
    Row.value changed name = Row.value row name
  present : Row.value changed "updated_at" = Column.momentText now

theorem takesUpdates_of_updated {final : Fields} {summary : Json}
    (hkeys : (Fields.keys input).Nodup)
    (hfinal : withCustomFields (Fields.put row "company" summary) (updatesOf input) = .ok final)
    (h : Store.Updated row changed final (Store.ownMoments now [])) :
    TakesUpdates row changed input now := by
  obtain ⟨hnames, -, hmerged, -⟩ := withCustomFields_spec hfinal
  have hcustom : Row.column? Tables.contacts "custom_fields" =
      some (Tables.object "custom_fields") := rfl
  have hwritten : ∀ name v c, Asks input name v → Row.column? Tables.contacts name = some c →
      c.kind ≠ .moment → (name = "custom_fields" → v.fields? = none) →
        Column.renewed c.kind (Row.value row name) v = .ok (Row.value changed name) := by
    intro name v c hv hc hkind hplain
    have hne : name ≠ "updated_at" := by
      rintro rfl
      obtain rfl := Option.some.inj (hc.symm.trans (rfl :
        Row.column? Tables.contacts "updated_at" = some (Tables.present "updated_at")))
      exact hkind rfl
    obtain ⟨w, hw, hrenewed⟩ :=
      h.written name v c (get?_final hkeys hfinal hv hplain) (Store.get?_ownMoments hne) hc
    obtain rfl := Except.ok.inj ((Row.readFor_of_ne_moment hc hkind v).symm.trans hw)
    exact hrenewed
  refine ⟨fun name v c hv hc hkind hplain _ => hwritten name v c hv hc hkind hplain,
    fun name v c hv hc hplain hsuits => ?_, fun more hmore => ?_,
    fun name text c t hv hne hc hkind ht => ?_, fun name hnone hne => ?_, ?_⟩
  · have hkind : c.kind ≠ .moment := fun hkind => by
      rw [hkind] at hsuits
      cases v <;> exact hsuits
    exact Column.agrees_of_renewed hsuits (hwritten name v c hv hc hkind hplain)
  · have hgiven := hmerged more ((get?_updatesOf hkeys).2 hmore)
    rw [value_shown row summary (by decide)] at hgiven
    obtain ⟨w, hw, hrenewed⟩ :=
      h.written "custom_fields" _ _ hgiven (Store.get?_ownMoments (by decide)) hcustom
    obtain rfl := Except.ok.inj ((Row.readFor_of_ne_moment hcustom (by decide) _).symm.trans hw)
    exact Json.extends_of_renewed hrenewed
  · obtain ⟨w, hw, hrenewed⟩ :=
      h.written name _ c (get?_final hkeys hfinal hv fun _ => rfl) (Store.get?_ownMoments hne) hc
    rw [Row.readFor_of_moment hc hkind, Column.readMoment, ht] at hw
    obtain rfl := Except.ok.inj hw
    rw [hkind, Column.renewed_momentText] at hrenewed
    exact (Except.ok.inj hrenewed).symm
  · refine h.kept name ?_ (Store.get?_ownMoments hne)
    rw [Fields.get?_eq_none_iff, hnames, ← Fields.get?_eq_none_iff,
      Option.eq_none_iff_forall_ne_some]
    exact fun v hv => hnone v ((get?_updatesOf hkeys).1 hv)
  · exact h.momentText (c := Tables.present "updated_at") rfl rfl rfl

/-! ## How an update ends -/

/-- An update fails with the store unchanged, or it shows a contact that is stored, which it has
changed if anything was asked for. -/
theorem update_cases {ending : Ending Json} (h : (update input).run o d = (ending, e)) :
    (∃ failure, ending = .failed failure ∧ e.store = d.store) ∨
      (Input.text input "contact_id").isGiven = true ∧
      ∃ row, d.store.contact? (Input.text input "contact_id") = .ok (some row) ∧
        ((updatesOf input).isEmpty = true ∧ e = d ∧ (∃ shown, ending = .done shown) ∨
          (updatesOf input).isEmpty = false ∧ ∃ summary final changed,
            withCustomFields (Fields.put row "company" summary) (updatesOf input) = .ok final ∧
            Store.checkContactUpdates final = .ok () ∧
            Store.updatedContact row d.time final [] = .ok changed ∧
            ending = .done (.object changed) ∧
            e = { d with
              clock := d.clock + 1
              store := { d.store with contacts := Row.replace changed d.store.contacts } }) := by
  rw [update_eq, Action.run_bind] at h
  rcases hr : (require (Input.text input "contact_id")).run o d with ⟨asked, m⟩
  rw [hr] at h
  obtain ⟨rfl, ⟨failure, rfl⟩ | ⟨hgiven, row, summary, rfl, hrow⟩⟩ := require_cases hr
  · obtain ⟨rfl, rfl⟩ := Prod.mk.inj h
    exact .inl ⟨failure, rfl, rfl⟩
  dsimp only at h
  split at h
  · rename_i hempty
    obtain ⟨rfl, rfl⟩ := Prod.mk.inj h
    exact .inr ⟨hgiven, row, hrow, .inl ⟨hempty, rfl, _, rfl⟩⟩
  · rename_i hsome
    cases hf : withCustomFields (Fields.put row "company" summary) (updatesOf input) with
    | error failure =>
      rw [hf] at h
      obtain ⟨rfl, rfl⟩ := Prod.mk.inj h
      exact .inl ⟨failure, rfl, rfl⟩
    | ok final =>
      rw [hf, Action.run_bind_of_done (e := m) rfl, Action.run_bind] at h
      rcases hu : (Archive.updateContact (Input.text input "contact_id") final []).run o m with
        ⟨written, m'⟩
      rw [hu] at h
      obtain ⟨failure, rfl, hstore⟩ | ⟨found, t, rfl, rfl, ht⟩ := Archive.updateContact_cases hu
      · obtain ⟨rfl, rfl⟩ := Prod.mk.inj h
        exact .inl ⟨failure, rfl, hstore⟩
      · obtain ⟨rfl, rfl⟩ := Prod.mk.inj h
        obtain ⟨hcheck, ⟨hnone, -, -⟩ | ⟨row', changed, hrow', hchanged, rfl, rfl⟩⟩ :=
          Store.updateContact_eq_ok ht
        · rw [hrow] at hnone
          cases hnone
        · obtain rfl : row = row' := by simpa [hrow] using hrow'
          exact .inr ⟨hgiven, row, hrow, .inr ⟨by simpa using hsome, summary, final, changed, hf,
            hcheck, hchanged, rfl, rfl⟩⟩

theorem withCustomFields_of_object {more : Fields}
    (h : Fields.get? updates "custom_fields" = some (.object more)) :
    withCustomFields contact updates =
      (Input.onTopOf (Row.value contact "custom_fields") more).map
        (Fields.put updates "custom_fields") := by
  simp only [withCustomFields, h]
  cases Input.onTopOf (Row.value contact "custom_fields") more <;> rfl

/-- What an update has written could be written over what its column held. -/
theorem exists_renewed_of_updated {final : Fields} (hkeys : (Fields.keys input).Nodup)
    (hfinal : withCustomFields contact (updatesOf input) = .ok final)
    (hup : Store.Updated row changed final (Store.ownMoments now [])) {name : String} {v : Json}
    {c : Column} (asked : Asks input name v) (other : name ≠ "updated_at")
    (column : Row.column? Tables.contacts name = some c) :
    ∃ u, Column.renewed c.kind (Row.value row name) v = .ok u := by
  by_cases hplain : name = "custom_fields" → v.fields? = none
  · obtain ⟨w, hw, hrenewed⟩ :=
      hup.written name v c (get?_final hkeys hfinal asked hplain) (Store.get?_ownMoments other)
        column
    by_cases hkind : c.kind = .moment
    · rw [Row.readFor_of_moment column hkind] at hw
      cases v with
      | string text => exact hkind ▸ Column.exists_renewed_moment _ (.inr ⟨text, rfl⟩)
      | _ =>
        obtain rfl := Except.ok.inj hw
        exact ⟨_, hrenewed⟩
    · obtain rfl := Except.ok.inj ((Row.readFor_of_ne_moment column hkind v).symm.trans hw)
      exact ⟨_, hrenewed⟩
  · obtain ⟨rfl, -⟩ := Classical.not_imp.1 hplain
    obtain rfl := Option.some.inj (column.symm.trans
      (rfl : Row.column? Tables.contacts "custom_fields" = some (Tables.object "custom_fields")))
    exact Column.exists_renewed_data _ v

/-- An update that comes to a value was not to be refused. -/
theorem not_refused_of_done (hkeys : (Fields.keys input).Nodup) {shown : Json}
    (h : (update input).run o d = (.done shown, e)) : ¬ UpdateRefused d.store input := by
  obtain ⟨failure, hfailed, -⟩ | ⟨hgiven, row, hrow, hcase⟩ := update_cases h
  · cases hfailed
  intro hrefused
  obtain ⟨hempty, -, -⟩ | ⟨-, summary, final, changed, hfinal, hcheck, hchanged, -, -⟩ := hcase
  · -- every reason but the absence of the contact needs a value that is asked for
    have hnone := (updatesOf_isEmpty_iff hkeys).1 hempty
    cases hrefused with
    | absent missing => exact missing row hgiven hrow
    | foreign asked | unreadable asked | unsuitable asked | unmergeable asked =>
      exact hnone _ _ asked
  obtain ⟨hnames, -, -, -⟩ := withCustomFields_spec hfinal
  have hup := Store.updatedContact_spec (hnames ▸ nodup_updatesOf hkeys) (Store.nodup_ownMoments _)
    hchanged
  cases hrefused with
  | absent missing => exact missing row hgiven hrow
  | foreign asked fixed =>
    refine Store.not_mem_of_check hcheck fixed (hnames ▸ ?_)
    exact List.mem_map_of_mem (Fields.mem_of_get? ((get?_updatesOf hkeys).2 asked))
  | unreadable asked column kind fault =>
    have hget := get?_final hkeys hfinal asked fun _ => rfl
    obtain ⟨w, hw⟩ := Store.exists_readFor hchanged hget
    rw [Row.readFor_of_moment column kind, fault] at hw
    cases hw
  | @unsuitable row' name v c failure asked other stored column fault =>
    obtain rfl : row = row' := by simpa [hrow] using stored
    obtain ⟨u, hu⟩ := exists_renewed_of_updated hkeys hfinal hup asked other column
    rw [hu] at fault
    cases fault
  | @unmergeable row' more asked stored given noObject =>
    obtain rfl : row = row' := by simpa [hrow] using stored
    rw [withCustomFields_of_object ((get?_updatesOf hkeys).2 asked),
      value_shown row summary (by decide)] at hfinal
    obtain ⟨failure, hfailure⟩ := Input.onTopOf_of_noObject given noObject more
    rw [hfailure] at hfinal
    cases hfinal

/-! ### What is not refused -/

section Free

variable {s : Store} {final : Fields} {name : String} {v : Json}

theorem exists_contact_of_free (hfree : ¬ UpdateRefused s input) :
    ∃ row, (Input.text input "contact_id").isGiven = true ∧
      s.contact? (Input.text input "contact_id") = .ok (some row) := by
  by_contra hnone
  exact hfree (.absent fun row hgiven hrow => hnone ⟨row, hgiven, hrow⟩)

theorem exists_withCustomFields_of_free (hkeys : (Fields.keys input).Nodup)
    (hrow : s.contact? (Input.text input "contact_id") = .ok (some row))
    (hfree : ¬ UpdateRefused s input) (summary : Json) :
    ∃ final, withCustomFields (Fields.put row "company" summary) (updatesOf input) = .ok final := by
  by_cases hobject : ∃ more, Fields.get? (updatesOf input) "custom_fields" = some (.object more)
  · obtain ⟨more, hmore⟩ := hobject
    rw [withCustomFields_of_object hmore, value_shown row summary (by decide)]
    cases hm : Input.onTopOf (Row.value row "custom_fields") more with
    | ok merged => exact ⟨_, rfl⟩
    | error failure =>
      obtain ⟨hgiven, hno⟩ := Input.onTopOf_eq_error hm
      exact absurd (.unmergeable ((get?_updatesOf hkeys).1 hmore) hrow hgiven hno) hfree
  · refine ⟨updatesOf input, ?_⟩
    unfold withCustomFields
    split
    · rename_i more hmore
      exact absurd ⟨more, hmore⟩ hobject
    · rfl

theorem check_of_free (hkeys : (Fields.keys input).Nodup)
    (hfinal : withCustomFields contact (updatesOf input) = .ok final)
    (hfree : ¬ UpdateRefused s input) : Store.checkContactUpdates final = .ok () := by
  refine (Store.checkContactUpdates_eq_ok_iff final).2 fun f hf => ?_
  by_contra hfixed
  have hmem : f.1 ∈ Fields.keys final := List.mem_map_of_mem hf
  rw [(withCustomFields_spec hfinal).1] at hmem
  obtain ⟨v, hv⟩ := Option.ne_none_iff_exists'.1 fun hnone => Fields.get?_eq_none_iff.1 hnone hmem
  exact hfree (.foreign ((get?_updatesOf hkeys).1 hv) hfixed)

/-- Custom fields apart, what is written was asked for. -/
theorem asks_of_final (hkeys : (Fields.keys input).Nodup)
    (hfinal : withCustomFields contact (updatesOf input) = .ok final)
    (hv : Fields.get? final name = some v) (hname : name ≠ "custom_fields") :
    Asks input name v := by
  rw [(withCustomFields_spec hfinal).2.1 name hname] at hv
  exact (get?_updatesOf hkeys).1 hv

theorem exists_readFor_of_free (hv : Asks input name v) (hfree : ¬ UpdateRefused s input) :
    ∃ w, Row.readFor Tables.contacts name v = .ok w := by
  cases hc : Row.column? Tables.contacts name with
  | none => exact ⟨v, by simp only [Row.readFor, hc]⟩
  | some c =>
    by_cases hkind : c.kind = .moment
    · rw [Row.readFor_of_moment hc hkind]
      cases v with
      | string text =>
        cases hread : Column.readMoment (.string text) with
        | ok w => exact ⟨w, rfl⟩
        | error failure => exact absurd (.unreadable hv hc hkind hread) hfree
      | _ => exact ⟨_, rfl⟩
    · exact ⟨v, Row.readFor_of_ne_moment hc hkind v⟩

theorem exists_renewed_of_free {c : Column} {w : Json} (hv : Asks input name v)
    (hother : name ≠ "updated_at")
    (hrow : s.contact? (Input.text input "contact_id") = .ok (some row))
    (hc : Row.column? Tables.contacts name = some c)
    (hw : Row.readFor Tables.contacts name v = .ok w) (hfree : ¬ UpdateRefused s input) :
    ∃ u, Column.renewed c.kind (Row.value row name) w = .ok u := by
  -- a text for a moment has been read by now, and what was read can always be written
  by_cases hread : ColumnKind.moment.Holds w ∧ c.kind = .moment
  · rw [hread.2]
    exact Column.exists_renewed_moment _ hread.1
  · have hsame : w = v := by
      by_cases hkind : c.kind = .moment
      · rw [Row.readFor_of_moment hc hkind] at hw
        exact (Column.readMoment_cases hw).resolve_left fun h => hread ⟨h, hkind⟩
      · exact (Except.ok.inj ((Row.readFor_of_ne_moment hc hkind v).symm.trans hw)).symm
    subst hsame
    cases hrenewed : Column.renewed c.kind (Row.value row name) w with
    | ok u => exact ⟨u, rfl⟩
    | error failure => exact absurd (.unsuitable hv hother hrow hc hrenewed) hfree

theorem exists_updatedContact_of_free (hkeys : (Fields.keys input).Nodup)
    (hrow : s.contact? (Input.text input "contact_id") = .ok (some row))
    (hfinal : withCustomFields contact (updatesOf input) = .ok final)
    (hfree : ¬ UpdateRefused s input) (now : Timestamp) :
    ∃ changed, Store.updatedContact row now final [] = .ok changed := by
  have hcustom : ∀ c, Row.column? Tables.contacts "custom_fields" = some c → c.kind = .data :=
    fun c hc => Option.some.inj (hc.symm.trans (rfl : _ = some (Tables.object _))) ▸ rfl
  have hnodup : (Fields.keys final).Nodup :=
    (withCustomFields_spec hfinal).1 ▸ nodup_updatesOf hkeys
  refine Store.exists_updatedContact hnodup (Store.nodup_ownMoments _) (fun name c hname hc => ?_)
    (fun f hf => ?_) fun name v c w hv hown hc hw => ?_
  · rw [Store.keys_ownMoments, List.map_nil, List.nil_append, List.mem_singleton] at hname
    subst hname
    obtain rfl := Option.some.inj (hc.symm.trans (rfl : _ = some (Tables.present "updated_at")))
    rfl
  · obtain ⟨name, v⟩ := f
    by_cases hname : name = "custom_fields"
    · subst hname
      exact ⟨v, rfl⟩
    · exact exists_readFor_of_free
        (asks_of_final hkeys hfinal (Fields.get?_of_mem hnodup hf) hname) hfree
  · by_cases hname : name = "custom_fields"
    · subst hname
      rw [hcustom c hc]
      exact Column.exists_renewed_data _ w
    · have hother : name ≠ "updated_at" := by
        rintro rfl
        cases hown
      exact exists_renewed_of_free (asks_of_final hkeys hfinal hv hname) hother hrow hc hw hfree

end Free

/-- An update that nothing speaks against comes to a value. -/
theorem exists_done_of_not_refused (ho : o.KeepsContacts) (hs : d.store.IsOrderly)
    (hkeys : (Fields.keys input).Nodup) (hfree : ¬ UpdateRefused d.store input) :
    ∃ shown e, (update input).run o d = (.done shown, e) := by
  obtain ⟨row, hgiven, hrow⟩ := exists_contact_of_free hfree
  obtain ⟨summary, hrequire⟩ := run_require ho hs hgiven hrow
  obtain ⟨final, hfinal⟩ := exists_withCustomFields_of_free hkeys hrow hfree summary
  obtain ⟨changed, hchanged⟩ :=
    exists_updatedContact_of_free hkeys hrow hfinal hfree d.time
  have hupdate := Archive.run_updateContact ho
    (Store.updateContact_of_stored (check_of_free hkeys hfinal hfree) hrow hchanged)
  rw [update_eq, Action.run_bind_of_done hrequire]
  split
  · exact ⟨_, d, rfl⟩
  · rw [hfinal, Action.run_bind_of_done (e := d) rfl, Action.run_bind_of_done hupdate]
    exact ⟨_, _, rfl⟩

/-- **Updating a contact.** Either an update is to be refused, and fails with the store unchanged,
or it comes to a value: it changes nothing when all of its values are blank, and else the row of the
contact alone, which takes the values that are not blank. -/
theorem update_settles (ho : o.KeepsContacts) (hs : d.store.IsOrderly)
    (hkeys : (Fields.keys input).Nodup) :
    (UpdateRefused d.store input ∧
      ∃ failure e, (update input).run o d = (.failed failure, e) ∧ e.store = d.store) ∨
    (¬ UpdateRefused d.store input ∧ ∃ row shown e,
      d.store.contact? (Input.text input "contact_id") = .ok (some row) ∧
      (update input).run o d = (.done shown, e) ∧
      ((∀ name v, ¬ Asks input name v) → e = d) ∧
      ((∃ name v, Asks input name v) → ∃ changed, shown = .object changed ∧
        Row.id changed = Row.id row ∧ TakesUpdates row changed input d.time ∧
        e.store = { d.store with
          contacts := d.store.contacts.map fun r =>
            if Row.id r = Row.id row then changed else r })) := by
  by_cases hrefused : UpdateRefused d.store input
  · refine .inl ⟨hrefused, ?_⟩
    rcases hrun : (update input).run o d with ⟨ending, e⟩
    obtain ⟨failure, rfl, hstore⟩ | ⟨-, row, -, hcase⟩ := update_cases hrun
    · exact ⟨failure, e, rfl, hstore⟩
    · obtain ⟨shown, rfl⟩ : ∃ shown, ending = .done shown := by
        obtain ⟨-, -, hshown⟩ | ⟨-, _, _, changed, -, -, -, hshown, -⟩ := hcase
        · exact hshown
        · exact ⟨_, hshown⟩
      exact absurd hrefused (not_refused_of_done hkeys hrun)
  · refine .inr ⟨hrefused, ?_⟩
    obtain ⟨shown, e, hrun⟩ := exists_done_of_not_refused ho hs hkeys hrefused
    obtain ⟨_, hfailed, -⟩ | ⟨-, row, hrow, hcase⟩ := update_cases hrun
    · cases hfailed
    refine ⟨row, shown, e, hrow, hrun, ?_⟩
    obtain ⟨hempty, rfl, -⟩ |
        ⟨hsome, summary, final, changed, hfinal, hcheck, hchanged, hshown, rfl⟩ :=
      hcase
    · exact ⟨fun _ => rfl, fun ⟨name, v, hv⟩ =>
        absurd hv ((updatesOf_isEmpty_iff hkeys).1 hempty name v)⟩
    · refine ⟨fun hnone => ?_, fun _ => ⟨changed, Ending.done.inj hshown, ?_, ?_, ?_⟩⟩
      · rw [(updatesOf_isEmpty_iff hkeys).2 hnone] at hsome
        cases hsome
      · exact Store.id_of_updatedContact hcheck hchanged
      · obtain ⟨hnames, -⟩ := withCustomFields_spec hfinal
        exact takesUpdates_of_updated hkeys hfinal
          (Store.updatedContact_spec (hnames ▸ nodup_updatesOf hkeys) (Store.nodup_ownMoments _)
            hchanged)
      · rw [Store.replace_eq (Store.id_of_updatedContact hcheck hchanged)]

/-- A title is written, and an empty phone leaves the one that is stored. -/
theorem update_settles_ann :
    ∃ s, Store.ContactWrite {} s ∧ ∃ changed e,
      (update [("contact_id", .string "c1"), ("title", .string "CTO"),
        ("phone", .string "")]).run {}
        { store := s } = (.done (.object changed), e) ∧
      Row.value changed "title" = .string "CTO" ∧ Row.value changed "phone" = .string "12" := by
  have hwrite : Store.ContactWrite {} _ :=
    .added "c1" (Timestamp.utc 0) [("first_name", .string "Ann"), ("phone", .string "12")] rfl
  refine ⟨_, hwrite, ?_⟩
  have hs := Store.IsOrderly.of_writes (.single hwrite)
  have hkeys : (Fields.keys
      [("contact_id", .string "c1"), ("title", .string "CTO"), ("phone", .string "")]).Nodup := by
    decide
  obtain ⟨-, failure, e, hrun, -⟩ | ⟨-, row, shown, e, hrow, hrun, -, hchanges⟩ :=
    update_settles (o := {}) (d := { store := _ }) ⟨rfl, rfl, rfl, rfl⟩ hs hkeys
  · cases hrun
  · obtain ⟨changed, rfl, -, htakes, -⟩ :=
      hchanges ⟨"title", .string "CTO", rfl, by decide, rfl⟩
    obtain rfl : _ = row := Option.some.inj (Except.ok.inj hrow)
    refine ⟨changed, e, hrun, ?_, ?_⟩
    · have htitle := htakes.written "title" (.string "CTO") (Tables.text "title")
        ⟨rfl, by decide, rfl⟩ rfl (by decide) (by decide) nofun
      exact (Except.ok.inj htitle).symm
    · refine (htakes.kept "phone" ?_ (by decide)).trans rfl
      rintro v ⟨hv, -, hblank⟩
      obtain rfl := Option.some.inj hv
      cases hblank

/-- A number for a phone is stored as a text. -/
theorem update_phone_number :
    ∃ s, Store.ContactWrite {} s ∧ ∃ changed e,
      (update [("contact_id", .string "c1"), ("phone", .int 555)]).run {} { store := s } =
        (.done (.object changed), e) ∧ Row.value changed "phone" = .string "555" ∧
      Row.value changed "phone" ≠ .int 555 := by
  have hwrite : Store.ContactWrite {} _ :=
    .added "c1" (Timestamp.utc 0) [("first_name", .string "Ann")] rfl
  exact ⟨_, hwrite, _, _, rfl, rfl, show Json.string "555" ≠ .int 555 from nofun⟩

end ContactTool

end LeadDesk
