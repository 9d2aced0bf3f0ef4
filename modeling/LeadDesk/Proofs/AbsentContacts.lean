import LeadDesk.Proofs.Forms
import LeadDesk.Tool.Registry
/-!
# Contacts that are not there

A tool that works on one contact fails when the contact is not stored, and changes nothing. Reading
a form is the exception: it asks for the contact only for custom fields, and else shows a success
with no contact (`ContactTool.absent_refused`).
-/

namespace LeadDesk

variable {o : Office} {d e : Desk} {id : Json} {input payload : Fields}

theorem Archive.run_getContact_of_absent (ho : o.KeepsContacts)
    (habsent : d.store.contact? id = .ok none) :
    (getContact id).run o d = (.done none, d) := by
  rw [getContact, Action.run_bind_of_done (Action.run_query_of_ok ho.finds habsent)]
  rfl

/-- An update of a contact that is not there writes nothing, and does not fail. -/
theorem Archive.run_updateContact_of_absent (ho : o.KeepsContacts)
    (habsent : d.store.contact? id = .ok none) {updates : Fields}
    (hcheck : Store.checkContactUpdates updates = .ok ()) :
    (updateContact id updates []).run o d = (.done none, { d with clock := d.clock + 1 }) := by
  refine run_updateContact ho ?_
  simp only [Store.updateContact, hcheck, habsent, bind, Except.bind, pure, Except.pure]

theorem Archive.run_deleteContact_of_absent (ho : o.KeepsContacts)
    (habsent : d.store.contact? id = .ok none) :
    (deleteContact id).run o d = (.done false, d) := by
  refine Action.run_change_of_ok ho.deletes ?_
  simp only [Store.deleteContact, habsent, bind, Except.bind, pure, Except.pure]

namespace ContactTool

/-- To ask for a contact that is not there fails. -/
theorem run_require_of_absent (ho : o.KeepsContacts) (habsent : d.store.contact? id = .ok none) :
    (require id).run o d = (.failed (.noContact id.plain), d) := by
  unfold require
  split
  · rw [Action.run_bind_of_done (Archive.run_getContact_of_absent ho habsent)]
    rfl
  · rfl

/-- The tools that work on one contact, with the parameter that names it. -/
def needingContact : List (String × String) := [
  ("get_contact", "contact_id"), ("update_contact", "contact_id"),
  ("update_inbound_tracking", "contact_id"), ("merge_contact_data", "existing_contact_id"),
  ("delete_contact", "contact_id"), ("add_contact_note", "contact_id"),
  ("create_task", "contact_id")]

/-- An action fails because a contact is not there, and changes nothing. -/
def Refuses (x : Action Json) (o : Office) (d : Desk) (id : Json) : Prop :=
  ∃ failure, x.run o d = (.failed failure, d) ∧
    failure.message = "Contact not found: " ++ id.plain

theorem refuses_of_failed {x : Action Json}
    (h : x.run o d = (.failed (.noContact id.plain), d)) : Refuses x o d id :=
  ⟨_, h, rfl⟩

/-- What asks for a contact first refuses one that is not there. -/
theorem refuses_of_require (ho : o.KeepsContacts) (habsent : d.store.contact? id = .ok none)
    (rest : Row → Action Json) : Refuses (require id >>= rest) o d id :=
  refuses_of_failed (Action.run_bind_of_failed (run_require_of_absent ho habsent))

theorem refuses_delete (ho : o.KeepsContacts)
    (habsent : d.store.contact? (Input.text input "contact_id") = .ok none) :
    Refuses (delete input) o d (Input.text input "contact_id") := by
  refine refuses_of_failed ?_
  rw [delete, Action.run_bind_of_done (Archive.run_deleteContact_of_absent ho habsent)]
  rfl

theorem refuses_createTask (ho : o.KeepsContacts)
    (hgiven : (Input.text input "contact_id").isGiven = true)
    (habsent : d.store.contact? (Input.text input "contact_id") = .ok none) :
    Refuses (SalesTool.createTask input) o d (Input.text input "contact_id") := by
  refine refuses_of_failed ?_
  have hrequire := run_require_of_absent ho habsent
  rw [SalesTool.createTask]
  dsimp only
  rw [if_pos hgiven]
  exact Action.run_bind_of_failed hrequire

theorem formCustom_eq_nil_iff : formCustom payload = [] ↔ customEntries payload = [] := by
  constructor
  · intro hnil
    by_contra hsome
    obtain ⟨f, rest, heq⟩ := List.exists_cons_of_ne_nil hsome
    have hmem : f.1 ∈ Fields.keys (customEntries payload) := by
      rw [heq]
      exact List.mem_cons_self
    have hget := Fields.get?_overlay [] (customEntries payload) f.1
    rw [show Fields.overlay [] (customEntries payload) = [] from hnil] at hget
    refine Fields.last?_eq_none_iff.1 ?_ hmem
    simpa using hget.symm
  · intro hnil
    rw [formCustom, hnil]
    rfl

/-- The updates for a form name columns that may be changed. -/
theorem check_formUpdates (payload : Fields) :
    Store.checkContactUpdates (formUpdates payload) = .ok () := by
  refine (Store.checkContactUpdates_eq_ok_iff _).2 fun f hf => ?_
  have hmem : f.1 ∈ formColumns.map Prod.snd := by
    by_contra hno
    have hnone : Fields.get? (formUpdates payload) f.1 = none := by
      rw [get?_formUpdates, last?_columnEntries_eq_none hno]
      rfl
    exact Fields.get?_eq_none_iff.1 hnone (List.mem_map_of_mem hf)
  exact (by decide : ∀ name ∈ formColumns.map Prod.snd, name ∈ Tables.changeableContactColumns)
    f.1 hmem

theorem formUpdates_ne_nil (h : columnEntries payload ≠ []) : formUpdates payload ≠ [] := by
  obtain ⟨f, rest, heq⟩ := List.exists_cons_of_ne_nil h
  intro hnil
  have hget := get?_formUpdates payload f.1
  rw [hnil] at hget
  have hnone : (columnEntries payload).last? f.1 = none := by simpa using hget.symm
  refine Fields.last?_eq_none_iff.1 hnone ?_
  rw [heq]
  exact List.mem_cons_self

/-- A form whose entries all have columns is written over nothing, and shows a success. -/
theorem run_parseForm_of_absent (ho : o.KeepsContacts)
    (habsent : d.store.contact? (Input.text input "contact_id") = .ok none)
    (hpayload : Input.value input "payload" .null = .object payload)
    (hcolumns : columnEntries payload ≠ []) (hcustom : customEntries payload = []) :
    ∃ e, (parseForm input).run o d = (.done (shownForm (formUpdates payload) none), e) ∧
      e.store = d.store := by
  have hsome : payload ≠ [] := by
    rintro rfl
    exact hcolumns rfl
  have hempty : (formCustom payload).isEmpty = true :=
    List.isEmpty_iff.2 (formCustom_eq_nil_iff.2 hcustom)
  refine ⟨{ d with clock := d.clock + 1 }, ?_, rfl⟩
  rw [parseForm_eq hpayload hsome, if_pos hempty, writeForm,
    if_neg (by simpa using formUpdates_ne_nil hcolumns), Action.run_bind_of_done
      (Archive.run_updateContact_of_absent ho habsent (check_formUpdates payload))]
  rfl

theorem refuses_parseForm (ho : o.KeepsContacts)
    (habsent : d.store.contact? (Input.text input "contact_id") = .ok none)
    (hpayload : Input.value input "payload" .null = .object payload)
    (hcustom : customEntries payload ≠ []) :
    Refuses (parseForm input) o d (Input.text input "contact_id") := by
  have hsome : payload ≠ [] := by
    rintro rfl
    exact hcustom rfl
  have hmore : ¬ (formCustom payload).isEmpty = true := by
    simpa using mt formCustom_eq_nil_iff.1 hcustom
  rw [parseForm_eq hpayload hsome, if_neg hmore]
  exact refuses_of_require ho habsent _

/-- **Contacts that are not there.** Each tool for one contact fails, with the desk as it was. So
does the reading of a form with something to keep just if that has an entry for the custom fields;
else it shows a success with no contact, and stores nothing. -/
theorem absent_refused (ho : o.KeepsContacts) (hgiven : id.isGiven = true)
    (habsent : d.store.contact? id = .ok none) :
    (∀ tool ∈ needingContact, ∀ input, Input.text input tool.2 = id →
      ∃ run, Registry.builtin? tool.1 = some (.onDesk run) ∧ Refuses (run input) o d id) ∧
    ∀ input payload, Input.text input "contact_id" = id →
      Input.value input "payload" .null = .object payload →
      columnEntries payload ≠ [] ∨ customEntries payload ≠ [] →
        (Refuses (parseForm input) o d id ↔ customEntries payload ≠ []) ∧
        (customEntries payload = [] → ∃ e,
          (parseForm input).run o d = (.done (shownForm (formUpdates payload) none), e) ∧
            e.store = d.store) := by
  refine ⟨fun tool htool input hid => ?_, fun input payload hid hpayload hsome => ?_⟩
  · subst hid
    simp only [needingContact, List.mem_cons, List.not_mem_nil, or_false] at htool
    obtain rfl | rfl | rfl | rfl | rfl | rfl | rfl := htool
    · exact ⟨_, rfl, refuses_of_require ho habsent _⟩
    · exact ⟨_, rfl, refuses_of_require ho habsent _⟩
    · exact ⟨_, rfl, refuses_of_require ho habsent _⟩
    · exact ⟨_, rfl, refuses_of_require ho habsent _⟩
    · exact ⟨_, rfl, refuses_delete ho habsent⟩
    · exact ⟨_, rfl, refuses_of_require ho habsent _⟩
    · exact ⟨_, rfl, refuses_createTask ho hgiven habsent⟩
  · subst hid
    have hwritten : customEntries payload = [] → ∃ e,
        (parseForm input).run o d = (.done (shownForm (formUpdates payload) none), e) ∧
          e.store = d.store := fun hcustom =>
      run_parseForm_of_absent ho habsent hpayload (hsome.resolve_right (absurd hcustom)) hcustom
    refine ⟨⟨fun hrefuses hcustom => ?_, refuses_parseForm ho habsent hpayload⟩, hwritten⟩
    obtain ⟨failure, hfailed, -⟩ := hrefuses
    obtain ⟨e, hdone, -⟩ := hwritten hcustom
    rw [hfailed] at hdone
    cases hdone

/-- In an empty store no contact can be deleted, and a title is read without a contact. -/
theorem absent_refused_nope :
    Refuses (delete [("contact_id", .string "nope")]) {} {} (.string "nope") ∧
      ∃ e, (parseForm [("contact_id", .string "nope"),
        ("payload", .object [("title", .string "CTO")])]).run {} {} =
          (.done (shownForm (formUpdates [("title", .string "CTO")]) none), e) ∧
        e.store = {} := by
  obtain ⟨htools, hforms⟩ := @absent_refused {} {} (.string "nope")
    ⟨rfl, rfl, rfl, rfl⟩ rfl rfl
  obtain ⟨run, hrun, hrefuses⟩ := htools ("delete_contact", "contact_id") (by decide)
    [("contact_id", .string "nope")] rfl
  obtain rfl := Registry.Builtin.onDesk.inj (Option.some.inj hrun)
  have hcustom : customEntries [("title", .string "CTO")] = [] :=
    List.isEmpty_iff.1 (by decide +kernel)
  have hcolumn : columnOf "title" = some "title" := by decide +kernel
  have hcolumns : columnEntries [("title", .string "CTO")] ≠ [] :=
    List.ne_nil_of_mem (mem_columnEntries.2 ⟨"title", List.mem_cons_self, rfl, hcolumn⟩)
  exact ⟨hrefuses, (hforms _ _ rfl rfl (.inl hcolumns)).2 hcustom⟩

end ContactTool

end LeadDesk
