import LeadDesk.Proofs.ContactRows
import LeadDesk.Proofs.Records
import LeadDesk.Tool.Contacts
/-!
# Access to contacts

How a contact is looked up and updated through the desk, and what custom fields are once further
ones are put on top of them (`Json.extends_of_renewed`).
-/

namespace LeadDesk

/-- The store of the office lets contacts be looked up, updated and deleted. -/
structure Office.KeepsContacts (o : Office) : Prop where
  finds : Action.faultOf o "get_contact" = none
  findsCompany : Action.faultOf o "get_company" = none
  updates : Action.faultOf o "update_contact" = none
  deletes : Action.faultOf o "delete_contact" = none

namespace Action

variable {α : Type} {o : Office} {d : Desk} {operation : String}

theorem run_query_of_ok (hfault : faultOf o operation = none) {f : Store → Except Failure α} {a : α}
    (h : f d.store = .ok a) : (query operation f).run o d = (.done a, d) := by
  simp only [query, hfault, h]

theorem run_change_of_ok (hfault : faultOf o operation = none)
    {f : Store → Except Failure (α × Store)} {a : α} {t : Store} (h : f d.store = .ok (a, t)) :
    (change operation f).run o d = (.done a, { d with store := t }) := by
  simp only [change, hfault, h]

end Action

/-! ## Looking a contact up -/

namespace Archive

variable {o : Office} {d e : Desk} {id : Json} {row : Row}

/-- To look a contact up changes nothing. What is shown is a stored row with a summary of its
company. -/
theorem getContact_cases {ending : Ending (Option Row)}
    (h : (getContact id).run o d = (ending, e)) :
    e = d ∧ ((∃ failure, ending = .failed failure) ∨
      ending = .done none ∧ d.store.contact? id = .ok none ∨
      ∃ row summary, ending = .done (some (Fields.put row "company" summary)) ∧
        d.store.contact? id = .ok (some row)) := by
  unfold getContact at h
  rw [Action.run_bind] at h
  rcases hq : (Action.query "get_contact" fun s => s.contact? id).run o d with ⟨found, m⟩
  rw [hq] at h
  obtain ⟨rfl, ⟨failure, rfl⟩ | ⟨found, rfl, hfound⟩⟩ := Action.query_cases hq
  · obtain ⟨rfl, rfl⟩ := Prod.mk.inj h
    exact ⟨rfl, .inl ⟨failure, rfl⟩⟩
  cases found with
  | none =>
    obtain ⟨rfl, rfl⟩ := Prod.mk.inj h
    exact ⟨rfl, .inr (.inl ⟨rfl, hfound⟩)⟩
  | some row =>
    dsimp only at h
    split at h
    · rw [Action.run_bind] at h
      rcases hc : (getCompany (Row.value row "company_id")).run o m with ⟨company, m'⟩
      rw [hc] at h
      obtain ⟨rfl, ⟨failure, rfl⟩ | ⟨company, rfl, -⟩⟩ := Action.query_cases hc
      · obtain ⟨rfl, rfl⟩ := Prod.mk.inj h
        exact ⟨rfl, .inl ⟨failure, rfl⟩⟩
      · obtain ⟨rfl, rfl⟩ := Prod.mk.inj h
        exact ⟨rfl, .inr (.inr ⟨row, _, rfl, hfound⟩)⟩
    · obtain ⟨rfl, rfl⟩ := Prod.mk.inj h
      exact ⟨rfl, .inr (.inr ⟨row, _, rfl, hfound⟩)⟩

/-- A stored contact is shown. -/
theorem run_getContact (ho : o.KeepsContacts) (hs : d.store.IsOrderly)
    (h : d.store.contact? id = .ok (some row)) :
    ∃ summary, (getContact id).run o d = (.done (some (Fields.put row "company" summary)), d) := by
  have hmem := (Store.mem_of_contact? h).1
  -- the company is looked up by a text or null, which never fails
  have hcompany : ∃ company, d.store.company? (Row.value row "company_id") = .ok company := by
    have hholds := hs.holds row hmem (Tables.text "company_id") (by simp [Tables.contacts])
    have hform : ∃ w, Column.textForm (Row.value row "company_id") = .ok w := by
      obtain hnull | ⟨text, htext⟩ := hholds
      · exact ⟨.null, by rw [show Row.value row "company_id" = .null from hnull]; rfl⟩
      · exact ⟨_, by rw [show Row.value row "company_id" = .string text from htext]; rfl⟩
    obtain ⟨w, hw⟩ := hform
    exact ⟨_, by rw [Store.company?, Row.select, hw]; rfl⟩
  obtain ⟨company, hcompany⟩ := hcompany
  rw [getContact, Action.run_bind_of_done (Action.run_query_of_ok ho.finds h)]
  dsimp only
  split
  · have hget : (getCompany (Row.value row "company_id")).run o d = (.done company, d) :=
      Action.run_query_of_ok ho.findsCompany hcompany
    rw [Action.run_bind_of_done hget]
    exact ⟨_, rfl⟩
  · exact ⟨_, rfl⟩

/-- To update a contact moves the clock, and the store unless it is refused. -/
theorem updateContact_cases {updates : Fields} {moments : List (String × Timestamp)}
    {ending : Ending (Option Row)} (h : (updateContact id updates moments).run o d = (ending, e)) :
    (∃ failure, ending = .failed failure ∧ e.store = d.store) ∨
      ∃ found t, ending = .done found ∧ e = { d with clock := d.clock + 1, store := t } ∧
        d.store.updateContact id d.time updates moments = .ok (found, t) := by
  unfold updateContact at h
  rw [Action.run_bind] at h
  rcases hg : (Action.guardFault "update_contact").run o d with ⟨guarded, m⟩
  rw [hg] at h
  obtain ⟨rfl, ⟨failure, rfl⟩ | ⟨u, rfl, -⟩⟩ := Action.query_cases hg
  · obtain ⟨rfl, rfl⟩ := Prod.mk.inj h
    exact .inl ⟨failure, rfl, rfl⟩
  · have hchange : (Action.change "update_contact" fun s =>
        s.updateContact id m.time updates moments).run o
        { m with clock := m.clock + 1 } = (ending, e) := h
    obtain ⟨failure, he, rfl, -⟩ | ⟨found, t, he, hf, rfl⟩ := Action.change_cases hchange
    · exact .inl ⟨failure, he, rfl⟩
    · exact .inr ⟨found, t, he, rfl, hf⟩

theorem run_updateContact (ho : o.KeepsContacts) {updates : Fields}
    {moments : List (String × Timestamp)} {found : Option Row} {t : Store}
    (h : d.store.updateContact id d.time updates moments = .ok (found, t)) :
    (updateContact id updates moments).run o d =
      (.done found, { d with clock := d.clock + 1, store := t }) := by
  have hguard : (Action.guardFault "update_contact").run o d = (.done (), d) :=
    Action.run_query_of_ok ho.updates rfl
  have hchange : (Action.change "update_contact" fun s =>
      s.updateContact id d.time updates moments).run o
      { d with clock := d.clock + 1 } =
        (.done found, { d with clock := d.clock + 1, store := t }) :=
    Action.run_change_of_ok ho.updates h
  rw [updateContact, Action.run_bind_of_done hguard]
  exact hchange

end Archive

namespace ContactTool

variable {o : Office} {d e : Desk} {id : Json} {row contact : Row}

/-- To ask for a contact changes nothing. What comes is a stored row with a summary of its
company. -/
theorem require_cases {ending : Ending Row} (h : (require id).run o d = (ending, e)) :
    e = d ∧ ((∃ failure, ending = .failed failure) ∨
      id.isGiven = true ∧ ∃ row summary, ending = .done (Fields.put row "company" summary) ∧
        d.store.contact? id = .ok (some row)) := by
  unfold require at h
  rw [Action.run_bind] at h
  by_cases hgiven : id.isGiven = true
  · rw [if_pos hgiven] at h
    rcases hg : (Archive.getContact id).run o d with ⟨found, m⟩
    rw [hg] at h
    obtain ⟨rfl, ⟨failure, rfl⟩ | ⟨rfl, -⟩ | ⟨row, summary, rfl, hrow⟩⟩ :=
      Archive.getContact_cases hg
    · obtain ⟨rfl, rfl⟩ := Prod.mk.inj h
      exact ⟨rfl, .inl ⟨failure, rfl⟩⟩
    · obtain ⟨rfl, rfl⟩ := Prod.mk.inj h
      exact ⟨rfl, .inl ⟨_, rfl⟩⟩
    · obtain ⟨rfl, rfl⟩ := Prod.mk.inj h
      exact ⟨rfl, .inr ⟨hgiven, row, summary, rfl, hrow⟩⟩
  · rw [if_neg hgiven] at h
    obtain ⟨rfl, rfl⟩ := Prod.mk.inj h
    exact ⟨rfl, .inl ⟨_, rfl⟩⟩

theorem run_require (ho : o.KeepsContacts) (hs : d.store.IsOrderly) (hgiven : id.isGiven = true)
    (h : d.store.contact? id = .ok (some row)) :
    ∃ summary, (require id).run o d = (.done (Fields.put row "company" summary), d) := by
  obtain ⟨summary, hrun⟩ := Archive.run_getContact ho hs h
  refine ⟨summary, ?_⟩
  rw [require, if_pos hgiven, Action.run_bind_of_done hrun]
  rfl

/-- The summary of a company stands beside the columns. -/
theorem value_shown (row : Row) (summary : Json) {name : String} (h : name ≠ "company") :
    Row.value (Fields.put row "company" summary) name = Row.value row name := by
  rw [Row.value_put, if_neg (Ne.symm h)]

end ContactTool

/-! ## Custom fields on top of stored ones -/

/-- An object has further fields on top of those of another value, and no other fields. -/
def Json.Extends (new old : Json) (more : Fields) : Prop :=
  ∃ fields, new = .object fields ∧
    (∀ key v, more.last? key = some v → ∃ w, Fields.get? fields key = some w ∧ w.Agrees v) ∧
    ∀ key, more.last? key = none →
      Fields.get? fields key = Fields.get? (old.fields?.getD []) key

theorem Json.get?_of_sameFields {fields others : Fields}
    (h : Json.sameFields fields others = true) {key : String} {v : Json}
    (hv : Fields.get? fields key = some v) :
    ∃ w, Fields.get? others key = some w ∧ v.same w = true := by
  induction fields with
  | nil => cases hv
  | cons f rest ih =>
    obtain ⟨k, u⟩ := f
    simp only [Json.sameFields, Bool.and_eq_true] at h
    rw [Fields.get?_cons] at hv
    split at hv
    · rename_i hk
      obtain rfl := Option.some.inj hv
      subst hk
      cases hw : Fields.get? others k with
      | none => simp [hw] at h
      | some w => exact ⟨w, rfl, by simpa [hw] using h.1⟩
    · exact ih h.2 hv

theorem Input.onTopOf_eq_ok {stored merged : Json} {more : Fields}
    (h : onTopOf stored more = .ok merged) :
    merged = .object (Fields.overlay (stored.fields?.getD []) more) := by
  unfold onTopOf Json.orElse at h
  by_cases hgiven : stored.isGiven = true
  · rw [if_pos hgiven] at h
    cases stored with
    | object fields => exact (Except.ok.inj h).symm
    | _ => cases h
  · rw [if_neg hgiven] at h
    obtain rfl := Except.ok.inj h
    cases stored with
    | object fields =>
      obtain rfl : fields = [] := by simpa [Json.isGiven] using hgiven
      rfl
    | _ => rfl

/-- Nothing can be put on top of what is no object. -/
theorem Input.onTopOf_of_noObject {stored : Json} (hgiven : stored.isGiven = true)
    (hno : stored.fields? = none) (more : Fields) :
    ∃ failure, onTopOf stored more = .error failure := by
  unfold onTopOf Json.orElse
  rw [if_pos hgiven]
  cases stored with
  | object fields => cases hno
  | _ => exact ⟨_, rfl⟩

theorem Input.onTopOf_eq_error {stored : Json} {more : Fields} {failure : Failure}
    (h : onTopOf stored more = .error failure) :
    stored.isGiven = true ∧ stored.fields? = none := by
  unfold onTopOf Json.orElse at h
  by_cases hgiven : stored.isGiven = true
  · rw [if_pos hgiven] at h
    cases stored with
    | object fields => cases h
    | _ => exact ⟨hgiven, rfl⟩
  · rw [if_neg hgiven] at h
    cases h

/-- What is written as custom fields extends what is stored. -/
theorem Json.extends_of_renewed {stored new : Json} {more : Fields}
    (h : Column.renewed .data stored (.object (Fields.overlay (stored.fields?.getD []) more)) =
      .ok new) : new.Extends stored more := by
  unfold Column.renewed at h
  split at h
  · rename_i hsame
    obtain rfl := Except.ok.inj h
    cases stored with
    | object fields =>
      refine ⟨fields, rfl, fun key v hv => ?_, fun key _ => rfl⟩
      have hfields := (Bool.and_eq_true_iff.1 (show (_ && _) = true from hsame)).2
      obtain ⟨w, hw, hvw⟩ := get?_of_sameFields hfields
        (show Fields.get? _ key = some v by rw [Fields.get?_overlay, hv]; rfl)
      exact ⟨w, hw, .inr hvw⟩
    | _ => cases hsame
  · obtain rfl := Except.ok.inj h
    refine ⟨_, rfl, fun key v hv => ⟨v, ?_, .inl rfl⟩, fun key hnone => ?_⟩
    · rw [Fields.get?_overlay, hv]
      rfl
    · rw [Fields.get?_overlay, hnone]
      rfl

end LeadDesk
