import LeadDesk.Proofs.Rows
import LeadDesk.Store.Contacts
import Mathlib.Logic.Relation
/-!
# Rows of contacts

An update of a contact reads the moments among its values first and puts the moments of the desk on
top (`Store.updatedContact_spec`). The contacts of a store have distinct ids and hold what suits
their columns, whatever was done to them (`Store.IsOrderly.of_writes`).
-/

namespace LeadDesk

open Relation (ReflTransGen)

/-! ## Updates of a contact -/

namespace Store

variable {s t : Store} {row changed : Row} {now : Timestamp} {updates : Fields}
  {moments : List (String × Timestamp)}

/-- The moments that the desk itself puts on top of an update. -/
def ownMoments (now : Timestamp) (moments : List (String × Timestamp)) : Fields :=
  (moments ++ [("updated_at", now)]).map fun (name, t) => (name, Column.momentText t)

theorem updatedContact_eq (row : Row) (now : Timestamp) (updates : Fields)
    (moments : List (String × Timestamp)) :
    updatedContact row now updates moments =
      (Row.readMoments Tables.contacts updates).bind fun read =>
        Row.change Tables.contacts row (Fields.overlay read (ownMoments now moments)) := rfl

/-- What a contact holds after an update: each column that is named holds its value, moments read
from their text; the moments of the desk are on top; all else is as it was. -/
structure Updated (row changed : Row) (updates own : Fields) : Prop where
  written : ∀ name v c, Fields.get? updates name = some v → Fields.get? own name = none →
    Row.column? Tables.contacts name = some c →
      ∃ w, Row.readFor Tables.contacts name v = .ok w ∧
        Column.renewed c.kind (Row.value row name) w = .ok (Row.value changed name)
  onTop : ∀ name v c, Fields.get? own name = some v → Row.column? Tables.contacts name = some c →
    Column.renewed c.kind (Row.value row name) v = .ok (Row.value changed name)
  kept : ∀ name, Fields.get? updates name = none → Fields.get? own name = none →
    Row.value changed name = Row.value row name

/-- A text column that is written over holds the text of the value. -/
theorem Updated.textForm {own : Fields} (h : Updated row changed updates own)
    (hrow : ∀ c ∈ Tables.contacts, c.kind.Holds (Row.value row c.name)) {name : String} {v : Json}
    {c : Column} (hc : Row.column? Tables.contacts name = some c) (hkind : c.kind = .text)
    (hv : Fields.get? updates name = some v) (hown : Fields.get? own name = none) :
    Column.textForm v = .ok (Row.value changed name) := by
  obtain ⟨w, hw, hrenewed⟩ := h.written name v c hv hown hc
  have hplain : c.kind ≠ .moment := by rw [hkind]; exact nofun
  obtain rfl := Except.ok.inj ((Row.readFor_of_ne_moment hc hplain v).symm.trans hw)
  have hname : c.name = name := by simpa using List.find?_some hc
  have hheld := hname ▸ hrow c (List.mem_of_find?_eq_some hc)
  rw [hkind] at hheld hrenewed
  exact Column.textForm_of_renewed hheld hrenewed

/-- A moment of the desk itself is held as it is. -/
theorem Updated.momentText {own : Fields} (h : Updated row changed updates own) {name : String}
    {c : Column} {t : Timestamp} (hc : Row.column? Tables.contacts name = some c)
    (hkind : c.kind = .moment) (ht : Fields.get? own name = some (Column.momentText t)) :
    Row.value changed name = Column.momentText t := by
  have hrenewed := h.onTop name _ c ht hc
  rw [hkind, Column.renewed_momentText] at hrenewed
  exact (Except.ok.inj hrenewed).symm

theorem updatedContact_spec (hkeys : (Fields.keys updates).Nodup)
    (hown : (Fields.keys (ownMoments now moments)).Nodup)
    (h : updatedContact row now updates moments = .ok changed) :
    Updated row changed updates (ownMoments now moments) := by
  rw [updatedContact_eq] at h
  cases hr : Row.readMoments Tables.contacts updates with
  | error failure => simp [hr, Except.bind] at h
  | ok read =>
    simp only [hr, Except.bind] at h
    obtain ⟨hnames, hread⟩ := Row.readMoments_spec hr
    obtain ⟨hset, hkept⟩ :=
      Row.change_spec (Fields.nodup_keys_overlay (hnames ▸ hkeys) _) h
    simp only [Fields.get?_overlay, Fields.last?_eq_get? hown] at hset hkept
    refine ⟨fun name v c hv ho hc => ?_, fun name v c ho hc => ?_, fun name hv ho => ?_⟩
    · obtain ⟨w, hw, hget⟩ := hread name v hv
      exact ⟨w, hw, hset name w c (by simp [ho, hget]) hc⟩
    · exact hset name v c (by simp [ho]) hc
    · have hnone : Fields.get? read name = none := by
        rw [Fields.get?_eq_none_iff, hnames]
        exact Fields.get?_eq_none_iff.1 hv
      exact hkept name (.inl (by simp [ho, hnone]))

theorem exists_readFor (h : updatedContact row now updates moments = .ok changed) {name : String}
    {v : Json} (hv : Fields.get? updates name = some v) :
    ∃ w, Row.readFor Tables.contacts name v = .ok w := by
  rw [updatedContact_eq] at h
  cases hr : Row.readMoments Tables.contacts updates with
  | error failure => simp [hr, Except.bind] at h
  | ok read =>
    obtain ⟨w, hw, -⟩ := (Row.readMoments_spec hr).2 name v hv
    exact ⟨w, hw⟩

/-- An update is made when each moment among its values can be read and each column, but for those
that the desk writes itself, takes its value. -/
theorem exists_updatedContact (hkeys : (Fields.keys updates).Nodup)
    (hown : (Fields.keys (ownMoments now moments)).Nodup)
    (hmoments : ∀ name c, name ∈ Fields.keys (ownMoments now moments) →
      Row.column? Tables.contacts name = some c → c.kind = .moment)
    (hread : ∀ f ∈ updates, ∃ w, Row.readFor Tables.contacts f.1 f.2 = .ok w)
    (htakes : ∀ name v c w, Fields.get? updates name = some v →
      Fields.get? (ownMoments now moments) name = none →
        Row.column? Tables.contacts name = some c → Row.readFor Tables.contacts name v = .ok w →
          ∃ u, Column.renewed c.kind (Row.value row name) w = .ok u) :
    ∃ changed, updatedContact row now updates moments = .ok changed := by
  obtain ⟨read, hr⟩ := Row.exists_readMoments hread
  obtain ⟨hnames, hvalues⟩ := Row.readMoments_spec hr
  have hchange : ∃ changed, Row.change Tables.contacts row
      (Fields.overlay read (ownMoments now moments)) = .ok changed := by
    refine Row.exists_change (Fields.nodup_keys_overlay (hnames ▸ hkeys) _) fun name v c hv hc => ?_
    rw [Fields.get?_overlay, Fields.last?_eq_get? hown] at hv
    cases ho : Fields.get? (ownMoments now moments) name with
    | some own =>
      obtain rfl : own = v := by simpa [ho] using hv
      have hmem := Fields.mem_of_get? ho
      obtain ⟨⟨_, t⟩, _, heq⟩ := List.mem_map.1 hmem
      obtain ⟨rfl, rfl⟩ := Prod.mk.inj heq
      rw [hmoments _ c (List.mem_map_of_mem hmem) hc]
      exact ⟨_, Column.renewed_momentText _ t⟩
    | none =>
      have hv : Fields.get? read name = some v := by simpa [ho] using hv
      have hgiven : name ∈ Fields.keys updates :=
        hnames ▸ List.mem_map_of_mem (Fields.mem_of_get? hv)
      obtain ⟨u, hu⟩ := Option.ne_none_iff_exists'.1 fun hnone =>
        Fields.get?_eq_none_iff.1 hnone hgiven
      obtain ⟨w, hw, hget⟩ := hvalues name u hu
      obtain rfl := Option.some.inj (hget.symm.trans hv)
      exact htakes name u c w hu ho hc hw
  obtain ⟨changed, h⟩ := hchange
  exact ⟨changed, by rw [updatedContact_eq, hr]; exact h⟩

/-- To update a contact that is stored is to change its row, when its columns may be changed. -/
theorem updateContact_eq_ok {id : Json} {found : Option Row}
    (h : s.updateContact id now updates moments = .ok (found, t)) :
    checkContactUpdates updates = .ok () ∧
      (s.contact? id = .ok none ∧ found = none ∧ t = s ∨
        ∃ row changed, s.contact? id = .ok (some row) ∧
          updatedContact row now updates moments = .ok changed ∧ found = some changed ∧
          t = { s with contacts := Row.replace changed s.contacts }) := by
  simp only [updateContact, bind, Except.bind] at h
  cases hcheck : checkContactUpdates updates with
  | error failure => simp [hcheck] at h
  | ok u =>
    refine ⟨rfl, ?_⟩
    simp only [hcheck] at h
    cases hid : s.contact? id with
    | error failure => simp [hid] at h
    | ok found' =>
      cases found' with
      | none =>
        simp only [hid, pure, Except.pure, Except.ok.injEq, Prod.mk.injEq] at h
        exact .inl ⟨rfl, h.1.symm, h.2.symm⟩
      | some row =>
        simp only [hid] at h
        cases hrow : updatedContact row now updates moments with
        | error failure => simp [hrow] at h
        | ok changed =>
          simp only [hrow, pure, Except.pure, Except.ok.injEq, Prod.mk.injEq] at h
          exact .inr ⟨row, changed, rfl, hrow, h.1.symm, h.2.symm⟩

theorem updateContact_of_stored {id : Json} (hcheck : checkContactUpdates updates = .ok ())
    (hrow : s.contact? id = .ok (some row))
    (hchanged : updatedContact row now updates moments = .ok changed) :
    s.updateContact id now updates moments =
      .ok (some changed, { s with contacts := Row.replace changed s.contacts }) := by
  simp only [updateContact, hcheck, hrow, hchanged, bind, Except.bind, pure, Except.pure]

/-! ## Orderly contacts -/

/-- The contacts of a store have distinct ids, and hold what suits their columns. -/
structure IsOrderly (s : Store) : Prop where
  named : ∀ row ∈ s.contacts, ∃ id, Row.value row "id" = .string id
  distinct : (s.contacts.map Row.id).Nodup
  holds : ∀ row ∈ s.contacts, ∀ c ∈ Tables.contacts, c.kind.Holds (Row.value row c.name)

theorem IsOrderly.value_id (hs : s.IsOrderly) (hrow : row ∈ s.contacts) :
    Row.value row "id" = .string (Row.id row) := by
  obtain ⟨text, htext⟩ := hs.named row hrow
  simp only [Row.id, Row.text?, htext]
  rfl

/-- To put a row in its own place changes nothing. -/
theorem IsOrderly.map_self (hs : s.IsOrderly) (hrow : row ∈ s.contacts) :
    (s.contacts.map fun r => if Row.id r = Row.id row then row else r) = s.contacts := by
  have hall : ∀ r ∈ s.contacts, (if Row.id r = Row.id row then row else r) = r := by
    intro r hr
    split
    · rename_i heq
      exact List.inj_on_of_nodup_map hs.distinct hrow hr heq.symm
    · rfl
  rw [List.map_congr_left hall, List.map_id']

theorem isOrderly_empty : ({} : Store).IsOrderly :=
  ⟨fun _ h => (by cases h), List.nodup_nil, fun _ h => (by cases h)⟩

theorem IsOrderly.of_eq (hs : s.IsOrderly) (h : t.contacts = s.contacts) : t.IsOrderly :=
  ⟨h ▸ hs.named, h ▸ hs.distinct, h ▸ hs.holds⟩

theorem names_contacts_nodup : (Tables.contacts.map (·.name)).Nodup := by decide

theorem column?_contacts {c : Column} (hc : c ∈ Tables.contacts) :
    Row.column? Tables.contacts c.name = some c := by
  cases hfound : Row.column? Tables.contacts c.name with
  | none => exact absurd (List.find?_eq_none.1 hfound c hc) (by simp)
  | some found =>
    have hname : found.name = c.name := by simpa using List.find?_some hfound
    rw [List.inj_on_of_nodup_map names_contacts_nodup (List.mem_of_find?_eq_some hfound) hc hname]

theorem soundDefaults_contacts : ∀ c ∈ Tables.contacts, Row.hasSoundDefault c = true := by decide

theorem addContact_eq_ok {freshId : String} {given : Fields}
    (h : s.addContact freshId now given = .ok (row, t)) :
    ∃ read, Row.create Tables.contacts freshId now read = .ok row ∧
      (∀ r ∈ s.contacts, Row.id r ≠ Row.id row) ∧
      t = { s with contacts := s.contacts ++ [row] } := by
  simp only [addContact, newRow, bind, Except.bind] at h
  cases hread : Row.readMoments Tables.contacts given with
  | error failure => simp [hread] at h
  | ok read =>
    cases hunknown : refuseUnknown Tables.contacts read with
    | error failure => simp [hread, hunknown] at h
    | ok u =>
      cases hcreate : Row.create Tables.contacts freshId now read with
      | error failure => simp [hread, hunknown, hcreate] at h
      | ok new =>
        by_cases htaken : (s.contacts.any fun r => Row.id r == Row.id new) = true
        · simp [hread, hunknown, hcreate, htaken, throw, throwThe, MonadExceptOf.throw] at h
        · simp only [hread, hunknown, hcreate, htaken, if_false, pure, Except.pure,
            Except.ok.injEq, Prod.mk.injEq, Bool.false_eq_true] at h
          obtain ⟨rfl, rfl⟩ := h
          refine ⟨read, hcreate, fun r hr heq => htaken ?_, rfl⟩
          exact List.any_eq_true.2 ⟨r, hr, beq_iff_eq.2 heq⟩

/-- A contact that is added has an id of its own. -/
theorem IsOrderly.added (hs : s.IsOrderly) {freshId : String} {given : Fields}
    (h : s.addContact freshId now given = .ok (row, t)) : t.IsOrderly := by
  obtain ⟨read, hcreate, hnew, rfl⟩ := addContact_eq_ok h
  have hinitial : ∀ c ∈ Tables.contacts, c.kind.Holds (Row.value row c.name) := fun c hc =>
    Row.holds_initial (soundDefaults_contacts c hc)
      (Row.create_spec names_contacts_nodup hcreate hc).1
  have hid : ∃ id, Row.value row "id" = .string id := by
    have hmem : Tables.id ∈ Tables.contacts := List.mem_cons_self
    refine (hinitial _ hmem).resolve_left fun hnull => ?_
    have hpresent := (Row.create_spec names_contacts_nodup hcreate hmem).2 rfl
    rw [show Row.value row Tables.id.name = .null from hnull] at hpresent
    cases hpresent
  refine ⟨fun r hr => ?_, ?_, fun r hr => ?_⟩
  · rcases List.mem_append.1 hr with hr | hr
    · exact hs.named r hr
    · exact List.mem_singleton.1 hr ▸ hid
  · rw [List.map_append, List.nodup_append]
    refine ⟨hs.distinct, by simp, fun a ha b hb => ?_⟩
    obtain ⟨r, hr, rfl⟩ := List.mem_map.1 ha
    rw [List.map_singleton, List.mem_singleton] at hb
    exact hb ▸ hnew r hr
  · rcases List.mem_append.1 hr with hr | hr
    · exact hs.holds r hr
    · exact List.mem_singleton.1 hr ▸ hinitial

/-- A row that is put in the place of one with its id leaves the ids as they are. -/
theorem map_id_replace (changed : Row) (rows : List Row) :
    (Row.replace changed rows).map Row.id = rows.map Row.id := by
  rw [Row.replace, List.map_map]
  refine List.map_congr_left fun r _ => ?_
  simp only [Function.comp]
  split
  · rename_i heq
    exact (eq_of_beq heq).symm
  · rfl

theorem keys_ownMoments (now : Timestamp) (moments : List (String × Timestamp)) :
    Fields.keys (ownMoments now moments) = moments.map Prod.fst ++ ["updated_at"] := by
  simp [ownMoments, Fields.keys, Function.comp_def]

theorem get?_ownMoments {name : String} (h : name ≠ "updated_at") :
    Fields.get? (ownMoments now []) name = none := by
  rw [Fields.get?_eq_none_iff, keys_ownMoments]
  simpa using h

theorem nodup_ownMoments (now : Timestamp) : (Fields.keys (ownMoments now [])).Nodup := by
  rw [keys_ownMoments]
  decide

/-- An update that may be made leaves the id and the moment of creation alone. -/
theorem not_mem_of_check (h : checkContactUpdates updates = .ok ()) {name : String}
    (hname : name ∉ Tables.changeableContactColumns) : name ∉ Fields.keys updates := by
  intro hmem
  obtain ⟨f, hf, rfl⟩ := List.mem_map.1 hmem
  exact hname ((checkContactUpdates_eq_ok_iff updates).1 h f hf)

/-- What neither the update nor the desk names stays as it was. -/
theorem value_of_updatedContact (h : updatedContact row now updates moments = .ok changed)
    {name : String} (hu : name ∉ Fields.keys updates)
    (hown : name ∉ Fields.keys (ownMoments now moments)) :
    Row.value changed name = Row.value row name := by
  rw [updatedContact_eq] at h
  cases hr : Row.readMoments Tables.contacts updates with
  | error failure => simp [hr, Except.bind] at h
  | ok read =>
    simp only [hr, Except.bind] at h
    refine Row.value_change_of_not_mem h (Fields.not_mem_keys_overlay ?_ hown)
    rwa [(Row.readMoments_spec hr).1]

/-- An update that may be made leaves the id as it is. -/
theorem id_of_updatedContact (hcheck : checkContactUpdates updates = .ok ())
    (h : updatedContact row now updates [] = .ok changed) : Row.id changed = Row.id row := by
  have hvalue : Row.value changed "id" = Row.value row "id" :=
    value_of_updatedContact h (not_mem_of_check hcheck (by decide)) (by
      rw [keys_ownMoments]
      decide)
  simp only [Row.id, Row.text?, hvalue]

theorem holds_updatedContact (h : updatedContact row now updates moments = .ok changed)
    (hrow : ∀ c ∈ Tables.contacts, c.kind.Holds (Row.value row c.name)) :
    ∀ c ∈ Tables.contacts, c.kind.Holds (Row.value changed c.name) := by
  intro c hc
  rw [updatedContact_eq] at h
  cases hr : Row.readMoments Tables.contacts updates with
  | error failure => simp [hr, Except.bind] at h
  | ok read =>
    simp only [hr, Except.bind] at h
    exact Row.holds_change h (column?_contacts hc) (hrow c hc)

theorem mem_of_contact? {id : Json} (h : s.contact? id = .ok (some row)) :
    row ∈ s.contacts ∧ ∃ w, Column.textForm id = .ok w ∧ w.same (Row.value row "id") = true := by
  unfold contact? Row.select at h
  cases hw : Column.textForm id with
  | error failure => simp [hw, Except.map] at h
  | ok w =>
    simp only [hw, Except.map, Except.ok.injEq] at h
    obtain ⟨hmem, hsame⟩ := List.mem_filter.1 (List.mem_of_mem_head? h)
    exact ⟨hmem, w, rfl, hsame⟩

/-- The contact that is found has the text of the wanted id. -/
theorem IsOrderly.textForm_of_contact? (hs : s.IsOrderly) {id : Json}
    (h : s.contact? id = .ok (some row)) : Column.textForm id = .ok (Row.value row "id") := by
  obtain ⟨hmem, w, hw, hsame⟩ := mem_of_contact? h
  obtain ⟨text, htext⟩ := hs.named row hmem
  rw [hw, Column.eq_of_same (.inr ⟨text, htext⟩) hsame]

/-- A row in the place of the one with its id. -/
theorem replace_eq {rows : List Row} (hid : Row.id changed = Row.id row) :
    Row.replace changed rows = rows.map fun r => if Row.id r = Row.id row then changed else r := by
  simp only [Row.replace, hid, beq_iff_eq]

theorem mem_replace {r : Row} {rows : List Row} (h : r ∈ Row.replace changed rows) :
    r = changed ∨ r ∈ rows := by
  obtain ⟨old, hold, rfl⟩ := List.mem_map.1 h
  split
  · exact .inl rfl
  · exact .inr hold

/-- A contact that is updated keeps its id. -/
theorem IsOrderly.updated (hs : s.IsOrderly) {id : Json} {found : Option Row}
    (hown : "id" ∉ moments.map Prod.fst)
    (h : s.updateContact id now updates moments = .ok (found, t)) : t.IsOrderly := by
  obtain ⟨hcheck, ⟨-, -, rfl⟩ | ⟨row, changed, hrow, hchanged, -, rfl⟩⟩ := updateContact_eq_ok h
  · exact hs
  have hmem := (mem_of_contact? hrow).1
  have hid : Row.value changed "id" = Row.value row "id" := by
    refine value_of_updatedContact hchanged (not_mem_of_check hcheck (by decide)) ?_
    rw [keys_ownMoments, List.mem_append]
    exact not_or.2 ⟨hown, by decide⟩
  refine ⟨fun r hr => ?_, (map_id_replace changed s.contacts).symm ▸ hs.distinct, fun r hr => ?_⟩
  · obtain rfl | hold := mem_replace hr
    · rw [hid]
      exact hs.named row hmem
    · exact hs.named r hold
  · obtain rfl | hold := mem_replace hr
    · exact holds_updatedContact hchanged (hs.holds row hmem)
    · exact hs.holds r hold

theorem deleteContact_eq_ok {id : Json} {found : Bool} (h : s.deleteContact id = .ok (found, t)) :
    s.contact? id = .ok none ∧ found = false ∧ t = s ∨
      ∃ row, s.contact? id = .ok (some row) ∧ found = true ∧
        t = { s with contacts := s.contacts.filter fun r => Row.id r != Row.id row } := by
  simp only [deleteContact, bind, Except.bind] at h
  cases hid : s.contact? id with
  | error failure => simp [hid] at h
  | ok found' =>
    cases found' with
    | none =>
      simp only [hid, pure, Except.pure, Except.ok.injEq, Prod.mk.injEq] at h
      exact .inl ⟨rfl, h.1.symm, h.2.symm⟩
    | some row =>
      simp only [hid, pure, Except.pure, Except.ok.injEq, Prod.mk.injEq] at h
      exact .inr ⟨row, rfl, h.1.symm, h.2.symm⟩

theorem IsOrderly.deleted (hs : s.IsOrderly) {id : Json} {found : Bool}
    (h : s.deleteContact id = .ok (found, t)) : t.IsOrderly := by
  obtain ⟨-, -, rfl⟩ | ⟨row, -, -, rfl⟩ := deleteContact_eq_ok h
  · exact hs
  · exact ⟨fun r hr => hs.named r (List.mem_of_mem_filter hr),
      hs.distinct.sublist (List.filter_sublist.map _),
      fun r hr => hs.holds r (List.mem_of_mem_filter hr)⟩

/-- A single change of the contacts, or of anything else. -/
inductive ContactWrite : Store → Store → Prop
  | other {s t : Store} (h : t.contacts = s.contacts) : ContactWrite s t
  | added {s t : Store} (freshId : String) (now : Timestamp) (given : Fields) {row : Row}
      (h : s.addContact freshId now given = .ok (row, t)) : ContactWrite s t
  | updated {s t : Store} {id : Json} {now : Timestamp} {updates : Fields}
      {moments : List (String × Timestamp)} {found : Option Row}
      (own : "id" ∉ moments.map Prod.fst)
      (h : s.updateContact id now updates moments = .ok (found, t)) : ContactWrite s t
  | deleted {s t : Store} {id : Json} {found : Bool} (h : s.deleteContact id = .ok (found, t)) :
      ContactWrite s t

theorem ContactWrite.isOrderly (h : ContactWrite s t) (hs : s.IsOrderly) : t.IsOrderly := by
  cases h with
  | other h => exact hs.of_eq h
  | added _ _ _ h => exact hs.added h
  | updated own h => exact hs.updated own h
  | deleted h => exact hs.deleted h

/-- Whatever was written since the store was empty, its contacts are orderly. -/
theorem IsOrderly.of_writes (h : ReflTransGen ContactWrite {} s) : s.IsOrderly := by
  induction h with
  | refl => exact isOrderly_empty
  | tail _ hwrite ih => exact hwrite.isOrderly ih

end Store

end LeadDesk
