import LeadDesk.Proofs.ContactAccess
/-!
# Merging contacts

A repeated submission is folded into the contact that it comes from. The contact loses nothing that
it has but its message, if there is a new one; its blank columns are filled; the duplicate goes, and
no other contact changes (`ContactTool.merge_settles`).
-/

namespace LeadDesk

open Relation (ReflTransGen)

namespace ContactTool

variable {o : Office} {d e : Desk} {row changed contact : Row} {input data updates : Fields}

/-! ## What new data bring -/

/-- The new data of a submission; what is no object has none. -/
def dataOf (input : Fields) : Fields := (Input.value input "new_data" .null).fields?.getD []

/-- The id of the contact that stays. -/
def keptId (input : Fields) : Json := Input.text input "existing_contact_id"

/-- The id of the contact that goes. -/
def duplicateId (input : Fields) : Json := Input.text input "new_contact_id"

/-- The first value that new data have for a column under the keys that fill it. -/
def candidate? (data : Fields) (pairs : List (String × String)) (column : String) : Option Json :=
  ((pairs.filter (·.2 == column)).map fun p => Fields.getD data p.1).find? Json.isGiven

/-- The columns that new data can fill. -/
def fillable : List String := mergeColumns.map Prod.snd

/-- The further fields that new data have for the custom fields. -/
def furtherOf (data : Fields) : Fields := (Fields.getD data "additional_fields").fields?.getD []

theorem candidate?_cons (key other : String) (rest : List (String × String)) (column : String) :
    candidate? data ((key, other) :: rest) column =
      if other = column ∧ (Fields.getD data key).isGiven = true then some (Fields.getD data key)
      else candidate? data rest column := by
  by_cases heq : other = column
  · by_cases hgiven : (Fields.getD data key).isGiven = true <;>
      simp [candidate?, heq, hgiven]
  · simp [candidate?, heq]

/-- What is filled: a column that is blank takes its first value, unless it has one already. -/
theorem get?_fillBlanks (contact : Row) (data updates : Fields) (pairs : List (String × String))
    (column : String) :
    Fields.get? (fillBlanks contact data updates pairs) column =
      (Fields.get? updates column).or
        (if (Row.value contact column).isGiven then none else candidate? data pairs column) := by
  -- what is filled so far varies: it is what keeps a second key from the column of the first one
  induction pairs generalizing updates with
  | nil => simp [fillBlanks, candidate?]
  | cons p rest ih =>
    obtain ⟨key, other⟩ := p
    simp only [fillBlanks, candidate?_cons]
    by_cases heq : other = column
    · subst heq
      cases hu : Fields.get? updates other <;>
        cases hgiven : (Fields.getD data key).isGiven <;>
        cases hfull : (Row.value contact other).isGiven <;>
        simp [ih, Fields.has, hu, hfull, Fields.get?_put_self]
    · split
      · rw [ih, Fields.get?_put_of_ne _ _ heq]
        simp [heq]
      · rw [ih]
        simp [heq]

theorem nodup_keys_fillBlanks (contact : Row) (data : Fields) {updates : Fields}
    (hkeys : (Fields.keys updates).Nodup) (pairs : List (String × String)) :
    (Fields.keys (fillBlanks contact data updates pairs)).Nodup := by
  induction pairs generalizing updates with
  | nil => exact hkeys
  | cons p rest ih =>
    simp only [fillBlanks]
    split
    · exact ih (Fields.nodup_keys_put hkeys _ _)
    · exact ih hkeys

/-- A column that no key fills has no value among new data. -/
theorem candidate?_of_not_mem {pairs : List (String × String)} {column : String}
    (h : column ∉ pairs.map Prod.snd) (data : Fields) : candidate? data pairs column = none := by
  have hnone : pairs.filter (·.2 == column) = [] := by
    refine List.filter_eq_nil_iff.2 fun p hp heq => h ?_
    exact List.mem_map.2 ⟨p, hp, eq_of_beq heq⟩
  simp [candidate?, hnone]

/-- The updates for the blank columns and for a new message. -/
def plainUpdates (contact : Row) (data : Fields) : Fields :=
  let updates := fillBlanks contact data [] mergeColumns
  let message := Fields.getD data "message"
  if message.isGiven then Fields.put updates "message" message else updates

theorem mergeUpdates_eq (contact : Row) (data : Fields) :
    mergeUpdates contact data =
      if (furtherOf data).isEmpty then .ok (plainUpdates contact data)
      else (Input.onTopOf (Row.value contact "custom_fields") (furtherOf data)).map
        (Fields.put (plainUpdates contact data) "custom_fields") := by
  unfold mergeUpdates furtherOf
  cases Fields.getD data "additional_fields" with
  | object fields =>
    cases fields with
    | nil => rfl
    | cons f more =>
      simp only [Json.fields?, Option.getD_some, List.isEmpty_cons, Bool.false_eq_true, if_false]
      cases Input.onTopOf (Row.value contact "custom_fields") (f :: more) <;> rfl
  | _ => rfl

theorem get?_plainUpdates (contact : Row) (data : Fields) (name : String) :
    Fields.get? (plainUpdates contact data) name =
      if name = "message" ∧ (Fields.getD data "message").isGiven = true then
        some (Fields.getD data "message")
      else if (Row.value contact name).isGiven then none
      else candidate? data mergeColumns name := by
  unfold plainUpdates
  by_cases hgiven : (Fields.getD data "message").isGiven = true
  · rw [if_pos hgiven, Fields.get?_put]
    by_cases hname : name = "message"
    · simp [hname, hgiven]
    · simp [hname, Ne.symm hname, get?_fillBlanks, Fields.get?]
  · rw [if_neg hgiven, get?_fillBlanks]
    simp [hgiven, Fields.get?]

theorem nodup_keys_plainUpdates (contact : Row) (data : Fields) :
    (Fields.keys (plainUpdates contact data)).Nodup := by
  have hfill : (Fields.keys (fillBlanks contact data [] mergeColumns)).Nodup :=
    nodup_keys_fillBlanks contact data Fields.nodup_keys_nil mergeColumns
  unfold plainUpdates
  dsimp only
  split
  · exact Fields.nodup_keys_put hfill _ _
  · exact hfill

/-- What is written for new data: the plain updates, with custom fields on top of the stored ones if
there are further fields. -/
theorem mergeUpdates_spec (h : mergeUpdates contact data = .ok updates) :
    (Fields.keys updates).Nodup ∧
      (∀ name, name ≠ "custom_fields" →
        Fields.get? updates name = Fields.get? (plainUpdates contact data) name) ∧
      Fields.get? updates "custom_fields" =
        if (furtherOf data).isEmpty then none else some (.object
          (Fields.overlay ((Row.value contact "custom_fields").fields?.getD [])
            (furtherOf data))) := by
  have hplain := nodup_keys_plainUpdates contact data
  rw [mergeUpdates_eq] at h
  split at h
  · rename_i hempty
    obtain rfl := Except.ok.inj h
    refine ⟨hplain, fun _ _ => rfl, ?_⟩
    rw [if_pos hempty, get?_plainUpdates, candidate?_of_not_mem (by decide)]
    simp
  · rename_i hmore
    cases hm : Input.onTopOf (Row.value contact "custom_fields") (furtherOf data) with
    | error failure => simp [hm, Except.map] at h
    | ok merged =>
      simp only [hm, Except.map, Except.ok.injEq] at h
      subst h
      refine ⟨Fields.nodup_keys_put hplain _ _, fun name hname => ?_, ?_⟩
      · exact Fields.get?_put_of_ne _ _ (Ne.symm hname)
      · rw [if_neg hmore, Fields.get?_put_self, Input.onTopOf_eq_ok hm]

/-! ## What the contact takes in -/

/-- What a contact holds after new data were folded into it. -/
structure TakesIn (row changed : Row) (data : Fields) (now later : Timestamp) : Prop where
  /-- A column that is filled already, or has no value among the new data, stays as it was. -/
  kept : ∀ column ∈ fillable,
    (Row.value row column).isGiven = true ∨ candidate? data mergeColumns column = none →
      Row.value changed column = Row.value row column
  /-- A blank column holds the text of the first value that the new data have for it. -/
  filled : ∀ column ∈ fillable, (Row.value row column).isGiven = false →
    ∀ v, candidate? data mergeColumns column = some v →
      Column.textForm v = .ok (Row.value changed column)
  message : (Fields.getD data "message").isGiven = true →
    Column.textForm (Fields.getD data "message") = .ok (Row.value changed "message")
  messageKept : (Fields.getD data "message").isGiven = false →
    Row.value changed "message" = Row.value row "message"
  custom : furtherOf data ≠ [] →
    (Row.value changed "custom_fields").Extends (Row.value row "custom_fields") (furtherOf data)
  customKept : furtherOf data = [] →
    Row.value changed "custom_fields" = Row.value row "custom_fields"
  /-- One more message is counted. -/
  countedMore : ∀ n, Row.value row "inbound_count" = .int n →
    Row.value changed "inbound_count" = .int (n + 1)
  counted : ∃ count, Input.oneMore (Row.value row "inbound_count") = .ok count ∧
    Column.renewed .integer (Row.value row "inbound_count") count =
      .ok (Row.value changed "inbound_count")
  heard : Row.value changed "last_inbound_at" = Column.momentText now
  present : Row.value changed "updated_at" = Column.momentText later
  other : ∀ name, name ∉ fillable →
    name ∉ ["message", "custom_fields", "inbound_count", "last_inbound_at", "updated_at"] →
      Row.value changed name = Row.value row name

theorem column?_of_fillable {column : String} (h : column ∈ fillable) :
    Row.column? Tables.contacts column = some (Tables.text column) := by
  simp only [fillable, mergeColumns, List.map_cons, List.map_nil, List.mem_cons, List.not_mem_nil,
    or_false] at h
  rcases h with rfl | rfl | rfl | rfl | rfl | rfl | rfl | rfl <;> rfl

variable {now later : Timestamp} {summary : Json}

/-- The count of messages, which is written along with the updates for new data. -/
def withCount (updates : Fields) (count : Json) : Fields := updates ++ [("inbound_count", count)]

/-- The columns that new data and the count of messages are written to. -/
def mergedColumns : List String := "message" :: "custom_fields" :: "inbound_count" :: fillable

/-- What is written over the row of a contact for new data, each column once. -/
structure MergeWrites (row : Row) (data : Fields) (count : Json) (written : Fields) : Prop where
  nodup : (Fields.keys written).Nodup
  filled : ∀ column ∈ fillable, Fields.get? written column =
    if (Row.value row column).isGiven then none else candidate? data mergeColumns column
  message : Fields.get? written "message" =
    if (Fields.getD data "message").isGiven then some (Fields.getD data "message") else none
  custom : Fields.get? written "custom_fields" =
    if (furtherOf data).isEmpty then none else some (.object
      (Fields.overlay ((Row.value row "custom_fields").fields?.getD []) (furtherOf data)))
  counted : Fields.get? written "inbound_count" = some count
  other : ∀ name ∉ mergedColumns, Fields.get? written name = none

theorem mergeWrites_of_updates
    (h : mergeUpdates (Fields.put row "company" summary) data = .ok updates) (count : Json) :
    MergeWrites row data count (withCount updates count) := by
  obtain ⟨hnodup, hplain, hcustom⟩ := mergeUpdates_spec h
  rw [value_shown row summary (by decide)] at hcustom
  have hcount : Fields.get? updates "inbound_count" = none := by
    rw [hplain "inbound_count" (by decide), get?_plainUpdates, candidate?_of_not_mem (by decide)]
    simp
  have hne : ∀ name, name ≠ "inbound_count" →
      Fields.get? (withCount updates count) name = Fields.get? updates name := by
    intro name hname
    rw [withCount, Fields.get?_append]
    simp [Ne.symm hname, Fields.get?]
  refine ⟨?_, fun column hcolumn => ?_, ?_, ?_, ?_, fun name hname => ?_⟩
  · rw [withCount, Fields.keys, List.map_append]
    refine List.nodup_append.2 ⟨hnodup, List.nodup_singleton _, fun name hname other hother => ?_⟩
    rw [List.mem_singleton.1 hother]
    rintro rfl
    exact Fields.get?_eq_none_iff.1 hcount hname
  · obtain ⟨hmessage, hcustom, hcount, hcompany⟩ := (by decide : ∀ c ∈ fillable,
      c ≠ "message" ∧ c ≠ "custom_fields" ∧ c ≠ "inbound_count" ∧ c ≠ "company") column hcolumn
    rw [hne column hcount, hplain column hcustom, get?_plainUpdates, if_neg fun h => hmessage h.1,
      value_shown row summary hcompany]
  · rw [hne "message" (by decide), hplain "message" (by decide), get?_plainUpdates,
      candidate?_of_not_mem (by decide)]
    simp
  · rw [hne "custom_fields" (by decide), hcustom]
  · rw [withCount, Fields.get?_append, hcount]
    rfl
  · simp only [mergedColumns, List.mem_cons, not_or] at hname
    obtain ⟨hmessage, hcustom, hcount, hfillable⟩ := hname
    rw [hne name hcount, hplain name hcustom, get?_plainUpdates, if_neg fun h => hmessage h.1,
      candidate?_of_not_mem hfillable, ite_self]

/-- The moments that the desk writes when new data are folded in. -/
theorem get?_mergeMoments {name : String} (h : name ∉ ["last_inbound_at", "updated_at"]) :
    Fields.get? (Store.ownMoments later [("last_inbound_at", now)]) name = none := by
  rw [Fields.get?_eq_none_iff, Store.keys_ownMoments]
  exact h

theorem nodup_mergeMoments :
    (Fields.keys (Store.ownMoments later [("last_inbound_at", now)])).Nodup := by
  rw [Store.keys_ownMoments]
  exact (by decide : ["last_inbound_at", "updated_at"].Nodup)

theorem get?_mergeMoments_of_mem {name : String} (h : name ∈ mergedColumns) :
    Fields.get? (Store.ownMoments later [("last_inbound_at", now)]) name = none :=
  get?_mergeMoments ((by decide : ∀ name ∈ mergedColumns, name ∉ ["last_inbound_at", "updated_at"])
    name h)

theorem oneMore_int (n : Int) : Input.oneMore (.int n) = .ok (.int (n + 1)) := by
  by_cases hn : n = 0
  · subst hn
    rfl
  · unfold Input.oneMore Json.orElse
    rw [if_pos (by simpa [Json.isGiven] using hn)]

/-- An integer is written over the one before it. -/
theorem eq_of_renewed_next {n : Int} {w : Json}
    (h : Column.renewed .integer (.int n) (.int (n + 1)) = .ok w) : w = .int (n + 1) := by
  obtain hform | ⟨rfl, hsame⟩ := Column.renewed_cases h
  · simp only [Column.form, Column.integerForm] at hform
    split at hform
    · exact (Except.ok.inj hform).symm
    · cases hform
  · have hcompare : n + 1 = n := by
      simpa using (show (some (compare (n + 1) n) == some Ordering.eq) = true from hsame)
    omega

theorem takesIn_of_updated {written : Fields} {count : Json}
    (hrow : ∀ c ∈ Tables.contacts, c.kind.Holds (Row.value row c.name))
    (hwrites : MergeWrites row data count written)
    (hcount : Input.oneMore (Row.value row "inbound_count") = .ok count)
    (h : Store.Updated row changed written
      (Store.ownMoments later [("last_inbound_at", now)])) :
    TakesIn row changed data now later := by
  have hmerged : ∀ column ∈ fillable, column ∈ mergedColumns := fun column hcolumn => by
    simp [mergedColumns, hcolumn]
  have hcounted : Column.renewed .integer (Row.value row "inbound_count") count =
      .ok (Row.value changed "inbound_count") := by
    obtain ⟨w, hw, hrenewed⟩ := h.written "inbound_count" count (Tables.integerOr "inbound_count" 0)
      hwrites.counted (get?_mergeMoments_of_mem (by decide)) rfl
    obtain rfl := Except.ok.inj hw
    exact hrenewed
  refine ⟨fun column hcolumn hkept => ?_, fun column hcolumn hblank v hv => ?_, fun hgiven => ?_,
    fun hblank => ?_, fun hmore => ?_, fun hnone => ?_, fun n hn => ?_, ⟨count, hcount, hcounted⟩,
    ?_, ?_, fun name hfillable hname => ?_⟩
  · refine h.kept column ?_ (get?_mergeMoments_of_mem (hmerged column hcolumn))
    rw [hwrites.filled column hcolumn]
    rcases hkept with hgiven | hnone
    · rw [if_pos hgiven]
    · rw [hnone, ite_self]
  · refine h.textForm hrow (column?_of_fillable hcolumn) rfl ?_
      (get?_mergeMoments_of_mem (hmerged column hcolumn))
    rw [hwrites.filled column hcolumn, hblank]
    exact hv
  · exact h.textForm hrow (c := Tables.text "message") rfl rfl
      (hwrites.message.trans (if_pos hgiven))
      (get?_mergeMoments_of_mem (by decide))
  · refine h.kept "message" ?_ (get?_mergeMoments_of_mem (by decide))
    rw [hwrites.message, hblank]
    rfl
  · have hwritten := hwrites.custom
    rw [if_neg (by simpa using hmore)] at hwritten
    obtain ⟨w, hw, hrenewed⟩ := h.written "custom_fields" _ (Tables.object "custom_fields") hwritten
      (get?_mergeMoments_of_mem (by decide)) rfl
    obtain rfl := Except.ok.inj hw
    exact Json.extends_of_renewed hrenewed
  · refine h.kept "custom_fields" ?_ (get?_mergeMoments_of_mem (by decide))
    rw [hwrites.custom, hnone]
    rfl
  · rw [hn] at hcount hcounted
    obtain rfl := Except.ok.inj ((oneMore_int n).symm.trans hcount)
    exact eq_of_renewed_next hcounted
  · exact h.momentText (c := Tables.moment "last_inbound_at") rfl rfl rfl
  · exact h.momentText (c := Tables.present "updated_at") rfl rfl rfl
  · simp only [List.mem_cons, List.not_mem_nil, or_false, not_or] at hname
    obtain ⟨hmessage, hcustom, hcount, hheard, hpresent⟩ := hname
    exact h.kept name (hwrites.other name (by simp [mergedColumns, *]))
      (get?_mergeMoments (by simp [hheard, hpresent]))

/-! ## How a merge ends -/

/-- A contact is stored under an id. -/
def isNamed (id : Json) (r : Row) : Bool :=
  match Column.textForm id with
  | .ok w => w.same (Row.value r "id")
  | .error _ => false

/-- Some other contact is to go. -/
def hasDuplicate (input : Fields) : Bool :=
  (duplicateId input).isGiven && !(duplicateId input).same (keptId input)

/-- A contact goes as the duplicate. -/
def isDuplicate (input : Fields) (r : Row) : Bool :=
  hasDuplicate input && isNamed (duplicateId input) r

/-- What a merge shows. -/
def shownMerge (merged : Option Row) (updates : Fields) (deleted : Bool) : Json :=
  .object [("merged", .bool true), ("contact", Input.row? merged),
    ("fields_updated", Json.ofTexts ((Fields.keys updates).mergeSort fun a b => a ≤ b)),
    ("duplicate_deleted", .bool deleted)]

theorem merge_eq (input : Fields) :
    merge input = require (keptId input) >>= fun contact =>
      Action.ofExcept (mergeUpdates contact (dataOf input)) >>= fun updates =>
        Action.ofExcept (Input.oneMore (Row.value contact "inbound_count")) >>= fun count =>
          Action.now >>= fun now =>
            Archive.updateContact (keptId input) (withCount updates count)
              [("last_inbound_at", now)] >>= fun merged =>
              if hasDuplicate input then
                Archive.deleteContact (duplicateId input) >>= fun deleted =>
                  pure (shownMerge merged updates deleted)
              else pure (shownMerge merged updates false) := rfl

/-- What a merge that comes to a value has done: it has updated the contact, and then deleted the
duplicate if that is named by another id. -/
theorem merge_cases {v : Json} (h : (merge input).run o d = (.done v, e)) :
    ∃ row summary updates count found t,
      (keptId input).isGiven = true ∧
      d.store.contact? (keptId input) = .ok (some row) ∧
      mergeUpdates (Fields.put row "company" summary) (dataOf input) = .ok updates ∧
      Input.oneMore (Row.value row "inbound_count") = .ok count ∧
      d.store.updateContact (keptId input) (Timestamp.utc (d.dial (d.clock + 1)))
        (withCount updates count) [("last_inbound_at", d.time)] = .ok (found, t) ∧
      if hasDuplicate input then
        ∃ deleted, t.deleteContact (duplicateId input) = .ok (deleted, e.store)
      else e.store = t := by
  rw [merge_eq] at h
  obtain ⟨contact, m, hrequire, h⟩ := Action.run_bind_eq_done.1 h
  obtain ⟨rfl, ⟨failure, hfailed⟩ | ⟨hgiven, row, summary, hcontact, hrow⟩⟩ :=
    require_cases hrequire
  · cases hfailed
  obtain rfl := Ending.done.inj hcontact
  obtain ⟨updates, m', hrun, h⟩ := Action.run_bind_eq_done.1 h
  obtain ⟨hupdates, rfl⟩ := Action.run_ofExcept_eq_done.1 hrun
  obtain ⟨count, m', hrun, h⟩ := Action.run_bind_eq_done.1 h
  obtain ⟨hcount, rfl⟩ := Action.run_ofExcept_eq_done.1 hrun
  rw [value_shown row summary (by decide)] at hcount
  have hnow : Action.now.run o m =
      (.done m.time, { m with clock := m.clock + 1 }) := rfl
  rw [Action.run_bind_of_done hnow] at h
  obtain ⟨found, m', hupdate, h⟩ := Action.run_bind_eq_done.1 h
  obtain ⟨failure, hfailed, -⟩ | ⟨found', t, hfound, rfl, ht⟩ := Archive.updateContact_cases hupdate
  · cases hfailed
  obtain rfl := Ending.done.inj hfound
  refine ⟨row, summary, updates, count, found, t, hgiven, hrow, hupdates, hcount, ht, ?_⟩
  split at h
  · rename_i hother
    rw [if_pos hother]
    obtain ⟨deleted, m', hdelete, h⟩ := Action.run_bind_eq_done.1 h
    obtain ⟨-, rfl⟩ := Action.run_pure_eq_done.1 h
    obtain ⟨failure, hfailed, -⟩ | ⟨deleted', t', hdeleted, ht', rfl⟩ := Action.change_cases hdelete
    · cases hfailed
    · exact ⟨deleted', ht'⟩
  · rename_i hsame
    rw [if_neg hsame]
    obtain ⟨-, rfl⟩ := Action.run_pure_eq_done.1 h
    rfl

theorem isNamed_congr (id : Json) {r other : Row} (h : Row.value r "id" = Row.value other "id") :
    isNamed id r = isNamed id other := by
  simp only [isNamed, h]

/-- The contact that is found is the first one that is named. -/
theorem contact?_eq_ok {s : Store} {id : Json} {found : Option Row}
    (h : s.contact? id = .ok found) : found = s.contacts.find? (isNamed id) := by
  unfold Store.contact? Row.select at h
  cases hw : Column.textForm id with
  | error failure => simp [hw, Except.map] at h
  | ok w =>
    simp only [hw, Except.map, Except.ok.injEq, List.head?_filter] at h
    rw [← h]
    congr
    funext r
    simp only [isNamed, hw]

/-- Of orderly contacts only one is named. -/
theorem isNamed_iff_of_contact? {s : Store} (hs : s.IsOrderly) {id : Json}
    (h : s.contact? id = .ok (some row)) {r : Row} (hr : r ∈ s.contacts) :
    isNamed id r = true ↔ Row.id r = Row.id row := by
  obtain ⟨text, htext⟩ := hs.named row (Store.mem_of_contact? h).1
  obtain ⟨other, hother⟩ := hs.named r hr
  simp only [isNamed, hs.textForm_of_contact? h, Row.id, Row.text?, htext, hother]
  exact beq_iff_eq.trans eq_comm

/-- To delete a contact takes out what is named. -/
theorem contacts_of_deleteContact {s t : Store} (hs : s.IsOrderly) {id : Json} {deleted : Bool}
    (h : s.deleteContact id = .ok (deleted, t)) :
    t = { s with contacts := s.contacts.filter fun r => !isNamed id r } := by
  obtain ⟨hnone, -, rfl⟩ | ⟨row, hrow, -, rfl⟩ := Store.deleteContact_eq_ok h
  · have hnot := List.find?_eq_none.1 (contact?_eq_ok hnone).symm
    have hall : t.contacts.filter (fun r => !isNamed id r) = t.contacts :=
      List.filter_eq_self.2 fun r hr => by simpa using hnot r hr
    rw [hall]
  · have hcongr : s.contacts.filter (fun r => Row.id r != Row.id row) =
        s.contacts.filter fun r => !isNamed id r :=
      List.filter_congr fun r hr => by
        rw [Bool.eq_iff_iff, bne_iff_ne, Bool.not_eq_true', ← Bool.not_eq_true, not_iff_not]
        exact (isNamed_iff_of_contact? hs hrow hr).symm
    rw [hcongr]

/-- New data can be folded into a contact: the store takes what is written, and the duplicate is
named by what can name a contact. -/
structure Mergeable (row : Row) (input : Fields) : Prop where
  filled : ∀ column ∈ fillable, (Row.value row column).isGiven = false →
    ∀ v, candidate? (dataOf input) mergeColumns column = some v → ∃ w, Column.textForm v = .ok w
  message : (Fields.getD (dataOf input) "message").isGiven = true →
    ∃ w, Column.textForm (Fields.getD (dataOf input) "message") = .ok w
  custom : furtherOf (dataOf input) ≠ [] → (Row.value row "custom_fields").isGiven = true →
    (Row.value row "custom_fields").fields? ≠ none
  counted : ∃ count w, Input.oneMore (Row.value row "inbound_count") = .ok count ∧
    Column.renewed .integer (Row.value row "inbound_count") count = .ok w
  duplicate : (duplicateId input).isGiven = true →
    ∃ w, Column.textForm (duplicateId input) = .ok w

theorem exists_mergeUpdates (hcustom : furtherOf data ≠ [] →
      (Row.value contact "custom_fields").isGiven = true →
        (Row.value contact "custom_fields").fields? ≠ none) :
    ∃ updates, mergeUpdates contact data = .ok updates := by
  rw [mergeUpdates_eq]
  split
  · exact ⟨_, rfl⟩
  · rename_i hmore
    cases hm : Input.onTopOf (Row.value contact "custom_fields") (furtherOf data) with
    | ok merged => exact ⟨_, rfl⟩
    | error failure =>
      obtain ⟨hgiven, hno⟩ := Input.onTopOf_eq_error hm
      exact absurd hno (hcustom (by simpa using hmore) hgiven)

theorem exists_renewed_of_textForm {v : Json} (h : ∃ w, Column.textForm v = .ok w) (held : Json) :
    ∃ u, Column.renewed .text held v = .ok u := by
  unfold Column.renewed
  split
  · exact ⟨held, rfl⟩
  · exact h

theorem column?_of_merged {name : String} (h : name ∈ mergedColumns) :
    ∃ c, Row.column? Tables.contacts name = some c ∧ c.kind ≠ .moment := by
  simp only [mergedColumns, List.mem_cons] at h
  obtain rfl | rfl | rfl | hcolumn := h
  · exact ⟨Tables.text "message", rfl, nofun⟩
  · exact ⟨Tables.object "custom_fields", rfl, nofun⟩
  · exact ⟨Tables.integerOr "inbound_count" 0, rfl, nofun⟩
  · exact ⟨Tables.text name, column?_of_fillable hcolumn, nofun⟩

/-- What is written for new data that can be folded in is written. -/
theorem exists_updatedContact_of_mergeable {written : Fields} {count : Json}
    (h : Mergeable row input) (hwrites : MergeWrites row (dataOf input) count written)
    (hcount : ∃ w, Column.renewed .integer (Row.value row "inbound_count") count = .ok w) :
    ∃ changed, Store.updatedContact row later written [("last_inbound_at", now)] = .ok changed := by
  have hmerged : ∀ name v, Fields.get? written name = some v → name ∈ mergedColumns := by
    intro name v hv
    by_contra hname
    rw [hwrites.other name hname] at hv
    cases hv
  have hread : ∀ name v, name ∈ mergedColumns → Row.readFor Tables.contacts name v = .ok v := by
    intro name v hname
    obtain ⟨c, hc, hkind⟩ := column?_of_merged hname
    exact Row.readFor_of_ne_moment hc hkind v
  refine Store.exists_updatedContact hwrites.nodup ?_ (fun name c hname hc => ?_) (fun f hf => ?_)
    fun name v c w hv _ hc hw => ?_
  · exact nodup_mergeMoments
  · rw [Store.keys_ownMoments] at hname
    simp only [List.map_cons, List.map_nil, List.cons_append, List.nil_append, List.mem_cons,
      List.not_mem_nil, or_false] at hname
    obtain rfl | rfl := hname
    · obtain rfl :=
        Option.some.inj (hc.symm.trans (rfl : _ = some (Tables.moment "last_inbound_at")))
      rfl
    · obtain rfl := Option.some.inj (hc.symm.trans (rfl : _ = some (Tables.present "updated_at")))
      rfl
  · exact ⟨f.2, hread f.1 f.2 (hmerged f.1 f.2 (Fields.get?_of_mem hwrites.nodup hf))⟩
  · have hname := hmerged name v hv
    obtain rfl := Except.ok.inj ((hread name v hname).symm.trans hw)
    simp only [mergedColumns, List.mem_cons] at hname
    obtain rfl | rfl | rfl | hcolumn := hname
    · obtain rfl := Option.some.inj (hc.symm.trans (rfl : _ = some (Tables.text "message")))
      refine exists_renewed_of_textForm ?_ _
      rw [hwrites.message] at hv
      split at hv
      · rename_i hgiven
        obtain rfl := Option.some.inj hv
        exact h.message hgiven
      · cases hv
    · obtain rfl := Option.some.inj (hc.symm.trans (rfl : _ = some (Tables.object "custom_fields")))
      exact Column.exists_renewed_data _ _
    · obtain rfl := Option.some.inj (hc.symm.trans
        (rfl : _ = some (Tables.integerOr "inbound_count" 0)))
      obtain rfl := Option.some.inj (hwrites.counted.symm.trans hv)
      exact hcount
    · obtain rfl := Option.some.inj (hc.symm.trans (column?_of_fillable hcolumn))
      refine exists_renewed_of_textForm ?_ _
      rw [hwrites.filled name hcolumn] at hv
      split at hv
      · cases hv
      · rename_i hblank
        exact h.filled name hcolumn (by simpa using hblank) v hv

/-- To delete what can name a contact is not refused. -/
theorem exists_run_deleteContact (ho : o.KeepsContacts) (d : Desk) {id w : Json}
    (h : Column.textForm id = .ok w) :
    ∃ deleted e, (Archive.deleteContact id).run o d = (.done deleted, e) := by
  have hdelete : ∃ deleted t, d.store.deleteContact id = .ok (deleted, t) := by
    unfold Store.deleteContact Store.contact? Row.select
    rw [h]
    dsimp only [Except.map, bind, Except.bind]
    split <;> exact ⟨_, _, rfl⟩
  obtain ⟨deleted, t, ht⟩ := hdelete
  exact ⟨deleted, _, Action.run_change_of_ok ho.deletes ht⟩

/-- A merge to which nothing speaks comes to a value. -/
theorem exists_done_of_mergeable (ho : o.KeepsContacts) (hs : d.store.IsOrderly)
    (hgiven : (keptId input).isGiven = true)
    (hrow : d.store.contact? (keptId input) = .ok (some row))
    (h : Mergeable row input) : ∃ v e, (merge input).run o d = (.done v, e) := by
  obtain ⟨summary, hrequire⟩ := run_require ho hs hgiven hrow
  obtain ⟨updates, hupdates⟩ : ∃ updates,
      mergeUpdates (Fields.put row "company" summary) (dataOf input) = .ok updates := by
    refine exists_mergeUpdates ?_
    rw [value_shown row summary (by decide)]
    exact h.custom
  obtain ⟨count, w, hcount, hfits⟩ := h.counted
  have hwrites := mergeWrites_of_updates hupdates count
  obtain ⟨changed, hchanged⟩ : ∃ changed,
      Store.updatedContact row (Timestamp.utc (d.dial (d.clock + 1))) (withCount updates count)
        [("last_inbound_at", d.time)] = .ok changed :=
    exists_updatedContact_of_mergeable h hwrites ⟨w, hfits⟩
  have hcheck : Store.checkContactUpdates (withCount updates count) = .ok () := by
    refine (Store.checkContactUpdates_eq_ok_iff _).2 fun f hf => ?_
    by_contra hfixed
    have hname : f.1 ∉ mergedColumns := fun hname =>
      hfixed ((by decide : ∀ c ∈ mergedColumns, c ∈ Tables.changeableContactColumns) f.1 hname)
    exact Fields.get?_eq_none_iff.1 (hwrites.other f.1 hname) (List.mem_map_of_mem hf)
  have hnow : Action.now.run o d =
      (.done d.time, { d with clock := d.clock + 1 }) := rfl
  have hupdate := Archive.run_updateContact (d := { d with clock := d.clock + 1 }) ho
    (Store.updateContact_of_stored hcheck hrow hchanged)
  rw [merge_eq, Action.run_bind_of_done hrequire, hupdates, Action.run_bind_of_done (e := d) rfl,
    value_shown row summary (by decide), hcount, Action.run_bind_of_done (e := d) rfl,
    Action.run_bind_of_done hnow, Action.run_bind_of_done hupdate]
  split
  · rename_i hother
    obtain ⟨w, hw⟩ := h.duplicate (Bool.and_eq_true_iff.1 hother).1
    obtain ⟨deleted, e, hdelete⟩ := exists_run_deleteContact ho _ hw
    rw [Action.run_bind_of_done hdelete]
    exact ⟨_, _, rfl⟩
  · exact ⟨_, _, rfl⟩

/-- What is left of orderly contacts when one was changed and then a duplicate deleted: the
duplicate is the same one as before. -/
theorem filter_replace {s : Store} (hs : s.IsOrderly) (hrow : row ∈ s.contacts)
    (hid : Row.value changed "id" = Row.value row "id") (duplicate : Json) :
    (Row.replace changed s.contacts).filter (fun r => !isNamed duplicate r) =
      (s.contacts.filter fun r => !isNamed duplicate r).map fun r =>
        if Row.id r = Row.id row then changed else r := by
  have hsame : Row.id changed = Row.id row := by simp only [Row.id, Row.text?, hid]
  rw [Store.replace_eq hsame, List.filter_map]
  congr 1
  refine List.filter_congr fun r hr => ?_
  simp only [Function.comp_apply]
  split
  · rename_i heq
    have hvalue : Row.value changed "id" = Row.value r "id" := by
      rw [hid, hs.value_id hrow, hs.value_id hr, heq]
    rw [isNamed_congr duplicate hvalue]
  · rfl

/-- What is left of the contacts after a merge: those that are no duplicate, one of them changed. -/
theorem store_of_merged {s t u : Store} (hs : s.IsOrderly) (ht : t.IsOrderly)
    (hrow : row ∈ s.contacts) (hid : Row.value changed "id" = Row.value row "id")
    (hupdated : t = { s with contacts := Row.replace changed s.contacts })
    (h : if hasDuplicate input then
        ∃ deleted, t.deleteContact (duplicateId input) = .ok (deleted, u)
      else u = t) :
    u = { s with
      contacts := (s.contacts.filter fun r => !isDuplicate input r).map fun r =>
        if Row.id r = Row.id row then changed else r } := by
  have hsame : Row.id changed = Row.id row := by simp only [Row.id, Row.text?, hid]
  split at h
  · -- the duplicate is looked up after the update, which has left all ids as they were
    rename_i hother
    obtain ⟨deleted, hdelete⟩ := h
    rw [contacts_of_deleteContact ht hdelete, hupdated]
    simp only [filter_replace hs hrow hid, isDuplicate, hother, Bool.true_and]
  · rename_i hnone
    rw [h, hupdated]
    simp only [Store.replace_eq hsame, isDuplicate, hnone, Bool.false_and, Bool.not_false,
      List.filter_true]

/-- A contact is no duplicate of itself, when ids that name one contact are the same. -/
theorem not_isDuplicate_of_kept {s : Store} (hs : s.IsOrderly)
    (hrow : s.contact? (keptId input) = .ok (some row))
    (hids : Column.textForm (duplicateId input) = Column.textForm (keptId input) →
      (duplicateId input).same (keptId input) = true) : isDuplicate input row = false := by
  by_contra hduplicate
  simp only [Bool.not_eq_false, isDuplicate, hasDuplicate, Bool.and_eq_true, Bool.not_eq_true',
    isNamed] at hduplicate
  obtain ⟨⟨-, hother⟩, hnamed⟩ := hduplicate
  split at hnamed
  · rename_i w hw
    have hvalue := hs.value_id (Store.mem_of_contact? hrow).1
    rw [hids ?_] at hother
    · cases hother
    · rw [hw, hs.textForm_of_contact? hrow, Column.eq_of_same (.inr ⟨_, hvalue⟩) hnamed]
  · cases hnamed

/-- **Merging.** A merge with a contact that is not stored fails and changes nothing. A merge that
comes to a value leaves the contact with all that it had and what it takes in, without the duplicate
and with every other contact as it was; the contact itself stays. A merge comes to a value if the
store takes what is to be written. -/
theorem merge_settles (ho : o.KeepsContacts) (hs : d.store.IsOrderly) :
    ((∀ row, (keptId input).isGiven = true → d.store.contact? (keptId input) ≠ .ok (some row)) →
      ∃ failure, (merge input).run o d = (.failed failure, d)) ∧
    (∀ v e, (merge input).run o d = (.done v, e) → ∃ row changed,
      d.store.contact? (keptId input) = .ok (some row) ∧
      TakesIn row changed (dataOf input) d.time (Timestamp.utc (d.dial (d.clock + 1))) ∧
      e.store = { d.store with
        contacts := (d.store.contacts.filter fun r => !isDuplicate input r).map fun r =>
          if Row.id r = Row.id row then changed else r } ∧
      ((Column.textForm (duplicateId input) = Column.textForm (keptId input) →
        (duplicateId input).same (keptId input) = true) → changed ∈ e.store.contacts)) ∧
    ∀ row, (keptId input).isGiven = true → d.store.contact? (keptId input) = .ok (some row) →
      Mergeable row input → ∃ v e, (merge input).run o d = (.done v, e) := by
  refine ⟨fun habsent => ?_, fun v e h => ?_, fun row hgiven hrow hmergeable =>
    exists_done_of_mergeable ho hs hgiven hrow hmergeable⟩
  · rcases hrun : (require (keptId input)).run o d with ⟨asked, m⟩
    obtain ⟨rfl, ⟨failure, rfl⟩ | ⟨hgiven, row, -, -, hrow⟩⟩ := require_cases hrun
    · exact ⟨failure, by rw [merge_eq, Action.run_bind_of_failed hrun]⟩
    · exact absurd hrow (habsent row hgiven)
  · obtain ⟨row, summary, updates, count, found, t, -, hrow, hupdates, hcount, hupdate, hrest⟩ :=
      merge_cases h
    have ht : t.IsOrderly :=
      hs.updated (by simp only [List.map_cons, List.map_nil]; decide) hupdate
    obtain ⟨hcheck, ⟨hnone, -, -⟩ | ⟨row', changed, hrow', hchanged, -, hreplaced⟩⟩ :=
      Store.updateContact_eq_ok hupdate
    · rw [hrow] at hnone
      cases hnone
    obtain rfl : row = row' := by simpa [hrow] using hrow'
    have hmem := (Store.mem_of_contact? hrow).1
    have hwrites := mergeWrites_of_updates hupdates count
    have htakes := takesIn_of_updated (hs.holds row hmem) hwrites hcount
      (Store.updatedContact_spec hwrites.nodup nodup_mergeMoments hchanged)
    have hstore := store_of_merged hs ht hmem (htakes.other "id" (by decide) (by decide)) hreplaced
      hrest
    refine ⟨row, changed, hrow, htakes, hstore, fun hids => ?_⟩
    rw [hstore]
    refine List.mem_map.2 ⟨row, List.mem_filter.2 ⟨hmem, ?_⟩, if_pos rfl⟩
    rw [not_isDuplicate_of_kept hs hrow hids]
    rfl

/-- Ann keeps her name, gets a title, and her duplicate goes. -/
theorem merge_settles_ann :
    ∃ s, ReflTransGen Store.ContactWrite {} s ∧ ∃ changed v e,
      (merge [("existing_contact_id", .string "c1"), ("new_contact_id", .string "c2"),
        ("new_data", .object [("first_name", .string "Eve"), ("title", .string "CTO")])]).run {}
          { store := s } = (.done v, e) ∧
      Row.value changed "first_name" = .string "Ann" ∧ Row.value changed "title" = .string "CTO" ∧
      Row.value changed "inbound_count" = .int 1 ∧ e.store.contacts = [changed] := by
  have hann : Store.ContactWrite {} _ :=
    .added "c1" (Timestamp.utc 0) [("first_name", .string "Ann")] rfl
  have hwrites : ReflTransGen Store.ContactWrite {} _ :=
    .tail (.single hann) (.added "c2" (Timestamp.utc 1) [("first_name", .string "Eve")] rfl)
  refine ⟨_, hwrites, ?_⟩
  obtain ⟨-, hdone, -⟩ := @merge_settles {} { store := _ }
    [("existing_contact_id", .string "c1"), ("new_contact_id", .string "c2"),
      ("new_data", .object [("first_name", .string "Eve"), ("title", .string "CTO")])]
    ⟨rfl, rfl, rfl, rfl⟩ (Store.IsOrderly.of_writes hwrites)
  obtain ⟨row, changed, hrow, htakes, hstore, -⟩ := hdone _ _ rfl
  obtain rfl : _ = row := Option.some.inj (Except.ok.inj hrow)
  refine ⟨changed, _, _, rfl, ?_, ?_, htakes.countedMore 0 rfl, ?_⟩
  · exact htakes.kept "first_name" (by decide) (.inl rfl)
  · exact (Except.ok.inj (htakes.filled "title" (by decide) rfl _ rfl)).symm
  · rw [hstore]
    rfl

/-- A number for a phone that is blank is stored as a text. -/
theorem merge_phone_number :
    ∃ s, Store.ContactWrite {} s ∧ ∃ row changed shown e,
      s.contacts = [row] ∧ (Row.value row "phone").isGiven = false ∧
      (merge [("existing_contact_id", .string "c1"),
        ("new_data", .object [("phone", .int 555)])]).run
        {} { store := s } = (.done shown, e) ∧
      e.store.contacts = [changed] ∧ Row.value changed "phone" = .string "555" ∧
      Row.value changed "phone" ≠ .int 555 := by
  have hwrite : Store.ContactWrite {} _ :=
    .added "c1" (Timestamp.utc 0) [("first_name", .string "Ann")] rfl
  exact ⟨_, hwrite, _, _, _, _, rfl, rfl, rfl, rfl, rfl,
    show Json.string "555" ≠ .int 555 from nofun⟩

end ContactTool

end LeadDesk
