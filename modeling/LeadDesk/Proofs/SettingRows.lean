import LeadDesk.Proofs.Records
import LeadDesk.Proofs.Rows
/-!
# Rows of team settings

A table of settings has at most one row for a name and a team, and one for a name and all teams
(`Store.IsFiled`). To put a setting writes the row of its own name and team and leaves all others as
they are (`Store.IsFiled.exists_putSetting`), and what is read for a team is what its row has, or
else what the row of all teams has.
-/

namespace LeadDesk

namespace Column

variable {held v : Json}

/-- What a data column holds after a value is written, with what it held before. -/
def kept (held : Option Json) (v : Json) : Json :=
  match held with
  | some w => if v.same w then w else dataForm v
  | none => dataForm v

theorem renewed_data (held v : Json) : renewed .data held v = .ok (kept (some held) v) := by
  rw [renewed, kept]
  split <;> rfl

/-- A truth value is held as it is. -/
theorem renewed_truth (hheld : ColumnKind.truth.Holds held) (b : Bool) :
    renewed .truth held (.bool b) = .ok (.bool b) := by
  obtain rfl | ⟨a, rfl⟩ := hheld
  · rfl
  · cases a <;> cases b <;> rfl

/-- A text column takes every text. -/
theorem exists_renewed_string (held : Json) (text : String) :
    ∃ w, renewed .text held (.string text) = .ok w := by
  rw [renewed]
  split
  · exact ⟨held, rfl⟩
  · exact ⟨.string text, rfl⟩

end Column

namespace Row

/-- Where each column takes its value, a change is made: it writes its values over what these
columns held, and leaves the others. -/
theorem exists_changed (columns : List Column) (row : Row) {changes : Fields}
    (hkeys : (Fields.keys changes).Nodup)
    (h : ∀ f ∈ changes, ∃ c w, column? columns f.1 = some c ∧
      Column.renewed c.kind (value row f.1) f.2 = .ok w) :
    ∃ changed, change columns row changes = .ok changed ∧
      (∀ f ∈ changes, ∀ c, column? columns f.1 = some c →
        Column.renewed c.kind (value row f.1) f.2 = .ok (value changed f.1)) ∧
      ∀ name, name ∉ Fields.keys changes → value changed name = value row name := by
  obtain ⟨changed, hchanged⟩ := exists_change hkeys fun name v c hv hc => by
    obtain ⟨c', w, hc', hw⟩ := h (name, v) (Fields.mem_of_get? hv)
    obtain rfl := Option.some.inj (hc'.symm.trans hc)
    exact ⟨w, hw⟩
  have hspec := change_spec hkeys hchanged
  exact ⟨changed, hchanged, fun f hf c hc => hspec.1 f.1 f.2 c (Fields.get?_of_mem hkeys hf) hc,
    fun name hname => hspec.2 name (.inl (Fields.get?_eq_none_iff.2 hname))⟩

/-- The name and the team for which a row holds a setting. -/
def slot (column : String) (row : Row) : Option String × Option String :=
  (text? row column, text? row "team_id")

/-- The row has a name, and belongs to a team with a name or to all teams. -/
structure IsSetting (column : String) (row : Row) : Prop where
  named : ∃ name, value row column = .string name
  owned : ∃ team, team ≠ some "" ∧ value row "team_id" = Json.ofText? team

namespace IsSetting

variable {column : String} {row : Row} {team : Option String}

theorem named_iff (h : IsSetting column row) {name : String} :
    Store.named column name row = true ↔ text? row column = some name := by
  obtain ⟨own, hown⟩ := h.named
  rw [Store.named, text?, hown, Json.text?, Option.some_inj]
  exact beq_iff_eq

theorem isNull_iff (h : IsSetting column row) :
    (value row "team_id").isNull = true ↔ text? row "team_id" = none := by
  obtain ⟨owner, -, howner⟩ := h.owned
  rw [text?, howner]
  cases owner <;> simp [Json.ofText?, Json.isNull, Json.text?]

theorem ownedBy_iff (h : IsSetting column row) (hteam : team ≠ some "") :
    Store.ownedBy team row = true ↔ text? row "team_id" = team := by
  unfold Store.ownedBy
  split
  · exact h.isNull_iff
  · exact absurd rfl hteam
  · obtain ⟨owner, -, howner⟩ := h.owned
    rw [text?, howner]
    cases owner with
    | none => simp [Json.ofText?, Json.same, Json.compareNumbers?, Json.text?]
    | some owner => simp [Json.ofText?, Json.same, Json.text?]

theorem concerns_iff (h : IsSetting column row) (hteam : team ≠ some "") :
    Store.concerns team row = true ↔
      text? row "team_id" = none ∨ text? row "team_id" = team := by
  obtain ⟨owner, -, howner⟩ := h.owned
  unfold Store.concerns
  rw [text?, howner]
  cases owner with
  | none => simp [Json.ofText?, Json.text?]
  | some owner =>
    cases team with
    | none => simp [Json.ofText?, Json.text?]
    | some t =>
      have hname : t ≠ "" := fun heq => hteam (congrArg some heq)
      simp [Json.ofText?, Json.text?, hname]

end IsSetting

end Row

namespace Store

/-- The row that holds a setting for a name and a team, or for a name and all teams. -/
def settingAt (column : String) (rows : List Row) (name : String) (team : Option String) :
    Option Row :=
  rows.find? fun row => Row.slot column row = (some name, team)

/-- Each row of the table is a setting, no two rows are for the same name and team, and no row has
the id of another one or one of the ids to come. -/
structure IsFiled (column : String) (next : Nat) (rows : List Row) : Prop where
  settings : ∀ row ∈ rows, Row.IsSetting column row
  once : (rows.map (Row.slot column)).Nodup
  ids : (rows.map Row.id).Nodup
  fresh : ∀ row ∈ rows, ∀ n, next ≤ n → Row.id row ≠ freshId n

variable {column name : String} {team : Option String} {next : Nat} {rows : List Row} {row : Row}

theorem isFiled_nil : IsFiled column next [] where
  settings _ h := (List.not_mem_nil h).elim
  once := List.nodup_nil
  ids := List.nodup_nil
  fresh _ h := (List.not_mem_nil h).elim

theorem IsFiled.mono {later : Nat} (h : IsFiled column next rows) (hle : next ≤ later) :
    IsFiled column later rows :=
  { h with fresh := fun row hrow n hn => h.fresh row hrow n (Nat.le_trans hle hn) }

theorem IsFiled.settingAt_iff (h : IsFiled column next rows) :
    settingAt column rows name team = some row ↔
      row ∈ rows ∧ Row.slot column row = (some name, team) := by
  constructor
  · intro hfound
    exact ⟨List.mem_of_find?_eq_some hfound, by simpa using List.find?_some hfound⟩
  · rintro ⟨hrow, hslot⟩
    cases hfound : settingAt column rows name team with
    | none => exact absurd (List.find?_eq_none.1 hfound row hrow) (by simpa using hslot)
    | some found =>
      have hslot' : Row.slot column found = (some name, team) := by
        simpa using List.find?_some hfound
      have hmem := List.mem_of_find?_eq_some hfound
      rw [List.inj_on_of_nodup_map h.once hmem hrow (hslot'.trans hslot.symm)]

/-- The rows for one name and team are one row at most. -/
theorem IsFiled.filter_slot (h : IsFiled column next rows) (name : String)
    (team : Option String) :
    rows.filter (fun row => Row.slot column row = (some name, team)) =
      (settingAt column rows name team).toList := by
  have honce := h.once
  rw [settingAt]
  clear h
  induction rows with
  | nil => rfl
  | cons first rest ih =>
    obtain ⟨hnew, hrest⟩ := List.nodup_cons.1 honce
    by_cases hslot : Row.slot column first = (some name, team)
    · have hnone : rest.filter (fun row => Row.slot column row = (some name, team)) = [] := by
        refine List.filter_eq_nil_iff.2 fun row hrow heq => hnew ?_
        rw [hslot, ← of_decide_eq_true heq]
        exact List.mem_map_of_mem hrow
      simp [hslot, hnone]
    · simp [hslot, ih hrest]

/-! ## What is read -/

/-- The rows from which a setting of a team is read: its own one, and then the one of all teams. -/
theorem IsFiled.teamFirst_eq (h : IsFiled column next rows) (name : String)
    (hteam : team ≠ some "") :
    teamFirst (rows.filter fun row => named column name row && concerns team row) =
      (if team = none then [] else (settingAt column rows name team).toList) ++
        (settingAt column rows name none).toList := by
  rw [teamFirst, List.filter_filter, List.filter_filter]
  congr 1
  · split
    · rename_i hnone
      refine List.filter_eq_nil_iff.2 fun row hrow => ?_
      have hs := h.settings row hrow
      subst hnone
      simp only [Bool.and_eq_true, Bool.not_eq_true', ← Bool.not_eq_true, hs.isNull_iff,
        hs.concerns_iff hteam]
      tauto
    · rename_i hsome
      rw [← h.filter_slot]
      refine List.filter_congr fun row hrow => ?_
      have hs := h.settings row hrow
      rw [Bool.eq_iff_iff]
      simp only [Bool.and_eq_true, Bool.not_eq_true', ← Bool.not_eq_true, hs.isNull_iff,
        hs.concerns_iff hteam, hs.named_iff, decide_eq_true_eq, Row.slot, Prod.mk.injEq]
      constructor
      · tauto
      · rintro ⟨hname, howner⟩
        exact ⟨by rwa [howner], hname, .inr howner⟩
  · rw [← h.filter_slot]
    refine List.filter_congr fun row hrow => ?_
    have hs := h.settings row hrow
    rw [Bool.eq_iff_iff]
    simp only [Bool.and_eq_true, hs.isNull_iff, hs.concerns_iff hteam, hs.named_iff,
      decide_eq_true_eq, Row.slot, Prod.mk.injEq]
    tauto

/-- The value of a setting is that of a team's own row, or else that of the row of all teams. -/
theorem teamConfig?_eq {s : Store} (h : IsFiled "config_key" next s.teamConfig) (key : String)
    (hteam : team ≠ some "") :
    s.teamConfig? key team =
      ((settingAt "config_key" s.teamConfig key team).or
        (settingAt "config_key" s.teamConfig key none)).map (Row.value · "config_value") := by
  rw [teamConfig?, h.teamFirst_eq key hteam]
  split
  · rename_i hnone
    subst hnone
    cases settingAt "config_key" s.teamConfig key none <;> rfl
  · cases settingAt "config_key" s.teamConfig key team <;>
      cases settingAt "config_key" s.teamConfig key none <;> rfl

theorem filter_teamFirst (p : Row → Bool) (rows : List Row) :
    (teamFirst rows).filter p = teamFirst (rows.filter p) := by
  simp only [teamFirst, List.filter_append, List.filter_filter, Bool.and_comm]

/-- The credentials that a row has for an integration that is switched on. -/
def usableIn (row : Row) : Option Json :=
  if (Row.value row "is_enabled").isGiven && (Row.value row "credentials").isGiven then
    some (Row.value row "credentials")
  else none

theorem find?_credentials (rows : List Row) :
    ((rows.filter fun row => (Row.value row "is_enabled").isGiven).map
      fun row => Row.value row "credentials").find? Json.isGiven = rows.findSome? usableIn := by
  induction rows with
  | nil => rfl
  | cons first rest ih =>
    rw [List.findSome?_cons, usableIn, ← ih]
    by_cases hon : (Row.value first "is_enabled").isGiven = true
    · by_cases hgiven : (Row.value first "credentials").isGiven = true <;> simp [hon, hgiven]
    · simp [hon]

/-- The credentials of a team are those that its own row has, or else those that the row of all
teams has, where the integration is switched on and there are any. -/
theorem credentials?_eq {s : Store} (h : IsFiled "name" next s.integrations) (name : String)
    (hteam : team ≠ some "") :
    s.credentials? name team =
      ((settingAt "name" s.integrations name team).bind usableIn).or
        ((settingAt "name" s.integrations name none).bind usableIn) := by
  have hrows : (s.integrations.filter fun row => named "name" name row &&
        (Row.value row "is_enabled").isGiven && concerns team row) =
      (s.integrations.filter fun row => named "name" name row && concerns team row).filter
        fun row => (Row.value row "is_enabled").isGiven := by
    rw [List.filter_filter]
    refine List.filter_congr fun row _ => ?_
    rw [Bool.and_assoc, Bool.and_left_comm]
  rw [credentials?, hrows, ← filter_teamFirst, find?_credentials, h.teamFirst_eq name hteam,
    List.findSome?_append]
  split
  · rename_i hnone
    subst hnone
    cases settingAt "name" s.integrations name none with
    | none => rfl
    | some row => simp
  · cases settingAt "name" s.integrations name team <;>
      cases settingAt "name" s.integrations name none <;> simp

/-! ## What is put -/

/-- Where two tables differ in the rows for one name and team, what is found differs there alone. -/
theorem IsFiled.settingAt_eq {later : Nat} {written : List Row} (h : IsFiled column next rows)
    (hwritten : IsFiled column later written) (hrow : row ∈ written)
    (hothers : ∀ r, Row.slot column r ≠ Row.slot column row → (r ∈ written ↔ r ∈ rows))
    (name : String) (team : Option String) :
    settingAt column written name team =
      if Row.slot column row = (some name, team) then some row
      else settingAt column rows name team := by
  split
  · rename_i hown
    exact hwritten.settingAt_iff.2 ⟨hrow, hown⟩
  · rename_i hother
    refine Option.ext fun r => ?_
    rw [hwritten.settingAt_iff, h.settingAt_iff]
    refine and_congr_left fun hslot => hothers r ?_
    rwa [hslot, ne_comm]

/-- A row takes the place of the one with its id. -/
theorem IsFiled.replaced (h : IsFiled column next rows) {old : Row} (hold : old ∈ rows)
    (hsetting : Row.IsSetting column row) (hid : Row.id row = Row.id old)
    (hslot : Row.slot column row = Row.slot column old) :
    IsFiled column next (Row.replace row rows) ∧ row ∈ Row.replace row rows ∧
      ∀ r, Row.slot column r ≠ Row.slot column row → (r ∈ Row.replace row rows ↔ r ∈ rows) := by
  let put (r : Row) : Row := if Row.id r == Row.id row then row else r
  have hcases : ∀ r ∈ rows, put r = r ∧ r ≠ old ∨ r = old ∧ put r = row := by
    intro r hr
    by_cases heq : Row.id r = Row.id row
    · exact .inr ⟨List.inj_on_of_nodup_map h.ids hr hold (heq.trans hid), if_pos (beq_iff_eq.2 heq)⟩
    · refine .inl ⟨if_neg (by simpa using heq), ?_⟩
      rintro rfl
      exact heq hid.symm
  have hreplace : Row.replace row rows = rows.map put := rfl
  have hslots : (rows.map put).map (Row.slot column) = rows.map (Row.slot column) := by
    rw [List.map_map]
    refine List.map_congr_left fun r hr => ?_
    obtain ⟨heq, -⟩ | ⟨rfl, heq⟩ := hcases r hr <;> rw [Function.comp_apply, heq]
    exact hslot
  have hids : ∀ r ∈ rows, Row.id (put r) = Row.id r := by
    intro r hr
    obtain ⟨heq, -⟩ | ⟨rfl, heq⟩ := hcases r hr <;> rw [heq]
    exact hid
  rw [hreplace]
  refine ⟨⟨fun changed hchanged => ?_, ?_, ?_, fun changed hchanged => ?_⟩, ?_, fun r hr => ?_⟩
  · obtain ⟨r, hr, rfl⟩ := List.mem_map.1 hchanged
    obtain ⟨heq, -⟩ | ⟨-, heq⟩ := hcases r hr <;> rw [heq]
    · exact h.settings r hr
    · exact hsetting
  · rw [hslots]
    exact h.once
  · have hmap : (rows.map put).map Row.id = rows.map Row.id := by
      rw [List.map_map]
      exact List.map_congr_left hids
    rw [hmap]
    exact h.ids
  · obtain ⟨r, hr, rfl⟩ := List.mem_map.1 hchanged
    rw [hids r hr]
    exact h.fresh r hr
  · exact List.mem_map.2 ⟨old, hold, if_pos (beq_iff_eq.2 hid.symm)⟩
  · constructor
    · intro hmem
      obtain ⟨r', hr', rfl⟩ := List.mem_map.1 hmem
      obtain ⟨heq, -⟩ | ⟨-, heq⟩ := hcases r' hr'
      · rwa [heq]
      · exact absurd (congrArg (Row.slot column) heq) hr
    · intro hmem
      obtain ⟨heq, -⟩ | ⟨rfl, -⟩ := hcases r hmem
      · exact List.mem_map.2 ⟨r, hmem, heq⟩
      · exact absurd hslot.symm hr

/-- A row with the next id is added for a name and team that no row is for yet. -/
theorem IsFiled.added (h : IsFiled column next rows) (hsetting : Row.IsSetting column row)
    (hid : Row.id row = freshId next) (hnew : Row.slot column row ∉ rows.map (Row.slot column)) :
    IsFiled column (next + 1) (rows ++ [row]) where
  settings r hr := by
    obtain hr | hr := List.mem_append.1 hr
    · exact h.settings r hr
    · exact List.mem_singleton.1 hr ▸ hsetting
  once := by
    rw [List.map_append]
    exact List.nodup_append.2 ⟨h.once, List.nodup_singleton _, fun a ha b hb => by
      rintro rfl
      exact hnew (List.mem_singleton.1 hb ▸ ha)⟩
  ids := by
    rw [List.map_append]
    refine List.nodup_append.2 ⟨h.ids, List.nodup_singleton _, fun a ha b hb => ?_⟩
    obtain ⟨r, hr, rfl⟩ := List.mem_map.1 ha
    rw [List.mem_singleton.1 hb, hid]
    exact h.fresh r hr next (Nat.le_refl _)
  fresh r hr n hn := by
    obtain hr | hr := List.mem_append.1 hr
    · exact h.fresh r hr n (Nat.le_of_succ_le hn)
    · rw [List.mem_singleton.1 hr, hid]
      exact fun heq => absurd (freshId_injective heq) (by omega)

theorem settingAt_eq_none (h : settingAt column rows name team = none) (hrow : row ∈ rows) :
    Row.slot column row ≠ (some name, team) := by
  simpa using List.find?_eq_none.1 h row hrow

/-- The row that is looked for when a setting is put is the one for its name and team. -/
theorem IsFiled.find?_eq (h : IsFiled column next rows) (name : String) (hteam : team ≠ some "") :
    rows.find? (fun row => named column name row && ownedBy team row) =
      settingAt column rows name team := by
  rw [settingAt, ← List.head?_filter, ← List.head?_filter]
  refine congrArg List.head? (List.filter_congr fun row hrow => ?_)
  have hs := h.settings row hrow
  rw [Bool.eq_iff_iff, Bool.and_eq_true, hs.named_iff, hs.ownedBy_iff hteam, decide_eq_true_iff,
    Row.slot, Prod.mk.injEq]

/-- A row is written over the row for its name and team, or is a new one where there is none.
Whatever is written in both cases is found in it. -/
theorem IsFiled.exists_putSetting (h : IsFiled column next rows) {columns : List Column}
    {now : Timestamp} {given changes : Fields} (hteam : team ≠ some "")
    {Written : Option Row → Row → Prop}
    (hcreate : ∃ row, Row.create columns (freshId next) now (given ++ changes) = .ok row ∧
      Row.value row column = .string name ∧ Row.value row "team_id" = Json.ofText? team ∧
      Row.id row = freshId next ∧ Written none row)
    (hchange : ∀ old ∈ rows, ∃ row, Row.change columns old changes = .ok row ∧
      Row.value row column = Row.value old column ∧
      Row.value row "team_id" = Row.value old "team_id" ∧ Row.id row = Row.id old ∧
      Written (some old) row) :
    ∃ row written,
      putSetting columns column name team (freshId next) now given changes rows =
        .ok (row, written) ∧
      IsFiled column (next + 1) written ∧ Written (settingAt column rows name team) row ∧
      ∀ name' team', settingAt column written name' team' =
        if (name, team) = (name', team') then some row
        else settingAt column rows name' team' := by
  have hslots : ∀ name' team',
      (some name, team) = (some name', team') ↔ (name, team) = (name', team') := by
    simp
  rw [putSetting, h.find?_eq name hteam]
  cases hfound : settingAt column rows name team with
  | some old =>
    obtain ⟨hold, hslot⟩ := h.settingAt_iff.1 hfound
    obtain ⟨row, hrow, hname, hown, hid, hwritten⟩ := hchange old hold
    have hsame : Row.slot column row = Row.slot column old := by
      simp only [Row.slot, Row.text?, hname, hown]
    have hsetting : Row.IsSetting column row := by
      obtain ⟨hnamed, howned⟩ := h.settings old hold
      exact ⟨by rwa [hname], by rwa [hown]⟩
    obtain ⟨hfiled, hmem, hothers⟩ := h.replaced hold hsetting hid hsame
    refine ⟨row, _, by simp only [hrow, bind, Except.bind]; rfl, hfiled.mono (Nat.le_succ _),
      hwritten, ?_⟩
    intro name' team'
    rw [h.settingAt_eq hfiled hmem hothers, hsame, hslot]
    exact if_congr (hslots name' team') rfl rfl
  | none =>
    obtain ⟨row, hrow, hname, hown, hid, hwritten⟩ := hcreate
    have hslot : Row.slot column row = (some name, team) := by
      rw [Row.slot, Row.text?, Row.text?, hname, hown]
      cases team <;> rfl
    have hsetting : Row.IsSetting column row := ⟨⟨name, hname⟩, team, hteam, hown⟩
    have hfree : ∀ r ∈ rows, Row.slot column r ≠ Row.slot column row := fun r hr =>
      hslot ▸ settingAt_eq_none hfound hr
    have hunique : (rows.any fun r => named column name r && !(Row.value r "team_id").isNull &&
        (Row.value r "team_id").same (Json.ofText? team)) = false := by
      refine List.any_eq_false.2 fun r hr hall => ?_
      have hs := h.settings r hr
      simp only [Bool.and_eq_true] at hall
      obtain ⟨⟨hnamed, hnull⟩, hsame⟩ := hall
      refine settingAt_eq_none hfound hr (Prod.ext (hs.named_iff.1 hnamed) ?_)
      obtain ⟨owner, -, howner⟩ := hs.owned
      rw [howner] at hsame hnull
      show (Row.value r "team_id").text? = team
      rw [howner]
      cases owner with
      | none => cases hnull
      | some owner =>
        cases team with
        | none => cases hsame
        | some t => exact congrArg some (beq_iff_eq.1 hsame)
    have hfiled := h.added hsetting hid fun hmem => by
      obtain ⟨r, hr, heq⟩ := List.mem_map.1 hmem
      exact hfree r hr heq
    refine ⟨row, rows ++ [row], ?_, hfiled, hwritten, ?_⟩
    · simp only [hrow, hunique, bind, Except.bind]
      rfl
    · intro name' team'
      rw [h.settingAt_eq hfiled (List.mem_append_right _ (List.mem_singleton_self row)), hslot]
      · exact if_congr (hslots name' team') rfl rfl
      intro r hr
      refine ⟨fun hmem => (List.mem_append.1 hmem).resolve_right fun hlast => ?_,
        List.mem_append_left _⟩
      exact hr (congrArg (Row.slot column) (List.mem_singleton.1 hlast))

/-! ## Integrations -/

/-- What a save writes into the row of an integration. -/
def integrationChanges (credentials : Fields) (isEnabled : Bool) (now : Timestamp) : Fields :=
  [("credentials", .object credentials), ("is_enabled", .bool isEnabled),
    ("updated_at", Column.momentText now)]

/-- The row has credentials, written over those of an earlier row, and the integration is switched
on or off. -/
structure HasIntegration (credentials : Fields) (isEnabled : Bool) (old : Option Row) (row : Row) :
    Prop where
  credentials : Row.value row "credentials" =
    Column.kept (old.map (Row.value · "credentials")) (.object credentials)
  isEnabled : Row.value row "is_enabled" = .bool isEnabled

theorem exists_createdIntegration (next : Nat) (now : Timestamp) (name : String)
    (team : Option String) (credentials : Fields) (isEnabled : Bool) :
    ∃ row, Row.create Tables.integrations (freshId next) now
        ([("name", .string name), ("team_id", Json.ofText? team)] ++
          integrationChanges credentials isEnabled now) = .ok row ∧
      Row.value row "name" = .string name ∧ Row.value row "team_id" = Json.ofText? team ∧
      Row.id row = freshId next ∧ HasIntegration credentials isEnabled none row := by
  refine ⟨[("id", .string (freshId next)), ("team_id", Json.ofText? team), ("name", .string name),
    ("display_name", .null), ("is_enabled", .bool isEnabled),
    ("credentials", .object credentials), ("settings", .empty),
    ("created_at", Column.momentText now), ("updated_at", Column.momentText now)],
    ?_, rfl, rfl, rfl, rfl, rfl⟩
  cases team <;> rfl

theorem exists_changedIntegration (now : Timestamp) (credentials : Fields) (isEnabled : Bool)
    {old : Row} (htruth : ColumnKind.truth.Holds (Row.value old "is_enabled")) :
    ∃ row, Row.change Tables.integrations old (integrationChanges credentials isEnabled now) =
        .ok row ∧
      Row.value row "name" = Row.value old "name" ∧
      Row.value row "team_id" = Row.value old "team_id" ∧ Row.id row = Row.id old ∧
      HasIntegration credentials isEnabled (some old) row := by
  have hcredentials :
      Row.column? Tables.integrations "credentials" = some (Tables.object "credentials") := rfl
  have hon : Row.column? Tables.integrations "is_enabled" =
      some (Tables.truthOr "is_enabled" true) := rfl
  have hmoment : Row.column? Tables.integrations "updated_at" =
      some (Tables.present "updated_at") := rfl
  have hkeys : (Fields.keys (integrationChanges credentials isEnabled now)).Nodup := by
    simp [Fields.keys, integrationChanges]
  have htakes : ∀ f ∈ integrationChanges credentials isEnabled now, ∃ c w,
      Row.column? Tables.integrations f.1 = some c ∧
      Column.renewed c.kind (Row.value old f.1) f.2 = .ok w := by
    simp only [integrationChanges, List.forall_mem_cons]
    exact ⟨⟨_, _, hcredentials, Column.renewed_data _ _⟩,
      ⟨_, _, hon, Column.renewed_truth htruth _⟩,
      ⟨_, _, hmoment, Column.renewed_momentText _ _⟩, List.forall_mem_nil _⟩
  obtain ⟨row, hrow, hwritten, hothers⟩ := Row.exists_changed Tables.integrations old hkeys htakes
  simp only [integrationChanges, List.forall_mem_cons] at hwritten
  obtain ⟨hc, he, -⟩ := hwritten
  have hid : Row.value row "id" = Row.value old "id" :=
    hothers "id" (by simp [Fields.keys, integrationChanges])
  refine ⟨row, hrow, hothers _ (by simp [Fields.keys, integrationChanges]),
    hothers _ (by simp [Fields.keys, integrationChanges]), ?_, ?_, ?_⟩
  · simp only [Row.id, Row.text?, hid]
  · exact Except.ok.inj ((hc _ hcredentials).symm.trans (Column.renewed_data _ _))
  · exact Except.ok.inj ((he _ hon).symm.trans (Column.renewed_truth htruth _))

/-- To save an integration writes the row for its name and team and no other one. -/
theorem IsFiled.exists_saveIntegration {s : Store} (h : IsFiled "name" next s.integrations)
    (htruth : ∀ row ∈ s.integrations, ColumnKind.truth.Holds (Row.value row "is_enabled"))
    (hteam : team ≠ some "") (now : Timestamp) (name : String) (credentials : Fields)
    (isEnabled : Bool) :
    ∃ row written,
      s.saveIntegration (freshId next) now name (.object credentials) team (.bool isEnabled) =
        .ok (row, { s with integrations := written }) ∧
      IsFiled "name" (next + 1) written ∧
      HasIntegration credentials isEnabled (settingAt "name" s.integrations name team) row ∧
      ∀ name' team', settingAt "name" written name' team' =
        if (name, team) = (name', team') then some row
        else settingAt "name" s.integrations name' team' := by
  obtain ⟨row, written, hput, hspec⟩ := h.exists_putSetting hteam
    (exists_createdIntegration next now name team credentials isEnabled)
    fun old hold => exists_changedIntegration now credentials isEnabled (htruth old hold)
  refine ⟨row, written, ?_, hspec⟩
  rw [integrationChanges] at hput
  rw [saveIntegration, hput]
  rfl

/-! ## Named settings -/

/-- What a save writes into the row of a named setting. -/
def settingChanges (v : Json) (description : Option String) (now : Timestamp) : Fields :=
  [("config_value", v)] ++
    (if (Json.ofText? description).isNull then []
      else [("description", Json.ofText? description)]) ++
    [("updated_at", Column.momentText now)]

/-- The row has a value, written over that of an earlier row. -/
def HasSetting (v : Json) (old : Option Row) (row : Row) : Prop :=
  Row.value row "config_value" = Column.kept (old.map (Row.value · "config_value")) v

theorem exists_createdSetting (next : Nat) (now : Timestamp) (key : String)
    (team : Option String) (v : Json) (description : Option String) :
    ∃ row, Row.create Tables.teamConfig (freshId next) now
        ([("config_key", .string key), ("team_id", Json.ofText? team)] ++
          settingChanges v description now) = .ok row ∧
      Row.value row "config_key" = .string key ∧ Row.value row "team_id" = Json.ofText? team ∧
      Row.id row = freshId next ∧ HasSetting v none row := by
  refine ⟨[("id", .string (freshId next)), ("team_id", Json.ofText? team),
    ("config_key", .string key), ("config_value", Column.dataForm v),
    ("description", Json.ofText? description),
    ("updated_at", Column.momentText now)], ?_, rfl, rfl, rfl, rfl⟩
  cases team <;> cases description <;> cases v <;> rfl

theorem exists_changedSetting (now : Timestamp) (v : Json) (description : Option String)
    {old : Row} :
    ∃ row, Row.change Tables.teamConfig old (settingChanges v description now) = .ok row ∧
      Row.value row "config_key" = Row.value old "config_key" ∧
      Row.value row "team_id" = Row.value old "team_id" ∧ Row.id row = Row.id old ∧
      HasSetting v (some old) row := by
  have hvalue : Row.column? Tables.teamConfig "config_value" =
      some { name := "config_value", kind := .data } := rfl
  have htext : Row.column? Tables.teamConfig "description" =
      some (Tables.text "description") := rfl
  have hmoment : Row.column? Tables.teamConfig "updated_at" =
      some (Tables.present "updated_at") := rfl
  have hkeys : (Fields.keys (settingChanges v description now)).Nodup := by
    cases description <;> simp [Fields.keys, settingChanges, Json.ofText?, Json.isNull]
  have hnames : ∀ name ∈ Fields.keys (settingChanges v description now),
      name ∈ ["config_value", "description", "updated_at"] := by
    cases description <;> simp [Fields.keys, settingChanges, Json.ofText?, Json.isNull]
  have htakes : ∀ f ∈ settingChanges v description now, ∃ c w,
      Row.column? Tables.teamConfig f.1 = some c ∧
      Column.renewed c.kind (Row.value old f.1) f.2 = .ok w := by
    cases description with
    | none =>
      show ∀ f ∈ [("config_value", v), ("updated_at", Column.momentText now)], _
      simp only [List.forall_mem_cons]
      exact ⟨⟨_, _, hvalue, Column.renewed_data _ _⟩,
        ⟨_, _, hmoment, Column.renewed_momentText _ _⟩, List.forall_mem_nil _⟩
    | some text =>
      obtain ⟨w, hw⟩ := Column.exists_renewed_string (Row.value old "description") text
      show ∀ f ∈ [("config_value", v), ("description", .string text),
        ("updated_at", Column.momentText now)], _
      simp only [List.forall_mem_cons]
      exact ⟨⟨_, _, hvalue, Column.renewed_data _ _⟩, ⟨_, w, htext, hw⟩,
        ⟨_, _, hmoment, Column.renewed_momentText _ _⟩, List.forall_mem_nil _⟩
  obtain ⟨row, hrow, hwritten, hothers⟩ := Row.exists_changed Tables.teamConfig old hkeys htakes
  have hkept : ∀ name, name ∉ ["config_value", "description", "updated_at"] →
      Row.value row name = Row.value old name := fun name hname =>
    hothers name fun hmem => hname (hnames name hmem)
  have hc := hwritten ("config_value", v) (by simp [settingChanges]) _ hvalue
  refine ⟨row, hrow, hkept _ (by decide), hkept _ (by decide), ?_, ?_⟩
  · simp only [Row.id, Row.text?, hkept "id" (by decide)]
  · exact Except.ok.inj (hc.symm.trans (Column.renewed_data _ _))

/-- To save a named setting writes the row for its name and team and no other one. -/
theorem IsFiled.exists_setTeamConfig {s : Store} (h : IsFiled "config_key" next s.teamConfig)
    (hteam : team ≠ some "") (now : Timestamp) (key : String) (v : Json)
    (description : Option String) :
    ∃ row written,
      s.setTeamConfig (freshId next) now key v team (Json.ofText? description) =
        .ok { s with teamConfig := written } ∧
      IsFiled "config_key" (next + 1) written ∧
      HasSetting v (settingAt "config_key" s.teamConfig key team) row ∧
      ∀ name' team', settingAt "config_key" written name' team' =
        if (key, team) = (name', team') then some row
        else settingAt "config_key" s.teamConfig name' team' := by
  obtain ⟨row, written, hput, hspec⟩ := h.exists_putSetting hteam
    (exists_createdSetting next now key team v description)
    fun old _ => exists_changedSetting now v description
  refine ⟨row, written, ?_, hspec⟩
  rw [settingChanges] at hput
  rw [setTeamConfig, hput]
  rfl

end Store

end LeadDesk
