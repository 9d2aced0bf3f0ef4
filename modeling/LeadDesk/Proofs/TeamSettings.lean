import LeadDesk.Proofs.ContactAccess
import LeadDesk.Proofs.SettingRows
/-!
# Settings of teams

After any calls that save integrations and named settings, a team reads what was saved for it last,
or else what was saved for all teams last. What other teams save makes no difference to it, and
there is at most one row for a name and a team (`Desk.settings_recalled`). What is read equals what
was saved, but may have the form of an equal value that was saved before
(`Desk.setting_keeps_form`).
-/

namespace LeadDesk

/-! ## Calls that save -/

/-- What is saved: the credentials of an integration, which is switched on or off, or the value of a
named setting. -/
inductive Saving where
  | integration (name : String) (credentials : Fields) (isEnabled : Bool)
  | setting (key : String) (value : Json) (description : Option String)

/-- A call that saves something for a team, or for all teams, after the desk has stood idle for some
microseconds. -/
structure SettingCall where
  idle : Nat := 0
  office : Office := {}
  team : Option String := none
  saving : Saving

namespace SettingCall

/-- The action of the call. -/
def action (c : SettingCall) : Action Unit :=
  match c.saving with
  | .integration name credentials isEnabled => do
    let _ ← Archive.saveIntegration name (.object credentials) c.team (.bool isEnabled)
  | .setting key value description =>
    Archive.setTeamConfig key value c.team (Json.ofText? description)

/-- The operation of the store that the call asks for. -/
def operation (c : SettingCall) : String :=
  match c.saving with
  | .integration .. => "save_integration"
  | .setting .. => "set_team_config"

/-- The call saves. It is refused only where the office lets its operation fail. -/
def saves (c : SettingCall) : Bool := (Action.faultOf c.office c.operation).isNone

/-- The desk after the call. -/
def play (c : SettingCall) (d : Desk) : Desk :=
  (c.action.run c.office { d with clock := d.clock + c.idle }).2

/-- What the call saves for an integration of a team: its credentials, and whether it is on. -/
def credentialsFor (name : String) (team : Option String) (c : SettingCall) :
    Option (Fields × Bool) :=
  match c.saving with
  | .integration own credentials isEnabled =>
    if c.saves = true ∧ (own, c.team) = (name, team) then some (credentials, isEnabled) else none
  | .setting .. => none

/-- The value that the call saves for a named setting of a team. -/
def valueFor (key : String) (team : Option String) (c : SettingCall) : Option Json :=
  match c.saving with
  | .integration .. => none
  | .setting own value _ =>
    if c.saves = true ∧ (own, c.team) = (key, team) then some value else none

/-- What the call saves is for the team, or for all teams. -/
def concerns (team : Option String) (c : SettingCall) : Bool := c.team = none ∨ c.team = team

/-- What calls save for an integration of a team. -/
def credentialsOf (cs : List SettingCall) (name : String) (team : Option String) :
    List (Fields × Bool) :=
  cs.filterMap (credentialsFor name team)

/-- The values that calls save for a named setting of a team. -/
def valuesOf (cs : List SettingCall) (key : String) (team : Option String) : List Json :=
  cs.filterMap (valueFor key team)

/-- The credentials with which an integration can be used after these saves. -/
def usable (saves : List (Fields × Bool)) : Option Fields :=
  saves.getLast?.bind fun s => if s.2 && !s.1.isEmpty then some s.1 else none

/-- The credentials that a team is due: its own ones, or else those of all teams. -/
def dueCredentials (cs : List SettingCall) (name : String) (team : Option String) : Option Fields :=
  (usable (credentialsOf cs name team)).or (usable (credentialsOf cs name none))

/-- The value of a setting that a team is due: its own one, or else the one of all teams. -/
def dueValue (cs : List SettingCall) (key : String) (team : Option String) : Option Json :=
  (valuesOf cs key team).getLast?.or (valuesOf cs key none).getLast?

end SettingCall

namespace Desk

/-- The desk after calls that save settings. -/
def afterSettings (d : Desk) (cs : List SettingCall) : Desk := cs.foldl (fun d c => c.play d) d

end Desk

/-! ## What a column is left with -/

namespace Column

/-- What a data column holds after values are written one after the other. -/
def keptLast (vs : List Json) : Option Json := vs.foldl (fun held v => some (kept held v)) none

theorem keptLast_concat (vs : List Json) (v : Json) :
    keptLast (vs ++ [v]) = some (kept (keptLast vs) v) := by
  rw [keptLast, List.foldl_append]
  rfl

/-- What is held agrees with a value, if the column is for it. -/
def Recalls (held v : Json) : Prop := ColumnKind.data.Suits v → held.Agrees v

theorem recalls_kept (held : Option Json) (v : Json) : Recalls (kept held v) v := by
  intro hsuits
  have hform := dataForm_of_suits hsuits
  unfold kept
  split
  · split
    · rename_i hsame
      exact .inr hsame
    · exact .inl hform
  · exact .inl hform

/-- What is held agrees with what was written last, if the column is for it. -/
theorem keptLast_recalls (vs : List Json) : Option.Rel Recalls (keptLast vs) vs.getLast? := by
  obtain rfl | ⟨init, v, rfl⟩ := vs.eq_nil_or_concat
  · exact .none
  · rw [List.concat_eq_append, keptLast_concat, List.getLast?_concat]
    exact .some (recalls_kept _ v)

end Column

/-! ## What calls leave behind -/

open SettingCall (credentialsOf valuesOf)

namespace Store

/-- The settings that the store has are those that calls have saved. -/
structure Keeps (s : Store) (next : Nat) (cs : List SettingCall) : Prop where
  integrations : IsFiled "name" next s.integrations
  settings : IsFiled "config_key" next s.teamConfig
  credentials : ∀ name team,
    (settingAt "name" s.integrations name team).map (Row.value · "credentials") =
      Column.keptLast ((credentialsOf cs name team).map fun save => .object save.1)
  switches : ∀ name team,
    (settingAt "name" s.integrations name team).map (Row.value · "is_enabled") =
      (credentialsOf cs name team).getLast?.map fun save => .bool save.2
  values : ∀ key team,
    (settingAt "config_key" s.teamConfig key team).map (Row.value · "config_value") =
      Column.keptLast (valuesOf cs key team)

variable {s : Store} {next : Nat} {cs : List SettingCall} {c : SettingCall}

theorem keeps_nil (hintegrations : s.integrations = []) (hsettings : s.teamConfig = []) :
    s.Keeps next [] where
  integrations := hintegrations ▸ isFiled_nil
  settings := hsettings ▸ isFiled_nil
  credentials _ _ := by rw [hintegrations]; rfl
  switches _ _ := by rw [hintegrations]; rfl
  values _ _ := by rw [hsettings]; rfl

/-- The integrations that are stored are switched on or off. -/
theorem Keeps.holds_switch (h : s.Keeps next cs) {row : Row} (hrow : row ∈ s.integrations) :
    ColumnKind.truth.Holds (Row.value row "is_enabled") := by
  obtain ⟨name, hname⟩ := (h.integrations.settings row hrow).named
  have hfound : settingAt "name" s.integrations name (Row.text? row "team_id") = some row := by
    refine h.integrations.settingAt_iff.2 ⟨hrow, ?_⟩
    rw [Row.slot, Row.text?, hname]
    rfl
  have hswitch := h.switches name (Row.text? row "team_id")
  rw [hfound] at hswitch
  obtain ⟨save, -, hs⟩ := Option.map_eq_some_iff.1 hswitch.symm
  exact .inr ⟨save.2, hs.symm⟩

theorem filterMap_concat {α β : Type} (f : α → Option β) (l : List α) (a : α) :
    (l ++ [a]).filterMap f = l.filterMap f ++ (f a).toList := by
  rw [List.filterMap_append, List.filterMap_cons]
  cases f a <;> rfl

theorem credentialsOf_concat (cs : List SettingCall) (c : SettingCall) (name : String)
    (team : Option String) : credentialsOf (cs ++ [c]) name team =
      credentialsOf cs name team ++ (c.credentialsFor name team).toList :=
  filterMap_concat _ cs c

theorem valuesOf_concat (cs : List SettingCall) (c : SettingCall) (key : String)
    (team : Option String) :
    valuesOf (cs ++ [c]) key team = valuesOf cs key team ++ (c.valueFor key team).toList :=
  filterMap_concat _ cs c

/-- A call that is refused saves nothing. -/
theorem Keeps.refused (h : s.Keeps next cs) (hc : c.saves = false) : s.Keeps next (cs ++ [c]) := by
  have hcredentials : ∀ name team, c.credentialsFor name team = none := by
    intro name team
    unfold SettingCall.credentialsFor
    cases c.saving <;> simp [hc]
  have hvalues : ∀ key team, c.valueFor key team = none := by
    intro name team
    unfold SettingCall.valueFor
    cases c.saving <;> simp [hc]
  refine ⟨h.integrations, h.settings, fun name team => ?_, fun name team => ?_, fun key team => ?_⟩
  · rw [credentialsOf_concat, hcredentials, Option.toList_none, List.append_nil, h.credentials]
  · rw [credentialsOf_concat, hcredentials, Option.toList_none, List.append_nil, h.switches]
  · rw [valuesOf_concat, hvalues, Option.toList_none, List.append_nil, h.values]

/-- A call saves an integration. -/
theorem Keeps.saved_integration (h : s.Keeps next cs) (hc : c.saves = true) {name : String}
    {credentials : Fields} {isEnabled : Bool}
    (hsaving : c.saving = .integration name credentials isEnabled) {row : Row}
    {written : List Row} (hfiled : IsFiled "name" (next + 1) written)
    (hrow : HasIntegration credentials isEnabled (settingAt "name" s.integrations name c.team) row)
    (hfound : ∀ name' team', settingAt "name" written name' team' =
      if (name, c.team) = (name', team') then some row
      else settingAt "name" s.integrations name' team') :
    ({ s with integrations := written } : Store).Keeps (next + 1) (cs ++ [c]) := by
  have hvalues : ∀ key team, c.valueFor key team = none := by
    intro name team
    rw [SettingCall.valueFor, hsaving]
  have hcredentials : ∀ name' team', c.credentialsFor name' team' =
      if (name, c.team) = (name', team') then some (credentials, isEnabled) else none := by
    intro name' team'
    rw [SettingCall.credentialsFor, hsaving]
    simp [hc]
  refine ⟨hfiled, h.settings.mono (Nat.le_succ _), fun name' team' => ?_, fun name' team' => ?_,
    fun key team => ?_⟩
  · rw [hfound, credentialsOf_concat, hcredentials]
    split
    · rename_i heq
      obtain ⟨rfl, rfl⟩ := Prod.mk.inj heq
      rw [Option.toList_some, List.map_append, List.map_singleton, Column.keptLast_concat,
        ← h.credentials, Option.map_some, hrow.credentials]
    · rw [Option.toList_none, List.append_nil, h.credentials]
  · rw [hfound, credentialsOf_concat, hcredentials]
    split
    · rw [Option.toList_some, List.getLast?_concat, Option.map_some, hrow.isEnabled]
      rfl
    · rw [Option.toList_none, List.append_nil, h.switches]
  · rw [valuesOf_concat, hvalues, Option.toList_none, List.append_nil, h.values]

/-- A call saves a named setting. -/
theorem Keeps.saved_setting (h : s.Keeps next cs) (hc : c.saves = true) {key : String} {v : Json}
    {description : Option String} (hsaving : c.saving = .setting key v description) {row : Row}
    {written : List Row} (hfiled : IsFiled "config_key" (next + 1) written)
    (hrow : HasSetting v (settingAt "config_key" s.teamConfig key c.team) row)
    (hfound : ∀ key' team', settingAt "config_key" written key' team' =
      if (key, c.team) = (key', team') then some row
      else settingAt "config_key" s.teamConfig key' team') :
    ({ s with teamConfig := written } : Store).Keeps (next + 1) (cs ++ [c]) := by
  have hcredentials : ∀ name team, c.credentialsFor name team = none := by
    intro name team
    rw [SettingCall.credentialsFor, hsaving]
  have hvalues : ∀ key' team', c.valueFor key' team' =
      if (key, c.team) = (key', team') then some v else none := by
    intro key' team'
    rw [SettingCall.valueFor, hsaving]
    simp [hc]
  refine ⟨h.integrations.mono (Nat.le_succ _), hfiled, fun name team => ?_, fun name team => ?_,
    fun key' team' => ?_⟩
  · rw [credentialsOf_concat, hcredentials, Option.toList_none, List.append_nil, h.credentials]
  · rw [credentialsOf_concat, hcredentials, Option.toList_none, List.append_nil, h.switches]
  · rw [hfound, valuesOf_concat, hvalues]
    split
    · rename_i heq
      obtain ⟨rfl, rfl⟩ := Prod.mk.inj heq
      rw [Option.toList_some, Column.keptLast_concat, ← h.values, Option.map_some, hrow]
    · rw [Option.toList_none, List.append_nil, h.values]

end Store

/-! ## Calls at a desk -/

namespace SettingCall

variable {c : SettingCall} {cs : List SettingCall} {d : Desk}

/-- A call at a desk that has what calls before it have saved is refused and changes nothing, or is
done, and the desk has what it saves as well. -/
theorem run_cases (hteam : c.team ≠ some "") (h : d.store.Keeps d.nextId cs) :
    (c.saves = false ∧ ∃ failure, c.action.run c.office d = (.failed failure, d)) ∨
    c.saves = true ∧ ∃ t, c.action.run c.office d = (.done (), { d.next with store := t }) ∧
      t.Keeps (d.nextId + 1) (cs ++ [c]) := by
  cases hfault : Action.faultOf c.office c.operation with
  | some failure =>
    refine .inl ⟨by rw [saves, hfault]; rfl, failure, ?_⟩
    have hguard : (Action.guardFault c.operation).run c.office d = (.failed failure, d) := by
      simp only [Action.guardFault, Action.query, hfault]
    rw [action]
    rw [operation] at hguard
    cases hsaving : c.saving with
    | integration name credentials isEnabled =>
      rw [hsaving] at hguard
      exact Action.run_bind_of_failed (Action.run_bind_of_failed hguard)
    | setting key v description =>
      rw [hsaving] at hguard
      exact Action.run_bind_of_failed hguard
  | none =>
    have hsaves : c.saves = true := by rw [saves, hfault]; rfl
    have hguard : (Action.guardFault c.operation).run c.office d = (.done (), d) :=
      Action.run_query_of_ok hfault rfl
    refine .inr ⟨hsaves, ?_⟩
    rw [action]
    rw [operation] at hguard hfault
    cases hsaving : c.saving with
    | integration name credentials isEnabled =>
      rw [hsaving] at hguard hfault
      obtain ⟨row, written, hsave, hfiled, hrow, hfound⟩ :=
        h.integrations.exists_saveIntegration (fun _ => h.holds_switch) hteam
          d.time name credentials isEnabled
      refine ⟨_, ?_, h.saved_integration hsaves hsaving hfiled hrow hfound⟩
      have hrun : (Archive.saveIntegration name (.object credentials) c.team
          (.bool isEnabled)).run c.office d =
            (.done row, { d.next with store := { d.store with integrations := written } }) := by
        rw [Archive.saveIntegration, Action.run_bind_of_done hguard, Action.run_newId_now]
        exact Action.run_change_of_ok hfault hsave
      exact Action.run_bind_of_done hrun
    | setting key v description =>
      rw [hsaving] at hguard hfault
      obtain ⟨row, written, hsave, hfiled, hrow, hfound⟩ :=
        h.settings.exists_setTeamConfig hteam d.time key v description
      refine ⟨_, ?_, h.saved_setting hsaves hsaving hfiled hrow hfound⟩
      show (Archive.setTeamConfig key v c.team (Json.ofText? description)).run c.office d = _
      rw [Archive.setTeamConfig, Action.run_bind_of_done hguard, Action.run_newId_now]
      refine Action.run_change_of_ok hfault ?_
      rw [show d.next.store = d.store from rfl, hsave]
      rfl

/-- One call adds what it saves. -/
theorem keeps_play (hteam : c.team ≠ some "") (h : d.store.Keeps d.nextId cs) :
    (c.play d).store.Keeps (c.play d).nextId (cs ++ [c]) := by
  rw [play]
  obtain ⟨hno, failure, hrun⟩ | ⟨-, t, hrun, hkeeps⟩ :=
    run_cases (d := { d with clock := d.clock + c.idle }) hteam h
  · rw [hrun]
    exact h.refused hno
  · rw [hrun]
    exact hkeeps

end SettingCall

namespace Desk

variable {d : Desk} {past cs : List SettingCall}

/-- All calls together add what they save. -/
theorem keeps_afterSettings (hteams : ∀ c ∈ cs, c.team ≠ some "")
    (h : d.store.Keeps d.nextId past) :
    (d.afterSettings cs).store.Keeps (d.afterSettings cs).nextId (past ++ cs) := by
  induction cs generalizing d past with
  | nil => rwa [List.append_nil]
  | cons c rest ih =>
    obtain ⟨hteam, hrest⟩ := List.forall_mem_cons.1 hteams
    rw [List.append_cons]
    exact ih hrest (SettingCall.keeps_play hteam h)

end Desk

/-! ## What is read -/

/-- Where two choices agree, so does what is there of them first. -/
theorem rel_or {α β : Type} {r : α → β → Prop} {a a' : Option α} {b b' : Option β}
    (h : Option.Rel r a b) (h' : Option.Rel r a' b') : Option.Rel r (a.or a') (b.or b') := by
  cases h with
  | some h => exact .some h
  | none => exact h'

/-- What agrees with an object is an object, and is empty if it is. -/
theorem Json.Agrees.exists_object {w : Json} {fields : Fields} (h : w.Agrees (.object fields)) :
    ∃ held, w = .object held ∧ held.isEmpty = fields.isEmpty := by
  obtain rfl | hsame := h
  · exact ⟨fields, rfl, rfl⟩
  · cases w with
    | object held =>
      have hlength : fields.length = held.length := by
        simp only [Json.same, Bool.and_eq_true, beq_iff_eq] at hsame
        exact hsame.1
      refine ⟨held, rfl, ?_⟩
      cases held <;> cases fields <;> first | rfl | cases hlength
    | _ => cases hsame

namespace SettingCall

/-- The credentials that are held after saves, if the integration can be used. -/
def heldCredentials (saves : List (Fields × Bool)) : Option Json :=
  (Column.keptLast (saves.map fun save => .object save.1)).bind fun held =>
    if (saves.getLast?.map (·.2)).getD false && held.isGiven then some held else none

/-- Credentials that are held agree with those that were saved last. -/
theorem heldCredentials_agrees (saves : List (Fields × Bool)) :
    Option.Rel (fun w fields => w.Agrees (.object fields)) (heldCredentials saves)
      (usable saves) := by
  have hlast := Column.keptLast_recalls (saves.map fun save => .object save.1)
  rw [List.getLast?_map] at hlast
  rw [heldCredentials, usable]
  generalize Column.keptLast (saves.map fun save => .object save.1) = held at hlast
  cases hsave : saves.getLast? with
  | none =>
    rw [hsave] at hlast
    cases hlast
    exact .none
  | some save =>
    rw [hsave] at hlast
    cases hlast with
    | some hrecalls =>
      have hagrees := hrecalls trivial
      obtain ⟨fields, rfl, hempty⟩ := hagrees.exists_object
      rw [Option.bind_some, Option.bind_some, Option.map_some, Option.getD_some, Json.isGiven,
        hempty]
      split
      · exact .some hagrees
      · exact .none

/-- What other teams save does not count for a team. -/
theorem filterMap_concerns {α : Type} {f : SettingCall → Option α} {team : Option String}
    (cs : List SettingCall) (h : ∀ c, c.concerns team = false → f c = none) :
    (cs.filter (concerns team)).filterMap f = cs.filterMap f := by
  rw [List.filterMap_filter]
  refine List.filterMap_congr fun c _ => ?_
  split
  · rfl
  · rename_i hother
    exact (h c (by simpa using hother)).symm

theorem credentialsOf_filter {team owner : Option String} (cs : List SettingCall) (name : String)
    (h : owner = none ∨ owner = team) :
    credentialsOf (cs.filter (concerns team)) name owner = credentialsOf cs name owner := by
  refine filterMap_concerns cs fun c hc => ?_
  obtain ⟨hnone, hteam⟩ := not_or.1 (of_decide_eq_false hc)
  have hother : c.team ≠ owner := by rintro rfl; exact h.elim hnone hteam
  rw [credentialsFor]
  split
  · exact if_neg fun hown => hother (Prod.mk.inj hown.2).2
  · rfl

theorem valuesOf_filter {team owner : Option String} (cs : List SettingCall) (key : String)
    (h : owner = none ∨ owner = team) :
    valuesOf (cs.filter (concerns team)) key owner = valuesOf cs key owner := by
  refine filterMap_concerns cs fun c hc => ?_
  obtain ⟨hnone, hteam⟩ := not_or.1 (of_decide_eq_false hc)
  have hother : c.team ≠ owner := by rintro rfl; exact h.elim hnone hteam
  rw [valueFor]
  split
  · rfl
  · exact if_neg fun hown => hother (Prod.mk.inj hown.2).2

end SettingCall

namespace Store

open SettingCall (heldCredentials)

variable {s : Store} {next : Nat} {cs : List SettingCall} {team : Option String}

theorem Keeps.usable_eq (h : s.Keeps next cs) (name : String) (team : Option String) :
    (settingAt "name" s.integrations name team).bind usableIn =
      heldCredentials (credentialsOf cs name team) := by
  have hcredentials := h.credentials name team
  have hswitch := h.switches name team
  rw [heldCredentials, ← hcredentials]
  cases hfound : settingAt "name" s.integrations name team with
  | none => rfl
  | some row =>
    rw [hfound] at hswitch
    obtain ⟨save, hlast, hon⟩ := Option.map_eq_some_iff.1 hswitch.symm
    have hisGiven : (Row.value row "is_enabled").isGiven = save.2 :=
      (congrArg Json.isGiven hon).symm
    rw [Option.bind_some, usableIn, hisGiven, hlast]
    rfl

theorem Keeps.credentials?_eq (h : s.Keeps next cs) (name : String) (hteam : team ≠ some "") :
    s.credentials? name team = (heldCredentials (credentialsOf cs name team)).or
      (heldCredentials (credentialsOf cs name none)) := by
  rw [Store.credentials?_eq h.integrations name hteam, h.usable_eq, h.usable_eq]

theorem Keeps.teamConfig?_eq (h : s.Keeps next cs) (key : String) (hteam : team ≠ some "") :
    s.teamConfig? key team =
      (Column.keptLast (valuesOf cs key team)).or (Column.keptLast (valuesOf cs key none)) := by
  rw [Store.teamConfig?_eq h.settings key hteam, ← h.values, ← h.values, Option.map_or]

end Store

/-- How a look into the store ends depends on what it finds. -/
theorem Action.run_query_congr {α : Type} {o : Office} {d e : Desk} {operation : String}
    {f : Store → Except Failure α} (h : f d.store = f e.store) :
    ((query operation f).run o d).1 = ((query operation f).run o e).1 := by
  simp only [query, h]
  split
  · rfl
  · split <;> rfl

namespace Archive

open SettingCall (dueCredentials dueValue concerns)

variable {o : Office} {d e : Desk} {next later : Nat} {cs : List SettingCall} {team : Option String}

/-- The credentials that are looked up agree with those that the team is due. -/
theorem run_credentials (h : d.store.Keeps next cs) (name : String) (hteam : team ≠ some "")
    (hfault : Action.faultOf o "get_integration_credentials" = none) :
    ∃ found, (credentials name team).run o d = (.done found, d) ∧
      Option.Rel (fun held due => (Json.object held).Agrees (.object due)) found
        (dueCredentials cs name team) := by
  have hagrees := rel_or
    (SettingCall.heldCredentials_agrees (credentialsOf cs name team))
    (SettingCall.heldCredentials_agrees (credentialsOf cs name none))
  rw [← h.credentials?_eq name hteam, ← dueCredentials] at hagrees
  rw [credentials]
  generalize dueCredentials cs name team = due at hagrees
  cases hfound : d.store.credentials? name team with
  | none =>
    rw [hfound] at hagrees
    cases hagrees
    exact ⟨none, Action.run_query_of_ok hfault (by rw [hfound]), .none⟩
  | some held =>
    rw [hfound] at hagrees
    cases hagrees with
    | some hagrees =>
      obtain ⟨fields, rfl, -⟩ := hagrees.exists_object
      exact ⟨some fields, Action.run_query_of_ok hfault (by rw [hfound]), .some hagrees⟩

/-- The value that is looked up agrees with the one that the team is due, if its column is for
it. -/
theorem run_teamConfig (h : d.store.Keeps next cs) (key : String) (hteam : team ≠ some "")
    (hfault : Action.faultOf o "get_team_config" = none) :
    ∃ held, (teamConfig key team).run o d = (.done held, d) ∧
      Column.Recalls held ((dueValue cs key team).getD .null) := by
  have hrecalls := rel_or (Column.keptLast_recalls (valuesOf cs key team))
    (Column.keptLast_recalls (valuesOf cs key none))
  rw [← h.teamConfig?_eq key hteam, ← dueValue] at hrecalls
  refine ⟨_, Action.run_query_of_ok hfault rfl, ?_⟩
  generalize dueValue cs key team = due at hrecalls
  generalize d.store.teamConfig? key team = held at hrecalls
  cases hrecalls with
  | some hrecalls => exact hrecalls
  | none => exact fun _ => .inl rfl

/-- A team finds what it would find if no other team had saved anything. -/
theorem looks_alone (h : d.store.Keeps next cs)
    (halone : e.store.Keeps later (cs.filter (concerns team))) (hteam : team ≠ some "")
    (name : String) :
    ((credentials name team).run o d).1 = ((credentials name team).run o e).1 ∧
      ((teamConfig name team).run o d).1 = ((teamConfig name team).run o e).1 := by
  have hcredentials : d.store.credentials? name team = e.store.credentials? name team := by
    rw [h.credentials?_eq name hteam, halone.credentials?_eq name hteam,
      SettingCall.credentialsOf_filter cs name (.inr rfl),
      SettingCall.credentialsOf_filter cs name (.inl rfl)]
  have hvalue : d.store.teamConfig? name team = e.store.teamConfig? name team := by
    rw [h.teamConfig?_eq name hteam, halone.teamConfig?_eq name hteam,
      SettingCall.valuesOf_filter cs name (.inr rfl),
      SettingCall.valuesOf_filter cs name (.inl rfl)]
  exact ⟨Action.run_query_congr (by rw [hcredentials]), Action.run_query_congr (by rw [hvalue])⟩

end Archive

namespace Desk

open SettingCall (dueCredentials dueValue)

/-- **Team settings.** From a store without settings on, whatever calls save integrations and named
settings, none for a team without a name: the credentials and the value that a team finds agree with
those that were saved last for it, or else for all teams, where credentials count if the last save
switched the integration on and gave some, and a value that is no number of which the store has
another form. It finds what it would find if no other team had saved anything, there is one row at
most for a name and a team, and a further call saves unless the office lets it fail. -/
theorem settings_recalled (d : Desk) (hintegrations : d.store.integrations = [])
    (hsettings : d.store.teamConfig = []) (cs : List SettingCall)
    (hteams : ∀ c ∈ cs, c.team ≠ some "") :
    let e := d.afterSettings cs
    (∀ (o : Office) (name : String) (team : Option String), team ≠ some "" →
      Action.faultOf o "get_integration_credentials" = none →
      ∃ found, (Archive.credentials name team).run o e = (.done found, e) ∧
        Option.Rel (fun held due => (Json.object held).Agrees (.object due)) found
          (dueCredentials cs name team)) ∧
    (∀ (o : Office) (key : String) (team : Option String), team ≠ some "" →
      Action.faultOf o "get_team_config" = none →
      ∃ held, (Archive.teamConfig key team).run o e = (.done held, e) ∧
        (ColumnKind.data.Suits ((dueValue cs key team).getD .null) →
          held.Agrees ((dueValue cs key team).getD .null))) ∧
    (∀ (o : Office) (name : String) (team : Option String), team ≠ some "" →
      let alone := d.afterSettings (cs.filter (·.concerns team))
      ((Archive.credentials name team).run o e).1 =
        ((Archive.credentials name team).run o alone).1 ∧
      ((Archive.teamConfig name team).run o e).1 =
        ((Archive.teamConfig name team).run o alone).1) ∧
    (e.store.integrations.map (Row.slot "name")).Nodup ∧
    (e.store.teamConfig.map (Row.slot "config_key")).Nodup ∧
    ∀ c : SettingCall, c.team ≠ some "" → c.saves = true →
      (c.action.run c.office e).1 = .done () := by
  intro e
  have hstart : d.store.Keeps d.nextId [] := Store.keeps_nil hintegrations hsettings
  have hkeeps : e.store.Keeps e.nextId cs := keeps_afterSettings hteams hstart
  refine ⟨fun o name team hteam hfault => Archive.run_credentials hkeeps name hteam hfault,
    fun o key team hteam hfault => Archive.run_teamConfig hkeeps key hteam hfault,
    fun o name team hteam => ?_, hkeeps.integrations.once, hkeeps.settings.once,
    fun c hteam hsaves => ?_⟩
  · have halone := keeps_afterSettings
      (fun c hc => hteams c (List.mem_filter.1 hc).1 : ∀ c ∈ cs.filter (·.concerns team), _) hstart
    exact Archive.looks_alone hkeeps halone hteam name
  · obtain ⟨hno, -⟩ | ⟨-, t, hrun, -⟩ := SettingCall.run_cases hteam hkeeps
    · rw [hsaves] at hno
      cases hno
    · rw [hrun]

/-- A team whose own integration is switched off finds the credentials of all teams, and a team with
a value of its own finds that one. -/
theorem settings_recalled_two_teams :
    let shared : Fields := [("api_key", .string "shared")]
    let own : Fields := [("api_key", .string "own")]
    let cs : List SettingCall :=
      [{ saving := .integration "hunter" shared true },
        { team := some "t1", saving := .integration "hunter" own false },
        { saving := .setting "icp" (.string "CTO") none },
        { team := some "t2", saving := .setting "icp" (.string "CEO") (some "Titles") }]
    (∃ found, ((Archive.credentials "hunter" (some "t1")).run {} (({} : Desk).afterSettings cs)).1 =
        .done found ∧
      Option.Rel (fun held due => (Json.object held).Agrees (.object due)) found (some shared)) ∧
    ∃ held, ((Archive.teamConfig "icp" (some "t2")).run {} (({} : Desk).afterSettings cs)).1 =
        .done held ∧
      held.Agrees (.string "CEO") := by
  intro shared own cs
  have hteams : ∀ c ∈ cs, c.team ≠ some "" := by simp [cs]
  obtain ⟨hcredentials, hvalue, -⟩ := settings_recalled {} rfl rfl cs hteams
  have hshared : dueCredentials cs "hunter" (some "t1") = some shared := rfl
  have hceo : dueValue cs "icp" (some "t2") = some (.string "CEO") := rfl
  obtain ⟨found, hfound, hagrees⟩ := hcredentials {} "hunter" (some "t1") (by decide) rfl
  obtain ⟨held, hheld, hrecalls⟩ := hvalue {} "icp" (some "t2") (by decide) rfl
  rw [hshared] at hagrees
  rw [hceo] at hrecalls
  exact ⟨⟨found, congrArg Prod.fst hfound, hagrees⟩, held, congrArg Prod.fst hheld,
    hrecalls trivial⟩

/-- A one that is set to the number 1.0 stays a one. -/
theorem setting_keeps_form :
    let cs : List SettingCall :=
      [{ saving := .setting "k" (.int 1) none }, { saving := .setting "k" (.float .one) none }]
    dueValue cs "k" none = some (.float .one) ∧
      ((Archive.teamConfig "k" none).run {} (({} : Desk).afterSettings cs)).1 = .done (.int 1) ∧
      Json.int 1 ≠ .float .one := by
  intro cs
  have hsame : (Json.float .one).same (.int 1) = true := by decide +kernel
  have hvalues : valuesOf cs "k" none = [.int 1, .float .one] := by
    simp [valuesOf, SettingCall.valueFor, SettingCall.saves, Action.faultOf, cs]
  have hteams : ∀ c ∈ cs, c.team ≠ some "" := by simp [cs]
  have hkeeps := keeps_afterSettings hteams
    (Store.keeps_nil rfl rfl : (({} : Desk).store.Keeps ({} : Desk).nextId []))
  have hfound : (({} : Desk).afterSettings cs).store.teamConfig? "k" none = some (.int 1) := by
    have hnone : (none : Option String) ≠ some "" := by decide
    rw [hkeeps.teamConfig?_eq "k" hnone, List.nil_append, hvalues]
    show some (Column.kept (some (.int 1)) (.float .one)) = _
    rw [Column.kept, if_pos hsame]
  refine ⟨by rw [dueValue, hvalues]; rfl, ?_, by simp⟩
  have hread : (Archive.teamConfig "k" none).run {} (({} : Desk).afterSettings cs) = _ :=
    Action.run_query_of_ok rfl rfl
  rw [hread, hfound]
  rfl

end Desk

end LeadDesk
