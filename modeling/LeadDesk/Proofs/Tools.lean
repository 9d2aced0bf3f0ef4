import LeadDesk.Proofs.Conduct
import LeadDesk.Tool.Registry
/-!
# What tools do

All that a tool, a provider or the language model does is put together from a few actions: they
look into the store, change customer records, and call the outside. A property of actions that these
have and that composition keeps reaches every tool (`Action.Reaches`, `Registry.reaches_invoke`).
One such property is that no event, workflow, run or log of a run changes, and no deadline but those
that are set cuts the action off (`Action.Tame`).
-/

namespace LeadDesk

open LeadDesk.Action (Tame)

/-! ## The store -/

namespace Store

theorem keepsRest_updateContact (s : Store) (id : Json) (now : Timestamp) (updates : Fields)
    (moments : List (String × Timestamp)) :
    s.KeepsRest (s.updateContact id now updates moments) := by
  refine .bind fun _ => .bind fun found => ?_
  cases found
  · exact .pure rfl rfl
  · exact .bind fun row => .pure rfl rfl

theorem passesRuns_updateContact (id : Json) (now : Timestamp) (updates : Fields)
    (moments : List (String × Timestamp)) :
    PassesRuns (updateContact · id now updates moments) := by
  refine fun s rs => .bind fun _ => .bind fun found => ?_
  cases found
  · exact .pure
  · exact .bind fun row => .pure

theorem keepsRest_deleteContact (s : Store) (id : Json) : s.KeepsRest (s.deleteContact id) := by
  refine .bind fun found => ?_
  cases found <;> exact .pure rfl rfl

theorem passesRuns_deleteContact (id : Json) : PassesRuns (deleteContact · id) := by
  refine fun s rs => .bind fun found => ?_
  cases found <;> exact .pure

theorem keepsRest_addNote (s : Store) (id : String) (now : Timestamp)
    (contactId content noteType : Json) :
    s.KeepsRest (s.addNote id now contactId content noteType) := .bind fun _ => .pure rfl rfl

theorem passesRuns_addNote (id : String) (now : Timestamp) (contactId content noteType : Json) :
    PassesRuns (addNote · id now contactId content noteType) :=
  fun _ _ => .bind fun _ => .pure

theorem keepsRest_saveCompany (s : Store) (freshId : String) (now : Timestamp) (given : Fields)
    (moments : List (String × Timestamp)) (id : Json) :
    s.KeepsRest (s.saveCompany freshId now given moments id) := by
  unfold saveCompany
  dsimp only
  split <;> refine .bind fun old => .bind fun given => ?_ <;>
    cases old <;> exact .bind fun row => .pure rfl rfl

theorem passesRuns_saveCompany (freshId : String) (now : Timestamp) (given : Fields)
    (moments : List (String × Timestamp)) (id : Json) :
    PassesRuns (saveCompany · freshId now given moments id) := by
  intro s rs
  unfold saveCompany
  dsimp only
  split <;> refine .bind fun old => .bind fun given => ?_ <;>
    cases old <;> exact .bind fun row => .pure

theorem keepsRest_addTask (s : Store) (id : String) (now : Timestamp) (given : Fields) :
    s.KeepsRest (s.addTask id now given) := .bind fun _ => .bind fun _ => .pure rfl rfl

theorem passesRuns_addTask (id : String) (now : Timestamp) (given : Fields) :
    PassesRuns (addTask · id now given) := fun _ _ => .bind fun _ => .bind fun _ => .pure

theorem keepsRest_addNotification (s : Store) (id : String) (now : Timestamp) (given : Fields) :
    s.KeepsRest (s.addNotification id now given) := .bind fun _ => .bind fun _ => .pure rfl rfl

theorem passesRuns_addNotification (id : String) (now : Timestamp) (given : Fields) :
    PassesRuns (addNotification · id now given) :=
  fun _ _ => .bind fun _ => .bind fun _ => .pure

theorem keepsRest_updateNotification (s : Store) (id : Json) (updates : Fields) :
    s.KeepsRest (s.updateNotification id updates) := by
  refine .bind fun found => ?_
  cases found
  · exact .pure rfl rfl
  · exact .bind fun _ => .bind fun _ => .pure rfl rfl

theorem passesRuns_updateNotification (id : Json) (updates : Fields) :
    PassesRuns (updateNotification · id updates) := by
  refine fun s rs => .bind fun found => ?_
  cases found
  · exact .pure
  · exact .bind fun _ => .bind fun _ => .pure

end Store

/-! ## What reaches tools -/

namespace Action

/-- A property of actions that composition keeps and that all actions have of which tools, providers
and calls of the language model are made. These see no runs and leave them alone. What an action
does in its office is not to depend on the observers, and on the team in whose name providers are
called only where their credentials are looked up. -/
structure Reaches (P : (α : Type) → Action α → Prop) : Prop extends Combines P where
  query : ∀ {α : Type} (operation : String) {f : Store → Except Failure α},
    Store.SeesNoRuns f → P α (query operation f)
  before : ∀ {α : Type} {x : Action α} (time : Int), P α x → P (Option α) (before time x)
  within : ∀ {α : Type} {x : Action α} (limit : Limit), P α x → P (Option α) (within limit x)
  consult : ∀ {α : Type} {f : Office → Action α},
    (∀ o team, f { o with providerTeam := team } = f o) →
    (∀ o observers reaction, f (o.heardBy observers reaction) = f o) → (∀ o, P α (f o)) →
    P α (office >>= f)
  settings : P Settings settings
  today : P Timestamp today
  deadline : ∀ limit, P Int (deadline limit)
  note : ∀ {f : Journal → Journal}, Journal.PassesCallbacks f → P Unit (note f)
  countCall : ∀ tool, P Nat (countCall tool)
  added : P (List Json) added
  putAside : ∀ items, P Unit (putAside items)
  hang : ∀ {α : Type}, P α hang
  await : P Unit await
  send : ∀ request, P WebReply (send request)
  callModel : ∀ call, P ModelReply (callModel call)
  change : ∀ {α : Type} (operation : String) {f : Store → Except Failure (α × Store)},
    (∀ s : Store, s.KeepsRest (f s)) → Store.PassesRuns f → P α (change operation f)
  credentials : ∀ p, P (Option Fields) (Enrichment.credentials p)

end Action

section

variable {P : (α : Type) → Action α → Prop} (hP : Action.Reaches P)

include hP

namespace Archive

theorem reaches_ask {α : Type} (operation : String) (limit : Option Int)
    {f : Store → Except Failure α} (hf : Store.SeesNoRuns f) : P _ (ask operation limit f) :=
  hP.query _ fun s rs => congrArg (fun found => limit.forM Store.checkInteger >>= fun _ => found)
    (hf s rs)

theorem reaches_saveCompany (given : Fields) (moments : List (String × Timestamp)) (id : Json) :
    P _ (saveCompany given moments id) :=
  hP.bind (hP.query _ fun _ _ => rfl) fun _ => hP.bind hP.newId fun _ => hP.bind hP.now fun _ =>
    hP.change _ (fun s => s.keepsRest_saveCompany _ _ _ _ _)
      (Store.passesRuns_saveCompany _ _ _ _ _)

theorem reaches_getContact (id : Json) : P _ (getContact id) := by
  refine hP.bind (hP.query _ fun _ _ => rfl) fun found => ?_
  cases found with
  | none => exact hP.pure _
  | some row =>
    dsimp only
    exact hP.ite (hP.bind (hP.query _ fun _ _ => rfl) fun _ => hP.pure _)
      (hP.bind (hP.pure _) fun _ => hP.pure _)

theorem reaches_updateContact (id : Json) (updates : Fields)
    (moments : List (String × Timestamp)) : P _ (updateContact id updates moments) :=
  hP.bind (hP.query _ fun _ _ => rfl) fun _ => hP.bind hP.now fun _ =>
    hP.change _ (fun s => s.keepsRest_updateContact _ _ _ _)
      (Store.passesRuns_updateContact _ _ _ _)

theorem reaches_deleteContact (id : Json) : P _ (deleteContact id) :=
  hP.change _ (fun s => s.keepsRest_deleteContact id) (Store.passesRuns_deleteContact _)

theorem reaches_addNote (contactId content noteType : Json) :
    P _ (addNote contactId content noteType) :=
  hP.bind (hP.query _ fun _ _ => rfl) fun _ => hP.bind hP.newId fun _ => hP.bind hP.now fun _ =>
    hP.change _ (fun s => s.keepsRest_addNote _ _ _ _ _) (Store.passesRuns_addNote _ _ _ _ _)

theorem reaches_createTask (given : Fields) : P _ (createTask given) :=
  hP.bind (hP.query _ fun _ _ => rfl) fun _ => hP.bind hP.newId fun _ => hP.bind hP.now fun _ =>
    hP.change _ (fun s => s.keepsRest_addTask _ _ _) (Store.passesRuns_addTask _ _ _)

theorem reaches_createNotification (given : Fields) : P _ (createNotification given) :=
  hP.bind (hP.query _ fun _ _ => rfl) fun _ => hP.bind hP.newId fun _ => hP.bind hP.now fun _ =>
    hP.change _ (fun s => s.keepsRest_addNotification _ _ _)
      (Store.passesRuns_addNotification _ _ _)

theorem reaches_updateNotification (id : Json) (updates : Fields) :
    P _ (updateNotification id updates) :=
  hP.change _ (fun s => s.keepsRest_updateNotification _ _)
    (Store.passesRuns_updateNotification _ _)

end Archive

/-! ## Bounded calls -/

theorem Sandbox.reaches_execute {α : Type} (name : String) (limit : Limit) {call : Action α}
    (h : P _ call) : P _ (execute name limit call) := by
  refine hP.bind (hP.attempt (hP.within limit h)) fun result => ?_
  split
  · exact hP.pure _
  · exact hP.fail _
  · exact hP.fail _

theorem Retry.reaches_pause (base : Double) (attempt : Nat) : P _ (pause base attempt) :=
  hP.bind (hP.ofExcept _) fun _ => hP.sleep _

/-- However often a call is tried. -/
theorem Retry.reaches_run (base : Double) {call : Action Json} (h : P _ call) (left : Nat) :
    ∀ attempt, P _ (run base attempt call left) := by
  induction left with
  | zero => exact fun _ => h
  | succ left ih =>
    intro attempt
    refine hP.bind (hP.attempt h) fun result => ?_
    split
    · exact hP.ite (hP.bind (reaches_pause hP _ _) fun _ => ih _) (hP.pure _)
    · exact hP.ite (hP.bind (reaches_pause hP _ _) fun _ => ih _) (hP.fail _)

/-! ## Providers -/

namespace Provider

theorem reaches_exchange (service : String) (good : List Int)
    (request : Except Failure WebRequest) (interpret : Json → Except Failure Json) :
    P _ (exchange service good request interpret) := by
  refine hP.bind (hP.ofExcept _) fun request =>
    hP.bind (hP.attempt (hP.send request)) fun reply => ?_
  split
  · exact hP.ite (hP.pure _) (hP.fail _)
  · exact hP.ite (hP.ofExcept _) (hP.pure _)

/-- A provider sends one request at most. -/
theorem reaches_call (p : Provider) (credentials input : Fields) :
    P _ (p.call credentials input) := by
  refine hP.ite (hP.fail _) ?_
  cases p
  · exact reaches_exchange hP _ _ _ _
  · exact hP.ite (hP.pure _) (reaches_exchange hP _ _ _ _)
  · exact hP.ite (hP.pure _) (reaches_exchange hP _ _ _ _)
  · exact reaches_exchange hP _ _ _ _
  · exact hP.ite (hP.pure _) (reaches_exchange hP _ _ _ _)
  · exact hP.ite (hP.pure _) (reaches_exchange hP _ _ _ _)
  · exact hP.ite (hP.pure _) (reaches_exchange hP _ _ _ _)

end Provider

namespace Enrichment

theorem reaches_isAvailable (p : Provider) : P _ (isAvailable p) :=
  hP.bind (hP.credentials p) fun _ => hP.pure _

theorem reaches_attempt (p : Provider) (credentials input : Fields) :
    P _ (attempt p credentials input) :=
  hP.bind hP.added fun _ => hP.bind (hP.putAside _) fun _ => p.reaches_call hP _ _

theorem reaches_call (p : Provider) (input : Fields) : P _ (call p input) := by
  refine hP.bind (hP.putAside _) fun _ => hP.bind (hP.credentials p) fun found => ?_
  split
  · exact hP.fail _
  · exact hP.bind hP.settings fun settings =>
      Retry.reaches_run hP _ (Sandbox.reaches_execute hP _ _ (reaches_attempt hP p _ _)) _ _

theorem reaches_callWith (p : Provider) (input : Option Json) : P _ (callWith p input) := by
  unfold callWith
  split
  · exact reaches_call hP _ _
  · exact hP.fail _

end Enrichment

/-! ## Tools for contacts -/

namespace ContactTool

open Archive

theorem reaches_require (id : Json) : P _ (require id) := by
  refine hP.bind (hP.ite (reaches_getContact hP id) (hP.pure _)) fun found => ?_
  cases found
  · exact hP.fail _
  · exact hP.pure _

theorem reaches_get (input : Fields) : P _ (get input) :=
  hP.bind (reaches_require hP _) fun _ => hP.pure _

theorem reaches_wanted (id name : Json) : P _ (wanted id name) := by
  refine hP.ite (reaches_require hP id) (hP.ite ?_ (hP.fail _))
  refine hP.bind (reaches_ask hP _ _ fun _ _ => rfl) fun found => ?_
  split
  · exact hP.fail _
  · refine hP.bind (reaches_getContact hP _) fun row => ?_
    cases row
    · exact hP.fail _
    · exact hP.pure _

theorem reaches_brief (input : Fields) : P _ (brief input) :=
  hP.bind (reaches_wanted hP _ _) fun _ => hP.bind (reaches_ask hP _ _ fun _ _ => rfl) fun _ =>
    hP.bind (hP.query _ fun _ _ => rfl) fun _ =>
      hP.bind (reaches_ask hP _ _ fun _ _ => rfl) fun _ => hP.pure _

theorem reaches_update (input : Fields) : P _ (update input) := by
  refine hP.bind (reaches_require hP _) fun contact => hP.ite (hP.pure _) ?_
  exact hP.bind (hP.ofExcept _) fun _ =>
    hP.bind (reaches_updateContact hP _ _ _) fun _ => hP.pure _

theorem reaches_parseForm (input : Fields) : P _ (parseForm input) := by
  unfold parseForm
  split
  · extract_lets id goOn
    dsimp only
    have hk : ∀ updates, P _ (goOn updates) := fun updates =>
      hP.ite (hP.pure _) (hP.bind (reaches_updateContact hP _ _ _) fun _ => hP.pure _)
    refine hP.ite (hP.bind (hP.pure _) hk) ?_
    exact hP.bind (reaches_require hP _) fun _ => hP.bind (hP.ofExcept _) fun _ =>
      hP.bind (hP.pure _) hk
  · exact hP.pure _

theorem reaches_search (input : Fields) : P _ (search input) := by
  unfold search
  dsimp only
  refine hP.ite (hP.pure _) (hP.bind (hP.ofExcept _) fun _ => ?_)
  refine hP.bind (hP.query _ fun _ _ => rfl) fun _ => hP.bind (hP.ofExcept _) fun _ => ?_
  exact hP.bind (reaches_ask hP _ _ fun _ _ => rfl) fun _ => hP.pure _

theorem reaches_contactKind (contact : Row) : P _ (contactKind contact) := by
  refine hP.ite ?_ (hP.pure _)
  split
  · exact hP.fail _
  · exact hP.pure _
  · exact hP.bind hP.now fun _ => hP.pure _

theorem reaches_check (input : Fields) : P _ (check input) := by
  refine hP.ite (hP.pure _) (hP.bind (hP.query _ fun _ _ => rfl) fun _ => ?_)
  refine hP.bind (hP.ofExcept _) fun _ => ?_
  refine hP.bind (reaches_ask hP _ _ fun _ _ => rfl) fun found => ?_
  split
  · exact hP.pure _
  · exact hP.bind (reaches_contactKind hP _) fun _ =>
      hP.bind (reaches_ask hP _ _ fun _ _ => rfl) fun _ => hP.pure _

theorem reaches_countInbound (input : Fields) : P _ (countInbound input) :=
  hP.bind (reaches_require hP _) fun _ => hP.bind (hP.ofExcept _) fun _ => hP.bind hP.now fun _ =>
    hP.bind (reaches_updateContact hP _ _ _) fun _ => hP.pure _

theorem reaches_merge (input : Fields) : P _ (merge input) := by
  refine hP.bind (reaches_require hP _) fun contact => hP.bind (hP.ofExcept _) fun updates => ?_
  refine hP.bind (hP.ofExcept _) fun count => hP.bind hP.now fun now => ?_
  refine hP.bind (reaches_updateContact hP _ _ _) fun merged => ?_
  exact hP.ite (hP.bind (reaches_deleteContact hP _) fun _ => hP.pure _)
    (hP.bind (hP.pure _) fun _ => hP.pure _)

theorem reaches_delete (input : Fields) : P _ (delete input) :=
  hP.bind (reaches_deleteContact hP _) fun _ => hP.ite (hP.pure _) (hP.fail _)

theorem reaches_addNote (input : Fields) : P _ (addNote input) :=
  hP.bind (reaches_require hP _) fun _ => hP.bind (Archive.reaches_addNote hP _ _ _) fun _ =>
    hP.pure _

end ContactTool

/-! ## Tools for companies, tasks and notifications -/

namespace SalesTool

theorem reaches_upsertCompany (input : Fields) : P _ (upsertCompany input) := by
  refine hP.bind hP.now fun now => ?_
  extract_lets goOn
  have hk : ∀ existing, P _ (goOn existing) := fun existing =>
    hP.bind (Archive.reaches_saveCompany hP _ _ _) fun _ => hP.pure _
  exact hP.ite (hP.bind (hP.query _ fun _ _ => rfl) hk) (hP.bind (hP.pure _) hk)

theorem reaches_createTask (input : Fields) : P _ (createTask input) := by
  unfold createTask
  extract_lets contactId reason goOn
  have hk : ∀ companyId, P _ (goOn companyId) := fun companyId =>
    hP.bind hP.settings fun _ => hP.bind (hP.ofExcept _) fun _ => hP.bind hP.today fun _ =>
      hP.bind (Archive.reaches_createTask hP _) fun _ => hP.pure _
  refine hP.ite ?_ (hP.bind (hP.pure _) hk)
  exact hP.bind (ContactTool.reaches_require hP _) fun _ => hP.bind (hP.pure _) hk

theorem reaches_teamSetting (key : String) (default : Json) : P _ (teamSetting key default) :=
  hP.bind hP.settings fun _ => hP.bind (hP.query _ fun _ _ => rfl) fun _ => hP.pure _

end SalesTool

namespace NotifyTool

theorem reaches_webhook : P _ webhook :=
  hP.bind hP.settings fun _ => hP.bind (hP.query _ fun _ _ => rfl) fun _ =>
    hP.ite (hP.pure _) (hP.pure _)

theorem reaches_deliver (address : String) (text : Json) : P _ (deliver address text) := by
  refine hP.bind (hP.ofExcept _) fun request =>
    hP.bind (hP.attempt (hP.send _)) fun reply => ?_
  split
  · exact hP.ite (hP.pure _) (hP.fail _)
  · exact hP.ite (hP.pure _) (hP.pure _)

theorem reaches_send (input : Fields) : P _ (send input) := by
  refine hP.bind (hP.ofExcept _) fun text => hP.bind hP.settings fun settings => ?_
  refine hP.bind (Archive.reaches_createNotification hP _) fun row => ?_
  extract_lets id report goOn
  have hk : ∀ address, P _ (goOn address) := by
    intro address
    refine hP.ite ?_ (hP.bind (hP.pure _) fun _ => hP.pure _)
    refine hP.bind (reaches_deliver hP _ _) fun result => ?_
    exact hP.bind (Archive.reaches_updateNotification hP _ _) fun _ =>
      hP.bind (hP.pure _) fun _ => hP.pure _
  exact hP.ite (hP.bind (reaches_webhook hP) hk) (hP.bind (hP.pure _) hk)

end NotifyTool

/-! ## Calls by name -/

namespace Registry

theorem reaches_behave (t : ScriptedTool) (input : Fields) : P _ (behave t input) := by
  refine hP.bind (hP.note fun _ _ => rfl) fun _ => hP.bind (hP.countCall _) fun call => ?_
  refine hP.bind hP.await fun _ => ?_
  split
  · exact hP.pure _
  · exact hP.fail _
  · exact hP.hang

/-- Every built-in tool that works on the store or the outside. -/
theorem reaches_builtin? {name : String} {run : Fields → Action Json}
    (h : builtin? name = some (.onDesk run)) (input : Fields) : P _ (run input) := by
  unfold builtin? at h
  split at h <;> simp only [Option.some.injEq, Builtin.onDesk.injEq, reduceCtorEq] at h <;>
    subst h
  · exact ContactTool.reaches_get hP _
  · exact ContactTool.reaches_brief hP _
  · exact ContactTool.reaches_update hP _
  · exact ContactTool.reaches_parseForm hP _
  · exact ContactTool.reaches_search hP _
  · exact ContactTool.reaches_check hP _
  · exact ContactTool.reaches_countInbound hP _
  · exact ContactTool.reaches_merge hP _
  · exact ContactTool.reaches_delete hP _
  · exact ContactTool.reaches_addNote hP _
  · exact SalesTool.reaches_upsertCompany hP _
  · exact SalesTool.reaches_createTask hP _
  · exact SalesTool.reaches_teamSetting hP _ _
  · exact SalesTool.reaches_teamSetting hP _ _
  · exact NotifyTool.reaches_send hP _

theorem reaches_call? {office : Office} {name label : String} {input : Fields}
    {action : Action Json} (h : call? office name input = some (label, action)) :
    P _ action := by
  unfold call? at h
  split at h
  · simp only [Option.some.injEq, Prod.mk.injEq] at h
    exact h.2 ▸ reaches_behave hP _ _
  · split at h
    · simp only [Option.some.injEq, Prod.mk.injEq] at h
      exact h.2 ▸ hP.ofExcept _
    · rename_i run hb
      split at h
      · simp only [Option.some.injEq, Prod.mk.injEq] at h
        rw [← h.2]
        exact hP.bind (hP.ite (hP.fail _) (hP.pure _)) fun _ => reaches_builtin? hP hb input
      · simp at h
    · simp at h

/-- Whatever tool is called, and whether it is there or not. -/
theorem reaches_invoke (name : Json) (input : Option Json) : P _ (invoke name input) := by
  refine hP.consult (fun _ _ => rfl) (fun _ _ _ => rfl) fun office => ?_
  refine hP.bind (hP.ofExcept _) fun key => ?_
  split
  · exact hP.fail _
  · refine hP.bind (hP.ofExcept _) fun input => ?_
    split
    · exact hP.fail _
    · rename_i hc
      exact Sandbox.reaches_execute hP _ _ (reaches_call? hP hc)

end Registry

end

/-! ## Tools leave the work alone -/

theorem Action.Tame.reaches : Reaches fun _ => Tame where
  pure := .pure
  fail := .fail
  bind := .bind
  attempt := .attempt
  query _ _ _ := .query _ _
  sleep := .sleep
  now := .now
  newId := .newId
  depth := .depth
  deeper := .deeper
  before := .before
  within := .within
  consult _ _ h := Tame.office.bind h
  settings := .settings
  today := .today
  deadline := .deadline
  note _ := .note _
  countCall := .countCall
  added := .added
  putAside := .putAside
  hang := .hang
  await := .await
  send := .send
  callModel := .callModel
  change _ _ h _ := .change _ h
  credentials p := by
    refine Tame.office.bind fun office => ?_
    extract_lets goOn
    have hk : ∀ stored, (goOn stored).Tame := by
      intro stored
      dsimp only [goOn]
      split <;> exact .pure _
    exact .ite ((Tame.query _ _).bind hk) ((Tame.pure _).bind hk)

theorem Archive.tame_unprocessedEvents (limit : Option Int) : (unprocessedEvents limit).Tame :=
  reaches_ask Tame.reaches _ _ fun _ _ => rfl

open LeadDesk.Action in
/-- Every trail goes through all that tools do. -/
theorem Action.Leads.reaches {b : Office} {R : Desk → Desk → Prop} [Desk.Trail R] :
    Reaches fun _ => Leads (·.Like b) R where
  toCombines := Leads.composes.toCombines
  query _ _ _ := .of_tame (.query _ _)
  before := Leads.before
  within := Leads.within
  consult _ _ h := (Leads.of_tame Tame.office).bind h
  settings := .of_tame .settings
  today := .of_tame .today
  deadline _ := .of_tame (.deadline _)
  note _ := .of_tame (.note _)
  countCall _ := .of_tame (.countCall _)
  added := .of_tame .added
  putAside _ := .of_tame (.putAside _)
  hang := .of_tame .hang
  await := .of_tame .await
  send _ := .of_tame (.send _)
  callModel _ := .of_tame (.callModel _)
  change _ _ h _ := .of_tame (.change _ h)
  credentials p := .of_tame (Tame.reaches.credentials p)

end LeadDesk
