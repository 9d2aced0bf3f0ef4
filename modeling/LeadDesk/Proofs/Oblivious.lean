import LeadDesk.Proofs.Impartial
/-!
# What actions do not see

What a tool does depends neither on the runs that are stored nor on who is told of runs: it does the
same under other observers, after other callbacks and beside other runs, and leaves these as they
are (`Action.Oblivious`). So does all that a run does but to open and to close its record, and what
it tells its observers it tells each of them in turn, whoever they are and however they take it
(`Action.Concurs`).
-/

namespace LeadDesk

open LeadDesk.Action

/-! ## Other runs and other observers -/

/-- What so many observers hear of happenings: each of them hears of each one. -/
def Journal.heard (observers : Nat) (told : List (String × Fields)) : List (String × Fields) :=
  told.flatMap (List.replicate observers)

namespace Journal

variable {observers : Nat} {told more : List (String × Fields)}

@[simp] theorem heard_nil : heard observers [] = [] := rfl

@[simp] theorem heard_append :
    heard observers (told ++ more) = heard observers told ++ heard observers more :=
  List.flatMap_append

@[simp] theorem heard_singleton (happening : String × Fields) :
    heard observers [happening] = List.replicate observers happening := by simp [heard]

/-- One observer hears of each happening once. -/
@[simp] theorem heard_one : heard 1 told = told := List.flatMap_singleton' told

end Journal

namespace Desk

/-- The desk with other runs stored and after other callbacks. -/
def but (d : Desk) (rs : List Run) (callbacks : List (String × Fields)) : Desk :=
  { d with store := d.store.withRuns rs, journal := { d.journal with callbacks := callbacks } }

/-- The desk after other callbacks. -/
def withCallbacks (d : Desk) (callbacks : List (String × Fields)) : Desk :=
  { d with journal := { d.journal with callbacks := callbacks } }

theorem but_map_id (d : Desk) (callbacks : List (String × Fields)) :
    d.but (d.store.runs.map id) callbacks = d.withCallbacks callbacks := by
  rw [List.map_id]
  rfl

end Desk

/-! ## Actions that see neither runs nor observers -/

/-- How an action ends that is carried out before the deadline of a level, by how it ends itself. -/
def Ending.inTime {α : Type} (level : Nat) : Ending α → Ending (Option α)
  | done a => .done (some a)
  | failed failure => .failed failure
  | cut l => if l = level then .done none else .cut l

namespace Action

variable {α β : Type} {x : Action α}

theorem run_before_eq (time : Int) (x : Action α) (o : Office) (d : Desk) :
    (before time x).run o d =
      ((x.run { o with deadlines := time :: o.deadlines } d).1.inTime (o.deadlines.length + 1),
        (x.run { o with deadlines := time :: o.deadlines } d).2) := by
  rw [run_before]
  rcases x.run { o with deadlines := time :: o.deadlines } d with ⟨a | failure | level, m⟩
  · rfl
  · rfl
  · simp only [Ending.inTime]
    split <;> rfl

/-- The action does the same whatever runs are stored and whoever is told of runs, and touches
neither the runs nor what was told. -/
def Oblivious (x : Action α) : Prop :=
  ∀ (o : Office) (d : Desk) observers reaction rs callbacks,
    x.run (o.heardBy observers reaction) (d.but rs callbacks) =
      ((x.run o d).1, (x.run o d).2.but rs callbacks)

namespace Oblivious

theorem pure (a : α) : Oblivious (pure a) := fun _ _ _ _ _ _ => rfl

theorem fail (failure : Failure) : Oblivious (fail failure : Action α) := fun _ _ _ _ _ _ => rfl

theorem bind {f : α → Action β} (hx : Oblivious x) (hf : ∀ a, Oblivious (f a)) :
    Oblivious (x >>= f) := by
  intro o d observers reaction rs callbacks
  rw [run_bind, run_bind, hx o d]
  rcases x.run o d with ⟨a | failure | level, m⟩
  · exact hf a o m _ _ _ _
  · rfl
  · rfl

theorem attempt (hx : Oblivious x) : Oblivious (attempt x) := by
  intro o d observers reaction rs callbacks
  rw [run_attempt, run_attempt, hx o d]
  rcases x.run o d with ⟨_ | _ | _, _⟩ <;> rfl

theorem deeper (hx : Oblivious x) : Oblivious (deeper x) := by
  intro o d observers reaction rs callbacks
  have hrun := hx o { d with depth := d.depth + 1 } observers reaction rs callbacks
  exact congrArg (fun r => (r.1, ({ r.2 with depth := d.depth } : Desk))) hrun

theorem before (time : Int) (hx : Oblivious x) : Oblivious (before time x) := by
  intro o d observers reaction rs callbacks
  have hrun : x.run { o.heardBy observers reaction with
        deadlines := time :: (o.heardBy observers reaction).deadlines } (d.but rs callbacks) = _ :=
    hx { o with deadlines := time :: o.deadlines } d observers reaction rs callbacks
  rw [run_before_eq, run_before_eq, hrun]
  rfl

theorem within (limit : Limit) (hx : Oblivious x) : Oblivious (within limit x) := by
  intro o d observers reaction rs callbacks
  show (if limit.micros ≤ 0 then _ else _) = ((if limit.micros ≤ 0 then _ else _ : _ × Desk).1,
    (if limit.micros ≤ 0 then _ else _ : _ × Desk).2.but rs callbacks)
  split
  · rfl
  · exact hx.before (d.waited + limit.micros) o d observers reaction rs callbacks

/-- What is made of the surroundings, if the observers have no part in it. -/
theorem consult {f : Office → Action α}
    (hobs : ∀ o observers reaction, f (o.heardBy observers reaction) = f o)
    (hf : ∀ o, Oblivious (f o)) : Oblivious (office >>= f) := by
  intro o d observers reaction rs callbacks
  show (f (o.heardBy observers reaction)).run _ _ = _
  rw [hobs]
  exact hf o o d observers reaction rs callbacks

/-! ### Single actions -/

theorem query (operation : String) {f : Store → Except Failure α} (h : Store.SeesNoRuns f) :
    Oblivious (query operation f) := by
  intro o d observers reaction rs callbacks
  have hf : f (d.but rs callbacks).store = f d.store := h d.store rs
  have ho : faultOf (o.heardBy observers reaction) operation = faultOf o operation := rfl
  simp only [Action.query, hf, ho]
  split
  · rfl
  · split <;> rfl

theorem change (operation : String) {f : Store → Except Failure (α × Store)}
    (h : Store.PassesRuns f) : Oblivious (change operation f) := by
  intro o d observers reaction rs callbacks
  have hf : f (d.but rs callbacks).store = (f d.store).map fun x => (x.1, x.2.withRuns rs) :=
    h d.store rs
  have ho : faultOf (o.heardBy observers reaction) operation = faultOf o operation := rfl
  simp only [Action.change, hf, ho]
  split
  · rfl
  · cases f d.store <;> rfl

theorem note {f : Journal → Journal} (h : Journal.PassesCallbacks f) : Oblivious (note f) := by
  intro o d observers reaction rs callbacks
  have hj : f (d.but rs callbacks).journal = { f d.journal with callbacks := callbacks } :=
    h d.journal callbacks
  simp only [Action.note, hj]
  rfl

theorem hang : Oblivious (hang : Action α) := by
  intro o d observers reaction rs callbacks
  have ho : (o.heardBy observers reaction).deadlines = o.deadlines := rfl
  simp only [Action.hang, ho]
  split <;> rfl

theorem elapse (micros : Nat) : Oblivious (elapse micros) := by
  intro o d observers reaction rs callbacks
  have ho : (o.heardBy observers reaction).deadlines = o.deadlines := rfl
  have hd : (d.but rs callbacks).waited = d.waited := rfl
  simp only [Action.elapse, ho, hd]
  split
  · split <;> rfl
  · rfl

theorem depth : Oblivious depth := fun _ _ _ _ _ _ => rfl

theorem settings : Oblivious settings := fun _ _ _ _ _ _ => rfl

theorem today : Oblivious today := fun _ _ _ _ _ _ => rfl

theorem deadline (limit : Limit) : Oblivious (deadline limit) := fun _ _ _ _ _ _ => rfl

theorem now : Oblivious now := fun _ _ _ _ _ _ => rfl

theorem newId : Oblivious newId := fun _ _ _ _ _ _ => rfl

theorem countCall (tool : String) : Oblivious (countCall tool) := fun _ _ _ _ _ _ => rfl

theorem added : Oblivious added := fun _ _ _ _ _ _ => rfl

theorem putAside (items : List Json) : Oblivious (putAside items) := fun _ _ _ _ _ _ => rfl

theorem nextNap : Oblivious nextNap := by
  intro o d observers reaction rs callbacks
  have hd : (d.but rs callbacks).script = d.script := rfl
  simp only [Action.nextNap, hd]
  split <;> rfl

theorem nextPause : Oblivious nextPause := by
  intro o d observers reaction rs callbacks
  have hd : (d.but rs callbacks).script = d.script := rfl
  simp only [Action.nextPause, hd]
  split <;> rfl

theorem nextWeb : Oblivious nextWeb := by
  intro o d observers reaction rs callbacks
  have hd : (d.but rs callbacks).script = d.script := rfl
  simp only [Action.nextWeb, hd]
  split <;> rfl

theorem nextModel : Oblivious nextModel := by
  intro o d observers reaction rs callbacks
  have hd : (d.but rs callbacks).script = d.script := rfl
  simp only [Action.nextModel, hd]
  split <;> rfl

theorem sleep (seconds : Double) : Oblivious (sleep seconds) := by
  refine (note fun _ _ => rfl).bind fun _ => nextNap.bind fun nap => ?_
  split
  · exact pure _
  · exact elapse _

theorem await : Oblivious await := by
  refine nextPause.bind fun pause => ?_
  split
  · exact hang
  · exact pure _
  · exact elapse _

theorem send (request : WebRequest) : Oblivious (send request) := by
  refine (note fun _ _ => rfl).bind fun _ => await.bind fun _ => nextWeb.bind fun reply => ?_
  split
  · exact fail _
  · exact fail _
  · exact pure _

theorem callModel (call : Fields) : Oblivious (callModel call) := by
  refine (note fun _ _ => rfl).bind fun _ => await.bind fun _ => nextModel.bind fun reply => ?_
  split
  · exact fail _
  · exact pure _

/-- Credentials are looked up among the integrations, in the name of a team. -/
theorem credentials (p : Provider) : Oblivious (Enrichment.credentials p) := by
  refine consult (fun _ _ _ => rfl) fun office => ?_
  extract_lets goOn
  have hk : ∀ stored, (goOn stored).Oblivious := by
    intro stored
    dsimp only [goOn]
    split <;> exact pure _
  split
  · exact (query _ fun _ _ => rfl).bind hk
  · exact (pure _).bind hk

theorem reaches : Reaches fun _ => Oblivious where
  pure := pure
  fail := fail
  bind := bind
  attempt := attempt
  sleep := sleep
  now := now
  newId := newId
  depth := depth
  deeper := deeper
  query := query
  before := before
  within := within
  consult _ := consult
  settings := settings
  today := today
  deadline := deadline
  note := note
  countCall := countCall
  added := added
  putAside := putAside
  hang := hang
  await := await
  send := send
  callModel := callModel
  change operation _ _ h := change operation h
  credentials := credentials

/-! ### What they leave alone -/

theorem runs_eq (hx : Oblivious x) (o : Office) (d : Desk) :
    (x.run o d).2.store.runs = d.store.runs :=
  congrArg (fun r => r.2.store.runs)
    (hx o d o.observers o.reaction d.store.runs d.journal.callbacks)

/-- Nobody is told of anything. -/
theorem callbacks_eq (hx : Oblivious x) (o : Office) (d : Desk) :
    (x.run o d).2.journal.callbacks = d.journal.callbacks :=
  congrArg (fun r => r.2.journal.callbacks)
    (hx o d o.observers o.reaction d.store.runs d.journal.callbacks)

end Oblivious

/-! ## Actions that tell their observers alike -/

/-- With `g` applied to each stored run the action goes the same way, and it tells whoever there is
of the same happenings. -/
def Concurs (g : Run → Run) (x : Action α) : Prop :=
  ∀ (o : Office) (d : Desk), ∃ told,
    (x.run o d).2.journal.callbacks = d.journal.callbacks ++ Journal.heard o.observers told ∧
    ∀ observers reaction callbacks,
      x.run (o.heardBy observers reaction) (d.but (d.store.runs.map g) callbacks) =
        ((x.run o d).1, (x.run o d).2.but ((x.run o d).2.store.runs.map g)
          (callbacks ++ Journal.heard observers told))

namespace Concurs

variable {g : Run → Run}

theorem of_oblivious (hx : Oblivious x) : Concurs g x := by
  refine fun o d => ⟨[], ?_, fun observers reaction callbacks => ?_⟩
  · rw [hx.callbacks_eq, Journal.heard_nil, List.append_nil]
  · rw [hx, hx.runs_eq, Journal.heard_nil, List.append_nil]

theorem bind {f : α → Action β} (hx : Concurs g x) (hf : ∀ a, Concurs g (f a)) :
    Concurs g (x >>= f) := by
  intro o d
  obtain ⟨told, hcallbacks, hrun⟩ := hx o d
  simp only [run_bind]
  rcases hm : x.run o d with ⟨a | failure | level, m⟩ <;> rw [hm] at hcallbacks hrun
  · obtain ⟨more, hcallbacks', hrun'⟩ := hf a o m
    refine ⟨told ++ more, ?_, fun observers reaction callbacks => ?_⟩
    · rw [hcallbacks', hcallbacks, Journal.heard_append, List.append_assoc]
    · rw [hrun]
      dsimp only
      rw [hrun', Journal.heard_append, List.append_assoc]
  · exact ⟨told, hcallbacks, fun observers reaction callbacks => by rw [hrun]⟩
  · exact ⟨told, hcallbacks, fun observers reaction callbacks => by rw [hrun]⟩

theorem attempt (hx : Concurs g x) : Concurs g (attempt x) := by
  intro o d
  obtain ⟨told, hcallbacks, hrun⟩ := hx o d
  refine ⟨told, by rwa [desk_attempt], fun observers reaction callbacks => ?_⟩
  rw [run_attempt, run_attempt, hrun]
  rcases x.run o d with ⟨_ | _ | _, _⟩ <;> rfl

theorem deeper (hx : Concurs g x) : Concurs g (deeper x) := by
  intro o d
  obtain ⟨told, hcallbacks, hrun⟩ := hx o { d with depth := d.depth + 1 }
  refine ⟨told, hcallbacks, fun observers reaction callbacks => ?_⟩
  exact congrArg (fun r => (r.1, ({ r.2 with depth := d.depth } : Desk)))
    (hrun observers reaction callbacks)

theorem before (time : Int) (hx : Concurs g x) : Concurs g (before time x) := by
  intro o d
  obtain ⟨told, hcallbacks, hrun⟩ := hx { o with deadlines := time :: o.deadlines } d
  refine ⟨told, by rwa [run_before_eq], fun observers reaction callbacks => ?_⟩
  have hrun : x.run { o.heardBy observers reaction with
        deadlines := time :: (o.heardBy observers reaction).deadlines }
      (d.but (d.store.runs.map g) callbacks) = _ := hrun observers reaction callbacks
  rw [run_before_eq, run_before_eq, hrun]
  rfl

/-- What is made of the surroundings, if the observers have no part in it. -/
theorem consult {f : Office → Action α}
    (hobs : ∀ o observers reaction, f (o.heardBy observers reaction) = f o)
    (hf : ∀ o, Concurs g (f o)) : Concurs g (office >>= f) := by
  intro o d
  obtain ⟨told, hcallbacks, hrun⟩ := hf o o d
  refine ⟨told, hcallbacks, fun observers reaction callbacks => ?_⟩
  show (f (o.heardBy observers reaction)).run _ _ = _
  rw [hobs]
  exact hrun observers reaction callbacks

/-- Whoever the observers are, each of them is told. -/
theorem tell (event : String) (data : Fields) : Concurs g (tell event data) := by
  refine fun o d => ⟨[(event, data)], ?_, fun observers reaction callbacks => ?_⟩
  · rw [run_tell, Journal.heard_singleton]
  · rw [run_tell, run_tell, Journal.heard_singleton]
    rfl

theorem combines : Combines fun _ => Concurs g where
  pure a := of_oblivious (.pure a)
  fail failure := of_oblivious (.fail failure)
  bind := bind
  attempt := attempt
  sleep seconds := of_oblivious (.sleep seconds)
  now := of_oblivious .now
  newId := of_oblivious .newId
  depth := of_oblivious .depth
  deeper := deeper

theorem carries (runId : String) : Carries runId fun _ => Concurs g where
  toCombines := combines
  before := before
  consult _ := consult
  deadline limit := of_oblivious (.deadline limit)
  added := of_oblivious .added
  putAside items := of_oblivious (.putAside items)
  resultOf s context := of_oblivious (Course.reaches_resultOf Oblivious.reaches s context)
  tell event more := tell event (("run_id", .string runId) :: more)

end Concurs

/-! ### Where the runs are the same -/

/-- The action goes the same way whoever the observers are, and tells them alike. -/
abbrev Candid (x : Action α) : Prop := Concurs id x

namespace Candid

/-- An action that tells nobody of anything, if it goes the same way after other callbacks. -/
theorem of_withCallbacks (h : ∀ (o : Office) (d : Desk) observers reaction callbacks,
      x.run (o.heardBy observers reaction) (d.withCallbacks callbacks) =
        ((x.run o d).1, (x.run o d).2.withCallbacks callbacks)) : Candid x := by
  refine fun o d => ⟨[], ?_, fun observers reaction callbacks => ?_⟩
  · have hrun := h o d o.observers o.reaction d.journal.callbacks
    rw [Journal.heard_nil, List.append_nil]
    exact congrArg (fun r => r.2.journal.callbacks) hrun
  · rw [Desk.but_map_id, Desk.but_map_id, h, Journal.heard_nil, List.append_nil]

theorem query (operation : String) (f : Store → Except Failure α) :
    Candid (query operation f) := by
  refine of_withCallbacks fun o d observers reaction callbacks => ?_
  have ho : faultOf (o.heardBy observers reaction) operation = faultOf o operation := rfl
  have hd : (d.withCallbacks callbacks).store = d.store := rfl
  simp only [Action.query, ho, hd]
  split
  · rfl
  · split <;> rfl

theorem change (operation : String) (f : Store → Except Failure (α × Store)) :
    Candid (change operation f) := by
  refine of_withCallbacks fun o d observers reaction callbacks => ?_
  have ho : faultOf (o.heardBy observers reaction) operation = faultOf o operation := rfl
  have hd : (d.withCallbacks callbacks).store = d.store := rfl
  simp only [Action.change, ho, hd]
  split
  · rfl
  · split <;> rfl

theorem composes : Composes fun _ => Candid := ⟨Concurs.combines, query⟩

/-- Whoever the observers are, the action comes to the same and they hear of the same happenings. -/
theorem exists_told (hx : Candid x) (o : Office) (d : Desk) :
    ∃ told, (x.run o d).2.journal.callbacks =
        d.journal.callbacks ++ Journal.heard o.observers told ∧
      ∀ observers reaction callbacks,
        x.run (o.heardBy observers reaction) (d.withCallbacks callbacks) =
          ((x.run o d).1,
            (x.run o d).2.withCallbacks (callbacks ++ Journal.heard observers told)) := by
  obtain ⟨told, hcallbacks, hrun⟩ := hx o d
  refine ⟨told, hcallbacks, fun observers reaction callbacks => ?_⟩
  have h := hrun observers reaction callbacks
  rwa [Desk.but_map_id, Desk.but_map_id] at h

/-- What comes to something under other observers comes to it. -/
theorem run_of_heardBy (hx : Candid x) {o : Office} {d e : Desk} {observers : Nat}
    {reaction : Nat → String → Fields → Except Failure Unit} {callbacks : List (String × Fields)}
    {ending : Ending α}
    (h : x.run (o.heardBy observers reaction) (d.withCallbacks callbacks) = (ending, e)) :
    ∃ e' callbacks', x.run o d = (ending, e') ∧ e = e'.withCallbacks callbacks' := by
  obtain ⟨told, _, hrun⟩ := hx.exists_told o d
  rw [hrun] at h
  obtain ⟨rfl, rfl⟩ := Prod.mk.inj h
  exact ⟨_, _, rfl, rfl⟩

end Candid

end Action

/-! ## Runs and dispatches -/

namespace Store

theorem passesRuns_addLog (l : RunLog) :
    PassesRuns fun s => (s.addLog l).map fun s => ((), s) := by
  intro s rs
  show (addLog (s.withRuns rs) l).map _ = ((addLog s l).map _).map _
  unfold addLog
  cases checkLog l with
  | error e => rfl
  | ok _ =>
    have hlogs : (s.withRuns rs).logs = s.logs := rfl
    simp only [hlogs]
    split <;> rfl

theorem passesRuns_addEvent (e : Event) : PassesRuns (addEvent · e) := by
  intro s rs
  show addEvent (s.withRuns rs) e = (addEvent s e).map _
  have hevents : ∀ id, (s.withRuns rs).event? id = s.event? id := fun _ => rfl
  simp only [addEvent, hevents]
  split <;> rfl

end Store

theorem Course.oblivious_log (c : Course) (s : WorkflowStep) (r : StepResult) :
    (c.log s r).Oblivious :=
  Oblivious.newId.bind fun _ => Oblivious.now.bind fun _ => .change _ (Store.passesRuns_addLog _)

theorem Emitter.oblivious_queue (f : FollowUp) : (queue f).Oblivious := by
  have hcreate : ∀ e, (Archive.createEvent e).Oblivious := fun e =>
    .change _ (Store.passesRuns_addEvent e)
  refine Oblivious.newId.bind fun id => Oblivious.now.bind fun now => ?_
  dsimp only
  split
  · exact (Oblivious.pure _).bind hcreate
  · exact (Oblivious.fail _).bind hcreate

namespace Workflow

variable {em : Emitter}

theorem candid_openRun (w : Workflow) (seed : Fields) (triggeredBy : String) :
    (w.openRun seed triggeredBy).Candid := by
  have hP := Candid.composes
  refine hP.bind (hP.ofExcept _) fun fields => hP.bind hP.newId fun id =>
    hP.bind hP.now fun now => ?_
  split
  · exact Candid.change _ _
  · exact hP.fail _

/-- To close a run goes the same way beside records that are updated alike. -/
theorem concurs_closeRun {g : Run → Run} (hid : ∀ r, (g r).id = r.id)
    (hg : ∀ (u : RunUpdate) r, g (u.apply r) = u.apply (g r)) (runId : String) (p : Progress) :
    (closeRun runId p).Concurs g := by
  have hswap : ∀ u : RunUpdate, (fun r => if r.id == runId then u.apply r else r) ∘ g =
      g ∘ fun r => if r.id == runId then u.apply r else r := by
    intro u
    funext r
    simp only [Function.comp_apply, hid]
    split
    · exact (hg u r).symm
    · rfl
  refine (Concurs.of_oblivious .now).bind fun now o d => ⟨[], ?_, fun observers reaction cs => ?_⟩
  · rw [desk_bind_pure]
    simp only [Archive.updateRun, Action.change, Journal.heard_nil, List.append_nil]
    split <;> rfl
  · have ho : faultOf (o.heardBy observers reaction) "update_run" = faultOf o "update_run" := rfl
    simp only [run_bind, Archive.updateRun, Action.change, ho, Journal.heard_nil, List.append_nil]
    cases faultOf o "update_run" with
    | some failure => rfl
    | none =>
      simp only [run_pure, Desk.but, Store.updateRun, Store.withRuns, List.map_map, hswap]

/-- A run tells its observers alike, if what becomes of its emissions does. -/
theorem candid_run (hem : ∀ f, (em f).Candid) (w : Workflow) (context : Json)
    (triggeredBy : String) : (w.run em context triggeredBy).Candid :=
  Concurs.combines.bind (Concurs.combines.ofExcept _) fun seed =>
    (w.candid_openRun seed triggeredBy).bind fun r =>
      carries_conduct (Concurs.carries r.id) (fun c _ s r => .of_oblivious (c.oblivious_log s r))
        hem (concurs_closeRun (fun _ => rfl) (fun _ _ => rfl) r.id) seed

end Workflow

namespace Dispatch

theorem candid_event {em : Emitter} (hem : ∀ f, (em f).Candid) (e : Event) :
    (event em e).Candid := by
  have hmark : (Archive.markProcessed e.id).Candid := by
    refine (Candid.query _ _).bind fun found => ?_
    cases found with
    | none => exact Concurs.combines.pure _
    | some _ => exact Candid.composes.bind Candid.composes.now fun _ => Candid.change _ _
  exact composes_event Candid.composes (fun w => w.candid_run hem _ _) hmark

/-- The emitters of the desk tell observers alike. -/
theorem candid_emitterFor (settings : Settings) (f : FollowUp) :
    (emitterFor settings f).Candid := by
  have hqueue : ∀ f, (Emitter.queue f).Candid := fun f =>
    .of_oblivious (Emitter.oblivious_queue f)
  unfold emitterFor
  split
  · exact composes_inline Candid.composes hqueue (fun _ => candid_event) _ f
  · exact hqueue f

end Dispatch

end LeadDesk
