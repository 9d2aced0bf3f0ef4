import LeadDesk.Proofs.Growth
/-!
# The team in whose name providers are called

An office names a team for its providers, and only the credentials of providers are looked up for
it. So where every provider has the same credentials for two teams, a dispatch does not tell them
apart (`Dispatch.impartial_byId`): it ends alike and leaves one and the same desk. Along the way no
action touches the stored integrations, which is why credentials that are the same at first are the
same until the end.
-/

namespace LeadDesk

open LeadDesk.Action

/-! ## Credentials -/

/-- To look stored credentials up reads the integrations alone and changes nothing. -/
theorem Archive.run_credentials_of_eq {o : Office} {d e : Desk} (integration : String)
    (team : Option String) (times : List Int) (h : e.store.integrations = d.store.integrations) :
    (credentials integration team).run { o with deadlines := times } e =
      (((credentials integration team).run o d).1, e) := by
  have hstored : e.store.credentials? integration team = d.store.credentials? integration team := by
    simp only [Store.credentials?, h]
  simp only [credentials, query, faultOf, hstored]
  split
  · rfl
  · split <;> rfl

namespace Enrichment

/-- What a provider comes to depends on the settings and on what the store has for it. -/
theorem run_credentials_congr {o n : Office} {d e : Desk} (p : Provider)
    (hstore : n.hasStore = o.hasStore) (hsettings : n.settings = o.settings)
    (h : (Archive.credentials p.integration n.providerTeam).run n e =
      (((Archive.credentials p.integration o.providerTeam).run o d).1, e)) :
    (credentials p).run n e = (((credentials p).run o d).1, e) := by
  unfold credentials
  rw [run_bind_of_done (x := office) rfl, run_bind_of_done (x := office) rfl]
  dsimp only
  rw [hstore, hsettings]
  by_cases hopen : o.hasStore = true
  · rw [if_pos hopen, if_pos hopen, run_bind, run_bind, h]
    rcases (Archive.credentials p.integration o.providerTeam).run o d with
      ⟨stored | failure | level, m⟩
    · dsimp only
      split <;> rfl
    · rfl
    · rfl
  · rw [if_neg hopen, if_neg hopen]
    rfl

/-- So a provider that asks for its credentials reads the integrations alone as well. -/
theorem run_credentials_of_eq {o : Office} {d e : Desk} (p : Provider) (times : List Int)
    (h : e.store.integrations = d.store.integrations) :
    (credentials p).run { o with deadlines := times } e = (((credentials p).run o d).1, e) :=
  run_credentials_congr p rfl rfl
    (Archive.run_credentials_of_eq p.integration o.providerTeam times h)

end Enrichment

namespace Office

/-- Every provider comes to the same credentials, stored ones or those of the settings, in the name
of a team as in that of the office. -/
def SameCredentials (o : Office) (team : Option String) (d : Desk) : Prop :=
  ∀ p, ((Enrichment.credentials p).run (o.inNameOf team) d).1 =
    ((Enrichment.credentials p).run o d).1

/-- Deadlines and whatever happens to a desk but to its integrations leave that as it is. -/
theorem SameCredentials.of_eq {o : Office} {team : Option String} {d e : Desk}
    (hsame : o.SameCredentials team d) (times : List Int)
    (h : e.store.integrations = d.store.integrations) :
    { o with deadlines := times }.SameCredentials team e := by
  intro p
  calc ((Enrichment.credentials p).run { o.inNameOf team with deadlines := times } e).1
    _ = ((Enrichment.credentials p).run (o.inNameOf team) d).1 := by
      rw [Enrichment.run_credentials_of_eq p times h]
    _ = ((Enrichment.credentials p).run o d).1 := hsame p
    _ = ((Enrichment.credentials p).run { o with deadlines := times } e).1 := by
      rw [Enrichment.run_credentials_of_eq p times h]

end Office

/-! ## Actions that do not tell teams apart -/

/-- The action goes the same way for a team as for that of the office if every provider has the same
credentials for both, and leaves the stored integrations alone. -/
structure Action.Impartial {α : Type} (x : Action α) : Prop where
  same : ∀ (o : Office) (d : Desk) team, o.SameCredentials team d →
    x.run (o.inNameOf team) d = x.run o d
  keeps : ∀ o d, (x.run o d).2.store.integrations = d.store.integrations

namespace Action.Impartial

variable {α β : Type} {x : Action α}

/-- An action that never asks for the team. -/
theorem of_run (hsame : ∀ (o : Office) (d : Desk) team, x.run (o.inNameOf team) d = x.run o d)
    (hkeeps : ∀ o d, (x.run o d).2.store.integrations = d.store.integrations) : Impartial x :=
  ⟨fun o d team _ => hsame o d team, hkeeps⟩

theorem pure (a : α) : Impartial (pure a) := of_run (fun _ _ _ => rfl) fun _ _ => rfl

theorem fail (failure : Failure) : Impartial (fail failure : Action α) :=
  of_run (fun _ _ _ => rfl) fun _ _ => rfl

theorem bind {f : α → Action β} (hx : Impartial x) (hf : ∀ a, Impartial (f a)) :
    Impartial (x >>= f) where
  same o d team h := by
    have hkeeps := hx.keeps o d
    rw [run_bind, run_bind, hx.same o d team h]
    rcases hm : x.run o d with ⟨a | failure | level, m⟩
    · rw [hm] at hkeeps
      exact (hf a).same o m team (h.of_eq o.deadlines hkeeps)
    · rfl
    · rfl
  keeps o d := by
    have hkeeps := hx.keeps o d
    rw [run_bind]
    rcases hm : x.run o d with ⟨a | failure | level, m⟩ <;> rw [hm] at hkeeps
    · exact ((hf a).keeps o m).trans hkeeps
    · exact hkeeps
    · exact hkeeps

theorem attempt (hx : Impartial x) : Impartial (attempt x) where
  same o d team h := by rw [run_attempt, run_attempt, hx.same o d team h]
  keeps o d := by
    rw [desk_attempt]
    exact hx.keeps o d

theorem deeper (hx : Impartial x) : Impartial (deeper x) where
  same o d team h := by
    have hrun := hx.same o { d with depth := d.depth + 1 } team (h.of_eq o.deadlines rfl)
    rw [run_deeper, run_deeper, hrun]
  keeps o d := hx.keeps o { d with depth := d.depth + 1 }

theorem before (time : Int) (hx : Impartial x) : Impartial (before time x) where
  same o d team h := by
    have hrun : x.run { o.inNameOf team with deadlines := time :: o.deadlines } d = _ :=
      hx.same { o with deadlines := time :: o.deadlines } d team (h.of_eq _ rfl)
    rw [run_before, run_before]
    exact hrun ▸ rfl
  keeps o d := by
    have hkeeps := hx.keeps { o with deadlines := time :: o.deadlines } d
    rw [run_before]
    rcases hm : x.run { o with deadlines := time :: o.deadlines } d with
      ⟨a | failure | level, m⟩ <;> rw [hm] at hkeeps
    · exact hkeeps
    · exact hkeeps
    · dsimp only
      split <;> exact hkeeps

theorem within (limit : Limit) (hx : Impartial x) : Impartial (within limit x) where
  same o d team h := by
    show (if limit.micros ≤ 0 then _ else _) = if limit.micros ≤ 0 then _ else _
    rw [(hx.before (d.waited + limit.micros)).same o d team h]
  keeps o d := by
    show (if limit.micros ≤ 0 then (Ending.done none, d) else
      (Action.before (d.waited + limit.micros) x).run o d).2.store.integrations = _
    split
    · rfl
    · exact (hx.before _).keeps o d

/-- What is made of the surroundings, if the team has no part in it. -/
theorem consult {f : Office → Action α}
    (hteam : ∀ o team, f { o with providerTeam := team } = f o) (hf : ∀ o, Impartial (f o)) :
    Impartial (office >>= f) where
  same o d team h := by
    have hrun := (hf o).same o d team h
    show (f (o.inNameOf team)).run (o.inNameOf team) d = _
    rw [Office.inNameOf, hteam] at *
    exact hrun
  keeps o d := (hf o).keeps o d

/-! ### Single actions -/

theorem query (operation : String) (f : Store → Except Failure α) :
    Impartial (query operation f) := by
  refine of_run (fun _ _ _ => rfl) fun o d => ?_
  simp only [Action.query]
  split
  · rfl
  · split <;> rfl

/-- A change of the store that leaves the integrations alone. -/
theorem change (operation : String) {f : Store → Except Failure (α × Store)}
    (h : ∀ s a t, f s = .ok (a, t) → t.integrations = s.integrations) :
    Impartial (change operation f) := by
  refine of_run (fun _ _ _ => rfl) fun o d => ?_
  simp only [Action.change]
  split
  · rfl
  · split
    · rename_i a t hf
      exact h d.store a t hf
    · rfl

theorem hang : Impartial (hang : Action α) := by
  refine of_run (fun _ _ _ => rfl) fun o d => ?_
  simp only [Action.hang]
  split <;> rfl

theorem elapse (micros : Nat) : Impartial (elapse micros) := by
  refine of_run (fun _ _ _ => rfl) fun o d => ?_
  simp only [Action.elapse]
  split
  · split <;> rfl
  · rfl

theorem depth : Impartial depth := of_run (fun _ _ _ => rfl) fun _ _ => rfl

theorem settings : Impartial settings := of_run (fun _ _ _ => rfl) fun _ _ => rfl

theorem today : Impartial today := of_run (fun _ _ _ => rfl) fun _ _ => rfl

theorem deadline (limit : Limit) : Impartial (deadline limit) :=
  of_run (fun _ _ _ => rfl) fun _ _ => rfl

theorem now : Impartial now := of_run (fun _ _ _ => rfl) fun _ _ => rfl

theorem newId : Impartial newId := of_run (fun _ _ _ => rfl) fun _ _ => rfl

theorem note (f : Journal → Journal) : Impartial (note f) :=
  of_run (fun _ _ _ => rfl) fun _ _ => rfl

theorem tell (event : String) (data : Fields) : Impartial (tell event data) :=
  of_run (fun _ _ _ => by rw [run_tell, run_tell]; rfl) fun _ _ => by rw [run_tell]

theorem countCall (tool : String) : Impartial (countCall tool) :=
  of_run (fun _ _ _ => rfl) fun _ _ => rfl

theorem added : Impartial added := of_run (fun _ _ _ => rfl) fun _ _ => rfl

theorem putAside (items : List Json) : Impartial (putAside items) :=
  of_run (fun _ _ _ => rfl) fun _ _ => rfl

theorem nextNap : Impartial nextNap := by
  refine of_run (fun _ _ _ => rfl) fun o d => ?_
  simp only [Action.nextNap]
  split <;> rfl

theorem nextPause : Impartial nextPause := by
  refine of_run (fun _ _ _ => rfl) fun o d => ?_
  simp only [Action.nextPause]
  split <;> rfl

theorem nextWeb : Impartial nextWeb := by
  refine of_run (fun _ _ _ => rfl) fun o d => ?_
  simp only [Action.nextWeb]
  split <;> rfl

theorem nextModel : Impartial nextModel := by
  refine of_run (fun _ _ _ => rfl) fun o d => ?_
  simp only [Action.nextModel]
  split <;> rfl

theorem sleep (seconds : Double) : Impartial (sleep seconds) := by
  refine (note _).bind fun _ => nextNap.bind fun nap => ?_
  split
  · exact pure _
  · exact elapse _

theorem await : Impartial await := by
  refine nextPause.bind fun pause => ?_
  split
  · exact hang
  · exact pure _
  · exact elapse _

theorem send (request : WebRequest) : Impartial (send request) := by
  refine (note _).bind fun _ => await.bind fun _ => nextWeb.bind fun reply => ?_
  split
  · exact fail _
  · exact fail _
  · exact pure _

theorem callModel (call : Fields) : Impartial (callModel call) := by
  refine (note _).bind fun _ => await.bind fun _ => nextModel.bind fun reply => ?_
  split
  · exact fail _
  · exact pure _

/-- The one place that asks for the team. -/
theorem credentials (p : Provider) : Impartial (Enrichment.credentials p) where
  same o d team h := by
    have hdesk : ∀ o : Office, ((Enrichment.credentials p).run o d).2 = d := fun o =>
      congrArg Prod.snd (Enrichment.run_credentials_of_eq p o.deadlines rfl)
    exact Prod.ext (h p) ((hdesk _).trans (hdesk o).symm)
  keeps o d := by
    have hrun := Enrichment.run_credentials_of_eq (o := o) (d := d) p o.deadlines rfl
    exact congrArg (fun r => r.2.store.integrations) hrun

/-! ### All that runs and tools do -/

theorem composes : Composes fun _ => Impartial where
  pure := pure
  fail := fail
  bind := bind
  attempt := attempt
  query := query
  sleep := sleep
  now := now
  newId := newId
  depth := depth
  deeper := deeper

theorem reaches : Reaches fun _ => Impartial where
  toCombines := composes.toCombines
  query operation _ _ := query operation _
  before := before
  within := within
  consult hteam _ hf := consult hteam hf
  settings := settings
  today := today
  deadline := deadline
  note _ := note _
  countCall := countCall
  added := added
  putAside := putAside
  hang := hang
  await := await
  send := send
  callModel := callModel
  change operation _ h _ := change operation fun s a t hf => (h s a t hf).2
  credentials := credentials

end Action.Impartial

/-! ## Records of work -/

namespace Store

variable {s t : Store}

theorem integrations_addLog {l : RunLog} (h : s.addLog l = .ok t) :
    t.integrations = s.integrations := by
  unfold addLog at h
  split at h
  · cases h
  · split at h <;> cases h
    rfl

theorem integrations_addRun {r stored : Run} (h : s.addRun r = .ok (stored, t)) :
    t.integrations = s.integrations := by
  unfold addRun at h
  split at h <;> cases h
  rfl

theorem integrations_addEvent {e stored : Event} (h : s.addEvent e = .ok (stored, t)) :
    t.integrations = s.integrations := by
  unfold addEvent at h
  split at h <;> cases h
  rfl

end Store

theorem Course.impartial_log (c : Course) (s : WorkflowStep) (r : StepResult) :
    (c.log s r).Impartial := by
  refine Impartial.newId.bind fun id => Impartial.now.bind fun now => .change _ ?_
  rintro store ⟨⟩ t h
  simp only [Except.map] at h
  split at h <;> cases h
  exact Store.integrations_addLog ‹_›

theorem Emitter.impartial_queue (f : FollowUp) : (queue f).Impartial := by
  have hcreate : ∀ e, (Archive.createEvent e).Impartial := fun e =>
    .change _ fun _ _ _ => Store.integrations_addEvent
  refine Impartial.newId.bind fun id => Impartial.now.bind fun now => ?_
  dsimp only
  split
  · exact (Impartial.pure _).bind hcreate
  · exact (Impartial.fail _).bind hcreate

theorem Archive.impartial_markProcessed (id : String) : (markProcessed id).Impartial := by
  refine (Impartial.query _ _).bind fun found => ?_
  cases found with
  | none => exact .pure _
  | some _ =>
    refine Impartial.now.bind fun now => .change _ ?_
    rintro s _ _ ⟨⟩
    rfl

namespace Workflow

variable {em : Emitter} (w : Workflow)

theorem impartial_openRun (seed : Fields) (triggeredBy : String) :
    (w.openRun seed triggeredBy).Impartial := by
  refine (Impartial.composes.ofExcept _).bind fun fields => Impartial.newId.bind fun id =>
    Impartial.now.bind fun now => ?_
  split
  · exact .change _ fun _ _ _ => Store.integrations_addRun
  · exact .fail _

theorem impartial_closeRun (id : String) (p : Progress) : (closeRun id p).Impartial := by
  refine Impartial.now.bind fun now => (Impartial.change _ ?_).bind fun _ => .pure _
  rintro s _ _ ⟨⟩
  rfl

/-- A run tells teams apart no more than what becomes of its emissions does. -/
theorem impartial_run (hem : ∀ f, (em f).Impartial) (context : Json) (triggeredBy : String) :
    (w.run em context triggeredBy).Impartial :=
  (Impartial.composes.ofExcept _).bind fun seed =>
    (w.impartial_openRun seed triggeredBy).bind fun r =>
      carries_conduct (Impartial.reaches.carries fun _ _ => .tell _ _)
        (fun c _ => c.impartial_log) hem (impartial_closeRun r.id) seed

end Workflow

/-! ## Dispatches -/

namespace Dispatch

theorem impartial_event {em : Emitter} (hem : ∀ f, (em f).Impartial) (e : Event) :
    (event em e).Impartial :=
  composes_event Impartial.composes (fun w => w.impartial_run hem _ _)
    (Archive.impartial_markProcessed _)

theorem impartial_emitterFor (settings : Settings) (f : FollowUp) :
    (emitterFor settings f).Impartial := by
  unfold emitterFor
  split
  · exact composes_inline Impartial.composes Emitter.impartial_queue
      (fun _ => impartial_event) _ f
  · exact Emitter.impartial_queue f

theorem impartial_handle (e : Event) : (handle e).Impartial where
  same o d team h := (impartial_event (impartial_emitterFor o.settings) e).same o d team h
  keeps o d := (impartial_event (impartial_emitterFor o.settings) e).keeps o d

/-- A dispatch by id goes the same way for two teams with the same credentials. -/
theorem impartial_byId (id : String) : (byId id).Impartial := by
  refine (Impartial.query _ _).bind fun found => ?_
  cases found with
  | none => exact .fail _
  | some e => exact impartial_handle e

end Dispatch

end LeadDesk
