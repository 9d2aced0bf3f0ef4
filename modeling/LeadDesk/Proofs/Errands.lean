import LeadDesk.Proofs.Endings
import LeadDesk.Service.Answer
/-!
# Errands

What may be asked of the desk from outside: to take in or handle events, to look for events that
wait, to emit an event, to save a workflow, or to run one by hand. Each is an action around
dispatches and runs, and has every property of these that composition keeps
(`Errand.composes`).
-/

namespace LeadDesk

open LeadDesk.Action (Leads Tame Timely)

/-- What is asked of the desk from outside. -/
inductive Errand where
  /-- To handle an event as it is given. -/
  | dispatch (e : Event)
  /-- To handle the stored event with an id. -/
  | dispatchById (id : String)
  /-- To handle the oldest events that wait. -/
  | processPending (limit : Option Int)
  /-- To run a workflow by hand. -/
  | trigger (slug : String) (context : Json)
  /-- To take in the event of a body and to handle it. -/
  | post (body : Service.Body)
  /-- To look once for events that need not wait any longer. -/
  | poll (size : Option Int)
  | emit (e : Emission) (team : Json) (atOnce : Option Bool)
  | save (w : Workflow)

namespace Errand

/-- Carry out an errand. Its answer is left out. -/
def carryOut : Errand → Action Unit
  | dispatch e => do
    let _ ← Dispatch.handle e
  | dispatchById id => do
    let _ ← Dispatch.byId id
  | processPending limit => do
    let _ ← Dispatch.pending limit
  | trigger slug context => do
    let _ ← Dispatch.trigger slug context
  | post body => do
    let _ ← Service.processEvent body
  | poll size => do
    let _ ← Monitor.poll size
  | emit e team atOnce => do
    let _ ← Dispatch.emit e team atOnce
  | save w => do
    let _ ← Archive.saveWorkflow w

end Errand

/-- The settings let the events of runs be handled at once. -/
def Settings.Nests (s : Settings) : Prop := s.inline = true ∧ 0 < s.maxDepth

/-- The settings allow an emitter for runs: it queues events, or handles them at once where it
may. -/
def Settings.Allows (s : Settings) (em : Emitter) : Prop :=
  em = Emitter.queue ∨ s.Nests ∧ ∃ levels, em = Dispatch.inline s.maxDepth levels

namespace Dispatch

theorem allows_emitterFor (s : Settings) : s.Allows (emitterFor s) := by
  unfold emitterFor
  split
  · rename_i hinline
    by_cases hd : 0 < s.maxDepth
    · exact .inr ⟨⟨hinline, hd⟩, _, rfl⟩
    · have hzero : s.maxDepth.toNat = 0 := by omega
      rw [hzero]
      exact .inl rfl
  · exact .inl rfl

end Dispatch

theorem Settings.Allows.timely {s : Settings} {em : Emitter} (h : s.Allows em) (f : FollowUp) :
    (em f).Timely := by
  obtain rfl | ⟨_, levels, rfl⟩ := h
  · exact Emitter.timely_queue f
  · exact Dispatch.timely_inline _ levels f

section Composition

variable {P : (α : Type) → Action α → Prop}

theorem Dispatch.composes_handleAll (hP : Action.Composes P) (hhandle : ∀ e, P _ (handle e))
    (es : List Event) : P _ (handleAll es) := by
  induction es with
  | nil => exact hP.pure _
  | cons e rest ih => exact hP.bind (hhandle e) fun _ => hP.bind ih fun _ => hP.pure _

theorem Monitor.composes_handleReady (hP : Action.Composes P)
    (hhandle : ∀ e, P _ (Dispatch.handle e)) (now : Timestamp) (es : List Event) :
    P _ (handleReady now es) := by
  induction es with
  | nil => exact hP.pure _
  | cons e rest ih =>
    unfold handleReady
    split
    · refine hP.bind (hP.attempt (hhandle e)) fun result => ?_
      split
      · exact hP.bind ih fun _ => hP.pure _
      · exact ih
    · exact ih

theorem Dispatch.composes_accept (hP : Action.Composes P)
    (hcreate : ∀ e, P _ (Archive.createEvent e)) (e : Event) : P _ (accept e) := by
  refine hP.bind (hP.query _ _) fun found => ?_
  split
  · exact hP.pure _
  · exact hcreate _

theorem Service.composes_processEvent (hP : Action.Composes P)
    (hhandle : ∀ e, P _ (Dispatch.handle e)) (hcreate : ∀ e, P _ (Archive.createEvent e))
    (body : Body) : P _ (processEvent body) := by
  unfold processEvent
  split
  · refine hP.bind hP.newId fun id => hP.bind hP.now fun now => ?_
    split
    · refine hP.bind (Dispatch.composes_accept hP hcreate _) fun stored => ?_
      refine hP.bind (hhandle stored) fun result => ?_
      unfold answerData
      split
      · exact hP.pure _
      · exact hP.fail _
    · exact hP.pure _
    · exact hP.fail _
  · exact hP.fail _
  · exact hP.pure _

/-- An errand has what its dispatches, its runs and its changes of the store have under the
settings that are possible. -/
theorem Errand.composes (hP : Action.Composes P) {T : Settings → Prop}
    (hT : ∀ {α : Type} {f : Settings → Action α}, (∀ s, T s → P α (f s)) →
      P α (do f (← Action.settings)))
    (hqueue : ∀ f, P _ (Emitter.queue f)) (hcreate : ∀ e, P _ (Archive.createEvent e))
    (hsave : ∀ w, P _ (Archive.saveWorkflow w))
    (hevent : ∀ s, T s → ∀ em, s.Allows em → ∀ e, P _ (Dispatch.event em e))
    (hrun : ∀ s, T s → ∀ em, s.Allows em → ∀ (w : Workflow) context,
      P _ (w.run em context "manual")) (x : Errand) :
    P _ x.carryOut := by
  have hhandle : ∀ e, P _ (Dispatch.handle e) := fun e =>
    hT (f := fun s => Dispatch.event (Dispatch.emitterFor s) e) fun s hs =>
      hevent s hs _ (Dispatch.allows_emitterFor s) e
  have hunprocessed : ∀ limit, P _ (Archive.unprocessedEvents limit) := by
    intro limit
    unfold Archive.unprocessedEvents Archive.ask
    exact hP.query _ _
  -- The answer of an errand is left out.
  suffices h : ∀ {α : Type} {y : Action α}, P α y → P Unit (do let _ ← y) by
    cases x with
    | dispatch e => exact h (hhandle e)
    | dispatchById id =>
      refine h (hP.bind (hP.query _ _) fun found => ?_)
      split
      · exact hhandle _
      · exact hP.fail _
    | processPending limit =>
      exact h (hP.bind (hunprocessed _) fun es => Dispatch.composes_handleAll hP hhandle es)
    | trigger slug context =>
      refine h (hP.bind (hP.query _ _) fun found => ?_)
      split
      · exact hP.fail _
      · refine hT fun _ _ => hP.bind ?_ fun context => ?_
        · cases Dispatch.manualContext _ context
          · exact hP.fail _
          · exact hP.pure _
        · exact hT (f := fun s => Workflow.run _ (Dispatch.emitterFor s) context "manual")
            fun s hs => hrun s hs _ (Dispatch.allows_emitterFor s) _ _
    | post body =>
      exact h (Service.composes_processEvent hP hhandle hcreate body)
    | poll size =>
      exact h (hT fun _ _ => hP.bind (hunprocessed _) fun es => hP.bind hP.now fun now =>
        Monitor.composes_handleReady hP hhandle now es)
    | emit e team atOnce =>
      refine h (hT fun s hs => hP.bind (hqueue _) fun event => ?_)
      split
      · exact Dispatch.composes_atOnce hP (hevent s hs _ (Dispatch.allows_emitterFor s) event) _
      · exact hP.pure _
    | save w => exact h (hsave w)
  exact fun hy => hP.bind hy fun _ => hP.pure _

end Composition

/-- What is done in some offices is done under their settings. -/
theorem Action.leads_settings {α : Type} {b : Office} {S : Office → Prop}
    {R : Desk → Desk → Prop} {f : Settings → Action α} (hS : ∀ o, S o → o.Like b)
    (h : ∀ s, s = b.settings → Leads S R (f s)) : Leads S R (do f (← settings)) := by
  intro o d ho
  obtain ⟨times, rfl⟩ := hS o ho
  exact h _ rfl _ d ho

/-- An errand is cut off by a deadline around it only. -/
theorem Errand.timely (x : Errand) : x.carryOut.Timely := by
  refine composes Timely.composes (T := fun _ => True) (fun h => Timely.settings.bind fun s =>
    h s trivial) Emitter.timely_queue (fun _ => .change _ _) (fun w => ?_)
    (fun s _ em hem e => ?_) (fun s _ em hem w context => ?_) x
  · exact (Timely.query _ _).bind fun _ => Timely.now.bind fun _ =>
      (Timely.newIds _).bind fun _ => .change _ _
  · exact Dispatch.timely_event (fun f => (hem.timely f).punctual) e
  · exact Workflow.timely_run (fun f => (hem.timely f).punctual) _ _

end LeadDesk
