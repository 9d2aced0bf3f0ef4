import LeadDesk.Proofs.Emissions
import LeadDesk.Proofs.Matching
/-!
# Events that are handled at once

Where emitted events are handled at once, a dispatch makes runs, these emit, and each emission is a
dispatch again. Workflows may set each other off without end, so it is the depth alone that ends
this: the emitter of the desk is called again for every emission (`Dispatch.run_emitterFor`), and
its levels never run out before the depth does (`Dispatch.run_inline_congr`).

Dispatches nest no deeper than the bound, and the depth is as before when one ends. What is emitted
above the bound has been handled when the emission ends, what is emitted at the bound waits, and
no event is lost or comes from elsewhere (`Dispatch.handle_nested`).
-/

namespace LeadDesk

open LeadDesk.Action (Leads Tame)
open Desk (Overlooks Precedes Traces)

namespace Desk

/-- The desk is as deep as before. -/
def SameDepth (d e : Desk) : Prop := e.depth = d.depth

instance : Trail SameDepth where
  quiet h := h.depth
  trans h k := Eq.trans k h
  deeper _ := rfl

instance : Overlooks SameDepth where
  withRun _ _ := rfl
  withLog _ _ := rfl
  withUpdate _ _ _ := rfl

instance : Trail Precedes where
  quiet := Precedes.of_quiet
  trans := Precedes.trans
  deeper h := h.of_depth.with_depth _

instance : Overlooks Precedes where
  withRun := precedes_withRun
  withLog := precedes_withLog
  withUpdate := precedes_withUpdate

end Desk

variable {b o : Office} {d : Desk}

namespace Dispatch

/-- The emitters of the desk lead where the queue does. -/
theorem overlooks_inline {R : Desk → Desk → Prop} [Desk.Trail R] [Overlooks R]
    (hqueue : ∀ f, Leads (·.Like b) R (Emitter.queue f))
    (hmark : ∀ d id now, R d (d.withMark id now)) (bound : Int) (levels : Nat) :
    ∀ f, Leads (·.Like b) R (inline bound levels f) :=
  composes_inline Leads.composes hqueue (fun _ ih ev => overlooks_event ih (hmark · ev.id)) levels

theorem sameDepth_queue (f : FollowUp) : Leads (·.Like b) Desk.SameDepth (Emitter.queue f) := by
  intro o d _
  rcases h : (Emitter.queue f).run o d with ⟨ending, e⟩
  obtain ⟨_, _, hq, _⟩ | ⟨_, _, rfl, _⟩ := Emitter.queue_cases h
  · exact hq.depth
  · rfl

theorem precedes_queue (f : FollowUp) : Leads (·.Like b) Precedes (Emitter.queue f) := by
  intro o d _
  rcases h : (Emitter.queue f).run o d with ⟨ending, e⟩
  obtain ⟨_, _, hq, _⟩ | ⟨_, _, rfl, _⟩ := Emitter.queue_cases h
  · exact .of_quiet hq
  · exact (Precedes.of_quiet d.quiet_next).trans (d.next.precedes_withEvent _)

/-! ## The depth ends the recursion -/

theorem run_atOnce (bound : Int) (em : Emitter) (ev : Event) (o : Office) (d : Desk) :
    (atOnce bound em ev).run o d =
      if bound ≤ d.depth then (.done ev, d)
      else (do let _ ← Action.deeper (event em ev); return ev).run o d := by
  unfold atOnce
  rw [Action.run_bind_of_done rfl]
  split <;> rfl

/-- As deep as events are handled at once, they are queued. -/
theorem run_inline_of_le {bound : Int} (levels : Nat) (f : FollowUp) (h : bound ≤ d.depth) :
    (inline bound levels f).run o d = (Emitter.queue f).run o d := by
  cases levels with
  | zero => rfl
  | succ levels =>
    rw [inline, Action.run_bind]
    rcases hqueue : (Emitter.queue f).run o d with ⟨ev | failure | level, m⟩
    · have hm : m.depth = d.depth := by
        have hsame := sameDepth_queue (b := o) f o d (.refl o)
        rwa [hqueue] at hsame
      exact (run_atOnce bound _ ev o m).trans (if_pos (hm ▸ h))
    · rfl
    · rfl

/-- All numbers of levels that cover the rest of the depth make the same emitter. -/
theorem run_inline_congr {bound : Int} (levels : Nat) :
    ∀ {levels' : Nat} {f : FollowUp} {o : Office} {d : Desk}, bound ≤ d.depth + levels →
      bound ≤ d.depth + levels' →
      (inline bound levels f).run o d = (inline bound levels' f).run o d := by
  induction levels with
  | zero =>
    intro levels' f o d h _
    rw [run_inline_of_le levels' f (by omega)]
    rfl
  | succ levels ih =>
    intro levels' f o d h h'
    cases levels' with
    | zero =>
      rw [run_inline_of_le (levels + 1) f (by omega)]
      rfl
    | succ levels' =>
      refine Action.run_bind_congr rfl fun ev m hqueue => ?_
      have hm : m.depth = d.depth := by
        have hsame := sameDepth_queue (b := o) f o d (.refl o)
        rwa [hqueue] at hsame
      rw [run_atOnce, run_atOnce]
      split
      · rfl
      refine Action.run_bind_congr ?_ fun _ _ _ => rfl
      -- One level deeper the two emitters agree on all emissions of the dispatch.
      let c : DispatchCall := ⟨inline bound levels', ev, o, { m with depth := m.depth + 1 }⟩
      have hagrees : ∀ x, c.Emits x → x.Agrees (inline bound levels) := by
        intro x hx
        have hlead := overlooks_inline (b := o) sameDepth_queue (fun _ _ _ => rfl) bound levels'
        have hdepth : x.desk.depth = m.depth + 1 := hx.before hlead (.refl o)
        unfold EmitCall.Agrees
        rw [EmitCall.result, hx.emitter_eq]
        exact ih (by omega) (by omega)
      have hc : (event (inline bound levels) ev).run o c.desk = c.result :=
        DispatchCall.run_event_congr hagrees
      rw [Action.run_deeper, Action.run_deeper, hc]
      rfl

/-- The emitter of an office that handles events at once is the one that is called for the
emissions within, until these are as deep as the settings allow. -/
theorem run_emitterFor {s : Settings} (h : s.inline = true) (f : FollowUp) (o : Office) (d : Desk) :
    (emitterFor s f).run o d =
      (do atOnce s.maxDepth (emitterFor s) (← Emitter.queue f)).run o d := by
  have hem : emitterFor s = inline s.maxDepth s.maxDepth.toNat := by
    rw [emitterFor, if_pos h]
  have hmore : (inline s.maxDepth s.maxDepth.toNat f).run o d =
      (inline s.maxDepth (s.maxDepth.toNat + 1) f).run o d :=
    run_inline_congr _ (by omega) (by omega)
  rw [hem, hmore]
  rfl

/-- It leads where the queue does. -/
theorem overlooks_emitterFor {R : Desk → Desk → Prop} [Desk.Trail R] [Overlooks R]
    (hqueue : ∀ f, Leads (·.Like b) R (Emitter.queue f))
    (hmark : ∀ d id now, R d (d.withMark id now)) (s : Settings) (f : FollowUp) :
    Leads (·.Like b) R (emitterFor s f) := by
  unfold emitterFor
  split
  · exact overlooks_inline hqueue hmark _ _ f
  · exact hqueue f

end Dispatch

/-! ## Ids and events that stay -/

namespace Desk

/-- No further event gets the id: an event has it already, or it is none of the ids to come. -/
def Spent (d : Desk) (id : String) : Prop :=
  id ∈ d.eventIds ∨ ∀ n, d.nextId ≤ n → freshId n ≠ id

theorem Spent.of_precedes {e : Desk} {id : String} (h : d.Spent id) (hp : d.Precedes e) :
    e.Spent id :=
  h.imp (hp.events.subset ·) fun hn n hle => hn n (Nat.le_trans hp.nextId hle)

/-- All events but those with an id are stored as they were. -/
def KeepsOthers (id : String) (d e : Desk) : Prop :=
  ∀ old ∈ d.store.events, old.id ≠ id → old ∈ e.store.events

instance (id : String) : Trail (KeepsOthers id) where
  quiet h _ hold _ := h.events ▸ hold
  trans h k old hold hne := k old (h old hold hne) hne
  deeper h := h

instance (id : String) : Overlooks (KeepsOthers id) where
  withRun _ _ _ hold _ := hold
  withLog _ _ _ hold _ := hold
  withUpdate _ _ _ _ hold _ := hold

theorem keepsOthers_withMark (d : Desk) (id : String) (now : Timestamp) :
    KeepsOthers id d (d.withMark id now) :=
  fun old hold hne => List.mem_map.2 ⟨old, hold, if_neg (by simpa using hne)⟩

/-- The ids of further events are as told. -/
def Gains (Q : String → Prop) (d e : Desk) : Prop := ∀ id ∈ e.eventIds, id ∈ d.eventIds ∨ Q id

variable {Q : String → Prop}

theorem gains_of_eventIds {e : Desk} (h : e.eventIds = d.eventIds) : Gains Q d e :=
  fun _ hid => .inl (h ▸ hid)

instance : Trail (Gains Q) where
  quiet h := gains_of_eventIds (by rw [eventIds, eventIds, h.events])
  trans h k id hid := (k id hid).elim (h id) .inr
  deeper h := h

instance : Overlooks (Gains Q) where
  withRun _ _ := gains_of_eventIds rfl
  withLog _ _ := gains_of_eventIds rfl
  withUpdate _ _ _ := gains_of_eventIds rfl

end Desk

/-- An emission changes no event that is there. -/
theorem Dispatch.keepsOthers_emitterFor (hmarks : Action.faultOf b "mark_event_processed" = none)
    (id : String) (f : FollowUp) :
    Leads (·.Like b) (Desk.KeepsOthers id) (emitterFor b.settings f) := by
  intro o d ho
  obtain ⟨_, ht⟩ := traces_of_allows (allows_emitterFor b.settings) hmarks f o d ho
  exact fun old hold _ => ht.events old hold (by simp)

/-! ## Dispatches within a dispatch -/

namespace EmitCall

/-- The queue stores an event for the emission. -/
def Queues (x : EmitCall) (ev : Event) (m : Desk) : Prop :=
  (Emitter.queue x.followUp).run x.office x.desk = (.done ev, m)

/-- The event of the emission is handled at once by a dispatch one level deeper. -/
structure Handles (x : EmitCall) (c : DispatchCall) : Prop where
  emitter : c.emitter = x.emitter
  office : c.office = x.office
  shallow : (x.desk.depth : Int) < x.office.settings.maxDepth
  queued : ∃ m, x.Queues c.event m ∧ c.desk = { m with depth := m.depth + 1 }

/-- The emission is made in an office by the emitter that its settings ask for. -/
structure IsOf (b : Office) (x : EmitCall) : Prop where
  emitter : x.emitter = Dispatch.emitterFor b.settings
  office : x.office.Like b

end EmitCall

namespace DispatchCall

/-- A dispatch and those within it, by how deep they are: each run of one may emit events that are
handled at once. -/
inductive Nests (c : DispatchCall) : Nat → DispatchCall → Prop
  | self : Nests c 0 c
  | inner {n : Nat} {c' c'' : DispatchCall} {x : EmitCall} (outer : Nests c n c')
      (emits : c'.Emits x) (handles : x.Handles c'') : Nests c (n + 1) c''

/-- A run that is so deep in a dispatch emits an event. -/
def EmitsAt (c : DispatchCall) (n : Nat) (x : EmitCall) (ev : Event) : Prop :=
  ∃ c' m, c.Nests n c' ∧ c'.Emits x ∧ x.Queues ev m

/-- The dispatch is made in an office with the emitter that its settings ask for, and no further
event gets the id of the event that is handled. -/
structure IsOf (b : Office) (c : DispatchCall) : Prop where
  emitter : c.emitter = Dispatch.emitterFor b.settings
  office : c.office.Like b
  spent : c.desk.Spent c.event.id

end DispatchCall

namespace EmitCall

variable {x : EmitCall} {c : DispatchCall} {ev : Event} {m : Desk}

/-- An event that is queued is a new one and waits. -/
theorem Queues.isNew (h : x.Queues ev m) :
    m = x.desk.next.withEvent ev ∧ ev.processed = false ∧ ¬ x.desk.Spent ev.id := by
  obtain ⟨_, hf, _⟩ | ⟨ev', hdone, rfl, hqueued, hnew⟩ := Emitter.queue_cases h
  · cases hf
  obtain rfl := Ending.done.inj hdone
  refine ⟨rfl, hqueued.processed, ?_⟩
  rintro (hin | hnone)
  · obtain ⟨old, hold, hid⟩ := List.mem_map.1 hin
    exact hnew old hold hid
  · exact hnone _ (Nat.le_refl _) hqueued.id.symm

theorem Queues.mem (h : x.Queues ev m) : ev ∈ m.store.events := by
  obtain ⟨rfl, _⟩ := h.isNew
  exact List.mem_append_right _ (List.mem_singleton_self ev)

theorem Queues.depth_eq (h : x.Queues ev m) : m.depth = x.desk.depth := by
  obtain ⟨rfl, _⟩ := h.isNew
  rfl

theorem Queues.precedes (h : x.Queues ev m) : x.desk.Precedes m := by
  obtain ⟨rfl, _⟩ := h.isNew
  exact (Precedes.of_quiet x.desk.quiet_next).trans (x.desk.next.precedes_withEvent ev)

theorem Handles.depth_eq (h : x.Handles c) : c.desk.depth = x.desk.depth + 1 := by
  obtain ⟨m, hq, hdesk⟩ := h.queued
  rw [hdesk, ← hq.depth_eq]

theorem Handles.precedes (h : x.Handles c) : x.desk.Precedes c.desk := by
  obtain ⟨m, hq, hdesk⟩ := h.queued
  exact hdesk ▸ hq.precedes.with_depth _

theorem Handles.mem (h : x.Handles c) : c.event.id ∈ c.desk.eventIds := by
  obtain ⟨m, hq, hdesk⟩ := h.queued
  exact hdesk ▸ Desk.mem_eventIds hq.mem

theorem Handles.isOf (h : x.Handles c) (hx : x.IsOf b) : c.IsOf b :=
  ⟨h.emitter.trans hx.emitter, h.office ▸ hx.office, .inl h.mem⟩

namespace IsOf

variable (hx : x.IsOf b) (hinline : b.settings.inline = true)

include hx

theorem maxDepth_eq : x.office.settings.maxDepth = b.settings.maxDepth := by
  obtain ⟨_, ho⟩ := hx.office
  rw [ho]

/-- Above the bound an event is handled at once. -/
theorem exists_handles (hq : x.Queues ev m) (hdeep : ¬ b.settings.maxDepth ≤ x.desk.depth) :
    ∃ c, x.Handles c ∧ c.event = ev :=
  ⟨⟨x.emitter, ev, x.office, { m with depth := m.depth + 1 }⟩,
    ⟨rfl, rfl, by rw [hx.maxDepth_eq]; omega, m, hq, rfl⟩, rfl⟩

include hinline

theorem result_of_queues (hq : x.Queues ev m) :
    x.result = if b.settings.maxDepth ≤ x.desk.depth then (.done ev, m)
      else (do let _ ← Action.deeper (Dispatch.event x.emitter ev); return ev).run x.office m := by
  rw [result, hx.emitter, Dispatch.run_emitterFor hinline, Action.run_bind_of_done hq,
    Dispatch.run_atOnce, hq.depth_eq]

/-- At the bound an event waits. -/
theorem result_of_deep (hq : x.Queues ev m) (hdeep : b.settings.maxDepth ≤ x.desk.depth) :
    x.result = (.done ev, m) := by
  rw [hx.result_of_queues hinline hq, if_pos hdeep]

/-- An emission whose event is handled at once ends as the dispatch does, at the depth where it
began. -/
theorem result_of_handles (hc : x.Handles c) :
    x.result.2 = { c.result.2 with depth := x.desk.depth } ∧
      ((∃ r, c.result.1 = .done r ∧ x.result.1 = .done c.event) ∨
      (∃ failure, c.result.1 = .failed failure ∧ x.result.1 = .failed failure) ∨
      ∃ level, c.result.1 = .cut level ∧ x.result.1 = .cut level) := by
  obtain ⟨m, hq, hdesk⟩ := hc.queued
  have hshallow : ¬ b.settings.maxDepth ≤ x.desk.depth := by
    rw [← hx.maxDepth_eq]
    exact Int.not_le.2 hc.shallow
  rcases hrun : c.result with ⟨ending, e⟩
  have hdeeper : (Action.deeper (Dispatch.event x.emitter c.event)).run x.office m =
      (ending, { e with depth := x.desk.depth }) := by
    have hevent : (Dispatch.event x.emitter c.event).run x.office { m with depth := m.depth + 1 } =
        (ending, e) := by
      rw [← hrun, DispatchCall.result, hc.emitter, hc.office, hdesk]
    rw [Action.run_deeper, hevent, hq.depth_eq]
  rw [hx.result_of_queues hinline hq, if_neg hshallow]
  cases ending with
  | done r =>
    rw [Action.run_bind_of_done hdeeper]
    exact ⟨rfl, .inl ⟨r, rfl, rfl⟩⟩
  | failed failure =>
    rw [Action.run_bind_of_failed hdeeper]
    exact ⟨rfl, .inr (.inl ⟨failure, rfl, rfl⟩)⟩
  | cut level =>
    rw [Action.run_bind_of_cut hdeeper]
    exact ⟨rfl, .inr (.inr ⟨level, rfl, rfl⟩)⟩

/-- An emission that is refused changes nothing that is stored. -/
theorem quiet_of_not_queues (hnone : ∀ ev m, ¬ x.Queues ev m) : x.desk.Quiet x.result.2 := by
  rcases hqueue : (Emitter.queue x.followUp).run x.office x.desk with ⟨ending, m⟩
  obtain ⟨failure, rfl, hq, _⟩ | ⟨ev, rfl, _⟩ := Emitter.queue_cases hqueue
  · rw [result, hx.emitter, Dispatch.run_emitterFor hinline, Action.run_bind_of_failed hqueue]
    exact hq
  · exact absurd hqueue (hnone ev m)

/-- An emission stores its event, and what the dispatch of this stores. -/
theorem gains {Q : String → Prop} (hown : ∀ ev m, x.Queues ev m → Q ev.id)
    (hinner : ∀ k, x.Handles k → Desk.Gains Q k.desk k.result.2) :
    Desk.Gains Q x.desk x.result.2 := by
  by_cases hqueued : ∃ ev m, x.Queues ev m
  · obtain ⟨ev, m, hq⟩ := hqueued
    have hstored : Desk.Gains Q x.desk m := by
      intro id hid
      obtain ⟨rfl, _⟩ := hq.isNew
      obtain ⟨old, hold, rfl⟩ := List.mem_map.1 hid
      obtain hold | hold := List.mem_append.1 hold
      · exact .inl (Desk.mem_eventIds hold)
      · obtain rfl := List.mem_singleton.1 hold
        exact .inr (hown _ _ hq)
    by_cases hdeep : b.settings.maxDepth ≤ x.desk.depth
    · rwa [hx.result_of_deep hinline hq hdeep]
    · obtain ⟨k, hk, rfl⟩ := hx.exists_handles hq hdeep
      obtain ⟨m', hq', hdesk⟩ := hk.queued
      obtain rfl : m = m' := (Prod.mk.inj (hq.symm.trans hq')).2
      have hbegin : Desk.Gains Q m k.desk := Desk.gains_of_eventIds (by rw [hdesk]; rfl)
      have hend : Desk.Gains Q k.result.2 x.result.2 :=
        Desk.gains_of_eventIds (by rw [(hx.result_of_handles hinline hk).1]; rfl)
      exact Desk.Trail.trans hstored
        (Desk.Trail.trans hbegin (Desk.Trail.trans (hinner k hk) hend))
  · exact Desk.Trail.quiet (hx.quiet_of_not_queues hinline fun ev m hq => hqueued ⟨ev, m, hq⟩)

end IsOf

end EmitCall

/-! ## Along the nest -/

namespace DispatchCall

variable {c c' : DispatchCall} {x : EmitCall} {ev : Event} {n : Nat}

namespace IsOf

variable (hc : c.IsOf b)

include hc

theorem of_emits (hx : c.Emits x) : x.IsOf b :=
  ⟨hx.emitter_eq.trans hc.emitter, hx.office_like hc.office⟩

/-- The emitter of the dispatch leads where the queue does. -/
theorem leads_emitter {R : Desk → Desk → Prop} [Desk.Trail R] [Overlooks R]
    (hqueue : ∀ f, Leads (·.Like b) R (Emitter.queue f))
    (hmark : ∀ d id now, R d (d.withMark id now)) (f : FollowUp) :
    Leads (·.Like b) R (c.emitter f) := by
  rw [hc.emitter]
  exact Dispatch.overlooks_emitterFor hqueue hmark _ f

theorem precedes (hx : c.Emits x) : c.desk.Precedes x.desk :=
  hx.before (hc.leads_emitter Dispatch.precedes_queue Desk.precedes_withMark) hc.office

/-- The emissions of a dispatch are as deep as the dispatch. -/
theorem depth_eq (hx : c.Emits x) : x.desk.depth = c.desk.depth :=
  hx.before (hc.leads_emitter Dispatch.sameDepth_queue fun _ _ _ => rfl) hc.office

/-- When a dispatch ends, the depth is as before. -/
theorem depth_result : c.result.2.depth = c.desk.depth :=
  Dispatch.overlooks_event (hc.leads_emitter Dispatch.sameDepth_queue fun _ _ _ => rfl)
    (fun _ _ => rfl) c.office c.desk hc.office

theorem precedes_result : c.desk.Precedes c.result.2 :=
  Dispatch.overlooks_event (hc.leads_emitter Dispatch.precedes_queue Desk.precedes_withMark)
    (fun d now => d.precedes_withMark _ now) c.office c.desk hc.office

/-- A dispatch that returns has handled its event, if this is stored and was not processed. -/
theorem processed (hmarks : Action.faultOf b "mark_event_processed" = none)
    (hid : c.event.id ∈ c.desk.eventIds) (hopen : c.event.processed = false) {r : DispatchResult}
    (h : c.result.1 = .done r) : c.result.2.IsProcessed c.event.id := by
  have hem := Dispatch.traces_of_allows (Dispatch.allows_emitterFor b.settings) hmarks
  rw [← hc.emitter] at hem
  rcases hrun : c.result with ⟨ending, e⟩
  rw [hrun] at h
  obtain rfl : ending = .done r := h
  cases Dispatch.handling_of_event hopen hrun with
  | handled quiet ran marked _ =>
    obtain ⟨⟨_, ht⟩, _⟩ := Dispatch.traced_runAll_of_quiet hem hc.office quiet hid ran
    obtain ⟨_, _, _, hdone⟩ := Dispatch.traced_mark b.settings.Nests hc.office hmarks
      (ht.precedes.events.subset hid) marked
    exact hdone

/-- A dispatch is cut off by a deadline around it only. -/
theorem timely {level : Nat} (h : c.result.1 = .cut level) :
    1 ≤ level ∧ level ≤ c.office.deadlines.length := by
  have htimely : ∀ f, (c.emitter f).Punctual := fun f => by
    rw [hc.emitter]
    exact ((Dispatch.allows_emitterFor b.settings).timely f).punctual
  exact Dispatch.timely_event htimely c.event c.office c.desk level h

/-- An event that is new where it is emitted stays as it was stored when the emission ended. -/
theorem lasts (hmarks : Action.faultOf b "mark_event_processed" = none) (hx : c.Emits x)
    {old : Event} (hold : old ∈ x.result.2.store.events) (hnew : ¬ x.desk.Spent old.id) :
    old ∈ c.result.2.store.events := by
  have hem : ∀ f, Leads (·.Like b) (Desk.KeepsOthers c.event.id) (c.emitter f) := by
    rw [hc.emitter]
    exact Dispatch.keepsOthers_emitterFor hmarks c.event.id
  have hafter := hx.after hem (fun d now => d.keepsOthers_withMark _ now) hc.office
  refine hafter old hold fun heq => hnew ?_
  exact heq ▸ hc.spent.of_precedes (hc.precedes hx)

end IsOf

namespace Nests

variable (hc : c.IsOf b) (h : c.Nests n c')

include hc h

theorem isOf : c'.IsOf b := by
  induction h with
  | self => exact hc
  | inner _ emits handles ih => exact handles.isOf (ih.of_emits emits)

/-- Dispatches are as deep as they are nested. -/
theorem depth_eq : c'.desk.depth = c.desk.depth + n := by
  induction h with
  | self => rfl
  | inner outer emits handles ih =>
    rw [handles.depth_eq, (outer.isOf hc).depth_eq emits, ih]
    rfl

/-- Dispatches are nested no deeper than the bound. -/
theorem depth_le (hbound : (c.desk.depth : Int) ≤ b.settings.maxDepth) :
    (c'.desk.depth : Int) ≤ b.settings.maxDepth := by
  cases h with
  | self => exact hbound
  | inner outer emits handles =>
    have hx := (outer.isOf hc).of_emits emits
    have hshallow := handles.shallow
    rw [hx.maxDepth_eq] at hshallow
    have hdepth := handles.depth_eq
    omega

/-- An event that is new where a dispatch begins and stored when it ends stays as it is until the
outermost dispatch ends. -/
theorem lasts (hinline : b.settings.inline = true)
    (hmarks : Action.faultOf b "mark_event_processed" = none) {old : Event} :
    old ∈ c'.result.2.store.events → ¬ c'.desk.Spent old.id → old ∈ c.result.2.store.events := by
  induction h with
  | self => exact fun hold _ => hold
  | @inner n c' c'' x outer emits handles ih =>
    intro hold hnew
    have hc' := outer.isOf hc
    have hresult := ((hc'.of_emits emits).result_of_handles hinline handles).1
    have hold' : old ∈ x.result.2.store.events := by
      rwa [hresult]
    have hnew' : ¬ x.desk.Spent old.id := fun hs => hnew (hs.of_precedes handles.precedes)
    exact ih (hc'.lasts hmarks emits hold' hnew')
      fun hs => hnew' (hs.of_precedes (hc'.precedes emits))

end Nests

end DispatchCall

/-- What becomes of an event that a run has emitted so deep in a dispatch which ends at a desk. It
is stored. Above the bound it has been handled when the emission ends, unless a deadline of one of
the runs around has cut this off. At the bound it waits. Both are so still when the dispatch
ends. -/
structure EmitCall.Accounts (x : EmitCall) (ev : Event) (bound : Int) (n : Nat) (e : Desk) :
    Prop where
  depth : x.desk.depth = n ∧ x.result.2.depth = n
  stored : ev.id ∈ x.result.2.eventIds ∧ ev.id ∈ e.eventIds
  handled : (n : Int) < bound → ¬ x.office.Cuts x.result.1 →
    x.result.1 = .done ev ∧ x.result.2.IsProcessed ev.id ∧ e.IsProcessed ev.id
  waits : bound ≤ n →
    x.result.1 = .done ev ∧ x.result.2.IsWaiting ev.id ∧ e.IsWaiting ev.id

namespace DispatchCall

variable {c : DispatchCall} {x : EmitCall} {ev : Event} {n : Nat}

namespace EmitsAt

variable (h : c.EmitsAt n x ev) (hc : c.IsOf b)

include h hc

theorem isOf : x.IsOf b := by
  obtain ⟨c', m, hnests, hemits, _⟩ := h
  exact (hnests.isOf hc).of_emits hemits

theorem depth_eq : x.desk.depth = c.desk.depth + n := by
  obtain ⟨c', m, hnests, hemits, _⟩ := h
  rw [(hnests.isOf hc).depth_eq hemits, hnests.depth_eq hc]

/-- What is stored of the event when the emission ends is stored when the dispatch ends. -/
theorem lasts (hinline : b.settings.inline = true)
    (hmarks : Action.faultOf b "mark_event_processed" = none) :
    ∀ old ∈ x.result.2.store.events, old.id = ev.id → old ∈ c.result.2.store.events := by
  obtain ⟨c', m, hnests, hemits, hq⟩ := h
  have hc' := hnests.isOf hc
  obtain ⟨_, _, hnew⟩ := hq.isNew
  intro old hold hid
  rw [← hid] at hnew
  exact hnests.lasts hc hinline hmarks (hc'.lasts hmarks hemits hold hnew)
    fun hs => hnew (hs.of_precedes (hc'.precedes hemits))

/-- At the bound an event is stored and waits. -/
theorem accounts_of_deep (hinline : b.settings.inline = true) (ho : b.Serves)
    (htop : c.desk.depth = 0) (hdeep : b.settings.maxDepth ≤ n) :
    x.Accounts ev b.settings.maxDepth n c.result.2 := by
  have hx := h.isOf hc
  have hdepth : x.desk.depth = n := by
    rw [h.depth_eq hc, htop, Nat.zero_add]
  have hlasts := h.lasts hc hinline ho.marks
  obtain ⟨_, m, _, _, hq⟩ := h
  have hresult := hx.result_of_deep hinline hq (by rwa [hdepth])
  obtain ⟨_, hopen, _⟩ := hq.isNew
  have hev : ev ∈ x.result.2.store.events := by
    rw [hresult]
    exact hq.mem
  have hend := hlasts ev hev rfl
  exact {
    depth := ⟨hdepth, by rw [hresult]; exact hq.depth_eq.trans hdepth⟩
    stored := ⟨Desk.mem_eventIds hev, Desk.mem_eventIds hend⟩
    handled := fun hshallow => absurd hdeep (Int.not_le.2 hshallow)
    waits := fun _ => ⟨by rw [hresult], ⟨ev, hev, rfl, hopen⟩, ⟨ev, hend, rfl, hopen⟩⟩ }

/-- Above the bound it is handled by a dispatch of its own. -/
theorem accounts_of_shallow (hinline : b.settings.inline = true) (ho : b.Serves)
    (htop : c.desk.depth = 0) (hshallow : ¬ b.settings.maxDepth ≤ n) :
    x.Accounts ev b.settings.maxDepth n c.result.2 := by
  have hx := h.isOf hc
  have hdepth : x.desk.depth = n := by
    rw [h.depth_eq hc, htop, Nat.zero_add]
  have hlasts := h.lasts hc hinline ho.marks
  obtain ⟨_, m, _, _, hq⟩ := h
  obtain ⟨_, hopen, _⟩ := hq.isNew
  obtain ⟨k, hk, rfl⟩ := hx.exists_handles hq (by rwa [hdepth])
  obtain ⟨hdesk, hends⟩ := hx.result_of_handles hinline hk
  have hkof := hk.isOf hx
  have hstore : x.result.2.store = k.result.2.store := by
    rw [hdesk]
  have hstored : k.event.id ∈ x.result.2.eventIds := by
    rw [Desk.eventIds, hstore]
    exact hkof.precedes_result.events.subset hk.mem
  obtain ⟨old, hold, hid⟩ := List.mem_map.1 hstored
  exact {
    depth := ⟨hdepth, by rw [hdesk]; exact hdepth⟩
    stored := ⟨hstored, List.mem_map.2 ⟨old, hlasts old hold hid, hid⟩⟩
    waits := fun hdeep => absurd hdeep hshallow
    handled := fun _ hcut => by
      obtain ⟨r, hr, hdone⟩ | ⟨failure, hf, _⟩ | ⟨level, hlevel, hxlevel⟩ := hends
      · have hprocessed : x.result.2.IsProcessed k.event.id := by
          rw [Desk.IsProcessed, hstore]
          exact hkof.processed ho.marks hk.mem hopen hr
        exact ⟨hdone, hprocessed, hprocessed.of_events hlasts⟩
      · exact absurd hf (Dispatch.event_ne_failed (hkof.office.faultOf _ ▸ ho.finds)
          (hkof.office.faultOf _ ▸ ho.marks) failure)
      · exact absurd ⟨level, hxlevel, hk.office ▸ hkof.timely hlevel⟩ hcut }

end EmitsAt

/-- A dispatch stores the events of its emissions, and what the dispatches of these store. -/
theorem gains_of_inner {Q : String → Prop} (hc : c.IsOf b) (hinline : b.settings.inline = true)
    (hown : ∀ x ev m, c.Emits x → x.Queues ev m → Q ev.id)
    (hinner : ∀ x k, c.Emits x → x.Handles k → Desk.Gains Q k.desk k.result.2) :
    Desk.Gains Q c.desk c.result.2 :=
  trail_of_emits (fun d now => Desk.gains_of_eventIds (d.eventIds_withMark _ now)) fun x hx =>
    (hc.of_emits hx).gains hinline (fun ev m => hown x ev m hx) fun k => hinner x k hx

/-- All further events of a dispatch are emitted in it. -/
theorem Nests.gains (hc : c.IsOf b) (hinline : b.settings.inline = true) (k : Nat) :
    ∀ {n : Nat} {c' : DispatchCall}, c.Nests n c' → b.settings.maxDepth ≤ c'.desk.depth + k →
      Desk.Gains (fun id => ∃ n x ev, c.EmitsAt n x ev ∧ ev.id = id) c'.desk c'.result.2 := by
  -- The induction is on how much deeper dispatches may be nested.
  induction k with
  | zero =>
    intro n c' h hdeep
    have hc' := h.isOf hc
    refine gains_of_inner hc' hinline
      (fun x ev m hx hq => ⟨n, x, ev, ⟨c', m, h, hx, hq⟩, rfl⟩) fun x k hx hk => ?_
    have hshallow := hk.shallow
    rw [(hc'.of_emits hx).maxDepth_eq, hc'.depth_eq hx] at hshallow
    omega
  | succ k ih =>
    intro n c' h hdeep
    have hc' := h.isOf hc
    refine gains_of_inner hc' hinline
      (fun x ev m hx hq => ⟨n, x, ev, ⟨c', m, h, hx, hq⟩, rfl⟩) fun x c'' hx hk => ?_
    refine ih (h.inner hx hk) ?_
    have hdepth := hk.depth_eq
    have hsame := hc'.depth_eq hx
    omega

end DispatchCall

namespace Dispatch

/-- Let events be handled at once, down to a depth that is not negative, and let the store look
workflows up and keep runs and marks. The dispatch of an event at the outermost level then returns,
whatever workflows are stored, and leaves the depth as it was, though for each emission the emitter
is called again. Dispatches are nested as deep as the bound at most. Every event that is emitted is
accounted for, and no event comes from elsewhere. -/
theorem handle_nested (o : Office) (d : Desk) (ev : Event) (hinline : o.settings.inline = true)
    (hbound : 0 ≤ o.settings.maxDepth) (ho : o.Serves) (hlimits : o.deadlines = [])
    (htop : d.depth = 0) (hev : d.Spent ev.id) :
    let top : DispatchCall := ⟨emitterFor o.settings, ev, o, d⟩
    (∀ f o' d', (emitterFor o.settings f).run o' d' =
      (do atOnce o.settings.maxDepth (emitterFor o.settings) (← Emitter.queue f)).run o' d') ∧
    ∃ r e, (handle ev).run o d = (.done r, e) ∧ e.depth = 0 ∧
      (∀ n c, top.Nests n c →
        (n : Int) ≤ o.settings.maxDepth ∧ c.desk.depth = n ∧ c.result.2.depth = n) ∧
      (∀ n x ev', top.EmitsAt n x ev' → x.Accounts ev' o.settings.maxDepth n e) ∧
      ∀ id ∈ e.eventIds, id ∈ d.eventIds ∨ ∃ n x ev', top.EmitsAt n x ev' ∧ ev'.id = id := by
  intro top
  have hc : top.IsOf o := ⟨rfl, .refl o, hev⟩
  have htop : top.desk.depth = 0 := htop
  refine ⟨run_emitterFor hinline, ?_⟩
  rcases hrun : top.result with ⟨r | failure | level, e⟩
  · have he : top.result.2 = e := by rw [hrun]
    refine ⟨r, e, hrun, ?_, fun n c hn => ?_, fun n x ev' hx => ?_, ?_⟩
    · rw [← he, hc.depth_result, htop]
    · have hdepth : c.desk.depth = n := by
        rw [hn.depth_eq hc, htop, Nat.zero_add]
      have hle := hn.depth_le hc (by rwa [htop])
      exact ⟨hdepth ▸ hle, hdepth, (hn.isOf hc).depth_result.trans hdepth⟩
    · rw [← he]
      by_cases hdeep : o.settings.maxDepth ≤ n
      · exact hx.accounts_of_deep hc hinline ho htop hdeep
      · exact hx.accounts_of_shallow hc hinline ho htop hdeep
    · rw [← he]
      exact DispatchCall.Nests.gains hc hinline o.settings.maxDepth.toNat .self (by omega)
  · have hfailed : top.result.1 = .failed failure := by rw [hrun]
    exact absurd hfailed (event_ne_failed ho.finds ho.marks failure)
  · -- There is no deadline that could cut the dispatch off.
    have hlevel := hc.timely (by rw [hrun])
    have hnone : top.office.deadlines = [] := hlimits
    simp only [hnone, List.length_nil] at hlevel
    omega

end Dispatch

/-- A workflow that sets itself off again. -/
def Workflow.echo : Workflow where
  id := "echo"
  slug := "echo"
  name := "Echo"
  trigger := "asked"
  steps := [
    { order := 1, name := "ask again", action := .toolCall,
      config := [("tool_name", .string "emit_event"),
        ("input_mapping", .object [("event_type", .string "asked")])] }]

namespace Dispatch

/-- Down to a depth of two, the workflow that sets itself off is run for three events, and a fourth
one waits. -/
theorem handle_nested_echo :
    let ev : Event := { (default : Event) with id := "event", type := "asked" }
    let o : Office := { settings := { inline := true, maxDepth := 2 } }
    let d : Desk := { store := {
      events := [ev], workflows := [Store.newRecord .echo (Timestamp.utc 0)]
      steps := Workflow.echo.steps.map fun s => ⟨s.name, "echo", s, Timestamp.utc 0⟩ } }
    let top : DispatchCall := ⟨emitterFor o.settings, ev, o, d⟩
    o.settings.inline = true ∧ 0 ≤ o.settings.maxDepth ∧ o.Serves ∧ o.deadlines = [] ∧
      d.depth = 0 ∧ d.Spent ev.id ∧
      ∃ r e, (handle ev).run o d = (.done r, e) ∧ e.depth = 0 ∧
        e.store.events.map (·.processed) = [true, true, true, false] ∧
        ∃ n x ev', top.EmitsAt n x ev' ∧ x.Accounts ev' 2 n e := by
  intro ev o d top
  have ho : o.Serves := ⟨rfl, rfl, rfl, rfl⟩
  have hev : d.Spent ev.id := .inl (List.mem_singleton_self _)
  have hbound : 0 ≤ o.settings.maxDepth := by decide
  obtain ⟨_, r, e, hrun, hdepth, _, haccounts, hall⟩ :=
    handle_nested o d ev rfl hbound ho rfl rfl hev
  have he : e = ((handle ev).run o d).2 := by rw [hrun]
  have hmarks : e.store.events.map (·.processed) = [true, true, true, false] := by
    rw [he]
    decide +kernel
  have hnew : freshId 3 ∈ e.eventIds := by
    rw [he]
    decide +kernel
  obtain hold | ⟨n, x, ev', hx, _⟩ := hall _ hnew
  · exact absurd hold (by decide +kernel)
  · exact ⟨rfl, hbound, ho, rfl, rfl, hev, r, e, hrun, hdepth, hmarks, n, x, ev', hx,
      haccounts n x ev' hx⟩

end Dispatch

end LeadDesk
