import LeadDesk.Proofs.Nesting
import LeadDesk.Proofs.Sessions
import Mathlib.Logic.Relation
/-!
# What comes back of a stored event

An event that is stored comes back with all that it says, and its moment of creation with what the
wall clock showed. Whatever the desk does afterwards (`Desk.Move`), it is found under its id with
that, and is as it was until it is marked as processed (`Desk.FindsEvent`). The offset of its clock
is not stored, and the moment comes back as one of universal time: it denotes the same instant
exactly when the clock showed universal time (`Archive.event_comes_back`).
-/

namespace LeadDesk

open LeadDesk.Action (Leads)
open Relation (ReflTransGen)

/-! ## What an event says -/

namespace Event

/-- The two events say the same of what has happened and whether it was processed. Their moments
are left out. -/
structure SaysSame (e f : Event) : Prop where
  id : f.id = e.id
  type : f.type = e.type
  entityType : f.entityType = e.entityType
  entityId : f.entityId = e.entityId
  teamId : f.teamId = e.teamId
  source : f.source = e.source
  processed : f.processed = e.processed
  payload : f.payload = e.payload

/-- The event as it was, or marked as processed at some moment. -/
def UntilMarked (e f : Event) : Prop :=
  f = e ∨ ∃ t, f = { e with processed := true, processedAt := some t }

theorem UntilMarked.trans {e f g : Event} (h : e.UntilMarked f) (k : f.UntilMarked g) :
    e.UntilMarked g := by
  obtain rfl | ⟨t, rfl⟩ := h
  · exact k
  · obtain rfl | ⟨t', rfl⟩ := k
    · exact .inr ⟨t, rfl⟩
    · exact .inr ⟨t', rfl⟩

theorem saysSame_storedEvent (e : Event) : e.SaysSame (Store.storedEvent e) :=
  ⟨rfl, rfl, rfl, rfl, rfl, rfl, rfl, rfl⟩

end Event

/-- A moment that is read as one of universal time denotes the instant that it denoted exactly when
it was one of universal time. -/
theorem Timestamp.instant_atUniversal_iff (t : Timestamp) :
    t.atUniversal.instant = t.instant ↔ t.offset.getD 0 = 0 := by
  simp only [instant, atUniversal, Option.getD_some]
  omega

/-! ## From one desk to another -/

namespace Desk

/-- The event that is found under an id is found there as it was, or marked as processed. -/
def FindsEvent (id : String) (d e : Desk) : Prop :=
  ∀ ev, d.store.event? id = some ev → ∃ row, e.store.event? id = some row ∧ ev.UntilMarked row

variable {id : String} {d e : Desk}

theorem findsEvent_of_events (h : e.store.events = d.store.events) : FindsEvent id d e :=
  fun ev hev => ⟨ev, by rwa [Store.event?, h], .inl rfl⟩

instance (id : String) : Trail (FindsEvent id) where
  quiet h := findsEvent_of_events h.events
  trans h k ev hev := by
    obtain ⟨_, hm, hkept⟩ := h ev hev
    obtain ⟨row, hrow, hkept'⟩ := k _ hm
    exact ⟨row, hrow, hkept.trans hkept'⟩
  deeper h := h

instance (id : String) : Overlooks (FindsEvent id) where
  withRun _ _ := findsEvent_of_events rfl
  withLog _ _ := findsEvent_of_events rfl
  withUpdate _ _ _ := findsEvent_of_events rfl

/-- Another event is stored behind the one that is found. -/
theorem findsEvent_withEvent (d : Desk) (new : Event) : FindsEvent id d (d.withEvent new) := by
  intro ev hev
  refine ⟨ev, ?_, .inl rfl⟩
  simp only [Store.event?] at hev
  simp [Store.event?, withEvent, List.find?_append, hev]

/-- A mark leaves the ids of events alone, so the one that is found is found again. -/
theorem findsEvent_withMark (d : Desk) (other : String) (now : Timestamp) :
    FindsEvent id d (d.withMark other now) := by
  intro ev hev
  let mark (e : Event) : Event :=
    if e.id == other then { e with processed := true, processedAt := some now.atUniversal } else e
  have hsame : ((fun e : Event => e.id == id) ∘ mark) = (fun e : Event => e.id == id) := by
    funext e
    simp only [Function.comp, mark]
    split <;> rfl
  refine ⟨mark ev, ?_, ?_⟩
  · show (d.store.events.map mark).find? (·.id == id) = some (mark ev)
    rw [List.find?_map, hsame]
    exact congrArg (Option.map mark) hev
  · simp only [mark]
    split
    · exact .inr ⟨_, rfl⟩
    · exact .inl rfl

end Desk

/-! ## Whatever the desk does -/

section

variable {b : Office} {R : Desk → Desk → Prop} [Desk.Trail R]

theorem Emitter.leads_queue_of_withEvent (hadd : ∀ d ev, R d (d.withEvent ev)) (f : FollowUp) :
    Leads (·.Like b) R (queue f) := by
  intro o d _
  rcases h : (queue f).run o d with ⟨ending, e⟩
  obtain ⟨_, _, hq, _⟩ | ⟨ev, _, rfl, _⟩ := queue_cases h
  · exact Desk.Trail.quiet hq
  · exact Desk.Trail.trans (Desk.Trail.quiet d.quiet_next) (hadd _ ev)

theorem Archive.leads_createEvent_of_withEvent (hadd : ∀ d ev, R d (d.withEvent ev))
    (given : Event) : Leads (·.Like b) R (createEvent given) := by
  intro o d _
  rcases h : (createEvent given).run o d with ⟨ending, e⟩
  obtain ⟨_, _, rfl, _⟩ | ⟨_, rfl, _⟩ := createEvent_cases h
  · exact Desk.Trail.refl e
  · exact hadd _ _

/-- An errand leads where further events, marks and saved workflows do, of what it writes about
runs apart. -/
theorem Errand.leads_of_overlooks [Desk.Overlooks R] (hadd : ∀ d ev, R d (d.withEvent ev))
    (hmark : ∀ d id now, R d (d.withMark id now))
    (hsave : ∀ w, Leads (·.Like b) R (Archive.saveWorkflow w)) (x : Errand) :
    Leads (·.Like b) R x.carryOut := by
  have hqueue : ∀ f, Leads (·.Like b) R (Emitter.queue f) :=
    Emitter.leads_queue_of_withEvent hadd
  have hallowed : ∀ em, b.settings.Allows em → ∀ f, Leads (·.Like b) R (em f) := by
    intro em hem f
    obtain rfl | ⟨_, levels, rfl⟩ := hem
    · exact hqueue f
    · exact Dispatch.overlooks_inline hqueue hmark _ levels f
  refine composes Leads.composes (T := (· = b.settings))
    (fun h => Action.leads_settings (fun _ ho => ho) h) hqueue
    (Archive.leads_createEvent_of_withEvent hadd) hsave ?_ ?_ x
  · rintro _ rfl em hem ev
    exact Dispatch.overlooks_event (hallowed em hem) (hmark · ev.id)
  · rintro _ rfl em hem w context
    exact Workflow.overlooks_run (hallowed em hem) w context "manual"

end

theorem Archive.findsEvent_saveWorkflow {b : Office} {id : String} (w : Workflow) :
    Leads (·.Like b) (Desk.FindsEvent id) (saveWorkflow w) := by
  intro o d _
  rcases h : (saveWorkflow w).run o d with ⟨ending, e⟩
  obtain ⟨_, _, hq⟩ | ⟨_, _, _, _, m, _, hs, hq, rfl⟩ := saveWorkflow_cases h
  · exact Desk.Trail.quiet hq
  · exact Desk.findsEvent_of_events (Store.saveWorkflow_eq_ok hs).1

theorem Turn.findsEvent {id : String} (t : Turn) (d : Desk) : Desk.FindsEvent id d (t.play d) := by
  have hidle : Desk.FindsEvent id d { d with clock := d.clock + t.idle } :=
    Desk.findsEvent_of_events rfl
  exact Desk.Trail.trans hidle (Errand.leads_of_overlooks Desk.findsEvent_withEvent
    (fun d other now => d.findsEvent_withMark other now) Archive.findsEvent_saveWorkflow t.errand
    t.office _ (Office.Like.refl _))

namespace Desk

/-- What may happen to the events of a desk: a turn is played, an event is stored or marked, or
they stay while anything else goes on. -/
inductive Move : Desk → Desk → Prop
  | turn (t : Turn) (d : Desk) : Move d (t.play d)
  | created (o : Office) (given : Event) (d : Desk) :
      Move d ((Archive.createEvent given).run o d).2
  | marked (o : Office) (id : String) (d : Desk) : Move d ((Archive.markProcessed id).run o d).2
  | other {d e : Desk} (events : e.store.events = d.store.events) : Move d e

variable {id : String} {d e : Desk}

theorem Move.findsEvent (h : Move d e) : FindsEvent id d e := by
  cases h with
  | turn t => exact t.findsEvent d
  | created o given =>
    exact Archive.leads_createEvent_of_withEvent findsEvent_withEvent given o d (Office.Like.refl o)
  | marked o other =>
    exact Dispatch.leads_markProcessed (findsEvent_withMark · other ·) o d (Office.Like.refl o)
  | other events => exact findsEvent_of_events events

theorem findsEvent_of_moves (h : ReflTransGen Move d e) : FindsEvent id d e := by
  induction h with
  | refl => exact Trail.refl d
  | tail _ move ih => exact Trail.trans ih move.findsEvent

end Desk

namespace Archive

variable {o : Office} {d : Desk} {e : Event}

/-- An event whose id is new is stored. -/
theorem run_createEvent (hfault : Action.faultOf o "create_event" = none)
    (hnew : d.store.event? e.id = none) : (createEvent e).run o d =
      (.done (Store.storedEvent e), d.withEvent (Store.storedEvent e)) := by
  simp [createEvent, Action.change, hfault, Store.addEvent, hnew]
  rfl

theorem run_getEvent {id : String} (hfault : Action.faultOf o "get_event" = none) :
    (getEvent id).run o d = (.done (d.store.event? id), d) := by
  simp only [getEvent, Action.query, hfault]

/-- **Stored events come back.** An event whose id is new is stored and comes back at once with all
that it says and what its clock showed, and so it does later under its id, as it was or marked as
processed, whatever the desk does in between. Its moment of creation denotes the same instant
exactly when its clock showed universal time. -/
theorem event_comes_back (hfault : Action.faultOf o "create_event" = none)
    (hnew : d.store.event? e.id = none) :
    ∃ kept m, (createEvent e).run o d = (.done kept, m) ∧ e.SaysSame kept ∧
      kept.processedAt = none ∧ kept.createdAt = Timestamp.utc e.createdAt.wall ∧
      (kept.createdAt.instant = e.createdAt.instant ↔ e.createdAt.offset.getD 0 = 0) ∧
      ∀ m' o', ReflTransGen Desk.Move m m' → Action.faultOf o' "get_event" = none →
        ∃ found, (getEvent e.id).run o' m' = (.done (some found), m') ∧ kept.UntilMarked found := by
  refine ⟨_, _, run_createEvent hfault hnew, e.saysSame_storedEvent, rfl, rfl,
    e.createdAt.instant_atUniversal_iff, fun m' o' hmoves hread => ?_⟩
  have hstored : (d.withEvent (Store.storedEvent e)).store.event? e.id =
      some (Store.storedEvent e) :=
    Store.event?_addEvent (s := d.store) (by simp [Store.addEvent, hnew]; rfl)
  obtain ⟨found, hfound, hkept⟩ := Desk.findsEvent_of_moves hmoves _ hstored
  exact ⟨found, by rw [run_getEvent hread, hfound], hkept⟩

/-- A call at half past eleven by a clock two hours ahead of universal time comes back as one at
half past eleven of universal time. -/
theorem event_comes_back_ahead :
    let call : Event := { (default : Event) with
      id := "call", type := "call", createdAt := ⟨41400000000, some 7200000000⟩ }
    ∃ kept m, (createEvent call).run {} {} = (.done kept, m) ∧ call.SaysSame kept ∧
      kept.createdAt.instant = 41400000000 ∧ call.createdAt.instant = 34200000000 ∧
      ∃ found, (getEvent "call").run {} m = (.done (some found), m) ∧ kept.UntilMarked found := by
  intro call
  obtain ⟨kept, m, hrun, hsame, -, hwall, -, hlater⟩ :=
    event_comes_back (o := {}) (d := {}) (e := call) rfl rfl
  exact ⟨kept, m, hrun, hsame, by rw [hwall]; rfl, rfl, hlater m {} .refl rfl⟩

end Archive

end LeadDesk
