import LeadDesk.Proofs.Permanence
/-!
# Events that ask to wait

The monitor and the dispatcher look at the moment that an event asks for in the same way: an event
is ready for the one exactly when the other, at the same instant, does not sleep for it. When the
dispatcher sleeps, it does so before anything is stored, for the time that is left
(`Dispatch.run_wait_of_not_ready`). As time goes on an event that is ready stays ready, so nothing
in a look of the monitor sleeps for an event as long as emitted events are queued: whatever is put
in the place of that sleep is not reached (`Monitor.run_pollBy`).
-/

namespace LeadDesk

open Relation (ReflTransGen)

namespace Action

/-! ## Sleep -/

/-- A sleep is noted, and nothing is stored in it. Only a deadline cuts it off. -/
theorem run_sleep (seconds : Double) (o : Office) (d : Desk) :
    ∃ ending m, (sleep seconds).run o d = (ending, m) ∧ m.store = d.store ∧
      m.journal = { d.journal with sleeps := d.journal.sleeps ++ [seconds] } ∧
      (o.deadlines = [] → ending = .done ()) := by
  let noted : Desk :=
    { d with journal := { d.journal with sleeps := d.journal.sleeps ++ [seconds] } }
  have hnoted : (note fun j => { j with sleeps := j.sleeps ++ [seconds] }).run o d =
      (.done (), noted) := rfl
  rw [sleep, run_bind_of_done hnoted]
  cases hnaps : d.script.naps with
  | nil =>
    have hnap : nextNap.run o noted = (.done 0, noted) := by
      simp only [nextNap, noted, hnaps]
    rw [run_bind_of_done hnap]
    exact ⟨.done (), noted, rfl, rfl, rfl, fun _ => rfl⟩
  | cons nap rest =>
    have hnap : nextNap.run o noted =
        (.done nap, { noted with script := { noted.script with naps := rest } }) := by
      simp only [nextNap, noted, hnaps]
    rw [run_bind_of_done hnap]
    cases nap with
    | zero => exact ⟨.done (), _, rfl, rfl, rfl, fun _ => rfl⟩
    | succ nap =>
      show ∃ ending m, (elapse (nap + 1)).run o _ = (ending, m) ∧ _
      unfold elapse
      dsimp only
      split
      · rename_i level time hfirst
        split
        · refine ⟨_, _, rfl, rfl, rfl, fun hnone => ?_⟩
          rw [hnone] at hfirst
          cases hfirst
        · exact ⟨_, _, rfl, rfl, rfl, fun _ => rfl⟩
      · exact ⟨_, _, rfl, rfl, rfl, fun _ => rfl⟩

/-- The clock goes on for some microseconds. -/
def goOn (micros : Nat) : Action Unit :=
  ⟨fun _ desk => (.done (), { desk with clock := desk.clock + micros })⟩

end Action

namespace Desk

theorem instant_utc (n : Int) : (Timestamp.utc n).instant = n := Int.sub_zero n

theorem Write.clock {d e : Desk} (h : Write d e) : d.clock ≤ e.clock := by
  cases h with
  | other _ _ hclock _ => exact hclock
  | opened _ _ => exact d.quiet_next.clock
  | logged _ _ => exact d.quiet_next.clock
  | closed _ => exact Int.le_refl _

/-- Time does not go back while runs and logs are written. -/
theorem clock_le_of_writes {d e : Desk} (h : ReflTransGen Write d e) : d.clock ≤ e.clock := by
  induction h with
  | refl => exact Int.le_refl _
  | tail _ hwrite ih => exact Int.le_trans ih hwrite.clock

/-- A clock that does not go back shows no earlier time later on. -/
theorem instant_le {d e : Desk} (hdial : d.ClockKeepsOn) (h : e.dial = d.dial)
    (hle : d.clock ≤ e.clock) : d.time.instant ≤ e.time.instant := by
  rw [time, time, instant_utc, instant_utc, h]
  exact hdial hle

/-- A clock that does not go back shows no earlier time after runs and logs are written. -/
theorem time_le_of_writes {d e : Desk} (hdial : d.ClockKeepsOn) (h : ReflTransGen Write d e) :
    d.time.instant ≤ e.time.instant :=
  instant_le hdial (dial_of_writes h) (clock_le_of_writes h)

end Desk

/-! ## The wait of a dispatch -/

namespace Dispatch

/-- Wait for an event with a given way to sleep. -/
def waitBy (pause : Double → Action Unit) (e : Event) : Action Unit := do
  if hasDelay e then
    let now ← Action.now
    let micros := delay e now
    if 0 < micros then pause (secondsOf micros)

/-- What follows the wait: the runs for the event and its mark. -/
def serve (emitter : Emitter) (e : Event) : Action DispatchResult := do
  match ← Archive.activeWorkflows e.type with
  | [] =>
    Archive.markProcessed e.id
    return noMatch e
  | w :: rest =>
    let outcomes ← runAll emitter e (w :: rest)
    Archive.markProcessed e.id
    return { eventId := some e.id, workflowsRun := outcomes.length, results := outcomes }

/-- Handle an event with a given way to sleep for it. -/
def eventBy (pause : Double → Action Unit) (emitter : Emitter) (e : Event) :
    Action DispatchResult := do
  if e.processed then return alreadyProcessed e
  waitBy pause e
  serve emitter e

theorem waitBy_sleep (e : Event) : waitBy Action.sleep e = wait e := rfl

theorem eventBy_sleep (emitter : Emitter) (e : Event) :
    eventBy Action.sleep emitter e = event emitter e := rfl

theorem eventBy_of_open {e : Event} (h : e.processed = false) (pause : Double → Action Unit)
    (emitter : Emitter) :
    eventBy pause emitter e = waitBy pause e >>= fun _ => serve emitter e := by
  rw [eventBy, h]
  rfl

variable {e : Event} {o : Office} {d : Desk} {pause : Double → Action Unit}

theorem run_waitBy (h : hasDelay e = true) :
    (waitBy pause e).run o d =
      (if 0 < delay e d.time then
          pause (secondsOf (delay e d.time))
        else pure ()).run o { d with clock := d.clock + 1 } := by
  rw [waitBy, if_pos h]
  rfl

/-- An event that is ready is not slept for. -/
theorem run_waitBy_of_ready (h : Monitor.isReady e d.time = true) :
    (waitBy pause e).run o d =
      (.done (), if hasDelay e then { d with clock := d.clock + 1 } else d) := by
  have hnone : delay e d.time = 0 := (Monitor.isReady_iff e _).1 h
  by_cases hasks : hasDelay e = true
  · rw [run_waitBy hasks, hnone, if_pos hasks]
    rfl
  · rw [waitBy, if_neg hasks, if_neg hasks]
    rfl

/-- An event that is not ready asks for a later moment. -/
theorem exists_later (h : Monitor.isReady e d.time = false) :
    ∃ t, e.delayUntil = .ok (some t) ∧ d.time.instant < t.instant := by
  unfold Monitor.isReady at h
  split at h
  · rename_i t ht
    exact ⟨t, ht, by simpa using h⟩
  · cases h

/-- An event whose moment is to come is slept for as long as that takes. -/
theorem run_waitBy_of_later {t : Timestamp} (ht : e.delayUntil = .ok (some t))
    (h : d.time.instant < t.instant) :
    (waitBy pause e).run o d =
      (pause (secondsOf (t.instant - d.time.instant))).run o { d with clock := d.clock + 1 } := by
  have hasks : hasDelay e = true := by rw [hasDelay, ht]
  have hdelay : delay e d.time = t.instant - d.time.instant := by
    simp only [delay, ht]
    omega
  rw [run_waitBy hasks, hdelay, if_pos (by omega)]

/-- An event that is not ready is slept for once, for the time that is left. Nothing is stored
before. -/
theorem run_wait_of_not_ready (h : Monitor.isReady e d.time = false) :
    ∃ t ending m, e.delayUntil = .ok (some t) ∧ d.time.instant < t.instant ∧
      (wait e).run o d = (ending, m) ∧
      (Action.sleep (secondsOf (t.instant - d.time.instant))).run o
        { d with clock := d.clock + 1 } = (ending, m) ∧
      m.store = d.store ∧
      m.journal.sleeps = d.journal.sleeps ++ [secondsOf (t.instant - d.time.instant)] ∧
      (o.deadlines = [] → ending = .done ()) := by
  obtain ⟨t, ht, hlater⟩ := exists_later h
  have hrun : (waitBy Action.sleep e).run o d = _ := run_waitBy_of_later ht hlater
  obtain ⟨ending, m, hsleep, hstore, hjournal, hdone⟩ :=
    Action.run_sleep (secondsOf (t.instant - d.time.instant)) o { d with clock := d.clock + 1 }
  rw [waitBy_sleep, hsleep] at hrun
  exact ⟨t, ending, m, ht, hlater, hrun, hsleep, hstore, by rw [hjournal], hdone⟩

/-- A dispatch whose events are queued only writes runs and logs one by one. -/
theorem writes_event (e : Event) (o : Office) (d : Desk) :
    ReflTransGen Desk.Write d ((event Emitter.queue e).run o d).2 :=
  (minds_event Emitter.minds_queue e o d (Office.Like.refl o)).writes (by simp)

/-- It does not matter how an event that is ready would be slept for. -/
theorem run_eventBy_of_ready (h : Monitor.isReady e d.time = true)
    (pause : Double → Action Unit) (emitter : Emitter) :
    (eventBy pause emitter e).run o d = (event emitter e).run o d := by
  rw [← eventBy_sleep]
  cases hopen : e.processed with
  | true =>
    rw [eventBy, eventBy, hopen]
    rfl
  | false =>
    rw [eventBy_of_open hopen, eventBy_of_open hopen,
      Action.run_bind_of_done (run_waitBy_of_ready h),
      Action.run_bind_of_done (run_waitBy_of_ready h)]

end Dispatch

/-! ## The looks of the monitor -/

namespace Monitor

/-- An event that is ready stays ready. -/
theorem isReady_later {e : Event} {now later : Timestamp} (h : isReady e now = true)
    (hle : now.instant ≤ later.instant) : isReady e later = true := by
  unfold isReady at h ⊢
  split
  · rename_i t ht
    rw [ht] at h
    exact decide_eq_true (Int.le_trans (of_decide_eq_true h) hle)
  · rfl

/-- Handle the events that are ready with a given way to sleep for an event. Before each of them
the clock goes on by as much as is said for the events that are left. -/
def handleReadyBy (pause : Double → Action Unit) (idle : List Event → Nat) (now : Timestamp) :
    List Event → Action (List DispatchResult)
  | [] => return []
  | e :: rest => do
    if isReady e now then
      Action.goOn (idle (e :: rest))
      match ← Action.attempt (do Dispatch.eventBy pause (← Dispatch.emitter) e) with
      | .ok result => return result :: (← handleReadyBy pause idle now rest)
      | .error _ => handleReadyBy pause idle now rest
    else handleReadyBy pause idle now rest

/-- Look once for events with a given way to sleep for an event. -/
def pollBy (pause : Double → Action Unit) (idle : List Event → Nat) (size : Option Int) :
    Action (List DispatchResult) := do
  let settings ← Action.settings
  let events ← Archive.unprocessedEvents (some (batch settings size))
  handleReadyBy pause idle (← Action.now) events

variable {o : Office} {d : Desk}

/-- Without delays between the events and with the sleep of the desk, this is the look of the
monitor. -/
theorem run_handleReadyBy_sleep (now : Timestamp) (es : List Event) (o : Office) (d : Desk) :
    (handleReadyBy Action.sleep (fun _ => 0) now es).run o d = (handleReady now es).run o d := by
  induction es generalizing d with
  | nil => rfl
  | cons e rest ih =>
    unfold handleReadyBy handleReady
    split
    · have hstart : (Action.goOn 0).run o d = (.done (), d) := by
        simp [Action.goOn]
      rw [Action.run_bind_of_done hstart]
      refine Action.run_bind_congr rfl fun result m _ => ?_
      cases result with
      | ok result => exact Action.run_bind_congr (ih m) fun _ _ _ => rfl
      | error _ => exact ih m
    · exact ih d

theorem run_pollBy_sleep (size : Option Int) (o : Office) (d : Desk) :
    (pollBy Action.sleep (fun _ => 0) size).run o d = (poll size).run o d :=
  Action.run_bind_congr rfl fun _ _ _ => Action.run_bind_congr rfl fun events _ _ =>
    Action.run_bind_congr rfl fun now m _ => run_handleReadyBy_sleep now events o m

/-- With queued events and a clock that does not go back, no sleep for an event is reached from the
moment on at which the events are looked at. -/
theorem run_handleReadyBy (hq : o.settings.inline = false) (hdial : d.ClockKeepsOn)
    (pause pause' : Double → Action Unit) (idle : List Event → Nat) (es : List Event)
    {now : Timestamp} (hle : now.instant ≤ d.time.instant) :
    (handleReadyBy pause idle now es).run o d = (handleReadyBy pause' idle now es).run o d := by
  induction es generalizing d with
  | nil => rfl
  | cons e rest ih =>
    unfold handleReadyBy
    split
    · rename_i hready
      let m : Desk := { d with clock := d.clock + idle (e :: rest) }
      have hstart : (Action.goOn (idle (e :: rest))).run o d = (.done (), m) := rfl
      have hclock : d.clock ≤ m.clock := by
        show d.clock ≤ d.clock + idle (e :: rest)
        omega
      have hmoment : now.instant ≤ m.time.instant :=
        Int.le_trans hle (Desk.instant_le hdial rfl hclock)
      have hquiet : isReady e m.time = true := isReady_later hready hmoment
      have hemitter : Dispatch.emitter.run o m = (.done Emitter.queue, m) := by
        show (Ending.done (Dispatch.emitterFor o.settings), m) = _
        rw [Dispatch.emitterFor, hq]
        rfl
      have hhandle (pause : Double → Action Unit) :
          (do Dispatch.eventBy pause (← Dispatch.emitter) e).run o m =
            (Dispatch.event Emitter.queue e).run o m := by
        rw [Action.run_bind_of_done hemitter, Dispatch.run_eventBy_of_ready hquiet]
      rw [Action.run_bind_of_done hstart, Action.run_bind_of_done hstart]
      refine Action.run_bind_congr ?_ fun result after hafter => ?_
      · rw [Action.run_attempt, Action.run_attempt, hhandle, hhandle]
      · -- The clock has not gone back in the meantime.
        have hwrites := Dispatch.writes_event e o m
        rw [← hhandle pause', ← Action.desk_attempt, hafter] at hwrites
        have hm : m.ClockKeepsOn := hdial
        have hdial' : after.ClockKeepsOn := hm.of_dial_eq (Desk.dial_of_writes hwrites)
        have hlater : now.instant ≤ after.time.instant :=
          Int.le_trans hmoment (Desk.time_le_of_writes hm hwrites)
        cases result with
        | ok result => exact Action.run_bind_congr (ih hdial' hlater) fun _ _ _ => rfl
        | error _ => exact ih hdial' hlater
    · exact ih hdial hle

theorem run_pollBy (hq : o.settings.inline = false) (hdial : d.ClockKeepsOn)
    (pause pause' : Double → Action Unit) (idle : List Event → Nat) (size : Option Int) :
    (pollBy pause idle size).run o d = (pollBy pause' idle size).run o d := by
  refine Action.run_bind_congr rfl fun _ started hsettings => ?_
  obtain rfl : d = started := congrArg Prod.snd hsettings
  refine Action.run_bind_congr rfl fun events m hread => ?_
  obtain rfl : m = d := (Archive.unprocessedEvents_cases hread).1
  refine Action.run_bind_congr rfl fun now after hnow => ?_
  obtain ⟨rfl, rfl⟩ : m.time = now ∧ { m with clock := m.clock + 1 } = after := by
    simpa [Action.now] using hnow
  refine run_handleReadyBy (d := { m with clock := m.clock + 1 }) hq hdial pause pause' idle
    events (Desk.instant_le hdial rfl ?_)
  show m.clock ≤ m.clock + 1
  omega

/-- The monitor and the dispatcher agree on delays, whatever an event asks for. At any moment an
event is ready for the monitor exactly when the wait of a dispatch sleeps for nothing. If it is not
ready, its wait sleeps once, for as long as its own moment is to come, with nothing stored before;
the wait comes first in the dispatch of an event, whatever emits the events of its runs. With queued
events and a clock that does not go back, a look of the monitor never comes to sleep for an event,
whatever sleep would be put there and however much time passes between two events. -/
theorem delays_agree (e : Event) (now : Timestamp) (o : Office) (d : Desk) :
    (d.time.instant = now.instant →
      (isReady e now = true ↔
        ((Dispatch.wait e).run o d).2.journal.sleeps = d.journal.sleeps) ∧
      (isReady e now = false → ∃ t ending after, e.delayUntil = .ok (some t) ∧
        now.instant < t.instant ∧
        (Dispatch.wait e).run o d = (ending, after) ∧
        (Action.sleep (Dispatch.secondsOf (t.instant - now.instant))).run o
          { d with clock := d.clock + 1 } = (ending, after) ∧
        after.store = d.store ∧
        after.journal.sleeps =
          d.journal.sleeps ++ [Dispatch.secondsOf (t.instant - now.instant)] ∧
        (o.deadlines = [] → ending = .done ()))) ∧
    (e.processed = false → ∀ emitter,
      Dispatch.event emitter e = Dispatch.wait e >>= fun _ => Dispatch.serve emitter e) ∧
    ∀ size, (pollBy Action.sleep (fun _ => 0) size).run o d = (poll size).run o d ∧
      (o.settings.inline = false → d.ClockKeepsOn → ∀ pause idle,
        (pollBy pause idle size).run o d = (pollBy Action.sleep idle size).run o d) := by
  refine ⟨fun hnow => ?_,
    fun hopen emitter => Dispatch.eventBy_of_open hopen Action.sleep emitter,
    fun size => ⟨run_pollBy_sleep size o d,
      fun hq hdial pause idle => run_pollBy hq hdial pause _ idle size⟩⟩
  have hsame : isReady e now = isReady e d.time := by
    unfold isReady
    rw [hnow]
  rw [hsame, ← hnow]
  refine ⟨⟨fun h => ?_, fun h => ?_⟩, Dispatch.run_wait_of_not_ready⟩
  · rw [← Dispatch.waitBy_sleep, Dispatch.run_waitBy_of_ready h]
    split <;> rfl
  · -- A wait that is not ready adds to the sleeps.
    by_contra hready
    obtain ⟨t, _, _, _, _, hrun, _, _, hsleeps, _⟩ :=
      Dispatch.run_wait_of_not_ready (o := o) (Bool.eq_false_iff.2 hready)
    rw [hrun, hsleeps] at h
    exact List.cons_ne_nil _ _ (List.append_right_eq_self.1 h)

/-- An event asks to wait until five and a half seconds past midnight in Greenwich, on a clock two
hours ahead. At midnight it is slept for five and a half seconds, at the moment itself it is ready,
and a look that would hang instead of sleeping does not hang for it. -/
theorem delays_agree_reminder :
    let e : Event :=
      { id := "1", type := "call.due", entityType := none, entityId := none,
        payload := [("delay_until", "1970-01-01T02:00:05.500000+02:00")], teamId := none,
        source := none, processed := false, processedAt := none, createdAt := .utc 0 }
    let o : Office := {}
    (isReady e (.utc 0) = false ∧
      ((Dispatch.wait e).run o { clock := 0 }).2.journal.sleeps =
        [Dispatch.secondsOf 5500000] ∧
      ∀ emitter,
        Dispatch.event emitter e = Dispatch.wait e >>= fun _ => Dispatch.serve emitter e) ∧
    (isReady e (.utc 5500000) = true ∧
      ((Dispatch.wait e).run o { clock := 5500000 }).2.journal.sleeps = []) ∧
    (pollBy (fun _ => Action.hang) (fun _ => 3) none).run o { clock := 5500000 } =
      (pollBy Action.sleep (fun _ => 3) none).run o { clock := 5500000 } := by
  intro e o
  have hdelay : e.delayUntil = .ok (some ⟨7205500000, some 7200000000⟩) := by decide +kernel
  have hearly : isReady e (.utc 0) = false := by decide +kernel
  have hready : isReady e (.utc 5500000) = true := by decide +kernel
  obtain ⟨hmidnight, hfirst, -⟩ := delays_agree e (.utc 0) o { clock := 0 }
  obtain ⟨hmoment, -, hlook⟩ := delays_agree e (.utc 5500000) o { clock := 5500000 }
  obtain ⟨-, hsleeps⟩ := hmidnight rfl
  obtain ⟨hquiet, -⟩ := hmoment rfl
  obtain ⟨t, _, _, ht, -, hrun, -, -, hone, -⟩ := hsleeps hearly
  obtain rfl : (⟨7205500000, some 7200000000⟩ : Timestamp) = t :=
    Option.some.inj (Except.ok.inj (hdelay.symm.trans ht))
  refine ⟨⟨hearly, ?_, hfirst rfl⟩, ⟨hready, hquiet.1 hready⟩,
    (hlook none).2 rfl (fun _ _ h => h) _ _⟩
  exact (congrArg (·.2.journal.sleeps) hrun).trans hone

end Monitor

end LeadDesk
