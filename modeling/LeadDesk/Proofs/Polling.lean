import LeadDesk.Proofs.Backlog
/-!
# What one look of the monitor handles

A look takes the oldest events that wait, as many as its batch holds, and handles those of them
that are ready, each whatever became of those before (`Monitor.Handled`). Events that are not ready
keep their places in the batch. So a look comes to a ready event exactly when the oldest ready one
is among the first of all that wait (`Monitor.poll_progress`): as many older events that ask to wait
as the batch holds keep every ready event out of the look.
-/

namespace LeadDesk

namespace Dispatch

/-- Where no deadline is set, the handling of an event is not cut off. -/
theorem handle_ne_cut {o : Office} (hlimits : o.deadlines = []) (ev : Event) (d : Desk)
    (level : Nat) : ((handle ev).run o d).1 ≠ .cut level := by
  intro hcut
  have hem := allows_emitterFor o.settings
  have hlevel := timely_event (fun f => (hem.timely f).punctual) ev o d level hcut
  simp only [hlimits, List.length_nil] at hlevel
  omega

/-- Where the store serves as well, it returns the result for its event. -/
theorem exists_result {o : Office} (hlimits : o.deadlines = []) (ho : o.Serves) {ev : Event}
    (hopen : ev.processed = false) (d : Desk) :
    ∃ r e, (handle ev).run o d = (.done r, e) ∧ r.eventId = some ev.id := by
  have hem := allows_emitterFor o.settings
  obtain ⟨r, _, _, _, e, hrun, htells, _⟩ :=
    event_returns (d := d) (fun f => (hem.timely f).punctual) hlimits ho hopen
  exact ⟨r, e, hrun, htells.eventId⟩

end Dispatch

/-- A limit that the store cannot hold is refused. -/
theorem Archive.unprocessedEvents_of_large {o : Office} {d : Desk} {n : Int}
    (hlists : Action.faultOf o "list_unprocessed_events" = none) (hfits : Column.fits n = false) :
    (unprocessedEvents (some n)).run o d = (.failed .tooLarge, d) :=
  run_ask_of_large hlists hfits

namespace Monitor

/-- Events are handled in turn from one desk to another. A failure leaves its event out of the
results and does not keep the next event from being handled. -/
inductive Handled (o : Office) : Desk → List Event → List DispatchResult → Desk → Prop
  | nil {d : Desk} : Handled o d [] [] d
  | told {d m e : Desk} {ev : Event} {r : DispatchResult} {es : List Event}
      {rs : List DispatchResult} (handles : (Dispatch.handle ev).run o d = (.done r, m))
      (rest : Handled o m es rs e) : Handled o d (ev :: es) (r :: rs) e
  | lost {d m e : Desk} {ev : Event} {failure : Failure} {es : List Event}
      {rs : List DispatchResult} (fails : (Dispatch.handle ev).run o d = (.failed failure, m))
      (rest : Handled o m es rs e) : Handled o d (ev :: es) rs e

/-- The events that a look is for: of the oldest ones that wait, as many as its batch holds, those
that are ready. -/
def chosen (s : Store) (size : Int) (now : Timestamp) : List Event :=
  (s.unprocessed (some size)).filter (isReady · now)

variable {o : Office} {d e : Desk}

/-- Where the store serves, no result is left out. -/
theorem Handled.eventIds {es : List Event} {rs : List DispatchResult}
    (h : Handled o d es rs e) (hlimits : o.deadlines = []) (ho : o.Serves)
    (hopen : ∀ ev ∈ es, ev.processed = false) : rs.map (·.eventId) = es.map (some ·.id) := by
  induction h with
  | nil => rfl
  | @told d _ _ ev _ _ _ handles _ ih =>
    obtain ⟨hev, hrest⟩ := List.forall_mem_cons.1 hopen
    obtain ⟨_, _, hrun, hid⟩ := Dispatch.exists_result hlimits ho hev d
    obtain rfl := Ending.done.inj (Prod.mk.inj (hrun.symm.trans handles)).1
    rw [List.map_cons, List.map_cons, hid, ih hrest]
  | @lost d _ _ ev _ _ _ fails _ _ =>
    obtain ⟨_, _, hrun, _⟩ := Dispatch.exists_result hlimits ho (hopen ev List.mem_cons_self) d
    rw [hrun] at fails
    cases (Prod.mk.inj fails).1

/-- The ready events of a batch are handled, and no others. -/
theorem exists_handled (hlimits : o.deadlines = []) (now : Timestamp) (es : List Event) :
    ∀ d, ∃ rs e, (handleReady now es).run o d = (.done rs, e) ∧
      Handled o d (es.filter (isReady · now)) rs e := by
  induction es with
  | nil => exact fun d => ⟨[], d, rfl, .nil⟩
  | cons ev rest ih =>
    intro d
    unfold handleReady
    by_cases hready : isReady ev now = true
    · rw [if_pos hready, List.filter_cons, if_pos hready]
      rcases hrun : (Dispatch.handle ev).run o d with ⟨r | failure | level, m⟩
      · obtain ⟨rs, e, hrest, hhandled⟩ := ih m
        refine ⟨r :: rs, e, ?_, .told hrun hhandled⟩
        rw [Action.run_bind_of_done (Action.run_attempt_eq_ok.2 hrun)]
        exact Action.run_bind_of_done hrest
      · obtain ⟨rs, e, hrest, hhandled⟩ := ih m
        refine ⟨rs, e, ?_, .lost hrun hhandled⟩
        rw [Action.run_bind_of_done (Action.run_attempt_eq_error.2 hrun)]
        exact hrest
      · exact absurd (by rw [hrun]) (Dispatch.handle_ne_cut hlimits ev d level)
    · rw [if_neg hready, List.filter_cons, if_neg hready]
      exact ih d

/-- A look at a batch that the store can hold handles the events that it is for. -/
theorem run_poll (size : Option Int) (hlimits : o.deadlines = [])
    (hlists : Action.faultOf o "list_unprocessed_events" = none)
    (hfits : Column.fits (batch o.settings size) = true) :
    ∃ rs e, (poll size).run o d = (.done rs, e) ∧
      Handled o { d with clock := d.clock + 1 }
        (chosen d.store (batch o.settings size) d.time) rs e := by
  have hfound : (Archive.unprocessedEvents (some (batch o.settings size))).run o d =
      (.done (d.store.unprocessed (some (batch o.settings size))), d) :=
    Archive.run_unprocessedEvents hlists (by simpa using hfits)
  obtain ⟨rs, e, hrun, hhandled⟩ := exists_handled hlimits d.time
    (d.store.unprocessed (some (batch o.settings size))) { d with clock := d.clock + 1 }
  refine ⟨rs, e, ?_, hhandled⟩
  show (Archive.unprocessedEvents (some (batch o.settings size)) >>= fun events =>
    Action.now >>= fun now => handleReady now events).run o d = (.done rs, e)
  rw [Action.run_bind_of_done hfound]
  exact hrun

/-- A look is for some event exactly when the oldest ready one is within the batch. -/
theorem chosen_ne_nil_iff {s : Store} {size : Int} {now : Timestamp} (hsize : 0 ≤ size)
    (hready : ∃ ev ∈ s.pending, isReady ev now = true) :
    chosen s size now ≠ [] ↔ s.pending.findIdx (isReady · now) < size := by
  have hlater : s.pending.findIdx (isReady · now) < s.pending.length :=
    List.findIdx_lt_length.2 hready
  have hbatch : s.unprocessed (some size) = s.pending.take size.toNat :=
    if_neg (Int.not_lt.2 hsize)
  calc chosen s size now ≠ []
      ↔ ∃ ev ∈ s.pending.take size.toNat, isReady ev now = true := by
        simp [chosen, hbatch, List.filter_eq_nil_iff]
    _ ↔ s.pending.findIdx (isReady · now) < size := by
        rw [← List.findIdx_lt_length, List.findIdx_take, List.length_take]
        omega

/-- The events that a look is for are not processed. -/
theorem open_of_chosen {s : Store} {size : Int} {now : Timestamp} {ev : Event}
    (hev : ev ∈ chosen s size now) : ev.processed = false := by
  have hlisted : ev ∈ s.unprocessed (some size) := List.mem_of_mem_filter hev
  have hpending : ev ∈ s.pending := by
    unfold Store.unprocessed Row.upTo at hlisted
    dsimp only at hlisted
    split at hlisted
    · exact hlisted
    · exact List.mem_of_mem_take hlisted
  simpa using (List.mem_filter.1 ((List.mergeSort_perm _ _).subset hpending)).2

/-- One look of the monitor with a batch of at least one event. If the store can hold the size of
the batch, the look returns and has handled the ready events among the oldest ones that wait; where
some event is ready, it has handled one exactly when fewer events than the batch holds wait before
the oldest ready one. A larger batch is refused and nothing is handled. -/
theorem poll_progress (o : Office) (d : Desk) (size : Option Int) (hlimits : o.deadlines = [])
    (hlists : Action.faultOf o "list_unprocessed_events" = none)
    (hsize : 1 ≤ batch o.settings size) :
    let now := d.time
    let ready := chosen d.store (batch o.settings size) now
    (batch o.settings size < 2 ^ 63 →
      (∃ rs e, (poll size).run o d = (.done rs, e) ∧
        Handled o { d with clock := d.clock + 1 } ready rs e ∧
        (o.Serves → rs.map (·.eventId) = ready.map (some ·.id))) ∧
      ((∃ ev ∈ d.store.pending, isReady ev now = true) →
        (ready ≠ [] ↔ d.store.pending.findIdx (isReady · now) < batch o.settings size))) ∧
    (2 ^ 63 ≤ batch o.settings size → (poll size).run o d = (.failed .tooLarge, d)) := by
  intro now ready
  have hpower : (twoTo 63 : Int) = 2 ^ 63 := rfl
  refine ⟨fun hmax => ⟨?_, chosen_ne_nil_iff (by omega)⟩, fun hbeyond => ?_⟩
  · have hfits : Column.fits (batch o.settings size) = true := by
      simp only [Column.fits, hpower, Bool.and_eq_true, decide_eq_true_eq]
      omega
    obtain ⟨rs, e, hrun, hhandled⟩ := run_poll (d := d) size hlimits hlists hfits
    exact ⟨rs, e, hrun, hhandled,
      fun ho => hhandled.eventIds hlimits ho fun ev hev => open_of_chosen hev⟩
  · have hfits : Column.fits (batch o.settings size) = false := by
      simp only [Column.fits, hpower, Bool.and_eq_false_iff, decide_eq_false_iff_not]
      omega
    have hrefused := Archive.unprocessedEvents_of_large (d := d) hlists hfits
    show (Archive.unprocessedEvents (some (batch o.settings size)) >>= fun events =>
      Action.now >>= fun now => handleReady now events).run o d = (.failed .tooLarge, d)
    exact Action.run_bind_of_failed hrefused

/-- An event that asks to wait until the year 2030 keeps a batch of one from a younger event that is
ready; a batch of two holds both. -/
theorem poll_progress_delayed :
    let delayed : Event := { (default : Event) with
      id := "delayed", payload := [("delay_until", .string "2030-01-01T00:00:00Z")],
      createdAt := Timestamp.utc 3 }
    let young : Event := { (default : Event) with id := "young", createdAt := Timestamp.utc 7 }
    let d : Desk := { store := { events := [delayed, young] }, clock := 10 }
    let now := Timestamp.utc 10
    d.store.pending.findIdx (isReady · now) = 1 ∧
      (∃ e, (poll (some 1)).run {} d = (.done [], e)) ∧
      (∃ rs e, (poll (some 2)).run {} d = (.done rs, e) ∧ rs.map (·.eventId) = [some "young"]) := by
  intro delayed young d now
  have hserves : ({} : Office).Serves := ⟨rfl, rfl, rfl, rfl⟩
  have hpending : d.store.pending = [delayed, young] :=
    Store.pending_unique (by decide) (.refl _) (by simp [delayed, young, Timestamp.utc])
  have hdelayed : isReady delayed now = false := by decide +kernel
  have hyoung : isReady young now = true := by decide +kernel
  have hplace : d.store.pending.findIdx (isReady · now) = 1 := by
    simp [hpending, List.findIdx_cons, hdelayed, hyoung]
  have hone : chosen d.store 1 now = [] := by
    simp [chosen, Store.unprocessed, Row.upTo, hpending, hdelayed]
  have htwo : chosen d.store 2 now = [young] := by
    simp [chosen, Store.unprocessed, Row.upTo, hpending, hdelayed, hyoung]
  refine ⟨hplace, ?_, ?_⟩
  · obtain ⟨⟨rs, e, hrun, _, hids⟩, _⟩ :=
      (poll_progress {} d (some 1) rfl rfl (by decide)).1 (by decide)
    have hnone : rs = [] :=
      List.map_eq_nil_iff.1 ((hids hserves).trans (congrArg (List.map _) hone))
    exact ⟨e, hnone ▸ hrun⟩
  · obtain ⟨⟨rs, e, hrun, _, hids⟩, _⟩ :=
      (poll_progress {} d (some 2) rfl rfl (by decide)).1 (by decide)
    exact ⟨rs, e, hrun, (hids hserves).trans (congrArg (List.map _) htwo)⟩

end Monitor

end LeadDesk
