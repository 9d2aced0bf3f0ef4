import LeadDesk.Proofs.Sessions
import Mathlib.Data.List.Chain
/-!
# Finished runs

A run that is completed, stopped or failed stays as it is, and so does its log, whatever the desk
does afterwards; entries of logs are added and never changed or taken away (`Desk.sealed_after`).
Runs and logs are written in three ways only (`Desk.Write`): a run is opened, a run that is under
way gets an entry in its log, or it is closed. A run within which others are opened and closed is
itself under way all the while (`Desk.Minds`).
-/

namespace LeadDesk

open LeadDesk.Action (Leads Tame)
open Relation (ReflTransGen)

/-- The run is completed, stopped or failed. -/
def Run.IsFinished (r : Run) : Prop :=
  r.status = .completed ∨ r.status = .stopped ∨ r.status = .failed

theorem Run.isFinished_iff {r : Run} : r.IsFinished ↔ r.status ≠ .running := by
  unfold IsFinished
  cases r.status <;> simp

namespace Desk

/-! ## Single writes -/

/-- A run with the id is stored, and it is running. -/
structure UnderWay (d : Desk) (id : String) : Prop where
  hasRun : d.HasRun id
  running : ∀ r ∈ d.store.runs, r.id = id → r.status = .running

/-- A single change of runs and logs, or of anything else. -/
inductive Write : Desk → Desk → Prop
  /-- Runs and logs stay as they are while time goes on. -/
  | other {d e : Desk} (runs : e.store.runs = d.store.runs) (logs : e.store.logs = d.store.logs)
      (clock : d.clock ≤ e.clock) (dial : e.dial = d.dial) : Write d e
  /-- A run is opened under an id that no stored run has. -/
  | opened {d : Desk} {r : Run} (isNew : ¬ d.HasRun r.id) (running : r.status = .running) :
      Write d (d.next.withRun r)
  /-- A run that is under way gets an entry in its log, with the present as its moment. -/
  | logged {d : Desk} {l : RunLog} (underWay : d.UnderWay l.runId)
      (moment : l.executedAt.wall = d.time.wall) : Write d (d.next.withLog l)
  /-- A run that is under way is closed, with the present as its end. -/
  | closed {d : Desk} {id : String} {p : Progress} (underWay : d.UnderWay id) :
      Write d (d.withUpdate id (p.closing d.time))

/-- From one desk to another every finished run stays as it is and where it is, the log is only
added to, and finished runs get no further entries. -/
structure Sealed (d e : Desk) : Prop where
  runs : ∀ (i : Nat) (r : Run), d.store.runs[i]? = some r → r.IsFinished →
    e.store.runs[i]? = some r
  ids : d.runIds <+: e.runIds
  logs : ∃ more, e.store.logs = d.store.logs ++ more ∧
    ∀ l ∈ more, ∀ r ∈ d.store.runs, r.IsFinished → l.runId ≠ r.id

/-- Every entry of a log is older than the present, and older than the end of its run. -/
structure Dated (d : Desk) : Prop where
  past : ∀ l ∈ d.store.logs, l.executedAt.wall < d.time.wall
  ended : ∀ r ∈ d.store.runs, r.IsFinished → ∀ t, r.completedAt = some t →
    ∀ l ∈ d.store.logs, l.runId = r.id → l.executedAt.wall < t.wall

variable {d e f : Desk} {id : String}

theorem UnderWay.of_runs (h : d.UnderWay id) (hr : e.store.runs = d.store.runs) :
    e.UnderWay id where
  hasRun := by
    obtain ⟨r, hmem, hid⟩ := h.hasRun
    exact ⟨r, hr ▸ hmem, hid⟩
  running := hr ▸ h.running

/-- A run that is opened is under way, and so are those that were. -/
theorem UnderWay.withRun {r : Run} (h : d.UnderWay id ∨ ¬ d.HasRun id ∧ r.id = id)
    (hs : r.status = .running) : (d.withRun r).UnderWay id where
  hasRun := by
    rcases h with h | ⟨_, hid⟩
    · obtain ⟨old, hmem, hid⟩ := h.hasRun
      exact ⟨old, List.mem_append_left _ hmem, hid⟩
    · exact ⟨r, List.mem_append_right _ (List.mem_singleton_self r), hid⟩
  running r' hr' hid' := by
    rcases List.mem_append.1 hr' with hr' | hr'
    · rcases h with h | ⟨hnew, _⟩
      · exact h.running r' hr' hid'
      · exact absurd ⟨r', hr', hid'⟩ hnew
    · rw [List.mem_singleton.1 hr', hs]

/-- To update one run leaves the others under way. -/
theorem UnderWay.withUpdate {other : String} (h : d.UnderWay id) (hne : id ≠ other)
    (u : RunUpdate) : (d.withUpdate other u).UnderWay id where
  hasRun := by
    have hgrows : Grows (some other) d (d.withUpdate other u) := grows_withUpdate u
    exact hgrows.hasRun id h.hasRun
  running r hr hid := by
    obtain ⟨r', hr', rfl⟩ := mem_withUpdate.1 hr
    by_cases heq : r'.id = other
    · rw [if_pos (beq_iff_eq.2 heq)] at hid
      exact absurd (hid.symm.trans heq) hne
    · rw [if_neg (by simpa using heq)] at hid ⊢
      exact h.running r' hr' hid

/-- A run that is under way is not finished. -/
theorem UnderWay.ne_of_finished {r : Run} (h : d.UnderWay id) (hr : r ∈ d.store.runs)
    (hf : r.IsFinished) : r.id ≠ id :=
  fun hid => Run.isFinished_iff.1 hf (h.running r hr hid)

/-! ## What a write keeps -/

theorem Sealed.of_eq (hr : e.store.runs = d.store.runs) (hl : e.store.logs = d.store.logs) :
    d.Sealed e where
  runs i r hi _ := hr ▸ hi
  ids := by
    have heq : d.runIds = e.runIds := by rw [runIds, runIds, hr]
    exact heq ▸ List.prefix_rfl
  logs := ⟨[], by simp [hl], by simp⟩

theorem Sealed.trans (h : d.Sealed e) (k : e.Sealed f) : d.Sealed f where
  runs i r hi hf := k.runs i r (h.runs i r hi hf) hf
  ids := h.ids.trans k.ids
  logs := by
    obtain ⟨more, he, hmore⟩ := h.logs
    obtain ⟨more', hf, hmore'⟩ := k.logs
    refine ⟨more ++ more', by rw [hf, he, List.append_assoc], ?_⟩
    refine List.forall_mem_append.2 ⟨hmore, fun l hl r hr hfin => ?_⟩
    -- A run that is finished on the first desk is there on the second one too.
    obtain ⟨i, hi⟩ := List.getElem?_of_mem hr
    exact hmore' l hl r (List.mem_of_getElem? (h.runs i r hi hfin)) hfin

/-- A single write leaves finished runs and all entries of logs as they are. -/
theorem Write.sealed (h : Write d e) : d.Sealed e := by
  cases h with
  | other hr hl _ _ => exact .of_eq hr hl
  | @opened r hnew hrunning =>
    refine ⟨fun i r' hi _ => ?_, (d.next.precedes_withRun r).runs, [],
      (List.append_nil _).symm, by simp⟩
    obtain ⟨hlt, _⟩ := List.getElem?_eq_some_iff.1 hi
    exact (List.getElem?_append_left hlt).trans hi
  | @logged l hway _ =>
    refine ⟨fun i r hi _ => hi, List.prefix_rfl, [l], rfl, fun l' hl' r hr hf => ?_⟩
    rw [List.mem_singleton.1 hl']
    exact (hway.ne_of_finished hr hf).symm
  | @closed id p hway =>
    refine ⟨fun i r hi hf => ?_, (d.precedes_withUpdate id _).runs, [],
      (List.append_nil _).symm, by simp⟩
    have hne : (r.id == id) = false := by
      simpa using hway.ne_of_finished (List.mem_of_getElem? hi) hf
    simp only [withUpdate, Store.updateRun, List.getElem?_map, hi, Option.map_some, hne]
    rfl

/-- A single write leaves the dial of the clock as it is. -/
theorem Write.dial (h : Write d e) : e.dial = d.dial := by
  cases h with
  | other _ _ _ hdial => exact hdial
  | opened | logged | closed => rfl

theorem time_lt_next (h : d.ClockMovesOn) : d.time.wall < d.next.time.wall :=
  h (Int.lt_succ d.clock)

/-- As long as the clock goes forward, a single write leaves every entry of a log older than the end
of its run. -/
theorem Write.dated (h : Write d e) (hdial : d.ClockMovesOn) (hd : d.Dated) : e.Dated := by
  cases h with
  | other hr hl hc he =>
    refine ⟨fun l hmem => ?_, fun r hmem hf t ht l hmem' => ?_⟩
    · refine Int.lt_of_lt_of_le (hd.past l (hl ▸ hmem)) ?_
      show d.dial d.clock ≤ e.dial e.clock
      rw [he]
      exact hdial.keepsOn hc
    · exact hd.ended r (hr ▸ hmem) hf t ht l (hl ▸ hmem')
  | @opened r hnew hrunning =>
    refine ⟨fun l hmem => Int.lt_trans (hd.past l hmem) (time_lt_next hdial), ?_⟩
    intro r' hr' hf t ht l hmem
    rcases List.mem_append.1 hr' with hr' | hr'
    · exact hd.ended r' hr' hf t ht l hmem
    · rw [List.mem_singleton.1 hr'] at hf
      exact absurd hrunning (Run.isFinished_iff.1 hf)
  | @logged l hway hmoment =>
    refine ⟨List.forall_mem_append.2 ⟨fun l' hmem => ?_, fun l' hmem => ?_⟩, ?_⟩
    · exact Int.lt_trans (hd.past l' hmem) (time_lt_next hdial)
    · rw [List.mem_singleton.1 hmem, hmoment]
      exact time_lt_next hdial
    · intro r hr hf t ht l' hmem hid
      rcases List.mem_append.1 hmem with hmem | hmem
      · exact hd.ended r hr hf t ht l' hmem hid
      · rw [List.mem_singleton.1 hmem] at hid
        exact absurd hid.symm (hway.ne_of_finished hr hf)
  | @closed id p hway =>
    refine ⟨hd.past, fun r hr hf t ht l hmem hid => ?_⟩
    obtain ⟨r', hr', rfl⟩ := mem_withUpdate.1 hr
    by_cases heq : r'.id = id
    · -- The run ends now, after all that has been logged.
      rw [if_pos (beq_iff_eq.2 heq)] at ht
      obtain rfl : d.time.atUniversal = t := Option.some.inj ht
      exact hd.past l hmem
    · rw [if_neg (by simpa using heq)] at hf ht hid
      exact hd.ended r' hr' hf t ht l hmem hid

theorem Sealed.of_writes (h : ReflTransGen Write d e) : d.Sealed e := by
  induction h with
  | refl => exact .of_eq rfl rfl
  | tail _ hwrite ih => exact ih.trans hwrite.sealed

theorem dial_of_writes (h : ReflTransGen Write d e) : e.dial = d.dial := by
  induction h with
  | refl => rfl
  | tail _ hwrite ih => exact hwrite.dial.trans ih

theorem Dated.of_writes (hdial : d.ClockMovesOn) (hd : d.Dated) (h : ReflTransGen Write d e) :
    e.Dated := by
  induction h with
  | refl => exact hd
  | tail hwrites hwrite ih => exact hwrite.dated (hdial.of_dial_eq (dial_of_writes hwrites)) ih

/-- Whatever is asked about a finished run is answered in the same way for ever. -/
theorem Sealed.answers {r : Run} (h : d.Sealed e) (hr : d.store.run? id = some r)
    (hf : r.IsFinished) : e.store.run? id = some r ∧ e.store.logsOf id = d.store.logsOf id := by
  obtain ⟨stored, hfind, rfl⟩ := Option.map_eq_some_iff.1 hr
  obtain ⟨hid, i, hi, rfl, hfirst⟩ := List.find?_eq_some_iff_getElem.1 hfind
  have hsame := h.runs i _ (List.getElem?_eq_getElem hi) hf
  obtain ⟨hi', hsame⟩ := List.getElem?_eq_some_iff.1 hsame
  constructor
  · refine Option.map_eq_some_iff.2 ⟨_, List.find?_eq_some_iff_getElem.2
      ⟨hid, i, hi', hsame, fun j hj => ?_⟩, rfl⟩
    -- The runs before it have other ids on both desks.
    have hj' : j < d.runIds.length := by
      rw [runIds, List.length_map]
      omega
    have hj'' : j < e.runIds.length := Nat.lt_of_lt_of_le hj' h.ids.length_le
    have hids : d.runIds[j] = e.runIds[j] := h.ids.getElem hj'
    simp only [runIds, List.getElem_map] at hids
    rw [← hids]
    exact hfirst j hj
  · obtain ⟨more, hl, hmore⟩ := h.logs
    have hnone : more.filter (·.runId == id) = [] := by
      refine List.filter_eq_nil_iff.2 fun l hl' => ?_
      have := hmore l hl' _ (List.getElem_mem hi) hf
      rw [beq_iff_eq.1 hid] at this
      simpa using this
    rw [Store.logsOf, Store.logsOf, hl, List.filter_append, hnone, List.append_nil]

/-! ## Writes along an action -/

/-- From one desk to another the runs that are under way stay so, and what is written is written
in single writes as long as one's own run is under way. -/
structure Minds (own : Option String) (d e : Desk) : Prop where
  underWay : ∀ id, d.UnderWay id → e.UnderWay id
  writes : (∀ id, own = some id → d.UnderWay id) → ReflTransGen Write d e

variable {own : Option String}

theorem Minds.of_eq (hr : e.store.runs = d.store.runs) (hl : e.store.logs = d.store.logs)
    (hc : d.clock ≤ e.clock) (hd : e.dial = d.dial) : Minds own d e where
  underWay _ h := h.of_runs hr
  writes _ := .single (.other hr hl hc hd)

theorem Minds.of_quiet (h : d.Quiet e) : Minds own d e := .of_eq h.runs h.logs h.clock h.dial

theorem Minds.trans (h : Minds own d e) (k : Minds own e f) : Minds own d f where
  underWay id hid := k.underWay id (h.underWay id hid)
  writes ho := (h.writes ho).trans (k.writes fun id hid => h.underWay id (ho id hid))

/-- What needs no run of one's own does not touch one's own. -/
theorem Minds.of_none (h : Minds none d e) : Minds own d e :=
  ⟨h.underWay, fun _ => h.writes (by simp)⟩

instance : Trail (Minds own) where
  quiet := Minds.of_quiet
  trans := Minds.trans
  deeper {d e} h := by
    have hin : Minds own d { d with depth := d.depth + 1 } := .of_eq rfl rfl (Int.le_refl _) rfl
    have hout : Minds own e { e with depth := d.depth } := .of_eq rfl rfl (Int.le_refl _) rfl
    exact (hin.trans h).trans hout

/-- A run that is opened and minded until it is closed or left. -/
theorem Minds.of_opened {r : Run} (hnew : ¬ d.HasRun r.id) (hs : r.status = .running)
    (h : Minds (some r.id) (d.next.withRun r) e) :
    Minds none d e ∧ e.UnderWay r.id := by
  have hopen : ∀ id, d.UnderWay id ∨ ¬ d.HasRun id ∧ r.id = id →
      (d.next.withRun r).UnderWay id := fun id hid =>
    UnderWay.withRun (hid.imp_left fun hway => hway.of_runs rfl) hs
  have hown : (d.next.withRun r).UnderWay r.id := hopen r.id (.inr ⟨hnew, rfl⟩)
  refine ⟨⟨fun id hid => h.underWay id (hopen id (.inl hid)), fun _ => ?_⟩, h.underWay _ hown⟩
  refine ReflTransGen.head (.opened hnew hs) (h.writes fun id hid => ?_)
  exact Option.some.inj hid ▸ hown

/-- A run that is closed was not there before it was opened. -/
theorem Minds.closed {p : Progress} (h : Minds none d e) (hnew : ¬ d.HasRun id)
    (hway : e.UnderWay id) :
    Minds none d (e.withUpdate id (p.closing e.time)) where
  underWay other hother := by
    refine (h.underWay other hother).withUpdate (fun heq => hnew ?_) _
    exact heq ▸ hother.hasRun
  writes _ := (h.writes (by simp)).tail (.closed hway)

end Desk

open Desk (Minds)

variable {b : Office} {own : Option String}

theorem Course.minds_log (c : Course) (s : WorkflowStep) (r : StepResult) :
    Leads (·.Like b) (Minds (some c.runId)) (c.log s r) := by
  intro o d _
  rcases h : (c.log s r).run o d with ⟨ending, e⟩
  obtain ⟨_, _, rfl, _⟩ | ⟨_, rfl⟩ := log_cases h
  · exact .of_quiet d.quiet_next
  · exact ⟨fun _ hway => hway.of_runs rfl, fun ho => .single (.logged (ho _ rfl) rfl)⟩

/-- A run is under way from its opening to its close. -/
theorem Workflow.minds_run {w : Workflow} {em : Emitter}
    (hem : ∀ f, Leads (·.Like b) (Minds none) (em f)) (context : Json) (triggeredBy : String) :
    Leads (·.Like b) (Minds none) (w.run em context triggeredBy) := by
  intro o d ho
  rcases hrun : (w.run em context triggeredBy).run o d with ⟨ending, e⟩
  obtain ⟨_, _, hq⟩ | ⟨seed, r, _, hbegun, hnew, hconduct⟩ := run_cases hrun
  · exact .of_quiet hq
  obtain ⟨m, hm, hend⟩ := conduct_cases hconduct
  have hcarry : Minds (some r.id) m ((w.carryOut em r.id seed).run o m).2 :=
    leads_carryOut (fun c hc s r => hc ▸ c.minds_log s r) (fun f => (hem f).mono Minds.of_none)
      seed o m ho
  obtain ⟨hminds, hway⟩ := Minds.of_opened hnew hbegun.status ((Minds.of_quiet hm).trans hcarry)
  obtain ⟨_, _, hcut⟩ | ⟨p, m', hdone, ⟨_, _, hq, _⟩ | ⟨_, hq⟩⟩ := hend
  · rwa [hcut] at hminds
  · rw [hdone] at hminds
    exact hminds.trans (.of_quiet hq)
  · rw [hdone] at hminds hway
    exact (hminds.closed hnew hway).trans (.of_quiet hq)

theorem Emitter.minds_queue (f : FollowUp) : Leads (·.Like b) (Minds own) (queue f) := by
  intro o d _
  rcases h : (queue f).run o d with ⟨ending, e⟩
  obtain ⟨_, _, hq, _⟩ | ⟨ev, _, rfl, _⟩ := queue_cases h
  · exact .of_quiet hq
  · exact .of_eq rfl rfl d.quiet_next.clock rfl

theorem Archive.minds_markProcessed (id : String) :
    Leads (·.Like b) (Minds own) (markProcessed id) := by
  intro o d _
  rcases h : (markProcessed id).run o d with ⟨ending, e⟩
  obtain ⟨_, _, hq, _⟩ | ⟨_, rfl, _⟩ | ⟨_, _, rfl⟩ := markProcessed_cases h
  · exact .of_quiet hq
  · exact Desk.Trail.refl e
  · exact .of_eq rfl rfl (Tame.now.quiet o d).clock rfl

theorem Archive.minds_createEvent (given : Event) :
    Leads (·.Like b) (Minds own) (createEvent given) := by
  intro o d _
  rcases h : (createEvent given).run o d with ⟨ending, e⟩
  obtain ⟨_, _, rfl, _⟩ | ⟨_, rfl, _⟩ := createEvent_cases h
  · exact Desk.Trail.refl e
  · exact .of_eq rfl rfl (Int.le_refl _) rfl

theorem Archive.minds_saveWorkflow (w : Workflow) :
    Leads (·.Like b) (Minds own) (saveWorkflow w) := by
  intro o d _
  rcases h : (saveWorkflow w).run o d with ⟨ending, e⟩
  obtain ⟨_, _, hq⟩ | ⟨_, t, _, _, m, _, hs, hq, rfl⟩ := saveWorkflow_cases h
  · exact .of_quiet hq
  · obtain ⟨_, hruns, hlogs, _⟩ := Store.saveWorkflow_eq_ok hs
    exact .of_eq hruns hlogs hq.clock hq.dial

namespace Dispatch

theorem minds_event {em : Emitter} (hem : ∀ f, Leads (·.Like b) (Minds none) (em f)) (e : Event) :
    Leads (·.Like b) (Minds none) (event em e) :=
  composes_event Leads.composes (fun _ => Workflow.minds_run hem _ _)
    (Archive.minds_markProcessed _)

/-- Events that are handled at once leave the runs that they are handled within under way. -/
theorem minds_of_allows {em : Emitter} (h : b.settings.Allows em) (f : FollowUp) :
    Leads (·.Like b) (Minds none) (em f) := by
  obtain rfl | ⟨_, levels, rfl⟩ := h
  · exact Emitter.minds_queue f
  · exact composes_inline Leads.composes Emitter.minds_queue (fun _ ih => minds_event ih) levels f

end Dispatch

/-- An errand writes runs and logs in single writes. -/
theorem Errand.minds (x : Errand) : Leads (·.Like b) (Minds none) x.carryOut := by
  refine composes Leads.composes (T := (· = b.settings))
    (fun h => Action.leads_settings (fun _ ho => ho) h) Emitter.minds_queue
    Archive.minds_createEvent Archive.minds_saveWorkflow ?_ ?_ x
  · rintro _ rfl em hem e
    exact Dispatch.minds_event (Dispatch.minds_of_allows hem) e
  · rintro _ rfl em hem w context
    exact Workflow.minds_run (Dispatch.minds_of_allows hem) _ _

/-- So does a turn, in which the desk stands idle before. -/
theorem Turn.minds (t : Turn) (d : Desk) : Minds none d (t.play d) := by
  have hidle : Minds none d { d with clock := d.clock + t.idle } := by
    refine .of_eq rfl rfl ?_ rfl
    show d.clock ≤ d.clock + t.idle
    omega
  exact hidle.trans (t.errand.minds t.office _ (Office.Like.refl _))

namespace Desk

theorem minds_after (ts : List Turn) (d : Desk) : Minds none d (d.after ts) := by
  induction ts generalizing d with
  | nil => exact Trail.refl d
  | cons t rest ih => exact (t.minds d).trans (ih (t.play d))

/-- Whatever the turns of a session, from any desk on: runs that are finished after some of them
stay as they are, entries of logs are only added, and none is added to the log of a finished run.
This holds not only from turn to turn but from every single write to every later one, and so every
entry of a log stays older than the end of its run where the clock goes forward. -/
theorem sealed_after (d : Desk) (past more : List Turn) :
    (d.after past).Sealed (d.after (past ++ more)) ∧
    (∃ es, (d.after past :: es).IsChain Write ∧ (d.after past :: es).Pairwise Sealed ∧
      (d.after past :: es).getLast (List.cons_ne_nil _ _) = d.after (past ++ more)) ∧
    (d.ClockMovesOn → (d.after past).Dated → (d.after (past ++ more)).Dated) := by
  have hwrites : ReflTransGen Write (d.after past) (d.after (past ++ more)) := by
    rw [after_append]
    exact (minds_after more (d.after past)).writes (by simp)
  have hpast : (d.after past).dial = d.dial :=
    dial_of_writes ((minds_after past d).writes (by simp))
  refine ⟨.of_writes hwrites, ?_, fun hdial hd => .of_writes (hdial.of_dial_eq hpast) hd hwrites⟩
  obtain ⟨es, hchain, hlast⟩ := List.exists_isChain_cons_of_relationReflTransGen hwrites
  have : Trans Sealed Sealed Sealed := ⟨Sealed.trans⟩
  exact ⟨es, hchain, (hchain.imp fun _ _ h => h.sealed).pairwise, hlast⟩

end Desk

end LeadDesk
