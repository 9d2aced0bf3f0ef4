import LeadDesk.Desk.Archive
/-!
# How actions behave

What is asked of an action whatever it is carried out on: where it may lead from a desk
(`Action.Leads`), by which deadlines it may be cut off (`Action.Punctual`), how its failures are
named (`Action.Named`), and what its values are like (`Action.Yields`). Each is kept by every way
in which actions are put together, so that a long action has it when its parts do.
-/

namespace LeadDesk

/-- The office with other observers. -/
def Office.heardBy (o : Office) (observers : Nat)
    (reaction : Nat → String → Fields → Except Failure Unit) : Office :=
  { o with observers := observers, reaction := reaction }

/-- The office is another one under deadlines of its own. -/
def Office.Like (o b : Office) : Prop := ∃ times, o = { b with deadlines := times }

namespace Office.Like

variable {o b : Office}

theorem refl (b : Office) : b.Like b := ⟨b.deadlines, rfl⟩

/-- One more deadline makes no other office. -/
theorem under (h : o.Like b) (times : List Int) : { o with deadlines := times }.Like b := by
  obtain ⟨_, rfl⟩ := h
  exact ⟨times, rfl⟩

/-- What an office lets fail does not depend on its deadlines. -/
theorem faultOf (h : o.Like b) (operation : String) :
    Action.faultOf o operation = Action.faultOf b operation := by
  obtain ⟨_, rfl⟩ := h
  rfl

end Office.Like

namespace Store

/-- The tables of the work: events, workflows and runs with what belongs to them. -/
def work (s : Store) :
    List Event × List WorkflowRecord × List StepRecord × List Run × List RunLog :=
  (s.events, s.workflows, s.steps, s.runs, s.logs)

/-- A change of the store, if it is not refused, leaves the tables of the work and the credentials
of integrations as they are. -/
def KeepsRest {α : Type} (s : Store) (change : Except Failure (α × Store)) : Prop :=
  ∀ a t, change = .ok (a, t) → t.work = s.work ∧ t.integrations = s.integrations

variable {α β : Type} {s t : Store}

theorem KeepsRest.pure {a : α} (hw : t.work = s.work) (hi : t.integrations = s.integrations) :
    s.KeepsRest (pure (a, t)) := by
  rintro a' t' ⟨⟩
  exact ⟨hw, hi⟩

theorem KeepsRest.bind {x : Except Failure β} {f : β → Except Failure (α × Store)}
    (h : ∀ b, s.KeepsRest (f b)) : s.KeepsRest (x >>= f) := by
  intro a t ht
  cases x with
  | error e => cases ht
  | ok b => exact h b a t ht

/-- The store with other runs. -/
def withRuns (s : Store) (rs : List Run) : Store := { s with runs := rs }

/-- Whatever runs are stored, it is the same. -/
def SeesNoRuns (f : Store → α) : Prop := ∀ s rs, f (s.withRuns rs) = f s

/-- A change of the store and one that leads to the same, but for the runs that are stored. -/
def SameBut (rs : List Run) (change changed : Except Failure (α × Store)) : Prop :=
  changed = change.map fun x => (x.1, x.2.withRuns rs)

/-- Whatever runs are stored, the change is the same, and they stay stored. -/
def PassesRuns (f : Store → Except Failure (α × Store)) : Prop :=
  ∀ s rs, SameBut rs (f s) (f (s.withRuns rs))

variable {rs : List Run}

theorem SameBut.pure {a : α} : SameBut rs (pure (a, t)) (pure (a, t.withRuns rs)) := rfl

theorem SameBut.bind {x : Except Failure β} {f g : β → Except Failure (α × Store)}
    (h : ∀ b, SameBut rs (f b) (g b)) : SameBut rs (x >>= f) (x >>= g) := by
  cases x with
  | error e => rfl
  | ok b => exact h b

end Store

/-- A note in the journal has nothing to do with what observers were told. -/
def Journal.PassesCallbacks (f : Journal → Journal) : Prop :=
  ∀ j callbacks, f { j with callbacks := callbacks } = { f j with callbacks := callbacks }

namespace Desk

/-- From one desk to another no work is recorded: no event, workflow or run changes. The log of a
run may. Ids, moments and the waited time only go up, the answers of the language model are taken
from the front of the script, and the depth and the dial of the clock are the same. -/
structure Steady (d e : Desk) : Prop where
  events : e.store.events = d.store.events
  workflows : e.store.workflows = d.store.workflows
  steps : e.store.steps = d.store.steps
  runs : e.store.runs = d.store.runs
  nextId : d.nextId ≤ e.nextId
  clock : d.clock ≤ e.clock
  waited : d.waited ≤ e.waited
  model : e.script.model <:+ d.script.model
  depth : e.depth = d.depth
  dial : e.dial = d.dial

/-- The clock of the desk never goes back. -/
def ClockKeepsOn (d : Desk) : Prop := ∀ ⦃m n : Int⦄, m ≤ n → d.dial m ≤ d.dial n

/-- The clock of the desk never goes back or stands still. -/
def ClockMovesOn (d : Desk) : Prop := ∀ ⦃m n : Int⦄, m < n → d.dial m < d.dial n

/-- From one desk to another nothing happens but to customer records and team settings. -/
structure Quiet (d e : Desk) : Prop extends Steady d e where
  logs : e.store.logs = d.store.logs

/-- A relation that can be followed along actions: it holds where nothing happens, it passes on, and
it does not matter to it when a level is entered and left again. -/
class Way (R : Desk → Desk → Prop) : Prop where
  refl : ∀ d, R d d
  trans : ∀ {d e f : Desk}, R d e → R e f → R d f
  deeper : ∀ {d e : Desk}, R { d with depth := d.depth + 1 } e → R d { e with depth := d.depth }

/-- A way to which customer records and team settings do not matter. -/
class Trail (R : Desk → Desk → Prop) : Prop where
  quiet : ∀ {d e : Desk}, d.Quiet e → R d e
  trans : ∀ {d e f : Desk}, R d e → R e f → R d f
  deeper : ∀ {d e : Desk}, R { d with depth := d.depth + 1 } e → R d { e with depth := d.depth }

variable {d e f : Desk}

theorem ClockKeepsOn.of_dial_eq (h : d.ClockKeepsOn) (heq : e.dial = d.dial) :
    e.ClockKeepsOn := by
  unfold ClockKeepsOn
  rwa [heq]

theorem ClockMovesOn.of_dial_eq (h : d.ClockMovesOn) (heq : e.dial = d.dial) :
    e.ClockMovesOn := by
  unfold ClockMovesOn
  rwa [heq]

theorem ClockMovesOn.keepsOn (h : d.ClockMovesOn) : d.ClockKeepsOn := fun m n hle => by
  obtain hlt | rfl := Int.lt_or_eq_of_le hle
  · exact Int.le_of_lt (h hlt)
  · exact Int.le_refl _

theorem Steady.refl (d : Desk) : d.Steady d :=
  ⟨rfl, rfl, rfl, rfl, Nat.le_refl _, Int.le_refl _, Int.le_refl _, List.suffix_refl _, rfl,
    rfl⟩

theorem Steady.trans (h : d.Steady e) (k : e.Steady f) : d.Steady f where
  events := k.events.trans h.events
  workflows := k.workflows.trans h.workflows
  steps := k.steps.trans h.steps
  runs := k.runs.trans h.runs
  nextId := Nat.le_trans h.nextId k.nextId
  clock := Int.le_trans h.clock k.clock
  waited := Int.le_trans h.waited k.waited
  model := k.model.trans h.model
  depth := k.depth.trans h.depth
  dial := k.dial.trans h.dial

/-- A level that is entered is left again. -/
theorem Steady.deeper (h : Steady { d with depth := d.depth + 1 } e) :
    d.Steady { e with depth := d.depth } :=
  { h with depth := rfl }

theorem Quiet.refl (d : Desk) : d.Quiet d := ⟨Steady.refl d, rfl⟩

theorem Quiet.trans (h : d.Quiet e) (k : e.Quiet f) : d.Quiet f :=
  ⟨h.toSteady.trans k.toSteady, k.logs.trans h.logs⟩

instance : Trail Quiet := ⟨id, Quiet.trans, fun h => ⟨h.toSteady.deeper, h.logs⟩⟩

theorem Trail.refl {R : Desk → Desk → Prop} [Trail R] (d : Desk) : R d d :=
  Trail.quiet (Quiet.refl d)

instance {R : Desk → Desk → Prop} [Trail R] : Way R := ⟨Trail.refl, Trail.trans, Trail.deeper⟩

end Desk

/-- What ended so was cut off by one of the deadlines that are set. -/
def Office.Cuts {α : Type} (o : Office) (ending : Ending α) : Prop :=
  ∃ level, ending = .cut level ∧ 1 ≤ level ∧ level ≤ o.deadlines.length

theorem Office.Cuts.deadlines_ne {α : Type} {o : Office} {ending : Ending α} (h : o.Cuts ending) :
    o.deadlines ≠ [] := by
  obtain ⟨level, _, hle, hlen⟩ := h
  intro hnil
  simp only [hnil, List.length_nil] at hlen
  omega

theorem Office.not_cuts_done {α : Type} {o : Office} {a : α} : ¬ o.Cuts (.done a) := by
  rintro ⟨level, h, _⟩
  simp at h

namespace Action

variable {α β : Type} {S : Office → Prop} {R : Desk → Desk → Prop} {x : Action α}

/-- Wherever the action is carried out in some offices, it leads to a related desk, however it
ends. -/
def Leads (S : Office → Prop) (R : Desk → Desk → Prop) (x : Action α) : Prop :=
  ∀ o d, S o → R d (x.run o d).2

/-- Under deadlines the action is cut off by one of them only. -/
def Punctual (x : Action α) : Prop :=
  ∀ o d level, (x.run o d).1 = .cut level → o.deadlines ≠ [] →
    1 ≤ level ∧ level ≤ o.deadlines.length

/-- The action is cut off by a deadline around it only, and not at all where there is none. -/
def Timely (x : Action α) : Prop :=
  ∀ o d level, (x.run o d).1 = .cut level → 1 ≤ level ∧ level ≤ o.deadlines.length

/-- The failures of the action have a name. -/
def Named (x : Action α) : Prop := ∀ o d e, (x.run o d).1 = .failed e → e.kind ≠ ""

/-- The values of the action are as asked. -/
def Yields (Q : α → Prop) (x : Action α) : Prop := ∀ o d a, (x.run o d).1 = .done a → Q a

/-! ## Endings -/

/-- How one action after another ends, by the ending of the first. -/
theorem run_bind_of_done {f : α → Action β} {o : Office} {d e : Desk} {a : α}
    (h : x.run o d = (.done a, e)) : (x >>= f).run o d = (f a).run o e := by
  rw [run_bind, h]

/-- To give another value changes no more. -/
theorem desk_bind_pure (x : Action α) (f : α → β) (o : Office) (d : Desk) :
    ((x >>= fun a => pure (f a)).run o d).2 = (x.run o d).2 := by
  rw [run_bind]
  rcases x.run o d with ⟨_ | _ | _, _⟩ <;> rfl

theorem run_bind_of_failed {f : α → Action β} {o : Office} {d e : Desk} {failure : Failure}
    (h : x.run o d = (.failed failure, e)) : (x >>= f).run o d = (.failed failure, e) := by
  rw [run_bind, h]

theorem run_bind_of_cut {f : α → Action β} {o : Office} {d e : Desk} {level : Nat}
    (h : x.run o d = (.cut level, e)) : (x >>= f).run o d = (.cut level, e) := by
  rw [run_bind, h]

/-- Actions whose parts do the same where they are carried out do the same. -/
theorem run_bind_congr {y : Action α} {f g : α → Action β} {o : Office} {d : Desk}
    (h : x.run o d = y.run o d)
    (hf : ∀ a m, y.run o d = (.done a, m) → (f a).run o m = (g a).run o m) :
    (x >>= f).run o d = (y >>= g).run o d := by
  rw [run_bind, run_bind, h]
  rcases hy : y.run o d with ⟨a | failure | level, m⟩
  · exact hf a m hy
  · rfl
  · rfl

theorem run_attempt (x : Action α) (o : Office) (d : Desk) :
    (attempt x).run o d =
      match x.run o d with
      | (.done a, d) => (.done (.ok a), d)
      | (.failed e, d) => (.done (.error e), d)
      | (.cut level, d) => (.cut level, d) := rfl

/-- To catch a failure changes no more. -/
theorem desk_attempt (x : Action α) (o : Office) (d : Desk) :
    ((attempt x).run o d).2 = (x.run o d).2 := by
  rw [run_attempt]
  rcases x.run o d with ⟨_ | _ | _, _⟩ <;> rfl

theorem run_deeper (x : Action α) (o : Office) (d : Desk) :
    (deeper x).run o d =
      ((x.run o { d with depth := d.depth + 1 }).1,
        { (x.run o { d with depth := d.depth + 1 }).2 with depth := d.depth }) := rfl

theorem run_before (time : Int) (x : Action α) (o : Office) (d : Desk) :
    (before time x).run o d =
      match x.run { o with deadlines := time :: o.deadlines } d with
      | (.done a, d) => (.done (some a), d)
      | (.failed e, d) => (.failed e, d)
      | (.cut level, d) =>
        if level = o.deadlines.length + 1 then (.done none, d) else (.cut level, d) := rfl

/-- An action that comes to a value has first come to the values of its parts. -/
theorem run_bind_eq_done {f : α → Action β} {o : Office} {d e : Desk} {v : β} :
    (x >>= f).run o d = (.done v, e) ↔
      ∃ a m, x.run o d = (.done a, m) ∧ (f a).run o m = (.done v, e) := by
  rw [run_bind]
  rcases x.run o d with ⟨a | failure | level, m⟩
  · constructor
    · intro h
      exact ⟨a, m, rfl, h⟩
    · rintro ⟨_, _, h, k⟩
      cases h
      exact k
  · simp
  · simp

theorem run_pure_eq_done {o : Office} {d e : Desk} {a v : α} :
    (pure a : Action α).run o d = (.done v, e) ↔ a = v ∧ d = e := by simp

theorem run_ofExcept_eq_done {x : Except Failure α} {o : Office} {d e : Desk} {a : α} :
    (ofExcept x).run o d = (.done a, e) ↔ x = .ok a ∧ d = e := by
  cases x <;> simp [ofExcept]

theorem run_attempt_eq_ok {o : Office} {d e : Desk} {a : α} :
    (attempt x).run o d = (.done (.ok a), e) ↔ x.run o d = (.done a, e) := by
  rw [run_attempt]
  rcases x.run o d with ⟨b | failure | level, m⟩ <;> simp

theorem run_attempt_eq_error {o : Office} {d e : Desk} {failure : Failure} :
    (attempt x).run o d = (.done (.error failure), e) ↔ x.run o d = (.failed failure, e) := by
  rw [run_attempt]
  rcases x.run o d with ⟨b | failure | level, m⟩ <;> simp

theorem run_before_eq_some {time : Int} {o : Office} {d e : Desk} {a : α} :
    (before time x).run o d = (.done (some a), e) ↔
      x.run { o with deadlines := time :: o.deadlines } d = (.done a, e) := by
  rw [run_before]
  rcases x.run { o with deadlines := time :: o.deadlines } d with ⟨b | failure | level, m⟩
  · simp
  · simp
  · dsimp only
    split <;> simp

/-- What comes to a value within a limit does so under some more deadline. -/
theorem run_within_eq_some {limit : Limit} {o : Office} {d e : Desk} {a : α}
    (h : (within limit x).run o d = (.done (some a), e)) :
    ∃ o' : Office, x.run o' d = (.done a, e) := by
  have h : (if limit.micros ≤ 0 then (Ending.done none, d) else
    (before (d.waited + limit.micros) x).run o d) = (.done (some a), e) := h
  split at h
  · simp at h
  · exact ⟨_, run_before_eq_some.1 h⟩

/-! ## Where actions lead -/

/-- What follows an action starts from the desk that the action leaves. -/
theorem trail_bind [Desk.Way R] {f : α → Action β} {o : Office} {d : Desk}
    (hx : R d (x.run o d).2) (hf : ∀ a m, x.run o d = (.done a, m) → R m ((f a).run o m).2) :
    R d ((x >>= f).run o d).2 := by
  rw [run_bind]
  rcases hm : x.run o d with ⟨a | failure | level, m⟩ <;> rw [hm] at hx
  · exact Desk.Way.trans hx (hf a m hm)
  · exact hx
  · exact hx

namespace Leads

theorem mono {R' : Desk → Desk → Prop} (h : ∀ {d e}, R d e → R' d e) (hx : Leads S R x) :
    Leads S R' x := fun o d ho => h (hx o d ho)

theorem attempt (hx : Leads S R x) : Leads S R (attempt x) := by
  intro o d ho
  rw [desk_attempt]
  exact hx o d ho

theorem before {b : Office} (time : Int) (hx : Leads (·.Like b) R x) :
    Leads (·.Like b) R (before time x) := by
  intro o d ho
  have h := hx _ d (ho.under (time :: o.deadlines))
  rw [run_before]
  rcases hm : x.run { o with deadlines := time :: o.deadlines } d with
    ⟨a | failure | level, m⟩ <;> rw [hm] at h
  · exact h
  · exact h
  · dsimp only
    split <;> exact h

variable [Desk.Way R]

theorem pure (a : α) : Leads S R (pure a) := fun _ d _ => Desk.Way.refl d

theorem fail (e : Failure) : Leads S R (fail e : Action α) := fun _ d _ => Desk.Way.refl d

theorem ofExcept (x : Except Failure α) : Leads S R (ofExcept x) := by
  cases x
  · exact fail _
  · exact pure _

theorem bind {f : α → Action β} (hx : Leads S R x) (hf : ∀ a, Leads S R (f a)) :
    Leads S R (x >>= f) :=
  fun o d ho => trail_bind (hx o d ho) fun a m _ => hf a o m ho

theorem deeper (hx : Leads S R x) : Leads S R (deeper x) :=
  fun o d ho => Desk.Way.deeper (hx o { d with depth := d.depth + 1 } ho)

theorem within {b : Office} (limit : Limit) (hx : Leads (·.Like b) R x) :
    Leads (·.Like b) R (within limit x) := by
  intro o d ho
  show R d (if limit.micros ≤ 0 then (Ending.done none, d) else
    (Action.before (d.waited + limit.micros) x).run o d).2
  split
  · exact Desk.Way.refl d
  · exact before _ hx o d ho

end Leads

/-! ## When actions are cut off -/

/-- The deadline that passes first is one of those that are set. -/
theorem earliest_bounds {times : List Int} {level : Nat} {time : Int}
    (h : earliest times = some (level, time)) : 1 ≤ level ∧ level ≤ times.length := by
  induction times generalizing level time with
  | nil => simp [earliest] at h
  | cons t outer ih =>
    simp only [earliest] at h
    split at h
    · simp only [Option.some.injEq, Prod.mk.injEq] at h
      simp only [List.length_cons]
      omega
    · rename_i hl ht he
      have := ih he
      simp only [List.length_cons]
      split at h <;> simp only [Option.some.injEq, Prod.mk.injEq] at h <;> omega

theorem earliest_eq_none_iff {times : List Int} : earliest times = none ↔ times = [] := by
  cases times with
  | nil => simp [earliest]
  | cons t outer =>
    simp only [earliest, reduceCtorEq, iff_false]
    split
    · simp
    · split <;> simp

namespace Punctual

theorem pure (a : α) : Punctual (pure a) := by
  intro o d level h
  simp at h

theorem fail (e : Failure) : Punctual (fail e : Action α) := by
  intro o d level h
  simp at h

theorem bind {f : α → Action β} (hx : Punctual x) (hf : ∀ a, Punctual (f a)) :
    Punctual (x >>= f) := by
  intro o d level h ho
  rw [run_bind] at h
  rcases hm : x.run o d with ⟨a | failure | l, m⟩ <;> rw [hm] at h
  · exact hf a o m level h ho
  · simp at h
  · refine hx o d level ?_ ho
    rw [hm]
    simpa using h

theorem attempt (hx : Punctual x) : Punctual (attempt x) := by
  intro o d level h ho
  rw [run_attempt] at h
  rcases hm : x.run o d with ⟨a | failure | l, m⟩ <;> rw [hm] at h
  · simp at h
  · simp at h
  · refine hx o d level ?_ ho
    rw [hm]
    simpa using h

/-- What is carried out before a deadline is cut off by an outer deadline only, and not at all
where there is none. -/
theorem before_level (hx : Punctual x) {time : Int} {o : Office} {d : Desk} {level : Nat}
    (h : ((before time x).run o d).1 = .cut level) : 1 ≤ level ∧ level ≤ o.deadlines.length := by
  rw [run_before] at h
  rcases hm : x.run { o with deadlines := time :: o.deadlines } d with ⟨a | failure | l, m⟩ <;>
    rw [hm] at h
  · simp at h
  · simp at h
  · have hl := hx _ d l (by rw [hm]) (by simp)
    simp only [List.length_cons] at hl
    by_cases hc : l = o.deadlines.length + 1
    · simp [hc] at h
    · simp only [hc, if_false, Ending.cut.injEq] at h
      omega

theorem within (limit : Limit) (hx : Punctual x) : Punctual (within limit x) := by
  intro o d level h _
  have h : (if limit.micros ≤ 0 then (Ending.done none, d) else
      (Action.before (d.waited + limit.micros) x).run o d).1 = .cut level := h
  split at h
  · simp at h
  · exact before_level hx h

theorem hang : Punctual (hang : Action α) := by
  intro o d level h ho
  simp only [Action.hang] at h
  cases he : earliest o.deadlines with
  | none => exact absurd (earliest_eq_none_iff.1 he) ho
  | some p =>
    simp only [he, Ending.cut.injEq] at h
    subst h
    exact earliest_bounds he

theorem elapse (micros : Nat) : Punctual (elapse micros) := by
  intro o d level h ho
  simp only [Action.elapse] at h
  cases he : earliest o.deadlines with
  | none => exact absurd (earliest_eq_none_iff.1 he) ho
  | some p =>
    simp only [he] at h
    split at h
    · simp only [Ending.cut.injEq] at h
      subst h
      exact earliest_bounds he
    · simp at h

end Punctual

namespace Timely

theorem punctual (hx : Timely x) : Punctual x := fun o d level h _ => hx o d level h

/-- What is never cut off. -/
theorem of_uncut (h : ∀ o d level, (x.run o d).1 ≠ .cut level) : Timely x :=
  fun o d level hl => absurd hl (h o d level)

theorem pure (a : α) : Timely (pure a) := of_uncut (by simp)

theorem fail (failure : Failure) : Timely (fail failure : Action α) := of_uncut (by simp)

theorem ofExcept (x : Except Failure α) : Timely (ofExcept x) := by
  cases x
  · exact fail _
  · exact pure _

theorem bind {f : α → Action β} (hx : Timely x) (hf : ∀ a, Timely (f a)) : Timely (x >>= f) := by
  intro o d level h
  rw [run_bind] at h
  rcases hm : x.run o d with ⟨a | failure | l, m⟩ <;> rw [hm] at h
  · exact hf a o m level h
  · simp at h
  · refine hx o d level ?_
    rw [hm]
    simpa using h

theorem attempt (hx : Timely x) : Timely (attempt x) := by
  intro o d level h
  rw [run_attempt] at h
  rcases hm : x.run o d with ⟨a | failure | l, m⟩ <;> rw [hm] at h
  · simp at h
  · simp at h
  · refine hx o d level ?_
    rw [hm]
    simpa using h

theorem before (time : Int) (hx : Punctual x) : Timely (before time x) :=
  fun _ _ _ h => hx.before_level h

theorem deeper (hx : Timely x) : Timely (deeper x) :=
  fun o d => hx o { d with depth := d.depth + 1 }

theorem depth : Timely depth := of_uncut (by simp [Action.depth])

theorem office : Timely office := of_uncut (by simp [Action.office])

theorem settings : Timely settings := of_uncut (by simp [Action.settings])

theorem deadline (limit : Limit) : Timely (deadline limit) := of_uncut (by simp [Action.deadline])

theorem now : Timely now := of_uncut (by simp [Action.now])

theorem newId : Timely newId := of_uncut (by simp [Action.newId])

theorem newIds (count : Nat) : Timely (newIds count) := of_uncut (by simp [Action.newIds])

theorem added : Timely added := of_uncut (by simp [Action.added])

theorem putAside (items : List Json) : Timely (putAside items) :=
  of_uncut (by simp [Action.putAside])

theorem note (f : Journal → Journal) : Timely (note f) := of_uncut (by simp [Action.note])

theorem tell (event : String) (data : Fields) : Timely (tell event data) :=
  of_uncut (by simp [Action.run_tell])

theorem nextNap : Timely nextNap := by
  refine of_uncut fun o d level => ?_
  simp only [Action.nextNap]
  split <;> simp

theorem elapse (micros : Nat) : Timely (elapse micros) := by
  intro o d level h
  refine Punctual.elapse micros o d level h fun ho => ?_
  simp [Action.elapse, ho, earliest] at h

theorem sleep (seconds : Double) : Timely (sleep seconds) := by
  refine (note _).bind fun _ => nextNap.bind fun nap => ?_
  split
  · exact pure _
  · exact elapse _

theorem query (operation : String) (f : Store → Except Failure α) : Timely (query operation f) := by
  refine of_uncut fun o d level => ?_
  simp only [Action.query]
  split
  · simp
  · split <;> simp

theorem change (operation : String) (f : Store → Except Failure (α × Store)) :
    Timely (change operation f) := by
  refine of_uncut fun o d level => ?_
  simp only [Action.change]
  split
  · simp
  · split <;> simp

end Timely

/-! ## Actions that leave the work alone -/

/-- The action changes customer records and team settings at most, and is cut off in time. -/
structure Tame (x : Action α) : Prop where
  quiet : ∀ o (d : Desk), d.Quiet (x.run o d).2
  punctual : Punctual x

theorem Tame.quiet_of_run (hx : Tame x) {o : Office} {d e : Desk} {ending : Ending α}
    (h : x.run o d = (ending, e)) : d.Quiet e := by
  have hq := hx.quiet o d
  rw [h] at hq
  exact hq

/-- A tame action leads along every trail. -/
theorem Leads.of_tame [Desk.Trail R] (hx : Tame x) : Leads S R x :=
  fun o d _ => Desk.Trail.quiet (hx.quiet o d)

theorem Leads.quiet (hx : Tame x) : Leads S Desk.Quiet x := Leads.of_tame hx

namespace Tame

theorem of_leads (h : ∀ b : Office, Leads (·.Like b) Desk.Quiet x) (hp : Punctual x) : Tame x :=
  ⟨fun o d => h o o d (Office.Like.refl o), hp⟩

theorem pure (a : α) : Tame (pure a) := of_leads (fun _ => Leads.pure a) (Punctual.pure a)

theorem fail (e : Failure) : Tame (fail e : Action α) :=
  of_leads (fun _ => Leads.fail e) (Punctual.fail e)

theorem bind {f : α → Action β} (hx : Tame x) (hf : ∀ a, Tame (f a)) : Tame (x >>= f) :=
  of_leads (fun _ => Leads.bind (Leads.quiet hx) fun a => Leads.quiet (hf a))
    (hx.punctual.bind fun a => (hf a).punctual)

theorem ite {c : Prop} [Decidable c] {y : Action α} (hx : Tame x) (hy : Tame y) :
    Tame (if c then x else y) := by
  split
  · exact hx
  · exact hy

theorem attempt (hx : Tame x) : Tame (attempt x) :=
  of_leads (fun _ => Leads.attempt (Leads.quiet hx)) hx.punctual.attempt

theorem before (time : Int) (hx : Tame x) : Tame (before time x) :=
  of_leads (fun _ => Leads.before time (Leads.quiet hx)) (Timely.before time hx.punctual).punctual

theorem within (limit : Limit) (hx : Tame x) : Tame (within limit x) :=
  of_leads (fun _ => Leads.within limit (Leads.quiet hx)) (hx.punctual.within limit)

/-- An action that is never cut off is tame when it leads quietly on. -/
theorem of_quiet (h : ∀ o (d : Desk), d.Quiet (x.run o d).2)
    (hc : ∀ o d l, (x.run o d).1 ≠ .cut l) :
    Tame x := ⟨h, fun o d l hl _ => absurd hl (hc o d l)⟩

/-- A change of the waited time alone is quiet. -/
theorem quiet_wait {d : Desk} {waited : Int} (h : d.waited ≤ waited) :
    d.Quiet { d with waited := waited } :=
  ⟨{ Desk.Steady.refl d with waited := h }, rfl⟩

theorem hang : Tame (hang : Action α) := by
  refine ⟨fun o d => ?_, Punctual.hang⟩
  simp only [Action.hang]
  split
  · exact Desk.Quiet.refl d
  · exact quiet_wait (Int.le_max_left _ _)

theorem elapse (micros : Nat) : Tame (elapse micros) := by
  refine ⟨fun o d => ?_, Punctual.elapse micros⟩
  simp only [Action.elapse]
  split
  · split
    · exact quiet_wait (Int.le_max_left _ _)
    · exact quiet_wait (by omega)
  · exact quiet_wait (by omega)

theorem deeper (hx : Tame x) : Tame (deeper x) :=
  of_leads (fun _ => Leads.deeper (Leads.quiet hx)) fun o d =>
    hx.punctual o { d with depth := d.depth + 1 }

theorem depth : Tame depth := of_quiet (fun _ d => Desk.Quiet.refl d) (by simp [Action.depth])

theorem office : Tame office := of_quiet (fun _ d => Desk.Quiet.refl d) (by simp [Action.office])

theorem settings : Tame settings :=
  of_quiet (fun _ d => Desk.Quiet.refl d) (by simp [Action.settings])

theorem today : Tame today := of_quiet (fun _ d => Desk.Quiet.refl d) (by simp [Action.today])

theorem deadline (limit : Limit) : Tame (deadline limit) :=
  of_quiet (fun _ d => Desk.Quiet.refl d) (by simp [Action.deadline])

theorem now : Tame now := by
  refine of_quiet (fun _ d => ⟨{ Desk.Steady.refl d with clock := ?_ }, rfl⟩) (by simp [Action.now])
  show d.clock ≤ d.clock + 1
  omega

theorem newId : Tame newId :=
  of_quiet (fun _ d => ⟨{ Desk.Steady.refl d with nextId := Nat.le_succ _ }, rfl⟩)
    (by simp [Action.newId])

theorem note (f : Journal → Journal) : Tame (note f) :=
  of_quiet (fun _ d => ⟨{ Desk.Steady.refl d with }, rfl⟩) (by simp [Action.note])

theorem nextNap : Tame nextNap := by
  refine of_quiet (fun o d => ?_) fun o d l => ?_
  · simp only [Action.nextNap]
    split
    · exact Desk.Quiet.refl d
    · exact ⟨{ Desk.Steady.refl d with }, rfl⟩
  · simp only [Action.nextNap]
    split <;> simp

theorem sleep (seconds : Double) : Tame (sleep seconds) := by
  refine (note _).bind fun _ => nextNap.bind fun nap => ?_
  split
  · exact pure _
  · exact elapse _

theorem tell (event : String) (data : Fields) : Tame (tell event data) :=
  of_quiet (fun _ d => by rw [run_tell]; exact ⟨{ Desk.Steady.refl d with }, rfl⟩)
    (by simp [Action.run_tell])

theorem nextPause : Tame nextPause := by
  refine of_quiet (fun o d => ?_) fun o d l => ?_
  · simp only [Action.nextPause]
    split
    · exact Desk.Quiet.refl d
    · exact ⟨{ Desk.Steady.refl d with }, rfl⟩
  · simp only [Action.nextPause]
    split <;> simp

theorem nextWeb : Tame nextWeb := by
  refine of_quiet (fun o d => ?_) fun o d l => ?_
  · simp only [Action.nextWeb]
    split
    · exact Desk.Quiet.refl d
    · exact ⟨{ Desk.Steady.refl d with }, rfl⟩
  · simp only [Action.nextWeb]
    split <;> simp

theorem nextModel : Tame nextModel := by
  refine of_quiet (fun o d => ?_) fun o d l => ?_
  · simp only [Action.nextModel]
    split
    · exact Desk.Quiet.refl d
    · rename_i reply rest h
      refine ⟨{ Desk.Steady.refl d with model := ?_ }, rfl⟩
      show rest <:+ d.script.model
      rw [h]
      exact List.suffix_cons reply rest
  · simp only [Action.nextModel]
    split <;> simp

theorem countCall (tool : String) : Tame (countCall tool) :=
  of_quiet (fun _ d => ⟨{ Desk.Steady.refl d with }, rfl⟩) (by simp [Action.countCall])

theorem added : Tame added :=
  of_quiet (fun _ d => Desk.Quiet.refl d) (by simp [Action.added])

theorem putAside (items : List Json) : Tame (putAside items) :=
  of_quiet (fun _ d => ⟨{ Desk.Steady.refl d with }, rfl⟩) (by simp [Action.putAside])

theorem await : Tame await := by
  refine nextPause.bind fun pause => ?_
  split
  · exact hang
  · exact pure _
  · exact elapse _

theorem send (request : WebRequest) : Tame (send request) := by
  refine (note _).bind fun _ => await.bind fun _ => nextWeb.bind fun reply => ?_
  split
  · exact fail _
  · exact fail _
  · exact pure _

theorem callModel (call : Fields) : Tame (callModel call) := by
  refine (note _).bind fun _ => await.bind fun _ => nextModel.bind fun reply => ?_
  split
  · exact fail _
  · exact pure _

theorem query (operation : String) (f : Store → Except Failure α) : Tame (query operation f) := by
  refine of_quiet (fun o d => ?_) fun o d l => ?_
  · simp only [Action.query]
    split
    · exact Desk.Quiet.refl d
    · split <;> exact Desk.Quiet.refl d
  · simp only [Action.query]
    split
    · simp
    · split <;> simp

/-- A change of the store is tame when it leaves the tables of the work as they are. -/
theorem change (operation : String) {f : Store → Except Failure (α × Store)}
    (h : ∀ s : Store, s.KeepsRest (f s)) : Tame (change operation f) := by
  refine of_quiet (fun o d => ?_) fun o d l => ?_
  · simp only [Action.change]
    split
    · exact Desk.Quiet.refl d
    · split
      · rename_i a t hf
        have hw := (h d.store a t hf).1
        simp only [Store.work, Prod.mk.injEq] at hw
        obtain ⟨he, hw, hs, hr, hl⟩ := hw
        exact ⟨{ Desk.Steady.refl d with events := he, workflows := hw, steps := hs, runs := hr },
          hl⟩
      · exact Desk.Quiet.refl d
  · simp only [Action.change]
    split
    · simp
    · split <;> simp

end Tame

/-! ## How failures are named -/

namespace Named

theorem pure (a : α) : Named (pure a) := by
  intro o d e h
  simp at h

theorem fail {e : Failure} (he : e.kind ≠ "") : Named (fail e : Action α) := by
  intro o d e' h
  simp only [run_fail, Ending.failed.injEq] at h
  exact h ▸ he

theorem ofExcept {x : Except Failure α} (h : ∀ e, x = .error e → e.kind ≠ "") :
    Named (ofExcept x) := by
  cases x
  · exact fail (h _ rfl)
  · exact pure _

theorem bind_of {P : α → Prop} {f : α → Action β} (hx : Named x) (hy : Yields P x)
    (hf : ∀ a, P a → Named (f a)) : Named (x >>= f) := by
  intro o d e h
  rw [run_bind] at h
  rcases hm : x.run o d with ⟨a | failure | level, m⟩ <;> rw [hm] at h
  · exact hf a (hy o d a (by rw [hm])) o m e h
  · refine hx o d e ?_
    rw [hm]
    simpa using h
  · simp at h

theorem bind {f : α → Action β} (hx : Named x) (hf : ∀ a, Named (f a)) : Named (x >>= f) :=
  hx.bind_of (P := fun _ => True) (fun _ _ _ _ => trivial) fun a _ => hf a

/-- What is attempted has no failures. -/
theorem attempt (x : Action α) : Named (attempt x) :=
  fun o d e h => absurd h (attempt_ne_failed x o d e)

theorem before (time : Int) (hx : Named x) : Named (before time x) := by
  intro o d e h
  rw [run_before] at h
  rcases hm : x.run { o with deadlines := time :: o.deadlines } d with
    ⟨a | failure | level, m⟩ <;> rw [hm] at h
  · simp at h
  · refine hx { o with deadlines := time :: o.deadlines } d e ?_
    rw [hm]
    simpa using h
  · dsimp only at h
    split at h <;> simp at h

theorem deeper (hx : Named x) : Named (deeper x) := fun o d => hx o { d with depth := d.depth + 1 }

theorem depth : Named depth := by simp [Named, Action.depth]

theorem office : Named office := by simp [Named, Action.office]

theorem settings : Named settings := by simp [Named, Action.settings]

theorem now : Named now := by simp [Named, Action.now]

theorem newId : Named newId := by simp [Named, Action.newId]

theorem added : Named added := by simp [Named, Action.added]

theorem putAside (items : List Json) : Named (putAside items) := by simp [Named, Action.putAside]

theorem sleep (seconds : Double) : Named (sleep seconds) := by
  have hnote : ∀ f, Named (note f) := by simp [Named, Action.note]
  have hnap : Named nextNap := by
    intro o d e h
    simp only [Action.nextNap] at h
    split at h <;> simp at h
  have helapse : ∀ micros, Named (elapse micros) := by
    intro micros o d e h
    simp only [Action.elapse] at h
    split at h
    · split at h <;> simp at h
    · simp at h
  refine (hnote _).bind fun _ => hnap.bind fun nap => ?_
  split
  · exact pure _
  · exact helapse _

/-- The failures that an office sets are named. -/
theorem kind_faultOf {o : Office} {operation : String} {e : Failure}
    (h : faultOf o operation = some e) : e.kind ≠ "" := by
  simp only [faultOf, Option.map_eq_some_iff] at h
  obtain ⟨_, _, rfl⟩ := h
  simp [Failure.kind]

theorem query (operation : String) {f : Store → Except Failure α}
    (hf : ∀ s e, f s = .error e → e.kind ≠ "") : Named (query operation f) := by
  intro o d e h
  simp only [Action.query] at h
  split at h
  · rename_i e' hf'
    simp only [Ending.failed.injEq] at h
    exact h ▸ kind_faultOf hf'
  · split at h
    · simp at h
    · rename_i e' he'
      simp only [Ending.failed.injEq] at h
      exact h ▸ hf _ _ he'

theorem change (operation : String) {f : Store → Except Failure (α × Store)}
    (hf : ∀ s e, f s = .error e → e.kind ≠ "") : Named (change operation f) := by
  intro o d e h
  simp only [Action.change] at h
  split at h
  · rename_i e' hf'
    simp only [Ending.failed.injEq] at h
    exact h ▸ kind_faultOf hf'
  · split at h
    · simp at h
    · rename_i e' he'
      simp only [Ending.failed.injEq] at h
      exact h ▸ hf _ _ he'

end Named

/-! ## What actions come to -/

namespace Yields

variable {P : α → Prop} {Q : β → Prop}

theorem pure {a : α} (h : P a) : Yields P (pure a) := by
  intro o d a' h'
  simp only [run_pure, Ending.done.injEq] at h'
  exact h' ▸ h

theorem fail (e : Failure) : Yields P (fail e : Action α) := by
  intro o d a h
  simp at h

theorem ofExcept {x : Except Failure α} (h : ∀ a, x = .ok a → P a) : Yields P (ofExcept x) := by
  cases x
  · exact fail _
  · exact pure (h _ rfl)

theorem bind {f : α → Action β} (hf : ∀ a, Yields Q (f a)) : Yields Q (x >>= f) := by
  intro o d b h
  rw [run_bind] at h
  rcases hm : x.run o d with ⟨a | failure | level, m⟩ <;> rw [hm] at h
  · exact hf a o m b h
  · simp at h
  · simp at h

theorem bind_of {f : α → Action β} (hx : Yields P x) (hf : ∀ a, P a → Yields Q (f a)) :
    Yields Q (x >>= f) := by
  intro o d b h
  rw [run_bind] at h
  rcases hm : x.run o d with ⟨a | failure | level, m⟩ <;> rw [hm] at h
  · exact hf a (hx o d a (by rw [hm])) o m b h
  · simp at h
  · simp at h

/-- A failure that is caught is a failure of what was attempted. -/
theorem attempt_named (hx : Named x) :
    (attempt x).Yields fun result => ∀ e, result = .error e → e.kind ≠ "" := by
  rintro o d result h e rfl
  rw [run_attempt] at h
  rcases hm : x.run o d with ⟨a | failure | level, m⟩ <;> rw [hm] at h
  · simp at h
  · refine hx o d e ?_
    rw [hm]
    simpa using h
  · simp at h

theorem within (limit : Limit) (hx : Yields P x) :
    (within limit x).Yields fun result => ∀ a, result = some a → P a := by
  rintro o d result h a rfl
  obtain ⟨o', hrun⟩ := run_within_eq_some (Prod.ext h rfl)
  exact hx o' d a (by rw [hrun])

end Yields

/-! ## What is kept by composition -/

/-- A property of actions that is kept when they are put together, and that all actions have which
take an id or a moment. -/
structure Combines (P : (α : Type) → Action α → Prop) : Prop where
  pure : ∀ {α : Type} (a : α), P α (pure a)
  fail : ∀ {α : Type} (failure : Failure), P α (fail failure)
  bind : ∀ {α β : Type} {x : Action α} {f : α → Action β}, P α x → (∀ a, P β (f a)) → P β (x >>= f)
  attempt : ∀ {α : Type} {x : Action α}, P α x → P (Except Failure α) (attempt x)
  sleep : ∀ seconds, P Unit (sleep seconds)
  now : P Timestamp now
  newId : P String newId
  depth : P Nat depth
  deeper : ∀ {α : Type} {x : Action α}, P α x → P α (deeper x)

/-- Such a property that all actions have which look something up as well. -/
structure Composes (P : (α : Type) → Action α → Prop) : Prop extends Combines P where
  query : ∀ {α : Type} (operation : String) (f : Store → Except Failure α),
    P α (query operation f)

section

variable {P : (α : Type) → Action α → Prop}

theorem Combines.ofExcept (hP : Combines P) (x : Except Failure α) : P α (ofExcept x) := by
  cases x
  · exact hP.fail _
  · exact hP.pure _

theorem Combines.ite (_ : Combines P) {c : Prop} [Decidable c] {x y : Action α} (hx : P α x)
    (hy : P α y) : P α (if c then x else y) := by
  split
  · exact hx
  · exact hy

end

theorem Leads.composes [Desk.Trail R] : Composes fun _ => Leads S R where
  pure := Leads.pure
  fail := Leads.fail
  bind := Leads.bind
  attempt := Leads.attempt
  query _ _ := .of_tame (.query _ _)
  sleep _ := .of_tame (.sleep _)
  now := .of_tame .now
  newId := .of_tame .newId
  depth := .of_tame .depth
  deeper := Leads.deeper

theorem Timely.composes : Composes fun _ => Timely where
  pure := Timely.pure
  fail := Timely.fail
  bind := Timely.bind
  attempt := Timely.attempt
  query := Timely.query
  sleep := Timely.sleep
  now := Timely.now
  newId := Timely.newId
  depth := Timely.depth
  deeper := Timely.deeper

end Action

end LeadDesk
