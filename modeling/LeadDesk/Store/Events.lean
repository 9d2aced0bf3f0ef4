import LeadDesk.Store.Basic
/-!
# Stored events

An event is stored unprocessed or as it says, with the wall clock of its moment of creation
read as universal time. It can be marked as processed, once and for all, and the events that
are not yet processed can be listed, oldest first.
-/

namespace LeadDesk

namespace Store

/-- The event with an id. -/
def event? (s : Store) (id : String) : Option Event := s.events.find? (·.id == id)

/-- The form in which an event is stored. -/
def storedEvent (e : Event) : Event :=
  { e with processedAt := none, createdAt := e.createdAt.atUniversal }

/-- Store an event. -/
def addEvent (s : Store) (e : Event) : Except Failure (Event × Store) :=
  if (s.event? e.id).isSome then .error .duplicateKey
  else .ok (storedEvent e, { s with events := s.events ++ [storedEvent e] })

/-- Mark an event as processed. -/
def markProcessed (s : Store) (id : String) (now : Timestamp) : Store :=
  { s with
    events := s.events.map fun e =>
      if e.id == id then { e with processed := true, processedAt := some now.atUniversal } else e }

/-- All events that are not processed, oldest first. -/
def pending (s : Store) : List Event :=
  (s.events.filter (!·.processed)).mergeSort fun a b => a.createdAt.wall ≤ b.createdAt.wall

/-- The oldest events that are not processed. -/
def unprocessed (s : Store) (limit : Option Int) : List Event := Row.upTo limit s.pending

/-- The most recent events about a record, newest first. -/
def entityEvents (s : Store) (entityId : Option String) (limit : Option Int) : List Row :=
  let own := s.events.filter (·.entityId == entityId)
  (Row.upTo limit (own.mergeSort fun a b => b.createdAt.wall ≤ a.createdAt.wall)).map Event.toRow

/-- A stored event is found under its id, if no other event has it. -/
theorem event?_addEvent {s t : Store} {e stored : Event} (h : s.addEvent e = .ok (stored, t)) :
    t.event? e.id = some stored := by
  unfold addEvent at h
  split at h
  · simp at h
  · rename_i hnone
    simp only [Except.ok.injEq, Prod.mk.injEq] at h
    obtain ⟨rfl, rfl⟩ := h
    have hn : s.events.find? (·.id == e.id) = none := by
      cases hf : s.events.find? (·.id == e.id) <;> simp_all [event?]
    simp [event?, List.find?_append, hn, storedEvent]

end Store

end LeadDesk
