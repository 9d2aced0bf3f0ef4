import LeadDesk.Proofs.Escapes
import LeadDesk.Proofs.Records
/-!
# What becomes of contacts

Prompts, logs and emissions leave the contacts of the desk alone (`Action.Spares`). A contact that
is deleted was there and is gone afterwards (`Store.contact?_of_deleteContact`).
-/

namespace LeadDesk

namespace Action

variable {α β : Type} {x : Action α}

/-- However the action ends, the contacts are what they were. -/
def Spares (x : Action α) : Prop := ∀ o d, (x.run o d).2.store.contacts = d.store.contacts

namespace Spares

theorem of_run (hx : Spares x) {o : Office} {d e : Desk} {ending : Ending α}
    (h : x.run o d = (ending, e)) : e.store.contacts = d.store.contacts := by
  have hc := hx o d
  rwa [h] at hc

/-- An action that changes nothing but the script, the journal and the times. -/
theorem of_store (h : ∀ o d, (x.run o d).2.store = d.store) : Spares x := fun o d => by rw [h]

theorem pure (a : α) : Spares (pure a) := fun _ _ => rfl

theorem fail (e : Failure) : Spares (fail e : Action α) := fun _ _ => rfl

theorem ofExcept (r : Except Failure α) : Spares (ofExcept r) := by
  cases r
  · exact fail _
  · exact pure _

theorem bind {f : α → Action β} (hx : Spares x) (hf : ∀ a, Spares (f a)) : Spares (x >>= f) := by
  intro o d
  rw [run_bind]
  rcases hm : x.run o d with ⟨a | failure | level, m⟩
  · exact (hf a o m).trans (hx.of_run hm)
  · exact hx.of_run hm
  · exact hx.of_run hm

theorem attempt (hx : Spares x) : Spares (attempt x) := by
  intro o d
  rw [desk_attempt]
  exact hx o d

theorem before (time : Int) (hx : Spares x) : Spares (before time x) := by
  intro o d
  rw [run_before]
  rcases hm : x.run { o with deadlines := time :: o.deadlines } d with ⟨a | failure | level, m⟩
  · exact hx.of_run hm
  · exact hx.of_run hm
  · dsimp only
    split <;> exact hx.of_run hm

theorem within (limit : Limit) (hx : Spares x) : Spares (within limit x) := by
  intro o d
  show (if limit.micros ≤ 0 then (Ending.done none, d) else
    (Action.before (d.waited + limit.micros) x).run o d).2.store.contacts = _
  split
  · rfl
  · exact hx.before _ o d

theorem settings : Spares settings := of_store fun _ _ => rfl

theorem now : Spares now := of_store fun _ _ => rfl

theorem newId : Spares newId := of_store fun _ _ => rfl

theorem note (f : Journal → Journal) : Spares (note f) := of_store fun _ _ => rfl

theorem tell (event : String) (data : Fields) : Spares (tell event data) :=
  of_store fun _ _ => by rw [run_tell]

theorem hang : Spares (hang : Action α) := by
  refine of_store fun o d => ?_
  simp only [Action.hang]
  split <;> rfl

theorem elapse (micros : Nat) : Spares (elapse micros) := by
  refine of_store fun o d => ?_
  simp only [Action.elapse]
  split
  · split <;> rfl
  · rfl

theorem await : Spares await := by
  have hpause : Spares nextPause := by
    refine of_store fun o d => ?_
    simp only [Action.nextPause]
    split <;> rfl
  refine hpause.bind fun pause => ?_
  split
  · exact hang
  · exact pure _
  · exact elapse _

theorem callModel (call : Fields) : Spares (callModel call) := by
  have hmodel : Spares nextModel := by
    refine of_store fun o d => ?_
    simp only [Action.nextModel]
    split <;> rfl
  refine (note _).bind fun _ => await.bind fun _ => hmodel.bind fun reply => ?_
  split
  · exact fail _
  · exact pure _

/-- A change of other tables. -/
theorem change (operation : String) {f : Store → Except Failure (α × Store)}
    (h : ∀ s a t, f s = .ok (a, t) → t.contacts = s.contacts) : Spares (change operation f) := by
  intro o d
  rcases hm : (Action.change operation f).run o d with ⟨ending, e⟩
  obtain ⟨_, _, rfl, _⟩ | ⟨a, t, _, ht, rfl⟩ := change_cases hm
  · rfl
  · exact h _ _ _ ht

end Spares

end Action

open LeadDesk.Action (Spares)

/-! ## Contacts that are left alone -/

theorem PromptStep.spares_run (config : Fields) (context : Json) : (run config context).Spares := by
  dsimp only [run]
  split
  · exact .fail _
  · refine Spares.settings.bind fun settings => ?_
    have hcomplete : ∀ (client : ModelClient) prompt maxTokens tier,
        (client.complete prompt maxTokens tier).Spares := by
      intro client prompt maxTokens tier
      have hask : ∀ call, (ModelClient.ask call).Spares := fun call => by
        refine (Spares.callModel call).bind fun reply => ?_
        cases reply
        · exact .pure _
        · exact .pure _
        · exact .fail _
        · exact .hang
      refine ((hask _).within _).attempt.bind fun result => ?_
      split
      · exact .pure _
      · exact .fail _
      · exact .fail _
      · exact .fail _
    refine (hcomplete _ _ _ _).attempt.bind fun result => ?_
    split
    · exact .ofExcept _
    · exact .pure _
    · exact .fail _

/-- A prompt leaves the contacts alone, whether it is sent or not. -/
theorem WorkflowStep.spares_carryOut {s : WorkflowStep} (h : s.action = .prompt) (context : Json) :
    (s.carryOut context).Spares := by
  have habsence : s.absence.Spares := .of_store fun o d => by rw [s.desk_absence]
  refine habsence.bind fun found => ?_
  cases found with
  | some r => exact .pure _
  | none =>
    simp only [run, h]
    exact PromptStep.spares_run _ _

namespace Course

theorem spares_resultOf {s : WorkflowStep} (h : s.action = .prompt) (context : Fields) :
    (resultOf s context).Spares := by
  refine (Spares.ofExcept _).bind fun holds => ?_
  split
  · exact (WorkflowStep.spares_carryOut h _).bind fun _ => .pure _
  · exact .pure _

theorem spares_part {α : Type} (c : Course) {x : Action α} (h : x.Spares) : (c.part x).Spares := by
  refine (h.before _).attempt.bind fun result => ?_
  split <;> exact .pure _

theorem spares_log (c : Course) (s : WorkflowStep) (r : StepResult) : (c.log s r).Spares := by
  refine Spares.newId.bind fun id => Spares.now.bind fun now => .change _ fun store a t h => ?_
  cases hl : store.addLog _ with
  | error failure =>
    rw [hl] at h
    cases h
  | ok added =>
    rw [hl] at h
    obtain ⟨_, rfl⟩ := Prod.mk.inj (Except.ok.inj h)
    rw [Store.addLog_eq_ok hl]

end Course

theorem Emitter.spares_queue (f : FollowUp) : (queue f).Spares := by
  have hcreate : ∀ e, (Archive.createEvent e).Spares := fun e => .change _ fun s a t h => by
    rw [(Store.addEvent_eq_ok h).2.2]
  refine Spares.newId.bind fun id => Spares.now.bind fun now => ?_
  dsimp only
  split
  · exact (Spares.pure _).bind fun e => hcreate e
  · exact (Spares.fail _).bind fun e => hcreate e

namespace Course

variable {c : Course}

theorem spares_settle (hc : c.emitter = Emitter.queue) (s : WorkflowStep) (r : StepResult)
    (p : Progress) : (c.settle s r p).Spares := by
  have hemit : ∀ context em, (c.emit context em).Spares := fun context em =>
    (Spares.ofExcept _).bind fun f => by
      rw [hc]
      exact (Emitter.spares_queue f).bind fun _ => .pure _
  unfold settle
  split
  · refine (Spares.tell _ _).bind fun _ => ?_
    dsimp only
    split
    · exact .pure _
    · refine (c.spares_part (hemit _ _)).bind fun sent => ?_
      split
      · exact .pure _
      · exact (Spares.tell _ _).bind fun _ => .pure _
  · refine (Spares.tell _ _).bind fun _ => ?_
    split <;> exact .pure _

end Course

/-! ## Contacts that are deleted -/

namespace Store

variable {s t : Store} {id : Json}

theorem contact?_congr (h : t.contacts = s.contacts) (id : Json) :
    t.contact? id = s.contact? id := by
  rw [contact?, contact?, h]

/-- A text column equals a wanted value when it has its text. -/
theorem text?_of_same {wanted w v : Json} (hw : Column.textForm wanted = .ok w)
    (h : w.same v = true) : v.text? = w.text? := by
  have hform : w = .null ∨ ∃ text, w = .string text := by
    unfold Column.textForm at hw
    split at hw
    · exact .inl (Except.ok.inj hw).symm
    · exact .inr ⟨_, (Except.ok.inj hw).symm⟩
    · exact .inr ⟨_, (Except.ok.inj hw).symm⟩
    · split at hw
      · exact .inr ⟨_, (Except.ok.inj hw).symm⟩
      · cases hw
    · split at hw
      · exact .inl (Except.ok.inj hw).symm
      · exact .inr ⟨_, (Except.ok.inj hw).symm⟩
    · cases hw
    · cases hw
  obtain rfl | ⟨text, rfl⟩ := hform <;> cases v with
  | string t => first | cases h | rw [eq_of_beq h]
  | _ => first | rfl | cases h

/-- A contact that is deleted was there, and is not there afterwards. -/
theorem contact?_of_deleteContact (h : s.deleteContact id = .ok (true, t)) :
    ∃ row, s.contact? id = .ok (some row) ∧ t.contact? id = .ok none := by
  unfold deleteContact at h
  cases hfound : s.contact? id with
  | error failure => simp [hfound, bind, Except.bind] at h
  | ok found =>
    cases found with
    | none => simp [hfound, bind, Except.bind, pure, Except.pure] at h
    | some row =>
      refine ⟨row, rfl, ?_⟩
      simp only [hfound, bind, Except.bind, pure, Except.pure, Except.ok.injEq, Prod.mk.injEq,
        true_and] at h
      subst h
      unfold contact? Row.select at hfound ⊢
      cases hw : Column.textForm id with
      | error failure => simp [hw, Except.map] at hfound
      | ok w =>
        simp only [hw, Except.map, Except.ok.injEq] at hfound ⊢
        have hrow := (List.mem_filter.1 (List.mem_of_mem_head? hfound)).2
        rw [List.filter_filter, List.head?_eq_none_iff, List.filter_eq_nil_iff]
        intro r _ hr
        obtain ⟨hsame, hne⟩ := Bool.and_eq_true_iff.1 hr
        refine bne_iff_ne.1 hne ?_
        rw [Row.id, Row.text?, text?_of_same hw hsame, Row.id, Row.text?, text?_of_same hw hrow]

end Store

end LeadDesk
