import LeadDesk.Enrichment.Provider
import LeadDesk.Proofs.Conduct
import LeadDesk.Proofs.Rows
import Mathlib.Data.List.TakeWhile
/-!
# Reports of providers

A provider should answer with a report whatever the service behind it says: an object that tells
whether the call succeeded, and why not. It does so where the answer of the service is trouble of
the web, a bad status, or data of the shape that the provider expects (`Provider.Understands`);
anything else is a failure. A call ends with a report exactly where the provider refuses its input
or can send its credential and understands the answer (`Provider.call_reports`).
-/

namespace LeadDesk

namespace Json

/-- The value says whether a call succeeded, with a text of the error where it did not. -/
def IsReport (v : Json) : Prop :=
  ∃ fields ok, v = .object fields ∧ Fields.get? fields "success" = some (.bool ok) ∧
    (ok = false → ∃ text, Fields.get? fields "error" = some (.string text) ∧ text ≠ "")

/-- The value is an object. -/
def IsObject (v : Json) : Prop := ∃ fields, v = .object fields

/-- Along the keys there are objects, each of them possibly left out. -/
def Opens : List String → Json → Prop
  | [], v => v.IsObject
  | key :: path, v => ∃ fields, v = .object fields ∧
    Opens path ((Fields.getD fields key).orElse .empty)

end Json

open Json (IsReport IsObject Opens)

/-- What ended so gave a report where the condition holds, and failed elsewhere. -/
def Ending.Reports (ending : Ending Json) (P : Prop) : Prop :=
  (P → ∃ v, ending = .done v ∧ v.IsReport) ∧ (¬ P → ∃ e, ending = .failed e)

theorem Ending.reports_congr {ending : Ending Json} {P Q : Prop} (h : P ↔ Q) :
    ending.Reports P ↔ ending.Reports Q := by
  rw [propext h]

namespace Provider

/-- The computation gives a value as asked where the condition holds, and fails elsewhere. -/
def Decides {α : Type} (x : Except Failure α) (P : Prop) (Q : α → Prop) : Prop :=
  (P → ∃ a, x = .ok a ∧ Q a) ∧ (¬ P → ∃ e, x = .error e)

section

variable {α β : Type} {x : Except Failure α} {f : α → Except Failure β} {P P' : Prop}
  {Q : α → Prop} {Q' : β → Prop}

theorem Decides.of_ok {a : α} (hx : x = .ok a) (hP : P) (ha : Q a) : Decides x P Q :=
  ⟨fun _ => ⟨a, hx, ha⟩, fun h => absurd hP h⟩

theorem Decides.of_error {e : Failure} (hx : x = .error e) (hP : ¬ P) : Decides x P Q :=
  ⟨fun h => absurd h hP, fun _ => ⟨e, hx⟩⟩

theorem Decides.bind (hx : Decides x P Q) (hf : ∀ a, Q a → Decides (f a) P' Q') :
    Decides (x >>= f) (P ∧ P') Q' := by
  by_cases hP : P
  · obtain ⟨a, rfl, ha⟩ := hx.1 hP
    exact ⟨fun h => (hf a ha).1 h.2, fun h => (hf a ha).2 fun hP' => h ⟨hP, hP'⟩⟩
  · obtain ⟨e, rfl⟩ := hx.2 hP
    exact .of_error rfl fun h => hP h.1

end

/-! ## Reports -/

theorem isReport_success (data : Fields) : IsReport (success data) :=
  ⟨_, true, rfl, rfl, fun h => nomatch h⟩

theorem isReport_nothingFound (message : String) : IsReport (nothingFound message) :=
  ⟨_, true, rfl, rfl, fun h => nomatch h⟩

theorem isReport_refusal {message : String} (h : message ≠ "") : IsReport (refusal message) :=
  ⟨_, false, rfl, rfl, fun _ => ⟨message, rfl, h⟩⟩

theorem isReport_badStatus (service : String) (status : Int) :
    IsReport (badStatus service status) := by
  refine ⟨_, false, rfl, rfl, fun _ => ⟨_, rfl, fun hempty => ?_⟩⟩
  have hparts := congrArg String.length hempty
  simp only [String.length_append, String.length_empty, Nat.add_eq_zero_iff] at hparts
  exact absurd hparts.1.2 (by decide)

theorem isReport_transportFailure {e : Failure} (h : e.kind ≠ "") : IsReport (transportFailure e) :=
  ⟨_, false, rfl, rfl, fun _ => ⟨e.text, rfl, e.text_ne_empty h⟩⟩

/-! ## Members of answers -/

theorem member_object (key : String) (fields : Fields) :
    member key (.object fields) = .ok (Fields.getD fields key) := rfl

theorem memberOrEmpty_object (key : String) (fields : Fields) :
    memberOrEmpty key (.object fields) = .ok ((Fields.getD fields key).orElse .empty) := rfl

theorem members_object (fields : Fields) (names : List (String × String)) :
    members (.object fields) names =
      .ok (names.map fun (name, key) => (name, Fields.getD fields key)) := by
  induction names with
  | nil => rfl
  | cons name names ih =>
    rw [members, member_object, ih]
    rfl

variable {v : Json}

theorem member_of_not_isObject (h : ¬ v.IsObject) (key : String) :
    ∃ e, member key v = .error e := by
  cases v with
  | object fields => exact absurd ⟨fields, rfl⟩ h
  | null | bool | int | float | string | array => exact ⟨_, rfl⟩

theorem memberOrEmpty_of_not_isObject (h : ¬ v.IsObject) (key : String) :
    ∃ e, memberOrEmpty key v = .error e := by
  obtain ⟨e, he⟩ := member_of_not_isObject h key
  exact ⟨e, by rw [memberOrEmpty, he]; rfl⟩

theorem members_of_not_isObject (h : ¬ v.IsObject) (name : String × String)
    (names : List (String × String)) : ∃ e, members v (name :: names) = .error e := by
  obtain ⟨e, he⟩ := member_of_not_isObject h name.2
  exact ⟨e, by rw [members, he]; rfl⟩

theorem Opens.isObject {path : List String} (h : Opens path v) : v.IsObject := by
  cases path with
  | nil => exact h
  | cons key path => exact ⟨h.choose, h.choose_spec.1⟩

theorem opens_object (key : String) (path : List String) (fields : Fields) :
    Opens (key :: path) (.object fields) ↔
      Opens path ((Fields.getD fields key).orElse .empty) := by
  refine ⟨?_, fun h => ⟨fields, rfl, h⟩⟩
  rintro ⟨_, ⟨⟩, h⟩
  exact h

section

variable {α β : Type} {x : Except Failure α} {f : α → Except Failure β} {P : Prop}
  {Q : β → Prop}

/-- What asks for members needs an object. -/
theorem decides_ofObject (hobject : P → v.IsObject) (hget : ¬ v.IsObject → ∃ e, x = .error e)
    (hf : ∀ fields, v = .object fields → Decides (x >>= f) P Q) : Decides (x >>= f) P Q := by
  by_cases hv : v.IsObject
  · obtain ⟨fields, rfl⟩ := hv
    exact hf fields rfl
  · obtain ⟨e, rfl⟩ := hget hv
    exact .of_error rfl fun h => hv (hobject h)

theorem decides_member {key : String} {f : Json → Except Failure β} (hobject : P → v.IsObject)
    (hf : ∀ fields, v = .object fields → Decides (f (Fields.getD fields key)) P Q) :
    Decides (member key v >>= f) P Q :=
  decides_ofObject hobject (member_of_not_isObject · key) fun fields h => by
    subst h
    exact hf fields rfl

theorem decides_memberOrEmpty {key : String} {f : Json → Except Failure β}
    (hobject : P → v.IsObject) (hf : ∀ fields, v = .object fields →
      Decides (f ((Fields.getD fields key).orElse .empty)) P Q) :
    Decides (memberOrEmpty key v >>= f) P Q :=
  decides_ofObject hobject (memberOrEmpty_of_not_isObject · key) fun fields h => by
    subst h
    exact hf fields rfl

theorem decides_members {name : String × String} {names : List (String × String)}
    {f : Fields → Except Failure β} (hobject : P → v.IsObject)
    (hf : ∀ fields found, v = .object fields → Decides (f found) P Q) :
    Decides (members v (name :: names) >>= f) P Q :=
  decides_ofObject hobject (fun hv => members_of_not_isObject hv name names) fun fields h => by
    subst h
    rw [members_object]
    exact hf fields _ rfl

end

/-! ## Exchanges -/

/-- The answer of the service can be made a result: it is trouble of the web, it has a bad status,
or it holds data as expected. -/
def Understands (good : List Int) (expects : Json → Prop) : WebReply → Prop
  | .broken e => isWebTrouble e = true
  | reply => status reply ∈ good → ∃ answer, data reply = .ok answer ∧ expects answer

/-- The trouble of an answer has a name. -/
def IsNamed : WebReply → Prop
  | .broken e => e.kind ≠ ""
  | _ => True

section

variable {o : Office} {d : Desk} {reply : WebReply} {rest : List WebReply}

/-- How a request ends that gets this answer. -/
def received : WebReply → Ending WebReply
  | .broken e => .failed e
  | reply => .done reply

/-- A request gets the next answer, which is there at once. -/
theorem run_send (hpauses : d.script.pauses = []) (hweb : d.script.web = reply :: rest)
    (request : WebRequest) (o : Office) :
    ((Action.send request).run o d).1 = received reply := by
  simp only [Action.send, Action.await, Action.run_bind, Action.note, Action.nextPause, hpauses,
    Action.run_pure, Action.nextWeb, hweb]
  cases reply <;> rfl

variable {service : String} {good : List Int} {request : Except Failure WebRequest}
  {interpret : Json → Except Failure Json} {sends : Prop} {expects : Json → Prop}

/-- An answer is made a report where its status is bad or its data are as expected. -/
theorem answer_reports (hanswer : ∀ answer, Decides (interpret answer) (expects answer) IsReport)
    (reply : WebReply) (o : Office) (d : Desk) :
    ((if good.contains (status reply) then Action.ofExcept (data reply >>= interpret)
      else return badStatus service (status reply)).run o d).1.Reports
      (status reply ∈ good → ∃ answer, data reply = .ok answer ∧ expects answer) := by
  by_cases hgood : status reply ∈ good
  · rw [if_pos (List.contains_iff_mem.2 hgood)]
    cases hdata : data reply with
    | error e =>
      refine ⟨fun h => ?_, fun _ => ⟨e, rfl⟩⟩
      obtain ⟨_, hok, -⟩ := h hgood
      cases hok
    | ok answer =>
      refine ⟨fun h => ?_, fun h => ?_⟩
      · obtain ⟨_, ⟨⟩, hexpects⟩ := h hgood
        obtain ⟨v, hv, hreport⟩ := (hanswer answer).1 hexpects
        refine ⟨v, ?_, hreport⟩
        change ((Action.ofExcept (interpret answer)).run o d).1 = _
        rw [hv]
        rfl
      · obtain ⟨e, he⟩ := (hanswer answer).2 fun hexpects => h fun _ => ⟨answer, rfl, hexpects⟩
        refine ⟨e, ?_⟩
        change ((Action.ofExcept (interpret answer)).run o d).1 = _
        rw [he]
        rfl
  · rw [if_neg (mt List.contains_iff_mem.1 hgood)]
    exact ⟨fun _ => ⟨_, rfl, isReport_badStatus service (status reply)⟩,
      fun h => absurd (fun hmem => absurd hmem hgood) h⟩

/-- An exchange ends with a report where its request can be made and the answer is understood. -/
theorem exchange_reports (hpauses : d.script.pauses = []) (hweb : d.script.web = reply :: rest)
    (hnamed : IsNamed reply) (hrequest : Decides request sends fun _ => True)
    (hanswer : ∀ answer, Decides (interpret answer) (expects answer) IsReport) :
    ((exchange service good request interpret).run o d).1.Reports
      (sends ∧ Understands good expects reply) := by
  by_cases hsends : sends
  · obtain ⟨req, rfl, -⟩ := hrequest.1 hsends
    have hsent := run_send hpauses hweb req o
    change ((Action.attempt (Action.send req) >>= _).run o d).1.Reports _
    rw [Action.run_bind, Action.run_attempt, Ending.reports_congr (and_iff_right hsends)]
    rcases hrun : (Action.send req).run o d with ⟨ending, after⟩
    rw [hrun] at hsent
    cases reply with
    | broken e =>
      obtain rfl : ending = .failed e := hsent
      by_cases htrouble : isWebTrouble e = true
      · refine ⟨fun _ => ⟨transportFailure e, ?_, isReport_transportFailure hnamed⟩,
          fun h => absurd htrouble h⟩
        simp only [htrouble, if_true]
        rfl
      · refine ⟨fun h => absurd h htrouble, fun _ => ⟨e, ?_⟩⟩
        simp only [htrouble]
        rfl
    | data code body =>
      obtain rfl : ending = .done (.data code body) := hsent
      exact answer_reports hanswer _ o after
    | text code body =>
      obtain rfl : ending = .done (.text code body) := hsent
      exact answer_reports hanswer _ o after
  · obtain ⟨e, rfl⟩ := hrequest.2 hsends
    exact ⟨fun h => absurd h.1 hsends, fun _ => ⟨e, rfl⟩⟩

end

/-! ## Credentials in requests -/

/-- A text of ASCII characters. -/
def IsAscii (s : String) : Prop := ∀ c ∈ s.toList, c.toNat < 128

/-- The credentials hold a key that a header can hold. -/
def HeaderKey (credentials : Fields) : Prop :=
  ∃ key, Fields.get? credentials "api_key" = some (.string key) ∧ IsAscii key

/-- The credentials hold a key whose text a header can hold. -/
def BearerKey (credentials : Fields) : Prop :=
  ∃ key, Fields.get? credentials "api_key" = some key ∧ IsAscii key.plain

section

variable {credentials : Fields}

theorem Decides.bind_ok {α β : Type} {x : Except Failure α} {f : α → Except Failure β} {P : Prop}
    {Q : α → Prop} {Q' : β → Prop} (hx : Decides x P Q)
    (hf : ∀ a, Q a → ∃ b, f a = .ok b ∧ Q' b) : Decides (x >>= f) P Q' := by
  refine ⟨fun h => ?_, fun h => ?_⟩
  · obtain ⟨a, rfl, ha⟩ := hx.1 h
    exact hf a ha
  · obtain ⟨e, rfl⟩ := hx.2 h
    exact ⟨e, rfl⟩

theorem headerText_decides (s : String) : Decides (headerText s) (IsAscii s) fun _ => True := by
  rw [headerText]
  cases hrest : s.toList.dropWhile (fun c => decide (c.toNat < 128)) with
  | nil =>
    have hascii : IsAscii s := fun c hc =>
      of_decide_eq_true (List.dropWhile_eq_nil_iff.1 hrest c hc)
    exact .of_ok rfl hascii trivial
  | cons c rest =>
    refine .of_error rfl fun hascii => ?_
    have hnil := List.dropWhile_eq_nil_iff.2 fun c hc => decide_eq_true (hascii c hc)
    rw [hrest] at hnil
    cases hnil

theorem credential_decides (name : String) :
    Decides (credential credentials name) (∃ key, Fields.get? credentials name = some key)
      fun key => Fields.get? credentials name = some key := by
  rw [credential]
  cases hkey : Fields.get? credentials name with
  | none => exact .of_error rfl fun ⟨_, h⟩ => nomatch h
  | some key => exact .of_ok rfl ⟨key, rfl⟩ rfl

theorem headerKey_decides :
    Decides (credential credentials "api_key" >>= header) (HeaderKey credentials)
      fun _ => True := by
  rw [credential]
  cases hkey : Fields.get? credentials "api_key" with
  | none => exact .of_error rfl fun ⟨_, h, _⟩ => nomatch hkey.symm.trans h
  | some key =>
    cases key with
    | string s =>
      have hiff : HeaderKey credentials ↔ IsAscii s := by
        rw [HeaderKey, hkey]
        refine ⟨?_, fun h => ⟨s, rfl, h⟩⟩
        rintro ⟨_, ⟨⟩, h⟩
        exact h
      rw [Decides, hiff]
      exact headerText_decides s
    | null | bool | int | float | array | object =>
      exact .of_error rfl fun ⟨_, h, _⟩ => nomatch hkey.symm.trans h

theorem bearerKey_decides :
    Decides (credential credentials "api_key" >>= fun key => headerText ("Bearer " ++ key.plain))
      (BearerKey credentials) fun _ => True := by
  rw [credential]
  cases hkey : Fields.get? credentials "api_key" with
  | none => exact .of_error rfl fun ⟨_, h, _⟩ => nomatch hkey.symm.trans h
  | some key =>
    have hbearer : IsAscii ("Bearer " ++ key.plain) ↔ IsAscii key.plain := by
      rw [IsAscii, String.toList_append, List.forall_mem_append]
      exact and_iff_right (by simp)
    have hiff : BearerKey credentials ↔ IsAscii ("Bearer " ++ key.plain) := by
      rw [BearerKey, hkey, hbearer]
      refine ⟨?_, fun h => ⟨key, rfl, h⟩⟩
      rintro ⟨_, ⟨⟩, h⟩
      exact h
    rw [Decides, hiff]
    exact headerText_decides _

end

/-! ## Texts as input -/

/-- All values of the input are texts. -/
def HoldsTexts (input : Fields) : Prop := ∀ f ∈ input, ∃ s, f.2 = .string s

theorem isFinite_object {fields : Fields} (h : ∀ f ∈ fields, f.2.isFinite = true) :
    (Json.object fields).isFinite = true := by
  rw [Json.isFinite]
  induction fields with
  | nil => rfl
  | cons f rest ih =>
    obtain ⟨hf, hrest⟩ := List.forall_mem_cons.1 h
    rw [Json.areFieldsFinite, hf, ih hrest]
    rfl

section

variable {input : Fields}

/-- What the input gives is a text. -/
theorem HoldsTexts.getD (h : HoldsTexts input) {key : String}
    (hgiven : (Fields.getD input key).isGiven = true) :
    ∃ s, Fields.getD input key = .string s := by
  rw [Fields.getD] at hgiven ⊢
  cases hkey : Fields.get? input key with
  | none =>
    rw [hkey] at hgiven
    cases hgiven
  | some v => exact h _ (Fields.mem_of_get? hkey)

theorem HoldsTexts.sendable_givenFields (h : HoldsTexts input) (names : List (String × String)) :
    sendable (.object (givenFields input names)) = .ok (.object (givenFields input names)) := by
  refine if_pos (isFinite_object fun f hf => ?_)
  obtain ⟨hmem, hgiven⟩ := List.mem_filter.1 hf
  obtain ⟨⟨name, key⟩, -, rfl⟩ := List.mem_map.1 hmem
  obtain ⟨s, hs⟩ := h.getD hgiven
  exact (congrArg Json.isFinite hs).trans rfl

end

/-! ## Each provider -/

section

variable {credentials input : Fields} {o : Office} {d : Desk} {reply : WebReply}
  {rest : List WebReply}

/-- A post that can be read: its text is left out, a text or a list. -/
def IsPost (post : Json) : Prop :=
  ∃ fields, post = .object fields ∧
    ((∃ s, (Fields.getD fields "text").orElse (.string "") = .string s) ∨
      ∃ items, (Fields.getD fields "text").orElse (.string "") = .array items)

/-- The shape of the data that each provider expects. -/
def Expects : Provider → Json → Prop
  | person | verifyEmail => Opens ["data"]
  | findEmail => Opens ["data", "verification"]
  | matchPerson => Opens ["person", "organization"]
  | company => Opens ["organization"]
  | profile => fun answer => answer.isGiven = true →
      ∃ items, answer = .array items ∧ ∀ post ∈ items.take 5, IsPost post
  | research => fun answer => ∃ fields, answer = .object fields ∧
      ∃ items, (Fields.getD fields "results").orElse (.array []) = .array items ∧
        ∀ item ∈ items, item.IsObject

/-- The statuses of answers that hold data. -/
def goodStatuses : Provider → List Int
  | profile => [200, 201]
  | _ => [200]

/-- The provider gives a result for this input without asking its service. -/
def Refuses (input : Fields) : Provider → Prop
  | person | matchPerson => False
  | findEmail | company => (Fields.getD input "domain").isGiven = false
  | verifyEmail => (Fields.getD input "email").isGiven = false
  | profile => (Fields.getD input "linkedin_url").isGiven = false
  | research =>
    ((Fields.getD input "company_name").orElse (Fields.getD input "domain")).isGiven = false

/-- The credentials hold what the provider needs, in a form that its request can hold. -/
def SendsKey (credentials : Fields) : Provider → Prop
  | person | matchPerson | company => HeaderKey credentials
  | findEmail | verifyEmail => ∃ key, Fields.get? credentials "api_key" = some key
  | profile => True
  | research => BearerKey credentials

/-- The provider has no need to ask its service, or can ask it and understands this answer. -/
def Manages (p : Provider) (credentials input : Fields) (reply : WebReply) : Prop :=
  p.Refuses input ∨ p.SendsKey credentials ∧ Understands p.goodStatuses p.Expects reply

/-- Input that is refused comes to a report; other input is up to the call. -/
theorem refused_reports {given : Bool} {v : Json} (hv : v.IsReport) {x : Action Json} {P : Prop}
    (h : given = true → (x.run o d).1.Reports P) :
    ((if !given then pure v else x).run o d).1.Reports (given = false ∨ P) := by
  cases given with
  | false => exact ⟨fun _ => ⟨v, rfl, hv⟩, fun h => absurd (.inl rfl) h⟩
  | true =>
    rw [Ending.reports_congr (or_iff_right (by decide))]
    exact h rfl

/-- A post body is sent with a key in the header. -/
theorem keyedPost_decides (url : String) {body : Json} (hbody : sendable body = .ok body) :
    Decides (keyedPost url body credentials) (HeaderKey credentials) fun _ => True := by
  have hsplit : keyedPost url body credentials =
      credential credentials "api_key" >>= header >>= fun key => do
        let body ← sendable body
        return { method := "POST", url := url, body := some body, apiKey := some key } := by
    rw [bind_assoc]
    rfl
  rw [hsplit]
  exact headerKey_decides.bind_ok fun key _ => by
    rw [hbody]
    exact ⟨_, rfl, trivial⟩

theorem key_decides {f : Json → Except Failure WebRequest} (hf : ∀ key, ∃ r, f key = .ok r) :
    Decides (credential credentials "api_key" >>= f)
      (∃ key, Fields.get? credentials "api_key" = some key) fun _ => True :=
  (credential_decides "api_key").bind_ok fun key _ => (hf key).imp fun _ h => ⟨h, trivial⟩

theorem excerpt_decides (v : Json) :
    Decides (excerpt v) ((∃ s, v = .string s) ∨ ∃ items, v = .array items) fun _ => True := by
  cases v with
  | string s => exact .of_ok rfl (.inl ⟨s, rfl⟩) trivial
  | array items => exact .of_ok rfl (.inr ⟨items, rfl⟩) trivial
  | null | bool | int | float | object => exact .of_error rfl (by simp)

theorem posts_decides (items : List Json) :
    Decides (posts items) (∀ post ∈ items, IsPost post) fun _ => True := by
  induction items with
  | nil => exact .of_ok rfl (by simp) trivial
  | cons post items ih =>
    rw [posts, List.forall_mem_cons]
    refine decides_member (fun h => ⟨h.1.choose, h.1.choose_spec.1⟩) fun fields hpost => ?_
    subst hpost
    have htext : IsPost (.object fields) ↔
        (∃ s, (Fields.getD fields "text").orElse (.string "") = .string s) ∨
          ∃ items, (Fields.getD fields "text").orElse (.string "") = .array items :=
      ⟨fun ⟨_, h, htext⟩ => by cases h; exact htext, fun htext => ⟨fields, rfl, htext⟩⟩
    rw [htext]
    refine (excerpt_decides _).bind fun text _ => ?_
    rw [member_object]
    exact ih.bind_ok fun more _ => ⟨_, rfl, trivial⟩

/-- The first item of data that are given but no list is no object. -/
theorem postItems_cases {answer : Json} (hgiven : answer.isGiven = true) :
    (∃ first more, answer = .array (first :: more)) ∨
      (∀ items, answer ≠ .array items) ∧ ((∃ e, postItems answer = .error e) ∨
        ∃ items, postItems answer = .ok items ∧ ¬ (items.head?.getD .null).IsObject) := by
  cases answer with
  | array items =>
    cases items with
    | nil => cases hgiven
    | cons first more => exact .inl ⟨first, more, rfl⟩
  | string s =>
    refine .inr ⟨fun _ h => (nomatch h), .inr ⟨_, rfl, ?_⟩⟩
    cases s.toList <;> exact fun ⟨_, h⟩ => nomatch h
  | null | bool | int | float | object => exact .inr ⟨fun _ h => (nomatch h), .inl ⟨_, rfl⟩⟩

theorem exists_profileName (address : String) :
    ∃ name, profileName (.string address) = .ok (.string name) := by
  rw [profileName]
  split
  · exact ⟨_, rfl⟩
  · exact ⟨_, rfl⟩

theorem HoldsTexts.exists_postCount (h : HoldsTexts input) :
    ∃ n, postCount ((Fields.get? input "limit").getD 10) = .ok n := by
  cases hlimit : Fields.get? input "limit" with
  | none => exact ⟨_, rfl⟩
  | some v =>
    obtain ⟨s, hs⟩ := h _ (Fields.mem_of_get? hlimit)
    obtain rfl : v = .string s := hs
    rw [Option.getD_some, postCount]
    cases readInt s <;> exact ⟨_, rfl⟩

theorem searchResults_decides (items : List Json) :
    Decides (searchResults items) (∀ item ∈ items, item.IsObject) fun _ => True := by
  induction items with
  | nil => exact .of_ok rfl (by simp) trivial
  | cons item items ih =>
    rw [searchResults, List.forall_mem_cons]
    refine decides_members And.left fun fields found hitem => ?_
    have hobject : item.IsObject := ⟨fields, hitem⟩
    rw [and_iff_right hobject]
    exact ih.bind_ok fun more _ => ⟨_, rfl, trivial⟩

/-- What is given but no list is no collection of objects. -/
theorem itemsOf_cases {v : Json} (hgiven : v.isGiven = true ∨ v = .array []) :
    (∃ items, v = .array items) ∨ (∀ items, v ≠ .array items) ∧ ((∃ e, itemsOf v = .error e) ∨
      ∃ s more, itemsOf v = .ok (.string s :: more)) := by
  cases v with
  | array items => exact .inl ⟨items, rfl⟩
  | string s =>
    refine .inr ⟨by simp, .inr ?_⟩
    obtain hgiven | h := hgiven
    · cases hs : s.toList with
      | nil => exact absurd hgiven (by simp_all [Json.isGiven])
      | cons c more => exact ⟨_, _, by rw [itemsOf, hs]; rfl⟩
    · cases h
  | object fields =>
    refine .inr ⟨by simp, .inr ?_⟩
    obtain hgiven | h := hgiven
    · cases fields with
      | nil => cases hgiven
      | cons f more => exact ⟨_, _, rfl⟩
    · cases h
  | null | bool | int | float => exact .inr ⟨by simp, .inl ⟨_, rfl⟩⟩

theorem isGiven_or_default (v : Json) :
    (v.orElse (.array [])).isGiven = true ∨ v.orElse (.array []) = .array [] := by
  rw [Json.orElse]
  split
  · rename_i hgiven
    exact .inl hgiven
  · exact .inr rfl

theorem results_decides (v : Json) (hgiven : v.isGiven = true ∨ v = .array []) :
    Decides (itemsOf v >>= searchResults)
      (∃ items, v = .array items ∧ ∀ item ∈ items, item.IsObject) fun _ => True := by
  obtain ⟨items, rfl⟩ | ⟨hlist, ⟨e, he⟩ | ⟨s, more, hok⟩⟩ := itemsOf_cases hgiven
  · have hiff : (∃ others, Json.array items = .array others ∧ ∀ item ∈ others, item.IsObject) ↔
        ∀ item ∈ items, item.IsObject :=
      ⟨fun ⟨_, h, hitems⟩ => by cases h; exact hitems, fun h => ⟨items, rfl, h⟩⟩
    rw [hiff]
    exact searchResults_decides items
  · rw [he]
    exact .of_error rfl fun ⟨items, h, _⟩ => hlist items h
  · rw [hok]
    exact .of_error rfl fun ⟨items, h, _⟩ => hlist items h

theorem HoldsTexts.exists_subject (h : HoldsTexts input)
    (hgiven : ((Fields.getD input "company_name").orElse
      (Fields.getD input "domain")).isGiven = true) :
    ∃ s, (Fields.getD input "company_name").orElse (Fields.getD input "domain") = .string s := by
  rw [Json.orElse] at hgiven ⊢
  split
  · rename_i hcompany
    exact h.getD hcompany
  · rename_i hcompany
    rw [if_neg hcompany] at hgiven
    exact h.getD hgiven

variable (hpauses : d.script.pauses = []) (hweb : d.script.web = reply :: rest)
  (hnamed : IsNamed reply) (htexts : HoldsTexts input)

include hpauses hweb hnamed

include htexts in
theorem callPerson_reports : ((callPerson credentials input).run o d).1.Reports
    (person.Manages credentials input reply) := by
  refine (Ending.reports_congr (or_iff_right id)).2 ?_
  refine exchange_reports hpauses hweb hnamed
    (keyedPost_decides _ (htexts.sendable_givenFields _)) fun answer => ?_
  refine decides_memberOrEmpty Opens.isObject fun fields hanswer => ?_
  rw [Expects, hanswer, opens_object]
  refine decides_members id fun person found hperson => ?_
  rw [hperson]
  exact .of_ok rfl ⟨_, rfl⟩ (isReport_success _)

include htexts in
theorem callMatchPerson_reports : ((callMatchPerson credentials input).run o d).1.Reports
    (matchPerson.Manages credentials input reply) := by
  refine (Ending.reports_congr (or_iff_right id)).2 ?_
  refine exchange_reports hpauses hweb hnamed
    (keyedPost_decides _ (htexts.sendable_givenFields _)) fun answer => ?_
  refine decides_memberOrEmpty Opens.isObject fun fields hanswer => ?_
  rw [Expects, hanswer, opens_object]
  refine decides_memberOrEmpty Opens.isObject fun person hperson => ?_
  rw [hperson, opens_object, members_object]
  refine decides_members id fun employer found hemployer => ?_
  rw [hemployer]
  exact .of_ok rfl ⟨_, rfl⟩ (isReport_success _)

theorem callFindEmail_reports : ((callFindEmail credentials input).run o d).1.Reports
    (findEmail.Manages credentials input reply) := by
  refine refused_reports (isReport_refusal (by decide)) fun _ => ?_
  refine exchange_reports hpauses hweb hnamed (key_decides fun key => ⟨_, rfl⟩) fun answer => ?_
  refine decides_memberOrEmpty Opens.isObject fun fields hanswer => ?_
  rw [Expects, hanswer, opens_object]
  refine decides_member Opens.isObject fun found hfound => ?_
  rw [hfound, opens_object, member_object, memberOrEmpty_object]
  refine decides_member id fun verification hverification => ?_
  rw [hverification]
  exact .of_ok rfl ⟨_, rfl⟩ (isReport_success _)

theorem callVerifyEmail_reports : ((callVerifyEmail credentials input).run o d).1.Reports
    (verifyEmail.Manages credentials input reply) := by
  refine refused_reports (isReport_refusal (by decide)) fun _ => ?_
  refine exchange_reports hpauses hweb hnamed (key_decides fun key => ⟨_, rfl⟩) fun answer => ?_
  refine decides_memberOrEmpty Opens.isObject fun fields hanswer => ?_
  rw [Expects, hanswer, opens_object]
  refine decides_members id fun found members hfound => ?_
  rw [hfound]
  exact .of_ok rfl ⟨_, rfl⟩ (isReport_success _)

theorem callCompany_reports : ((callCompany credentials input).run o d).1.Reports
    (company.Manages credentials input reply) := by
  refine refused_reports (isReport_refusal (by decide)) fun _ => ?_
  refine exchange_reports hpauses hweb hnamed ?_ fun answer => ?_
  · exact (bind_assoc (credential credentials "api_key") header _).symm ▸
      headerKey_decides.bind_ok fun key _ => ⟨_, rfl, trivial⟩
  · refine decides_memberOrEmpty Opens.isObject fun fields hanswer => ?_
    rw [Expects, hanswer, opens_object]
    refine decides_member id fun found hfound => ?_
    rw [hfound, member_object, members_object]
    exact .of_ok rfl ⟨_, rfl⟩ (isReport_success _)

include htexts in
theorem callProfile_reports : ((callProfile credentials input).run o d).1.Reports
    (profile.Manages credentials input reply) := by
  refine refused_reports (isReport_nothingFound _) fun hgiven => ?_
  refine exchange_reports hpauses hweb hnamed ?_ fun answer => ?_
  · obtain ⟨s, haddress⟩ := htexts.getD hgiven
    obtain ⟨name, hname⟩ := exists_profileName s
    obtain ⟨count, hcount⟩ := htexts.exists_postCount
    rw [haddress, hname, hcount]
    exact .of_ok rfl trivial trivial
  · cases hfound : answer.isGiven with
    | false => exact .of_ok rfl (by simp [Expects, hfound]) (isReport_nothingFound _)
    | true =>
      obtain ⟨first, more, rfl⟩ | ⟨hlist, hitems⟩ := postItems_cases hfound
      · have hiff : Expects profile (.array (first :: more)) ↔
            ∀ post ∈ (first :: more).take 5, IsPost post :=
          ⟨fun h => by
            obtain ⟨_, ⟨⟩, hposts⟩ := h hfound
            exact hposts, fun h _ => ⟨_, rfl, h⟩⟩
        rw [hiff]
        refine decides_member (fun h => ?_) fun fields hfirst => ?_
        · exact ⟨_, (h first (by simp)).choose_spec.1⟩
        · subst hfirst
          exact (posts_decides _).bind_ok fun recent _ => ⟨_, rfl, isReport_success _⟩
      · have hnot : ¬ Expects profile answer := fun h => by
          obtain ⟨items, hanswer, -⟩ := h hfound
          exact hlist items hanswer
        obtain ⟨e, he⟩ | ⟨items, hok, hobject⟩ := hitems
        · refine .of_error (e := e) ?_ hnot
          simp only [he]
          rfl
        · obtain ⟨e, he⟩ := member_of_not_isObject hobject "name"
          refine .of_error (e := e) ?_ hnot
          simp only [hok]
          change (member "name" (items.head?.getD .null) >>= _) = _
          rw [he]
          rfl

include htexts in
theorem callResearch_reports : ((callResearch credentials input).run o d).1.Reports
    (research.Manages credentials input reply) := by
  rw [callResearch]
  extract_lets deep query request grown company' domain'
  refine refused_reports (isReport_refusal (by decide)) fun hgiven => ?_
  obtain ⟨s, hsubject⟩ := htexts.exists_subject hgiven
  have hquery : ∃ q, query = .ok (.string q) := by
    dsimp only [query]
    rw [hsubject]
    exact ⟨_, rfl⟩
  refine exchange_reports hpauses hweb hnamed ?_ fun answer => ?_
  · obtain ⟨q, hq⟩ := hquery
    have hsplit : request = (credential credentials "api_key" >>= fun key =>
        headerText ("Bearer " ++ key.plain)) >>= fun pass => do
          let body ← sendable (.object [("query", .string q),
            ("max_results", if deep then 10 else 3), ("search_recency_filter", .string "month")])
          return { method := "POST", url := "https://api.perplexity.ai/search", body := some body
                   authorization := some pass } := by
      rw [bind_assoc]
      dsimp only [request]
      rw [hq]
      rfl
    rw [hsplit]
    refine bearerKey_decides.bind_ok fun pass _ => ?_
    cases deep <;> exact ⟨_, rfl, trivial⟩
  · refine decides_member (fun ⟨fields, h, _⟩ => ⟨fields, h⟩) fun fields hanswer => ?_
    have hiff : Expects research answer ↔
        ∃ items, (Fields.getD fields "results").orElse (.array []) = .array items ∧
          ∀ item ∈ items, item.IsObject :=
      ⟨fun ⟨_, h, hitems⟩ => by
        cases hanswer.symm.trans h
        exact hitems, fun h => ⟨fields, hanswer, h⟩⟩
    rw [hiff, ← bind_assoc]
    exact (results_decides _ (isGiven_or_default _)).bind_ok fun results _ =>
      ⟨_, rfl, isReport_success _⟩

end

/-! ## Calls -/

/-- The call of a provider comes to a report on this answer of its service. -/
def Copes (p : Provider) (credentials input : Fields) (reply : WebReply) : Prop :=
  Fields.has input "credentials" = false ∧ p.Manages credentials input reply

/-- A call of a provider with texts as input ends with a report where the provider copes with the
answer of its service, and fails elsewhere. -/
theorem call_reports (p : Provider) {credentials input : Fields} {o : Office} {d : Desk}
    {reply : WebReply} {rest : List WebReply} (htexts : HoldsTexts input)
    (hpauses : d.script.pauses = []) (hweb : d.script.web = reply :: rest)
    (hnamed : IsNamed reply) :
    ((p.call credentials input).run o d).1.Reports (p.Copes credentials input reply) := by
  unfold call
  cases hown : Fields.has input "credentials" with
  | true => exact ⟨fun h => absurd (hown.symm.trans h.1) (by decide), fun _ => ⟨_, rfl⟩⟩
  | false =>
    rw [Copes, Ending.reports_congr (and_iff_right hown)]
    cases p with
    | person => exact callPerson_reports hpauses hweb hnamed htexts
    | findEmail => exact callFindEmail_reports hpauses hweb hnamed
    | verifyEmail => exact callVerifyEmail_reports hpauses hweb hnamed
    | matchPerson => exact callMatchPerson_reports hpauses hweb hnamed htexts
    | company => exact callCompany_reports hpauses hweb hnamed
    | profile => exact callProfile_reports hpauses hweb hnamed htexts
    | research => exact callResearch_reports hpauses hweb hnamed htexts

/-- A page of text in place of data makes the call fail. -/
theorem call_reports_page :
    let d : Desk := { script := { web := [.text 200 "oops"] } }
    HoldsTexts [("email", .string "a@b.com")] ∧ d.script.pauses = [] ∧
      d.script.web = [.text 200 "oops"] ∧ IsNamed (.text 200 "oops") ∧
      ∃ e, ((person.call [("api_key", .string "k")] [("email", .string "a@b.com")]).run {} d).1 =
        .failed e := by
  intro d
  have htexts : HoldsTexts [("email", .string "a@b.com")] := by simp [HoldsTexts]
  have hbroken : ∀ v, data (.text 200 "oops") ≠ .ok v := by
    have hread : (data (.text 200 "oops")).isOk = false := by decide +kernel
    intro v hv
    rw [hv] at hread
    cases hread
  have hnamed : IsNamed (.text 200 "oops") := trivial
  refine ⟨htexts, rfl, rfl, hnamed, ?_⟩
  refine (call_reports person htexts rfl rfl hnamed).2 fun hcopes => ?_
  obtain hrefused | ⟨-, hunderstands⟩ := hcopes.2
  · exact hrefused
  · obtain ⟨v, hv, -⟩ := hunderstands (by decide)
    exact hbroken v hv

end Provider

end LeadDesk
