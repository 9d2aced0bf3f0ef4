import LeadDesk.Proofs.LetterCase
import LeadDesk.Proofs.TextSearch
/-!
# Searching contacts for an email

The search for an email compares the lower-case form of all scripts of the wanted text, trimmed,
with the stored text whose ASCII letters are in lower case. A contact is found by its own email
exactly when that is findable (`Text.IsFindable`): a blank at an end or a capital letter beyond
ASCII hides it from every search for it. A findable email is found in any other case of its
letters, unless a capital sigma takes its final form there (`ContactTool.search_email_finds_iff`).
-/

namespace LeadDesk

theorem Store.admits_email_iff {q e : String} {row : Row}
    (hemail : Row.value row "email" = .string e) :
    (ContactQuery.email q).admits row = true ↔
      Text.lower (Text.trim q) = Text.lowerAscii e := by
  simp only [ContactQuery.admits, hemail, beq_iff_eq]
  exact eq_comm

namespace ContactTool

/-- The input asks for the contacts with just an email, at most so many of them. -/
structure AsksEmail (input : Fields) (q : String) (n : Int) : Prop where
  email : Input.text input "email" = .string q
  given : q ≠ ""
  exact : (Input.value input "exact_match" (.bool true)).isGiven = true
  all : (Input.text input "exclude_id").isGiven = false
  limit : Input.value input "limit" 10 = .int n

/-- What a search answers about the contacts that it finds. -/
def answer (found : List Row) : Json :=
  let shown := found.map fun row => searchColumns.map fun c => (c, Row.value row c)
  .object [("contacts", Input.rows shown), ("count", .int shown.length),
    ("id", (shown.head?.map fun row => Row.value row "id").getD .null)]

variable {input : Fields} {q : String} {n : Int} {o : Office} {d : Desk}

/-- A search for an email hands the question on to the store. -/
theorem AsksEmail.run_search (h : AsksEmail input q n)
    (hfault : Action.faultOf o "find_contacts" = none) : (search input).run o d =
      (Archive.findContacts (.email q) (Input.text input "exclude_id") (some n) >>= fun found =>
        pure (answer found)).run o d := by
  have hgiven : (Json.string q).isGiven = true := by simpa [Json.isGiven] using h.given
  have hlimit : (Action.ofExcept (Input.integer (.int n))).run o d = (.done n, d) := rfl
  have hguard : (Action.guardFault "find_contacts").run o d = (.done (), d) := by
    simp only [Action.guardFault, Action.query, hfault]
  have hquery : (Action.ofExcept (queryOf (.string q) (Input.text input "query"))).run o d =
      (.done (.email q), d) := by
    simp only [queryOf, hgiven, if_true]
    rfl
  simp only [search, h.email, h.exact, hgiven, h.limit, Bool.not_true, Bool.and_false,
    Bool.false_eq_true, if_false, Bool.false_and]
  rw [Action.run_bind_of_done hlimit, Action.run_bind_of_done hguard,
    Action.run_bind_of_done hquery]
  rfl

/-- A search for an email with a limit that the store can count to. -/
theorem AsksEmail.run_search_of_fits (h : AsksEmail input q n)
    (hfault : Action.faultOf o "find_contacts" = none) (hfits : Column.fits n = true)
    (hn : (d.store.contacts.length : Int) ≤ n) : (search input).run o d =
      (.done (answer (Row.sortBy "created_at"
        (d.store.contacts.filter (Store.ContactQuery.email q).admits))), d) := by
  have hall : Row.upTo (some n) (Row.sortBy "created_at"
      (d.store.contacts.filter (Store.ContactQuery.email q).admits)) =
      Row.sortBy "created_at" (d.store.contacts.filter (Store.ContactQuery.email q).admits) := by
    have hfew := List.length_filter_le (Store.ContactQuery.email q).admits d.store.contacts
    rw [Row.upTo, if_neg (by omega), List.take_of_length_le]
    rw [(Row.sortBy_perm _ _).length_eq]
    omega
  rw [h.run_search hfault,
    Action.run_bind_of_done (Archive.findContacts_of_fits h.all hfault hfits), hall]
  rfl

/-- **Searching for an email.** With a limit that no number of contacts exceeds the search answers
with stored contacts. A contact with an email is among them by that email exactly when it is
findable; a findable one is among them by its email in other letter case exactly when no capital
sigma takes its final form there. A limit beyond the integers of the store is refused. -/
theorem search_email_finds_iff (h : AsksEmail input q n)
    (hfault : Action.faultOf o "find_contacts" = none)
    (hn : (d.store.contacts.length : Int) ≤ n) :
    (Column.fits n = false → (search input).run o d = (.failed .tooLarge, d)) ∧
      (Column.fits n = true → ∃ found, (search input).run o d = (.done (answer found), d) ∧
        found ⊆ d.store.contacts ∧
        ∀ row ∈ d.store.contacts, ∀ e, Row.value row "email" = .string e →
          (row ∈ found ↔ Text.lower (Text.trim q) = Text.lowerAscii e) ∧
          (q = e → (row ∈ found ↔ Text.IsFindable e)) ∧
          (Text.IsFindable e → Text.SameLetters e q →
            (row ∈ found ↔ ¬ Text.HasFinalSigma [] q.toList))) := by
  refine ⟨fun hlarge => ?_, fun hfits => ⟨_, h.run_search_of_fits hfault hfits hn, ?_, ?_⟩⟩
  · rw [h.run_search hfault]
    exact Action.run_bind_of_failed (Archive.run_ask_of_large hfault hlarge)
  · exact fun row hrow => List.mem_of_mem_filter ((Row.sortBy_perm _ _).subset hrow)
  · intro row hrow e hemail
    have hfound : row ∈ Row.sortBy "created_at"
        (d.store.contacts.filter (Store.ContactQuery.email q).admits) ↔
          Text.lower (Text.trim q) = Text.lowerAscii e := by
      rw [(Row.sortBy_perm _ _).mem_iff, List.mem_filter, Store.admits_email_iff hemail]
      exact and_iff_right hrow
    refine ⟨hfound, ?_, fun hfindable hsame => ?_⟩
    · rintro rfl
      rw [hfound, Text.lower_trim_eq_lowerAscii_iff]
    · rw [hfound, Text.lower_trim_eq_lowerAscii_iff_of_same hfindable hsame]

/-- Ada is found by her email in capital letters; a contact with `É` in its email is not found by
that email. -/
theorem search_email_finds_iff_ada :
    let ada : Row := [("id", .string "c1"), ("email", .string "ada@b.co")]
    let eve : Row := [("id", .string "c2"), ("email", .string "É@b.co")]
    let d : Desk := { store := { contacts := [ada, eve] } }
    (∃ found, (search [("email", .string "ADA@b.co")]).run {} d = (.done (answer found), d) ∧
        ada ∈ found) ∧
      ∃ found, (search [("email", .string "É@b.co")]).run {} d = (.done (answer found), d) ∧
        eve ∉ found := by
  intro ada eve d
  have hcount : (d.store.contacts.length : Int) ≤ 10 := by decide
  constructor
  · have hasks : AsksEmail [("email", .string "ADA@b.co")] "ADA@b.co" 10 :=
      ⟨rfl, by decide, rfl, rfl, rfl⟩
    obtain ⟨found, hrun, -, hfound⟩ :=
      (search_email_finds_iff (o := {}) hasks rfl hcount).2 rfl
    exact ⟨found, hrun, ((hfound ada (by simp [d]) "ada@b.co" rfl).1).2 (by decide +kernel)⟩
  · have hasks : AsksEmail [("email", .string "É@b.co")] "É@b.co" 10 :=
      ⟨rfl, by decide, rfl, rfl, rfl⟩
    obtain ⟨found, hrun, -, hfound⟩ :=
      (search_email_finds_iff (o := {}) hasks rfl hcount).2 rfl
    have hcapital : ¬ Text.IsFindable "É@b.co" := fun h =>
      absurd (h.2 'É' (by decide +kernel)) (by decide +kernel)
    exact ⟨found, hrun, fun h => hcapital (((hfound eve (by simp [d]) _ rfl).2.1 rfl).1 h)⟩

end ContactTool

end LeadDesk
