import LeadDesk.Proofs.Backlog
import LeadDesk.Proofs.LetterCase
import LeadDesk.Tool.Contacts
/-!
# Searching contacts for a text

A search for a text asks the store with the text between two `%`. A text without the wildcards `%`
and `_` is matched so by the texts that contain it, whatever the case of ASCII letters, and by no
others (`Store.isLike_iff_of_plain`). Every text that contains the wanted one is found, but a
wildcard in the wanted text also stands for characters that are not there
(`Store.isLike_masked`): a search gives the contacts that mention a text just when the text has no
wildcard (`Archive.findContacts_mentioning_iff`).
-/

namespace LeadDesk

/-- Rows sorted by a column of texts hold these in order. -/
theorem Row.pairwise_sortBy {column : String} {rows : List Row}
    (htexts : ∀ row ∈ rows, ∃ s, value row column = .string s) :
    ((sortBy column rows).map fun row => (text? row column).getD "").Pairwise (· ≤ ·) := by
  have hsame : ∀ a ∈ rows, ∀ b ∈ rows, precedes (value a column) (value b column) =
      decide ((text? a column).getD "" ≤ (text? b column).getD "") := by
    intro a ha b hb
    obtain ⟨s, hs⟩ := htexts a ha
    obtain ⟨t, ht⟩ := htexts b hb
    simp [precedes, text?, hs, ht, sortRank, Json.text?]
  rw [sortBy, List.map_mergeSort (s := fun a b : String => decide (a ≤ b)) hsame]
  refine (List.pairwise_mergeSort (fun a b c hab hbc => ?_) (fun a b => ?_) _).imp of_decide_eq_true
  · exact decide_eq_true (String.le_trans (of_decide_eq_true hab) (of_decide_eq_true hbc))
  · simpa using String.le_total a b

namespace Store

/-! ## Patterns -/

theorem mem_suffixes {s text : List Char} : s ∈ suffixes text ↔ s <:+ text := by
  induction text with
  | nil => simp [suffixes]
  | cons c rest ih => simp [suffixes, ih, List.suffix_cons_iff]

/-- `%` stands for any text. -/
theorem matchesPattern_percent {pattern text : List Char} :
    matchesPattern ('%' :: pattern) text = true ↔
      ∃ s, s <:+ text ∧ matchesPattern pattern s = true := by
  simp [matchesPattern, mem_suffixes]

/-- Any other character of a pattern stands for one character. -/
theorem matchesPattern_cons {p : Char} (hp : p ≠ '%') {pattern text : List Char} :
    matchesPattern (p :: pattern) text = true ↔
      ∃ c rest, text = c :: rest ∧ (p = '_' ∨ p = c) ∧ matchesPattern pattern rest = true := by
  cases text with
  | nil => simp [matchesPattern, hp]
  | cons c rest => simp [matchesPattern, hp]

/-- The character of a pattern matches the character, by itself or as a wildcard. -/
def Covers (p c : Char) : Prop := p = '%' ∨ p = '_' ∨ p = c

/-- A text matches what covers its beginning, character by character. -/
theorem matchesPattern_of_covers {pattern front : List Char} (h : List.Forall₂ Covers pattern front)
    (rest : List Char) : matchesPattern (pattern ++ ['%']) (front ++ rest) = true := by
  induction h with
  | nil => exact matchesPattern_percent.2 ⟨[], List.nil_suffix, rfl⟩
  | @cons p c pattern front hpc _ ih =>
    by_cases hp : p = '%'
    · subst hp
      exact matchesPattern_percent.2 ⟨front ++ rest, List.suffix_cons c _, ih⟩
    · exact (matchesPattern_cons hp).2 ⟨c, front ++ rest, rfl, hpc.resolve_left hp, ih⟩

/-- A character that stands for itself in a pattern. -/
def IsPlainChar (c : Char) : Prop := c ≠ '%' ∧ c ≠ '_'

instance : DecidablePred IsPlainChar := fun c => inferInstanceAs (Decidable (c ≠ '%' ∧ c ≠ '_'))

theorem prefix_of_matchesPattern {part text : List Char} (hpart : ∀ c ∈ part, IsPlainChar c)
    (h : matchesPattern (part ++ ['%']) text = true) : part <+: text := by
  induction part generalizing text with
  | nil => exact List.nil_prefix
  | cons p part ih =>
    have hp := hpart p List.mem_cons_self
    obtain ⟨c, rest, rfl, hpc, hrest⟩ := (matchesPattern_cons hp.1).1 h
    obtain rfl := hpc.resolve_left hp.2
    have htail := ih (fun c hc => hpart c (List.mem_cons_of_mem _ hc)) hrest
    exact (List.prefix_cons_inj p).2 htail

theorem matchesPattern_of_infix {part text : List Char} (h : part <:+: text) :
    matchesPattern ('%' :: (part ++ ['%'])) text = true := by
  obtain ⟨s, ⟨rest, rfl⟩, hsuffix⟩ := List.infix_iff_prefix_suffix.1 h
  have hself : List.Forall₂ Covers part part := List.forall₂_same.2 fun c _ => .inr (.inr rfl)
  exact matchesPattern_percent.2 ⟨part ++ rest, hsuffix, matchesPattern_of_covers hself rest⟩

theorem infix_of_matchesPattern {part text : List Char} (hpart : ∀ c ∈ part, IsPlainChar c)
    (h : matchesPattern ('%' :: (part ++ ['%'])) text = true) : part <:+: text := by
  obtain ⟨s, hsuffix, hs⟩ := matchesPattern_percent.1 h
  exact List.infix_iff_prefix_suffix.2 ⟨s, prefix_of_matchesPattern hpart hs, hsuffix⟩

/-! ## Texts that contain a text -/

/-- A text without wildcards. -/
def IsPlainText (q : String) : Prop := ∀ c ∈ q.toList, IsPlainChar c

instance : DecidablePred IsPlainText := fun q => List.decidableBAll IsPlainChar q.toList

/-- The value is a text that contains another, whatever the case of ASCII letters. -/
def Contains (q : String) : Json → Prop
  | .string s => (Text.lowerAscii q).toList <:+: (Text.lowerAscii s).toList
  | _ => False

instance (q : String) : DecidablePred (Contains q)
  | .string s =>
    inferInstanceAs (Decidable ((Text.lowerAscii q).toList <:+: (Text.lowerAscii s).toList))
  | .null | .bool _ | .int _ | .float _ | .array _ | .object _ => inferInstanceAs (Decidable False)

/-- An ASCII letter in lower case is a letter, so no other character becomes a wildcard. -/
theorem isPlainChar_toLower {c : Char} (h : IsPlainChar c) : IsPlainChar c.toLower := by
  have hlower := Text.toNat_toLower c
  constructor
  · intro he
    have hcode : c.toLower.toNat = 37 := congrArg Char.toNat he
    exact h.1 (Char.toNat_inj.1 (show c.toNat = 37 by split at hlower <;> omega))
  · intro he
    have hcode : c.toLower.toNat = 95 := congrArg Char.toNat he
    exact h.2 (Char.toNat_inj.1 (show c.toNat = 95 by split at hlower <;> omega))

theorem toList_around (q : String) :
    (Text.lowerAscii ("%" ++ q ++ "%")).toList = '%' :: ((Text.lowerAscii q).toList ++ ['%']) := by
  simp [Text.toList_lowerAscii]

/-- What contains a text is found by it. -/
theorem isLike_of_contains {q : String} {v : Json} (h : Contains q v) :
    isLike ("%" ++ q ++ "%") v = true := by
  cases v with
  | string s =>
    rw [isLike, toList_around]
    exact matchesPattern_of_infix h
  | null | bool _ | int _ | float _ | array _ | object _ => exact h.elim

/-- A text without wildcards is found in what contains it, and nowhere else. -/
theorem isLike_iff_of_plain {q : String} (hq : IsPlainText q) (v : Json) :
    isLike ("%" ++ q ++ "%") v = true ↔ Contains q v := by
  refine ⟨fun h => ?_, isLike_of_contains⟩
  cases v with
  | string s =>
    rw [isLike, toList_around] at h
    refine infix_of_matchesPattern (fun c hc => ?_) h
    obtain ⟨b, hb, rfl⟩ := List.mem_map.1 (Text.toList_lowerAscii q ▸ hc)
    exact isPlainChar_toLower (hq b hb)
  | null | bool _ | int _ | float _ | array _ | object _ => simp [isLike] at h

/-- The text with a hyphen for every wildcard. -/
def masked (q : String) : String :=
  String.ofList (q.toList.map fun c => if IsPlainChar c then c else '-')

theorem isLike_masked (q : String) : isLike ("%" ++ q ++ "%") (.string (masked q)) = true := by
  have hcovers : List.Forall₂ Covers (Text.lowerAscii q).toList
      (Text.lowerAscii (masked q)).toList := by
    simp only [Text.toList_lowerAscii, masked, String.toList_ofList, List.map_map,
      List.forall₂_map_left_iff, List.forall₂_map_right_iff, List.forall₂_same, Function.comp]
    intro c _
    by_cases hc : IsPlainChar c
    · simp [Covers, hc]
    · have hwild : c = '%' ∨ c = '_' := by
        simpa only [IsPlainChar, not_and_or, not_not] using hc
      obtain rfl | rfl := hwild
      · exact .inl rfl
      · exact .inr (.inl rfl)
  have hmatches := matchesPattern_of_covers hcovers []
  rw [List.append_nil] at hmatches
  rw [isLike, toList_around]
  exact matchesPattern_percent.2 ⟨_, List.suffix_rfl, hmatches⟩

/-- A masked text is as long as the text, so it contains the text only where nothing is masked. -/
theorem isPlainText_of_contains_masked {q : String} (h : Contains q (.string (masked q))) :
    IsPlainText q := by
  have heq : (Text.lowerAscii q).toList = (Text.lowerAscii (masked q)).toList :=
    List.IsInfix.eq_of_length h (by simp [Text.toList_lowerAscii, masked])
  simp only [Text.toList_lowerAscii, masked, String.toList_ofList, List.map_map] at heq
  intro c hc
  have hsame := List.map_inj_left.1 heq c hc
  by_contra hwild
  have hlower : c.toLower = c := by
    have : c = '%' ∨ c = '_' := by simpa only [IsPlainChar, not_and_or, not_not] using hwild
    obtain rfl | rfl := this <;> rfl
  simp only [Function.comp, if_neg hwild, hlower] at hsame
  rw [hsame] at hwild
  exact hwild (by decide)

/-! ## Contacts that mention a text -/

/-- A name or the email of a contact contains the text. -/
def Mentions (q : String) (row : Row) : Prop :=
  ∃ column ∈ ["first_name", "last_name", "email"], Contains q (Row.value row column)

instance (q : String) : DecidablePred (Mentions q) := fun row =>
  inferInstanceAs (Decidable (∃ column ∈ ["first_name", "last_name", "email"],
    Contains q (Row.value row column)))

/-- The contacts that mention a text, oldest first. -/
def mentioning (s : Store) (q : String) : List Row :=
  Row.sortBy "created_at" (s.contacts.filter (Mentions q ·))

theorem mentioning_perm (s : Store) (q : String) :
    (s.mentioning q).Perm (s.contacts.filter (Mentions q ·)) :=
  Row.sortBy_perm _ _

/-- The moments of creation of the contacts that mention a text are in order. -/
theorem mentioning_sorted {s : Store} (q : String)
    (htexts : ∀ row ∈ s.contacts, ∃ t, Row.value row "created_at" = .string t) :
    ((s.mentioning q).map fun row => (Row.text? row "created_at").getD "").Pairwise (· ≤ ·) :=
  Row.pairwise_sortBy fun row hrow => htexts row (List.mem_of_mem_filter hrow)

/-- No contact that mentions the text is overlooked. -/
theorem admits_of_mentions {q : String} {row : Row} (h : Mentions q row) :
    (ContactQuery.text q).admits row = true := by
  obtain ⟨column, hcolumn, hcontains⟩ := h
  exact List.any_eq_true.2 ⟨column, hcolumn, isLike_of_contains hcontains⟩

theorem admits_iff_of_plain {q : String} (hq : IsPlainText q) (row : Row) :
    (ContactQuery.text q).admits row = true ↔ Mentions q row := by
  simp only [ContactQuery.admits, List.any_eq_true, isLike_iff_of_plain hq, Mentions]

/-- The contacts that a search gives when none is left out. -/
theorem findContacts_of_not_given (s : Store) (query : ContactQuery) {except : Json}
    (hexcept : except.isGiven = false) (limit : Option Int) :
    s.findContacts query except limit =
      .ok (Row.upTo limit (Row.sortBy "created_at" (s.contacts.filter query.admits))) := by
  simp [findContacts, excludedId, hexcept]

end Store

namespace Archive

variable {o : Office} {d : Desk} {n : Int}

theorem findContacts_of_fits {query : Store.ContactQuery} {except : Json}
    (hexcept : except.isGiven = false) (hfault : Action.faultOf o "find_contacts" = none)
    (hfits : Column.fits n = true) :
    (findContacts query except (some n)).run o d = (.done (Row.upTo (some n)
      (Row.sortBy "created_at" (d.store.contacts.filter query.admits))), d) :=
  run_ask_of_fits hfault (by simpa using hfits) (Store.findContacts_of_not_given _ _ hexcept _)

/-- A text without wildcards finds the contacts that mention it. -/
theorem findContacts_of_plain {q : String} (hq : Store.IsPlainText q) {n : Nat}
    (hfault : Action.faultOf o "find_contacts" = none) (hfits : Column.fits n = true) :
    (findContacts (.text q) .null (some n)).run o d =
      (.done ((d.store.mentioning q).take n), d) := by
  have hsame : d.store.contacts.filter (Store.ContactQuery.text q).admits =
      d.store.contacts.filter (Store.Mentions q ·) :=
    List.filter_congr fun row _ => by
      rw [Bool.eq_iff_iff, Store.admits_iff_of_plain hq, decide_eq_true_iff]
  have hn : ¬ (n : Int) < 0 := by omega
  have hnull : Json.null.isGiven = false := rfl
  simp only [findContacts_of_fits hnull hfault hfits, hsame, Row.upTo, if_neg hn, Int.toNat_natCast,
    Store.mentioning]

/-- A contact can be created whose email is the text with its wildcards masked. -/
theorem exists_contact_masked (q : String) :
    ∃ row s, Store.addContact {} "c1" (Timestamp.utc 0) [("email", .string (Store.masked q))] =
        .ok (row, s) ∧ s.contacts = [row] ∧ Row.value row "first_name" = .null ∧
      Row.value row "last_name" = .null ∧ Row.value row "email" = .string (Store.masked q) :=
  ⟨_, _, rfl, rfl, rfl, rfl, rfl⟩

/-- If a search for a text never finds a contact that does not mention it, the text has no
wildcard. -/
theorem isPlainText_of_findContacts {q : String}
    (h : ∀ d : Desk, (findContacts (.text q) .null (some 1)).run {} d =
      (.done ((d.store.mentioning q).take 1), d)) : Store.IsPlainText q := by
  obtain ⟨row, s, -, hs, hfirst, hlast, hemail⟩ := exists_contact_masked q
  have hadmits : (Store.ContactQuery.text q).admits row = true :=
    List.any_eq_true.2 ⟨"email", by simp, by rw [hemail]; exact Store.isLike_masked q⟩
  have hnull : Json.null.isGiven = false := rfl
  have hfound := h { store := s }
  rw [findContacts_of_fits hnull rfl rfl] at hfound
  have hlisted : row ∈ (s.mentioning q).take 1 := by
    simp only [Prod.mk.injEq, Ending.done.injEq, and_true] at hfound
    rw [← hfound, hs]
    simp [hadmits, Row.sortBy, Row.upTo]
  have hmentions : Store.Mentions q row := by
    have := (s.mentioning_perm q).subset (List.mem_of_mem_take hlisted)
    simpa using List.of_mem_filter this
  obtain ⟨column, hcolumn, hcontains⟩ := hmentions
  simp only [List.mem_cons, List.not_mem_nil, or_false] at hcolumn
  obtain rfl | rfl | rfl := hcolumn
  · rw [hfirst] at hcontains
    exact hcontains.elim
  · rw [hlast] at hcontains
    exact hcontains.elim
  · rw [hemail] at hcontains
    exact Store.isPlainText_of_contains_masked hcontains

/-- **Searching for a text.** A search finds just the contacts that mention the text, the first of
them by their moments of creation, exactly when the text has neither `%` nor `_`. A limit beyond
the integers of the store is refused for every text. -/
theorem findContacts_mentioning_iff (q : String) (hq : q ≠ "") :
    ContactTool.queryOf .null (.string q) = .ok (.text q) ∧
      (Store.IsPlainText q ↔ ∀ (o : Office) (d : Desk) (n : Nat),
        Action.faultOf o "find_contacts" = none → Column.fits n = true →
          (findContacts (.text q) .null (some n)).run o d =
            (.done ((d.store.mentioning q).take n), d)) ∧
      ∀ (o : Office) (d : Desk) (n : Nat),
        Action.faultOf o "find_contacts" = none → Column.fits n = false →
          (findContacts (.text q) .null (some n)).run o d = (.failed .tooLarge, d) := by
  refine ⟨?_, ⟨fun hplain o d n hfault hfits => findContacts_of_plain hplain hfault hfits,
    fun h => isPlainText_of_findContacts fun d => h {} d 1 rfl rfl⟩,
    fun o d n hfault hfits => run_ask_of_large hfault hfits⟩
  have hgiven : (Json.string q).isGiven = true := by simpa [Json.isGiven] using hq
  simp only [ContactTool.queryOf, hgiven, Json.plain]
  rfl

/-- A search for `_`, which nobody mentions, finds Ann; a search for `NN` finds her as well. -/
theorem findContacts_mentioning_iff_ann :
    let ann : Row := [("id", .string "c1"), ("first_name", .string "Ann")]
    let d : Desk := { store := { contacts := [ann] } }
    d.store.mentioning "_" = [] ∧
      (findContacts (.text "_") .null (some 10)).run {} d = (.done [ann], d) ∧
      (findContacts (.text "NN") .null (some 10)).run {} d = (.done [ann], d) := by
  intro ann d
  have hnone : ¬ Store.Mentions "_" ann := by decide +kernel
  have hsome : Store.Mentions "NN" ann := by decide +kernel
  have hlike : (Store.ContactQuery.text "_").admits ann = true := by decide +kernel
  have hplain : Store.IsPlainText "NN" := by decide +kernel
  refine ⟨by simp [d, Store.mentioning, Row.sortBy, hnone], ?_, ?_⟩
  · rw [findContacts_of_fits rfl rfl rfl]
    simp [d, hlike, Row.sortBy, Row.upTo]
  · have hsearch := (findContacts_mentioning_iff "NN" (by decide)).2.1.1 hplain {} d 10 rfl rfl
    simpa [d, Store.mentioning, Row.sortBy, hsome] using hsearch

end Archive

end LeadDesk
