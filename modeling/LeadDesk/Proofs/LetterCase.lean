import LeadDesk.Proofs.Fallbacks
import LeadDesk.Text.Case
/-!
# Lower case

Two lower-case forms meet where a text is looked for: that of all scripts (`Text.lower`) and that
of ASCII letters alone (`Text.lowerAscii`). The first works character by character but for a
capital sigma in its final position (`Text.lowerFrom_eq_flatMap_iff`), and neither makes a blank
or takes one away. With the blanks at its ends removed before, the two forms of a text are the same
exactly for the texts that have no blanks there and no capital letters beyond ASCII
(`Text.lower_trim_eq_lowerAscii_iff`).
-/

namespace LeadDesk

namespace Text

/-! ## ASCII letters -/

@[simp] theorem toList_lowerAscii (s : String) :
    (lowerAscii s).toList = s.toList.map Char.toLower := by
  simp [lowerAscii]

/-! ## Letters of all scripts -/

/-- The runs of letters and the characters that they become have no blanks among them. -/
theorem lowerRuns_avoid_blanks : ∀ r ∈ lowerRuns, 0 ≤ r.1 + r.2.2.2 ∧ ∀ b ∈ blankRanges,
    (r.2.1 < b.1 ∨ b.2 < r.1) ∧ (r.2.1 + r.2.2.2 < b.1 ∨ b.2 < r.1 + r.2.2.2) := by
  decide +kernel

/-- What becomes of a character in lower case. -/
theorem lowerChar_cases (c : Char) :
    (c.toNat < 128 ∧ lowerChar c = [c.toLower]) ∨
    (c = 'İ' ∧ lowerChar c = ['i', Char.ofNat 0x307]) ∨
    (∃ r ∈ lowerRuns, 128 ≤ c.toNat ∧ r.1 ≤ c.toNat ∧ c.toNat ≤ r.2.1 ∧
      lowerChar c = [Char.ofNat (Int.toNat (c.toNat + r.2.2.2))]) ∨
    (128 ≤ c.toNat ∧ lowerChar c = [c]) := by
  by_cases hascii : c.toNat < 128
  · exact .inl ⟨hascii, by simp [lowerChar, hascii]⟩
  by_cases hdotted : c.toNat = 0x130
  · obtain rfl : c = 'İ' := Char.toNat_inj.1 hdotted
    exact .inr (.inl ⟨rfl, rfl⟩)
  simp only [lowerChar, if_neg hascii, if_neg hdotted]
  split
  next first last step shift hfind =>
    have hhit := List.find?_some hfind
    simp only [Bool.and_eq_true, decide_eq_true_eq] at hhit
    exact .inr (.inr (.inl ⟨_, List.mem_of_find?_eq_some hfind, by omega, hhit.1.1, hhit.1.2, rfl⟩))
  next => exact .inr (.inr (.inr ⟨by omega, rfl⟩))

theorem lowerChar_ne_nil (c : Char) : lowerChar c ≠ [] := by
  obtain ⟨-, hc⟩ | ⟨-, hc⟩ | ⟨r, -, -, -, -, hc⟩ | ⟨-, hc⟩ := lowerChar_cases c <;> simp [hc]

theorem isBlank_iff {c : Char} :
    isBlank c = true ↔ ∃ b ∈ blankRanges, b.1 ≤ c.toNat ∧ c.toNat ≤ b.2 := inRanges_iff

/-- ASCII letters are no blanks. -/
theorem isBlank_toLower (c : Char) : isBlank c.toLower = isBlank c := by
  by_cases hbounds : 65 ≤ c.toNat ∧ c.toNat ≤ 90
  · rw [Bool.eq_iff_iff, isBlank_iff, isBlank_iff, toNat_toLower, if_pos hbounds]
    simp only [blankRanges, List.mem_cons, List.not_mem_nil, or_false, exists_eq_or_imp,
      exists_eq_left]
    omega
  · rw [toLower_eq_self hbounds]

/-- A blank has no case. -/
theorem lowerChar_of_blank {c : Char} (h : isBlank c = true) : lowerChar c = [c] := by
  obtain ⟨b, hb, hlow, hhigh⟩ := isBlank_iff.1 h
  obtain ⟨-, hc⟩ | ⟨rfl, -⟩ | ⟨r, hr, -, hfirst, hlast, -⟩ | ⟨-, hc⟩ := lowerChar_cases c
  · have hupper : ¬ (65 ≤ c.toNat ∧ c.toNat ≤ 90) := by
      have := (by decide : ∀ b ∈ blankRanges, b.2 < 65 ∨ 90 < b.1) b hb
      omega
    rw [hc, toLower_eq_self hupper]
  · exact absurd h (by decide +kernel)
  · have := ((lowerRuns_avoid_blanks r hr).2 b hb).1
    omega
  · exact hc

/-- No other character becomes a blank. -/
theorem not_isBlank_of_mem_lowerChar {c : Char} (h : isBlank c = false) :
    ∀ x ∈ lowerChar c, isBlank x = false := by
  intro x hx
  obtain ⟨-, hc⟩ | ⟨rfl, hc⟩ | ⟨r, hr, -, hfirst, hlast, hc⟩ | ⟨-, hc⟩ := lowerChar_cases c
  · rw [hc, List.mem_singleton] at hx
    rw [hx, isBlank_toLower, h]
  · rw [hc] at hx
    obtain rfl | hx := List.mem_cons.1 hx
    · decide +kernel
    · obtain rfl := List.mem_singleton.1 hx
      decide +kernel
  · rw [hc, List.mem_singleton] at hx
    subst hx
    rw [← Bool.not_eq_true, isBlank_iff]
    rintro ⟨b, hb, hlow, hhigh⟩
    obtain ⟨hpos, havoid⟩ := lowerRuns_avoid_blanks r hr
    have hcode : (Char.ofNat (Int.toNat (c.toNat + r.2.2.2))).toNat =
        Int.toNat (c.toNat + r.2.2.2) ∨ (Char.ofNat (Int.toNat (c.toNat + r.2.2.2))).toNat = 0 := by
      by_cases hvalid : (Int.toNat (c.toNat + r.2.2.2)).isValidChar
      · exact .inl (by rw [Char.ofNat, dif_pos hvalid]; rfl)
      · exact .inr (by rw [Char.ofNat, dif_neg hvalid]; rfl)
    have := (havoid b hb).2
    have hzero := (by decide : ∀ b ∈ blankRanges, 0 < b.1) b hb
    omega
  · rw [hc, List.mem_singleton] at hx
    rw [hx, h]

/-! ## Whole texts -/

/-- A capital sigma takes its final form in the text. -/
def HasFinalSigma (before cs : List Char) : Prop :=
  ∃ front rest, cs = front ++ 'Σ' :: rest ∧ startsCased (front.reverse ++ before) = true ∧
    startsCased rest = false

theorem hasFinalSigma_cons {before rest : List Char} {c : Char} :
    HasFinalSigma before (c :: rest) ↔
      (c = 'Σ' ∧ startsCased before = true ∧ startsCased rest = false) ∨
        HasFinalSigma (c :: before) rest := by
  constructor
  · rintro ⟨_ | ⟨x, front⟩, behind, heq, hbefore, hbehind⟩
    · obtain ⟨rfl, rfl⟩ := List.cons.inj heq
      exact .inl ⟨rfl, hbefore, hbehind⟩
    · obtain ⟨rfl, rfl⟩ := List.cons.inj heq
      exact .inr ⟨front, behind, rfl, by simpa using hbefore, hbehind⟩
  · rintro (⟨rfl, hbefore, hrest⟩ | ⟨front, behind, rfl, hbefore, hbehind⟩)
    · exact ⟨[], rest, rfl, hbefore, hrest⟩
    · exact ⟨c :: front, behind, rfl, by simpa using hbefore, hbehind⟩

theorem lowerFrom_cons_of_ne {before rest : List Char} {c : Char} (hc : c ≠ 'Σ') :
    lowerFrom before (c :: rest) = lowerChar c ++ lowerFrom (c :: before) rest := by
  have : c.toNat ≠ 0x3a3 := fun h => hc (Char.toNat_inj.1 h)
  rw [lowerFrom]
  simp [this]

theorem lowerFrom_sigma {before rest : List Char} : lowerFrom before ('Σ' :: rest) =
    (if startsCased before && !startsCased rest then 'ς' else 'σ') ::
      lowerFrom ('Σ' :: before) rest := by
  have hcode : 'Σ'.toNat = 0x3a3 := rfl
  rw [lowerFrom, if_pos hcode, List.singleton_append]
  congr 1
  split <;> rfl

/-- Character by character the lower-case form is the one of each character, but for a final
sigma. -/
theorem lowerFrom_eq_flatMap_iff {before cs : List Char} :
    lowerFrom before cs = cs.flatMap lowerChar ↔ ¬ HasFinalSigma before cs := by
  induction cs generalizing before with
  | nil => simp [lowerFrom, HasFinalSigma]
  | cons c rest ih =>
    rw [hasFinalSigma_cons, List.flatMap_cons]
    by_cases hc : c = 'Σ'
    · subst hc
      have hsigma : lowerChar 'Σ' = ['σ'] := by decide +kernel
      rw [lowerFrom_sigma, hsigma, List.singleton_append, List.cons.injEq, ih]
      have hforms : 'ς' ≠ 'σ' := by decide
      cases startsCased before <;> cases startsCased rest <;> simp [hforms]
    · rw [lowerFrom_cons_of_ne hc, List.append_cancel_left_eq, ih]
      simp [hc]

/-- A character that ASCII and all scripts put into the same lower case: an ASCII character, or one
that is no capital letter. -/
def IsPlainCase (c : Char) : Prop := c.toNat < 128 ∨ lowerChar c = [c]

instance : DecidablePred IsPlainCase := fun c =>
  inferInstanceAs (Decidable (c.toNat < 128 ∨ lowerChar c = [c]))

theorem toLower_of_not_ascii {c : Char} (h : 128 ≤ c.toNat) : c.toLower = c :=
  toLower_eq_self (by omega)

theorem isPlainCase_iff {c : Char} : IsPlainCase c ↔ lowerChar c = [c.toLower] := by
  constructor
  · rintro (hascii | hself)
    · simp [lowerChar, hascii]
    · by_cases hascii : c.toNat < 128
      · simp [lowerChar, hascii]
      · rw [hself, toLower_of_not_ascii (by omega)]
  · intro h
    by_cases hascii : c.toNat < 128
    · exact .inl hascii
    · rw [toLower_of_not_ascii (by omega)] at h
      exact .inr h

/-- The lower-case form of a text changes its ASCII letters alone just when it has plain characters
only. -/
theorem lowerFrom_eq_map_iff {before cs : List Char} :
    lowerFrom before cs = cs.map Char.toLower ↔ ∀ c ∈ cs, IsPlainCase c := by
  induction cs generalizing before with
  | nil => simp [lowerFrom]
  | cons c rest ih =>
    rw [List.map_cons, List.forall_mem_cons, isPlainCase_iff]
    by_cases hc : c = 'Σ'
    · subst hc
      have hsigma : ¬ lowerChar 'Σ' = ['Σ'.toLower] := by decide +kernel
      have hforms : ∀ b : Bool, (if b then 'ς' else 'σ') ≠ 'Σ'.toLower := by decide +kernel
      rw [lowerFrom_sigma]
      exact ⟨fun h => absurd (List.cons.inj h).1 (hforms _), fun h => absurd h.1 hsigma⟩
    · rw [lowerFrom_cons_of_ne hc, ← @ih (c :: before)]
      constructor
      · intro h
        obtain ⟨-, hc⟩ | ⟨rfl, hc⟩ | ⟨r, -, -, -, -, hc⟩ | ⟨-, hc⟩ := lowerChar_cases c
        all_goals rw [hc] at h ⊢
        · exact ⟨rfl, (List.cons.inj h).2⟩
        · exact absurd (List.cons.inj h).1 (by decide +kernel)
        · exact ⟨congrArg (fun x => [x]) (List.cons.inj h).1, (List.cons.inj h).2⟩
        · exact ⟨congrArg (fun x => [x]) (List.cons.inj h).1, (List.cons.inj h).2⟩
      · rintro ⟨hhead, htail⟩
        rw [hhead, htail]
        rfl

/-! ## Blanks around -/

theorem isTrimmed_trimBlanks (cs : List Char) : IsTrimmed (trimBlanks cs) := by
  have hdrop (xs : List Char) : ∀ c ∈ (xs.dropWhile isBlank).head?, isBlank c = false := by
    intro c hc
    have := List.head?_dropWhile_not isBlank xs
    rw [Option.mem_def.1 hc] at this
    simpa using this
  constructor
  · intro c hc
    -- What is left is the beginning of what the first trimming leaves.
    obtain ⟨behind, hbehind⟩ : trimBlanks cs <+: cs.dropWhile isBlank := by
      rw [trimBlanks, ← List.reverse_suffix, List.reverse_reverse]
      exact List.dropWhile_suffix _
    refine hdrop cs c ?_
    rw [← hbehind]
    exact List.mem_head?_append_of_mem_head? hc
  · rw [trimBlanks, List.getLast?_reverse]
    exact hdrop _

theorem isTrimmed_map_toLower {cs : List Char} :
    IsTrimmed (cs.map Char.toLower) ↔ IsTrimmed cs := by
  simp [IsTrimmed, isBlank_toLower]

/-- What becomes of the first character is not nothing, and blank only when the character is. -/
theorem lowerFrom_cons (before rest : List Char) (c : Char) :
    ∃ x piece, lowerFrom before (c :: rest) = (x :: piece) ++ lowerFrom (c :: before) rest ∧
      (isBlank c = false → ∀ y ∈ x :: piece, isBlank y = false) := by
  by_cases hc : c = 'Σ'
  · subst hc
    refine ⟨_, [], lowerFrom_sigma, fun _ y hy => ?_⟩
    rw [List.mem_singleton.1 hy]
    split <;> decide +kernel
  · rcases hlower : lowerChar c with _ | ⟨x, piece⟩
    · exact absurd hlower (lowerChar_ne_nil c)
    · refine ⟨x, piece, by rw [lowerFrom_cons_of_ne hc, hlower], fun hblank => ?_⟩
      rw [← hlower]
      exact not_isBlank_of_mem_lowerChar hblank

theorem lowerFrom_eq_nil_iff {before cs : List Char} : lowerFrom before cs = [] ↔ cs = [] := by
  cases cs with
  | nil => simp [lowerFrom]
  | cons c rest =>
    obtain ⟨x, piece, hcons, -⟩ := lowerFrom_cons before rest c
    simp [hcons]

theorem isTrimmed_lowerFrom {before cs : List Char} (h : IsTrimmed cs) :
    IsTrimmed (lowerFrom before cs) := by
  constructor
  · cases cs with
    | nil => simp [lowerFrom]
    | cons c rest =>
      obtain ⟨x, piece, hcons, hblank⟩ := lowerFrom_cons before rest c
      have hx := hblank (h.1 c rfl) x List.mem_cons_self
      simpa [hcons] using hx
  · have hlast := h.2
    clear h
    induction cs generalizing before with
    | nil => simp [lowerFrom]
    | cons c rest ih =>
      obtain ⟨x, piece, hcons, hblank⟩ := lowerFrom_cons before rest c
      intro y hy
      rw [hcons] at hy
      cases rest with
      | nil =>
        rw [lowerFrom, List.append_nil] at hy
        exact hblank (hlast c rfl) y (List.mem_of_mem_getLast? hy)
      | cons b rest =>
        have hne : lowerFrom (c :: before) (b :: rest) ≠ [] := by simp [lowerFrom_eq_nil_iff]
        rw [List.getLast?_append_of_ne_nil _ hne] at hy
        exact ih (by simpa using hlast) y hy

/-! ## Texts that a trimmed lower-case form finds again -/

/-- A text without blanks at its ends whose letters with case are ASCII letters or small. -/
def IsFindable (s : String) : Prop := IsTrimmed s.toList ∧ ∀ c ∈ s.toList, IsPlainCase c

/-- **The two lower-case forms.** Of the findable texts, and of no others, the trimmed lower-case
form is the text with its ASCII letters in lower case. -/
theorem lower_trim_eq_lowerAscii_iff {s : String} :
    lower (trim s) = lowerAscii s ↔ IsFindable s := by
  simp only [lower, trim, lowerAscii, String.ofList_inj, String.toList_ofList, IsFindable]
  constructor
  · intro h
    have htrimmed : IsTrimmed s.toList := by
      rw [← isTrimmed_map_toLower, ← h]
      exact isTrimmed_lowerFrom (isTrimmed_trimBlanks _)
    rw [trimBlanks_of_isTrimmed htrimmed] at h
    exact ⟨htrimmed, lowerFrom_eq_map_iff.1 h⟩
  · rintro ⟨htrimmed, hplain⟩
    rw [trimBlanks_of_isTrimmed htrimmed]
    exact lowerFrom_eq_map_iff.2 hplain

/-- Two texts differ in the case of their letters only. -/
def SameLetters (s t : String) : Prop :=
  List.Forall₂ (fun a b => lowerChar a = lowerChar b) s.toList t.toList

theorem not_isBlank_of_same {a b : Char} (h : lowerChar a = lowerChar b) (ha : isBlank a = false) :
    isBlank b = false := by
  by_contra hb
  rw [Bool.not_eq_false] at hb
  rw [lowerChar_of_blank hb] at h
  have := not_isBlank_of_mem_lowerChar ha b (by rw [h]; exact List.mem_singleton_self b)
  simp [hb] at this

theorem isTrimmed_of_same {cs ds : List Char}
    (h : List.Forall₂ (fun a b => lowerChar a = lowerChar b) cs ds) (hcs : IsTrimmed cs) :
    IsTrimmed ds := by
  have hhead {cs ds : List Char}
      (h : List.Forall₂ (fun a b => lowerChar a = lowerChar b) cs ds)
      (hcs : ∀ c ∈ cs.head?, isBlank c = false) : ∀ c ∈ ds.head?, isBlank c = false := by
    cases h with
    | nil => simp
    | cons hab _ =>
      simp only [List.head?_cons, Option.mem_some, forall_eq'] at hcs ⊢
      exact not_isBlank_of_same hab hcs
  refine ⟨hhead h hcs.1, ?_⟩
  have hlast := hhead (List.rel_reverse h) (by rw [List.head?_reverse]; exact hcs.2)
  rwa [List.head?_reverse] at hlast

theorem flatMap_lowerChar_of_same {cs ds : List Char}
    (h : List.Forall₂ (fun a b => lowerChar a = lowerChar b) cs ds) :
    ds.flatMap lowerChar = cs.flatMap lowerChar := by
  induction h with
  | nil => rfl
  | cons hab _ ih => rw [List.flatMap_cons, List.flatMap_cons, hab, ih]

/-- In another case a findable text is found again unless a capital sigma takes its final form. -/
theorem lower_trim_eq_lowerAscii_iff_of_same {s t : String} (hs : IsFindable s)
    (hst : SameLetters s t) : lower (trim t) = lowerAscii s ↔ ¬ HasFinalSigma [] t.toList := by
  obtain ⟨htrimmed, hplain⟩ := hs
  have hsame : t.toList.flatMap lowerChar = s.toList.map Char.toLower := by
    have hflat : s.toList.flatMap lowerChar = s.toList.map Char.toLower := by
      rw [List.map_eq_flatMap]
      exact List.flatMap_congr fun c hc => isPlainCase_iff.1 (hplain c hc)
    rw [← hflat, flatMap_lowerChar_of_same hst]
  simp only [lower, trim, lowerAscii, String.ofList_inj, String.toList_ofList]
  rw [trimBlanks_of_isTrimmed (isTrimmed_of_same hst htrimmed), ← hsame]
  exact lowerFrom_eq_flatMap_iff

end Text

end LeadDesk
