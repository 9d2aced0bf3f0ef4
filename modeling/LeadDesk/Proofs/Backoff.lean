import LeadDesk.Proofs.Delays
import LeadDesk.Proofs.Rounding
import LeadDesk.Tool.Sandbox
import Mathlib.Data.List.TakeWhile
/-!
# Repeated calls

A call whose trouble may pass is made again, as often as allowed, with a sleep before each further
attempt that is twice as long as the one before. Where the outcomes are laid down, there is one
attempt more than there are outcomes at the start that may pass, or than are allowed, and the
outcome of the last attempt is the outcome of all (`Retry.run_scripted`). Before attempt 1025 the
sleep cannot be told: the power of two by which the base delay is taken is beyond the floating-point
numbers.
-/

namespace LeadDesk

namespace Double

/-- The number `2 ^ k`. -/
def power (k : Nat) : Double := finite false (twoTo 52) (k + 1022)

theorem ofInt?_twoTo {k : Nat} (h : k < 1024) : ofInt? (twoTo k) = some (power k) := by
  have hproper : (power k).IsProper := ⟨by decide, .inr le_rfl, by omega⟩
  have hround : ofRatio false (twoTo k) 1 = power k := by
    have hexponent : k + 1074 = 52 + (k + 1022) := by omega
    have hscale : twoTo k * twoTo 1074 = twoTo 52 * (2 ^ (k + 1022) * 1) := by
      rw [Nat.mul_one, ← twoTo_eq (k + 1022), ← twoTo_add, ← twoTo_add, hexponent]
    rw [ofRatio, hscale]
    exact ofScaledRatio_of_near hproper (by decide) (near_self _ _)
  exact ofInt?_eq_some_iff.2 ⟨hround, fun negative heq => by cases heq⟩

theorem ofInt?_twoTo_of_le {k : Nat} (h : 1024 ≤ k) : ofInt? (twoTo k) = none := by
  cases hpower : ofInt? (twoTo k) with
  | none => rfl
  | some d => exact absurd (natAbs_lt_of_ofInt? hpower h) (Nat.lt_irrefl _)

end Double

theorem Script.count_tick_self (s : Script) (tool : String) :
    (s.tick tool).count tool = s.count tool + 1 := by
  rw [count, tick, List.find?_cons_of_pos (by simp)]
  rfl

/-- The desk after a sleep that nothing cuts off. -/
def Desk.slept (d : Desk) (seconds : Double) : Desk :=
  { d with
    waited := d.waited + d.script.naps.headD 0
    script := { d.script with naps := d.script.naps.tail }
    journal := { d.journal with sleeps := d.journal.sleeps ++ [seconds] } }

namespace Action

variable {o : Office} {d : Desk}

theorem run_nextNap :
    nextNap.run o d = (.done (d.script.naps.headD 0),
      { d with script := { d.script with naps := d.script.naps.tail } }) := by
  rcases d with ⟨_, _, _, _, _, _, _, ⟨_, _, _, _, naps⟩, _⟩
  cases naps <;> rfl

theorem run_elapse_of_free (h : o.deadlines = []) (micros : Nat) :
    (elapse micros).run o d = (.done (), { d with waited := d.waited + micros }) := by
  unfold elapse
  dsimp only
  rw [h]
  rfl

/-- Where there is no deadline a sleep comes to its end. -/
theorem run_sleep_of_free (h : o.deadlines = []) (seconds : Double) :
    (sleep seconds).run o d = (.done (), d.slept seconds) := by
  have hnoted : (note fun j => { j with sleeps := j.sleeps ++ [seconds] }).run o d =
      (.done (), { d with
        journal := { d.journal with sleeps := d.journal.sleeps ++ [seconds] } }) := rfl
  rw [sleep, run_bind_of_done hnoted, run_bind_of_done run_nextNap, Desk.slept]
  dsimp only
  cases d.script.naps.headD 0 with
  | zero =>
    rw [Int.natCast_zero, Int.add_zero]
    rfl
  | succ nap => exact run_elapse_of_free h _

end Action

namespace Retry

/-- The outcome of a call says that the call may be made again. -/
def mayPass : Except Failure Json → Bool
  | .ok v => isRetryable v
  | .error e => e.isTransient

/-- How a call with this outcome ends. -/
def ended : Except Failure Json → Ending Json
  | .ok v => .done v
  | .error e => .failed e

/-- A call whose outcomes are laid down, each by the number of calls before it. -/
def scripted (name : String) (outcomes : Nat → Except Failure Json) : Action Json := do
  let n ← Action.countCall name
  Action.ofExcept (outcomes n)

/-- Calls one behind the other with this many pauses between them, the first of which comes after
an attempt with this number. Only the outcome of the last call counts. -/
def spaced (pause : Nat → Action Unit) (call : Action Json) : (attempt pauses : Nat) → Action Json
  | _, 0 => call
  | attempt, pauses + 1 => do
    let _ ← Action.attempt call
    pause attempt
    spaced pause call (attempt + 1) pauses

/-- The base delay, doubled once for each attempt so far. -/
def doubled (base : Double) (attempt : Nat) : Double := base.mul (Double.power attempt)

/-- Sleep for the base delay, doubled once for each attempt so far. -/
def rest (base : Double) (attempt : Nat) : Action Unit := Action.sleep (doubled base attempt)

/-- How many outcomes may pass in a row, from one on and up to a limit. -/
def passing (outcomes : Nat → Except Failure Json) (first limit : Nat) : Nat :=
  ((List.range' first limit).takeWhile fun n => mayPass (outcomes n)).length

variable {base : Double} {name : String} {outcomes : Nat → Except Failure Json}
  {first limit left : Nat} {o : Office} {d : Desk}

theorem passing_zero : passing outcomes first 0 = 0 := rfl

theorem passing_succ :
    passing outcomes first (limit + 1) =
      if mayPass (outcomes first) then passing outcomes (first + 1) limit + 1 else 0 := by
  simp only [passing, List.range'_succ, List.takeWhile_cons]
  split
  · exact List.length_cons
  · exact List.length_nil

theorem passing_eq_limit (h : ∀ n < first + limit, mayPass (outcomes n) = true) :
    passing outcomes first limit = limit := by
  have hall : ∀ n ∈ List.range' first limit, mayPass (outcomes n) = true :=
    fun n hn => h n (List.mem_range'_1.1 hn).2
  rw [passing, List.takeWhile_eq_self_iff.2 hall, List.length_range']

/-! ## One attempt -/

theorem delay_of_lt {attempt : Nat} (h : attempt < 1024) :
    delay base attempt = .ok (doubled base attempt) := by
  rw [delay, Double.ofInt?_twoTo h, Option.elim_some, doubled]

theorem delay_of_le {attempt : Nat} (h : 1024 ≤ attempt) :
    delay base attempt = .error .noDouble := by
  rw [delay, Double.ofInt?_twoTo_of_le h, Option.elim_none]

theorem pause_of_lt {attempt : Nat} (h : attempt < 1024) :
    pause base attempt = rest base attempt := by
  rw [pause, delay_of_lt h]
  rfl

theorem pause_of_le {attempt : Nat} (h : 1024 ≤ attempt) :
    pause base attempt = Action.fail .noDouble := by
  rw [pause, delay_of_le h]
  rfl

theorem run_scripted_call :
    (scripted name outcomes).run o d =
      (ended (outcomes (d.script.count name)), { d with script := d.script.tick name }) := by
  have hcount : (Action.countCall name).run o d =
      (.done (d.script.count name), { d with script := d.script.tick name }) := rfl
  rw [scripted, Action.run_bind_of_done hcount]
  cases outcomes (d.script.count name) <;> rfl

theorem run_attempt_scripted :
    (Action.attempt (scripted name outcomes)).run o d =
      (.done (outcomes (d.script.count name)), { d with script := d.script.tick name }) := by
  rw [Action.run_attempt, run_scripted_call]
  cases outcomes (d.script.count name) <;> rfl

/-- After an outcome that may pass there are a pause and the next attempt; any other outcome is
that of all. -/
theorem run_succ (attempt : Nat) :
    (run base attempt (scripted name outcomes) (left + 1)).run o d =
      if mayPass (outcomes (d.script.count name)) then
        (pause base attempt >>= fun _ => run base (attempt + 1) (scripted name outcomes) left).run
          o { d with script := d.script.tick name }
      else (scripted name outcomes).run o d := by
  rw [run, Action.run_bind_of_done run_attempt_scripted, run_scripted_call]
  cases outcomes (d.script.count name) with
  | ok v =>
    dsimp only
    rw [mayPass]
    split <;> rfl
  | error e =>
    dsimp only
    rw [mayPass]
    split <;> rfl

theorem run_spaced_succ (pause : Nat → Action Unit) (attempt pauses : Nat) :
    (spaced pause (scripted name outcomes) attempt (pauses + 1)).run o d =
      (pause attempt >>= fun _ => spaced pause (scripted name outcomes) (attempt + 1) pauses).run
        o { d with script := d.script.tick name } := by
  rw [spaced, Action.run_bind_of_done run_attempt_scripted]

/-- A pause is a sleep as long as the power of two is a floating-point number. -/
theorem run_pause (hfree : o.deadlines = []) (base : Double) (attempt : Nat) (d : Desk) :
    (pause base attempt).run o d =
      if attempt < 1024 then (.done (), d.slept (doubled base attempt))
      else (.failed .noDouble, d) := by
  split
  · rename_i hlt
    rw [pause_of_lt hlt, rest, Action.run_sleep_of_free hfree]
  · rename_i hle
    rw [pause_of_le (Nat.le_of_not_lt hle), Action.run_fail]

/-! ## All attempts -/

/-- The attempts are as many as the outcomes that may pass, and one more. -/
theorem run_eq_spaced (hfree : o.deadlines = []) : ∀ (attempt : Nat) (d : Desk),
    (run base attempt (scripted name outcomes) left).run o d =
      (spaced (pause base) (scripted name outcomes) attempt
        (passing outcomes (d.script.count name) left)).run o d := by
  induction left with
  | zero =>
    intro attempt d
    rw [passing_zero, spaced, run_zero]
  | succ left ih =>
    intro attempt d
    rw [run_succ, passing_succ]
    by_cases h : mayPass (outcomes (d.script.count name)) = true
    · rw [if_pos h, if_pos h, run_spaced_succ]
      refine Action.run_bind_congr rfl fun _ m hpause => ?_
      have hcount : m.script.count name = d.script.count name + 1 := by
        rw [run_pause hfree] at hpause
        split at hpause <;> cases hpause
        exact d.script.count_tick_self name
      rw [ih, hcount]
    · rw [if_neg h, if_neg h, spaced]

/-- With few enough pauses each of them is a sleep. -/
theorem spaced_pause {call : Action Json} (pauses : Nat) : ∀ attempt, attempt + pauses ≤ 1024 →
    spaced (pause base) call attempt pauses = spaced (rest base) call attempt pauses := by
  induction pauses with
  | zero =>
    -- not by `rfl`, which would set out to compute the power of two
    intro attempt _
    rw [spaced, spaced]
  | succ pauses ih =>
    intro attempt h
    rw [spaced, spaced, pause_of_lt (by omega), ih _ (by omega)]

/-- The action comes to this ending after so many calls, with these sleeps in between. -/
def ComesTo (name : String) (x : Action Json) (o : Office) (d : Desk) (ending : Ending Json)
    (calls : Nat) (sleeps : List Double) : Prop :=
  ∃ e, x.run o d = (ending, e) ∧ e.script.count name = d.script.count name + calls ∧
    e.journal.sleeps = d.journal.sleeps ++ sleeps

/-- The first calls, each with the sleep after it, lead to a desk where the others go on. -/
theorem exists_spaced (hfree : o.deadlines = []) (base : Double) (name : String)
    (outcomes : Nat → Except Failure Json) (begun : Nat) : ∀ (attempt : Nat) (d : Desk),
    attempt + begun ≤ 1024 → ∃ e, (∀ others,
      (spaced (pause base) (scripted name outcomes) attempt (begun + others)).run o d =
        (spaced (pause base) (scripted name outcomes) (attempt + begun) others).run o e) ∧
      e.script.count name = d.script.count name + begun ∧
      e.journal.sleeps =
        d.journal.sleeps ++ (List.range' attempt begun).map (doubled base) := by
  induction begun with
  | zero =>
    intro attempt d _
    refine ⟨d, fun others => ?_, rfl, (List.append_nil _).symm⟩
    rw [Nat.zero_add, Nat.add_zero]
  | succ begun ih =>
    intro attempt d hle
    have hlt : attempt < 1024 := by omega
    have hpause := run_pause hfree base attempt { d with script := d.script.tick name }
    rw [if_pos hlt] at hpause
    obtain ⟨e, hrun, hcount, hsleeps⟩ := ih (attempt + 1)
      ({ d with script := d.script.tick name }.slept (doubled base attempt)) (by omega)
    refine ⟨e, fun others => ?_, ?_, ?_⟩
    · rw [Nat.add_right_comm begun 1 others, run_spaced_succ, Action.run_bind_of_done hpause,
        Nat.add_comm begun 1, ← Nat.add_assoc]
      exact hrun others
    · rw [hcount]
      show (d.script.tick name).count name + begun = _
      rw [Script.count_tick_self]
      omega
    · rw [hsleeps, List.range'_succ, List.map_cons]
      exact List.append_assoc _ _ _

variable {sleeps : Nat}

theorem comesTo_of_le (hfree : o.deadlines = []) (hle : sleeps ≤ 1024) :
    ComesTo name (spaced (pause base) (scripted name outcomes) 0 sleeps) o d
      (ended (outcomes (d.script.count name + sleeps))) (sleeps + 1)
      ((List.range sleeps).map (doubled base)) := by
  obtain ⟨e, hrun, hcount, hsleeps⟩ := exists_spaced hfree base name outcomes sleeps 0 d (by omega)
  refine ⟨{ e with script := e.script.tick name }, ?_, ?_, ?_⟩
  · refine (hrun 0).trans ?_
    rw [spaced, run_scripted_call, hcount]
  · show (e.script.tick name).count name = _
    rw [Script.count_tick_self, hcount, Nat.add_assoc]
  · rw [List.range_eq_range']
    exact hsleeps

theorem comesTo_of_lt (hfree : o.deadlines = []) (hlt : 1024 < sleeps) :
    ComesTo name (spaced (pause base) (scripted name outcomes) 0 sleeps) o d
      (.failed .noDouble) 1025 ((List.range 1024).map (doubled base)) := by
  obtain ⟨e, hrun, hcount, hsleeps⟩ := exists_spaced hfree base name outcomes 1024 0 d (by omega)
  obtain ⟨others, rfl⟩ : ∃ others, sleeps = 1024 + (others + 1) := ⟨sleeps - 1025, by omega⟩
  have hpause := run_pause hfree base (0 + 1024) { e with script := e.script.tick name }
  rw [if_neg (by omega)] at hpause
  refine ⟨{ e with script := e.script.tick name }, ?_, ?_, ?_⟩
  · refine (hrun (others + 1)).trans ?_
    rw [run_spaced_succ, Action.run_bind_of_failed hpause]
  · show (e.script.tick name).count name = _
    rw [Script.count_tick_self, hcount]
  · rw [List.range_eq_range']
    exact hsleeps

/-- **Bounded backoff.** Where nothing cuts a sleep off, there is one call more than there are
outcomes in a row that may pass, counted up to the limit, and the outcome of the last call is that
of all. Between two calls the desk sleeps, each time twice as long as the time before. If there are
more than 1024 sleeps to come, the call after the first 1024 is followed by a failure. -/
theorem run_scripted (hfree : o.deadlines = []) (base : Double) (name : String)
    (outcomes : Nat → Except Failure Json) (limit : Nat) :
    let first := d.script.count name
    let sleeps := passing outcomes first limit
    let x := run base 0 (scripted name outcomes) limit
    (sleeps ≤ 1024 →
      x.run o d = (spaced (rest base) (scripted name outcomes) 0 sleeps).run o d ∧
      ComesTo name x o d (ended (outcomes (first + sleeps))) (sleeps + 1)
        ((List.range sleeps).map (doubled base))) ∧
    (1024 < sleeps →
      ComesTo name x o d (.failed .noDouble) 1025 ((List.range 1024).map (doubled base))) := by
  intro first sleeps x
  have hspaced : x.run o d =
      (spaced (pause base) (scripted name outcomes) 0 sleeps).run o d := run_eq_spaced hfree 0 d
  refine ⟨fun hle => ⟨?_, ?_⟩, fun hlt => ?_⟩
  · rw [hspaced, spaced_pause _ _ (by omega)]
  · rw [ComesTo, hspaced]
    exact comesTo_of_le hfree hle
  · rw [ComesTo, hspaced]
    exact comesTo_of_lt hfree hlt

/-- The outcome of a call that is answered with this number of calls before it, and is told to come
again until then. -/
def answeredAt (n k : Nat) : Except Failure Json :=
  .ok (.object (if k < n then [("retryable", .bool true)] else [("success", .bool true)]))

theorem run_scripted_answeredAt :
    ({} : Office).deadlines = [] ∧
      ComesTo "call" (run .one 0 (scripted "call" (answeredAt 2)) 3) {} {}
        (ended (answeredAt 2 2)) 3 [doubled .one 0, doubled .one 1] ∧
      ComesTo "call" (run .one 0 (scripted "call" (answeredAt 1025)) 1025) {} {}
        (.failed .noDouble) 1025 ((List.range 1024).map (doubled .one)) := by
  have hall : ∀ n < 0 + 1025, mayPass (answeredAt 1025 n) = true := by
    intro n hn
    rw [answeredAt, if_pos (by omega)]
    rfl
  have hpassing : passing (answeredAt 1025) 0 1025 = 1025 := passing_eq_limit hall
  refine ⟨rfl, ?_, ?_⟩
  · exact ((run_scripted rfl .one "call" (answeredAt 2) 3).1 (by decide)).2
  · refine (run_scripted rfl .one "call" (answeredAt 1025) 1025).2 ?_
    exact lt_of_lt_of_eq (by decide : 1024 < 1025) hpassing.symm

end Retry

end LeadDesk
