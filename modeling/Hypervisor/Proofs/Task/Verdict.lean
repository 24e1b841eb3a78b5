/-
What a wait reports is decided by the first status check that does not say that the task runs.

The checks are given as a script without end, of which number `k` is the first with news. As long as the handle is
neither cancelled nor dropped, the script alone decides: check `k` is the last that is started, nothing is reported
before it returns, and its verdict is the one outcome. That the outcome does arrive is shown for every schedule in which
each side takes its turn again and again (`Fair`), by a count of the moves that remain.
-/
import Hypervisor.Proofs.Task.Reachable

namespace Hypervisor.Task

open List (replicate)

/-! ## Scripts -/

/-- the checks said what the script has for them -/
def Follows (script : ℕ → CheckResult) (results : List CheckResult) : Prop :=
  ∀ n result, results[n]? = some result → result = script n

section

variable {script : ℕ → CheckResult} {k : ℕ}

theorem Follows.mono {shorter longer : List CheckResult} (h : Follows script longer)
    (hsub : shorter <+: longer) : Follows script shorter := by
  obtain ⟨rest, rfl⟩ := hsub
  intro n result hn
  obtain ⟨hlt, -⟩ := List.getElem?_eq_some_iff.1 hn
  exact h n result (by rwa [List.getElem?_append_left hlt])

/-- one more check says what the script has next -/
theorem Follows.snoc {results : List CheckResult} (h : Follows script results) :
    Follows script (results ++ [script results.length]) := by
  intro n result hn
  rcases lt_or_ge n results.length with hlt | hge
  · rw [List.getElem?_append_left hlt] at hn
    exact h n result hn
  · rw [List.getElem?_append_right hge, List.getElem?_singleton] at hn
    split_ifs at hn with hlast
    rw [le_antisymm (Nat.sub_eq_zero_iff_le.1 hlast) hge]
    exact (Option.some.inj hn).symm

/-- the task runs for at most as long as the script says -/
theorem Follows.running_le (hlast : script k ≠ .running) {j : ℕ} (h : Follows script (replicate j .running)) :
    j ≤ k := by
  by_contra hlt
  exact hlast (h k .running (List.getElem?_replicate_of_lt (Nat.lt_of_not_le hlt))).symm

/-- a last result with news is the first with news in the script -/
theorem Follows.last_eq (hrunning : ∀ n < k, script n = .running) (hlast : script k ≠ .running) {j : ℕ}
    {last : CheckResult} (h : Follows script (replicate j .running ++ [last])) (hnews : last ≠ .running) :
    j = k ∧ last = script k := by
  have hle : j ≤ k := (h.mono (List.prefix_append _ _)).running_le hlast
  have hscript : last = script j := h j last (by simp)
  rcases hle.lt_or_eq with hlt | rfl
  · exact absurd (hscript.trans (hrunning j hlt)) hnews
  · exact ⟨rfl, hscript⟩

end

namespace Machine

variable {script : ℕ → CheckResult} {k : ℕ} {m m' : Machine} {a : Action} {sent : List Outcome}

/-! ## What is reported -/

/-- check `k` is the last, and nothing but this outcome comes of the wait -/
structure Decided (k : ℕ) (decision : Outcome) (m : Machine) (outcomes : List Outcome) : Prop where
  checks : m.started ≤ k + 1
  silent : m.results.length ≤ k → outcomes = [] ∧ m.reported = none ∧ ∀ answer ∈ m.answers, answer = none
  outcome : ∀ outcome ∈ outcomes, outcome = decision ∧ m.started = k + 1
  answer : ∀ outcome, some outcome ∈ m.answers → outcome = decision ∧ m.started = k + 1

/-- the end of an undisturbed polling is the end that the script has for it -/
theorem Concluded.eq_script (hrunning : ∀ n < k, script n = .running) (hlast : script k ≠ .running)
    (hopen : m.cancelOpen = true) (hfollows : Follows script m.results) {last : CheckResult} (h : Concluded m last) :
    last = script k ∧ m.results.length = k + 1 ∧ m.started = k + 1 := by
  obtain ⟨⟨j, hresults, hstarted⟩, hasked⟩ := h
  have hnews : last ≠ .running := by
    intro hrun
    rw [hasked hrun] at hopen
    cases hopen
  rw [hresults] at hfollows
  obtain ⟨rfl, rfl⟩ := hfollows.last_eq hrunning hlast hnews
  exact ⟨rfl, by simp [hresults], hstarted⟩

theorem decided_of_sound (hrunning : ∀ n < k, script n = .running) (hlast : script k ≠ .running) (h : Sound m sent)
    (hopen : m.cancelOpen = true) (hfollows : Follows script m.results) :
    Decided k (verdict m.id (script k)) m (sent ++ m.pending) := by
  have hend := fun last (hc : Concluded m last) => hc.eq_script hrunning hlast hopen hfollows
  have hanswer : ∀ outcome, some outcome ∈ m.answers →
      outcome = verdict m.id (script k) ∧ m.results.length = k + 1 ∧ m.started = k + 1 := by
    intro outcome hmem
    obtain ⟨hended, rfl⟩ := h.answered hmem
    obtain ⟨last, hconcluded, hdelivery⟩ := h.ended hended
    obtain ⟨rfl, hlength, hstarted⟩ := hend last hconcluded
    exact ⟨hdelivery, hlength, hstarted⟩
  refine ⟨?_, fun hearly => ?_, fun outcome hmem => ?_, fun outcome hmem => ?_⟩
  · obtain ⟨j, hsub, hstarted⟩ := h.checks
    have hj := (hfollows.mono hsub).running_le hlast
    omega
  · have hnone : sent ++ m.pending = [] := by
      by_contra hsome
      obtain ⟨last, hconcluded, -, -⟩ := h.outcome hsome
      obtain ⟨-, hlength, -⟩ := hend last hconcluded
      omega
    refine ⟨hnone, ?_, fun answer hmem => ?_⟩
    · rcases h.reported_eq with hr | hr
      · exact hr
      · rw [hr, (List.append_eq_nil_iff.1 hnone).1, List.head?_nil]
    · cases answer with
      | none => rfl
      | some outcome =>
        obtain ⟨-, hlength, -⟩ := hanswer outcome hmem
        omega
  · obtain ⟨last, hconcluded, -, heq⟩ := h.outcome (List.ne_nil_of_mem hmem)
    obtain ⟨rfl, -, hstarted⟩ := hend last hconcluded
    rw [heq] at hmem
    exact ⟨List.mem_singleton.1 hmem, hstarted⟩
  · obtain ⟨heq, -, hstarted⟩ := hanswer outcome hmem
    exact ⟨heq, hstarted⟩

/-! ## Schedules -/

/-- the machine after the first `n` actions of a schedule -/
def after (m : Machine) (schedule : ℕ → Action) (n : ℕ) : Machine := m.run ((List.range n).map schedule)

theorem after_succ (m : Machine) (schedule : ℕ → Action) (n : ℕ) :
    m.after schedule (n + 1) = (m.after schedule n).step (schedule n) := by
  simp only [after, List.range_succ, List.map_append, List.map_singleton, run_append]
  rfl

/-- something is done again and again -/
def Recurs (schedule : ℕ → Action) (p : Action → Prop) : Prop := ∀ n, ∃ later ≥ n, p (schedule later)

/-- each side takes its turn again and again: the poller is not held up, a check comes back, a pause runs out, and the
handle waits and sees the poller end -/
structure Fair (schedule : ℕ → Action) : Prop where
  start : Recurs schedule (· = .start)
  complete : Recurs schedule fun a => ∃ result, a = .complete result
  timeout : Recurs schedule (· = .timeout)
  report : Recurs schedule (· = .report)
  exit : Recurs schedule (· = .exit)
  wait : Recurs schedule (· = .wait)
  join : Recurs schedule (· = .join)

/-! ## Progress -/

/-- how far a wait has come -/
structure Stage where
  phase : Phase
  completed : ℕ
  handle : HandlePhase
  settled : Option Outcome

def stage (m : Machine) : Stage := ⟨m.phase, m.results.length, m.handle, m.settled⟩

namespace Stage

/-- the moves of the poller that remain when check `k` is the last: three for each check until then -/
def pollerMoves (k : ℕ) (s : Stage) : ℕ :=
  match s.phase with
  | .ready => 3 * (k - s.completed) + 5
  | .checking => 3 * (k - s.completed) + 4
  | .pausing => 3 * (k - s.completed) + 6
  | .reporting _ => 2
  | .sent => 1
  | .ended => 0

/-- the moves of the handle that remain: to take the outcome and to join -/
def handleMoves (s : Stage) : ℕ :=
  match s.handle, s.settled with
  | .idle, none => 2
  | .joining _, _ => 1
  | _, _ => 0

def remaining (k : ℕ) (s : Stage) : ℕ := s.pollerMoves k + s.handleMoves

/-- the action that takes a wait further -/
inductive Awaits (s : Stage) : Action → Prop
  | start (ready : s.phase = .ready) : Awaits s .start
  | complete (result : CheckResult) (checking : s.phase = .checking) : Awaits s (.complete result)
  | timeout (pausing : s.phase = .pausing) : Awaits s .timeout
  | report (outcome : Outcome) (reporting : s.phase = .reporting outcome) : Awaits s .report
  | exit (sent : s.phase = .sent) : Awaits s .exit
  | wait (ended : s.phase = .ended) (idle : s.handle = .idle) (unsettled : s.settled = none) : Awaits s .wait
  | join (outcome : Outcome) (ended : s.phase = .ended) (joining : s.handle = .joining outcome) : Awaits s .join

end Stage

open Stage

/-- a handle that is not dropped is free, is about to end its wait, or has answered -/
theorem handle_cases (h : Sound m sent) (hopen : m.cancelOpen = true) :
    (m.handle = .idle ∧ m.settled = none) ∨ (∃ outcome, m.handle = .joining outcome) ∨
      ∃ outcome, some outcome ∈ m.answers := by
  obtain ⟨-, -, hh⟩ := h
  obtain ⟨id, phase, started, results, cancelWaiting, cancelOpen, reported, handle, settled, answers⟩ := m
  dsimp only at hh hopen ⊢
  cases hh with
  | waiting n => exact .inl ⟨rfl, rfl⟩
  | joining n told => exact .inr (.inl ⟨_, rfl⟩)
  | settled n j ended => exact .inr (.inr ⟨delivery id sent, by simp⟩)
  | dropped settled answers closed delivered =>
    rw [hopen] at closed
    cases closed

/-- a fair schedule comes to what is awaited -/
theorem Fair.awaited {schedule : ℕ → Action} (fair : Fair schedule) (h : Sound m sent) (hopen : m.cancelOpen = true)
    (n : ℕ) : (∃ outcome, some outcome ∈ m.answers) ∨ ∃ later ≥ n, m.stage.Awaits (schedule later) := by
  rw [or_iff_not_imp_left]
  intro hunanswered
  cases hphase : m.phase with
  | ready =>
    obtain ⟨later, hle, ha⟩ := fair.start n
    exact ⟨later, hle, ha ▸ .start hphase⟩
  | checking =>
    obtain ⟨later, hle, result, ha⟩ := fair.complete n
    exact ⟨later, hle, ha ▸ .complete result hphase⟩
  | pausing =>
    obtain ⟨later, hle, ha⟩ := fair.timeout n
    exact ⟨later, hle, ha ▸ .timeout hphase⟩
  | reporting outcome =>
    obtain ⟨later, hle, ha⟩ := fair.report n
    exact ⟨later, hle, ha ▸ .report outcome hphase⟩
  | sent =>
    obtain ⟨later, hle, ha⟩ := fair.exit n
    exact ⟨later, hle, ha ▸ .exit hphase⟩
  | ended =>
    rcases handle_cases h hopen with ⟨hidle, hunsettled⟩ | ⟨outcome, hjoining⟩ | hanswered
    · obtain ⟨later, hle, ha⟩ := fair.wait n
      exact ⟨later, hle, ha ▸ .wait hphase hidle hunsettled⟩
    · obtain ⟨later, hle, ha⟩ := fair.join n
      exact ⟨later, hle, ha ▸ .join outcome hphase hjoining⟩
    · exact absurd hanswered hunanswered

/-- what is awaited can happen, and takes the wait to another stage -/
theorem stage_ne_of_awaited (h : Sound m sent) (hopen : m.cancelOpen = true) (ha : m.stage.Awaits a) :
    (m.step a).stage ≠ m.stage := by
  intro heq
  have hunasked : m.stopAsked = false := by
    cases hwaiting : m.cancelWaiting with
    | false => simp [stopAsked, hwaiting, hopen]
    | true =>
      rw [h.message hwaiting] at hopen
      cases hopen
  have hphase : (m.step a).phase = m.phase := congrArg Stage.phase heq
  have hcompleted : (m.step a).results.length = m.results.length := congrArg Stage.completed heq
  have hhandle : (m.step a).handle = m.handle := congrArg Stage.handle heq
  cases ha with
  | start ready =>
    rw [(Moves.start ready).step_eq] at hphase
    exact absurd (hphase.trans ready) (by simp)
  | complete result checking =>
    rw [(Moves.complete result checking).step_eq] at hcompleted
    simp at hcompleted
  | timeout pausing =>
    rw [(Moves.timeout pausing hunasked).step_eq] at hphase
    exact absurd (hphase.trans pausing) (by simp)
  | report outcome reporting =>
    have hsent : (m.step .report).phase = .sent := by
      by_cases hdropped : m.handle = .dropped
      · rw [(Moves.reportUnheard outcome reporting hdropped).step_eq]
      · rw [(Moves.report outcome reporting hdropped).step_eq]
    exact absurd (hsent.symm.trans (hphase.trans reporting)) (by simp)
  | exit sent =>
    rw [(Moves.exit sent).step_eq] at hphase
    exact absurd (hphase.trans sent) (by simp)
  | wait ended idle unsettled =>
    obtain ⟨outcome, havailable⟩ : ∃ outcome, m.available? = some outcome := by
      have hended : m.phase = .ended := ended
      cases hreported : m.reported <;> simp [available?, hreported, hended]
    rw [(Moves.take .wait outcome .wait idle unsettled havailable).step_eq] at hhandle
    exact absurd (hhandle.trans idle) (by simp [take])
  | join outcome ended joining =>
    rw [(Moves.join outcome joining ended).step_eq] at hhandle
    exact absurd (hhandle.trans joining) (by simp [answer])

/-- a move of an undisturbed wait takes it further or leaves it at its stage -/
theorem remaining_move (hlast : script k ≠ .running) (h : Sound m' sent) (hfollows : Follows script m'.results)
    (hm : Moves m a m') (hcancel : a ≠ .cancel) (hdrop : a ≠ .drop) :
    m'.stage.remaining k < m.stage.remaining k ∨ m'.stage = m.stage := by
  cases hm with
  | start ready => exact .inl (by simp [stage, remaining, pollerMoves, handleMoves, ready])
  | complete result checking =>
    refine .inl (Nat.add_lt_add_right ?_ _)
    rcases afterCheck_cases m.id result with ⟨-, hnext⟩ | ⟨-, hnext⟩ | ⟨-, -, hnext⟩
    · obtain ⟨j, hresults⟩ := h.pausing hnext
      have hle : j ≤ k := (hresults ▸ hfollows).running_le hlast
      have hlength : m.results.length + 1 = j := by simpa using congrArg List.length hresults
      simp only [stage, pollerMoves, checking, hnext, List.length_append, List.length_singleton]
      omega
    · simp [stage, pollerMoves, checking, hnext]
    · simp [stage, pollerMoves, checking, hnext]
  | timeout pausing unasked => exact .inl (by simp [stage, remaining, pollerMoves, handleMoves, pausing])
  | heed pausing asked =>
    refine .inl (Nat.add_lt_add_right ?_ _)
    simp only [stage, pollerMoves, pausing]
    omega
  | report outcome reporting heard => exact .inl (by simp [stage, remaining, pollerMoves, handleMoves, reporting])
  | reportUnheard outcome reporting unheard =>
    exact .inl (by simp [stage, remaining, pollerMoves, handleMoves, reporting])
  | exit sent => exact .inl (by simp [stage, remaining, pollerMoves, handleMoves, sent])
  | cancel => exact absurd rfl hcancel
  | drop => exact absurd rfl hdrop
  | again call outcome isCall idle settled => exact .inr rfl
  | take call outcome isCall idle unsettled available =>
    exact .inl (by simp [stage, remaining, pollerMoves, handleMoves, idle, unsettled, take])
  | nothing idle unsettled unavailable => exact .inr rfl
  | join outcome joining ended =>
    exact .inl (by simp [stage, remaining, pollerMoves, handleMoves, joining, answer])

/-! ## Undisturbed schedules -/

/-- the handle is neither cancelled nor dropped, and the checks say what the script has for them -/
structure Undisturbed (id : Id) (script : ℕ → CheckResult) (schedule : ℕ → Action) : Prop where
  cancel : ∀ n, schedule n ≠ .cancel
  drop : ∀ n, schedule n ≠ .drop
  follows : ∀ n, Follows script ((submit id).after schedule n).results

section

variable {id : Id} {schedule : ℕ → Action}

theorem sound_after (id : Id) (schedule : ℕ → Action) (n : ℕ) :
    Sound ((submit id).after schedule n) ((submit id).sends ((List.range n).map schedule)) :=
  sound_reached id _

theorem Undisturbed.cancelOpen (h : Undisturbed id script schedule) (n : ℕ) :
    ((submit id).after schedule n).cancelOpen = true :=
  cancelOpen_run rfl (by simpa using fun i _ => h.cancel i) (by simpa using fun i _ => h.drop i)

theorem Undisturbed.remaining_succ (h : Undisturbed id script schedule) (hlast : script k ≠ .running) (n : ℕ) :
    ((submit id).after schedule (n + 1)).stage.remaining k < ((submit id).after schedule n).stage.remaining k ∨
      ((submit id).after schedule (n + 1)).stage = ((submit id).after schedule n).stage := by
  have hsound := sound_after id schedule (n + 1)
  have hfollows := h.follows (n + 1)
  rw [after_succ] at hsound hfollows ⊢
  rcases step_moves ((submit id).after schedule n) (schedule n) with ⟨hstay, -⟩ | hm
  · exact .inr (congrArg stage hstay)
  · exact remaining_move hlast hsound hfollows hm (h.cancel n) (h.drop n)

/-- until any later time, the wait has got further or is still at its stage -/
theorem Undisturbed.remaining_until (h : Undisturbed id script schedule) (hlast : script k ≠ .running) {n later : ℕ}
    (hle : n ≤ later) :
    (∃ between, ((submit id).after schedule between).stage.remaining k <
        ((submit id).after schedule n).stage.remaining k) ∨
      ((submit id).after schedule later).stage = ((submit id).after schedule n).stage := by
  induction later, hle using Nat.le_induction with
  | base => exact .inr rfl
  | succ later hle ih =>
    rcases ih with hless | heq
    · exact .inl hless
    · rcases h.remaining_succ hlast later with hless | hsame
      · exact .inl ⟨later + 1, heq ▸ hless⟩
      · exact .inr (hsame.trans heq)

/-- an undisturbed wait that has not answered gets further under a fair schedule -/
theorem Undisturbed.progress (h : Undisturbed id script schedule) (hlast : script k ≠ .running) (fair : Fair schedule)
    (n : ℕ) :
    (∃ outcome, some outcome ∈ ((submit id).after schedule n).answers) ∨
      ∃ later, ((submit id).after schedule later).stage.remaining k <
        ((submit id).after schedule n).stage.remaining k := by
  rcases fair.awaited (sound_after id schedule n) (h.cancelOpen n) n with hanswered | ⟨later, hle, ha⟩
  · exact .inl hanswered
  · refine .inr ?_
    rcases h.remaining_until hlast hle with hless | heq
    · exact hless
    · rw [← heq] at ha ⊢
      have hne := stage_ne_of_awaited (sound_after id schedule later) (h.cancelOpen later) ha
      rcases h.remaining_succ hlast later with hless | hsame
      · exact ⟨later + 1, hless⟩
      · rw [after_succ] at hsame
        exact absurd hsame hne

theorem Undisturbed.eventually_answers (h : Undisturbed id script schedule) (hlast : script k ≠ .running)
    (fair : Fair schedule) : ∃ n outcome, some outcome ∈ ((submit id).after schedule n).answers := by
  have hfrom : ∀ remaining n, ((submit id).after schedule n).stage.remaining k = remaining →
      ∃ n outcome, some outcome ∈ ((submit id).after schedule n).answers := by
    intro remaining
    induction remaining using Nat.strong_induction_on with
    | h remaining ih =>
      rintro n rfl
      rcases h.progress hlast fair n with hanswered | ⟨later, hless⟩
      · exact ⟨n, hanswered⟩
      · exact ih _ hless later rfl
  exact hfrom _ 0 rfl

end

/-! ## The first check with news -/

/-- **What a wait reports is decided by the first check with news.** For every task and every script of check results in
which check `k` is the first that does not say that the task runs, as long as the handle is neither cancelled nor
dropped:
- in every interleaving, no check is started after check `k`, whatever the script has for later ones; nothing is
  reported before check `k` has returned; and every outcome, sent or answered, is the verdict on check `k`, after
  exactly `k + 1` checks;
- under every fair schedule, a wait does answer with that verdict. -/
theorem wait_answers_verdict (id : Id) (script : ℕ → CheckResult) (k : ℕ) (hrunning : ∀ n < k, script n = .running)
    (hlast : script k ≠ .running) :
    (∀ actions, .cancel ∉ actions → .drop ∉ actions → Follows script ((submit id).run actions).results →
      Decided k (verdict id (script k)) ((submit id).run actions) ((submit id).outcomes actions)) ∧
    ∀ schedule, Undisturbed id script schedule → Fair schedule →
      ∃ n, some (verdict id (script k)) ∈ ((submit id).after schedule n).answers ∧
        ((submit id).after schedule n).started = k + 1 := by
  have hdecided := fun actions hopen hfollows =>
    decided_of_sound hrunning hlast (sound_reached id actions) hopen hfollows
  simp only [id_run] at hdecided
  refine ⟨fun actions hcancel hdrop => hdecided actions (cancelOpen_run rfl hcancel hdrop), fun schedule h fair => ?_⟩
  obtain ⟨n, outcome, hanswered⟩ := h.eventually_answers hlast fair
  obtain ⟨rfl, hstarted⟩ := (hdecided _ (h.cancelOpen n) (h.follows n)).answer outcome hanswered
  exact ⟨n, hanswered, hstarted⟩

/-- a task that runs at the first check and has ended well at the second -/
def briefTask : ℕ → CheckResult
  | 0 => .running
  | _ => .status (.stopped "OK")

/-- two checks with a pause between them, and the wait -/
def turns : List Action :=
  [.start, .complete .running, .timeout, .start, .complete (.status (.stopped "OK")), .report, .exit, .wait, .join]

/-- the turns over and over -/
def takeTurns (n : ℕ) : Action := turns[n % 9]?.getD .start

theorem fair_takeTurns : Fair takeTurns := by
  have hturn : ∀ i < 9, ∀ p : Action → Prop, p (turns[i]?.getD .start) → Recurs takeTurns p := by
    intro i hi p hp n
    refine ⟨9 * n + i, by omega, ?_⟩
    rwa [takeTurns, Nat.mul_add_mod, Nat.mod_eq_of_lt hi]
  exact
    { start := hturn 0 (by decide) _ rfl
      complete := hturn 1 (by decide) _ ⟨_, rfl⟩
      timeout := hturn 2 (by decide) _ rfl
      report := hturn 5 (by decide) _ rfl
      exit := hturn 6 (by decide) _ rfl
      wait := hturn 7 (by decide) _ rfl
      join := hturn 8 (by decide) _ rfl }

theorem undisturbed_takeTurns : Undisturbed guestStart briefTask takeTurns := by
  have hbrief : Follows briefTask [.running, .status (.stopped "OK")] := by
    intro n result hn
    match n with
    | 0 | 1 => exact (Option.some.inj hn).symm
    | n + 2 => cases hn
  -- after the first round the poller has ended
  have hrest : ∀ n ≥ 9, ((submit guestStart).after takeTurns n).phase = .ended ∧
      ((submit guestStart).after takeTurns n).results = [.running, .status (.stopped "OK")] := by
    intro n hn
    induction n, hn using Nat.le_induction with
    | base => decide
    | succ n hn ih =>
      obtain ⟨hended, hresults⟩ := ended_step ih.1 (takeTurns n)
      rw [after_succ]
      exact ⟨hended, hresults.trans ih.2⟩
  have hfirst : ∀ n < 9,
      ((submit guestStart).after takeTurns n).results <+: [.running, .status (.stopped "OK")] := by decide
  have hturn : ∀ i < 9, turns[i]?.getD .start ≠ .cancel ∧ turns[i]?.getD .start ≠ .drop := by decide
  refine ⟨fun n => (hturn _ (Nat.mod_lt _ (by decide))).1, fun n => (hturn _ (Nat.mod_lt _ (by decide))).2, fun n => ?_⟩
  rcases lt_or_ge n 9 with hn | hn
  · exact hbrief.mono (hfirst n hn)
  · rw [(hrest n hn).2]
    exact hbrief

theorem wait_answers_verdict_brief :
    ((∀ n < 1, briefTask n = .running) ∧ briefTask 1 ≠ .running ∧ Undisturbed guestStart briefTask takeTurns ∧
      Fair takeTurns) ∧
    Decided 1 .succeeded ((submit guestStart).run turns) ((submit guestStart).outcomes turns) ∧
    ∃ n, some .succeeded ∈ ((submit guestStart).after takeTurns n).answers ∧
      ((submit guestStart).after takeTurns n).started = 2 := by
  have hrunning : ∀ n < 1, briefTask n = .running := by decide
  have hlast : briefTask 1 ≠ .running := by decide
  obtain ⟨hsafe, hlive⟩ := wait_answers_verdict guestStart briefTask 1 hrunning hlast
  refine ⟨⟨hrunning, hlast, undisturbed_takeTurns, fair_takeTurns⟩, hsafe turns (by decide) (by decide) ?_,
    hlive takeTurns undisturbed_takeTurns fair_takeTurns⟩
  exact undisturbed_takeTurns.follows 9

end Machine

end Hypervisor.Task
