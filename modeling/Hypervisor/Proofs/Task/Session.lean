/-
A session is a run of the machine.

A session takes the actions of the poller in turn, and those of the handle as they are asked for, so it does nothing
that an interleaving could not do (`served_is_run`): what holds of every run holds of it. Its checks come back with what
the script has for them, and past the end of the script with a transport fault. Where no check is held at a gate, the
moves that `finish` allows are enough for the poller to end (`ended_of_finish`). So a wait has an answer, and it is the
verdict on the first result with news (`wait_answers_first_news`).
-/
import Hypervisor.Proofs.Task.Delivery
import Hypervisor.Proofs.Task.Verdict
import Hypervisor.Task.Session

namespace Hypervisor.Task

open List (replicate)

/-! ## The last call -/

namespace Machine

variable {m : Machine} {sent : List Outcome}

theorem results_step {a : Action} (ha : ∀ r, a ≠ .complete r) : (m.step a).results = m.results := by
  refine kept_by_step (P := fun m' => m'.results = m.results) rfl fun m' hm => ?_
  cases hm with
  | complete r => exact absurd rfl (ha r)
  | _ => rfl

/-- a wait on a poller that has ended is answered with what the poller has sent -/
theorem answers_of_wait (h : Sound m sent) (hended : m.phase = .ended) (hkept : m.handle ≠ .dropped) :
    ((m.step .wait).step .join).answers.getLast? = some (some (delivery m.id sent)) := by
  obtain ⟨hp, -, hh⟩ := h
  obtain ⟨id, phase, started, results, cancelWaiting, cancelOpen, reported, handle, settled, answers⟩ := m
  dsimp only at hp hh hended hkept
  subst hended
  cases hh with
  | waiting n =>
    have havailable : available? ⟨id, .ended, started, results, cancelWaiting, cancelOpen, sent.head?, .idle, none,
        replicate n none⟩ = some (delivery id sent) := by
      cases hp <;> rfl
    simp [step, havailable, take, answer]
  | joining n told => simp [step, answer]
  | settled n j ended => simp [step, answer]
  | dropped => exact absurd rfl hkept

end Machine

namespace Session

variable {s : Session} {id : Id} {script : List CheckResult} {gated : Bool} {actions : List Action}

/-! ## Requests -/

/-- what can be asked of a session -/
inductive Request where
  | wait
  | tryWait
  | tryUntil
  | cancel
  | drop
  | allow
  | polls
deriving DecidableEq, Repr

/-- the session after a request -/
def serve (s : Session) : Request → Session
  | .wait => s.wait.1
  | .tryWait => s.tryWait.1
  | .tryUntil => s.tryUntil.1
  | .cancel => s.cancel
  | .drop => s.drop
  | .allow => s.allow
  | .polls => s.polls.1

/-- the session after requests in order -/
def serves (s : Session) (requests : List Request) : Session := requests.foldl serve s

/-! ## Actions -/

/-- what check number `n` comes back with -/
def result (script : List CheckResult) (n : ℕ) : CheckResult := script[n]?.getD exhausted

/-- the session was submitted with this script and has come where it is by these actions -/
structure Played (id : Id) (script : List CheckResult) (gated : Bool) (actions : List Action) (s : Session) : Prop where
  machine : s.machine = (Machine.submit id).run actions
  /-- each check that was completed has used up one result -/
  rest : s.script = script.drop s.machine.results.length
  follows : Follows (result script) s.machine.results
  free : gated = false → s.permits = none

theorem played_submit (id : Id) (script : List CheckResult) (gated : Bool) :
    Played id script gated [] (submit id script gated) := by
  refine ⟨rfl, rfl, nofun, ?_⟩
  rintro rfl
  rfl

/-- a check is completed by nothing but the next result -/
def Scripted (s : Session) (a : Action) : Prop :=
  ∀ r, a = .complete r → s.machine.phase = .checking ∧ r = s.script.head?.getD exhausted

theorem act_machine (s : Session) (a : Action) : (s.act a).machine = s.machine.step a := by
  cases a <;> rfl

theorem act_free (h : s.permits = none) (a : Action) : (s.act a).permits = none := by
  cases a <;> simp [act, h]

/-- an action of a session is one more action of its run -/
theorem Played.act (h : Played id script gated actions s) {a : Action} (ha : s.Scripted a) :
    Played id script gated (actions ++ [a]) (s.act a) := by
  have hmachine : (s.act a).machine = (Machine.submit id).run (actions ++ [a]) := by
    rw [act_machine, Machine.run_append, ← h.machine]
    rfl
  have hfree : gated = false → (s.act a).permits = none := fun hgated => act_free (h.free hgated) a
  by_cases hcomplete : ∃ r, a = .complete r
  · obtain ⟨r, rfl⟩ := hcomplete
    obtain ⟨hchecking, hr⟩ := ha r rfl
    have hnext : r = result script s.machine.results.length := by rw [hr, h.rest, List.head?_drop, result]
    have hresults : (s.act (.complete r)).machine.results = s.machine.results ++ [r] := by
      rw [act_machine, (Machine.Moves.complete r hchecking).step_eq]
    refine ⟨hmachine, ?_, ?_, hfree⟩
    · show s.script.tail = _
      rw [hresults, h.rest, List.tail_drop, List.length_append, List.length_singleton]
    · rw [hresults, hnext]
      exact h.follows.snoc
  · have hother : ∀ r, a ≠ .complete r := fun r hr => hcomplete ⟨r, hr⟩
    have hresults : (s.act a).machine.results = s.machine.results := by
      rw [act_machine, Machine.results_step hother]
    have hscript : (s.act a).script = s.script := by
      cases a with
      | complete r => exact absurd rfl (hother r)
      | _ => rfl
    refine ⟨hmachine, ?_, ?_, hfree⟩
    · rw [hscript, hresults, h.rest]
    · rw [hresults]
      exact h.follows

/-- the poller makes no call of the handle, and completes a check with the next result -/
theorem scripted_of_next? {pausesEnd : Bool} {a : Action} (h : s.next? pausesEnd = some a) :
    s.Scripted a ∧ a ≠ .cancel ∧ a ≠ .drop := by
  unfold next? at h
  cases hphase : s.machine.phase with
  | checking =>
    simp only [hphase] at h
    split_ifs at h
    obtain rfl := Option.some.inj h
    refine ⟨fun r hr => ⟨hphase, ?_⟩, nofun, nofun⟩
    exact (Action.complete.inj hr).symm
  | pausing =>
    simp only [hphase] at h
    split_ifs at h <;> obtain rfl := Option.some.inj h <;> exact ⟨nofun, nofun, nofun⟩
  | ended => simp [hphase] at h
  | _ =>
    simp only [hphase] at h
    obtain rfl := Option.some.inj h
    exact ⟨nofun, nofun, nofun⟩

/-! ## Runs -/

/-- the session was submitted with this script and has taken no actions but of this kind -/
def Reached (id : Id) (script : List CheckResult) (gated : Bool) (kind : Action → Prop) (s : Session) : Prop :=
  ∃ actions, Played id script gated actions s ∧ ∀ a ∈ actions, kind a

namespace Reached

variable {kind : Action → Prop}

theorem act (h : Reached id script gated kind s) {a : Action} (ha : s.Scripted a) (hkind : kind a) :
    Reached id script gated kind (s.act a) := by
  obtain ⟨actions, hplayed, hkinds⟩ := h
  exact ⟨_, hplayed.act ha, List.forall_mem_append.2 ⟨hkinds, List.forall_mem_singleton.2 hkind⟩⟩

theorem call (h : Reached id script gated kind s) (a : Action) (ha : ∀ r, a ≠ .complete r) (hkind : kind a) :
    Reached id script gated kind (s.act a) :=
  h.act (fun r hr => absurd hr (ha r)) hkind

theorem permit (h : Reached id script gated kind s) (permits : ℕ → ℕ) :
    Reached id script gated kind { s with permits := s.permits.map permits } := by
  obtain ⟨actions, ⟨hmachine, hrest, hfollows, hfree⟩, hkinds⟩ := h
  exact ⟨actions, ⟨hmachine, hrest, hfollows, fun hgated => by simp [hfree hgated]⟩, hkinds⟩

variable (hkind : ∀ a, a ≠ .cancel → a ≠ .drop → kind a)

include hkind

theorem advance (h : Reached id script gated kind s) (pausesEnd : Bool) (n : ℕ) :
    Reached id script gated kind (s.advance pausesEnd n) := by
  induction n generalizing s with
  | zero => exact h
  | succ n ih =>
    unfold Session.advance
    cases hnext : s.next? pausesEnd with
    | none => exact h
    | some a =>
      obtain ⟨hscripted, hcancel, hdrop⟩ := scripted_of_next? hnext
      exact ih (h.act hscripted (hkind a hcancel hdrop))

/-- the handle asks for the outcome, and joins the poller if there is one -/
theorem join (h : Reached id script gated kind s) {call : Action} (hcall : call.IsCall) :
    Reached id script gated kind ((s.act call).act .join) := by
  have hcalled : Reached id script gated kind (s.act call) := by
    cases hcall with
    | wait => exact h.call .wait nofun (hkind .wait nofun nofun)
    | tryWait => exact h.call .tryWait nofun (hkind .tryWait nofun nofun)
  exact hcalled.call .join nofun (hkind .join nofun nofun)

theorem serve (h : Reached id script gated kind s) {request : Request} (hcancel : request = .cancel → kind .cancel)
    (hdrop : request = .drop → kind .drop) : Reached id script gated kind (s.serve request) := by
  cases request with
  | wait => exact (h.advance hkind true _).join hkind .wait
  | tryWait => exact (h.advance hkind false _).join hkind .tryWait
  | tryUntil => exact ((h.advance hkind true _).advance hkind false _).join hkind .tryWait
  | cancel => exact (h.advance hkind false _).call .cancel nofun (hcancel rfl)
  | drop => exact ((h.advance hkind false _).call .drop nofun (hdrop rfl)).advance hkind true _
  | allow => exact (h.permit (· + 1)).advance hkind false _
  | polls => exact h.advance hkind false _

theorem serves (h : Reached id script gated kind s) {requests : List Request}
    (hcancel : .cancel ∈ requests → kind .cancel) (hdrop : .drop ∈ requests → kind .drop) :
    Reached id script gated kind (s.serves requests) := by
  induction requests generalizing s with
  | nil => exact h
  | cons request requests ih =>
    refine ih (h.serve hkind ?_ ?_) (fun hmem => hcancel (List.mem_cons_of_mem _ hmem))
      (fun hmem => hdrop (List.mem_cons_of_mem _ hmem))
    · rintro rfl
      exact hcancel List.mem_cons_self
    · rintro rfl
      exact hdrop List.mem_cons_self

end Reached

/-- **A session is a run.** Whatever is asked of it, its machine is one that the submitted task reaches by some list of
actions, in which the handle cancels or drops only if it was asked to; and its checks have come back with what the
script has for them, in order. -/
theorem served_is_run (id : Id) (script : List CheckResult) (gated : Bool) (requests : List Request) :
    ∃ actions, Played id script gated actions ((submit id script gated).serves requests) ∧
      (.cancel ∈ actions → .cancel ∈ requests) ∧ (.drop ∈ actions → .drop ∈ requests) := by
  have hsubmitted : Reached id script gated
      (fun a => (a = .cancel → .cancel ∈ requests) ∧ (a = .drop → .drop ∈ requests)) (submit id script gated) :=
    ⟨[], played_submit id script gated, nofun⟩
  have hserved : Reached id script gated (fun a => (a = .cancel → .cancel ∈ requests) ∧ (a = .drop → .drop ∈ requests))
      ((submit id script gated).serves requests) :=
    hsubmitted.serves (fun a hcancel hdrop => ⟨fun h => absurd h hcancel, fun h => absurd h hdrop⟩)
      (fun h => ⟨fun _ => h, nofun⟩) (fun h => ⟨nofun, fun _ => h⟩)
  obtain ⟨actions, hplayed, hkinds⟩ := hserved
  exact ⟨actions, hplayed, fun h => (hkinds _ h).1 rfl, fun h => (hkinds _ h).2 rfl⟩

/-! ## Moves that suffice -/

/-- the moves that the poller makes at most before it ends: three for each result, and the end -/
def movesLeft (s : Session) : ℕ :=
  match s.machine.phase with
  | .ready => 3 * s.script.length + 4
  | .checking => 3 * s.script.length + 3
  | .pausing => 3 * s.script.length + 5
  | .reporting _ => 2
  | .sent => 1
  | .ended => 0

theorem movesLeft_le_moves (s : Session) : s.movesLeft ≤ s.moves := by
  unfold movesLeft moves
  cases s.machine.phase <;> simp only <;> omega

/-- a poller that no gate holds has ended or makes a move, after which fewer are left -/
theorem movesLeft_act (hfree : s.permits = none) :
    (s.next? true = none ∧ s.machine.phase = .ended) ∨
      ∃ a, s.next? true = some a ∧ (s.act a).movesLeft < s.movesLeft := by
  obtain ⟨m, script, permits⟩ := s
  obtain rfl : permits = none := hfree
  cases hphase : m.phase with
  | ready =>
    refine .inr ⟨.start, by simp [next?, hphase], ?_⟩
    simp [movesLeft, act, Machine.step, hphase]
  | checking =>
    refine .inr ⟨_, by simp [next?, hphase]; rfl, ?_⟩
    cases script with
    | nil => simp [movesLeft, act, Machine.step, hphase, exhausted, Machine.Phase.afterCheck]
    | cons r script =>
      rcases Machine.afterCheck_cases m.id r with ⟨-, hnext⟩ | ⟨-, hnext⟩ | ⟨-, -, hnext⟩
      · simp [movesLeft, act, Machine.step, hphase, hnext]
        omega
      · simp [movesLeft, act, Machine.step, hphase, hnext]
      · simp [movesLeft, act, Machine.step, hphase, hnext]
  | pausing =>
    cases hasked : m.stopAsked with
    | true =>
      refine .inr ⟨.heed, by simp [next?, hphase, hasked], ?_⟩
      simp [movesLeft, act, Machine.step, hphase, hasked]
    | false =>
      refine .inr ⟨.timeout, by simp [next?, hphase, hasked], ?_⟩
      simp [movesLeft, act, Machine.step, hphase, hasked]
  | reporting outcome =>
    refine .inr ⟨.report, by simp [next?, hphase], ?_⟩
    by_cases hdropped : m.handle = .dropped <;> simp [movesLeft, act, Machine.step, hphase, hdropped]
  | sent =>
    refine .inr ⟨.exit, by simp [next?, hphase], ?_⟩
    simp [movesLeft, act, Machine.step, hphase]
  | ended => exact .inl ⟨by simp [next?, hphase], rfl⟩

theorem ended_of_advance (hfree : s.permits = none) {n : ℕ} (hn : s.movesLeft ≤ n) :
    (s.advance true n).machine.phase = .ended := by
  induction n generalizing s with
  | zero =>
    rcases movesLeft_act hfree with ⟨-, hended⟩ | ⟨a, -, hless⟩
    · exact hended
    · omega
  | succ n ih =>
    unfold advance
    rcases movesLeft_act hfree with ⟨hnext, hended⟩ | ⟨a, hnext, hless⟩
    · rw [hnext]
      exact hended
    · rw [hnext]
      exact ih (act_free hfree a) (by omega)

theorem ended_of_finish (hfree : s.permits = none) : s.finish.machine.phase = .ended :=
  ended_of_advance hfree s.movesLeft_le_moves

/-! ## Answers -/

/-- the script, or what stands for the rest of it, has news somewhere -/
theorem exists_first_news (script : List CheckResult) :
    ∃ k, (∀ n < k, result script n = .running) ∧ result script k ≠ .running := by
  have hnews : ∃ k, result script k ≠ .running := by
    refine ⟨script.length, ?_⟩
    simp [result, exhausted]
  classical
  exact ⟨Nat.find hnews, fun n hn => not_not.1 (Nat.find_min hnews hn), Nat.find_spec hnews⟩

/-- a wait is answered with the verdict on the last check, once the poller has been let move to its end -/
theorem Reached.wait_answers (h : Reached id script false (fun a => a ≠ .cancel ∧ a ≠ .drop) s) {k : ℕ}
    (hrunning : ∀ n < k, result script n = .running) (hlast : result script k ≠ .running) :
    s.wait.2 = some (verdict id (result script k)) := by
  obtain ⟨actions, hplayed, hkinds⟩ := h.advance (fun _ => And.intro) true s.moves
  have hcancel : .cancel ∉ actions := fun hmem => (hkinds _ hmem).1 rfl
  have hdrop : .drop ∉ actions := fun hmem => (hkinds _ hmem).2 rfl
  have hmachine : s.finish.machine = (Machine.submit id).run actions := hplayed.machine
  have hended : ((Machine.submit id).run actions).phase = .ended := by
    obtain ⟨_, hserved, -⟩ := h
    rw [← hmachine]
    exact ended_of_finish (hserved.free rfl)
  have hfollows : Follows (result script) ((Machine.submit id).run actions).results := hmachine ▸ hplayed.follows
  have hsound := Machine.sound_reached id actions
  obtain ⟨last, hconcluded, hdelivery⟩ := hsound.ended hended
  obtain ⟨rfl, -, -⟩ := hconcluded.eq_script hrunning hlast (Machine.cancelOpen_run rfl hcancel hdrop) hfollows
  have hanswer := Machine.answers_of_wait hsound hended (Machine.handle_ne_dropped HandlePhase.noConfusion hdrop)
  rw [hdelivery, Machine.id_run] at hanswer
  show ((s.finish.act .wait).act .join).lastAnswer = _
  rw [lastAnswer, act_machine, act_machine, hmachine, hanswer]
  rfl

/-- **A wait is answered with the verdict on the first news.** Where no check is held at a gate and nobody cancels or
drops the handle, a wait at the end of any requests has an answer, and it is the verdict on the first result of the
script that does not say that the task runs. -/
theorem wait_answers_first_news (id : Id) (script : List CheckResult) {requests : List Request}
    (hcancel : .cancel ∉ requests) (hdrop : .drop ∉ requests) :
    ∃ k, (∀ n < k, result script n = .running) ∧ result script k ≠ .running ∧
      ((submit id script false).serves requests).wait.2 = some (verdict id (result script k)) := by
  obtain ⟨k, hrunning, hlast⟩ := exists_first_news script
  have hsubmitted : Reached id script false (fun a => a ≠ .cancel ∧ a ≠ .drop) (submit id script false) :=
    ⟨[], played_submit id script false, nofun⟩
  have hserved : Reached id script false (fun a => a ≠ .cancel ∧ a ≠ .drop)
      ((submit id script false).serves requests) :=
    hsubmitted.serves (fun _ => And.intro) (fun h => absurd h hcancel) (fun h => absurd h hdrop)
  exact ⟨k, hrunning, hlast, hserved.wait_answers hrunning hlast⟩

-- a look between the checks finds nothing, and the script is at its end when the wait asks for more
example : ((submit Machine.guestStart [.running, .running] false).serves [.tryWait]).machine.answers = [none] ∧
    ((submit Machine.guestStart [.running, .running] false).serves [.tryWait]).wait.2 =
      some (.failed (.transport ⟨"script exhausted", none⟩)) := by decide

end Session

end Hypervisor.Task
