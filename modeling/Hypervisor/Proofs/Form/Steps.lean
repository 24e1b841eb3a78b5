/-
Forms built step by step.

A step decides before it touches the form, and the form has no say in it: what the step adds, and whether it fails, is
the same on every form (`take_cases`). So a run is what its steps make of an empty form, one after the other, and a step
that fails could as well not have been taken.

The form of a list of attributes, which is given up at the first fault, is such a run (`ofAttributes_eq_run`).
-/
import Hypervisor.Proofs.Form.Apply
import Hypervisor.Proofs.Property.Wordless

namespace Hypervisor.Form

open Fallible

variable {mode : Mode}

/-! ## Steps -/

/-- how much a form holds -/
def size (f : Form) : Nat := f.pairs.length + f.delete.length

theorem size_append (f g : Form) : (f ++ g).size = f.size + g.size := by
  unfold size
  rw [append_pairs, append_delete, List.length_append, List.length_append]
  omega

theorem send_eq (f : Form) (key value : String) : f.send key value = f ++ ⟨[(key, value)], []⟩ := by
  show (⟨f.pairs ++ [(key, value)], f.delete⟩ : Form) = ⟨f.pairs ++ [(key, value)], f.delete ++ []⟩
  rw [List.append_nil]

theorem clear_eq (f : Form) (name : String) : f.clear name = f ++ ⟨[], [name]⟩ := by
  show (⟨f.pairs, f.delete ++ [name]⟩ : Form) = ⟨f.pairs ++ [], f.delete ++ [name]⟩
  rw [List.append_nil]

theorem take_outcome {a : Attribute} {o : Property.Outcome} (h : a.outcome = .ok o) (f : Form) :
    take mode f (.attribute a) = (f ++ contribution mode a.name o, .ok ()) := by
  show takeAttribute mode f a = _
  unfold takeAttribute
  rw [h]
  rcases o with text | _ | _
  · exact congrArg (·, _) (send_eq f a.name text)
  · cases mode with
    | create => exact congrArg (·, _) (append_empty f).symm
    | update => exact congrArg (·, _) (clear_eq f a.name)
  · exact congrArg (·, _) (append_empty f).symm

theorem take_fault {a : Attribute} {source : TokenFault} (h : a.outcome = .error source) (f : Form) :
    take mode f (.attribute a) = (f, .error ⟨a.name, source⟩) := by
  show takeAttribute mode f a = _
  unfold takeAttribute
  rw [h]

/-- a step appends the same to every form, at most one thing and in a create no name to delete, or it fails on every
form and leaves it as it was -/
theorem take_cases (mode : Mode) (s : Step) :
    (∃ g : Form, g.size ≤ 1 ∧ (mode = .create → g.delete = []) ∧ ∀ f, take mode f s = (f ++ g, .ok ())) ∨
      ∃ fault, ∀ f, take mode f s = (f, .error fault) := by
  rcases s with ⟨key, value⟩ | a
  · exact .inl ⟨⟨[(key, value)], []⟩, le_rfl, fun _ => rfl, fun f => congrArg (·, _) (send_eq f key value)⟩
  · cases ho : a.outcome with
    | error source => exact .inr ⟨_, take_fault ho⟩
    | ok o =>
      refine .inl ⟨contribution mode a.name o, ?_, ?_, take_outcome ho⟩
      · rcases o with text | _ | _ <;> cases mode <;> simp [contribution, size, empty]
      · rintro rfl
        cases o <;> rfl

/-- a step appends what it makes of an empty form, and ends as it does there -/
theorem take_eq (f : Form) (s : Step) : take mode f s = (f ++ step mode empty s, (take mode empty s).2) := by
  unfold step
  rcases take_cases mode s with ⟨g, -, -, h⟩ | ⟨fault, h⟩
  · rw [h, h]
    rfl
  · rw [h, h, append_empty]

theorem step_eq (f : Form) (s : Step) : step mode f s = f ++ step mode empty s := congrArg Prod.fst (take_eq f s)

/-- the step cannot be taken -/
def Step.Fails (mode : Mode) (s : Step) : Prop := ∃ fault, (take mode empty s).2 = .error fault

theorem step_of_fails {s : Step} (hs : s.Fails mode) (f : Form) : step mode f s = f := by
  obtain ⟨fault, hfault⟩ := hs
  unfold step
  rcases take_cases mode s with ⟨g, -, -, h⟩ | ⟨_, h⟩
  · rw [h] at hfault
    cases hfault
  · rw [h]

theorem size_step_le (f : Form) (s : Step) : (step mode f s).size ≤ f.size + 1 := by
  unfold step
  rcases take_cases mode s with ⟨g, hg, -, h⟩ | ⟨fault, h⟩
  · rw [h, size_append]
    exact Nat.add_le_add_left hg f.size
  · rw [h]
    exact Nat.le_succ f.size

theorem delete_step_create (f : Form) (s : Step) : (step .create f s).delete = f.delete := by
  unfold step
  rcases take_cases .create s with ⟨g, -, hg, h⟩ | ⟨fault, h⟩
  · rw [h, append_delete, hg rfl, List.append_nil]
  · rw [h]

/-! ## Runs -/

/-- how the steps of a run end, in order -/
def ends (mode : Mode) : Form → List Step → List (Except EncodeFault Unit)
  | _, [] => []
  | f, s :: rest => (take mode f s).2 :: ends mode (step mode f s) rest

theorem foldl_step (f : Form) (steps : List Step) :
    steps.foldl (step mode) f =
      ⟨f.pairs ++ steps.flatMap fun s => (step mode empty s).pairs,
        f.delete ++ steps.flatMap fun s => (step mode empty s).delete⟩ := by
  induction steps generalizing f with
  | nil => exact (append_empty f).symm
  | cons s rest ih =>
    rw [List.foldl_cons, ih, step_eq, append_pairs, append_delete, List.flatMap_cons, List.flatMap_cons,
      List.append_assoc, List.append_assoc]

theorem run_eq (steps : List Step) :
    run mode steps =
      ⟨steps.flatMap fun s => (step mode empty s).pairs, steps.flatMap fun s => (step mode empty s).delete⟩ :=
  foldl_step empty steps

theorem ends_eq (f : Form) (steps : List Step) :
    ends mode f steps = steps.map fun s => (take mode empty s).2 := by
  induction steps generalizing f with
  | nil => rfl
  | cons s rest ih => rw [ends, ih, take_eq, List.map_cons]

theorem run_append (before after : List Step) :
    run mode (before ++ after) = after.foldl (step mode) (run mode before) := List.foldl_append

/-- a step that fails leaves no trace in the run -/
theorem run_of_fails {s : Step} (h : s.Fails mode) (before after : List Step) :
    run mode (before ++ s :: after) = run mode (before ++ after) := by
  rw [run_append, run_append, List.foldl_cons, step_of_fails h]

theorem delete_run_create (steps : List Step) : (run .create steps).delete = [] := by
  induction steps using List.reverseRecOn with
  | nil => rfl
  | append_singleton before s ih => rw [run_append, List.foldl_cons, List.foldl_nil, delete_step_create, ih]

/-! ## Forms of attributes -/

theorem fault?_take_attribute (a : Attribute) :
    fault? (take mode empty (.attribute a)).2 = (fault? a.outcome).map (EncodeFault.mk a.name) := by
  cases ho : a.outcome with
  | error source => rw [take_fault ho]; rfl
  | ok o => rw [take_outcome ho]; rfl

theorem run_of_ofAttributes {as : List Attribute} {f : Form} (h : ofAttributes mode as = .ok f) :
    run mode (as.map .attribute) = f := by
  rw [run_eq]
  induction as generalizing f with
  | nil => exact Except.ok.inj h
  | cons a rest ih =>
    obtain ⟨o, g, ho, hg, rfl⟩ := ofAttributes_cons_eq_ok.1 h
    have hstep : step mode empty (.attribute a) = contribution mode a.name o :=
      congrArg Prod.fst (take_outcome ho empty)
    rw [List.map_cons, List.flatMap_cons, List.flatMap_cons, hstep, ← ih hg]
    rfl

/-- the form of attributes is the run over them, given up at the first step that fails -/
theorem ofAttributes_eq_run (mode : Mode) (as : List Attribute) :
    ofAttributes mode as =
      match (ends mode empty (as.map .attribute)).findSome? fault? with
      | some fault => .error fault
      | none => .ok (run mode (as.map .attribute)) := by
  have hends : (ends mode empty (as.map .attribute)).findSome? fault? = fault? (ofAttributes mode as) := by
    rw [ends_eq, fault?_ofAttributes, List.map_map, List.findSome?_map]
    exact congrArg (as.findSome? ·) (funext fault?_take_attribute)
  rw [hends]
  cases h : ofAttributes mode as with
  | error fault => rfl
  | ok f => rw [run_of_ofAttributes h]; rfl

/-! ## What a run keeps to -/

/-- **A run is its steps, one after the other, each as on its own.** Whatever the steps, among them values of any type
under any description and values that cannot be written: a run sends and deletes what each step does on an empty form,
in order, and each step ends as it does there. A step that fails leaves the form as it was, and the run is the same
without it. No step adds more than one thing, and a create deletes nothing. -/
theorem run_adds_up (mode : Mode) (steps : List Step) :
    (run mode steps).pairs = steps.flatMap (fun s => (step mode empty s).pairs) ∧
      (run mode steps).delete = steps.flatMap (fun s => (step mode empty s).delete) ∧
      ends mode empty steps = steps.map (fun s => (take mode empty s).2) ∧
      (mode = .create → (run mode steps).delete = []) ∧
      ∀ before s after, steps = before ++ s :: after →
        (step mode (run mode before) s).size ≤ (run mode before).size + 1 ∧
          (s.Fails mode → step mode (run mode before) s = run mode before ∧
            run mode steps = run mode (before ++ after)) := by
  refine ⟨by rw [run_eq], by rw [run_eq], ends_eq empty steps, ?_, ?_⟩
  · rintro rfl
    exact delete_run_create steps
  · rintro before s after rfl
    exact ⟨size_step_le _ s, fun hs => ⟨step_of_fails hs _, run_of_fails hs before after⟩⟩

/-- an unset value that would read back as the default, between a pair and the default itself -/
theorem run_adds_up_unset :
    ∃ p : Property (Option String),
      p = { name := "options", presence := .default "vers=3", emission := .omitDefault } ∧
      (Step.attribute (p.attribute none)).Fails .update ∧
      run .update [.raw "pool" "tank", .attribute (p.attribute none), .attribute (p.attribute (some "vers=3"))] =
        run .update [.raw "pool" "tank", .attribute (p.attribute (some "vers=3"))] ∧
      run .update [.raw "pool" "tank", .attribute (p.attribute (some "vers=3"))] =
        ⟨[("pool", "tank")], ["options"]⟩ ∧
      (run .create [.raw "pool" "tank", .attribute (p.attribute (some "vers=3"))]).delete = [] := by
  refine ⟨_, rfl, ⟨_, rfl⟩, ?_, rfl, ?_⟩
  · obtain ⟨-, -, -, -, hsteps⟩ := run_adds_up .update _
    exact ((hsteps [.raw "pool" "tank"] _ [.attribute _] rfl).2 ⟨_, rfl⟩).2
  · obtain ⟨-, -, -, hcreate, -⟩ := run_adds_up .create _
    exact hcreate rfl

end Hypervisor.Form
