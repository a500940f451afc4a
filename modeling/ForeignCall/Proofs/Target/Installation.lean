import ForeignCall.Target.Installed

/-!
# Installation

The target of a process is installed at most once and never changes. Calls that set up, install or
ask for the target may follow each other in any order, with any outcome of a self-test. The first
of them that succeeds in setting up or installing decides the target; until then a failed setup
leaves nothing behind, from then on every answer is about that target and no test is run.
-/

namespace ForeignCall

/-- The integers as wide as a pointer, signed and unsigned. -/
def WordSize.pointers (w : WordSize) : Scalar × Scalar := (w.signedPointer, w.unsignedPointer)

namespace Installed

/-! ### Calls and answers -/

/-- A call about the target of the process. A setup comes with what the process is detected to be and
with the outcome its self-test has if it is run. -/
inductive Call where
  | setup (detected : Target) (selfTest : Except Failure Unit)
  | install (t : Target)
  | target
  | pointers

/-- The answer to a call. That of a setup says whether the self-test was run. -/
inductive Answer where
  | setup (tested : Bool) (result : Except Failure Target)
  | install (result : Except TargetError Target)
  | target (result : Except TargetError Target)
  | pointers (result : Except TargetError (Scalar × Scalar))

/-- A self-test that leaves a note when it is run. -/
def noted (selfTest : Except Failure Unit) : StateM Bool (Except Failure Unit) := do
  set true
  return selfTest

/-- The answer to a call and what is installed after it. -/
def perform (s : Installed) : Call → Answer × Installed
  | .setup detected selfTest =>
    let ((result, s'), tested) := (s.setupM detected (noted selfTest)).run false
    (.setup tested result, s')
  | .install t =>
    let (result, s') := s.install t
    (.install result, s')
  | .target => (.target s.target, s)
  | .pointers => (.pointers (s.wordSize.map WordSize.pointers), s)

/-- What is installed after calls made one after the other. -/
def after (s : Installed) (calls : List Call) : Installed :=
  calls.foldl (fun s call ↦ (s.perform call).2) s

/-- The answers to calls made one after the other. -/
def answers (s : Installed) : List Call → List Answer
  | [] => []
  | call :: calls => (s.perform call).1 :: (s.perform call).2.answers calls

/-- The target that a successful setup or installation gives. -/
def Answer.installed? : Answer → Option Target
  | .setup _ (.ok t) => some t
  | .install (.ok t) => some t
  | _ => Option.none

/-- The target that the first successful setup or installation gives. -/
def first? (answers : List Answer) : Option Target := answers.findSome? Answer.installed?

/-- The answer to a call by the target installed so far. Without one, a setup runs its self-test
and succeeds as it does, and an installation succeeds. With one, a setup gives that target and runs
no test, and an installation fails. -/
def answerBy : Option Target → Call → Answer
  | .none, .setup detected selfTest => .setup true (selfTest.map fun _ ↦ detected)
  | .none, .install t => .install (.ok t)
  | .none, .target => .target (.error .notSetUp)
  | .none, .pointers => .pointers (.error .notSetUp)
  | some t, .setup _ _ => .setup false (.ok t)
  | some _, .install _ => .install (.error .alreadySetUp)
  | some t, .target => .target (.ok t)
  | some t, .pointers => .pointers (.ok t.wordSize.pointers)

variable {s : Installed} {t : Target}

/-! ### One call -/

/-- With a target installed, setting up runs no test, whatever kind of action the test is. -/
theorem setupM_of_some {m : Type → Type} [Monad m] (detected : Target)
    (selfTest : m (Except Failure Unit)) (h : s.target? = some t) :
    s.setupM detected selfTest = pure (.ok t, s) := by
  simp only [setupM, h]

/-- A setup runs its self-test exactly if no target is installed. Its result is that of setting up
with the outcome of the test. -/
theorem run_setupM_noted (s : Installed) (detected : Target) (selfTest : Except Failure Unit) :
    (s.setupM detected (noted selfTest)).run false =
      (s.setup detected selfTest, s.target?.isNone) := by
  obtain ⟨_ | t⟩ := s
  · cases selfTest <;> rfl
  · rw [setup, setupM_of_some _ _ rfl, setupM_of_some _ _ rfl]
    rfl

/-- All a call can do: it is answered by the target there is, and without one it installs the target
that its answer gives. -/
theorem perform_eq (s : Installed) (call : Call) :
    s.perform call =
      (answerBy s.target? call, ⟨s.target?.or (answerBy s.target? call).installed?⟩) := by
  obtain ⟨_ | t⟩ := s
  · cases call with
    | setup detected selfTest =>
      rw [perform, run_setupM_noted]
      cases selfTest <;> rfl
    | install t => rfl
    | target => rfl
    | pointers => rfl
  · cases call with
    | setup detected selfTest =>
      rw [perform, run_setupM_noted, setup, setupM_of_some _ _ rfl]
      rfl
    | install t => rfl
    | target => rfl
    | pointers => rfl

/-- Installing never ends without a target. -/
theorem perform_fst_ne_install_notSetUp (s : Installed) (call : Call) :
    (s.perform call).1 ≠ .install (.error .notSetUp) := by
  rw [perform_eq]
  cases s.target? <;> cases call <;> nofun

/-! ### Many calls -/

/-- No answers install nothing. -/
@[simp] theorem first?_nil : first? [] = Option.none := rfl

/-- What is installed first comes of the first answer or of those behind it. -/
@[simp] theorem first?_cons (a : Answer) (as : List Answer) :
    first? (a :: as) = a.installed?.or (first? as) := by
  rw [first?, first?, List.findSome?_cons]
  cases a.installed? <;> rfl

/-- Calls are made one after the other. -/
@[simp] theorem after_cons (s : Installed) (call : Call) (calls : List Call) :
    s.after (call :: calls) = (s.perform call).2.after calls := rfl

/-- More calls go on with what there is after the others. -/
theorem after_append (s : Installed) (calls more : List Call) :
    s.after (calls ++ more) = (s.after calls).after more := List.foldl_append

/-- Every call is answered. -/
@[simp] theorem length_answers (s : Installed) (calls : List Call) :
    (s.answers calls).length = calls.length := by
  induction calls generalizing s with
  | nil => rfl
  | cons call calls ih => rw [answers, List.length_cons, List.length_cons, ih]

/-- An installed target stays over many calls; without one, the first success installs its own. -/
theorem after_eq (s : Installed) (calls : List Call) :
    s.after calls = ⟨s.target?.or (first? (s.answers calls))⟩ := by
  induction calls generalizing s with
  | nil => simp [after, answers]
  | cons call calls ih => rw [after_cons, ih, answers, first?_cons, perform_eq, Option.or_assoc]

/-- No installation among many calls ends without a target. -/
theorem install_notSetUp_notMem_answers (s : Installed) (calls : List Call) :
    .install (.error .notSetUp) ∉ s.answers calls := by
  induction calls generalizing s with
  | nil => simp [answers]
  | cons call calls ih =>
    rw [answers, List.mem_cons, not_or]
    exact ⟨(perform_fst_ne_install_notSetUp s call).symm, ih _⟩

/-- Each call is answered by the target there was, or else by that of the first success before. -/
theorem getElem?_answers (s : Installed) (calls : List Call) (i : Nat) (hi : i < calls.length) :
    (s.answers calls)[i]? =
      some (answerBy (s.target?.or (first? ((s.answers calls).take i))) calls[i]) := by
  -- What the first call installs joins the answers before the others, so the state varies.
  induction calls generalizing s i with
  | nil => cases hi
  | cons call calls ih =>
    cases i with
    | zero => simp [answers, perform_eq]
    | succ i =>
      rw [answers, List.getElem?_cons_succ, List.getElem_cons_succ, List.take_succ_cons,
        first?_cons, ih, perform_eq, Option.or_assoc]

/-- The first success decides the target of a process, and no call changes it. Every call is
answered, each by the target that the first success among the answers before it gives, which is
also what is installed. A failed setup leaves nothing installed if nothing was, so that it can be
made up for; once there is a target it stays, whatever calls follow. No installation is answered by
saying that there is no target. -/
theorem first_success_decides (calls : List Call) :
    (none.answers calls).length = calls.length ∧
    (∀ i (hi : i < calls.length), (none.answers calls)[i]? =
      some (answerBy (first? ((none.answers calls).take i)) calls[i])) ∧
    (none.after calls).target? = first? (none.answers calls) ∧
    (∀ detected e, first? (none.answers calls) = .none →
      none.after (calls ++ [.setup detected (.error e)]) = none) ∧
    (∀ t more, first? (none.answers calls) = some t →
      none.after (calls ++ more) = ⟨some t⟩) ∧
    .install (.error .notSetUp) ∉ none.answers calls := by
  have hafter := after_eq none calls
  refine ⟨length_answers none calls, getElem?_answers none calls, by rw [hafter]; rfl, ?_, ?_,
    install_notSetUp_notMem_answers none calls⟩
  · intro detected e hfirst
    rw [after_append, hafter, hfirst, after_cons, perform_eq]
    rfl
  · intro t more hfirst
    rw [after_append, hafter, hfirst, after_eq]
    rfl

/-- Calls of which the third installs a target, after a setup whose self-test fails. Another such
setup and another installation follow. -/
def failedSetupFirst : List Call :=
  [.pointers, .setup .linux (.error (.selfTest ⟨0, ""⟩)),
    .install ⟨"x86-linux-gnu", .w32, .little⟩, .setup .linux (.error (.selfTest ⟨0, ""⟩)),
    .install .linux, .pointers]

/-- The later setup runs no test and gives the target installed, as do all calls that follow. -/
theorem failedSetupFirst_decided :
    (none.answers failedSetupFirst)[1]? =
      some (.setup true (.error (.selfTest ⟨0, ""⟩))) ∧
    (none.answers failedSetupFirst)[3]? =
      some (.setup false (.ok ⟨"x86-linux-gnu", .w32, .little⟩)) ∧
    (none.answers failedSetupFirst)[4]? = some (.install (.error .alreadySetUp)) ∧
    (none.answers failedSetupFirst)[5]? = some (.pointers (.ok (.i32, .u32))) ∧
    none.after [.setup .linux (.error (.selfTest ⟨0, ""⟩))] = none ∧
    none.after (failedSetupFirst ++ [.setup .linux (.ok ())]) =
      ⟨some ⟨"x86-linux-gnu", .w32, .little⟩⟩ := by
  obtain ⟨-, hanswer, -, -, hstays, -⟩ := first_success_decides failedSetupFirst
  obtain ⟨-, -, -, hunset, -⟩ := first_success_decides []
  exact ⟨hanswer 1 (by decide), hanswer 3 (by decide), hanswer 4 (by decide),
    hanswer 5 (by decide), hunset _ _ rfl, hstays _ _ rfl⟩

end Installed

end ForeignCall
