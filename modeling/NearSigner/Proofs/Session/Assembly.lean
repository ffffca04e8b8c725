import Mathlib.Data.List.Induction
import NearSigner.Session.Reassembly

/-!
# Messages and their fragments

However fragments are pushed and the buffer is reset, the buffer follows a machine
of three states: nothing has arrived, part of a message has, or all of it.  What
it holds, and every message that it hands over, is the data of the fragments of
one message in their order; nothing of another message is ever part of it, and
nothing of a fragment that was refused.
-/

namespace NearSigner.Reassembly

/-- What is asked of the buffer. -/
inductive Operation
  | push (first last : Bool) (data : Bytes)
  | reset
deriving DecidableEq, Repr

/-- The result of a push, if the operation is one. -/
abbrev Outcome := Option (Except Refusal (Option Bytes))

/-- The outcome of an operation and the buffer afterwards. -/
def perform (reassembly : Reassembly) : Operation → Outcome × Reassembly
  | .push first last data =>
      let (result, next) := reassembly.push first last data
      (some result, next)
  | .reset => (none, empty)

/-- The buffer after every operation of a list. -/
def run (reassembly : Reassembly) (operations : List Operation) : Reassembly :=
  operations.foldl (fun reassembly operation => (reassembly.perform operation).2) reassembly

/-- The outcomes of the operations of a list. -/
def outcomes (reassembly : Reassembly) : List Operation → List Outcome
  | [] => []
  | operation :: later =>
      (reassembly.perform operation).1 :: (reassembly.perform operation).2.outcomes later

@[simp]
theorem run_nil (reassembly : Reassembly) : reassembly.run [] = reassembly :=
  rfl

@[simp]
theorem run_cons (reassembly : Reassembly) (operation : Operation) (later : List Operation) :
    reassembly.run (operation :: later) = (reassembly.perform operation).2.run later :=
  rfl

@[simp]
theorem run_append (reassembly : Reassembly) (earlier later : List Operation) :
    reassembly.run (earlier ++ later) = (reassembly.run earlier).run later := by
  rw [run, List.foldl_append]
  rfl

theorem outcomes_append (reassembly : Reassembly) (earlier later : List Operation) :
    reassembly.outcomes (earlier ++ later) =
      reassembly.outcomes earlier ++ (reassembly.run earlier).outcomes later := by
  induction earlier generalizing reassembly with
  | nil => rfl
  | cons operation others ih => rw [List.cons_append, outcomes, ih, outcomes, run_cons]; rfl

/-! ## The course of a message -/

/-- How far a message has come. -/
inductive Course
  | empty
  | accumulating (data : Bytes)
  | complete (message : Bytes)
deriving DecidableEq, Repr

namespace Course

/-- The data behind which a push puts its own: a first push none, whenever no message
is under way, and another one that of the message under way. -/
inductive Admits : Course → Bool → Bytes → Prop
  | first {course : Course} (vacant : ∀ data, course ≠ accumulating data) : Admits course true []
  | next (data : Bytes) : Admits (accumulating data) false data

/-- What an operation makes of the course of a message. -/
inductive Step : Course → Operation → Outcome → Course → Prop
  | reset (course : Course) : Step course .reset none empty
  | interrupted (data : Bytes) (last : Bool) (fragment : Bytes) :
      Step (accumulating data) (.push true last fragment) (some (.error .outOfSequence)) empty
  | unstarted {course : Course} (vacant : ∀ data, course ≠ accumulating data) (last : Bool)
      (fragment : Bytes) :
      Step course (.push false last fragment) (some (.error .outOfSequence)) empty
  | oversized {course : Course} {first : Bool} {data fragment : Bytes}
      (admits : course.Admits first data) (long : 670 < (data ++ fragment).length) (last : Bool) :
      Step course (.push first last fragment) (some (.error .oversizedMessage)) empty
  | continued {course : Course} {first : Bool} {data fragment : Bytes}
      (admits : course.Admits first data) (fits : (data ++ fragment).length ≤ 670) :
      Step course (.push first false fragment) (some (.ok none)) (accumulating (data ++ fragment))
  | completed {course : Course} {first : Bool} {data fragment : Bytes}
      (admits : course.Admits first data) (fits : (data ++ fragment).length ≤ 670) :
      Step course (.push first true fragment) (some (.ok (some (data ++ fragment))))
        (complete (data ++ fragment))

/-- What a list of operations makes of the course of a message, with their outcomes. -/
inductive Runs : Course → List Operation → List Outcome → Course → Prop
  | nil (course : Course) : Runs course [] [] course
  | cons {course middle final : Course} {operation : Operation} {outcome : Outcome}
      {later : List Operation} {others : List Outcome}
      (step : Step course operation outcome middle) (runs : Runs middle later others final) :
      Runs course (operation :: later) (outcome :: others) final

/-- The buffer of a message that has come so far. -/
def buffered : Course → Reassembly
  | empty => .empty
  | accumulating data => { stage := .accumulating, buffer := data }
  | complete message => { stage := .complete, buffer := message }

theorem buffered_injective {first second : Course} (same : first.buffered = second.buffered) :
    first = second := by
  cases first <;> cases second <;> cases same <;> rfl

/-- An admitted push appends its data to what it is put behind. -/
theorem Admits.push_eq {course : Course} {first : Bool} {data : Bytes}
    (admits : course.Admits first data) (last : Bool) (fragment : Bytes) :
    course.buffered.push first last fragment =
      if 670 < (data ++ fragment).length then
        (.error .oversizedMessage, .empty)
      else if last then
        (.ok (some (data ++ fragment)), (complete (data ++ fragment)).buffered)
      else
        (.ok none, (accumulating (data ++ fragment)).buffered) := by
  cases admits with
  | next data => rfl
  | first vacant =>
      cases course with
      | accumulating data => exact absurd rfl (vacant data)
      | empty => rfl
      | complete message => rfl

/-- Every step is that of the buffer. -/
theorem Step.perform_eq {course next : Course} {operation : Operation} {outcome : Outcome}
    (step : Step course operation outcome next) :
    course.buffered.perform operation = (outcome, next.buffered) := by
  cases step with
  | reset => rfl
  | interrupted data last fragment => rfl
  | unstarted vacant last fragment =>
      cases course with
      | accumulating data => exact absurd rfl (vacant data)
      | empty => rfl
      | complete message => rfl
  | oversized admits long last =>
      rw [perform, admits.push_eq, if_pos long]
      rfl
  | continued admits fits =>
      rw [perform, admits.push_eq, if_neg (Nat.not_lt.mpr fits)]
      rfl
  | completed admits fits =>
      rw [perform, admits.push_eq, if_neg (Nat.not_lt.mpr fits)]
      rfl

/-- A message is handed over when it is complete. -/
theorem Step.eq_complete {course next : Course} {operation : Operation} {message : Bytes}
    (step : Step course operation (some (.ok (some message))) next) : next = complete message := by
  cases step with
  | completed admits fits => rfl

theorem Admits.exists_step {course : Course} {first : Bool} {data : Bytes}
    (admits : course.Admits first data) (last : Bool) (fragment : Bytes) :
    ∃ outcome next, Step course (.push first last fragment) outcome next := by
  by_cases long : 670 < (data ++ fragment).length
  · exact ⟨_, _, .oversized admits long last⟩
  · have fits : (data ++ fragment).length ≤ 670 := Nat.not_lt.mp long
    cases last with
    | false => exact ⟨_, _, .continued admits fits⟩
    | true => exact ⟨_, _, .completed admits fits⟩

/-- Some step is made by every operation. -/
theorem exists_step (course : Course) (operation : Operation) :
    ∃ outcome next, Step course operation outcome next := by
  cases operation with
  | reset => exact ⟨_, _, .reset course⟩
  | push first last fragment =>
      by_cases vacant : ∀ data, course ≠ accumulating data
      · cases first with
        | true => exact (Admits.first vacant).exists_step last fragment
        | false => exact ⟨_, _, .unstarted vacant last fragment⟩
      · simp only [ne_eq, not_forall, not_not] at vacant
        obtain ⟨data, rfl⟩ := vacant
        cases first with
        | true => exact ⟨_, _, .interrupted data last fragment⟩
        | false => exact (Admits.next data).exists_step last fragment

/-- A step of the machine is exactly a step of the buffer. -/
theorem step_iff {course next : Course} {operation : Operation} {outcome : Outcome} :
    Step course operation outcome next ↔
      course.buffered.perform operation = (outcome, next.buffered) := by
  constructor
  · exact Step.perform_eq
  · intro performed
    rcases exists_step course operation with ⟨other, middle, step⟩
    obtain ⟨rfl, same⟩ := Prod.mk.inj (step.perform_eq.symm.trans performed)
    obtain rfl := buffered_injective same
    exact step

/-- The buffer takes exactly the steps of the machine. -/
theorem runs_iff {course final : Course} {operations : List Operation} {results : List Outcome} :
    Runs course operations results final ↔
      results = course.buffered.outcomes operations ∧
        course.buffered.run operations = final.buffered := by
  constructor
  · intro runs
    induction runs with
    | nil course => exact ⟨rfl, rfl⟩
    | cons step runs ih =>
        have performed := step.perform_eq
        rcases ih with ⟨rfl, final_eq⟩
        rw [outcomes, run_cons, performed]
        exact ⟨rfl, final_eq⟩
  · rintro ⟨rfl, final_eq⟩
    induction operations generalizing course with
    | nil =>
        obtain rfl := buffered_injective final_eq
        exact .nil course
    | cons operation later ih =>
        rcases exists_step course operation with ⟨outcome, middle, step⟩
        rw [run_cons, step.perform_eq] at final_eq
        rw [outcomes, step.perform_eq]
        exact .cons step (ih final_eq)

/-- The data that has come, of a message under way or complete. -/
inductive Holds : Course → Bytes → Prop
  | accumulating (data : Bytes) : Holds (accumulating data) data
  | complete (message : Bytes) : Holds (complete message) message

end Course

/-! ## The fragments of one message -/

namespace Operation

/-- The data of a push. -/
def data : Operation → Bytes
  | push _ _ data => data
  | reset => []

/-- The operation is a push that does not start a message. -/
inductive Continues : Operation → Prop
  | push (last : Bool) (data : Bytes) : Continues (push false last data)

end Operation

/-- The last of the operations push one message, a first fragment and others behind
it.  All of these pushes succeed, and their data in order is `data`. -/
def Collects (operations : List Operation) (data : Bytes) : Prop :=
  ∃ before last fragment later,
    operations = before ++ .push true last fragment :: later ∧
    (∀ operation ∈ later, operation.Continues) ∧
    (∀ outcome ∈ (empty.run before).outcomes (.push true last fragment :: later),
      ∃ message?, outcome = some (.ok message?)) ∧
    data = fragment ++ later.flatMap Operation.data

variable {operations : List Operation}

theorem Collects.start {last : Bool} {fragment : Bytes} {message? : Option Bytes}
    {next : Reassembly}
    (succeeded : (empty.run operations).perform (.push true last fragment) =
      (some (.ok message?), next)) :
    Collects (operations ++ [.push true last fragment]) fragment := by
  refine ⟨operations, last, fragment, [], rfl, by simp, ?_, by simp⟩
  intro outcome member
  rw [outcomes, succeeded] at member
  exact ⟨message?, List.mem_singleton.mp member⟩

theorem Collects.extend {data : Bytes} (collects : Collects operations data) {last : Bool}
    {fragment : Bytes} {message? : Option Bytes} {next : Reassembly}
    (succeeded : (empty.run operations).perform (.push false last fragment) =
      (some (.ok message?), next)) :
    Collects (operations ++ [.push false last fragment]) (data ++ fragment) := by
  rcases collects with ⟨before, last₀, fragment₀, later, rfl, continues, succeed, rfl⟩
  refine ⟨before, last₀, fragment₀, later ++ [.push false last fragment], ?_, ?_, ?_, ?_⟩
  · rw [List.append_assoc, List.cons_append]
  · intro operation member
    rcases List.mem_append.mp member with earlier | latest
    · exact continues operation earlier
    · rw [List.mem_singleton.mp latest]
      exact .push last fragment
  · intro outcome member
    rw [← List.cons_append, outcomes_append] at member
    rcases List.mem_append.mp member with earlier | latest
    · exact succeed outcome earlier
    · rw [← run_append, outcomes, succeeded] at latest
      exact ⟨message?, List.mem_singleton.mp latest⟩
  · simp [Operation.data]

/-- What a step leaves under way or complete is the data of one message. -/
theorem Course.Step.collects {course next : Course} {operation : Operation} {outcome : Outcome}
    (step : Step course operation outcome next)
    (run_eq : Reassembly.empty.run operations = course.buffered)
    (held : ∀ data, course.Holds data → Collects operations data) {data : Bytes}
    (holds : next.Holds data) : data.length ≤ 670 ∧ Collects (operations ++ [operation]) data := by
  have performed := step.perform_eq
  rw [← run_eq] at performed
  have taken {first last : Bool} {earlier fragment : Bytes} {message? : Option Bytes}
      (admits : course.Admits first earlier) (asked : operation = .push first last fragment)
      (succeeded : outcome = some (.ok message?)) :
      Collects (operations ++ [operation]) (earlier ++ fragment) := by
    subst asked succeeded
    cases admits with
    | first vacant => exact Collects.start performed
    | next earlier => exact (held earlier (.accumulating earlier)).extend performed
  cases step with
  | reset => cases holds
  | interrupted data last fragment => cases holds
  | unstarted vacant last fragment => cases holds
  | oversized admits long last => cases holds
  | continued admits fits =>
      cases holds
      exact ⟨fits, taken admits rfl rfl⟩
  | completed admits fits =>
      cases holds
      exact ⟨fits, taken admits rfl rfl⟩

/-- After every list of operations the buffer is that of some course, whose data is
that of one message. -/
theorem exists_course (operations : List Operation) :
    ∃ course : Course, empty.run operations = course.buffered ∧
      ∀ data, course.Holds data → data.length ≤ 670 ∧ Collects operations data := by
  induction operations using List.reverseRecOn with
  | nil => exact ⟨.empty, rfl, fun data holds => by cases holds⟩
  | append_singleton earlier operation ih =>
      rcases ih with ⟨course, run_eq, held⟩
      rcases course.exists_step operation with ⟨outcome, next, step⟩
      refine ⟨next, ?_, fun data holds => ?_⟩
      · rw [run_append, run_eq, run_cons, run_nil, step.perform_eq]
      · exact step.collects run_eq (fun data holds => (held data holds).2) holds

/-- From the start on, the buffer behaves as the machine of three states: it has the
outcomes of the machine and holds what the machine holds, whatever is pushed and
however often it is reset.  It never holds more than 670 octets, and nothing when it
is empty.  What it has collected, a message that it holds and a message that it hands
over are the data of the pushes from the last successful first one on, all of which
succeeded. -/
theorem buffer_follows_its_course (operations : List Operation) :
    let buffer := empty.run operations
    (∃ course, Course.Runs .empty operations (empty.outcomes operations) course ∧
      buffer = course.buffered) ∧
    (∀ results course, Course.Runs .empty operations results course →
      results = empty.outcomes operations ∧ buffer = course.buffered) ∧
    buffer.buffer.length ≤ 670 ∧
    (buffer.stage = .empty → buffer.buffer = []) ∧
    (buffer.isAccumulating = true → Collects operations buffer.buffer) ∧
    (∀ message, buffer.message? = some message → Collects operations message) ∧
    (∀ first last fragment message,
      (buffer.push first last fragment).1 = .ok (some message) →
        (buffer.push first last fragment).2.message? = some message ∧
          Collects (operations ++ [.push first last fragment]) message) := by
  intro buffer
  rcases exists_course operations with ⟨course, run_eq, held⟩
  have buffer_eq : buffer = course.buffered := run_eq
  constructor
  · exact ⟨course, Course.runs_iff.mpr ⟨rfl, run_eq⟩, run_eq⟩
  constructor
  · intro results other runs
    exact Course.runs_iff.mp runs
  constructor
  · rw [buffer_eq]
    cases course with
    | empty => exact Nat.zero_le _
    | accumulating data => exact (held data (.accumulating data)).1
    | complete message => exact (held message (.complete message)).1
  constructor
  · intro none
    rw [buffer_eq] at none ⊢
    cases course with
    | empty => rfl
    | _ => cases none
  constructor
  · intro under
    rw [buffer_eq] at under ⊢
    cases course with
    | accumulating data => exact (held data (.accumulating data)).2
    | _ => cases under
  constructor
  · intro message present
    rw [buffer_eq] at present
    cases course with
    | complete whole =>
        cases present
        exact (held whole (.complete whole)).2
    | _ => cases present
  · intro first last fragment message pushed
    rcases course.exists_step (.push first last fragment) with ⟨outcome, next, step⟩
    have performed : (some (buffer.push first last fragment).1,
        (buffer.push first last fragment).2) = (outcome, next.buffered) := by
      rw [buffer_eq]
      exact step.perform_eq
    rw [pushed] at performed
    obtain ⟨rfl, next_eq⟩ := Prod.mk.inj performed
    obtain rfl := step.eq_complete
    rw [next_eq]
    exact ⟨rfl, (step.collects run_eq (fun data holds => (held data holds).2)
      (.complete message)).2⟩

end NearSigner.Reassembly
