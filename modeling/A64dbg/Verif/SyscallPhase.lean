import A64dbg.KernelStops
import A64dbg.Watch

/-!
# The phase of the system call loop

`syscallContinue` tells the entry of a system call from its exit by a flag of its own. Over a
tracee that stops by signal 5 only at system calls, with the same number at entry and exit,
`calls_follow_syscalls` says which plugin hooks run and when. Over any other tracee
`phaseKept_iff_numbersAgree` says exactly when the flag keeps telling where the tracee is.
-/

namespace A64dbg.SyscallPhase

open Runs Parity

variable {overrun : Word → Option String}

/-- The stops of a tracee, inside a system call or not, that stops by signal 5 only at system
calls whose numbers are in the table and the same at entry and exit. -/
def SyscallRun : Option Word → List KernelStop → Prop
  | _, [] => True
  | inside, .entry process :: rest =>
    inside = none ∧ process.syscallNum < 292 ∧ SyscallRun (some process.syscallNum) rest
  | inside, .exit process :: rest =>
    inside = some process.syscallNum ∧ process.syscallNum < 292 ∧ SyscallRun none rest
  | _, .trap _ :: _ => False
  | inside, .other _ _ :: rest => SyscallRun inside rest

/-- The name of a number that is not passed over, by the table alone. -/
abbrev tableName (syscallNum : Word) : Option String := tracedName (fun _ => none) syscallNum

/-- The plugin calls due at a stop. -/
def callsAt : KernelStop → List PluginCall
  | .entry process => ((tableName process.syscallNum).map .before).toList
  | .exit process => ((tableName process.syscallNum).map .after).toList
  | .trap _ | .other _ _ => []

/-- Inside the table its name does not depend on what lies beyond. -/
theorem tracedName_inside {syscallNum : Word} (inside : syscallNum < 292) :
    tracedName overrun syscallNum = tableName syscallNum := by
  have bound : syscallNum.toNat < aarch64Syscalls.length := by
    rw [aarch64Syscalls_length]
    exact inside
  unfold tableName tracedName syscallName
  rw [List.getElem?_eq_getElem bound]

/-- Such stops come in an order the flag can follow. -/
theorem SyscallRun.follows {inside : Option Word} {stops : List KernelStop}
    (kernel : SyscallRun inside stops) (recorder : Recorder PluginCall) :
    Along (pluginScheme overrun).step
      (fun reached event => (pluginScheme overrun).Follows reached.inside event)
      ⟨recorder, inside⟩ (stops.map KernelStop.event) := by
  induction stops generalizing inside recorder with
  | nil => trivial
  | cons stop rest ih =>
    cases stop with
    | entry process =>
      obtain ⟨outside, -, later⟩ := kernel
      exact ⟨⟨outside, trivial⟩, ih later _⟩
    | exit process =>
      obtain ⟨opened, -, later⟩ := kernel
      refine ⟨⟨?_, ?_⟩, ih later _⟩
      · intro outside
        cases opened.symm.trans outside
      · intro key same
        cases opened.symm.trans same
        rfl
    | trap process => exact kernel.elim
    | other answer quiet => exact ⟨⟨trivial, trivial⟩, ih kernel _⟩

/-- The calls due at the first of such stops are the marks of its event. -/
theorem SyscallRun.marks_first {inside : Option Word} {stop : KernelStop} {rest : List KernelStop}
    (kernel : SyscallRun inside (stop :: rest)) :
    (pluginScheme overrun).marksOf stop.event = callsAt stop := by
  have named {process : Tracee} (inside : process.syscallNum < 292) (call : String → PluginCall) :
      (((pluginScheme overrun).name process.syscallNum).map call).toList =
        ((tableName process.syscallNum).map call).toList :=
    congrArg (fun name => (Option.map call name).toList) (tracedName_inside inside)
  cases stop with
  | entry process => exact named kernel.2.1 .before
  | exit process => exact named kernel.2.1 .after
  | trap process => exact kernel.elim
  | other answer quiet => rfl

/-- Behind the first of such stops come such stops. -/
theorem SyscallRun.later {inside : Option Word} {stop : KernelStop} {rest : List KernelStop}
    (kernel : SyscallRun inside (stop :: rest)) : ∃ next, SyscallRun next rest := by
  cases stop with
  | entry process => exact ⟨_, kernel.2.2⟩
  | exit process => exact ⟨_, kernel.2.2⟩
  | trap process => exact kernel.elim
  | other answer quiet => exact ⟨inside, kernel⟩

/-- The calls due at such stops are the marks of their events. -/
theorem SyscallRun.marks {inside : Option Word} {stops : List KernelStop}
    (kernel : SyscallRun inside stops) :
    (stops.map KernelStop.event).flatMap (pluginScheme overrun).marksOf =
      stops.flatMap callsAt := by
  induction stops generalizing inside with
  | nil => rfl
  | cons stop rest ih =>
    have first := @SyscallRun.marks_first overrun _ _ _ kernel
    obtain ⟨next, later⟩ := kernel.later
    rw [List.map_cons, List.flatMap_cons, List.flatMap_cons, first, ih later]

/-- Both parts of such a run are such runs. -/
theorem SyscallRun.parts {inside : Option Word} {first second : List KernelStop}
    (kernel : SyscallRun inside (first ++ second)) :
    SyscallRun inside first ∧
      SyscallRun (after Event.move inside (first.map KernelStop.event)) second := by
  induction first generalizing inside with
  | nil => exact ⟨trivial, kernel⟩
  | cons stop rest ih =>
    cases stop with
    | entry process =>
      obtain ⟨outside, bound, later⟩ := kernel
      exact ⟨⟨outside, bound, (ih later).1⟩, (ih later).2⟩
    | exit process =>
      obtain ⟨opened, bound, later⟩ := kernel
      exact ⟨⟨opened, bound, (ih later).1⟩, (ih later).2⟩
    | trap process => exact kernel.elim
    | other answer quiet =>
      have rest : SyscallRun inside _ := kernel
      exact ih rest

/-- A process stopped with this number in x8. -/
def calling (syscallNum : Word) : Tracee :=
  { Tracee.stoppedAt nops 0 with
    registers := (Tracee.stoppedAt nops 0).registers.setReg x8 syscallNum }

/-- The session of a debugger at its start. -/
def atStart : Session := (Watch.start nops).session

/-- A session with the number of the system call its tracee is in. -/
structure Followed where
  /-- The session. -/
  session : Session
  /-- The number seen at the entry of the present system call. -/
  inside : Option Word

/-- A stop delivered to `syscallContinue`: the first of a command, or a later one of its loop,
which begins as SYSCALL_CONTIN does. -/
abbrev Delivery := SyscallCommand × KernelStop

/-- A delivery is handled by one pass of the loop. -/
def Followed.step (overrun : Word → Option String) (followed : Followed) (delivery : Delivery) :
    Followed where
  session := ((delivery.1.begin followed.session).syscallPass overrun delivery.2.answer).1
  inside := delivery.2.event.move followed.inside

/-- The flag tells where the tracee is: down exactly inside a traced system call. -/
def Followed.InStep (overrun : Word → Option String) (followed : Followed) : Prop :=
  followed.session.debugger.syscallEnter =
    (followed.inside.bind (tracedName overrun)).isNone

/-- The kernel's order: system calls one at a time, and other traps between them only. -/
def Deliverable (followed : Followed) (delivery : Delivery) : Prop :=
  Legal followed.inside delivery.2.event

/-- A trap that is not at a system call changes neither the flag nor the calls, and a traced
system call is entered with the flag up and left with the flag down. -/
def PhaseKept (overrun : Word → Option String) (followed : Followed) (delivery : Delivery) :
    Prop :=
  match delivery.2 with
  | .entry process => (tracedName overrun process.syscallNum).isSome →
      followed.session.debugger.syscallEnter = true
  | .exit _ => ∀ entered, followed.inside = some entered → (tracedName overrun entered).isSome →
      followed.session.debugger.syscallEnter = false
  | .trap _ =>
      (followed.step overrun delivery).session.debugger.syscallEnter =
        followed.session.debugger.syscallEnter ∧
      (followed.step overrun delivery).session.calls = followed.session.calls
  | .other _ _ => True

/-- A trap that is not at a system call shows a number that is not traced, and an exit shows a
traced number exactly when its entry did. -/
def NumbersAgree (overrun : Word → Option String) (followed : Followed) (delivery : Delivery) :
    Prop :=
  match delivery.2 with
  | .exit process => ∀ entered, followed.inside = some entered →
      (tracedName overrun entered).isSome = (tracedName overrun process.syscallNum).isSome
  | .trap process => tracedName overrun process.syscallNum = none
  | .entry _ | .other _ _ => True

/-- A delivery advances the flag and the calls as its event does. -/
theorem step_recorder (overrun : Word → Option String) (followed : Followed) (delivery : Delivery) :
    (followed.step overrun delivery).session.recorder =
      (pluginScheme overrun).record followed.session.recorder delivery.2.event := by
  change ((delivery.1.begin followed.session).syscallPass overrun
    delivery.2.answer).1.recorder = _
  rw [syscallPass_recorder, begin_recorder]

/-- **The exact condition of one delivery.** In step, a delivery keeps the phase and stays in
step exactly when its numbers agree. -/
theorem phaseKept_step {followed : Followed} {delivery : Delivery}
    (inStep : followed.InStep overrun) (deliverable : Deliverable followed delivery) :
    PhaseKept overrun followed delivery ∧ (followed.step overrun delivery).InStep overrun ↔
      NumbersAgree overrun followed delivery := by
  have recorder := step_recorder overrun followed delivery
  have next : (followed.step overrun delivery).InStep overrun ↔
      (pluginScheme overrun).Balanced followed.inside delivery.2.event := by
    have before : (pluginScheme overrun).InStep ⟨followed.session.recorder, followed.inside⟩ :=
      inStep
    rw [← Scheme.inStep_step before deliverable]
    unfold Scheme.step Scheme.InStep
    rw [← recorder]
    rfl
  rw [next]
  obtain ⟨command, stop⟩ := delivery
  cases stop with
  | entry process =>
    have outside : followed.inside = none := deliverable
    have up : followed.session.debugger.syscallEnter = true := by
      rw [inStep, outside]
      rfl
    exact iff_of_true ⟨fun _ => up, trivial⟩ trivial
  | exit process =>
    apply and_iff_right
    intro entered inside traced
    rw [inStep, inside, Option.bind_some, Option.isNone_eq_false_iff, traced]
  | trap process =>
    apply and_iff_right_of_imp
    intro untraced
    have same : (followed.step overrun (command, .trap process)).session.recorder =
        followed.session.recorder := by
      rw [recorder]
      exact Scheme.meet_nameless untraced
    exact ⟨congrArg Recorder.flag same, congrArg Recorder.marks same⟩
  | other answer quiet => exact iff_of_true ⟨trivial, trivial⟩ trivial

/-- **When the phase flag stays in step.** From a flag that tells where the tracee is, a run of
deliveries in the kernel's order keeps the phase and stays in step exactly when at each of its
stops the numbers agree. -/
theorem phaseKept_iff_numbersAgree {followed : Followed} {run : List Delivery}
    (inStep : followed.InStep overrun)
    (deliverable : Along (Followed.step overrun) Deliverable followed run) :
    Along (Followed.step overrun)
        (fun reached delivery => PhaseKept overrun reached delivery ∧
          (reached.step overrun delivery).InStep overrun) followed run ↔
      Along (Followed.step overrun) (NumbersAgree overrun) followed run := by
  have exact : ∀ reached delivery, Followed.InStep overrun reached →
      Deliverable reached delivery →
      (PhaseKept overrun reached delivery ∧ (reached.step overrun delivery).InStep overrun ↔
        NumbersAgree overrun reached delivery) :=
    fun _ _ inStep deliverable => phaseKept_step inStep deliverable
  exact along_iff_along (fun _ _ _ _ kept => kept.2) exact inStep deliverable

/-- A `write`, and a stray trap behind it that shows a number which is passed over. -/
def writeAndTrap : List Delivery :=
  [(.syscallContin, .entry (calling 64)), (.straceMode, .exit (calling 64)),
    (.syscallContin, .trap (calling 98)), (.syscallContin, .entry (calling 64))]

/-- The flag tells of all four where the tracee is. -/
theorem phase_kept_once :
    Along (Followed.step fun _ => none)
      (fun reached delivery => PhaseKept (fun _ => none) reached delivery ∧
        (reached.step (fun _ => none) delivery).InStep fun _ => none) ⟨atStart, none⟩
      writeAndTrap := by
  have deliverable : Along (Followed.step fun _ => none) Deliverable ⟨atStart, none⟩
      writeAndTrap := ⟨rfl, fun outside => (nomatch outside), rfl, rfl, trivial⟩
  have start : (Followed.mk atStart none).InStep fun _ => none := rfl
  apply (phaseKept_iff_numbersAgree start deliverable).mpr
  refine ⟨trivial, ?_, ?_, trivial, trivial⟩
  · intro entered inside
    cases inside
    rfl
  · show tracedName (fun _ => none) 98 = none
    decide +kernel

/-- A breakpoint stop with the number of `write` in x8 calls a hook, and turns over the flag
that the next entry finds. An exit that shows `futex` after the entry of a `write` does the
latter too. -/
theorem phase_lost :
    (Followed.mk atStart none).InStep (fun _ => none) ∧
    Along (Followed.step fun _ => none) Deliverable ⟨atStart, none⟩
      [(.syscallContin, .trap (calling 64))] ∧
    ¬Along (Followed.step fun _ => none) (PhaseKept fun _ => none) ⟨atStart, none⟩
      [(.syscallContin, .trap (calling 64))] ∧
    Along (Followed.step fun _ => none) Deliverable ⟨atStart, none⟩
      [(.syscallContin, .entry (calling 64)), (.syscallContin, .exit (calling 98)),
        (.syscallContin, .entry (calling 64))] ∧
    ¬Along (Followed.step fun _ => none) (PhaseKept fun _ => none) ⟨atStart, none⟩
      [(.syscallContin, .entry (calling 64)), (.syscallContin, .exit (calling 98)),
        (.syscallContin, .entry (calling 64))] := by
  have deliverable : Along (Followed.step fun _ => none) Deliverable ⟨atStart, none⟩
      [(.syscallContin, .entry (calling 64)), (.syscallContin, .exit (calling 98)),
        (.syscallContin, .entry (calling 64))] :=
    ⟨rfl, fun outside => (nomatch outside), rfl, trivial⟩
  refine ⟨rfl, ⟨rfl, trivial⟩, ?_, deliverable, ?_⟩
  · intro kept
    exact absurd kept.1.1 (by decide +kernel)
  · intro kept
    have up := kept.2.2.1 (by decide +kernel)
    exact absurd up (by decide +kernel)

end A64dbg.SyscallPhase
