import A64dbg.KernelStops
import A64dbg.Watch

/-!
# Following the child of a fork

With `follow_fork` the kernel stops the tracee once more when a `clone` has created a child, and
keeps the child's process id as the message of that event. `syscallContinue` takes any stop by
signal 5 with 220 in x8 that turns `syscall_enter` up for such an event. `exact_iff_inStep` says
for every run exactly when the debugger changes its tracee only at these events, and only to the
child.
-/

namespace A64dbg.Retarget

open Runs

variable {overrun : Word → Option String}

/-- The events that the options of `main` ask for. -/
inductive EventKind where
  /-- `PTRACE_EVENT_FORK`. -/
  | fork
  /-- `PTRACE_EVENT_CLONE`. -/
  | clone
deriving DecidableEq, Repr

/-- The status of an event stop: the event above the status of a stop by signal 5. -/
def EventKind.status : EventKind → WaitStatus
  | .fork => 0x1057f
  | .clone => 0x3057f

/-- One answer of the kernel to a tracee that reports its children. -/
inductive ForkStop where
  /-- No event; a `clone` that fails only has its entry and its exit. -/
  | plain (stop : KernelStop)
  /-- A child was created. -/
  | event (kind : EventKind) (child : BitVec 32) (process : Tracee)

/-- What the debugger sees of a stop. -/
def ForkStop.answer : ForkStop → Resume
  | .plain stop => stop.answer
  | .event kind _ process => .waited kind.status process

/-- A session, and for each process the message of its latest event, or zero. -/
structure State where
  /-- The session. -/
  session : Session
  /-- The messages. -/
  latest : BitVec 32 → BitVec 32

/-- A resume command with one answer to it. -/
abbrev Delivery := ResumeCommand × ForkStop

/-- The messages once a stop has happened. -/
def messages (state : State) : ForkStop → BitVec 32 → BitVec 32
  | .plain _ => state.latest
  | .event _ child _ =>
    Function.update state.latest state.session.debugger.connector.tracee child

/-- The state after a resume command has met its stop. -/
def deliver (overrun : Word → Option String) (state : State) (delivery : Delivery) : State where
  session := delivery.1.handle overrun state.session delivery.2.answer
  latest := messages state delivery.2

/-- `PTRACE_GETEVENTMSG` returns the message of the latest event of the tracee, and a child is
another process than its parent. -/
def Delivered (state : State) (delivery : Delivery) : Prop :=
  (∀ process, delivery.2.answer.trap = some process → process.eventMsg =
    (messages state delivery.2 state.session.debugger.connector.tracee).setWidth 64) ∧
  match delivery.2 with
  | .plain _ => True
  | .event _ child _ => child ≠ 0 ∧ child ≠ state.session.debugger.connector.tracee

/-- The process ids the debugger and the connector act on. -/
def targets (session : Session) : Word × BitVec 32 :=
  (session.debugger.tracee, session.debugger.connector.tracee)

/-- The debugger and the connector act on one process. -/
def Paired (state : State) : Prop :=
  (targets state.session).1 = (targets state.session).2.setWidth 64

/-- The tracee stays the same, or the stop is the event of a child and the child is the tracee
from now on. -/
def Exact (overrun : Word → Option String) (state : State) (delivery : Delivery) : Prop :=
  targets (deliver overrun state delivery).session = targets state.session ∨
    ∃ kind child process, delivery.2 = .event kind child process ∧
      targets (deliver overrun state delivery).session = (child.setWidth 64, child)

/-- The commands that run a pass of `syscallContinue`. -/
def Passes (command : ResumeCommand) : Prop := command = .syscallContin ∨ command = .straceMode

instance (command : ResumeCommand) : Decidable (Passes command) :=
  inferInstanceAs (Decidable (_ ∨ _))

/-- No stop by signal 5 other than an event finds `syscall_enter` down and 220 in x8. -/
def InStep (state : State) (delivery : Delivery) : Prop :=
  match delivery.2 with
  | .plain stop => Passes delivery.1 → ∀ process, stop.answer.trap = some process →
      process.syscallNum = 220 → state.session.debugger.syscallEnter = true
  | .event _ _ _ => True

/-- The hooks of the plugins leave the message of the latest event alone. -/
def KeepsMessages (helper : PluginHelper) : Prop :=
  ∀ name plugin, helper name = some plugin → ∀ process : Tracee,
    (plugin.beforeSyscall process).eventMsg = process.eventMsg ∧
    (plugin.afterSyscall process).eventMsg = process.eventMsg

/-- A debugger that follows forks, before the first event. -/
structure Fresh (state : State) : Prop where
  /-- The connector was initialised with the tracee. -/
  paired : Paired state
  /-- There is a tracee. -/
  present : state.session.debugger.connector.tracee ≠ 0
  /-- No event has happened. -/
  silent : state.latest = fun _ => 0
  /-- `follow_fork` is set. -/
  follow : state.session.debugger.followFork = true
  /-- The plugins keep messages. -/
  plugins : KeepsMessages state.session.debugger.pluginHelper

/-- A clone is followed only with `-f` and the flag up. -/
theorem followClone_targets (session : Session) (syscallNum : Word) :
    targets (session.followClone syscallNum) =
      if session.debugger.followFork && syscallNum == 220 && session.debugger.syscallEnter then
        (session.process.eventMsg, session.process.eventMsg.setWidth 32)
      else targets session := by
  unfold Session.followClone
  split <;> rfl

/-- The hooks of plugins that keep messages keep the message. -/
theorem hooks_eventMsg {helper : PluginHelper} (plugins : KeepsMessages helper) (name : String)
    (process : Tracee) :
    (helper.callBefore name process).eventMsg = process.eventMsg ∧
    (helper.callAfter name process).eventMsg = process.eventMsg := by
  unfold PluginHelper.callBefore PluginHelper.callAfter
  cases registered : helper name with
  | none => exact ⟨rfl, rfl⟩
  | some plugin => exact plugins name plugin registered process

/-- A plugin call keeps the tracee, `follow_fork` and the message. -/
theorem callPlugin_frame {session : Session}
    (plugins : KeepsMessages session.debugger.pluginHelper) (name : String) :
    targets (session.callPlugin name) = targets session ∧
    (session.callPlugin name).debugger.followFork = session.debugger.followFork ∧
    (session.callPlugin name).process.eventMsg = session.process.eventMsg := by
  obtain ⟨before, after⟩ := hooks_eventMsg plugins name session.process
  rw [callPlugin_process]
  unfold Session.callPlugin
  cases session.debugger.syscallEnter with
  | false => exact ⟨rfl, rfl, after⟩
  | true => exact ⟨rfl, rfl, before⟩

/-- **One stop by signal 5.** The tracee becomes the process of the latest message exactly when
x8 is 220 and `syscall_enter` is down. -/
theorem syscallStop_targets {session : Session}
    (plugins : KeepsMessages session.debugger.pluginHelper)
    (follow : session.debugger.followFork = true) :
    targets (session.syscallStop overrun) =
      if session.syscallNum = 220 ∧ session.debugger.syscallEnter = false then
        (session.process.eventMsg, session.process.eventMsg.setWidth 32)
      else targets session := by
  cases traced : tracedName overrun session.syscallNum with
  | none =>
    have notClone : session.syscallNum ≠ 220 := by
      intro clone
      rw [clone, tracedName_clone] at traced
      cases traced
    rw [syscallStop_untraced traced, if_neg (fun both => notClone both.1)]
  | some name =>
    obtain ⟨kept, followFork, message⟩ := callPlugin_frame plugins name
    rw [syscallStop_traced traced, followClone_targets, followFork, follow, message, kept,
      callPlugin_syscallEnter]
    by_cases clone : session.syscallNum = 220
    · rw [clone]
      cases session.debugger.syscallEnter <;> rfl
    · have other : (session.syscallNum == 220) = false := beq_eq_false_iff_ne.mpr clone
      rw [other, Bool.and_false, Bool.false_and, if_neg Bool.false_ne_true]
      exact (if_neg fun both => clone both.1).symm

/-- A pass of the loop changes the tracee at a stop by signal 5 with 220 in x8 that finds the
flag down, and to the process of the latest message. -/
theorem syscallPass_targets {session : Session} {answer : Resume}
    (plugins : KeepsMessages session.debugger.pluginHelper)
    (follow : session.debugger.followFork = true) :
    targets (session.syscallPass overrun answer).1 =
      match answer.trap with
      | none => targets session
      | some process =>
        if process.syscallNum = 220 ∧ session.debugger.syscallEnter = false then
          (process.eventMsg, process.eventMsg.setWidth 32)
        else targets session := by
  rw [syscallPass_eq]
  cases answer with
  | refused => rfl
  | waited status process =>
    unfold Resume.trap
    dsimp only
    by_cases trap : isTrap status = true
    · rw [if_pos trap, if_pos trap]
      exact syscallStop_targets plugins follow
    · rw [if_neg trap, if_neg trap]
      rfl

/-- A stop that moves the debugger to the process of the latest message: by signal 5 in a pass
of the loop, with 220 in x8 and the flag down. -/
def Moves (session : Session) (command : ResumeCommand) (answer : Resume) : Prop :=
  Passes command ∧ ∃ process, answer.trap = some process ∧ process.syscallNum = 220 ∧
    session.debugger.syscallEnter = false

/-- A pass at a `clone` with the flag down moves to the process of the latest message. -/
theorem pass_moves {session : Session} {answer : Resume} {process : Tracee}
    (plugins : KeepsMessages session.debugger.pluginHelper)
    (follow : session.debugger.followFork = true) (trap : answer.trap = some process)
    (clone : process.syscallNum = 220) (down : session.debugger.syscallEnter = false) :
    targets (session.syscallPass overrun answer).1 =
      (process.eventMsg, process.eventMsg.setWidth 32) := by
  rw [syscallPass_targets plugins follow, trap]
  exact if_pos ⟨clone, down⟩

/-- Any other pass stays with the process traced. -/
theorem pass_stays {session : Session} {answer : Resume}
    (plugins : KeepsMessages session.debugger.pluginHelper)
    (follow : session.debugger.followFork = true)
    (still : ¬∃ process, answer.trap = some process ∧ process.syscallNum = 220 ∧
      session.debugger.syscallEnter = false) :
    targets (session.syscallPass overrun answer).1 = targets session := by
  rw [syscallPass_targets plugins follow]
  cases trap : answer.trap with
  | none => rfl
  | some process => exact if_neg fun both => still ⟨process, trap, both⟩

/-- The other commands do not move the debugger. -/
theorem continue_targets (session : Session) (answer : Resume) :
    targets (session.continue answer) = targets session := by
  unfold targets
  rw [continue_debugger]
  cases answer <;> rfl

/-- **A stop at a `clone` with the flag down moves to the process of the latest message.** -/
theorem handle_moves {session : Session} {command : ResumeCommand} {answer : Resume}
    {process : Tracee} (plugins : KeepsMessages session.debugger.pluginHelper)
    (follow : session.debugger.followFork = true) (moves : Moves session command answer)
    (trap : answer.trap = some process) :
    targets (command.handle overrun session answer) =
      (process.eventMsg, process.eventMsg.setWidth 32) := by
  obtain ⟨passes, stopped, same, clone, down⟩ := moves
  rw [trap, Option.some.injEq] at same
  subst same
  rcases passes with rfl | rfl
  · exact pass_moves plugins follow trap clone down
  · exact pass_moves plugins follow trap clone down

/-- **Any other stop stays with the process traced.** -/
theorem handle_stays {session : Session} {command : ResumeCommand} {answer : Resume}
    (plugins : KeepsMessages session.debugger.pluginHelper)
    (follow : session.debugger.followFork = true) (stays : ¬Moves session command answer) :
    targets (command.handle overrun session answer) = targets session := by
  cases command with
  | next => rfl
  | contin => exact continue_targets session answer
  | syscallContin => exact pass_stays plugins follow fun met => stays ⟨.inl rfl, met⟩
  | straceMode => exact pass_stays plugins follow fun met => stays ⟨.inr rfl, met⟩

/-- The debugger and the connector act on one process, and follow forks. -/
structure Linked (state : State) : Prop where
  /-- Both have one process id. -/
  paired : Paired state
  /-- `follow_fork` is set. -/
  follow : state.session.debugger.followFork = true
  /-- The plugins keep messages. -/
  plugins : KeepsMessages state.session.debugger.pluginHelper

/-- In addition there is a tracee, and no process has itself for a child. -/
structure Tracing (state : State) : Prop where
  /-- The two act on one process. -/
  linked : Linked state
  /-- There is a tracee. -/
  present : state.session.debugger.connector.tracee ≠ 0
  /-- No message names its own process. -/
  others : ∀ pid, pid ≠ 0 → state.latest pid ≠ pid

/-- A delivery that moves the debugger moves it to the process of the latest message. -/
theorem deliver_moves {state : State} {delivery : Delivery} (linked : Linked state)
    (delivered : Delivered state delivery)
    (moves : Moves state.session delivery.1 delivery.2.answer) :
    targets (deliver overrun state delivery).session =
      ((messages state delivery.2 state.session.debugger.connector.tracee).setWidth 64,
        messages state delivery.2 state.session.debugger.connector.tracee) := by
  obtain ⟨-, process, trap, -, -⟩ := id moves
  have followed : targets (deliver overrun state delivery).session =
      (process.eventMsg, process.eventMsg.setWidth 32) :=
    handle_moves linked.plugins linked.follow moves trap
  have message := delivered.1 process trap
  rw [followed, message, BitVec.setWidth_setWidth_of_le _ (by decide), BitVec.setWidth_eq]

/-- Any other delivery leaves the debugger with the process it traced. -/
theorem deliver_stays {state : State} {delivery : Delivery} (linked : Linked state)
    (stays : ¬Moves state.session delivery.1 delivery.2.answer) :
    targets (deliver overrun state delivery).session = targets state.session :=
  handle_stays linked.plugins linked.follow stays

/-- Every delivery leaves the debugger and the connector at one process. -/
theorem linked_deliver {state : State} {delivery : Delivery} (linked : Linked state)
    (delivered : Delivered state delivery) : Linked (deliver overrun state delivery) := by
  have rest := congrArg Prod.snd (handle_settled overrun delivery.1 state.session
    delivery.2.answer)
  have plugins : (deliver overrun state delivery).session.debugger.pluginHelper =
      state.session.debugger.pluginHelper := congrArg Prod.fst rest
  have followFork : (deliver overrun state delivery).session.debugger.followFork =
      state.session.debugger.followFork := congrArg Prod.snd rest
  constructor
  · unfold Paired
    by_cases moves : Moves state.session delivery.1 delivery.2.answer
    · rw [deliver_moves linked delivered moves]
    · rw [deliver_stays linked moves]
      exact linked.paired
  · rw [followFork]
    exact linked.follow
  · rw [plugins]
    exact linked.plugins

/-- A process is never its own child. -/
theorem messages_others {state : State} {delivery : Delivery} (tracing : Tracing state)
    (delivered : Delivered state delivery) (pid : BitVec 32) (present : pid ≠ 0) :
    messages state delivery.2 pid ≠ pid := by
  obtain ⟨command, stop⟩ := delivery
  cases stop with
  | plain stop => exact tracing.others pid present
  | event kind child process =>
    obtain ⟨-, -, other⟩ := delivered
    unfold messages
    dsimp only
    by_cases own : pid = state.session.debugger.connector.tracee
    · rw [own, Function.update_self]
      exact other
    · rw [Function.update_of_ne own]
      exact tracing.others pid present

/-- A stop that is no event is in step exactly when it does not move the debugger. -/
theorem inStep_plain (state : State) (command : ResumeCommand) (stop : KernelStop) :
    InStep state (command, .plain stop) ↔ ¬Moves state.session command stop.answer := by
  constructor
  · rintro inStep ⟨passes, process, trap, clone, down⟩
    have up := inStep passes process trap clone
    rw [down] at up
    cases up
  · intro stays passes process trap clone
    by_contra down
    exact stays ⟨passes, process, trap, clone, Bool.eq_false_iff.mpr down⟩

/-- **One delivery.** It changes the tracee as it should exactly when it is in step. -/
theorem exact_step {state : State} {delivery : Delivery} (tracing : Tracing state)
    (delivered : Delivered state delivery) :
    Exact overrun state delivery ↔ InStep state delivery := by
  have linked := tracing.linked
  obtain ⟨command, stop⟩ := delivery
  by_cases moves : Moves state.session command stop.answer
  · have moved : targets (deliver overrun state (command, stop)).session = _ :=
      deliver_moves linked delivered moves
    cases stop with
    | plain stop =>
      rw [inStep_plain]
      apply iff_of_false _ (not_not_intro moves)
      rintro (kept | ⟨_, _, _, isEvent, -⟩)
      · have same := congrArg Prod.snd (moved.symm.trans kept)
        exact tracing.others _ tracing.present same
      · cases isEvent
    | event kind child process =>
      have message : messages state (.event kind child process)
          state.session.debugger.connector.tracee = child := Function.update_self ..
      rw [message] at moved
      exact iff_of_true (.inr ⟨kind, child, process, rfl, moved⟩) trivial
  · have inStep : InStep state (command, stop) := by
      cases stop with
      | plain stop => exact (inStep_plain state command stop).mpr moves
      | event kind child process => trivial
    exact iff_of_true (.inl (deliver_stays linked moves)) inStep

/-- Deliveries that change the tracee as they should keep the debugger tracing. -/
theorem tracing_deliver {state : State} {delivery : Delivery} (tracing : Tracing state)
    (delivered : Delivered state delivery) (exact : Exact overrun state delivery) :
    Tracing (deliver overrun state delivery) := by
  refine ⟨linked_deliver tracing.linked delivered, ?_, messages_others tracing delivered⟩
  rcases exact with kept | ⟨kind, child, process, event, moved⟩
  · have same : (deliver overrun state delivery).session.debugger.connector.tracee =
        state.session.debugger.connector.tracee := congrArg Prod.snd kept
    rw [same]
    exact tracing.present
  · have followed : (deliver overrun state delivery).session.debugger.connector.tracee = child :=
      congrArg Prod.snd moved
    have created := delivered.2
    rw [event] at created
    rw [followed]
    exact created.1

/-- A fresh debugger is tracing. -/
theorem Fresh.tracing {state : State} (fresh : Fresh state) : Tracing state := by
  refine ⟨⟨fresh.paired, fresh.follow, fresh.plugins⟩, fresh.present, fun pid present => ?_⟩
  rw [fresh.silent]
  exact present.symm

/-- **When retargeting on fork is exact.** In every run of a debugger that follows forks, the
debugger and the connector act on one process in every state reached, and change it only at the
event of a child and to that child, exactly when every other stop by signal 5 that shows 220
finds `syscall_enter` up. -/
theorem exact_iff_inStep {state : State} {run : List Delivery} (fresh : Fresh state)
    (delivered : Along (deliver overrun) Delivered state run) :
    Throughout (deliver overrun) Paired state run ∧
      Along (deliver overrun) (Exact overrun) state run ↔
      Along (deliver overrun) InStep state run := by
  have paired : Throughout (deliver overrun) Paired state run := by
    intro reached initial
    have linked := (delivered.initial initial).keeps fresh.tracing.linked
      fun _ _ linked admitted => linked_deliver linked admitted
    exact linked.paired
  rw [and_iff_right paired]
  exact along_iff_along (fun _ _ tracing admitted exact => tracing_deliver tracing admitted exact)
    (fun _ _ tracing admitted => exact_step tracing admitted) fresh.tracing delivered

/-- A stop that shows a number in x8, and the message of the latest event. -/
def showing (number message : Word) : Tracee :=
  { Tracee.stoppedAt nops 0 with
    registers := (Tracee.stoppedAt nops 0).registers.setReg x8 number
    eventMsg := message }

/-- A debugger that follows forks, at its start. -/
def start : State where
  session := ⟨{ Debugger.initial with followFork := true }, Tracee.stoppedAt nops 0, []⟩
  latest := fun _ => 0

/-- The sample is a fresh debugger. -/
theorem start_fresh : Fresh start where
  paired := rfl
  present := by decide
  silent := rfl
  follow := rfl
  plugins := by
    intro name plugin registered
    cases registered

/-- The entry of a `clone`. -/
def cloneEntry : Delivery := (.syscallContin, .plain (.entry (showing 220 0)))

/-- The event that tells of its child. -/
def childEvent : Delivery := (.syscallContin, .event .clone 2 (showing 220 2))

/-- The exit of a `clone` that failed. -/
def failedExit : Delivery := (.syscallContin, .plain (.exit (showing 220 0)))

/-- A stop that is no event shows the message of the latest event. -/
theorem plain_delivered {state : State} {command : ResumeCommand} {stop : KernelStop}
    {process : Tracee} (trap : stop.answer.trap = some process)
    (message : process.eventMsg =
      (state.latest state.session.debugger.connector.tracee).setWidth 64) :
    Delivered state (command, .plain stop) := by
  constructor
  · intro stopped same
    have found : some process = some stopped := trap.symm.trans same
    rw [Option.some.injEq] at found
    rw [← found]
    exact message
  · trivial

/-- The entry of a `clone` shows no message. -/
theorem cloneEntry_delivered : Delivered start cloneEntry :=
  plain_delivered (trap_sigTrap _) rfl

/-- The child of a `clone` is followed. -/
theorem child_followed :
    Throughout (deliver fun _ => none) Paired start [cloneEntry, childEvent] ∧
    Along (deliver fun _ => none) (Exact fun _ => none) start [cloneEntry, childEvent] := by
  apply (exact_iff_inStep start_fresh _).mpr
  · refine ⟨?_, trivial, trivial⟩
    intro _ _ _ _
    rfl
  · refine ⟨cloneEntry_delivered, ⟨fun process trap => ?_, by decide, by decide⟩, trivial⟩
    have stopped : childEvent.2.answer.trap = some (showing 220 2) := rfl
    rw [stopped, Option.some.injEq] at trap
    rw [← trap]
    rfl

/-- At the exit of a `clone` that failed the debugger turns to process 0. -/
theorem failed_clone_followed :
    Fresh start ∧
    Along (deliver fun _ => none) Delivered start [cloneEntry, failedExit] ∧
    ¬Along (deliver fun _ => none) (Exact fun _ => none) start [cloneEntry, failedExit] := by
  have failed : Delivered (deliver (fun _ => none) start cloneEntry) failedExit :=
    plain_delivered (trap_sigTrap _) rfl
  refine ⟨start_fresh, ⟨cloneEntry_delivered, failed, trivial⟩, ?_⟩
  rintro ⟨-, (kept | ⟨_, _, _, isEvent, -⟩), -⟩
  · have tracee := congrArg Prod.fst kept
    exact absurd tracee (by decide +kernel)
  · cases isEvent

end A64dbg.Retarget
