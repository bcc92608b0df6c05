import A64dbg.Slots
import A64dbg.Watch

/-!
# Breakpoints that fail

`setBreakPoint` looks at the result of neither request. What a failed `PTRACE_PEEKTEXT` returns
is a word like any other, and an entry of `BreakPoints` is never replaced, so the word a failed
command leaves there is the one a later stop writes. `traceless_iff` says exactly when a failed
command does no harm: when the address has an entry already, and the entry is what the later
breakpoint finds.
-/

namespace A64dbg

open ByteMemory Runs Tracee

/-- `setBreakPoint` on any answers of the kernel: the word `PTRACE_PEEKTEXT` found, or none where
it failed and returned -1, and whether `PTRACE_POKETEXT` succeeded. -/
def Session.setBreakPointOn (session : Session) (bpAddr : Addr) (peeked : Option Word)
    (poked : Bool) : Session :=
  let data := peeked.getD (-1)
  let memory := session.process.memory
  { session with
    process := { session.process with
      memory := if poked then store memory bpAddr 8 (instrWord brk) else memory }
    debugger := { session.debugger with
      breakPoints := mapInsert session.debugger.breakPoints bpAddr data } }

/-- A tracee answers both requests alike. -/
theorem setBreakPoint_answers (session : Session) (bpAddr : Addr) :
    session.setBreakPoint bpAddr =
      if Mapped session.process.memory bpAddr 8 then
        session.setBreakPointOn bpAddr (some (load session.process.memory bpAddr 8)) true
      else session.setBreakPointOn bpAddr none false := by
  by_cases mapped : Mapped session.process.memory bpAddr 8
  · simp only [Session.setBreakPoint, Session.setBreakPointOn, peekText, pokeText, pokeMemory,
      if_pos mapped, if_true, Option.getD_some]
  · simp only [Session.setBreakPoint, Session.setBreakPointOn, peekText, pokeText, pokeMemory,
      if_neg mapped, Bool.false_eq_true, if_false, Option.getD_none]

namespace FailedBreakPoint

variable {overrun : Word → Option String} {watch : Watch} {addr : Addr}

/-- One of the requests of `setBreakPoint` fails. -/
def Failed (peeked : Option Word) (poked : Bool) : Prop := peeked = none ∨ poked = false

/-- A watched session after `setBreakPoint` on these answers; nothing is armed by a failure. -/
def failedAt (watch : Watch) (addr : Addr) (peeked : Option Word) (poked : Bool) : Watch :=
  { watch with session := watch.session.setBreakPointOn addr peeked poked }

/-- A history from a state on: any moves, a breakpoint set at an address where it succeeds, any
moves, and a stop of `Continue` there that can write its word. -/
structure Retried (overrun : Word → Option String) (watch : Watch) (addr : Addr) where
  /-- The moves before the breakpoint. -/
  before : List Move
  /-- The address is mapped by then. -/
  mapped : Mapped (after (Watch.step overrun) watch before).memory addr 8
  /-- The moves from there to the stop. -/
  between : List Move
  /-- The answer of the kernel that is the stop. -/
  answer : Resume
  /-- The tracee at the stop. -/
  process : Tracee
  /-- It stopped by signal 5. -/
  trap : answer.trap = some process
  /-- It stopped at the address. -/
  here : process.registers.pc = addr
  /-- The address is mapped there. -/
  reaches : Mapped process.memory addr 8

namespace Retried

/-- The word in memory when the breakpoint is set. -/
def found (history : Retried overrun watch addr) : Word :=
  load (after (Watch.step overrun) watch history.before).memory addr 8

/-- The state that is continued to the stop. -/
def atStop (history : Retried overrun watch addr) : Watch :=
  after (Watch.step overrun) watch (history.before ++ .setBreakPoint addr :: history.between)

/-- The memory the stop leaves. -/
def left (history : Retried overrun watch addr) : Memory :=
  (history.atStop.step overrun (.resume .contin history.answer)).memory

end Retried

/-- The failed command leaves `BreakPoints` as it was. -/
def Unchanged (watch : Watch) (addr : Addr) (peeked : Option Word) (poked : Bool) : Prop :=
  (failedAt watch addr peeked poked).entries = watch.entries

/-- Every move keeps the entries there are. -/
theorem entry_step {data : Word} (entry : watch.entries addr = some data) (move : Move) :
    (watch.step overrun move).entries addr = some data := by
  cases move with
  | setBreakPoint bpAddr => exact mapInsert_keeps entry
  | setHwBreakPoint bpAddr bpNum => exact entry
  | resume command answer =>
    rw [Watch.step_resume_entries]
    exact entry
  | rewrite memory => exact entry

/-- Every run keeps the entries there are. -/
theorem entry_after {data : Word} (entry : watch.entries addr = some data) (run : List Move) :
    (after (Watch.step overrun) watch run).entries addr = some data := by
  induction run generalizing watch with
  | nil => exact entry
  | cons move rest ih => exact ih (entry_step entry move)

/-- A table keeps its shape exactly when the address has an entry. -/
theorem mapInsert_unchanged (entries : Addr → Option Word) (addr : Addr) (data : Word) :
    mapInsert entries addr data = entries ↔ ∃ word, entries addr = some word := by
  constructor
  · intro same
    have inserted := mapInsert_self entries addr data
    rw [same] at inserted
    exact ⟨_, inserted⟩
  · rintro ⟨word, entry⟩
    funext other
    by_cases here : other = addr
    · subst here
      rw [mapInsert_self, entry, Option.getD_some]
    · exact Function.update_of_ne here _ _

/-- The word a stop writes is the entry its address had before the history. -/
theorem left_holds {data : Word} (entry : watch.entries addr = some data)
    (history : Retried overrun watch addr) :
    Holds history.left addr 8 data := by
  have known : history.atStop.entries addr = some data := entry_after entry _
  have written : history.left = pokeMemory history.process.memory addr data := by
    simp only [Retried.left, Watch.step_contin_memory, history.trap, restored, history.here, known]
  rw [written]
  exact poke_holds data history.reaches

/-- **A failed breakpoint.** Whatever its requests answer, so also when one of them fails or both,
`setBreakPoint` leaves `BreakPoints` unchanged exactly when the address has an entry, and in every
history in which a breakpoint there then succeeds and is hit, the stop also puts back the word that
breakpoint found exactly when this word is the entry. -/
theorem traceless_iff (overrun : Word → Option String) (watch : Watch) (addr : Addr)
    (peeked : Option Word) (poked : Bool) :
    (Unchanged watch addr peeked poked ↔ ∃ data, watch.entries addr = some data) ∧
    ∀ history : Retried overrun (failedAt watch addr peeked poked) addr,
      (Unchanged watch addr peeked poked ∧ Holds history.left addr 8 history.found ↔
        watch.entries addr = some history.found) := by
  have unchanged : Unchanged watch addr peeked poked ↔ ∃ data, watch.entries addr = some data :=
    mapInsert_unchanged _ _ _
  refine ⟨unchanged, fun history => ?_⟩
  constructor
  · rintro ⟨same, held⟩
    obtain ⟨data, entry⟩ := unchanged.mp same
    have written := left_holds (same ▸ entry) history
    rw [entry, written.unique held]
  · intro entry
    have same := unchanged.mpr ⟨_, entry⟩
    have kept : (failedAt watch addr peeked poked).entries addr = some history.found := by
      rw [same, entry]
    exact ⟨same, left_holds kept history⟩

/-- A second breakpoint that fails where one is set leaves no trace. -/
theorem traceless_once :
    Unchanged ((Watch.start nops).step (fun _ => none) (.setBreakPoint 0x1000)) 0x1000 none
      false := by
  have entry := mapInsert_self (fun _ => none) 0x1000
    ((Watch.start nops).session.process.peekText 0x1000)
  exact (traceless_iff (fun _ => none) _ 0x1000 none false).1.mpr ⟨_, entry⟩

/-- A debugger at its start over a tracee with nothing mapped. -/
def bare : Watch := Watch.start fun _ => none

/-- `nop`s are mapped, and a breakpoint among them is set and hit. -/
def mappedLater : Retried (fun _ => none) (failedAt bare 0x1000 none false) 0x1000 where
  before := [.rewrite nops]
  mapped := by
    have mapped : Mapped nops 0x1000 8 := by decide
    exact mapped
  between := []
  answer := .atBreakPoint nops
  process := Tracee.stoppedAt (Tracee.pokeMemory nops 0x1000 (instrWord brk)) 0x1000
  trap := trap_sigTrap _
  here := rfl
  reaches := by
    have mapped : Mapped nops 0x1000 8 := by decide
    have kept : Mapped (pokeMemory nops 0x1000 (instrWord brk)) 0x1000 8 := mapped_poke _ mapped
    exact kept

/-- A breakpoint fails where nothing is mapped; once `nop`s are there, the stop at a second one
writes eight bytes of ones. -/
theorem trace_left :
    Failed none false ∧
    bare.session.setBreakPoint 0x1000 = (failedAt bare 0x1000 none false).session ∧
    ¬Unchanged bare 0x1000 none false ∧
    ¬Holds mappedLater.left 0x1000 8 mappedLater.found ∧
    Holds mappedLater.left 0x1000 8 (-1 : Word) := by
  have unmapped : ¬Mapped bare.session.process.memory 0x1000 8 := by decide
  have entry : (failedAt bare 0x1000 none false).entries 0x1000 = some (-1) :=
    mapInsert_self (fun _ => none) 0x1000 (-1)
  have ones : Holds mappedLater.left 0x1000 8 (-1 : Word) := left_holds entry mappedLater
  have nop : mappedLater.found ≠ -1 := by decide +kernel
  refine ⟨.inl rfl, ?_, ?_, ?_, ones⟩
  · rw [setBreakPoint_answers, if_neg unmapped]
    rfl
  · intro same
    cases (congrFun same 0x1000).symm.trans entry
  · intro held
    exact nop (held.unique ones)

end FailedBreakPoint

end A64dbg
