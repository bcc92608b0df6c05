import A64dbg.Library.Runs
import A64dbg.SyscallStop

/-!
# Runs of a watched session

A `Move` is one thing that happens to a session: a breakpoint command, one answer of the
kernel to a resume command, or a rewrite of the tracee's memory between two of them. A
`Watch` adds to the session what its history says about software breakpoints: an address is
armed once a setting of it reached the tracee and until `Continue` stops there, and it keeps
the instruction that its arming replaced. The debugger neither reads nor writes this record.
-/

namespace A64dbg

open ByteMemory Runs

/-- A session with its armed addresses and the instruction each arming found. -/
structure Watch where
  /-- The session. -/
  session : Session
  /-- The instruction replaced at each armed address. -/
  armed : Addr → Option Instr

/-- One thing that happens to a session. -/
inductive Move where
  /-- The command that sets a software breakpoint. -/
  | setBreakPoint (bpAddr : Addr)
  /-- The command that sets a hardware breakpoint. -/
  | setHwBreakPoint (bpAddr bpNum : Word)
  /-- One answer to a resume command. -/
  | resume (command : ResumeCommand) (answer : Resume)
  /-- The tracee or a plugin rewrites memory. -/
  | rewrite (memory : Memory)

namespace Watch

/-- The memory of the tracee. -/
abbrev memory (watch : Watch) : Memory := watch.session.process.memory

/-- `BreakPoints`. -/
abbrev entries (watch : Watch) : Addr → Option Word := watch.session.debugger.breakPoints

/-- Setting an address arms it, unless it is armed or the request fails. -/
def arm (watch : Watch) (bpAddr : Addr) : Addr → Option Instr :=
  if Mapped watch.memory bpAddr 8 then
    Function.update watch.armed bpAddr
      (some ((watch.armed bpAddr).getD (instrAt watch.memory bpAddr)))
  else watch.armed

/-- A stop of `Continue` by signal 5 disarms its address. -/
def disarm (watch : Watch) (answer : Resume) : Addr → Option Instr :=
  match answer.trap with
  | none => watch.armed
  | some process => Function.update watch.armed process.registers.pc none

/-- What a move does to the session and to the record. -/
def step (overrun : Word → Option String) (watch : Watch) : Move → Watch
  | .setBreakPoint bpAddr => ⟨watch.session.setBreakPoint bpAddr, watch.arm bpAddr⟩
  | .setHwBreakPoint bpAddr bpNum =>
    { watch with session := watch.session.setHwBreakPoint bpAddr bpNum }
  | .resume command answer =>
    ⟨command.handle overrun watch.session answer,
      if command = .contin then watch.disarm answer else watch.armed⟩
  | .rewrite memory =>
    { watch with
      session := watch.session.withProcess { watch.session.process with memory := memory } }

end Watch

/-- No breakpoint was ever set. -/
structure Watch.Fresh (watch : Watch) : Prop where
  /-- `BreakPoints` is empty. -/
  entries : watch.entries = fun _ => none
  /-- Nothing is armed. -/
  armed : watch.armed = fun _ => none

/-- Before the first breakpoint an address has no entry. -/
theorem Watch.Fresh.no_entry {watch : Watch} (fresh : watch.Fresh) (addr : Addr) (data : Word) :
    watch.entries addr ≠ some data := by
  rw [fresh.entries]
  exact Option.some_ne_none data |>.symm

/-- Before the first breakpoint no address is armed. -/
theorem Watch.Fresh.unarmed {watch : Watch} (fresh : watch.Fresh) (addr : Addr) (instr : Instr) :
    watch.armed addr ≠ some instr := by
  rw [fresh.armed]
  exact Option.some_ne_none instr |>.symm

/-- The globals before the first command, without hardware breakpoints and plugins. -/
def Debugger.initial : Debugger where
  waitStatus := sigTrap
  breakPoints := fun _ => none
  pluginHelper := fun _ => none
  tracee := 1
  straceMode := false
  syscallEnter := true
  followFork := false
  connector := ⟨1, -1, 0⟩

/-- A process over a memory, stopped at an address. -/
def Tracee.stoppedAt (memory : Memory) (pc : Addr) : Tracee where
  memory := memory
  registers := ⟨fun _ => 0, 0, pc, 0⟩
  dbgRegs := fun _ => ⟨0, 0⟩
  acceptsHwBreak := true
  eventMsg := 0
  issued := []

/-- A debugger at its start over a memory. -/
def Watch.start (memory : Memory) : Watch where
  session := ⟨Debugger.initial, Tracee.stoppedAt memory 0, []⟩
  armed := fun _ => none

/-- At its start the debugger has set no breakpoint. -/
theorem Watch.start_fresh (memory : Memory) : (Watch.start memory).Fresh := ⟨rfl, rfl⟩

/-- `nop` in every slot. -/
def nops : Memory := fun addr => some (byteOf (0xD503201F : Instr) (addr.toNat % 4))

/-- The stop at a breakpoint set over a memory, of a tracee that wrote nothing. -/
def Resume.atBreakPoint (memory : Memory) : Resume :=
  .waited sigTrap (Tracee.stoppedAt (Tracee.pokeMemory memory 0x1000 (instrWord brk)) 0x1000)

/-- A run that sets a breakpoint and stops there. -/
def setAndStop (memory : Memory) : List Move :=
  [.setBreakPoint 0x1000, .resume .contin (.atBreakPoint memory)]

/-- The word `Continue` pokes at a stop by signal 5, over the memory found there. -/
def restored (entries : Addr → Option Word) (process : Tracee) : Memory :=
  match entries process.registers.pc with
  | none => process.memory
  | some data => Tracee.pokeMemory process.memory process.registers.pc data

/-- Clearing a hardware breakpoint changes hardware breakpoint slots only. -/
theorem clearHwBreakpoint_frame (connector : Connector) (process : Tracee) (idx : Nat) :
    ∃ slots, connector.clearHwBreakpoint process idx = { process with dbgRegs := slots } := by
  unfold Connector.clearHwBreakpoint Tracee.setHwRegset
  split
  · exact ⟨process.dbgRegs, rfl⟩
  · split
    · exact ⟨_, rfl⟩
    · exact ⟨process.dbgRegs, rfl⟩

/-- The hardware branch of `Continue` leaves memory alone. -/
theorem clearHwAt_memory (connector : Connector) (pc : Word) (process : Tracee) :
    (clearHwAt connector pc process).memory = process.memory := by
  unfold clearHwAt
  refine List.foldlRecOn (motive := fun cleared : Tracee => cleared.memory = process.memory) _ _
    rfl fun cleared same slot _ => ?_
  split
  · obtain ⟨slots, frame⟩ := clearHwBreakpoint_frame connector cleared slot
    rw [frame]
    exact same
  · exact same

/-- A stop at a breakpoint puts back the saved word, if there is one. -/
theorem breakpointHit_memory (session : Session) :
    session.breakpointHit.process.memory =
      restored session.debugger.breakPoints session.process := by
  unfold Session.breakpointHit restored Tracee.getRegisters
  dsimp only
  cases session.debugger.breakPoints session.process.registers.pc with
  | none => exact clearHwAt_memory _ _ _
  | some data => rfl

/-- `BreakPoints`, the plugins and `follow_fork`, which no resume command changes. -/
def Debugger.settled (debugger : Debugger) : (Addr → Option Word) × PluginHelper × Bool :=
  (debugger.breakPoints, debugger.pluginHelper, debugger.followFork)

/-- `Continue` changes nothing of the debugger but the status of its wait. -/
theorem continue_debugger (session : Session) (answer : Resume) :
    (session.continue answer).debugger =
      match answer with
      | .refused => session.debugger
      | .waited status _ => { session.debugger with waitStatus := status } := by
  rw [continue_eq]
  cases answer with
  | refused => rfl
  | waited status process =>
    by_cases trap : isTrap status = true
    · simp only [if_pos trap]
      unfold Session.breakpointHit
      dsimp only
      split <;> rfl
    · simp only [if_neg trap]
      rfl

/-- `Continue` leaves the memory the tracee left, but for the saved word put back at a stop by
signal 5. -/
theorem continue_memory (session : Session) (answer : Resume) :
    (session.continue answer).process.memory =
      match answer.trap with
      | none => answer.memory session.process.memory
      | some process => restored session.debugger.breakPoints process := by
  rw [continue_eq]
  cases answer with
  | refused => rfl
  | waited status process =>
    by_cases trap : isTrap status = true
    · simp only [Resume.trap, if_pos trap, breakpointHit_memory]
      rfl
    · simp only [Resume.trap, if_neg trap]
      rfl

/-- The system call loop changes none of the settled globals. -/
theorem syscallPass_settled (overrun : Word → Option String) (session : Session)
    (answer : Resume) :
    (session.syscallPass overrun answer).1.debugger.settled = session.debugger.settled := by
  cases answer with
  | refused => rfl
  | waited status process =>
    exact syscallPass_keeps Debugger.settled (fun _ _ => rfl) (fun _ _ _ => rfl) session status
      process

/-- No resume command changes the settled globals. -/
theorem handle_settled (overrun : Word → Option String) (command : ResumeCommand)
    (session : Session) (answer : Resume) :
    (command.handle overrun session answer).debugger.settled = session.debugger.settled := by
  cases command with
  | next => rfl
  | contin =>
    change (session.continue answer).debugger.settled = _
    rw [continue_debugger]
    cases answer <;> rfl
  | syscallContin => exact syscallPass_settled overrun session answer
  | straceMode => exact syscallPass_settled overrun session.straceOn answer

/-- No resume command changes `BreakPoints`. -/
theorem handle_breakPoints (overrun : Word → Option String) (command : ResumeCommand)
    (session : Session) (answer : Resume) :
    (command.handle overrun session answer).debugger.breakPoints =
      session.debugger.breakPoints :=
  congrArg Prod.fst (handle_settled overrun command session answer)

namespace Watch

variable {overrun : Word → Option String} (watch : Watch)

/-- The memory after a breakpoint is set. -/
@[simp]
theorem step_set_memory (bpAddr : Addr) :
    (watch.step overrun (.setBreakPoint bpAddr)).memory =
      Tracee.pokeMemory watch.memory bpAddr (instrWord brk) := rfl

/-- The armed addresses after a breakpoint is set. -/
@[simp]
theorem step_set_armed (bpAddr : Addr) :
    (watch.step overrun (.setBreakPoint bpAddr)).armed = watch.arm bpAddr := rfl

/-- The memory after `Continue`. -/
@[simp]
theorem step_contin_memory (answer : Resume) :
    (watch.step overrun (.resume .contin answer)).memory =
      match answer.trap with
      | none => answer.memory watch.memory
      | some process => restored watch.entries process :=
  continue_memory watch.session answer

/-- `BreakPoints` after a resume. -/
@[simp]
theorem step_resume_entries (command : ResumeCommand) (answer : Resume) :
    (watch.step overrun (.resume command answer)).entries = watch.entries :=
  handle_breakPoints overrun command watch.session answer

/-- The armed addresses after `Continue`. -/
@[simp]
theorem step_contin_armed (answer : Resume) :
    (watch.step overrun (.resume .contin answer)).armed = watch.disarm answer := rfl

/-- Arming changes only its own address. -/
theorem arm_other {addr other : Addr} (apart : other ≠ addr) :
    watch.arm addr other = watch.armed other := by
  unfold Watch.arm
  split
  · exact Function.update_of_ne apart _ _
  · rfl

/-- A setting that reaches the tracee arms its address. -/
theorem arm_self {addr : Addr} (mapped : Mapped watch.memory addr 8) :
    watch.arm addr addr = some ((watch.armed addr).getD (instrAt watch.memory addr)) := by
  unfold Watch.arm
  rw [if_pos mapped, Function.update_self]

/-- Any other answer disarms nothing. -/
theorem disarm_of_none {answer : Resume} (quiet : answer.trap = none) :
    watch.disarm answer = watch.armed := by
  unfold disarm
  rw [quiet]

/-- A stop by signal 5 disarms its address. -/
theorem disarm_of_trap {answer : Resume} {process : Tracee} (trap : answer.trap = some process) :
    watch.disarm answer = Function.update watch.armed process.registers.pc none := by
  unfold disarm
  rw [trap]

/-- What is armed after a stop was armed before it. -/
theorem disarm_some {answer : Resume} {addr : Addr} {instr : Instr}
    (armed : watch.disarm answer addr = some instr) : watch.armed addr = some instr := by
  cases trap : answer.trap with
  | none => rwa [watch.disarm_of_none trap] at armed
  | some process =>
    rw [watch.disarm_of_trap trap] at armed
    by_cases here : addr = process.registers.pc
    · rw [here, Function.update_self] at armed
      cases armed
    · rwa [Function.update_of_ne here] at armed

/-- An address is disarmed only by a stop by signal 5 there. -/
theorem disarmed {answer : Resume} {addr : Addr} {instr : Instr}
    (armed : watch.armed addr = some instr) (unarmed : watch.disarm answer addr = none) :
    ∃ process, answer.trap = some process ∧ process.registers.pc = addr := by
  cases trap : answer.trap with
  | none =>
    rw [watch.disarm_of_none trap, armed] at unarmed
    cases unarmed
  | some process =>
    refine ⟨process, rfl, ?_⟩
    by_contra apart
    rw [watch.disarm_of_trap trap, Function.update_of_ne (Ne.symm apart), armed] at unarmed
    cases unarmed

/-- A stop disarms only the address it stops at. -/
theorem disarm_other {answer : Resume} {process : Tracee} {addr : Addr}
    (trap : answer.trap = some process) (apart : addr ≠ process.registers.pc) :
    watch.disarm answer addr = watch.armed addr := by
  rw [watch.disarm_of_trap trap, Function.update_of_ne apart]

/-- What `Continue` can do to memory: nothing, when no stop by signal 5 is at an address with
an entry, or else one write of that entry. -/
theorem step_contin_cases (overrun : Word → Option String) (answer : Resume) :
    ((∀ process, answer.trap = some process → watch.entries process.registers.pc = none) ∧
      (watch.step overrun (.resume .contin answer)).memory = answer.memory watch.memory) ∨
    ∃ process data, answer.trap = some process ∧
      watch.entries process.registers.pc = some data ∧
      (watch.step overrun (.resume .contin answer)).memory =
        Tracee.pokeMemory (answer.memory watch.memory) process.registers.pc data := by
  rw [step_contin_memory]
  cases trap : answer.trap with
  | none => exact .inl ⟨fun _ found => (nomatch found), rfl⟩
  | some process =>
    have same := answer.memory_of_trap watch.memory trap
    cases entry : watch.entries process.registers.pc with
    | none =>
      refine .inl ⟨fun stopped found => Option.some.inj found ▸ entry, ?_⟩
      simp only [restored, entry, same]
    | some data =>
      refine .inr ⟨process, data, rfl, entry, ?_⟩
      simp only [restored, entry, same]

/-- Of a stop at an address with an entry the answer and the table leave no choice. -/
theorem forall_stop_iff {answer : Resume} {process : Tracee} {data : Word}
    (trap : answer.trap = some process) (entry : watch.entries process.registers.pc = some data)
    (due : Tracee → Word → Prop) :
    (∀ stopped word, answer.trap = some stopped →
      watch.entries stopped.registers.pc = some word → due stopped word) ↔ due process data := by
  constructor
  · intro all
    exact all process data trap entry
  · intro here stopped word stop known
    have same : process = stopped := Option.some.inj (trap.symm.trans stop)
    subst same
    have saved : data = word := Option.some.inj (entry.symm.trans known)
    subst saved
    exact here

/-- Where no stop is at an address with an entry, anything is said of such stops. -/
theorem forall_stop_quiet {answer : Resume} (quiet : ∀ process, answer.trap = some process →
    watch.entries process.registers.pc = none) (due : Tracee → Word → Prop) :
    ∀ stopped word, answer.trap = some stopped →
      watch.entries stopped.registers.pc = some word → due stopped word := by
  intro stopped word stop known
  rw [quiet stopped stop] at known
  cases known

/-- Armed addresses have entries. -/
def Entered (watch : Watch) : Prop :=
  ∀ addr instr, watch.armed addr = some instr → ∃ data, watch.entries addr = some data

/-- Every move keeps entries for the armed addresses. -/
theorem entered_step {watch : Watch} (entered : watch.Entered) (move : Move) :
    (watch.step overrun move).Entered := by
  intro addr instr armed
  cases move with
  | setBreakPoint bpAddr =>
    by_cases here : addr = bpAddr
    · subst here
      exact ⟨_, mapInsert_self _ _ _⟩
    · rw [step_set_armed, watch.arm_other here] at armed
      obtain ⟨data, entry⟩ := entered addr instr armed
      exact ⟨data, mapInsert_keeps entry⟩
  | setHwBreakPoint bpAddr bpNum => exact entered addr instr armed
  | resume command answer =>
    rw [step_resume_entries]
    refine entered addr instr ?_
    by_cases contin : command = .contin
    · subst contin
      exact watch.disarm_some armed
    · exact (congrFun (if_neg contin) addr).symm.trans armed
  | rewrite memory => exact entered addr instr armed

/-- Before the first breakpoint nothing is armed. -/
theorem Fresh.entered {watch : Watch} (fresh : watch.Fresh) : watch.Entered :=
  fun addr instr armed => absurd armed (fresh.unarmed addr instr)

/-- An address without an entry is not armed. -/
theorem Entered.unarmed {watch : Watch} (entered : watch.Entered) {addr : Addr}
    (absent : watch.entries addr = none) : watch.armed addr = none := by
  by_contra armed
  obtain ⟨instr, armed⟩ := Option.ne_none_iff_exists'.mp armed
  obtain ⟨data, entry⟩ := entered addr instr armed
  cases absent.symm.trans entry

/-- After its stop the breakpoint of the sample run is not armed. -/
theorem setAndStop_armed (memory : Memory) :
    (after (step overrun) (Watch.start memory) (setAndStop memory)).armed = fun _ => none := by
  change (((Watch.start memory).step overrun (.setBreakPoint 0x1000)).step overrun
    (.resume .contin (.atBreakPoint memory))).armed = _
  rw [step_contin_armed, Resume.atBreakPoint, disarm_of_trap _ (trap_sigTrap _)]
  funext addr
  by_cases here : addr = 0x1000
  · rw [here]
    exact Function.update_self ..
  · exact (Function.update_of_ne here _ _).trans (arm_other _ here)

end Watch

end A64dbg
