import A64dbg.Verif.EndOfInput
import A64dbg.Verif.Restoration

/-!
# Sessions at the prompt

What a user types reaches the tracee through `getCmd` and `issueCommand` only. The table of commands
has no entry for a syscall command, so `prompt_frame` holds over every input: no plugin hook is
called, and of the globals only the status of the wait, `BreakPoints` and the private page ever
change.

A turn of the input loop does one `Deed` or none: a move of a watched session, or an injected system
call. `typed_restored` is the restoration of spaced breakpoints over whole inputs, with unknown
words, repeated commands and injected calls among the breakpoints and the resumes.
-/

namespace A64dbg.PromptRuns

open ByteMemory Runs Tracee SoftwareFrame Restoration EndOfInput

/-- What a turn of the input loop does to the session. -/
inductive Deed where
  /-- Nothing. -/
  | nothing
  /-- A breakpoint, or a resume. -/
  | moves (move : Move)
  /-- An injected `mmap`. -/
  | mmap (answer : Resume)
  /-- An injected `mprotect`. -/
  | mprotect (memAddr memSize memProt : Word) (answer : Resume)

namespace Deed

/-- A deed on a watched session. -/
def apply (overrun : Word → Option String) (watch : Watch) : Deed → Watch
  | .nothing => watch
  | .moves move => watch.step overrun move
  | .mmap answer => { watch with session := watch.session.allocateMemoryInChild answer }
  | .mprotect memAddr memSize memProt answer =>
    { watch with session := watch.session.mprotectMemory memAddr memSize memProt answer }

/-- A deed for the first answer, if there is one. -/
def once (deed : Resume → Deed) : List Resume → Deed
  | [] => .nothing
  | answer :: _ => deed answer

/-- What a command does, by its arguments and the answers it gets. -/
def ofCommand (session : Session) (args : List Text) (answers : List Resume) : CmdType → Deed
  | .next => once (fun answer => .moves (.resume .next answer)) answers
  | .contin => once (fun answer => .moves (.resume .contin answer)) answers
  | .memMmap => once .mmap answers
  | .memMprotect =>
    match args with
    | [memAddr, memSize, memProt] =>
      match Handlers.mprotArgs memAddr memSize memProt with
      | none => .nothing
      | some (memAddr, memSize, memProt) =>
        if memAddr = -1 ∨ memSize = -1 ∨ memProt = -1 then .nothing
        else if session.debugger.connector.refusesMprotect memAddr then .nothing
        else once (.mprotect memAddr memSize memProt) answers
    | _ => .nothing
  | .setBreakpoint =>
    match args with
    | [bpAddr] => (stringToU64 bpAddr).elim .nothing fun bpAddr => .moves (.setBreakPoint bpAddr)
    | _ => .nothing
  | .setHwBreakpoint =>
    match args with
    | [bpAddr, bpNum] =>
      (stringToU64 bpAddr).elim .nothing fun bpAddr =>
        (stringToU64 bpNum).elim .nothing fun bpNum => .moves (.setHwBreakPoint bpAddr bpNum)
    | _ => .nothing
  | _ => .nothing

/-- What a turn does: the deed of the command that its line is taken for. -/
def ofTurn (order : List CmdStruct) (program : Program) (read : Option Text × List Resume) : Deed :=
  match program.phase with
  | .waiting | .over => .nothing
  | .reading =>
    match program.parser.readCmd order (read.1.getD []) with
    | (_, none) => .nothing
    | (parser, some command) => ofCommand program.session parser.cmdArgs read.2 command

end Deed

variable {host : Host} {order : List CmdStruct}

/-- An accepted `mprotectMemory` leaves what its step answered. -/
theorem mprotect_left {session : Session} {memAddr memSize memProt : Word} (answer : Resume)
    (accepts : session.debugger.connector.refusesMprotect memAddr = false) :
    (session.mprotectMemory memAddr memSize memProt answer).process =
      match answer with
      | .refused => session.process.setRegisters (Connector.mprotectRegs session.process.registers
          session.debugger.connector.privateMemory memAddr memSize memProt)
      | .waited status process =>
        if status = -1 then process else process.setRegisters session.process.registers := by
  rw [Connector.refusesMprotect, Bool.or_eq_false_iff, beq_eq_false_iff_ne,
    beq_eq_false_iff_ne] at accepts
  unfold Session.mprotectMemory Session.withProcess Connector.mprotectMemory
  rw [if_neg accepts.1, if_neg accepts.2]
  cases answer with
  | refused => rfl
  | waited status process =>
    by_cases failed : status = -1
    · subst failed
      rfl
    · show (if status = -1 then ((-1 : Word), process) else (process.registers.regs x0,
          process.setRegisters session.process.registers)).2 =
        if status = -1 then process else process.setRegisters session.process.registers
      rw [if_neg failed, if_neg failed]

/-- A refused `mprotect` changes nothing. -/
theorem mprotect_kept {session : Session} {memAddr : Word} (memSize memProt : Word)
    (answer : Resume) (refuses : session.debugger.connector.refusesMprotect memAddr = true) :
    (session.mprotectMemory memAddr memSize memProt answer).process = session.process := by
  rw [Connector.refusesMprotect, Bool.or_eq_true, beq_iff_eq, beq_iff_eq] at refuses
  unfold Session.mprotectMemory Session.withProcess Connector.mprotectMemory
  by_cases absent : session.debugger.connector.privateMemory = -1
  · rw [if_pos absent]
  · rw [if_neg absent, if_pos (refuses.resolve_left absent)]

/-- A command that resumes once does its deed. -/
theorem resumeOnce_deed (session : Session) (command : Resume → Session) (deed : Resume → Deed)
    (answers : List Resume) (armed : Addr → Option Instr)
    (same : ∀ answer,
      command answer = ((deed answer).apply host.overrun ⟨session, armed⟩).session) :
    (resumeOnce command answers).session session =
      ((Deed.once deed answers).apply host.overrun ⟨session, armed⟩).session := by
  cases answers with
  | nil => rfl
  | cons answer rest => exact same answer

/-- **Commands do deeds.** A command of the prompt leaves the session its deed leaves. -/
theorem issue_deed (session : Session) (args : List Text) (answers : List Resume)
    (armed : Addr → Option Instr) {command : CmdType} (prompt : AtPrompt command) :
    (issueCommand host session args answers command).session session =
      ((Deed.ofCommand session args answers command).apply host.overrun
        ⟨session, armed⟩).session := by
  cases command with
  | none | exit | help | showRegs => rfl
  | syscallContin => exact absurd rfl prompt.1
  | straceMode => exact absurd rfl prompt.2
  | next => exact resumeOnce_deed session _ _ answers armed fun _ => rfl
  | contin => exact resumeOnce_deed session _ _ answers armed fun _ => rfl
  | memMmap => exact resumeOnce_deed session _ _ answers armed fun _ => rfl
  | readMemory =>
    simp only [issueCommand, Deed.ofCommand, Deed.apply]
    cases handled : Handlers.readTraceeMemory host session args with
    | none => rfl
    | some after => exact Handlers.readTraceeMemory_keeps handled
  | setBreakpoint =>
    rcases args with _ | ⟨bpAddr, _ | ⟨other, rest⟩⟩
    · rfl
    · simp only [issueCommand, Deed.ofCommand, Handlers.setBreakPoint]
      cases stringToU64 bpAddr with
      | none => rfl
      | some bpAddr => rfl
    · rfl
  | setHwBreakpoint =>
    rcases args with _ | ⟨bpAddr, _ | ⟨bpNum, _ | ⟨other, rest⟩⟩⟩
    · rfl
    · rfl
    · simp only [issueCommand, Deed.ofCommand, Handlers.setHwBreakPoint]
      cases stringToU64 bpAddr with
      | none => rfl
      | some bpAddr =>
        cases stringToU64 bpNum with
        | none => rfl
        | some bpNum => rfl
    · rfl
  | memMprotect =>
    rcases args with _ | ⟨memAddr, _ | ⟨memSize, _ | ⟨memProt, _ | ⟨other, rest⟩⟩⟩⟩
    · rfl
    · rfl
    · rfl
    · simp only [issueCommand, Deed.ofCommand, Handlers.mprotMem]
      cases Handlers.mprotArgs memAddr memSize memProt with
      | none => rfl
      | some parsed =>
        obtain ⟨memAddr, memSize, memProt⟩ := parsed
        dsimp only
        by_cases minusOne : memAddr = -1 ∨ memSize = -1 ∨ memProt = -1
        · rw [if_pos minusOne, if_pos minusOne]
          rfl
        · rw [if_neg minusOne, if_neg minusOne]
          cases session.debugger.connector.refusesMprotect memAddr with
          | true => rfl
          | false => exact resumeOnce_deed session _ _ answers armed fun _ => rfl
    · rfl

/-- The command a line is taken for is one of the prompt, when the last one is. -/
theorem readCmd_prompt (perm : order.Perm commands) {parser after : CmdParser} {line : Text}
    {command : CmdType} (last : AtPrompt parser.lastCommand)
    (read : parser.readCmd order line = (after, some command)) :
    AtPrompt command ∧ after.lastCommand = command := by
  rcases readCmd_cases perm parser line with
    ⟨cs, taken, accepted⟩ | ⟨-, unknown | ⟨-, repeated⟩⟩
  · rw [accepted, Prod.mk.injEq, Option.some.injEq] at read
    obtain ⟨rfl, rfl⟩ := read
    exact ⟨commands_prompt cs (find_mem perm taken).1, rfl⟩
  · rw [unknown, Prod.mk.injEq] at read
    cases read.2
  · rw [repeated, Prod.mk.injEq, Option.some.injEq] at read
    obtain ⟨rfl, rfl⟩ := read
    exact ⟨last, rfl⟩

/-- A line that is no command leaves the parser as it was. -/
theorem readCmd_none (perm : order.Perm commands) {parser after : CmdParser} {line : Text}
    (read : parser.readCmd order line = (after, none)) : after = parser := by
  rcases readCmd_cases perm parser line with
    ⟨cs, taken, accepted⟩ | ⟨-, unknown | ⟨-, repeated⟩⟩
  · rw [accepted, Prod.mk.injEq] at read
    cases read.2
  · rw [unknown, Prod.mk.injEq] at read
    exact read.1.symm
  · rw [repeated, Prod.mk.injEq] at read
    cases read.2

/-- Every command of a program, also the one it would repeat, is one of the prompt. -/
structure Prompted (program : Program) : Prop where
  /-- The last one. -/
  last : AtPrompt program.parser.lastCommand
  /-- Those dispatched. -/
  dispatched : ∀ command ∈ program.dispatched, AtPrompt command

/-- **A turn does its deed**, and its command is one of the prompt. -/
theorem turn_deed (perm : order.Perm commands) {program : Program} (prompted : Prompted program)
    (read : Option Text × List Resume) (armed : Addr → Option Instr) :
    Prompted (program.turn host order read) ∧
      (program.turn host order read).session =
        ((Deed.ofTurn order program read).apply host.overrun ⟨program.session, armed⟩).session := by
  match phase : program.phase with
  | .waiting | .over =>
    simp only [Program.turn, Deed.ofTurn, phase]
    exact ⟨prompted, rfl⟩
  | .reading =>
    obtain ⟨parser, found⟩ : ∃ parser, ∃ command,
        program.parser.readCmd order (read.1.getD []) = (parser, command) := ⟨_, _, rfl⟩
    obtain ⟨command, taken⟩ := found
    cases command with
    | none =>
      have same := readCmd_none perm taken
      simp only [Program.turn, Deed.ofTurn, phase, taken]
      exact ⟨⟨same ▸ prompted.last, prompted.dispatched⟩, rfl⟩
    | some command =>
      obtain ⟨prompt, last⟩ := readCmd_prompt perm prompted.last taken
      simp only [Program.turn, Deed.ofTurn, phase, taken]
      constructor
      · constructor
        · show AtPrompt parser.lastCommand
          rw [last]
          exact prompt
        · intro other inside
          have either : other ∈ program.dispatched ++ [command] := inside
          rw [List.mem_append, List.mem_singleton] at either
          cases either with
          | inl before => exact prompted.dispatched other before
          | inr now => exact now ▸ prompt
      · exact issue_deed program.session parser.cmdArgs read.2 armed prompt

/-- The deed of a line that is taken for a command. -/
theorem ofTurn_taken {program : Program} (phase : program.phase = .reading)
    {read : Option Text × List Resume} {parser : CmdParser} {command : CmdType}
    (taken : program.parser.readCmd order (read.1.getD []) = (parser, some command)) :
    Deed.ofTurn order program read =
      Deed.ofCommand program.session parser.cmdArgs read.2 command := by
  simp only [Deed.ofTurn, phase, taken]

/-- A program at its start has no command. -/
theorem start_prompted (session : Session) : Prompted (Program.start session) := by
  constructor
  · show AtPrompt .none
    simp [AtPrompt]
  · intro command inside
    cases inside

/-- The globals with another status of the wait, other `BreakPoints` and another private page. -/
def changed (debugger : Debugger) (status : WaitStatus) (entries : Addr → Option Word)
    (page : Word) : Debugger :=
  { debugger with
    waitStatus := status
    breakPoints := entries
    connector := { debugger.connector with privateMemory := page } }

/-- No plugin hook was called, and of the globals only the status of the wait, `BreakPoints` and
the private page changed. -/
def Framed (start now : Session) : Prop :=
  now.calls = start.calls ∧ ∃ status entries page,
    now.debugger = changed start.debugger status entries page

/-- A deed of the prompt: it resumes by `NEXT` and `CONTIN` only. -/
def Deed.plain : Deed → Prop
  | .moves (.resume command _) => command = .next ∨ command = .contin
  | _ => True

/-- A deed for the first answer is what each is. -/
theorem once_plain {deed : Resume → Deed} (plain : ∀ answer, (deed answer).plain)
    (answers : List Resume) : (Deed.once deed answers).plain := by
  cases answers with
  | nil => trivial
  | cons answer rest => exact plain answer

/-- The deeds of commands are deeds of the prompt. -/
theorem ofCommand_plain (session : Session) (args : List Text) (answers : List Resume)
    (command : CmdType) : (Deed.ofCommand session args answers command).plain := by
  have next (answer : Resume) : (Deed.moves (.resume .next answer)).plain := Or.inl rfl
  have contin (answer : Resume) : (Deed.moves (.resume .contin answer)).plain := Or.inr rfl
  cases command with
  | next => exact once_plain next answers
  | contin => exact once_plain contin answers
  | memMmap => exact @once_plain Deed.mmap (fun _ => trivial) answers
  | memMprotect =>
    match args with
    | [] | [_] | [_, _] | _ :: _ :: _ :: _ :: _ => trivial
    | [memAddr, memSize, memProt] =>
      simp only [Deed.ofCommand]
      cases Handlers.mprotArgs memAddr memSize memProt with
      | none => trivial
      | some parsed =>
        obtain ⟨memAddr, memSize, memProt⟩ := parsed
        dsimp only
        split
        · trivial
        · split
          · trivial
          · exact @once_plain (Deed.mprotect memAddr memSize memProt) (fun _ => trivial) answers
  | setBreakpoint =>
    match args with
    | [] | _ :: _ :: _ => trivial
    | [bpAddr] =>
      simp only [Deed.ofCommand]
      cases stringToU64 bpAddr with
      | none => trivial
      | some bpAddr => trivial
  | setHwBreakpoint =>
    match args with
    | [] | [_] | _ :: _ :: _ :: _ => trivial
    | [bpAddr, bpNum] =>
      simp only [Deed.ofCommand]
      cases stringToU64 bpAddr with
      | none => trivial
      | some bpAddr =>
        cases stringToU64 bpNum with
        | none => trivial
        | some bpNum => trivial
  | none | exit | help | showRegs | syscallContin | readMemory | straceMode => trivial

/-- The deeds of turns are deeds of the prompt. -/
theorem ofTurn_plain (order : List CmdStruct) (program : Program)
    (read : Option Text × List Resume) : (Deed.ofTurn order program read).plain := by
  unfold Deed.ofTurn
  split
  · trivial
  · trivial
  · split
    · trivial
    · exact ofCommand_plain _ _ _ _

/-- `Continue` calls no plugin hook. -/
theorem continue_calls (session : Session) (answer : Resume) :
    (session.continue answer).calls = session.calls := by
  rw [continue_eq]
  cases answer with
  | refused => rfl
  | waited status process =>
    by_cases trap : isTrap status = true
    · simp only [if_pos trap, Session.breakpointHit]
      split <;> rfl
    · simp only [if_neg trap]
      rfl

/-- A deed of the prompt keeps the frame. -/
theorem apply_framed (overrun : Word → Option String) {start : Session} {watch : Watch}
    (framed : Framed start watch.session) {deed : Deed} (plain : deed.plain) :
    Framed start (deed.apply overrun watch).session := by
  obtain ⟨calls, status, entries, page, globals⟩ := framed
  have waited (reported : WaitStatus) :
      { watch.session.debugger with waitStatus := reported } =
        changed start.debugger reported entries page := by
    rw [globals]
    rfl
  have mapped (address : Word) :
      { watch.session.debugger with
        connector := { watch.session.debugger.connector with privateMemory := address } } =
        changed start.debugger status entries address := by
    rw [globals]
    rfl
  cases deed with
  | nothing => exact ⟨calls, status, entries, page, globals⟩
  | moves move =>
    cases move with
    | setBreakPoint bpAddr =>
      refine ⟨calls, status, mapInsert entries bpAddr (watch.session.process.peekText bpAddr),
        page, ?_⟩
      simp only [Deed.apply, Watch.step, Session.setBreakPoint, globals]
      rfl
    | setHwBreakPoint bpAddr bpNum => exact ⟨calls, status, entries, page, globals⟩
    | rewrite memory => exact ⟨calls, status, entries, page, globals⟩
    | resume command answer =>
      rcases plain with rfl | rfl
      · exact ⟨calls, _, entries, page, waited _⟩
      · have debugger := continue_debugger watch.session answer
        refine ⟨(continue_calls watch.session answer).trans calls, ?_⟩
        cases answer with
        | refused => exact ⟨status, entries, page, debugger.trans globals⟩
        | waited reported process =>
          exact ⟨reported, entries, page, debugger.trans (waited reported)⟩
  | mmap answer =>
    refine ⟨calls, ?_⟩
    simp only [Deed.apply, Session.allocateMemoryInChild, Connector.allocateMemoryInChild]
    split
    · exact ⟨status, entries, page, globals⟩
    · exact ⟨status, entries, _, mapped _⟩
  | mprotect memAddr memSize memProt answer => exact ⟨calls, status, entries, page, globals⟩

/-- A program of the prompt whose session keeps the frame. -/
def Kept (start : Session) (program : Program) : Prop :=
  Prompted program ∧ Framed start program.session

/-- **A run keeps the frame.** -/
theorem run_kept (host : Host) {order : List CmdStruct} (perm : order.Perm commands)
    (session : Session) (reads : List (Option Text × List Resume)) :
    Kept session (after (Program.turn host order) (Program.start session) reads) := by
  have run := @along_true _ _ (Program.turn host order) (Program.start session) reads
  apply run.keeps
  · exact ⟨start_prompted session, rfl, _, _, _, rfl⟩
  · intro program read kept _
    obtain ⟨prompted, left⟩ := turn_deed perm kept.1 read fun _ => none
    refine ⟨prompted, ?_⟩
    rw [left]
    exact @apply_framed host.overrun _ ⟨program.session, _⟩ kept.2 _
      (ofTurn_plain order program read)

/-- **What the prompt can reach.** Over every input, any lines with any answers of the kernel and
any number of reads at its end, no plugin hook is called, neither syscall command is dispatched,
and of the globals only the status of the wait, `BreakPoints` and the private page change: the
target, `strace_mode`, `syscall_enter` and `follow_fork` stay. -/
theorem prompt_frame (host : Host) {order : List CmdStruct} (perm : order.Perm commands)
    (session : Session) (reads : List (Option Text × List Resume)) :
    Framed session (after (Program.turn host order) (Program.start session) reads).session ∧
      ∀ command ∈ (after (Program.turn host order) (Program.start session) reads).dispatched,
        AtPrompt command := by
  have kept := run_kept host perm session reads
  exact ⟨kept.2, kept.1.dispatched⟩

/-- A step after which the tracee is stopped again. -/
def nextLine : Option Text × List Resume := (some ['n'], stopsAgain)

/-- A step at the first prompt keeps the frame. -/
theorem prompt_frame_next :
    Framed firstPrompt
      (after (Program.turn plainHost commands) (Program.start firstPrompt) [nextLine]).session ∧
      ∀ command ∈ (after (Program.turn plainHost commands) (Program.start firstPrompt)
        [nextLine]).dispatched, AtPrompt command :=
  prompt_frame plainHost (List.Perm.refl commands) firstPrompt [nextLine]

section Restoration

variable {text sites : Addr → Prop} {original : Memory}

/-- The step of an injected `mmap` runs the instruction that was put there and nothing else: it
keeps the text, unmaps nothing, and what it maps is no text. -/
structure Injects (text : Addr → Prop) (watch : Watch) (answer : Resume) : Prop where
  /-- There is a word for the instruction. -/
  placed : Mapped watch.memory watch.session.process.registers.pc 8
  /-- It keeps the text. -/
  bytes : ∀ addr, text addr → answer.memory watch.memory addr =
    pokeMemory watch.memory watch.session.process.registers.pc (instrWord svc) addr
  /-- No word was unmapped. -/
  mapped : ∀ addr, Mapped watch.memory addr 8 → Mapped (answer.memory watch.memory) addr 8
  /-- The step was made, and what it maps is no text. -/
  fresh : ∃ status process, answer = .waited status process ∧ status ≠ -1 ∧
    ∀ index < 8, ¬text (above (process.registers.regs x0) index)

/-- A tracee that keeps its text, breakpoints at the sites, and calls that are injected. -/
def Honest (text sites : Addr → Prop) (watch : Watch) : Deed → Prop
  | .moves (.setBreakPoint bpAddr) => sites bpAddr ∧ Mapped watch.memory bpAddr 8
  | .moves (.resume _ answer) => KeepsText text watch answer
  | .mmap answer => Injects text watch answer
  | .mprotect _ _ _ answer => KeepsText text watch answer
  | .moves (.rewrite _) => False
  | .nothing | .moves (.setHwBreakPoint _ _) => True

/-- A session with the same entries, the same text and the words of its entries mapped is
restorable, too. -/
theorem restorable_same {watch : Watch} (restorable : Restorable text sites original watch)
    {session : Session} (entries : session.debugger.breakPoints = watch.entries)
    (bytes : ∀ addr, text addr → session.process.memory addr = watch.memory addr)
    (mapped : ∀ addr data, watch.entries addr = some data → Mapped watch.memory addr 8 →
      Mapped session.process.memory addr 8) :
    Restorable text sites original ⟨session, watch.armed⟩ := by
  have same : (⟨session, watch.armed⟩ : Watch).entries = watch.entries := entries
  constructor
  · intro addr instr inside
    rw [same]
    exact restorable.armed addr instr inside
  · rw [same]
    exact restorable.site
  · intro addr data entry
    rw [same] at entry
    exact mapped addr data entry (restorable.mapped addr data entry)
  · rw [same]
    exact restorable.saved
  · exact restorable.patched.congr bytes fun _ => Iff.rfl

/-- Bytes outside a word that is written stay. -/
theorem poke_elsewhere {memory : Memory} {base address : Addr} (data : Word)
    (outside : ∀ index < 8, address ≠ above base index) :
    pokeMemory memory base data address = memory address := by
  by_cases mapped : Mapped memory base 8
  · rw [pokeMemory_mapped data mapped]
    apply store_apart
    by_contra inside
    have small : offset base address < 8 := by omega
    exact outside _ small (above_offset base address).symm
  · rw [pokeMemory_unmapped data mapped]

/-- An injected `mmap` that was made leaves the text as it was. -/
theorem mmap_memory {watch : Watch} {answer : Resume} (injects : Injects text watch answer) :
    (∀ addr, text addr →
      (watch.session.allocateMemoryInChild answer).process.memory addr = watch.memory addr) ∧
    ∀ addr, Mapped watch.memory addr 8 →
      Mapped (watch.session.allocateMemoryInChild answer).process.memory addr 8 := by
  obtain ⟨status, process, rfl, made, fresh⟩ := injects.fresh
  let pc := watch.session.process.registers.pc
  let orig := watch.session.process.peekText pc
  have left : (watch.session.allocateMemoryInChild (.waited status process)).process.memory =
      pokeMemory (pokeMemory process.memory pc orig) (process.registers.regs x0)
        (instrWord svc) := by
    simp only [Session.allocateMemoryInChild, Connector.allocateMemoryInChild,
      Connector.doSingleStep, made, if_false]
    rfl
  rw [left]
  constructor
  · intro addr inside
    have notPrivate : ∀ index < 8, addr ≠ above (process.registers.regs x0) index := by
      rintro index small rfl
      exact fresh index small inside
    have stepped : process.memory addr = pokeMemory watch.memory pc (instrWord svc) addr :=
      injects.bytes addr inside
    rw [poke_elsewhere _ notPrivate]
    have kept : Mapped process.memory pc 8 := injects.mapped pc injects.placed
    rw [pokeMemory_mapped _ kept]
    by_cases here : offset pc addr < 8
    · rw [← above_offset pc addr, store_at _ _ _ here (by decide)]
      exact (peekText_holds injects.placed _ here).symm
    · have outside : 8 ≤ offset pc addr := Nat.le_of_not_lt here
      rw [store_apart _ _ _ outside, stepped, pokeMemory_mapped _ injects.placed,
        store_apart _ _ _ outside]
  · intro addr mapped
    exact mapped_poke _ (mapped_poke _ (injects.mapped addr mapped))

/-- An injected `mprotect` leaves the memory its step leaves. -/
theorem mprotect_memory (session : Session) (memAddr memSize memProt : Word) (answer : Resume) :
    (session.mprotectMemory memAddr memSize memProt answer).process.memory =
      session.process.memory ∨
    (session.mprotectMemory memAddr memSize memProt answer).process.memory =
      answer.memory session.process.memory := by
  cases refuses : session.debugger.connector.refusesMprotect memAddr with
  | true =>
    rw [mprotect_kept memSize memProt answer refuses]
    exact Or.inl rfl
  | false =>
    rw [mprotect_left answer refuses]
    cases answer with
    | refused => exact Or.inl rfl
    | waited status process =>
      dsimp only
      by_cases failed : status = -1
      · rw [if_pos failed]
        exact Or.inr rfl
      · rw [if_neg failed]
        exact Or.inr rfl

/-- Setting a hardware breakpoint leaves the memory. -/
theorem setHwBreakPoint_memory (session : Session) (bpAddr bpNum : Word) :
    (session.setHwBreakPoint bpAddr bpNum).process.memory = session.process.memory := by
  simp only [Session.setHwBreakPoint, Session.withProcess, Connector.setHwBreakpoint,
    Tracee.setHwRegset]
  split
  · rfl
  · split
    · rfl
    · rfl

/-- **A deed of an honest turn** keeps the tracee restorable. -/
theorem restorable_deed (overrun : Word → Option String) {watch : Watch} {deed : Deed}
    (restorable : Restorable text sites original watch)
    (spaced : ∀ left right, sites left → sites right → Spaced left right) (plain : deed.plain)
    (honest : Honest text sites watch deed) :
    Restorable text sites original (deed.apply overrun watch) := by
  cases deed with
  | nothing => exact restorable
  | moves move =>
    cases move with
    | setBreakPoint bpAddr =>
      exact @restorable_set overrun _ _ _ _ _ restorable spaced honest.1 honest.2
    | setHwBreakPoint bpAddr bpNum =>
      have memory := setHwBreakPoint_memory watch.session bpAddr bpNum
      exact restorable_same restorable rfl (fun addr _ => congrFun memory addr)
        fun addr _ _ mapped => memory.symm ▸ mapped
    | rewrite memory => exact honest.elim
    | resume command answer =>
      rcases plain with rfl | rfl
      · have memory : (watch.session.next answer).process.memory = answer.memory watch.memory := by
          cases answer <;> rfl
        exact restorable_same restorable rfl
          (fun addr inside => (congrFun memory addr).trans (honest.bytes addr inside))
          fun addr data entry mapped => memory.symm ▸ honest.mapped addr data entry mapped
      · exact restorable_contin restorable spaced honest
  | mmap answer =>
    obtain ⟨bytes, mapped⟩ := mmap_memory honest
    exact restorable_same restorable rfl bytes fun addr _ _ inside => mapped addr inside
  | mprotect memAddr memSize memProt answer =>
    rcases mprotect_memory watch.session memAddr memSize memProt answer with same | stepped
    · exact restorable_same restorable rfl (fun addr _ => congrFun same addr)
        fun addr _ _ mapped => same.symm ▸ mapped
    · exact restorable_same restorable rfl
        (fun addr inside => (congrFun stepped addr).trans (honest.bytes addr inside))
        fun addr data entry mapped => stepped.symm ▸ honest.mapped addr data entry mapped

/-- The program and the addresses that are armed. -/
structure Desk where
  /-- The program. -/
  program : Program
  /-- The instruction replaced at each armed address. -/
  armed : Addr → Option Instr

namespace Desk

/-- The session as it is watched. -/
def watch (desk : Desk) : Watch := ⟨desk.program.session, desk.armed⟩

/-- What the next read makes the program do. -/
def deed (order : List CmdStruct) (desk : Desk) (read : Option Text × List Resume) : Deed :=
  Deed.ofTurn order desk.program read

/-- A turn, and what it arms and disarms. -/
def turn (host : Host) (order : List CmdStruct) (desk : Desk) (read : Option Text × List Resume) :
    Desk where
  program := desk.program.turn host order read
  armed := ((desk.deed order read).apply host.overrun desk.watch).armed

/-- A program at its start, with nothing armed. -/
def start (session : Session) : Desk := ⟨Program.start session, fun _ => none⟩

end Desk

/-- A program of the prompt whose tracee is restorable. -/
def RestorableDesk (text sites : Addr → Prop) (original : Memory) (desk : Desk) : Prop :=
  Prompted desk.program ∧ Restorable text sites original desk.watch

/-- **Restoration over whole inputs.** Over every input typed at the prompt, any lines with any
words, repetitions and injected calls among them, where the tracee keeps its text and the addresses
of the breakpoints are equal or eight bytes apart, the text is original in every state but for the
word `00000000D4200000` at each armed address. -/
theorem typed_restored {host : Host} {order : List CmdStruct} (perm : order.Perm commands)
    {session : Session} (unset : session.debugger.breakPoints = fun _ => none)
    (spaced : ∀ left right, sites left → sites right → Spaced left right)
    {reads : List (Option Text × List Resume)}
    (honest : Along (Desk.turn host order)
      (fun desk read => Honest text sites desk.watch (desk.deed order read))
      (Desk.start session) reads) :
    Throughout (Desk.turn host order)
      (fun desk =>
        Patched text session.process.memory (fun addr => desk.armed addr ≠ none) 8
          (0x00000000D4200000 : Word) desk.program.session.process.memory ∧
        ((∀ addr, desk.armed addr = none) → ∀ addr, text addr →
          desk.program.session.process.memory addr = session.process.memory addr))
      (Desk.start session) reads := by
  intro reached initial
  have along := honest.initial initial
  have fresh : (Desk.start session).watch.Fresh := ⟨unset, rfl⟩
  have kept : RestorableDesk text sites session.process.memory
      (after (Desk.turn host order) (Desk.start session) reached) := by
    apply along.keeps
    · exact ⟨start_prompted session, restorable_fresh fresh⟩
    · intro desk read kept honest
      obtain ⟨prompted, left⟩ := turn_deed perm kept.1 read desk.armed
      refine ⟨prompted, ?_⟩
      have watched : (desk.turn host order read).watch =
          (desk.deed order read).apply host.overrun desk.watch := by
        rw [Desk.watch, Desk.turn, left]
        rfl
      rw [watched]
      exact restorable_deed host.overrun kept.2 spaced (ofTurn_plain order desk.program read) honest
  constructor
  · exact kept.2.patched
  · intro none addr inside
    apply kept.2.patched.eq_original _ inside
    intro site armed
    exact armed (none site)

/-- A breakpoint is typed, and the tracee stops there. -/
def typedOnce : List (Option Text × List Resume) :=
  [(some ['b', 'p', ' ', '0', 'x', '1', '0', '0', '0'], []), (some ['c'], [.atBreakPoint nops])]

/-- The first line of the sample is read as `setBreakpoint` with its address. -/
theorem typedOnce_read :
    CmdParser.initial.readCmd commands ['b', 'p', ' ', '0', 'x', '1', '0', '0', '0'] =
      (⟨.setBreakpoint, [['0', 'x', '1', '0', '0', '0']]⟩, some .setBreakpoint) := by
  have words : splitString ['b', 'p', ' ', '0', 'x', '1', '0', '0', '0'] ' ' =
      [['b', 'p'], ['0', 'x', '1', '0', '0', '0']] := by decide +kernel
  simp [CmdParser.readCmd, CmdParser.parseCommand, commands, CmdStruct.hasMatch,
    CmdParser.initial, CmdParser.parseArgs, words]

/-- The desk between its lines. -/
def typedHalf : Desk where
  program := ⟨⟨.setBreakpoint, [['0', 'x', '1', '0', '0', '0']]⟩, firstPrompt.setBreakPoint 0x1000,
    [.setBreakpoint], .reading⟩
  armed := (Watch.start nops).arm 0x1000

/-- The first line of the sample sets its breakpoint. -/
theorem typedOnce_first :
    (Desk.start firstPrompt).deed commands typedOnce[0] = .moves (.setBreakPoint 0x1000) ∧
      (Desk.start firstPrompt).turn plainHost commands typedOnce[0] = typedHalf := by
  have address : stringToU64 ['0', 'x', '1', '0', '0', '0'] = some 0x1000 := by decide +kernel
  have deed : (Desk.start firstPrompt).deed commands typedOnce[0] =
      .moves (.setBreakPoint 0x1000) := by
    show Deed.ofTurn commands (Program.start firstPrompt) typedOnce[0] = _
    rw [@ofTurn_taken commands (Program.start firstPrompt) rfl typedOnce[0] _ _ typedOnce_read]
    simp [Deed.ofCommand, address]
  have program : (Program.start firstPrompt).turn plainHost commands typedOnce[0] =
      typedHalf.program := by
    rw [@turn_command plainHost commands (Program.start firstPrompt) typedOnce[0] _ _ rfl
      typedOnce_read]
    simp only [Program.dispatch, issueCommand, Handlers.setBreakPoint, address, Option.map_some]
    rfl
  refine ⟨deed, ?_⟩
  rw [Desk.turn, deed]
  show (⟨(Program.start firstPrompt).turn plainHost commands typedOnce[0], _⟩ : Desk) = _
  rw [program]
  rfl

/-- One breakpoint set and hit leaves the `nop`s. -/
theorem typed_restored_once :
    (after (Desk.turn plainHost commands) (Desk.start firstPrompt)
      typedOnce).program.session.process.memory = nops := by
  obtain ⟨first, half⟩ := typedOnce_first
  have second : typedHalf.deed commands typedOnce[1] =
      .moves (.resume .contin (.atBreakPoint nops)) := by
    have read : typedHalf.program.parser.readCmd commands ['c'] =
        (⟨.contin, [['0', 'x', '1', '0', '0', '0']]⟩, some .contin) := by
      simp [typedHalf, CmdParser.readCmd, CmdParser.parseCommand, commands, CmdStruct.hasMatch,
        readMemoryEntry, readRegistersEntry]
    exact @ofTurn_taken commands typedHalf.program rfl typedOnce[1] _ _ read
  have honest : Along (Desk.turn plainHost commands)
      (fun desk read => Honest (fun _ => True) (· = 0x1000) desk.watch (desk.deed commands read))
      (Desk.start firstPrompt) typedOnce := by
    have mapped : Mapped nops 0x1000 8 := by decide
    refine ⟨?_, ?_, trivial⟩
    · show Honest _ _ _ ((Desk.start firstPrompt).deed commands typedOnce[0])
      rw [first]
      exact ⟨rfl, mapped⟩
    · show Honest _ _ ((Desk.start firstPrompt).turn plainHost commands typedOnce[0]).watch
        (((Desk.start firstPrompt).turn plainHost commands typedOnce[0]).deed commands typedOnce[1])
      rw [half, second]
      exact setAndStop_keepsText nops
  obtain ⟨-, clean⟩ := typed_restored (List.Perm.refl commands) rfl
    (fun left right isLeft isRight => Or.inl (isLeft.trans isRight.symm)) honest _
    (List.prefix_refl _)
  have disarmed : (after (Desk.turn plainHost commands) (Desk.start firstPrompt) typedOnce).armed =
      fun _ => none := by
    show (((Desk.start firstPrompt).turn plainHost commands typedOnce[0]).turn plainHost commands
      typedOnce[1]).armed = _
    rw [half, Desk.turn, second]
    exact @Watch.setAndStop_armed plainHost.overrun nops
  funext addr
  exact clean (congrFun disarmed) addr trivial

end Restoration

end A64dbg.PromptRuns
