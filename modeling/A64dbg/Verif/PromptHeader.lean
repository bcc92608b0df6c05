import A64dbg.Header
import A64dbg.Library.Streams
import A64dbg.Verif.PromptRuns
import A64dbg.Verif.RegsMapText

/-!
# The header tells the truth

A header tells where the tracee is and which instruction is there. It may come out wrong: the
debugger reads eight bytes for an instruction of four, and takes a failed read for the instruction.
And it may go stale: not all of the commands behind which `main` prints no header leave what it
tells, as a software breakpoint may be set on the instruction at `pc`, and the step of an injected
`mprotect` may fail or change that instruction. `typed_header` says of every input that the last
header on the screen tells the truth at every prompt exactly when neither happens at any of them.
-/

namespace A64dbg.PromptHeader

open ByteMemory Runs Tracee Fields Output RegsMapText EndOfInput PromptRuns

/-- The instruction at an address as the debugger reads it. -/
def instrRead (process : Tracee) (address : Addr) : Instr := lowInstr (process.peekText address)

/-- The instruction in memory at an address, or all ones where none is mapped. -/
def instruction (memory : Memory) (address : Addr) : Instr :=
  if Mapped memory address 4 then instrAt memory address else -1

/-- What a header tells, by its labels. -/
def told (pc sp : Word) (instr : Instr) : List (Text × Nat) :=
  [(['p', 'c'], pc.toNat), (['s', 'p'], sp.toNat), (['i', 'n', 's', 't', 'r'], instr.toNat)]

/-- What a header shows for a process. -/
def shown (process : Tracee) : List (Text × Nat) :=
  told process.registers.pc process.registers.sp (instrRead process process.registers.pc)

/-- Where a process is, and the instruction it executes next. -/
def place (process : Tracee) : List (Text × Nat) :=
  told process.registers.pc process.registers.sp
    (instruction process.memory process.registers.pc)

/-- A header tells three numbers, and each of them whole. -/
theorem told_iff (pc sp pc' sp' : Word) (instr instr' : Instr) :
    told pc sp instr = told pc' sp' instr' ↔ pc = pc' ∧ sp = sp' ∧ instr = instr' := by
  simp only [told, List.cons.injEq, Prod.mk.injEq, true_and, and_true, BitVec.toNat_inj]

/-- The eight bytes that the debugger reads at `pc` are mapped if the four of the instruction are,
or the instruction itself is all ones. -/
def Whole (process : Tracee) : Prop :=
  Mapped process.memory process.registers.pc 4 → ¬Mapped process.memory process.registers.pc 8 →
    instrAt process.memory process.registers.pc = -1

/-- The first four bytes of eight mapped ones are mapped. -/
theorem mapped_half {memory : Memory} {address : Addr} (mapped : Mapped memory address 8) :
    Mapped memory address 4 := by
  have part : Mapped memory (above address 0) 4 := mapped.part 0 4 (by decide) (by decide)
  rwa [above_zero] at part

/-- **A header shows where the process is** exactly when the debugger can read its instruction. -/
theorem shown_iff_whole (process : Tracee) : shown process = place process ↔ Whole process := by
  let pc := process.registers.pc
  have same : shown process = place process ↔ instrRead process pc =
      instruction process.memory pc := by
    unfold shown place
    rw [told_iff]
    exact ⟨fun both => both.2.2, fun instr => ⟨rfl, rfl, instr⟩⟩
  rw [same]
  unfold Whole
  by_cases long : Mapped process.memory pc 8
  · have held : Holds process.memory pc 4 (instrRead process pc) := peekText_low long
    have read : instrRead process pc = instruction process.memory pc := by
      rw [instruction, if_pos (mapped_half long)]
      exact held.load_eq.symm
    exact iff_of_true read fun _ short => absurd long short
  · have failed : instrRead process pc = -1 := by
      unfold instrRead peekText
      rw [if_neg long]
      decide
    rw [failed, imp_iff_right long]
    unfold instruction
    by_cases there : Mapped process.memory pc 4
    · rw [if_pos there, imp_iff_right there, eq_comm]
    · rw [if_neg there]
      exact iff_of_true rfl fun here => absurd here there

/-- The letters of a process id are no separators. -/
theorem signedDecimal_letters (value : BitVec 32) :
    ∀ letter ∈ signedDecimal value, parts letter = false := by
  have digits (number : Nat) : ∀ letter ∈ decimal number, parts letter = false :=
    (decimal_word number).2
  intro letter inside
  unfold signedDecimal at inside
  split at inside
  · rw [List.mem_cons] at inside
    rcases inside with rfl | digit
    · decide
    · exact digits _ letter digit
  · exact digits _ letter inside

/-- A process id in its brackets is a word. -/
theorem pid_word (value : BitVec 32) : Token ('(' :: (signedDecimal value ++ [')'])) := by
  constructor
  · exact List.cons_ne_nil _ _
  · intro letter inside
    rw [List.mem_cons, List.mem_append, List.mem_singleton] at inside
    rcases inside with rfl | digit | rfl
    · decide
    · exact signedDecimal_letters value letter digit
    · decide

/-- A header is its fields with blanks and colons between them. -/
theorem header_shape (connector : Connector) (process : Tracee) :
    printCmdHeader connector process =
      ['[', '+', ']'] ++ ' ' :: (('(' :: (signedDecimal connector.tracee ++ [')'])) ++ ' ' ::
        (['p', 'c'] ++ ':' :: ' ' :: (('0' :: 'x' :: hex 8 process.registers.pc.toNat) ++ ' ' ::
        (['s', 'p'] ++ ':' :: ' ' :: (('0' :: 'x' :: hex 8 process.registers.sp.toNat) ++ ' ' ::
        (['i', 'n', 's', 't', 'r'] ++ ':' :: ' ' ::
          (('0' :: 'x' :: hex 4 (instrRead process process.registers.pc).toNat) ++
            '\n' :: []))))))) := by
  have front : "[+] (".toList = ['[', '+', ']', ' ', '('] := rfl
  have pc : ") pc: 0x".toList = [')', ' ', 'p', 'c', ':', ' ', '0', 'x'] := rfl
  have sp : " sp: 0x".toList = [' ', 's', 'p', ':', ' ', '0', 'x'] := rfl
  have instr : " instr: 0x".toList = [' ', 'i', 'n', 's', 't', 'r', ':', ' ', '0', 'x'] := rfl
  have ending : "\n".toList = ['\n'] := rfl
  unfold printCmdHeader
  rw [front, pc, sp, instr, ending]
  simp only [List.append_assoc, List.cons_append, List.nil_append]
  rfl

/-- **The values of a header are read back from its text.** -/
theorem header_read (connector : Connector) (process : Tracee) :
    RegsMapText.read (printCmdHeader connector process) = shown process := by
  have space : parts ' ' = true := by decide
  have colon : parts ':' = true := by decide
  have newline : parts '\n' = true := by decide
  have mark : Token ['[', '+', ']'] := by simp [Token, parts]
  have pcLabel : Token ['p', 'c'] := by simp [Token, parts]
  have spLabel : Token ['s', 'p'] := by simp [Token, parts]
  have instrLabel : Token ['i', 'n', 's', 't', 'r'] := by simp [Token, parts]
  have pid := pid_word connector.tracee
  have value (width number : Nat) : Token ('0' :: 'x' :: hex width number) := hex_word width number
  have plain : ('(' :: (signedDecimal connector.tracee ++ [')'])).take 2 ≠ ['0', 'x'] := by
    simp
  rw [RegsMapText.read, header_shape, fields_token mark space, fields_token pid space,
    fields_token pcLabel colon, fields_separator space, fields_token (value _ _) space,
    fields_token spLabel colon, fields_separator space, fields_token (value _ _) space,
    fields_token instrLabel colon, fields_separator space, fields_token (value _ _) newline,
    fields_nil, values_skip _ plain, values_skip _ (by decide), values_hex, values_hex, values_hex]
  rfl

/-- The bytes of the instruction at `pc` that a breakpoint writes hold what it writes. -/
def SparesInstr (process : Tracee) (bpAddr : Addr) : Prop :=
  Mapped process.memory bpAddr 8 → Mapped process.memory process.registers.pc 4 →
    ∀ index < 4, offset bpAddr (above process.registers.pc index) < 8 →
      process.memory (above process.registers.pc index) =
        some (byteOf (instrWord brk) (offset bpAddr (above process.registers.pc index)))

/-- A write leaves the bytes of an instruction exactly when it writes what they hold. -/
theorem agree_iff {memory : Memory} {address : Addr} {data : Word}
    (mapped : Mapped memory address 8) (pc : Addr) :
    Agree (pokeMemory memory address data) memory pc 4 ↔
      ∀ index < 4, offset address (above pc index) < 8 →
        memory (above pc index) = some (byteOf data (offset address (above pc index))) := by
  rw [pokeMemory_mapped data mapped]
  apply forall₂_congr
  intro index _
  by_cases here : offset address (above pc index) < 8
  · have written := store_at memory address data here (by decide)
    rw [above_offset] at written
    rw [written, eq_comm]
    exact (imp_iff_right here).symm
  · have apart := store_apart memory address data (Nat.le_of_not_lt here)
    rw [apart]
    exact iff_of_true rfl fun inside => absurd inside here

/-- **A breakpoint leaves the instruction at `pc`** exactly when it spares it. -/
theorem breakPoint_instr (process : Tracee) (bpAddr : Addr) :
    instruction (process.pokeText bpAddr (instrWord brk)).memory process.registers.pc =
        instruction process.memory process.registers.pc ↔ SparesInstr process bpAddr := by
  let pc := process.registers.pc
  let placed := pokeMemory process.memory bpAddr (instrWord brk)
  show instruction placed pc = instruction process.memory pc ↔ _
  unfold SparesInstr
  by_cases mapped : Mapped process.memory bpAddr 8
  · have there : Mapped placed pc 4 ↔ Mapped process.memory pc 4 := by
      show Mapped (pokeMemory process.memory bpAddr (instrWord brk)) pc 4 ↔ _
      rw [pokeMemory_mapped _ mapped]
      exact @Streams.mapped_store_iff _ _ _ (bpAddr, instrWord brk) mapped pc 4
    unfold instruction
    by_cases known : Mapped process.memory pc 4
    · have before : Holds process.memory pc 4 (instrAt process.memory pc) := known.holds
      have behind : Holds placed pc 4 (instrAt placed pc) := (there.mpr known).holds
      rw [if_pos known, if_pos (there.mpr known), imp_iff_right mapped, imp_iff_right known,
        ← agree_iff mapped pc]
      constructor
      · intro same
        have again : Holds placed pc 4 (instrAt process.memory pc) := same ▸ behind
        exact again.agree before
      · intro agree
        exact behind.unique (agree.holds before)
    · rw [if_neg known, if_neg (mt there.mp known)]
      exact iff_of_true rfl fun _ inside => absurd inside known
  · have same : placed = process.memory := pokeMemory_unmapped _ mapped
    rw [same]
    exact iff_of_true rfl fun inside => absurd inside mapped

/-- An answer to the step of `mprotectMemory` leaves what a header tells. After a step that is
refused the tracee is at the private page; after one that ends with -1 it is where the step left it;
after any other its registers are put back. -/
def SparesStep (session : Session) : Resume → Prop
  | .refused => session.process.registers.pc = session.debugger.connector.privateMemory
  | .waited status process =>
    if status = -1 then place process = place session.process
    else instruction process.memory session.process.registers.pc =
      instruction session.process.memory session.process.registers.pc

/-- A deed leaves what a header tells. -/
def Spares (session : Session) : Deed → Prop
  | .moves (.setBreakPoint bpAddr) => SparesInstr session.process bpAddr
  | .mprotect memAddr _ _ answer =>
    session.debugger.connector.refusesMprotect memAddr = false → SparesStep session answer
  | _ => True

/-- Two processes at one `pc` and `sp` are at one place when their instructions there are equal. -/
theorem place_iff {left right : Tracee} (pc : left.registers.pc = right.registers.pc)
    (sp : left.registers.sp = right.registers.sp) :
    place left = place right ↔
      instruction left.memory right.registers.pc = instruction right.memory right.registers.pc := by
  unfold place
  rw [told_iff, and_iff_right pc, and_iff_right sp, pc]

/-- **A breakpoint leaves what a header tells** exactly when it spares the instruction. -/
theorem breakPoint_place (session : Session) (bpAddr : Addr) :
    place (session.setBreakPoint bpAddr).process = place session.process ↔
      SparesInstr session.process bpAddr := by
  have pc : (session.setBreakPoint bpAddr).process.registers.pc = session.process.registers.pc :=
    rfl
  have sp : (session.setBreakPoint bpAddr).process.registers.sp = session.process.registers.sp :=
    rfl
  rw [place_iff pc sp]
  exact breakPoint_instr session.process bpAddr

/-- Setting a hardware breakpoint leaves what a header tells. -/
theorem hwBreakPoint_place (session : Session) (bpAddr bpNum : Word) :
    place (session.setHwBreakPoint bpAddr bpNum).process = place session.process := by
  simp only [Session.setHwBreakPoint, Session.withProcess, Connector.setHwBreakpoint,
    Tracee.setHwRegset]
  split
  · rfl
  · split
    · rfl
    · rfl

/-- **An injected `mprotect` leaves what a header tells** exactly when its step does. -/
theorem mprotect_place {session : Session} (memAddr memSize memProt : Word) (answer : Resume) :
    place (session.mprotectMemory memAddr memSize memProt answer).process = place session.process ↔
      Spares session (.mprotect memAddr memSize memProt answer) := by
  show _ ↔ (session.debugger.connector.refusesMprotect memAddr = false →
    SparesStep session answer)
  cases refuses : session.debugger.connector.refusesMprotect memAddr with
  | true =>
    rw [mprotect_kept memSize memProt answer refuses]
    exact iff_of_true rfl fun accepts => Bool.noConfusion accepts
  | false =>
    rw [mprotect_left answer refuses, imp_iff_right rfl]
    unfold SparesStep
    cases answer with
    | refused =>
      -- The tracee is stopped at the private page, with its memory and its `sp` as they were.
      unfold place
      rw [told_iff]
      constructor
      · intro same
        exact same.1.symm
      · intro here
        refine ⟨here.symm, rfl, ?_⟩
        show instruction session.process.memory session.debugger.connector.privateMemory = _
        rw [here]
    | waited status process =>
      dsimp only
      by_cases failed : status = -1
      · rw [if_pos failed, if_pos failed]
      · rw [if_neg failed, if_neg failed]
        exact place_iff rfl rfl

/-- A deed of a command behind which no header is printed. -/
def Quiet : Deed → Prop
  | .nothing | .moves (.setBreakPoint _) | .moves (.setHwBreakPoint _ _) | .mprotect _ _ _ _ => True
  | _ => False

/-- **A quiet deed leaves what a header tells** exactly when it spares it. -/
theorem deed_place (overrun : Word → Option String) (watch : Watch) {deed : Deed}
    (quiet : Quiet deed) :
    place (deed.apply overrun watch).session.process = place watch.session.process ↔
      Spares watch.session deed := by
  cases deed with
  | nothing => exact iff_of_true rfl trivial
  | mmap answer => exact quiet.elim
  | mprotect memAddr memSize memProt answer => exact mprotect_place memAddr memSize memProt answer
  | moves move =>
    cases move with
    | setBreakPoint bpAddr => exact breakPoint_place watch.session bpAddr
    | setHwBreakPoint bpAddr bpNum =>
      exact iff_of_true (hwBreakPoint_place watch.session bpAddr bpNum) trivial
    | resume command answer => exact quiet.elim
    | rewrite memory => exact quiet.elim

section Commands

variable {host : Host} {session : Session} (args : List Text) (answers : List Resume)

/-- A command behind which a header is printed has no deed that must spare anything. -/
theorem loud_spares {command : CmdType} (loud : command.silent = false) :
    Spares session (Deed.ofCommand session args answers command) := by
  have first {deed : Resume → Deed} (spares : ∀ answer, Spares session (deed answer)) :
      Spares session (Deed.once deed answers) := by
    cases answers with
    | nil => trivial
    | cons answer rest => exact spares answer
  cases command with
  | next => exact @first (fun answer => .moves (.resume .next answer)) fun _ => trivial
  | contin => exact @first (fun answer => .moves (.resume .contin answer)) fun _ => trivial
  | memMmap => exact @first .mmap fun _ => trivial
  | none | exit | help | syscallContin | straceMode => trivial
  | showRegs | setBreakpoint | setHwBreakpoint | readMemory | memMprotect => cases loud

/-- **A command behind which no header is printed** has a quiet deed, and if it has one it returns
to the prompt. -/
theorem silent_returns {command : CmdType} (silent : command.silent = true)
    (stopped : session.stopped = true) :
    Deed.ofCommand session args answers command = .nothing ∨
      Quiet (Deed.ofCommand session args answers command) ∧
        (issueCommand host session args answers command).phase = .reading := by
  have returns {after : Session} (same : after.stopped = session.stopped) (unread : List Resume) :
      (Issued.returned after unread).phase = .reading := by
    rw [Issued.phase, same, stopped, if_pos rfl]
  cases command with
  | none | exit | help | next | contin | memMmap | syscallContin | straceMode => cases silent
  | showRegs | readMemory => exact Or.inl rfl
  | setBreakpoint =>
    rcases args with _ | ⟨bpAddr, _ | ⟨other, rest⟩⟩
    · exact Or.inl rfl
    · simp only [Deed.ofCommand, issueCommand, Handlers.setBreakPoint]
      cases stringToU64 bpAddr with
      | none => exact Or.inl rfl
      | some bpAddr => exact Or.inr ⟨trivial, returns rfl answers⟩
    · exact Or.inl rfl
  | setHwBreakpoint =>
    rcases args with _ | ⟨bpAddr, _ | ⟨bpNum, _ | ⟨other, rest⟩⟩⟩
    · exact Or.inl rfl
    · exact Or.inl rfl
    · simp only [Deed.ofCommand, issueCommand, Handlers.setHwBreakPoint]
      cases stringToU64 bpAddr with
      | none => exact Or.inl rfl
      | some bpAddr =>
        cases stringToU64 bpNum with
        | none => exact Or.inl rfl
        | some bpNum => exact Or.inr ⟨trivial, returns rfl answers⟩
    · exact Or.inl rfl
  | memMprotect =>
    rcases args with _ | ⟨memAddr, _ | ⟨memSize, _ | ⟨memProt, _ | ⟨other, rest⟩⟩⟩⟩
    · exact Or.inl rfl
    · exact Or.inl rfl
    · exact Or.inl rfl
    · simp only [Deed.ofCommand, issueCommand, Handlers.mprotMem]
      cases Handlers.mprotArgs memAddr memSize memProt with
      | none => exact Or.inl rfl
      | some parsed =>
        obtain ⟨memAddr, memSize, memProt⟩ := parsed
        dsimp only
        split
        · exact Or.inl rfl
        · split
          · exact Or.inl rfl
          · cases answers with
            | nil => exact Or.inl rfl
            | cons answer unread => exact Or.inr ⟨trivial, returns rfl unread⟩
    · exact Or.inl rfl

end Commands

/-- A program of the prompt whose tracee is stopped while it reads. -/
structure Steady (program : Program) : Prop where
  /-- Its commands are those of the prompt. -/
  prompted : Prompted program
  /-- The tracee is stopped. -/
  stopped : program.phase = .reading → program.session.stopped = true

/-- Where a command returns to the prompt its tracee is stopped. -/
theorem issued_stopped {issued : Issued} (before : Session) (reading : issued.phase = .reading) :
    (issued.session before).stopped = true := by
  cases issued with
  | returned session unread =>
    show session.stopped = true
    by_contra running
    rw [Issued.phase, if_neg running] at reading
    cases reading
  | waiting => cases reading
  | ended => cases reading

section Turns

variable {host : Host} {order : List CmdStruct}

/-- Where the program does not read a turn does nothing. -/
theorem turn_idle {program : Program} (idle : program.phase ≠ .reading)
    (read : Option Text × List Resume) :
    program.turn host order read = program ∧ Deed.ofTurn order program read = .nothing ∧
      Screen.issues order program read = none := by
  unfold Program.turn Deed.ofTurn Screen.issues
  cases phase : program.phase with
  | reading => exact absurd phase idle
  | _ => exact ⟨rfl, rfl, rfl⟩

/-- A turn that issues no command leaves the session and the phase. -/
theorem turn_noise {program : Program} (phase : program.phase = .reading)
    {read : Option Text × List Resume} {parser : CmdParser}
    (noise : program.parser.readCmd order (read.1.getD []) = (parser, none)) :
    program.turn host order read = { program with parser := parser } ∧
      Deed.ofTurn order program read = .nothing ∧ Screen.issues order program read = none := by
  simp only [Program.turn, Deed.ofTurn, Screen.issues, phase, noise, and_self]

/-- A line that is taken issues the command it names. -/
theorem turn_issues {program : Program} (phase : program.phase = .reading)
    {read : Option Text × List Resume} {parser : CmdParser} {command : CmdType}
    (taken : program.parser.readCmd order (read.1.getD []) = (parser, some command)) :
    program.turn host order read =
        { program with parser := parser }.dispatch host read.2 command ∧
      Deed.ofTurn order program read =
        Deed.ofCommand program.session parser.cmdArgs read.2 command ∧
      Screen.issues order program read = some command := by
  refine ⟨turn_command phase taken, ofTurn_taken phase taken, ?_⟩
  simp only [Screen.issues, phase, taken]

/-- A turn leaves the program steady. -/
theorem turn_steady (perm : order.Perm commands) {program : Program} (steady : Steady program)
    (read : Option Text × List Resume) : Steady (program.turn host order read) := by
  obtain ⟨prompted, -⟩ := @turn_deed host order perm program steady.prompted read fun _ => none
  refine ⟨prompted, ?_⟩
  by_cases phase : program.phase = .reading
  · obtain ⟨parser, found⟩ : ∃ parser, ∃ command,
        program.parser.readCmd order (read.1.getD []) = (parser, command) := ⟨_, _, rfl⟩
    obtain ⟨command, taken⟩ := found
    cases command with
    | none =>
      rw [(turn_noise phase taken).1]
      exact fun _ => steady.stopped phase
    | some command =>
      rw [(turn_issues phase taken).1]
      exact issued_stopped program.session
  · rw [(turn_idle phase read).1]
    exact steady.stopped

/-- At a prompt the last header, read back, is the `pc`, the `sp` and the instruction of the tracee.
-/
def Truthful (screen : Screen) : Prop :=
  screen.program.phase = .reading →
    screen.header.map RegsMapText.read = some (place screen.program.session.process)

/-- The next read makes no header false: what it makes the program do leaves what the last one
tells, and if it makes `main` print one the debugger can read the instruction. -/
structure Undisturbed (host : Host) (order : List CmdStruct) (screen : Screen)
    (read : Option Text × List Resume) : Prop where
  /-- The last header stays true. -/
  spares : Spares screen.program.session (Deed.ofTurn order screen.program read)
  /-- A new one is true. -/
  whole : ∀ command ∈ Screen.issues order screen.program read, command.silent = false →
    (screen.program.turn host order read).phase = .reading →
      Whole (screen.program.turn host order read).session.process

/-- The header is printed by the program as it is. -/
theorem body_program (screen : Screen) (command : CmdType) :
    (screen.body command).program = screen.program := by
  unfold Screen.body
  split
  · rfl
  · rfl

/-- A turn of the screen is one of its program. -/
theorem turn_program (screen : Screen) (read : Option Text × List Resume) :
    (screen.turn host order read).program = screen.program.turn host order read := by
  unfold Screen.turn
  cases Screen.issues order screen.program read with
  | none => rfl
  | some command => exact body_program _ command

/-- A header that is printed now is truthful exactly when the debugger can read the instruction. -/
theorem body_truthful (screen : Screen) {command : CmdType} (loud : command.silent = false) :
    Truthful (screen.body command) ↔
      (screen.program.phase = .reading → Whole screen.program.session.process) := by
  unfold Truthful Screen.body
  by_cases phase : screen.program.phase = .reading
  · have printed : (some screen.program.session.header).map RegsMapText.read =
        some (shown screen.program.session.process) :=
      congrArg some (header_read _ _)
    rw [if_pos ⟨phase, loud⟩]
    dsimp only
    rw [printed, Option.some.injEq, shown_iff_whole]
  · rw [if_neg fun both => phase both.1]
    exact iff_of_true (fun reading => absurd reading phase) fun reading => absurd reading phase

/-- Where no command is issued nothing is disturbed. -/
theorem undisturbed_idle {screen : Screen} {read : Option Text × List Resume}
    (deed : Deed.ofTurn order screen.program read = .nothing)
    (issues : Screen.issues order screen.program read = none) :
    Undisturbed host order screen read := by
  constructor
  · rw [deed]
    trivial
  · rw [issues]
    intro command inside
    cases inside

/-- **A turn behind which no header is printed.** A truthful header stays so exactly when the deed
of the turn spares it. -/
theorem truthful_silent (perm : order.Perm commands) {screen : Screen}
    (steady : Steady screen.program) (phase : screen.program.phase = .reading)
    (truthful : Truthful screen) {read : Option Text × List Resume} {parser : CmdParser}
    {command : CmdType} (silent : command.silent = true)
    (taken : screen.program.parser.readCmd order (read.1.getD []) = (parser, some command)) :
    Truthful { screen with program := screen.program.turn host order read } ↔
      Spares screen.program.session (Deed.ofTurn order screen.program read) := by
  obtain ⟨-, left⟩ := @turn_deed host order perm screen.program steady.prompted read fun _ => none
  obtain ⟨turn, deed, -⟩ := @turn_issues host order screen.program phase read parser command taken
  have held := truthful phase
  unfold Truthful
  dsimp only
  rw [held, Option.some.injEq, left]
  rcases @silent_returns host screen.program.session parser.cmdArgs read.2 command silent
      (steady.stopped phase) with nothing | ⟨quiet, returned⟩
  · rw [deed, nothing]
    exact iff_of_true (fun _ => rfl) trivial
  · have reading : (screen.program.turn host order read).phase = .reading := by
      rw [turn]
      exact returned
    rw [imp_iff_right reading, eq_comm, deed]
    exact deed_place host.overrun ⟨screen.program.session, fun _ => none⟩ quiet

/-- **One turn.** A truthful header is followed by a truthful one exactly when the turn is
undisturbed. -/
theorem truthful_turn (perm : order.Perm commands) {screen : Screen}
    (steady : Steady screen.program) (truthful : Truthful screen)
    (read : Option Text × List Resume) :
    Truthful (screen.turn host order read) ↔ Undisturbed host order screen read := by
  by_cases phase : screen.program.phase = .reading
  · obtain ⟨parser, found⟩ : ∃ parser, ∃ command,
        screen.program.parser.readCmd order (read.1.getD []) = (parser, command) := ⟨_, _, rfl⟩
    obtain ⟨command, taken⟩ := found
    cases command with
    | none =>
      obtain ⟨turn, deed, issues⟩ := @turn_noise host order screen.program phase read parser taken
      have idle := @undisturbed_idle host order screen read deed issues
      unfold Screen.turn
      rw [issues, turn]
      exact iff_of_true truthful idle
    | some command =>
      obtain ⟨-, deed, issues⟩ :=
        @turn_issues host order screen.program phase read parser command taken
      unfold Screen.turn
      rw [issues]
      dsimp only
      cases silent : command.silent with
      | false =>
        have spares := @loud_spares screen.program.session parser.cmdArgs read.2 command silent
        rw [body_truthful _ silent]
        constructor
        · intro whole
          refine ⟨deed ▸ spares, fun other issued _ => ?_⟩
          exact whole
        · intro undisturbed
          exact undisturbed.whole command (Option.mem_def.mpr issues) silent
      | true =>
        have same : Screen.body { screen with program := screen.program.turn host order read }
            command = { screen with program := screen.program.turn host order read } := by
          rw [Screen.body, if_neg fun both => Bool.noConfusion (silent.symm.trans both.2)]
        rw [same, truthful_silent perm steady phase truthful silent taken]
        constructor
        · intro spares
          refine ⟨spares, fun other issued loud => ?_⟩
          rw [issues, Option.mem_def, Option.some.injEq] at issued
          rw [← issued, silent] at loud
          cases loud
        · exact fun undisturbed => undisturbed.spares
  · obtain ⟨turn, deed, issues⟩ := @turn_idle host order screen.program phase read
    have idle := @undisturbed_idle host order screen read deed issues
    unfold Screen.turn
    rw [issues, turn]
    exact iff_of_true truthful idle

/-- The first prompt of a program is steady. -/
theorem start_steady (session : Session) : Steady (Program.start session) := by
  refine ⟨start_prompted session, fun reading => ?_⟩
  by_contra running
  have ended : (Program.start session).phase = .over := if_neg running
  cases reading.symm.trans ended

/-- The first header is truthful exactly when the debugger can read the instruction there. -/
theorem start_truthful (session : Session) :
    Truthful (Screen.start session) ↔ (session.stopped = true → Whole session.process) := by
  have reading : (Program.start session).phase = .reading ↔ session.stopped = true := by
    unfold Program.start
    dsimp only
    by_cases stopped : session.stopped = true
    · rw [if_pos stopped]
      exact iff_of_true rfl stopped
    · rw [if_neg stopped]
      exact iff_of_false (fun same => nomatch same) stopped
  have first := body_truthful ⟨Program.start session, none⟩
    (show CmdType.none.silent = false from rfl)
  dsimp only at first
  rw [reading] at first
  exact first

/-- **The header over whole inputs.** Over every input typed at the prompt, the last header on the
screen, read back, is the `pc`, the `sp` and the instruction of the tracee at every prompt, exactly
when no header is printed where the debugger cannot read the instruction, no breakpoint changes a
byte of the instruction at `pc`, and no step of an injected `mprotect` leaves another `pc` or `sp`
behind or changes that instruction. -/
theorem typed_header (perm : order.Perm commands) (session : Session)
    (reads : List (Option Text × List Resume)) :
    Throughout (Screen.turn host order) Truthful (Screen.start session) reads ↔
      (session.stopped = true → Whole session.process) ∧
        Along (Screen.turn host order) (Undisturbed host order) (Screen.start session) reads := by
  rw [← start_truthful]
  by_cases first : Truthful (Screen.start session)
  · have started : (Screen.start session).program = Program.start session := body_program _ .none
    rw [and_iff_right first]
    apply @throughout_iff_along _ _ (Screen.turn host order) (Undisturbed host order)
      (fun _ _ => True) Truthful fun screen => Steady screen.program
    · intro screen read steady _ _
      rw [turn_program]
      exact turn_steady perm steady read
    · intro screen read steady truthful _
      exact truthful_turn perm steady truthful read
    · rw [started]
      exact start_steady session
    · exact first
    · exact along_true _ _
  · have never : ¬Throughout (Screen.turn host order) Truthful (Screen.start session) reads :=
      fun always => first (always [] List.nil_prefix)
    exact iff_of_false never fun both => first both.1

end Turns

/-- A breakpoint is typed for the address where the tracee is. -/
def breakPointHere : Option Text × List Resume := (some ['b', 'p', ' ', '0', 'x', '0'], [])

/-- What is typed sets a breakpoint at address 0. -/
theorem breakPointHere_deed :
    Deed.ofTurn commands (Program.start firstPrompt) breakPointHere =
      .moves (.setBreakPoint 0) := by
  have words : splitString ['b', 'p', ' ', '0', 'x', '0'] ' ' = [['b', 'p'], ['0', 'x', '0']] := by
    decide +kernel
  have address : stringToU64 ['0', 'x', '0'] = some 0 := by decide +kernel
  have taken : CmdParser.initial.readCmd commands ['b', 'p', ' ', '0', 'x', '0'] =
      (⟨.setBreakpoint, [['0', 'x', '0']]⟩, some .setBreakpoint) := by
    simp [CmdParser.readCmd, CmdParser.parseCommand, commands, CmdStruct.hasMatch,
      CmdParser.initial, CmdParser.parseArgs, words]
  rw [@ofTurn_taken commands (Program.start firstPrompt) rfl breakPointHere _ _ taken]
  simp [Deed.ofCommand, address]

/-- The header above it shows the instruction that was there before. -/
theorem typed_header_here : ¬Throughout (Screen.turn plainHost commands) Truthful
    (Screen.start firstPrompt) [breakPointHere] := by
  rw [typed_header (List.Perm.refl commands)]
  rintro ⟨-, undisturbed, -⟩
  have spares : Spares firstPrompt
      (Deed.ofTurn commands (Program.start firstPrompt) breakPointHere) := undisturbed.spares
  rw [breakPointHere_deed] at spares
  have mapped : Mapped nops 0 8 := by decide
  have byte := spares mapped (mapped_half mapped) 0 (by decide) (by decide)
  exact absurd byte (by decide +kernel)

end A64dbg.PromptHeader
