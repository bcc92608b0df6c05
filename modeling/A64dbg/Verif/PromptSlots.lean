import A64dbg.Verif.HardwareFrame
import A64dbg.Verif.HardwareSlots
import A64dbg.Verif.PromptRuns

/-!
# Hardware breakpoints at the prompt

To the slots of the hardware only two things happen: `hbp` writes one, and a stop of `Continue` at
an address that a slot holds clears that slot and every lower one. `typed_slots` follows the slots
over every input. The debugger keeps no record of them, so the sequence of these events is all that
says what they hold.
-/

namespace A64dbg.PromptSlots

open Runs Writes Connector HardwareFrame HardwareSlots EndOfInput PromptRuns

instance (regs : Nat → HwReg) (pc : Word) (count slot : Nat) :
    Decidable (BelowHit regs pc count slot) :=
  inferInstanceAs (Decidable (∃ hit, hit < count ∧ slot ≤ hit ∧ pc = (regs hit).addr))

/-- What happens to the slots. -/
inductive SlotEvent where
  /-- A breakpoint is set in a slot. -/
  | set (slot : Nat) (addr : Word)
  /-- The tracee stops at an address. -/
  | hit (pc : Word)

namespace SlotEvent

/-- The slots that an event leaves, of a machine with `count` of them. -/
def apply (count : Nat) (slots : Nat → HwReg) : SlotEvent → Nat → HwReg
  | .set slot addr => Function.update slots slot (hwEntry addr)
  | .hit pc => fun slot => if BelowHit slots pc count slot then clearedSlot else slots slot

/-- What an event may leave in a slot. -/
def leaves (count : Nat) : SlotEvent → Nat → HwReg → Prop
  | .set slot addr => fun other entry => other = slot ∧ entry = hwEntry addr
  | .hit _ => fun slot entry => slot < count ∧ entry = clearedSlot

/-- The events of a deed: none, or one. -/
def ofDeed (session : Session) : Deed → List SlotEvent
  | .moves (.setHwBreakPoint bpAddr bpNum) =>
    if bpNum.toNat < session.debugger.connector.hwBreakpoints &&
      session.process.acceptsHwBreak then [.set bpNum.toNat bpAddr] else []
  | .moves (.resume .contin answer) =>
    match answer.trap with
    | none => []
    | some process =>
      if (session.debugger.breakPoints process.registers.pc).isNone && process.acceptsHwBreak then
        [.hit process.registers.pc]
      else []
  | _ => []

/-- An event leaves in each slot what was there or what it may leave. -/
theorem apply_leaves (count : Nat) (slots : Nat → HwReg) (event : SlotEvent) (slot : Nat) :
    event.apply count slots slot = slots slot ∨
      event.leaves count slot (event.apply count slots slot) := by
  cases event with
  | set place addr =>
    by_cases here : slot = place
    · subst here
      exact Or.inr ⟨rfl, Function.update_self ..⟩
    · exact Or.inl (Function.update_of_ne here _ _)
  | hit pc =>
    by_cases below : BelowHit slots pc count slot
    · obtain ⟨hit, inside, lower, -⟩ := id below
      have bound : slot < count := by omega
      exact Or.inr ⟨bound, if_pos below⟩
    · exact Or.inl (if_neg below)

end SlotEvent

/-- The answer of the kernel that a deed reads, if it reads one. -/
def answerOf : Deed → Option Resume
  | .moves (.resume _ answer) | .mmap answer | .mprotect _ _ _ answer => some answer
  | _ => none

/-- The kernel keeps the slots while the tracee runs. -/
def KeepsSlots (session : Session) (deed : Deed) : Prop :=
  ∀ status process, answerOf deed = some (.waited status process) →
    process.dbgRegs = session.process.dbgRegs

/-- A hardware breakpoint is set in its slot, where there is one and the kernel takes it. -/
theorem set_slots (session : Session) (bpAddr bpNum : Word) :
    (session.setHwBreakPoint bpAddr bpNum).process.dbgRegs =
      after (SlotEvent.apply session.debugger.connector.hwBreakpoints) session.process.dbgRegs
        (SlotEvent.ofDeed session (.moves (.setHwBreakPoint bpAddr bpNum))) := by
  let setting : Setting := ⟨bpAddr, bpNum, session.process.acceptsHwBreak⟩
  have left := run_dbgRegs session.debugger.connector session.process setting
  have result := run_result session.debugger.connector session.process setting
  have same : (session.setHwBreakPoint bpAddr bpNum).process =
      afterSetting session.debugger.connector session.process setting := rfl
  rw [same, left, result, SlotEvent.ofDeed]
  cases taken : decide (bpNum.toNat < session.debugger.connector.hwBreakpoints) &&
    session.process.acceptsHwBreak with
  | false => rfl
  | true => rfl

/-- The loop of `Continue` leaves the slots that its stop leaves. -/
theorem clear_slots {connector : Connector} {pc : Word} {process : Tracee} {slots : Nat → HwReg}
    (accepts : process.acceptsHwBreak = true) (kept : process.dbgRegs = slots) :
    (clearFirst connector pc process connector.hwBreakpoints).dbgRegs =
      SlotEvent.apply connector.hwBreakpoints slots (.hit pc) := by
  funext slot
  have loop := clearFirst_dbgRegs pc (Nat.le_refl connector.hwBreakpoints) accepts slot
  rw [kept] at loop
  by_cases below : BelowHit slots pc connector.hwBreakpoints slot
  · rw [loop.1 below]
    exact (if_pos below).symm
  · rw [loop.2 below]
    exact (if_neg below).symm

/-- `Continue` leaves the slots of its stop, but for those it clears. -/
theorem contin_slots (overrun : Word → Option String) (watch : Watch) {answer : Resume}
    (keeps : KeepsSlots watch.session (.moves (.resume .contin answer))) :
    (watch.session.continue answer).process.dbgRegs =
      after (SlotEvent.apply watch.session.debugger.connector.hwBreakpoints)
        watch.session.process.dbgRegs
        (SlotEvent.ofDeed watch.session (.moves (.resume .contin answer))) := by
  cases trap : answer.trap with
  | none =>
    have quiet : SlotEvent.ofDeed watch.session (.moves (.resume .contin answer)) = [] := by
      rw [SlotEvent.ofDeed, trap]
    rw [quiet]
    cases answer with
    | refused => rfl
    | waited status process =>
      have other : ¬isTrap status = true := by
        intro stop
        rw [Resume.trap, if_pos stop] at trap
        cases trap
      rw [continue_eq]
      simp only [if_neg other]
      exact keeps status process rfl
  | some process =>
    obtain ⟨status, same, -⟩ := Resume.trapped trap
    have kept : process.dbgRegs = watch.session.process.dbgRegs := keeps status process
      (congrArg some same)
    have left : (watch.session.continue answer).process.dbgRegs = _ :=
      @contin_dbgRegs overrun watch answer process trap
    rw [left, SlotEvent.ofDeed, trap]
    dsimp only
    cases entry : watch.session.debugger.breakPoints process.registers.pc with
    | some data =>
      have present : watch.entries process.registers.pc ≠ none := by
        intro absent
        cases entry.symm.trans absent
      rw [if_neg present]
      exact kept
    | none =>
      rw [if_pos entry]
      cases accepts : process.acceptsHwBreak with
      | false =>
        rw [clearFirst_refused _ accepts]
        exact kept
      | true =>
        exact clear_slots accepts kept

/-- A step leaves the slots, where the kernel keeps them. -/
theorem stepped_slots {session : Session} {deed : Deed} {answer : Resume}
    (keeps : KeepsSlots session deed) (reads : answerOf deed = some answer) {process : Tracee}
    (same : process.dbgRegs = session.process.dbgRegs) :
    (doSingleStep (fun _ => answer) process).2.dbgRegs = session.process.dbgRegs := by
  cases answer with
  | refused => exact same
  | waited status left => exact keeps status left reads

/-- An injected `mmap` leaves the hardware slots. -/
theorem mmap_slots {session : Session} {answer : Resume}
    (keeps : KeepsSlots session (.mmap answer)) :
    (session.allocateMemoryInChild answer).process.dbgRegs = session.process.dbgRegs := by
  simp only [Session.allocateMemoryInChild, allocateMemoryInChild]
  split
  · exact stepped_slots keeps rfl rfl
  · exact stepped_slots keeps rfl rfl

/-- An injected `mprotect` leaves the slots. -/
theorem mprotect_slots {session : Session} {memAddr memSize memProt : Word} {answer : Resume}
    (keeps : KeepsSlots session (.mprotect memAddr memSize memProt answer)) :
    (session.mprotectMemory memAddr memSize memProt answer).process.dbgRegs =
      session.process.dbgRegs := by
  cases refuses : session.debugger.connector.refusesMprotect memAddr with
  | true => rw [mprotect_kept memSize memProt answer refuses]
  | false =>
    rw [mprotect_left answer refuses]
    cases answer with
    | refused => rfl
    | waited status process =>
      have kept : process.dbgRegs = session.process.dbgRegs := keeps status process rfl
      dsimp only
      by_cases failed : status = -1
      · rw [if_pos failed]
        exact kept
      · rw [if_neg failed]
        exact kept

/-- **A deed leaves the slots that its events leave.** -/
theorem deed_slots (overrun : Word → Option String) (watch : Watch) {deed : Deed}
    (plain : deed.plain) (keeps : KeepsSlots watch.session deed) :
    (deed.apply overrun watch).session.process.dbgRegs =
      after (SlotEvent.apply watch.session.debugger.connector.hwBreakpoints)
        watch.session.process.dbgRegs (SlotEvent.ofDeed watch.session deed) := by
  cases deed with
  | nothing => rfl
  | mmap answer => exact mmap_slots keeps
  | mprotect memAddr memSize memProt answer => exact mprotect_slots keeps
  | moves move =>
    cases move with
    | setBreakPoint bpAddr => rfl
    | setHwBreakPoint bpAddr bpNum => exact set_slots watch.session bpAddr bpNum
    | rewrite memory => rfl
    | resume command answer =>
      rcases plain with rfl | rfl
      · exact stepped_slots keeps rfl rfl
      · exact contin_slots overrun watch keeps

/-- The entry of an address is not a cleared slot. -/
theorem hwEntry_ne (addr : Word) : hwEntry addr ≠ clearedSlot := by
  intro same
  have different : (0xf <<< 7 ||| 1 : BitVec 32) ≠ 0 := by decide
  exact different (congrArg HwReg.ctrl same)

/-- A stop is at an address of no slot from this one on. -/
def Spares (count slot : Nat) (slots : Nat → HwReg) : SlotEvent → Prop
  | .set _ _ => True
  | .hit pc => ¬BelowHit slots pc count slot

/-- A cleared slot stays so until it is set. -/
theorem cleared_stays {count slot : Nat} {slots : Nat → HwReg} {events : List SlotEvent}
    (unset : ∀ addr, .set slot addr ∉ events) (cleared : slots slot = clearedSlot) :
    after (SlotEvent.apply count) slots events slot = clearedSlot := by
  induction events generalizing slots with
  | nil => exact cleared
  | cons event rest ih =>
    have later : ∀ addr, .set slot addr ∉ rest := fun addr inside =>
      unset addr (List.mem_cons_of_mem event inside)
    apply ih later
    cases event with
    | set place addr =>
      have apart : slot ≠ place := by
        intro same
        exact unset addr (same ▸ List.mem_cons_self)
      exact (Function.update_of_ne apart _ _).trans cleared
    | hit pc =>
      show (if BelowHit slots pc count slot then clearedSlot else slots slot) = clearedSlot
      rw [cleared, ite_self]

/-- **How long a breakpoint stands.** One that is not replaced stands exactly as long as every stop
spares its slot. -/
theorem stands_iff {count slot : Nat} {slots : Nat → HwReg} {events : List SlotEvent} {addr : Word}
    (unset : ∀ other, .set slot other ∉ events) (set : slots slot = hwEntry addr) :
    after (SlotEvent.apply count) slots events slot = hwEntry addr ↔
      Along (SlotEvent.apply count) (Spares count slot) slots events := by
  induction events generalizing slots with
  | nil => exact iff_of_true set trivial
  | cons event rest ih =>
    have later : ∀ other, .set slot other ∉ rest := fun other inside =>
      unset other (List.mem_cons_of_mem event inside)
    rw [after_cons, along_cons]
    cases event with
    | set place other =>
      have apart : slot ≠ place := by
        intro same
        exact unset other (same ▸ List.mem_cons_self)
      have stands : SlotEvent.apply count slots (.set place other) slot = hwEntry addr :=
        (Function.update_of_ne apart _ _).trans set
      rw [ih later stands]
      exact (and_iff_right trivial).symm
    | hit pc =>
      by_cases below : BelowHit slots pc count slot
      · have cleared : SlotEvent.apply count slots (.hit pc) slot = clearedSlot := if_pos below
        apply iff_of_false
        · rw [cleared_stays later cleared]
          exact (hwEntry_ne addr).symm
        · intro spared
          exact spared.1 below
      · have stands : SlotEvent.apply count slots (.hit pc) slot = hwEntry addr :=
          (if_neg below).trans set
        rw [ih later stands]
        exact (and_iff_right below).symm

section Run

variable {host : Host} {order : List CmdStruct}

/-- The events of a run, read by read. -/
def events (host : Host) (order : List CmdStruct) :
    Program → List (Option Text × List Resume) → List SlotEvent
  | _, [] => []
  | program, read :: reads =>
    SlotEvent.ofDeed program.session (Deed.ofTurn order program read) ++
      events host order (program.turn host order read) reads

/-- The kernel keeps the slots in a turn. -/
def KeptTurn (order : List CmdStruct) (program : Program) (read : Option Text × List Resume) :
    Prop :=
  KeepsSlots program.session (Deed.ofTurn order program read)

/-- A turn does not change how many slots there are. -/
theorem turn_count (perm : order.Perm commands) {program : Program} (prompted : Prompted program)
    (read : Option Text × List Resume) :
    (program.turn host order read).session.debugger.connector.hwBreakpoints =
      program.session.debugger.connector.hwBreakpoints := by
  obtain ⟨-, left⟩ := turn_deed perm prompted read fun _ => none
  have framed : Framed program.session program.session := ⟨rfl, _, _, _, rfl⟩
  obtain ⟨-, status, entries, page, globals⟩ := @apply_framed host.overrun program.session
    ⟨program.session, fun _ => none⟩ framed _ (ofTurn_plain order program read)
  rw [left, globals]
  rfl

/-- **The events of a run leave its slots.** -/
theorem run_slots (perm : order.Perm commands) {program : Program} (prompted : Prompted program)
    {reads : List (Option Text × List Resume)}
    (kept : Along (Program.turn host order) (KeptTurn order) program reads) :
    (after (Program.turn host order) program reads).session.process.dbgRegs =
      after (SlotEvent.apply program.session.debugger.connector.hwBreakpoints)
        program.session.process.dbgRegs (events host order program reads) := by
  induction reads generalizing program with
  | nil => rfl
  | cons read reads ih =>
    obtain ⟨here, later⟩ := kept
    obtain ⟨next, left⟩ := @turn_deed host order perm program prompted read fun _ => none
    have slots := deed_slots host.overrun ⟨program.session, fun _ => none⟩
      (ofTurn_plain order program read) here
    rw [← left] at slots
    rw [after_cons, ih next later, turn_count perm prompted read, slots, events, after_append]

/-- A breakpoint is set only in a slot that there is. -/
theorem events_inside (perm : order.Perm commands) {program : Program}
    (prompted : Prompted program) (reads : List (Option Text × List Resume)) {slot : Nat}
    {addr : Word} (set : .set slot addr ∈ events host order program reads) :
    slot < program.session.debugger.connector.hwBreakpoints := by
  induction reads generalizing program with
  | nil => cases set
  | cons read reads ih =>
    rw [events, List.mem_append] at set
    cases set with
    | inl here =>
      unfold SlotEvent.ofDeed at here
      split at here
      · split at here
        · next taken =>
          rw [Bool.and_eq_true, decide_eq_true_iff] at taken
          cases List.mem_singleton.mp here
          exact taken.1
        · cases here
      · split at here
        · cases here
        · split at here
          · cases List.mem_singleton.mp here
          · cases here
      · cases here
    | inr later =>
      obtain ⟨next, -⟩ := @turn_deed host order perm program prompted read fun _ => none
      have inside := ih next later
      rw [turn_count perm prompted read] at inside
      exact inside

/-- **The slots over whole inputs.** Over every input typed at the prompt, where the kernel keeps
the slots while the tracee runs, they are those that the accepted settings and the stops leave, in
their order. A slot past the last one never changes, any other one holds what it held at first, or
an accepted setting of it, or is cleared; and the last setting of a slot stands exactly when every
stop behind it was at an address of no slot from this one on. -/
theorem typed_slots (perm : order.Perm commands) {session : Session}
    {reads : List (Option Text × List Resume)}
    (kept : Along (Program.turn host order) (KeptTurn order) (Program.start session) reads) :
    let count := session.debugger.connector.hwBreakpoints
    let happened := events host order (Program.start session) reads
    let slots := (after (Program.turn host order) (Program.start session)
      reads).session.process.dbgRegs
    slots = after (SlotEvent.apply count) session.process.dbgRegs happened ∧
    (∀ slot, count ≤ slot → slots slot = session.process.dbgRegs slot) ∧
    (∀ slot, slots slot = session.process.dbgRegs slot ∨ slots slot = clearedSlot ∨
      ∃ addr, .set slot addr ∈ happened ∧ slots slot = hwEntry addr) ∧
    ∀ front slot addr back, happened = front ++ .set slot addr :: back →
      (∀ other, .set slot other ∉ back) →
      (slots slot = hwEntry addr ↔ Along (SlotEvent.apply count) (Spares count slot)
        (after (SlotEvent.apply count) session.process.dbgRegs (front ++ [.set slot addr]))
        back) := by
  intro count happened slots
  have run : slots = after (SlotEvent.apply count) session.process.dbgRegs happened :=
    run_slots perm (start_prompted session) kept
  have origin (slot : Nat) := kept_or_left (SlotEvent.apply_leaves count) session.process.dbgRegs
    happened slot
  refine ⟨run, ?_, ?_, ?_⟩
  · intro slot past
    rw [run]
    rcases origin slot with same | ⟨event, inside, left⟩
    · exact same
    · cases event with
      | set place addr =>
        have bound : place < count := events_inside perm (start_prompted session) reads inside
        have here : slot = place := left.1
        omega
      | hit pc =>
        have bound : slot < count := left.1
        omega
  · intro slot
    rw [run]
    rcases origin slot with same | ⟨event, inside, left⟩
    · exact Or.inl same
    · cases event with
      | set place addr =>
        obtain ⟨rfl, entry⟩ := left
        exact Or.inr (Or.inr ⟨addr, inside, entry⟩)
      | hit pc => exact Or.inr (Or.inl left.2)
  · intro front slot addr back parts unset
    have set : after (SlotEvent.apply count) session.process.dbgRegs
        (front ++ [.set slot addr]) slot = hwEntry addr := by
      rw [after_append]
      exact Function.update_self ..
    have whole : happened = front ++ [.set slot addr] ++ back := by
      rw [parts, List.append_assoc]
      rfl
    rw [run, whole, after_append]
    exact stands_iff unset set

end Run

/-- The slots with a breakpoint in slot 1. -/
def oneSet : Nat → HwReg := Function.update (fun _ => clearedSlot) 1 (hwEntry 0x1000)

/-- The stop at this breakpoint. -/
def oneStop : Resume := .waited sigTrap { Tracee.stoppedAt nops 0x1000 with dbgRegs := oneSet }

/-- A breakpoint is typed for slot 1, and the tracee stops there. -/
def hardwareOnce : List (Option Text × List Resume) :=
  [(some ['h', 'b', 'p', ' ', '0', 'x', '1', '0', '0', '0', ' ', '1'], []),
   (some ['c'], [oneStop])]

/-- What the parser holds behind the first line. -/
def hardwareHalf : CmdParser := ⟨.setHwBreakpoint, [['0', 'x', '1', '0', '0', '0'], ['1']]⟩

/-- The lines of the sample are read as `setHwBreakpoint` and `contin`. -/
theorem hardwareOnce_read :
    CmdParser.initial.readCmd commands
      ['h', 'b', 'p', ' ', '0', 'x', '1', '0', '0', '0', ' ', '1'] =
        (hardwareHalf, some .setHwBreakpoint) ∧
      hardwareHalf.readCmd commands ['c'] = (⟨.contin, hardwareHalf.cmdArgs⟩, some .contin) := by
  have words : splitString ['h', 'b', 'p', ' ', '0', 'x', '1', '0', '0', '0', ' ', '1'] ' ' =
      [['h', 'b', 'p'], ['0', 'x', '1', '0', '0', '0'], ['1']] := by decide +kernel
  constructor
  · simp [CmdParser.readCmd, CmdParser.parseCommand, commands, CmdStruct.hasMatch,
      CmdParser.initial, CmdParser.parseArgs, words, hardwareHalf]
  · simp [CmdParser.readCmd, CmdParser.parseCommand, commands, CmdStruct.hasMatch,
      readMemoryEntry, readRegistersEntry, hardwareHalf]

/-- The program between the lines. -/
def hardwareDesk : Program :=
  ⟨hardwareHalf, sixSlots.session.setHwBreakPoint 0x1000 1, [.setHwBreakpoint], .reading⟩

/-- The lines of the sample set slot 1 and stop at its address. -/
theorem hardwareOnce_events :
    (Program.start sixSlots.session).turn plainHost commands hardwareOnce[0] = hardwareDesk ∧
      Deed.ofTurn commands (Program.start sixSlots.session) hardwareOnce[0] =
        .moves (.setHwBreakPoint 0x1000 1) ∧
      Deed.ofTurn commands hardwareDesk hardwareOnce[1] = .moves (.resume .contin oneStop) := by
  obtain ⟨first, second⟩ := hardwareOnce_read
  have address : stringToU64 ['0', 'x', '1', '0', '0', '0'] = some 0x1000 := by decide +kernel
  have number : stringToU64 ['1'] = some 1 := by decide +kernel
  refine ⟨?_, ?_, ?_⟩
  · rw [@turn_command plainHost commands (Program.start sixSlots.session) hardwareOnce[0] _ _ rfl
      first]
    simp only [Program.dispatch, issueCommand, hardwareHalf, Handlers.setHwBreakPoint, address,
      number, Option.bind_some, Option.map_some]
    rfl
  · rw [@ofTurn_taken commands (Program.start sixSlots.session) rfl hardwareOnce[0] _ _ first]
    simp [hardwareHalf, Deed.ofCommand, address, number]
  · exact @ofTurn_taken commands hardwareDesk rfl hardwareOnce[1] _ _ second

/-- The stop at its address clears slot 1. -/
theorem typed_slots_once :
    (after (Program.turn plainHost commands) (Program.start sixSlots.session)
      hardwareOnce).session.process.dbgRegs 1 = clearedSlot := by
  obtain ⟨turn, first, second⟩ := hardwareOnce_events
  have slots : hardwareDesk.session.process.dbgRegs = oneSet :=
    set_slots sixSlots.session 0x1000 1
  have kept : Along (Program.turn plainHost commands) (KeptTurn commands)
      (Program.start sixSlots.session) hardwareOnce := by
    refine ⟨?_, ?_, trivial⟩
    · show KeepsSlots _ (Deed.ofTurn commands (Program.start sixSlots.session) hardwareOnce[0])
      rw [first]
      intro status process none
      cases none
    · show KeepsSlots ((Program.start sixSlots.session).turn plainHost commands
        hardwareOnce[0]).session (Deed.ofTurn commands ((Program.start sixSlots.session).turn
          plainHost commands hardwareOnce[0]) hardwareOnce[1])
      rw [turn, second]
      intro status process stop
      cases stop
      exact slots.symm
  have happened : events plainHost commands (Program.start sixSlots.session) hardwareOnce =
      [.set 1 0x1000, .hit 0x1000] := by
    show SlotEvent.ofDeed sixSlots.session
        (Deed.ofTurn commands (Program.start sixSlots.session) hardwareOnce[0]) ++
      (SlotEvent.ofDeed ((Program.start sixSlots.session).turn plainHost commands
        hardwareOnce[0]).session (Deed.ofTurn commands ((Program.start sixSlots.session).turn
          plainHost commands hardwareOnce[0]) hardwareOnce[1]) ++ []) = _
    rw [turn, first, second]
    rfl
  have run := (typed_slots (List.Perm.refl commands) kept).1
  rw [happened] at run
  rw [run]
  decide +kernel

end A64dbg.PromptSlots
