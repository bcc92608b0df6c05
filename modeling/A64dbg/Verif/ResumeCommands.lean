import A64dbg.Slots
import A64dbg.SyscallStop
import A64dbg.Watch

/-!
# What each resume command does at an armed breakpoint

`Continue` looks its stop up in `BreakPoints`; the single step and the system call loop do
not. `restores_iff_continued` says for every run at which of its breakpoint stops the replaced
instruction is back before the tracee is resumed again.
-/

namespace A64dbg.ResumeCommands

open ByteMemory Runs Tracee

variable {overrun : Word → Option String}

/-- The tracee executed the `brk #0` of an armed breakpoint and stopped at it. -/
structure BrkStop (watch : Watch) (answer : Resume) (process : Tracee) (instr : Instr) :
    Prop where
  /-- The stop is by signal 5. -/
  trap : answer.trap = some process
  /-- Its `pc` is armed in place of the instruction. -/
  armed : watch.armed process.registers.pc = some instr
  /-- `brk #0` is there. -/
  executed : Holds process.memory process.registers.pc 4 brk

/-- After a breakpoint stop the replaced instruction is back. -/
def Restores (overrun : Word → Option String) (watch : Watch) : Move → Prop
  | .resume command answer => ∀ process instr, BrkStop watch answer process instr →
      Holds (watch.step overrun (.resume command answer)).memory process.registers.pc 4 instr
  | _ => True

/-- A breakpoint stop belongs to `Continue`, at a word that is still mapped and was saved from
the replaced instruction. The other commands leave this to chance: the replaced instruction
was itself `brk #0`, or a plugin hook writes it back. -/
def Continued (overrun : Word → Option String) (watch : Watch) : Move → Prop
  | .resume command answer => ∀ process instr, BrkStop watch answer process instr →
      match command with
      | .contin => if Mapped process.memory process.registers.pc 8 then
          (watch.entries process.registers.pc).map lowInstr = some instr else instr = brk
      | .next => instr = brk
      | .syscallContin | .straceMode =>
        Holds ((watch.session.withProcess process).hooked overrun).memory
          process.registers.pc 4 instr
  | _ => True

/-- What `brk #0` replaced is back where nothing was written exactly if it was `brk #0`. -/
theorem untouched_iff {memory : Memory} {addr : Addr} {instr : Instr}
    (executed : Holds memory addr 4 brk) : Holds memory addr 4 instr ↔ instr = brk := by
  constructor
  · intro held
    exact held.unique executed
  · rintro rfl
    exact executed

/-- **The exact cost of one stop.** A resume restores its breakpoint stop exactly when the stop
belongs to `Continue`, but for the accidents named in `Continued`. -/
theorem restores_step {watch : Watch} (entered : watch.Entered) (move : Move) :
    Restores overrun watch move ↔ Continued overrun watch move := by
  cases move with
  | setBreakPoint bpAddr => exact Iff.rfl
  | setHwBreakPoint bpAddr bpNum => exact Iff.rfl
  | rewrite memory => exact Iff.rfl
  | resume command answer =>
    refine forall_congr' fun process => forall_congr' fun instr => forall_congr' fun stop => ?_
    have memory := answer.memory_of_trap watch.memory stop.trap
    have passed (session : Session) :
        (session.syscallPass overrun answer).1.process =
          (session.withProcess process).hooked overrun := by
      obtain ⟨status, rfl, trapped⟩ := Resume.trapped stop.trap
      rw [syscallPass_process, if_pos trapped]
      rfl
    cases command with
    | contin =>
      obtain ⟨data, entry⟩ := entered _ _ stop.armed
      rw [Watch.step_contin_memory, stop.trap]
      dsimp only
      unfold restored
      rw [entry]
      dsimp only
      split
      · next mapped =>
        have low := poke_low data mapped
        rw [Option.map_some, Option.some.injEq]
        constructor
        · intro held
          exact low.unique held
        · rintro rfl
          exact low
      · next unmapped =>
        rw [pokeMemory_unmapped data unmapped]
        exact untouched_iff stop.executed
    | next =>
      have same : (watch.step overrun (.resume .next answer)).memory = process.memory := by
        rw [← memory]
        cases answer <;> rfl
      rw [same]
      exact untouched_iff stop.executed
    | syscallContin =>
      change Holds (watch.session.syscallPass overrun answer).1.process.memory _ _ _ ↔ _
      rw [passed]
    | straceMode =>
      change Holds (watch.session.straceOn.syscallPass overrun answer).1.process.memory _ _ _ ↔ _
      rw [passed]
      exact Iff.rfl

/-- **When resume commands treat an armed breakpoint alike.** In every run every breakpoint
stop puts the replaced instruction back exactly when every such stop is met by `Continue`. -/
theorem restores_iff_continued {watch : Watch} (fresh : watch.Fresh) (run : List Move) :
    Along (Watch.step overrun) (Restores overrun) watch run ↔
      Along (Watch.step overrun) (Continued overrun) watch run := by
  exact along_iff_along (fun _ move entered _ _ => Watch.entered_step entered move)
    (fun _ move entered _ => restores_step entered move) fresh.entered (along_true watch run)

/-- The stop of the sample run is met by `Continue`. -/
theorem restores_once :
    Along (Watch.step fun _ => none) (Restores fun _ => none) (Watch.start nops)
      (setAndStop nops) := by
  apply (restores_iff_continued (Watch.start_fresh nops) (setAndStop nops)).mpr
  refine ⟨trivial, ?_, trivial⟩
  intro process instr stop
  have armed := stop.armed
  obtain rfl := stopped_sigTrap stop.trap
  have replaced : instr = 0xD503201F := Option.some.inj (armed.symm.trans (by decide +kernel))
  subst replaced
  dsimp only
  decide +kernel

/-- A breakpoint is set and reached by a resume command. -/
def reachedBy (command : ResumeCommand) : List Move :=
  [.setBreakPoint 0x1000, .resume command (.atBreakPoint nops)]

/-- The single step and the system call loop leave the `brk #0` where it is. -/
theorem brk_left :
    (Watch.start nops).Fresh ∧
    ¬Along (Watch.step fun _ => none) (Restores fun _ => none) (Watch.start nops)
      (reachedBy .next) ∧
    ¬Along (Watch.step fun _ => none) (Restores fun _ => none) (Watch.start nops)
      (reachedBy .syscallContin) ∧
    ¬Along (Watch.step fun _ => none) (Restores fun _ => none) (Watch.start nops)
      (reachedBy .straceMode) := by
  have mapped : Mapped nops 0x1000 8 := by decide
  have executed := poke_instr brk mapped
  have stop : BrkStop ((Watch.start nops).step (fun _ => none) (.setBreakPoint 0x1000))
      (.atBreakPoint nops)
      (Tracee.stoppedAt (Tracee.pokeMemory nops 0x1000 (instrWord brk)) 0x1000) 0xD503201F :=
    ⟨trap_sigTrap _, by decide +kernel, executed⟩
  refine ⟨Watch.start_fresh nops, ?_, ?_, ?_⟩
  all_goals intro all
  all_goals exact absurd (all.2.1 _ _ stop 0 (by decide)) (by decide +kernel)

end A64dbg.ResumeCommands
