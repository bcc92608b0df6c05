import A64dbg.Slots
import A64dbg.Watch

/-!
# How fresh the saved words are

`BreakPoints` keeps the first word it saved for an address and is never emptied. A stop then
writes a word whose age depends on the whole history. `faithful_iff_current` says, for every
run of moves over any tracee, exactly when what a stop writes is the instruction replaced by
the latest arming of its address, and when a stop anywhere else writes nothing.
-/

namespace A64dbg.SavedWords

open ByteMemory Runs Tracee

variable {overrun : Word → Option String}

/-- Breakpoints, continues, and rewrites of bytes that are not armed at that moment. -/
def Admitted (watch : Watch) : Move → Prop
  | .setBreakPoint _ => True
  | .resume .contin answer => ∀ addr instr, watch.armed addr = some instr →
      Agree (answer.memory watch.memory) watch.memory addr 4
  | .rewrite memory => ∀ addr instr, watch.armed addr = some instr →
      Agree memory watch.memory addr 4
  | _ => False

/-- A `Continue` that changes memory at a stop stopped at an armed address, and left there the
instruction replaced by its latest arming. -/
def Faithful (overrun : Word → Option String) (watch : Watch) : Move → Prop
  | .resume .contin answer => ∀ process, answer.trap = some process →
      (watch.step overrun (.resume .contin answer)).memory ≠ process.memory →
      ∃ instr, watch.armed process.registers.pc = some instr ∧
        Holds (watch.step overrun (.resume .contin answer)).memory process.registers.pc 4 instr
  | _ => True

/-- The entry of every armed address starts with the instruction its latest arming replaced. -/
def Current (watch : Watch) : Prop :=
  ∀ addr instr, watch.armed addr = some instr →
    ∃ data, watch.entries addr = some data ∧ lowInstr data = instr

/-- An arming of an address with an entry finds there the instruction of the entry, and a stop
at an address with an entry that is not armed finds there the word of the entry. -/
def EntryCurrent (watch : Watch) : Move → Prop
  | .setBreakPoint bpAddr => ∀ data, watch.entries bpAddr = some data →
      watch.armed bpAddr = none → Mapped watch.memory bpAddr 8 →
      lowInstr data = instrAt watch.memory bpAddr
  | .resume .contin answer => ∀ process data, answer.trap = some process →
      watch.entries process.registers.pc = some data →
      watch.armed process.registers.pc = none → Mapped process.memory process.registers.pc 8 →
      Holds process.memory process.registers.pc 8 data
  | _ => True

/-- A setting keeps entries current exactly when it does not arm an outdated entry. -/
theorem current_set {watch : Watch} (current : Current watch) (bpAddr : Addr) :
    Current (watch.step overrun (.setBreakPoint bpAddr)) ↔
      EntryCurrent watch (.setBreakPoint bpAddr) := by
  by_cases mapped : Mapped watch.memory bpAddr 8
  · have armedHere := watch.arm_self mapped
    constructor
    · intro kept data entry unarmed _
      rw [unarmed, Option.getD_none] at armedHere
      obtain ⟨word, found, low⟩ := kept bpAddr _ armedHere
      have same : watch.entries bpAddr = some word :=
        entry.trans ((mapInsert_keeps entry).symm.trans found)
      rw [← low, Option.some.inj (entry.symm.trans same)]
    · intro fresh addr instr armed
      by_cases here : addr = bpAddr
      · subst here
        rw [Watch.step_set_armed, armedHere, Option.some.injEq] at armed
        refine ⟨(watch.entries addr).getD (watch.session.process.peekText addr),
          mapInsert_self _ _ _, ?_⟩
        cases old : watch.armed addr with
        | some found =>
          obtain ⟨data, entry, low⟩ := current addr found old
          rw [entry, Option.getD_some, low, ← armed, old, Option.getD_some]
        | none =>
          rw [old, Option.getD_none] at armed
          cases entry : watch.entries addr with
          | some data => rw [Option.getD_some, fresh data entry old mapped, armed]
          | none =>
            rw [Option.getD_none, ← armed]
            exact (peekText_low mapped).load_eq.symm
      · rw [Watch.step_set_armed, watch.arm_other here] at armed
        obtain ⟨data, entry, low⟩ := current addr instr armed
        exact ⟨data, mapInsert_keeps entry, low⟩
  · have unchanged : watch.arm bpAddr = watch.armed := if_neg mapped
    apply iff_of_true
    · intro addr instr armed
      rw [Watch.step_set_armed, unchanged] at armed
      obtain ⟨data, entry, low⟩ := current addr instr armed
      exact ⟨data, mapInsert_keeps entry, low⟩
    · intro _ _ _ holds
      exact absurd holds mapped

/-- A stop that is not of `Continue` keeps entries current. -/
theorem current_resume {watch : Watch} (current : Current watch) (answer : Resume)
    {command : ResumeCommand} (other : command ≠ .contin) :
    Current (watch.step overrun (.resume command answer)) := by
  intro addr instr armed
  change (if command = .contin then watch.disarm answer else watch.armed) addr = _ at armed
  rw [if_neg other] at armed
  rw [Watch.step_resume_entries]
  exact current addr instr armed

/-- A continue keeps entries current. -/
theorem current_contin {watch : Watch} (current : Current watch) (answer : Resume) :
    Current (watch.step overrun (.resume .contin answer)) := by
  intro addr instr armed
  rw [Watch.step_resume_entries]
  exact current addr instr (watch.disarm_some armed)

/-- A stop is faithful exactly when it does not put back an outdated word. -/
theorem faithful_contin {watch : Watch} (current : Current watch) (answer : Resume) :
    Faithful overrun watch (.resume .contin answer) ↔
      EntryCurrent watch (.resume .contin answer) := by
  rcases watch.step_contin_cases overrun answer with
    ⟨quiet, memory⟩ | ⟨process, data, trap, entry, memory⟩
  · apply iff_of_true
    · intro process trap changed
      rw [memory, answer.memory_of_trap watch.memory trap] at changed
      exact absurd rfl changed
    · exact watch.forall_stop_quiet quiet _
  · rw [answer.memory_of_trap watch.memory trap] at memory
    have here := watch.forall_stop_iff trap entry fun stopped word =>
      watch.armed stopped.registers.pc = none → Mapped stopped.memory stopped.registers.pc 8 →
        Holds stopped.memory stopped.registers.pc 8 word
    refine Iff.trans ?_ here.symm
    constructor
    · intro faithful unarmed mapped
      by_contra outdated
      obtain ⟨instr, armed, -⟩ := faithful process trap fun same => by
        rw [memory, pokeMemory_mapped data mapped] at same
        exact outdated (same ▸ holds_store process.memory process.registers.pc 8 data (by decide))
      cases unarmed.symm.trans armed
    · intro found process' trap' changed
      cases Option.some.inj (trap.symm.trans trap')
      by_cases mapped : Mapped process.memory process.registers.pc 8
      · cases armed : watch.armed process.registers.pc with
        | none =>
          -- The entry is already in place, so putting it back changes nothing.
          have held := found armed mapped
          rw [memory, pokeMemory_mapped data mapped, store_held held] at changed
          exact absurd rfl changed
        | some instr =>
          obtain ⟨word, known, low⟩ := current _ instr armed
          rw [Option.some.inj (known.symm.trans entry)] at low
          refine ⟨instr, rfl, ?_⟩
          rw [memory, ← low]
          exact poke_low data mapped
      · rw [memory, pokeMemory_unmapped data mapped] at changed
        exact absurd rfl changed

/-- A move is faithful and leaves current entries exactly when it meets the condition. -/
theorem faithful_step {watch : Watch} (current : Current watch) (move : Move) :
    Faithful overrun watch move ∧ Current (watch.step overrun move) ↔ EntryCurrent watch move := by
  cases move with
  | setBreakPoint bpAddr => exact (and_iff_right trivial).trans (current_set current bpAddr)
  | resume command answer =>
    cases command with
    | contin =>
      exact (and_iff_left (current_contin current answer)).trans (faithful_contin current answer)
    | next => exact iff_of_true ⟨trivial, current_resume current answer (by decide)⟩ trivial
    | syscallContin =>
      exact iff_of_true ⟨trivial, current_resume current answer (by decide)⟩ trivial
    | straceMode =>
      exact iff_of_true ⟨trivial, current_resume current answer (by decide)⟩ trivial
  | setHwBreakPoint bpAddr bpNum => exact iff_of_true ⟨trivial, current⟩ trivial
  | rewrite memory => exact iff_of_true ⟨trivial, current⟩ trivial

/-- **When saved instructions are not stale.** In every run, of any moves over any tracee,
every stop is faithful and every entry of an armed address stays current exactly when no
arming takes over an outdated entry and no stop puts one back. -/
theorem faithful_iff_current {watch : Watch} (fresh : watch.Fresh) (run : List Move) :
    Along (Watch.step overrun)
        (fun reached move => Faithful overrun reached move ∧ Current (reached.step overrun move))
        watch run ↔
      Along (Watch.step overrun) EntryCurrent watch run := by
  have start : Current watch := fun addr instr armed => absurd armed (fresh.unarmed addr instr)
  exact along_iff_along (fun _ _ _ _ kept => kept.2)
    (fun _ move current _ => faithful_step current move) start (along_true watch run)

/-- A first arming saves the instruction its stop puts back. -/
theorem faithful_once :
    Along (Watch.step fun _ => none)
      (fun reached move => Faithful (fun _ => none) reached move ∧
        Current (reached.step (fun _ => none) move))
      (Watch.start nops) (setAndStop nops) := by
  refine (faithful_iff_current (Watch.start_fresh nops) (setAndStop nops)).mpr
    ⟨fun _ entry => (nomatch entry), fun process data trap entry unarmed => ?_, trivial⟩
  obtain rfl := stopped_sigTrap trap
  exact absurd unarmed (by decide)

/-- `nop` in every slot but one, which holds `ret`. -/
def rewritten : Memory := store nops 0x1000 4 (0xD65F03C0 : Instr)

/-- A breakpoint is set and hit, its address rewritten, and the breakpoint set and hit again. -/
def rearmed : List Move := setAndStop nops ++ .rewrite rewritten :: setAndStop rewritten

/-- The second stop puts back the instruction of the first setting. -/
theorem stale_restored :
    (Watch.start nops).Fresh ∧
    Along (Watch.step fun _ => none) Admitted (Watch.start nops) rearmed ∧
    ¬Along (Watch.step fun _ => none) (Faithful fun _ => none) (Watch.start nops) rearmed := by
  have unarmed : ∀ addr instr,
      (after (Watch.step fun _ => none) (Watch.start nops) (setAndStop nops)).armed addr ≠
        some instr := by
    intro addr instr armed
    cases (congrFun (Watch.setAndStop_armed nops) addr).symm.trans armed
  refine ⟨Watch.start_fresh nops, ?_, ?_⟩
  · exact ⟨trivial, fun _ _ _ _ _ => rfl, fun addr instr armed => absurd armed (unarmed addr instr),
      trivial, fun _ _ _ _ _ => rfl, trivial⟩
  · intro faithful
    obtain ⟨instr, armed, held⟩ := faithful.2.2.2.2.1 _ (trap_sigTrap _) fun same =>
      absurd (congrFun same 0x1000) (by decide +kernel)
    have replaced : instr = 0xD65F03C0 := Option.some.inj (armed.symm.trans (by decide +kernel))
    subst replaced
    exact absurd (held 0 (by decide)) (by decide +kernel)

end A64dbg.SavedWords
