import A64dbg.Slots
import A64dbg.Watch

/-!
# What software breakpoints do to the code around them

The runs here set breakpoints and continue, in any order, over a tracee that keeps its text:
the bytes of a set the tracee never writes. Setting and restoring a breakpoint both write a
whole word, so each also writes the slot after the breakpoint. `frame_iff_nextSlotKept` and
`armedHold_iff_nextSlotSpared` give the exact runs in which that is harmless: for the
instructions that carry no breakpoint, and for the breakpoints that are still armed.
-/

namespace A64dbg.SoftwareFrame

open ByteMemory Runs Tracee

variable {overrun : Word → Option String} {text : Addr → Prop} {original memory : Memory}

/-- A slot whose four bytes belong to the text. -/
def TextSlot (text : Addr → Prop) (addr : Addr) : Prop := ∀ index < 4, text (above addr index)

/-- The tracee left its text as it was, and every word with an entry mapped. -/
structure KeepsText (text : Addr → Prop) (watch : Watch) (answer : Resume) : Prop where
  /-- No byte of the text changed. -/
  bytes : ∀ addr, text addr → answer.memory watch.memory addr = watch.memory addr
  /-- No word at an address in `BreakPoints` was unmapped. -/
  mapped : ∀ addr data, watch.entries addr = some data → Mapped watch.memory addr 8 →
    Mapped (answer.memory watch.memory) addr 8

/-- Breakpoints at mapped slots, and continues of a tracee that keeps its text. -/
def Admitted (text : Addr → Prop) (watch : Watch) : Move → Prop
  | .setBreakPoint bpAddr => Aligned bpAddr ∧ Mapped watch.memory bpAddr 8
  | .resume .contin answer => KeepsText text watch answer
  | _ => False

/-- An admitted move sets a breakpoint at a mapped slot or continues the tracee. -/
theorem Admitted.cases {watch : Watch} {move : Move} (admitted : Admitted text watch move) :
    (∃ bpAddr, move = .setBreakPoint bpAddr ∧ Aligned bpAddr ∧ Mapped watch.memory bpAddr 8) ∨
    ∃ answer, move = .resume .contin answer ∧ KeepsText text watch answer := by
  cases move with
  | setBreakPoint bpAddr => exact .inl ⟨bpAddr, rfl, admitted⟩
  | resume command answer =>
    cases command with
    | contin => exact .inr ⟨answer, rfl, admitted⟩
    | next => exact admitted.elim
    | syscallContin => exact admitted.elim
    | straceMode => exact admitted.elim
  | setHwBreakPoint bpAddr bpNum => exact admitted.elim
  | rewrite memory => exact admitted.elim

/-- Every text slot that is not armed holds its original instruction. -/
def Frame (text : Addr → Prop) (original : Memory) (armed : Addr → Option Instr)
    (memory : Memory) : Prop :=
  ∀ addr, Aligned addr → TextSlot text addr → armed addr = none → Agree memory original addr 4

/-- The slot after `addr` is outside the text, or armed, or already holds `high`. -/
def NextSlotKeeps (text : Addr → Prop) (armed : Addr → Option Instr) (memory : Memory)
    (addr : Addr) (high : Instr) : Prop :=
  ¬TextSlot text (nextSlot addr) ∨ armed (nextSlot addr) ≠ none ∨
    instrAt memory (nextSlot addr) = high

/-- A setting finds a zero instruction in the slot after it, and a stop at an address with an
entry finds there the high half of the entry, unless that slot is armed or not text. -/
def NextSlotKept (text : Addr → Prop) (watch : Watch) : Move → Prop
  | .setBreakPoint bpAddr => NextSlotKeeps text watch.armed watch.memory bpAddr 0
  | .resume .contin answer => ∀ process data, answer.trap = some process →
      watch.entries process.registers.pc = some data →
      NextSlotKeeps text watch.armed process.memory process.registers.pc (highInstr data)
  | _ => True

/-- What `BreakPoints` says of places: armed addresses have entries, and entries are at mapped
slots. -/
structure Placed (watch : Watch) : Prop where
  /-- Armed addresses have entries. -/
  armed : watch.Entered
  /-- Entries are at slots. -/
  aligned : ∀ addr data, watch.entries addr = some data → Aligned addr
  /-- Their words are mapped. -/
  mapped : ∀ addr data, watch.entries addr = some data → Mapped watch.memory addr 8

/-- The low half of every entry at a text slot is the original instruction. -/
structure Saved (text : Addr → Prop) (original : Memory) (watch : Watch) : Prop
    extends Placed watch where
  /-- Entries start with the original instruction. -/
  original : ∀ addr data, watch.entries addr = some data → TextSlot text addr →
    Holds original addr 4 (lowInstr data)

/-- A text slot keeps its bytes while the tracee runs. -/
theorem KeepsText.agree {watch : Watch} {answer : Resume} (keeps : KeepsText text watch answer)
    {addr : Addr} (slot : TextSlot text addr) :
    Agree (answer.memory watch.memory) watch.memory addr 4 :=
  fun index inside => keeps.bytes _ (slot index inside)

/-- The word of an entry is mapped after a continue too. -/
theorem KeepsText.mapped_step {watch : Watch} {answer : Resume}
    (keeps : KeepsText text watch answer) {addr : Addr} {data : Word}
    (entry : watch.entries addr = some data) (mapped : Mapped watch.memory addr 8) :
    Mapped (watch.step overrun (.resume .contin answer)).memory addr 8 := by
  have kept := keeps.mapped addr data entry mapped
  rcases watch.step_contin_cases overrun answer with ⟨-, memory⟩ | ⟨_, _, -, -, memory⟩
  · rw [memory]
    exact kept
  · rw [memory]
    exact mapped_poke _ kept

/-- A tracee that keeps its text keeps the frame. -/
theorem KeepsText.frame {watch : Watch} {answer : Resume} {armed : Addr → Option Instr}
    (keeps : KeepsText text watch answer) (frame : Frame text original armed watch.memory) :
    Frame text original armed (answer.memory watch.memory) := by
  intro addr aligned slot unarmed index inside
  rw [keeps.agree slot index inside, frame addr aligned slot unarmed index inside]

/-- **The exact cost of one write.** A word written over a frame keeps the frame exactly when
its high half is harmless, if its low half belongs where it goes. -/
theorem frame_poke {armed armed' : Addr → Option Instr} {addr : Addr} {data : Word}
    (frame : Frame text original armed memory) (aligned : Aligned addr)
    (mapped : Mapped memory addr 8) (same : ∀ other, other ≠ addr → armed' other = armed other)
    (low : armed' addr = none → TextSlot text addr → Holds original addr 4 (lowInstr data)) :
    Frame text original armed' (pokeMemory memory addr data) ↔
      NextSlotKeeps text armed memory addr (highInstr data) := by
  have nextAligned := aligned.nextSlot
  have nextArmed := same (nextSlot addr) (nextSlot_ne addr)
  constructor
  · intro kept
    unfold NextSlotKeeps
    by_contra harmed
    push Not at harmed
    obtain ⟨slot, unarmed, differs⟩ := harmed
    have before := frame _ nextAligned slot unarmed
    have after := kept _ nextAligned slot (nextArmed.trans unarmed)
    have held : Holds memory (nextSlot addr) 4 (highInstr data) := fun index inside => by
      rw [before index inside, ← after index inside, poke_high data mapped index inside]
    exact differs held.load_eq
  · intro keeps other otherAligned slot unarmed
    by_cases here : other = addr
    · subst here
      exact (poke_low data mapped).agree (low unarmed slot)
    · rw [same other here] at unarmed
      by_cases next : other = nextSlot addr
      · subst next
        rcases keeps with outside | armedNext | equal
        · exact absurd slot outside
        · exact absurd unarmed armedNext
        · intro index inside
          have held := (mapped_nextSlot mapped).holds index inside
          rw [← frame _ nextAligned slot unarmed index inside, held,
            poke_high data mapped index inside, ← equal]
          rfl
      · intro index inside
        rw [poke_other data aligned otherAligned here next index inside,
          frame other otherAligned slot unarmed index inside]

/-- Entries stay at mapped slots, and armed addresses keep theirs. -/
theorem placed_step {watch : Watch} {move : Move} (placed : Placed watch)
    (admitted : Admitted text watch move) : Placed (watch.step overrun move) := by
  constructor
  · exact Watch.entered_step placed.armed move
  · intro addr data entry
    rcases admitted.cases with ⟨bpAddr, rfl, aligned, -⟩ | ⟨answer, rfl, -⟩
    · rcases mapInsert_cases entry with old | ⟨rfl, -, -⟩
      · exact placed.aligned addr data old
      · exact aligned
    · rw [Watch.step_resume_entries] at entry
      exact placed.aligned addr data entry
  · intro addr data entry
    rcases admitted.cases with ⟨bpAddr, rfl, -, mapped⟩ | ⟨answer, rfl, keeps⟩
    · rcases mapInsert_cases entry with old | ⟨rfl, -, -⟩
      · exact mapped_poke _ (placed.mapped addr data old)
      · exact mapped_poke _ mapped
    · rw [Watch.step_resume_entries] at entry
      exact keeps.mapped_step entry (placed.mapped addr data entry)

/-- The original instructions stay saved under every admitted move, as long as the frame
holds. -/
theorem saved_step {watch : Watch} {move : Move} (saved : Saved text original watch)
    (frame : Frame text original watch.armed watch.memory) (admitted : Admitted text watch move) :
    Saved text original (watch.step overrun move) := by
  refine ⟨placed_step saved.toPlaced admitted, ?_⟩
  intro addr data entry slot
  rcases admitted.cases with ⟨bpAddr, rfl, aligned, mapped⟩ | ⟨answer, rfl, keeps⟩
  · rcases mapInsert_cases entry with old | ⟨rfl, absent, rfl⟩
    · exact saved.original addr data old slot
    · -- A first setting reads a slot that is not armed, so the frame still holds there.
      have unarmed := saved.armed.unarmed absent
      intro index inside
      rw [← frame addr aligned slot unarmed index inside]
      exact peekText_low mapped index inside
  · rw [Watch.step_resume_entries] at entry
    exact saved.original addr data entry slot

/-- **The exact cost of one move.** An admitted move keeps the frame exactly when it keeps the
slot after the breakpoint it sets or restores. -/
theorem frame_step {watch : Watch} {move : Move} (saved : Saved text original watch)
    (frame : Frame text original watch.armed watch.memory) (admitted : Admitted text watch move) :
    Frame text original (watch.step overrun move).armed (watch.step overrun move).memory ↔
      NextSlotKept text watch move := by
  rcases admitted.cases with ⟨bpAddr, rfl, aligned, mapped⟩ | ⟨answer, rfl, keeps⟩
  · rw [Watch.step_set_memory, Watch.step_set_armed,
      frame_poke frame aligned mapped (fun _ apart => watch.arm_other apart)
        (fun unarmed => by rw [watch.arm_self mapped] at unarmed; cases unarmed),
      highInstr_instrWord]
    rfl
  · have kept := keeps.frame frame
    rcases watch.step_contin_cases overrun answer with
      ⟨quiet, memory⟩ | ⟨process, data, trap, entry, memory⟩
    · rw [memory, Watch.step_contin_armed]
      apply iff_of_true
      · intro addr aligned slot unarmed
        by_cases armed : watch.armed addr = none
        · exact kept addr aligned slot armed
        · -- Disarming without a restore needs a stop at an address without an entry.
          obtain ⟨instr, some⟩ := Option.ne_none_iff_exists'.mp armed
          obtain ⟨process, trap, rfl⟩ := watch.disarmed some unarmed
          exact absurd (saved.armed.unarmed (quiet process trap)) armed
      · exact watch.forall_stop_quiet quiet _
    · have mapped := keeps.mapped _ data entry (saved.mapped _ data entry)
      rw [memory, Watch.step_contin_armed,
        frame_poke kept (saved.aligned _ data entry) mapped
          (fun _ apart => watch.disarm_other trap apart)
          (fun _ slot => saved.original _ data entry slot)]
      have same := answer.memory_of_trap watch.memory trap
      rw [same]
      exact (watch.forall_stop_iff trap entry fun stopped word => NextSlotKeeps text watch.armed
        stopped.memory stopped.registers.pc (highInstr word)).symm

/-- Before any breakpoint is set nothing is placed. -/
theorem placed_fresh {watch : Watch} (fresh : watch.Fresh) : Placed watch :=
  ⟨fresh.entered, fun addr data entry => absurd entry (fresh.no_entry addr data),
    fun addr data entry => absurd entry (fresh.no_entry addr data)⟩

/-- Before any breakpoint is set nothing is saved. -/
theorem saved_fresh {watch : Watch} (fresh : watch.Fresh) : Saved text watch.memory watch :=
  ⟨placed_fresh fresh, fun addr data entry => absurd entry (fresh.no_entry addr data)⟩

/-- **Software breakpoint frame.** Over any tracee that keeps its text, a run of settings and
continues leaves every text slot that is not armed with its original instruction, in every
state it reaches, exactly when each setting and each restore keeps the slot after it. -/
theorem frame_iff_nextSlotKept {watch : Watch} {run : List Move} (fresh : watch.Fresh)
    (admitted : Along (Watch.step overrun) (Admitted text) watch run) :
    Throughout (Watch.step overrun)
        (fun reached => Frame text watch.memory reached.armed reached.memory) watch run ↔
      Along (Watch.step overrun) (NextSlotKept text) watch run :=
  throughout_iff_along (fun _ _ saved frame admitted => saved_step saved frame admitted)
    (fun _ _ saved frame admitted => frame_step saved frame admitted) (saved_fresh fresh)
    (fun _ _ _ _ _ _ => rfl) admitted

/-- One breakpoint among `nop`s zeroes the `nop` after it. -/
theorem frame_lost :
    (Watch.start nops).Fresh ∧
    Along (Watch.step fun _ => none) (Admitted fun _ => True) (Watch.start nops)
      [.setBreakPoint 0x1000] ∧
    ¬Throughout (Watch.step fun _ => none)
      (fun reached => Frame (fun _ => True) nops reached.armed reached.memory) (Watch.start nops)
      [.setBreakPoint 0x1000] := by
  have slot : Aligned 0x1000 ∧ Mapped nops 0x1000 8 := ⟨by decide, by decide⟩
  refine ⟨Watch.start_fresh nops, ⟨slot, trivial⟩, ?_⟩
  intro frame
  have kept := frame _ (List.prefix_refl _) 0x1004 (by decide) (fun _ _ => trivial) (by decide) 0
    (by decide)
  exact absurd kept (by decide)

/-- `nop` in every other slot, zero between. -/
def sparseNops : Memory := fun addr =>
  some (if addr.toNat % 8 < 4 then byteOf (0xD503201F : Instr) (addr.toNat % 4) else 0)

/-- The tracee of this run writes nothing. -/
theorem setAndStop_keepsText (memory : Memory) :
    KeepsText (fun _ => True) ((Watch.start memory).step (fun _ => none) (.setBreakPoint 0x1000))
      (Resume.atBreakPoint memory) :=
  ⟨fun _ _ => rfl, fun _ _ _ mapped => mapped⟩

/-- Where zeros follow the breakpoint, setting it and stopping there keeps the frame. -/
theorem frame_kept :
    Throughout (Watch.step fun _ => none)
      (fun reached => Frame (fun _ => True) sparseNops reached.armed reached.memory)
      (Watch.start sparseNops) (setAndStop sparseNops) := by
  have admitted : Along (Watch.step fun _ => none) (Admitted fun _ => True)
      (Watch.start sparseNops) (setAndStop sparseNops) :=
    ⟨⟨by decide, by decide⟩, setAndStop_keepsText sparseNops, trivial⟩
  refine (frame_iff_nextSlotKept (Watch.start_fresh sparseNops) admitted).mpr
    ⟨.inr (.inr (by decide +kernel)), fun process data trap entry => .inr (.inr ?_), trivial⟩
  obtain rfl := stopped_sigTrap trap
  obtain rfl := Option.some.inj entry
  decide +kernel

/-- A breakpoint of the text: breakpoints at mapped text slots, and continues of a tracee that
keeps its text. -/
def AdmittedText (text : Addr → Prop) (watch : Watch) (move : Move) : Prop :=
  Admitted text watch move ∧ ∀ bpAddr, move = .setBreakPoint bpAddr → TextSlot text bpAddr

/-- Every armed address holds `brk #0`. -/
def ArmedHold (armed : Addr → Option Instr) (memory : Memory) : Prop :=
  ∀ addr instr, armed addr = some instr → Holds memory addr 4 brk

/-- A setting finds the slot after it not armed, and so does a stop at an address with an
entry, unless the high half of the entry is itself `brk #0`. -/
def NextSlotSpared (watch : Watch) : Move → Prop
  | .setBreakPoint bpAddr => watch.armed (nextSlot bpAddr) = none
  | .resume .contin answer => ∀ process data, answer.trap = some process →
      watch.entries process.registers.pc = some data →
      watch.armed (nextSlot process.registers.pc) = none ∨ highInstr data = brk
  | _ => True

/-- Breakpoints are placed at text slots. -/
structure PlacedText (text : Addr → Prop) (watch : Watch) : Prop extends Placed watch where
  /-- Armed addresses are in the text. -/
  text : ∀ addr instr, watch.armed addr = some instr → TextSlot text addr

/-- Breakpoints stay at text slots. -/
theorem placedText_step {watch : Watch} {move : Move} (placed : PlacedText text watch)
    (admitted : AdmittedText text watch move) : PlacedText text (watch.step overrun move) := by
  refine ⟨placed_step placed.toPlaced admitted.1, ?_⟩
  intro addr instr armed
  obtain ⟨admitted, inText⟩ := admitted
  rcases admitted.cases with ⟨bpAddr, rfl, aligned, mapped⟩ | ⟨answer, rfl, keeps⟩
  · by_cases here : addr = bpAddr
    · exact here ▸ inText bpAddr rfl
    · rw [Watch.step_set_armed, Watch.arm_other watch here] at armed
      exact placed.text addr instr armed
  · exact placed.text addr instr (watch.disarm_some armed)

/-- **The exact cost of one write to the armed breakpoints.** A word written at a slot keeps
every other breakpoint exactly when the next slot carries none, or is given one. -/
theorem armedHold_poke {armed armed' : Addr → Option Instr} {addr : Addr} {data : Word}
    (holds : ArmedHold armed memory) (slots : ∀ other instr, armed other = some instr →
      Aligned other) (aligned : Aligned addr) (mapped : Mapped memory addr 8)
    (same : ∀ other, other ≠ addr → armed' other = armed other)
    (low : armed' addr ≠ none → lowInstr data = brk) :
    ArmedHold armed' (pokeMemory memory addr data) ↔
      armed (nextSlot addr) = none ∨ highInstr data = brk := by
  constructor
  · intro kept
    by_contra harmed
    push Not at harmed
    obtain ⟨armedNext, differs⟩ := harmed
    obtain ⟨instr, armedNext⟩ := Option.ne_none_iff_exists'.mp armedNext
    have held := kept (nextSlot addr) instr ((same _ (nextSlot_ne addr)).trans armedNext)
    exact differs ((poke_high data mapped).unique held)
  · intro spared other instr armedOther
    by_cases here : other = addr
    · subst here
      rw [← low (by rw [armedOther]; exact Option.some_ne_none _)]
      exact poke_low data mapped
    · rw [same other here] at armedOther
      by_cases next : other = nextSlot addr
      · subst next
        rcases spared with unarmed | high
        · cases unarmed.symm.trans armedOther
        · rw [← high]
          exact poke_high data mapped
      · exact (poke_other data aligned (slots other instr armedOther) here next).holds
          (holds other instr armedOther)

/-- **The exact cost of one move to the armed breakpoints.** -/
theorem armedHold_step {watch : Watch} {move : Move} (placed : PlacedText text watch)
    (holds : ArmedHold watch.armed watch.memory) (admitted : AdmittedText text watch move) :
    ArmedHold (watch.step overrun move).armed (watch.step overrun move).memory ↔
      NextSlotSpared watch move := by
  have slots : ∀ other instr, watch.armed other = some instr → Aligned other := by
    intro other instr armed
    obtain ⟨data, entry⟩ := placed.armed other instr armed
    exact placed.aligned other data entry
  obtain ⟨admitted, -⟩ := admitted
  rcases admitted.cases with ⟨bpAddr, rfl, aligned, mapped⟩ | ⟨answer, rfl, keeps⟩
  · rw [Watch.step_set_memory, Watch.step_set_armed,
      armedHold_poke holds slots aligned mapped (fun _ apart => watch.arm_other apart)
        (fun _ => lowInstr_instrWord brk), highInstr_instrWord]
    exact or_iff_left (by decide)
  · have kept : ArmedHold watch.armed (answer.memory watch.memory) := fun addr instr armed =>
      (keeps.agree (placed.text addr instr armed)).holds (holds addr instr armed)
    rcases watch.step_contin_cases overrun answer with
      ⟨quiet, memory⟩ | ⟨process, data, trap, entry, memory⟩
    · rw [memory, Watch.step_contin_armed]
      apply iff_of_true
      · intro addr instr armed
        exact kept addr instr (watch.disarm_some armed)
      · exact watch.forall_stop_quiet quiet _
    · have mapped := keeps.mapped _ data entry (placed.mapped _ data entry)
      rw [memory, Watch.step_contin_armed,
        armedHold_poke kept slots (placed.aligned _ data entry) mapped
          (fun _ apart => watch.disarm_other trap apart)
          (fun armed => absurd (by rw [watch.disarm_of_trap trap, Function.update_self]) armed)]
      exact (watch.forall_stop_iff trap entry fun stopped word =>
        watch.armed (nextSlot stopped.registers.pc) = none ∨ highInstr word = brk).symm

/-- **A breakpoint stays armed until its own stop.** Over any tracee that keeps its text, a run
of settings at text slots and continues leaves `brk #0` at every armed address, in every state
it reaches, exactly when each setting and each restore spares the slot after it. -/
theorem armedHold_iff_nextSlotSpared {watch : Watch} {run : List Move} (fresh : watch.Fresh)
    (admitted : Along (Watch.step overrun) (AdmittedText text) watch run) :
    Throughout (Watch.step overrun) (fun reached => ArmedHold reached.armed reached.memory)
        watch run ↔
      Along (Watch.step overrun) NextSlotSpared watch run :=
  throughout_iff_along (fun _ _ placed _ admitted => placedText_step placed admitted)
    (fun _ _ placed holds admitted => armedHold_step placed holds admitted)
    ⟨placed_fresh fresh, fun addr instr armed => absurd armed (fresh.unarmed addr instr)⟩
    (fun addr instr armed => absurd armed (fresh.unarmed addr instr)) admitted

/-- Setting a breakpoint just before an armed one removes the armed one. -/
theorem armed_lost :
    (Watch.start nops).Fresh ∧
    Along (Watch.step fun _ => none) (AdmittedText fun _ => True) (Watch.start nops)
      [.setBreakPoint 0x1004, .setBreakPoint 0x1000] ∧
    ¬Throughout (Watch.step fun _ => none)
      (fun reached => ArmedHold reached.armed reached.memory) (Watch.start nops)
      [.setBreakPoint 0x1004, .setBreakPoint 0x1000] := by
  have admitted : Along (Watch.step fun _ => none) (AdmittedText fun _ => True)
      (Watch.start nops) [.setBreakPoint 0x1004, .setBreakPoint 0x1000] :=
    ⟨⟨⟨by decide, by decide⟩, fun _ _ _ _ => trivial⟩,
      ⟨⟨by decide, by decide⟩, fun _ _ _ _ => trivial⟩, trivial⟩
  refine ⟨Watch.start_fresh nops, admitted, ?_⟩
  intro holds
  have held := holds _ (List.prefix_refl _) 0x1004 0xD503201F (by decide +kernel) 3
    (by decide)
  exact absurd held (by decide)

/-- A breakpoint set alone keeps its `brk #0` until its stop. -/
theorem armed_kept :
    Throughout (Watch.step fun _ => none)
      (fun reached => ArmedHold reached.armed reached.memory) (Watch.start nops)
      (setAndStop nops) := by
  have admitted : Along (Watch.step fun _ => none) (AdmittedText fun _ => True)
      (Watch.start nops) (setAndStop nops) :=
    ⟨⟨⟨by decide, by decide⟩, fun _ _ _ _ => trivial⟩,
      ⟨setAndStop_keepsText nops, fun _ same => nomatch same⟩, trivial⟩
  refine (armedHold_iff_nextSlotSpared (Watch.start_fresh nops) admitted).mpr
    ⟨rfl, fun process data trap _ => .inl ?_, trivial⟩
  obtain rfl := stopped_sigTrap trap
  decide

end A64dbg.SoftwareFrame
