import A64dbg.Verif.Injection

/-!
# The address of the private page

`mprotectMemory` moves the tracee's `pc` to the cached address of the private page. The kernel
answers the injected `mmap` with a mapped region or with an error number between -4095 and -1,
and `allocateMemoryInChild` caches either. `usable_iff_noError` says for every sequence of calls
exactly when every state it reaches has no private page or one that starts with `svc #0`.
-/

namespace A64dbg.Stub

open ByteMemory Runs Tracee Connector Injection

/-- An error number, as a system call leaves it in x0. -/
def IsErrno (res : Word) : Prop := -4095 ≤ res.toInt ∧ res.toInt ≤ -1

instance (res : Word) : Decidable (IsErrno res) := inferInstanceAs (Decidable (_ ∧ _))

/-- The injected `mmap` is executed: its result is the address of a mapped region, or an error
number, and at these no byte is ever mapped. A step of `mprotectMemory` keeps the mapped bytes. -/
def Answered (state : State) : Call → Prop
  | .allocate step => ∃ status stepped, step (mmapProcess state.2) = .waited status stepped ∧
      status ≠ -1 ∧
      if IsErrno (stepped.registers.regs x0) then
        stepped.memory (stepped.registers.regs x0) = none
      else Mapped stepped.memory (stepped.registers.regs x0) 1024
  | .mprotect step memAddr memSize memProt =>
    ¬Refused state (.mprotect step memAddr memSize memProt) →
      Extends state.2.memory
        ((step (mprotectProcess state memAddr memSize memProt)).memory state.2.memory)

/-- The private page is unset or starts with `svc #0`, and any `mprotectMemory` that is not
refused steps over that instruction. -/
def Usable (state : State) : Prop :=
  Ready state ∧ ∀ step memAddr memSize memProt,
    ¬Refused state (.mprotect step memAddr memSize memProt) →
      Holds (mprotectProcess state memAddr memSize memProt).memory
        (mprotectProcess state memAddr memSize memProt).registers.pc 4 svc

/-- The result of the injected `mmap` is no error number, unless the error number is -1, which
stands for no private page. -/
def NoError (state : State) : Call → Prop
  | .allocate step => ∀ status stepped, step (mmapProcess state.2) = .waited status stepped →
      IsErrno (stepped.registers.regs x0) → stepped.registers.regs x0 = -1
  | .mprotect _ _ _ _ => True

/-- The step of `mprotectMemory` is at the private page, so the page decides. -/
theorem usable_iff_ready (state : State) : Usable state ↔ Ready state := by
  constructor
  · intro usable
    exact usable.1
  · intro ready
    refine ⟨ready, fun step memAddr memSize memProt accepted => ?_⟩
    obtain ⟨present, -⟩ := not_or.mp accepted
    exact ready present

/-- An error number reads as no address of a mapped word. -/
theorem not_holds {memory : Memory} {addr : Addr} (unmapped : memory addr = none) :
    ¬Holds memory addr 4 svc := by
  intro held
  have first := held 0 (by decide)
  rw [above_zero, unmapped] at first
  cases first

/-- A write maps no byte. -/
theorem pokeMemory_none {memory : Memory} {other : Addr} (addr : Addr) (data : Word)
    (unmapped : memory other = none) : pokeMemory memory addr data other = none := by
  unfold pokeMemory
  split
  · next mapped =>
    have outside : 8 ≤ offset addr other := by
      by_contra inside
      have present := mapped.2 (offset addr other) (by omega)
      rw [above_offset, unmapped] at present
      cases present
    rw [store_apart _ _ _ outside, unmapped]
  · exact unmapped

/-- The memory after `mprotectMemory` is the one its step leaves. -/
theorem mprotect_memory {state : State} {step : Tracee → Resume} {memAddr memSize memProt : Word}
    (accepted : ¬Refused state (.mprotect step memAddr memSize memProt)) :
    (afterCall state (.mprotect step memAddr memSize memProt)).2.memory =
      (step (mprotectProcess state memAddr memSize memProt)).memory state.2.memory := by
  unfold afterCall
  rw [mprotect_steps accepted]
  cases answer : step (mprotectProcess state memAddr memSize memProt) with
  | refused =>
    rw [doSingleStep_refused answer]
    rfl
  | waited status stepped =>
    rw [doSingleStep_waited answer]
    dsimp only
    split <;> rfl

/-- **One call.** A call after which the page is ready is one whose `mmap` is no error. -/
theorem ready_iff_noError {state : State} {call : Call} (ready : Ready state)
    (answered : Answered state call) : Ready (afterCall state call) ↔ NoError state call := by
  cases call with
  | allocate step =>
    obtain ⟨status, stepped, answer, ended, result⟩ := answered
    have left : Ready (afterCall state (.allocate step)) ↔
        (stepped.registers.regs x0 ≠ -1 →
          Holds (afterMmap state.2 stepped).memory (stepped.registers.regs x0) 4 svc) := by
      unfold Ready
      rw [allocate_after answer ended]
    have right : NoError state (.allocate step) ↔
        (IsErrno (stepped.registers.regs x0) → stepped.registers.regs x0 = -1) := by
      constructor
      · intro noError
        exact noError status stepped answer
      · intro noError otherStatus other same
        rw [answer, Resume.waited.injEq] at same
        rwa [← same.2]
    rw [left, right]
    by_cases error : IsErrno (stepped.registers.regs x0)
    · rw [if_pos error] at result
      have before : putBack state.2 stepped (stepped.registers.regs x0) = none :=
        pokeMemory_none _ _ result
      have unmapped : (afterMmap state.2 stepped).memory (stepped.registers.regs x0) = none :=
        pokeMemory_none _ _ before
      constructor
      · intro held _
        by_contra other
        exact not_holds unmapped (held other)
      · intro minusOne other
        exact absurd (minusOne error) other
    · rw [if_neg error] at result
      apply iff_of_true
      · intro _
        exact afterMmap_stub state.2 result
      · intro isError
        exact absurd isError error
  | mprotect step memAddr memSize memProt =>
    apply iff_of_true _ trivial
    intro present
    by_cases refused : Refused state (.mprotect step memAddr memSize memProt)
    · rw [refused_after refused] at present ⊢
      exact ready present
    · rw [mprotect_memory refused]
      exact (answered refused).holds (ready present)

/-- **The private page is unset or usable.** From a debugger without a private page, a sequence
of calls whose `mmap` is executed reaches only usable states exactly when no `mmap` leaves an
error number other than -1. -/
theorem usable_iff_noError {state : State} {calls : List Call}
    (unset : state.1.privateMemory = -1) (answered : Along afterCall Answered state calls) :
    Throughout afterCall Usable state calls ↔ Along afterCall NoError state calls := by
  have ready : Ready state := fun present => absurd unset present
  apply throughout_iff_steps _ _ answered
  · intro reached call usable admitted
    rw [usable_iff_ready] at usable ⊢
    exact ready_iff_noError usable admitted
  · exact (usable_iff_ready state).mpr ready

/-- A kernel that refuses `mmap` with an error number and takes every `mprotect`. -/
def errorStep (error : Word) (process : Tracee) : Resume :=
  let result := if process.registers.regs x8 = 222 then error else 0
  .waited sigTrap
    { process with
      registers := { process.registers.setReg x0 result with pc := process.registers.pc + 4 } }

/-- `mmap` and `mprot` of the first page of the tracee. -/
def mapAndProtect (step : Tracee → Resume) : List Call :=
  [.allocate step, .mprotect step 0x1000 4096 5]

/-- The calls of the sample are answered where the step over `mmap` is. -/
theorem mapAndProtect_answered {step : Tracee → Resume} {state : State}
    (allocated : Answered state (.allocate step))
    (kept : ∀ process, process.registers.regs x8 = 226 →
      Extends process.memory ((step process).memory process.memory)) :
    Along afterCall Answered state (mapAndProtect step) := by
  refine ⟨allocated, fun _ => ?_, trivial⟩
  apply kept (mprotectProcess (afterCall state (.allocate step)) 0x1000 4096 5)
  exact mprotectRegs_number _ _ _ _ _

/-- After a successful `mmap` the page stays usable. -/
theorem usable_page :
    Throughout afterCall Usable (before (few 0x1000 16 0) 0x1000)
      (mapAndProtect (kernelStep 0x2000)) := by
  have allocated : Answered (before (few 0x1000 16 0) 0x1000)
      (.allocate (kernelStep 0x2000)) := by
    refine ⟨sigTrap, _, rfl, by decide, ?_⟩
    simp only [mmapProcess, setRegisters, mmapRegs_number, if_pos, setReg_self]
    rw [if_neg (by decide)]
    exact mapped_store _ 0 (by decide)
  apply (usable_iff_noError rfl (mapAndProtect_answered allocated _)).mpr
  · refine ⟨?_, trivial, trivial⟩
    intro status stepped answer error
    rw [kernelStep, Resume.waited.injEq] at answer
    obtain ⟨-, rfl⟩ := answer
    simp only [mmapProcess, setRegisters, mmapRegs_number, if_pos, setReg_self] at error
    exact absurd error (by decide)
  · intro process number
    simp only [kernelStep, number]
    exact Extends.refl _

/-- `ENOMEM` is taken for the address of the private page, and `mprot` moves `pc` there. -/
theorem error_becomes_page :
    Along afterCall Answered (before (few 0x1000 16 0) 0x1000)
      (mapAndProtect (errorStep (-12))) ∧
    ¬Throughout afterCall Usable (before (few 0x1000 16 0) 0x1000)
      (mapAndProtect (errorStep (-12))) := by
  constructor
  · apply mapAndProtect_answered
    · refine ⟨sigTrap, _, rfl, by decide, ?_⟩
      simp only [mmapProcess, setRegisters, mmapRegs_number, if_pos, setReg_self]
      rw [if_pos (by decide)]
      decide +kernel
    · intro process _
      exact Extends.refl _
  · intro usable
    have present := (usable [.allocate (errorStep (-12))] (by simp [mapAndProtect])).1
    have held := present (by decide +kernel)
    exact absurd (held 0 (by decide)) (by decide +kernel)

end A64dbg.Stub
