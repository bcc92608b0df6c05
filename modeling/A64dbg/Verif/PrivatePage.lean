import A64dbg.Library.Pages
import A64dbg.Verif.Injection

/-!
# The protection of the private page

`mprotectMemory` refuses a request that starts at the private page. The kernel rounds a request
to whole pages, and one that starts below the private page can reach it. `rwx_iff_spared` says
for every sequence of executed calls exactly when the private page keeps the protection it was
mapped with.
-/

namespace A64dbg.PrivatePage

open Runs Pages Connector Injection

/-- How the kernel treats `mprotect`. -/
structure Paging where
  /-- The size of a page. -/
  bytes : Nat
  /-- A page has at least 4096 bytes, so an error number is no multiple of it. -/
  large : 4096 ≤ bytes
  /-- The address space has whole pages. -/
  divides : bytes ∣ 2 ^ 64
  /-- The requests it takes. -/
  takes : Word → Word → Word → Bool
  /-- They start at a page. -/
  aligned : ∀ addr size prot, takes addr size prot = true → bytes ∣ addr.toNat
  /-- They end inside the address space. -/
  bounded : ∀ addr size prot, takes addr size prot = true →
    addr.toNat + roundUp bytes size.toNat < 2 ^ 64

/-- What a system call does to the protections: `mmap` gives its region its third argument, if
its result is an address, and `mprotect` its range, if the request is taken. -/
def Paging.effect (paging : Paging) (protections : Nat → Word) (call : Syscall) : Nat → Word :=
  if call.number = 222 ∧ paging.bytes ∣ call.result.toNat then
    protect paging.bytes protections call.result.toNat (lengthOf call).toNat (protOf call)
  else if call.number = 226 ∧
      paging.takes (startOf call) (lengthOf call) (protOf call) = true then
    protect paging.bytes protections (startOf call).toNat (lengthOf call).toNat (protOf call)
  else protections

/-- The protections of a tracee: the effects of its system calls on those it began with. -/
def Paging.protections (paging : Paging) (initial : Nat → Word) (process : Tracee) : Nat → Word :=
  process.issued.foldl paging.effect initial

/-- Readable, writable and executable. -/
def IsRwx (protection : Word) : Prop := protection &&& 7 = 7

instance (protection : Word) : Decidable (IsRwx protection) := inferInstanceAs (Decidable (_ = _))

/-- The page of the private memory, if there is one, has the protection it was mapped with. -/
def Rwx (paging : Paging) (initial : Nat → Word) (state : State) : Prop :=
  state.1.privateMemory ≠ -1 →
    PageIs paging.bytes IsRwx (paging.protections initial state.2) state.1.privateMemory.toNat

/-- The system call of a call that is not refused is executed; the region of `mmap` starts at a
page. -/
def Executed (paging : Paging) (state : State) : Call → Prop
  | .allocate step => ∃ status stepped, step (mmapProcess state.2) = .waited status stepped ∧
      status ≠ -1 ∧ SvcStep (mmapProcess state.2) stepped ∧
      paging.bytes ∣ (stepped.registers.regs x0).toNat
  | .mprotect step memAddr memSize memProt =>
    ¬Refused state (.mprotect step memAddr memSize memProt) →
      ∃ status stepped,
        step (mprotectProcess state memAddr memSize memProt) = .waited status stepped ∧
        status ≠ -1 ∧ SvcStep (mprotectProcess state memAddr memSize memProt) stepped

/-- A request that is neither refused by `mprotectMemory` nor by the kernel does not cover the
private page, or asks for the protection it has. -/
def Spared (paging : Paging) (state : State) : Call → Prop
  | .allocate _ => True
  | .mprotect step memAddr memSize memProt =>
    ¬Refused state (.mprotect step memAddr memSize memProt) →
      paging.takes memAddr memSize memProt = true →
      Covers paging.bytes memAddr.toNat memSize.toNat state.1.privateMemory.toNat →
      IsRwx memProt

variable {paging : Paging} {initial : Nat → Word}

/-- A page has at least one byte. -/
theorem Paging.positive (paging : Paging) : 0 < paging.bytes := by
  have large := paging.large
  omega

/-- One more system call is one more effect. -/
theorem protections_append {before after : Tracee} {call : Syscall}
    (issued : after.issued = before.issued ++ [call]) :
    paging.protections initial after = paging.effect (paging.protections initial before) call := by
  unfold Paging.protections
  rw [issued, List.foldl_append]
  rfl

/-- `mmap` gives the region at its result its third argument. -/
theorem effect_mmap (protections : Nat → Word) (args : Fin 6 → Word) {result : Word}
    (aligned : paging.bytes ∣ result.toNat) :
    paging.effect protections ⟨222, args, result⟩ =
      protect paging.bytes protections result.toNat (args 1).toNat (args 2) :=
  if_pos ⟨rfl, aligned⟩

/-- `mprotect` gives the range of a request that is taken its third argument. -/
theorem effect_mprotect (protections : Nat → Word) (args : Fin 6 → Word) (result : Word) :
    paging.effect protections ⟨226, args, result⟩ =
      if paging.takes (args 0) (args 1) (args 2) = true then
        protect paging.bytes protections (args 0).toNat (args 1).toNat (args 2)
      else protections := by
  unfold Paging.effect
  simp

/-- A page just mapped is readable, writable and executable. -/
theorem rwx_allocate {state : State} {step : Tracee → Resume}
    (executed : Executed paging state (.allocate step)) :
    Rwx paging initial (afterCall state (.allocate step)) := by
  obtain ⟨status, stepped, answer, ended, svcStep, aligned⟩ := executed
  have protections : paging.protections initial (afterMmap state.2 stepped) =
      protect paging.bytes (paging.protections initial state.2)
        (stepped.registers.regs x0).toNat 1024 7 := by
    have issued := mmap_issued svcStep
    change (afterMmap state.2 stepped).issued = _ at issued
    rw [protections_append issued, effect_mmap _ _ aligned]
    rfl
  intro _
  rw [allocate_after answer ended]
  dsimp only
  rw [protections]
  exact protect_start _ paging.positive aligned (by decide) (by decide)

/-- A refused `mprotectMemory` changes no protection. -/
theorem rwx_refused {state : State} {call : Call} (refused : Refused state call)
    (rwx : Rwx paging initial state) : Rwx paging initial (afterCall state call) := by
  rwa [refused_after refused]

/-- What an executed `mprotectMemory` does to the protections. -/
theorem mprotect_protections {state : State} {step : Tracee → Resume}
    {memAddr memSize memProt : Word}
    (accepted : ¬Refused state (.mprotect step memAddr memSize memProt))
    (executed : Executed paging state (.mprotect step memAddr memSize memProt)) :
    (afterCall state (.mprotect step memAddr memSize memProt)).1 = state.1 ∧
    paging.protections initial (afterCall state (.mprotect step memAddr memSize memProt)).2 =
      if paging.takes memAddr memSize memProt = true then
        protect paging.bytes (paging.protections initial state.2) memAddr.toNat memSize.toNat
          memProt
      else paging.protections initial state.2 := by
  obtain ⟨status, stepped, answer, ended, svcStep⟩ := executed accepted
  have number : (mprotectProcess state memAddr memSize memProt).registers.regs x8 = 226 :=
    mprotectRegs_number _ _ _ _ _
  obtain ⟨addr, size, prot⟩ :
      argsOf (mprotectProcess state memAddr memSize memProt).registers 0 = memAddr ∧
      argsOf (mprotectProcess state memAddr memSize memProt).registers 1 = memSize ∧
      argsOf (mprotectProcess state memAddr memSize memProt).registers 2 = memProt :=
    mprotectRegs_args _ _ _ _ _
  have issued : (stepped.setRegisters state.2.registers).issued = _ := svcStep.issued
  rw [number] at issued
  rw [mprotect_after accepted answer ended]
  constructor
  · rfl
  · rw [protections_append issued, effect_mprotect, addr, size, prot]
    rfl

/-- **One call.** The private page keeps its protection over an executed call exactly when the
call spares it. -/
theorem rwx_step {state : State} {call : Call} (rwx : Rwx paging initial state)
    (executed : Executed paging state call) :
    Rwx paging initial (afterCall state call) ↔ Spared paging state call := by
  cases call with
  | allocate step => exact iff_of_true (rwx_allocate executed) trivial
  | mprotect step memAddr memSize memProt =>
    by_cases refused : Refused state (.mprotect step memAddr memSize memProt)
    · exact iff_of_true (rwx_refused refused rwx) fun accepted => absurd refused accepted
    · obtain ⟨connector, protections⟩ := mprotect_protections refused executed
      have present := (not_or.mp refused).1
      unfold Rwx Spared
      dsimp only
      rw [connector, protections, forall_prop_of_true present, forall_prop_of_true refused]
      by_cases taken : paging.takes memAddr memSize memProt = true
      · rw [if_pos taken, forall_prop_of_true taken]
        exact protect_page_iff paging.positive (paging.aligned _ _ _ taken) (rwx present)
      · rw [if_neg taken]
        exact iff_of_true (rwx present) fun other => absurd other taken

/-- **When the guard protects the private page.** From a debugger without a private page, a
sequence of executed calls keeps the protection of every private page exactly when each
`mprotectMemory` spares it. -/
theorem rwx_iff_spared (paging : Paging) (initial : Nat → Word) {state : State}
    {calls : List Call} (unset : state.1.privateMemory = -1)
    (executed : Along afterCall (Executed paging) state calls) :
    Throughout afterCall (Rwx paging initial) state calls ↔
      Along afterCall (Spared paging) state calls := by
  apply throughout_iff_steps _ _ executed
  · intro reached call rwx admitted
    exact rwx_step rwx admitted
  · intro present
    exact absurd unset present

/-- A kernel with pages of 4096 bytes that takes every request inside the address space. -/
def fourK : Paging where
  bytes := 4096
  large := le_refl 4096
  divides := by decide
  takes addr size _ :=
    addr.toNat % 4096 == 0 && addr.toNat + roundUp 4096 size.toNat < 2 ^ 64
  aligned := by
    intro addr size prot taken
    have multiple := (Bool.and_eq_true_iff.mp taken).1
    exact Nat.dvd_of_mod_eq_zero (beq_iff_eq.mp multiple)
  bounded := by
    intro addr size prot taken
    exact of_decide_eq_true (Bool.and_eq_true_iff.mp taken).2

/-- A private page at 0x2000, and a request that starts one page below it. -/
def protectBelow (memSize : Word) : List Call :=
  [.allocate (kernelStep 0x2000), .mprotect (kernelStep 0) 0x1000 memSize 0]

/-- The calls of the sample are executed. -/
theorem protectBelow_executed (memSize : Word) :
    Along afterCall (Executed fourK) (before (few 0x1000 16 0) 0x1000) (protectBelow memSize) := by
  refine ⟨?_, fun _ => ?_, trivial⟩
  · have selected : (mmapProcess (before (few 0x1000 16 0) 0x1000).2).registers.regs x8 = 222 :=
      mmapRegs_number _
    obtain ⟨stepped, answer, svcStep, result⟩ :=
      kernelStep_svc (by decide) fun _ => ⟨rfl, few_apart⟩
    rw [if_pos selected] at result
    refine ⟨sigTrap, stepped, answer, by decide, svcStep, ?_⟩
    rw [result]
    decide
  · have selected (state : State) :
        (mprotectProcess state 0x1000 memSize 0).registers.regs x8 = 226 :=
      mprotectRegs_number _ _ _ _ _
    have other (state : State) :
        (mprotectProcess state 0x1000 memSize 0).registers.regs x8 ≠ 222 := by
      rw [selected]
      decide
    have inside : (0 : Word).toNat + 1024 ≤ 2 ^ 64 := by decide
    obtain ⟨stepped, answer, svcStep, -⟩ :=
      kernelStep_svc inside fun number => absurd number (other _)
    exact ⟨sigTrap, stepped, answer, by decide, svcStep⟩

/-- A request for the one page below leaves the private page alone. -/
theorem rwx_below :
    Throughout afterCall (Rwx fourK fun _ => 0) (before (few 0x1000 16 0) 0x1000)
      (protectBelow 4096) := by
  apply (rwx_iff_spared fourK _ rfl (protectBelow_executed 4096)).mpr
  refine ⟨trivial, ?_, trivial⟩
  intro _ _ covered
  exact absurd covered (by decide +kernel)

/-- A request for one byte more takes the private page with it. -/
theorem rwx_lost :
    Along afterCall (Executed fourK) (before (few 0x1000 16 0) 0x1000) (protectBelow 4097) ∧
    ¬Throughout afterCall (Rwx fourK fun _ => 0) (before (few 0x1000 16 0) 0x1000)
      (protectBelow 4097) := by
  refine ⟨protectBelow_executed 4097, fun rwx => ?_⟩
  have page := rwx (protectBelow 4097) (List.prefix_refl _) (by decide +kernel)
  have protection := page 0x2000 (by decide +kernel)
  exact absurd protection (by decide +kernel)

end A64dbg.PrivatePage
