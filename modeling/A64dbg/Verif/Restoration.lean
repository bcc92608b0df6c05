import A64dbg.Library.Patches
import A64dbg.Verif.SoftwareFrame

/-!
# Full restoration of spaced breakpoints

Words at equal addresses or at least eight bytes apart do not overlap, so every setting
patches the tracee at one site and every restore takes one patch off. The memory of the
tracee is then the original memory patched at the armed addresses, whatever the order of
settings and stops, and `BreakPoints` holds the original word of every site it knows.
-/

namespace A64dbg.Restoration

open ByteMemory Runs Tracee SoftwareFrame

variable {overrun : Word → Option String} {text sites : Addr → Prop} {original : Memory}

/-- Equal addresses, or eight bytes apart. -/
def Spaced (left right : Addr) : Prop :=
  left = right ∨ left.toNat + 8 ≤ right.toNat ∨ right.toNat + 8 ≤ left.toNat

/-- Breakpoints at mapped words, and continues of a tracee that keeps its text. -/
def Admitted (text : Addr → Prop) (watch : Watch) : Move → Prop
  | .setBreakPoint bpAddr => Mapped watch.memory bpAddr 8
  | .resume .contin answer => KeepsText text watch answer
  | _ => False

/-- The settings of a run, in order. -/
def settings (run : List Move) : List Addr :=
  run.filterMap fun move => match move with
    | .setBreakPoint bpAddr => some bpAddr
    | _ => none

/-- Every setting is at one of the sites. -/
def AtSites (sites : Addr → Prop) (move : Move) : Prop :=
  ∀ bpAddr, move = .setBreakPoint bpAddr → sites bpAddr

/-- The tracee is its original memory patched at the armed addresses, and `BreakPoints` holds
the original word of each mapped site it knows. -/
structure Restorable (text sites : Addr → Prop) (original : Memory) (watch : Watch) : Prop where
  /-- Armed addresses have entries. -/
  armed : watch.Entered
  /-- Entries are at sites. -/
  site : ∀ addr data, watch.entries addr = some data → sites addr
  /-- Their words are mapped. -/
  mapped : ∀ addr data, watch.entries addr = some data → Mapped watch.memory addr 8
  /-- They spell the original word. -/
  saved : ∀ addr data, watch.entries addr = some data → ∀ index < 8, text (above addr index) →
    original (above addr index) = some (byteOf data index)
  /-- Memory is original but for the armed words. -/
  patched : Patched text original (fun addr => watch.armed addr ≠ none) 8 (instrWord brk)
    watch.memory

/-- Spaced words that end inside the address space share no address. -/
theorem Spaced.apart {left right : Addr} (spaced : Spaced left right) (differ : left ≠ right)
    (leftEnd : left.toNat + 8 ≤ 2 ^ 64) (rightEnd : right.toNat + 8 ≤ 2 ^ 64) :
    Apart 8 left right := by
  intro address
  unfold offset
  rcases spaced with same | before | after
  · exact absurd same differ
  · by_contra both
    push Not at both
    bv_omega
  · by_contra both
    push Not at both
    bv_omega

/-- An armed site is apart from every other mapped site. -/
theorem Restorable.apart {watch : Watch} (restorable : Restorable text sites original watch)
    (spaced : ∀ left right, sites left → sites right → Spaced left right) {site : Addr}
    (member : sites site) (mapped : Mapped watch.memory site 8) (other : Addr)
    (armed : watch.armed other ≠ none) (differ : other ≠ site) : Apart 8 other site := by
  obtain ⟨instr, armed⟩ := Option.ne_none_iff_exists'.mp armed
  obtain ⟨data, entry⟩ := restorable.armed other instr armed
  have known := restorable.site other data entry
  exact (spaced other site known member).apart differ (restorable.mapped other data entry).1
    mapped.1

/-- Setting a breakpoint at a site keeps the tracee restorable. -/
theorem restorable_set {watch : Watch} {bpAddr : Addr}
    (restorable : Restorable text sites original watch)
    (spaced : ∀ left right, sites left → sites right → Spaced left right) (member : sites bpAddr)
    (mapped : Mapped watch.memory bpAddr 8) :
    Restorable text sites original (watch.step overrun (.setBreakPoint bpAddr)) := by
  have apart := restorable.apart spaced member mapped
  constructor
  · exact Watch.entered_step restorable.armed _
  · intro addr data entry
    rcases mapInsert_cases entry with old | ⟨rfl, -, -⟩
    · exact restorable.site addr data old
    · exact member
  · intro addr data entry
    rcases mapInsert_cases entry with old | ⟨rfl, -, -⟩
    · exact mapped_poke _ (restorable.mapped addr data old)
    · exact mapped_poke _ mapped
  · intro addr data entry
    rcases mapInsert_cases entry with old | ⟨rfl, absent, rfl⟩
    · exact restorable.saved addr data old
    · -- The first setting of a site reads a word no patch reaches.
      intro index small inside
      have place := offset_above addr index (Nat.lt_trans small (by decide))
      rw [← restorable.patched.elsewhere _ inside fun other armed => ?_]
      · exact peekText_holds mapped index small
      · have differ : other ≠ addr := by
          rintro rfl
          exact armed (restorable.armed.unarmed absent)
        exact (apart other armed differ _).resolve_right (by omega)
  · rw [Watch.step_set_memory, Watch.step_set_armed, pokeMemory_mapped _ mapped]
    apply restorable.patched.set (by decide) apart
    intro other
    by_cases here : other = bpAddr
    · simp only [here, watch.arm_self mapped, true_or, iff_true]
      exact Option.some_ne_none _
    · simp only [here, watch.arm_other here, false_or]

/-- A continue of a tracee that keeps its text keeps it restorable. -/
theorem restorable_contin {watch : Watch} {answer : Resume}
    (restorable : Restorable text sites original watch)
    (spaced : ∀ left right, sites left → sites right → Spaced left right)
    (keeps : KeepsText text watch answer) :
    Restorable text sites original (watch.step overrun (.resume .contin answer)) := by
  have mapped : ∀ addr data, watch.entries addr = some data →
      Mapped (answer.memory watch.memory) addr 8 := by
    intro addr data entry
    exact keeps.mapped addr data entry (restorable.mapped addr data entry)
  have kept : Patched text original (fun addr => watch.armed addr ≠ none) 8 (instrWord brk)
      (answer.memory watch.memory) :=
    restorable.patched.congr keeps.bytes fun _ => Iff.rfl
  constructor
  · exact Watch.entered_step restorable.armed _
  · intro addr data entry
    rw [Watch.step_resume_entries] at entry
    exact restorable.site addr data entry
  · intro addr data entry
    rw [Watch.step_resume_entries] at entry
    exact keeps.mapped_step entry (restorable.mapped addr data entry)
  · intro addr data entry
    rw [Watch.step_resume_entries] at entry
    exact restorable.saved addr data entry
  · rw [Watch.step_contin_armed]
    rcases watch.step_contin_cases overrun answer with
      ⟨quiet, memory⟩ | ⟨process, data, trap, entry, memory⟩
    · rw [memory]
      apply kept.congr (fun _ _ => rfl)
      intro addr
      constructor
      · intro armed
        obtain ⟨instr, armed⟩ := Option.ne_none_iff_exists'.mp armed
        rw [watch.disarm_some armed]
        exact Option.some_ne_none _
      · intro armed unarmed
        obtain ⟨instr, armed⟩ := Option.ne_none_iff_exists'.mp armed
        obtain ⟨process, trap, rfl⟩ := watch.disarmed armed unarmed
        cases (restorable.armed.unarmed (quiet process trap)).symm.trans armed
    · have apart := restorable.apart spaced (restorable.site _ data entry)
        (restorable.mapped _ data entry)
      rw [memory, pokeMemory_mapped _ (mapped _ data entry)]
      apply kept.restore (by decide) apart (restorable.saved _ data entry)
      intro addr
      by_cases here : addr = process.registers.pc
      · simp [here, watch.disarm_of_trap trap]
      · simp [here, watch.disarm_other trap here]

/-- Every admitted move at the sites keeps the tracee restorable. -/
theorem restorable_step {watch : Watch} {move : Move}
    (restorable : Restorable text sites original watch)
    (spaced : ∀ left right, sites left → sites right → Spaced left right)
    (admitted : Admitted text watch move) (atSites : AtSites sites move) :
    Restorable text sites original (watch.step overrun move) := by
  cases move with
  | setBreakPoint bpAddr =>
    exact restorable_set restorable spaced (atSites bpAddr rfl) admitted
  | resume command answer =>
    cases command with
    | contin => exact restorable_contin restorable spaced admitted
    | next => exact admitted.elim
    | syscallContin => exact admitted.elim
    | straceMode => exact admitted.elim
  | setHwBreakPoint bpAddr bpNum => exact admitted.elim
  | rewrite memory => exact admitted.elim

/-- Before any breakpoint is set the tracee is its original memory. -/
theorem restorable_fresh {watch : Watch} (fresh : watch.Fresh) :
    Restorable text sites watch.memory watch := by
  have entryless : ∀ addr data, watch.entries addr ≠ some data := fresh.no_entry
  constructor
  · exact fresh.entered
  · intro addr data entry
    exact absurd entry (entryless addr data)
  · intro addr data entry
    exact absurd entry (entryless addr data)
  · intro addr data entry
    exact absurd entry (entryless addr data)
  · apply patched_start
    intro addr armed
    rw [fresh.armed] at armed
    exact armed rfl

/-- **Full restoration for spaced breakpoints.** Over any tracee that keeps its text, a run of
settings at mapped words that are equal or eight bytes apart, and of continues, keeps the text
original but for the word `00000000D4200000` at each armed address, in every state it reaches;
where nothing is armed the text is original byte for byte. -/
theorem restored_spaced {watch : Watch} {run : List Move} (fresh : watch.Fresh)
    (admitted : Along (Watch.step overrun) (Admitted text) watch run)
    (spaced : ∀ left ∈ settings run, ∀ right ∈ settings run, Spaced left right) :
    Throughout (Watch.step overrun)
      (fun reached =>
        Patched text watch.memory (fun addr => reached.armed addr ≠ none) 8
          (0x00000000D4200000 : Word) reached.memory ∧
        ((∀ addr, reached.armed addr = none) →
          ∀ addr, text addr → reached.memory addr = watch.memory addr))
      watch run := by
  have atSites : ∀ move ∈ run, ∀ _ : Watch, AtSites (· ∈ settings run) move := by
    rintro move member - bpAddr rfl
    exact List.mem_filterMap.mpr ⟨_, member, rfl⟩
  intro reached initial
  have along := (admitted.and (along_of_mem run atSites watch)).initial initial
  have restorable : Restorable text (· ∈ settings run) watch.memory
      (after (Watch.step overrun) watch reached) :=
    along.keeps (restorable_fresh fresh) fun state move restorable both =>
      restorable_step restorable (fun left right inLeft inRight => spaced left inLeft right inRight)
        both.1 both.2
  constructor
  · exact restorable.patched
  · intro none addr inside
    apply restorable.patched.eq_original _ inside
    intro site armed
    exact armed (none site)

/-- Two breakpoints among `nop`s, the first of them set once more. -/
def twoSites : List Move :=
  [.setBreakPoint 0x1000, .setBreakPoint 0x1008, .setBreakPoint 0x1000]

/-- A tracee that was not resumed, stopped at an address. -/
def stopAt (watch : Watch) (addr : Addr) : Move :=
  .resume .contin (.waited sigTrap (Tracee.stoppedAt watch.memory addr))

/-- The breakpoints of `twoSites` are set. -/
def bothSet : Watch := after (Watch.step fun _ => none) (Watch.start nops) twoSites

/-- They are set, and the tracee stops at each. -/
def setTwiceAndStop : List Move :=
  twoSites ++
    [stopAt bothSet 0x1008,
      stopAt (bothSet.step (fun _ => none) (stopAt bothSet 0x1008)) 0x1000]

/-- A stop with the memory as it was keeps the text. -/
theorem stopAt_keepsText (watch : Watch) (addr : Addr) :
    KeepsText (fun _ => True) watch
      (.waited sigTrap (Tracee.stoppedAt watch.memory addr)) :=
  ⟨fun _ _ => rfl, fun _ _ _ mapped => mapped⟩

/-- After both stops nothing is armed. -/
theorem setTwiceAndStop_armed (addr : Addr) :
    (after (Watch.step fun _ => none) (Watch.start nops) setTwiceAndStop).armed addr = none := by
  let first := bothSet.step (fun _ => none) (stopAt bothSet 0x1008)
  show (first.step (fun _ => none) (stopAt first 0x1000)).armed addr = none
  rw [stopAt, Watch.step_contin_armed, Watch.disarm_of_trap _ (trap_sigTrap _)]
  by_cases here : addr = 0x1000
  · rw [here]
    exact Function.update_self ..
  · refine (Function.update_of_ne here _ _).trans ?_
    show (bothSet.step (fun _ => none) (stopAt bothSet 0x1008)).armed addr = none
    rw [stopAt, Watch.step_contin_armed, Watch.disarm_of_trap _ (trap_sigTrap _)]
    by_cases other : addr = 0x1008
    · rw [other]
      exact Function.update_self ..
    · refine (Function.update_of_ne other _ _).trans ?_
      simp only [bothSet, twoSites, List.foldl_cons, List.foldl_nil, Watch.step_set_armed]
      rw [Watch.arm_other _ here, Watch.step_set_armed, Watch.arm_other _ other,
        Watch.step_set_armed, Watch.arm_other _ here]
      rfl

/-- Two breakpoints set and hit among `nop`s, one of them set twice, leave the `nop`s. -/
theorem restored_once :
    (after (Watch.step fun _ => none) (Watch.start nops) setTwiceAndStop).memory = nops := by
  have mapped (addr : Addr) (inside : Mapped nops addr 8) :
      Mapped (pokeMemory nops 0x1000 (instrWord brk)) addr 8 ∧
        Mapped (pokeMemory (pokeMemory nops 0x1000 (instrWord brk)) 0x1008 (instrWord brk))
          addr 8 := ⟨mapped_poke _ inside, mapped_poke _ (mapped_poke _ inside)⟩
  have here : Mapped nops 0x1000 8 := by decide
  have admitted : Along (Watch.step fun _ => none) (Admitted fun _ => True) (Watch.start nops)
      setTwiceAndStop :=
    ⟨here, (mapped 0x1008 (by decide)).1, (mapped 0x1000 here).2,
      stopAt_keepsText _ _, stopAt_keepsText _ _, trivial⟩
  have sites : settings setTwiceAndStop = [0x1000, 0x1008, 0x1000] := rfl
  have spaced : ∀ left ∈ settings setTwiceAndStop, ∀ right ∈ settings setTwiceAndStop,
      Spaced left right := by
    have apart : Spaced 0x1000 0x1008 ∧ Spaced 0x1008 0x1000 := by
      unfold Spaced
      decide
    rw [sites]
    simp only [List.forall_mem_cons, List.not_mem_nil, false_implies, implies_true, and_true]
    exact ⟨⟨.inl rfl, apart.1, .inl rfl⟩, ⟨apart.2, .inl rfl, apart.2⟩, .inl rfl, apart.1, .inl rfl⟩
  obtain ⟨-, clean⟩ := restored_spaced (Watch.start_fresh nops) admitted spaced _
    (List.prefix_refl _)
  funext addr
  exact clean setTwiceAndStop_armed addr trivial

end A64dbg.Restoration
