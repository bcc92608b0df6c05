import A64dbg.Debugger

/-!
# One stop of the system call loop

What `syscallContinue` does at a stop by signal 5, as facts about the number in x8: a number
that is passed over or has no name changes nothing, any other calls one plugin hook and
turns `syscall_enter` over.
-/

namespace A64dbg

variable {overrun : Word → Option String} {session : Session} {name : String}

/-- The number in x8. -/
abbrev Session.syscallNum (session : Session) : Word := session.process.getRegisters.regs x8

/-- The tracee after the plugin hook of its stop. -/
def Session.hooked (overrun : Word → Option String) (session : Session) : Tracee :=
  match tracedName overrun session.syscallNum with
  | none => session.process
  | some name =>
    if session.debugger.syscallEnter then
      session.debugger.pluginHelper.callBefore name session.process
    else session.debugger.pluginHelper.callAfter name session.process

/-- Following a clone keeps the process. -/
theorem followClone_process (session : Session) (syscallNum : Word) :
    (session.followClone syscallNum).process = session.process := by
  unfold Session.followClone
  split <;> rfl

/-- A plugin call runs one hook, by the flag. -/
theorem callPlugin_process (session : Session) (name : String) :
    (session.callPlugin name).process =
      if session.debugger.syscallEnter then
        session.debugger.pluginHelper.callBefore name session.process
      else session.debugger.pluginHelper.callAfter name session.process := by
  unfold Session.callPlugin
  cases session.debugger.syscallEnter <;> rfl

/-- A plugin call turns the flag over. -/
theorem callPlugin_syscallEnter (session : Session) (name : String) :
    (session.callPlugin name).debugger.syscallEnter = !session.debugger.syscallEnter := by
  unfold Session.callPlugin
  cases session.debugger.syscallEnter <;> rfl

/-- A plugin call is recorded under the hook it ran. -/
theorem callPlugin_calls (session : Session) (name : String) :
    (session.callPlugin name).calls = session.calls ++
      [if session.debugger.syscallEnter then .before name else .after name] := by
  unfold Session.callPlugin
  cases session.debugger.syscallEnter <;> rfl

/-- A stop changes the flag, the tracee and the connector of the debugger and nothing else. -/
theorem syscallStop_keeps {α : Type} (field : Debugger → α)
    (flag : ∀ debugger enter, field { debugger with syscallEnter := enter } = field debugger)
    (target : ∀ debugger tracee connector,
      field { debugger with tracee := tracee, connector := connector } = field debugger)
    (session : Session) :
    field (session.syscallStop overrun).debugger = field session.debugger := by
  have plugin (session : Session) (name : String) :
      field (session.callPlugin name).debugger = field session.debugger := by
    unfold Session.callPlugin
    dsimp only
    split
    · exact flag _ _
    · exact flag _ _
  have follow (session : Session) (syscallNum : Word) :
      field (session.followClone syscallNum).debugger = field session.debugger := by
    unfold Session.followClone
    split
    · exact target _ _ _
    · rfl
  unfold Session.syscallStop
  dsimp only
  split
  · rfl
  · rw [follow]
    split
    · exact plugin _ _
    · rfl

/-- A pass changes the status of the wait and what a stop changes, and nothing else. -/
theorem syscallPass_keeps {α : Type} (field : Debugger → α)
    (flag : ∀ debugger enter, field { debugger with syscallEnter := enter } = field debugger)
    (target : ∀ debugger tracee connector,
      field { debugger with tracee := tracee, connector := connector } = field debugger)
    (session : Session) (status : WaitStatus) (process : Tracee) :
    field (session.syscallPass overrun (.waited status process)).1.debugger =
      field { session.debugger with waitStatus := status } := by
  rw [syscallPass_eq]
  dsimp only
  by_cases trap : isTrap status = true
  · rw [if_pos trap]
    exact syscallStop_keeps field flag target (session.waited status process)
  · rw [if_neg trap]
    rfl

/-- `clone` is always traced. -/
theorem tracedName_clone (overrun : Word → Option String) :
    tracedName overrun 220 = some "clone" := by
  have entry : aarch64Syscalls[(220 : Word).toNat]? = some (some "clone") := by decide +kernel
  unfold tracedName syscallName
  rw [if_neg (by decide), entry]

/-- A stop whose number is not traced changes nothing. -/
theorem syscallStop_untraced (untraced : tracedName overrun session.syscallNum = none) :
    session.syscallStop overrun = session := by
  have notClone : session.syscallNum ≠ 220 := fun clone => by
    rw [clone, tracedName_clone] at untraced
    cases untraced
  unfold tracedName at untraced
  unfold Session.syscallStop
  dsimp only
  split at untraced
  · next passed => rw [if_pos passed]
  · next reported =>
    rw [if_neg reported, untraced]
    unfold Session.followClone
    rw [beq_eq_false_iff_ne.mpr notClone, Bool.and_false, Bool.false_and]
    rfl

/-- A stop whose number is traced calls a plugin hook. -/
theorem syscallStop_traced (traced : tracedName overrun session.syscallNum = some name) :
    session.syscallStop overrun = (session.callPlugin name).followClone session.syscallNum := by
  unfold tracedName at traced
  unfold Session.syscallStop
  dsimp only
  split at traced
  · cases traced
  · next reported => rw [if_neg reported, traced]

/-- The process after a stop. -/
theorem syscallStop_process (session : Session) :
    (session.syscallStop overrun).process = session.hooked overrun := by
  unfold Session.hooked
  cases traced : tracedName overrun session.syscallNum with
  | none => rw [syscallStop_untraced traced]
  | some name => rw [syscallStop_traced traced, followClone_process, callPlugin_process]

/-- The process after one pass of the loop. -/
theorem syscallPass_process (session : Session) (status : WaitStatus) (process : Tracee) :
    (session.syscallPass overrun (.waited status process)).1.process =
      if isTrap status then (session.waited status process).hooked overrun else process := by
  rw [syscallPass_eq]
  by_cases trap : isTrap status = true
  · simp only [if_pos trap]
    exact syscallStop_process _
  · simp only [if_neg trap]
    rfl

end A64dbg
