import A64dbg.Verif.SyscallPhase

/-!
# The names of plugins

`checkForPlugins` asks whether the name of a plugin begins a name of the table; `syscallContinue`
looks a plugin up under the whole name, and passes over four system calls. A name that is too
short, or the name of a call that is passed over, is accepted for a plugin that never runs.
`names_sound_iff` says for every registry when acceptance means that the plugins run.
-/

namespace A64dbg.PluginNames

/-- The name is a system call of the table that `syscallContinue` does not pass over. -/
def Traced (name : String) : Prop :=
  ∃ syscallNum : Word, skipped syscallNum = false ∧
    aarch64Syscalls[syscallNum.toNat]? = some (some name)

/-- The name begins a name of the table, or is one that ends with a null. -/
def Begins (name : String) : Prop :=
  ∃ syscall, some syscall ∈ aarch64Syscalls ∧
    (name.toList <+: syscall.toList ∨ ∃ rest, name.toList = syscall.toList ++ '\x00' :: rest)

/-- A number of the table makes `syscallContinue` call both hooks of a plugin: at a stop with the
flag up the first, at the next stop with that number the second. -/
def Runs (overrun : Word → Option String) (helper : PluginHelper) (name : String)
    (plugin : Plugin) : Prop :=
  ∃ syscallNum : Word, syscallNum < 292 ∧ ∀ (session : Session) (entry exit : Tracee),
    session.debugger.pluginHelper = helper → session.debugger.syscallEnter = true →
    entry.syscallNum = syscallNum → exit.syscallNum = syscallNum →
    let entered := (session.syscallPass overrun (.waited sigTrap entry)).1
    let left := (entered.syscallPass overrun (.waited sigTrap exit)).1
    entered.process = plugin.beforeSyscall entry ∧
    entered.calls = session.calls ++ [.before name] ∧
    left.process = plugin.afterSyscall exit ∧
    left.calls = session.calls ++ [.before name, .after name]

/-- In every order of the registry, the plugins run if they are accepted, and they are not
accepted if the name of one is not traced. -/
def NamesSound (overrun : Word → Option String) (registry : PluginMap) : Prop :=
  ∀ order : List (String × Plugin), order.Perm registry.entries →
    let checked := PluginHelper.checkForPlugins (fun _ => none) order
    (checked.1 = true → ∀ entry ∈ registry.entries, Runs overrun checked.2 entry.1 entry.2) ∧
    ((∃ entry ∈ registry.entries, ¬Traced entry.1) → checked.1 = false)

/-- Comparing a string for its own length asks whether it begins the other, or agrees with it up
to a null. -/
theorem strncmpEq_iff (name : List Char) {syscall : List Char}
    (free : ∀ letter ∈ syscall, letter ≠ '\x00') :
    strncmpEq name.length name syscall = true ↔
      name <+: syscall ∨ ∃ rest, name = syscall ++ '\x00' :: rest := by
  induction name generalizing syscall with
  | nil => exact iff_of_true rfl (.inl List.nil_prefix)
  | cons letter rest ih =>
    rw [List.length_cons]
    unfold strncmpEq
    simp only [List.headD_cons, List.tail_cons]
    cases syscall with
    | nil =>
      simp only [List.headD_nil, List.prefix_nil, List.cons_ne_nil, false_or, List.nil_append,
        List.cons.injEq]
      by_cases null : letter = '\x00'
      · simp [null]
      · simp [null]
    | cons other more =>
      have here : other ≠ '\x00' := free other List.mem_cons_self
      have later : ∀ letter ∈ more, letter ≠ '\x00' :=
        fun letter member => free letter (List.mem_cons_of_mem other member)
      simp only [List.headD_cons, List.tail_cons, List.cons_prefix_cons, List.cons_append,
        List.cons.injEq]
      by_cases same : letter = other
      · subst same
        simp only [ne_eq, not_true_eq_false, if_false, here, true_and]
        exact ih later
      · simp [same]

/-- The names of the table hold no null. -/
theorem syscall_free {syscall : String} (listed : some syscall ∈ aarch64Syscalls) :
    ∀ letter ∈ syscall.toList, letter ≠ '\x00' := by
  have all : (aarch64Syscalls.all fun entry => entry.elim true fun syscall =>
      syscall.toList.all fun letter => letter != '\x00') = true := by
    decide +kernel
  have each := List.all_eq_true.mp (List.all_eq_true.mp all _ listed)
  intro letter member
  exact bne_iff_ne.mp (each letter member)

/-- `checkForPlugins` takes a name that begins with a listed system call. -/
theorem isSyscall_iff (name : String) : isSyscall name = true ↔ Begins name := by
  unfold isSyscall Begins
  rw [List.any_eq_true]
  constructor
  · rintro ⟨entry, listed, compared⟩
    cases entry with
    | none => cases compared
    | some syscall =>
      exact ⟨syscall, listed, (strncmpEq_iff _ (syscall_free listed)).mp compared⟩
  · rintro ⟨syscall, listed, begins⟩
    exact ⟨some syscall, listed, (strncmpEq_iff _ (syscall_free listed)).mpr begins⟩

/-- The plugins are accepted exactly when each of their names passes the test. -/
theorem checked_iff (registered : PluginHelper) (order : List (String × Plugin)) :
    (PluginHelper.checkForPlugins registered order).1 = true ↔
      ∀ entry ∈ order, Begins entry.1 := by
  induction order generalizing registered with
  | nil => exact iff_of_true rfl fun _ listed => (nomatch listed)
  | cons entry rest ih =>
    obtain ⟨name, plugin⟩ := entry
    rw [List.forall_mem_cons, ← isSyscall_iff]
    unfold PluginHelper.checkForPlugins
    cases isSyscall name with
    | true => exact (ih _).trans (and_iff_right rfl).symm
    | false => exact iff_of_false Bool.false_ne_true fun both => (nomatch both.1)

/-- The loop leaves a name that does not come up again as it is. -/
theorem checked_other (registered : PluginHelper) {order : List (String × Plugin)} {name : String}
    (absent : name ∉ order.map Prod.fst) :
    (PluginHelper.checkForPlugins registered order).2 name = registered name := by
  induction order generalizing registered with
  | nil => rfl
  | cons entry rest ih =>
    obtain ⟨other, plugin⟩ := entry
    rw [List.map_cons, List.mem_cons, not_or] at absent
    unfold PluginHelper.checkForPlugins
    cases isSyscall other with
    | false => rfl
    | true =>
      rw [if_pos rfl, ih _ absent.2]
      exact Function.update_of_ne absent.1 _ _

/-- Accepted plugins are there under their names. -/
theorem checked_registered (registered : PluginHelper) {order : List (String × Plugin)}
    (distinct : (order.map Prod.fst).Nodup)
    (accepted : (PluginHelper.checkForPlugins registered order).1 = true) :
    ∀ entry ∈ order,
      (PluginHelper.checkForPlugins registered order).2 entry.1 = some entry.2 := by
  induction order generalizing registered with
  | nil => exact fun _ listed => (nomatch listed)
  | cons entry rest ih =>
    obtain ⟨name, plugin⟩ := entry
    rw [List.map_cons, List.nodup_cons] at distinct
    unfold PluginHelper.checkForPlugins at accepted ⊢
    cases known : isSyscall name with
    | false =>
      rw [known] at accepted
      cases accepted
    | true =>
      rw [known, if_pos rfl] at accepted
      rw [if_pos rfl, List.forall_mem_cons]
      refine ⟨?_, ih _ distinct.2 accepted⟩
      rw [checked_other _ distinct.1]
      exact Function.update_self ..

section Hooks

variable {overrun : Word → Option String} {name : String}

/-- A stop at a traced number calls the hook of its name and flips the flag. -/
theorem pass_traced (session : Session) {process : Tracee}
    (traced : tracedName overrun process.syscallNum = some name) :
    let passed := (session.syscallPass overrun (.waited sigTrap process)).1
    passed.debugger.pluginHelper = session.debugger.pluginHelper ∧
    passed.debugger.syscallEnter = !session.debugger.syscallEnter ∧
    passed.calls = session.calls ++
      [if session.debugger.syscallEnter then .before name else .after name] ∧
    passed.process =
      if session.debugger.syscallEnter then
        session.debugger.pluginHelper.callBefore name process
      else session.debugger.pluginHelper.callAfter name process := by
  intro passed
  have settled := syscallPass_settled overrun session (.waited sigTrap process)
  have recorder : passed.recorder =
      (pluginScheme overrun).meet session.recorder process.syscallNum :=
    syscallPass_recorder overrun session (.entry process)
  have met : (pluginScheme overrun).meet session.recorder process.syscallNum =
      ⟨!session.debugger.syscallEnter, session.calls ++
        [if session.debugger.syscallEnter then .before name else .after name]⟩ := by
    have shown : (pluginScheme overrun).name process.syscallNum = some name := traced
    unfold Parity.Scheme.meet
    rw [shown]
    rfl
  rw [met] at recorder
  refine ⟨congrArg (fun settled => settled.2.1) settled, congrArg Parity.Recorder.flag recorder,
    congrArg Parity.Recorder.marks recorder, ?_⟩
  have hooked : passed.process =
      if isTrap sigTrap then (session.waited sigTrap process).hooked overrun else process :=
    syscallPass_process session sigTrap process
  have shown : tracedName overrun (session.waited sigTrap process).syscallNum = some name := traced
  rw [hooked, isTrap_sigTrap, if_pos rfl, Session.hooked, shown]
  rfl

end Hooks

/-- A traced name has a number under which `syscallContinue` reports it. -/
theorem Traced.number {name : String} (traced : Traced name) (overrun : Word → Option String) :
    ∃ syscallNum : Word, syscallNum < 292 ∧ tracedName overrun syscallNum = some name := by
  obtain ⟨syscallNum, reported, entry⟩ := traced
  refine ⟨syscallNum, inside_of_named entry, ?_⟩
  simp only [tracedName, reported, Bool.false_eq_true, if_false, syscallName, entry]

/-- A plugin under a traced name runs. -/
theorem Traced.runs {name : String} (traced : Traced name) (overrun : Word → Option String)
    {helper : PluginHelper} {plugin : Plugin} (registered : helper name = some plugin) :
    Runs overrun helper name plugin := by
  obtain ⟨syscallNum, inside, reported⟩ := traced.number overrun
  refine ⟨syscallNum, inside, ?_⟩
  intro session entry exit helped entering entryNum exitNum entered left
  have entryReported : tracedName overrun entry.syscallNum = some name := entryNum ▸ reported
  have exitReported : tracedName overrun exit.syscallNum = some name := exitNum ▸ reported
  obtain ⟨kept, lowered, called, hooked⟩ := pass_traced session entryReported
  obtain ⟨-, -, calledAfter, hookedAfter⟩ := pass_traced entered exitReported
  have down : entered.debugger.syscallEnter = false := by rw [lowered, entering]; rfl
  have plugins : entered.debugger.pluginHelper name = some plugin := by
    rw [kept, helped, registered]
  have began : entered.calls = session.calls ++ [.before name] := by
    rw [called, entering, if_pos rfl]
  refine ⟨?_, began, ?_, ?_⟩
  · rw [hooked, entering, if_pos rfl, helped, PluginHelper.callBefore, registered]
  · rw [hookedAfter, down, if_neg Bool.false_ne_true, PluginHelper.callAfter, plugins]
  · rw [calledAfter, began, down, if_neg Bool.false_ne_true, List.append_assoc]
    rfl

/-- The plugins are accepted in every order or in none. -/
theorem checked_order {registry : PluginMap} {order : List (String × Plugin)}
    (perm : order.Perm registry.entries) :
    (PluginHelper.checkForPlugins (fun _ => none) order).1 = true ↔
      ∀ entry ∈ registry.entries, Begins entry.1 := by
  rw [checked_iff]
  exact forall_congr' fun entry => imp_congr_left perm.mem_iff

/-- **When an accepted plugin is one that runs.** For every registry, acceptance means in every
order that all plugins run, and a name that is not traced is always rejected, exactly when some
name begins no name of the table or every name is traced. -/
theorem names_sound_iff (overrun : Word → Option String) (registry : PluginMap) :
    NamesSound overrun registry ↔
      (∃ entry ∈ registry.entries, ¬Begins entry.1) ∨
        ∀ entry ∈ registry.entries, Traced entry.1 := by
  constructor
  · intro sound
    by_cases begun : ∀ entry ∈ registry.entries, Begins entry.1
    · right
      intro entry listed
      by_contra untraced
      have accepted := (checked_order (List.Perm.refl registry.entries)).mpr begun
      have rejected := (sound registry.entries (List.Perm.refl _)).2 ⟨entry, listed, untraced⟩
      cases accepted.symm.trans rejected
    · left
      push Not at begun
      exact begun
  · rintro (⟨entry, listed, unbegun⟩ | traced) order perm
    · have rejected : (PluginHelper.checkForPlugins (fun _ => none) order).1 = false := by
        rw [← Bool.not_eq_true, checked_order perm]
        exact fun begun => unbegun (begun entry listed)
      constructor
      · intro accepted
        cases rejected.symm.trans accepted
      · exact fun _ => rejected
    · constructor
      · intro accepted entry listed
        have distinct := (perm.map Prod.fst).nodup_iff.mpr registry.distinct
        have registered := checked_registered _ distinct accepted entry (perm.mem_iff.mpr listed)
        exact (traced entry listed).runs overrun registered
      · rintro ⟨entry, listed, untraced⟩
        exact absurd (traced entry listed) untraced

/-- A plugin that does nothing. -/
def idle : Plugin := ⟨id, id⟩

/-- A registry of one plugin. -/
def registryOf (name : String) : PluginMap := ⟨[(name, idle)], List.nodup_singleton name⟩

/-- A name that is accepted and not traced makes acceptance unsound. -/
theorem unsound_of_accepted {overrun : Word → Option String} {name : String}
    (untraced : ¬Traced name)
    (accepted : (PluginHelper.checkForPlugins (fun _ => none) (registryOf name).entries).1 = true) :
    ¬NamesSound overrun (registryOf name) := by
  intro sound
  have rejected := (sound _ (List.Perm.refl _)).2 ⟨_, List.mem_singleton.mpr rfl, untraced⟩
  cases accepted.symm.trans rejected

/-- A plugin named `rea` is accepted, as `read` begins so, and no system call has its name. So is
one named `futex`, which is passed over. -/
theorem rea_accepted :
    ¬NamesSound (fun _ => none) (registryOf "rea") ∧
    ¬NamesSound (fun _ => none) (registryOf "futex") ∧
    (PluginHelper.checkForPlugins (fun _ => none) (registryOf "rea").entries).1 = true ∧
    (PluginHelper.checkForPlugins (fun _ => none) (registryOf "futex").entries).1 = true := by
  have rea : (PluginHelper.checkForPlugins (fun _ => none) (registryOf "rea").entries).1 =
      true := by decide +kernel
  have futex : (PluginHelper.checkForPlugins (fun _ => none) (registryOf "futex").entries).1 =
      true := by decide +kernel
  have unlisted : some "rea" ∉ aarch64Syscalls := by decide +kernel
  have numbered : ∀ number ∈ List.range 292,
      aarch64Syscalls[number]? = some (some "futex") → number = 98 := by decide +kernel
  have unnamed : ¬Traced "rea" := by
    rintro ⟨syscallNum, -, entry⟩
    exact unlisted (List.mem_of_getElem? entry)
  have passed : ¬Traced "futex" := by
    rintro ⟨syscallNum, reported, entry⟩
    have inside : syscallNum.toNat < 292 := inside_of_named entry
    have number := numbered syscallNum.toNat (List.mem_range.mpr inside) entry
    have same : syscallNum = 98 := BitVec.eq_of_toNat_eq number
    rw [same] at reported
    cases reported
  exact ⟨unsound_of_accepted unnamed rea, unsound_of_accepted passed futex, rea, futex⟩

end A64dbg.PluginNames
