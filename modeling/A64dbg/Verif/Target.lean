import A64dbg.StartUp

/-!
# The target of a start

The arguments of the program are options, the arguments of options, and others; `items` reads them
so. A start should leave exactly one target, or be refused. `startUpArgs` refuses only a process
id that is missing or reads as -1, so arguments that name no target are accepted, and a process id
that is no number ends the program. `selects_iff` says for which arguments it does what is due.
-/

namespace A64dbg.Target

/-- What the loop over the arguments takes one of them for. -/
inductive Item where
  /-- `-f`. -/
  | follow
  /-- `-p`, with the argument after it, if there is one. -/
  | pid (argument : Option Text)
  /-- Any other. -/
  | binary (name : Text)
deriving DecidableEq

/-- The arguments in order, each `-p` with its own. -/
def items : List Text → List Item
  | [] => []
  | param :: rest =>
    if param = followOption then .follow :: items rest
    else if param = pidOption then
      match rest with
      | [] => [.pid none]
      | argument :: rest => .pid (some argument) :: items rest
    else .binary param :: items rest

/-- The argument of a `-p`. -/
def Item.pid? : Item → Option (Option Text)
  | .pid argument => some argument
  | .follow | .binary _ => none

/-- An argument that is neither an option nor the argument of a `-p`. -/
def Item.binary? : Item → Option Text
  | .binary name => some name
  | .follow | .pid _ => none

/-- What the argument of a `-p` is parsed to: none where it is missing or parsing throws. -/
def parsed (argument : Option Text) : Option Word := argument.bind stringToU64

/-- A `-p` whose argument is missing or unparsable. -/
def Item.bad (item : Item) : Bool :=
  match item.pid? with
  | none => false
  | some argument => parsed argument == none || parsed argument == some (-1)

/-- A `-p` whose argument makes parsing throw. -/
def Item.throws (item : Item) : Bool :=
  match item.pid? with
  | some (some argument) => stringToU64 argument == none
  | _ => false

/-- The argument of the last `-p`. -/
def lastPid (arguments : List Item) : Option (Option Text) :=
  (arguments.filterMap Item.pid?).getLast?

/-- The last of the other arguments. -/
def lastBinary (arguments : List Item) : Option Text :=
  (arguments.filterMap Item.binary?).getLast?

/-- A process to attach to: the one that the last `-p` names. -/
def Attaches (arguments : List Item) (args : StartUp) : Prop :=
  args.attachMode = true ∧ args.binaryName = [] ∧
    ∃ argument, lastPid arguments = some argument ∧ parsed argument = some args.targetPid

/-- A program to start: one of the arguments that are neither options nor belong to one. -/
def Starts (arguments : List Item) (args : StartUp) : Prop :=
  args.attachMode = false ∧ args.binaryName ≠ [] ∧ .binary args.binaryName ∈ arguments

/-- No target is given, or a process id is missing or unparsable. -/
def Targetless (arguments : List Item) : Prop :=
  (∀ item ∈ arguments, item.pid? = none ∧ ∀ name, item.binary? = some name → name = []) ∨
    ∃ item ∈ arguments, item.bad = true

/-- `startUpArgs` returns; on success it leaves exactly one target, and follows forks exactly when
`-f` is an option; and without a target it fails. -/
def Selects (argv : List Text) : Prop :=
  ∃ success args, startUpArgs argv = some (success, args) ∧
    (success = true →
      (Attaches (items argv.tail) args ∨ Starts (items argv.tail) args) ∧
      ¬(Attaches (items argv.tail) args ∧ Starts (items argv.tail) args) ∧
      (args.followFork = true ↔ .follow ∈ items argv.tail)) ∧
    (Targetless (items argv.tail) → success = false)

/-- The program is called without arguments; or the first `-p` that is bad has no argument that
makes parsing throw; or none is bad and there is a `-p`, or else the last of the other arguments
is there and not empty. -/
def Targeted (argv : List Text) : Prop :=
  argv.length = 1 ∨
    match (items argv.tail).find? Item.bad with
    | some item => item.throws = false
    | none => lastPid (items argv.tail) ≠ none ∨
        ∃ name, lastBinary (items argv.tail) = some name ∧ name ≠ []

/-- What the loop does with an argument that is not bad. -/
def accept (args : StartUp) : Item → StartUp
  | .follow => { args with followFork := true }
  | .pid argument =>
    { args with attachMode := true, targetPid := (parsed argument).getD args.targetPid }
  | .binary name => { args with binaryName := name }

/-- `-f` at the front is the first item. -/
theorem items_follow (rest : List Text) : items (followOption :: rest) = .follow :: items rest := by
  rw [items.eq_def]
  exact if_pos rfl

/-- Any other argument that is no option names a binary. -/
theorem items_binary {param : Text} (notFollow : param ≠ followOption) (notPid : param ≠ pidOption)
    (rest : List Text) : items (param :: rest) = .binary param :: items rest := by
  rw [items.eq_def]
  exact (if_neg notFollow).trans (if_neg notPid)

/-- The loop sets `followFork` at `-f`. -/
theorem parseParams_follow (args : StartUp) (rest : List Text) :
    args.parseParams (followOption :: rest) =
      StartUp.parseParams { args with followFork := true } rest := by
  rw [StartUp.parseParams.eq_def]
  exact if_pos rfl

/-- The loop at any other argument that is no option. -/
theorem parseParams_binary (args : StartUp) {param : Text} (notFollow : param ≠ followOption)
    (notPid : param ≠ pidOption) (rest : List Text) :
    args.parseParams (param :: rest) =
      StartUp.parseParams { args with binaryName := param } rest := by
  rw [StartUp.parseParams.eq_def]
  exact (if_neg notFollow).trans (if_neg notPid)

/-- What the loop does with the arguments: it accepts those before the first bad one, and there
returns false or is left by an exception. -/
theorem parseParams_eq (args : StartUp) (params : List Text) :
    match (items params).find? Item.bad with
    | none => args.parseParams params = some (true, (items params).foldl accept args)
    | some item =>
      if item.throws then args.parseParams params = none
      else ∃ left, args.parseParams params = some (false, left) := by
  induction params using items.induct generalizing args with
  | case1 => rfl
  | case2 rest ih =>
    have good : Item.follow.bad = false := rfl
    simp only [items_follow, parseParams_follow, List.find?_cons, good, List.foldl_cons]
    exact ih _
  | case3 other =>
    have bad : (Item.pid none).bad = true := rfl
    simp only [items, StartUp.parseParams, other, if_false, if_true, List.find?_cons, bad]
    exact ⟨_, rfl⟩
  | case4 argument rest other ih =>
    simp only [items, StartUp.parseParams, other, if_false, if_true, List.find?_cons,
      List.foldl_cons]
    cases read : stringToU64 argument with
    | none =>
      have bad : (Item.pid (some argument)).bad = true := by
        simp [Item.bad, Item.pid?, parsed, read]
      have throws : (Item.pid (some argument)).throws = true := by
        simp [Item.throws, Item.pid?, read]
      simp only [bad, throws, if_true]
    | some word =>
      by_cases error : word = -1
      · subst error
        have bad : (Item.pid (some argument)).bad = true := by
          simp [Item.bad, Item.pid?, parsed, read]
        have quiet : (Item.pid (some argument)).throws = false := by
          simp [Item.throws, Item.pid?, read]
        simp only [bad, quiet, if_true, Bool.false_eq_true, if_false]
        exact ⟨_, rfl⟩
      · have good : (Item.pid (some argument)).bad = false := by
          simpa [Item.bad, Item.pid?, parsed, read] using error
        have taken : accept args (.pid (some argument)) =
            { args with attachMode := true, targetPid := word } := by
          simp only [accept, parsed, Option.bind_some, read, Option.getD_some]
        simp only [good, taken, if_neg error]
        exact ih _
  | case5 param rest notFollow notPid ih =>
    have good : (Item.binary param).bad = false := rfl
    simp only [items_binary notFollow notPid, parseParams_binary args notFollow notPid,
      List.find?_cons, good, List.foldl_cons]
    exact ih _

/-- The last of the values that a test finds in a list, with one more element. -/
theorem last_append {α β : Type} (test : α → Option β) (list : List α) (element : α) :
    ((list ++ [element]).filterMap test).getLast? =
      (test element).or (list.filterMap test).getLast? := by
  rw [List.filterMap_append, List.getLast?_append]
  cases found : test element with
  | none => simp [found]
  | some value => simp [found]

/-- The fields after arguments that are accepted. -/
structure Final (arguments : List Item) (args : StartUp) : Prop where
  /-- `follow_fork` says whether `-f` is among them. -/
  follow : args.followFork = true ↔ .follow ∈ arguments
  /-- `attach_mode` says whether a `-p` is. -/
  attach : args.attachMode = (lastPid arguments).isSome
  /-- `target_pid` is from the last `-p`. -/
  pid : ∀ argument word, lastPid arguments = some argument → parsed argument = some word →
    args.targetPid = word
  /-- `binary_name` is the last other argument. -/
  binary : args.binaryName = (lastBinary arguments).getD []

/-- The loop leaves the last value of each option. -/
theorem final_accept (arguments : List Item) :
    Final arguments (arguments.foldl accept .initial) := by
  induction arguments using List.reverseRecOn with
  | nil => exact ⟨by simp [StartUp.initial], rfl, fun _ _ none => (nomatch none), rfl⟩
  | append_singleton arguments item ih =>
    rw [List.foldl_append, List.foldl_cons, List.foldl_nil]
    have pids : lastPid (arguments ++ [item]) = item.pid?.or (lastPid arguments) :=
      last_append Item.pid? arguments item
    have binaries : lastBinary (arguments ++ [item]) = item.binary?.or (lastBinary arguments) :=
      last_append Item.binary? arguments item
    cases item with
    | follow =>
      rw [Item.pid?, Option.none_or] at pids
      rw [Item.binary?, Option.none_or] at binaries
      constructor
      · exact iff_of_true rfl (by simp)
      · exact ih.attach.trans (by rw [pids])
      · rw [pids]
        exact ih.pid
      · exact ih.binary.trans (by rw [binaries])
    | pid argument =>
      rw [Item.pid?, Option.some_or] at pids
      rw [Item.binary?, Option.none_or] at binaries
      constructor
      · exact ih.follow.trans (by simp)
      · rw [pids]
        rfl
      · intro last word known read
        rw [pids, Option.some.injEq] at known
        rw [known]
        simp only [accept, read, Option.getD_some]
      · exact ih.binary.trans (by rw [binaries])
    | binary name =>
      rw [Item.pid?, Option.none_or] at pids
      rw [Item.binary?, Option.some_or] at binaries
      constructor
      · exact ih.follow.trans (by simp)
      · exact ih.attach.trans (by rw [pids])
      · rw [pids]
        exact ih.pid
      · rw [binaries]
        rfl

/-- The last `-p` is one of the arguments. -/
theorem lastPid_mem {arguments : List Item} {argument : Option Text}
    (last : lastPid arguments = some argument) : .pid argument ∈ arguments := by
  obtain ⟨item, member, known⟩ := List.mem_filterMap.mp (List.mem_of_getLast? last)
  cases item with
  | pid other =>
    rw [Option.some.inj known] at member
    exact member
  | follow => cases known
  | binary name => cases known

/-- The last other argument is one of the arguments. -/
theorem lastBinary_mem {arguments : List Item} {name : Text}
    (last : lastBinary arguments = some name) : .binary name ∈ arguments := by
  obtain ⟨item, member, known⟩ := List.mem_filterMap.mp (List.mem_of_getLast? last)
  cases item with
  | binary other =>
    rw [Option.some.inj known] at member
    exact member
  | follow => cases known
  | pid argument => cases known

/-- The argument of a `-p` that is not bad is parsed. -/
theorem parsed_good {argument : Option Text} (good : (Item.pid argument).bad = false) :
    ∃ word, parsed argument = some word := by
  simp only [Item.bad, Item.pid?, Bool.or_eq_false_iff, beq_eq_false_iff_ne] at good
  exact Option.ne_none_iff_exists'.mp good.1

/-- A target is attached to or started, not both. -/
theorem one_target (arguments : List Item) (args : StartUp) :
    ¬(Attaches arguments args ∧ Starts arguments args) := by
  rintro ⟨attaches, starts⟩
  exact starts.2.1 attaches.2.1

section Good

variable {argv : List Text} (alone : argv.length ≠ 1)
  (good : ∀ item ∈ items argv.tail, item.bad = false)

include alone good

/-- What a start returns when no argument is bad. -/
theorem startUpArgs_good :
    ∃ args, Final (items argv.tail) args ∧ startUpArgs argv =
      some (true, if args.attachMode && !args.binaryName.isEmpty then { args with binaryName := [] }
        else args) := by
  have none : (items argv.tail).find? Item.bad = none :=
    List.find?_eq_none.mpr fun item member => by simp [good item member]
  have loop := parseParams_eq .initial argv.tail
  rw [none] at loop
  refine ⟨_, final_accept (items argv.tail), ?_⟩
  simp only [startUpArgs, if_neg alone, loop]

/-- With a good `-p` a start attaches to the last process given. -/
theorem selects_pid {argument : Option Text} (last : lastPid (items argv.tail) = some argument) :
    Selects argv := by
  obtain ⟨args, final, returned⟩ := startUpArgs_good alone good
  have member := lastPid_mem last
  obtain ⟨word, read⟩ := parsed_good (good _ member)
  have attach : args.attachMode = true := final.attach.trans (by rw [last]; rfl)
  have attaches : Attaches (items argv.tail) { args with binaryName := [] } :=
    ⟨attach, rfl, argument, last, by rw [read, final.pid argument word last read]⟩
  have cleared : (if args.attachMode && !args.binaryName.isEmpty then { args with binaryName := [] }
      else args) = { args with binaryName := [] } := by
    split
    · rfl
    · next kept =>
      have empty : args.binaryName = [] := by simpa [attach] using kept
      rw [← empty]
  rw [cleared] at returned
  refine ⟨true, _, returned, ?_, ?_⟩
  · intro _
    exact ⟨.inl attaches, one_target _ _, final.follow⟩
  · rintro (plain | ⟨item, inside, bad⟩)
    · cases (plain _ member).1
    · cases (good item inside).symm.trans bad

/-- Without a `-p` a start is of the last other argument, or of nothing. -/
theorem selects_binary (last : lastPid (items argv.tail) = none) :
    Selects argv ↔ ∃ name, lastBinary (items argv.tail) = some name ∧ name ≠ [] := by
  obtain ⟨args, final, returned⟩ := startUpArgs_good alone good
  have attach : args.attachMode = false := final.attach.trans (by rw [last]; rfl)
  rw [attach, Bool.false_and, if_neg Bool.false_ne_true] at returned
  constructor
  · rintro ⟨success, left, same, selected, -⟩
    rw [returned, Option.some.injEq, Prod.mk.injEq] at same
    obtain ⟨rfl, rfl⟩ := same
    rcases (selected rfl).1 with attaches | starts
    · cases attach.symm.trans attaches.1
    · have named := starts.2.1
      rw [final.binary] at named
      cases known : lastBinary (items argv.tail) with
      | none =>
        rw [known] at named
        exact absurd rfl named
      | some name =>
        rw [known] at named
        exact ⟨name, rfl, named⟩
  · rintro ⟨name, known, named⟩
    have binary : args.binaryName = name := by rw [final.binary, known, Option.getD_some]
    have member := lastBinary_mem known
    refine ⟨true, args, returned, ?_, ?_⟩
    · intro _
      have starts : Starts (items argv.tail) args :=
        ⟨attach, binary ▸ named, binary.symm ▸ member⟩
      exact ⟨.inr starts, one_target _ _, final.follow⟩
    · rintro (plain | ⟨item, inside, bad⟩)
      · exact absurd ((plain _ member).2 name rfl) named
      · cases (good item inside).symm.trans bad

end Good

/-- **The target of a start.** For all arguments, `startUpArgs` leaves exactly one target or fails,
as it should, exactly when there are no arguments, or the first bad process id is one that parsing
does not throw at, or no process id is bad and there is one, or else the last other argument is
there and not empty. -/
theorem selects_iff (argv : List Text) : Selects argv ↔ Targeted argv := by
  unfold Targeted
  by_cases alone : argv.length = 1
  · apply iff_of_true _ (.inl alone)
    exact ⟨false, .initial, if_pos alone, fun success => (nomatch success), fun _ => rfl⟩
  · rw [or_iff_right alone]
    cases first : (items argv.tail).find? Item.bad with
    | none =>
      have good : ∀ item ∈ items argv.tail, item.bad = false := by
        intro item member
        rw [← Bool.not_eq_true]
        exact List.find?_eq_none.mp first item member
      cases last : lastPid (items argv.tail) with
      | some argument => exact iff_of_true (selects_pid alone good last) (.inl (by simp))
      | none =>
        have unattached : ¬(none : Option (Option Text)) ≠ none := fun other => other rfl
        exact (selects_binary alone good last).trans (or_iff_right unattached).symm
    | some item =>
      have loop := parseParams_eq .initial argv.tail
      rw [first] at loop
      cases throws : item.throws with
      | true =>
        simp only [throws, if_true] at loop
        change Selects argv ↔ item.throws = false
        rw [throws]
        apply iff_of_false _ (Bool.noConfusion : ¬true = false)
        rintro ⟨success, args, returned, -⟩
        simp only [startUpArgs, if_neg alone, loop, reduceCtorEq] at returned
      | false =>
        simp only [throws, Bool.false_eq_true, if_false] at loop
        obtain ⟨left, loop⟩ := loop
        apply iff_of_true _ throws
        refine ⟨false, left, ?_, fun success => (nomatch success), fun _ => rfl⟩
        simp only [startUpArgs, if_neg alone, loop]

/-- The name of the program, `a64dbg`. -/
def program : Text := ['a', '6', '4', 'd', 'b', 'g']

/-- `a64dbg -f` succeeds without a target. -/
theorem follow_only :
    ¬Selects [program, followOption] ∧
    startUpArgs [program, followOption] = some (true, ⟨true, false, 0, []⟩) := by
  have returned : startUpArgs [program, followOption] = some (true, ⟨true, false, 0, []⟩) := by
    decide
  refine ⟨?_, returned⟩
  rintro ⟨success, args, same, selected, -⟩
  rw [returned, Option.some.injEq, Prod.mk.injEq] at same
  obtain ⟨rfl, rfl⟩ := same
  rcases (selected rfl).1 with attaches | starts
  · cases attaches.1
  · exact starts.2.1 rfl

end A64dbg.Target
