import A64dbg.Launch
import A64dbg.Verif.PluginNames
import A64dbg.Verif.PromptRuns
import A64dbg.Verif.Target

/-!
# Starts of the debugger

`loops_iff` says for all arguments, plugins and answers of the kernel exactly when `main` starts its
loop, and with what. `launched_runs` follows the loop from there over every input: the debugger
keeps to the process that was chosen at the start, of whose number it uses the low 32 bits, and to
the hardware that was found, at most 255 breakpoints; and it dispatches no command unless the first
wait reported a stop.
-/

namespace A64dbg.Launches

open Runs Target EndOfInput PromptRuns

/-- The process that the arguments name, or else the one that is forked. -/
def target (boot : Boot) (argv : List Text) : Word :=
  ((lastPid (items argv.tail)).bind parsed).getD boot.forked

/-- `-f` is one of the arguments. -/
def follows (argv : List Text) : Bool := decide (.follow ∈ items argv.tail)

/-- There are arguments and none is bad, the plugins have names that begin names of the table, and a
process that is named can be attached to; without one the process is the parent of the fork. -/
def Reaches (boot : Boot) (registry : List (String × Plugin)) (argv : List Text) : Prop :=
  argv.length ≠ 1 ∧ (∀ item ∈ items argv.tail, item.bad = false) ∧
    (∀ entry ∈ registry, PluginNames.Begins entry.1) ∧
    if (lastPid (items argv.tail)).isSome then
      boot.attaches ((target boot argv).setWidth 32) = true
    else boot.forked ≠ 0

/-- The debugger at its loop. -/
def started (boot : Boot) (registry : List (String × Plugin)) (argv : List Text) : Launched :=
  launch boot { StartUp.initial with followFork := follows argv }
    (PluginHelper.checkForPlugins (fun _ => none) registry).2 (target boot argv)

/-- What `startUpArgs` leaves of arguments it accepts. -/
structure Given (argv : List Text) (args : StartUp) : Prop where
  /-- There are arguments. -/
  alone : argv.length ≠ 1
  /-- None is bad. -/
  good : ∀ item ∈ items argv.tail, item.bad = false
  /-- `follow_fork`. -/
  follow : args.followFork = follows argv
  /-- `attach_mode`. -/
  attach : args.attachMode = (lastPid (items argv.tail)).isSome
  /-- `target_pid`. -/
  pid : ∀ boot : Boot, args.attachMode = true → target boot argv = args.targetPid
  /-- Otherwise the process is forked. -/
  forked : ∀ boot : Boot, args.attachMode = false → target boot argv = boot.forked

/-- **Arguments without a bad option are accepted and set what they give.** -/
theorem given_of_good {argv : List Text} (alone : argv.length ≠ 1)
    (good : ∀ item ∈ items argv.tail, item.bad = false) :
    ∃ args, startUpArgs argv = some (true, args) ∧ Given argv args := by
  obtain ⟨args, final, returned⟩ := startUpArgs_good alone good
  refine ⟨_, returned, ?_⟩
  have follow : args.followFork = follows argv := by
    rw [follows, Bool.eq_iff_iff, final.follow, decide_eq_true_iff]
  have named : ∀ boot : Boot, args.attachMode = true → target boot argv = args.targetPid := by
    intro boot attach
    rw [final.attach] at attach
    obtain ⟨argument, last⟩ := Option.isSome_iff_exists.mp attach
    obtain ⟨word, read⟩ := parsed_good (good _ (lastPid_mem last))
    rw [target, last, Option.bind_some, read, Option.getD_some, final.pid argument word last read]
  have forked : ∀ boot : Boot, args.attachMode = false → target boot argv = boot.forked := by
    intro boot attach
    rw [final.attach] at attach
    have none : lastPid (items argv.tail) = none := by simpa using attach
    rw [target, none]
    rfl
  split
  · exact ⟨alone, good, follow, final.attach, named, forked⟩
  · exact ⟨alone, good, follow, final.attach, named, forked⟩

/-- Arguments that are accepted hold no bad option. -/
theorem good_of_returned {argv : List Text} {args : StartUp}
    (returned : startUpArgs argv = some (true, args)) :
    argv.length ≠ 1 ∧ ∀ item ∈ items argv.tail, item.bad = false := by
  have alone : argv.length ≠ 1 := by
    intro single
    rw [startUpArgs, if_pos single] at returned
    cases returned
  refine ⟨alone, ?_⟩
  have loop := parseParams_eq .initial argv.tail
  cases first : (items argv.tail).find? Item.bad with
  | none =>
    intro item inside
    simpa using List.find?_eq_none.mp first item inside
  | some item =>
    rw [first] at loop
    simp only [startUpArgs, if_neg alone] at returned
    dsimp only at loop
    split at loop
    · rw [loop] at returned
      cases returned
    · obtain ⟨left, failed⟩ := loop
      rw [failed] at returned
      cases returned

/-- Arguments that are accepted set what they give. -/
theorem given_of_returned {argv : List Text} {args : StartUp}
    (returned : startUpArgs argv = some (true, args)) : Given argv args := by
  obtain ⟨alone, good⟩ := good_of_returned returned
  obtain ⟨other, same, given⟩ := given_of_good alone good
  rw [returned, Option.some.injEq, Prod.mk.injEq] at same
  rw [same.2]
  exact given

/-- What is launched depends on the options given, not on how they are written. -/
theorem launch_given {argv : List Text} {args : StartUp} (given : Given argv args) (boot : Boot)
    (registry : List (String × Plugin)) :
    launch boot args (PluginHelper.checkForPlugins (fun _ => none) registry).2 (target boot argv) =
      started boot registry argv := by
  simp only [started, launch, given.follow]

/-- With accepted arguments `main` loops exactly when the launch reaches the loop. -/
theorem main_given {boot : Boot} {registry : List (String × Plugin)} {argv : List Text}
    {args : StartUp} (returned : startUpArgs argv = some (true, args)) (launched : Launched) :
    main boot registry argv = .loops launched ↔
      Reaches boot registry argv ∧ launched = started boot registry argv := by
  have given := given_of_returned returned
  have plugins := PluginNames.checked_iff (fun _ => none) registry
  simp only [main, returned]
  cases known : (PluginHelper.checkForPlugins (fun _ => none) registry).1 with
  | false =>
    rw [known] at plugins
    refine iff_of_false (fun same => nomatch same) fun both => ?_
    cases plugins.mpr both.1.2.2.1
  | true =>
    have launches := launch_given given boot registry
    have reaches : Reaches boot registry argv ↔
        if args.attachMode then boot.attaches ((target boot argv).setWidth 32) = true
        else boot.forked ≠ 0 := by
      rw [Reaches, and_iff_right given.alone, and_iff_right given.good,
        and_iff_right (plugins.mp known), given.attach]
    rw [reaches]
    simp only [Bool.not_true, Bool.false_eq_true, if_false]
    cases attach : args.attachMode with
    | true =>
      rw [given.pid boot attach] at launches ⊢
      simp only [if_true]
      split
      · next attached =>
        rw [and_iff_right attached, launches, Main.loops.injEq]
        exact eq_comm
      · next failed => exact iff_of_false (fun same => nomatch same) fun both => failed both.1
    | false =>
      rw [given.forked boot attach] at launches
      simp only [Bool.false_eq_true, if_false]
      split
      · next child => exact iff_of_false (fun same => nomatch same) fun both => both.1 child
      · next parent =>
        rw [and_iff_right parent, launches, Main.loops.injEq]
        exact eq_comm

/-- Arguments that are not accepted start no loop. -/
theorem accepted_of_loops {boot : Boot} {registry : List (String × Plugin)} {argv : List Text}
    {launched : Launched} (loops : main boot registry argv = .loops launched) :
    ∃ args, startUpArgs argv = some (true, args) := by
  unfold main at loops
  split at loops
  · cases loops
  · cases loops
  · next args returned => exact ⟨args, returned⟩

/-- **When the prompt is reached**, and with what, for all arguments, plugins and answers of the
kernel. -/
theorem loops_iff (boot : Boot) (registry : List (String × Plugin)) (argv : List Text)
    (launched : Launched) :
    main boot registry argv = .loops launched ↔
      Reaches boot registry argv ∧ launched = started boot registry argv := by
  constructor
  · intro loops
    obtain ⟨args, returned⟩ := accepted_of_loops loops
    exact (main_given returned launched).mp loops
  · intro both
    obtain ⟨alone, good, -⟩ := both.1
    obtain ⟨args, returned, -⟩ := given_of_good alone good
    exact (main_given returned launched).mpr both

/-- What stays over a run from a start. -/
structure Stays (boot : Boot) (argv : List Text) (launched : Launched) (session : Session) :
    Prop where
  /-- The process. -/
  tracee : session.debugger.tracee = target boot argv
  /-- Its id, for the requests of the connector. -/
  pid : session.debugger.connector.tracee = (target boot argv).setWidth 32
  /-- `follow_fork` is what was asked for; the tracee has the options when the kernel took them. -/
  follow : (session.debugger.followFork = true ↔ .follow ∈ items argv.tail) ∧
    (launched.options = some followOptions ↔
      .follow ∈ items argv.tail ∧ boot.setsOptions ((target boot argv).setWidth 32) = true)
  /-- The hardware breakpoints. -/
  bounded : session.debugger.connector.hwBreakpoints ≤ 255
  /-- They are supported exactly when there are some. -/
  supported : launched.hwBpSupported = true ↔ session.debugger.connector.hwBreakpoints ≠ 0
  /-- No trace is on, and the next stop is an entry. -/
  untraced : session.debugger.straceMode = false ∧ session.debugger.syscallEnter = true
  /-- No plugin was called. -/
  uncalled : session.calls = []

/-- A feature is supported exactly when its counter, a byte, is not zero. -/
theorem checkHwFeature_counter (dbgInfo : Option (BitVec 32)) :
    (Connector.checkHwFeature dbgInfo 0).2 ≤ 255 ∧
      ((Connector.checkHwFeature dbgInfo 0).1 = true ↔
        (Connector.checkHwFeature dbgInfo 0).2 ≠ 0) := by
  cases dbgInfo with
  | none => simp [Connector.checkHwFeature]
  | some dbgInfo =>
    have low : (dbgInfo &&& 0xff).toNat ≤ 255 := by
      rw [BitVec.toNat_and]
      exact Nat.and_le_right
    unfold Connector.checkHwFeature
    dsimp only
    split
    · simp
    · next some =>
      have positive : (dbgInfo &&& 0xff).toNat ≠ 0 := by
        intro zero
        exact some (BitVec.eq_of_toNat_eq zero)
      exact ⟨low, iff_of_true rfl positive⟩

/-- A session that is as it was but for the status of the wait, `BreakPoints` and the private page.
-/
theorem stays_of_framed {boot : Boot} {registry : List (String × Plugin)} {argv : List Text}
    {session : Session} (framed : Framed (started boot registry argv).session session) :
    Stays boot argv (started boot registry argv) session := by
  obtain ⟨calls, status, entries, page, globals⟩ := framed
  have feature := checkHwFeature_counter (boot.breakInfo ((target boot argv).setWidth 32))
  have option : follows argv = true ↔ .follow ∈ items argv.tail := decide_eq_true_iff
  constructor
  · rw [globals]
    rfl
  · rw [globals]
    rfl
  · rw [globals]
    refine ⟨option, ?_⟩
    rw [← option, ← Bool.and_eq_true]
    show (if (follows argv && boot.setsOptions ((target boot argv).setWidth 32)) = true then
      some followOptions else none) = some followOptions ↔ _
    split
    · next set => exact iff_of_true rfl set
    · next unset => exact iff_of_false (fun same => nomatch same) unset
  · rw [globals]
    exact feature.1
  · rw [globals]
    exact feature.2
  · rw [globals]
    exact ⟨rfl, rfl⟩
  · rw [calls]
    rfl

/-- A program that is over does nothing. -/
theorem over_stays (host : Host) (order : List CmdStruct) {program : Program}
    (done : program.phase = .over) (reads : List (Option Text × List Resume)) :
    after (Program.turn host order) program reads = program := by
  induction reads with
  | nil => rfl
  | cons read rest ih =>
    have same : program.turn host order read = program := by rw [Program.turn, done]
    rw [after_cons, same, ih]

/-- **A run from a start.** Whatever is typed and whatever the tracee does, the debugger keeps to
its process, its options and its hardware, and it dispatches nothing unless the first wait reported
a stop. -/
theorem launched_runs (boot : Boot) (registry : List (String × Plugin)) (argv : List Text)
    (launched : Launched) (loops : main boot registry argv = .loops launched) (host : Host)
    {order : List CmdStruct} (perm : order.Perm commands)
    (reads : List (Option Text × List Resume)) :
    let program := after (Program.turn host order) (Program.start launched.session) reads
    Stays boot argv launched program.session ∧
      (program.dispatched ≠ [] →
        ∃ status ∈ boot.waits ((target boot argv).setWidth 32), wIfStopped status = true) := by
  obtain ⟨args, returned⟩ := accepted_of_loops loops
  obtain ⟨-, rfl⟩ := (main_given returned launched).mp loops
  refine ⟨stays_of_framed (run_kept host perm _ reads).2, ?_⟩
  intro dispatched
  by_contra unstopped
  push Not at unstopped
  have done : (Program.start (started boot registry argv).session).phase = .over := by
    have status : (started boot registry argv).session.stopped = false := by
      show wIfStopped ((boot.waits ((target boot argv).setWidth 32)).getD 0) = false
      cases waits : boot.waits ((target boot argv).setWidth 32) with
      | none => decide
      | some status => simpa using unstopped status waits
    simp [Program.start, status]
  rw [over_stays host order done reads] at dispatched
  exact dispatched rfl

/-- A kernel where a process runs `nop`s, and stops when it is waited for. -/
def stopped : Boot where
  forked := 8
  attaches := fun _ => true
  waits := fun _ => some 0x137f
  setsOptions := fun _ => true
  process := fun _ => firstPrompt.process
  breakInfo := fun _ => some 0x606
  watchInfo := fun _ => none

/-- `a64dbg -p 7 -f`, and then a breakpoint and a continuation are typed. -/
theorem launched_runs_attached :
    let argv := [program, pidOption, ['7'], followOption]
    let launched := started stopped [] argv
    let reached := after (Program.turn plainHost commands) (Program.start launched.session)
      typedOnce
    Stays stopped argv launched reached.session ∧
      (reached.dispatched ≠ [] →
        ∃ status ∈ stopped.waits ((target stopped argv).setWidth 32),
          wIfStopped status = true) := by
  have returned : startUpArgs [program, pidOption, ['7'], followOption] =
      some (true, ⟨true, true, 7, []⟩) := by decide +kernel
  have loops : main stopped [] [program, pidOption, ['7'], followOption] =
      .loops (started stopped [] [program, pidOption, ['7'], followOption]) := by
    have chosen : target stopped [program, pidOption, ['7'], followOption] = 7 := by
      decide +kernel
    simp only [main, returned, started, chosen]
    rfl
  exact launched_runs stopped [] _ _ loops plainHost (List.Perm.refl commands) typedOnce

end A64dbg.Launches
