import A64dbg.ShippedPlugins
import A64dbg.Watch

/-!
# What the plugins print

The buffer of 256 bytes is printed by `%s`, which goes on behind it when it holds no zero.
`path_printed` says of every tracee and every read exactly when it stays inside, and that then it is
the path that was delivered. `read_dumps` follows the plugin of `read` over any number of calls:
each exit dumps at most 32 bytes of the buffer that was given at its own entry, as the tracee holds
it at the exit, and nothing of an earlier call.
-/

namespace A64dbg.PluginText

open ByteMemory Tables

/-- The buffer of a hook holds the bytes read and zeros behind them. -/
theorem bufferByte (memory : Memory) (addr : Word) (read : MemRead) (i : Nat) :
    storageAfter (fun _ => 0) memory addr read i =
      if i < read.stored then (memory (above addr i)).getD 0 else 0 := by
  have nonneg : (0 : Int) ≤ i := Int.natCast_nonneg i
  by_cases inside : i < read.stored
  · have both : (0 : Int) ≤ i ∧ (i : Int) < read.stored := ⟨nonneg, by exact_mod_cast inside⟩
    rw [storageAfter, if_pos both, if_pos inside]
    rfl
  · have beyond : ¬((0 : Int) ≤ i ∧ (i : Int) < read.stored) := by omega
    rw [storageAfter, if_neg beyond, if_neg inside]

/-- What a call of a hook finds at the address it is given. -/
def argumentByte (process : Tracee) (i : Nat) : Option (BitVec 8) :=
  process.memory (above (untagged (process.getRegisters.regs x1)) i)

/-- The tracee holds a path, and the read delivers it to its end. -/
structure Delivers (process : Tracee) (read : MemRead) (path : List (BitVec 8)) : Prop where
  /-- No byte of it is zero. -/
  nonzero : 0 ∉ path
  /-- It is there. -/
  spelled : ∀ i byte, path[i]? = some byte → argumentByte process i = some byte
  /-- It is delivered. -/
  covered : path.length ≤ read.stored
  /-- A zero is behind it, or the read ends there. -/
  ended : argumentByte process path.length = some 0 ∨ read.stored = path.length

/-- The letters before the first zero are the path. -/
theorem takeWhile_path {path rest : List (BitVec 8)} (nonzero : 0 ∉ path) :
    (path ++ 0 :: rest).takeWhile (fun byte => byte != 0) = path := by
  have kept : ∀ byte ∈ path, (byte != 0) = true := by
    intro byte inside
    have differs : byte ≠ 0 := fun zero => nonzero (zero ▸ inside)
    simpa using differs
  have halt : ¬((0 : BitVec 8) != 0) = true := by decide
  rw [List.takeWhile_append_of_pos kept,
    @List.takeWhile_cons_of_neg _ (fun byte : BitVec 8 => byte != 0) _ _ halt, List.append_nil]

section Path

variable {process : Tracee} {read : MemRead}

/-- What the buffer of a hook holds once it was read to. -/
abbrev argumentBuffer (process : Tracee) (read : MemRead) : Int → BitVec 8 :=
  storageAfter (fun _ => 0) process.memory (untagged (process.getRegisters.regs x1)) read

/-- The buffer of a hook has a zero exactly if the read is short or delivers one. -/
theorem buffer_zero : 0 ∈ bufferBytes (argumentBuffer process read) 256 ↔
    read.stored < 256 ∨ ∃ i < 256, (argumentByte process i).getD 0 = 0 := by
  have byte (i : Nat) : argumentBuffer process read i =
      if i < read.stored then (argumentByte process i).getD 0 else 0 := bufferByte ..
  simp only [bufferBytes, List.mem_map, List.mem_range]
  constructor
  · rintro ⟨i, small, zero⟩
    rw [byte] at zero
    by_cases delivered : i < read.stored
    · rw [if_pos delivered] at zero
      exact Or.inr ⟨i, small, zero⟩
    · exact Or.inl (by omega)
  · rintro (short | ⟨i, small, zero⟩)
    · refine ⟨read.stored, short, ?_⟩
      rw [byte, if_neg (Nat.lt_irrefl _)]
    · refine ⟨i, small, ?_⟩
      rw [byte, zero, ite_self]

/-- The buffer of a hook starts with the path that is delivered. -/
theorem buffer_path {path : List (BitVec 8)} (short : path.length < 256)
    (delivers : Delivers process read path) :
    ∃ rest, bufferBytes (argumentBuffer process read) 256 = path ++ 0 :: rest := by
  have byte (i : Nat) : argumentBuffer process read i =
      if i < read.stored then (argumentByte process i).getD 0 else 0 := bufferByte ..
  have cut : bufferBytes (argumentBuffer process read) 256 =
      bufferBytes (argumentBuffer process read) path.length ++
        (List.range (256 - path.length)).map fun i =>
          argumentBuffer process read ((path.length + i : Nat) : Int) := by
    have parts : List.range 256 = List.range path.length ++
        (List.range (256 - path.length)).map (path.length + ·) := by
      rw [← List.range_add]
      congr 1
      omega
    rw [bufferBytes, parts, List.map_append, List.map_map]
    rfl
  have front : bufferBytes (argumentBuffer process read) path.length = path := by
    apply List.ext_getElem
    · simp [bufferBytes]
    · intro i bound inside
      have here := delivers.spelled i path[i] (List.getElem?_eq_getElem inside)
      have covered : i < read.stored := Nat.lt_of_lt_of_le inside delivers.covered
      simp only [bufferBytes, List.getElem_map, List.getElem_range]
      rw [byte, if_pos covered, here, Option.getD_some]
  have zero : argumentBuffer process read ((path.length + 0 : Nat) : Int) = 0 := by
    rw [byte, Nat.add_zero]
    rcases delivers.ended with found | ended
    · rw [found, Option.getD_some, ite_self]
    · rw [if_neg (by omega)]
  have more : 256 - path.length = (255 - path.length) + 1 := by omega
  rw [cut, front, more, List.range_succ_eq_map, List.map_cons, zero]
  exact ⟨_, rfl⟩

/-- What `readMemory` and `printf` make of a path. -/
def pathLine (name : String) (read : MemRead) (path : List (BitVec 8)) : Text :=
  Output.readProcMemory 256 read ++ "[P]   ".toList ++ name.toList ++ ", arg: ".toList ++
    path.map letterOf ++ "\n".toList

/-- A hook prints the path of its call, and a text behind it. -/
structure ShowsPath (name : String) (process : Tracee) (read : MemRead) (behind : Text)
    (hook : Option Text) : Prop where
  /-- It prints from inside its buffer exactly when the read delivers less than the buffer holds, or
  a zero. -/
  inside : hook.isSome = true ↔
    read.stored < 256 ∨ ∃ i < 256, (argumentByte process i).getD 0 = 0
  /-- It prints the path that the tracee holds, when the read delivers it. -/
  path : ∀ path, path.length < 256 → Delivers process read path →
    hook = some (pathLine name read path ++ behind)

/-- A hook that prints the path of its call shows it. -/
theorem argument_shows (name : String) (process : Tracee) (read : MemRead) :
    ShowsPath name process read [] (Output.pathArgument name process read) := by
  have printed : Output.pathArgument name process read =
      (bufferString (argumentBuffer process read) 256).map fun arg =>
        Output.readProcMemory 256 read ++ "[P]   ".toList ++ name.toList ++ ", arg: ".toList ++
          arg ++ "\n".toList := Output.pathArgument_eq name process read
  constructor
  · rw [printed, Option.isSome_map, bufferString, ← buffer_zero]
    by_cases zero : 0 ∈ bufferBytes (argumentBuffer process read) 256
    · rw [if_pos zero]
      exact iff_of_true rfl zero
    · rw [if_neg zero]
      exact iff_of_false Bool.false_ne_true zero
  · intro path short delivers
    obtain ⟨rest, shape⟩ := buffer_path short delivers
    have member : 0 ∈ bufferBytes (argumentBuffer process read) 256 := by simp [shape]
    rw [printed, bufferString, if_pos member, shape, takeWhile_path delivers.nonzero, pathLine,
      List.append_nil]
    rfl

/-- What is printed behind the line of a path leaves the path shown. -/
theorem ShowsPath.append {name : String} {hook : Option Text}
    (line : ShowsPath name process read [] hook) (behind : Text) :
    ShowsPath name process read behind (hook.map fun text => text ++ behind) := by
  constructor
  · rw [Option.isSome_map]
    exact line.inside
  · intro path short delivers
    rw [line.path path short delivers, List.append_nil]
    rfl

/-- **A path that is printed.** The hooks of `openat`, `faccessat` and `fstatat` print from inside
their buffer exactly when the read delivers less than it holds or a zero, and what they print is the
path the tracee holds when the read delivers it, however short it is otherwise; that of `openat`
prints the registers behind it. -/
theorem path_printed (name : String) (process : Tracee) (read : MemRead) :
    ShowsPath name process read [] (Output.pathArgument name process read) ∧
    ShowsPath "faccessat" process read [] (FaccessatPlugin.beforeSyscall process read) ∧
    ShowsPath "fstatat" process read [] (FstatatPlugin.beforeSyscall process read) ∧
    ShowsPath "openat" process read (Output.dumpRegisters process.getRegisters)
      (OpenatPlugin.beforeSyscall process read) := by
  have line (name : String) := argument_shows name process read
  exact ⟨line name, line "faccessat", line "fstatat",
    (line "openat").append (Output.dumpRegisters process.getRegisters)⟩

end Path

/-- A tracee whose call is given `/etc` at address 0. -/
def givenEtc : Tracee :=
  .stoppedAt (fun addr => [0x2f, 0x65, 0x74, 0x63, 0][addr.toNat]?) 0x1000

/-- The hook of `openat` prints `/etc` and the registers. -/
theorem path_printed_etc : OpenatPlugin.beforeSyscall givenEtc (.delivered 256) =
    some ([] ++ "[P]   ".toList ++ "openat".toList ++ ", arg: ".toList ++ "/etc".toList ++
      "\n".toList ++ Output.dumpRegisters givenEtc.getRegisters) := by
  have delivers : Delivers givenEtc (.delivered 256) [0x2f, 0x65, 0x74, 0x63] := by
    constructor
    · decide
    · intro i byte there
      match i with
      | 0 | 1 | 2 | 3 => exact there
      | _ + 4 => cases there
    · decide
    · exact Or.inl rfl
  exact (path_printed "openat" givenEtc (.delivered 256)).2.2.2.path _ (by decide) delivers

/-- The buffer and the size that a call of `read` is given. -/
def given (process : Tracee) : Word × Word :=
  (untagged (process.getRegisters.regs x1), process.getRegisters.regs x2)

/-- What the last entry among the calls of the hooks was given, or the pair before them if there is
none. -/
def lastGiven (earlier : Word × Word) : List ReadPlugin.Hook → Word × Word
  | [] => earlier
  | .before process :: later => lastGiven (given process) later
  | .after .. :: later => lastGiven earlier later

/-- The words of a buffer that are dumped. -/
def dumped (process : Tracee) (buffer size : Word) (read : MemRead) : List Nat :=
  (List.range (min 32 size.toNat / 4)).map fun i : Nat =>
    (dword (storageAfter (fun _ => 0) process.memory buffer read) i).toNat

/-- At most 32 bytes are dumped. -/
theorem dumpSize (size : Word) :
    (if (32 : Word) < size then (32 : Word) else size).toNat = min 32 size.toNat := by
  have test : (32 : Word) < size ↔ 32 < size.toNat := by
    rw [BitVec.lt_def, show (32 : Word).toNat = 32 by decide]
  by_cases big : (32 : Word) < size
  · have large := test.mp big
    rw [if_pos big, show (32 : Word).toNat = 32 by decide]
    omega
  · have small := mt test.mpr big
    rw [if_neg big]
    omega

/-- The fields of the plugin after the hooks have been called: an exit lowers the size to 32 at
most, which the next exit does again. -/
theorem hooks_fields {plugin : ReadPlugin} {earlier : Word × Word}
    (buffer : plugin.bufferPtr = earlier.1)
    (size : min 32 plugin.size.toNat = min 32 earlier.2.toNat) (calls : List ReadPlugin.Hook) :
    (plugin.hooks calls).bufferPtr = (lastGiven earlier calls).1 ∧
      min 32 (plugin.hooks calls).size.toNat = min 32 (lastGiven earlier calls).2.toNat := by
  induction calls generalizing plugin earlier with
  | nil => exact ⟨buffer, size⟩
  | cons call later ih =>
    cases call with
    | before process =>
      have pointer : (ReadPlugin.beforeSyscall process).2.bufferPtr = (given process).1 := by
        unfold ReadPlugin.beforeSyscall given
        rfl
      have bytes : (ReadPlugin.beforeSyscall process).2.size = (given process).2 := by
        unfold ReadPlugin.beforeSyscall given
        rfl
      exact ih pointer (congrArg (fun size => min 32 size.toNat) bytes)
    | after process read =>
      have lowered : min 32 (plugin.afterSyscall process read).2.size.toNat =
          min 32 earlier.2.toNat := by
        unfold ReadPlugin.afterSyscall
        dsimp only
        rw [dumpSize]
        omega
      have kept : (plugin.afterSyscall process read).2.bufferPtr = earlier.1 := by
        unfold ReadPlugin.afterSyscall
        exact buffer
      exact ih kept lowered

/-- **What the plugin of `read` dumps.** Whatever hooks have been called, in whatever order, an exit
dumps from the buffer that the last entry was given, as many whole words as its size has and eight
at most, as the tracee holds them now; what the read does not deliver is zero. -/
theorem read_dumps (calls : List ReadPlugin.Hook) (process : Tracee) (read : MemRead) :
    ∃ size : Word, ∃ rows : Text,
      size.toNat = min 32 (lastGiven (0, 0) calls).2.toNat ∧
      ((ReadPlugin.create.hooks calls).hook (.after process read)).1 =
        "after 'read' syscall\n".toList ++ Output.readProcMemory size read ++ rows ∧
      shown rows = dumpRows (lastGiven (0, 0) calls).1
        (dumped process (lastGiven (0, 0) calls).1 (lastGiven (0, 0) calls).2 read) := by
  let plugin := ReadPlugin.create.hooks calls
  let size : Word := if 32 < plugin.size then 32 else plugin.size
  let buffer := storageAfter (fun _ => 0) process.memory plugin.bufferPtr read
  obtain ⟨pointer, bound⟩ : plugin.bufferPtr = (lastGiven (0, 0) calls).1 ∧
      min 32 plugin.size.toNat = min 32 (lastGiven (0, 0) calls).2.toNat :=
    hooks_fields rfl rfl calls
  have lowered : size.toNat = min 32 plugin.size.toNat := dumpSize plugin.size
  have count : (size / 4).toNat = min 32 (lastGiven (0, 0) calls).2.toNat / 4 := by
    rw [BitVec.toNat_udiv, show (4 : Word).toNat = 4 by decide, lowered, bound]
  have cell : Output.hexdumpCell buffer 4 =
      fun i => hex 8 (dword buffer i).toNat ++ [' '] := by
    funext i
    rw [Output.hexdumpCell, if_neg (by decide), if_pos rfl]
  have text : Output.hexdump buffer plugin.bufferPtr size 4 =
      dump (fun i => hex 8 (dword buffer i).toNat ++ [' ']) plugin.bufferPtr (size / 4) := by
    rw [Output.hexdump, if_neg (by decide), if_pos rfl, cell]
  refine ⟨size, Output.hexdump buffer plugin.bufferPtr size 4, lowered.trans bound, rfl, ?_⟩
  have small : printed (size / 4) = min 32 (lastGiven (0, 0) calls).2.toNat / 4 := by
    rw [printed, count]
    omega
  rw [text, shown_dump (by omega), small, ← pointer]
  rfl

end A64dbg.PluginText
