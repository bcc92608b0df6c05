import A64dbg.Utils

/-!
# Starting up

`startUpArgs` goes through the arguments of the program once. `-p` takes the argument after it,
whatever that is; the last of several wins, and a process id sets any other argument aside. A
`std::stoull` that throws is not caught here either: the clause catches pointers only.
-/

namespace A64dbg

/-- The fields of class `CmdParser` that `startUpArgs` sets. -/
structure StartUp where
  /-- `follow_fork`. -/
  followFork : Bool
  /-- `attach_mode`. -/
  attachMode : Bool
  /-- `target_pid`. -/
  targetPid : Word
  /-- `binary_name`. -/
  binaryName : Text
deriving DecidableEq

/-- The fields when the loop over the arguments begins. -/
def StartUp.initial : StartUp := ⟨false, false, 0, []⟩

/-- `-f`. -/
def followOption : Text := ['-', 'f']

/-- `-p`. -/
def pidOption : Text := ['-', 'p']

/-- The loop of `startUpArgs` over the arguments, and whether it reaches its end; none where an
exception leaves it. -/
def StartUp.parseParams (args : StartUp) : List Text → Option (Bool × StartUp)
  | [] => some (true, args)
  | param :: rest =>
    if param = followOption then StartUp.parseParams { args with followFork := true } rest
    else if param = pidOption then
      match rest with
      | [] => some (false, { args with attachMode := true })
      | pid :: rest =>
        match stringToU64 pid with
        | none => none
        | some targetPid =>
          let args := { args with attachMode := true, targetPid := targetPid }
          if targetPid = -1 then some (false, args) else StartUp.parseParams args rest
    else StartUp.parseParams { args with binaryName := param } rest

/-- `CmdParser::startUpArgs`: what it returns and the fields it leaves, or none where an exception
ends the program. -/
def startUpArgs (argv : List Text) : Option (Bool × StartUp) :=
  if argv.length = 1 then some (false, .initial)
  else
    match StartUp.initial.parseParams argv.tail with
    | none => none
    | some (false, args) => some (false, args)
    | some (true, args) =>
      some (true, if args.attachMode && !args.binaryName.isEmpty then { args with binaryName := [] }
        else args)

end A64dbg
