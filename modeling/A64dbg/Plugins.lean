import A64dbg.Syscalls

/-!
# Plugins

A plugin acts on the stopped tracee before and after the system call it is named after.
`PluginHelper` holds the accepted plugins by name and calls the one of a given name, if any.
`checkForPlugins` accepts the plugins of the registry, in the order in which its map iterates,
unless the name of one begins no name of the system call table.
-/

namespace A64dbg

/-- Class `Plugin`: what its two hooks do to the stopped tracee. -/
structure Plugin where
  /-- `beforeSyscall`. -/
  beforeSyscall : Tracee → Tracee
  /-- `afterSyscall`. -/
  afterSyscall : Tracee → Tracee

/-- A call of `PluginHelper` from the system call loop. -/
inductive PluginCall where
  /-- `callBefore` with this name. -/
  | before (name : String)
  /-- `callAfter` with this name. -/
  | after (name : String)
deriving DecidableEq, Repr

/-- `registered_plugins`. -/
abbrev PluginHelper := String → Option Plugin

namespace PluginHelper

/-- `PluginHelper::callBefore`. -/
def callBefore (registered : PluginHelper) (pluginName : String) (process : Tracee) : Tracee :=
  match registered pluginName with
  | none => process
  | some plugin => plugin.beforeSyscall process

/-- `PluginHelper::callAfter`. -/
def callAfter (registered : PluginHelper) (pluginName : String) (process : Tracee) : Tracee :=
  match registered pluginName with
  | none => process
  | some plugin => plugin.afterSyscall process

end PluginHelper

/-- `PluginMap`: the plugins of the registry, under different names. -/
structure PluginMap where
  /-- The names and their plugins. -/
  entries : List (String × Plugin)
  /-- No name is there twice. -/
  distinct : (entries.map Prod.fst).Nodup

/-- `strncmp(left, right, count) == 0`; a string ends with its first null. -/
def strncmpEq : Nat → List Char → List Char → Bool
  | 0, _, _ => true
  | count + 1, left, right =>
    let first := left.headD '\x00'
    if first ≠ right.headD '\x00' then false
    else if first = '\x00' then true
    else strncmpEq count left.tail right.tail

/-- The loop of `checkForPlugins` over the table: `is_syscall`. -/
def isSyscall (name : String) : Bool :=
  aarch64Syscalls.any fun entry => match entry with
    | none => false
    | some syscall => strncmpEq name.toList.length name.toList syscall.toList

/-- `PluginHelper::checkForPlugins`, over the registry in some order. -/
def PluginHelper.checkForPlugins (registered : PluginHelper) :
    List (String × Plugin) → Bool × PluginHelper
  | [] => (true, registered)
  | (name, plugin) :: rest =>
    if isSyscall name then
      PluginHelper.checkForPlugins (Function.update registered name (some plugin)) rest
    else (false, registered)

end A64dbg
