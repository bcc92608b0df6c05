import A64dbg.Dump

/-!
# The registers as they are shown

`printRegsMap` prints the general registers in rows of three, ten apart, and then the others; where
the kernel has hardware breakpoints it prints their addresses, too. `dumpRegisters`, which plugins
use, prints the general registers only. `printCmdHeader` is the line in front of a prompt.
-/

namespace A64dbg.Output

/-- A number printed by `"x%d"`. -/
def registerName (index : Nat) : Text := 'x' :: decimal index

/-- A word printed by `"0x%016llx"`. -/
def registerValue (value : Word) : Text := '0' :: 'x' :: hex 16 value.toNat

/-- The register of a row in its first column, `i`. -/
def firstColumn (i : Fin 10) : Fin 31 := i.castLE (by decide)

/-- The register of a row in its second column, `i + 10`. -/
def secondColumn (i : Fin 10) : Fin 31 := ⟨i.val + 10, by omega⟩

/-- The register of a row in its third column, `i + 20`. -/
def thirdColumn (i : Fin 10) : Fin 31 := ⟨i.val + 20, by omega⟩

/-- The register behind the rows, `x30`. -/
def lastRegister : Fin 31 := Fin.last 30

/-- A pass of the loop over the general registers. -/
def registersRow (regs : UserPtRegs) (i : Fin 10) : Text :=
  "  ".toList ++ registerName i.val ++ ":   ".toList ++
    registerValue (regs.regs (firstColumn i)) ++
  "   ".toList ++ registerName (i.val + 10) ++ ":  ".toList ++
    registerValue (regs.regs (secondColumn i)) ++
  "  ".toList ++ registerName (i.val + 20) ++ ":  ".toList ++
    registerValue (regs.regs (thirdColumn i)) ++ " \n".toList

/-- The general registers. -/
def generalRegisters (regs : UserPtRegs) : Text :=
  "----Register Map-------------------------------------------\n".toList ++
    (List.finRange 10).flatMap (registersRow regs) ++
    "  ".toList ++ registerName 30 ++ ":  ".toList ++ registerValue (regs.regs lastRegister) ++
    "\n".toList

/-- `dumpRegisters`. -/
def dumpRegisters (regs : UserPtRegs) : Text :=
  generalRegisters regs ++ "-----------------------------------------------------------\n".toList

/-- A pass of the loop over the hardware breakpoints. -/
def hwBreakpointText (hregs : Nat → HwReg) (i : Nat) : Text :=
  decimal i ++ ": ".toList ++ '0' :: 'x' :: hex 0 (hregs i).addr.toNat ++ "  ".toList

/-- `printRegsMap`, by `hasHwBpSupport` and `getHwBpCount`. -/
def printRegsMap (regs : UserPtRegs) (hwBpSupported : Bool) (hwBreakpoints : Nat)
    (hregs : Nat → HwReg) : Text :=
  generalRegisters regs ++
    "  pc:   ".toList ++ registerValue regs.pc ++ "    sp:  ".toList ++ registerValue regs.sp ++
    " pstate:".toList ++ registerValue regs.pstate ++ "\n".toList ++
    if hwBpSupported then
      "----Hardware Registers-------------------------------------\n".toList ++
        "  Dbg: ".toList ++ (List.range hwBreakpoints).flatMap (hwBreakpointText hregs) ++
        "\n".toList
    else []

/-- A number printed by `"%d"`. -/
def signedDecimal (value : BitVec 32) : Text :=
  if value.toInt < 0 then '-' :: decimal value.toInt.natAbs else decimal value.toNat

/-- `printCmdHeader`. -/
def printCmdHeader (connector : Connector) (process : Tracee) : Text :=
  let regs := process.getRegisters
  let instr := lowInstr (process.peekText regs.pc)
  "[+] (".toList ++ signedDecimal connector.tracee ++ ") pc: 0x".toList ++ hex 8 regs.pc.toNat ++
    " sp: 0x".toList ++ hex 8 regs.sp.toNat ++ " instr: 0x".toList ++ hex 4 instr.toNat ++
    "\n".toList

end A64dbg.Output
