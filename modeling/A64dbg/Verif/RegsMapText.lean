import A64dbg.RegsMap

/-!
# Reading the registers off their text

The text of `printRegsMap` is words between blanks, newlines and colons; a word that begins with
`0x` is the value of the word in front of it. `printRegsMap_read` gives the entries that are read
so, and `registers_shown` says of every state that each register is shown once, under its own name
and with its own value. By `same_text_iff` two states with one text agree on every register shown.
-/

namespace A64dbg.RegsMapText

open Fields Numerals Output

/-- A blank, a newline or a colon. -/
def parts (letter : Char) : Bool := letter == ' ' || letter == '\n' || letter == ':'

/-- The values among words, each with the word in front of it. -/
def values : List Text → List (Text × Nat)
  | label :: value :: rest =>
    if value.take 2 = ['0', 'x'] then (label, numberOf 16 (value.drop 2)) :: values rest
    else values (value :: rest)
  | _ => []

/-- The values that a text shows. -/
def read (text : Text) : List (Text × Nat) := values (fields parts text)

/-- The entry of a general register. -/
def entry (regs : UserPtRegs) (index : Fin 31) : Text × Nat :=
  (registerName index, (regs.regs index).toNat)

/-- The general registers of a row. -/
def row (i : Fin 10) : List (Fin 31) := [firstColumn i, secondColumn i, thirdColumn i]

/-- The general registers, in the order in which they are shown. -/
def order : List (Fin 31) := (List.finRange 10).flatMap row ++ [lastRegister]

/-- The entries of the other registers. -/
def otherEntries (regs : UserPtRegs) : List (Text × Nat) :=
  [(['p', 'c'], regs.pc.toNat), (['s', 'p'], regs.sp.toNat),
    (['p', 's', 't', 'a', 't', 'e'], regs.pstate.toNat)]

/-- The entries of the hardware breakpoints. -/
def hwEntries (hwBpSupported : Bool) (hwBreakpoints : Nat) (hregs : Nat → HwReg) :
    List (Text × Nat) :=
  if hwBpSupported then (List.range hwBreakpoints).map fun i => (decimal i, (hregs i).addr.toNat)
  else []

/-- A word without separators. -/
def Token (word : Text) : Prop := word ≠ [] ∧ ∀ letter ∈ word, parts letter = false

/-- A word with a separator behind it is the first field. -/
theorem fields_token {word : Text} (proper : Token word) {separator : Char}
    (separated : parts separator = true) (rest : Text) :
    fields parts (word ++ separator :: rest) = word :: fields parts rest := by
  have alone : fields parts (word ++ []) = [word] := by
    rw [fields_word proper.1 proper.2 (by simp), fields_nil]
  rw [List.append_nil] at alone
  rw [fields_append separated, alone, List.singleton_append]

/-- Digits are letters of a word. -/
theorem padded_word {base : Nat} (large : 1 < base) (small : base ≤ 16) (width number : Nat)
    (front : Text) (clean : ∀ letter ∈ front, parts letter = false) :
    Token (front ++ padded base width number) := by
  have digits : ∀ d < 16, parts (Nat.digitChar d) = false := by decide
  constructor
  · intro empty
    rw [List.append_eq_nil_iff] at empty
    exact padded_nonempty base width number empty.2
  · intro letter inside
    rw [List.mem_append] at inside
    cases inside with
    | inl before => exact clean letter before
    | inr digit =>
      obtain ⟨d, bound, rfl⟩ := padded_letters large width number letter digit
      exact digits d (by omega)

/-- `decimal` prints digits. -/
theorem decimal_padded (number : Nat) : decimal number = padded 10 0 number := by
  simp [decimal, padded, List.leftpad]

/-- The name of a register is a word. -/
theorem registerName_word (index : Nat) : Token (registerName index) := by
  have word := @padded_word 10 (by decide) (by decide) 0 index ['x'] (by simp [parts])
  rw [registerName, decimal_padded]
  exact word

/-- The number of a breakpoint is a word. -/
theorem decimal_word (number : Nat) : Token (decimal number) := by
  have word := @padded_word 10 (by decide) (by decide) 0 number [] (by simp)
  rw [decimal_padded]
  exact word

/-- A number behind `0x` is a word. -/
theorem hex_word (width number : Nat) : Token ('0' :: 'x' :: hex width number) :=
  padded_word (by decide) (by decide) width number ['0', 'x'] (by simp [parts])

/-- A label and the value behind it are read. -/
theorem values_hex (label : Text) (width number : Nat) (rest : List Text) :
    values (label :: ('0' :: 'x' :: hex width number) :: rest) =
      (label, number) :: values rest := by
  have front : ('0' :: 'x' :: hex width number).take 2 = ['0', 'x'] := rfl
  rw [values, if_pos front]
  show (label, numberOf 16 (hex width number)) :: values rest = _
  rw [numberOf_hex]

/-- A row is the names and values of its three registers. -/
theorem registersRow_words (regs : UserPtRegs) (i : Fin 10) (rest : Text) :
    fields parts (registersRow regs i ++ rest) =
      registerName i :: registerValue (regs.regs (firstColumn i)) ::
      registerName (i.val + 10) :: registerValue (regs.regs (secondColumn i)) ::
      registerName (i.val + 20) :: registerValue (regs.regs (thirdColumn i)) ::
      fields parts rest := by
  have space : parts ' ' = true := by decide
  have colon : parts ':' = true := by decide
  have newline : parts '\n' = true := by decide
  have name (index : Nat) := registerName_word index
  have value (word : BitVec 64) : Token (registerValue word) := hex_word 16 word.toNat
  have before : "  ".toList = [' ', ' '] := rfl
  have far : ":   ".toList = [':', ' ', ' ', ' '] := rfl
  have near : ":  ".toList = [':', ' ', ' '] := rfl
  have between : "   ".toList = [' ', ' ', ' '] := rfl
  have ending : " \n".toList = [' ', '\n'] := rfl
  unfold registersRow
  simp only [before, far, near, between, ending, List.append_assoc, List.cons_append,
    List.nil_append, fields_separator space, fields_separator newline,
    fields_token (name _) colon, fields_token (value _) space]

/-- The rows are the names and values of their registers. -/
theorem rows_words (regs : UserPtRegs) (passes : List (Fin 10)) (rest : Text) :
    fields parts (passes.flatMap (registersRow regs) ++ rest) =
      (passes.flatMap fun i => (row i).flatMap fun index =>
        [registerName index.val, registerValue (regs.regs index)]) ++ fields parts rest := by
  induction passes with
  | nil => rfl
  | cons i passes ih =>
    rw [List.flatMap_cons, List.append_assoc, registersRow_words, ih, List.flatMap_cons,
      List.append_assoc]
    rfl

/-- The general registers are printed as a title, their names and their values. -/
theorem generalRegisters_words (regs : UserPtRegs) (rest : Text) :
    fields parts (generalRegisters regs ++ rest) =
      "----Register".toList :: "Map-------------------------------------------".toList ::
        (order.flatMap (fun index => [registerName index.val, registerValue (regs.regs index)]) ++
          fields parts rest) := by
  have words : fields parts "----Register Map-------------------------------------------".toList =
      ["----Register".toList, "Map-------------------------------------------".toList] := by
    decide +kernel
  have space : parts ' ' = true := by decide
  have colon : parts ':' = true := by decide
  have newline : parts '\n' = true := by decide
  have value : Token (registerValue (regs.regs lastRegister)) := hex_word 16 _
  have header (rest : Text) :
      fields parts
          ("----Register Map-------------------------------------------\n".toList ++ rest) =
        "----Register".toList :: "Map-------------------------------------------".toList ::
          fields parts rest := by
    have shape : "----Register Map-------------------------------------------\n".toList =
        "----Register Map-------------------------------------------".toList ++ ['\n'] := by
      decide +kernel
    rw [shape, List.append_assoc, List.singleton_append, fields_append newline, words]
    exact List.cons_append
  have before : "  ".toList = [' ', ' '] := rfl
  have near : ":  ".toList = [':', ' ', ' '] := rfl
  have ending : "\n".toList = ['\n'] := rfl
  unfold generalRegisters
  rw [List.append_assoc, List.append_assoc, List.append_assoc, List.append_assoc, List.append_assoc,
    List.append_assoc, header, rows_words]
  simp only [before, near, ending, List.cons_append, List.nil_append, fields_separator space,
    fields_token (registerName_word 30) colon, fields_token value newline]
  rw [order, List.flatMap_append, List.flatMap_assoc, List.append_assoc]
  rfl

/-- The hardware breakpoints are printed as their numbers and addresses. -/
theorem hwBreakpoints_words (hregs : Nat → HwReg) (slots : List Nat) (rest : Text) :
    fields parts (slots.flatMap (hwBreakpointText hregs) ++ rest) =
      (slots.flatMap fun i => [decimal i, '0' :: 'x' :: hex 0 (hregs i).addr.toNat]) ++
        fields parts rest := by
  have space : parts ' ' = true := by decide
  have colon : parts ':' = true := by decide
  have near : ": ".toList = [':', ' '] := rfl
  have after : "  ".toList = [' ', ' '] := rfl
  induction slots with
  | nil => rfl
  | cons i slots ih =>
    have value : Token ('0' :: 'x' :: hex 0 (hregs i).addr.toNat) := hex_word 0 _
    have here (rest : Text) : fields parts (hwBreakpointText hregs i ++ rest) =
        decimal i :: ('0' :: 'x' :: hex 0 (hregs i).addr.toNat) :: fields parts rest := by
      have shape : hwBreakpointText hregs i ++ rest = decimal i ++ ':' :: ' ' ::
          (('0' :: 'x' :: hex 0 (hregs i).addr.toNat) ++ ' ' :: ' ' :: rest) := by
        unfold hwBreakpointText
        simp only [near, after, List.append_assoc, List.cons_append, List.nil_append]
      rw [shape, fields_token (decimal_word i) colon, fields_separator space,
        fields_token value space, fields_separator space]
    rw [List.flatMap_cons, List.append_assoc, here, ih, List.flatMap_cons, List.append_assoc]
    rfl

/-- A word that is no value is passed over. -/
theorem values_skip (label : Text) {word : Text} (plain : word.take 2 ≠ ['0', 'x'])
    (rest : List Text) : values (label :: word :: rest) = values (word :: rest) := by
  rw [values, if_neg plain]

/-- The values of general registers are read with their names. -/
theorem values_general (regs : UserPtRegs) (indices : List (Fin 31)) (rest : List Text) :
    values (indices.flatMap (fun index =>
      [registerName index.val, registerValue (regs.regs index)]) ++ rest) =
      indices.map (entry regs) ++ values rest := by
  induction indices with
  | nil => rfl
  | cons index indices ih =>
    show values (registerName index.val :: registerValue (regs.regs index) :: _) = _
    rw [registerValue, values_hex]
    exact congrArg _ ih

/-- The values of hardware breakpoints are read with their numbers. -/
theorem values_hw (hregs : Nat → HwReg) (slots : List Nat) :
    values (slots.flatMap fun i => [decimal i, '0' :: 'x' :: hex 0 (hregs i).addr.toNat]) =
      slots.map fun i => (decimal i, (hregs i).addr.toNat) := by
  induction slots with
  | nil => rfl
  | cons i slots ih =>
    show values (decimal i :: ('0' :: 'x' :: hex 0 (hregs i).addr.toNat) :: _) = _
    rw [values_hex]
    exact congrArg _ ih

/-- A decimal number is not taken for a value. -/
theorem decimal_plain (number : Nat) : (decimal number).take 2 ≠ ['0', 'x'] := by
  intro marked
  have inside : 'x' ∈ decimal number := by
    have member : 'x' ∈ (decimal number).take 2 := by simp [marked]
    exact List.mem_of_mem_take member
  rw [decimal_padded] at inside
  obtain ⟨d, bound, same⟩ := padded_letters (by decide) 0 number 'x' inside
  have digits : ∀ d < 10, 'x' ≠ Nat.digitChar d := by decide
  exact digits d bound same

/-- A label between blanks, with a colon behind it, is the first field. -/
theorem fields_label {word : Text} (token : Token word) (before after : Nat) (rest : Text) :
    fields parts
        (List.replicate before ' ' ++ (word ++ ':' :: (List.replicate after ' ' ++ rest))) =
      word :: fields parts rest := by
  have space : parts ' ' = true := by decide
  have colon : parts ':' = true := by decide
  rw [fields_replicate space, fields_token token colon, fields_replicate space]

/-- The other registers are printed as their names and values. -/
theorem otherRegisters_words (regs : UserPtRegs) (rest : Text) :
    fields parts ("  pc:   ".toList ++ (registerValue regs.pc ++ ("    sp:  ".toList ++
      (registerValue regs.sp ++ (" pstate:".toList ++ (registerValue regs.pstate ++
        ("\n".toList ++ rest))))))) =
      ['p', 'c'] :: registerValue regs.pc :: ['s', 'p'] :: registerValue regs.sp ::
        ['p', 's', 't', 'a', 't', 'e'] :: registerValue regs.pstate :: fields parts rest := by
  have space : parts ' ' = true := by decide
  have newline : parts '\n' = true := by decide
  have token (value : BitVec 64) : Token (registerValue value) := hex_word 16 _
  have pcToken : Token ['p', 'c'] := by simp [Token, parts]
  have spToken : Token ['s', 'p'] := by simp [Token, parts]
  have pstateToken : Token ['p', 's', 't', 'a', 't', 'e'] := by simp [Token, parts]
  have pc (rest : Text) : "  pc:   ".toList ++ rest = List.replicate 2 ' ' ++
      (['p', 'c'] ++ ':' :: (List.replicate 3 ' ' ++ rest)) := rfl
  have sp (rest : Text) : "    sp:  ".toList ++ rest = ' ' :: (List.replicate 3 ' ' ++
      (['s', 'p'] ++ ':' :: (List.replicate 2 ' ' ++ rest))) := rfl
  have pstate (rest : Text) : " pstate:".toList ++ rest = ' ' :: (List.replicate 0 ' ' ++
      (['p', 's', 't', 'a', 't', 'e'] ++ ':' :: (List.replicate 0 ' ' ++ rest))) := rfl
  have ending (rest : Text) : "\n".toList ++ rest = '\n' :: rest := rfl
  rw [pc, fields_label pcToken, sp, fields_token (token regs.pc) space, fields_label spToken,
    pstate, fields_token (token regs.sp) space, fields_label pstateToken, ending,
    fields_token (token regs.pstate) newline]

/-- The header of the hardware breakpoints is three words. -/
theorem hwHeader_words (rest : Text) :
    fields parts ("----Hardware Registers-------------------------------------\n".toList ++
      ("  Dbg: ".toList ++ rest)) =
      "----Hardware".toList :: "Registers-------------------------------------".toList ::
        ['D', 'b', 'g'] :: fields parts rest := by
  have newline : parts '\n' = true := by decide
  have words : fields parts "----Hardware Registers-------------------------------------".toList =
      ["----Hardware".toList, "Registers-------------------------------------".toList] := by
    decide +kernel
  have shape : "----Hardware Registers-------------------------------------\n".toList =
      "----Hardware Registers-------------------------------------".toList ++ ['\n'] := by
    decide +kernel
  have dbgToken : Token ['D', 'b', 'g'] := by simp [Token, parts]
  have dbg : "  Dbg: ".toList ++ rest = List.replicate 2 ' ' ++
      (['D', 'b', 'g'] ++ ':' :: (List.replicate 1 ' ' ++ rest)) := rfl
  rw [shape, List.append_assoc, List.singleton_append, fields_append newline, words, dbg,
    fields_label dbgToken]
  rfl

/-- The values of hardware breakpoints are read behind their header. -/
theorem values_header (hregs : Nat → HwReg) (slots : List Nat) :
    values ("----Hardware".toList :: "Registers-------------------------------------".toList ::
      ['D', 'b', 'g'] ::
        slots.flatMap fun i => [decimal i, '0' :: 'x' :: hex 0 (hregs i).addr.toNat]) =
      slots.map fun i => (decimal i, (hregs i).addr.toNat) := by
  have title : "Registers-------------------------------------".toList.take 2 ≠ ['0', 'x'] := by
    decide +kernel
  have dbg : ['D', 'b', 'g'].take 2 ≠ ['0', 'x'] := by decide
  rw [values_skip _ title, values_skip _ dbg, ← values_hw]
  cases slots with
  | nil => rfl
  | cons i slots =>
    rw [List.flatMap_cons]
    exact values_skip _ (decimal_plain i) _

/-- **The values that `printRegsMap` prints are read back from its text.** -/
theorem printRegsMap_read (regs : UserPtRegs) (hwBpSupported : Bool) (hwBreakpoints : Nat)
    (hregs : Nat → HwReg) :
    read (printRegsMap regs hwBpSupported hwBreakpoints hregs) =
      order.map (entry regs) ++ (otherEntries regs ++
        hwEntries hwBpSupported hwBreakpoints hregs) := by
  have title : "Map-------------------------------------------".toList.take 2 ≠ ['0', 'x'] := by
    decide +kernel
  have skipped (rest : List Text) :
      values ("----Register".toList :: "Map-------------------------------------------".toList ::
        (order.flatMap (fun index => [registerName index.val, registerValue (regs.regs index)]) ++
          rest)) = order.map (entry regs) ++ values rest := by
    have first : order = 0 :: order.tail := by decide
    have plain : (registerName 0).take 2 ≠ ['0', 'x'] := by decide
    rw [values_skip _ title, ← values_general, first, List.flatMap_cons]
    exact values_skip _ plain _
  have hw : values (fields parts (if hwBpSupported then
      "----Hardware Registers-------------------------------------\n".toList ++
        "  Dbg: ".toList ++ (List.range hwBreakpoints).flatMap (hwBreakpointText hregs) ++
        "\n".toList else [])) = hwEntries hwBpSupported hwBreakpoints hregs := by
    cases hwBpSupported with
    | false => rfl
    | true =>
      have ending : fields parts "\n".toList = [] := by decide +kernel
      simp only [if_true, hwEntries, List.append_assoc]
      rw [hwHeader_words, hwBreakpoints_words, ending, List.append_nil, values_header]
  unfold read printRegsMap
  simp only [List.append_assoc]
  rw [generalRegisters_words, otherRegisters_words, skipped]
  show _ ++ values (['p', 'c'] :: ('0' :: 'x' :: hex 16 regs.pc.toNat) :: ['s', 'p'] ::
    ('0' :: 'x' :: hex 16 regs.sp.toNat) :: ['p', 's', 't', 'a', 't', 'e'] ::
    ('0' :: 'x' :: hex 16 regs.pstate.toNat) :: _) = _
  rw [values_hex, values_hex, values_hex]
  simp only [List.append_assoc] at hw
  rw [hw]
  rfl

/-- Different numbers are printed differently. -/
theorem decimal_injective : Function.Injective decimal := by
  intro first second same
  have reads : ∀ d < 10, (digitValue (Nat.digitChar d)).getD 0 = d := by decide
  have back (number : Nat) : numberOf 10 (decimal number) = number := by
    rw [decimal_padded]
    exact value_padded (by decide) reads 0 number
  rw [← back first, ← back second, same]

/-- The letters of a decimal number are digits. -/
theorem decimal_digit (number : Nat) :
    ∃ d < 10, ∃ rest, decimal number = Nat.digitChar d :: rest := by
  obtain ⟨first, rest, shape⟩ := List.exists_cons_of_ne_nil (decimal_word number).1
  have inside : first ∈ padded 10 0 number := by
    rw [← decimal_padded, shape]
    exact List.mem_cons_self
  obtain ⟨d, bound, rfl⟩ := padded_letters (by decide) 0 number first inside
  exact ⟨d, bound, rest, shape⟩

/-- The names of the entries differ. -/
theorem labels_nodup (regs : UserPtRegs) (hwBpSupported : Bool) (hwBreakpoints : Nat)
    (hregs : Nat → HwReg) :
    ((order.map (entry regs) ++ (otherEntries regs ++
      hwEntries hwBpSupported hwBreakpoints hregs)).map Prod.fst).Nodup := by
  have general : (order.map fun index => registerName index.val).Nodup := by
    apply List.Nodup.map _ (by decide)
    intro first second same
    have names : 'x' :: decimal first.val = 'x' :: decimal second.val := same
    rw [List.cons.injEq] at names
    exact Fin.ext (decimal_injective names.2)
  have hw : ((hwEntries hwBpSupported hwBreakpoints hregs).map Prod.fst).Nodup := by
    cases hwBpSupported with
    | false => simp [hwEntries]
    | true =>
      have labels : (hwEntries true hwBreakpoints hregs).map Prod.fst =
          (List.range hwBreakpoints).map decimal := by simp [hwEntries]
      rw [labels]
      exact List.Nodup.map decimal_injective List.nodup_range
  have hwLabel : ∀ label ∈ (hwEntries hwBpSupported hwBreakpoints hregs).map Prod.fst,
      ∃ d < 10, ∃ rest, label = Nat.digitChar d :: rest := by
    intro label inside
    cases hwBpSupported with
    | false => simp [hwEntries] at inside
    | true =>
      simp only [hwEntries, if_true, List.map_map, List.mem_map] at inside
      obtain ⟨i, -, rfl⟩ := inside
      exact decimal_digit i
  have others : (otherEntries regs).map Prod.fst =
      [['p', 'c'], ['s', 'p'], ['p', 's', 't', 'a', 't', 'e']] := rfl
  have letters : ∀ d < 10, Nat.digitChar d ≠ 'x' ∧ Nat.digitChar d ≠ 'p' ∧
      Nat.digitChar d ≠ 's' := by decide
  rw [List.map_append, List.map_append, List.map_map, List.nodup_append, List.nodup_append, others]
  refine ⟨general, ⟨by decide, hw, ?_⟩, ?_⟩
  · intro label inside other shown same
    obtain ⟨d, bound, rest, digit⟩ := hwLabel other shown
    have apart := letters d bound
    rw [digit] at same
    simp only [List.mem_cons, List.not_mem_nil, or_false] at inside
    rcases inside with rfl | rfl | rfl
    · exact apart.2.1 (List.cons.inj same).1.symm
    · exact apart.2.2 (List.cons.inj same).1.symm
    · exact apart.2.1 (List.cons.inj same).1.symm
  · intro label inside other shown same
    obtain ⟨index, -, rfl⟩ := List.mem_map.mp inside
    rw [List.mem_append] at shown
    cases shown with
    | inl named =>
      rw [← same] at named
      simp [entry, registerName] at named
    | inr numbered =>
      obtain ⟨d, bound, rest, digit⟩ := hwLabel other numbered
      rw [digit] at same
      exact (letters d bound).1 (List.cons.inj same).1.symm

/-- **Every register is shown once.** The labels in the text of `printRegsMap` differ, and a value
is shown under a label exactly when it is that of the register with this name: a general register,
`pc`, `sp` or `pstate`, or the address in a slot where there are hardware breakpoints. -/
theorem registers_shown (regs : UserPtRegs) (hwBpSupported : Bool) (hwBreakpoints : Nat)
    (hregs : Nat → HwReg) :
    ((read (printRegsMap regs hwBpSupported hwBreakpoints hregs)).map Prod.fst).Nodup ∧
    ∀ shown, shown ∈ read (printRegsMap regs hwBpSupported hwBreakpoints hregs) ↔
      (∃ index : Fin 31, shown = (registerName index.val, (regs.regs index).toNat)) ∨
      shown = (['p', 'c'], regs.pc.toNat) ∨ shown = (['s', 'p'], regs.sp.toNat) ∨
      shown = (['p', 's', 't', 'a', 't', 'e'], regs.pstate.toNat) ∨
      hwBpSupported = true ∧ ∃ i < hwBreakpoints, shown = (decimal i, (hregs i).addr.toNat) := by
  rw [printRegsMap_read]
  refine ⟨labels_nodup regs hwBpSupported hwBreakpoints hregs, fun shown => ?_⟩
  have all : ∀ index : Fin 31, index ∈ order := by decide
  have general : shown ∈ order.map (entry regs) ↔
      ∃ index : Fin 31, shown = (registerName index.val, (regs.regs index).toNat) := by
    rw [List.mem_map]
    constructor
    · rintro ⟨index, -, rfl⟩
      exact ⟨index, rfl⟩
    · rintro ⟨index, rfl⟩
      exact ⟨index, all index, rfl⟩
  have hw : shown ∈ hwEntries hwBpSupported hwBreakpoints hregs ↔
      hwBpSupported = true ∧ ∃ i < hwBreakpoints, shown = (decimal i, (hregs i).addr.toNat) := by
    cases hwBpSupported with
    | false => simp [hwEntries]
    | true =>
      simp only [hwEntries, if_true, List.mem_map, List.mem_range, true_and]
      constructor
      · rintro ⟨i, inside, rfl⟩
        exact ⟨i, inside, rfl⟩
      · rintro ⟨i, inside, rfl⟩
        exact ⟨i, inside, rfl⟩
  rw [List.mem_append, List.mem_append, general, hw]
  simp only [otherEntries, List.mem_cons, List.not_mem_nil, or_false, or_assoc]

/-- **One text, one state.** Two states print the same text exactly when all their registers are
equal and, where they are shown, the addresses in the slots of the hardware breakpoints. -/
theorem same_text_iff (regs other : UserPtRegs) (hwBpSupported : Bool) (hwBreakpoints : Nat)
    (hregs otherHregs : Nat → HwReg) :
    printRegsMap regs hwBpSupported hwBreakpoints hregs =
        printRegsMap other hwBpSupported hwBreakpoints otherHregs ↔
      regs = other ∧ (hwBpSupported = true →
        ∀ i < hwBreakpoints, (hregs i).addr = (otherHregs i).addr) := by
  constructor
  · intro same
    have reads := congrArg read same
    rw [printRegsMap_read, printRegsMap_read] at reads
    have lengths : (order.map (entry regs)).length = (order.map (entry other)).length := by simp
    obtain ⟨general, rest⟩ := List.append_inj reads lengths
    have others : (otherEntries regs).length = (otherEntries other).length := rfl
    obtain ⟨named, hw⟩ := List.append_inj rest others
    have registers : regs.regs = other.regs := by
      funext index
      have all : ∀ index : Fin 31, index ∈ order := by decide
      have here := List.map_inj_left.mp general index (all index)
      exact BitVec.eq_of_toNat_eq (congrArg Prod.snd here)
    simp only [otherEntries, List.cons.injEq, Prod.mk.injEq, true_and, and_true] at named
    refine ⟨?_, fun supported i inside => ?_⟩
    · obtain ⟨regs, sp, pc, pstate⟩ := regs
      obtain ⟨otherRegs, otherSp, otherPc, otherPstate⟩ := other
      have pcSame := BitVec.eq_of_toNat_eq named.1
      have spSame := BitVec.eq_of_toNat_eq named.2.1
      have pstateSame := BitVec.eq_of_toNat_eq named.2.2
      simp only at registers pcSame spSame pstateSame
      rw [registers, pcSame, spSame, pstateSame]
    · rw [hwEntries, hwEntries, if_pos supported, if_pos supported] at hw
      have here := List.map_inj_left.mp hw i (List.mem_range.mpr inside)
      exact BitVec.eq_of_toNat_eq (congrArg Prod.snd here)
  · rintro ⟨rfl, addresses⟩
    cases hwBpSupported with
    | false => rfl
    | true =>
      have slots : (List.range hwBreakpoints).flatMap (hwBreakpointText hregs) =
          (List.range hwBreakpoints).flatMap (hwBreakpointText otherHregs) := by
        apply List.flatMap_congr
        intro i inside
        have here := addresses rfl i (List.mem_range.mp inside)
        unfold hwBreakpointText
        rw [here]
      unfold printRegsMap
      rw [slots]

end A64dbg.RegsMapText
