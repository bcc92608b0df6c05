import A64dbg.ProcMaps

/-!
# The list of a memory map

The first node of `pmparser_parse` is attached to itself, and the next one overwrites that link. So
a list of one node never ends: `pmparser_next` delivers its node for ever, and `pmparser_free` uses
it after it has released it. The loop reads once more after the last newline, which makes it two
nodes for every file that has one. `iterates_exact` and `released_iff` say for every file that is
parsed when the list ends, what the iterator delivers, and when all of it is released.
-/

namespace A64dbg.MapsList

open Chains

/-- A read does not meet the end of the file: it stops at a newline, or the array is full. -/
def Continues (file : Text) : Prop := '\n' ∈ file ∨ procmapsLineMaxLength - 1 ≤ file.length

instance (file : Text) : Decidable (Continues file) := inferInstanceAs (Decidable (_ ∨ _))

/-- `fgets` meets the end of a file that has no newline and is short. -/
theorem takeLine_ended (count : Nat) (file : Text) :
    (takeLine count file).2.2 = true ↔ '\n' ∉ file ∧ file.length < count := by
  induction count generalizing file with
  | zero => simp [takeLine]
  | succ count ih =>
    cases file with
    | nil => simp [takeLine]
    | cons letter rest =>
      rw [takeLine]
      by_cases newline : letter = '\n'
      · simp [newline]
      · have other : '\n' ≠ letter := Ne.symm newline
        simp [newline, other, ih]

/-- There is one pass exactly when the first read meets the end of the file. -/
theorem passes_length (file : Text) : 2 ≤ (passes file).length ↔ Continues file := by
  have ended := takeLine_ended (procmapsLineMaxLength - 1) file
  have more (file : Text) : 1 ≤ (passes file).length := by
    rw [passes]
    split
    · simp
    · simp
  have continues : Continues file ↔
      ¬('\n' ∉ file ∧ file.length < procmapsLineMaxLength - 1) := by
    rw [Continues, not_and_or, not_not, Nat.not_lt]
  rw [continues, ← ended, passes]
  split
  · next taken => simp [taken]
  · next line left taken =>
    have behind := more left
    simp only [taken, List.length_cons]
    simp
    omega

/-- A read stops behind the first newline. -/
theorem takeLine_line {line : Text} (single : '\n' ∉ line) {count : Nat}
    (room : line.length < count) (rest : Text) :
    takeLine count (line ++ '\n' :: rest) = (line ++ ['\n'], rest, false) := by
  induction line generalizing count with
  | nil =>
    obtain ⟨count, rfl⟩ : ∃ less, count = less + 1 := ⟨count - 1, by simp at room; omega⟩
    simp [takeLine]
  | cons letter line ih =>
    rw [List.mem_cons, not_or] at single
    rw [List.length_cons] at room
    obtain ⟨count, rfl⟩ : ∃ less, count = less + 1 := ⟨count - 1, by omega⟩
    have other : ¬letter = '\n' := fun same => single.1 same.symm
    have behind := ih single.2 (show line.length < count by omega)
    simp only [List.cons_append, takeLine, other, if_false, behind]

/-- A line that is read whole is one pass. -/
theorem passes_line {line : Text} (single : '\n' ∉ line)
    (room : line.length < procmapsLineMaxLength - 1) (rest : Text) :
    passes (line ++ '\n' :: rest) = (line ++ ['\n']) :: passes rest := by
  have taken := takeLine_line single room rest
  rw [passes]
  split
  · next ended => simp [taken] at ended
  · next first left goes_on =>
    rw [taken, Prod.mk.injEq, Prod.mk.injEq] at goes_on
    rw [goes_on.1, goes_on.2.1]

/-- At the end of the file there is one more pass. -/
theorem passes_nil : passes [] = [[]] := by
  have taken : takeLine (procmapsLineMaxLength - 1) [] = ([], [], true) := rfl
  rw [passes]
  split
  · next ended =>
    rw [taken, Prod.mk.injEq] at ended
    rw [ended.1]
  · next goes_on => simp [taken] at goes_on

variable {storage : Storage}

/-- The nodes of values, in the order in which they are allocated. -/
def nodes (storage : Storage) (values : List ProcmapsStruct) : List (Nat × ProcmapsStruct) :=
  values.zipIdx.map fun (value, i) => (storage.place i, value)

/-- One more value is one more node at the next place. -/
theorem nodes_concat (values : List ProcmapsStruct) (value : ProcmapsStruct) :
    nodes storage (values ++ [value]) =
      nodes storage values ++ [(storage.place values.length, value)] := by
  simp [nodes, List.zipIdx_append]

/-- The address of a later node is not that of one of these. -/
theorem nodes_apart {values : List ProcmapsStruct} {i : Nat} (later : values.length ≤ i) :
    storage.place i ∉ (nodes storage values).map Prod.fst := by
  intro inside
  obtain ⟨entry, member, same⟩ := List.mem_map.mp inside
  obtain ⟨⟨value, j⟩, listed, rfl⟩ := List.mem_map.mp member
  have index : j = i := storage.place.injective same
  have bound : j < values.length := by
    have inside := List.snd_lt_of_mem_zipIdx listed
    simpa using inside
  omega

/-- The node of a value is where it was allocated. -/
theorem mem_nodes {values : List ProcmapsStruct} {i : Nat} (inside : i < values.length) :
    storage.place i ∈ (nodes storage values).map Prod.fst := by
  have index : i < ((nodes storage values).map Prod.fst).length := by
    simpa [nodes] using inside
  have here : ((nodes storage values).map Prod.fst)[i] = storage.place i := by
    simp [nodes]
  rw [← here]
  exact List.getElem_mem index

/-- The nodes of a parser are linked in the order of their values, from the first to the last one,
which is linked to itself when it is the only one. -/
structure Linked (storage : Storage) (parser : MapsParser) (values : List ProcmapsStruct)
    (last : ProcmapsStruct) : Prop where
  /-- The number of nodes. -/
  ind : parser.ind = values.length + 1
  /-- The list begins with the first one. -/
  listMaps : parser.listMaps = some (storage.place 0)
  /-- The current node is the last one. -/
  currentNode : parser.currentNode = some (storage.place values.length)
  /-- The list leads to the last one. -/
  chain : Chain parser.heap (some (storage.place 0)) (nodes storage values)
    (some (storage.place values.length))
  /-- The last one. -/
  node : parser.heap (storage.place values.length) =
    some ⟨last, if values = [] then some (storage.place 0) else none⟩
  /-- There is nothing else. -/
  others : ∀ address, (∀ i ≤ values.length, address ≠ storage.place i) →
    parser.heap address = none

/-- The first node is linked to itself. -/
theorem attach_first {parser : MapsParser} (start : parser.ind = 0)
    (empty : parser.heap = fun _ => none) (value : ProcmapsStruct) :
    ∃ next, parser.attach (storage.place 0) value = some next ∧ Linked storage next [] value := by
  have attached : parser.attach (storage.place 0) value = some { parser with
      heap := Function.update (Function.update (fun _ => none) (storage.place 0)
        (some ⟨value, none⟩)) (storage.place 0) (some ⟨value, some (storage.place 0)⟩)
      listMaps := some (storage.place 0)
      currentNode := some (storage.place 0)
      ind := 1 } := by
    simp [MapsParser.attach, start, empty, link]
  refine ⟨_, attached, rfl, rfl, rfl, rfl, ?_, ?_⟩
  · simp
  · intro address apart
    have differ : address ≠ storage.place 0 := apart 0 (Nat.le_refl _)
    simp [differ]

/-- Another node is linked behind the last one. -/
theorem attach_next {parser : MapsParser} {values : List ProcmapsStruct} {last : ProcmapsStruct}
    (linked : Linked storage parser values last) (value : ProcmapsStruct) :
    ∃ next, parser.attach (storage.place parser.ind) value = some next ∧
      Linked storage next (values ++ [last]) value := by
  have more : parser.ind ≠ 0 := by
    rw [linked.ind]
    omega
  have differ : storage.place values.length ≠ storage.place (values.length + 1) := by
    intro same
    have index := storage.place.injective same
    omega
  have newApart : storage.place (values.length + 1) ∉ (nodes storage values).map Prod.fst :=
    nodes_apart (Nat.le_succ _)
  obtain ⟨heap, attached, chain, node, others⟩ := chain_extend value linked.chain linked.node
    (nodes_apart (Nat.le_refl _)) newApart differ
  have result : parser.attach (storage.place parser.ind) value = some { parser with
      heap := heap
      currentNode := some (storage.place (values.length + 1))
      ind := parser.ind + 1 } := by
    rw [← linked.ind] at attached
    simp [MapsParser.attach, more, linked.currentNode, attached, ← linked.ind]
  refine ⟨_, result, ?_, linked.listMaps, ?_, ?_, ?_, ?_⟩
  · simp [linked.ind]
  · simp
  · rw [nodes_concat]
    simpa using chain
  · simpa using node
  · intro address apart
    have notLast : address ≠ storage.place values.length := apart _ (by simp)
    have notNew : address ≠ storage.place (values.length + 1) := apart _ (by simp)
    have before := linked.others address fun i inside => apart i (by simp; omega)
    rw [← before]
    exact others address notLast notNew

/-- The nodes of a parser hold these values, in order; before the first pass there are none. -/
def Holds (storage : Storage) (parser : MapsParser) (all : List ProcmapsStruct) : Prop :=
  (all = [] ∧ parser.ind = 0 ∧ parser.heap = fun _ => none) ∨
    ∃ values last, all = values ++ [last] ∧ Linked storage parser values last

/-- A node is attached, and the array of the line stays. -/
theorem attach_buf {parser next : MapsParser} {tmp : Nat} {value : ProcmapsStruct}
    (attached : parser.attach tmp value = some next) : next.buf = parser.buf := by
  rw [MapsParser.attach] at attached
  obtain ⟨current, -, later⟩ := Option.bind_eq_some_iff.mp attached
  obtain ⟨heap, -, final⟩ := Option.bind_eq_some_iff.mp later
  rw [Option.pure_def, Option.some.injEq] at final
  rw [← final]

/-- A node is attached behind the others. -/
theorem attach_holds {parser : MapsParser} {all : List ProcmapsStruct}
    (holds : Holds storage parser all) (value : ProcmapsStruct) :
    ∃ next, parser.attach (storage.place parser.ind) value = some next ∧
      Holds storage next (all ++ [value]) := by
  rcases holds with ⟨rfl, start, empty⟩ | ⟨values, last, rfl, linked⟩
  · obtain ⟨next, attached, linked⟩ := attach_first start empty value
    rw [start]
    exact ⟨next, attached, Or.inr ⟨[], value, rfl, linked⟩⟩
  · obtain ⟨next, attached, extended⟩ := attach_next linked value
    exact ⟨next, attached, Or.inr ⟨_, value, rfl, extended⟩⟩

/-- A pass fills a node and attaches it. -/
theorem pass_cases {parser next : MapsParser} {line : Text}
    (passed : parser.pass storage line = some next) :
    ∃ buf perm value,
      { parser with buf := buf, perm := perm }.attach (storage.place parser.ind) value =
        some next := by
  obtain ⟨words, -, filled⟩ := Option.bind_eq_some_iff.mp passed
  obtain ⟨value, -, attached⟩ := Option.bind_eq_some_iff.mp filled
  exact ⟨_, _, value, attached⟩

/-- A pass behind others links one more node. -/
theorem pass_linked {parser next : MapsParser} {values : List ProcmapsStruct}
    {last : ProcmapsStruct} {line : Text} (linked : Linked storage parser values last)
    (passed : parser.pass storage line = some next) :
    ∃ value, Linked storage next (values ++ [last]) value := by
  obtain ⟨buf, perm, value, attached⟩ := pass_cases passed
  have same : Linked storage { parser with buf := buf, perm := perm } values last :=
    ⟨linked.ind, linked.listMaps, linked.currentNode, linked.chain, linked.node, linked.others⟩
  obtain ⟨other, again, kept⟩ := attach_next same value
  rw [attached, Option.some.injEq] at again
  rw [again]
  exact ⟨value, kept⟩

/-- Further passes link as many nodes. -/
theorem passes_linked {parser final : MapsParser} {values : List ProcmapsStruct}
    {last : ProcmapsStruct} {lines : List Text} (linked : Linked storage parser values last)
    (run : lines.foldlM (MapsParser.pass storage) parser = some final) :
    ∃ all value, Linked storage final all value ∧
      all.length = values.length + lines.length := by
  induction lines generalizing parser values last with
  | nil =>
    rw [List.foldlM_nil, Option.pure_def, Option.some.injEq] at run
    rw [← run]
    exact ⟨values, last, linked, rfl⟩
  | cons line rest ih =>
    rw [List.foldlM_cons] at run
    obtain ⟨next, passed, later⟩ := Option.bind_eq_some_iff.mp run
    obtain ⟨value, extended⟩ := pass_linked linked passed
    obtain ⟨all, final_value, reached, length⟩ := ih extended later
    refine ⟨all, final_value, reached, ?_⟩
    simp only [length, List.length_append, List.length_cons, List.length_nil]
    omega

/-- A file that is parsed leaves a list and an iterator on its first node. -/
theorem parse_linked {buf perm file : Text} {heap : Heap ProcmapsStruct}
    {iterator : ProcmapsIterator}
    (parsed : pmparserParse storage buf perm (some file) = some (heap, some iterator)) :
    ∃ parser values last, Linked storage parser values last ∧ parser.heap = heap ∧
      values.length + 1 = (passes file).length ∧
      iterator = ⟨some (storage.place 0), some (storage.place 0)⟩ := by
  obtain ⟨parser, run, same⟩ := Option.map_eq_some_iff.mp parsed
  rw [Prod.mk.injEq, Option.some.injEq] at same
  obtain ⟨first, rest, lines⟩ : ∃ first rest, passes file = first :: rest := by
    rw [passes]
    split
    · exact ⟨_, _, rfl⟩
    · exact ⟨_, _, rfl⟩
  rw [lines, List.foldlM_cons] at run
  obtain ⟨next, passed, later⟩ := Option.bind_eq_some_iff.mp run
  obtain ⟨buf', perm', value, attached⟩ := pass_cases passed
  obtain ⟨other, again, linked⟩ := @attach_first storage
    { MapsParser.initial buf perm with buf := buf', perm := perm' } rfl rfl value
  have equal : next = other := Option.some.inj (attached.symm.trans again)
  rw [← equal] at linked
  obtain ⟨values, last, reached, length⟩ := passes_linked linked later
  refine ⟨parser, values, last, reached, same.1, ?_, ?_⟩
  · rw [lines, length, List.length_nil, List.length_cons]
    omega
  · rw [← same.2, reached.listMaps]

/-- The list of a parser: it ends, unless there is one node only. -/
theorem Linked.list {parser : MapsParser} {values : List ProcmapsStruct} {last : ProcmapsStruct}
    (linked : Linked storage parser values last) (several : values ≠ []) :
    Chain parser.heap (some (storage.place 0)) (nodes storage (values ++ [last])) none := by
  have node := linked.node
  rw [if_neg several] at node
  rw [nodes_concat, chain_append]
  exact ⟨_, linked.chain, rfl, none, node, rfl⟩

/-- What calls of `pmparser_next` deliver, one after the other. -/
def calls (heap : Heap ProcmapsStruct) : Nat → ProcmapsIterator → Option (List (Option Nat))
  | 0, _ => some []
  | count + 1, iterator => do
    let (node, iterator) ← pmparserNext heap iterator
    let rest ← calls heap count iterator
    return node :: rest

/-- Behind the end of a list `pmparser_next` delivers the null pointer. -/
theorem calls_ended (heap : Heap ProcmapsStruct) (count : Nat) (head : Option Nat) :
    calls heap count ⟨head, none⟩ = some (List.replicate count none) := by
  induction count with
  | zero => rfl
  | succ count ih =>
    simp only [calls, pmparserNext, Option.bind_eq_bind, Option.bind_some, ih, Option.pure_def,
      List.replicate_succ]

/-- On a list `pmparser_next` delivers each node once, and then the null pointer. -/
theorem calls_list {heap : Heap ProcmapsStruct} {entries : List (Nat × ProcmapsStruct)}
    {head current : Option Nat} (chain : Chain heap current entries none) (count : Nat) :
    calls heap count ⟨head, current⟩ =
      some ((entries.map fun entry => some entry.1).take count ++
        List.replicate (count - entries.length) none) := by
  induction entries generalizing current count with
  | nil =>
    have null : current = none := chain
    simp [null, calls_ended]
  | cons entry rest ih =>
    obtain ⟨here, next, node, later⟩ := chain
    cases count with
    | zero => simp [calls]
    | succ count =>
      have distance : count + 1 - (entry :: rest).length = count - rest.length := by
        rw [List.length_cons]
        omega
      simp only [calls, pmparserNext, here, node, Option.map_some, Option.bind_eq_bind,
        Option.bind_some, ih later count, Option.pure_def, List.map_cons, List.take_succ_cons,
        List.cons_append, distance]

/-- A node that is linked to itself is delivered for ever. -/
theorem calls_loop {heap : Heap ProcmapsStruct} {place : Nat} {value : ProcmapsStruct}
    (loop : heap place = some ⟨value, some place⟩) (count : Nat) (head : Option Nat) :
    calls heap count ⟨head, some place⟩ = some (List.replicate count (some place)) := by
  induction count with
  | zero => rfl
  | succ count ih =>
    simp only [calls, pmparserNext, loop, Option.map_some, Option.bind_eq_bind, Option.bind_some,
      ih, Option.pure_def, List.replicate_succ]

/-- **When the list ends.** For every file that is parsed and whatever its arrays and its storage
held, exactly when a read goes on before the end of the file. Then the iterator delivers a node for
each pass, in order, and null pointers behind them; otherwise it delivers one node for ever. -/
theorem iterates_exact {buf perm file : Text} {heap : Heap ProcmapsStruct}
    {iterator : ProcmapsIterator}
    (parsed : pmparserParse storage buf perm (some file) = some (heap, some iterator)) :
    ((∃ entries, Chain heap iterator.head entries none) ↔ Continues file) ∧
    ∀ count, calls heap count iterator = some (
      if Continues file then
        (((List.range (passes file).length).map fun i => some (storage.place i)).take count ++
          List.replicate (count - (passes file).length) none)
      else List.replicate count (some (storage.place 0))) := by
  obtain ⟨parser, values, last, linked, rfl, length, rfl⟩ := parse_linked parsed
  by_cases several : values = []
  · have once : ¬Continues file := by
      rw [← passes_length, ← length, several, List.length_nil]
      omega
    have loop : parser.heap (storage.place 0) = some ⟨last, some (storage.place 0)⟩ := by
      have node := linked.node
      simpa [several] using node
    constructor
    · apply iff_of_false _ once
      rintro ⟨entries, chain⟩
      exact not_chain_of_loop loop chain
    · intro count
      rw [if_neg once, calls_loop loop]
  · have more : Continues file := by
      have positive := List.length_pos_iff.mpr several
      rw [← passes_length, ← length]
      omega
    have list := linked.list several
    have count_nodes : (nodes storage (values ++ [last])).length = (passes file).length := by
      simp [nodes, ← length]
    have places : ((nodes storage (values ++ [last])).map fun entry => some entry.1) =
        (List.range (passes file).length).map fun i => some (storage.place i) := by
      apply List.ext_getElem
      · simp [count_nodes]
      · intro i inside _
        simp [nodes]
    constructor
    · exact iff_of_true ⟨_, list⟩ more
    · intro count
      rw [if_pos more, calls_list list, places, count_nodes]

/-- Storage that holds nothing. -/
def blankStorage : Storage :=
  ⟨Function.Embedding.refl Nat, fun _ => ⟨0, 0, 0, [], false, false, false, false, 0, [], 0, []⟩⟩

/-- A line of a memory map. -/
def oneLine : Text := ['1', '-', '2', ' ', 'r', ' ', '0', ' ', '8', ' ', '7', ' ', '\n']

/-- A line whose newline is missing. -/
def cutLine : Text := ['1', '-', '2', ' ', 'r', ' ', '0', ' ', '8', ' ', '7', ' ', 'p', ' ']

/-- Such a line is read by one pass, and each whole line in front of nothing by one more. -/
theorem sample_passes : passes (oneLine ++ oneLine) = [oneLine, oneLine, []] ∧
    passes cutLine = [cutLine] := by
  constructor
  · have first : passes (oneLine ++ oneLine) = oneLine :: passes oneLine :=
      @passes_line oneLine.dropLast (by decide) (by decide) oneLine
    have second : passes oneLine = oneLine :: passes [] :=
      @passes_line oneLine.dropLast (by decide) (by decide) []
    rw [first, second, passes_nil]
  · have taken : takeLine (procmapsLineMaxLength - 1) cutLine = (cutLine, [], true) := by
      decide +kernel
    rw [passes]
    split
    · next ended =>
      rw [taken, Prod.mk.injEq] at ended
      rw [ended.1]
    · next goes_on => simp [taken] at goes_on

/-- A file is parsed when its passes are. -/
theorem parsed_of_passes {file : Text} {lines : List Text} (read : passes file = lines)
    (runs : (lines.foldlM (MapsParser.pass blankStorage) (.initial [] [])).isSome = true) :
    ∃ heap iterator,
      pmparserParse blankStorage [] [] (some file) = some (heap, some iterator) := by
  obtain ⟨final, run⟩ := Option.isSome_iff_exists.mp runs
  rw [pmparserParse, read, run]
  exact ⟨_, _, rfl⟩

/-- A file of two lines is parsed to a list. -/
theorem twoLines_parsed : ∃ heap iterator,
    pmparserParse blankStorage [] [] (some (oneLine ++ oneLine)) = some (heap, some iterator) :=
  parsed_of_passes sample_passes.1 (by decide +kernel)

/-- A file whose last line has no newline is parsed to a list. -/
theorem cutLine_parsed : ∃ heap iterator,
    pmparserParse blankStorage [] [] (some cutLine) = some (heap, some iterator) :=
  parsed_of_passes sample_passes.2 (by decide +kernel)

/-- The list of two lines ends behind three nodes. That of a line without a newline does not, and
its node is delivered again and again. -/
theorem iterates_exact_lines :
    (∃ heap iterator,
      pmparserParse blankStorage [] [] (some (oneLine ++ oneLine)) = some (heap, some iterator) ∧
      (∃ entries, Chain heap iterator.head entries none) ∧
      calls heap 5 iterator = some [some 0, some 1, some 2, none, none]) ∧
    ∃ heap iterator,
      pmparserParse blankStorage [] [] (some cutLine) = some (heap, some iterator) ∧
      ¬(∃ entries, Chain heap iterator.head entries none) ∧
      calls heap 3 iterator = some [some 0, some 0, some 0] := by
  have goesOn : Continues (oneLine ++ oneLine) := by decide
  have stops : ¬Continues cutLine := by decide
  constructor
  · obtain ⟨heap, iterator, parsed⟩ := twoLines_parsed
    obtain ⟨list, delivered⟩ := iterates_exact parsed
    refine ⟨heap, iterator, parsed, list.mpr goesOn, ?_⟩
    rw [delivered 5, if_pos goesOn, sample_passes.1]
    rfl
  · obtain ⟨heap, iterator, parsed⟩ := cutLine_parsed
    obtain ⟨list, delivered⟩ := iterates_exact parsed
    refine ⟨heap, iterator, parsed, mt list.mp stops, ?_⟩
    rw [delivered 3, if_neg stops]
    rfl

/-- A heap without some of its nodes. -/
def without (heap : Heap ProcmapsStruct) (places : List Nat) : Heap ProcmapsStruct :=
  fun address => if address ∈ places then none else heap address

/-- **The loop of `pmparser_free` on a list.** It releases its nodes and leaves the others. -/
theorem turns_list {heap : Heap ProcmapsStruct} {act : Nat} {value : ProcmapsStruct}
    {nxt : Option Nat} {rest : List (Nat × ProcmapsStruct)}
    (node : heap act = some ⟨value, nxt⟩) (later : Chain heap nxt rest none)
    (apart : act ∉ rest.map Prod.fst) :
    FreeLoop.turn^[rest.length + 2] (.running heap (some act) nxt) =
      .returned (without heap (act :: rest.map Prod.fst)) := by
  induction rest generalizing heap act value nxt with
  | nil =>
    have null : nxt = none := later
    have freed : Function.update heap act none = without heap [act] := by
      funext address
      by_cases here : address = act
      · simp [without, here]
      · simp [without, here]
    simp [null, FreeLoop.turn, node, freed]
  | cons entry rest ih =>
    have distinct := chain_nodup later
    obtain ⟨place, found⟩ := entry
    obtain ⟨rfl, next, second, behind⟩ := later
    rw [List.map_cons, List.nodup_cons] at distinct
    rw [List.map_cons, List.mem_cons, not_or] at apart
    have kept : Function.update heap act none place = some ⟨found, next⟩ := by
      rw [Function.update_of_ne (Ne.symm apart.1), second]
    have turned : FreeLoop.turn (.running heap (some act) (some place)) =
        .running (Function.update heap act none) (some place) next := by
      simp [FreeLoop.turn, node, kept]
    have rest_chain : Chain (Function.update heap act none) next rest none :=
      chain_update apart.2 none behind
    have left : without (Function.update heap act none) (place :: rest.map Prod.fst) =
        without heap (act :: place :: rest.map Prod.fst) := by
      funext address
      by_cases here : address = act
      · simp [without, here]
      · have same : address ∈ act :: place :: rest.map Prod.fst ↔
            address ∈ place :: rest.map Prod.fst := by
          rw [List.mem_cons, or_iff_right here]
        simp only [without, same, Function.update_of_ne here]
    rw [List.length_cons, Function.iterate_succ_apply, turned, ih kept rest_chain distinct.1, left]
    rfl

/-- The loop of `pmparser_free` uses a node that is linked to itself after it has released it. -/
theorem loop_faults {heap : Heap ProcmapsStruct} {place : Nat} {value : ProcmapsStruct}
    (loop : heap place = some ⟨value, some place⟩) (turns : Nat) :
    FreeLoop.turn^[turns + 1] (.running heap (some place) (some place)) = .fault := by
  have first : FreeLoop.turn (.running heap (some place) (some place)) = .fault := by
    simp [FreeLoop.turn, loop]
  rw [Function.iterate_succ_apply, first]
  exact Function.iterate_fixed rfl turns

/-- Without the nodes of a list there is nothing. -/
theorem Linked.without {parser : MapsParser} {values : List ProcmapsStruct} {last : ProcmapsStruct}
    (linked : Linked storage parser values last) :
    without parser.heap ((nodes storage (values ++ [last])).map Prod.fst) = fun _ => none := by
  funext address
  unfold MapsList.without
  by_cases inside : address ∈ (nodes storage (values ++ [last])).map Prod.fst
  · rw [if_pos inside]
  · rw [if_neg inside]
    apply linked.others
    rintro i bound rfl
    apply inside
    apply mem_nodes
    rw [List.length_append, List.length_singleton]
    omega

/-- **A list of several nodes is released.** -/
theorem Linked.released {parser : MapsParser} {values : List ProcmapsStruct} {last : ProcmapsStruct}
    (linked : Linked storage parser values last) (several : values ≠ []) :
    ∃ turns, FreeLoop.turn^[turns]
      (pmparserFree parser.heap ⟨some (storage.place 0), some (storage.place 0)⟩) =
        .returned fun _ => none := by
  have list := linked.list several
  have distinct := chain_nodup list
  have everything := linked.without
  obtain ⟨entry, others, shape⟩ :
      ∃ entry others, nodes storage (values ++ [last]) = entry :: others := by
    apply List.exists_cons_of_ne_nil
    simp [nodes]
  rw [shape] at list distinct everything
  obtain ⟨place, next, node, later⟩ := list
  rw [List.map_cons, List.nodup_cons] at distinct
  have head : storage.place 0 = entry.1 := Option.some.inj place
  have begun : pmparserFree parser.heap ⟨some (storage.place 0), some (storage.place 0)⟩ =
      .running parser.heap (some entry.1) next := by
    simp [pmparserFree, head, node]
  rw [List.map_cons] at everything
  rw [begun, ← everything]
  exact ⟨_, turns_list node later distinct.1⟩

/-- **When a list is released.** For every file that is parsed, `pmparser_free` returns exactly when
a read goes on before the end of the file, and then no node is left. Otherwise it uses the node it
has released. -/
theorem released_iff {buf perm file : Text} {heap : Heap ProcmapsStruct}
    {iterator : ProcmapsIterator}
    (parsed : pmparserParse storage buf perm (some file) = some (heap, some iterator)) :
    ((∃ turns, FreeLoop.turn^[turns] (pmparserFree heap iterator) = .returned fun _ => none) ↔
      Continues file) ∧
    (¬Continues file → ∃ turns, FreeLoop.turn^[turns] (pmparserFree heap iterator) = .fault) := by
  obtain ⟨parser, values, last, linked, rfl, length, rfl⟩ := parse_linked parsed
  cases values with
  | nil =>
    have once : ¬Continues file := by
      rw [← passes_length, ← length, List.length_nil]
      omega
    have loop : parser.heap (storage.place 0) = some ⟨last, some (storage.place 0)⟩ := linked.node
    have begun : pmparserFree parser.heap ⟨some (storage.place 0), some (storage.place 0)⟩ =
        .running parser.heap (some (storage.place 0)) (some (storage.place 0)) := by
      simp [pmparserFree, loop]
    rw [begun]
    constructor
    · apply iff_of_false _ once
      rintro ⟨turns, returned⟩
      cases turns with
      | zero => simp at returned
      | succ turns =>
        rw [loop_faults loop turns] at returned
        cases returned
    · exact fun _ => ⟨1, loop_faults loop 0⟩
  | cons first rest =>
    have more : Continues file := by
      rw [← passes_length, ← length, List.length_cons]
      omega
    constructor
    · exact iff_of_true (linked.released (List.cons_ne_nil first rest)) more
    · exact fun once => absurd more once

/-- The list of two lines is released. That of a line without a newline is not: its node is used
once it is released. -/
theorem released_iff_lines :
    (∃ heap iterator,
      pmparserParse blankStorage [] [] (some (oneLine ++ oneLine)) = some (heap, some iterator) ∧
      ∃ turns, FreeLoop.turn^[turns] (pmparserFree heap iterator) = .returned fun _ => none) ∧
    ∃ heap iterator,
      pmparserParse blankStorage [] [] (some cutLine) = some (heap, some iterator) ∧
      ∃ turns, FreeLoop.turn^[turns] (pmparserFree heap iterator) = .fault := by
  constructor
  · obtain ⟨heap, iterator, parsed⟩ := twoLines_parsed
    exact ⟨heap, iterator, parsed, (released_iff parsed).1.mpr (by decide)⟩
  · obtain ⟨heap, iterator, parsed⟩ := cutLine_parsed
    exact ⟨heap, iterator, parsed, (released_iff parsed).2 (by decide)⟩

end A64dbg.MapsList
