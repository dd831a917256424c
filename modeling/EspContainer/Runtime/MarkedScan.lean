/-
# The runtime's own scan, with its moves and iterations

The functions of `wasm_scan.c` once more, now with a call for each assignment to a cursor,
together with the end of the section it is in, and one for each iteration of a loop. With
these calls left out they are the functions of the scan.

The two section loops take bytes in every round, so as many rounds as bytes are enough.
Here a loop that stopped for want of rounds would say so.
-/

import EspContainer.Interaction.Metered
import EspContainer.Runtime.RawScan

namespace Container.Marked

open Binary Interaction Package

/-- What is watched: a read of the module, a cursor with the end of its section, an
iteration of a loop, and a loop that lacks rounds. -/
inductive Mark
  | read (index : Nat)
  | move (cursor stop : Nat)
  | turn
  | stuck
  deriving DecidableEq

/-- The interface of a scanner that is watched. -/
@[reducible]
def MarkPort : Interface where
  Call := Mark
  Answer
    | .read _ => UInt8
    | _ => Unit

/-- A watched scanning function. -/
abbrev MarkedScan (α : Type) : Type := Fallible MarkPort ScanError α

/-- The call that is left when nobody watches. -/
def unmarked : (mark : Mark) → Program ByteAccess (MarkPort.Answer mark)
  | .read index => Program.call (I := ByteAccess) index
  | .move _ _ => .ret ()
  | .turn => .ret ()
  | .stuck => .ret ()

/-- The scanning function without its marks. -/
def erase {α : Type} (scan : MarkedScan α) : RawScan α := Fallible.translate unmarked scan

/-- Go on only if a check passed; otherwise the module is invalid. -/
def demand (check : Bool) : MarkedScan Unit := Fallible.require check .invalid

/-- Go on only if a check passed; otherwise the module is unsupported. -/
def demandSupported (check : Bool) : MarkedScan Unit := Fallible.require check .unsupported

/-- `wasm[index]`. -/
def readByte (index : Nat) : MarkedScan UInt8 :=
  Fallible.attempt (Program.call (I := MarkPort) (.read index))

/-- A cursor was given this value, in a section with this end. -/
def moveTo (cursor stop : Nat) : MarkedScan Unit :=
  Fallible.attempt (Program.call (I := MarkPort) (.move cursor stop))

/-- One more iteration of a loop. -/
def turn : MarkedScan Unit := Fallible.attempt (Program.call (I := MarkPort) .turn)

/-- The loop would go on. -/
def stuck : MarkedScan Unit := Fallible.attempt (Program.call (I := MarkPort) .stuck)

/-! ## The functions -/

/-- The loop of `read_u32`. -/
def readU32Loop (stop : Nat) : Nat → Nat → Nat → Nat → MarkedScan (Nat × Nat)
  | 0, _, _, _ => throw .invalid
  | octets + 1, index, result, cursor => do
      turn
      demand (!(cursor ≥ stop))
      let octet ← readByte cursor
      moveTo (cursor + 1) stop
      demand (!(index == 4 && octet &&& 0xf0 != 0))
      let result := result ||| octetBits octet index
      if octet &&& 0x80 == 0 then
        pure (result, cursor + 1)
      else
        readU32Loop stop octets (index + 1) result (cursor + 1)

/-- `read_u32`. -/
def readU32 (stop cursor : Nat) : MarkedScan (Nat × Nat) := readU32Loop stop 5 0 0 cursor

/-- `memcmp` with a constant. -/
def compareBytes (expected : List UInt8) (start : Nat) : MarkedScan Bool :=
  Fallible.counted expected.length
    (fun index same => do
      let byte ← readByte (start + index)
      pure (same && byte == expected.getD index 0))
    true

/-- `name_is`. -/
def rawNameIs (name : RawName) (expected : List UInt8) : MarkedScan Bool :=
  if name.length == expected.length then compareBytes expected name.start else pure false

/-- `read_name`. -/
def readName (stop cursor : Nat) : MarkedScan (RawName × Nat) := do
  let (length, cursor) ← readU32 stop cursor
  demand (!(length > stop - cursor))
  moveTo (cursor + length) stop
  pure (⟨cursor, length⟩, cursor + length)

/-- The search of `dangerous_export`. -/
def dangerousAmong (name : RawName) : List (List UInt8) → MarkedScan Bool
  | [] => pure false
  | expected :: others => do
      turn
      let same ← rawNameIs name expected
      if same then pure true else dangerousAmong name others

/-- `dangerous_export`. -/
def dangerousExport (name : RawName) : MarkedScan Bool :=
  dangerousAmong name
    [ascii "__post_instantiate", ascii "__wasm_call_ctors", ascii "_initialize"]

/-- One round of the export loop. -/
def checkRawExport (stop cursor : Nat) : MarkedScan Nat := do
  turn
  let (length, cursor) ← readU32 stop cursor
  demand (!(length > stop - cursor))
  let dangerous ← dangerousExport ⟨cursor, length⟩
  demandSupported (!dangerous)
  let cursor := cursor + length
  moveTo cursor stop
  demand (!(cursor ≥ stop))
  let kind ← readByte cursor
  moveTo (cursor + 1) stop
  demand (!(kind > 3))
  let (_, cursor) ← readU32 stop (cursor + 1)
  pure cursor

/-- The export section. -/
def checkRawExports (stop cursor : Nat) : MarkedScan Unit := do
  let (count, cursor) ← readU32 stop cursor
  let cursor ← Fallible.counted count (fun _ cursor => checkRawExport stop cursor) cursor
  demand (cursor == stop)

/-- The first loop of `scan_module`. -/
def rawSectionsLoop (size : Nat) : Nat → Nat → UInt8 → RawSections → MarkedScan RawSections
  | 0, cursor, _, sections => do
      if cursor < size then stuck else pure ()
      pure sections
  | rounds + 1, cursor, last, sections =>
      if cursor < size then do
        turn
        let number ← readByte cursor
        moveTo (cursor + 1) size
        let (length, cursor) ← readU32 size (cursor + 1)
        demand (!(length > size - cursor))
        let stop := cursor + length
        moveTo cursor stop
        demandSupported (!(number > 12))
        demand (!(number != 0 && number ≤ last))
        demandSupported (number != 8)
        let last := if number != 0 then number else last
        let sections :=
          if number == 1 then { sections with typeBegin := cursor, typeEnd := stop } else sections
        let sections :=
          if number == 2 then { sections with importBegin := cursor, importEnd := stop }
          else sections
        if number == 7 then do
          checkRawExports stop cursor
          moveTo stop size
          rawSectionsLoop size rounds stop last sections
        else do
          moveTo stop size
          rawSectionsLoop size rounds stop last sections
      else
        pure sections

/-- The comparison at the end of `import_type_matches`. -/
def rawSignature (capability : UInt32) (timerCancel : Bool) (params paramTypes resultTypes : Nat) :
    MarkedScan Bool :=
  let parameters (expected : List UInt8) : MarkedScan Bool :=
    if params == expected.length then compareBytes expected paramTypes else pure false
  let matching (expected : List UInt8) (result : UInt8) : MarkedScan Bool := do
    let same ← parameters expected
    if same then do
      let type ← readByte resultTypes
      pure (type == result)
    else
      pure false
  if capability == capMonotonicTime then matching [] 0x7e
  else if capability == capLog then matching [0x7f, 0x7f] 0x7f
  else if capability == capTimer then
    if timerCancel then matching [0x7e] 0x7f else matching [0x7f, 0x7f] 0x7e
  else pure false

/-- The loop of `import_type_matches`. -/
def rawTypeLoop (stop wanted : Nat) (capability : UInt32) (timerCancel : Bool) :
    Nat → Nat → Nat → MarkedScan Bool
  | 0, _, _ => pure false
  | left + 1, index, cursor => do
      turn
      demand (!(cursor ≥ stop))
      let form ← readByte cursor
      moveTo (cursor + 1) stop
      demand (form == 0x60)
      let (params, cursor) ← readU32 stop (cursor + 1)
      demand (!(params > stop - cursor))
      let paramTypes := cursor
      moveTo (cursor + params) stop
      let (results, cursor) ← readU32 stop (cursor + params)
      demand (!(results > stop - cursor))
      moveTo (cursor + results) stop
      if index == wanted then
        if results != 1 then pure false
        else rawSignature capability timerCancel params paramTypes cursor
      else
        rawTypeLoop stop wanted capability timerCancel left (index + 1) (cursor + results)

/-- `import_type_matches`. -/
def rawTypeMatches (sections : RawSections) (typeIndex : Nat) (capability : UInt32)
    (timerCancel : Bool) : MarkedScan Bool := do
  demand (sections.typeBegin != 0)
  moveTo sections.typeBegin sections.typeEnd
  let (count, cursor) ← readU32 sections.typeEnd sections.typeBegin
  demand (!(typeIndex ≥ count))
  rawTypeLoop sections.typeEnd typeIndex capability timerCancel count 0 cursor

/-- The capability of an imported name. -/
def rawCapability (field : RawName) : MarkedScan UInt32 := do
  let clock ← rawNameIs field (ascii "monotonic_ms")
  if clock then pure capMonotonicTime else do
    let log ← rawNameIs field (ascii "log")
    if log then pure capLog else do
      let start ← rawNameIs field (ascii "timer_start")
      if start then pure capTimer else do
        let cancel ← rawNameIs field (ascii "timer_cancel")
        pure (if cancel then capTimer else 0)

/-- One round of the import loop. -/
def scanRawImport (sections : RawSections) (imports : RawImports) (cursor : Nat) :
    MarkedScan (RawImports × Nat) := do
  turn
  let stop := sections.importEnd
  let (module, cursor) ← readName stop cursor
  let (field, cursor) ← readName stop cursor
  demand (!(cursor ≥ stop))
  let kind ← readByte cursor
  moveTo (cursor + 1) stop
  demandSupported (kind == 0)
  let (typeIndex, cursor) ← readU32 stop (cursor + 1)
  let own ← rawNameIs module (ascii "econtainer")
  demandSupported own
  let capability ← rawCapability field
  let timerCancel ← rawNameIs field (ascii "timer_cancel")
  let seenBit := if timerCancel then 8 else capability
  demandSupported (!(capability == 0 || imports.seen &&& seenBit != 0))
  let matched ← Fallible.attempt (rawTypeMatches sections typeIndex capability timerCancel).run
  demandSupported (matched = .ok true)
  pure (⟨imports.seen ||| seenBit, imports.capabilities ||| capability⟩, cursor)

/-- The second half of `scan_module`. -/
def scanRawImports (sections : RawSections) : MarkedScan UInt32 := do
  if sections.importBegin == 0 then pure 0 else do
    moveTo sections.importBegin sections.importEnd
    let (count, cursor) ← readU32 sections.importEnd sections.importBegin
    demandSupported (!(count > 4))
    let (imports, cursor) ← Fallible.counted count
      (fun _ (imports, cursor) => scanRawImport sections imports cursor)
      (⟨0, 0⟩, cursor)
    demand (cursor == sections.importEnd)
    pure imports.capabilities

/-- `scan_module` on a non-null module. -/
def scanModule (size : Nat) : MarkedScan UInt32 := do
  demand (!(size < wasmHeader.length))
  let header ← compareBytes wasmHeader 0
  demand header
  moveTo wasmHeader.length size
  let sections ← rawSectionsLoop size size wasmHeader.length 0 ⟨0, 0, 0, 0⟩
  scanRawImports sections

/-- The loop of `econtainer_wasm_memory_within_limit`. -/
def rawMemoryLoop (size maxMemoryPages : Nat) : Nat → Nat → MarkedScan Bool
  | 0, cursor => do
      if cursor < size then stuck else pure ()
      pure false
  | rounds + 1, cursor =>
      if cursor < size then do
        turn
        let number ← readByte cursor
        moveTo (cursor + 1) size
        let (length, cursor) ← readU32 size (cursor + 1)
        demand (!(length > size - cursor))
        let stop := cursor + length
        moveTo cursor stop
        if number == 5 then do
          let (count, cursor) ← readU32 stop cursor
          demand (count == 1)
          let (flags, cursor) ← readU32 stop cursor
          demand (flags == 1)
          let (minimum, cursor) ← readU32 stop cursor
          demand (minimum > 0)
          let (maximum, cursor) ← readU32 stop cursor
          pure (minimum ≤ maximum && maximum ≤ maxMemoryPages && cursor == stop)
        else do
          moveTo stop size
          rawMemoryLoop size maxMemoryPages rounds stop
      else
        pure false

/-! ## The entry points -/

/-- `econtainer_wasm_check`, which returns whether the module was refused and how. -/
def wasmCheck (size : Nat) : Program MarkPort (Except ScanError UInt32) := (scanModule size).run

/-- `econtainer_wasm_imported_capabilities`. -/
def wasmImportedCapabilities (size : Nat) : Program MarkPort (Option UInt32) := do
  let outcome ← (scanModule size).run
  pure outcome.toOption

/-- `econtainer_wasm_memory_within_limit`. -/
def wasmMemoryWithinLimit (size : Nat) (maxMemoryPages : UInt32) : Program MarkPort Bool :=
  if maxMemoryPages == 0 then pure false
  else do
    let checked ← wasmCheck size
    if checked.isOk then do
      Program.call (I := MarkPort) (.move wasmHeader.length size)
      let within ← (rawMemoryLoop size maxMemoryPages.toNat size wasmHeader.length).run
      pure (decide (within = .ok true))
    else
      pure false

/-! ## Without the marks -/

section

variable {α β τ : Type}

@[simp]
theorem erase_pure (value : α) : erase (pure value) = pure value := rfl

@[simp]
theorem erase_throw (error : ScanError) : erase (throw error : MarkedScan α) = throw error := rfl

@[simp]
theorem erase_bind (scan : MarkedScan α) (next : α → MarkedScan β) :
    erase (scan >>= next) = erase scan >>= fun value => erase (next value) :=
  Fallible.translate_bind scan next

@[simp]
theorem erase_map (f : α → β) (scan : MarkedScan α) : erase (f <$> scan) = f <$> erase scan := by
  rw [← bind_pure_comp, ← bind_pure_comp, erase_bind]
  rfl

@[simp]
theorem erase_turn : erase turn = pure () := rfl

@[simp]
theorem erase_stuck : erase stuck = pure () := rfl

@[simp]
theorem erase_moveTo (cursor stop : Nat) : erase (moveTo cursor stop) = pure () := rfl

@[simp]
theorem erase_readByte (index : Nat) : erase (readByte index) = Container.readByte index := rfl

@[simp]
theorem erase_demand (check : Bool) : erase (demand check) = Container.demand check :=
  Fallible.translate_require check _

@[simp]
theorem erase_demandSupported (check : Bool) :
    erase (demandSupported check) = Container.demandSupported check :=
  Fallible.translate_require check _

@[simp]
theorem erase_ite (condition : Prop) [Decidable condition] (first second : MarkedScan α) :
    erase (if condition then first else second) =
      if condition then erase first else erase second :=
  Fallible.translate_ite condition first second

@[simp]
theorem erase_attempt_run (scan : MarkedScan α) :
    erase (Fallible.attempt scan.run) = Fallible.attempt (erase scan).run :=
  Fallible.translate_attempt scan.run

theorem erase_counted {body : Nat → τ → MarkedScan τ} {body' : Nat → τ → RawScan τ}
    (hbody : ∀ index value, erase (body index value) = body' index value) (count : Nat)
    (value : τ) :
    erase (Fallible.counted count body value) = Fallible.counted count body' value :=
  Fallible.translate_counted hbody count value

end

@[simp]
theorem erase_readU32Loop (stop octets index result cursor : Nat) :
    erase (readU32Loop stop octets index result cursor) =
      Container.readU32Loop stop octets index result cursor := by
  induction octets generalizing index result cursor with
  | zero => rfl
  | succ octets ih => simp [readU32Loop, Container.readU32Loop, ih]

@[simp]
theorem erase_readU32 (stop cursor : Nat) :
    erase (readU32 stop cursor) = Container.readU32 stop cursor :=
  erase_readU32Loop stop 5 0 0 cursor

@[simp]
theorem erase_compareBytes (expected : List UInt8) (start : Nat) :
    erase (compareBytes expected start) = Container.compareBytes expected start := by
  apply erase_counted
  intro index same
  simp

@[simp]
theorem erase_rawNameIs (name : RawName) (expected : List UInt8) :
    erase (rawNameIs name expected) = Container.rawNameIs name expected := by
  simp [rawNameIs, Container.rawNameIs]

@[simp]
theorem erase_readName (stop cursor : Nat) :
    erase (readName stop cursor) = Container.readName stop cursor := by
  simp [readName, Container.readName]

@[simp]
theorem erase_dangerousAmong (name : RawName) (names : List (List UInt8)) :
    erase (dangerousAmong name names) = Container.dangerousAmong name names := by
  induction names with
  | nil => rfl
  | cons expected others ih => simp [dangerousAmong, Container.dangerousAmong, ih]

@[simp]
theorem erase_dangerousExport (name : RawName) :
    erase (dangerousExport name) = Container.dangerousExport name :=
  erase_dangerousAmong name _

@[simp]
theorem erase_checkRawExports (stop cursor : Nat) :
    erase (checkRawExports stop cursor) = Container.checkRawExports stop cursor := by
  rw [checkRawExports, Container.checkRawExports, erase_bind, erase_readU32]
  refine bind_congr fun ⟨count, cursor⟩ => ?_
  rw [erase_bind]
  congr 1
  · apply erase_counted
    intro index cursor
    simp [checkRawExport]
  · simp

@[simp]
theorem erase_rawSectionsLoop (size rounds cursor : Nat) (last : UInt8) (sections : RawSections) :
    erase (rawSectionsLoop size rounds cursor last sections) =
      Container.rawSectionsLoop size rounds cursor last sections := by
  induction rounds generalizing cursor last sections with
  | zero => simp [rawSectionsLoop, Container.rawSectionsLoop]
  | succ rounds ih => simp [rawSectionsLoop, Container.rawSectionsLoop, ih]

@[simp]
theorem erase_rawSignature (capability : UInt32) (timerCancel : Bool)
    (params paramTypes resultTypes : Nat) :
    erase (rawSignature capability timerCancel params paramTypes resultTypes) =
      Container.rawSignature capability timerCancel params paramTypes resultTypes := by
  simp [rawSignature, Container.rawSignature]

@[simp]
theorem erase_rawTypeLoop (stop wanted : Nat) (capability : UInt32) (timerCancel : Bool)
    (left index cursor : Nat) :
    erase (rawTypeLoop stop wanted capability timerCancel left index cursor) =
      Container.rawTypeLoop stop wanted capability timerCancel left index cursor := by
  induction left generalizing index cursor with
  | zero => rfl
  | succ left ih => simp [rawTypeLoop, Container.rawTypeLoop, ih]

@[simp]
theorem erase_rawTypeMatches (sections : RawSections) (typeIndex : Nat) (capability : UInt32)
    (timerCancel : Bool) :
    erase (rawTypeMatches sections typeIndex capability timerCancel) =
      Container.rawTypeMatches sections typeIndex capability timerCancel := by
  simp [rawTypeMatches, Container.rawTypeMatches]

@[simp]
theorem erase_rawCapability (field : RawName) :
    erase (rawCapability field) = Container.rawCapability field := by
  simp [rawCapability, Container.rawCapability]

@[simp]
theorem erase_scanRawImport (sections : RawSections) (imports : RawImports) (cursor : Nat) :
    erase (scanRawImport sections imports cursor) =
      Container.scanRawImport sections imports cursor := by
  simp [scanRawImport, Container.scanRawImport]

@[simp]
theorem erase_scanRawImports (sections : RawSections) :
    erase (scanRawImports sections) = Container.scanRawImports sections := by
  have hloop (count : Nat) (start : RawImports × Nat) :
      erase (Fallible.counted count
        (fun _ (imports, cursor) => scanRawImport sections imports cursor) start) =
      Fallible.counted count
        (fun _ (imports, cursor) => Container.scanRawImport sections imports cursor) start :=
    erase_counted (fun _ _ => erase_scanRawImport _ _ _) count start
  simp [scanRawImports, Container.scanRawImports, hloop]

/-- The watched scan is the scan. -/
@[simp]
theorem erase_scanModule (size : Nat) : erase (scanModule size) = Container.scanModule size := by
  simp [scanModule, Container.scanModule]

/-- The watched search for the memory is the search. -/
@[simp]
theorem erase_rawMemoryLoop (size maxMemoryPages rounds cursor : Nat) :
    erase (rawMemoryLoop size maxMemoryPages rounds cursor) =
      Container.rawMemoryLoop size maxMemoryPages rounds cursor := by
  induction rounds generalizing cursor with
  | zero => simp [rawMemoryLoop, Container.rawMemoryLoop]
  | succ rounds ih => simp [rawMemoryLoop, Container.rawMemoryLoop, ih]

end Container.Marked
