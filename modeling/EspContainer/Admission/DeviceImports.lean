/-
# What the package's scanner makes of imports

The scanner keeps its imports in masks, the host in a list of names and a set of
capabilities. A mask is what is left of such a set when only the known names count, and both
change in the same way with one more import.
-/

import EspContainer.Admission.DeviceAcceptance
import EspContainer.Tools.HostAdmission

namespace Package

open Binary Interaction Wasm

variable {wasm content : List UInt8} {part : WasmSection}

/-! ## Names -/

/-- The host function of an imported name. -/
def HostFunction.ofField (field : List UInt8) : Option HostFunction :=
  if field == HostFunction.monotonicMs.field then some .monotonicMs
  else if field == HostFunction.log.field then some .log
  else if field == HostFunction.timerStart.field then some .timerStart
  else if field == HostFunction.timerCancel.field then some .timerCancel
  else none

/-- The name of the capability that a host function needs. -/
def HostFunction.capabilityName : HostFunction → String
  | .monotonicMs => "monotonic-time"
  | .log => "log"
  | .timerStart => "timer"
  | .timerCancel => "timer"

theorem HostFunction.field_of_ofField {field : List UInt8} {function : HostFunction}
    (hfunction : ofField field = some function) : field = function.field := by
  simp only [ofField] at hfunction
  split at hfunction
  · next hfield => cases hfunction; exact beq_iff_eq.mp hfield
  split at hfunction
  · next hfield => cases hfunction; exact beq_iff_eq.mp hfield
  split at hfunction
  · next hfield => cases hfunction; exact beq_iff_eq.mp hfield
  split at hfunction
  · next hfield => cases hfunction; exact beq_iff_eq.mp hfield
  · cases hfunction

/-- What the host expects of an imported name. -/
theorem lookup_expectedImports (field : List UInt8) :
    Tools.expectedImports.lookup field = (HostFunction.ofField field).map fun function =>
      ((function.params, function.results), function.capabilityName) := by
  have hexpected : Tools.expectedImports =
      [HostFunction.monotonicMs, .log, .timerStart, .timerCancel].map fun function =>
        (function.field, (function.params, function.results), function.capabilityName) := rfl
  rw [HostFunction.ofField, hexpected]
  simp only [List.map_cons, List.map_nil, List.lookup_cons, List.lookup_nil]
  cases field == HostFunction.monotonicMs.field with
  | true => rfl
  | false =>
    cases field == HostFunction.log.field with
    | true => rfl
    | false =>
      cases field == HostFunction.timerStart.field with
      | true => rfl
      | false =>
        cases field == HostFunction.timerCancel.field with
        | true => rfl
        | false => rfl

/-- What `name_is` finds, with the name that is there. -/
theorem scanOver_nameIs {stop cursor : Nat} (hstop : stop ≤ wasm.length) (hcursor : cursor ≤ stop)
    (expected : List UInt8) :
    (scanOver wasm (nameIs stop cursor expected)).toOption =
      (Parser.sized ((wasm.take stop).drop cursor)).map fun found =>
        (found.1 == expected, stop - found.2.length) := by
  have hlength : (wasm.take stop).length = stop := List.length_take_of_le hstop
  have hfound := (tracks_nameIs hstop expected).found cursor (hlength.symm ▸ hcursor)
  rw [hlength, Parser.bind_eq] at hfound
  refine hfound.trans ?_
  cases Parser.sized ((wasm.take stop).drop cursor) with
  | none => rfl
  | some found => rfl

/-- The name of an imported field. -/
theorem tracks_importField {stop : Nat} (hstop : stop ≤ wasm.length) :
    ScanTracks wasm stop (importField stop)
      (Parser.sized >>= fun field => pure (HostFunction.ofField field)) where
  shrinks := Parser.shrinks_sized.bind fun field => Parser.shrinks_pure _
  found := by
    intro cursor hcursor
    have hlength : (wasm.take stop).length = stop := List.length_take_of_le hstop
    rw [hlength] at hcursor ⊢
    have hname (function : HostFunction) : ranAt (payloadByte wasm)
        (fun cursor => nameIs stop cursor function.field) cursor = _ :=
      scanOver_nameIs hstop hcursor function.field
    rw [Parser.bind_eq]
    cases hsized : Parser.sized ((wasm.take stop).drop cursor) with
    | none =>
        have hclock := hname .monotonicMs
        rw [hsized] at hclock
        rw [ranAt] at hclock ⊢
        rw [importField, Fallible.eval_bind]
        cases hread : Fallible.eval (payloadByte wasm)
            (nameIs stop cursor HostFunction.monotonicMs.field) with
        | error error => rfl
        | ok found =>
            rw [hread] at hclock
            cases hclock
    | some found =>
        obtain ⟨field, rest⟩ := found
        have hread (function : HostFunction) :
            Fallible.eval (payloadByte wasm) (nameIs stop cursor function.field) =
              .ok (field == function.field, stop - rest.length) := by
          have hfunction := hname function
          rw [hsized] at hfunction
          exact ranAt_eq_some.mp hfunction
        change (Fallible.eval _ (importField stop cursor)).toOption =
          some (HostFunction.ofField field, stop - rest.length)
        rw [importField, HostFunction.ofField, Fallible.eval_bind, hread]
        cases field == HostFunction.monotonicMs.field with
        | true => rfl
        | false =>
          change (Fallible.eval _ (nameIs stop cursor HostFunction.log.field >>= _)).toOption = _
          rw [Fallible.eval_bind, hread]
          cases field == HostFunction.log.field with
          | true => rfl
          | false =>
            change (Fallible.eval _ (nameIs stop cursor HostFunction.timerStart.field >>= _)).toOption = _
            rw [Fallible.eval_bind, hread]
            cases field == HostFunction.timerStart.field with
            | true => rfl
            | false =>
              change (Fallible.eval _ (nameIs stop cursor HostFunction.timerCancel.field >>= _)).toOption =
                _
              rw [Fallible.eval_bind, hread]
              rfl

/-! ## Masks -/

/-- A bit that is set or not. -/
def bitIf (held : Bool) (bit : UInt32) : UInt32 := if held then bit else 0

/-- The mask of the capabilities among these names. -/
def capabilityMask (names : Finset String) : UInt32 :=
  bitIf ("monotonic-time" ∈ names) capMonotonicTime ||| bitIf ("log" ∈ names) capLog |||
    bitIf ("timer" ∈ names) capTimer

theorem capabilityMask_empty : capabilityMask ∅ = 0 := by
  decide

theorem capabilityMask_insert (function : HostFunction) (names : Finset String) :
    capabilityMask (insert function.capabilityName names) =
      capabilityMask names ||| function.capability := by
  simp only [capabilityMask, Finset.mem_insert, Bool.decide_or]
  generalize decide ("monotonic-time" ∈ names) = clock
  generalize decide ("log" ∈ names) = log
  generalize decide ("timer" ∈ names) = timer
  revert clock log timer
  cases function <;> decide

/-- Four bits, from the lowest. -/
def fourBits (first second third fourth : Bool) : UInt32 :=
  bitIf first 1 ||| bitIf second 2 ||| bitIf third 4 ||| bitIf fourth 8

/-- Each bit is found by its own mask. -/
theorem fourBits_and (first second third fourth : Bool) :
    (fourBits first second third fourth &&& 1 == 0) = !first ∧
      (fourBits first second third fourth &&& 2 == 0) = !second ∧
      (fourBits first second third fourth &&& 4 == 0) = !third ∧
      (fourBits first second third fourth &&& 8 == 0) = !fourth := by
  revert first second third fourth
  decide

/-- The mask of some host functions. -/
def functionMask (held : HostFunction → Bool) : UInt32 :=
  fourBits (held .monotonicMs) (held .log) (held .timerStart) (held .timerCancel)

/-- Each function has its own bit. -/
theorem functionMask_and (held : HostFunction → Bool) (function : HostFunction) :
    (functionMask held &&& function.seenBit == 0) = !held function := by
  obtain ⟨hclock, hlog, hstart, hcancel⟩ :=
    fourBits_and (held .monotonicMs) (held .log) (held .timerStart) (held .timerCancel)
  cases function with
  | monotonicMs => exact hclock
  | log => exact hlog
  | timerStart => exact hstart
  | timerCancel => exact hcancel

/-- One more function. -/
theorem functionMask_or (held : HostFunction → Bool) (function : HostFunction) :
    functionMask (fun other => decide (other = function) || held other) =
      functionMask held ||| function.seenBit := by
  rw [functionMask, functionMask]
  generalize held .monotonicMs = clock
  generalize held .log = log
  generalize held .timerStart = start
  generalize held .timerCancel = cancel
  revert clock log start cancel
  cases function <;> decide

/-- `seen_imports` of the fields that were imported. -/
def seenMask (fields : List (List UInt8)) : UInt32 :=
  functionMask fun function => decide (function.field ∈ fields)

theorem HostFunction.field_injective : Function.Injective HostFunction.field := by
  intro first second hsame
  have hfield (function : HostFunction) : ofField function.field = some function := by
    cases function <;> decide
  exact Option.some.inj ((hfield first).symm.trans ((congrArg ofField hsame).trans (hfield second)))

theorem seenMask_cons (function : HostFunction) (fields : List (List UInt8)) :
    seenMask (function.field :: fields) = seenMask fields ||| function.seenBit := by
  rw [seenMask, seenMask, ← functionMask_or]
  congr 1
  funext other
  simp only [List.mem_cons, Bool.decide_or, HostFunction.field_injective.eq_iff]

/-- What the scanner keeps of the names and the capabilities of imports. -/
def importMasks (found : List (List UInt8) × Finset String) : WasmImports :=
  ⟨seenMask found.1, capabilityMask found.2, found.1.length⟩

/-! ## One import -/

variable {types : List FuncType}

/-- What one round of `scan_imports` does with an import; whether its type matches is known. -/
def importStep (typed : Nat → HostFunction → Bool) (imports : WasmImports) (entry : Import) :
    Option WasmImports :=
  if entry.module == ascii "econtainer" && entry.kind == 0 then
    match HostFunction.ofField entry.field with
    | none => none
    | some function =>
        if imports.seen &&& function.seenBit == 0 && typed entry.index function then
          some ⟨imports.seen ||| function.seenBit, imports.capabilities ||| function.capability,
            imports.count + 1⟩
        else
          none
  else
    none

/-- One import changes the masks as it changes the sets. -/
theorem importStep_importMasks {typed : Nat → HostFunction → Bool}
    (htyped : ∀ index function,
      typed index function = (types[index]? == some (function.params, function.results)))
    (found : List (List UInt8) × Finset String) (entry : Import) :
    importStep typed (importMasks found) entry =
      (Tools.importChange types found entry).map importMasks := by
  rw [importStep, Tools.importChange, lookup_expectedImports]
  cases entry.module == ascii "econtainer" && entry.kind == 0 with
  | false => rfl
  | true =>
      rw [if_pos rfl, if_pos rfl]
      cases hfunction : HostFunction.ofField entry.field with
      | none => rfl
      | some function =>
          have hfield := HostFunction.field_of_ofField hfunction
          have hseen : ((importMasks found).seen &&& function.seenBit == 0) =
              !decide (entry.field ∈ found.1) := by
            rw [hfield]
            exact functionMask_and (fun other => decide (other.field ∈ found.1)) function
          dsimp only [Option.map_some]
          rw [hseen, htyped, bne]
          by_cases hfresh : entry.field ∈ found.1
          · rw [decide_eq_true hfresh, Bool.not_true, Bool.false_and, Bool.true_or,
              if_neg Bool.false_ne_true, if_pos rfl, Option.map_none]
          · rw [decide_eq_false hfresh, Bool.not_false, Bool.true_and, Bool.false_or]
            cases types[entry.index]? == some (function.params, function.results) with
            | false => rfl
            | true =>
                rw [if_pos rfl, Bool.not_true, if_neg Bool.false_ne_true, Option.map_some, importMasks,
                  importMasks, hfield, seenMask_cons, capabilityMask_insert, List.length_cons]

/-- Whether a type matches the signature of a host function. -/
def typedBy (wasm : List UInt8) (sections : WasmSections) (index : Nat) (function : HostFunction) :
    Bool :=
  (scanOver wasm (typeMatches (sections 1) index function.params function.results)).isOk

theorem eval_importTypeMatches (sections : WasmSections) (index : Nat) (function : HostFunction) :
    (Fallible.eval (payloadByte wasm) (importTypeMatches (sections 1) index function)).toOption =
      if typedBy wasm sections index function then some () else none := by
  rw [importTypeMatches, Fallible.eval_bind, Fallible.eval_attempt]
  change (Fallible.eval _ (scanSupported (scanOver wasm _).isOk)).toOption = _
  rw [scanSupported, Fallible.eval_require, typedBy]
  cases (scanOver wasm (typeMatches (sections 1) index function.params function.results)).isOk with
  | true => rfl
  | false => rfl

theorem tracks_scanImport {sections : WasmSections} (hstop : (sections 2).endOffset ≤ wasm.length)
    (imports : WasmImports) :
    ScanTracks wasm (sections 2).endOffset (fun cursor => scanImport sections imports cursor)
      (Parser.importEntry >>= fun entry =>
        Parser.given (importStep (typedBy wasm sections) imports entry)) := by
  have hparser : (Parser.importEntry >>= fun entry =>
        Parser.given (importStep (typedBy wasm sections) imports entry)) =
      (do
        let module ← Parser.sized >>= fun name => pure (name == ascii "econtainer")
        let function ← Parser.sized >>= fun field => pure (HostFunction.ofField field)
        let kind ← Parser.item
        let typeIndex ← Parser.number
        Parser.ensure (!(!module || kind != 0))
        match function with
        | none => Parser.given none
        | some function => do
            Parser.ensure (imports.seen &&& function.seenBit == 0)
            Parser.given (Fallible.eval (payloadByte wasm)
              (importTypeMatches (sections 1) typeIndex function)).toOption
            pure ⟨imports.seen ||| function.seenBit, imports.capabilities ||| function.capability,
              imports.count + 1⟩) := by
    simp only [Parser.importEntry, bind_assoc, pure_bind]
    refine bind_congr fun module => bind_congr fun field => bind_congr fun kind =>
      bind_congr fun typeIndex => ?_
    rw [importStep, Bool.not_or, Bool.not_not, bne, Bool.not_not]
    dsimp only
    cases module == ascii "econtainer" && kind == 0 with
    | false => rfl
    | true =>
        cases HostFunction.ofField field with
        | none => rfl
        | some function =>
            dsimp only
            rw [eval_importTypeMatches]
            cases imports.seen &&& function.seenBit == 0 with
            | false => rfl
            | true =>
                cases typedBy wasm sections typeIndex function with
                | false => rfl
                | true => rfl
  rw [hparser]
  apply (tracks_nameIs hstop _).bind
  intro module
  dsimp +instances only
  apply (tracks_importField hstop).bind
  intro function
  dsimp +instances only
  apply tracks_nextByte.bind
  intro kind
  dsimp +instances only
  apply tracks_nextU32.bind
  intro typeIndex
  dsimp +instances only
  apply tracks_scanSupported
  cases function with
  | none => exact tracks_throw _
  | some function =>
      apply tracks_scanSupported
      apply Tracks.after
      intro _
      exact tracks_pure _

/-! ## The import section -/

/-- Each import puts one name in. -/
theorem length_of_importChange {found next : List (List UInt8) × Finset String} {entry : Import}
    (hchange : Tools.importChange types found entry = some next) :
    next.1.length = found.1.length + 1 := by
  rw [Tools.importChange] at hchange
  split at hchange
  · split at hchange
    · cases hchange
    · split at hchange
      · cases hchange
      · cases hchange
        rfl
  · cases hchange

theorem length_of_foldlM_importChange {entries : List Import}
    {found last : List (List UInt8) × Finset String}
    (hfold : entries.foldlM (Tools.importChange types) found = some last) :
    last.1.length = found.1.length + entries.length := by
  induction entries generalizing found with
  | nil =>
      cases hfold
      rfl
  | cons entry entries ih =>
      rw [List.foldlM_cons] at hfold
      obtain ⟨next, hchange, hrest⟩ := Option.bind_eq_some_iff.mp hfold
      rw [ih hrest, length_of_importChange hchange, List.length_cons]
      omega

/-- A section of the scanner is what a module has under its number. -/
def WasmSection.Located (wasm : List UInt8) (part : WasmSection) : Option (List UInt8) → Prop
  | none => part.present = false
  | some content => part.Placed wasm content

/-- `scan_imports` on a module with an import section. -/
theorem scanImports_eq_ok_of_placed {sections : WasmSections}
    (hplaced : (sections 2).Placed wasm content) {imports : WasmImports} :
    scanOver wasm (scanImports sections) = .ok imports ↔
      ∃ entries, Parser.whole (.vector .importEntry) content = some entries ∧ entries.length ≤ 4 ∧
        entries.foldlM (importStep (typedBy wasm sections)) ⟨0, 0, 0⟩ = some imports := by
  obtain ⟨hpresent, horder, hbound, rfl⟩ := hplaced
  rw [scanImports, hpresent]
  change scanOver wasm (nextU32 (sections 2).endOffset (sections 2).beginOffset >>= _) = _ ↔ _
  generalize (sections 2).beginOffset = start at horder ⊢
  apply Iff.trans (scanOver_eq_ok_of_ends horder hbound ?hends)
  case hends =>
    apply tracks_nextU32.bind_ends
    intro count
    dsimp +instances only
    apply ends_scanSupported
    apply (tracks_counted (fun _ imports => tracks_scanImport hbound imports) count _).bind_ends
    intro imports
    dsimp +instances only
    exact Ends.returning (@ends_scanEnd _ _ true hbound) imports
  rw [Parser.whole_eq_some]
  simp only [Parser.bind_eq_some, Parser.ensure_eq_some, Parser.given_eq_some,
    Parser.pure_eq_some, foldFrom_const, Parser.whole_vector_eq_some, Prod.mk.injEq]
  constructor
  · rintro ⟨count, middle, hcount, _, _, ⟨hfew, rfl⟩, _, _, ⟨entries, _, hentries, hfold, rfl⟩, _, _,
      ⟨-, rfl⟩, rfl, rfl⟩
    rw [Bool.not_eq_true', decide_eq_false_iff_not, Nat.not_lt] at hfew
    refine ⟨entries, ⟨count, _, hcount, hentries⟩, ?_, hfold⟩
    rw [Parser.length_of_times hentries]
    exact hfew
  · rintro ⟨entries, ⟨count, middle, hcount, hentries⟩, hfew, hfold⟩
    rw [Parser.length_of_times hentries] at hfew
    refine ⟨count, middle, hcount, (), middle, ⟨?_, rfl⟩, imports, [], ⟨entries, [], hentries, hfold,
      rfl⟩, (), [], ⟨trivial, rfl⟩, rfl, rfl⟩
    rw [decide_eq_false (Nat.not_lt.mpr hfew)]
    rfl

/-- `scan_imports`, where it is known which types match. -/
theorem scanImports_eq_ok {sections : WasmSections} {content : Option (List UInt8)}
    (hlocated : (sections 2).Located wasm content)
    (htyped : ∀ index function, typedBy wasm sections index function =
      (types[index]? == some (function.params, function.results)))
    {capabilities : UInt32} {count : Nat} :
    (∃ seen, scanOver wasm (scanImports sections) = .ok ⟨seen, capabilities, count⟩) ↔
      ∃ required, Tools.ImportsOf types required count content ∧
        capabilities = capabilityMask required := by
  cases content with
  | none =>
      change (sections 2).present = false at hlocated
      rw [scanImports, hlocated]
      constructor
      · rintro ⟨seen, hscan⟩
        cases hscan
        exact ⟨∅, ⟨rfl, rfl⟩, capabilityMask_empty.symm⟩
      · rintro ⟨_, ⟨rfl, rfl⟩, rfl⟩
        exact ⟨0, congrArg Except.ok (congrArg (WasmImports.mk 0 · 0) capabilityMask_empty.symm)⟩
  | some content =>
      have hempty : (⟨0, 0, 0⟩ : WasmImports) = importMasks ([], ∅) := by decide
      simp only [scanImports_eq_ok_of_placed hlocated, hempty,
        foldlM_view (importStep_importMasks htyped), Option.map_eq_some_iff, Tools.ImportsOf]
      constructor
      · rintro ⟨seen, entries, hentries, hfew, found, hfold, hmasks⟩
        cases hmasks
        refine ⟨found.2, ⟨entries, found.1, hentries, hfew, ?_, hfold⟩, rfl⟩
        rw [length_of_foldlM_importChange hfold, List.length_nil, Nat.zero_add]
      · rintro ⟨required, ⟨entries, seen, hentries, hfew, rfl, hfold⟩, rfl⟩
        refine ⟨seenMask seen, entries, hentries, hfew, (seen, required), hfold, ?_⟩
        rw [importMasks, length_of_foldlM_importChange hfold, List.length_nil, Nat.zero_add]

end Package
