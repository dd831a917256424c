/-
# The two scans agree

The package's scanner and the host's scan accept the same modules under the same memory
limit, and they find the same capabilities. Both directions go through the items of the
sections: each scanning function was described by what it asks of them.
-/

import EspContainer.Admission.DeviceSections

namespace Package

open Binary Interaction Wasm

variable {wasm : List UInt8} {sections : WasmSections} {imports : WasmImports}
  {exported : WasmExports} {types : List FuncType} {functions : List Nat}
  {typeContent functionContent : List UInt8} {typeCount definedCount : Nat}

/-! ## Types and functions -/

/-- The count of a section with a vector in it. -/
theorem scanOver_vectorCount {α : Type} {part : WasmSection} {content : List UInt8}
    (hpart : part.Placed wasm content) {parser : Parser α} {values : List α}
    (hvalues : Parser.whole (.vector parser) content = some values) :
    ∃ cursor, scanOver wasm (nextU32 part.endOffset part.beginOffset) =
      .ok (values.length, cursor) := by
  obtain ⟨count, rest, hcount, htimes⟩ := Parser.whole_vector_eq_some.mp hvalues
  obtain rfl := Parser.length_of_times htimes
  obtain ⟨-, horder, hbound, rfl⟩ := hpart
  have hlength : (wasm.take part.endOffset).length = part.endOffset := List.length_take_of_le hbound
  have hfound := (@tracks_nextU32 wasm part.endOffset).found part.beginOffset (hlength.symm ▸ horder)
  rw [hcount] at hfound
  exact ⟨_, ranAt_eq_some.mp hfound⟩

/-- Which types match, where the types of the module are known. -/
theorem typedBy_eq (hplaced : (sections 1).Placed wasm typeContent)
    (htypes : Parser.whole (.vector .funcType) typeContent = some types)
    (hknown : ∀ type ∈ types, Tools.knownTypes type = true) (index : Nat) (function : HostFunction) :
    typedBy wasm sections index function =
      (types[index]? == some (function.params, function.results)) := by
  rw [Bool.eq_iff_iff, beq_iff_eq, typedBy]
  have hmatches := @typeMatches_eq_ok wasm typeContent _ hplaced index function.params
    function.results
  rw [htypes] at hmatches
  constructor
  · intro hok
    cases hscan : scanOver wasm (typeMatches (sections 1) index function.params function.results) with
    | error stop =>
        rw [hscan] at hok
        cases hok
    | ok found =>
        obtain ⟨others, hsame, -, hindex⟩ := hmatches.mp hscan
        cases hsame
        exact hindex
  · intro hindex
    rw [hmatches.mpr ⟨types, rfl, hknown, hindex⟩]
    rfl

/-- What the two scans ask of the type and the function section. -/
structure TypesAndFunctions (typeContent functionContent : List UInt8) (typeCount : Nat)
    (types : List FuncType) (functions : List Nat) : Prop where
  types_eq : Parser.whole (.vector .funcType) typeContent = some types
  known : ∀ type ∈ types, Tools.knownTypes type = true
  functions_eq : Parser.whole (.vector .number) functionContent = some functions
  bounded : ∀ index ∈ functions, index < typeCount

/-- A function of the module that has this type. -/
def HasType (types : List FuncType) (functions : List Nat) (importedCount : Nat)
    (item : Nat × FuncType) : Prop :=
  importedCount ≤ item.1 ∧ ∃ function, functions[item.1 - importedCount]? = some function ∧
    types[function]? = some item.2

/-- An entry point as the device checks it. -/
theorem entryPoint_iff_hasType (htypeSection : (sections 1).Placed wasm typeContent)
    (hfunctionSection : (sections 3).Placed wasm functionContent) {name : ExportName} :
    EntryPoint wasm sections imports exported typeCount name definedCount ↔
      ∃ types functions, TypesAndFunctions typeContent functionContent typeCount types functions ∧
        HasType types functions imports.count
          (exported.functions name, entryParams name, entryResults) ∧
        functions.length = definedCount := by
  constructor
  · intro hentry
    obtain ⟨typeIndex, hfunction, htype⟩ := hentry.typed
    obtain ⟨functions, hfunctions, hbounded, hindex, hdefined⟩ :=
      (functionType_eq_ok hfunctionSection).mp hfunction
    obtain ⟨types, htypes, hknown, hsignature⟩ := (typeMatches_eq_ok htypeSection).mp htype
    exact ⟨types, functions, ⟨htypes, hknown, hfunctions, hbounded⟩,
      ⟨Nat.not_lt.mp hentry.defined, typeIndex, hindex, hsignature⟩, hdefined⟩
  · rintro ⟨types, functions, hparsed, ⟨himported, typeIndex, hindex, hsignature⟩, hdefined⟩
    exact
      { defined := Nat.not_lt.mpr himported
        typed := ⟨typeIndex,
          (functionType_eq_ok hfunctionSection).mpr ⟨functions, hparsed.functions_eq,
            hparsed.bounded, hindex, hdefined⟩,
          (typeMatches_eq_ok htypeSection).mpr ⟨types, hparsed.types_eq, hparsed.known,
            hsignature⟩⟩ }

/-- Types and functions are what their sections say. -/
theorem TypesAndFunctions.unique {others : List FuncType} {otherFunctions : List Nat}
    (hparsed : TypesAndFunctions typeContent functionContent typeCount types functions)
    (hothers : TypesAndFunctions typeContent functionContent typeCount others otherFunctions) :
    others = types ∧ otherFunctions = functions :=
  ⟨Option.some.inj (hothers.types_eq.symm.trans hparsed.types_eq),
    Option.some.inj (hothers.functions_eq.symm.trans hparsed.functions_eq)⟩

/-- The three entry points as the device checks them. -/
theorem entryPoints_iff (htypeSection : (sections 1).Placed wasm typeContent)
    (hfunctionSection : (sections 3).Placed wasm functionContent) :
    EntryPoints wasm sections imports exported typeCount [.init, .onEvent, .stop] 0 definedCount ↔
      ∃ types functions, TypesAndFunctions typeContent functionContent typeCount types functions ∧
        (∀ name ∈ [ExportName.init, .onEvent, .stop], HasType types functions imports.count
          (exported.functions name, entryParams name, entryResults)) ∧
        functions.length = definedCount := by
  simp only [EntryPoints, entryPoint_iff_hasType htypeSection hfunctionSection, List.forall_mem_cons,
    List.not_mem_nil, false_implies, implies_true, and_true]
  constructor
  · rintro ⟨_, ⟨types, functions, hparsed, hinit, rfl⟩, _, ⟨_, _, hother, honEvent, rfl⟩, _,
      ⟨_, _, hthird, hstop, rfl⟩, rfl⟩
    obtain ⟨rfl, rfl⟩ := hparsed.unique hother
    obtain ⟨rfl, rfl⟩ := hparsed.unique hthird
    exact ⟨_, _, hparsed, ⟨hinit, honEvent, hstop⟩, rfl⟩
  · rintro ⟨types, functions, hparsed, ⟨hinit, honEvent, hstop⟩, rfl⟩
    exact ⟨_, ⟨types, functions, hparsed, hinit, rfl⟩, _, ⟨types, functions, hparsed, honEvent, rfl⟩,
      _, ⟨types, functions, hparsed, hstop, rfl⟩, rfl⟩

/-! ## Modules -/

/-- A section that must be there. -/
theorem WasmSections.Located.placed {seen : Tools.SeenSections} (hlocated : sections.Located wasm seen)
    {number : UInt8} {content : List UInt8} (hlookup : seen.1.lookup number = some content) :
    (sections number).Placed wasm content := by
  have hnumber := hlocated number
  rw [hlookup] at hnumber
  exact hnumber

/-- The entry points as the host checks them. -/
theorem forall_entries_iff {found : Tools.Scanned} :
    (∀ item ∈ found.entries, HasType found.types found.functions found.importedCount item) ↔
      ∀ name ∈ [ExportName.init, .onEvent, .stop],
        HasType found.types found.functions found.importedCount
          ((entryFunctions found.init found.onEvent found.stop).functions name, entryParams name,
            entryResults) := by
  have hentries : found.entries = [ExportName.init, .onEvent, .stop].map fun name =>
      ((entryFunctions found.init found.onEvent found.stop).functions name, entryParams name,
        entryResults) := rfl
  rw [hentries, List.forall_mem_map]

/-- No two of the entry points are the same function. -/
theorem distinct_iff {init onEvent stop : Nat} :
    [init, onEvent, stop].Nodup ↔ init ≠ onEvent ∧ init ≠ stop ∧ onEvent ≠ stop := by
  simp only [List.nodup_cons, List.mem_cons, List.not_mem_nil, or_false, not_or, not_false_iff,
    List.nodup_nil, and_true, and_assoc]

/-- The device accepts only what the host accepts, with the same capabilities. -/
theorem ModuleAccepted.scanAccepts {requested : UInt32} {limitBytes : Nat}
    (haccepted : ModuleAccepted wasm requested limitBytes sections imports exported typeCount
      definedCount) :
    ∃ required found, Tools.ScanAccepts wasm limitBytes required found ∧
      imports.capabilities = capabilityMask required := by
  have hsections := @rel_scanSections wasm
  rw [haccepted.sections_eq] at hsections
  cases hhost : hostSections wasm with
  | none =>
      rw [hhost] at hsections
      cases hsections
  | some seen =>
      rw [hhost] at hsections
      cases hsections with
      | some hlocated =>
          obtain ⟨hseen, hrequired⟩ := hostSections_eq_some.mp hhost
          have hlookup (number : UInt8) (hnumber : number ∈ requiredNumbers) :=
            Option.isSome_iff_exists.mp (hrequired number hnumber)
          obtain ⟨typeContent, htypeSection⟩ := hlookup 1 (by decide)
          obtain ⟨functionContent, hfunctionSection⟩ := hlookup 3 (by decide)
          obtain ⟨memoryContent, hmemorySection⟩ := hlookup 5 (by decide)
          obtain ⟨exportContent, hexportSection⟩ := hlookup 7 (by decide)
          obtain ⟨codeContent, hcodeSection⟩ := hlookup 10 (by decide)
          have htypes := hlocated.placed htypeSection
          obtain ⟨types, functions, hparsed, htyped, rfl⟩ := (entryPoints_iff htypes
            (hlocated.placed hfunctionSection)).mp haccepted.entries
          obtain ⟨required, himports, hcapabilities⟩ := (scanImports_eq_ok (hlocated 2)
            (typedBy_eq htypes hparsed.types_eq hparsed.known)).mp ⟨_, haccepted.imports_eq⟩
          obtain ⟨entries, init, onEvent, stop, hentries, hexports, rfl⟩ :=
            (scanExports_eq_ok (hlocated.placed hexportSection)).mp haccepted.exports_eq
          have hcount : typeCount = types.length := by
            obtain ⟨_, htypeCount⟩ := haccepted.types_eq
            obtain ⟨_, hlength⟩ := scanOver_vectorCount htypes hparsed.types_eq
            rw [htypeCount] at hlength
            exact congrArg Prod.fst (Except.ok.inj hlength)
          subst hcount
          obtain ⟨memory, hmemory, hwithin⟩ :=
            (scanMemory_eq_ok (hlocated.placed hmemorySection)).mp haccepted.memory_eq
          refine ⟨required, ⟨seen, types, imports.count, functions, init, onEvent, stop⟩, ?_,
            hcapabilities⟩
          exact
            { sections := hseen
              types := ⟨typeContent, htypeSection, hparsed.types_eq, hparsed.known⟩
              imports := himports
              functions := ⟨functionContent, hfunctionSection, hparsed.functions_eq, hparsed.bounded⟩
              exports := ⟨exportContent, entries, hexportSection, hentries, hexports⟩
              distinct := distinct_iff.mpr haccepted.distinct
              signatures := forall_entries_iff.mpr htyped
              memory := ⟨memoryContent, memory, hmemorySection, hmemory, hwithin⟩
              code := ⟨codeContent, hcodeSection,
                (scanCode_eq_ok (hlocated.placed hcodeSection)).mp haccepted.code_eq⟩ }

/-- The device accepts what the host accepts, if the capabilities that it needs are requested. -/
theorem moduleAccepted_of_scanAccepts {requested : UInt32} {limitBytes : Nat}
    {required : Finset String} {found : Tools.Scanned}
    (haccepts : Tools.ScanAccepts wasm limitBytes required found)
    (hrequested : capabilityMask required &&& ~~~requested = 0) :
    ∃ sections imports exported typeCount definedCount,
      ModuleAccepted wasm requested limitBytes sections imports exported typeCount definedCount ∧
        imports.capabilities = capabilityMask required := by
  obtain ⟨typeContent, htypeSection, htypes, hknown⟩ := haccepts.types
  obtain ⟨functionContent, hfunctionSection, hfunctions, hbounded⟩ := haccepts.functions
  obtain ⟨exportContent, entries, hexportSection, hentries, hexports⟩ := haccepts.exports
  obtain ⟨memoryContent, memory, hmemorySection, hmemory⟩ := haccepts.memory
  obtain ⟨codeContent, hcodeSection, hcode⟩ := haccepts.code
  have hhost : hostSections wasm = some found.seen := by
    rw [hostSections_eq_some]
    refine ⟨haccepts.sections, ?_⟩
    intro number hnumber
    simp only [requiredNumbers, List.mem_cons, List.not_mem_nil, or_false] at hnumber
    rcases hnumber with rfl | rfl | rfl | rfl | rfl
    · exact Option.isSome_of_mem htypeSection
    · exact Option.isSome_of_mem hfunctionSection
    · exact Option.isSome_of_mem hmemorySection
    · exact Option.isSome_of_mem hexportSection
    · exact Option.isSome_of_mem hcodeSection
  have hsections := @rel_scanSections wasm
  rw [hhost] at hsections
  cases hscan : scanOver wasm (scanSections wasm.length) with
  | error stop =>
      rw [hscan] at hsections
      cases hsections
  | ok sections =>
      rw [hscan] at hsections
      cases hsections with
      | some hlocated =>
          have hplaced := hlocated.placed htypeSection
          obtain ⟨seen, himports⟩ := (scanImports_eq_ok (hlocated 2)
            (typedBy_eq hplaced htypes hknown)).mpr ⟨required, haccepts.imports, rfl⟩
          have hparsed : TypesAndFunctions typeContent functionContent found.types.length
              found.types found.functions := ⟨htypes, hknown, hfunctions, hbounded⟩
          refine ⟨sections, ⟨seen, capabilityMask required, found.importedCount⟩,
            entryFunctions found.init found.onEvent found.stop, found.types.length,
            found.functions.length, ?_, rfl⟩
          exact
            { sections_eq := hscan
              imports_eq := himports
              exports_eq := (scanExports_eq_ok (hlocated.placed hexportSection)).mpr
                ⟨entries, _, _, _, hentries, hexports, rfl⟩
              requested := hrequested
              distinct := distinct_iff.mp haccepts.distinct
              types_eq := scanOver_vectorCount hplaced htypes
              entries := (entryPoints_iff hplaced (hlocated.placed hfunctionSection)).mpr
                ⟨_, _, hparsed, forall_entries_iff.mp haccepts.signatures, rfl⟩
              memory_eq := (scanMemory_eq_ok (hlocated.placed hmemorySection)).mpr
                ⟨memory, hmemory⟩
              code_eq := (scanCode_eq_ok (hlocated.placed hcodeSection)).mpr hcode }

end Package
