/-
# The runtime's scan of an admitted module: imports

The imports of an admitted module are known functions with their signatures, each at most
once. The runtime's scan finds the type of each again, and the same capabilities.
-/

import EspContainer.Admission.RawSections

namespace Container

open Binary Interaction Package Wasm

variable {wasm content rest : List UInt8} {stop cursor : Nat} {types : List FuncType}

/-- The result of a function whose failure is not an end. -/
theorem onModule_attempt {α β : Type} (scan : RawScan α) (next : Except ScanError α → RawScan β) :
    RawScan.onModule (Fallible.attempt scan.run >>= next) wasm =
      RawScan.onModule (next (RawScan.onModule scan wasm)) wasm := by
  rw [onModule_bind, RawScan.onModule, Fallible.eval_attempt]
  rfl

/-! ## Types -/

/-- The comparison with the signature of a host function. -/
theorem onModule_rawSignature (function : HostFunction) {paramTypes resultTypes : Nat}
    (hparams : RawName.Holds ⟨paramTypes, function.params.length⟩ wasm function.params)
    (hresults : RawName.Holds ⟨resultTypes, 1⟩ wasm function.results) :
    RawScan.onModule (rawSignature function.capability (function == .timerCancel)
      function.params.length paramTypes resultTypes) wasm = .ok true := by
  have hcompared : RawScan.onModule (compareBytes function.params paramTypes) wasm = .ok true := by
    rw [onModule_compareBytes function.params hparams.bound, hparams.bytes, beq_self_eq_true]
  have hresult : [wasm.getD resultTypes 0] = function.results := by
    have hlength := hresults.length
    have hbound := hresults.bound
    have hbytes := hresults.bytes
    dsimp only at hlength hbound hbytes
    rw [← hlength] at hbound hbytes
    rw [← hbytes, List.drop_eq_getElem_cons hbound, List.getD_eq_getElem _ _ hbound]
    rfl
  have hmatching (result : UInt8) (hsame : [result] = function.results) :
      RawScan.onModule (do
        let same ← if function.params.length == function.params.length then
          compareBytes function.params paramTypes else pure false
        if same then do
          let type ← readByte resultTypes
          pure (type == result)
        else
          pure false) wasm = .ok true := by
    rw [beq_self_eq_true, if_pos rfl, onModule_bind, hcompared]
    change RawScan.onModule (readByte resultTypes >>= _) wasm = _
    rw [onModule_readByte, List.singleton_inj.mp (hresult.trans hsame.symm), beq_self_eq_true]
    rfl
  cases function with
  | monotonicMs => exact hmatching 0x7e rfl
  | log => exact hmatching 0x7f rfl
  | timerStart => exact hmatching 0x7e rfl
  | timerCancel => exact hmatching 0x7f rfl

/-- The loop of `import_type_matches` from some type on. -/
theorem onModule_rawTypeLoop (hstop : stop ≤ wasm.length) (function : HostFunction)
    {left index wanted : Nat} {bytes : List UInt8} (hplace : At (wasm.take stop) cursor bytes)
    (htypes : Parser.times .funcType left bytes = some (types, rest)) (hindex : index ≤ wanted)
    (htype : types[wanted - index]? = some (function.params, function.results)) :
    RawScan.onModule (rawTypeLoop stop wanted function.capability (function == .timerCancel) left
      index cursor) wasm = .ok true := by
  induction left generalizing index cursor bytes types with
  | zero =>
      obtain ⟨rfl, -⟩ := Parser.times_zero_eq_some.mp htypes
      cases htype
  | succ left ih =>
      obtain ⟨type, others, middle, rfl, hfirst, hothers⟩ := Parser.times_succ_eq_some.mp htypes
      rw [Parser.funcType, Parser.sized] at hfirst
      simp only [Parser.bind_eq_some, Parser.item_eq_some, Parser.ensure_eq_some,
        Parser.pure_eq_some, Prod.mk.injEq] at hfirst
      obtain ⟨form, _, rfl, _, _, ⟨hform, rfl⟩, params, _, ⟨paramCount, _, hparamCount, hparams⟩,
        results, _, ⟨resultCount, _, hresultCount, hresults⟩, rfl, rfl⟩ := hfirst
      obtain ⟨-, -, hbehindForm⟩ := getD_of_at hplace
      obtain ⟨paramTypes, hparamPlace, hreadParams⟩ := onModule_number hstop hbehindForm hparamCount
      obtain ⟨hparamFits, hparamHolds, hbehindParams⟩ := holds_of_take hparamPlace hstop hparams
      obtain ⟨resultTypes, hresultPlace, hreadResults⟩ :=
        onModule_number hstop hbehindParams hresultCount
      obtain ⟨hresultFits, hresultHolds, hbehind⟩ := holds_of_take hresultPlace hstop hresults
      have hparamLeft : ¬ paramCount > stop - paramTypes := by omega
      have hresultLeft : ¬ resultCount > stop - resultTypes := by omega
      rw [rawTypeLoop, onModule_item hplace, onModule_demand, if_pos hform, hreadParams]
      dsimp only
      rw [onModule_demand, decide_eq_false hparamLeft, Bool.not_false, if_pos rfl, hreadResults]
      dsimp only
      rw [onModule_demand, decide_eq_false hresultLeft, Bool.not_false, if_pos rfl]
      by_cases hsame : index = wanted
      · subst hsame
        rw [Nat.sub_self] at htype
        obtain ⟨rfl, rfl⟩ := Prod.mk.inj (Option.some.inj htype)
        have hone : resultCount = 1 := by
          have hcount : resultCount = function.results.length := hresultHolds.length
          rw [hcount]
          cases function <;> rfl
        subst hone
        obtain rfl : paramCount = function.params.length := hparamHolds.length
        rw [if_pos (beq_self_eq_true index), if_neg (by rw [bne_self_eq_false]; exact Bool.false_ne_true)]
        exact onModule_rawSignature function hparamHolds hresultHolds
      · rw [if_neg (fun heq => hsame (beq_iff_eq.mp heq))]
        have hplaces : wanted - index = wanted - (index + 1) + 1 := by omega
        rw [hplaces, List.getElem?_cons_succ] at htype
        exact ih hbehind hothers (by omega) htype

/-- `import_type_matches` finds the type of an import that was admitted. -/
theorem onModule_rawTypeMatches {sections : RawSections} {seen : Tools.SeenSections}
    (hlocated : sections.Located wasm seen) (hsection : seen.1.lookup 1 = some content)
    (htypes : Parser.whole (.vector .funcType) content = some types) (function : HostFunction)
    {index : Nat} (htype : types[index]? = some (function.params, function.results)) :
    RawScan.onModule (rawTypeMatches sections index function.capability (function == .timerCancel))
      wasm = .ok true := by
  have hremembered := hlocated.types
  rw [hsection] at hremembered
  obtain ⟨hstart, hbound, hplace⟩ := hremembered
  obtain ⟨count, middle, hcount, htimes⟩ := Parser.whole_vector_eq_some.mp htypes
  obtain ⟨start, hfirst, hread⟩ := onModule_number hbound hplace hcount
  have hbegins : (sections.typeBegin != 0) = true := bne_iff_ne.mpr (Nat.ne_of_gt hstart)
  have hindex : ¬ index ≥ count := by
    obtain ⟨hless, -⟩ := List.getElem?_eq_some_iff.mp htype
    rw [Parser.length_of_times htimes] at hless
    exact Nat.not_le.mpr hless
  rw [rawTypeMatches, onModule_demand, if_pos hbegins, hread]
  dsimp only
  rw [onModule_demand, decide_eq_false hindex, Bool.not_false, if_pos rfl]
  exact onModule_rawTypeLoop hbound function hfirst htimes (Nat.zero_le _) htype

/-! ## Imports -/

/-- An import that the host's scan takes. -/
theorem importChange_eq_some {found next : List (List UInt8) × Finset String} {entry : Import}
    (hchange : Tools.importChange types found entry = some next) :
    ∃ function : HostFunction, entry.module = ascii "econtainer" ∧ entry.kind = 0 ∧
      entry.field = function.field ∧ function.field ∉ found.1 ∧
      types[entry.index]? = some (function.params, function.results) ∧
      next = (function.field :: found.1, insert function.capabilityName found.2) := by
  rw [Tools.importChange, lookup_expectedImports] at hchange
  split at hchange
  · next hmodule =>
    rw [Bool.and_eq_true, beq_iff_eq, beq_iff_eq] at hmodule
    cases hfunction : HostFunction.ofField entry.field with
    | none =>
        rw [hfunction] at hchange
        cases hchange
    | some function =>
        have hfield := HostFunction.field_of_ofField hfunction
        rw [hfunction] at hchange
        dsimp only [Option.map_some] at hchange
        split at hchange
        · cases hchange
        · next hrefused =>
          rw [Bool.or_eq_true, not_or, decide_eq_true_eq, bne_iff_ne, ne_eq, not_not] at hrefused
          cases hchange
          exact ⟨function, hmodule.1, hmodule.2, hfield, hfield ▸ hrefused.1, hrefused.2, hfield ▸ rfl⟩
  · cases hchange

/-- The capability of a known name. -/
theorem onModule_rawCapability {field : RawName} (function : HostFunction)
    (hfield : field.Holds wasm function.field) :
    RawScan.onModule (rawCapability field) wasm = .ok function.capability := by
  have hname (expected : List UInt8) (next : Bool → RawScan UInt32) :
      RawScan.onModule (rawNameIs field expected >>= next) wasm =
        RawScan.onModule (next (function.field == expected)) wasm := by
    rw [onModule_bind, onModule_rawNameIs hfield]
    rfl
  rw [rawCapability, hname]
  cases function with
  | monotonicMs => rfl
  | log =>
      change RawScan.onModule (rawNameIs field (ascii "log") >>= _) wasm = _
      rw [hname]
      rfl
  | timerStart =>
      change RawScan.onModule (rawNameIs field (ascii "log") >>= _) wasm = _
      rw [hname]
      change RawScan.onModule (rawNameIs field (ascii "timer_start") >>= _) wasm = _
      rw [hname]
      rfl
  | timerCancel =>
      change RawScan.onModule (rawNameIs field (ascii "log") >>= _) wasm = _
      rw [hname]
      change RawScan.onModule (rawNameIs field (ascii "timer_start") >>= _) wasm = _
      rw [hname]
      change RawScan.onModule (rawNameIs field (ascii "timer_cancel") >>= _) wasm = _
      rw [hname]
      rfl

/-- What the loop keeps of names and capabilities. -/
def rawMasks (found : List (List UInt8) × Finset String) : RawImports :=
  ⟨seenMask found.1, capabilityMask found.2⟩

/-- One round of the loop over the imports. -/
theorem onModule_scanRawImport {sections : RawSections} {seen : Tools.SeenSections}
    (hlocated : sections.Located wasm seen) (hsection : seen.1.lookup 1 = some content)
    (htypes : Parser.whole (.vector .funcType) content = some types)
    (hstop : sections.importEnd ≤ wasm.length) {found next : List (List UInt8) × Finset String}
    {bytes : List UInt8} {entry : Import} (hplace : At (wasm.take sections.importEnd) cursor bytes)
    (hentry : Parser.importEntry bytes = some (entry, rest))
    (hchange : Tools.importChange types found entry = some next) :
    ∃ after, At (wasm.take sections.importEnd) after rest ∧
      RawScan.onModule (scanRawImport sections (rawMasks found) cursor) wasm =
        .ok (rawMasks next, after) := by
  obtain ⟨function, hmodule, hkind, hfield, hfresh, htype, rfl⟩ := importChange_eq_some hchange
  rw [Parser.importEntry] at hentry
  simp only [Parser.bind_eq_some, Parser.item_eq_some, Parser.pure_eq_some, Prod.mk.injEq] at hentry
  obtain ⟨module, _, hmoduleName, field, _, hfieldName, kind, _, rfl, index, _, hindex, rfl, rfl⟩ :=
    hentry
  dsimp only at hmodule hkind hfield htype
  subst hmodule hkind hfield
  obtain ⟨own, behindModule, hown, hfirst, hreadModule⟩ := onModule_readName hstop hplace hmoduleName
  obtain ⟨name, behindField, hname, hsecond, hreadField⟩ := onModule_readName hstop hfirst hfieldName
  obtain ⟨-, -, hthird⟩ := getD_of_at hsecond
  obtain ⟨after, hafter, hreadIndex⟩ := onModule_number hstop hthird hindex
  refine ⟨after, hafter, ?_⟩
  have hcancel : (function.field == ascii "timer_cancel") = (function == .timerCancel) := by
    cases function <;> decide
  have hbit : (if (function == HostFunction.timerCancel) = true then 8 else function.capability) =
      function.seenBit := by
    cases function <;> rfl
  have hcapability : (function.capability == 0) = false := by
    cases function <;> decide
  have hseen : (seenMask found.1 &&& function.seenBit != 0) = false := by
    rw [bne, seenMask, functionMask_and, decide_eq_false hfresh]
    rfl
  rw [scanRawImport]
  dsimp only
  rw [hreadModule]
  dsimp only
  rw [hreadField]
  dsimp only
  rw [onModule_item hsecond, onModule_demandSupported, beq_self_eq_true, if_pos rfl, hreadIndex]
  dsimp only
  rw [onModule_bind, onModule_rawNameIs hown, beq_self_eq_true]
  change RawScan.onModule (demandSupported true >>= _) wasm = _
  rw [onModule_demandSupported, if_pos rfl, onModule_bind, onModule_rawCapability function hname]
  change RawScan.onModule (rawNameIs name (ascii "timer_cancel") >>= _) wasm = _
  rw [onModule_bind, onModule_rawNameIs hname, hcancel]
  change RawScan.onModule (demandSupported (!(function.capability == 0 || seenMask found.1 &&&
    (if (function == HostFunction.timerCancel) = true then 8 else function.capability) != 0)) >>= _)
    wasm = _
  rw [hbit, hcapability, hseen, onModule_demandSupported, Bool.or_false, Bool.not_false, if_pos rfl,
    onModule_attempt, onModule_rawTypeMatches hlocated hsection htypes function htype]
  change RawScan.onModule (demandSupported true >>= _) wasm = _
  rw [onModule_demandSupported, if_pos rfl]
  have hmasks : rawMasks (function.field :: found.1, insert function.capabilityName found.2) =
      ⟨seenMask found.1 ||| function.seenBit, capabilityMask found.2 ||| function.capability⟩ := by
    rw [rawMasks, seenMask_cons, capabilityMask_insert]
  rw [hmasks]
  rfl

/-- Where the imports lie; the runtime's scan looks them up by their beginning. -/
theorem Remembered.imported {start stop : Nat} {section? : Option (List UInt8)}
    (hremembered : Remembered wasm start stop section?) :
    (start == 0) = section?.isNone := by
  cases section? with
  | none => exact beq_iff_eq.mpr hremembered
  | some content => exact beq_eq_false_iff_ne.mpr (Nat.ne_of_gt hremembered.1)

/-- The loop over the imports of an admitted module finds the capabilities that it needs. -/
theorem onModule_scanRawImports {sections : RawSections} {seen : Tools.SeenSections}
    (hlocated : sections.Located wasm seen) (hsection : seen.1.lookup 1 = some content)
    (htypes : Parser.whole (.vector .funcType) content = some types) {required : Finset String}
    {count : Nat} (himports : Tools.ImportsOf types required count (seen.1.lookup 2)) :
    RawScan.onModule (scanRawImports sections) wasm = .ok (capabilityMask required) := by
  have hremembered := hlocated.imports
  rw [scanRawImports, hremembered.imported]
  cases hcontent : seen.1.lookup 2 with
  | none =>
      rw [hcontent] at himports
      obtain ⟨rfl, -⟩ := himports
      rw [capabilityMask_empty]
      rfl
  | some imported =>
      rw [hcontent] at himports hremembered
      obtain ⟨entries, names, hentries, hfew, -, hfold⟩ := himports
      obtain ⟨-, hbound, hplace⟩ := hremembered
      obtain ⟨declared, middle, hcount, htimes⟩ := Parser.whole_vector_eq_some.mp hentries
      obtain ⟨start, hstart, hread⟩ := onModule_number hbound hplace hcount
      have hdeclared : ¬ declared > 4 := by
        rw [← Parser.length_of_times htimes]
        exact Nat.not_lt.mpr hfew
      obtain ⟨⟨masks, after⟩, ⟨rfl, hafter⟩, hloop⟩ := @eval_counted ByteAccess _ _ _ _
        (fun index => wasm.getD index 0) middle []
        (fun _ locals => scanRawImport sections locals.1 locals.2) _ (Tools.importChange types)
        (fun (locals : RawImports × Nat) found bytes =>
          locals.1 = rawMasks found ∧ At (wasm.take sections.importEnd) locals.2 bytes)
        (by
          rintro _ ⟨_, cursor⟩ found bytes entry rest next ⟨rfl, hplace⟩ hentry hchange
          obtain ⟨after, hafter, hround⟩ := onModule_scanRawImport hlocated hsection htypes hbound
            hplace hentry hchange
          exact ⟨(rawMasks next, after), ⟨rfl, hafter⟩, hround⟩)
        declared entries (⟨0, 0⟩, start) ([], ∅) (names, required)
        ⟨by rw [rawMasks, capabilityMask_empty]; rfl, hstart⟩ htimes hfold
      have hend := hafter.eq_end
      rw [List.length_take_of_le hbound] at hend
      dsimp only at hend
      change RawScan.onModule (readU32 sections.importEnd sections.importBegin >>= _) wasm = _
      rw [hread]
      dsimp only
      rw [onModule_demandSupported, decide_eq_false hdeclared, Bool.not_false, if_pos rfl,
        onModule_bind]
      refine (congrArg (· >>= _) hloop).trans ?_
      change RawScan.onModule (demand (after == sections.importEnd) >>= _) wasm = _
      rw [onModule_demand, hend, beq_self_eq_true]
      rfl

end Container
