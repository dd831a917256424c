/-
# What the package's scanner makes of exports

The scanner keeps a bit and a function for each of its four names, the host a dictionary of
the exports. What the scanner has is a view of such a dictionary, and one export changes
both in the same way.
-/

import EspContainer.Admission.DeviceImports

namespace Package

open Binary Interaction Wasm

variable {wasm content : List UInt8} {part : WasmSection}

/-! ## Names -/

/-- The known name of an exported field. -/
def ExportName.ofField (field : List UInt8) : Option ExportName :=
  [ExportName.init, .onEvent, .stop, .memory].find? fun name => field == name.field

theorem ExportName.field_of_ofField {field : List UInt8} {name : ExportName}
    (hname : ofField field = some name) : field = name.field := by
  have hfound := @List.find?_some _ (fun name : ExportName => field == name.field) _ _ hname
  exact beq_iff_eq.mp hfound

theorem ExportName.ofField_field (name : ExportName) : ofField name.field = some name := by
  cases name <;> decide

theorem ExportName.field_injective : Function.Injective ExportName.field := by
  intro first second hsame
  exact Option.some.inj ((ofField_field first).symm.trans
    ((congrArg ofField hsame).trans (ofField_field second)))

/-- What the host expects of an exported name. -/
theorem lookup_expectedExports (field : List UInt8) :
    Tools.expectedExports.lookup field = (ExportName.ofField field).map ExportName.kind := by
  have hexpected : Tools.expectedExports =
      [ExportName.init, .onEvent, .stop, .memory].map fun name => (name.field, name.kind) := rfl
  rw [ExportName.ofField, hexpected]
  simp only [List.map_cons, List.map_nil, List.lookup_cons, List.lookup_nil, List.find?_cons,
    List.find?_nil]
  cases field == ExportName.init.field with
  | true => rfl
  | false =>
    cases field == ExportName.onEvent.field with
    | true => rfl
    | false =>
      cases field == ExportName.stop.field with
      | true => rfl
      | false =>
        cases field == ExportName.memory.field with
        | true => rfl
        | false => rfl

/-- The search among some names compares the bytes that are there with each of them. -/
theorem scanOver_exportTarget {length cursor : Nat} (hbound : cursor + length ≤ wasm.length)
    (names : List ExportName) :
    scanOver wasm (exportTarget length cursor names) =
      .ok (names.find? fun name => (wasm.drop cursor).take length == name.field) := by
  induction names with
  | nil => rfl
  | cons name names ih =>
      rw [exportTarget, List.find?_cons]
      by_cases hsize : length = name.field.length
      · have hsame : (length != name.field.length) = false := by
          rw [hsize, bne_self_eq_false]
        rw [hsame, if_neg Bool.false_ne_true, scanOver, Fallible.eval_bind]
        change (scanOver wasm (sameBytes name.field cursor) >>= _) = _
        rw [scanOver_sameBytes name.field (hsize ▸ hbound), hsize]
        cases (wasm.drop cursor).take name.field.length == name.field with
        | true => rfl
        | false => exact hsize ▸ ih
      · have hother : ((wasm.drop cursor).take length == name.field) = false := by
          rw [beq_eq_false_iff_ne]
          intro hfield
          have hequal := congrArg List.length hfield
          rw [List.length_take, List.length_drop] at hequal
          omega
        rw [if_pos (bne_iff_ne.mpr hsize), hother]
        exact ih

/-! ## The view of a dictionary -/

/-- The mask of some exported names. -/
def exportMask (held : ExportName → Bool) : UInt32 :=
  fourBits (held .init) (held .onEvent) (held .stop) (held .memory)

/-- Each name has its own bit. -/
theorem exportMask_and (held : ExportName → Bool) (name : ExportName) :
    (exportMask held &&& name.bit == 0) = !held name := by
  obtain ⟨hinit, honEvent, hstop, hmemory⟩ :=
    fourBits_and (held .init) (held .onEvent) (held .stop) (held .memory)
  cases name with
  | init => exact hinit
  | onEvent => exact honEvent
  | stop => exact hstop
  | memory => exact hmemory

/-- One more name. -/
theorem exportMask_or (held : ExportName → Bool) (name : ExportName) :
    exportMask (fun other => decide (other = name) || held other) = exportMask held ||| name.bit := by
  rw [exportMask, exportMask]
  generalize held .init = init
  generalize held .onEvent = onEvent
  generalize held .stop = stop
  generalize held .memory = memory
  revert init onEvent stop memory
  cases name <;> decide

/-- All four names. -/
theorem exportMask_eq_all {held : ExportName → Bool} :
    exportMask held = 15 ↔ ∀ name, held name = true := by
  constructor
  · intro hall name
    have hbit := exportMask_and held name
    rw [hall] at hbit
    rw [← Bool.not_eq_false', ← hbit]
    cases name <;> rfl
  · intro hall
    rw [exportMask, hall, hall, hall, hall]
    rfl

/-- What the scanner keeps of a dictionary of exports. -/
def exportView (dictionary : List (List UInt8 × Nat)) : WasmExports :=
  ⟨exportMask fun name => (dictionary.lookup name.field).isSome,
    fun name => if name == .memory then 0 else (dictionary.lookup name.field).getD 0⟩

/-- The scanner has all four names exactly if the dictionary has them. -/
theorem exportView_found_eq_all {dictionary : List (List UInt8 × Nat)} :
    (exportView dictionary).found = 15 ↔
      ∀ name : ExportName, (dictionary.lookup name.field).isSome = true :=
  @exportMask_eq_all fun name => (dictionary.lookup name.field).isSome

theorem exportView_nil : exportView [] = ⟨0, fun _ => 0⟩ := by
  rw [exportView]
  congr 1
  funext name
  exact ite_self 0

/-- One more export. -/
theorem exportView_cons (name : ExportName) (index : Nat) (dictionary : List (List UInt8 × Nat)) :
    exportView ((name.field, index) :: dictionary) =
      ⟨(exportView dictionary).found ||| name.bit,
        if name == .memory then (exportView dictionary).functions
        else Function.update (exportView dictionary).functions name index⟩ := by
  have hlookup (other : ExportName) : ((name.field, index) :: dictionary).lookup other.field =
      if other = name then some index else dictionary.lookup other.field := by
    rw [List.lookup_cons]
    by_cases hsame : other = name
    · rw [if_pos hsame, hsame, beq_self_eq_true]
    · have hother : (other.field == name.field) = false :=
        beq_eq_false_iff_ne.mpr fun hfield => hsame (ExportName.field_injective hfield)
      rw [if_neg hsame, hother]
  simp only [exportView, hlookup, WasmExports.mk.injEq]
  constructor
  · rw [← exportMask_or]
    congr 1
    funext other
    by_cases hsame : other = name
    · rw [if_pos hsame, decide_eq_true hsame]
      rfl
    · rw [if_neg hsame, decide_eq_false hsame, Bool.false_or]
  · funext other
    by_cases hmemory : name = .memory
    · subst hmemory
      by_cases hsame : other = .memory
      · subst hsame
        rfl
      · rw [if_neg hsame]
        rfl
    · rw [if_neg (show ¬ (name == ExportName.memory) = true from fun h => hmemory (beq_iff_eq.mp h))]
      by_cases hsame : other = name
      · subst hsame
        rw [Function.update_self, if_pos rfl,
          if_neg (show ¬ (other == ExportName.memory) = true from fun h => hmemory (beq_iff_eq.mp h))]
        rfl
      · rw [Function.update_of_ne hsame, if_neg hsame]

/-! ## One export -/

/-- What one round of `scan_exports` makes of an export. -/
def exportStep (exported : WasmExports) (entry : Export) : Option WasmExports :=
  match ExportName.ofField entry.name with
  | none => none
  | some name =>
      if !(exported.found &&& name.bit != 0 || entry.kind != name.kind ||
          (name == .memory && entry.index != 0)) then
        some ⟨exported.found ||| name.bit,
          if name == .memory then exported.functions
          else Function.update exported.functions name entry.index⟩
      else
        none

/-- One export changes the view as it changes the dictionary. -/
theorem exportStep_exportView (dictionary : List (List UInt8 × Nat)) (entry : Export) :
    exportStep (exportView dictionary) entry =
      (Tools.inserted Tools.exportAccepts Export.name Export.index dictionary entry).map
        exportView := by
  rw [exportStep, Tools.inserted, Tools.exportAccepts, lookup_expectedExports]
  cases hname : ExportName.ofField entry.name with
  | none => rfl
  | some name =>
      have hfield := ExportName.field_of_ofField hname
      have hmemory : (entry.name == ascii "memory") = (name == .memory) := by
        rw [hfield, Bool.eq_iff_iff, beq_iff_eq, beq_iff_eq]
        exact ExportName.field_injective.eq_iff (b := .memory)
      have hheld : ((exportView dictionary).found &&& name.bit == 0) =
          (dictionary.lookup entry.name).isNone := by
        rw [exportView, exportMask_and, hfield, Option.not_isSome]
      have hkind : (Option.map ExportName.kind (some name) == some entry.kind) =
          (entry.kind == name.kind) := by
        rw [Option.map_some, Option.some_beq_some, Bool.beq_comm]
      dsimp only
      rw [hkind, hmemory, Bool.not_or, Bool.not_or, bne, bne, Bool.not_not, Bool.not_not, hheld]
      cases (dictionary.lookup entry.name).isNone with
      | false => rw [Bool.false_and, Bool.false_and, Bool.and_false, if_neg Bool.false_ne_true,
          if_neg Bool.false_ne_true, Option.map_none]
      | true =>
          rw [Bool.true_and, Bool.and_true]
          cases entry.kind == name.kind && !(name == .memory && entry.index != 0) with
          | false => rfl
          | true =>
              rw [if_pos rfl, if_pos rfl, Option.map_some, hfield, exportView_cons]

theorem tracks_scanExport {stop : Nat} (hstop : stop ≤ wasm.length) (exported : WasmExports) :
    ScanTracks wasm stop (fun cursor => scanExport stop exported cursor)
      (Parser.exportEntry >>= fun entry => Parser.given (exportStep exported entry)) := by
  have hlength : (wasm.take stop).length = stop := List.length_take_of_le hstop
  rw [Parser.exportEntry, Parser.sized, bind_assoc, bind_assoc]
  apply tracks_nextU32.bind
  intro length
  refine @tracks_take _ _ _ _ _ _ _ _ _
    (fun name cursor => do
      let kind ← nextByte stop cursor
      let wasmIndex ← nextU32 stop kind.2
      match ExportName.ofField name with
      | none => throw .unsupported
      | some name => do
          scanSupported (!(exported.found &&& name.bit != 0 || kind.1 != name.kind ||
            (name == .memory && wasmIndex.1 != 0)))
          pure
            (⟨exported.found ||| name.bit,
              if name == .memory then exported.functions
              else Function.update exported.functions name wasmIndex.1⟩, wasmIndex.2)) _ hlength ?_ ?_
  · intro cursor hfits
    rw [take_drop_take hfits, Fallible.eval_bind]
    change (scanOver wasm (exportTarget length cursor [.init, .onEvent, .stop, .memory]) >>= _) = _
    rw [scanOver_exportTarget (by omega)]
    rfl
  · intro name
    simp only [bind_assoc, pure_bind]
    apply tracks_nextByte.bind
    intro kind
    dsimp +instances only
    apply tracks_nextU32.bind
    intro index
    dsimp +instances only
    rw [exportStep]
    cases ExportName.ofField name with
    | none => exact tracks_throw _
    | some name =>
        dsimp only
        rw [← Parser.ensure_pure]
        apply tracks_scanSupported
        exact tracks_pure _

/-! ## The export section -/

/-- What the scanner has of a module with these entry points. -/
def entryFunctions (init onEvent stop : Nat) : WasmExports where
  found := 15
  functions
    | .init => init
    | .onEvent => onEvent
    | .stop => stop
    | .memory => 0

/-- The view of a dictionary with all four names. -/
theorem exportView_eq_entryFunctions {dictionary : List (List UInt8 × Nat)} {init onEvent stop : Nat}
    (hinit : dictionary.lookup ExportName.init.field = some init)
    (honEvent : dictionary.lookup ExportName.onEvent.field = some onEvent)
    (hstop : dictionary.lookup ExportName.stop.field = some stop)
    (hmemory : (dictionary.lookup ExportName.memory.field).isSome = true) :
    exportView dictionary = entryFunctions init onEvent stop := by
  rw [exportView, entryFunctions, WasmExports.mk.injEq]
  constructor
  · rw [exportMask_eq_all]
    intro name
    cases name with
    | init => exact Option.isSome_of_mem hinit
    | onEvent => exact Option.isSome_of_mem honEvent
    | stop => exact Option.isSome_of_mem hstop
    | memory => exact hmemory
  · funext name
    cases name with
    | init => exact congrArg (Option.getD · 0) hinit
    | onEvent => exact congrArg (Option.getD · 0) honEvent
    | stop => exact congrArg (Option.getD · 0) hstop
    | memory => rfl

/-- `scan_exports`. -/
theorem scanExports_eq_ok (hpart : part.Placed wasm content) {exported : WasmExports} :
    scanOver wasm (scanExports part) = .ok exported ↔
      ∃ entries init onEvent stop,
        Parser.whole (.vector .exportEntry) content = some entries ∧
        Tools.ExportsOf entries init onEvent stop ∧ exported = entryFunctions init onEvent stop := by
  obtain ⟨start, stop, present⟩ := part
  obtain ⟨-, horder, hbound, rfl⟩ := hpart
  rw [scanExports]
  dsimp +instances only at horder hbound ⊢
  apply Iff.trans (scanOver_eq_ok_of_ends horder hbound ?hends)
  case hends =>
    apply tracks_nextU32.bind_ends
    intro count
    dsimp +instances only
    apply ends_scanSupported
    apply (tracks_counted (fun _ exported => tracks_scanExport hbound exported) count _).bind_ends
    intro exported
    dsimp +instances only
    exact Ends.returning (ends_scanEnd_and hbound) exported
  rw [Parser.whole_eq_some]
  simp only [Parser.bind_eq_some, Parser.ensure_eq_some, Parser.given_eq_some,
    Parser.pure_eq_some, foldFrom_const, ← exportView_nil, foldlM_view exportStep_exportView,
    Option.map_eq_some_iff, Tools.foldlM_inserted_nil, Parser.whole_vector_eq_some, Prod.mk.injEq]
  constructor
  · rintro ⟨count, middle, hcount, _, _, ⟨hfour, rfl⟩, _, _, ⟨entries, _, hentries,
      ⟨dictionary, ⟨haccepted, hnodup, rfl⟩, rfl⟩, rfl⟩, _, _, ⟨hfound, rfl⟩, rfl, rfl⟩
    rw [Bool.not_eq_true', bne_eq_false_iff_eq] at hfour
    rw [beq_iff_eq] at hfound
    have hnames := exportView_found_eq_all.mp hfound
    obtain ⟨init, hinit⟩ := Option.isSome_iff_exists.mp (hnames .init)
    obtain ⟨onEvent, honEvent⟩ := Option.isSome_iff_exists.mp (hnames .onEvent)
    obtain ⟨stop, hstop⟩ := Option.isSome_iff_exists.mp (hnames .stop)
    refine ⟨entries, init, onEvent, stop, ⟨count, _, hcount, hentries⟩, ?_,
      exportView_eq_entryFunctions hinit honEvent hstop (hnames .memory)⟩
    exact
      { length := (Parser.length_of_times hentries).trans hfour
        accepted := haccepted
        nodup := hnodup
        memory := Tools.lookup_reverse_map_isSome.mp (hnames .memory)
        init := (Tools.lookup_reverse_map hnodup).mp hinit
        onEvent := (Tools.lookup_reverse_map hnodup).mp honEvent
        stop := (Tools.lookup_reverse_map hnodup).mp hstop }
  · rintro ⟨entries, init, onEvent, stop, ⟨count, middle, hcount, hentries⟩, hexports, rfl⟩
    have hfour : (!(count != 4)) = true := by
      rw [← Parser.length_of_times hentries, hexports.length]
      rfl
    have hview := exportView_eq_entryFunctions
      ((Tools.lookup_reverse_map hexports.nodup).mpr hexports.init)
      ((Tools.lookup_reverse_map hexports.nodup).mpr hexports.onEvent)
      ((Tools.lookup_reverse_map hexports.nodup).mpr hexports.stop)
      (Tools.lookup_reverse_map_isSome.mpr hexports.memory)
    exact ⟨count, middle, hcount, (), middle, ⟨hfour, rfl⟩, _, [], ⟨entries, [], hentries,
      ⟨_, ⟨hexports.accepted, hexports.nodup, rfl⟩, hview⟩, rfl⟩, (), [], ⟨rfl, rfl⟩, rfl, rfl⟩

end Package
