/-
# What the host's scan accepts

Each function of the host's scan follows the parser of its section, so that what it accepts
is a property of the items of the section. The two checks of declared counts against the
bytes that are left refuse nothing that the items do not.
-/

import EspContainer.Tools.Dictionaries
import EspContainer.Tools.Following
import EspContainer.Tools.HostScan

namespace Tools

open Binary Package Wasm

variable {data : List UInt8}

/-! ## Types -/

/-- The value types of a function type are among the four that are known. -/
def knownTypes (type : FuncType) : Bool := (type.1 ++ type.2).all valueType

/-- A type with a check of its value types. -/
theorem obeys_wasmType :
    Obeys data (wasmType data)
      (do
        let type ← Parser.funcType
        Parser.ensure (knownTypes type)
        pure type) := by
  have hparser : (do
        let type ← Parser.funcType
        Parser.ensure (knownTypes type)
        pure type) =
      (do
        let form ← Parser.item
        Parser.ensure (!(form != 0x60))
        let params ← Parser.sized
        let results ← Parser.sized
        Parser.ensure (!(params ++ results).any fun value => !valueType value)
        pure (params, results) : Parser FuncType) := by
    simp [Parser.funcType, knownTypes, List.any_eq_not_all_not, bne]
  rw [hparser]
  exact obeys_packageByte.bind fun form => (obeys_refuseWhen _ _).bind fun _ =>
    obeys_packageTakeSized.bind fun params => obeys_packageTakeSized.bind fun results =>
      (obeys_refuseWhen _ _).bind fun _ => obeys_pure _

/-- `_wasm_types`. -/
theorem wasmTypes_eq_ok {types : List FuncType} :
    wasmTypes data = .ok types ↔
      Parser.whole (.vector .funcType) data = some types ∧
        ∀ type ∈ types, knownTypes type = true := by
  rw [wasmTypes]
  apply Iff.trans (Obeys.run_eq_ok ?hobeys)
  case hobeys =>
    apply obeys_packageU32.bind
    intro count
    apply obeys_packageLeft.bind
    intro left
    apply (obeys_refuseWhen _ _).bind
    intro _
    apply (obeys_collected obeys_wasmType count).bind
    intro types
    apply obeys_packageFinish.bind
    intro _
    exact obeys_pure types
  have htakes : Parser.Takes (do
      let type ← Parser.funcType
      Parser.ensure (knownTypes type)
      pure type) :=
    Parser.takes_funcType.bind fun type => (Parser.shrinks_given _).bind fun _ => Parser.shrinks_pure type
  rw [← Parser.whole_vector_ensure]
  simp only [Parser.bounded_vector_eq_some htakes, exists_eq_right]

/-! ## Functions, memory and code -/

/-- `_wasm_functions`. -/
theorem wasmFunctions_eq_ok {typeCount : Nat} {functions : List Nat} :
    wasmFunctions data typeCount = .ok functions ↔
      Parser.whole (.vector .number) data = some functions ∧
        ∀ index ∈ functions, index < typeCount := by
  rw [wasmFunctions]
  apply Iff.trans (Obeys.run_eq_ok ?hobeys)
  case hobeys =>
    apply obeys_packageU32.bind
    intro count
    apply obeys_packageLeft.bind
    intro left
    apply (obeys_refuseWhen _ _).bind
    intro _
    apply (obeys_collected obeys_packageU32 count).bind
    intro functions
    apply obeys_packageFinish.bind
    intro _
    apply (obeys_refuseWhen _ _).bind
    intro _
    exact obeys_pure functions
  have hparser : (do
        let count ← Parser.number
        let left ← Parser.remaining
        Parser.ensure (!decide (count > left))
        let functions ← Parser.times Parser.number count
        Parser.ending
        Parser.ensure (!functions.any fun index => decide (index ≥ typeCount))
        pure functions : Parser (List Nat)) =
      (do
        let count ← Parser.number
        let left ← Parser.remaining
        Parser.ensure (!decide (count > left))
        let functions ← Parser.times Parser.number count
        Parser.ending
        pure functions) >>= fun functions =>
          Parser.ensure (!functions.any fun index => decide (index ≥ typeCount)) >>= fun _ =>
            pure functions := by
    simp only [bind_assoc, pure_bind]
  rw [hparser]
  simp only [Parser.bind_eq_some, Parser.bounded_vector_eq_some Parser.takes_number,
    Parser.ensure_eq_some, Parser.pure_eq_some, Prod.mk.injEq]
  constructor
  · rintro ⟨_, _, _, ⟨hwhole, rfl⟩, _, _, ⟨hchecked, rfl⟩, rfl, rfl⟩
    refine ⟨hwhole, ?_⟩
    simpa using hchecked
  · rintro ⟨hwhole, hchecked⟩
    refine ⟨[], functions, [], ⟨hwhole, rfl⟩, (), [], ⟨?_, rfl⟩, rfl, rfl⟩
    simpa using hchecked

/-- The numbers of a memory section that the scan accepts under a limit. -/
def MemoryWithin (maxMemoryBytes : Nat) (memory : Memory) : Prop :=
  memory.count = 1 ∧ memory.flags = 1 ∧ 0 < memory.minimum ∧ memory.minimum ≤ memory.maximum ∧
    memory.maximum ≤ maxMemoryBytes / 65536

/-- `_wasm_memory`. -/
theorem wasmMemory_eq_ok {maxMemoryBytes : Nat} :
    wasmMemory data maxMemoryBytes = .ok () ↔
      ∃ memory, Parser.whole .memory data = some memory ∧ MemoryWithin maxMemoryBytes memory := by
  rw [wasmMemory]
  apply Iff.trans (Obeys.run_eq_ok ?hobeys)
  case hobeys =>
    apply obeys_packageU32.bind
    intro count
    apply obeys_packageU32.bind
    intro flags
    apply obeys_packageU32.bind
    intro minimum
    apply obeys_packageU32.bind
    intro maximum
    apply obeys_packageFinish.bind
    intro _
    exact obeys_refuseWhen _ _
  simp only [Parser.bind_eq_some, Parser.ending_eq_some, Parser.ensure_eq_some,
    Parser.whole_eq_some, Parser.memory, Parser.pure_eq_some, Prod.mk.injEq]
  constructor
  · rintro ⟨_, count, _, hcount, flags, _, hflags, minimum, _, hminimum, maximum, _, hmaximum, _, _,
      ⟨rfl, rfl⟩, hchecked, rfl⟩
    refine ⟨⟨count, flags, minimum, maximum⟩, ⟨count, _, hcount, flags, _, hflags, minimum, _,
      hminimum, maximum, _, hmaximum, rfl, rfl⟩, ?_⟩
    simp at hchecked
    simp only [MemoryWithin]
    omega
  · rintro ⟨memory, ⟨count, _, hcount, flags, _, hflags, minimum, _, hminimum, maximum, _, hmaximum,
      rfl, rfl⟩, hwithin⟩
    refine ⟨[], count, _, hcount, flags, _, hflags, minimum, _, hminimum, maximum, _, hmaximum, (),
      [], ⟨rfl, rfl⟩, ?_, rfl⟩
    simp only [MemoryWithin] at hwithin
    simp
    omega

/-- A function body that the scans accept. -/
def wellEnded (body : List UInt8) : Bool := 2 ≤ body.length && body.getLast? == some 0x0b

/-- The body of the loop over function bodies, which keeps nothing. -/
def bodyChange (_ : Unit) (body : List UInt8) : Option Unit :=
  if wellEnded body then some () else none

/-- A loop that only checks. -/
theorem foldlM_bodyChange {bodies : List (List UInt8)} :
    bodies.foldlM bodyChange () = some () ↔ ∀ body ∈ bodies, wellEnded body = true := by
  induction bodies with
  | nil => simp
  | cons body bodies ih =>
      rw [List.foldlM_cons, bodyChange]
      by_cases hended : wellEnded body = true
      · rw [if_pos hended]
        simpa [hended] using ih
      · rw [if_neg hended]
        simp [hended]

theorem obeys_wasmBody (state : Unit) :
    Obeys data (wasmBody data state)
      (Parser.sized >>= fun body => Parser.given (bodyChange state body)) := by
  have hparser : (Parser.sized >>= fun body => Parser.given (bodyChange state body)) =
      (do
        let size ← Parser.number
        let body ← Parser.take size
        Parser.ensure (!(decide (size < 2) || body.getLast? != some 0x0b))) := by
    rw [Parser.sized, bind_assoc]
    refine bind_congr fun size => ?_
    funext bytes
    rw [Parser.bind_eq, Parser.bind_eq]
    cases htake : Parser.take size bytes with
    | none => rfl
    | some found =>
        obtain ⟨hsize, -⟩ := Parser.take_eq_some.mp htake
        change Parser.given (bodyChange state found.1) found.2 = Parser.ensure _ found.2
        rw [bodyChange, Parser.ensure, wellEnded, hsize]
        congr 2
        rw [Bool.not_or, bne, Bool.not_not, ← decide_not]
        simp only [Nat.not_lt]
  rw [hparser]
  exact obeys_packageU32.bind fun size => (obeys_packageTake size).bind fun body =>
    obeys_refuseWhen _ _

/-- What the two tools ask of a code section. -/
def CodeOf (functionCount : Nat) (content : List UInt8) : Prop :=
  ∃ bodies, Parser.whole (.vector .sized) content = some bodies ∧ bodies.length = functionCount ∧
    ∀ body ∈ bodies, wellEnded body = true

/-- The parser that a scan of a code section follows. -/
theorem code_eq_some {functionCount : Nat} {found : Unit × List UInt8} :
    (do
      let count ← Parser.number
      Parser.ensure (!(count != functionCount))
      let bodies ← Parser.times Parser.sized functionCount
      Parser.given (bodies.foldlM bodyChange ())
      Parser.ending) data = some found ↔ CodeOf functionCount data ∧ found.2 = [] := by
  obtain ⟨⟨⟩, rest⟩ := found
  have hfolded := @Parser.folded_vector_eq_some _ _ Parser.sized data functionCount bodyChange ()
    ((), rest)
  simp only [bind_pure_unit, foldlM_bodyChange] at hfolded
  exact hfolded

/-- `_wasm_code`. -/
theorem wasmCode_eq_ok {functionCount : Nat} :
    wasmCode data functionCount = .ok () ↔ CodeOf functionCount data := by
  rw [wasmCode]
  apply Iff.trans (Obeys.run_eq_ok ?hobeys)
  case hobeys =>
    apply obeys_packageU32.bind
    intro count
    apply (obeys_refuseWhen _ _).bind
    intro _
    apply (obeys_repeated obeys_wasmBody functionCount ()).bind
    intro _
    exact obeys_packageFinish
  simp only [bind_assoc]
  simp only [code_eq_some, exists_eq_right]

/-! ## Exports -/

/-- An export that the scan expects. -/
def exportAccepts (entry : Export) : Bool :=
  expectedExports.lookup entry.name == some entry.kind &&
    !(entry.name == ascii "memory" && entry.index != 0)

theorem obeys_wasmExport (exports : List (List UInt8 × Nat)) :
    Obeys data (wasmExport data exports)
      (Parser.exportEntry >>= fun entry =>
        Parser.given (inserted exportAccepts Export.name Export.index exports entry)) := by
  have hparser : (Parser.exportEntry >>= fun entry =>
        Parser.given (inserted exportAccepts Export.name Export.index exports entry)) =
      (do
        let name ← Parser.sized
        let kind ← Parser.item
        let index ← Parser.number
        Parser.ensure (!((expectedExports.lookup name).isNone || (exports.lookup name).isSome ||
          expectedExports.lookup name != some kind || (name == ascii "memory" && index != 0)))
        pure ((name, index) :: exports)) := by
    simp only [Parser.exportEntry, bind_assoc, pure_bind]
    refine bind_congr fun name => bind_congr fun kind => bind_congr fun index => ?_
    have hcheck : (exportAccepts ⟨name, kind, index⟩ && (exports.lookup name).isNone) =
        !((expectedExports.lookup name).isNone || (exports.lookup name).isSome ||
          expectedExports.lookup name != some kind || (name == ascii "memory" && index != 0)) := by
      rw [exportAccepts]
      cases expectedExports.lookup name <;> cases exports.lookup name <;> simp [bne]
    change Parser.given (if (exportAccepts ⟨name, kind, index⟩ && (exports.lookup name).isNone) =
      true then some ((name, index) :: exports) else none) = _
    rw [hcheck, Parser.ensure]
    cases !((expectedExports.lookup name).isNone || (exports.lookup name).isSome ||
      expectedExports.lookup name != some kind || (name == ascii "memory" && index != 0)) <;> rfl
  rw [hparser]
  exact obeys_packageTakeSized.bind fun name => obeys_packageByte.bind fun kind =>
    obeys_packageU32.bind fun index => (obeys_refuseWhen _ _).bind fun _ => obeys_pure _

/-- The entry points among the exports of a module. -/
structure ExportsOf (entries : List Export) (init onEvent stop : Nat) : Prop where
  length : entries.length = 4
  accepted : ∀ entry ∈ entries, exportAccepts entry = true
  nodup : (entries.map Export.name).Nodup
  memory : ascii "memory" ∈ entries.map Export.name
  init : (ascii "econtainer_init", init) ∈ entries.map fun entry => (entry.name, entry.index)
  onEvent : (ascii "econtainer_on_event", onEvent) ∈
    entries.map fun entry => (entry.name, entry.index)
  stop : (ascii "econtainer_stop", stop) ∈ entries.map fun entry => (entry.name, entry.index)

/-- `_wasm_exports`. -/
theorem wasmExports_eq_ok {init onEvent stop : Nat} :
    wasmExports data = .ok (init, onEvent, stop) ↔
      ∃ entries, Parser.whole (.vector .exportEntry) data = some entries ∧
        ExportsOf entries init onEvent stop := by
  have hrun {exports : List (List UInt8 × Nat)} :
      Reads.run (do
        let count ← PackageReader.u32 data
        refuseWhen (count != 4) "Wasm 导出集合与 ABI 不符"
        let exports ← repeated (wasmExport data) 4 []
        PackageReader.finish data
        pure exports) = .ok exports ↔
      ∃ entries, Parser.whole (.vector .exportEntry) data = some entries ∧ entries.length = 4 ∧
        entries.foldlM (inserted exportAccepts Export.name Export.index) [] = some exports := by
    apply Iff.trans (Obeys.run_eq_ok ?hobeys)
    case hobeys =>
      apply obeys_packageU32.bind
      intro count
      apply (obeys_refuseWhen _ _).bind
      intro _
      apply (obeys_repeated obeys_wasmExport 4 []).bind
      intro exports
      apply obeys_packageFinish.bind
      intro _
      exact obeys_pure exports
    simp only [bind_assoc]
    simp only [Parser.folded_vector_eq_some, exists_eq_right]
  simp only [wasmExports, checked_bind_eq_ok, hrun, refuseIf_eq_ok, checked_pure_eq_ok,
    entryAt_eq_ok, foldlM_inserted_nil, Prod.mk.injEq]
  constructor
  · rintro ⟨_, ⟨entries, hentries, hlength, haccepted, hnodup, rfl⟩, _, hnames, _, hinit, _,
      honEvent, _, hstop, rfl, rfl, rfl⟩
    rw [Bool.or_eq_false_iff, Bool.not_eq_false', List.all_eq_true] at hnames
    exact ⟨entries, hentries, hlength, haccepted, hnodup,
      lookup_reverse_map_isSome.mp (hnames.1 (ascii "memory", 2) (by simp [expectedExports])),
      (lookup_reverse_map hnodup).mp hinit, (lookup_reverse_map hnodup).mp honEvent,
      (lookup_reverse_map hnodup).mp hstop⟩
  · rintro ⟨entries, hentries, hlength, haccepted, hnodup, hmemory, hinit, honEvent, hstop⟩
    refine ⟨_, ⟨entries, hentries, hlength, haccepted, hnodup, rfl⟩, (), ?_, init,
      (lookup_reverse_map hnodup).mpr hinit, onEvent, (lookup_reverse_map hnodup).mpr honEvent,
      stop, (lookup_reverse_map hnodup).mpr hstop, rfl, rfl, rfl⟩
    rw [Bool.or_eq_false_iff, Bool.not_eq_false', Bool.not_eq_false', List.all_eq_true,
      List.all_eq_true]
    have hname {name : List UInt8} {index : Nat}
        (hentry : (name, index) ∈ entries.map fun entry => (entry.name, entry.index)) :
        name ∈ entries.map Export.name := by
      obtain ⟨entry, hmem, hpair⟩ := List.mem_map.mp hentry
      exact List.mem_map.mpr ⟨entry, hmem, congrArg Prod.fst hpair⟩
    constructor
    · intro expected hexpected
      rw [lookup_reverse_map_isSome]
      simp only [expectedExports, List.mem_cons, List.not_mem_nil, or_false] at hexpected
      rcases hexpected with rfl | rfl | rfl | rfl
      · exact hname hinit
      · exact hname honEvent
      · exact hname hstop
      · exact hmemory
    · intro item hitem
      obtain ⟨entry, hentry, rfl⟩ := List.mem_map.mp (List.mem_reverse.mp hitem)
      have haccept := haccepted entry hentry
      rw [exportAccepts, Bool.and_eq_true, beq_iff_eq] at haccept
      rw [haccept.1]
      rfl

/-! ## Sections -/

/-- What the loop over the sections makes of one. -/
def sectionChange (seen : SeenSections) (entry : UInt8 × List UInt8) : Option SeenSections :=
  if [4, 8, 9].contains entry.1 || entry.1 > 12 then none
  else if entry.1 == 0 then
    match Parser.sized entry.2 with
    | none => none
    | some (name, _) => if name == ascii "target_features" then none else some seen
  else if entry.1 ≤ seen.2 then none
  else some (entry :: seen.1, entry.1)

theorem run_packageName (content : List UInt8) :
    (Reads.run (PackageReader.name content)).toOption = (Parser.sized content).map Prod.fst := by
  apply toOption_eq_of_iff
  intro name
  rw [PackageReader.name, obeys_packageTakeSized.run_eq_ok, Option.map_eq_some_iff]
  simp

theorem obeys_wasmSection (seen : SeenSections) :
    Obeys data (wasmSection data seen)
      (Parser.sectionEntry >>= fun entry => Parser.given (sectionChange seen entry)) := by
  have hparser : (Parser.sectionEntry >>= fun entry => Parser.given (sectionChange seen entry)) =
      (do
        let number ← Parser.item
        let content ← Parser.sized
        Parser.ensure (!([4, 8, 9].contains number || decide (number > 12)))
        if number == 0 then do
          let name ← Parser.given (Reads.run (PackageReader.name content)).toOption
          Parser.ensure (!(name == ascii "target_features"))
          pure (seen.1, seen.2)
        else do
          Parser.ensure (!decide (number ≤ seen.2))
          pure ((number, content) :: seen.1, number)) := by
    simp only [Parser.sectionEntry, bind_assoc, pure_bind]
    refine bind_congr fun number => bind_congr fun content => ?_
    rw [sectionChange, run_packageName]
    cases [4, 8, 9].contains number || decide (number > 12) with
    | true => rfl
    | false =>
        by_cases hcustom : (number == 0) = true
        · rw [if_neg Bool.false_ne_true, if_pos hcustom, if_pos hcustom]
          cases Parser.sized content with
          | none => rfl
          | some found =>
              obtain ⟨name, rest⟩ := found
              change Parser.given (if (name == ascii "target_features") = true then none
                else some seen) = (Parser.ensure (!(name == ascii "target_features")) >>= fun _ =>
                  pure (seen.1, seen.2))
              cases name == ascii "target_features" <;> rfl
        · rw [if_neg Bool.false_ne_true, if_neg hcustom, if_neg hcustom]
          by_cases horder : number ≤ seen.2
          · rw [if_pos horder, decide_eq_true horder]
            rfl
          · rw [if_neg horder, decide_eq_false horder]
            rfl
  rw [hparser]
  apply obeys_packageByte.bind
  intro number
  apply obeys_packageTakeSized.bind
  intro content
  apply (obeys_refuseWhen _ _).bind
  intro _
  by_cases hcustom : (number == 0) = true
  · rw [if_pos hcustom, if_pos hcustom]
    exact (obeys_lift _).bind fun name => (obeys_refuseWhen _ _).bind fun _ => obeys_pure _
  · rw [if_neg hcustom, if_neg hcustom]
    exact (obeys_refuseWhen _ _).bind fun _ => obeys_pure _

/-- The loop of `_wasm`. -/
theorem wasmSections_eq_ok {seen : SeenSections} :
    Reads.run (untilEnd data (wasmSection data) data.length ([], 0)) = .ok seen ↔
      ∃ found, sections data = some found ∧ found.foldlM sectionChange ([], 0) = some seen := by
  rw [(obeys_untilEnd obeys_wasmSection data.length ([], 0)).run_eq_ok]
  simp only [Parser.bind_eq_some, Parser.given_eq_some,
    ← many_sectionEntry_eq_some (Nat.le_refl data.length)]
  constructor
  · rintro ⟨_, found, rest, hfound, hseen, rfl⟩
    exact ⟨found, ⟨_, hfound⟩, hseen⟩
  · rintro ⟨found, ⟨rest, hfound⟩, hseen⟩
    exact ⟨rest, found, rest, hfound, hseen, rfl⟩

end Tools
