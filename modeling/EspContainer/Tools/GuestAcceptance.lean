/-
# What the checker of the sample guest accepts

The functions of the checker follow the same parsers as those of the host's scan. Its names
are decoded strings; as a string is its UTF-8 encoding, a name that is one of the few that
the checker knows was spelled with the bytes of that name.
-/

import EspContainer.Tools.GuestScan
import EspContainer.Tools.HostAcceptance

namespace Tools.Guest

open Binary Package Wasm

variable {data : List UInt8}

/-! ## Names -/

/-- The bytes of a string. -/
def utf8 (text : String) : List UInt8 := text.toByteArray.data.toList

theorem utf8_injective : Function.Injective utf8 := by
  intro first second hsame
  exact String.toByteArray_inj.mp (ByteArray.ext (Array.toList_inj.mp hsame))

/-- A string is decoded from its own bytes and from no others. -/
theorem decodeUtf8_eq_ok {bytes : List UInt8} {text : String} :
    GuestReader.decodeUtf8 bytes = .ok text ↔ utf8 text = bytes := by
  rw [GuestReader.decodeUtf8, String.fromUTF8?]
  constructor
  · intro hdecoded
    split at hdecoded
    · cases hdecoded
    · next found hfound =>
      split at hfound
      · cases hdecoded
        cases hfound
        rfl
      · cases hfound
  · rintro rfl
    have hbytes : (⟨(utf8 text).toArray⟩ : ByteArray) = text.toByteArray :=
      ByteArray.ext (Array.toArray_toList)
    rw [hbytes, dif_pos text.isValidUTF8]
    rfl

theorem decoded_eq_some {bytes : List UInt8} {text : String} :
    (GuestReader.decodeUtf8 bytes).toOption = some text ↔ utf8 text = bytes := by
  rw [← decodeUtf8_eq_ok]
  cases GuestReader.decodeUtf8 bytes with
  | error reason => simp [Except.toOption]
  | ok other => simp [Except.toOption]

/-- The known names in bytes. -/
theorem utf8_names :
    utf8 "econtainer_init" = ascii "econtainer_init" ∧
      utf8 "econtainer_on_event" = ascii "econtainer_on_event" ∧
      utf8 "econtainer_stop" = ascii "econtainer_stop" ∧ utf8 "memory" = ascii "memory" := by
  decide

/-! ## Sets -/

theorem mem_iff_of_sameElements {α : Type} [DecidableEq α] {first second : List α}
    (hsame : sameElements first second = true) {value : α} : value ∈ first ↔ value ∈ second := by
  rw [sameElements, Bool.and_eq_true, List.all_eq_true, List.all_eq_true] at hsame
  constructor
  · intro hvalue
    exact of_decide_eq_true (hsame.1 value hvalue)
  · intro hvalue
    exact of_decide_eq_true (hsame.2 value hvalue)

/-! ## Types, functions and code -/

theorem obeys_typeStep : Obeys data (typeStep data) Parser.funcType := by
  have hparser : Parser.funcType =
      (do
        let form ← Parser.item
        Parser.ensure (!(form != 0x60))
        let params ← Parser.sized
        let returns ← Parser.sized
        pure (params, returns)) := by
    simp [Parser.funcType, bne]
  rw [hparser]
  exact obeys_guestByte.bind fun form => (obeys_refuseWhen _ _).bind fun _ =>
    obeys_guestTakeSized.bind fun params => obeys_guestTakeSized.bind fun returns => obeys_pure _

/-- `_types`. -/
theorem types_eq_ok {found : List FuncType} :
    types data = .ok found ↔
      Parser.whole (.vector .funcType) data = some found ∧
        sameElements found (exportTypes.map Prod.snd) = true ∧ found.length = 2 := by
  rw [types]
  apply Iff.trans (Obeys.run_eq_ok ?hobeys)
  case hobeys =>
    apply obeys_guestU32.bind
    intro count
    apply (obeys_collected obeys_typeStep count).bind
    intro found
    apply obeys_guestFinish.bind
    intro _
    apply (obeys_refuseWhen _ _).bind
    intro _
    exact obeys_pure found
  simp only [Parser.whole_vector_eq_some, Parser.bind_eq_some, Parser.ending_eq_some,
    Parser.ensure_eq_some, Parser.pure_eq_some, Prod.mk.injEq]
  constructor
  · rintro ⟨_, count, middle, hcount, _, _, hfound, _, _, ⟨rfl, rfl⟩, _, _, ⟨hchecked, rfl⟩, rfl, rfl⟩
    refine ⟨⟨count, middle, hcount, hfound⟩, ?_⟩
    simpa using hchecked
  · rintro ⟨⟨count, middle, hcount, hfound⟩, hchecked⟩
    refine ⟨[], count, middle, hcount, found, [], hfound, (), [], ⟨rfl, rfl⟩, (), [], ⟨?_, rfl⟩, rfl,
      rfl⟩
    simpa using hchecked

theorem obeys_functionStep (types : List FuncType) :
    Obeys data (functionStep data types)
      (Parser.number >>= fun index => Parser.given types[index]?) := by
  have hparser : (Parser.number >>= fun index => Parser.given types[index]?) =
      (do
        let index ← Parser.number
        Parser.ensure (!decide (index ≥ types.length))
        Parser.given (itemAt types index).toOption) := by
    refine bind_congr fun index => ?_
    rw [itemAt]
    by_cases hindex : index < types.length
    · rw [List.getElem?_eq_getElem hindex, decide_eq_false (Nat.not_le.mpr hindex)]
      rfl
    · rw [List.getElem?_eq_none (Nat.not_lt.mp hindex), decide_eq_true (Nat.not_lt.mp hindex)]
      rfl
  rw [hparser]
  exact obeys_guestU32.bind fun index => (obeys_refuseWhen _ _).bind fun _ => obeys_lift _

/-- `_functions`. -/
theorem functions_eq_ok {types found : List FuncType} :
    functions data types = .ok found ↔
      (∃ indexes, Parser.whole (.vector .number) data = some indexes ∧
        indexes.mapM (types[·]?) = some found) ∧ found.length = 3 := by
  rw [functions]
  apply Iff.trans (Obeys.run_eq_ok ?hobeys)
  case hobeys =>
    apply obeys_guestU32.bind
    intro count
    apply (obeys_collected (obeys_functionStep types) count).bind
    intro found
    apply obeys_guestFinish.bind
    intro _
    apply (obeys_refuseWhen _ _).bind
    intro _
    exact obeys_pure found
  simp only [Parser.whole_vector_eq_some, Parser.bind_eq_some, Parser.times_given_eq_some,
    Parser.ending_eq_some, Parser.ensure_eq_some, Parser.pure_eq_some, Prod.mk.injEq]
  constructor
  · rintro ⟨_, count, middle, hcount, _, _, ⟨indexes, hindexes, hfound⟩, _, _, ⟨rfl, rfl⟩, _, _,
      ⟨hchecked, rfl⟩, rfl, rfl⟩
    refine ⟨⟨indexes, ⟨count, middle, hcount, hindexes⟩, hfound⟩, ?_⟩
    simpa using hchecked
  · rintro ⟨⟨indexes, ⟨count, middle, hcount, hindexes⟩, hfound⟩, hchecked⟩
    refine ⟨[], count, middle, hcount, found, [], ⟨indexes, hindexes, hfound⟩, (), [], ⟨rfl, rfl⟩, (),
      [], ⟨?_, rfl⟩, rfl, rfl⟩
    simpa using hchecked

/-- `_memory`. -/
theorem memory_eq_ok :
    memory data = .ok () ↔
      Parser.whole .memory data = some ⟨1, 1, memoryPages, memoryPages⟩ := by
  rw [memory]
  apply Iff.trans (Obeys.run_eq_ok ?hobeys)
  case hobeys =>
    apply obeys_guestU32.bind
    intro count
    apply obeys_guestU32.bind
    intro flags
    apply obeys_guestU32.bind
    intro minimum
    apply obeys_guestU32.bind
    intro maximum
    apply (obeys_refuseWhen _ _).bind
    intro _
    exact obeys_guestFinish
  simp only [Parser.bind_eq_some, Parser.ending_eq_some, Parser.ensure_eq_some,
    Parser.whole_eq_some, Parser.memory, Parser.pure_eq_some, Prod.mk.injEq, Memory.mk.injEq]
  constructor
  · rintro ⟨_, count, _, hcount, flags, _, hflags, minimum, _, hminimum, maximum, _, hmaximum, _, _,
      ⟨hchecked, rfl⟩, rfl, rfl⟩
    simp at hchecked
    obtain ⟨rfl, rfl, rfl, rfl⟩ := hchecked
    exact ⟨_, _, hcount, _, _, hflags, _, _, hminimum, _, _, hmaximum, ⟨rfl, rfl, rfl, rfl⟩, rfl⟩
  · rintro ⟨_, _, hcount, _, _, hflags, _, _, hminimum, _, _, hmaximum, ⟨rfl, rfl, rfl, rfl⟩, rfl⟩
    exact ⟨[], _, _, hcount, _, _, hflags, _, _, hminimum, _, _, hmaximum, (), [], ⟨by decide, rfl⟩,
      rfl, rfl⟩

theorem obeys_bodyStep (state : Unit) :
    Obeys data (bodyStep data state)
      (Parser.sized >>= fun body => Parser.given (bodyChange state body)) := by
  apply obeys_guestTakeSized.bind
  intro body
  have hcheck : (!(decide (body.length < 2) || body.getLast? != some 0x0b)) = wellEnded body := by
    rw [wellEnded, Bool.not_or, bne, Bool.not_not, ← decide_not]
    simp only [Nat.not_lt]
  rw [bodyChange, ← hcheck]
  exact obeys_refuseWhen _ _

/-- `_code`. -/
theorem code_eq_ok {functionCount : Nat} :
    code data functionCount = .ok () ↔ CodeOf functionCount data := by
  rw [code]
  apply Iff.trans (Obeys.run_eq_ok ?hobeys)
  case hobeys =>
    apply obeys_guestU32.bind
    intro count
    apply (obeys_refuseWhen _ _).bind
    intro _
    apply (obeys_repeated obeys_bodyStep functionCount ()).bind
    intro _
    exact obeys_guestFinish
  simp only [bind_assoc]
  simp only [code_eq_some, exists_eq_right]

/-! ## Exports -/

/-- The name of an export as the checker has it. -/
def spelled (entry : Export) : Option String := (GuestReader.decodeUtf8 entry.name).toOption

theorem spelled_eq_some {entry : Export} {name : String} :
    spelled entry = some name ↔ utf8 name = entry.name := decoded_eq_some

/-- What the loop over the exports puts into its dictionary. -/
def exportChange : List (String × UInt8 × Nat) → Export → Option (List (String × UInt8 × Nat)) :=
  inserted (fun entry => (spelled entry).isSome) (fun entry => (spelled entry).getD "")
    fun entry => (entry.kind, entry.index)

theorem obeys_exportStep (result : List (String × UInt8 × Nat)) :
    Obeys data (exportStep data result)
      (Parser.exportEntry >>= fun entry => Parser.given (exportChange result entry)) := by
  have hparser : (Parser.exportEntry >>= fun entry => Parser.given (exportChange result entry)) =
      (Parser.sized >>= fun bytes => Parser.given (GuestReader.decodeUtf8 bytes).toOption) >>=
        (fun name => do
          Parser.ensure (!(result.lookup name).isSome)
          let kind ← Parser.item
          let index ← Parser.number
          pure ((name, kind, index) :: result)) := by
    simp only [Parser.exportEntry, bind_assoc, pure_bind, Parser.ensure]
    apply bind_congr
    intro bytes
    -- The name is looked up before the rest of the entry is read.
    simp only [Parser.given_bind_comm]
    refine bind_congr fun kind => bind_congr fun index => ?_
    rw [exportChange, inserted, spelled]
    cases GuestReader.decodeUtf8 bytes with
    | error reason => rfl
    | ok name =>
        change Parser.given (if (true && (result.lookup name).isNone) = true then
          some ((name, kind, index) :: result) else none) = (pure name >>= _)
        rw [pure_bind]
        cases result.lookup name with
        | none => rfl
        | some other => rfl
  rw [hparser]
  exact obeys_guestName.bind fun name => (obeys_refuseWhen _ _).bind fun _ =>
    obeys_guestByte.bind fun kind => obeys_guestU32.bind fun index => obeys_pure _

/-- The dictionary of the exports: a name is found in it exactly if its bytes name an
export. -/
structure Exported (entries : List Export) (result : List (String × UInt8 × Nat)) : Prop where
  names : (result.map Prod.fst).map utf8 = (entries.map Export.name).reverse
  nodup : (result.map Prod.fst).Nodup
  lookup_iff : ∀ name kind index, result.lookup name = some (kind, index) ↔
    ⟨utf8 name, kind, index⟩ ∈ entries

theorem exported_of_foldlM {entries : List Export} {result : List (String × UInt8 × Nat)}
    (hfold : entries.foldlM exportChange [] = some result) : Exported entries result := by
  obtain ⟨hspelled, hnodup, rfl⟩ := foldlM_inserted_nil.mp hfold
  have hname {entry : Export} (hentry : entry ∈ entries) :
      utf8 ((spelled entry).getD "") = entry.name := by
    obtain ⟨name, hname⟩ := Option.isSome_iff_exists.mp (hspelled entry hentry)
    rw [hname]
    exact spelled_eq_some.mp hname
  constructor
  case names =>
    rw [List.map_map, List.map_reverse, List.map_map]
    congr 1
    apply List.map_congr_left
    intro entry hentry
    exact hname hentry
  case nodup =>
    rw [List.map_reverse, List.nodup_reverse, List.map_map]
    exact hnodup
  case lookup_iff =>
    intro name kind index
    rw [lookup_reverse_map hnodup, List.mem_map]
    constructor
    · rintro ⟨entry, hentry, hitem⟩
      cases hitem
      rw [hname hentry]
      exact hentry
    · intro hentry
      refine ⟨_, hentry, ?_⟩
      rw [utf8_injective (hname hentry)]

theorem functionIndexes_eq_ok {result : List (String × UInt8 × Nat)} {functions : List FuncType}
    {expected : List (String × FuncType)} {indexes : List Nat} :
    functionIndexes result functions expected = .ok indexes ↔
      List.Forall₂ (fun item index => result.lookup item.1 = some (0, index) ∧
        functions[index]? = some item.2) expected indexes := by
  induction expected generalizing indexes with
  | nil => rw [functionIndexes, checked_pure_eq_ok, List.forall₂_nil_left_iff, eq_comm]
  | cons item expected ih =>
      simp only [functionIndexes, checked_bind_eq_ok, refuseIf_eq_ok, checked_pure_eq_ok,
        entryAt_eq_ok, ih, List.forall₂_cons_left_iff]
      constructor
      · rintro ⟨⟨kind, index⟩, hfound, _, hchecked, others, hothers, rfl⟩
        rw [Bool.or_eq_false_iff, bne_eq_false_iff_eq, bne_eq_false_iff_eq] at hchecked
        obtain ⟨rfl, htype⟩ := hchecked
        exact ⟨index, others, ⟨hfound, htype⟩, hothers, rfl⟩
      · rintro ⟨index, others, ⟨hfound, htype⟩, hothers, rfl⟩
        refine ⟨(0, index), hfound, (), ?_, others, hothers, rfl⟩
        rw [htype]
        simp

/-- The entry points among the exports and their types. -/
structure EntryPoints (functions : List FuncType) (init onEvent stop : Nat) : Prop where
  initType : functions[init]? = some ([], [0x7f])
  onEventType : functions[onEvent]? = some ([0x7f, 0x7f], [0x7f])
  stopType : functions[stop]? = some ([], [0x7f])
  distinct : [init, onEvent, stop].dedup.length = 3

/-- An entry point is an export that the host expects. -/
theorem exportAccepts_function {name : List UInt8} {index : Nat}
    (hname : expectedExports.lookup name = some 0) (hmemory : name ≠ ascii "memory") :
    exportAccepts ⟨name, 0, index⟩ = true := by
  rw [exportAccepts, hname, beq_eq_false_iff_ne.mpr hmemory]
  rfl

/-- Two lists without repetitions and with the same elements. -/
theorem length_eq_of_sameElements {α : Type} [DecidableEq α] {first second : List α}
    (hsame : sameElements first second = true) (hfirst : first.Nodup) (hsecond : second.Nodup) :
    first.length = second.length := by
  apply List.Perm.length_eq
  rw [List.perm_ext_iff_of_nodup hfirst hsecond]
  exact fun value => mem_iff_of_sameElements hsame

/-- `_exports`: the exports are those that the host expects. -/
theorem exports_sound {functions : List FuncType} (hchecked : exports data functions = .ok ()) :
    ∃ entries init onEvent stop, Parser.whole (.vector .exportEntry) data = some entries ∧
      ExportsOf entries init onEvent stop ∧ EntryPoints functions init onEvent stop := by
  have hrun {result : List (String × UInt8 × Nat)} :
      Reads.run (do
        let count ← GuestReader.u32 data
        let result ← repeated (exportStep data) count []
        GuestReader.finish data
        pure result) = .ok result ↔
      ∃ entries, Parser.whole (.vector .exportEntry) data = some entries ∧
        entries.foldlM exportChange [] = some result := by
    apply Iff.trans (Obeys.run_eq_ok ?hobeys)
    case hobeys =>
      apply obeys_guestU32.bind
      intro count
      apply (obeys_repeated obeys_exportStep count []).bind
      intro result
      apply obeys_guestFinish.bind
      intro _
      exact obeys_pure result
    simp only [bind_assoc]
    simp only [Parser.gathered_vector_eq_some, exists_eq_right]
  simp only [exports, checked_bind_eq_ok, hrun, refuseIf_eq_ok, entryAt_eq_ok,
    functionIndexes_eq_ok, exportTypes, List.forall₂_cons_left_iff,
    List.forall₂_nil_left_iff] at hchecked
  obtain ⟨result, ⟨entries, hentries, hfold⟩, _, hsame, memory, hmemory, _, hlocated, _,
    ⟨init, _, ⟨hinit, hinitType⟩, ⟨onEvent, _, ⟨honEvent, honEventType⟩,
      ⟨stop, _, ⟨hstop, hstopType⟩, rfl, rfl⟩, rfl⟩, rfl⟩, hdistinct⟩ := hchecked
  obtain ⟨hnames, hnodup, hlookup⟩ := exported_of_foldlM hfold
  rw [Bool.not_eq_false'] at hsame
  obtain rfl : memory = (2, 0) := bne_eq_false_iff_eq.mp hlocated
  obtain ⟨hinitName, honEventName, hstopName, hmemoryName⟩ := utf8_names
  have hfound {name : String} {kind : UInt8} {index : Nat}
      (hname : result.lookup name = some (kind, index)) :
      (utf8 name, index) ∈ entries.map fun entry => (entry.name, entry.index) :=
    List.mem_map.mpr ⟨_, (hlookup name kind index).mp hname, rfl⟩
  refine ⟨entries, init, onEvent, stop, hentries, ?_, hinitType, honEventType, hstopType,
    bne_eq_false_iff_eq.mp hdistinct⟩
  constructor
  case length =>
    have hlength := congrArg List.length hnames
    rw [List.length_map, List.length_reverse] at hlength
    rw [← @List.length_map _ _ entries Export.name, ← hlength,
      length_eq_of_sameElements hsame hnodup (by decide)]
    rfl
  case accepted =>
    rintro ⟨bytes, kind, index⟩ hentry
    have hbytes : bytes ∈ (result.map Prod.fst).map utf8 := by
      rw [hnames, List.mem_reverse]
      exact List.mem_map.mpr ⟨_, hentry, rfl⟩
    obtain ⟨name, hname, rfl⟩ := List.mem_map.mp hbytes
    have hown := (hlookup name kind index).mpr hentry
    rw [mem_iff_of_sameElements hsame] at hname
    simp only [List.map_cons, List.map_nil, List.mem_cons, List.not_mem_nil, or_false] at hname
    rcases hname with rfl | rfl | rfl | rfl
    · obtain ⟨rfl, rfl⟩ := Prod.mk.inj (Option.some.inj (hown.symm.trans hmemory))
      rw [hmemoryName]
      decide
    · obtain ⟨rfl, -⟩ := Prod.mk.inj (Option.some.inj (hown.symm.trans hinit))
      rw [hinitName]
      exact exportAccepts_function (by decide) (by decide)
    · obtain ⟨rfl, -⟩ := Prod.mk.inj (Option.some.inj (hown.symm.trans honEvent))
      rw [honEventName]
      exact exportAccepts_function (by decide) (by decide)
    · obtain ⟨rfl, -⟩ := Prod.mk.inj (Option.some.inj (hown.symm.trans hstop))
      rw [hstopName]
      exact exportAccepts_function (by decide) (by decide)
  case nodup =>
    rw [← List.nodup_reverse, ← hnames]
    exact hnodup.map utf8_injective
  case memory =>
    rw [← hmemoryName]
    exact List.mem_map.mpr ⟨_, (hlookup _ _ _).mp hmemory, rfl⟩
  case init => exact hinitName ▸ hfound hinit
  case onEvent => exact honEventName ▸ hfound honEvent
  case stop => exact hstopName ▸ hfound hstop

end Tools.Guest
