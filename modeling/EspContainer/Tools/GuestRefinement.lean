/-
# The checker of the sample guest refines the host's scan

Both tools take the sections of a module apart in the same way. Whatever the checker of the
sample guest makes of a section, the host's scan makes of it too; its two types, three
functions and four exports are among those that the scan accepts, and a module that has no
imports needs no capability.
-/

import Mathlib.Data.List.Forall2
import EspContainer.Tools.GuestAcceptance
import EspContainer.Tools.HostAdmission

namespace Tools

open Binary Package Wasm

/-! ## Loops -/

/-- A loop that may fail, as a part of a loop that fails less often. -/
theorem foldlM_of_imp {σ α : Type} {first second : σ → α → Option σ}
    (himp : ∀ state value next, first state value = some next → second state value = some next)
    {values : List α} {state last : σ} (hfirst : values.foldlM first state = some last) :
    values.foldlM second state = some last := by
  induction values generalizing state with
  | nil => exact hfirst
  | cons value values ih =>
      rw [List.foldlM_cons] at hfirst ⊢
      obtain ⟨next, hnext, hrest⟩ := Option.bind_eq_some_iff.mp hfirst
      rw [himp state value next hnext]
      exact ih hrest

/-- Every index was looked up. -/
theorem mapM_getElem?_eq_some {α : Type} {list : List α} {indexes : List Nat} {found : List α} :
    indexes.mapM (list[·]?) = some found ↔
      List.Forall₂ (fun index value => list[index]? = some value) indexes found := by
  induction indexes generalizing found with
  | nil => simp [eq_comm]
  | cons index indexes ih =>
      rw [List.mapM_cons, List.forall₂_cons_left_iff]
      constructor
      · intro hfound
        obtain ⟨value, hvalue, hrest⟩ := Option.bind_eq_some_iff.mp hfound
        obtain ⟨values, hvalues, hpure⟩ := Option.bind_eq_some_iff.mp hrest
        cases hpure
        exact ⟨value, values, hvalue, ih.mp hvalues, rfl⟩
      · rintro ⟨value, values, hvalue, hvalues, rfl⟩
        rw [hvalue, ih.mpr hvalues]
        rfl

/-! ## Sections -/

namespace Guest

variable {data : List UInt8}

/-- What the loop over the sections makes of one. -/
def sectionChange (seen : SeenSections) (entry : UInt8 × List UInt8) : Option SeenSections :=
  if entry.1 == 0 then
    match (Parser.sized entry.2).bind fun found => (GuestReader.decodeUtf8 found.1).toOption with
    | none => none
    | some custom => if ["name", "producers"].contains custom then some seen else none
  else if sectionNumbers.contains entry.1 && !(entry.1 ≤ seen.2) then some (entry :: seen.1, entry.1)
  else none

theorem run_guestName (content : List UInt8) :
    (Reads.run (GuestReader.name content)).toOption =
      (Parser.sized content).bind fun found => (GuestReader.decodeUtf8 found.1).toOption := by
  apply toOption_eq_of_iff
  intro name
  rw [obeys_guestName.run_eq_ok, Option.bind_eq_some_iff]
  simp only [Parser.bind_eq_some, Parser.given_eq_some]
  constructor
  · rintro ⟨rest, bytes, _, hbytes, hname, rfl⟩
    exact ⟨(bytes, rest), hbytes, hname⟩
  · rintro ⟨⟨bytes, rest⟩, hbytes, hname⟩
    exact ⟨rest, bytes, rest, hbytes, hname, rfl⟩

theorem obeys_sectionStep (seen : SeenSections) :
    Obeys data (sectionStep data seen)
      (Parser.sectionEntry >>= fun entry => Parser.given (sectionChange seen entry)) := by
  have hparser : (Parser.sectionEntry >>= fun entry => Parser.given (sectionChange seen entry)) =
      (do
        let number ← Parser.item
        let content ← Parser.sized
        if number == 0 then do
          let custom ← Parser.given (Reads.run (GuestReader.name content)).toOption
          Parser.ensure (!!(["name", "producers"].contains custom))
          pure (seen.1, seen.2)
        else do
          Parser.ensure (!(!sectionNumbers.contains number || number ≤ seen.2))
          pure ((number, content) :: seen.1, number)) := by
    simp only [Parser.sectionEntry, bind_assoc, pure_bind]
    refine bind_congr fun number => bind_congr fun content => ?_
    rw [sectionChange, run_guestName]
    by_cases hcustom : (number == 0) = true
    · rw [if_pos hcustom, if_pos hcustom]
      cases (Parser.sized content).bind fun found => (GuestReader.decodeUtf8 found.1).toOption with
      | none => rfl
      | some custom =>
          change Parser.given (if (["name", "producers"].contains custom) = true then some seen
            else none) = (Parser.ensure (!!(["name", "producers"].contains custom)) >>= fun _ =>
              pure (seen.1, seen.2))
          cases ["name", "producers"].contains custom <;> rfl
    · rw [if_neg hcustom, if_neg hcustom, Bool.not_or, Bool.not_not]
      change Parser.given (if (sectionNumbers.contains number && !(number ≤ seen.2)) = true then
        some ((number, content) :: seen.1, number) else none) = (Parser.ensure
          (sectionNumbers.contains number && !(number ≤ seen.2)) >>= fun _ =>
            pure ((number, content) :: seen.1, number))
      cases sectionNumbers.contains number && !decide (number ≤ seen.2) <;> rfl
  rw [hparser]
  apply obeys_guestByte.bind
  intro number
  apply obeys_guestTakeSized.bind
  intro content
  by_cases hcustom : (number == 0) = true
  · rw [if_pos hcustom, if_pos hcustom]
    exact (obeys_lift _).bind fun custom => (obeys_refuseWhen _ _).bind fun _ => obeys_pure _
  · rw [if_neg hcustom, if_neg hcustom]
    exact (obeys_refuseWhen _ _).bind fun _ => obeys_pure _

/-- The custom sections that the checker knows are not the one that the scan refuses. -/
theorem utf8_customs {custom : String} (hknown : ["name", "producers"].contains custom = true) :
    (utf8 custom == ascii "target_features") = false := by
  rw [List.contains_iff_mem] at hknown
  simp only [List.mem_cons, List.not_mem_nil, or_false] at hknown
  rcases hknown with rfl | rfl
  · decide
  · decide

/-- The numbers that the checker knows are not those that the scan refuses. -/
theorem known_sections {number : UInt8} (hknown : number ∈ sectionNumbers) :
    ([4, 8, 9].contains number || decide (number > 12)) = false := by
  have hall : (sectionNumbers.all fun number => !([4, 8, 9].contains number || number > 12)) = true := by
    decide
  rw [List.all_eq_true] at hall
  exact (Bool.not_eq_true' _).mp (hall number hknown)

/-- What the host's scan makes of a section that the checker accepts. -/
theorem sectionChange_refines {seen next : SeenSections} {entry : UInt8 × List UInt8}
    (hchange : sectionChange seen entry = some next) : Tools.sectionChange seen entry = some next := by
  obtain ⟨number, content⟩ := entry
  rw [sectionChange] at hchange
  rw [Tools.sectionChange]
  by_cases hcustom : (number == 0) = true
  · obtain rfl : number = 0 := beq_iff_eq.mp hcustom
    rw [if_pos hcustom] at hchange
    rw [if_neg (show ¬([4, 8, 9].contains (0 : UInt8) || decide ((0 : UInt8) > 12)) = true by decide),
      if_pos hcustom]
    cases hname : (Parser.sized content).bind fun found =>
        (GuestReader.decodeUtf8 found.1).toOption with
    | none =>
        rw [hname] at hchange
        cases hchange
    | some custom =>
        rw [hname] at hchange
        obtain ⟨⟨bytes, rest⟩, hbytes, hdecoded⟩ := Option.bind_eq_some_iff.mp hname
        obtain rfl : utf8 custom = bytes := decoded_eq_some.mp hdecoded
        change (if ["name", "producers"].contains custom = true then some seen else none) = _ at hchange
        rw [hbytes]
        change (if (utf8 custom == ascii "target_features") = true then none else some seen) = _
        by_cases hknown : ["name", "producers"].contains custom = true
        · rw [if_pos hknown] at hchange
          rw [utf8_customs hknown]
          exact hchange
        · rw [if_neg hknown] at hchange
          cases hchange
  · rw [if_neg hcustom] at hchange
    by_cases hnumber : (sectionNumbers.contains number && !decide (number ≤ seen.2)) = true
    · rw [if_pos hnumber] at hchange
      rw [Bool.and_eq_true, Bool.not_eq_true', decide_eq_false_iff_not, List.contains_iff_mem] at hnumber
      rw [known_sections hnumber.1, if_neg Bool.false_ne_true, if_neg hcustom, if_neg hnumber.2]
      exact hchange
    · rw [if_neg hnumber] at hchange
      cases hchange

/-- The loop of `check_wasm` and the header before it. -/
theorem sections_eq_ok {seen : SeenSections} :
    Reads.run (do
      let header ← GuestReader.take data 8
      refuseWhen (header != wasmHeader) "不是标准 Wasm v1 模块"
      untilEnd data (sectionStep data) data.length ([], 0)) = .ok seen ↔
      ∃ content found, data = wasmHeader ++ content ∧ sections content = some found ∧
        found.foldlM sectionChange ([], 0) = some seen := by
  apply Iff.trans (Obeys.run_eq_ok ?hobeys)
  case hobeys =>
    apply (obeys_guestTake 8).bind
    intro header
    apply (obeys_refuseWhen _ _).bind
    intro _
    exact obeys_untilEnd obeys_sectionStep data.length ([], 0)
  simp only [Parser.bind_eq_some, Parser.take_eq_some, Parser.ensure_eq_some, Parser.given_eq_some,
    Bool.not_eq_true', bne_eq_false_iff_eq]
  constructor
  · rintro ⟨rest, _, _, ⟨-, hdata⟩, _, content, ⟨rfl, rfl⟩, found, _, hfound, hseen, rfl⟩
    refine ⟨content, found, hdata, ?_, hseen⟩
    apply (many_sectionEntry_eq_some _).mp ⟨rest, hfound⟩
    rw [hdata, List.length_append]
    exact Nat.le_add_left _ _
  · rintro ⟨content, found, hdata, hfound, hseen⟩
    have hrounds : content.length ≤ data.length := by
      rw [hdata, List.length_append]
      exact Nat.le_add_left _ _
    obtain ⟨rest, hmany⟩ := (many_sectionEntry_eq_some hrounds).mpr hfound
    exact ⟨rest, wasmHeader, content, ⟨rfl, hdata⟩, (), content, ⟨rfl, rfl⟩, found, rest, hmany,
      hseen, rfl⟩

end Guest

/-! ## Entry points -/

/-- A function of the checker's list is one that the host finds behind its index. -/
theorem exists_function {types : List FuncType} {functions : List Nat} {found : List FuncType}
    (hfound : functions.mapM (types[·]?) = some found) {index : Nat} {type : FuncType}
    (htype : found[index]? = some type) :
    ∃ function, functions[index]? = some function ∧ types[function]? = some type := by
  have hall := mapM_getElem?_eq_some.mp hfound
  obtain ⟨hindex, rfl⟩ := List.getElem?_eq_some_iff.mp htype
  have hfunction : index < functions.length := hall.length_eq ▸ hindex
  exact ⟨functions[index], List.getElem?_eq_getElem hfunction, hall.get hfunction hindex⟩

/-- Every index is the index of a type. -/
theorem lt_of_mapM {types : List FuncType} {functions : List Nat} {found : List FuncType}
    (hfound : functions.mapM (types[·]?) = some found) : ∀ index ∈ functions, index < types.length := by
  intro index hindex
  obtain ⟨position, hposition, rfl⟩ := List.mem_iff_getElem.mp hindex
  have hall := mapM_getElem?_eq_some.mp hfound
  have htype := hall.get hposition (hall.length_eq ▸ hposition)
  exact (List.getElem?_eq_some_iff.mp htype).1

/-! ## Modules -/

/-- The two types that the checker asks for have known value types. -/
theorem knownTypes_of_sameElements {types : List FuncType}
    (hsame : Guest.sameElements types (Guest.exportTypes.map Prod.snd) = true) :
    ∀ type ∈ types, knownTypes type = true := by
  have hall : ∀ type ∈ Guest.exportTypes.map Prod.snd, knownTypes type = true := by decide
  intro type htype
  exact hall type ((Guest.mem_iff_of_sameElements hsame).mp htype)

/-- Every module that the checker of the sample guest accepts is one that the host's scan
accepts under any limit of at least the guest's memory, and the scan finds that it needs no
capability. -/
theorem guest_refines_scan (data : List UInt8) (maxMemoryBytes : Nat)
    (hlength : data.length ≤ 524288) (hlimit : 131072 ≤ maxMemoryBytes)
    (hchecked : Guest.checkWasm data = .ok ()) : wasmScan data maxMemoryBytes = .ok ∅ := by
  simp only [Guest.checkWasm, checked_bind_eq_ok, refuseIf_eq_ok, entryAt_eq_ok,
    Guest.sections_eq_ok, Guest.types_eq_ok, Guest.functions_eq_ok, Guest.code_eq_ok] at hchecked
  obtain ⟨seen, ⟨content, found, rfl, hfound, hseen⟩, _, hcomplete, typeSection, htypeSection,
    types, ⟨htypes, hsame, -⟩, functionSection, hfunctionSection, functionTypes,
    ⟨⟨functions, hfunctions, hfunctionTypes⟩, -⟩, memorySection, hmemorySection, _, hmemory, _, -, _,
    -, exportSection, hexportSection, _, hexports, codeSection, hcodeSection, hcode⟩ := hchecked
  rw [Bool.not_eq_false'] at hcomplete
  obtain ⟨entries, init, onEvent, stop, hentries, hexportsOf, hpoints⟩ := Guest.exports_sound hexports
  have hsections : Reads.run (untilEnd content (wasmSection content) content.length ([], 0)) =
      .ok seen :=
    wasmSections_eq_ok.mpr ⟨found, hfound, foldlM_of_imp (fun _ _ _ => Guest.sectionChange_refines) hseen⟩
  have himports : seen.1.lookup 2 = none := by
    apply Option.not_isSome_iff_eq_none.mp
    intro hsome
    have hnumber := (Guest.mem_iff_of_sameElements hcomplete).mp (lookup_isSome_iff_mem.mp hsome)
    exact absurd hnumber (by decide)
  have hfunctionCount : functionTypes.length = functions.length :=
    (mapM_getElem?_eq_some.mp hfunctionTypes).length_eq.symm
  have hsignatures : checkSignatures types 0 functions
      [(init, ([], [0x7f])), (onEvent, ([0x7f, 0x7f], [0x7f])), (stop, ([], [0x7f]))] = .ok () := by
    rw [checkSignatures_eq_ok]
    simp only [List.forall_mem_cons, List.not_mem_nil, false_implies, implies_true, and_true]
    exact ⟨⟨Nat.zero_le _, exists_function hfunctionTypes hpoints.initType⟩,
      ⟨Nat.zero_le _, exists_function hfunctionTypes hpoints.onEventType⟩,
      ⟨Nat.zero_le _, exists_function hfunctionTypes hpoints.stopType⟩⟩
  have hwithin : wasmMemory memorySection maxMemoryBytes = .ok () := by
    rw [wasmMemory_eq_ok]
    refine ⟨_, Guest.memory_eq_ok.mp hmemory, rfl, rfl, by decide, Nat.le_refl _, ?_⟩
    exact (Nat.le_div_iff_mul_le (by decide)).mpr hlimit
  simp only [wasmScan, checked_bind_eq_ok, refuseIf_eq_ok, entryAt_eq_ok, wasmTypes_eq_ok,
    wasmFunctions_eq_ok, checked_pure_eq_ok]
  refine ⟨(), ?bound, (), ?header, seen, ?sections, (), ?required, typeSection, htypeSection, types,
    ⟨htypes, knownTypes_of_sameElements hsame⟩, (∅, 0), ?imports, functionSection, hfunctionSection,
    functions, ⟨hfunctions, lt_of_mapM hfunctionTypes⟩, exportSection, hexportSection,
    (init, onEvent, stop), wasmExports_eq_ok.mpr ⟨entries, hentries, hexportsOf⟩, (), ?distinct, (),
    hsignatures, memorySection, hmemorySection, (), hwithin, codeSection, hcodeSection, (),
    wasmCode_eq_ok.mpr (hfunctionCount ▸ hcode), rfl⟩
  case bound => exact decide_eq_false (Nat.not_lt.mpr hlength)
  case header =>
    rw [Bool.not_eq_false', List.isPrefixOf_iff_prefix]
    exact List.prefix_append _ _
  case sections => exact hsections
  case required =>
    rw [Bool.not_eq_false', List.all_eq_true]
    intro number hnumber
    rw [lookup_isSome_iff_mem, Guest.mem_iff_of_sameElements hcomplete]
    have hall : ([1, 3, 5, 7, 10].all fun number => Guest.sectionNumbers.contains number) = true := by
      decide
    exact List.contains_iff_mem.mp (List.all_eq_true.mp hall number hnumber)
  case imports => rw [himports]; rfl
  case distinct => exact bne_eq_false_iff_eq.mpr hpoints.distinct

/-- A guest with three functions that return at once. -/
theorem guest_refines_scan_returning :
    wasmScan
      (wasmHeader ++ [1, 11, 2, 0x60, 0, 1, 0x7f, 0x60, 2, 0x7f, 0x7f, 1, 0x7f] ++
        [3, 4, 3, 0, 1, 0] ++ [5, 4, 1, 1, 2, 2] ++ [6, 7, 1, 0x7f, 1, 0x41, 0x80, 0x20, 0x0b] ++
        [7, 68, 4] ++ 6 :: ascii "memory" ++ [2, 0] ++ 15 :: ascii "econtainer_init" ++ [0, 0] ++
        19 :: ascii "econtainer_on_event" ++ [0, 1] ++ 15 :: ascii "econtainer_stop" ++ [0, 2] ++
        [10, 10, 3, 2, 0, 0x0b, 2, 0, 0x0b, 2, 0, 0x0b]) 131072 = .ok ∅ :=
  guest_refines_scan _ 131072 (by decide +kernel) (Nat.le_refl _) (by decide +kernel)

end Tools
