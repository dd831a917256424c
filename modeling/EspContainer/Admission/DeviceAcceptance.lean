/-
# What the package's scanner accepts

Each scanning function of `package_wasm.c` follows the parser of its section. What it
accepts is a property of the items of the section, in the words in which the host's scan
was described.
-/

import EspContainer.Admission.Readers
import EspContainer.Tools.HostAcceptance

namespace Package

open Binary Interaction Wasm

variable {wasm content : List UInt8} {part : WasmSection}

/-- A section lies in the payload and has this content. -/
structure WasmSection.Placed (wasm : List UInt8) (part : WasmSection) (content : List UInt8) :
    Prop where
  present : part.present = true
  order : part.beginOffset ≤ part.endOffset
  bound : part.endOffset ≤ wasm.length
  content : (wasm.take part.endOffset).drop part.beginOffset = content

/-- A scanning function that goes from the beginning of a section to its end. -/
theorem scanOver_eq_ok_of_ends {α : Type} {start stop : Nat} {step : Nat → Scan α}
    {parser : Parser α} (horder : start ≤ stop) (hbound : stop ≤ wasm.length)
    (hends : ScanEnds wasm stop step parser) {value : α} :
    scanOver wasm (step start) = .ok value ↔
      Parser.whole parser ((wasm.take stop).drop start) = some value := by
  apply hends.eq_ok
  rw [List.length_take_of_le hbound]
  exact horder

/-! ## Memory and code -/

/-- `scan_memory`. -/
theorem scanMemory_eq_ok (hpart : part.Placed wasm content) {limitBytes : Nat} :
    scanOver wasm (scanMemory part limitBytes) = .ok () ↔
      ∃ memory, Parser.whole .memory content = some memory ∧
        Tools.MemoryWithin limitBytes memory := by
  obtain ⟨start, stop, present⟩ := part
  obtain ⟨-, horder, hbound, rfl⟩ := hpart
  rw [scanMemory]
  dsimp +instances only at horder hbound ⊢
  apply Iff.trans (scanOver_eq_ok_of_ends horder hbound ?hends)
  case hends =>
    apply tracks_nextU32.bind_ends
    intro count
    dsimp +instances only
    apply ends_scanRequire
    apply tracks_nextU32.bind_ends
    intro flags
    dsimp +instances only
    apply ends_scanRequire
    apply tracks_nextU32.bind_ends
    intro minimum
    dsimp +instances only
    apply ends_scanRequire
    apply tracks_nextU32.bind_ends
    intro maximum
    dsimp +instances only
    exact ends_scanEnd hbound
  simp only [Parser.whole_eq_some, Parser.bind_eq_some, Parser.ensure_eq_some, Parser.memory,
    Parser.pure_eq_some, Prod.mk.injEq, Tools.MemoryWithin]
  constructor
  · rintro ⟨count, _, hcount, _, _, ⟨hone, rfl⟩, flags, _, hflags, _, _, ⟨hshared, rfl⟩, minimum, _,
      hminimum, _, _, ⟨hpositive, rfl⟩, maximum, _, hmaximum, hwithin, rfl⟩
    refine ⟨⟨count, flags, minimum, maximum⟩, ⟨count, _, hcount, flags, _, hflags, minimum, _,
      hminimum, maximum, _, hmaximum, rfl, rfl⟩, ?_⟩
    simp at hone hshared hpositive hwithin
    exact ⟨hone, hshared, hpositive, hwithin.1, hwithin.2⟩
  · rintro ⟨memory, ⟨count, _, hcount, flags, _, hflags, minimum, _, hminimum, maximum, _, hmaximum,
      rfl, rfl⟩, rfl, rfl, hpositive, hordered, hwithin⟩
    refine ⟨1, _, hcount, (), _, ⟨rfl, rfl⟩, 1, _, hflags, (), _, ⟨rfl, rfl⟩, minimum, _, hminimum, (),
      _, ⟨decide_eq_true hpositive, rfl⟩, maximum, [], hmaximum, ?_, rfl⟩
    rw [Bool.and_eq_true]
    exact ⟨decide_eq_true hordered, decide_eq_true hwithin⟩

/-- The last byte of a part of the payload. -/
theorem getLast?_part {cursor size : Nat} (hpositive : 0 < size) (hpart : cursor + size ≤ wasm.length) :
    ((wasm.drop cursor).take size).getLast? = some (wasm.getD (cursor + size - 1) 0) := by
  have hindex : cursor + (size - 1) < wasm.length := by omega
  rw [List.getLast?_eq_getElem?, List.length_take, List.length_drop, Nat.min_eq_left (by omega),
    List.getElem?_take_of_lt (by omega), List.getElem?_drop, List.getElem?_eq_getElem hindex,
    Nat.add_sub_assoc hpositive, List.getD_eq_getElem _ _ hindex]

/-- The body of the loop of `scan_code`. -/
theorem moves_body {stop : Nat} (hstop : stop ≤ wasm.length) :
    Moves (payloadByte wasm) (wasm.take stop)
      (fun cursor => do
        let (size, cursor) ← nextU32 stop cursor
        scanRequire (!(size < 2 || size > stop - cursor))
        let endOpcode ← byteAt (cursor + size - 1)
        scanRequire (endOpcode == 0x0b)
        pure (cursor + size))
      (Parser.sized >>= fun body => Parser.given (Tools.bodyChange () body)) := by
  have hlength : (wasm.take stop).length = stop := List.length_take_of_le hstop
  rw [Parser.sized, bind_assoc]
  apply tracks_nextU32.bind_moves
  intro size
  apply @follows_take _ _ size fun body cursor =>
    (Tools.bodyChange () body).map fun value => (value, cursor)
  · intro cursor _ hshort
    rw [hlength] at hshort
    rw [ranAt]
    dsimp +instances only
    rw [decide_eq_true (show size > stop - cursor from hshort), Bool.or_true]
    rfl
  · intro cursor hfits
    rw [hlength] at hfits
    rw [ranAt]
    dsimp +instances only
    rw [take_drop_take hfits, decide_eq_false (show ¬ size > stop - cursor by omega), Bool.or_false,
      Tools.bodyChange, Tools.wellEnded, List.length_take, List.length_drop,
      Nat.min_eq_left (by omega)]
    by_cases hsize : size < 2
    · rw [decide_eq_true hsize, decide_eq_false (show ¬ 2 ≤ size by omega)]
      rfl
    · rw [decide_eq_false hsize, decide_eq_true (show 2 ≤ size by omega), Bool.true_and,
        getLast?_part (by omega) (by omega)]
      have hbyte : Fallible.eval (payloadByte wasm) (byteAt (cursor + size - 1)) =
          .ok (wasm.getD (cursor + size - 1) 0) := scanOver_byteAt (by omega)
      simp only [scanRequire, Fallible.eval_bind, Fallible.eval_require, hbyte]
      generalize wasm.getD (cursor + size - 1) 0 = last
      by_cases hend : last = 0x0b
      · subst hend
        rfl
      · have hother : (last == 0x0b) = false := beq_eq_false_iff_ne.mpr hend
        rw [Option.some_beq_some, hother]
        change (((if (last == 0x0b) = true then Except.ok () else .error .failed) >>= fun _ =>
          (.ok (cursor + size) : Except Stop Nat)) >>= fun after => .ok ((), after)).toOption = none
        rw [hother]
        rfl
  · exact fun body => follows_given _

/-- `scan_code`. -/
theorem scanCode_eq_ok (hpart : part.Placed wasm content) {definedCount : Nat} :
    scanOver wasm (scanCode part definedCount) = .ok () ↔ Tools.CodeOf definedCount content := by
  obtain ⟨start, stop, present⟩ := part
  obtain ⟨-, horder, hbound, rfl⟩ := hpart
  have hlength : (wasm.take stop).length = stop := List.length_take_of_le hbound
  rw [scanCode]
  dsimp +instances only at horder hbound ⊢
  apply Iff.trans (scanOver_eq_ok_of_ends horder hbound ?hends)
  case hends =>
    apply tracks_nextU32.bind_ends
    intro count
    dsimp +instances only
    apply ends_scanLeft hbound fun left => !(count != definedCount || count > left)
    apply (moves_counted (fun _ => moves_body hbound) count).bind_ends
    exact @ends_scanEnd _ _ true hbound
  rw [Parser.whole_eq_some]
  simp only [Tools.CodeOf, Parser.whole_vector_eq_some, Parser.bind_eq_some,
    Parser.remaining_eq_some, Parser.ensure_eq_some, Parser.given_eq_some]
  constructor
  · rintro ⟨count, middle, hcount, _, _, hleft, _, _, ⟨hchecked, rfl⟩, _, _, ⟨bodies, _, hbodies,
      hended, rfl⟩, -, rfl⟩
    obtain ⟨-, rfl⟩ := Prod.mk.inj hleft
    rw [Bool.not_or, Bool.and_eq_true, bne, Bool.not_not, beq_iff_eq] at hchecked
    obtain ⟨rfl, -⟩ := hchecked
    exact ⟨bodies, ⟨count, _, hcount, hbodies⟩, Parser.length_of_times hbodies,
      Tools.foldlM_bodyChange.mp hended⟩
  · rintro ⟨bodies, ⟨count, middle, hcount, hbodies⟩, rfl, hended⟩
    obtain rfl := Parser.length_of_times hbodies
    have hfits := Parser.takes_sized.times_le hbodies
    refine ⟨_, middle, hcount, _, _, rfl, (), middle, ⟨?_, rfl⟩, (), [], ⟨bodies, [], hbodies,
      Tools.foldlM_bodyChange.mpr hended, rfl⟩, trivial, rfl⟩
    rw [bne_self_eq_false, Bool.false_or, Bool.not_eq_true', decide_eq_false_iff_not]
    rw [List.length_nil] at hfits
    omega

/-! ## Functions and types -/

/-- The body of the loop of `function_type`. -/
theorem tracks_functionIndex {stop wanted typeCount : Nat} (index kept : Nat) :
    ScanTracks wasm stop
      (fun cursor => do
        let (current, cursor) ← nextU32 stop cursor
        scanRequire (!(current ≥ typeCount))
        pure (if index == wanted then current else kept, cursor))
      (Parser.number >>= fun current => Parser.given
        (selecting (fun current => !(current ≥ typeCount)) (fun current => current) wanted index kept
          current)) := by
  simp only [selecting, ← Parser.ensure_pure]
  apply tracks_nextU32.bind
  intro current
  dsimp +instances only
  apply tracks_scanRequire
  exact tracks_pure _

/-- `function_type`. -/
theorem functionType_eq_ok (hpart : part.Placed wasm content) {wanted typeCount : Nat}
    {found : Nat × Nat} :
    scanOver wasm (functionType part wanted typeCount) = .ok found ↔
      ∃ functions, Parser.whole (.vector .number) content = some functions ∧
        (∀ index ∈ functions, index < typeCount) ∧ functions[wanted]? = some found.1 ∧
        functions.length = found.2 := by
  obtain ⟨start, stop, present⟩ := part
  obtain ⟨-, horder, hbound, rfl⟩ := hpart
  rw [functionType]
  dsimp +instances only at horder hbound ⊢
  apply Iff.trans (scanOver_eq_ok_of_ends horder hbound ?hends)
  case hends =>
    apply tracks_nextU32.bind_ends
    intro count
    dsimp +instances only
    apply ends_scanLeft hbound fun left => !(count > left || wanted ≥ count)
    apply (tracks_counted (tracks_functionIndex) count 0).bind_ends
    intro typeIndex
    dsimp +instances only
    exact Ends.returning (@ends_scanEnd _ _ true hbound) (typeIndex, count)
  rw [Parser.whole_eq_some]
  obtain ⟨typeIndex, definedCount⟩ := found
  simp only [Parser.whole_vector_eq_some, Parser.bind_eq_some, Parser.remaining_eq_some,
    Parser.ensure_eq_some, Parser.given_eq_some, Parser.pure_eq_some, foldFrom_selecting,
    Prod.mk.injEq]
  constructor
  · rintro ⟨count, middle, hcount, _, _, ⟨rfl, rfl⟩, _, _, ⟨hchecked, rfl⟩, _, _, ⟨functions, _,
      hfunctions, ⟨hbounded, rfl⟩, rfl⟩, _, _, ⟨-, rfl⟩, ⟨rfl, rfl⟩, rfl⟩
    have hdefined := Parser.length_of_times hfunctions
    have hwanted : wanted < functions.length := by
      rw [Bool.not_or, Bool.and_eq_true, Bool.not_eq_true', Bool.not_eq_true',
        decide_eq_false_iff_not, decide_eq_false_iff_not] at hchecked
      omega
    refine ⟨functions, ⟨_, _, hcount, hfunctions⟩, ?_, ?_, hdefined⟩
    · intro index hindex
      have hless := hbounded index hindex
      rw [Bool.not_eq_true', decide_eq_false_iff_not] at hless
      exact Nat.not_le.mp hless
    · rw [List.getElem?_eq_getElem hwanted]
      rfl
  · rintro ⟨functions, ⟨count, middle, hcount, hfunctions⟩, hbounded, hwanted, rfl⟩
    obtain rfl := Parser.length_of_times hfunctions
    have hfits := Parser.takes_number.times_le hfunctions
    rw [List.length_nil, Nat.add_zero] at hfits
    have hless := (List.getElem?_eq_some_iff.mp hwanted).1
    refine ⟨_, middle, hcount, _, _, ⟨rfl, rfl⟩, (), middle, ⟨?_, rfl⟩, typeIndex, [], ⟨functions, [],
      hfunctions, ⟨?_, ?_⟩, rfl⟩, (), [], ⟨trivial, rfl⟩, ⟨rfl, rfl⟩, rfl⟩
    · rw [decide_eq_false (Nat.not_lt.mpr hfits), decide_eq_false (Nat.not_le.mpr hless)]
      rfl
    · intro index hindex
      rw [decide_eq_false (Nat.not_le.mpr (hbounded index hindex))]
      rfl
    · rw [hwanted]
      rfl

/-- What the loop over the value types of a list does with one. -/
def typeChange (expected : List UInt8) (part : Nat) (matching : Bool) (type : UInt8) : Option Bool :=
  if valueType type then some (matching && type == expected.getD part 0) else none

theorem foldFrom_typeChange {expected list : List UInt8} {index : Nat} {matching : Bool}
    (hmatching : matching = true → index + list.length = expected.length) :
    foldFrom (typeChange expected) index matching list =
      if list.all valueType then some (matching && list == expected.drop index) else none := by
  induction list generalizing index matching with
  | nil =>
      cases matching with
      | false => rfl
      | true =>
          have hrest : expected.drop index = [] :=
            List.drop_of_length_le (hmatching rfl).symm.le
          rw [hrest]
          rfl
  | cons type list ih =>
      rw [foldFrom, typeChange, List.all_cons]
      by_cases htype : valueType type = true
      · rw [if_pos htype, htype, Bool.true_and, Option.bind_some, ih]
        · congr 2
          cases matching with
          | false => rw [Bool.false_and, Bool.false_and, Bool.false_and]
          | true =>
              have hindex : index < expected.length := by
                have hlength := hmatching rfl
                rw [List.length_cons] at hlength
                omega
              rw [List.drop_eq_getElem_cons hindex, List.cons_beq_cons,
                List.getD_eq_getElem _ _ hindex, Bool.true_and, Bool.true_and]
        · intro hboth
          rw [Bool.and_eq_true] at hboth
          have hlength := hmatching hboth.1
          rw [List.length_cons] at hlength
          omega
      · rw [if_neg htype, Bool.eq_false_iff.mpr htype, Bool.false_and, if_neg Bool.false_ne_true]
        rfl

/-- A list of value types and whether it is the expected one. -/
def matchingList (count : Nat) (expected : List UInt8) (matching : Bool) : Parser Bool := do
  let list ← Parser.take count
  Parser.ensure (list.all valueType)
  pure (matching && list == expected)

/-- One of the two lists of a type. The comparison says something only where the list has the
length of the expected one. -/
theorem tracks_typeList {stop count : Nat} {expected : List UInt8} {matching : Bool}
    (hmatching : matching = true → count = expected.length) :
    ScanTracks wasm stop (fun cursor => typeList stop count expected matching cursor)
      (matchingList count expected matching) := by
  have hparser : matchingList count expected matching =
      Parser.times Parser.item count >>= fun list =>
        Parser.given (foldFrom (typeChange expected) 0 matching list) := by
    rw [Parser.times_item, matchingList]
    apply Parser.take_bind_congr
    intro list hlength
    rw [Parser.ensure_pure, foldFrom_typeChange, List.drop_zero]
    intro hmatched
    rw [Nat.zero_add, hlength, hmatching hmatched]
  rw [hparser]
  apply tracks_counted
  intro part matching
  simp only [typeChange, ← Parser.ensure_pure]
  apply tracks_nextByte.bind
  intro type
  dsimp +instances only
  apply tracks_scanRequire
  exact tracks_pure _

/-- The body of the loop of `type_matches`. -/
theorem tracks_type {stop wanted : Nat} (hstop : stop ≤ wasm.length) (params results : List UInt8)
    (index : Nat) (found : Bool) :
    ScanTracks wasm stop
      (fun cursor => do
        let (form, cursor) ← nextByte stop cursor
        scanRequire (form == 0x60)
        let (paramCount, cursor) ← nextU32 stop cursor
        scanRequire (!(paramCount > stop - cursor))
        let matching := index == wanted && paramCount == params.length
        let (matching, cursor) ← typeList stop paramCount params matching cursor
        let (resultCount, cursor) ← nextU32 stop cursor
        scanRequire (!(resultCount > stop - cursor))
        let matching := matching && resultCount == results.length
        let (matching, cursor) ← typeList stop resultCount results matching cursor
        pure (if index == wanted then matching else found, cursor))
      (Parser.funcType >>= fun type => Parser.given
        (selecting Tools.knownTypes (fun type => type == (params, results)) wanted index found
          type)) := by
  have hparser : (Parser.funcType >>= fun type => Parser.given
        (selecting Tools.knownTypes (fun type => type == (params, results)) wanted index found
          type)) =
      (do
        let form ← Parser.item
        Parser.ensure (form == 0x60)
        let paramCount ← Parser.number
        let left ← Parser.remaining
        Parser.ensure (!(paramCount > left))
        let matching ← matchingList paramCount params (index == wanted && paramCount == params.length)
        let resultCount ← Parser.number
        let left ← Parser.remaining
        Parser.ensure (!(resultCount > left))
        let matching ← matchingList resultCount results (matching && resultCount == results.length)
        pure (if index == wanted then matching else found)) := by
    simp only [matchingList, Parser.funcType, Parser.sized, bind_assoc, pure_bind,
      Parser.remaining_take]
    refine bind_congr fun form => bind_congr fun _ => bind_congr fun paramCount => ?_
    apply Parser.take_bind_congr
    intro first hfirst
    -- The first list is checked before the second one is read.
    rw [Parser.ensure, Parser.given_bind_comm]
    refine bind_congr fun resultCount => ?_
    rw [Parser.given_bind_comm]
    apply Parser.take_bind_congr
    intro second hsecond
    rw [Parser.ensure_pure, selecting, Tools.knownTypes, List.all_append]
    have hmatching : (index == wanted && paramCount == params.length && first == params &&
        resultCount == results.length && second == results) =
        (index == wanted && (first, second) == (params, results)) := by
      rw [Bool.eq_iff_iff]
      simp only [Bool.and_eq_true, beq_iff_eq, Prod.mk.injEq]
      constructor
      · rintro ⟨⟨⟨⟨hwanted, -⟩, hparams⟩, -⟩, hresults⟩
        exact ⟨hwanted, hparams, hresults⟩
      · rintro ⟨hwanted, rfl, rfl⟩
        exact ⟨⟨⟨⟨hwanted, hfirst.symm⟩, rfl⟩, hsecond.symm⟩, rfl⟩
    rw [hmatching]
    dsimp only
    cases index == wanted <;> cases first.all valueType <;> cases second.all valueType <;> rfl
  rw [hparser]
  apply tracks_nextByte.bind
  intro form
  dsimp +instances only
  apply tracks_scanRequire
  apply tracks_nextU32.bind
  intro paramCount
  dsimp +instances only
  apply tracks_scanLeft hstop
  apply (tracks_typeList ?_).bind
  · intro matching
    dsimp +instances only
    apply tracks_nextU32.bind
    intro resultCount
    dsimp +instances only
    apply tracks_scanLeft hstop
    apply (tracks_typeList ?_).bind
    · intro matching
      dsimp only
      exact tracks_pure _
    · intro hmatching
      rw [Bool.and_eq_true, beq_iff_eq] at hmatching
      exact hmatching.2
  · intro hmatching
    rw [Bool.and_eq_true, beq_iff_eq, beq_iff_eq] at hmatching
    exact hmatching.2

/-- `type_matches`. -/
theorem typeMatches_eq_ok (hpart : part.Placed wasm content) {wanted : Nat}
    {params results : List UInt8} :
    scanOver wasm (typeMatches part wanted params results) = .ok () ↔
      ∃ types, Parser.whole (.vector .funcType) content = some types ∧
        (∀ type ∈ types, Tools.knownTypes type = true) ∧ types[wanted]? = some (params, results) := by
  obtain ⟨start, stop, present⟩ := part
  obtain ⟨rfl, horder, hbound, rfl⟩ := hpart
  rw [typeMatches]
  dsimp +instances only at horder hbound ⊢
  change scanOver wasm (nextU32 stop start >>= _) = _ ↔ _
  apply Iff.trans (scanOver_eq_ok_of_ends horder hbound ?hends)
  case hends =>
    apply tracks_nextU32.bind_ends
    intro count
    dsimp +instances only
    apply ends_scanLeft hbound fun left => !(count > left)
    apply (tracks_counted (tracks_type hbound params results) count false).bind_ends
    intro found
    dsimp +instances only
    exact ends_scanEnd_and hbound
  rw [Parser.whole_eq_some]
  simp only [Parser.whole_vector_eq_some, Parser.bind_eq_some, Parser.remaining_eq_some,
    Parser.ensure_eq_some, Parser.given_eq_some, foldFrom_selecting, Prod.mk.injEq]
  constructor
  · rintro ⟨count, middle, hcount, _, _, ⟨rfl, rfl⟩, _, _, ⟨-, rfl⟩, _, _, ⟨types, _, htypes,
      ⟨hknown, rfl⟩, rfl⟩, hfound, rfl⟩
    refine ⟨types, ⟨count, _, hcount, htypes⟩, hknown, ?_⟩
    cases htype : types[wanted]? with
    | none =>
        rw [htype] at hfound
        cases hfound
    | some type =>
        rw [htype] at hfound
        exact congrArg some (beq_iff_eq.mp hfound)
  · rintro ⟨types, ⟨count, middle, hcount, htypes⟩, hknown, hwanted⟩
    have hfits := Parser.takes_funcType.times_le htypes
    rw [List.length_nil, Nat.add_zero] at hfits
    refine ⟨count, middle, hcount, _, _, ⟨rfl, rfl⟩, (), middle, ⟨?_, rfl⟩, true, [], ⟨types, [],
      htypes, ⟨hknown, ?_⟩, rfl⟩, rfl, rfl⟩
    · rw [decide_eq_false (Nat.not_lt.mpr hfits)]
      rfl
    · rw [hwanted]
      exact (beq_self_eq_true (params, results)).symm

end Package
