/-
# The sections that the package's scanner finds

The scanner keeps where each section lies, the host what is in it. Over one payload the two
loops go through the same sections in step: both fail, or what the scanner keeps lies where
the host found it.
-/

import EspContainer.Admission.DeviceExports

namespace Package

open Binary Interaction Wasm

variable {wasm content : List UInt8} {part : WasmSection}

/-- The scanner's sections are the ones that were seen. -/
def WasmSections.Located (wasm : List UInt8) (sections : WasmSections) (seen : Tools.SeenSections) :
    Prop :=
  ∀ number, (sections number).Located wasm (seen.1.lookup number)

theorem located_absent : WasmSections.Located wasm (fun _ => .absent) ([], 0) := by
  intro number
  rfl

/-- One more section. -/
theorem WasmSections.Located.update {sections : WasmSections} {seen : Tools.SeenSections}
    (hlocated : sections.Located wasm seen) (number last : UInt8) (hpart : part.Placed wasm content) :
    WasmSections.Located wasm (Function.update sections number part)
      ((number, content) :: seen.1, last) := by
  intro other
  rw [List.lookup_cons]
  by_cases hsame : other = number
  · subst hsame
    rw [Function.update_self, beq_self_eq_true]
    exact hpart
  · rw [Function.update_of_ne hsame, beq_eq_false_iff_ne.mpr hsame]
    exact hlocated other

/-- Steps that go in step. -/
theorem rel_bind {α β γ δ : Type} {related : α → β → Prop} {after : γ → δ → Prop}
    {first : Option α}
    {second : Option β} {next : α → Option γ} {other : β → Option δ}
    (hfirst : Option.Rel related first second)
    (hnext : ∀ value found, related value found → Option.Rel after (next value) (other found)) :
    Option.Rel after (first.bind next) (second.bind other) := by
  cases hfirst with
  | none => exact .none
  | some hrelated => exact hnext _ _ hrelated

/-! ## The loop -/

/-- What is behind the number and the length of a section. -/
theorem scanOver_sectionHead {α : Type} {cursor : Nat} (hcursor : cursor ≤ wasm.length)
    (next : UInt8 → Nat → Nat → Scan α) :
    (scanOver wasm (do
      let (number, cursor) ← nextByte wasm.length cursor
      let (length, cursor) ← nextU32 wasm.length cursor
      scanRequire (!(length > wasm.length - cursor))
      next number length cursor)).toOption =
      (Parser.sectionEntry (wasm.drop cursor)).bind fun found =>
        (scanOver wasm (next found.1.1 found.1.2.length
          (wasm.length - found.2.length - found.1.2.length))).toOption := by
  have hbyte := @tracks_nextByte wasm wasm.length
  have hnumber := @tracks_nextU32 wasm wasm.length
  rw [ScanTracks, List.take_length] at hbyte hnumber
  exact eval_sectionHead hbyte hnumber hcursor next

/-- What a round of the loop does behind the number and the length of a section. -/
def sectionRound (size rounds : Nat) (last : UInt8) (sections : WasmSections) (number : UInt8)
    (length cursor : Nat) : Scan WasmSections := do
  scanSupported (!(number > 12 || number == 8 || number == 4 || number == 9))
  if number != 0 then do
    scanRequire (!(number ≤ last))
    scanSectionsLoop size rounds (cursor + length) number
      (Function.update sections number ⟨cursor, cursor + length, true⟩)
  else do
    let (targetFeatures, _) ← nameIs (cursor + length) cursor (ascii "target_features")
    scanSupported (!targetFeatures)
    scanSectionsLoop size rounds (cursor + length) last sections

/-- The name of a custom section is read from its content. -/
theorem scanOver_customName {start : Nat} (hstop : start + content.length ≤ wasm.length)
    (hcontent : (wasm.take (start + content.length)).drop start = content) :
    (scanOver wasm (nameIs (start + content.length) start (ascii "target_features"))).toOption =
      (Parser.sized content).map fun found =>
        (found.1 == ascii "target_features", start + content.length - found.2.length) := by
  rw [scanOver_nameIs hstop (Nat.le_add_right _ _), hcontent]

/-- The numbers that both loops refuse. -/
theorem refused_number (number : UInt8) :
    (decide (number > 12) || number == 8 || number == 4 || number == 9) =
      ([4, 8, 9].contains number || decide (number > 12)) := by
  simp only [List.contains_cons, List.contains_nil]
  cases number == 4 <;> cases number == 8 <;> cases number == 9 <;> cases decide (number > 12) <;> rfl

/-- One round on a section that lies at this place. The rest of the round is the rest of the
loop, from behind the section. -/
theorem rel_sectionRound {sections : WasmSections} {seen : Tools.SeenSections}
    (hlocated : sections.Located wasm seen) {rounds start : Nat} {number : UInt8}
    (hstop : start + content.length ≤ wasm.length)
    (hcontent : (wasm.take (start + content.length)).drop start = content)
    {rest : Tools.SeenSections → Option Tools.SeenSections}
    (hrest : ∀ next (sections : WasmSections), sections.Located wasm next →
      Option.Rel (WasmSections.Located wasm)
        (scanOver wasm (scanSectionsLoop wasm.length rounds (start + content.length) next.2
          sections)).toOption (rest next)) :
    Option.Rel (WasmSections.Located wasm)
      (scanOver wasm (sectionRound wasm.length rounds seen.2 sections number content.length
        start)).toOption
      ((Tools.sectionChange seen (number, content)).bind rest) := by
  rw [sectionRound, Tools.sectionChange, scanSupported, refused_number, scanOver, Fallible.eval_bind,
    Fallible.eval_require]
  dsimp +instances only
  cases [4, 8, 9].contains number || decide (number > 12) with
  | true => exact .none
  | false =>
      change Option.Rel _ (scanOver wasm _).toOption _
      rw [if_neg Bool.false_ne_true]
      by_cases hcustom : (number == 0) = true
      · have hnumber : ¬ (number != 0) = true := by
          rw [bne, hcustom]
          exact Bool.false_ne_true
        rw [if_pos hcustom, if_neg hnumber, scanOver, Fallible.eval_bind, toOption_bind]
        have hname := scanOver_customName hstop hcontent
        rw [scanOver] at hname
        rw [hname]
        cases Parser.sized content with
        | none => exact .none
        | some found =>
            change Option.Rel _ (Fallible.eval (payloadByte wasm)
              (scanSupported (!(found.1 == ascii "target_features")) >>= _)).toOption _
            rw [scanSupported, Fallible.eval_bind, Fallible.eval_require]
            dsimp only
            cases found.1 == ascii "target_features" with
            | true => exact .none
            | false => exact hrest seen sections hlocated
      · have hnumber : (number != 0) = true := by
          rw [bne, Bool.not_eq_true', ← Bool.not_eq_true]
          exact hcustom
        rw [if_neg hcustom, if_pos hnumber, scanOver, scanRequire, Fallible.eval_bind,
          Fallible.eval_require]
        by_cases horder : number ≤ seen.2
        · rw [if_pos horder, decide_eq_true horder]
          exact .none
        · rw [if_neg horder, decide_eq_false horder]
          exact hrest _ _ (hlocated.update number number ⟨rfl, Nat.le_add_right _ _, hstop, hcontent⟩)

/-- The two loops over the sections go in step. -/
theorem rel_scanSectionsLoop {sections : WasmSections} {seen : Tools.SeenSections}
    (hlocated : sections.Located wasm seen) {rounds cursor : Nat} (hcursor : cursor ≤ wasm.length) :
    Option.Rel (WasmSections.Located wasm)
      (scanOver wasm (scanSectionsLoop wasm.length rounds cursor seen.2 sections)).toOption
      ((Parser.many Parser.sectionEntry rounds (wasm.drop cursor)).bind fun found =>
        found.1.foldlM Tools.sectionChange seen) := by
  induction rounds generalizing sections seen cursor with
  | zero => exact .some hlocated
  | succ rounds ih =>
      rw [scanSectionsLoop]
      change Option.Rel _ _
        (((if (wasm.drop cursor).length = 0 then pure [] else _ : Parser _) (wasm.drop cursor)).bind _)
      rw [List.length_drop]
      by_cases hleft : cursor < wasm.length
      · have hhead := scanOver_sectionHead hcursor
          (sectionRound wasm.length rounds seen.2 sections)
        rw [if_pos hleft, if_neg (Nat.sub_ne_zero_of_lt hleft), Parser.bind_eq, Option.bind_assoc]
        refine hhead ▸ ?_
        cases hentry : Parser.sectionEntry (wasm.drop cursor) with
        | none => exact .none
        | some found =>
            obtain ⟨⟨number, content⟩, rest⟩ := found
            obtain ⟨start, hlength, hcontent, hrest⟩ := place_of_sectionEntry hentry
            have hstart : wasm.length - rest.length - content.length = start := by omega
            have hstop : start + content.length ≤ wasm.length := by omega
            change Option.Rel _ (scanOver wasm (sectionRound wasm.length rounds seen.2 sections number
              content.length (wasm.length - rest.length - content.length))).toOption
              (((Parser.many Parser.sectionEntry rounds >>= fun values =>
                pure ((number, content) :: values)) rest).bind _)
            rw [hstart, bind_cons_foldlM]
            apply rel_sectionRound hlocated hstop hcontent
            intro next sections hnext
            rw [← hrest]
            exact ih hnext hstop
      · rw [if_neg hleft, if_pos (Nat.sub_eq_zero_of_le (Nat.not_lt.mp hleft))]
        exact .some hlocated

/-! ## The scan -/

/-- The numbers of the sections that a module must have. -/
def requiredNumbers : List UInt8 := [1, 3, 5, 7, 10]

theorem byteAt_toOption (index : Nat) :
    (Fallible.eval (payloadByte wasm) (byteAt index)).toOption = wasm[index]? := by
  rw [byteAt, Fallible.eval_call_bind, payloadByte]
  cases wasm[index]? with
  | none => rfl
  | some byte => rfl

/-- Whether a section is there. -/
theorem WasmSections.Located.present {sections : WasmSections} {seen : Tools.SeenSections}
    (hlocated : sections.Located wasm seen) (number : UInt8) :
    (sections number).present = (seen.1.lookup number).isSome := by
  have hnumber := hlocated number
  cases hlookup : seen.1.lookup number with
  | none =>
      rw [hlookup] at hnumber
      exact hnumber
  | some content =>
      rw [hlookup] at hnumber
      exact hnumber.present

/-- What the host finds of the sections of a module that has all it must have. -/
def hostSections (wasm : List UInt8) : Option Tools.SeenSections :=
  if wasmHeader.isPrefixOf wasm then do
    let entries ← Wasm.sections (wasm.drop wasmHeader.length)
    let seen ← entries.foldlM Tools.sectionChange ([], 0)
    if requiredNumbers.all fun number => (seen.1.lookup number).isSome then some seen else none
  else
    none

theorem hostSections_eq_some {seen : Tools.SeenSections} :
    hostSections wasm = some seen ↔
      (∃ content entries, wasm = wasmHeader ++ content ∧ Wasm.sections content = some entries ∧
        entries.foldlM Tools.sectionChange ([], 0) = some seen) ∧
      ∀ number ∈ requiredNumbers, (seen.1.lookup number).isSome = true := by
  rw [hostSections]
  constructor
  · intro hfound
    split at hfound
    · next hprefix =>
      obtain ⟨content, rfl⟩ := List.isPrefixOf_iff_prefix.mp hprefix
      rw [List.drop_left] at hfound
      obtain ⟨entries, hentries, hfound⟩ := Option.bind_eq_some_iff.mp hfound
      obtain ⟨found, hfold, hfound⟩ := Option.bind_eq_some_iff.mp hfound
      split at hfound
      · next hrequired =>
        cases hfound
        exact ⟨⟨content, entries, rfl, hentries, hfold⟩, List.all_eq_true.mp hrequired⟩
      · cases hfound
    · cases hfound
  · rintro ⟨⟨content, entries, rfl, hentries, hfold⟩, hrequired⟩
    rw [if_pos (List.isPrefixOf_iff_prefix.mpr (List.prefix_append _ _)), List.drop_left, hentries]
    change (entries.foldlM Tools.sectionChange ([], 0)).bind _ = _
    rw [hfold]
    exact if_pos (List.all_eq_true.mpr hrequired)

/-- `scan_sections`. -/
theorem rel_scanSections :
    Option.Rel (WasmSections.Located wasm) (scanOver wasm (scanSections wasm.length)).toOption
      (hostSections wasm) := by
  have hheader : (Fallible.eval (payloadByte wasm) (Fallible.counted wasmHeader.length
      (fun index _ => do
        let byte ← byteAt index
        scanRequire (byte == wasmHeader.getD index 0))
      ())).toOption = if wasmHeader.isPrefixOf wasm then some () else none :=
    eval_demandBytes byteAt_toOption wasmHeader
  rw [scanSections, hostSections, scanOver, Fallible.eval_bind, toOption_bind, hheader]
  by_cases hprefix : wasmHeader.isPrefixOf wasm = true
  · rw [if_pos hprefix, if_pos hprefix]
    have hcursor : wasmHeader.length ≤ wasm.length :=
      (List.isPrefixOf_iff_prefix.mp hprefix).length_le
    have hloop := @rel_scanSectionsLoop wasm _ _ located_absent wasm.length _ hcursor
    rw [Parser.takes_sectionEntry.many_eq (List.length_drop ▸ Nat.sub_le _ _), scanOver] at hloop
    change Option.Rel _ (Fallible.eval (payloadByte wasm) (scanSectionsLoop wasm.length wasm.length
      wasmHeader.length 0 (fun _ => .absent) >>= _)).toOption
      ((Wasm.sections (wasm.drop wasmHeader.length)).bind fun entries =>
        (entries.foldlM Tools.sectionChange ([], 0)).bind _)
    rw [Fallible.eval_bind, toOption_bind, Wasm.sections, Option.bind_map]
    change Option.Rel _ _ (Option.bind _ fun found : List (UInt8 × List UInt8) × List UInt8 =>
      (found.1.foldlM Tools.sectionChange ([], 0)).bind _)
    rw [← Option.bind_assoc]
    apply rel_bind hloop
    intro sections seen hlocated
    rw [scanRequire, Fallible.eval_bind, Fallible.eval_require, requiredNumbers]
    simp only [List.all_cons, List.all_nil, ← hlocated.present, Bool.and_true, ← Bool.and_assoc]
    cases (sections 1).present && (sections 3).present && (sections 5).present &&
      (sections 7).present && (sections 10).present with
    | true => exact .some hlocated
    | false => exact .none
  · rw [if_neg hprefix, if_neg hprefix]
    exact .none

end Package
