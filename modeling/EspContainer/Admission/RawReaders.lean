/-
# The readers of the runtime's scan

The smallest functions of `wasm_scan.c` on a module: numbers and bytes follow the same
parsers as those of the package's scanner, and a name is where its bytes are.
-/

import EspContainer.Runtime.Numbers
import EspContainer.Wasm.Places

namespace Container

open Binary Interaction Package Wasm

variable {α β : Type} {wasm text rest : List UInt8} {stop cursor : Nat}

/-- A step of the scanner in the part of a module before an end. -/
abbrev RawTracks (wasm : List UInt8) (stop : Nat) (step : Nat → RawScan (α × Nat))
    (parser : Parser α) : Prop :=
  Tracks (fun index => wasm.getD index 0) (wasm.take stop) step parser

theorem onModule_bind (scan : RawScan α) (next : α → RawScan β) :
    RawScan.onModule (scan >>= next) wasm =
      RawScan.onModule scan wasm >>= fun value => RawScan.onModule (next value) wasm :=
  Fallible.eval_bind _ scan next

theorem onModule_demand (check : Bool) (next : Unit → RawScan β) :
    RawScan.onModule (demand check >>= next) wasm =
      if check then RawScan.onModule (next ()) wasm else .error .invalid := by
  cases check with
  | true => rfl
  | false => rfl

theorem onModule_demandSupported (check : Bool) (next : Unit → RawScan β) :
    RawScan.onModule (demandSupported check >>= next) wasm =
      if check then RawScan.onModule (next ()) wasm else .error .unsupported := by
  cases check with
  | true => rfl
  | false => rfl

theorem onModule_readByte (index : Nat) (next : UInt8 → RawScan β) :
    RawScan.onModule (readByte index >>= next) wasm = RawScan.onModule (next (wasm.getD index 0)) wasm :=
  rfl

theorem tracks_readU32 (hstop : stop ≤ wasm.length) :
    RawTracks wasm stop (readU32 stop) Parser.number := by
  apply follows_number.congr
  intro cursor _
  have hread := onModule_readU32 hstop cursor
  rw [RawScan.onModule] at hread
  rw [ranAt]
  change Except.toOption (Fallible.eval _ (readU32 stop cursor)) = _
  rw [hread]
  cases readAt (wasm.take stop) cursor with
  | none => rfl
  | some found => rfl

/-- A byte that is there. -/
theorem getD_of_at {byte : UInt8} (hplace : At (wasm.take stop) cursor (byte :: rest)) :
    cursor < stop ∧ wasm.getD cursor 0 = byte ∧ At (wasm.take stop) (cursor + 1) rest := by
  have hlength := hplace.length
  rw [List.length_cons, List.length_take] at hlength
  have hbound : cursor < (wasm.take stop).length := by
    rw [List.length_take]
    omega
  have hbehind := hplace.behind
  rw [List.drop_eq_getElem_cons hbound, List.cons.injEq] at hbehind
  obtain ⟨hbyte, hrest⟩ := hbehind
  refine ⟨by omega, ?_, ⟨hbound, hrest⟩⟩
  rw [List.getElem_take] at hbyte
  rw [List.getD_eq_getElem _ _ (by omega), hbyte]

/-- A byte behind a check that the cursor is not at the end. -/
theorem onModule_item {byte : UInt8} (hplace : At (wasm.take stop) cursor (byte :: rest))
    (next : UInt8 → RawScan β) :
    RawScan.onModule (demand (!(cursor ≥ stop)) >>= fun _ => readByte cursor >>= next) wasm =
      RawScan.onModule (next byte) wasm := by
  obtain ⟨hless, hbyte, -⟩ := getD_of_at hplace
  rw [onModule_demand, decide_eq_false (Nat.not_le.mpr hless), Bool.not_false, if_pos rfl,
    onModule_readByte, hbyte]

/-- A number and what follows it. -/
theorem onModule_number (hstop : stop ≤ wasm.length) {bytes : List UInt8} {value : Nat}
    (hplace : At (wasm.take stop) cursor bytes) (hnumber : Parser.number bytes = some (value, rest)) :
    ∃ after, At (wasm.take stop) after rest ∧ ∀ next : Nat × Nat → RawScan β,
      RawScan.onModule (readU32 stop cursor >>= next) wasm =
        RawScan.onModule (next (value, after)) wasm := by
  obtain ⟨after, hafter, hread⟩ := hplace.step (tracks_readU32 hstop) hnumber
  refine ⟨after, hafter, fun next => ?_⟩
  rw [onModule_bind, RawScan.onModule, hread]
  rfl

/-! ## Names -/

/-- `memcmp`. -/
theorem onModule_compareBytes (expected : List UInt8) {start : Nat}
    (hbound : start + expected.length ≤ wasm.length) :
    RawScan.onModule (compareBytes expected start) wasm =
      .ok ((wasm.drop start).take expected.length == expected) :=
  eval_compare (fun _ _ => rfl) expected hbound

/-- A name in the module has this text. -/
structure RawName.Holds (name : RawName) (wasm text : List UInt8) : Prop where
  length : name.length = text.length
  bound : name.start + text.length ≤ wasm.length
  bytes : (wasm.drop name.start).take text.length = text

/-- `name_is`. -/
theorem onModule_rawNameIs {name : RawName} (hname : name.Holds wasm text) (expected : List UInt8) :
    RawScan.onModule (rawNameIs name expected) wasm = .ok (text == expected) := by
  rw [rawNameIs, hname.length]
  by_cases hsize : text.length = expected.length
  · rw [if_pos (beq_iff_eq.mpr hsize), onModule_compareBytes expected (hsize ▸ hname.bound), ← hsize,
      hname.bytes]
  · have hother : (text == expected) = false := by
      rw [beq_eq_false_iff_ne]
      intro hsame
      exact hsize (congrArg List.length hsame)
    rw [if_neg (fun hlength => hsize (beq_iff_eq.mp hlength)), hother]
    rfl

/-- The bytes of a name behind its length. -/
theorem holds_of_take {size : Nat} {bytes : List UInt8} (hplace : At (wasm.take stop) cursor bytes)
    (hstop : stop ≤ wasm.length) (htake : Parser.take size bytes = some (text, rest)) :
    cursor + size ≤ stop ∧ RawName.Holds ⟨cursor, size⟩ wasm text ∧
      At (wasm.take stop) (cursor + size) rest := by
  obtain ⟨rfl, hbound, hbytes, hafter⟩ := hplace.take htake
  rw [List.length_take_of_le hstop] at hbound
  rw [take_drop_take hbound] at hbytes
  exact ⟨hbound, ⟨rfl, hbound.trans hstop, hbytes⟩, hafter⟩

/-- `read_name`. -/
theorem onModule_readName (hstop : stop ≤ wasm.length) {bytes : List UInt8}
    (hplace : At (wasm.take stop) cursor bytes) (hsized : Parser.sized bytes = some (text, rest)) :
    ∃ name after, RawName.Holds name wasm text ∧ At (wasm.take stop) after rest ∧
      ∀ next : RawName × Nat → RawScan β, RawScan.onModule (readName stop cursor >>= next) wasm =
        RawScan.onModule (next (name, after)) wasm := by
  obtain ⟨size, middle, hsize, htake⟩ := Parser.bind_eq_some.mp hsized
  obtain ⟨start, hstart, hread⟩ := @onModule_number β _ _ _ _ hstop _ _ hplace hsize
  obtain ⟨hfits, hname, hafter⟩ := holds_of_take hstart hstop htake
  refine ⟨⟨start, size⟩, start + size, hname, hafter, fun next => ?_⟩
  have hleft : ¬ size > stop - start := by omega
  rw [readName, bind_assoc, hread]
  dsimp only
  rw [bind_assoc, onModule_demand, decide_eq_false hleft]
  rfl

end Container
