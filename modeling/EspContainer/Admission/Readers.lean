/-
# The readers of the package's scanner

What the smallest functions of `package_wasm.c` find in a payload: a byte, a number and a
name follow the same parsers as the readers of the host tools.
-/

import EspContainer.Runtime.Numbers
import EspContainer.Wasm.Cursors

namespace Package

open Binary Interaction Wasm

variable {α : Type} {wasm : List UInt8} {stop : Nat}

/-- A step of the scanner in the part of a payload before an end. -/
abbrev ScanTracks (wasm : List UInt8) (stop : Nat) (step : Nat → Scan (α × Nat))
    (parser : Parser α) : Prop :=
  Tracks (payloadByte wasm) (wasm.take stop) step parser

/-- A scanning function that goes to the end of this part. -/
abbrev ScanEnds (wasm : List UInt8) (stop : Nat) (step : Nat → Scan α) (parser : Parser α) : Prop :=
  Ends (payloadByte wasm) (wasm.take stop) step parser

section

variable {step : Nat → Scan (α × Nat)} {last : Nat → Scan α} {parser : Parser α} {check : Bool}

theorem tracks_scanRequire (hstep : ScanTracks wasm stop step parser) :
    ScanTracks wasm stop (fun cursor => scanRequire check >>= fun _ => step cursor)
      (Parser.ensure check >>= fun _ => parser) :=
  hstep.require

theorem tracks_scanSupported (hstep : ScanTracks wasm stop step parser) :
    ScanTracks wasm stop (fun cursor => scanSupported check >>= fun _ => step cursor)
      (Parser.ensure check >>= fun _ => parser) :=
  hstep.require

theorem ends_scanRequire (hlast : ScanEnds wasm stop last parser) :
    ScanEnds wasm stop (fun cursor => scanRequire check >>= fun _ => last cursor)
      (Parser.ensure check >>= fun _ => parser) :=
  hlast.require

theorem ends_scanSupported (hlast : ScanEnds wasm stop last parser) :
    ScanEnds wasm stop (fun cursor => scanSupported check >>= fun _ => last cursor)
      (Parser.ensure check >>= fun _ => parser) :=
  hlast.require

/-- A check that so many bytes are left. -/
theorem tracks_scanLeft (hstop : stop ≤ wasm.length) (size : Nat)
    (hstep : ScanTracks wasm stop step parser) :
    ScanTracks wasm stop
      (fun cursor => scanRequire (!(size > stop - cursor)) >>= fun _ => step cursor)
      (Parser.remaining >>= fun left => Parser.ensure (!(size > left)) >>= fun _ => parser) := by
  have hchecked := @tracks_remaining _ _ _ (payloadByte wasm) (wasm.take stop)
    (fun left cursor => scanRequire (!(size > left)) >>= fun _ => step cursor) _
    fun left => @tracks_scanRequire _ _ _ _ _ (!(size > left)) hstep
  rw [List.length_take_of_le hstop] at hchecked
  exact hchecked

/-- A check that compares with what is left. -/
theorem ends_scanLeft (hstop : stop ≤ wasm.length) (check : Nat → Bool)
    (hlast : ScanEnds wasm stop last parser) :
    ScanEnds wasm stop (fun cursor => scanRequire (check (stop - cursor)) >>= fun _ => last cursor)
      (Parser.remaining >>= fun left => Parser.ensure (check left) >>= fun _ => parser) := by
  have hchecked := @ends_remaining _ _ _ (payloadByte wasm) (wasm.take stop)
    (fun left cursor => scanRequire (check left) >>= fun _ => last cursor) _
    fun left => @ends_scanRequire _ _ _ _ _ (check left) hlast
  rw [List.length_take_of_le hstop] at hchecked
  exact hchecked

/-- The last check of a section. -/
theorem ends_scanEnd (hstop : stop ≤ wasm.length) :
    ScanEnds wasm stop (fun cursor => scanRequire (check && cursor == stop)) (Parser.ensure check) :=
  ends_require (List.length_take_of_le hstop)

/-- The last check of a section, in the other order. -/
theorem ends_scanEnd_and (hstop : stop ≤ wasm.length) :
    ScanEnds wasm stop (fun cursor => scanRequire (cursor == stop && check)) (Parser.ensure check) := by
  have hsame : (fun cursor => scanRequire (cursor == stop && check)) =
      fun cursor => scanRequire (check && cursor == stop) := by
    funext cursor
    rw [Bool.and_comm]
  rw [hsame]
  exact ends_scanEnd hstop

end

theorem toOption_orFail {error : Stop} {found : Option α} :
    (Container.orFail error found).toOption = found := by
  cases found with
  | none => rfl
  | some value => rfl

theorem tracks_nextByte : ScanTracks wasm stop (nextByte stop) Parser.item := by
  apply follows_item.congr
  intro cursor _
  rw [← @toOption_orFail _ .failed ((wasm.take stop)[cursor]?.map fun value => (value, cursor + 1))]
  exact congrArg Except.toOption (Container.scanOver_nextByte stop cursor)

theorem tracks_nextU32 : ScanTracks wasm stop (nextU32 stop) Parser.number := by
  apply follows_number.congr
  intro cursor _
  rw [← @toOption_orFail _ .failed (readAt (wasm.take stop) cursor)]
  exact congrArg Except.toOption (Container.scanOver_nextU32 stop cursor)

/-- A byte of the payload. -/
theorem scanOver_byteAt {index : Nat} (hindex : index < wasm.length) :
    scanOver wasm (byteAt index) = .ok (wasm.getD index 0) := by
  rw [byteAt, scanOver, Fallible.eval_call_bind, payloadByte, List.getElem?_eq_getElem hindex,
    List.getD_eq_getElem _ _ hindex]
  rfl

theorem scanOver_sameBytes (expected : List UInt8) {cursor : Nat}
    (hbound : cursor + expected.length ≤ wasm.length) :
    scanOver wasm (sameBytes expected cursor) =
      .ok ((wasm.drop cursor).take expected.length == expected) :=
  eval_compare (fun _ hindex => scanOver_byteAt hindex) expected hbound

/-- `name_is`: the name is there, and it is the expected one or not. -/
theorem tracks_nameIs (hstop : stop ≤ wasm.length) (expected : List UInt8) :
    ScanTracks wasm stop (fun cursor => nameIs stop cursor expected)
      (Parser.sized >>= fun name => pure (name == expected)) := by
  have hlength : (wasm.take stop).length = stop := List.length_take_of_le hstop
  rw [Parser.sized, bind_assoc]
  apply tracks_nextU32.bind
  intro length
  refine @tracks_take _ _ _ _ _ _ _ _ _ (fun name cursor => pure (name == expected, cursor)) _ hlength
    ?_ fun name => tracks_pure _
  intro cursor hfits
  rw [take_drop_take hfits]
  by_cases hsize : (length == expected.length) = true
  · obtain rfl : length = expected.length := beq_iff_eq.mp hsize
    rw [if_pos hsize, Fallible.eval_bind]
    change (scanOver wasm (sameBytes expected cursor) >>= _) = _
    rw [scanOver_sameBytes expected (by omega)]
    rfl
  · have hother : ((wasm.drop cursor).take length == expected) = false := by
      rw [beq_eq_false_iff_ne]
      intro hsame
      have hequal := congrArg List.length hsame
      rw [List.length_take, List.length_drop] at hequal
      rw [beq_iff_eq] at hsize
      omega
    rw [if_neg hsize, hother]

end Package
