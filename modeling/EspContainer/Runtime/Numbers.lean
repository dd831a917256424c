/-
# The four readers of numbers

Every length, count and index of a module passes through one of four loops: two in C
and two in Python. The C loops keep the number in a 32-bit word; below they are taken
as they are compiled, and no shift and no accumulation loses a bit, which is why the
scanners may be modelled with unbounded numbers.
-/

import EspContainer.Package.PayloadScan
import EspContainer.Runtime.RawScan
import EspContainer.Tools.Following

namespace Container

open Binary Interaction Package Tools Wasm

/-! ## The loops with words -/

/-- The loop of `next_u32` with its 32-bit accumulator. -/
def nextU32WordLoop (stop : Nat) : Nat → Nat → UInt32 → Nat → Scan (UInt32 × Nat)
  | 0, _, _, _ => throw .failed
  | octets + 1, index, result, cursor => do
      let (octet, cursor) ← nextByte stop cursor
      scanRequire (!(index == 4 && octet &&& 0xf0 != 0))
      let result := result ||| (octet &&& 0x7f).toUInt32 <<< UInt32.ofNat (7 * index)
      if octet &&& 0x80 == 0 then
        pure (result, cursor)
      else
        nextU32WordLoop stop octets (index + 1) result cursor

/-- `next_u32` with its 32-bit accumulator. -/
def nextU32Word (stop cursor : Nat) : Scan (UInt32 × Nat) := nextU32WordLoop stop 5 0 0 cursor

/-- The loop of `read_u32` with its 32-bit accumulator: `shift` goes from 0 in steps of 7
while it is below 35. -/
def readU32WordLoop (stop : Nat) : Nat → Nat → UInt32 → Nat → RawScan (UInt32 × Nat)
  | 0, _, _, _ => throw .invalid
  | octets + 1, shift, result, cursor => do
      demand (!(cursor ≥ stop))
      let octet ← readByte cursor
      demand (!(shift == 28 && octet &&& 0xf0 != 0))
      let result := result ||| (octet &&& 0x7f).toUInt32 <<< UInt32.ofNat shift
      if octet &&& 0x80 == 0 then
        pure (result, cursor + 1)
      else
        readU32WordLoop stop octets (shift + 7) result (cursor + 1)

/-- `read_u32` with its 32-bit accumulator. -/
def readU32Word (stop cursor : Nat) : RawScan (UInt32 × Nat) := readU32WordLoop stop 5 0 0 cursor

/-- A group in its place is part of the word, and what is there keeps its bits. -/
theorem toNat_or_group {result : UInt32} {octet : UInt8} {index : Nat} (hindex : index ≤ 4)
    (hfifth : index = 4 → octet &&& 0xf0 = 0) :
    (result ||| (octet &&& 0x7f).toUInt32 <<< UInt32.ofNat (7 * index)).toNat =
      result.toNat ||| octetBits octet index := by
  obtain ⟨hhigh, -, hgroup⟩ := octet_masks octet
  have hplace : (UInt32.ofNat (7 * index)).toNat % 32 = 7 * index := by
    rw [UInt32.toNat_ofNat']
    omega
  have hfits : (octet &&& 0x7f).toNat <<< (7 * index) < 2 ^ 32 := by
    rw [hgroup, Nat.shiftLeft_eq]
    by_cases hlast : index = 4
    · subst hlast
      have hsmall := hhigh.mp (hfifth rfl)
      omega
    · have hpower : 2 ^ (7 * index) ≤ 2 ^ 21 := Nat.pow_le_pow_right (by decide) (by omega)
      have hseven : octet.toNat % 128 ≤ 127 := by omega
      have hproduct := Nat.mul_le_mul hseven hpower
      omega
  rw [UInt32.toNat_or, UInt32.toNat_shiftLeft, hplace, UInt8.toNat_toUInt32, octetBits,
    Nat.mod_eq_of_lt hfits]

/-- The check of the fifth octet. -/
theorem fifth_checked {octet : UInt8} {index : Nat} :
    (!(index == 4 && octet &&& 0xf0 != 0)) = true ↔ (index = 4 → octet &&& 0xf0 = 0) := by
  by_cases hindex : index = 4
  · simp [hindex]
  · simp [hindex]

/-- The unbounded number of `next_u32` is its word. -/
theorem nextU32Loop_eq_word (stop : Nat) {octets index : Nat} (hindex : index + octets = 5)
    (result : UInt32) (cursor : Nat) :
    nextU32Loop stop octets index result.toNat cursor =
      (fun found : UInt32 × Nat => (found.1.toNat, found.2)) <$>
        nextU32WordLoop stop octets index result cursor := by
  induction octets generalizing index result cursor with
  | zero => rfl
  | succ octets ih =>
      rw [nextU32Loop, nextU32WordLoop, map_bind]
      refine bind_congr fun found => ?_
      obtain ⟨octet, cursor⟩ := found
      simp only [map_bind]
      cases hcheck : (!(index == 4 && octet &&& 0xf0 != 0)) with
      | false => rfl
      | true =>
        rw [← toNat_or_group (by omega) (fifth_checked.mp hcheck)]
        refine bind_congr fun _ => ?_
        split
        · rw [map_pure]
        · exact ih (by omega) _ _

/-- The unbounded number of `read_u32` is its word. -/
theorem readU32Loop_eq_word (stop : Nat) {octets index : Nat} (hindex : index + octets = 5)
    (result : UInt32) (cursor : Nat) :
    readU32Loop stop octets index result.toNat cursor =
      (fun found : UInt32 × Nat => (found.1.toNat, found.2)) <$>
        readU32WordLoop stop octets (7 * index) result cursor := by
  induction octets generalizing index result cursor with
  | zero => rfl
  | succ octets ih =>
      rw [readU32Loop, readU32WordLoop, map_bind]
      refine bind_congr fun _ => ?_
      rw [map_bind]
      refine bind_congr fun octet => ?_
      rw [map_bind]
      have hshift : (7 * index == 28) = (index == 4) := by
        rw [Bool.eq_iff_iff, beq_iff_eq, beq_iff_eq]
        omega
      rw [hshift]
      cases hcheck : (!(index == 4 && octet &&& 0xf0 != 0)) with
      | false => rfl
      | true =>
        rw [← toNat_or_group (by omega) (fifth_checked.mp hcheck)]
        refine bind_congr fun _ => ?_
        split
        · rw [map_pure]
        · exact ih (by omega) _ _

/-! ## What each reader finds -/

variable {data : List UInt8}

/-- A found value, or an error. -/
def orFail {ε α : Type} (error : ε) (found : Option α) : Except ε α :=
  found.elim (.error error) .ok

@[simp]
theorem orFail_eq_ok {ε α : Type} {error : ε} {found : Option α} {value : α} :
    orFail error found = .ok value ↔ found = some value := by
  cases found with
  | none => simp [orFail]
  | some other => simp [orFail]

theorem scanOver_nextByte (stop cursor : Nat) :
    scanOver data (nextByte stop cursor) =
      orFail .failed ((data.take stop)[cursor]?.map fun value => (value, cursor + 1)) := by
  rw [List.getElem?_take, nextByte, scanOver, scanRequire, Fallible.eval_bind, Fallible.eval_require]
  by_cases hcursor : cursor < stop
  · rw [if_pos hcursor, if_pos (decide_eq_true hcursor)]
    change Fallible.eval _ (Package.byteAt cursor >>= _) = _
    rw [Package.byteAt, bind_assoc, Fallible.eval_call_bind, payloadByte]
    cases data[cursor]? <;> rfl
  · rw [if_neg hcursor, if_neg (by simpa using hcursor)]
    rfl

theorem scanOver_nextU32Loop (stop octets index result cursor : Nat) :
    scanOver data (nextU32Loop stop octets index result cursor) =
      orFail .failed (accumulate (data.take stop) octets index result cursor) := by
  induction octets generalizing index result cursor with
  | zero => rfl
  | succ octets ih =>
      have hbyte := @scanOver_nextByte data stop cursor
      rw [nextU32Loop, scanOver, Fallible.eval_bind,
        show Fallible.eval _ (nextByte stop cursor) = _ from hbyte]
      cases hoctet : (data.take stop)[cursor]? with
      | none =>
          rw [accumulate_of_none hoctet]
          rfl
      | some octet =>
          rw [accumulate_of_some hoctet]
          change Fallible.eval _ (scanRequire _ >>= _) = _
          rw [scanRequire, Fallible.eval_bind, Fallible.eval_require]
          cases hfifth : index == 4 && octet &&& 0xf0 != 0 with
          | true => rfl
          | false =>
              change Fallible.eval _ (if _ then _ else _) = orFail _ (if _ then _ else _)
              by_cases hend : (octet &&& 0x80 == 0) = true
              · rw [if_pos hend, if_pos hend]
                rfl
              · rw [if_neg hend, if_neg hend]
                exact ih _ _ _

/-- `next_u32` over a payload. -/
theorem scanOver_nextU32 (stop cursor : Nat) :
    scanOver data (nextU32 stop cursor) = orFail .failed (readAt (data.take stop) cursor) := by
  rw [nextU32, scanOver_nextU32Loop, accumulate_eq_readAt]

theorem onModule_readU32Loop {stop : Nat} (hstop : stop ≤ data.length)
    (octets index result cursor : Nat) :
    RawScan.onModule (readU32Loop stop octets index result cursor) data =
      orFail .invalid (accumulate (data.take stop) octets index result cursor) := by
  induction octets generalizing index result cursor with
  | zero => rfl
  | succ octets ih =>
      rw [readU32Loop, RawScan.onModule, demand, Fallible.eval_bind, Fallible.eval_require]
      by_cases hcursor : cursor < stop
      · have hoctet : (data.take stop)[cursor]? = some (data.getD cursor 0) := by
          rw [List.getElem?_take, if_pos hcursor, List.getD_eq_getElem?_getD,
            List.getElem?_eq_getElem (by omega), Option.getD_some]
        rw [if_pos (by simpa using hcursor), accumulate_of_some hoctet]
        change Fallible.eval _ (Fallible.attempt (Program.call (I := ByteAccess) cursor) >>= _) = _
        rw [Fallible.eval_call_bind, demand, Fallible.eval_bind, Fallible.eval_require]
        cases hfifth : index == 4 && data.getD cursor 0 &&& 0xf0 != 0 with
        | true => rfl
        | false =>
            change Fallible.eval _ (if _ then _ else _) = orFail _ (if _ then _ else _)
            by_cases hend : (data.getD cursor 0 &&& 0x80 == 0) = true
            · rw [if_pos hend, if_pos hend]
              rfl
            · rw [if_neg hend, if_neg hend]
              exact ih _ _ _
      · have hnone : (data.take stop)[cursor]? = none := by rw [List.getElem?_take, if_neg hcursor]
        rw [if_neg (by simpa using hcursor), accumulate_of_none hnone]
        rfl

/-- `read_u32` inside a module. -/
theorem onModule_readU32 {stop : Nat} (hstop : stop ≤ data.length) (cursor : Nat) :
    RawScan.onModule (readU32 stop cursor) data =
      orFail .invalid (readAt (data.take stop) cursor) := by
  rw [readU32, onModule_readU32Loop hstop, accumulate_eq_readAt]

/-! ## The agreement -/

/-- What `next_u32` finds is the number of its word. -/
theorem nextU32_eq_word (stop cursor : Nat) :
    nextU32 stop cursor =
      (fun found : UInt32 × Nat => (found.1.toNat, found.2)) <$> nextU32Word stop cursor :=
  nextU32Loop_eq_word stop rfl 0 cursor

/-- What `read_u32` finds is the number of its word. -/
theorem readU32_eq_word (stop cursor : Nat) :
    readU32 stop cursor =
      (fun found : UInt32 × Nat => (found.1.toNat, found.2)) <$> readU32Word stop cursor :=
  readU32Loop_eq_word stop rfl 0 cursor

/-- Forgetting the width of a word. -/
theorem map_word_eq_ok {I : Interface} {ε : Type} {scan : Fallible I ε (UInt32 × Nat)}
    {answer : (request : I.Call) → I.Answer request} {value next : Nat} :
    Fallible.eval answer ((fun found : UInt32 × Nat => (found.1.toNat, found.2)) <$> scan) =
        .ok (value, next) ↔
      ∃ word : UInt32, Fallible.eval answer scan = .ok (word, next) ∧ word.toNat = value := by
  rw [← bind_pure_comp, Fallible.eval_bind_eq_ok]
  constructor
  · intro hfound
    obtain ⟨⟨word, after⟩, hword, hpair⟩ := hfound
    cases hpair
    exact ⟨word, hword, rfl⟩
  · intro hfound
    obtain ⟨word, hword, hvalue⟩ := hfound
    exact ⟨(word, next), hword, congrArg (fun number => Except.ok (number, next)) hvalue⟩

/-- The word of `next_u32`, over a payload. -/
theorem scanOver_nextU32Word {stop cursor value next : Nat} :
    (∃ word : UInt32, scanOver data (nextU32Word stop cursor) = .ok (word, next) ∧
        word.toNat = value) ↔ Decodes data cursor stop value next := by
  have hnumber := @scanOver_nextU32 data stop cursor
  rw [nextU32_eq_word] at hnumber
  rw [← readAt_eq_some, ← @orFail_eq_ok Stop _ .failed, ← hnumber]
  exact map_word_eq_ok.symm

/-- The word of `read_u32`, inside a module. -/
theorem onModule_readU32Word {stop cursor value next : Nat} (hstop : stop ≤ data.length) :
    (∃ word : UInt32, RawScan.onModule (readU32Word stop cursor) data = .ok (word, next) ∧
        word.toNat = value) ↔ Decodes data cursor stop value next := by
  have hnumber := onModule_readU32 hstop cursor
  rw [readU32_eq_word] at hnumber
  rw [← readAt_eq_some, ← @orFail_eq_ok ScanError _ .invalid, ← hnumber]
  exact map_word_eq_ok.symm

/-- The word of `next_u32` over a faithful reader, whatever its cache holds. -/
theorem scanned_nextU32Word {package : List UInt8} {base : Nat} {reader : WasmReader}
    (hpayload : PayloadAt package base data) (hreader : reader.Holds base data)
    {stop cursor value next : Nat} :
    (∃ (word : UInt32) (after : WasmReader),
        Fallible.eval (snapshot package) (scanned (nextU32Word stop cursor) reader) =
          .ok (some (word, next), after) ∧ word.toNat = value) ↔
      Decodes data cursor stop value next := by
  rw [← scanOver_nextU32Word]
  obtain ⟨after, -, hscanned⟩ := eval_scanned hpayload (nextU32Word stop cursor) hreader
  rw [hscanned]
  constructor
  · intro hfound
    obtain ⟨word, _, hverdict, hvalue⟩ := hfound
    cases houtcome : scanOver data (nextU32Word stop cursor) with
    | ok found =>
        rw [houtcome] at hverdict
        cases hverdict
        exact ⟨word, rfl, hvalue⟩
    | error error =>
        rw [houtcome] at hverdict
        cases error <;> cases hverdict
  · intro hfound
    obtain ⟨word, houtcome, hvalue⟩ := hfound
    exact ⟨word, after, by rw [houtcome]; rfl, hvalue⟩

/-- The four readers of numbers find the same: the number of a terminated sequence of one
to five groups between the cursor and the end, whose fifth octet has its upper four bits
clear. The words of the C readers lose no bit of it. -/
theorem readers_agree (data : List UInt8) (cursor stop value next : Nat) :
    (∀ package base reader, PayloadAt package base data → reader.Holds base data →
      ((∃ (word : UInt32) (after : WasmReader),
          Fallible.eval (snapshot package) (scanned (nextU32Word stop cursor) reader) =
            .ok (some (word, next), after) ∧ word.toNat = value) ↔
        Decodes data cursor stop value next)) ∧
    (stop ≤ data.length →
      ((∃ word : UInt32, RawScan.onModule (readU32Word stop cursor) data = .ok (word, next) ∧
          word.toNat = value) ↔
        Decodes data cursor stop value next)) ∧
    (wasmU32 data cursor stop = .ok (value, next) ↔ Decodes data cursor stop value next) ∧
    (stop = data.length →
      (GuestReader.u32 data cursor = .ok (value, next) ↔
        Decodes data cursor stop value next)) ∧
    (Decodes data cursor stop value next →
      value < 2 ^ 32 ∧ cursor < next ∧ next ≤ stop ∧ next ≤ data.length ∧ next ≤ cursor + 5) := by
  refine ⟨fun _ _ _ hpayload hreader => scanned_nextU32Word hpayload hreader,
    onModule_readU32Word, ?_, ?_, ?_⟩
  · rw [wasmU32_eq_ok, readAt_eq_some]
  · intro hstop
    rw [guestU32_eq_ok, ← readAt_eq_some, hstop, List.take_length]
  · intro hdecodes
    obtain ⟨octets, hoctets, hprefix, rfl, rfl⟩ := hdecodes
    have hlength := hprefix.length_le
    have hpos := hoctets.nonempty
    rw [List.length_drop, List.length_take] at hlength
    have hfive := hoctets.length_le
    exact ⟨hoctets.lt, by omega, by omega, by omega, by omega⟩

/-- Three octets of a package, read by all four. -/
theorem readers_agree_three_octets :
    (∃ (word : UInt32) (after : WasmReader),
      Fallible.eval (snapshot [0, 0xe5, 0x8e, 0x26])
          (scanned (nextU32Word 3 0) ⟨1, 3, [], 0, 0, false⟩) = .ok (some (word, 3), after) ∧
        word.toNat = 624485) ∧
    (∃ word : UInt32,
      RawScan.onModule (readU32Word 3 0) [0xe5, 0x8e, 0x26] = .ok (word, 3) ∧
        word.toNat = 624485) ∧
    wasmU32 [0xe5, 0x8e, 0x26] 0 3 = .ok (624485, 3) ∧
    GuestReader.u32 [0xe5, 0x8e, 0x26] 0 = .ok (624485, 3) ∧
    Decodes [0xe5, 0x8e, 0x26] 0 3 624485 3 := by
  have hdecodes : Decodes [0xe5, 0x8e, 0x26] 0 3 624485 3 := readAt_eq_some.mp (by decide)
  obtain ⟨hpackage, hmodule, hhost, hguest, -⟩ := readers_agree [0xe5, 0x8e, 0x26] 0 3 624485 3
  have hpayload : PayloadAt [0, 0xe5, 0x8e, 0x26] 1 [0xe5, 0x8e, 0x26] :=
    ⟨by decide, by decide⟩
  have hreader : WasmReader.Holds 1 [0xe5, 0x8e, 0x26] ⟨1, 3, [], 0, 0, false⟩ :=
    ⟨rfl, rfl, rfl, by decide, rfl⟩
  exact ⟨(hpackage _ _ _ hpayload hreader).mpr hdecodes, (hmodule (by decide)).mpr hdecodes,
    hhost.mpr hdecodes, (hguest rfl).mpr hdecodes, hdecodes⟩

end Container
