/-
# The readers of the host tools

`product_package.py` and `counter_guest.py` each have a class that reads the bytes of a
module or of one of its sections from front to back. The data of a reader never
changes, so a method is a function of the data that moves the offset.
-/

import EspContainer.Tools.Archive

namespace Tools

open Binary Package

/-- A step of a reader that may raise: its state is the offset. -/
abbrev Reads (α : Type) : Type := StateT Nat (Except String) α

/-- Raise an exception with this text. -/
def refuse {α : Type} (reason : String) : Reads α := fun _ => .error reason

/-- `if condition: raise ...`. -/
def refuseWhen (condition : Bool) (reason : String) : Reads Unit :=
  if condition then refuse reason else pure ()

/-- What a method of a new reader returns. -/
def Reads.run {α : Type} (step : Reads α) : Checked α := do
  let (value, _) ← step 0
  pure value

/-- `list[index]`. -/
def itemAt {α : Type} (list : List α) (index : Nat) : Checked α :=
  match list[index]? with
  | none => .error "IndexError"
  | some value => .ok value

/-- `dictionary[key]`, where the last item of a key counts. -/
def entryAt {κ ν : Type} [BEq κ] (dictionary : List (κ × ν)) (key : κ) : Checked ν :=
  match dictionary.lookup key with
  | none => .error "KeyError"
  | some value => .ok value

/-! ### Loops -/

section

variable {α σ : Type}

/-- `for _ in range(count)`, with the variables that the body assigns. -/
def repeated (body : σ → Reads σ) : Nat → σ → Reads σ
  | 0, state => pure state
  | count + 1, state => do
      let state ← body state
      repeated body count state

/-- `[step() for _ in range(count)]`. -/
def collected (step : Reads α) : Nat → Reads (List α)
  | 0 => pure []
  | count + 1 => do
      let value ← step
      let values ← collected step count
      pure (value :: values)

/-- `while reader.offset < len(reader.data)`. Each round of the loops below takes bytes, so
as many rounds as bytes are enough; the first argument counts them. -/
def untilEnd (data : List UInt8) (body : σ → Reads σ) : Nat → σ → Reads σ
  | 0, state => pure state
  | rounds + 1, state => do
      let offset ← get
      if offset < data.length then do
        let state ← body state
        untilEnd data body rounds state
      else
        pure state

end

/-! ### What a step does -/

section

variable {α β : Type} {offset : Nat}

theorem reads_bind_eq_ok {step : Reads α} {next : α → Reads β} {found : β × Nat} :
    (step >>= next) offset = .ok found ↔
      ∃ value middle, step offset = .ok (value, middle) ∧ next value middle = .ok found := by
  change (step offset >>= fun read => next read.1 read.2) = _ ↔ _
  cases step offset with
  | error reason => simp [bind, Except.bind]
  | ok read =>
      obtain ⟨value, middle⟩ := read
      simp [bind, Except.bind]

theorem reads_bind_of_ok {step : Reads α} {next : α → Reads β} {value : α} {middle : Nat}
    (hstep : step offset = .ok (value, middle)) : (step >>= next) offset = next value middle := by
  change (step offset >>= fun read => next read.1 read.2) = _
  rw [hstep]
  rfl

theorem reads_pure_eq_ok {value : α} {found : α × Nat} :
    (pure value : Reads α) offset = .ok found ↔ found = (value, offset) := by
  change Except.ok (value, offset) = .ok found ↔ _
  rw [Except.ok.injEq, eq_comm]

theorem get_eq_ok {found : Nat × Nat} :
    (get : Reads Nat) offset = .ok found ↔ found = (offset, offset) := by
  change Except.ok (offset, offset) = .ok found ↔ _
  rw [Except.ok.injEq, eq_comm]

theorem set_eq_ok {value : Nat} {found : PUnit × Nat} :
    (set value : Reads PUnit) offset = .ok found ↔ found = (⟨⟩, value) := by
  change Except.ok (PUnit.unit, value) = .ok found ↔ _
  rw [Except.ok.injEq, eq_comm]

theorem refuse_eq_ok {reason : String} {found : α × Nat} :
    (refuse reason : Reads α) offset = .ok found ↔ False := by
  simp [refuse]

theorem refuseWhen_eq_ok {condition : Bool} {reason : String} {found : Unit × Nat} :
    refuseWhen condition reason offset = .ok found ↔ condition = false ∧ found = ((), offset) := by
  cases condition with
  | false => simp [refuseWhen, reads_pure_eq_ok]
  | true => simp [refuseWhen, refuse]

theorem lift_eq_ok {step : Checked α} {found : α × Nat} :
    (StateT.lift step : Reads α) offset = .ok found ↔ step = .ok found.1 ∧ found.2 = offset := by
  obtain ⟨value, next⟩ := found
  change (step >>= fun read => pure (read, offset)) = _ ↔ _
  cases step with
  | error reason => simp [bind, Except.bind]
  | ok read => simp [bind, Except.bind, pure, Except.pure, eq_comm]

theorem entryAt_eq_ok {κ ν : Type} [BEq κ] {dictionary : List (κ × ν)} {key : κ} {value : ν} :
    entryAt dictionary key = .ok value ↔ dictionary.lookup key = some value := by
  rw [entryAt]
  cases dictionary.lookup key with
  | none => simp
  | some other => simp

theorem itemAt_eq_ok {list : List α} {index : Nat} {value : α} :
    itemAt list index = .ok value ↔ list[index]? = some value := by
  rw [itemAt]
  cases list[index]? with
  | none => simp
  | some other => simp

end

/-! ## `product_package.py` -/

/-- The loop of `_wasm_u32`; the first argument counts the rounds left. -/
def wasmU32Loop (data : List UInt8) (stop : Nat) : Nat → Nat → Nat → Nat → Checked (Nat × Nat)
  | 0, _, _, _ => .error "Wasm 整数溢出"
  | rounds + 1, index, result, offset => do
      refuseIf (offset ≥ stop) "截断的 Wasm 整数"
      let octet ← itemAt data offset
      let offset := offset + 1
      refuseIf (index == 4 && octet &&& 0xf0 != 0) "Wasm 整数溢出"
      let result := result ||| (octet &&& 0x7f).toNat <<< (7 * index)
      if octet &&& 0x80 == 0 then
        pure (result, offset)
      else
        wasmU32Loop data stop rounds (index + 1) result offset

/-- `_wasm_u32`. -/
def wasmU32 (data : List UInt8) (offset stop : Nat) : Checked (Nat × Nat) :=
  wasmU32Loop data stop 5 0 0 offset

/-! The methods of `_WasmReader`. -/

namespace PackageReader

variable (data : List UInt8)

/-- `u32`. -/
def u32 : Reads Nat := fun offset => wasmU32 data offset data.length

/-- `take`. -/
def take (size : Nat) : Reads (List UInt8) := do
  let offset ← get
  refuseWhen (size > data.length - offset) "截断的 Wasm section"
  set (offset + size)
  pure (slice data offset (offset + size))

/-- `byte`. -/
def byte : Reads UInt8 := do
  let value ← take data 1
  StateT.lift (itemAt value 0)

/-- `reader.take(reader.u32())`. -/
def takeSized : Reads (List UInt8) := do
  let size ← u32 data
  take data size

/-- `len(data) - reader.offset`. -/
def left : Reads Nat := do
  let offset ← get
  pure (data.length - offset)

/-- `name`. -/
def name : Reads (List UInt8) := takeSized data

/-- `finish`. -/
def finish : Reads Unit := do
  let offset ← get
  refuseWhen (offset != data.length) "Wasm section 有尾随数据"

end PackageReader

/-! ## `counter_guest.py` -/

/-! The methods of `Reader`. -/

namespace GuestReader

variable (data : List UInt8)

/-- `byte`. -/
def byte : Reads UInt8 := do
  let offset ← get
  refuseWhen (offset ≥ data.length) "Wasm 结构截断"
  let value ← StateT.lift (itemAt data offset)
  set (offset + 1)
  pure value

theorem byte_eq_ok {data : List UInt8} {offset : Nat} {found : UInt8 × Nat} :
    byte data offset = .ok found ↔ data[offset]? = some found.1 ∧ found.2 = offset + 1 := by
  obtain ⟨value, next⟩ := found
  simp only [byte, reads_bind_eq_ok, get_eq_ok, set_eq_ok, refuseWhen_eq_ok, lift_eq_ok,
    itemAt_eq_ok, reads_pure_eq_ok, decide_eq_false_iff_not, Prod.mk.injEq]
  constructor
  · rintro ⟨_, _, ⟨rfl, rfl⟩, _, _, ⟨-, -, rfl⟩, _, _, ⟨hfound, rfl⟩, _, _, ⟨-, rfl⟩, rfl, rfl⟩
    exact ⟨hfound, rfl⟩
  · rintro ⟨hfound, rfl⟩
    obtain ⟨hoffset, -⟩ := List.getElem?_eq_some_iff.mp hfound
    exact ⟨_, _, ⟨rfl, rfl⟩, (), _, ⟨Nat.not_le.mpr hoffset, trivial, rfl⟩, value, offset,
      ⟨hfound, rfl⟩, (), _, ⟨trivial, rfl⟩, rfl, rfl⟩

/-- `take`. -/
def take (size : Nat) : Reads (List UInt8) := do
  let offset ← get
  refuseWhen (size > data.length - offset) "Wasm 结构截断"
  let result := slice data offset (offset + size)
  set (offset + size)
  pure result

/-- The loop of `u32`: `shift` goes from 0 in steps of 7. The first argument counts the
rounds left. -/
def u32Loop : Nat → Nat → Nat → Reads Nat
  | 0, _, _ => refuse "Wasm 整数溢出"
  | rounds + 1, shift, value => do
      let octet ← byte data
      refuseWhen (shift == 28 && octet &&& 0xf0 != 0) "Wasm 整数溢出"
      let value := value ||| (octet &&& 0x7f).toNat <<< shift
      if octet &&& 0x80 == 0 then pure value else u32Loop rounds (shift + 7) value

/-- `u32`. -/
def u32 : Reads Nat := u32Loop data 5 0 0

/-- `bytes.decode("utf-8")`. -/
def decodeUtf8 (bytes : List UInt8) : Checked String :=
  match String.fromUTF8? ⟨bytes.toArray⟩ with
  | none => .error "Wasm 名称不是 UTF-8"
  | some text => .ok text

/-- `reader.take(reader.u32())`. -/
def takeSized : Reads (List UInt8) := do
  let size ← u32 data
  take data size

/-- `name`. -/
def name : Reads String := do
  let bytes ← takeSized data
  StateT.lift (decodeUtf8 bytes)

/-- `end`. -/
def finish : Reads Unit := do
  let offset ← get
  refuseWhen (offset != data.length) "Wasm section 有尾随数据"

end GuestReader

end Tools
