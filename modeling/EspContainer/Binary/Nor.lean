/-
# Writes in order, and the memory they leave

A list of writes is contiguous if each of them begins where the one before it
ended. Such writes share no byte, and what they carry together can be read off
the addresses they cover.

In a NOR memory a byte is erased to all ones and then programmed once: a write
to erased bytes stores them, and what a write to other bytes leaves is open.
Contiguous writes to an erased range therefore store what they carry.
-/

import Mathlib.Data.List.Basic

namespace Binary

/-- Bytes to be stored from an address on. -/
structure Write where
  /-- Where the first byte goes. -/
  address : Nat
  /-- What is stored. -/
  bytes : List UInt8

namespace Write

/-- The first address behind a write. -/
def endAddress (write : Write) : Nat := write.address + write.bytes.length

/-- The bytes of several writes, in order. -/
def carried (writes : List Write) : List UInt8 := writes.flatMap bytes

@[simp]
theorem carried_nil : carried [] = [] := rfl

@[simp]
theorem carried_cons (write : Write) (writes : List Write) :
    carried (write :: writes) = write.bytes ++ carried writes := rfl

@[simp]
theorem carried_append (first second : List Write) :
    carried (first ++ second) = carried first ++ carried second :=
  List.flatMap_append

/-- The first write begins at the address, and each other where the one before it ended. -/
def Contiguous : Nat → List Write → Prop
  | _, [] => True
  | address, write :: writes => write.address = address ∧ Contiguous write.endAddress writes

@[simp]
theorem contiguous_nil (address : Nat) : Contiguous address [] := trivial

@[simp]
theorem contiguous_cons {address : Nat} {write : Write} {writes : List Write} :
    Contiguous address (write :: writes) ↔
      write.address = address ∧ Contiguous write.endAddress writes := Iff.rfl

theorem contiguous_append {address : Nat} {first second : List Write} :
    Contiguous address (first ++ second) ↔
      Contiguous address first ∧ Contiguous (address + (carried first).length) second := by
  induction first generalizing address with
  | nil => simp
  | cons write first ih =>
      simp only [List.cons_append, contiguous_cons, ih, carried_cons, List.length_append, and_assoc,
        endAddress]
      apply and_congr_right
      intro haddress
      rw [haddress, Nat.add_assoc]

namespace Contiguous

variable {address : Nat} {writes : List Write}

/-- Contiguous writes stay between their first address and the end of what they carry. -/
theorem bounds (hcontiguous : Contiguous address writes) {write : Write} (hwrite : write ∈ writes) :
    address ≤ write.address ∧ write.endAddress ≤ address + (carried writes).length := by
  induction writes generalizing address with
  | nil => cases hwrite
  | cons head writes ih =>
      obtain ⟨rfl, hrest⟩ := hcontiguous
      rw [carried_cons, List.length_append]
      rcases List.mem_cons.mp hwrite with rfl | hwrite
      · rw [endAddress]
        omega
      · have hbounds := ih hrest hwrite
        rw [show head.endAddress = head.address + head.bytes.length from rfl] at hbounds
        omega

/-- Contiguous writes are apart, in ascending order. -/
theorem pairwise (hcontiguous : Contiguous address writes) :
    writes.Pairwise fun first second => first.endAddress ≤ second.address := by
  induction writes generalizing address with
  | nil => exact .nil
  | cons head writes ih =>
      obtain ⟨-, hrest⟩ := hcontiguous
      exact .cons (fun write hwrite => (hrest.bounds hwrite).1) (ih hrest)

/-- Contiguous writes of whole units from a unit boundary begin at unit boundaries. -/
theorem dvd {unit : Nat} (hcontiguous : Contiguous address writes) (haddress : unit ∣ address)
    (hunits : ∀ write ∈ writes, unit ∣ write.bytes.length) {write : Write}
    (hwrite : write ∈ writes) : unit ∣ write.address := by
  induction writes generalizing address with
  | nil => cases hwrite
  | cons head writes ih =>
      obtain ⟨rfl, hrest⟩ := hcontiguous
      rcases List.mem_cons.mp hwrite with rfl | hwrite
      · exact haddress
      · have hnext : unit ∣ head.endAddress := Nat.dvd_add haddress (hunits _ List.mem_cons_self)
        exact ih hrest hnext (fun write hmem => hunits write (List.mem_cons_of_mem _ hmem)) hwrite

end Contiguous

end Write

/-! ## NOR memory -/

/-- What a NOR memory holds, and which of its bytes are erased. -/
structure Nor where
  /-- The stored bytes. -/
  contents : Nat → UInt8
  /-- The bytes that were erased and not written since. -/
  erased : Nat → Prop

namespace Nor

/-- The bytes stored from an address on. -/
def bytes (memory : Nor) (address size : Nat) : List UInt8 :=
  (List.range size).map fun index => memory.contents (address + index)

theorem bytes_add (memory : Nor) (address first second : Nat) :
    memory.bytes address (first + second) =
      memory.bytes address first ++ memory.bytes (address + first) second := by
  simp [bytes, List.range_add, Nat.add_assoc]

/-- An erase sets a range to all ones. -/
structure Erases (before : Nor) (address size : Nat) (after : Nor) : Prop where
  erased : ∀ byte, after.erased byte ↔ before.erased byte ∨ address ≤ byte ∧ byte < address + size
  inside : ∀ byte, address ≤ byte → byte < address + size → after.contents byte = 0xff
  outside : ∀ byte, byte < address ∨ address + size ≤ byte →
    after.contents byte = before.contents byte

/-- A write to erased bytes stores them. -/
structure Programs (before : Nor) (write : Write) (after : Nor) : Prop where
  erased : ∀ byte, after.erased byte ↔
    before.erased byte ∧ (byte < write.address ∨ write.endAddress ≤ byte)
  inside : (∀ byte, write.address ≤ byte → byte < write.endAddress → before.erased byte) →
    after.bytes write.address write.bytes.length = write.bytes
  outside : ∀ byte, byte < write.address ∨ write.endAddress ≤ byte →
    after.contents byte = before.contents byte

/-- Writes made one after another. -/
def ProgramsAll : Nor → List Write → Nor → Prop
  | before, [], after => before = after
  | before, write :: writes, after =>
      ∃ middle, before.Programs write middle ∧ middle.ProgramsAll writes after

/-- A byte that no write covers is kept. -/
theorem ProgramsAll.contents_eq {before after : Nor} {writes : List Write}
    (hwrites : before.ProgramsAll writes after) {byte : Nat}
    (houtside : ∀ write ∈ writes, byte < write.address ∨ write.endAddress ≤ byte) :
    after.contents byte = before.contents byte := by
  induction writes generalizing before with
  | nil => exact congrFun (congrArg contents hwrites.symm) byte
  | cons write writes ih =>
      obtain ⟨middle, hwrite, hrest⟩ := hwrites
      have hkept := ih hrest fun later hlater => houtside later (List.mem_cons_of_mem _ hlater)
      exact hkept.trans (hwrite.outside byte (houtside write List.mem_cons_self))

/-- Contiguous writes to erased bytes store what they carry. -/
theorem ProgramsAll.bytes_eq {before after : Nor} {writes : List Write}
    (hwrites : before.ProgramsAll writes after) {address : Nat}
    (hcontiguous : Write.Contiguous address writes)
    (herased : ∀ byte, address ≤ byte → byte < address + (Write.carried writes).length →
      before.erased byte) :
    after.bytes address (Write.carried writes).length = Write.carried writes := by
  induction writes generalizing before address with
  | nil => rfl
  | cons write writes ih =>
      obtain ⟨middle, hwrite, hrest⟩ := hwrites
      obtain ⟨rfl, hcontiguous⟩ := hcontiguous
      have hend : write.endAddress = write.address + write.bytes.length := rfl
      simp only [Write.carried_cons, List.length_append] at herased ⊢
      have hstored : middle.bytes write.address write.bytes.length = write.bytes :=
        hwrite.inside fun byte hlower hupper => herased byte hlower (by omega)
      have hkept : after.bytes write.address write.bytes.length =
          middle.bytes write.address write.bytes.length := by
        apply List.map_congr_left
        intro index hindex
        rw [List.mem_range] at hindex
        apply hrest.contents_eq
        intro later hlater
        have hbounds := hcontiguous.bounds hlater
        omega
      have hlater := ih hrest hcontiguous fun byte hlower hupper =>
        (hwrite.erased byte).mpr ⟨herased byte (by omega) (by omega), .inr hlower⟩
      rw [bytes_add, hkept, hstored, ← hend, hlater]

end Nor

end Binary
