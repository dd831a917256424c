/-
# Slot geometry

What a valid geometry guarantees about addresses: the slots lie inside the
partition and below `2 ^ 32`, no two of them share a byte, and a chunk padded to
whole write units still ends inside its slot.
-/

import EspContainer.Slots.Engine

namespace Slots

open Binary

variable {geometry : Geometry}

/-- What `econtainer_slots_geometry_valid` guarantees, unit by unit. -/
structure WellPlaced (geometry : Geometry) : Prop where
  writeUnit_pos : 0 < geometry.writeUnitBytes
  writeUnit_dvd_buffer : geometry.writeUnitBytes ∣ slotIoBytes
  writeUnit_dvd_eraseUnit : geometry.writeUnitBytes ∣ geometry.eraseUnitBytes
  eraseUnit_dvd_size : ∀ index, geometry.eraseUnitBytes ∣ (geometry.slots index).sizeBytes
  slot_end : ∀ index, (geometry.slots index).endBytes ≤ uint32Max
  apart : ∀ first second, first ≠ second →
    (geometry.slots first).endBytes ≤ (geometry.slots second).offsetBytes ∨
      (geometry.slots second).endBytes ≤ (geometry.slots first).offsetBytes

/-- A valid geometry is well placed. -/
theorem wellPlaced_of_geometryValid (hvalid : geometryValid geometry = true) :
    WellPlaced geometry := by
  simp only [geometryValid, Bool.or_eq_true, beq_iff_eq, bne_iff_ne, ne_eq, decide_eq_true_eq,
    Bool.if_false_left, Bool.and_eq_true, Bool.not_eq_true', decide_eq_false_iff_not, not_or,
    not_not, not_lt, gt_iff_lt] at hvalid
  obtain ⟨⟨⟨⟨⟨⟨⟨⟨⟨-, -⟩, hwrite⟩, -⟩, hbuffer⟩, herase⟩, -⟩, -⟩, hpartition⟩, hslots⟩ := hvalid
  have hapart : ∀ first second, first < second →
      (geometry.slots first).endBytes ≤ (geometry.slots second).offsetBytes ∨
        (geometry.slots second).endBytes ≤ (geometry.slots first).offsetBytes := by
    intro first second hlt
    have hdisjoint := (hslots second).2.2.2.2.2 first hlt
    simp only [Region.overlaps, Bool.and_eq_true, decide_eq_true_eq, not_and, not_lt] at hdisjoint
    omega
  refine ⟨by omega, Nat.dvd_of_mod_eq_zero hbuffer, Nat.dvd_of_mod_eq_zero herase,
    fun index => Nat.dvd_of_mod_eq_zero (hslots index).2.2.2.1,
    fun index => (hslots index).2.2.2.2.1.trans hpartition, fun first second hne => ?_⟩
  rcases lt_or_gt_of_ne hne with hlt | hgt
  · exact hapart first second hlt
  · exact (hapart second first hgt).symm

theorem Geometry.slot_eq {slot : UInt8} (hslot : slot.toNat < slotCount) :
    geometry.slot slot = geometry.slots ⟨slot.toNat, hslot⟩ := by
  rw [Geometry.slot, dif_pos hslot]

namespace WellPlaced

variable (hplaced : WellPlaced geometry)

include hplaced

theorem slot_endBytes {slot : UInt8} (hslot : slot.toNat < slotCount) :
    (geometry.slot slot).endBytes ≤ uint32Max := by
  rw [Geometry.slot_eq hslot]
  exact hplaced.slot_end _

/-- Two different slots share no byte. -/
theorem disjoint {first second : UInt8} (hfirst : first.toNat < slotCount)
    (hsecond : second.toNat < slotCount) (hne : first ≠ second) :
    (geometry.slot first).endBytes ≤ (geometry.slot second).offsetBytes ∨
      (geometry.slot second).endBytes ≤ (geometry.slot first).offsetBytes := by
  rw [Geometry.slot_eq hfirst, Geometry.slot_eq hsecond]
  exact hplaced.apart _ _ fun heq => hne (UInt8.toNat.inj (by simpa using heq))

/-- A chunk at a buffer boundary, padded to whole write units, ends inside the slot. -/
theorem aligned_end {slot : UInt8} (hslot : slot.toNat < slotCount) {offset actual : Nat}
    (hoffset : slotIoBytes ∣ offset) (hend : offset + actual ≤ (geometry.slot slot).sizeBytes) :
    offset + alignedBytes geometry actual ≤ (geometry.slot slot).sizeBytes := by
  have hsize : geometry.writeUnitBytes ∣ (geometry.slot slot).sizeBytes := by
    rw [Geometry.slot_eq hslot]
    exact hplaced.writeUnit_dvd_eraseUnit.trans (hplaced.eraseUnit_dvd_size _)
  obtain ⟨units, hunits⟩ := hplaced.writeUnit_dvd_buffer.trans hoffset
  obtain ⟨total, htotal⟩ := hsize
  have hpos := hplaced.writeUnit_pos
  -- In write units: the chunk needs no more of them than the slot has left.
  rw [alignedBytes, htotal, hunits, Nat.mul_comm _ geometry.writeUnitBytes, ← Nat.mul_add]
  refine Nat.mul_le_mul_left _ ?_
  have hle : geometry.writeUnitBytes * units + actual ≤ geometry.writeUnitBytes * total := by
    omega
  have hquotient : (actual + geometry.writeUnitBytes - 1) / geometry.writeUnitBytes ≤
      total - units := by
    rw [Nat.div_le_iff_le_mul_add_pred hpos, Nat.mul_sub]
    omega
  have hunitsLe : units ≤ total := Nat.le_of_mul_le_mul_left (by omega) hpos
  omega

/-- A padded chunk is at least as long as the chunk. -/
theorem le_aligned (actual : Nat) : actual ≤ alignedBytes geometry actual := by
  have hpos := hplaced.writeUnit_pos
  have hdiv := Nat.div_add_mod (actual + geometry.writeUnitBytes - 1) geometry.writeUnitBytes
  have hmod := Nat.mod_lt (actual + geometry.writeUnitBytes - 1) hpos
  rw [alignedBytes, Nat.mul_comm]
  omega

end WellPlaced

end Slots
