/-
# Unsigned LEB128 of 32 bits

A number is written in groups of seven bits, lowest first, and every octet but the
last has its top bit set. A reader of 32-bit numbers takes at most five octets, and of
the fifth only the four bits that are left.

`u32` is the decoder as a function of the bytes that are left. The readers of a
program keep a buffer and a cursor instead; `Decodes` is what one of them should find
between its cursor and its end.
-/

import Mathlib.Algebra.BigOperators.Ring.List
import Mathlib.Data.Nat.Bitwise
import Mathlib.Tactic.Ring

namespace Wasm

/-- The number that a group sequence stands for. -/
def groupsValue (octets : List UInt8) : Nat :=
  (octets.mapIdx fun index octet => octet.toNat % 128 * 128 ^ index).sum

/-- A terminated group sequence of a 32-bit number. -/
structure IsU32 (octets : List UInt8) : Prop where
  nonempty : 1 ≤ octets.length
  length_le : octets.length ≤ 5
  continued : ∀ octet ∈ octets.dropLast, 128 ≤ octet.toNat
  terminated : ∀ octet ∈ octets.getLast?, octet.toNat < 128
  fifth : ∀ octet ∈ octets[4]?, octet.toNat < 16

/-- What a reader finds between its cursor and its end: the number and the new cursor. -/
def Decodes (data : List UInt8) (cursor stop value next : Nat) : Prop :=
  ∃ octets, IsU32 octets ∧ octets <+: (data.take stop).drop cursor ∧
    value = groupsValue octets ∧ next = cursor + octets.length

/-- The decoder of a number of at most so many octets, the last of which may be the fifth. -/
def groups : Nat → List UInt8 → Option (Nat × List UInt8)
  | 0, _ => none
  | _ + 1, [] => none
  | left + 1, octet :: octets =>
      if left = 0 ∧ 16 ≤ octet.toNat then
        none
      else if octet.toNat < 128 then
        some (octet.toNat, octets)
      else
        (groups left octets).map fun rest => (octet.toNat % 128 + 128 * rest.1, rest.2)

/-- The decoder of a 32-bit number. -/
def u32 (bytes : List UInt8) : Option (Nat × List UInt8) := groups 5 bytes

/-! ## Group sequences -/

@[simp]
theorem groupsValue_nil : groupsValue [] = 0 := rfl

theorem sum_mapIdx_mul {α : Type} (factor : Nat) (f : Nat → α → Nat) (list : List α) :
    (list.mapIdx fun index value => factor * f index value).sum = factor * (list.mapIdx f).sum := by
  induction list generalizing f with
  | nil => rfl
  | cons value list ih =>
      rw [List.mapIdx_cons, List.mapIdx_cons, List.sum_cons, List.sum_cons, mul_add]
      exact congrArg _ (ih fun index => f (index + 1))

/-- The first octet has the lowest bits. -/
theorem groupsValue_cons (octet : UInt8) (octets : List UInt8) :
    groupsValue (octet :: octets) = octet.toNat % 128 + 128 * groupsValue octets := by
  rw [groupsValue, List.mapIdx_cons, List.sum_cons, pow_zero, mul_one, groupsValue, ← sum_mapIdx_mul]
  congr 3
  funext index other
  ring

/-- A sequence of at most so many octets: it ends at the first octet with a clear top
bit, and what would be the fifth octet is small. -/
def IsGroups : Nat → List UInt8 → Prop
  | 0, _ => False
  | _ + 1, [] => False
  | left + 1, octet :: octets =>
      (left = 0 → octet.toNat < 16) ∧
        if octet.toNat < 128 then octets = [] else IsGroups left octets

@[simp]
theorem isGroups_nil (left : Nat) : ¬ IsGroups left [] := by
  cases left <;> exact id

theorem isGroups_iff {left : Nat} {octets : List UInt8} :
    IsGroups left octets ↔ 1 ≤ octets.length ∧ octets.length ≤ left ∧
      (∀ octet ∈ octets.dropLast, 128 ≤ octet.toNat) ∧
      (∀ octet ∈ octets.getLast?, octet.toNat < 128) ∧
      ∀ octet ∈ octets[left - 1]?, octet.toNat < 16 := by
  induction left generalizing octets with
  | zero =>
      simp only [IsGroups, false_iff]
      rintro ⟨hpos, hle, -⟩
      omega
  | succ left ih =>
      cases octets with
      | nil => simp [IsGroups]
      | cons octet octets =>
          rw [IsGroups]
          cases octets with
          | nil =>
              by_cases hlast : octet.toNat < 128
              · cases left <;> simp [hlast]
              · cases left <;> simp [hlast]
          | cons second octets =>
              by_cases hlast : octet.toNat < 128
              · rw [if_pos hlast]
                simp [Nat.not_le.mpr hlast]
              · rw [if_neg hlast, ih]
                cases left with
                | zero => simp
                | succ left => simp [Nat.not_lt.mp hlast]

theorem isU32_iff {octets : List UInt8} : IsU32 octets ↔ IsGroups 5 octets := by
  rw [isGroups_iff]
  constructor
  · exact fun ⟨hpos, hle, hcontinued, hterminated, hfifth⟩ =>
      ⟨hpos, hle, hcontinued, hterminated, hfifth⟩
  · exact fun ⟨hpos, hle, hcontinued, hterminated, hfifth⟩ =>
      ⟨hpos, hle, hcontinued, hterminated, hfifth⟩

/-- Seven bits for each octet, and four for the fifth. -/
theorem groupsValue_lt {octets : List UInt8} {left : Nat} (hoctets : IsGroups left octets) :
    groupsValue octets < 16 * 128 ^ (left - 1) := by
  induction left generalizing octets with
  | zero => exact absurd hoctets id
  | succ left ih =>
      cases octets with
      | nil => exact absurd hoctets (isGroups_nil _)
      | cons octet octets =>
          obtain ⟨hlast, hrest⟩ := hoctets
          rw [groupsValue_cons]
          cases left with
          | zero =>
              have hsmall := hlast rfl
              rw [if_pos (by omega)] at hrest
              subst hrest
              simp only [groupsValue_nil]
              omega
          | succ left =>
              have hnext : 128 ^ (left + 1) = 128 * 128 ^ left := Nat.pow_succ'
              by_cases hend : octet.toNat < 128
              · rw [if_pos hend] at hrest
                subst hrest
                have hpos : 0 < 128 ^ left := Nat.pow_pos (by decide)
                simp only [groupsValue_nil, Nat.add_sub_cancel]
                omega
              · rw [if_neg hend] at hrest
                have hbound := ih hrest
                simp only [Nat.add_sub_cancel] at hbound ⊢
                omega

/-- A number of five octets fits 32 bits. -/
theorem IsU32.lt {octets : List UInt8} (hoctets : IsU32 octets) :
    groupsValue octets < 2 ^ 32 :=
  groupsValue_lt (isU32_iff.mp hoctets)

/-! ## The decoder -/

theorem groups_eq_some {left : Nat} {bytes rest : List UInt8} {value : Nat} :
    groups left bytes = some (value, rest) ↔
      ∃ octets, IsGroups left octets ∧ bytes = octets ++ rest ∧ value = groupsValue octets := by
  induction left generalizing bytes value with
  | zero => simp [groups, IsGroups]
  | succ left ih =>
      cases bytes with
      | nil =>
          simp only [groups, reduceCtorEq, false_iff, not_exists, not_and]
          intro octets hoctets hbytes
          obtain ⟨rfl, -⟩ := List.append_eq_nil_iff.mp hbytes.symm
          exact absurd hoctets id
      | cons octet tail =>
          -- The sequence begins with the first byte.
          have hcons : (∃ octets, IsGroups (left + 1) octets ∧ octet :: tail = octets ++ rest ∧
                value = groupsValue octets) ↔
              ∃ octets, IsGroups (left + 1) (octet :: octets) ∧ tail = octets ++ rest ∧
                value = groupsValue (octet :: octets) := by
            constructor
            · rintro ⟨_ | ⟨first, octets⟩, hoctets, hbytes, hvalue⟩
              · exact absurd hoctets (isGroups_nil _)
              · obtain ⟨rfl, rfl⟩ := List.cons.inj hbytes
                exact ⟨octets, hoctets, rfl, hvalue⟩
            · rintro ⟨octets, hoctets, rfl, hvalue⟩
              exact ⟨octet :: octets, hoctets, rfl, hvalue⟩
          rw [hcons, groups]
          by_cases hfifth : left = 0 ∧ 16 ≤ octet.toNat
          · rw [if_pos hfifth]
            simp [IsGroups, hfifth.1, Nat.not_lt.mpr hfifth.2]
          rw [if_neg hfifth]
          have hsmall : left = 0 → octet.toNat < 16 := fun hleft => by
            by_contra hlarge
            exact hfifth ⟨hleft, Nat.not_lt.mp hlarge⟩
          by_cases hend : octet.toNat < 128
          · rw [if_pos hend]
            simp only [IsGroups, if_pos hend, groupsValue_cons]
            constructor
            · intro hvalue
              obtain ⟨rfl, rfl⟩ := Prod.mk.inj (Option.some.inj hvalue)
              exact ⟨[], ⟨hsmall, rfl⟩, rfl, by simp [Nat.mod_eq_of_lt hend]⟩
            · rintro ⟨_, ⟨-, rfl⟩, rfl, rfl⟩
              simp [Nat.mod_eq_of_lt hend]
          · rw [if_neg hend]
            simp only [IsGroups, if_neg hend, groupsValue_cons]
            constructor
            · intro hvalue
              obtain ⟨⟨found, after⟩, hfound, hpair⟩ := Option.map_eq_some_iff.mp hvalue
              obtain ⟨rfl, rfl⟩ := Prod.mk.inj hpair
              obtain ⟨octets, hoctets, rfl, rfl⟩ := ih.mp hfound
              exact ⟨octets, ⟨hsmall, hoctets⟩, rfl, rfl⟩
            · rintro ⟨octets, ⟨-, hoctets⟩, rfl, rfl⟩
              rw [ih.mpr ⟨octets, hoctets, rfl, rfl⟩]
              rfl

/-- The decoder finds exactly the terminated group sequences. -/
theorem u32_eq_some {bytes rest : List UInt8} {value : Nat} :
    u32 bytes = some (value, rest) ↔
      ∃ octets, IsU32 octets ∧ bytes = octets ++ rest ∧ value = groupsValue octets := by
  simp only [u32, groups_eq_some, isU32_iff]

/-! ## Reading with a cursor -/

/-- The decoder on a buffer and a cursor, which moves behind the number. -/
def readAt (bytes : List UInt8) (cursor : Nat) : Option (Nat × Nat) :=
  (u32 (bytes.drop cursor)).map fun found => (found.1, bytes.length - found.2.length)

theorem readAt_eq_some {data : List UInt8} {cursor stop value next : Nat} :
    readAt (data.take stop) cursor = some (value, next) ↔ Decodes data cursor stop value next := by
  have hend {octets rest : List UInt8} (hoctets : IsU32 octets)
      (hbytes : (data.take stop).drop cursor = octets ++ rest) :
      (data.take stop).length - rest.length = cursor + octets.length := by
    have hlength := congrArg List.length hbytes
    have hpos := hoctets.nonempty
    rw [List.length_drop, List.length_append] at hlength
    omega
  constructor
  · intro hread
    obtain ⟨⟨found, rest⟩, hfound, hpair⟩ := Option.map_eq_some_iff.mp hread
    obtain ⟨octets, hoctets, hbytes, rfl⟩ := u32_eq_some.mp hfound
    obtain ⟨rfl, rfl⟩ := Prod.mk.inj hpair
    exact ⟨octets, hoctets, ⟨rest, hbytes.symm⟩, rfl, hend hoctets hbytes⟩
  · rintro ⟨octets, hoctets, ⟨rest, hbytes⟩, rfl, rfl⟩
    rw [readAt, u32_eq_some.mpr ⟨octets, hoctets, hbytes.symm, rfl⟩, ← hend hoctets hbytes.symm]
    rfl

/-- The loop of such a reader, with the number so far in `result`. -/
def accumulate (bytes : List UInt8) : Nat → Nat → Nat → Nat → Option (Nat × Nat)
  | 0, _, _, _ => none
  | left + 1, index, result, cursor =>
      match bytes[cursor]? with
      | none => none
      | some octet =>
          if index = 4 ∧ octet &&& 0xf0 ≠ 0 then
            none
          else if octet &&& 0x80 = 0 then
            some (result ||| (octet &&& 0x7f).toNat <<< (7 * index), cursor + 1)
          else
            accumulate bytes left (index + 1) (result ||| (octet &&& 0x7f).toNat <<< (7 * index))
              (cursor + 1)

theorem accumulate_of_none {bytes : List UInt8} {cursor : Nat} (hnone : bytes[cursor]? = none)
    (left index result : Nat) : accumulate bytes left index result cursor = none := by
  cases left with
  | zero => rfl
  | succ left => simp only [accumulate, hnone]

/-- A round of the loop, with its checks as a program makes them. -/
theorem accumulate_of_some {bytes : List UInt8} {cursor : Nat} {octet : UInt8}
    (hoctet : bytes[cursor]? = some octet) (left index result : Nat) :
    accumulate bytes (left + 1) index result cursor =
      if (index == 4 && octet &&& 0xf0 != 0) = true then
        none
      else if (octet &&& 0x80 == 0) = true then
        some (result ||| (octet &&& 0x7f).toNat <<< (7 * index), cursor + 1)
      else
        accumulate bytes left (index + 1) (result ||| (octet &&& 0x7f).toNat <<< (7 * index))
          (cursor + 1) := by
  simp only [accumulate, hoctet, Bool.and_eq_true, beq_iff_eq, bne_iff_ne]

/-- The three masks of a reader. -/
theorem octet_masks (octet : UInt8) :
    (octet &&& 0xf0 = 0 ↔ octet.toNat < 16) ∧ (octet &&& 0x80 = 0 ↔ octet.toNat < 128) ∧
      (octet &&& 0x7f).toNat = octet.toNat % 128 := by
  have hall : ∀ number : Fin 256,
      (UInt8.ofNat number &&& 0xf0 = 0 ↔ (UInt8.ofNat number).toNat < 16) ∧
      (UInt8.ofNat number &&& 0x80 = 0 ↔ (UInt8.ofNat number).toNat < 128) ∧
      (UInt8.ofNat number &&& 0x7f).toNat = (UInt8.ofNat number).toNat % 128 := by
    decide +kernel
  have hoctet := hall ⟨octet.toNat, octet.toNat_lt⟩
  rwa [UInt8.ofNat_toNat] at hoctet

/-- A group goes above the bits that are there. -/
theorem or_group {result index group : Nat} (hresult : result < 128 ^ index) :
    result ||| group <<< (7 * index) = result + 128 ^ index * group := by
  have hpower : 128 ^ index = 2 ^ (7 * index) := by rw [pow_mul]; rfl
  rw [hpower] at hresult ⊢
  rw [Nat.lor_comm, Nat.shiftLeft_eq, mul_comm group, ← Nat.two_pow_add_eq_or_of_lt hresult,
    add_comm]

/-- The loop decodes what is left. -/
theorem accumulate_eq {bytes : List UInt8} {left index result cursor : Nat}
    (hindex : index + left = 5) (hresult : result < 128 ^ index) :
    accumulate bytes left index result cursor =
      (groups left (bytes.drop cursor)).map fun found =>
        (result + 128 ^ index * found.1, bytes.length - found.2.length) := by
  induction left generalizing index result cursor with
  | zero => rfl
  | succ left ih =>
      rw [accumulate]
      by_cases hcursor : cursor < bytes.length
      · obtain ⟨hfifth, hend, hgroup⟩ := octet_masks bytes[cursor]
        have hplace : 128 ^ (index + 1) = 128 * 128 ^ index := Nat.pow_succ'
        have hrest : bytes.length - (bytes.drop (cursor + 1)).length = cursor + 1 := by
          rw [List.length_drop]
          omega
        rw [List.getElem?_eq_getElem hcursor, List.drop_eq_getElem_cons hcursor, groups]
        simp only
        have hlast : (index = 4 ∧ bytes[cursor] &&& 0xf0 ≠ 0) ↔
            left = 0 ∧ 16 ≤ bytes[cursor].toNat := by
          rw [ne_eq, hfifth, Nat.not_lt]
          exact and_congr_left fun _ => by omega
        simp only [hlast, hend, hgroup, or_group hresult]
        split
        · rfl
        split
        · next hsmall => rw [Option.map_some, hrest, Nat.mod_eq_of_lt hsmall]
        · have hnext : result + 128 ^ index * (bytes[cursor].toNat % 128) < 128 ^ (index + 1) := by
            have hsmall : bytes[cursor].toNat % 128 ≤ 127 := by omega
            have hscaled := Nat.mul_le_mul_left (128 ^ index) hsmall
            omega
          rw [ih (by omega) hnext, Option.map_map]
          congr 1
          funext found
          simp only [Function.comp_apply, hplace]
          congr 1
          ring
      · rw [List.getElem?_eq_none (Nat.not_lt.mp hcursor),
          List.drop_eq_nil_of_le (Nat.not_lt.mp hcursor)]
        rfl

/-- The loop is the decoder. -/
theorem accumulate_eq_readAt (bytes : List UInt8) (cursor : Nat) :
    accumulate bytes 5 0 0 cursor = readAt bytes cursor := by
  rw [accumulate_eq rfl (by decide), readAt, u32]
  congr 1
  funext found
  simp

end Wasm
