/-
# What the provider forwards

The provider checks every flash request against the package partition, and binding
has checked that the partition shares no byte with the record's. So whatever range is
asked for, what reaches ESP-IDF lies in the package partition and spares the record.

The engine checks the same addresses in another way: sums of slot bounds against the
geometry, where the provider subtracts from the partition's size. The two agree. Each
request that the engine makes of a valid geometry passes the provider's checks, so a
refusal is never the provider's.
-/

import EspContainer.Package.Confinement
import EspContainer.Slots.Provider

namespace Slots

open Binary Interaction Package

variable {table : PartitionTable} {config : SlotsIdfConfig} {provider : SlotsIdfProvider}

/-! ## Binding -/

/-- What a provider is bound to: two different partitions that share no byte, and the
geometry of the slots in the first. -/
structure Bound (table : PartitionTable) (config : SlotsIdfConfig) (provider : SlotsIdfProvider)
    (package nvs : Nat) : Prop where
  packageFound : table.findFirst .undefined (config.packagePartitionLabel.getD []) = some package
  nvsFound : table.findFirst .nvs (config.nvsPartitionLabel.getD []) = some nvs
  partition : provider.packagePartition = some package
  geometry : provider.geometry = config.geometry (table.partition package)
  valid : geometryValid provider.geometry = true
  callbacks : provider.io = .provider
  apart : (table.partition nvs).address.toNat + (table.partition nvs).size.toNat ≤
      (table.partition package).address.toNat ∨
    (table.partition package).address.toNat + (table.partition package).size.toNat ≤
      (table.partition nvs).address.toNat

/-- What binding checked holds of the provider it filled in. -/
theorem bound_of_bindProvider (hbind : bindProvider table config = some provider) :
    ∃ package nvs, Bound table config provider package nvs := by
  unfold bindProvider at hbind
  split at hbind
  · cases hbind
  split at hbind
  · next package nvs hpackage hnvs =>
    split at hbind
    · cases hbind
    next hmatched =>
    split at hbind
    · cases hbind
    next hgeometry =>
    obtain rfl := Option.some.inj hbind
    simp only [SlotsIdfConfig.mismatched, Bool.or_eq_true, Bool.and_eq_true, decide_eq_true_eq,
      not_or, not_and, not_lt] at hmatched
    have hapart := hmatched.1.2
    refine ⟨package, nvs, ⟨hpackage, hnvs, rfl, rfl, by simpa using hgeometry, rfl, ?_⟩⟩
    by_cases hbefore : (table.partition package).address.toNat <
        (table.partition nvs).address.toNat + (table.partition nvs).size.toNat
    · exact .inr (hapart hbefore)
    · exact .inl (Nat.le_of_not_lt hbefore)
  · cases hbind

/-- A bound provider comes from a configuration. -/
theorem bindProvider_of_slotsIdfBind {before : SlotsIdfProvider} {config : Option SlotsIdfConfig}
    (hbind : slotsIdfBind table (some before) config = (true, some provider)) :
    ∃ given, config = some given ∧ bindProvider table given = some provider := by
  simp only [slotsIdfBind] at hbind
  split at hbind
  · cases hbind
  · next bound hbound =>
    obtain ⟨given, hgiven, hprovider⟩ := Option.bind_eq_some_iff.mp hbound
    obtain rfl := Option.some.inj (Prod.mk.inj hbind).2
    exact ⟨given, hgiven, hprovider⟩

/-- A provider that was not bound is cleared. -/
theorem zero_of_slotsIdfBind {before : SlotsIdfProvider} {config : Option SlotsIdfConfig}
    (hbind : (slotsIdfBind table (some before) config).1 = false) :
    (slotsIdfBind table (some before) config).2 = some .zero := by
  simp only [slotsIdfBind] at hbind ⊢
  split at hbind
  · rfl
  · cases hbind

/-! ## Confinement -/

/-- The absolute range lies in the package partition, where it starts `relative` bytes
behind the beginning, and shares no byte with the record's partition. -/
structure Confined (package nvs : Partition) (offset size relative : Nat) : Prop where
  pos : 0 < size
  lower : package.address.toNat ≤ offset
  upper : offset + size ≤ package.address.toNat + package.size.toNat
  relative_eq : package.address.toNat + relative = offset
  relative_end : relative + size ≤ package.size.toNat
  apart : nvs.address.toNat + nvs.size.toNat ≤ offset ∨ offset + size ≤ nvs.address.toNat

/-- The partition, the relative offset and the size of a flash call of ESP-IDF. -/
def IdfCall.range : IdfCall → Option (Option Nat × Nat × Nat)
  | .partitionRead partition offset size => some (partition, offset, size)
  | .partitionEraseRange partition offset size => some (partition, offset, size)
  | .partitionWrite partition offset size _ => some (partition, offset, size)
  | _ => none

/-- The call is a flash call for this absolute range. -/
def ForRange (table : PartitionTable) (package nvs : Nat) (offset size : Nat) (call : IdfCall) :
    Prop :=
  ∃ relative, call.range = some (some package, relative, size) ∧
    Confined (table.partition package) (table.partition nvs) offset size relative

/-- The subtractive check says that the range lies in the partition. -/
theorem rangeValid_iff {partition : Partition} {offsetBytes : UInt32} {sizeBytes : Nat} :
    rangeValid partition offsetBytes sizeBytes = true ↔
      0 < sizeBytes ∧ partition.address.toNat ≤ offsetBytes.toNat ∧
        offsetBytes.toNat + sizeBytes ≤ partition.address.toNat + partition.size.toNat := by
  simp only [rangeValid, Bool.and_eq_true, decide_eq_true_eq, gt_iff_lt, ge_iff_le,
    UInt32.le_iff_toNat_le]
  by_cases hlower : partition.address.toNat ≤ offsetBytes.toNat
  · rw [UInt32.toNat_sub_of_le _ _ (UInt32.le_iff_toNat_le.mpr hlower)]
    omega
  · exact iff_of_false (fun h => hlower h.1.2) fun h => hlower h.2.1

namespace Bound

variable {package nvs : Nat}

theorem partition_eq (hbound : Bound table config provider package nvs) :
    provider.partition table = table.partition package := by
  rw [SlotsIdfProvider.partition, hbound.partition]
  rfl

/-- What passes the range check is passed on relative to the package partition. -/
theorem confined (hbound : Bound table config provider package nvs) {offsetBytes : UInt32}
    {sizeBytes : Nat} (hrange : rangeValid (provider.partition table) offsetBytes sizeBytes = true) :
    Confined (table.partition package) (table.partition nvs) offsetBytes.toNat sizeBytes
      (provider.relative table offsetBytes) := by
  rw [SlotsIdfProvider.relative]
  rw [hbound.partition_eq] at hrange ⊢
  obtain ⟨hpos, hlower, hupper⟩ := rangeValid_iff.mp hrange
  have hrelative := UInt32.toNat_sub_of_le _ _ (UInt32.le_iff_toNat_le.mpr hlower)
  have hapart := hbound.apart
  refine ⟨hpos, hlower, hupper, ?_, ?_, ?_⟩
  · omega
  · omega
  · omega

/-- A read is forwarded only inside the package partition. -/
theorem confined_flashRead (hbound : Bound table config provider package nvs)
    (offsetBytes : UInt32) (hasDestination : Bool) (sizeBytes : Nat) :
    (providerFlashRead table provider offsetBytes hasDestination sizeBytes).Uses
      (ForRange table package nvs offsetBytes.toNat sizeBytes) := by
  unfold providerFlashRead
  split
  · next hchecked =>
    rw [Bool.and_eq_true] at hchecked
    apply Program.uses_call
    exact ⟨_, by rw [IdfCall.range, hbound.partition], hbound.confined hchecked.2⟩
  · trivial

/-- An erase is forwarded only inside the package partition. -/
theorem confined_flashErase (hbound : Bound table config provider package nvs)
    (offsetBytes sizeBytes : UInt32) :
    (providerFlashErase table provider offsetBytes sizeBytes).Uses
      (ForRange table package nvs offsetBytes.toNat sizeBytes.toNat) := by
  unfold providerFlashErase
  split
  · next hchecked =>
    rw [Bool.and_eq_true, Bool.and_eq_true] at hchecked
    apply Program.uses_call
    exact ⟨_, by rw [IdfCall.range, hbound.partition], hbound.confined hchecked.1.1⟩
  · trivial

/-- A write is forwarded only inside the package partition. -/
theorem confined_flashWrite (hbound : Bound table config provider package nvs)
    (offsetBytes : UInt32) (source : Option (List UInt8)) (sizeBytes : Nat) :
    (providerFlashWrite table provider offsetBytes source sizeBytes).Uses
      (ForRange table package nvs offsetBytes.toNat sizeBytes) := by
  cases source with
  | none => trivial
  | some source =>
      simp only [providerFlashWrite]
      split
      · next hchecked =>
        rw [Bool.and_eq_true, Bool.and_eq_true] at hchecked
        apply Program.uses_call
        exact ⟨_, by rw [IdfCall.range, hbound.partition], hbound.confined hchecked.1.1⟩
      · trivial

end Bound

/-! ## Agreement with the engine -/

/-- A flash call of the engine that the provider passes on, with the offset taken
relative to the package partition; its answer is that of ESP-IDF. -/
def PassedOn (table : PartitionTable) (provider : SlotsIdfProvider) (call : SlotsCall) : Prop :=
  let base := (provider.partition table).address.toNat
  match call with
  | .flashRead offset size =>
      serveProvider table provider (.flashRead offset size) =
        Program.call (I := IdfPort)
          (.partitionRead provider.packagePartition (offset - base) size)
  | .flashErase offset size =>
      serveProvider table provider (.flashErase offset size) =
        Program.call (I := IdfPort)
          (.partitionEraseRange provider.packagePartition (offset - base) size)
  | .flashWrite offset bytes =>
      serveProvider table provider (.flashWrite offset bytes) =
        Program.call (I := IdfPort)
          (.partitionWrite provider.packagePartition (offset - base) bytes.length bytes)
  | _ => True

/-- A valid geometry keeps the partition below the end of the 32-bit addresses. -/
theorem partition_end_of_geometryValid {geometry : Geometry}
    (hvalid : geometryValid geometry = true) :
    geometry.partitionOffsetBytes + geometry.partitionSizeBytes ≤ uint32Max := by
  simp only [geometryValid, Bool.if_false_left, Bool.and_eq_true, Bool.not_eq_true',
    decide_eq_false_iff_not] at hvalid
  by_contra hover
  apply hvalid.1
  rw [Bool.or_eq_true, decide_eq_true_eq]
  exact .inr (Nat.lt_of_not_le hover)

namespace Bound

variable {package nvs : Nat}

/-- A range of a slot passes the range check and is passed on without wrapping. -/
theorem rangeValid_of_inSlot (hbound : Bound table config provider package nvs)
    {offset size : Nat} (hrange : InSlot provider.geometry offset size) :
    offset < 4294967296 ∧ size < 4294967296 ∧
      rangeValid (provider.partition table) (.ofNat offset) size = true ∧
      provider.relative table (.ofNat offset) =
        offset - (provider.partition table).address.toNat := by
  obtain ⟨hpos, index, hlower, hupper⟩ := hrange
  obtain ⟨-, hslotLower, -, hslotUpper⟩ := slots_of_geometryValid hbound.valid index
  have hend := partition_end_of_geometryValid hbound.valid
  have hoffset : provider.geometry.partitionOffsetBytes =
      (provider.partition table).address.toNat := by
    rw [hbound.geometry, hbound.partition_eq]
    rfl
  have hsize : provider.geometry.partitionSizeBytes = (provider.partition table).size.toNat := by
    rw [hbound.geometry, hbound.partition_eq]
    rfl
  have haddress : (UInt32.ofNat offset).toNat = offset := by
    apply UInt32.toNat_ofNat_of_lt'
    simp only [uint32Max] at hend
    change offset < 4294967296
    omega
  have hbase : (provider.partition table).address ≤ UInt32.ofNat offset := by
    rw [UInt32.le_iff_toNat_le, haddress]
    omega
  simp only [uint32Max] at hend
  refine ⟨by omega, by omega, ?_, ?_⟩
  · rw [rangeValid_iff, haddress]
    omega
  · rw [SlotsIdfProvider.relative, UInt32.toNat_sub_of_le _ _ hbase, haddress]

/-- Every flash call that is placed well in the bound geometry is passed on. -/
theorem passedOn (hbound : Bound table config provider package nvs) {call : SlotsCall}
    (hcall : Placed provider.geometry call) : PassedOn table provider call := by
  cases call with
  | flashRead offset size =>
      obtain ⟨-, -, hrange, hrelative⟩ := hbound.rangeValid_of_inSlot hcall
      rw [PassedOn, serveProvider, providerFlashRead, if_pos (by simpa using hrange), hrelative]
  | flashErase offset size =>
      obtain ⟨hinSlot, hoffsetUnits, hsizeUnits⟩ := hcall
      obtain ⟨hoffset, hsize, hrange, hrelative⟩ := hbound.rangeValid_of_inSlot hinSlot
      have hsizeEq : (UInt32.ofNat size).toNat = size := UInt32.toNat_ofNat_of_lt' hsize
      have hoffsetEq : (UInt32.ofNat offset).toNat = offset := UInt32.toNat_ofNat_of_lt' hoffset
      rw [PassedOn, serveProvider, providerFlashErase, hsizeEq, hoffsetEq, if_pos, hrelative]
      simp [hrange, Nat.mod_eq_zero_of_dvd hoffsetUnits, Nat.mod_eq_zero_of_dvd hsizeUnits]
  | flashWrite offset bytes =>
      obtain ⟨hinSlot, hoffsetUnits, hsizeUnits⟩ := hcall
      obtain ⟨hoffset, -, hrange, hrelative⟩ := hbound.rangeValid_of_inSlot hinSlot
      have hoffsetEq : (UInt32.ofNat offset).toNat = offset := UInt32.toNat_ofNat_of_lt' hoffset
      rw [PassedOn, serveProvider, providerFlashWrite, hoffsetEq, if_pos, hrelative]
      simp [hrange, Nat.mod_eq_zero_of_dvd hoffsetUnits, Nat.mod_eq_zero_of_dvd hsizeUnits]
  | _ => trivial

end Bound

/-- The provider confines the slot engine and never obstructs it. A provider that was not
bound is cleared. A bound one forwards a flash request, whatever offset and size it is
asked for, only for a range of the package partition that spares the record's partition;
and it passes on every flash request of the engine on its geometry, for every validator
that makes no empty request, of which candidate admission is one. -/
theorem provider_confines (table : PartitionTable) (before : SlotsIdfProvider)
    (config : Option SlotsIdfConfig) :
    ((slotsIdfBind table (some before) config).1 = false →
      (slotsIdfBind table (some before) config).2 = some .zero) ∧
    (∀ provider, slotsIdfBind table (some before) config = (true, some provider) →
      ∃ given package nvs, config = some given ∧
        table.findFirst .undefined (given.packagePartitionLabel.getD []) = some package ∧
        table.findFirst .nvs (given.nvsPartitionLabel.getD []) = some nvs ∧
        (∀ offsetBytes hasDestination sizeBytes,
          (providerFlashRead table provider offsetBytes hasDestination sizeBytes).Uses
            (ForRange table package nvs offsetBytes.toNat sizeBytes)) ∧
        (∀ offsetBytes sizeBytes, (providerFlashErase table provider offsetBytes sizeBytes).Uses
          (ForRange table package nvs offsetBytes.toNat sizeBytes.toNat)) ∧
        (∀ offsetBytes source sizeBytes,
          (providerFlashWrite table provider offsetBytes source sizeBytes).Uses
            (ForRange table package nvs offsetBytes.toNat sizeBytes)) ∧
        provider.io.valid = true ∧
        ∀ sha256 (request : Request),
          (∀ validateFn, request.validator = some validateFn → ReadsBytes validateFn) →
          (request.program sha256 provider.geometry).Uses (PassedOn table provider)) ∧
    (∀ crypto validation workspace, ReadsBytes (slotValidator crypto validation workspace)) := by
  refine ⟨zero_of_slotsIdfBind, ?_, readsBytes_slotValidator⟩
  intro provider hbind
  obtain ⟨given, hgiven, hprovider⟩ := bindProvider_of_slotsIdfBind hbind
  obtain ⟨package, nvs, hbound⟩ := bound_of_bindProvider hprovider
  refine ⟨given, package, nvs, hgiven, hbound.packageFound, hbound.nvsFound,
    hbound.confined_flashRead, hbound.confined_flashErase, hbound.confined_flashWrite, ?_, ?_⟩
  · rw [hbound.callbacks]
    rfl
  · intro sha256 request hreads
    exact (placed_program request hreads).mono fun _ hcall => hbound.passedOn hcall

/-- A table with a package partition of three sectors and an NVS partition. -/
def sampleTable : PartitionTable where
  partition pointer :=
    if pointer = 0 then ⟨0x500000, 0x3000, 0x1000, false, false⟩
    else ⟨0x700000, 0x4000, 0x1000, false, false⟩
  findFirst subtype label :=
    if subtype = .undefined ∧ label = ascii "product_pkg" then some 0
    else if subtype = .nvs ∧ label = ascii "product_nvs" then some 1
    else none

/-- A product with one sector for each slot. -/
def sampleConfig : SlotsIdfConfig where
  packagePartitionLabel := some (ascii "product_pkg")
  packagePartitionOffsetBytes := 0x500000
  packagePartitionSizeBytes := 0x3000
  slots index := ⟨0x500000 + 0x1000 * index, 0x1000⟩
  nvsPartitionLabel := some (ascii "product_nvs")
  nvsPartitionOffsetBytes := 0x700000
  nvsPartitionSizeBytes := 0x4000
  nvsNamespace := some (ascii "product_slots")
  nvsKey := some (ascii "state")
  storageLock := some 0

/-- The sample product is bound, and then its provider confines and never obstructs. -/
theorem provider_confines_sampleConfig :
    ∃ provider, slotsIdfBind sampleTable (some .zero) (some sampleConfig) = (true, some provider) ∧
      provider.io.valid = true ∧
      ∀ sha256 (request : Request),
        (∀ validateFn, request.validator = some validateFn → ReadsBytes validateFn) →
        (request.program sha256 provider.geometry).Uses (PassedOn sampleTable provider) := by
  have hbound : (bindProvider sampleTable sampleConfig).isSome = true := by
    decide +kernel
  obtain ⟨provider, hprovider⟩ := Option.isSome_iff_exists.mp hbound
  have hbind : slotsIdfBind sampleTable (some .zero) (some sampleConfig) =
      (true, some provider) := by
    rw [slotsIdfBind, Option.bind_some, hprovider]
  obtain ⟨_, _, _, -, -, -, -, -, -, hcallbacks, hpassed⟩ :=
    (provider_confines sampleTable .zero (some sampleConfig)).2.1 provider hbind
  exact ⟨provider, hbind, hcallbacks, hpassed⟩

end Slots
