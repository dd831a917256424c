/-
# The ESP-IDF provider

`slots_idf.c` implements the callbacks of the slot engine on two partitions: one that
holds the packages and an NVS partition that holds the record. Binding checks both
against what the product configured, derives the geometry of the slots from the
package partition and fills in the callback table.

The provider is a translation of the engine's calls into calls of ESP-IDF. Those are
parameters: a table of partitions, whose lookup may be any function, and an interface
whose answers are arbitrary. `size_t` arguments are natural numbers, since every
subtraction from them stands behind a comparison, and addresses are 32-bit numbers.
-/

import EspContainer.Slots.Engine

namespace Slots

open Binary Interaction Package

/-! ## Partitions and configuration -/

/-- `ECONTAINER_SLOT_BLOB_BYTES`. -/
abbrev slotBlobBytes : Nat := 288

/-- `esp_partition_t`, less the type, subtype and label it was found by. -/
structure Partition where
  address : UInt32
  size : UInt32
  eraseSize : UInt32
  encrypted : Bool
  readonly : Bool
  deriving DecidableEq

/-- The subtypes the provider looks for among the data partitions. -/
inductive PartitionSubtype
  | undefined
  | nvs
  deriving DecidableEq

/-- The partition table: what a pointer to a partition points to, and
`esp_partition_find_first` among the data partitions. -/
structure PartitionTable where
  partition : Nat → Partition
  findFirst : PartitionSubtype → List UInt8 → Option Nat

/-- `econtainer_slots_idf_config_t`; a null pointer is `none`, and a string is its
characters before the terminator. -/
structure SlotsIdfConfig where
  packagePartitionLabel : Option (List UInt8)
  packagePartitionOffsetBytes : UInt32
  packagePartitionSizeBytes : UInt32
  slots : Fin slotCount → Region
  nvsPartitionLabel : Option (List UInt8)
  nvsPartitionOffsetBytes : UInt32
  nvsPartitionSizeBytes : UInt32
  nvsNamespace : Option (List UInt8)
  nvsKey : Option (List UInt8)
  storageLock : Option Nat

/-- The callbacks of the provider. -/
inductive ProviderCallback
  | providerLock
  | providerUnlock
  | providerReadBlob
  | providerWriteBlob
  | providerFlashRead
  | providerFlashErase
  | providerFlashWrite
  deriving DecidableEq

/-- `econtainer_slots_io_t` as the provider fills it in; `context` says whether it points to
the provider. -/
structure SlotsIo where
  lock : Option ProviderCallback
  unlock : Option ProviderCallback
  readBlob : Option ProviderCallback
  writeBlob : Option ProviderCallback
  flashRead : Option ProviderCallback
  flashErase : Option ProviderCallback
  flashWrite : Option ProviderCallback
  context : Bool
  deriving DecidableEq

/-- `io_valid`. -/
def SlotsIo.valid (io : SlotsIo) : Bool :=
  io.lock.isSome && io.unlock.isSome && io.readBlob.isSome && io.writeBlob.isSome &&
    io.flashRead.isSome && io.flashErase.isSome && io.flashWrite.isSome

/-- The table that `memset` leaves. -/
def SlotsIo.zero : SlotsIo := ⟨none, none, none, none, none, none, none, false⟩

/-- The geometry that `memset` leaves. -/
def Geometry.zero : Geometry := ⟨0, 0, 0, 0, fun _ => ⟨0, 0⟩⟩

/-- `econtainer_slots_idf_provider_t`. -/
structure SlotsIdfProvider where
  io : SlotsIo
  geometry : Geometry
  packagePartition : Option Nat
  storageLock : Option Nat
  nvsPartitionLabel : Bytes 16
  nvsNamespace : Bytes 16
  nvsKey : Bytes 16

/-- The provider that `memset` leaves. -/
def SlotsIdfProvider.zero : SlotsIdfProvider :=
  ⟨.zero, .zero, none, none, .zero 16, .zero 16, .zero 16⟩

/-! ## Binding -/

/-- A character between `first` and `last`. -/
def between (first last : UInt8) (character : UInt8) : Bool :=
  first ≤ character && character ≤ last

/-- The loop of `name_valid` over at most `count` characters from `index` on. -/
def nameRest (value : List UInt8) : (count index : Nat) → Bool
  | 0, _ => false
  | count + 1, index =>
      if byteAt value index == 0 then
        true
      else if !(between 0x61 0x7a (byteAt value index) || between 0x30 0x39 (byteAt value index) ||
          byteAt value index == 0x5f) then
        false
      else
        nameRest value count (index + 1)

/-- `name_valid`: at most 15 characters, lower case letters, digits and underscores, the
first a letter. -/
def nameValid : Option (List UInt8) → Bool
  | none => false
  | some value => between 0x61 0x7a (byteAt value 0) && nameRest value 15 1

/-- The first check of `econtainer_slots_idf_bind`. -/
def SlotsIdfConfig.refused (config : SlotsIdfConfig) : Bool :=
  config.storageLock.isNone || !nameValid config.packagePartitionLabel ||
    !nameValid config.nvsPartitionLabel || !nameValid config.nvsNamespace ||
    !nameValid config.nvsKey || config.packagePartitionOffsetBytes == 0 ||
    config.packagePartitionSizeBytes == 0 || config.nvsPartitionSizeBytes == 0

/-- The check of `econtainer_slots_idf_bind` on the two partitions that it found, behind its
null pointer checks. -/
def SlotsIdfConfig.mismatched (config : SlotsIdfConfig) (samePointer : Bool)
    (package nvs : Partition) : Bool :=
  samePointer || package.readonly || nvs.readonly ||
    package.address != config.packagePartitionOffsetBytes ||
    package.size != config.packagePartitionSizeBytes ||
    nvs.address != config.nvsPartitionOffsetBytes ||
    nvs.size != config.nvsPartitionSizeBytes ||
    (package.address.toNat < nvs.address.toNat + nvs.size.toNat &&
      nvs.address.toNat < package.address.toNat + package.size.toNat) ||
    package.eraseSize == 0

/-- The geometry of the slots in a package partition. -/
def SlotsIdfConfig.geometry (config : SlotsIdfConfig) (package : Partition) : Geometry where
  partitionOffsetBytes := package.address.toNat
  partitionSizeBytes := package.size.toNat
  eraseUnitBytes := package.eraseSize.toNat
  writeUnitBytes := if package.encrypted then 16 else 4
  slots := config.slots

/-- The callback table of a bound provider. -/
def SlotsIo.provider : SlotsIo where
  lock := some .providerLock
  unlock := some .providerUnlock
  readBlob := some .providerReadBlob
  writeBlob := some .providerWriteBlob
  flashRead := some .providerFlashRead
  flashErase := some .providerFlashErase
  flashWrite := some .providerFlashWrite
  context := true

/-- A string copied with its terminator into 16 cleared bytes. -/
def copyName (value : Option (List UInt8)) : Bytes 16 :=
  bytesAt (value.getD []) 0 16

/-- The part of `econtainer_slots_idf_bind` behind `memset`: the provider it fills in, or
`none` where it returns false. -/
def bindProvider (table : PartitionTable) (config : SlotsIdfConfig) : Option SlotsIdfProvider :=
  if config.refused then
    none
  else
    match table.findFirst .undefined (config.packagePartitionLabel.getD []),
      table.findFirst .nvs (config.nvsPartitionLabel.getD []) with
    | some package, some nvs =>
        if config.mismatched (package == nvs) (table.partition package) (table.partition nvs) then
          none
        else if !geometryValid (config.geometry (table.partition package)) then
          none
        else
          some
            { io := .provider
              geometry := config.geometry (table.partition package)
              packagePartition := some package
              storageLock := config.storageLock
              nvsPartitionLabel := copyName config.nvsPartitionLabel
              nvsNamespace := copyName config.nvsNamespace
              nvsKey := copyName config.nvsKey }
    | _, _ => none

/-- `econtainer_slots_idf_bind`: what it returns, and the provider it leaves behind a pointer
that is not null. -/
def slotsIdfBind (table : PartitionTable) (provider : Option SlotsIdfProvider)
    (config : Option SlotsIdfConfig) : Bool × Option SlotsIdfProvider :=
  match provider with
  | none => (false, none)
  | some _ =>
      match config.bind (bindProvider table) with
      | none => (false, some .zero)
      | some provider => (true, some provider)

/-! ## The calls of ESP-IDF -/

/-- `esp_err_t` other than `ESP_OK`, as far as the provider tells errors apart. -/
inductive EspError
  | nvsNotFound
  | failed
  deriving DecidableEq

/-- The calls the provider makes, and the engine's calls that are not its. -/
inductive IdfCall
  | semaphoreTake (semaphore : Option Nat)
  | semaphoreGive (semaphore : Option Nat)
  | nvsOpen (label space : Bytes 16) (readwrite : Bool)
  | nvsGetBlobSize (handle : Nat) (key : Bytes 16)
  | nvsGetBlob (handle : Nat) (key : Bytes 16) (sizeBytes : Nat)
  | nvsSetBlob (handle : Nat) (key : Bytes 16) (blob : Blob)
  | nvsCommit (handle : Nat)
  | nvsClose (handle : Nat)
  | partitionRead (partition : Option Nat) (offset sizeBytes : Nat)
  | partitionEraseRange (partition : Option Nat) (offset sizeBytes : Nat)
  | partitionWrite (partition : Option Nat) (offset sizeBytes : Nat) (source : List UInt8)
  | engine (call : SlotsCall)

/-- The interface of ESP-IDF: handles, sizes and blobs come back with `ESP_OK`. -/
@[reducible]
def IdfPort : Interface where
  Call := IdfCall
  Answer
    | .semaphoreTake _ => Bool
    | .semaphoreGive _ => Unit
    | .nvsOpen _ _ _ => Except EspError Nat
    | .nvsGetBlobSize _ _ => Except EspError Nat
    | .nvsGetBlob _ _ _ => Except EspError (Nat × Blob)
    | .nvsSetBlob _ _ _ => Bool
    | .nvsCommit _ => Bool
    | .nvsClose _ => Unit
    | .partitionRead _ _ sizeBytes => ReadAnswer sizeBytes
    | .partitionEraseRange _ _ _ => Bool
    | .partitionWrite _ _ _ _ => Bool
    | .engine call => SlotsPort.Answer call

/-! ## The callbacks -/

/-- `range_valid`; the subtractions stand behind the comparisons that keep them exact. -/
def rangeValid (partition : Partition) (offsetBytes : UInt32) (sizeBytes : Nat) : Bool :=
  sizeBytes > 0 && sizeBytes ≤ partition.size.toNat && offsetBytes ≥ partition.address &&
    (offsetBytes - partition.address).toNat ≤ partition.size.toNat - sizeBytes

section

variable (table : PartitionTable) (provider : SlotsIdfProvider)

/-- `*provider->package_partition`; the callbacks of a bound provider find one there. -/
def SlotsIdfProvider.partition : Partition :=
  table.partition (provider.packagePartition.getD 0)

/-- The offset in the package partition that the provider passes on. -/
def SlotsIdfProvider.relative (offsetBytes : UInt32) : Nat :=
  (offsetBytes - (provider.partition table).address).toNat

/-- `provider_lock`. -/
def providerLock : Program IdfPort Bool :=
  Program.call (I := IdfPort) (.semaphoreTake provider.storageLock)

/-- `provider_unlock`. -/
def providerUnlock : Program IdfPort Unit :=
  Program.call (I := IdfPort) (.semaphoreGive provider.storageLock)

/-- `provider_read_blob`. -/
def providerReadBlob : Program IdfPort BlobAnswer := do
  let opened ← Program.call (I := IdfPort)
    (.nvsOpen provider.nvsPartitionLabel provider.nvsNamespace false)
  match opened with
  | .error .nvsNotFound => pure .notFound
  | .error .failed => pure .readFailed
  | .ok handle =>
      let found ← Program.call (I := IdfPort) (.nvsGetBlobSize handle provider.nvsKey)
      match found with
      | .error error =>
          Program.call (I := IdfPort) (.nvsClose handle)
          pure (if error = .nvsNotFound then .notFound else .readFailed)
      | .ok sizeBytes =>
          if sizeBytes != slotBlobBytes then
            Program.call (I := IdfPort) (.nvsClose handle)
            pure .readFailed
          else
            let read ← Program.call (I := IdfPort) (.nvsGetBlob handle provider.nvsKey sizeBytes)
            Program.call (I := IdfPort) (.nvsClose handle)
            match read with
            | .error _ => pure .readFailed
            | .ok (sizeBytes, blob) =>
                pure (if sizeBytes == slotBlobBytes then .found blob else .readFailed)

/-- `provider_write_blob`. -/
def providerWriteBlob (blob : Blob) : Program IdfPort Bool := do
  let opened ← Program.call (I := IdfPort)
    (.nvsOpen provider.nvsPartitionLabel provider.nvsNamespace true)
  match opened with
  | .error _ => pure false
  | .ok handle =>
      let stored ← Program.call (I := IdfPort) (.nvsSetBlob handle provider.nvsKey blob)
      let committed ←
        if stored then Program.call (I := IdfPort) (.nvsCommit handle) else pure false
      Program.call (I := IdfPort) (.nvsClose handle)
      pure committed

/-- `provider_flash_read`. -/
def providerFlashRead (offsetBytes : UInt32) (hasDestination : Bool) (sizeBytes : Nat) :
    Program IdfPort (ReadAnswer sizeBytes) :=
  if hasDestination && rangeValid (provider.partition table) offsetBytes sizeBytes then
    Program.call (I := IdfPort)
      (.partitionRead provider.packagePartition (provider.relative table offsetBytes) sizeBytes)
  else
    pure (.failed none)

/-- `provider_flash_erase`. -/
def providerFlashErase (offsetBytes sizeBytes : UInt32) : Program IdfPort Bool :=
  if rangeValid (provider.partition table) offsetBytes sizeBytes.toNat &&
      offsetBytes.toNat % provider.geometry.eraseUnitBytes == 0 &&
      sizeBytes.toNat % provider.geometry.eraseUnitBytes == 0 then
    Program.call (I := IdfPort)
      (.partitionEraseRange provider.packagePartition (provider.relative table offsetBytes)
        sizeBytes.toNat)
  else
    pure false

/-- `provider_flash_write`. -/
def providerFlashWrite (offsetBytes : UInt32) (source : Option (List UInt8)) (sizeBytes : Nat) :
    Program IdfPort Bool :=
  match source with
  | none => pure false
  | some source =>
      if rangeValid (provider.partition table) offsetBytes sizeBytes &&
          offsetBytes.toNat % provider.geometry.writeUnitBytes == 0 &&
          sizeBytes % provider.geometry.writeUnitBytes == 0 then
        Program.call (I := IdfPort)
          (.partitionWrite provider.packagePartition (provider.relative table offsetBytes)
            sizeBytes source)
      else
        pure false

/-- The engine's calls on a bound provider. Its addresses and the size of an erase are
32-bit arguments; buffers are never null. -/
def serveProvider : (request : SlotsCall) → Program IdfPort (SlotsPort.Answer request)
  | .lock => providerLock provider
  | .unlock => providerUnlock provider
  | .readBlob => providerReadBlob provider
  | .writeBlob blob => providerWriteBlob provider blob
  | .flashRead offset size => providerFlashRead table provider (.ofNat offset) true size
  | .flashErase offset size => providerFlashErase table provider (.ofNat offset) (.ofNat size)
  | .flashWrite offset bytes =>
      providerFlashWrite table provider (.ofNat offset) (some bytes) bytes.length
  | call => Program.call (I := IdfPort) (.engine call)

end

end Slots
