/-
# What surrounds the slot engine

The engine touches three things: the durable record, the flash partition and the
outputs of its caller. Each is a world of its own, so that a result can assume
the truth of one and leave the others free.

A record write may or may not take effect, whatever it answers, and a reported
record is the stored one. Flash is only ever changed inside the range an erase or
a write targets, where it may be left in any state, and a read that succeeds
delivers what is stored. Traces are read the same way: a stretch of a trace that
reads a package back and digests it fixes the flash contents it walked over.
-/

import EspContainer.Slots.Engine
import EspContainer.Interaction.History

namespace Slots

open Binary Interaction Package

abbrev SlotsEvent : Type := Event SlotsPort
abbrev SlotsTrace : Type := Trace SlotsPort

/-! ## Kinds of calls -/

namespace SlotsCall

/-- The byte range a call erases or programs, as an offset and a size. -/
def target : SlotsCall → Option (Nat × Nat)
  | flashErase offset size => some (offset, size)
  | flashWrite offset bytes => some (offset, bytes.length)
  | _ => none

/-- The calls that read a package back. -/
def readsFlash : SlotsCall → Bool
  | flashRead _ _ => true
  | digest _ => true
  | _ => false

/-- The calls made between reading the record and writing it: neither the lock,
nor the record, nor the caller's outputs. -/
def inner : SlotsCall → Bool
  | lock | unlock | readBlob | writeBlob _ | storeState _ | storeDecision _ => false
  | _ => true

@[simp]
theorem target_of_readsFlash {call : SlotsCall} (hreads : call.readsFlash = true) :
    call.target = none := by
  cases call <;> simp_all [readsFlash, target]

theorem inner_of_readsFlash {call : SlotsCall} (hreads : call.readsFlash = true) :
    call.inner = true := by
  cases call <;> simp_all [readsFlash, inner]

end SlotsCall

/-- A trace of calls that only read flash. -/
def ReadsFlash (trace : SlotsTrace) : Prop :=
  ∀ event ∈ trace, event.1.readsFlash = true

/-- A trace that leaves the lock, the record and the outputs alone. -/
def Inner (trace : SlotsTrace) : Prop :=
  ∀ event ∈ trace, event.1.inner = true

/-- A trace that neither erases nor programs flash. -/
def FlashUntouched (trace : SlotsTrace) : Prop :=
  ∀ event ∈ trace, event.1.target = none

namespace ReadsFlash

theorem inner {trace : SlotsTrace} (hreads : ReadsFlash trace) : Inner trace :=
  fun event hevent => SlotsCall.inner_of_readsFlash (hreads event hevent)

theorem flashUntouched {trace : SlotsTrace} (hreads : ReadsFlash trace) :
    FlashUntouched trace :=
  fun event hevent => SlotsCall.target_of_readsFlash (hreads event hevent)

theorem append {first second : SlotsTrace} (hfirst : ReadsFlash first)
    (hsecond : ReadsFlash second) : ReadsFlash (first ++ second) :=
  fun event hevent => (List.mem_append.mp hevent).elim (hfirst event) (hsecond event)

end ReadsFlash

/-! ## Read-backs -/

/-- The events of reading chunks from an address on and digesting each. -/
def readBackEvents : Nat → List (Σ n, Bytes n) → SlotsTrace
  | _, [] => []
  | address, ⟨count, bytes⟩ :: chunks =>
      ⟨.flashRead address count, ReadAnswer.ok bytes⟩ ::
        ⟨.digest (.update bytes.toList), true⟩ :: readBackEvents (address + count) chunks

/-- What the chunks hold together. -/
def chunkContents (chunks : List (Σ n, Bytes n)) : List UInt8 :=
  chunks.flatMap fun chunk => chunk.2.toList

/-- The trace reads `size` bytes back from an address, feeds exactly these to one
digest, and the digest comes out as expected. -/
def PackageHashed (sha256 : List UInt8 → Sha256) (address size : Nat) (expected : Sha256)
    (trace : SlotsTrace) : Prop :=
  ∃ chunks, (chunkContents chunks).length = size ∧ sha256 (chunkContents chunks) = expected ∧
    trace = ⟨.digest .start, true⟩ :: readBackEvents address chunks ++ [⟨.digest .finish, true⟩]

/-- The package of a binding, if there is one, was read back and hashed. -/
def BindingHashed (sha256 : List UInt8 → Sha256) (geometry : Geometry) (binding : Binding)
    (trace : SlotsTrace) : Prop :=
  if binding.packagePresent then
    PackageHashed sha256 (geometry.slot binding.slot).offsetBytes
      binding.packageSizeBytes.toNat binding.packageSha256 trace
  else
    trace = []

/-- The packages of both bindings were read back and hashed, in order. -/
def ReferencesHashed (sha256 : List UInt8 → Sha256) (geometry : Geometry) (state : State)
    (trace : SlotsTrace) : Prop :=
  ∃ first second, trace = first ++ second ∧
    BindingHashed sha256 geometry (state.bindings 0) first ∧
    BindingHashed sha256 geometry (state.bindings 1) second

/-- The package of an operation was read back and hashed. -/
def OperationHashed (sha256 : List UInt8 → Sha256) (geometry : Geometry)
    (operation : Operation) (trace : SlotsTrace) : Prop :=
  PackageHashed sha256 (geometry.slot operation.slot).offsetBytes
    operation.packageSizeBytes.toNat operation.packageSha256 trace

theorem readBackEvents_append (address : Nat) (first second : List (Σ n, Bytes n)) :
    readBackEvents address (first ++ second) =
      readBackEvents address first ++
        readBackEvents (address + (chunkContents first).length) second := by
  induction first generalizing address with
  | nil => rfl
  | cons chunk first ih =>
      simp [readBackEvents, ih, chunkContents, Nat.add_assoc]

theorem readsFlash_readBackEvents (address : Nat) (chunks : List (Σ n, Bytes n)) :
    ReadsFlash (readBackEvents address chunks) := by
  induction chunks generalizing address with
  | nil => simp [ReadsFlash, readBackEvents]
  | cons chunk chunks ih =>
      intro event hevent
      simp only [readBackEvents, List.mem_cons] at hevent
      rcases hevent with rfl | rfl | hevent
      · rfl
      · rfl
      · exact ih _ event hevent

theorem PackageHashed.readsFlash {sha256 : List UInt8 → Sha256} {address size : Nat}
    {expected : Sha256} {trace : SlotsTrace}
    (hhashed : PackageHashed sha256 address size expected trace) : ReadsFlash trace := by
  obtain ⟨chunks, -, -, rfl⟩ := hhashed
  intro event hevent
  simp only [List.cons_append, List.mem_cons, List.mem_append] at hevent
  rcases hevent with rfl | hevent | rfl | hevent
  · rfl
  · exact readsFlash_readBackEvents _ _ event hevent
  · rfl
  · cases hevent

theorem BindingHashed.readsFlash {sha256 : List UInt8 → Sha256} {geometry : Geometry}
    {binding : Binding} {trace : SlotsTrace}
    (hhashed : BindingHashed sha256 geometry binding trace) : ReadsFlash trace := by
  unfold BindingHashed at hhashed
  split at hhashed
  · exact hhashed.readsFlash
  · simp [hhashed, ReadsFlash]

theorem ReferencesHashed.readsFlash {sha256 : List UInt8 → Sha256} {geometry : Geometry}
    {state : State} {trace : SlotsTrace}
    (hhashed : ReferencesHashed sha256 geometry state trace) : ReadsFlash trace := by
  obtain ⟨first, second, rfl, hfirst, hsecond⟩ := hhashed
  exact hfirst.readsFlash.append hsecond.readsFlash

/-! ## The durable record -/

/-- The record store: a write takes effect or does not, whatever it answers, and
what is reported found, or not found, is so. -/
def recordWorld : World SlotsPort (Option Blob) where
  Step before request answer after :=
    match request, answer with
    | .readBlob, .found blob => before = some blob ∧ after = before
    | .readBlob, .notFound => before = none ∧ after = before
    | .writeBlob blob, _ => after = before ∨ after = some blob
    | _, _ => after = before

/-- Only a record write changes the record. -/
theorem record_eq_of_step {event : SlotsEvent} {before after : Option Blob}
    (hstep : recordWorld.Step before event.1 event.2 after)
    (hcall : ∀ blob, event.1 ≠ .writeBlob blob) : after = before := by
  obtain ⟨call, answer⟩ := event
  cases call with
  | writeBlob blob => exact absurd rfl (hcall blob)
  | readBlob =>
      cases answer with
      | found blob => exact hstep.2
      | notFound => exact hstep.2
      | readFailed => exact hstep
  | _ => exact hstep

/-- A record write takes effect or does not. -/
theorem record_of_write {event : SlotsEvent} {before after : Option Blob} {blob : Blob}
    (hstep : recordWorld.Step before event.1 event.2 after) (hcall : event.1 = .writeBlob blob) :
    after = before ∨ after = some blob := by
  obtain ⟨call, answer⟩ := event
  obtain rfl : call = .writeBlob blob := hcall
  exact hstep

/-- A walk without a record write keeps the record. -/
theorem record_eq_of_path {trace : SlotsTrace} {before after : Option Blob}
    (hpath : recordWorld.Path before trace after)
    (htrace : ∀ event ∈ trace, ∀ blob, event.1 ≠ .writeBlob blob) : after = before :=
  hpath.eq_of_still fun event hevent _ _ hstep =>
    record_eq_of_step hstep (htrace event hevent)

theorem Inner.not_writeBlob {trace : SlotsTrace} (hinner : Inner trace) :
    ∀ event ∈ trace, ∀ blob, event.1 ≠ .writeBlob blob := by
  intro event hevent blob hcall
  have hcontra := hinner event hevent
  rw [hcall] at hcontra
  cases hcontra

theorem Inner.record_eq {trace : SlotsTrace} (hinner : Inner trace)
    {before after : Option Blob} (hpath : recordWorld.Path before trace after) :
    after = before :=
  record_eq_of_path hpath hinner.not_writeBlob

/-! ## Outputs -/

/-- The caller's outputs. -/
structure Outputs where
  state : State
  decision : BootDecision

/-- The caller's memory: the outputs hold what was stored last. -/
def outputWorld : World SlotsPort Outputs where
  Step before request _ after :=
    match request with
    | .storeState state => after = { before with state := state }
    | .storeDecision decision => after = { before with decision := decision }
    | _ => after = before

theorem output_eq_of_step {event : SlotsEvent} {before after : Outputs}
    (hstep : outputWorld.Step before event.1 event.2 after)
    (hstate : ∀ state, event.1 ≠ .storeState state)
    (hdecision : ∀ decision, event.1 ≠ .storeDecision decision) : after = before := by
  obtain ⟨call, answer⟩ := event
  cases call with
  | storeState state => exact absurd rfl (hstate state)
  | storeDecision decision => exact absurd rfl (hdecision decision)
  | _ => exact hstep

theorem Inner.output_eq {trace : SlotsTrace} (hinner : Inner trace) {before after : Outputs}
    (hpath : outputWorld.Path before trace after) : after = before := by
  refine hpath.eq_of_still fun event hevent _ _ hstep => output_eq_of_step hstep ?_ ?_ <;>
  · intro value hcall
    have hcontra := hinner event hevent
    rw [hcall] at hcontra
    cases hcontra

/-! ## Flash -/

/-- The contents of a flash partition. -/
abbrev Flash : Type := Nat → UInt8

/-- The bytes stored from an address on. -/
def Flash.bytes (flash : Flash) (address size : Nat) : List UInt8 :=
  (List.range size).map fun index => flash (address + index)

/-- Flash: an erase or a write may leave anything in its range and nothing
changes elsewhere; a successful read delivers what is stored. -/
def flashWorld : World SlotsPort Flash where
  Step before request answer after :=
    match request, answer with
    | .flashRead address size, .ok bytes =>
        bytes.toList = before.bytes address size ∧ after = before
    | .flashErase offset size, _ =>
        ∀ address, ¬ (offset ≤ address ∧ address < offset + size) → after address = before address
    | .flashWrite offset bytes, _ =>
        ∀ address, ¬ (offset ≤ address ∧ address < offset + bytes.length) →
          after address = before address
    | _, _ => after = before

@[simp]
theorem Flash.length_bytes (flash : Flash) (address size : Nat) :
    (flash.bytes address size).length = size := by simp [Flash.bytes]

theorem Flash.bytes_add (flash : Flash) (address first second : Nat) :
    flash.bytes address (first + second) =
      flash.bytes address first ++ flash.bytes (address + first) second := by
  simp [Flash.bytes, List.range_add, Nat.add_assoc]

theorem Flash.bytes_congr {first second : Flash} {address size : Nat}
    (heq : ∀ index < size, first (address + index) = second (address + index)) :
    first.bytes address size = second.bytes address size :=
  List.map_congr_left fun index hindex => heq index (List.mem_range.mp hindex)

/-- Outside the range a call targets, flash stays as it is. -/
theorem flash_eq_of_step {event : SlotsEvent} {before after : Flash} {address : Nat}
    (hstep : flashWorld.Step before event.1 event.2 after)
    (houtside : ∀ offset size, event.1.target = some (offset, size) →
      ¬ (offset ≤ address ∧ address < offset + size)) : after address = before address := by
  obtain ⟨call, answer⟩ := event
  cases call with
  | flashErase offset size => exact hstep address (houtside _ _ rfl)
  | flashWrite offset bytes => exact hstep address (houtside _ _ rfl)
  | flashRead offset size =>
      cases answer with
      | ok bytes => exact congrFun hstep.2 address
      | failed left => exact congrFun hstep address
  | _ => exact congrFun hstep address

/-- An address that no event of a walk targets keeps its byte. -/
theorem flash_eq_of_path {trace : SlotsTrace} {before after : Flash} {address : Nat}
    (hpath : flashWorld.Path before trace after)
    (houtside : ∀ event ∈ trace, ∀ offset size, event.1.target = some (offset, size) →
      ¬ (offset ≤ address ∧ address < offset + size)) : after address = before address :=
  hpath.invariant (fun flash => flash address = before address)
    (fun event hevent _ _ hstep hflash =>
      (flash_eq_of_step hstep (houtside event hevent)).trans hflash) rfl

theorem FlashUntouched.flash_eq {trace : SlotsTrace} (htrace : FlashUntouched trace)
    {before after : Flash} (hpath : flashWorld.Path before trace after) : after = before :=
  funext fun _ => flash_eq_of_path hpath fun event hevent _ _ htarget => by
    rw [htrace event hevent] at htarget
    cases htarget

/-- Reading back tells what flash holds. -/
theorem contents_of_readBackEvents {chunks : List (Σ n, Bytes n)} {address : Nat}
    {before after : Flash}
    (hpath : flashWorld.Path before (readBackEvents address chunks) after) :
    chunkContents chunks = before.bytes address (chunkContents chunks).length := by
  induction chunks generalizing address before with
  | nil => rfl
  | cons chunk chunks ih =>
      obtain ⟨count, bytes⟩ := chunk
      obtain ⟨_, ⟨hbytes, rfl⟩, _, hdigest, hrest⟩ := hpath
      obtain rfl : _ = _ := hdigest
      have hlength : bytes.toList.length = count := bytes.toList_length
      have htail := ih hrest
      simp only [chunkContents, List.flatMap_cons, List.length_append, hlength] at htail ⊢
      rw [Flash.bytes_add, ← hbytes, ← htail]

/-- A read-back on a walk tells what flash holds. -/
theorem PackageHashed.sha256_bytes {sha256 : List UInt8 → Sha256} {address size : Nat}
    {expected : Sha256} {trace : SlotsTrace} {before after : Flash}
    (hhashed : PackageHashed sha256 address size expected trace)
    (hpath : flashWorld.Path before trace after) :
    sha256 (before.bytes address size) = expected := by
  obtain ⟨chunks, rfl, rfl, rfl⟩ := hhashed
  obtain ⟨_, hstart, hpath⟩ := hpath
  obtain rfl : _ = before := hstart
  obtain ⟨_, hpath, -⟩ := World.path_append.mp hpath
  rw [← contents_of_readBackEvents hpath]

/-! ## All of it -/

/-- The record, flash and outputs together. -/
abbrev Device : Type := (Option Blob × Flash) × Outputs

/-- A truthful record store and flash, and the caller's outputs. -/
def deviceWorld : World SlotsPort Device := (recordWorld.prod flashWorld).prod outputWorld

/-- A device on which everything works. Sources deliver zeros and every trial is stopped. -/
def workingDevice (device : Device) : (request : SlotsCall) → SlotsPort.Answer request × Device
  | .lock => (true, device)
  | .unlock => ((), device)
  | .readBlob =>
      match device.1.1 with
      | some blob => (.found blob, device)
      | none => (.notFound, device)
  | .writeBlob blob => (true, ((some blob, device.1.2), device.2))
  | .flashRead offset size => (.ok ⟨device.1.2.bytes offset size, by simp⟩, device)
  | .flashErase offset size =>
      (true, ((device.1.1, fun address =>
        if offset ≤ address ∧ address < offset + size then 0xff else device.1.2 address), device.2))
  | .flashWrite offset bytes =>
      (true, ((device.1.1, fun address =>
        if offset ≤ address ∧ address < offset + bytes.length then byteAt bytes (address - offset)
        else device.1.2 address), device.2))
  | .source _ size => (.ok (.zero size), device)
  | .validateEnter _ _ => ((), device)
  | .validateReturn _ => ((), device)
  | .trialStopped _ => (true, device)
  | .digest _ => (true, device)
  | .storeState state => ((), (device.1, { device.2 with state := state }))
  | .storeDecision decision => ((), (device.1, { device.2 with decision := decision }))

theorem workingDevice_step (device : Device) (request : SlotsCall) :
    deviceWorld.Step device request (workingDevice device request).1
      (workingDevice device request).2 := by
  cases request with
  | readBlob =>
      obtain ⟨⟨record, flash⟩, outputs⟩ := device
      cases record <;> exact ⟨⟨⟨rfl, rfl⟩, rfl⟩, rfl⟩
  | writeBlob blob => exact ⟨⟨.inr rfl, rfl⟩, rfl⟩
  | flashRead offset size => exact ⟨⟨rfl, rfl, rfl⟩, rfl⟩
  | flashErase offset size => exact ⟨⟨rfl, fun address houtside => if_neg houtside⟩, rfl⟩
  | flashWrite offset bytes => exact ⟨⟨rfl, fun address houtside => if_neg houtside⟩, rfl⟩
  | _ => exact ⟨⟨rfl, rfl⟩, rfl⟩

end Slots
