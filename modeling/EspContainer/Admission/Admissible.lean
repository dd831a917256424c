/-
# Admission on both sides

A package that the host tools admit is one that the device admits, and the other way round:
the check of the host against a record, and the check of the device against the signed facts
and an authorization that allows them.
-/

import Mathlib.Data.Finset.Filter
import EspContainer.Admission.Agreement
import EspContainer.Tools.Record

namespace Package

open Binary Interaction Wasm

variable {wasm package : List UInt8} {record : Tools.ManifestRecord} {info : Info}
  {authorization : WasmAuthorization} {crypto : Crypto}

/-! ## Capabilities -/

/-- The names of the capabilities in a mask. -/
def capabilityNames (mask : UInt32) : Finset String :=
  Tools.knownCapabilities.toFinset.filter fun name => (capabilityMask {name} &&& mask != 0) = true

/-- Each of the three names has its own bit. -/
theorem capabilityMask_single_and (names : Finset String) {name : String}
    (hname : name ∈ Tools.knownCapabilities) :
    (capabilityMask {name} &&& capabilityMask names != 0) = decide (name ∈ names) := by
  have hbits : ∀ clock log timer : Bool,
      (capabilityMask {"monotonic-time"} &&&
          (bitIf clock capMonotonicTime ||| bitIf log capLog ||| bitIf timer capTimer) != 0) = clock ∧
        (capabilityMask {"log"} &&&
          (bitIf clock capMonotonicTime ||| bitIf log capLog ||| bitIf timer capTimer) != 0) = log ∧
        (capabilityMask {"timer"} &&&
          (bitIf clock capMonotonicTime ||| bitIf log capLog ||| bitIf timer capTimer) != 0) =
          timer := by
    decide
  obtain ⟨hclock, hlog, htimer⟩ := hbits (decide ("monotonic-time" ∈ names)) (decide ("log" ∈ names))
    (decide ("timer" ∈ names))
  simp only [Tools.knownCapabilities, List.mem_cons, List.not_mem_nil, or_false] at hname
  rcases hname with rfl | rfl | rfl
  · exact hclock
  · exact hlog
  · exact htimer

/-- A mask says which of the known capabilities there are. -/
theorem capabilityNames_capabilityMask {names : Finset String}
    (hknown : ∀ name ∈ names, name ∈ Tools.knownCapabilities) :
    capabilityNames (capabilityMask names) = names := by
  ext name
  rw [capabilityNames, Finset.mem_filter, List.mem_toFinset]
  constructor
  · rintro ⟨hname, hbit⟩
    rw [capabilityMask_single_and names hname] at hbit
    exact of_decide_eq_true hbit
  · intro hname
    refine ⟨hknown name hname, ?_⟩
    rw [capabilityMask_single_and names (hknown name hname)]
    exact decide_eq_true hname

/-- Nothing of a mask is outside another one. -/
theorem capabilityMask_and_not (first second : Finset String) :
    capabilityMask first &&& ~~~capabilityMask second = 0 ↔
      ∀ name ∈ Tools.knownCapabilities, name ∈ first → name ∈ second := by
  have hbits : ∀ clock log timer clock' log' timer' : Bool,
      (bitIf clock capMonotonicTime ||| bitIf log capLog ||| bitIf timer capTimer) &&&
          ~~~(bitIf clock' capMonotonicTime ||| bitIf log' capLog ||| bitIf timer' capTimer) = 0 ↔
        (clock = true → clock' = true) ∧ (log = true → log' = true) ∧
          (timer = true → timer' = true) := by
    decide
  rw [capabilityMask, capabilityMask, hbits]
  simp only [decide_eq_true_eq, Tools.knownCapabilities, List.forall_mem_cons, List.not_mem_nil,
    false_implies, implies_true, and_true]

/-- There are no other bits. -/
theorem capabilityMask_and_not_capAll (names : Finset String) :
    capabilityMask names &&& ~~~capAll = 0 := by
  rw [capabilityMask]
  generalize decide ("monotonic-time" ∈ names) = clock
  generalize decide ("log" ∈ names) = log
  generalize decide ("timer" ∈ names) = timer
  revert clock log timer
  decide

/-- Known capabilities are requested exactly if they are in the mask. -/
theorem capabilityMask_and_not_eq_zero {first second : Finset String}
    (hknown : ∀ name ∈ first, name ∈ Tools.knownCapabilities) :
    capabilityMask first &&& ~~~capabilityMask second = 0 ↔ first ⊆ second := by
  rw [capabilityMask_and_not]
  constructor
  · exact fun hall name hname => hall name (hknown name hname) hname
  · exact fun hsubset name _ hname => hsubset hname

/-! ## The facts -/

/-- The info has the facts that a record declares, for a payload in a snapshot. -/
structure SignedFacts (crypto : Crypto) (record : Tools.ManifestRecord) (wasm package : List UInt8)
    (info : Info) : Prop where
  guestAbi : info.guestAbiVersion.toNat = record.guestAbiVersion
  profile : info.isClassicProfile = (record.runtimeProfile == "wamr-classic-v1")
  capabilities : info.requestedCapabilities = capabilityMask record.requiredCapabilities.toFinset
  unknown : info.hasUnknownCapability =
    !record.requiredCapabilities.all fun name => Tools.knownCapabilities.contains name
  memory : info.memoryLimitBytes.toNat = record.memoryLimitBytes
  stack : info.stackLimitBytes.toNat = record.stackLimitBytes
  payload : PayloadAt package info.wasmOffsetBytes wasm
  wasmSize : info.wasmSizeBytes = wasm.length
  packageSize : info.packageSizeBytes = package.length
  digest : info.wasmSha256 = crypto.sha256 wasm

/-- An authorization that allows all that a record asks for. -/
structure Allows (authorization : WasmAuthorization) (record : Tools.ManifestRecord) : Prop where
  capabilities : authorization.allowedCapabilities = capAll
  memory : max record.memoryLimitBytes wasmPageBytes ≤ authorization.maxMemoryBytes.toNat
  stack : record.stackLimitBytes ≤ authorization.maxStackBytes.toNat

/-- A mask without a bit outside another one. -/
theorem bne_zero_eq_false {mask : UInt32} (hmask : mask = 0) : (mask != 0) = false := by
  rw [hmask, bne_self_eq_false]

/-- What the first checks of the device ask, besides what the facts and the authorization say. -/
theorem wasmBoundsValid_iff (hfacts : SignedFacts crypto record wasm package info)
    (hallows : Allows authorization record) (hstack : 1 ≤ record.stackLimitBytes) :
    wasmBoundsValid info authorization = true ↔
      8 ≤ wasm.length ∧ wasm.length ≤ packageWasmMaxBytes ∧
        wasmPageBytes ≤ record.memoryLimitBytes := by
  have hplace := hfacts.payload.bound
  have hmemory := (Nat.le_max_right _ _).trans hallows.memory
  have hoffset : ¬ info.wasmOffsetBytes > info.packageSizeBytes := by
    rw [hfacts.packageSize]
    omega
  have hfits : ¬ info.wasmSizeBytes > info.packageSizeBytes - info.wasmOffsetBytes := by
    rw [hfacts.packageSize, hfacts.wasmSize]
    omega
  have hrequested : (info.requestedCapabilities &&& ~~~capAll != 0) = false := by
    rw [hfacts.capabilities]
    exact bne_zero_eq_false (capabilityMask_and_not_capAll _)
  have hallowed : (authorization.allowedCapabilities &&& ~~~capAll != 0) = false := by
    rw [hallows.capabilities]
    rfl
  have hstackLimit : (info.stackLimitBytes == 0) = false := by
    rw [beq_eq_false_iff_ne]
    intro hzero
    have hfact := hfacts.stack
    rw [hzero] at hfact
    exact absurd hfact (Nat.ne_of_lt hstack)
  have hmaxStack : (authorization.maxStackBytes == 0) = false := by
    rw [beq_eq_false_iff_ne]
    intro hzero
    have hmax := hallows.stack
    rw [hzero] at hmax
    exact absurd (hstack.trans hmax) (Nat.not_succ_le_zero 0)
  rw [wasmBoundsValid, decide_eq_false hoffset, decide_eq_false hfits, hrequested, hallowed,
    hstackLimit, hmaxStack, decide_eq_false (Nat.not_lt.mpr hmemory), hfacts.wasmSize, hfacts.memory]
  simp only [Bool.or_false, Bool.not_or, Bool.and_eq_true, Bool.not_eq_true', decide_eq_false_iff_not,
    Nat.not_lt, and_assoc, gt_iff_lt]

theorem wasmProfileSupported_iff (hfacts : SignedFacts crypto record wasm package info) :
    wasmProfileSupported info = true ↔ record.Supported := by
  have habi : (info.guestAbiVersion != 1) = (record.guestAbiVersion != 1) := by
    rw [← hfacts.guestAbi, bne, bne]
    congr 1
    rw [Bool.eq_iff_iff, beq_iff_eq, beq_iff_eq]
    exact UInt32.toNat_inj.symm
  rw [wasmProfileSupported, hfacts.profile, hfacts.unknown, habi, Bool.not_or, Bool.not_or,
    Bool.not_not, Bool.not_not, bne, Bool.not_not, Bool.and_eq_true, Bool.and_eq_true, beq_iff_eq,
    beq_iff_eq, List.all_eq_true]
  simp only [List.contains_eq_mem, decide_eq_true_eq]
  constructor
  · rintro ⟨⟨hguest, hprofile⟩, hcapabilities⟩
    exact ⟨hguest, hprofile, hcapabilities⟩
  · intro hsupported
    exact ⟨⟨hsupported.guestAbi, hsupported.profile⟩, hsupported.capabilities⟩

theorem wasmAuthorized_of_allows (hfacts : SignedFacts crypto record wasm package info)
    (hallows : Allows authorization record) : wasmAuthorized info authorization = true := by
  have hcapabilities : (info.requestedCapabilities &&& ~~~authorization.allowedCapabilities != 0) =
      false := by
    rw [hfacts.capabilities, hallows.capabilities]
    exact bne_zero_eq_false (capabilityMask_and_not_capAll _)
  have hmemory : ¬ info.memoryLimitBytes > authorization.maxMemoryBytes := by
    rw [gt_iff_lt, UInt32.lt_iff_toNat_lt, hfacts.memory, Nat.not_lt]
    exact (Nat.le_max_left _ _).trans hallows.memory
  have hstack : ¬ info.stackLimitBytes > authorization.maxStackBytes := by
    rw [gt_iff_lt, UInt32.lt_iff_toNat_lt, hfacts.stack, Nat.not_lt]
    exact hallows.stack
  rw [wasmAuthorized, hcapabilities, decide_eq_false hmemory, decide_eq_false hstack]
  rfl

/-! ## The agreement -/

/-- A module with a memory needs a page. -/
theorem page_le_of_scanAccepts {maxMemoryBytes : Nat} {required : Finset String}
    {found : Tools.Scanned} (haccepts : Tools.ScanAccepts wasm maxMemoryBytes required found) :
    wasmPageBytes ≤ maxMemoryBytes := by
  obtain ⟨-, memory, -, -, -, -, hpositive, hordered, hwithin⟩ := haccepts.memory
  have hpages : 0 < maxMemoryBytes / 65536 := hpositive.trans_le (hordered.trans hwithin)
  exact Nat.le_of_not_lt fun hless => absurd hpages (by rw [Nat.div_eq_of_lt hless]; exact Nat.lt_irrefl 0)

/-- Both sides admit the same modules, and find the same capabilities. -/
theorem admission_agrees (crypto : Crypto) (record : Tools.ManifestRecord) (wasm package : List UInt8)
    (info : Info) (authorization : WasmAuthorization) (hminimum : 8 ≤ wasm.length)
    (hmaximum : wasm.length ≤ packageWasmMaxBytes) (hstack : 1 ≤ record.stackLimitBytes)
    (hfacts : SignedFacts crypto record wasm package info) (hallows : Allows authorization record) :
    (Tools.checkDeclaredCapabilities wasm record = .ok () ↔
      (packageWasmCheck crypto true (some info) (some authorization) true).eval (snapshot package) =
        .ok ()) ∧
    (Tools.checkDeclaredCapabilities wasm record = .ok () →
      ∃ required sections imports, Tools.wasmScan wasm record.memoryLimitBytes = .ok required ∧
        scanOver wasm (scanSections wasm.length) = .ok sections ∧
        scanOver wasm (scanImports sections) = .ok imports ∧
        capabilityNames imports.capabilities = required) := by
  have hhost : Tools.checkDeclaredCapabilities wasm record = .ok () ↔ record.Supported ∧
      ∃ required found, Tools.ScanAccepts wasm record.memoryLimitBytes required found ∧
        required ⊆ record.requiredCapabilities.toFinset := by
    rw [Tools.checkDeclaredCapabilities_eq_ok]
    simp only [Tools.wasmScan_eq_ok hmaximum, exists_and_right]
  have hknown {required : Finset String} {found : Tools.Scanned}
      (haccepts : Tools.ScanAccepts wasm record.memoryLimitBytes required found) :=
    haccepts.imports.known
  have hdevice := @eval_packageWasmCheck_eq_ok package wasm crypto info authorization hfacts.payload
    hfacts.wasmSize.symm
  rw [wasmBoundsValid_iff hfacts hallows hstack, wasmProfileSupported_iff hfacts,
    hfacts.capabilities, hfacts.memory] at hdevice
  rw [hhost, hdevice]
  constructor
  · constructor
    · rintro ⟨hsupported, required, found, haccepts, hsubset⟩
      have hrequested := (capabilityMask_and_not_eq_zero (hknown haccepts)).mpr hsubset
      obtain ⟨sections, imports, exported, typeCount, definedCount, haccepted, -⟩ :=
        moduleAccepted_of_scanAccepts haccepts hrequested
      exact ⟨⟨hminimum, hmaximum, page_le_of_scanAccepts haccepts⟩, hsupported,
        wasmAuthorized_of_allows hfacts hallows, ⟨_, _, _, _, _, haccepted⟩, hfacts.digest.symm⟩
    · rintro ⟨-, hsupported, -, ⟨sections, imports, exported, typeCount, definedCount, haccepted⟩, -⟩
      obtain ⟨required, found, haccepts, hcapabilities⟩ := haccepted.scanAccepts
      have hrequested := haccepted.requested
      rw [hcapabilities] at hrequested
      exact ⟨hsupported, required, found, haccepts,
        (capabilityMask_and_not_eq_zero (hknown haccepts)).mp hrequested⟩
  · rintro ⟨-, required, found, haccepts, hsubset⟩
    have hrequested := (capabilityMask_and_not_eq_zero (hknown haccepts)).mpr hsubset
    obtain ⟨sections, imports, exported, typeCount, definedCount, haccepted, hcapabilities⟩ :=
      moduleAccepted_of_scanAccepts haccepts hrequested
    refine ⟨required, sections, imports, (Tools.wasmScan_eq_ok hmaximum).mpr ⟨found, haccepts⟩,
      haccepted.sections_eq, haccepted.imports_eq, ?_⟩
    rw [hcapabilities, capabilityNames_capabilityMask (hknown haccepts)]

/-! ### A module that logs -/

/-- A module alone. -/
theorem payloadAt_self (wasm : List UInt8) : PayloadAt wasm 0 wasm := by
  have hall : 0 + wasm.length ≤ wasm.length := Nat.le_of_eq (Nat.zero_add _)
  refine ⟨hall, ?_⟩
  rw [toList_bytesAt_of_le hall]
  exact List.take_length

/-- A module with one import and three functions that return at once. -/
def loggingModule : List UInt8 :=
  wasmHeader ++ [1, 11, 2, 0x60, 0, 1, 0x7f, 0x60, 2, 0x7f, 0x7f, 1, 0x7f] ++
    [2, 18, 1] ++ 10 :: ascii "econtainer" ++ 3 :: ascii "log" ++ [0, 1] ++ [3, 4, 3, 0, 1, 0] ++
    [5, 4, 1, 1, 1, 1] ++ [7, 68, 4] ++ 6 :: ascii "memory" ++ [2, 0] ++
    15 :: ascii "econtainer_init" ++ [0, 1] ++ 19 :: ascii "econtainer_on_event" ++ [0, 2] ++
    15 :: ascii "econtainer_stop" ++ [0, 3] ++ [10, 10, 3, 2, 0, 0x0b, 2, 0, 0x0b, 2, 0, 0x0b]

/-- The record of its package. -/
def loggingRecord : Tools.ManifestRecord where
  dataSchemaVersion := 1
  guestAbiVersion := 1
  eventQueueLimit := 4
  hostCallTimeoutMs := 100
  instructionBudget := 10000
  memoryLimitBytes := 65536
  stackLimitBytes := 4096
  storageLimitBytes := 0
  payloadSha256 := "0000000000000000000000000000000000000000000000000000000000000000"
  payloadSizeBytes := loggingModule.length
  productId := "counter"
  productVersion := "1"
  requiredCapabilities := ["log", "timer"]
  runtimeProfile := "wamr-classic-v1"
  signingKeyId := "test-key"

/-- Its facts, with the module alone for a package. -/
def loggingInfo : Info :=
  { Info.zero with
    packageSizeBytes := loggingModule.length
    wasmSizeBytes := loggingModule.length
    guestAbiVersion := 1
    memoryLimitBytes := 65536
    stackLimitBytes := 4096
    requestedCapabilities := capLog ||| capTimer
    isClassicProfile := true }

/-- The device admits it. -/
theorem admission_agrees_loggingModule :
    (packageWasmCheck constantCrypto true (some loggingInfo) (some ⟨capAll, 65536, 4096⟩) true).eval
      (snapshot loggingModule) = .ok () := by
  have hfacts : SignedFacts constantCrypto loggingRecord loggingModule loggingModule loggingInfo :=
    { guestAbi := rfl
      profile := rfl
      capabilities := by decide +kernel
      unknown := by decide +kernel
      memory := rfl
      stack := rfl
      payload := payloadAt_self loggingModule
      wasmSize := rfl
      packageSize := rfl
      digest := rfl }
  have hallows : Allows ⟨capAll, 65536, 4096⟩ loggingRecord :=
    ⟨rfl, Nat.le_refl _, Nat.le_refl _⟩
  exact (admission_agrees constantCrypto loggingRecord loggingModule loggingModule loggingInfo
    ⟨capAll, 65536, 4096⟩ (by decide +kernel) (by decide +kernel) (by decide) hfacts hallows).1.mp
    (by decide +kernel)

end Package
