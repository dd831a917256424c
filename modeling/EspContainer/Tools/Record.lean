/-
# The record of a manifest

What `_manifest` returns and the tools read: the declared facts of a package, and the check
of a module against them.
-/

import EspContainer.Tools.HostAdmission
import EspContainer.Wasm.Cursors

namespace Tools

open Binary Package Wasm

/-- The record of a manifest, less the fields that have one value only. -/
structure ManifestRecord where
  dataSchemaVersion : Nat
  guestAbiVersion : Nat
  eventQueueLimit : Nat
  hostCallTimeoutMs : Nat
  instructionBudget : Nat
  memoryLimitBytes : Nat
  stackLimitBytes : Nat
  storageLimitBytes : Nat
  payloadSha256 : String
  payloadSizeBytes : Nat
  productId : String
  productVersion : String
  requiredCapabilities : List String
  runtimeProfile : String
  signingKeyId : String
  deriving DecidableEq

/-- The capabilities that a module may need. -/
def knownCapabilities : List String := ["monotonic-time", "log", "timer"]

/-- `_check_declared_capabilities`. -/
def checkDeclaredCapabilities (wasm : List UInt8) (record : ManifestRecord) : Checked Unit := do
  refuseIf (record.guestAbiVersion != 1 || record.runtimeProfile != "wamr-classic-v1")
    "不支持的 Wasm ABI 或运行 profile"
  refuseIf (!(record.requiredCapabilities.all fun capability => knownCapabilities.contains capability))
    "不支持的 Wasm 能力声明"
  let required ← wasmScan wasm record.memoryLimitBytes
  refuseIf (!decide (required ⊆ record.requiredCapabilities.toFinset))
    "Wasm imports 缺少 manifest required_capabilities 授权"

/-- The declarations that the check wants, whatever the module is. -/
structure ManifestRecord.Supported (record : ManifestRecord) : Prop where
  guestAbi : record.guestAbiVersion = 1
  profile : record.runtimeProfile = "wamr-classic-v1"
  capabilities : ∀ capability ∈ record.requiredCapabilities, capability ∈ knownCapabilities

theorem checkDeclaredCapabilities_eq_ok {wasm : List UInt8} {record : ManifestRecord} :
    checkDeclaredCapabilities wasm record = .ok () ↔
      record.Supported ∧ ∃ required, wasmScan wasm record.memoryLimitBytes = .ok required ∧
        required ⊆ record.requiredCapabilities.toFinset := by
  simp only [checkDeclaredCapabilities, checked_bind_eq_ok, refuseIf_eq_ok, Bool.or_eq_false_iff,
    bne_eq_false_iff_eq, Bool.not_eq_false', List.all_eq_true, List.contains_eq_mem,
    decide_eq_true_eq]
  constructor
  · rintro ⟨_, ⟨habi, hprofile⟩, _, hcapabilities, required, hscan, hsubset⟩
    exact ⟨⟨habi, hprofile, hcapabilities⟩, required, hscan, hsubset⟩
  · rintro ⟨⟨habi, hprofile, hcapabilities⟩, required, hscan, hsubset⟩
    exact ⟨(), ⟨habi, hprofile⟩, (), hcapabilities, required, hscan, hsubset⟩

/-- A module needs known capabilities only. -/
theorem importChange_known {types : List FuncType} {found next : List (List UInt8) × Finset String}
    {entry : Import} (hfound : ∀ capability ∈ found.2, capability ∈ knownCapabilities)
    (hchange : importChange types found entry = some next) :
    ∀ capability ∈ next.2, capability ∈ knownCapabilities := by
  rw [importChange] at hchange
  split at hchange
  · split at hchange
    · cases hchange
    · next signature capability hlookup =>
      split at hchange
      · cases hchange
      · cases hchange
        have hexpected := mem_of_lookup hlookup
        have hcapability : capability ∈ knownCapabilities := by
          simp only [expectedImports, List.mem_cons, Prod.mk.injEq, List.not_mem_nil, or_false]
            at hexpected
          rcases hexpected with ⟨-, -, rfl⟩ | ⟨-, -, rfl⟩ | ⟨-, -, rfl⟩ | ⟨-, -, rfl⟩ <;> decide
        intro other hother
        rcases Finset.mem_insert.mp hother with rfl | hother
        · exact hcapability
        · exact hfound other hother
  · cases hchange

theorem ImportsOf.known {types : List FuncType} {required : Finset String} {count : Nat}
    {content : Option (List UInt8)} (himports : ImportsOf types required count content) :
    ∀ capability ∈ required, capability ∈ knownCapabilities := by
  cases content with
  | none =>
      obtain ⟨rfl, -⟩ := himports
      intro capability hcapability
      exact absurd hcapability (Finset.notMem_empty capability)
  | some content =>
      obtain ⟨entries, seen, -, -, -, hfold⟩ := himports
      have hempty : ∀ capability ∈ (∅ : Finset String), capability ∈ knownCapabilities :=
        fun capability hcapability => absurd hcapability (Finset.notMem_empty capability)
      exact @foldlM_keeps _ _ (importChange types)
        (fun found => ∀ capability ∈ found.2, capability ∈ knownCapabilities)
        (fun _ _ _ hfound hchange => importChange_known hfound hchange) _ _ _ hempty hfold

end Tools
