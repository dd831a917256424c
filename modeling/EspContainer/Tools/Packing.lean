/-
# Packing and verifying

`pack` writes the canonical layout of its members, and `verify_package` takes it apart again.
Both bound the payload by the same option, but `unpack` also bounds the package, by less than
what rounding up to whole records may add. So a package that was packed under a bound is
verified under it exactly if it is not longer than that.
-/

import EspContainer.Tools.ManifestAcceptance
import EspContainer.Tools.Product
import EspContainer.Tools.Unpacking

namespace Tools

open Binary Package Text

variable {F P S : Type} {interpreter : Interpreter F} {cryptography : Cryptography P S}
  {manifestBytes signature wasm package pem : List UInt8} {record : ManifestRecord}
  {maxWasmBytes : Nat} {expectedKeyId : String}

/-! ## Packing -/

/-- A member is added if its size fits into the header. -/
theorem addfile_eq_ok {name data archive next : List UInt8} (hname : name.length < 100) :
    addfile archive (memberInfo name data.length) data = .ok next ↔
      data.length < 8 ^ 11 ∧ next = archive ++ archiveMember name data := by
  rw [addfile, tobuf_memberInfo hname]
  by_cases hsize : data.length < 8 ^ 11
  · rw [if_pos hsize, and_iff_right hsize]
    simp only [Except.ok.injEq]
    rw [archiveMember, memberInfo, paddingBytes, List.append_assoc, List.append_assoc,
      ← List.append_assoc (memberHeader name data.length), eq_comm]
  · rw [if_neg hsize]
    constructor
    · intro hnext
      cases hnext
    · rintro ⟨hfits, -⟩
      exact absurd hfits hsize

/-- The end of the archive rounds up to whole records. -/
theorem closeArchive_eq (archive : List UInt8) :
    closeArchive archive = archive ++ List.replicate
      ((archive.length + 2 * tarBlockBytes + tarRecordBytes - 1) / tarRecordBytes * tarRecordBytes -
        archive.length) 0 := by
  have hended : (archive ++ List.replicate (tarBlockBytes * 2) (0 : UInt8)).length =
      archive.length + 2 * tarBlockBytes := by
    rw [List.length_append, List.length_replicate, Nat.mul_comm]
  rw [closeArchive, hended]
  split
  · next hremainder =>
    rw [List.append_assoc, List.replicate_append_replicate]
    refine congrArg (fun count => archive ++ List.replicate count 0) ?_
    simp only [tarBlockBytes, tarRecordBytes] at hremainder ⊢
    omega
  · next hremainder =>
    refine congrArg (fun count => archive ++ List.replicate count 0) ?_
    simp only [tarBlockBytes, tarRecordBytes] at hremainder ⊢
    omega

theorem closeArchive_packageMembers (manifestBytes signature wasm : List UInt8) :
    closeArchive (packageMembers manifestBytes signature wasm) =
      canonicalPackage manifestBytes signature wasm := closeArchive_eq _

/-- What `pack` makes of which members. -/
theorem pack_eq_ok :
    pack interpreter cryptography manifestBytes signature wasm maxWasmBytes = .ok package ↔
      ∃ record, manifest interpreter manifestBytes = .ok record ∧
        signature.length = packageSignatureBytes ∧ wasm.length ≤ maxWasmBytes ∧
        payloadMatches cryptography record wasm = true ∧
        checkDeclaredCapabilities wasm record = .ok () ∧ wasm.length < 8 ^ 11 ∧
        package = canonicalPackage manifestBytes signature wasm := by
  simp only [pack, raising_bind_eq_ok, raising_pure_eq_ok, demand_eq_ok, checked_eq_ok,
    addfile_eq_ok (show manifestName.length < 100 by decide),
    addfile_eq_ok (show signatureName.length < 100 by decide),
    addfile_eq_ok (show wasmName.length < 100 by decide), Bool.and_eq_true, beq_iff_eq,
    decide_eq_true_eq]
  constructor
  · rintro ⟨record, hmanifest, _, ⟨hsignature, hwasm⟩, _, hpayload, _, hcapabilities, _, ⟨-, rfl⟩, _,
      ⟨-, rfl⟩, _, ⟨hfits, rfl⟩, rfl⟩
    exact ⟨record, hmanifest, hsignature, hwasm, hpayload, hcapabilities, hfits,
      closeArchive_packageMembers manifestBytes signature wasm⟩
  · rintro ⟨record, hmanifest, hsignature, hwasm, hpayload, hcapabilities, hfits, rfl⟩
    have hlength := (eq_text_of_manifest hmanifest).2.2
    refine ⟨record, hmanifest, (), ⟨hsignature, hwasm⟩, (), hpayload, (), hcapabilities, _,
      ⟨hlength.trans_lt (by decide), rfl⟩, _, ⟨by rw [hsignature]; decide, rfl⟩, _, ⟨hfits, rfl⟩, ?_⟩
    exact closeArchive_packageMembers manifestBytes signature wasm

/-! ## Verifying -/

theorem length_of_verifySignature
    (hsigned : verifySignature cryptography manifestBytes signature pem = .ok ()) :
    signature.length = packageSignatureBytes := by
  rw [verifySignature, raising_bind_eq_ok] at hsigned
  obtain ⟨_, hsignature, -⟩ := hsigned
  exact eq_of_beq (demand_eq_ok.mp hsignature)

theorem verifyPackage_eq_ok (hfits : maxWasmBytes < 8 ^ 11) :
    verifyPackage interpreter cryptography package pem expectedKeyId maxWasmBytes = .ok record ↔
      ∃ manifestBytes signature wasm, IsPackage package manifestBytes signature wasm ∧
        wasm.length ≤ maxWasmBytes ∧ package.length ≤ maxWasmBytes + 12288 ∧
        manifest interpreter manifestBytes = .ok record ∧ record.signingKeyId = expectedKeyId ∧
        verifySignature cryptography manifestBytes signature pem = .ok () ∧
        payloadMatches cryptography record wasm = true ∧
        checkDeclaredCapabilities wasm record = .ok () := by
  simp only [verifyPackage, raising_bind_eq_ok, raising_pure_eq_ok, demand_eq_ok, checked_eq_ok,
    beq_iff_eq]
  constructor
  · rintro ⟨⟨manifestBytes, signature, wasm⟩, hunpacked, found, hmanifest, _, hkey, _, hsigned, _,
      hpayload, _, hcapabilities, rfl⟩
    obtain ⟨hlayout, -, -, hwasm, hbound⟩ := (unpack_eq_ok_of_fits hfits).mp hunpacked
    exact ⟨manifestBytes, signature, wasm, hlayout, hwasm, hbound, hmanifest, hkey, hsigned, hpayload,
      hcapabilities⟩
  · rintro ⟨manifestBytes, signature, wasm, hlayout, hwasm, hbound, hmanifest, hkey, hsigned, hpayload,
      hcapabilities⟩
    have hunpacked := (unpack_eq_ok_of_fits hfits).mpr
      ⟨hlayout, (eq_text_of_manifest hmanifest).2.2, (length_of_verifySignature hsigned).le, hwasm, hbound⟩
    exact ⟨_, hunpacked, record, hmanifest, (), hkey, (), hsigned, (), hpayload, (), hcapabilities, rfl⟩

/-! ## One after the other -/

/-- A package has one layout, unless a member is too long for its header. -/
theorem IsPackage.unique {otherManifest otherSignature otherWasm : List UInt8} {bound : Nat}
    (hfits : bound < 8 ^ 11) (hbound : package.length ≤ bound + 12288)
    (hfirst : IsPackage package manifestBytes signature wasm)
    (hmanifest : manifestBytes.length ≤ packageManifestMaxBytes)
    (hsignature : signature.length ≤ packageSignatureBytes) (hwasm : wasm.length < 8 ^ 11)
    (hsecond : IsPackage package otherManifest otherSignature otherWasm)
    (hotherManifest : otherManifest.length ≤ packageManifestMaxBytes)
    (hotherSignature : otherSignature.length ≤ packageSignatureBytes)
    (hotherWasm : otherWasm.length < 8 ^ 11) :
    manifestBytes = otherManifest ∧ signature = otherSignature ∧ wasm = otherWasm := by
  have hlargest : package.length ≤ 8 ^ 11 - 1 + 12288 :=
    hbound.trans (Nat.add_le_add_right (Nat.le_pred_of_lt hfits) _)
  have hunpacked := (unpack_eq_ok_of_fits (by decide)).mpr
    ⟨hfirst, hmanifest, hsignature, Nat.le_pred_of_lt hwasm, hlargest⟩
  rw [(unpack_eq_ok_of_fits (by decide)).mpr
    ⟨hsecond, hotherManifest, hotherSignature, Nat.le_pred_of_lt hotherWasm, hlargest⟩] at hunpacked
  simp only [Except.ok.injEq, Prod.mk.injEq] at hunpacked
  exact ⟨hunpacked.1.symm, hunpacked.2.1.symm, hunpacked.2.2.symm⟩

/-- No package of a payload that the device takes is too long for the device. -/
theorem length_canonicalPackage_le (hmanifest : manifestBytes.length ≤ packageManifestMaxBytes)
    (hsignature : signature.length = packageSignatureBytes)
    (hwasm : wasm.length ≤ packageWasmMaxBytes) :
    (canonicalPackage manifestBytes signature wasm).length ≤ packageWasmMaxBytes + 12288 := by
  rw [length_canonicalPackage, length_packageMembers, hsignature]
  simp only [packageManifestMaxBytes, packageSignatureBytes, packageWasmMaxBytes] at *
  omega

/-- What was packed is verified under a bound exactly if payload and package are within it, the
key id is the expected one and the signature is one of the manifest. -/
theorem verifyPackage_of_pack {packBound verifyBound : Nat} (hfits : verifyBound < 8 ^ 11)
    (hpacked : pack interpreter cryptography manifestBytes signature wasm packBound = .ok package) :
    verifyPackage interpreter cryptography package pem expectedKeyId verifyBound = .ok record ↔
      manifest interpreter manifestBytes = .ok record ∧ wasm.length ≤ verifyBound ∧
        package.length ≤ verifyBound + 12288 ∧ record.signingKeyId = expectedKeyId ∧
        verifySignature cryptography manifestBytes signature pem = .ok () := by
  obtain ⟨packed, hmanifest, hsignature, -, hpayload, hchecked, hwasmFits, rfl⟩ := pack_eq_ok.mp hpacked
  have hlayout := isPackage_iff.mpr (rfl : canonicalPackage manifestBytes signature wasm = _)
  rw [verifyPackage_eq_ok hfits]
  constructor
  · rintro ⟨otherManifest, otherSignature, otherWasm, hother, hwasm, hbound, hotherManifest, hkey,
      hsigned, -, -⟩
    obtain ⟨rfl, rfl, rfl⟩ := IsPackage.unique hfits hbound hlayout
      (eq_text_of_manifest hmanifest).2.2 hsignature.le hwasmFits hother
      (eq_text_of_manifest hotherManifest).2.2 (length_of_verifySignature hsigned).le
      (hwasm.trans_lt hfits)
    exact ⟨hotherManifest, hwasm, hbound, hkey, hsigned⟩
  · rintro ⟨hsame, hwasm, hbound, hkey, hsigned⟩
    obtain rfl : packed = record := Except.ok.inj (hmanifest.symm.trans hsame)
    exact ⟨_, _, _, hlayout, hwasm, hbound, hmanifest, hkey, hsigned, hpayload, hchecked⟩

end Tools
