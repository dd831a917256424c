/-
# One encoding per package

What `unpack` accepts, member by member: the bytes at the cursor are a member in the
canonical layout, and what follows the third are zeros up to a whole record. So it
accepts the archives that the device accepts, and with the same members there is one.
-/

import EspContainer.Package.Verification
import EspContainer.Tools.Headers

namespace Tools

open Binary Interaction Package

variable {package before after : List UInt8} {maxWasmBytes : Nat}

/-! ## One member -/

/-- The slice behind the first of two parts. -/
theorem slice_between (hpackage : before ++ after = package) (count : Nat) :
    slice package before.length (before.length + count) = after.take count := by
  rw [← hpackage, slice_append_right le_rfl, slice, Nat.sub_self, List.drop_zero, Nat.sub_zero,
    Nat.add_sub_cancel_left]

/-- A part that begins with some bytes. -/
theorem eq_append_of_take {bytes front : List UInt8} {count : Nat}
    (hfront : bytes.take count = front) : bytes = front ++ bytes.drop count := by
  rw [← hfront, List.take_append_drop]

/-- A header that `unpack` lets pass is the one of a member of that name and size. -/
theorem unpackHeader_eq_ok {name header : List UInt8} (hname : name.length < 100)
    (hnonzero : ∀ byte ∈ name, byte ≠ 0) {size : Nat} :
    (checkHeader header name = .ok size ∧ (some header != (memberInfo name size).tobuf) = false) ↔
      header = memberHeader name size ∧ size < 8 ^ 11 := by
  rw [tobuf_memberInfo hname]
  constructor
  · rintro ⟨-, hbuffer⟩
    by_cases hsize : size < 8 ^ 11
    · rw [if_pos hsize, bne_eq_false_iff_eq, Option.some.injEq] at hbuffer
      exact ⟨hbuffer, hsize⟩
    · rw [if_neg hsize] at hbuffer
      cases hbuffer
  · rintro ⟨rfl, hsize⟩
    rw [if_pos hsize, bne_self_eq_false]
    exact ⟨checkHeader_memberHeader hname hnonzero hsize, rfl⟩

/-- The cursor behind the padding of a member. -/
theorem cursor_archiveMember (before name data : List UInt8) :
    (before ++ memberHeader name data.length ++ data).length + (512 - data.length % 512) % 512 =
      (before ++ archiveMember name data).length := by
  simp only [archiveMember, paddingBytes, List.length_append, List.length_replicate, tarBlockBytes,
    Nat.add_assoc]

/-- One round of `unpack` returns a value exactly if what is left begins with a member. -/
theorem unpackMember_eq_ok {name : List UInt8} (hname : name.length < 100)
    (hnonzero : ∀ byte ∈ name, byte ≠ 0) (hpackage : before ++ after = package)
    {read : List UInt8 × Nat} :
    unpackMember package maxWasmBytes name before.length = .ok read ↔
      ∃ data rest, before ++ archiveMember name data ++ rest = package ∧
        data.length ≤ memberCap name maxWasmBytes ∧ data.length < 8 ^ 11 ∧
        read = (data, (before ++ archiveMember name data).length) := by
  have hlength : before.length + after.length = package.length := by
    rw [← hpackage, List.length_append]
  simp only [unpackMember, checked_bind_eq_ok, refuseIf_eq_ok, checked_pure_eq_ok]
  constructor
  · rintro ⟨-, hroom, size, hchecked, -, hsize, -, hbuffer, -, hpadding, rfl⟩
    obtain ⟨hheader, hfits⟩ := (unpackHeader_eq_ok hname hnonzero).mp ⟨hchecked, hbuffer⟩
    simp only [Bool.or_eq_false_iff, decide_eq_false_iff_not, not_lt] at hroom hsize
    -- The three parts of what is left: the header, the data and the padding.
    obtain ⟨afterHeader, rfl⟩ : ∃ rest, after = memberHeader name size ++ rest :=
      ⟨_, eq_append_of_take ((slice_between hpackage 512).symm.trans hheader)⟩
    have hheaderEnd : before.length + 512 = (before ++ memberHeader name size).length := by
      rw [List.length_append, length_memberHeader hname]
    rw [← List.append_assoc] at hpackage
    have hdata : (afterHeader.take size).length = size := by
      rw [List.length_append, length_memberHeader hname] at hlength
      rw [List.length_take]
      omega
    obtain ⟨data, afterData, rfl, rfl⟩ :
        ∃ data rest, afterHeader = data ++ rest ∧ data.length = size :=
      ⟨_, _, eq_append_of_take rfl, hdata⟩
    have hextracted := slice_between hpackage data.length
    rw [List.take_left] at hextracted
    rw [← List.append_assoc] at hpackage
    have hdataEnd : (before ++ memberHeader name data.length).length + data.length =
        (before ++ memberHeader name data.length ++ data).length := by
      rw [@List.length_append _ _ data]
    have hzeros := slice_between hpackage (paddingBytes data.length)
    rw [hheaderEnd, hdataEnd, bne_eq_false_iff_eq] at hpadding
    have hsplit : afterData = List.replicate (paddingBytes data.length) 0 ++
        afterData.drop (paddingBytes data.length) :=
      eq_append_of_take (hzeros.symm.trans hpadding)
    refine ⟨data, afterData.drop (paddingBytes data.length), ?_, hsize.1, hfits, ?_⟩
    · rw [append_archiveMember, List.append_assoc _ _ (afterData.drop _), ← hsplit, hpackage]
    · rw [hheaderEnd, hextracted, hdataEnd, cursor_archiveMember]
  · rintro ⟨data, rest, hsplit, hcap, hfits, rfl⟩
    rw [append_archiveMember] at hsplit
    have hheader : slice package before.length (before.length + 512) =
        memberHeader name data.length := by
      have hfront : before ++ (memberHeader name data.length ++ (data ++
          (List.replicate (paddingBytes data.length) 0 ++ rest))) = package := by
        simpa only [List.append_assoc] using hsplit
      rw [slice_between hfront, List.take_left' (length_memberHeader hname _)]
    have hheaderEnd : before.length + 512 = (before ++ memberHeader name data.length).length := by
      rw [List.length_append, length_memberHeader hname]
    have hextracted : slice package (before ++ memberHeader name data.length).length
        ((before ++ memberHeader name data.length).length + data.length) = data := by
      have hfront : before ++ memberHeader name data.length ++ (data ++
          (List.replicate (paddingBytes data.length) 0 ++ rest)) = package := by
        simpa only [List.append_assoc] using hsplit
      rw [slice_between hfront, List.take_left]
    have hdataEnd : (before ++ memberHeader name data.length).length + data.length =
        (before ++ memberHeader name data.length ++ data).length := by
      rw [@List.length_append _ _ data]
    have hpadding : slice package (before ++ memberHeader name data.length ++ data).length
        ((before ++ memberHeader name data.length ++ data).length + paddingBytes data.length) =
          List.replicate (paddingBytes data.length) 0 := by
      rw [List.append_assoc] at hsplit
      rw [slice_between hsplit, List.take_left' List.length_replicate]
    have hroom := congrArg List.length hsplit
    simp only [List.length_append, length_memberHeader hname, List.length_replicate] at hroom
    obtain ⟨hchecked, hbuffer⟩ := (unpackHeader_eq_ok hname hnonzero).mpr ⟨hheader, hfits⟩
    refine ⟨(), ?_, data.length, hchecked, (), ?_, (), hbuffer, (), ?_, ?_⟩
    · rw [decide_eq_false_iff_not]
      omega
    · rw [Bool.or_eq_false_iff, decide_eq_false_iff_not, decide_eq_false_iff_not]
      omega
    · rw [hheaderEnd, hdataEnd, bne_eq_false_iff_eq]
      exact hpadding
    · rw [hheaderEnd, hextracted, hdataEnd, cursor_archiveMember]

/-! ## The whole package -/

/-- What `unpack` asks of the bytes behind the third member. -/
theorem unpackEnd_iff (hpackage : before ++ after = package) :
    ((package.length != (before.length + 1024 + tarRecordBytes - 1) / tarRecordBytes *
        tarRecordBytes) ||
      package.drop before.length != List.replicate (package.length - before.length) 0) = false ↔
      IsLeast {size | tarRecordBytes ∣ size ∧ before.length + 2 * tarBlockBytes ≤ size}
          package.length ∧
        ∃ zeros, package = before ++ List.replicate zeros 0 := by
  have hdrop : package.drop before.length = after := by
    rw [← hpackage, List.drop_left]
  have hleft : package.length - before.length = after.length := by
    rw [← hpackage, List.length_append, Nat.add_sub_cancel_left]
  rw [isLeast_records, Bool.or_eq_false_iff, bne_eq_false_iff_eq, bne_eq_false_iff_eq, hdrop, hleft]
  constructor
  · rintro ⟨hsize, hzeros⟩
    exact ⟨hsize.symm, after.length, by rw [← hzeros, hpackage]⟩
  · rintro ⟨hsize, zeros, hzeros⟩
    rw [← hpackage, List.append_cancel_left_eq] at hzeros
    exact ⟨hsize.symm, by rw [hzeros, List.length_replicate]⟩

theorem memberCap_manifest : memberCap manifestName maxWasmBytes = packageManifestMaxBytes :=
  if_pos rfl

theorem memberCap_signature : memberCap signatureName maxWasmBytes = packageSignatureBytes :=
  (if_neg (by decide)).trans (if_pos rfl)

theorem memberCap_wasm : memberCap wasmName maxWasmBytes = maxWasmBytes :=
  (if_neg (by decide)).trans (if_neg (by decide))

/-- `unpack` accepts the archives of the canonical layout within its bounds. -/
theorem unpack_eq_ok_of_fits (hwasmFits : maxWasmBytes < 8 ^ 11)
    {manifest signature wasm : List UInt8} :
    unpack package maxWasmBytes = .ok (manifest, signature, wasm) ↔
      IsPackage package manifest signature wasm ∧ manifest.length ≤ packageManifestMaxBytes ∧
        signature.length ≤ packageSignatureBytes ∧ wasm.length ≤ maxWasmBytes ∧
        package.length ≤ maxWasmBytes + 12288 := by
  have hstart : ([] : List UInt8) ++ package = package := List.nil_append _
  have hmanifestName : ∀ byte ∈ manifestName, byte ≠ 0 := by decide +kernel
  have hsignatureName : ∀ byte ∈ signatureName, byte ≠ 0 := by decide +kernel
  have hwasmName : ∀ byte ∈ wasmName, byte ≠ 0 := by decide +kernel
  have hmanifestFits : packageManifestMaxBytes < 8 ^ 11 := by decide
  have hsignatureFits : packageSignatureBytes < 8 ^ 11 := by decide
  simp only [unpack, checked_bind_eq_ok, refuseIf_eq_ok, checked_pure_eq_ok]
  constructor
  · rintro ⟨-, hbound, read, hmanifest, hread⟩
    obtain ⟨manifestBytes, rest, hsplit, hmanifestCap, -, rfl⟩ :=
      (unpackMember_eq_ok (by decide) hmanifestName hstart).mp hmanifest
    obtain ⟨read, hsignature, hread⟩ := hread
    obtain ⟨signatureBytes, rest, hsplit, hsignatureCap, -, rfl⟩ :=
      (unpackMember_eq_ok (by decide) hsignatureName hsplit).mp hsignature
    obtain ⟨read, hwasm, -, hend, hread⟩ := hread
    obtain ⟨wasmBytes, rest, hsplit, hwasmCap, -, rfl⟩ :=
      (unpackMember_eq_ok (by decide) hwasmName hsplit).mp hwasm
    rw [Prod.mk.injEq, Prod.mk.injEq] at hread
    obtain ⟨rfl, rfl, rfl⟩ := hread
    rw [memberCap_manifest] at hmanifestCap
    rw [memberCap_signature] at hsignatureCap
    rw [memberCap_wasm] at hwasmCap
    rw [Bool.or_eq_false_iff, decide_eq_false_iff_not, not_lt, Nat.add_assoc] at hbound
    exact ⟨(unpackEnd_iff hsplit).mp hend, hmanifestCap, hsignatureCap, hwasmCap, hbound.2⟩
  · rintro ⟨hlayout, hmanifestCap, hsignatureCap, hwasmCap, hbound⟩
    have hblocks := hlayout.blocks
    obtain ⟨hleast, zeros, hzeros⟩ := hlayout
    have hall : packageMembers manifest signature wasm = [] ++ archiveMember manifestName manifest ++
        archiveMember signatureName signature ++ archiveMember wasmName wasm := by
      rw [List.nil_append, packageMembers, manifestName, signatureName, wasmName]
    rw [hall] at hleast hzeros
    have hmembers := hzeros.symm
    have hbehindSignature : [] ++ archiveMember manifestName manifest ++
        archiveMember signatureName signature ++ (archiveMember wasmName wasm ++
          List.replicate zeros 0) = package := by
      rw [← hmembers, List.append_assoc _ (archiveMember wasmName wasm)]
    have hbehindManifest : [] ++ archiveMember manifestName manifest ++
        (archiveMember signatureName signature ++ (archiveMember wasmName wasm ++
          List.replicate zeros 0)) = package := by
      rw [← hbehindSignature, List.append_assoc _ (archiveMember signatureName signature)]
    have hmanifestLe : manifest.length ≤ memberCap manifestName maxWasmBytes :=
      hmanifestCap.trans_eq memberCap_manifest.symm
    have hsignatureLe : signature.length ≤ memberCap signatureName maxWasmBytes :=
      hsignatureCap.trans_eq memberCap_signature.symm
    have hwasmLe : wasm.length ≤ memberCap wasmName maxWasmBytes :=
      hwasmCap.trans_eq memberCap_wasm.symm
    have hfirst := (unpackMember_eq_ok (by decide) hmanifestName
      hstart).mpr ⟨manifest, _, hbehindManifest, hmanifestLe, hmanifestCap.trans_lt hmanifestFits, rfl⟩
    have hsecond := (unpackMember_eq_ok (by decide) hsignatureName
      hbehindManifest).mpr ⟨signature, _, hbehindSignature, hsignatureLe,
        hsignatureCap.trans_lt hsignatureFits, rfl⟩
    have hthird := (unpackMember_eq_ok (by decide) hwasmName
      hbehindSignature).mpr ⟨wasm, _, hmembers, hwasmLe,
        hwasmCap.trans_lt hwasmFits, rfl⟩
    have hend := (unpackEnd_iff hmembers).mpr ⟨hleast, zeros, hzeros⟩
    refine ⟨(), ?_, _, hfirst, _, hsecond, _, hthird, (), ?_, rfl⟩
    · rw [Bool.or_eq_false_iff, bne_eq_false_iff_eq, decide_eq_false_iff_not, not_lt, Nat.add_assoc]
      exact ⟨Nat.mod_eq_zero_of_dvd hblocks, hbound⟩
    · dsimp only
      exact hend

theorem unpack_eq_ok (hmaxWasm : maxWasmBytes ≤ packageWasmMaxBytes)
    {manifest signature wasm : List UInt8} :
    unpack package maxWasmBytes = .ok (manifest, signature, wasm) ↔
      IsPackage package manifest signature wasm ∧ manifest.length ≤ packageManifestMaxBytes ∧
        signature.length ≤ packageSignatureBytes ∧ wasm.length ≤ maxWasmBytes ∧
        package.length ≤ maxWasmBytes + 12288 :=
  unpack_eq_ok_of_fits (hmaxWasm.trans_lt (by decide))

/-! ## One encoding -/

/-- The canonical layout of three members. -/
def canonicalPackage (manifest signature wasm : List UInt8) : List UInt8 :=
  let members := packageMembers manifest signature wasm
  let canonicalSize :=
    (members.length + 2 * tarBlockBytes + tarRecordBytes - 1) / tarRecordBytes * tarRecordBytes
  members ++ List.replicate (canonicalSize - members.length) 0

/-- A package of the canonical layout is the one its members have. -/
theorem isPackage_iff {manifest signature wasm : List UInt8} :
    IsPackage package manifest signature wasm ↔ package = canonicalPackage manifest signature wasm := by
  rw [IsPackage, isLeast_records, canonicalPackage]
  constructor
  · rintro ⟨hsize, zeros, hzeros⟩
    rw [hsize, hzeros, List.length_append, List.length_replicate, Nat.add_sub_cancel_left]
  · intro hpackage
    have hrounded : (packageMembers manifest signature wasm).length ≤
        ((packageMembers manifest signature wasm).length + 2 * tarBlockBytes + tarRecordBytes - 1) /
          tarRecordBytes * tarRecordBytes := by
      simp only [tarBlockBytes, tarRecordBytes]
      omega
    refine ⟨?_, _, hpackage⟩
    rw [hpackage, List.length_append, List.length_replicate, Nat.add_sub_cancel' hrounded]

/-- A member is its header and its data in whole blocks. -/
theorem length_archiveMember {name : List UInt8} (hname : name.length < 100) (data : List UInt8) :
    (archiveMember name data).length = 512 * (1 + (data.length + 511) / 512) := by
  rw [archiveMember, List.length_append, List.length_append, length_memberHeader hname,
    List.length_replicate, paddingBytes]
  simp only [tarBlockBytes]
  omega

theorem length_packageMembers (manifest signature wasm : List UInt8) :
    (packageMembers manifest signature wasm).length =
      512 * (3 + (manifest.length + 511) / 512 + (signature.length + 511) / 512 +
        (wasm.length + 511) / 512) := by
  rw [packageMembers, List.length_append, List.length_append, length_archiveMember (by decide),
    length_archiveMember (by decide), length_archiveMember (by decide)]
  omega

/-- The size of a canonical package. -/
theorem length_canonicalPackage (manifest signature wasm : List UInt8) :
    (canonicalPackage manifest signature wasm).length =
      ((packageMembers manifest signature wasm).length + 11263) / 10240 * 10240 := by
  simp only [canonicalPackage, List.length_append, List.length_replicate, tarBlockBytes, tarRecordBytes]
  omega

/-- One accepted encoding per package. Host and device accept the same bytes with the same
members; these bytes are the canonical layout of the members, so no other bytes are accepted
with them and the digests agree. The archive checks are what verification demands of the
bytes besides the contents of the members. -/
theorem one_encoding (maxWasmBytes : Nat) (hmin : 8 ≤ maxWasmBytes)
    (hmax : maxWasmBytes ≤ packageWasmMaxBytes) (package : List UInt8) :
    (∀ manifest signature wasm,
      (unpack package maxWasmBytes = .ok (manifest, signature, wasm) ∧ 1 ≤ manifest.length ∧
          signature.length = 384 ∧ 8 ≤ wasm.length) ↔
        archiveMembers package maxWasmBytes = .ok (manifest, signature, wasm)) ∧
      (∀ manifest signature wasm,
        archiveMembers package maxWasmBytes = .ok (manifest, signature, wasm) →
          package = canonicalPackage manifest signature wasm ∧
          ∀ other, archiveMembers other maxWasmBytes = .ok (manifest, signature, wasm) →
            other = package ∧ ∀ crypto : Crypto, crypto.sha256 other = crypto.sha256 package) ∧
      ∀ (crypto : Crypto) (publicKey expectedKeyId : List UInt8) (buffers : Workspace) outcome,
        1 ≤ publicKey.length ∧ publicKey.length ≤ 1024 →
        (packageVerify crypto (.complete package.length maxWasmBytes publicKey expectedKeyId)
          (some buffers)).eval (snapshot package) = outcome →
        (outcome.result = .ok () ↔ ∃ manifestBytes signature wasm manifest,
          archiveMembers package maxWasmBytes = .ok (manifestBytes, signature, wasm) ∧
          parseManifest manifestBytes expectedKeyId maxWasmBytes = some manifest ∧
          signatureVerify crypto publicKey manifestBytes signature = true ∧
          wasmHeader <+: wasm ∧ wasm.length = manifest.wasmSizeBytes.toNat ∧
          crypto.sha256 wasm = manifest.wasmSha256 ∧
          outcome = verifyOutcome buffers
            (.ok (verifiedPackage crypto package manifestBytes signature wasm manifest))) := by
  refine ⟨?_, ?_, ?_⟩
  · intro manifest signature wasm
    rw [unpack_eq_ok hmax, archiveMembers_eq_ok hmax]
    constructor
    · rintro ⟨⟨hlayout, hmanifest, -, hwasm, hbound⟩, hpos, hsignature, hwasmMin⟩
      exact ⟨⟨hlayout, hpos, hmanifest, hsignature, hwasmMin, hwasm⟩, hbound⟩
    · rintro ⟨⟨hlayout, hpos, hmanifest, hsignature, hwasmMin, hwasm⟩, hbound⟩
      exact ⟨⟨hlayout, hmanifest, hsignature.le, hwasm, hbound⟩, hpos, hsignature, hwasmMin⟩
  · intro manifest signature wasm harchive
    have hcanonical {bytes : List UInt8}
        (hbytes : archiveMembers bytes maxWasmBytes = .ok (manifest, signature, wasm)) :
        bytes = canonicalPackage manifest signature wasm :=
      isPackage_iff.mp ((archiveMembers_eq_ok hmax).mp hbytes).1.layout
    refine ⟨hcanonical harchive, fun other hother => ?_⟩
    have hequal : other = package := (hcanonical hother).trans (hcanonical harchive).symm
    exact ⟨hequal, fun crypto => by rw [hequal]⟩
  · intro crypto publicKey expectedKeyId buffers outcome hkey houtcome
    exact packageVerify_archive crypto publicKey expectedKeyId buffers hmin hmax hkey package houtcome

/-- The package of one byte of manifest, a blank signature and an empty module. -/
theorem one_encoding_empty :
    archiveMembers (canonicalPackage [123] (List.replicate 384 0) wasmHeader) 8 =
      .ok ([123], List.replicate 384 0, wasmHeader) ∧
    unpack (canonicalPackage [123] (List.replicate 384 0) wasmHeader) 8 =
      .ok ([123], List.replicate 384 0, wasmHeader) := by
  have hlength : (canonicalPackage [123] (List.replicate 384 0) wasmHeader).length = 10240 := by
    rw [length_canonicalPackage, length_packageMembers, List.length_replicate]
    rfl
  have harchive : archiveMembers (canonicalPackage [123] (List.replicate 384 0) wasmHeader) 8 =
      .ok ([123], List.replicate 384 0, wasmHeader) := by
    rw [archiveMembers_eq_ok (by decide), hlength]
    exact ⟨⟨isPackage_iff.mpr rfl, by decide, by decide, List.length_replicate, by decide, by decide⟩,
      by decide⟩
  obtain ⟨hmembers, -, -⟩ := one_encoding 8 (by decide) (by decide)
    (canonicalPackage [123] (List.replicate 384 0) wasmHeader)
  exact ⟨harchive, ((hmembers _ _ _).mpr harchive).1⟩

end Tools
