/-
# The slot record codec

`encode_state` and `decode_state` of `slots.c` with the CRC they share. A
record is 288 bytes: a 12-byte header, two 80-byte bindings, a 112-byte
operation and the CRC of everything before it. Each part is encoded and decoded
by its own function here, as the source's loop bodies do.

The codec is a bijection between valid states and accepted blobs. The engine
relies on both halves: `decodeState_encodeState` says what a commit will later
be read as, and `encodeState_of_decodeState` lets a byte comparison with the
re-encoded old state decide that nothing was written.
-/

import EspContainer.Slots.Record

namespace Slots

open Binary Package

/-- The stored record, `ECONTAINER_SLOT_BLOB_BYTES` long. -/
abbrev Blob : Type := Bytes 288

/-! ## Words -/

/-- `store_u32`: little-endian bytes of a word. -/
def storeU32 (value : UInt32) : Bytes 4 :=
  ⟨[value.toUInt8, (value >>> 8).toUInt8, (value >>> 16).toUInt8, (value >>> 24).toUInt8], rfl⟩

/-- `load_u32`: the word of four little-endian bytes. -/
def loadU32 (source : Bytes 4) : UInt32 :=
  (byteAt source.toList 0).toUInt32 ||| ((byteAt source.toList 1).toUInt32 <<< 8) |||
    ((byteAt source.toList 2).toUInt32 <<< 16) ||| ((byteAt source.toList 3).toUInt32 <<< 24)

/-- Assembling four bytes by shifts and ors is positional notation. -/
private theorem toNat_assemble (b0 b1 b2 b3 : UInt8) :
    (b0.toUInt32 ||| (b1.toUInt32 <<< 8) ||| (b2.toUInt32 <<< 16) |||
        (b3.toUInt32 <<< 24)).toNat =
      b0.toNat + 256 * b1.toNat + 65536 * b2.toNat + 16777216 * b3.toNat := by
  have h0 := b0.toNat_lt
  have h1 := b1.toNat_lt
  have h2 := b2.toNat_lt
  have h3 := b3.toNat_lt
  have hshift1 : b1.toNat <<< 8 % 2 ^ 32 = 2 ^ 8 * b1.toNat := by
    rw [Nat.shiftLeft_eq]; omega
  have hshift2 : b2.toNat <<< 16 % 2 ^ 32 = 2 ^ 16 * b2.toNat := by
    rw [Nat.shiftLeft_eq]; omega
  have hshift3 : b3.toNat <<< 24 % 2 ^ 32 = 2 ^ 24 * b3.toNat := by
    rw [Nat.shiftLeft_eq]; omega
  simp only [UInt32.toNat_or, UInt32.toNat_shiftLeft, UInt8.toNat_toUInt32,
    UInt32.reduceToNat, Nat.reduceMod, hshift1, hshift2, hshift3]
  have hor (low high width : Nat) (hlow : low < 2 ^ width) :
      low ||| 2 ^ width * high = 2 ^ width * high + low := by
    rw [Nat.or_comm, Nat.two_pow_add_eq_or_of_lt hlow]
  rw [hor _ _ 8 h0, hor _ _ 16 (by omega), hor _ _ 24 (by omega)]
  omega

@[simp]
theorem loadU32_storeU32 (value : UInt32) : loadU32 (storeU32 value) = value := by
  apply UInt32.toNat_inj.mp
  have hvalue := value.toNat_lt
  simp only [loadU32, storeU32, byteAt, Bytes.toList_mk, List.getD_cons_zero,
    List.getD_cons_succ, toNat_assemble]
  simp only [UInt32.toNat_toUInt8, UInt32.toNat_shiftRight, UInt32.reduceToNat,
    Nat.reduceMod, Nat.shiftRight_eq_div_pow]
  omega

@[simp]
theorem storeU32_loadU32 (source : Bytes 4) : storeU32 (loadU32 source) = source := by
  obtain ⟨_ | ⟨b0, _ | ⟨b1, _ | ⟨b2, _ | ⟨b3, _ | ⟨b4, tail⟩⟩⟩⟩⟩, hlength⟩ := source <;>
    try simp at hlength
  have hnat := toNat_assemble b0 b1 b2 b3
  have h0 := b0.toNat_lt
  have h1 := b1.toNat_lt
  have h2 := b2.toNat_lt
  have h3 := b3.toNat_lt
  apply Bytes.ext
  simp only [storeU32, loadU32, byteAt, Bytes.toList_mk, List.getD_cons_zero,
    List.getD_cons_succ, List.cons.injEq, and_true]
  refine ⟨?_, ?_, ?_, ?_⟩ <;> apply UInt8.toNat_inj.mp <;>
    simp only [UInt32.toNat_toUInt8, UInt32.toNat_shiftRight, UInt32.reduceToNat,
      Nat.reduceMod, Nat.shiftRight_eq_div_pow, hnat] <;> omega

/-! ## Checksum -/

/-- The eight shift steps `blob_crc32` makes for one byte. -/
def crcByte (crc : UInt32) (byte : UInt8) : UInt32 :=
  (List.range 8).foldl
    (fun crc _ => (crc >>> 1) ^^^ (if crc &&& 1 != 0 then 0xedb88320 else 0))
    (crc ^^^ byte.toUInt32)

/-- `blob_crc32`. -/
def blobCrc32 (bytes : List UInt8) : UInt32 :=
  ~~~ bytes.foldl crcByte 0xffffffff

/-! ## Encoding -/

/-- A stored flag. -/
def flagByte (flag : Bool) : UInt8 := if flag then 1 else 0

/-- The 80 bytes of one binding. -/
def encodeBinding (binding : Binding) : Bytes 80 :=
  ⟨[flagByte binding.present, flagByte binding.packagePresent, binding.slot, 0] ++
    binding.firmwareSha256.toList ++ binding.packageSha256.toList ++
    (storeU32 binding.packageSizeBytes).toList ++ (storeU32 binding.guestAbiVersion).toList ++
    (storeU32 binding.dataSchemaVersion).toList, by simp⟩

/-- The 112 bytes of the phase and the operation. -/
def encodeOperation (phase : Phase) (operation : Operation) : Bytes 112 :=
  ⟨[phase.code, operation.slot, 0, 0] ++ operation.operationId.toList ++
    operation.targetFirmwareSha256.toList ++ operation.packageSha256.toList ++
    (storeU32 operation.packageSizeBytes).toList ++ (storeU32 operation.guestAbiVersion).toList ++
    (storeU32 operation.dataSchemaVersion).toList ++ operation.trialBootId.toList, by simp⟩

/-- The magic at the start of every record. -/
def magic : Bytes 4 := ⟨ascii "ECS1", by decide⟩

/-- Everything the CRC covers. -/
def encodeBody (state : State) : Bytes 284 :=
  ⟨magic.toList ++ (storeU32 1).toList ++ (storeU32 state.sequence).toList ++
    (encodeBinding (state.bindings 0)).toList ++ (encodeBinding (state.bindings 1)).toList ++
    (encodeOperation state.phase state.operation).toList, by simp⟩

/-- `encode_state`. -/
def encodeState (state : State) : Blob :=
  ⟨(encodeBody state).toList ++ (storeU32 (blobCrc32 (encodeBody state).toList)).toList, by simp⟩

/-! ## Decoding -/

/-- The body of the binding loop of `decode_state`. -/
def decodeBinding (source : Bytes 80) : Option Binding :=
  let bytes := source.toList
  if byteAt bytes 0 > 1 || byteAt bytes 1 > 1 || byteAt bytes 3 != 0 then
    none
  else
    some
      { present := byteAt bytes 0 != 0
        packagePresent := byteAt bytes 1 != 0
        slot := byteAt bytes 2
        firmwareSha256 := bytesAt bytes 4 32
        packageSha256 := bytesAt bytes 36 32
        packageSizeBytes := loadU32 (bytesAt bytes 68 4)
        guestAbiVersion := loadU32 (bytesAt bytes 72 4)
        dataSchemaVersion := loadU32 (bytesAt bytes 76 4) }

/-- The phase and operation part of `decode_state`. -/
def decodeOperation (source : Bytes 112) : Option (Phase × Operation) :=
  let bytes := source.toList
  if byteAt bytes 2 != 0 || byteAt bytes 3 != 0 then
    none
  else
    (Phase.ofCode (byteAt bytes 0)).map fun phase =>
      (phase,
        { operationId := bytesAt bytes 4 16
          targetFirmwareSha256 := bytesAt bytes 20 32
          packageSha256 := bytesAt bytes 52 32
          slot := byteAt bytes 1
          packageSizeBytes := loadU32 (bytesAt bytes 84 4)
          guestAbiVersion := loadU32 (bytesAt bytes 88 4)
          dataSchemaVersion := loadU32 (bytesAt bytes 92 4)
          trialBootId := bytesAt bytes 96 16 })

/-- `decode_state`. -/
def decodeState (blob : Blob) (geometry : Geometry) : Option State :=
  let bytes := blob.toList
  if bytesAt bytes 0 4 ≠ magic || loadU32 (bytesAt bytes 4 4) != 1 ||
      loadU32 (bytesAt bytes 284 4) != blobCrc32 (bytesAt bytes 0 284).toList then
    none
  else do
    let first ← decodeBinding (bytesAt bytes 12 80)
    let second ← decodeBinding (bytesAt bytes 92 80)
    let (phase, operation) ← decodeOperation (bytesAt bytes 172 112)
    let state : State :=
      { sequence := loadU32 (bytesAt bytes 8 4)
        bindings := fun index => if index = 0 then first else second
        phase := phase
        operation := operation }
    if stateValid state geometry then some state else none

/-! ## Decoding what was encoded -/

private theorem flagByte_ne_zero (flag : Bool) : (flagByte flag != 0) = flag := by
  cases flag <;> rfl

private theorem flagByte_not_gt (flag : Bool) : ¬ flagByte flag > 1 := by
  cases flag <;> decide

@[simp]
theorem decodeBinding_encodeBinding (binding : Binding) :
    decodeBinding (encodeBinding binding) = some binding := by
  have h0 : byteAt (encodeBinding binding).toList 0 = flagByte binding.present := rfl
  have h1 : byteAt (encodeBinding binding).toList 1 = flagByte binding.packagePresent := rfl
  have h2 : byteAt (encodeBinding binding).toList 2 = binding.slot := rfl
  have h3 : byteAt (encodeBinding binding).toList 3 = 0 := rfl
  simp only [decodeBinding, h0, h1, h2, h3, flagByte_ne_zero, flagByte_not_gt]
  simp (disch := simp) [encodeBinding, bytesAt_append_left, bytesAt_append_right]

@[simp]
theorem decodeOperation_encodeOperation (phase : Phase) (operation : Operation) :
    decodeOperation (encodeOperation phase operation) = some (phase, operation) := by
  have h0 : byteAt (encodeOperation phase operation).toList 0 = phase.code := rfl
  have h1 : byteAt (encodeOperation phase operation).toList 1 = operation.slot := rfl
  have h2 : byteAt (encodeOperation phase operation).toList 2 = 0 := rfl
  have h3 : byteAt (encodeOperation phase operation).toList 3 = 0 := rfl
  simp only [decodeOperation, h0, h1, h2, h3]
  simp (disch := simp) [encodeOperation, bytesAt_append_left, bytesAt_append_right]

/-- A field below the CRC is a field of the body. -/
theorem bytesAt_encodeState (state : State) {offset n : Nat} (hbound : offset + n ≤ 284) :
    bytesAt (encodeState state).toList offset n = bytesAt (encodeBody state).toList offset n := by
  rw [encodeState, Bytes.toList_mk, bytesAt_append_left (by simpa using hbound)]

/-! ## Encoding what was decoded -/

private theorem flagByte_of_le_one {byte : UInt8} (hbyte : ¬ byte > 1) :
    flagByte (byte != 0) = byte := by
  have hle : byte.toNat ≤ 1 := UInt8.not_lt.mp hbyte
  obtain hzero | hone : byte.toNat = 0 ∨ byte.toNat = 1 := by omega
  · rw [show byte = 0 from UInt8.toNat_inj.mp hzero]
    rfl
  · rw [show byte = 1 from UInt8.toNat_inj.mp hone]
    rfl

/-- The first four bytes of a record part, one by one. -/
private theorem bytesAt_four {source : List UInt8} (hbound : 4 ≤ source.length) :
    (bytesAt source 0 4).toList =
      [byteAt source 0, byteAt source 1, byteAt source 2, byteAt source 3] := by
  match source, hbound with
  | b0 :: b1 :: b2 :: b3 :: rest, _ => rfl

theorem encodeBinding_of_decodeBinding {source : Bytes 80} {binding : Binding}
    (hdecode : decodeBinding source = some binding) : encodeBinding binding = source := by
  simp only [decodeBinding] at hdecode
  split at hdecode
  · cases hdecode
  · next hflags =>
    simp only [Bool.or_eq_true, decide_eq_true_eq, bne_iff_ne, not_or, not_not] at hflags
    obtain ⟨⟨hpresent, hpackage⟩, hreserved⟩ := hflags
    cases hdecode
    have hlength : source.toList.length = 80 := source.2
    have hhead : [flagByte (byteAt source.toList 0 != 0), flagByte (byteAt source.toList 1 != 0),
        byteAt source.toList 2, 0] = (bytesAt source.toList 0 4).toList := by
      rw [bytesAt_four (by omega), flagByte_of_le_one hpresent, flagByte_of_le_one hpackage,
        hreserved]
    apply Bytes.ext
    simp only [encodeBinding, Bytes.toList_mk, storeU32_loadU32, hhead]
    simp (disch := simp [hlength]) only [bytesAt_append_bytesAt, Nat.reduceAdd]
    rw [bytesAt_toList]

theorem encodeOperation_of_decodeOperation {source : Bytes 112} {phase : Phase}
    {operation : Operation} (hdecode : decodeOperation source = some (phase, operation)) :
    encodeOperation phase operation = source := by
  simp only [decodeOperation] at hdecode
  split at hdecode
  · cases hdecode
  · next hreserved =>
    simp only [Bool.or_eq_true, bne_iff_ne, not_or, not_not] at hreserved
    obtain ⟨found, hphase, hfields⟩ := Option.map_eq_some_iff.mp hdecode
    cases hfields
    have hlength : source.toList.length = 112 := source.2
    have hhead : [byteAt source.toList 0, byteAt source.toList 1, 0, 0] =
        (bytesAt source.toList 0 4).toList := by
      rw [bytesAt_four (by omega), hreserved.1, hreserved.2]
    apply Bytes.ext
    simp only [encodeOperation, Bytes.toList_mk, storeU32_loadU32, Phase.code_of_ofCode hphase,
      hhead]
    simp (disch := simp [hlength]) only [bytesAt_append_bytesAt, Nat.reduceAdd]
    rw [bytesAt_toList]

/-- What `decodeState` checks and what it returns. -/
theorem decodeState_eq_some_iff {blob : Blob} {geometry : Geometry} {state : State} :
    decodeState blob geometry = some state ↔
      bytesAt blob.toList 0 4 = magic ∧ loadU32 (bytesAt blob.toList 4 4) = 1 ∧
        loadU32 (bytesAt blob.toList 284 4) = blobCrc32 (bytesAt blob.toList 0 284).toList ∧
        loadU32 (bytesAt blob.toList 8 4) = state.sequence ∧
        decodeBinding (bytesAt blob.toList 12 80) = some (state.bindings 0) ∧
        decodeBinding (bytesAt blob.toList 92 80) = some (state.bindings 1) ∧
        decodeOperation (bytesAt blob.toList 172 112) = some (state.phase, state.operation) ∧
        stateValid state geometry = true := by
  have hbindings : (fun index : Fin bindingCount =>
      if index = 0 then state.bindings 0 else state.bindings 1) = state.bindings :=
    funext (Fin.forall_fin_two.mpr ⟨rfl, rfl⟩)
  simp only [decodeState, ne_eq, decide_not, Bool.or_eq_true, Bool.not_eq_true',
    decide_eq_false_iff_not, bne_iff_ne, Option.ite_none_left_eq_some, not_or, not_not,
    Option.bind_eq_bind, Option.bind_eq_some_iff, Option.ite_none_right_eq_some,
    Option.some.injEq]
  constructor
  · rintro ⟨⟨⟨hmagic, hversion⟩, hcrc⟩, first, hfirst, second, hsecond, ⟨phase, operation⟩,
      hoperation, hvalid, rfl⟩
    exact ⟨hmagic, hversion, hcrc, rfl, hfirst, hsecond, hoperation, hvalid⟩
  · rintro ⟨hmagic, hversion, hcrc, hsequence, hfirst, hsecond, hoperation, hvalid⟩
    refine ⟨⟨⟨hmagic, hversion⟩, hcrc⟩, _, hfirst, _, hsecond, _, hoperation, ?_⟩
    simp only [hsequence, hbindings]
    exact ⟨hvalid, trivial⟩

/-- A valid state is read back from its encoding. -/
theorem decodeState_encodeState {state : State} {geometry : Geometry}
    (hvalid : stateValid state geometry = true) :
    decodeState (encodeState state) geometry = some state := by
  have hcrc : bytesAt (encodeState state).toList 284 4 =
      storeU32 (blobCrc32 (encodeBody state).toList) := by
    simp (disch := simp) [encodeState, bytesAt_append_right]
  have hmagic : bytesAt (encodeBody state).toList 0 4 = magic := by
    simp (disch := simp) [encodeBody, bytesAt_append_left]
  have hversion : bytesAt (encodeBody state).toList 4 4 = storeU32 1 := by
    simp (disch := simp) [encodeBody, bytesAt_append_left, bytesAt_append_right]
  have hsequence : bytesAt (encodeBody state).toList 8 4 = storeU32 state.sequence := by
    simp (disch := simp) [encodeBody, bytesAt_append_left, bytesAt_append_right]
  have hfirst : bytesAt (encodeBody state).toList 12 80 = encodeBinding (state.bindings 0) := by
    simp (disch := simp) [encodeBody, bytesAt_append_left, bytesAt_append_right]
  have hsecond : bytesAt (encodeBody state).toList 92 80 = encodeBinding (state.bindings 1) := by
    simp (disch := simp) [encodeBody, bytesAt_append_left, bytesAt_append_right]
  have hoperation : bytesAt (encodeBody state).toList 172 112 =
      encodeOperation state.phase state.operation := by
    simp (disch := simp) [encodeBody, bytesAt_append_right]
  rw [decodeState_eq_some_iff, hcrc, bytesAt_encodeState state (by omega),
    bytesAt_encodeState state (by omega), bytesAt_encodeState state (by omega),
    bytesAt_encodeState state (by omega), bytesAt_encodeState state (by omega),
    bytesAt_encodeState state (by omega), bytesAt_encodeState state (by omega),
    hmagic, hversion, hsequence, hfirst, hsecond, hoperation, bytesAt_toList]
  simp [hvalid]

/-- Decoding yields valid states only. -/
theorem stateValid_of_decodeState {blob : Blob} {geometry : Geometry} {state : State}
    (hdecode : decodeState blob geometry = some state) : stateValid state geometry = true :=
  (decodeState_eq_some_iff.mp hdecode).2.2.2.2.2.2.2

/-- An accepted blob is the encoding of the state it decodes to, so no bit of it
is ignored. -/
theorem encodeState_of_decodeState {blob : Blob} {geometry : Geometry} {state : State}
    (hdecode : decodeState blob geometry = some state) : encodeState state = blob := by
  obtain ⟨hmagic, hversion, hcrc, hsequence, hfirst, hsecond, hoperation, -⟩ :=
    decodeState_eq_some_iff.mp hdecode
  have hlength : blob.toList.length = 288 := blob.2
  have hbody : (encodeBody state).toList = (bytesAt blob.toList 0 284).toList := by
    rw [encodeBody, Bytes.toList_mk, encodeBinding_of_decodeBinding hfirst,
      encodeBinding_of_decodeBinding hsecond, encodeOperation_of_decodeOperation hoperation,
      ← hmagic, ← hversion, ← hsequence, storeU32_loadU32, storeU32_loadU32]
    simp (disch := simp [hlength]) only [bytesAt_append_bytesAt, Nat.reduceAdd]
  apply Bytes.ext
  rw [encodeState, Bytes.toList_mk, hbody, ← hcrc, storeU32_loadU32]
  simp (disch := simp [hlength]) only [bytesAt_append_bytesAt, Nat.reduceAdd]
  rw [bytesAt_toList]

end Slots
