/-
# Corrupted records

The codec is a bijection between valid states and accepted records, and its checksum
is a reflected CRC over all bytes before it, stored low byte first. So a record and its
checksum are one stream of bits fed to a shift register, and an error pattern is
accepted only if the register forgets it. A burst of at most 32 bits it cannot forget.
-/

import EspContainer.Binary.ShiftRegister
import EspContainer.Slots.Machine

namespace Slots

open Binary Interaction

/-! ## The checksum as a shift register -/

/-- The polynomial of `blob_crc32`. -/
def crcPoly : BitVec 32 := 0xedb88320#32

/-- The bits of a byte, lowest first. -/
def bitsOfByte (byte : UInt8) : List Bool := (List.range 8).map byte.toBitVec.getLsbD

/-- The bits of some bytes, byte by byte. -/
def bitsOf (bytes : List UInt8) : List Bool := bytes.flatMap bitsOfByte

theorem length_bitsOfByte (byte : UInt8) : (bitsOfByte byte).length = 8 := by
  simp [bitsOfByte]

theorem bitsOf_append (first second : List UInt8) :
    bitsOf (first ++ second) = bitsOf first ++ bitsOf second := List.flatMap_append

/-- The word of the bits of a byte. -/
theorem wordOfBits_bitsOfByte (byte : UInt8) :
    (wordOfBits (bitsOfByte byte) : BitVec 32) = byte.toUInt32.toBitVec := by
  apply BitVec.eq_of_getLsbD_eq
  intro index hindex
  rw [getLsbD_wordOfBits _ hindex, List.getD_eq_getElem?_getD, bitsOfByte, List.getElem?_map]
  by_cases hbyte : index < 8
  · rw [List.getElem?_range hbyte]
    simp [hindex]
  · rw [List.getElem?_eq_none (by simpa using hbyte)]
    simp [BitVec.getLsbD_of_ge byte.toBitVec index (not_lt.mp hbyte)]

/-- One step of `blob_crc32`. -/
theorem toBitVec_crcStep (crc : UInt32) :
    ((crc >>> 1) ^^^ (if crc &&& 1 != 0 then 0xedb88320 else 0)).toBitVec =
      shiftBit crcPoly crc.toBitVec := by
  have hlow : (crc &&& 1 != 0) = crc.toBitVec.getLsbD 0 := by
    have hone : (crc &&& 1).toNat = crc.toNat % 2 := by
      rw [UInt32.toNat_and, UInt32.toNat_one, Nat.and_one_is_mod]
    rw [Bool.eq_iff_iff, bne_iff_ne, ne_eq, ← UInt32.toNat_inj, hone, BitVec.getLsbD,
      UInt32.toNat_toBitVec, Nat.testBit_zero, decide_eq_true_eq]
    change ¬ crc.toNat % 2 = 0 ↔ _
    omega
  rw [hlow, shiftBit]
  cases crc.toBitVec.getLsbD 0 with
  | false => simp
  | true => simp [crcPoly]

/-- `blob_crc32` feeds the bits of a byte. -/
theorem toBitVec_crcByte (crc : UInt32) (byte : UInt8) :
    (crcByte crc byte).toBitVec = feedBits crcPoly crc.toBitVec (bitsOfByte byte) := by
  have hshifts : ∀ (count : Nat) (register : UInt32),
      ((fun crc : UInt32 => (crc >>> 1) ^^^ (if crc &&& 1 != 0 then 0xedb88320 else 0))^[count]
        register).toBitVec = shiftBits crcPoly count register.toBitVec := by
    intro count register
    induction count generalizing register with
    | zero => rfl
    | succ count ih => rw [Function.iterate_succ_apply, ih, toBitVec_crcStep, shiftBits_succ]
  rw [feedBits_eq_shiftBits crcPoly _ (by simp [length_bitsOfByte]), wordOfBits_bitsOfByte,
    length_bitsOfByte, crcByte, List.foldl_const, hshifts]
  rfl

/-- And those of all bytes. -/
theorem toBitVec_foldl_crcByte (crc : UInt32) (bytes : List UInt8) :
    (bytes.foldl crcByte crc).toBitVec = feedBits crcPoly crc.toBitVec (bitsOf bytes) := by
  induction bytes generalizing crc with
  | nil => rfl
  | cons byte bytes ih =>
      rw [List.foldl_cons, ih, toBitVec_crcByte, ← feedBits_append]
      rfl

/-! ## Error patterns -/

/-- Some bytes with an error pattern added. -/
def xorBytes {n : Nat} (bytes pattern : Bytes n) : Bytes n :=
  ⟨List.zipWith (· ^^^ ·) bytes.toList pattern.toList, by simp⟩

@[simp]
theorem toList_xorBytes {n : Nat} (bytes pattern : Bytes n) :
    (xorBytes bytes pattern).toList = List.zipWith (· ^^^ ·) bytes.toList pattern.toList := rfl

/-- A field of the sum is the sum of the fields. -/
theorem bytesAt_xorBytes {n : Nat} (bytes pattern : Bytes n) {offset count : Nat}
    (hbound : offset + count ≤ n) :
    bytesAt (xorBytes bytes pattern).toList offset count =
      xorBytes (bytesAt bytes.toList offset count) (bytesAt pattern.toList offset count) := by
  apply Bytes.ext
  have hboth : offset + count ≤ (xorBytes bytes pattern).toList.length := by
    rwa [Bytes.length_toList]
  rw [toList_bytesAt_of_le hboth, toList_xorBytes, toList_xorBytes, List.drop_zipWith,
    List.take_zipWith, toList_bytesAt_of_le (by simpa using hbound),
    toList_bytesAt_of_le (by simpa using hbound)]

theorem storeU32_xor (first second : UInt32) :
    storeU32 (first ^^^ second) = xorBytes (storeU32 first) (storeU32 second) := by
  apply Bytes.ext
  simp only [storeU32, Bytes.toList_mk, UInt32.shiftRight_xor, UInt32.toUInt8_xor]
  rfl

theorem loadU32_xorBytes (first second : Bytes 4) :
    loadU32 (xorBytes first second) = loadU32 first ^^^ loadU32 second := by
  rw [← storeU32_loadU32 first, ← storeU32_loadU32 second, ← storeU32_xor]
  simp only [loadU32_storeU32]

theorem crcByte_xor (first second : UInt32) (byte error : UInt8) :
    crcByte (first ^^^ second) (byte ^^^ error) = crcByte first byte ^^^ crcByte second error := by
  apply UInt32.toBitVec_inj.mp
  have hadded : (first ^^^ second).toBitVec ^^^ (byte ^^^ error).toUInt32.toBitVec =
      (first.toBitVec ^^^ byte.toUInt32.toBitVec) ^^^ (second.toBitVec ^^^ error.toUInt32.toBitVec) := by
    rw [UInt8.toUInt32_xor, UInt32.toBitVec_xor, UInt32.toBitVec_xor]
    ac_rfl
  rw [UInt32.toBitVec_xor, toBitVec_crcByte, toBitVec_crcByte, toBitVec_crcByte,
    feedBits_eq_shiftBits _ _ (by simp [length_bitsOfByte]),
    feedBits_eq_shiftBits _ _ (by simp [length_bitsOfByte]),
    feedBits_eq_shiftBits _ _ (by simp [length_bitsOfByte]), wordOfBits_bitsOfByte,
    wordOfBits_bitsOfByte, wordOfBits_bitsOfByte, length_bitsOfByte, length_bitsOfByte,
    length_bitsOfByte, hadded, shiftBits_xor]

/-- The checksum loop is linear. -/
theorem foldl_crcByte_xor (first second : UInt32) {bytes pattern : List UInt8}
    (hlength : bytes.length = pattern.length) :
    (List.zipWith (· ^^^ ·) bytes pattern).foldl crcByte (first ^^^ second) =
      bytes.foldl crcByte first ^^^ pattern.foldl crcByte second := by
  induction bytes generalizing first second pattern with
  | nil =>
      obtain rfl := List.eq_nil_of_length_eq_zero hlength.symm
      rfl
  | cons byte bytes ih =>
      cases pattern with
      | nil => cases hlength
      | cons error pattern =>
          rw [List.zipWith_cons_cons, List.foldl_cons, crcByte_xor, List.foldl_cons, List.foldl_cons]
          exact ih _ _ (Nat.succ.inj hlength)

/-- Complemented at both ends, it is linear up to a constant. -/
theorem blobCrc32_zipWith {bytes pattern : List UInt8} (hlength : bytes.length = pattern.length) :
    blobCrc32 (List.zipWith (· ^^^ ·) bytes pattern) =
      blobCrc32 bytes ^^^ pattern.foldl crcByte 0 := by
  have hlinear := foldl_crcByte_xor 0xffffffff 0 hlength
  rw [UInt32.xor_zero] at hlinear
  rw [blobCrc32, hlinear, blobCrc32, UInt32.not_xor]

/-! ## Detection -/

/-- Bit `index` of some bytes, counted byte by byte from the lowest bit of each. -/
def bitAt (bytes : List UInt8) (index : Nat) : Bool :=
  (byteAt bytes (index / 8)).toBitVec.getLsbD (index % 8)

theorem getElem?_bitsOf {bytes : List UInt8} {index : Nat} (hindex : index < 8 * bytes.length) :
    (bitsOf bytes)[index]? = some (bitAt bytes index) := by
  induction bytes generalizing index with
  | nil => simp at hindex
  | cons byte bytes ih =>
      have hsplit : bitsOf (byte :: bytes) = bitsOfByte byte ++ bitsOf bytes := List.flatMap_cons
      by_cases hfirst : index < 8
      · have hzero : index / 8 = 0 := Nat.div_eq_of_lt hfirst
        rw [hsplit, List.getElem?_append_left (by rwa [length_bitsOfByte]), bitsOfByte,
          List.getElem?_map, List.getElem?_range hfirst, bitAt, hzero, Nat.mod_eq_of_lt hfirst]
        rfl
      · obtain ⟨later, rfl⟩ : ∃ later, index = later + 8 := ⟨index - 8, by omega⟩
        rw [List.length_cons] at hindex
        rw [hsplit, List.getElem?_append_right (by rw [length_bitsOfByte]; omega), length_bitsOfByte,
          Nat.add_sub_cancel, ih (by omega), bitAt, bitAt, Nat.add_mod_right,
          Nat.add_div_right later (by decide)]
        rfl

theorem length_bitsOf (bytes : List UInt8) : (bitsOf bytes).length = 8 * bytes.length := by
  induction bytes with
  | nil => rfl
  | cons byte bytes ih =>
      have hsplit : bitsOf (byte :: bytes) = bitsOfByte byte ++ bitsOf bytes := List.flatMap_cons
      rw [hsplit, List.length_append, length_bitsOfByte, ih, List.length_cons]
      omega

/-- The bytes of a stored word, low byte first. -/
theorem byteAt_storeU32 (value : UInt32) {index : Nat} (hindex : index < 4) :
    byteAt (storeU32 value).toList index = (value >>> UInt32.ofNat (8 * index)).toUInt8 := by
  match index, hindex with
  | 0, _ => simp [storeU32, byteAt]
  | 1, _ => rfl
  | 2, _ => rfl
  | 3, _ => rfl

/-- The bits of a stored word are those of the word. -/
theorem wordOfBits_storeU32 (value : UInt32) :
    (wordOfBits (bitsOf (storeU32 value).toList) : BitVec 32) = value.toBitVec := by
  apply BitVec.eq_of_getLsbD_eq
  intro index hindex
  have hlength : (storeU32 value).toList.length = 4 := Bytes.length_toList _
  rw [getLsbD_wordOfBits _ hindex, List.getD_eq_getElem?_getD,
    getElem?_bitsOf (by rw [hlength]; omega), Option.getD_some, bitAt]
  have hamount : (UInt32.ofNat (8 * (index / 8))).toNat = 8 * (index / 8) := by
    rw [UInt32.toNat_ofNat']
    omega
  have hmod : index % 8 < 8 := Nat.mod_lt _ (by decide)
  rw [byteAt_storeU32 value (by omega), UInt32.toBitVec_toUInt8]
  simp only [BitVec.getLsbD_setWidth, hmod, decide_true, Bool.true_and]
  rw [UInt32.toBitVec_shiftRight, BitVec.ushiftRight_eq', BitVec.getLsbD_ushiftRight,
    BitVec.toNat_umod, UInt32.toNat_toBitVec, hamount]
  congr 1
  change 8 * (index / 8) % 32 + index % 8 = index
  omega

/-- A checksum fed its own stored word is cleared. -/
theorem feedBits_storeU32 (value : UInt32) :
    feedBits crcPoly value.toBitVec (bitsOf (storeU32 value).toList) = 0#32 := by
  have hlength : (bitsOf (storeU32 value).toList).length = 32 := by
    rw [length_bitsOf, Bytes.length_toList]
  rw [feedBits_eq_shiftBits _ _ hlength.le, wordOfBits_storeU32, BitVec.xor_self, shiftBits_zero]

/-- An error pattern that the register forgets nothing of is rejected. -/
theorem decodeState_xorBytes (state : State) (geometry : Geometry) {pattern : Blob}
    (hfelt : feedBits crcPoly 0#32 (bitsOf pattern.toList) ≠ 0#32) :
    decodeState (xorBytes (encodeState state) pattern) geometry = none := by
  cases hdecode : decodeState (xorBytes (encodeState state) pattern) geometry with
  | none => rfl
  | some other =>
      exfalso
      apply hfelt
      obtain ⟨-, -, hcrc, -⟩ := decodeState_eq_some_iff.mp hdecode
      have hstored : bytesAt (encodeState state).toList 284 4 =
          storeU32 (blobCrc32 (encodeBody state).toList) := by
        simp (disch := simp) [encodeState, bytesAt_append_right]
      rw [bytesAt_xorBytes _ _ (by decide), bytesAt_xorBytes _ _ (by decide), loadU32_xorBytes,
        hstored, loadU32_storeU32, bytesAt_encodeState state le_rfl, bytesAt_toList, toList_xorBytes,
        blobCrc32_zipWith (by simp)] at hcrc
      -- The error in the checksum is the checksum of the error.
      have herror := (UInt32.xor_right_inj _).mp hcrc
      have hsplit : pattern.toList =
          (bytesAt pattern.toList 0 284).toList ++ (bytesAt pattern.toList 284 4).toList := by
        rw [bytesAt_append_bytesAt rfl (by simp), bytesAt_toList]
      have hbody := toBitVec_foldl_crcByte 0 (bytesAt pattern.toList 0 284).toList
      rw [hsplit, bitsOf_append, feedBits_append]
      rw [← herror] at hbody
      change _ = feedBits crcPoly 0#32 _ at hbody
      rw [← hbody, ← storeU32_loadU32 (bytesAt pattern.toList 284 4), loadU32_storeU32]
      exact feedBits_storeU32 _

/-- Bytes that are not all zero have a bit set. -/
theorem mem_bitsOf {n : Nat} {bytes : Bytes n} (hbytes : bytes ≠ Bytes.zero n) :
    true ∈ bitsOf bytes.toList := by
  by_contra hbits
  apply hbytes
  apply Bytes.ext
  rw [Bytes.toList_zero]
  refine List.eq_replicate_iff.mpr ⟨Bytes.length_toList bytes, fun byte hbyte => ?_⟩
  apply UInt8.toBitVec_inj.mp
  apply BitVec.eq_of_getLsbD_eq
  intro index hindex
  cases hbit : byte.toBitVec.getLsbD index with
  | false => simp
  | true =>
      exact absurd (List.mem_flatMap.mpr
        ⟨byte, hbyte, List.mem_map.mpr ⟨index, List.mem_range.mpr hindex, hbit⟩⟩) hbits

/-- Record corruption is detected. A burst of at most 32 bits, anywhere in the record or its
checksum, makes it undecodable, so that loading it reports it invalid. -/
theorem burst_detected (geometry : Geometry) (state : State) (pattern : Blob)
    (hpattern : pattern ≠ Bytes.zero 288) (start : Nat)
    (hburst : ∀ index, bitAt pattern.toList index = true → start ≤ index ∧ index < start + 32) :
    decodeState (xorBytes (encodeState state) pattern) geometry = none ∧
      ∀ answer : (request : SlotsCall) → SlotsPort.Answer request,
        answer .readBlob = BlobAnswer.found (xorBytes (encodeState state) pattern) →
        Fallible.eval answer (loadLocked geometry) = .error .invalid := by
  have hundecodable : decodeState (xorBytes (encodeState state) pattern) geometry = none := by
    have hwithin : ∀ index, (bitsOf pattern.toList)[index]? = some true →
        start ≤ index ∧ index < start + 32 := by
      intro index hindex
      have hbound : index < 8 * pattern.toList.length := by
        rw [← length_bitsOf]
        exact (List.getElem?_eq_some_iff.mp hindex).1
      rw [getElem?_bitsOf hbound] at hindex
      exact hburst index (Option.some.inj hindex)
    exact decodeState_xorBytes state geometry
      (feedBits_burst (by decide) (mem_bitsOf hpattern) hwithin)
  refine ⟨hundecodable, fun answer hanswer => ?_⟩
  rw [loadLocked, ask, Fallible.eval_bind, Fallible.eval_attempt, Program.eval_call, hanswer]
  dsimp only [bind, Except.bind]
  rw [hundecodable]
  rfl

/-- An error in the last byte before the checksum and the first byte of it. -/
def sampleBurst : Blob := ⟨List.replicate 283 0 ++ [128, 1, 0, 0, 0], by
  rw [List.length_append, List.length_replicate]
  rfl⟩

/-- The sample record with a burst across the border of its checksum. -/
theorem burst_detected_sampleWriting :
    stateValid sampleWriting sampleGeometry = true ∧
      decodeState (xorBytes (encodeState sampleWriting) sampleBurst) sampleGeometry = none := by
  have hvalid : stateValid sampleWriting sampleGeometry = true := by decide +kernel
  have hzeros : (List.replicate 283 (0 : UInt8)).length = 283 := List.length_replicate
  have hback (index : Nat) : byteAt sampleBurst.toList (283 + index) =
      byteAt [128, 1, 0, 0, 0] index := by
    rw [sampleBurst, Bytes.toList_mk, byteAt, List.getD_eq_getElem?_getD,
      List.getElem?_append_right (by rw [hzeros]; exact Nat.le_add_right 283 index), hzeros,
      Nat.add_sub_cancel_left, byteAt, List.getD_eq_getElem?_getD]
  have hfront (index : Nat) (hindex : index < 283) : byteAt sampleBurst.toList index = 0 := by
    rw [sampleBurst, Bytes.toList_mk, byteAt, List.getD_eq_getElem?_getD,
      List.getElem?_append_left (by rwa [hzeros]), List.getElem?_replicate_of_lt hindex]
    rfl
  refine ⟨hvalid, (burst_detected sampleGeometry sampleWriting sampleBurst ?_ 2271 ?_).1⟩
  · intro hzero
    have hbyte := hback 0
    rw [hzero] at hbyte
    cases hbyte
  · intro index hindex
    rw [bitAt] at hindex
    by_cases hbefore : index / 8 < 283
    · rw [hfront _ hbefore] at hindex
      simp at hindex
    · obtain ⟨byte, hbyte⟩ : ∃ byte, index / 8 = 283 + byte := ⟨index / 8 - 283, by omega⟩
      have hmod : index % 8 < 8 := Nat.mod_lt _ (by decide)
      rw [hbyte, hback] at hindex
      rcases byte with _ | _ | _ | _ | byte
      · have hlast : ∀ bit < 8, (128 : UInt8).toBitVec.getLsbD bit = true → bit = 7 := by decide
        have hseven := hlast _ hmod hindex
        omega
      · omega
      · simp [byteAt] at hindex
      · simp [byteAt] at hindex
      · cases byte <;> simp [byteAt] at hindex

/-- The slot record codec is a bijection between the valid states and the accepted records. -/
theorem codec_bijection (geometry : Geometry) :
    (∀ state, stateValid state geometry = true →
      decodeState (encodeState state) geometry = some state) ∧
    (∀ blob state, decodeState blob geometry = some state → encodeState state = blob) ∧
    Set.BijOn encodeState {state | stateValid state geometry = true}
      {blob | ∃ state, decodeState blob geometry = some state} := by
  refine ⟨fun state => decodeState_encodeState, fun blob state => encodeState_of_decodeState,
    ?_, ?_, ?_⟩
  · intro state hvalid
    exact ⟨state, decodeState_encodeState hvalid⟩
  · intro first hfirst second hsecond hequal
    have hdecoded := decodeState_encodeState hfirst
    rw [hequal, decodeState_encodeState hsecond] at hdecoded
    exact (Option.some.inj hdecoded).symm
  · rintro blob ⟨state, hdecode⟩
    exact ⟨state, stateValid_of_decodeState hdecode, encodeState_of_decodeState hdecode⟩

/-- The state of a sample candidate survives the round trip. -/
theorem codec_bijection_sampleWriting :
    stateValid sampleWriting sampleGeometry = true ∧
      decodeState (encodeState sampleWriting) sampleGeometry = some sampleWriting := by
  have hvalid : stateValid sampleWriting sampleGeometry = true := by decide +kernel
  exact ⟨hvalid, (codec_bijection sampleGeometry).1 _ hvalid⟩

end Slots
