/-
# Headers of members

The header that the archive library writes for a member is the one the device builds,
and it passes every field check of `unpack`. A slice of a concatenation is a slice of
the part it lies in, so each field is found by the lengths of the fields before it.
-/

import EspContainer.Tools.Archive

namespace Tools

open Binary Package

/-! ## Slices -/

@[simp]
theorem length_slice (bytes : List UInt8) (start stop : Nat) :
    (slice bytes start stop).length = min (stop - start) (bytes.length - start) := by
  rw [slice, List.length_take, List.length_drop]

/-- A slice of the front part. -/
theorem slice_append_left {before after : List UInt8} {start stop : Nat}
    (hstop : stop ≤ before.length) : slice (before ++ after) start stop = slice before start stop := by
  rw [slice, slice, List.drop_append]
  rw [List.take_append_of_le_length]
  rw [List.length_drop]
  omega

/-- A slice behind the front part. -/
theorem slice_append_right {before after : List UInt8} {start stop : Nat}
    (hstart : before.length ≤ start) :
    slice (before ++ after) start stop =
      slice after (start - before.length) (stop - before.length) := by
  rw [slice, slice, List.drop_append, List.drop_eq_nil_of_le hstart, List.nil_append]
  congr 1
  omega

/-- The slice of everything. -/
theorem slice_all {bytes : List UInt8} {stop : Nat} (hstop : bytes.length ≤ stop) :
    slice bytes 0 stop = bytes := by
  rw [slice, List.drop_zero, Nat.sub_zero, List.take_of_length_le hstop]

/-- A slice of equal bytes. -/
theorem slice_replicate {count start stop : Nat} (byte : UInt8) (hstop : stop ≤ count) :
    slice (List.replicate count byte) start stop = List.replicate (stop - start) byte := by
  rw [slice, List.drop_replicate, List.take_replicate]
  congr 1
  omega

/-! ## Fields -/

/-- A header is these fields, one after the other. -/
structure HeaderFields (header name mode uid gid size mtime checksum type link magic version
    rest : List UInt8) : Prop where
  eq : header = name ++ (mode ++ (uid ++ (gid ++ (size ++ (mtime ++ (checksum ++ (type ++ (link ++
    (magic ++ (version ++ rest))))))))))
  name : name.length = 100
  mode : mode.length = 8
  uid : uid.length = 8
  gid : gid.length = 8
  size : size.length = 12
  mtime : mtime.length = 12
  checksum : checksum.length = 8
  type : type.length = 1
  link : link.length = 100
  magic : magic.length = 6
  version : version.length = 2

variable {header name mode uid gid size mtime checksum type link magic version rest : List UInt8}

/-- Each field is found at its place. -/
theorem HeaderFields.slices (hfields : HeaderFields header name mode uid gid size mtime checksum type
    link magic version rest) :
    slice header 0 100 = name ∧ slice header 100 108 = mode ∧ slice header 108 116 = uid ∧
      slice header 116 124 = gid ∧ slice header 124 136 = size ∧ slice header 136 148 = mtime ∧
      slice header 148 156 = checksum ∧ slice header 156 157 = type ∧
      slice header 157 257 = link ∧ slice header 257 263 = magic ∧
      slice header 263 265 = version ∧ slice header 265 329 = slice rest 0 64 ∧
      slice header 329 337 = slice rest 64 72 ∧ slice header 337 345 = slice rest 72 80 ∧
      slice header 345 500 = slice rest 80 235 := by
  obtain ⟨rfl, hname, hmode, huid, hgid, hsize, hmtime, hchecksum, htype, hlink, hmagic, hversion⟩ :=
    hfields
  refine ⟨?_, ?_, ?_, ?_, ?_, ?_, ?_, ?_, ?_, ?_, ?_, ?_, ?_, ?_, ?_⟩
  all_goals
    simp (disch := omega) only [slice_append_right, slice_append_left, slice_all, hname, hmode, huid,
      hgid, hsize, hmtime, hchecksum, htype, hlink, hmagic, hversion, Nat.reduceSub]

/-- The fields around the checksum. -/
theorem HeaderFields.around (hfields : HeaderFields header name mode uid gid size mtime checksum type
    link magic version rest) :
    header.take 148 = name ++ (mode ++ (uid ++ (gid ++ (size ++ mtime)))) ∧
      header.drop 156 = type ++ (link ++ (magic ++ (version ++ rest))) := by
  obtain ⟨rfl, hname, hmode, huid, hgid, hsize, hmtime, hchecksum, htype, hlink, hmagic, hversion⟩ :=
    hfields
  have hbefore : (name ++ (mode ++ (uid ++ (gid ++ (size ++ mtime))))).length = 148 := by
    simp only [List.length_append]
    omega
  have hthrough : (name ++ (mode ++ (uid ++ (gid ++ (size ++ (mtime ++ checksum)))))).length = 156 := by
    simp only [List.length_append]
    omega
  constructor
  · have hsplit := @List.take_left' _ _ (checksum ++ (type ++ (link ++ (magic ++
      (version ++ rest))))) _ hbefore
    simpa only [List.append_assoc] using hsplit
  · have hsplit := @List.drop_left' _ _ (type ++ (link ++ (magic ++ (version ++ rest)))) _
      hthrough
    simpa only [List.append_assoc] using hsplit

/-! ## Octal fields -/

theorem isOctal_digit {digit : Nat} (hdigit : digit < 8) :
    isOctal (UInt8.ofNat (48 + digit)) = true ∧ (UInt8.ofNat (48 + digit)).toNat = 48 + digit := by
  have hbyte : (UInt8.ofNat (48 + digit)).toNat = 48 + digit := by
    rw [UInt8.toNat_ofNat']
    omega
  refine ⟨?_, hbyte⟩
  simp only [isOctal, Bool.and_eq_true, decide_eq_true_eq, UInt8.le_iff_toNat_le, hbyte]
  constructor
  · exact Nat.le_add_right 48 digit
  · change 48 + digit ≤ 55
    omega

theorem all_isOctal (digits number : Nat) : (octalDigits digits number).all isOctal = true := by
  induction digits generalizing number with
  | zero => rfl
  | succ digits ih =>
      rw [octalDigits, List.all_append, ih]
      simpa using (isOctal_digit (Nat.mod_lt number (by decide))).1

/-- The digits of a number that fits have its value. -/
theorem octalValue_octalDigits {digits number : Nat} (hfits : number < 8 ^ digits) :
    octalValue (octalDigits digits number) = number := by
  induction digits generalizing number with
  | zero =>
      obtain rfl : number = 0 := by simpa using hfits
      rfl
  | succ digits ih =>
      have hhigh : octalValue (octalDigits digits (number / 8)) = number / 8 := by
        apply ih
        rw [Nat.pow_succ] at hfits
        omega
      have hlow := (isOctal_digit (Nat.mod_lt number (show 0 < 8 by decide))).2
      rw [octalValue] at hhigh ⊢
      rw [octalDigits, List.foldl_append, hhigh, List.foldl_cons, List.foldl_nil, hlow]
      omega

/-- No digit is zero. -/
theorem octal_ne_zero {byte : UInt8} (hoctal : isOctal byte = true) : (byte != 0) = true := by
  rw [bne_iff_ne]
  rintro rfl
  cases hoctal

/-- A field of digits, a zero and blanks. -/
theorem octal_eq_ok {digits : List UInt8} (hdigits : digits.all isOctal = true) {blanks : List UInt8}
    (hblanks : (blanks.all fun byte => byte == 0 || byte == 32) = true) :
    octal (digits ++ 0 :: blanks) = .ok (octalValue digits) := by
  have hnonzero : ∀ byte ∈ digits, (byte != 0) = true := fun byte hbyte =>
    octal_ne_zero (List.all_eq_true.mp hdigits byte hbyte)
  have htake : (digits ++ 0 :: blanks).takeWhile (· != 0) = digits := by
    rw [List.takeWhile_append_of_pos hnonzero, List.takeWhile_cons]
    simp
  have hdrop : (digits ++ 0 :: blanks).dropWhile (· != 0) = 0 :: blanks := by
    rw [List.dropWhile_append_of_pos hnonzero, List.dropWhile_cons]
    simp
  have hfield : octalField (digits ++ 0 :: blanks) = true := by
    simp only [octalField, htake, hdrop, hdigits, List.all_cons, hblanks]
    rfl
  simp [octal, hfield, htake, refuseIf]

/-- A field of the digits of a number. -/
theorem octal_octalDigits {digits number : Nat} (hfits : number < 8 ^ digits) {blanks : List UInt8}
    (hblanks : (blanks.all fun byte => byte == 0 || byte == 32) = true) :
    octal (octalDigits digits number ++ 0 :: blanks) = .ok number := by
  rw [octal_eq_ok (all_isOctal digits number) hblanks, octalValue_octalDigits hfits]

/-! ## The header of a member -/

/-- The sum of the two parts around the checksum, with the checksum blank. -/
theorem byteSum_append (first second : List UInt8) :
    byteSum (first ++ second) = byteSum first + byteSum second := by
  simp [byteSum]

/-- The fields of the header of a member. -/
theorem memberHeader_fields {name : List UInt8} (hname : name.length < 100) (sizeBytes : Nat) :
    HeaderFields (memberHeader name sizeBytes) (name ++ List.replicate (100 - name.length) 0)
      (ascii "0000644" ++ [0]) (ascii "0000000" ++ [0]) (ascii "0000000" ++ [0])
      (octalDigits 11 sizeBytes ++ [0]) (ascii "00000000000" ++ [0])
      (octalDigits 6 (tarChecksum name (octalDigits 11 sizeBytes ++ [0])) ++ [0, 32])
      (ascii "0") (List.replicate 100 0) (ascii "ustar" ++ [0]) (ascii "00")
      (List.replicate 247 0) where
  eq := by simp [memberHeader, tarFields]
  name := by
    rw [List.length_append, List.length_replicate]
    omega
  mode := by decide
  uid := by decide
  gid := by decide
  size := by simp
  mtime := by decide
  checksum := by simp
  type := by decide
  link := List.length_replicate
  magic := by decide
  version := by decide

/-- The header the archive library writes is the one the device builds. -/
theorem tobuf_memberInfo {name : List UInt8} (hname : name.length < 100) (size : Nat) :
    (memberInfo name size).tobuf = if size < 8 ^ 11 then some (memberHeader name size) else none := by
  have hmode : itn (420 % 0o10000) 8 = some (ascii "0000644" ++ [0]) := by decide
  have howner : itn 0 8 = some (ascii "0000000" ++ [0]) := by decide
  have htime : itn 0 12 = some (ascii "00000000000" ++ [0]) := by decide
  have hlink : stn [] 100 = List.replicate 100 0 := rfl
  have hrest : stn [] 32 ++ stn [] 32 ++ stn [] 8 ++ stn [] 8 ++ stn [] 155 ++
      List.replicate 12 0 = List.replicate 247 0 := by
    simp only [stn, List.take_nil, List.nil_append, List.length_nil, Nat.sub_zero,
      List.replicate_append_replicate]
  have htext : stn name 100 = name ++ List.replicate (100 - name.length) 0 := by
    rw [stn, List.take_of_length_le hname.le]
  by_cases hsize : size < 8 ^ 11
  · have hitn : itn size 12 = some (octalDigits 11 size ++ [0]) := if_pos hsize
    have hfields := memberHeader_fields hname size
    -- With a blank checksum, both sums go over the same fields.
    have hsum : byteSum (stn name 100 ++ (ascii "0000644" ++ [0]) ++ (ascii "0000000" ++ [0]) ++
        (ascii "0000000" ++ [0]) ++ (octalDigits 11 size ++ [0]) ++ (ascii "00000000000" ++ [0]) ++
        List.replicate 8 32 ++ (ascii "0" ++ stn [] 100 ++ (ascii "ustar" ++ [0] ++ ascii "00") ++
        stn [] 32 ++ stn [] 32 ++ stn [] 8 ++ stn [] 8 ++ stn [] 155 ++ List.replicate 12 0)) =
        tarChecksum name (octalDigits 11 size ++ [0]) := by
      rw [htext, hlink, byteSum, tarChecksum, tarFields, ← hrest]
      simp only [List.append_assoc]
    rw [if_pos hsize]
    simp only [TarInfo.tobuf, memberInfo, hmode, howner, htime, hitn, Option.bind_eq_bind,
      Option.bind_some, hsum, if_pos hname.le]
    rw [htext, hlink, hfields.eq, ← hrest]
    simp only [List.append_assoc, List.cons_append, List.nil_append]
  · have hitn : itn size 12 = none := if_neg hsize
    rw [if_neg hsize]
    simp only [TarInfo.tobuf, memberInfo, hmode, howner, hitn, Option.bind_eq_bind, Option.bind_some,
      Option.bind_none]

/-- A header that the archive library writes passes every check of its fields. -/
theorem checkHeader_memberHeader {name : List UInt8} (hname : name.length < 100)
    (hnonzero : ∀ byte ∈ name, byte ≠ 0) {size : Nat} (hsize : size < 8 ^ 11) :
    checkHeader (memberHeader name size) name = .ok size := by
  have hfields := memberHeader_fields hname size
  obtain ⟨hnames, hmode, huid, hgid, hsizes, hmtime, hchecksum, htype, hlink, hmagic, hversion,
    howners, hmajor, hminor, hfront⟩ := hfields.slices
  obtain ⟨hbefore, hafter⟩ := hfields.around
  have htext : (name ++ List.replicate (100 - name.length) 0).takeWhile (· != 0) = name := by
    rw [List.takeWhile_append_of_pos fun byte hbyte => bne_iff_ne.mpr (hnonzero byte hbyte)]
    cases 100 - name.length with
    | zero => simp
    | succ count => simp [List.replicate_succ]
  have hsum : byteSum ((memberHeader name size).take 148) + 8 * 32 +
      byteSum ((memberHeader name size).drop 156) =
        tarChecksum name (octalDigits 11 size ++ [0]) := by
    have hblank : byteSum (List.replicate 8 32) = 8 * 32 := by decide
    rw [hbefore, hafter, ← hblank, ← byteSum_append, ← byteSum_append, byteSum, tarChecksum, tarFields]
    simp only [List.append_assoc]
  have hmodes : octal (ascii "0000644" ++ [0]) = .ok 0o644 := by decide
  have hzero : octal (ascii "0000000" ++ [0]) = .ok 0 := by decide
  have htime : octal (ascii "00000000000" ++ [0]) = .ok 0 := by decide
  have hempty : octal (List.replicate 8 0) = .ok 0 := by decide
  have hsizes' : octal (octalDigits 11 size ++ [0]) = .ok size := octal_octalDigits hsize rfl
  have hchecksums : octal (octalDigits 6 (tarChecksum name (octalDigits 11 size ++ [0])) ++ [0, 32]) =
      .ok (tarChecksum name (octalDigits 11 size ++ [0])) :=
    octal_octalDigits (tarChecksum_lt hname (by simp)) rfl
  have hblanks : ∀ count, strip (List.replicate count 0) = [] := by
    intro count
    simp only [strip, List.dropWhile_replicate]
    rfl
  have hmetadata : anyOctal (memberHeader name size)
      [(100, 108, 0o644), (108, 116, 0), (116, 124, 0), (136, 148, 0)] = .ok false := by
    simp only [anyOctal, hmode, huid, hgid, hmtime, hmodes, hzero, htime]
    rfl
  have hdevices : anyOctal (memberHeader name size) [(329, 337, 0), (337, 345, 0)] = .ok false := by
    have hfirst : slice (memberHeader name size) 329 337 = List.replicate 8 0 :=
      hmajor.trans (slice_replicate 0 (by decide))
    have hsecond : slice (memberHeader name size) 337 345 = List.replicate 8 0 :=
      hminor.trans (slice_replicate 0 (by decide))
    simp only [anyOctal, hfirst, hsecond, hempty]
    rfl
  have howner : strip (slice (memberHeader name size) 265 329) = [] := by
    rw [howners, slice_replicate 0 (by decide)]
    exact hblanks _
  have hstart : strip (slice (memberHeader name size) 345 500) = [] := by
    rw [hfront, slice_replicate 0 (by decide)]
    exact hblanks _
  simp only [checkHeader, hnames, hsizes, hchecksum, htype, hlink, hmagic, hversion, htext, hsum,
    hmetadata, hdevices, howner, hstart, hblanks, checked_bind_eq_ok, hsizes', hchecksums]
  simp

end Tools
