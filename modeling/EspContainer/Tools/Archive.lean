/-
# Packages on the host

The reader of `product_package.py`. It checks the fields of a header one by one, then
compares the header with the one the archive library writes for a member of that name
and size, and last it checks what follows the third member. The archive library is
modelled as far as the tool uses it: headers of regular files with short names.
-/

import EspContainer.Package.Layout

namespace Tools

open Binary Package

/-- A step that may raise `PackageError`, with its text. -/
abbrev Checked (α : Type) : Type := Except String α

/-- `raise PackageError(reason)` if a condition holds. -/
def refuseIf (condition : Bool) (reason : String) : Checked Unit :=
  if condition then throw reason else pure ()

@[simp]
theorem refuseIf_eq_ok (condition : Bool) (reason : String) (value : Unit) :
    refuseIf condition reason = .ok value ↔ condition = false := by
  cases condition with
  | false => simp [refuseIf, pure, Except.pure]
  | true => simp [refuseIf, throw, throwThe, MonadExceptOf.throw]

@[simp]
theorem checked_bind_eq_ok {α β : Type} (step : Checked α) (next : α → Checked β) (value : β) :
    (step >>= next) = .ok value ↔ ∃ result, step = .ok result ∧ next result = .ok value := by
  cases step with
  | error reason => simp [bind, Except.bind]
  | ok result => simp [bind, Except.bind]

@[simp]
theorem checked_pure_eq_ok {α : Type} (result value : α) :
    (pure result : Checked α) = .ok value ↔ result = value := by
  simp [pure, Except.pure]

/-- `bytes[start:stop]`. -/
def slice (bytes : List UInt8) (start stop : Nat) : List UInt8 :=
  (bytes.drop start).take (stop - start)

/-- `bytes.strip(b"\x00 ")`. -/
def strip (bytes : List UInt8) : List UInt8 :=
  let blank : UInt8 → Bool := fun byte => byte == 0 || byte == 32
  ((bytes.dropWhile blank).reverse.dropWhile blank).reverse

/-! ## The archive library -/

/-- `tarfile.TarInfo` of a regular file. -/
structure TarInfo where
  name : List UInt8
  size : Nat
  mode : Nat
  mtime : Nat
  uid : Nat
  gid : Nat
  uname : List UInt8
  gname : List UInt8

/-- `tarfile.stn`: a string field, cut off or filled up. -/
def stn (text : List UInt8) (length : Nat) : List UInt8 :=
  text.take length ++ List.replicate (length - text.length) 0

/-- `tarfile.itn` in the ustar format: octal digits and a zero, if the number fits. -/
def itn (number digits : Nat) : Option (List UInt8) :=
  if number < 8 ^ (digits - 1) then some (octalDigits (digits - 1) number ++ [0]) else none

/-- The sum of some bytes. -/
def byteSum (bytes : List UInt8) : Nat := (bytes.map UInt8.toNat).sum

/-- `TarInfo.tobuf(format=USTAR_FORMAT)`. Names of more than 100 bytes, which it would split,
do not occur here. -/
def TarInfo.tobuf (info : TarInfo) : Option (List UInt8) := do
  let mode ← itn (info.mode % 0o10000) 8
  let uid ← itn info.uid 8
  let gid ← itn info.gid 8
  let size ← itn info.size 12
  let mtime ← itn info.mtime 12
  let before := stn info.name 100 ++ mode ++ uid ++ gid ++ size ++ mtime
  let after := ascii "0" ++ stn [] 100 ++ (ascii "ustar" ++ [0] ++ ascii "00") ++
    stn info.uname 32 ++ stn info.gname 32 ++ stn [] 8 ++ stn [] 8 ++ stn [] 155 ++
    List.replicate 12 0
  let checksum := byteSum (before ++ List.replicate 8 32 ++ after)
  if info.name.length ≤ 100 then some (before ++ (octalDigits 6 checksum ++ [0]) ++ [32] ++ after)
  else none

/-! ## Reading -/

/-- `_member_info`. -/
def memberInfo (name : List UInt8) (size : Nat) : TarInfo where
  name := name
  size := size
  mode := 0o644
  mtime := 0
  uid := 0
  gid := 0
  uname := []
  gname := []

/-- `b"0"` to `b"7"`. -/
def isOctal (byte : UInt8) : Bool := 48 ≤ byte && byte ≤ 55

/-- `re.fullmatch(rb"[0-7]*\x00[ \x00]*", raw)`. -/
def octalField (raw : List UInt8) : Bool :=
  let rest := raw.dropWhile (· != 0)
  (raw.takeWhile (· != 0)).all isOctal && !rest.isEmpty &&
    rest.all fun byte => byte == 0 || byte == 32

/-- `int(digits, 8)`. -/
def octalValue (digits : List UInt8) : Nat :=
  digits.foldl (fun value digit => value * 8 + (digit.toNat - 48)) 0

/-- `_octal`. -/
def octal (raw : List UInt8) : Checked Nat := do
  refuseIf (raw.isEmpty || !octalField raw) "非法 ustar 数值字段"
  pure (octalValue (raw.takeWhile (· != 0)))

/-- `any(_octal(header[start:end]) != required for start, end, required in fields)`. -/
def anyOctal (header : List UInt8) : List (Nat × Nat × Nat) → Checked Bool
  | [] => pure false
  | (start, stop, required) :: fields => do
      let value ← octal (slice header start stop)
      if value ≠ required then pure true else anyOctal header fields

/-- `MEMBERS[0]`. -/
def manifestName : List UInt8 := ascii "manifest.json"

/-- `MEMBERS[1]`. -/
def signatureName : List UInt8 := ascii "signature.bin"

/-- `MEMBERS[2]`. -/
def wasmName : List UInt8 := ascii "app.wasm"

/-- `cap`. -/
def memberCap (expected : List UInt8) (maxWasmBytes : Nat) : Nat :=
  if expected = manifestName then packageManifestMaxBytes
  else if expected = signatureName then packageSignatureBytes
  else maxWasmBytes

/-- The checks of one header, up to its size field. -/
def checkHeader (header expected : List UInt8) : Checked Nat := do
  refuseIf (slice header 257 263 != ascii "ustar" ++ [0] || slice header 263 265 != ascii "00")
    "只接受 POSIX ustar"
  let name := (slice header 0 100).takeWhile (· != 0)
  refuseIf (name != expected ||
      !(slice header 156 157 == ascii "0" || slice header 156 157 == [0])) "成员名称、顺序或类型错误"
  refuseIf (!(strip (slice header 157 257)).isEmpty || !(strip (slice header 345 500)).isEmpty)
    "不接受链接、前缀或扩展字段"
  let metadata ← anyOctal header [(100, 108, 0o644), (108, 116, 0), (116, 124, 0), (136, 148, 0)]
  refuseIf (metadata || !(strip (slice header 265 329)).isEmpty) "ustar 元数据超出固定子集"
  let devices ← anyOctal header [(329, 337, 0), (337, 345, 0)]
  refuseIf devices "ustar 元数据超出固定子集"
  let checksum ← octal (slice header 148 156)
  let actual := byteSum (header.take 148) + 8 * 32 + byteSum (header.drop 156)
  refuseIf (checksum != actual) "ustar header 校验和错误"
  octal (slice header 124 136)

/-- One round of the loop of `unpack`: the member's bytes, and the cursor behind it. -/
def unpackMember (package : List UInt8) (maxWasmBytes : Nat) (expected : List UInt8)
    (cursor : Nat) : Checked (List UInt8 × Nat) := do
  refuseIf (cursor + 512 > package.length) "截断的 ustar header"
  let header := slice package cursor (cursor + 512)
  let cursor := cursor + 512
  let size ← checkHeader header expected
  refuseIf (size > memberCap expected maxWasmBytes || cursor + size > package.length)
    "成员长度超限或截断"
  refuseIf (some header != (memberInfo expected size).tobuf) "ustar header 非固定规范编码"
  let extracted := slice package cursor (cursor + size)
  let cursor := cursor + size
  let padding := (512 - size % 512) % 512
  refuseIf (slice package cursor (cursor + padding) != List.replicate padding 0) "成员填充非零"
  pure (extracted, cursor + padding)

/-- `unpack`. -/
def unpack (package : List UInt8) (maxWasmBytes : Nat) :
    Checked (List UInt8 × List UInt8 × List UInt8) := do
  refuseIf (package.length % 512 != 0 ||
    package.length > maxWasmBytes + packageManifestMaxBytes + 8192) "包长度或对齐错误"
  let (manifest, cursor) ← unpackMember package maxWasmBytes manifestName 0
  let (signature, cursor) ← unpackMember package maxWasmBytes signatureName cursor
  let (wasm, cursor) ← unpackMember package maxWasmBytes wasmName cursor
  let archiveEnd := cursor + 1024
  let canonicalSize := (archiveEnd + tarRecordBytes - 1) / tarRecordBytes * tarRecordBytes
  refuseIf (package.length != canonicalSize ||
      package.drop cursor != List.replicate (package.length - cursor) 0) "归档结束块或尾随字节错误"
  pure (manifest, signature, wasm)

end Tools
