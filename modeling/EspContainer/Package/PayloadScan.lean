/-
# The Wasm check of a snapshot

When the payload is a part of a fixed package, the cache of the reader is invisible:
a scanning function gets the bytes of the payload and nothing else. The Wasm check of
a snapshot is therefore a property of the payload, and the structure below says which.
-/

import EspContainer.Package.Layout
import EspContainer.Package.WasmCheck

namespace Package

open Binary Interaction

variable {α β : Type} {package wasm : List UInt8} {base : Nat} {reader : WasmReader}

/-- What a payload answers to the scanner. -/
def payloadByte (wasm : List UInt8) (offset : BytePort.Call) : BytePort.Answer offset :=
  wasm[offset]?

/-- The result of a scanning function on a payload. -/
def scanOver (wasm : List UInt8) (scan : Scan α) : Except Stop α :=
  Fallible.eval (payloadByte wasm) scan

/-- The payload lies at this place of the package. -/
structure PayloadAt (package : List UInt8) (base : Nat) (wasm : List UInt8) : Prop where
  bound : base + wasm.length ≤ package.length
  bytes : (bytesAt package base wasm.length).toList = wasm

/-- A part of the payload is a part of the package. -/
theorem PayloadAt.part (hpayload : PayloadAt package base wasm) {offset count : Nat}
    (hpart : offset + count ≤ wasm.length) :
    (bytesAt package (base + offset) count).toList = (wasm.drop offset).take count := by
  have hbound := hpayload.bound
  rw [← bytesAt_bytesAt hbound hpart, toList_bytesAt_of_le (by simpa using hpart), hpayload.bytes]

/-- A sequence finds something exactly if its steps do. -/
theorem scanOver_bind_eq_ok {scan : Scan α} {next : α → Scan β} {value : β} :
    scanOver wasm (scan >>= next) = .ok value ↔
      ∃ found, scanOver wasm scan = .ok found ∧ scanOver wasm (next found) = .ok value :=
  Fallible.eval_bind_eq_ok

@[simp]
theorem scanOver_pure (value : α) : scanOver wasm (pure value) = .ok value := rfl

/-! ## The reader -/

/-- A reader of this payload whose cached block is a part of it. -/
structure WasmReader.Holds (base : Nat) (wasm : List UInt8) (reader : WasmReader) : Prop where
  base : reader.base = base
  size : reader.size = wasm.length
  flag : reader.readFailed = false
  cached : reader.cachedBegin + reader.cachedSize ≤ wasm.length
  block : reader.block = (wasm.drop reader.cachedBegin).take reader.cachedSize

/-- A byte of the cached block is a byte of the payload. -/
theorem byteAt_block {start count offset : Nat} (hpart : start + count ≤ wasm.length)
    (hstart : start ≤ offset) (hoffset : offset - start < count) :
    some (Binary.byteAt ((wasm.drop start).take count) (offset - start)) = wasm[offset]? := by
  have hindex : offset < wasm.length := by omega
  have hplace : start + (offset - start) = offset := by omega
  rw [Binary.byteAt, List.getD_eq_getElem?_getD, List.getElem?_take_of_lt hoffset,
    List.getElem?_drop, hplace, List.getElem?_eq_getElem hindex, Option.getD_some]

/-- Serving a byte of a snapshot gives the byte of the payload. -/
theorem eval_serveByte (hpayload : PayloadAt package base wasm) (offset : Nat)
    (hreader : reader.Holds base wasm) :
    ((serveByte offset reader).eval (snapshot package)).1 = wasm[offset]? ∧
      ((serveByte offset reader).eval (snapshot package)).2.Holds base wasm := by
  rw [serveByte]
  by_cases hend : offset ≥ reader.size
  · rw [if_pos hend]
    exact ⟨(List.getElem?_eq_none (hreader.size ▸ hend)).symm, hreader⟩
  rw [if_neg hend]
  split
  · -- The block that holds the offset is read.
    have hstart : offset / wasmReadBytes * wasmReadBytes ≤ offset := Nat.div_mul_le_self _ _
    have hnext : offset < offset / wasmReadBytes * wasmReadBytes + wasmReadBytes :=
      Nat.lt_div_mul_add (by decide)
    generalize offset / wasmReadBytes * wasmReadBytes = start at hstart hnext ⊢
    rw [Program.eval_bind, Program.eval_call]
    generalize hamount : min wasmReadBytes (reader.size - start) = amount
    have hpart : start + amount ≤ wasm.length := by
      rw [← hreader.size]
      omega
    have hpackage : reader.base + start + amount ≤ package.length := by
      have hbound := hpayload.bound
      rw [hreader.base]
      omega
    have hanswer : snapshot package (.read (reader.base + start) amount) =
        .ok (bytesAt package (reader.base + start) amount) := by
      simp only [snapshot, if_pos hpackage]
    have hblock : (bytesAt package (reader.base + start) amount).toList =
        (wasm.drop start).take amount := by
      rw [hreader.base, hpayload.part hpart]
    rw [hanswer]
    simp only [Program.pure_eq_ret, Program.eval_ret, hblock]
    refine ⟨byteAt_block hpart hstart (by omega), ?_⟩
    exact
      { base := hreader.base
        size := hreader.size
        flag := hreader.flag
        cached := hpart
        block := rfl }
  · next hcached =>
    simp only [Bool.or_eq_true, beq_iff_eq, decide_eq_true_eq, not_or, ge_iff_le, not_le, not_lt]
      at hcached
    simp only [Program.pure_eq_ret, Program.eval_ret, hreader.block]
    exact ⟨byteAt_block hreader.cached hcached.1.2 hcached.2, hreader⟩

/-- What the check does with the result of a scanning function on a payload. -/
def scanVerdict (reader : WasmReader) : Except Stop α → Except WasmError (Option α × WasmReader)
  | .ok value => .ok (some value, reader)
  | .error .unsupported => .ok (none, reader)
  | .error .failed => .error .invalid

/-- A scanning function over a snapshot is the one over the payload. -/
theorem eval_scanned (hpayload : PayloadAt package base wasm) (scan : Scan α)
    (hreader : reader.Holds base wasm) :
    ∃ next, next.Holds base wasm ∧
      Fallible.eval (snapshot package) (scanned scan reader) =
        scanVerdict next (scanOver wasm scan) := by
  obtain ⟨hresult, hnext⟩ := Program.eval_interpret serveByte (snapshot package)
    (payloadByte wasm) (WasmReader.Holds base wasm)
    (fun offset state hstate => eval_serveByte hpayload offset hstate) scan.run reader hreader
  refine ⟨_, hnext, ?_⟩
  rw [scanned, Fallible.eval_bind, Fallible.eval_attempt]
  revert hresult hnext
  generalize (scan.run.interpret serveByte reader).eval (snapshot package) = reply
  obtain ⟨result, next⟩ := reply
  intro hresult hnext
  obtain rfl : result = scanOver wasm scan := hresult
  rcases scanOver wasm scan with (_ | _) | value
  · change Except.error next.verdict = _
    rw [WasmReader.verdict, hnext.flag]
    rfl
  · rfl
  · rfl

/-- A check that begins with a scanning function succeeds only if what follows does, on
what the function found in the payload. -/
theorem eval_scanned_bind_eq_ok (hpayload : PayloadAt package base wasm) (scan : Scan α)
    (hreader : reader.Holds base wasm) :
    ∃ after, after.Holds base wasm ∧
      ∀ (β : Type) (next : Option α × WasmReader → Checking β) (value : β),
        Fallible.eval (snapshot package) (scanned scan reader >>= next) = .ok value ↔
          (∃ found, scanOver wasm scan = .ok found ∧
            Fallible.eval (snapshot package) (next (some found, after)) = .ok value) ∨
          scanOver wasm scan = .error .unsupported ∧
            Fallible.eval (snapshot package) (next (none, after)) = .ok value := by
  obtain ⟨after, hafter, hscanned⟩ := eval_scanned hpayload scan hreader
  refine ⟨after, hafter, fun β next value => ?_⟩
  rw [Fallible.eval_bind, hscanned]
  rcases scanOver wasm scan with (_ | _) | found
  · exact iff_of_false nofun (by simp)
  · change Fallible.eval _ (next (none, after)) = _ ↔ _
    simp
  · change Fallible.eval _ (next (some found, after)) = _ ↔ _
    simp

/-! ## The digest of the payload -/

/-- Over a snapshot the payload digest is the one of the payload. -/
theorem eval_verifyPayloadDigest (crypto : Crypto) (hpayload : PayloadAt package base wasm)
    (expected : Sha256) (hreader : reader.Holds base wasm) :
    Fallible.eval (snapshot package) (verifyPayloadDigest crypto reader expected) =
      if crypto.sha256 wasm = expected then .ok () else .error .invalid := by
  rw [verifyPayloadDigest, Fallible.eval_call_bind, Fallible.eval_bind, Fallible.eval_require]
  change (Fallible.eval _ (Fallible.chunked _ _ _ _ >>= _)) = _
  rw [Fallible.eval_bind]
  refine (congrArg (fun digest => digest >>= _) (?_ : Fallible.eval _ _ = .ok wasm)).trans ?_
  · refine (Fallible.eval_chunked (by decide) (fun offset => wasm.take offset) (fun _ => True)
      .invalid (fun _ _ _ h => h) (fun offset count hoffset hcount _ => ?_) trivial).trans ?_
    · have hpart : offset + count ≤ wasm.length := by
        rw [← hreader.size]
        omega
      have hpackage : reader.base + offset + count ≤ package.length := by
        have hbound := hpayload.bound
        rw [hreader.base]
        omega
      have hanswer : snapshot package (.read (reader.base + offset) count) =
          .ok (bytesAt package (reader.base + offset) count) := by
        simp only [snapshot, if_pos hpackage]
      have hblock : (bytesAt package (reader.base + offset) count).toList =
          (wasm.drop offset).take count := by
        rw [hreader.base, hpayload.part hpart]
      rw [Fallible.eval_call_bind, hanswer, if_pos trivial, List.take_add, ← hblock]
      rfl
    · rw [if_pos trivial, hreader.size, List.take_length]
  · change Fallible.eval _ (Fallible.attempt (Program.call (I := ReadPort) (.digest .finish)) >>= _)
      = _
    rw [Fallible.eval_call_bind, Fallible.eval_require]
    simp [snapshot]

/-! ## The accepted modules -/

/-- The entry point of this name is a function of the module and has the type of the
entry point; so many functions are defined. -/
structure EntryPoint (wasm : List UInt8) (sections : WasmSections) (imports : WasmImports)
    (exported : WasmExports) (typeCount : Nat) (name : ExportName) (definedCount : Nat) :
    Prop where
  defined : ¬ exported.functions name < imports.count
  typed : ∃ typeIndex,
    scanOver wasm (functionType (sections 3) (exported.functions name - imports.count)
      typeCount) = .ok (typeIndex, definedCount) ∧
    scanOver wasm (typeMatches (sections 1) typeIndex (entryParams name) entryResults) = .ok ()

/-- The entry points of these names, with the number of functions the last one gave. -/
def EntryPoints (wasm : List UInt8) (sections : WasmSections) (imports : WasmImports)
    (exported : WasmExports) (typeCount : Nat) : List ExportName → Nat → Nat → Prop
  | [], count, definedCount => definedCount = count
  | name :: names, _, definedCount => ∃ count,
      EntryPoint wasm sections imports exported typeCount name count ∧
        EntryPoints wasm sections imports exported typeCount names count definedCount

/-- What the Wasm check demands of a payload, besides its digest, under the requested
capabilities and the memory limit. -/
structure ModuleAccepted (wasm : List UInt8) (requested : UInt32) (limitBytes : Nat)
    (sections : WasmSections) (imports : WasmImports) (exported : WasmExports)
    (typeCount definedCount : Nat) : Prop where
  sections_eq : scanOver wasm (scanSections wasm.length) = .ok sections
  imports_eq : scanOver wasm (scanImports sections) = .ok imports
  exports_eq : scanOver wasm (scanExports (sections 7)) = .ok exported
  requested : imports.capabilities &&& ~~~requested = 0
  distinct : exported.functions .init ≠ exported.functions .onEvent ∧
    exported.functions .init ≠ exported.functions .stop ∧
    exported.functions .onEvent ≠ exported.functions .stop
  types_eq : ∃ cursor, scanOver wasm (nextU32 (sections 1).endOffset (sections 1).beginOffset) =
    .ok (typeCount, cursor)
  entries : EntryPoints wasm sections imports exported typeCount [.init, .onEvent, .stop] 0
    definedCount
  memory_eq : scanOver wasm (scanMemory (sections 5) limitBytes) = .ok ()
  code_eq : scanOver wasm (scanCode (sections 10) definedCount) = .ok ()

variable {sections : WasmSections} {imports : WasmImports} {exported : WasmExports}
  {typeCount : Nat}

/-- The scan of one entry point. -/
def entryScan (sections : WasmSections) (imports : WasmImports) (exported : WasmExports)
    (typeCount : Nat) (name : ExportName) : Scan Nat := do
  let (typeIndex, definedCount) ← functionType (sections 3)
    (exported.functions name - imports.count) typeCount
  typeMatches (sections 1) typeIndex (entryParams name) entryResults
  pure definedCount

theorem entryPoint_iff {name : ExportName} {count : Nat} :
    EntryPoint wasm sections imports exported typeCount name count ↔
      ¬ exported.functions name < imports.count ∧
        scanOver wasm (entryScan sections imports exported typeCount name) = .ok count := by
  rw [entryScan]
  constructor
  · intro hentry
    obtain ⟨typeIndex, hfunction, htype⟩ := hentry.typed
    exact ⟨hentry.defined, scanOver_bind_eq_ok.mpr ⟨_, hfunction,
      scanOver_bind_eq_ok.mpr ⟨_, htype, scanOver_pure _⟩⟩⟩
  · intro ⟨hdefined, hentry⟩
    obtain ⟨⟨typeIndex, own⟩, hfunction, hentry⟩ := scanOver_bind_eq_ok.mp hentry
    obtain ⟨_, htype, hentry⟩ := scanOver_bind_eq_ok.mp hentry
    rw [scanOver_pure, Except.ok.injEq] at hentry
    exact ⟨hdefined, typeIndex, hentry ▸ hfunction, htype⟩

theorem eval_checkEntries_bind_eq_ok (hpayload : PayloadAt package base wasm)
    (names : List ExportName) (count : Nat) (hreader : reader.Holds base wasm) :
    ∃ after, after.Holds base wasm ∧
      ∀ (β : Type) (next : Nat × WasmReader → Checking β) (value : β),
        Fallible.eval (snapshot package)
            (checkEntries sections imports exported typeCount names count reader >>= next) =
            .ok value ↔
          ∃ definedCount,
            EntryPoints wasm sections imports exported typeCount names count definedCount ∧
            Fallible.eval (snapshot package) (next (definedCount, after)) = .ok value := by
  induction names generalizing count reader with
  | nil =>
      refine ⟨reader, hreader, fun β next value => ?_⟩
      simp [checkEntries, EntryPoints]
  | cons name names ih =>
      obtain ⟨middle, hmiddle, hscanned⟩ := eval_scanned_bind_eq_ok hpayload
        (entryScan sections imports exported typeCount name) hreader
      have hstep (β : Type) (next : Nat × WasmReader → Checking β) (value : β) :
          Fallible.eval (snapshot package) (checkEntries sections imports exported typeCount
              (name :: names) count reader >>= next) = .ok value ↔
            ∃ own, EntryPoint wasm sections imports exported typeCount name own ∧
              Fallible.eval (snapshot package) (checkEntries sections imports exported typeCount
                names own middle >>= next) = .ok value := by
        rw [checkEntries, bind_assoc, Fallible.eval_require_bind_eq_ok, bind_assoc]
        change _ ∧ Fallible.eval _ (scanned (entryScan sections imports exported typeCount name)
          reader >>= _) = _ ↔ _
        rw [hscanned]
        constructor
        · rintro ⟨hdefined, ⟨own, hentry, hnext⟩ | ⟨-, hnext⟩⟩
          · exact ⟨own, entryPoint_iff.mpr ⟨by simpa using hdefined, hentry⟩, hnext⟩
          · cases hnext
        · rintro ⟨own, hentry, hnext⟩
          obtain ⟨hdefined, hentry⟩ := entryPoint_iff.mp hentry
          exact ⟨by simpa using hdefined, .inl ⟨own, hentry, hnext⟩⟩
      cases hentry : scanOver wasm (entryScan sections imports exported typeCount name) with
      | error stop =>
          refine ⟨middle, hmiddle, fun β next value => ?_⟩
          rw [hstep]
          have hnone (own : Nat) :
              ¬ EntryPoint wasm sections imports exported typeCount name own := fun hown => by
            rw [entryPoint_iff, hentry] at hown
            exact nomatch hown.2
          simp [EntryPoints, hnone]
      | ok own =>
          obtain ⟨after, hafter, hrest⟩ := ih own hmiddle
          refine ⟨after, hafter, fun β next value => ?_⟩
          have hown (count : Nat) (hcount : EntryPoint wasm sections imports exported typeCount
              name count) : own = count := by
            rw [entryPoint_iff, hentry] at hcount
            exact Except.ok.inj hcount.2
          rw [hstep]
          constructor
          · rintro ⟨count, hcount, hnext⟩
            obtain rfl := hown count hcount
            obtain ⟨definedCount, hnames, hnext⟩ := (hrest β next value).mp hnext
            exact ⟨definedCount, ⟨own, hcount, hnames⟩, hnext⟩
          · rintro ⟨definedCount, ⟨count, hcount, hnames⟩, hnext⟩
            obtain rfl := hown count hcount
            exact ⟨own, hcount, (hrest β next value).mpr ⟨definedCount, hnames, hnext⟩⟩

/-! ### Scans that never find a module unsupported -/

theorem yields_nextByte (stop cursor : Nat) :
    Fallible.Yields (Eq .failed) (fun _ => True) (nextByte stop cursor) := by
  simp only [nextByte, scanRequire, byteAt, Fallible.yields_bind, Fallible.yields_require]
  refine ⟨fun _ => Fallible.yields_attempt _ fun answer => ?_, fun _ => trivial⟩
  cases answer <;> simp

theorem yields_nextU32 (stop cursor : Nat) :
    Fallible.Yields (Eq .failed) (fun _ => True) (nextU32 stop cursor) := by
  rw [nextU32]
  suffices hloop : ∀ octets index result cursor, Fallible.Yields (Eq .failed) (fun _ => True)
      (nextU32Loop stop octets index result cursor) from hloop 5 0 0 cursor
  intro octets
  induction octets with
  | zero => exact fun _ _ _ => rfl
  | succ octets ih =>
      intro index result cursor
      simp only [nextU32Loop, scanRequire, Fallible.yields_bind, Fallible.yields_require]
      refine (yields_nextByte stop cursor).mono (fun _ h => h) fun octet _ => ⟨fun _ => ?_, fun _ => trivial⟩
      split
      · trivial
      · exact ih _ _ _

theorem yields_scanMemory (memory : WasmSection) (limitBytes : Nat) :
    Fallible.Yields (Eq .failed) (fun _ => True) (scanMemory memory limitBytes) := by
  simp only [scanMemory, scanRequire, Fallible.yields_bind, Fallible.yields_require]
  refine (yields_nextU32 _ _).mono (fun _ h => h) fun count _ => ⟨fun _ => ?_, fun _ => trivial⟩
  refine (yields_nextU32 _ _).mono (fun _ h => h) fun flags _ => ⟨fun _ => ?_, fun _ => trivial⟩
  refine (yields_nextU32 _ _).mono (fun _ h => h) fun minimum _ => ⟨fun _ => ?_, fun _ => trivial⟩
  exact (yields_nextU32 _ _).mono (fun _ h => h) fun maximum _ => ⟨fun _ => trivial, fun _ => trivial⟩

theorem yields_scanCode (code : WasmSection) (definedCount : Nat) :
    Fallible.Yields (Eq .failed) (fun _ => True) (scanCode code definedCount) := by
  simp only [scanCode, scanRequire, Fallible.yields_bind, Fallible.yields_require]
  refine (yields_nextU32 _ _).mono (fun _ h => h) fun count _ => ⟨fun _ => ?_, fun _ => trivial⟩
  refine (Fallible.yields_counted (fun index cursor => ?_) _ _).mono (fun _ h => h) fun _ _ =>
    ⟨fun _ => trivial, fun _ => trivial⟩
  simp only [byteAt, Fallible.yields_bind, Fallible.yields_require]
  refine (yields_nextU32 _ _).mono (fun _ h => h) fun size _ => ⟨fun _ => ?_, fun _ => trivial⟩
  refine Fallible.yields_attempt _ fun answer => ?_
  cases answer <;> simp

/-- The last scan of the check, the memory and the code. -/
def lastScan (sections : WasmSections) (limitBytes definedCount : Nat) : Scan Unit := do
  scanMemory (sections 5) limitBytes
  scanCode (sections 10) definedCount

theorem lastScan_supported (limitBytes definedCount : Nat) :
    scanOver wasm (lastScan sections limitBytes definedCount) ≠ .error .unsupported := by
  intro herror
  have hyields : Fallible.Yields (Eq .failed) (fun _ => True)
      (lastScan sections limitBytes definedCount) := by
    rw [lastScan, Fallible.yields_bind]
    exact (yields_scanMemory _ _).mono (fun _ h => h) fun _ _ => yields_scanCode _ _
  cases hyields.of_eval_error herror

/-! ### The check -/

/-- The part of the check behind the import and export scans, over a snapshot. -/
theorem eval_checkAbi_eq_ok (crypto : Crypto) (info : Info)
    (hpayload : PayloadAt package base wasm) (hreader : reader.Holds base wasm) :
    Fallible.eval (snapshot package) (checkAbi crypto info sections imports exported reader) =
        .ok () ↔
      imports.capabilities &&& ~~~info.requestedCapabilities = 0 ∧
      (exported.functions .init ≠ exported.functions .onEvent ∧
        exported.functions .init ≠ exported.functions .stop ∧
        exported.functions .onEvent ≠ exported.functions .stop) ∧
      (∃ typeCount definedCount,
        (∃ cursor, scanOver wasm (nextU32 (sections 1).endOffset (sections 1).beginOffset) =
          .ok (typeCount, cursor)) ∧
        EntryPoints wasm sections imports exported typeCount [.init, .onEvent, .stop] 0
          definedCount ∧
        scanOver wasm (lastScan sections info.memoryLimitBytes.toNat definedCount) = .ok ()) ∧
      crypto.sha256 wasm = info.wasmSha256 := by
  rw [checkAbi, Fallible.eval_require_bind_eq_ok, Fallible.eval_require_bind_eq_ok, beq_iff_eq]
  refine and_congr_right fun _ => and_congr (by simp [and_assoc]) ?_
  obtain ⟨afterTypes, hafterTypes, htypes⟩ := eval_scanned_bind_eq_ok hpayload
    (do
      let (typeCount, _) ← nextU32 (sections 1).endOffset (sections 1).beginOffset
      pure typeCount) hreader
  rw [htypes]
  -- The memory and the code are scanned and the digest is checked.
  have hlast (definedCount : Nat) (current : WasmReader) (hcurrent : current.Holds base wasm) :
      Fallible.eval (snapshot package) (scanned (lastScan sections info.memoryLimitBytes.toNat
        definedCount) current >>= fun scanned =>
          verifyPayloadDigest crypto scanned.2 info.wasmSha256) = .ok () ↔
        scanOver wasm (lastScan sections info.memoryLimitBytes.toNat definedCount) = .ok () ∧
          crypto.sha256 wasm = info.wasmSha256 := by
    obtain ⟨after, hafter, hscanned⟩ := eval_scanned_bind_eq_ok hpayload
      (lastScan sections info.memoryLimitBytes.toNat definedCount) hcurrent
    have hdigest : Fallible.eval (snapshot package)
        (verifyPayloadDigest crypto after info.wasmSha256) = .ok () ↔
          crypto.sha256 wasm = info.wasmSha256 := by
      rw [eval_verifyPayloadDigest crypto hpayload _ hafter]
      split <;> simp_all
    rw [hscanned]
    constructor
    · rintro (⟨_, hscan, hnext⟩ | ⟨hscan, -⟩)
      · exact ⟨hscan, hdigest.mp hnext⟩
      · exact absurd hscan (lastScan_supported _ _)
    · exact fun ⟨hscan, hnext⟩ => .inl ⟨(), hscan, hdigest.mpr hnext⟩
  have hentries (typeCount : Nat) := @eval_checkEntries_bind_eq_ok package wasm base afterTypes
    sections imports exported typeCount hpayload [.init, .onEvent, .stop] 0 hafterTypes
  constructor
  · rintro (⟨typeCount, htypeCount, hnext⟩ | ⟨-, hnext⟩)
    · obtain ⟨⟨found, cursor⟩, hcursor, hcount⟩ := scanOver_bind_eq_ok.mp htypeCount
      rw [scanOver_pure, Except.ok.injEq] at hcount
      obtain rfl : found = typeCount := hcount
      obtain ⟨after, hafter, hiff⟩ := hentries found
      obtain ⟨definedCount, hnames, hnext⟩ := (hiff _ _ _).mp hnext
      obtain ⟨hscan, hdigest⟩ := (hlast definedCount after hafter).mp hnext
      exact ⟨⟨found, definedCount, ⟨cursor, hcursor⟩, hnames, hscan⟩, hdigest⟩
    · cases hnext
  · rintro ⟨⟨typeCount, definedCount, ⟨cursor, hcursor⟩, hnames, hscan⟩, hdigest⟩
    obtain ⟨after, hafter, hiff⟩ := hentries typeCount
    exact .inl ⟨typeCount, scanOver_bind_eq_ok.mpr ⟨_, hcursor, scanOver_pure _⟩,
      (hiff _ _ _).mpr ⟨definedCount, hnames, (hlast definedCount after hafter).mpr
        ⟨hscan, hdigest⟩⟩⟩

theorem lastScan_eq_ok {limitBytes definedCount : Nat} :
    scanOver wasm (lastScan sections limitBytes definedCount) = .ok () ↔
      scanOver wasm (scanMemory (sections 5) limitBytes) = .ok () ∧
        scanOver wasm (scanCode (sections 10) definedCount) = .ok () := by
  rw [lastScan, scanOver_bind_eq_ok]
  exact ⟨fun ⟨_, hmemory, hcode⟩ => ⟨hmemory, hcode⟩, fun ⟨hmemory, hcode⟩ => ⟨(), hmemory, hcode⟩⟩

/-- Over a snapshot the check succeeds exactly on the accepted modules with the signed
digest. -/
theorem eval_wasmCheckModule_eq_ok (crypto : Crypto) (info : Info)
    (hpayload : PayloadAt package info.wasmOffsetBytes wasm)
    (hsize : wasm.length = info.wasmSizeBytes) :
    Fallible.eval (snapshot package) (wasmCheckModule crypto info) = .ok () ↔
      (∃ sections imports exported typeCount definedCount,
        ModuleAccepted wasm info.requestedCapabilities info.memoryLimitBytes.toNat sections imports
          exported typeCount definedCount) ∧
      crypto.sha256 wasm = info.wasmSha256 := by
  have hstart : (WasmReader.start info).Holds info.wasmOffsetBytes wasm :=
    ⟨rfl, hsize.symm, rfl, by simp [WasmReader.start], by simp [WasmReader.start]⟩
  rw [wasmCheckModule, ← hsize]
  obtain ⟨afterSections, hafterSections, hsections⟩ :=
    eval_scanned_bind_eq_ok hpayload (scanSections wasm.length) hstart
  rw [hsections]
  constructor
  · rintro (⟨sections, hsections, hnext⟩ | ⟨-, hnext⟩)
    · obtain ⟨afterImports, hafterImports, himports⟩ :=
        eval_scanned_bind_eq_ok hpayload (scanImports sections) hafterSections
      obtain ⟨afterExports, hafterExports, hexports⟩ :=
        eval_scanned_bind_eq_ok hpayload (scanExports (sections 7)) hafterImports
      obtain ⟨imports, himports, hnext⟩ | ⟨-, hnext⟩ := (himports _ _ _).mp hnext
      · obtain ⟨exported, hexports, hnext⟩ | ⟨-, hnext⟩ := (hexports _ _ _).mp hnext
        · obtain ⟨hrequested, hdistinct, ⟨typeCount, definedCount, htypes, hentries, hlast⟩,
            hdigest⟩ := (eval_checkAbi_eq_ok crypto info hpayload hafterExports).mp hnext
          obtain ⟨hmemory, hcode⟩ := lastScan_eq_ok.mp hlast
          exact ⟨⟨sections, imports, exported, typeCount, definedCount,
            { sections_eq := hsections
              imports_eq := himports
              exports_eq := hexports
              requested := hrequested
              distinct := hdistinct
              types_eq := htypes
              entries := hentries
              memory_eq := hmemory
              code_eq := hcode }⟩, hdigest⟩
        · cases hnext
      · obtain ⟨exported, -, hnext⟩ | ⟨-, hnext⟩ := (hexports _ _ _).mp hnext
        · cases hnext
        · cases hnext
    · cases hnext
  · rintro ⟨⟨sections, imports, exported, typeCount, definedCount, haccepted⟩, hdigest⟩
    obtain ⟨afterImports, hafterImports, himports⟩ :=
      eval_scanned_bind_eq_ok hpayload (scanImports sections) hafterSections
    obtain ⟨afterExports, hafterExports, hexports⟩ :=
      eval_scanned_bind_eq_ok hpayload (scanExports (sections 7)) hafterImports
    refine .inl ⟨sections, haccepted.sections_eq, (himports _ _ _).mpr (.inl ⟨imports,
      haccepted.imports_eq, (hexports _ _ _).mpr (.inl ⟨exported, haccepted.exports_eq, ?_⟩)⟩)⟩
    exact (eval_checkAbi_eq_ok crypto info hpayload hafterExports).mpr ⟨haccepted.requested,
      haccepted.distinct, ⟨typeCount, definedCount, haccepted.types_eq, haccepted.entries,
        lastScan_eq_ok.mpr ⟨haccepted.memory_eq, haccepted.code_eq⟩⟩, hdigest⟩

/-- The Wasm check of a snapshot succeeds exactly if its argument checks pass and the
module is accepted. -/
theorem eval_packageWasmCheck_eq_ok {crypto : Crypto} {info : Info}
    {authorization : WasmAuthorization} (hpayload : PayloadAt package info.wasmOffsetBytes wasm)
    (hsize : wasm.length = info.wasmSizeBytes) :
    (packageWasmCheck crypto true (some info) (some authorization) true).eval (snapshot package) =
        .ok () ↔
      wasmBoundsValid info authorization = true ∧ wasmProfileSupported info = true ∧
      wasmAuthorized info authorization = true ∧
      (∃ sections imports exported typeCount definedCount,
        ModuleAccepted wasm info.requestedCapabilities info.memoryLimitBytes.toNat sections imports
          exported typeCount definedCount) ∧
      crypto.sha256 wasm = info.wasmSha256 := by
  rw [← eval_wasmCheckModule_eq_ok crypto info hpayload hsize, packageWasmCheck]
  cases wasmBoundsValid info authorization with
  | false => simp
  | true =>
      cases wasmProfileSupported info with
      | false => simp
      | true =>
          cases wasmAuthorized info authorization with
          | false => simp
          | true => simp [Fallible.eval]

end Package
