/-
# The block cache

`byte_at` keeps one block of the payload in the workspace, whose memory the caller's
`read_fn` writes. Here that memory belongs to the surroundings: a fill that succeeds
leaves the wanted bytes at its front, one that fails may leave anything, and a load gives
what is there.

Whatever the order of the offsets and whichever fills fail, a byte that is served is the
byte of the payload. `serveByte`, which the scanner is modelled over, takes the block into
the state of the reader; it does the same.
-/

import EspContainer.Interaction.Walk
import EspContainer.Package.Admission

namespace Package

open Binary Interaction

/-- `read_fn` into the shared block, and a byte of the block. -/
inductive BlockCall
  | fill (offset amount : Nat)
  | load (index : Nat)

/-- The interface to the shared block. -/
@[reducible]
def BlockPort : Interface where
  Call := BlockCall
  Answer
    | .fill _ _ => Bool
    | .load _ => UInt8

/-- `wasm_reader_t`, less the memory it shares. -/
structure BlockReader where
  base : Nat
  size : Nat
  cachedBegin : Nat
  cachedSize : Nat
  readFailed : Bool
  deriving DecidableEq

namespace BlockReader

/-- A reader as its initialiser leaves it. -/
def start (base size : Nat) : BlockReader := ⟨base, size, 0, 0, false⟩

/-- The condition under which `byte_at` reads a block. -/
def misses (reader : BlockReader) (offset : Nat) : Bool :=
  reader.cachedSize == 0 || offset < reader.cachedBegin ||
    offset - reader.cachedBegin ≥ reader.cachedSize

/-- Make sure that the block holds an offset; false if the read failed. -/
def refill (reader : BlockReader) (offset : Nat) : Program BlockPort (Bool × BlockReader) :=
  if reader.misses offset then do
    let start := offset / wasmReadBytes * wasmReadBytes
    let amount := min wasmReadBytes (reader.size - start)
    let filled ← Program.call (I := BlockPort) (.fill (reader.base + start) amount)
    if filled then
      pure (true, { reader with cachedBegin := start, cachedSize := amount })
    else
      pure (false, { reader with readFailed := true, cachedSize := 0 })
  else
    pure (true, reader)

/-- `byte_at`. -/
def byteAt (reader : BlockReader) (offset : Nat) :
    Program BlockPort (Option UInt8 × BlockReader) :=
  if offset ≥ reader.size then
    pure (none, reader)
  else do
    let (filled, reader) ← reader.refill offset
    if filled then do
      let value ← Program.call (I := BlockPort) (.load (offset - reader.cachedBegin))
      pure (some value, reader)
    else
      pure (none, reader)

end BlockReader

/-! ## The shared memory -/

/-- The memory of the block, filled from a fixed package. -/
def blockMemory (package : List UInt8) : World BlockPort (Bytes wasmReadBytes) where
  Step before request answer after :=
    match request, answer with
    | .fill offset amount, filled =>
        filled = true → after.toList.take amount = (bytesAt package offset amount).toList
    | .load index, value => value = Binary.byteAt before.toList index ∧ after = before

variable {package wasm : List UInt8} {base : Nat} {reader : BlockReader}
  {block : Bytes wasmReadBytes}

/-- The cached part of the block is the part of the payload that it should be. -/
structure BlockReader.Coherent (base : Nat) (wasm : List UInt8) (reader : BlockReader)
    (block : Bytes wasmReadBytes) : Prop where
  base : reader.base = base
  size : reader.size = wasm.length
  bound : reader.cachedSize ≤ wasmReadBytes
  cached : reader.cachedBegin + reader.cachedSize ≤ wasm.length
  block : block.toList.take reader.cachedSize =
    (wasm.drop reader.cachedBegin).take reader.cachedSize

/-- A reader starts with an empty cache, so that the block may hold anything. -/
theorem coherent_start (base : Nat) (wasm : List UInt8) (block : Bytes wasmReadBytes) :
    (BlockReader.start base wasm.length).Coherent base wasm block where
  base := rfl
  size := rfl
  bound := Nat.zero_le _
  cached := Nat.zero_le _
  block := rfl

/-- The memory a call may touch: fills are as long as the block at most and inside the
payload, and loads are inside the block. -/
def InBlock (base : Nat) (wasm : List UInt8) : BlockCall → Prop
  | .fill offset amount =>
      amount ≤ wasmReadBytes ∧ base ≤ offset ∧ offset + amount ≤ base + wasm.length
  | .load index => index < wasmReadBytes

/-- A byte of the cached part is a byte of the payload. -/
theorem BlockReader.Coherent.byteAt_block (hcoherent : reader.Coherent base wasm block)
    {offset : Nat} (hstart : reader.cachedBegin ≤ offset)
    (hoffset : offset - reader.cachedBegin < reader.cachedSize) :
    some (Binary.byteAt block.toList (offset - reader.cachedBegin)) = wasm[offset]? := by
  rw [← Package.byteAt_block hcoherent.cached hstart hoffset, ← hcoherent.block, Binary.byteAt,
    Binary.byteAt, List.getD_eq_getElem?_getD, List.getD_eq_getElem?_getD,
    List.getElem?_take_of_lt hoffset]

/-- What a refill leads to: the block holds the offset, or a read failed. -/
theorem safe_refill (hpayload : PayloadAt package base wasm)
    (hcoherent : reader.Coherent base wasm block) {offset : Nat} (hoffset : offset < wasm.length)
    (past : Trace BlockPort) :
    (reader.refill offset).Safe (blockMemory package).recorded
      (fun _ call => InBlock base wasm call)
      (fun after result => result.2.Coherent base wasm after.2 ∧
        (result.1 = true → result.2.cachedBegin ≤ offset ∧
          offset - result.2.cachedBegin < result.2.cachedSize) ∧
        (result.1 = false → ∃ position amount, after.1 =
          past ++ [(⟨.fill position amount, false⟩ : Event BlockPort)]))
      (past, block) := by
  rw [BlockReader.refill]
  by_cases hmiss : reader.misses offset
  · rw [if_pos hmiss]
    -- The block that holds the offset begins at or before it and ends behind it.
    have hstart : offset / wasmReadBytes * wasmReadBytes ≤ offset := Nat.div_mul_le_self _ _
    have hnext : offset < offset / wasmReadBytes * wasmReadBytes + wasmReadBytes :=
      Nat.lt_div_mul_add (by decide)
    generalize offset / wasmReadBytes * wasmReadBytes = start at hstart hnext ⊢
    have hpart : start + min wasmReadBytes (reader.size - start) ≤ wasm.length := by
      rw [hcoherent.size]
      omega
    have hheld : offset - start < min wasmReadBytes (reader.size - start) := by
      rw [hcoherent.size]
      omega
    rw [Program.call_bind, Program.safe_ask]
    constructor
    · rw [hcoherent.base]
      exact ⟨Nat.min_le_left _ _, Nat.le_add_right _ _, by omega⟩
    intro filled after hstep
    obtain ⟨htrace, hfilled⟩ := hstep
    cases filled with
    | true =>
        rw [if_pos rfl]
        have hblock := hfilled rfl
        rw [hcoherent.base, hpayload.part hpart] at hblock
        exact ⟨⟨hcoherent.base, hcoherent.size, Nat.min_le_left _ _, hpart, hblock⟩,
          fun _ => ⟨hstart, hheld⟩, nofun⟩
    | false =>
        rw [if_neg Bool.false_ne_true]
        exact ⟨⟨hcoherent.base, hcoherent.size, Nat.zero_le _,
          (Nat.le_add_right _ _).trans hcoherent.cached, rfl⟩, nofun, fun _ => ⟨_, _, htrace⟩⟩
  · rw [if_neg hmiss]
    simp only [BlockReader.misses, Bool.or_eq_true, beq_iff_eq, decide_eq_true_eq, not_or,
      ge_iff_le, not_le, not_lt] at hmiss
    exact ⟨hcoherent, fun _ => ⟨hmiss.1.2, hmiss.2⟩, nofun⟩

/-! ## Serving bytes -/

/-- One finished invocation of `byte_at`: its offset, what its calls were answered and what
it returned. -/
structure Lookup where
  offset : Nat
  trace : Trace BlockPort
  answer : Option UInt8

/-- What an invocation of `byte_at` owes its caller. -/
structure Lookup.Right (wasm : List UInt8) (lookup : Lookup) : Prop where
  served : ∀ value, lookup.answer = some value → wasm[lookup.offset]? = some value
  beyond : wasm.length ≤ lookup.offset → lookup.answer = none ∧ lookup.trace = []
  refused : lookup.answer = none → lookup.offset < wasm.length →
    ∃ position amount, (⟨.fill position amount, false⟩ : Event BlockPort) ∈ lookup.trace

/-- `byte_at` from a coherent cache. -/
theorem safe_byteAt (hpayload : PayloadAt package base wasm)
    (hcoherent : reader.Coherent base wasm block) (offset : Nat) :
    (reader.byteAt offset).Safe (blockMemory package).recorded
      (fun _ call => InBlock base wasm call)
      (fun after result => result.2.Coherent base wasm after.2 ∧
        Lookup.Right wasm ⟨offset, after.1, result.1⟩)
      ([], block) := by
  rw [BlockReader.byteAt]
  by_cases hend : offset ≥ reader.size
  · rw [if_pos hend]
    rw [hcoherent.size] at hend
    exact ⟨hcoherent, nofun, fun _ => ⟨rfl, rfl⟩, fun _ hoffset => absurd hend (Nat.not_le.mpr hoffset)⟩
  rw [if_neg hend]
  have hoffset : offset < wasm.length := hcoherent.size ▸ Nat.not_le.mp hend
  apply (safe_refill hpayload hcoherent hoffset []).bind
  intro after ⟨filled, current⟩ hresult
  obtain ⟨hafter, hfilled, hfailed⟩ := hresult
  cases filled with
  | true =>
      obtain ⟨hstart, hheld⟩ := hfilled rfl
      change (Program.call _ >>= _).Safe _ _ _ _
      rw [Program.call_bind, Program.safe_ask]
      constructor
      · exact Nat.lt_of_lt_of_le hheld hafter.bound
      intro value last hstep
      obtain ⟨-, hvalue, hblock⟩ := hstep
      have hbyte := hafter.byteAt_block hstart hheld
      rw [← hvalue] at hbyte
      constructor
      · rw [hblock]
        exact hafter
      · exact ⟨fun other hother => hbyte ▸ hother,
          fun hbeyond => absurd hoffset (Nat.not_lt.mpr hbeyond), nofun⟩
  | false =>
      obtain ⟨position, amount, htrace⟩ := hfailed rfl
      exact ⟨hafter, nofun, fun hbeyond => absurd hoffset (Nat.not_lt.mpr hbeyond),
        fun _ _ => ⟨position, amount, by rw [htrace]; exact List.mem_singleton_self _⟩⟩

/-! ## Any number of invocations -/

/-- One more invocation on the reader and the shared block. -/
def LookupStep (package : List UInt8) (before : BlockReader × Bytes wasmReadBytes)
    (lookup : Lookup) (after : BlockReader × Bytes wasmReadBytes) : Prop :=
  Exec (blockMemory package) (before.1.byteAt lookup.offset) before.2 lookup.trace
    (.ret (lookup.answer, after.1)) after.2

/-- One invocation keeps the cache coherent and is right. -/
theorem lookupStep_right (hpayload : PayloadAt package base wasm)
    {before after : BlockReader × Bytes wasmReadBytes} {lookup : Lookup}
    (hcoherent : before.1.Coherent base wasm before.2)
    (hstep : LookupStep package before lookup after) :
    after.1.Coherent base wasm after.2 ∧ lookup.Right wasm :=
  (safe_byteAt hpayload hcoherent lookup.offset).post_of_exec (hstep.toRecorded [])

/-- The cache is transparent: for every sequence of offsets, every pattern of failing reads
and whatever a failed read leaves in the block, a byte that `byte_at` serves is the byte of
the payload at the offset, past the payload it fails without a call, and inside it fails
only if a read of the same invocation failed. -/
theorem block_cache_transparent (hpayload : PayloadAt package base wasm)
    {last : BlockReader × Bytes wasmReadBytes} {lookups : List Lookup}
    (hrun : Walk (LookupStep package) (.start base wasm.length, block) lookups last) :
    ∀ lookup ∈ lookups,
      (∀ value, lookup.answer = some value → wasm[lookup.offset]? = some value) ∧
      (wasm.length ≤ lookup.offset → lookup.answer = none ∧ lookup.trace = []) ∧
      (lookup.answer = none → lookup.offset < wasm.length →
        ∃ position amount, (⟨.fill position amount, false⟩ : Event BlockPort) ∈ lookup.trace) := by
  have hall : ∀ lookup ∈ lookups, lookup.Right wasm :=
    Walk.forall_mem (J := fun state => state.1.Coherent base wasm state.2)
      (fun _ _ _ hcoherent hstep => (lookupStep_right hpayload hcoherent hstep).1)
      (fun _ _ _ hcoherent hstep => (lookupStep_right hpayload hcoherent hstep).2)
      hrun (coherent_start base wasm block)
  intro lookup hlookup
  obtain ⟨hserved, hbeyond, hrefused⟩ := hall lookup hlookup
  exact ⟨hserved, hbeyond, hrefused⟩

/-- A failed read that spoils the block, the same offset again, a byte of the cached block
and an offset past the end. -/
theorem block_cache_transparent_failing_first :
    ∃ lookups last, Walk (LookupStep [7, 1, 2, 3]) (.start 1 3, .zero wasmReadBytes) lookups last ∧
      lookups.map (fun lookup => (lookup.offset, lookup.answer)) =
        [(1, none), (1, some 2), (2, some 3), (3, none)] ∧
      ∀ lookup ∈ lookups, ∀ value, lookup.answer = some value →
        [(1 : UInt8), 2, 3][lookup.offset]? = some value := by
  have hpayload : PayloadAt [7, 1, 2, 3] 1 [1, 2, 3] := ⟨by decide, by decide⟩
  let spoilt : Bytes wasmReadBytes := bytesAt [9, 9, 9, 9] 0 wasmReadBytes
  let filled : Bytes wasmReadBytes := bytesAt [1, 2, 3] 0 wasmReadBytes
  have hfailed : LookupStep [7, 1, 2, 3] (.start 1 3, .zero wasmReadBytes)
      ⟨1, [⟨.fill 1 3, false⟩], none⟩ (⟨1, 3, 0, 0, true⟩, spoilt) :=
    .step (fun hfilled => nomatch hfilled) (.stop _ _)
  have hfilled : LookupStep [7, 1, 2, 3] (⟨1, 3, 0, 0, true⟩, spoilt)
      ⟨1, [⟨.fill 1 3, true⟩, ⟨.load 1, 2⟩], some 2⟩ (⟨1, 3, 0, 3, true⟩, filled) :=
    .step (fun _ => by decide) (.step ⟨by decide, rfl⟩ (.stop _ _))
  have hcached : LookupStep [7, 1, 2, 3] (⟨1, 3, 0, 3, true⟩, filled)
      ⟨2, [⟨.load 2, 3⟩], some 3⟩ (⟨1, 3, 0, 3, true⟩, filled) :=
    .step ⟨by decide, rfl⟩ (.stop _ _)
  have hbeyond : LookupStep [7, 1, 2, 3] (⟨1, 3, 0, 3, true⟩, filled) ⟨3, [], none⟩
      (⟨1, 3, 0, 3, true⟩, filled) := .stop _ _
  have hrun : Walk (LookupStep [7, 1, 2, 3]) (.start 1 3, .zero wasmReadBytes) _ _ :=
    .move hfailed (.move hfilled (.move hcached (.move hbeyond (.stay _))))
  exact ⟨_, _, hrun, rfl, fun lookup hlookup =>
    (block_cache_transparent hpayload hrun lookup hlookup).1⟩

/-! ## The cache as a state -/

/-- The reader of the scanner's model holds the cached part of the shared block. -/
structure Views (reader : BlockReader) (block : Bytes wasmReadBytes) (served : WasmReader) :
    Prop where
  base : served.base = reader.base
  size : served.size = reader.size
  start : served.cachedBegin = reader.cachedBegin
  count : served.cachedSize = reader.cachedSize
  flag : served.readFailed = reader.readFailed
  block : served.block.take reader.cachedSize = block.toList.take reader.cachedSize

theorem Views.byteAt_block {served : WasmReader} (hviews : Views reader block served)
    {index : Nat} (hindex : index < reader.cachedSize) :
    Binary.byteAt served.block index = Binary.byteAt block.toList index := by
  rw [Binary.byteAt, Binary.byteAt, List.getD_eq_getElem?_getD, List.getD_eq_getElem?_getD,
    ← List.getElem?_take_of_lt hindex, hviews.block, List.getElem?_take_of_lt hindex]

/-- The condition under which `serveByte` reads. -/
theorem Views.misses_eq {served : WasmReader} (hviews : Views reader block served) (offset : Nat) :
    (served.cachedSize == 0 || offset < served.cachedBegin ||
      offset - served.cachedBegin ≥ served.cachedSize) = reader.misses offset := by
  rw [BlockReader.misses, hviews.start, hviews.count]

/-- Every invocation of `byte_at` is one of `serveByte`, whose reads were answered from
the package. -/
theorem safe_byteAt_serveByte (hpayload : PayloadAt package base wasm)
    (hcoherent : reader.Coherent base wasm block) {served : WasmReader}
    (hviews : Views reader block served) (offset : Nat) :
    (reader.byteAt offset).Safe (blockMemory package) (fun _ _ => True)
      (fun after result => ∃ trace next,
        Exec (World.free ReadPort) (serveByte offset served) () trace (.ret (result.1, next)) () ∧
          Views result.2 after next ∧ AnsweredFrom package trace) block := by
  rw [BlockReader.byteAt, serveByte, hviews.size]
  by_cases hend : offset ≥ reader.size
  · rw [if_pos hend, if_pos hend]
    exact ⟨[], _, .stop _ _, hviews, by rintro _ _ _ ⟨⟩⟩
  rw [if_neg hend, if_neg hend, hviews.misses_eq, BlockReader.refill]
  by_cases hmiss : reader.misses offset = true
  · rw [if_pos hmiss, if_pos hmiss]
    have hoffset : offset < wasm.length := hcoherent.size ▸ Nat.not_le.mp hend
    have hstart : offset / wasmReadBytes * wasmReadBytes ≤ offset := Nat.div_mul_le_self _ _
    have hnext : offset < offset / wasmReadBytes * wasmReadBytes + wasmReadBytes :=
      Nat.lt_div_mul_add (by decide)
    generalize offset / wasmReadBytes * wasmReadBytes = start at hstart hnext ⊢
    have hpart : served.base + start + min wasmReadBytes (reader.size - start) ≤
        package.length := by
      have hbound := hpayload.bound
      rw [hviews.base, hcoherent.base, hcoherent.size]
      omega
    refine And.intro trivial fun filled after hfilled => ?_
    cases filled with
    | true =>
        refine And.intro trivial fun value last hvalue => ?_
        obtain ⟨rfl, rfl⟩ := hvalue
        have hblock := hfilled rfl
        have hheld : offset - start < min wasmReadBytes (reader.size - start) := by
          rw [hcoherent.size]
          omega
        rw [← hviews.base] at hblock
        change ∃ trace next, Exec _ _ _ _ (.ret (some (Binary.byteAt _ (offset - start)), _)) _ ∧ _
        have hbyte : Binary.byteAt last.toList (offset - start) =
            Binary.byteAt (bytesAt package (served.base + start)
              (min wasmReadBytes (reader.size - start))).toList (offset - start) := by
          rw [← hblock, Binary.byteAt, Binary.byteAt, List.getD_eq_getElem?_getD,
            List.getD_eq_getElem?_getD, List.getElem?_take_of_lt hheld]
        rw [hbyte]
        refine ⟨[⟨.read _ _, .ok (bytesAt package _ _)⟩], _, .step trivial (.stop _ _), ?_, ?_⟩
        · refine ⟨hviews.base, rfl, rfl, rfl, hviews.flag, ?_⟩
          rw [hblock]
          exact List.take_of_length_le (Bytes.length_toList _).le
        · intro offset count bytes hevent
          cases List.mem_singleton.mp hevent
          exact ⟨hpart, rfl⟩
    | false =>
        refine ⟨[⟨.read _ _, .failed none⟩], _, .step trivial (.stop _ _), ?_, ?_⟩
        · exact ⟨hviews.base, rfl, hviews.start, rfl, rfl, rfl⟩
        · intro offset count bytes hevent
          cases List.mem_singleton.mp hevent
  · rw [if_neg hmiss, if_neg hmiss]
    change (Program.call _ >>= _).Safe _ _ _ _
    rw [Program.call_bind, Program.safe_ask]
    refine ⟨trivial, fun value after hvalue => ?_⟩
    obtain ⟨rfl, rfl⟩ := hvalue
    simp only [BlockReader.misses, Bool.or_eq_true, beq_iff_eq, decide_eq_true_eq, not_or,
      ge_iff_le, not_le, not_lt] at hmiss
    rw [← hviews.byteAt_block hmiss.2, ← hviews.start]
    exact ⟨[], _, .stop _ _, hviews, by rintro _ _ _ ⟨⟩⟩

end Package
