/-
# Parsers on the bytes that are left

A parser takes bytes from the front and hands the rest back, or fails. Programs read with
a cursor into a buffer instead, each in its own way and with its own checks on the way.
`Follows` says that a function of the cursor finds what a parser finds on the bytes behind
the cursor; it composes along sequences and loops, so that two programs can be compared
through the parsers they follow.
-/

import EspContainer.Wasm.Leb

namespace Wasm

variable {α β σ : Type}

/-- A parser on the bytes that are left. -/
abbrev Parser (α : Type) : Type := StateT (List UInt8) Option α

namespace Parser

/-- One byte. -/
def item : Parser UInt8
  | [] => none
  | byte :: rest => some (byte, rest)

/-- So many bytes. -/
def take (size : Nat) : Parser (List UInt8) := fun bytes =>
  if size ≤ bytes.length then some (bytes.take size, bytes.drop size) else none

/-- An unsigned number of 32 bits. -/
def number : Parser Nat := u32

/-- Bytes behind their number. -/
def sized : Parser (List UInt8) := number >>= take

/-- How many bytes are left. -/
def remaining : Parser Nat := fun bytes => some (bytes.length, bytes)

/-- Something that is there without reading, or not. -/
def given (found : Option α) : Parser α := fun bytes => found.map fun value => (value, bytes)

/-- Go on only if a check passed. -/
def ensure (check : Bool) : Parser Unit := given (if check then some () else none)

/-- Go on only if nothing is left. -/
def ending : Parser Unit := fun bytes => if bytes.length = 0 then some ((), bytes) else none

/-- The same so many times. -/
def times (parser : Parser α) : Nat → Parser (List α)
  | 0 => pure []
  | count + 1 => do
      let value ← parser
      let values ← times parser count
      pure (value :: values)

/-- Items behind their number. -/
def vector (parser : Parser α) : Parser (List α) := number >>= times parser

/-- Items until nothing is left; the argument bounds their number. -/
def many (parser : Parser α) : Nat → Parser (List α)
  | 0 => pure []
  | rounds + 1 => do
      let left ← remaining
      if left = 0 then pure [] else do
        let value ← parser
        let values ← many parser rounds
        pure (value :: values)

/-- What is found if nothing is left. -/
def whole (parser : Parser α) (bytes : List UInt8) : Option α :=
  match parser bytes with
  | some (value, []) => some value
  | _ => none

/-! ## What is found -/

variable {parser : Parser α} {next : α → Parser β} {bytes : List UInt8}

theorem bind_eq (parser : Parser α) (next : α → Parser β) (bytes : List UInt8) :
    (parser >>= next) bytes = (parser bytes).bind fun found => next found.1 found.2 := rfl

theorem bind_eq_some {found : β × List UInt8} :
    (parser >>= next) bytes = some found ↔
      ∃ value rest, parser bytes = some (value, rest) ∧ next value rest = some found := by
  rw [bind_eq, Option.bind_eq_some_iff]
  simp only [Prod.exists]

theorem pure_eq_some {value : α} {found : α × List UInt8} :
    (pure value : Parser α) bytes = some found ↔ found = (value, bytes) := by
  change some (value, bytes) = some found ↔ _
  rw [Option.some.injEq, eq_comm]

theorem given_eq_some {option : Option α} {found : α × List UInt8} :
    given option bytes = some found ↔ option = some found.1 ∧ found.2 = bytes := by
  obtain ⟨value, rest⟩ := found
  cases option with
  | none => simp [given]
  | some other => simp [given, eq_comm]

theorem ensure_eq_some {check : Bool} {found : Unit × List UInt8} :
    ensure check bytes = some found ↔ check = true ∧ found.2 = bytes := by
  rw [ensure, given_eq_some]
  cases check with
  | true => simp
  | false => simp

theorem ending_eq_some {found : Unit × List UInt8} :
    ending bytes = some found ↔ bytes = [] ∧ found.2 = bytes := by
  rw [ending]
  cases bytes with
  | nil => simp [Prod.ext_iff]
  | cons byte bytes => simp

theorem remaining_eq_some {found : Nat × List UInt8} :
    remaining bytes = some found ↔ found = (bytes.length, bytes) := by
  rw [remaining, Option.some.injEq, eq_comm]

theorem item_eq_some {found : UInt8 × List UInt8} :
    item bytes = some found ↔ bytes = found.1 :: found.2 := by
  obtain ⟨value, rest⟩ := found
  cases bytes with
  | nil => simp [item]
  | cons byte bytes => simp [item]

theorem take_eq_some {size : Nat} {found : List UInt8 × List UInt8} :
    take size bytes = some found ↔ found.1.length = size ∧ bytes = found.1 ++ found.2 := by
  obtain ⟨value, rest⟩ := found
  rw [take]
  by_cases hsize : size ≤ bytes.length
  · rw [if_pos hsize, Option.some.injEq, Prod.mk.injEq]
    constructor
    · rintro ⟨rfl, rfl⟩
      exact ⟨List.length_take_of_le hsize, (List.take_append_drop size bytes).symm⟩
    · rintro ⟨rfl, rfl⟩
      exact ⟨List.take_left, List.drop_left⟩
  · rw [if_neg hsize]
    simp only [reduceCtorEq, false_iff, not_and]
    rintro rfl rfl
    exact hsize (by rw [List.length_append]; omega)

theorem times_succ_eq_some {count : Nat} {values : List α} {rest : List UInt8} :
    times parser (count + 1) bytes = some (values, rest) ↔
      ∃ value others middle, values = value :: others ∧ parser bytes = some (value, middle) ∧
        times parser count middle = some (others, rest) := by
  rw [times]
  simp only [bind_eq_some, pure_eq_some, Prod.mk.injEq]
  constructor
  · rintro ⟨value, middle, hvalue, others, _, hothers, rfl, rfl⟩
    exact ⟨value, others, middle, rfl, hvalue, hothers⟩
  · rintro ⟨value, others, middle, rfl, hvalue, hothers⟩
    exact ⟨value, middle, hvalue, others, rest, hothers, rfl, rfl⟩

theorem times_zero_eq_some {values : List α} {rest : List UInt8} :
    times parser 0 bytes = some (values, rest) ↔ values = [] ∧ rest = bytes := by
  rw [times, pure_eq_some, Prod.mk.injEq]

/-- As many as there should be. -/
theorem length_of_times {count : Nat} {values : List α} {rest : List UInt8}
    (htimes : times parser count bytes = some (values, rest)) : values.length = count := by
  induction count generalizing bytes values with
  | zero =>
      obtain ⟨rfl, -⟩ := times_zero_eq_some.mp htimes
      rfl
  | succ count ih =>
      obtain ⟨value, others, middle, rfl, -, hothers⟩ := times_succ_eq_some.mp htimes
      rw [List.length_cons, ih hothers]

theorem many_succ_eq_some {rounds : Nat} {values : List α} {rest : List UInt8} :
    many parser (rounds + 1) bytes = some (values, rest) ↔
      (bytes = [] ∧ values = [] ∧ rest = []) ∨
        bytes ≠ [] ∧ ∃ value others middle, values = value :: others ∧
          parser bytes = some (value, middle) ∧ many parser rounds middle = some (others, rest) := by
  change (if bytes.length = 0 then pure [] else _ : Parser (List α)) bytes = _ ↔ _
  by_cases hempty : bytes = []
  · subst hempty
    rw [List.length_nil, if_pos rfl, pure_eq_some, Prod.mk.injEq]
    simp only [true_and, ne_eq, not_true_eq_false, false_and, or_false]
  · rw [if_neg (fun hlength => hempty (List.length_eq_zero_iff.mp hlength))]
    simp only [bind_eq_some, pure_eq_some, Prod.mk.injEq, hempty, false_and, false_or, ne_eq,
      not_false_eq_true, true_and]
    constructor
    · rintro ⟨value, middle, hvalue, others, _, hothers, rfl, rfl⟩
      exact ⟨value, others, middle, rfl, hvalue, hothers⟩
    · rintro ⟨value, others, middle, rfl, hvalue, hothers⟩
      exact ⟨value, middle, hvalue, others, rest, hothers, rfl, rfl⟩

theorem whole_eq_some {value : α} : whole parser bytes = some value ↔ parser bytes = some (value, []) := by
  rw [whole]
  split
  · next other heq => simp [heq]
  · next hnone =>
    simp only [reduceCtorEq, false_iff]
    exact fun hvalue => hnone value hvalue

theorem whole_bind (parser : Parser α) (next : α → Parser β) (bytes : List UInt8) :
    whole (parser >>= next) bytes = (parser bytes).bind fun found => whole (next found.1) found.2 := by
  rw [whole, bind_eq]
  cases parser bytes with
  | none => rfl
  | some found => rfl

theorem whole_given (found : Option α) (bytes : List UInt8) :
    whole (given found) bytes = if bytes.length = 0 then found else none := by
  cases found with
  | none =>
      rw [ite_self]
      rfl
  | some value =>
      cases bytes with
      | nil => rfl
      | cons byte bytes => rfl

/-- Items that are turned into something else one by one. -/
theorem times_given_eq_some {change : α → Option β} {count : Nat} {results : List β}
    {rest : List UInt8} :
    times (parser >>= fun value => given (change value)) count bytes = some (results, rest) ↔
      ∃ values, times parser count bytes = some (values, rest) ∧
        values.mapM change = some results := by
  induction count generalizing bytes results with
  | zero =>
      rw [times_zero_eq_some]
      constructor
      · rintro ⟨rfl, rfl⟩
        exact ⟨[], times_zero_eq_some.mpr ⟨rfl, rfl⟩, rfl⟩
      · rintro ⟨values, hvalues, hresults⟩
        obtain ⟨rfl, rfl⟩ := times_zero_eq_some.mp hvalues
        cases hresults
        exact ⟨rfl, rfl⟩
  | succ count ih =>
      rw [times_succ_eq_some]
      simp only [bind_eq_some, given_eq_some, ih]
      constructor
      · rintro ⟨_, _, middle, rfl, ⟨value, _, hvalue, hresult, rfl⟩, values, hvalues, hresults⟩
        refine ⟨value :: values, times_succ_eq_some.mpr ⟨_, _, _, rfl, hvalue, hvalues⟩, ?_⟩
        rw [List.mapM_cons, hresult, hresults]
        rfl
      · rintro ⟨values, hvalues, hresults⟩
        obtain ⟨value, others, middle, rfl, hvalue, hothers⟩ := times_succ_eq_some.mp hvalues
        rw [List.mapM_cons] at hresults
        obtain ⟨result, hresult, hrest⟩ := Option.bind_eq_some_iff.mp hresults
        obtain ⟨others', hothers', hpure⟩ := Option.bind_eq_some_iff.mp hrest
        cases hpure
        exact ⟨result, others', middle, rfl, ⟨value, middle, hvalue, hresult, rfl⟩, others, hothers,
          hothers'⟩

/-- A parser that checks its items finds those of the parser that does not. -/
theorem times_ensure_eq_some {check : α → Bool} {count : Nat} {values : List α}
    {rest : List UInt8} :
    times (do
        let value ← parser
        ensure (check value)
        pure value) count bytes = some (values, rest) ↔
      times parser count bytes = some (values, rest) ∧ ∀ value ∈ values, check value = true := by
  induction count generalizing bytes values with
  | zero =>
      rw [times_zero_eq_some, times_zero_eq_some]
      constructor
      · rintro ⟨rfl, rfl⟩
        exact ⟨⟨rfl, rfl⟩, nofun⟩
      · exact And.left
  | succ count ih =>
      rw [times_succ_eq_some, times_succ_eq_some]
      simp only [bind_eq_some, ensure_eq_some, pure_eq_some, Prod.mk.injEq, ih]
      constructor
      · rintro ⟨value, others, middle, rfl, ⟨_, _, hvalue, _, _, ⟨hcheck, rfl⟩, rfl, rfl⟩,
          hothers, hchecks⟩
        exact ⟨⟨_, others, _, rfl, hvalue, hothers⟩, List.forall_mem_cons.mpr ⟨hcheck, hchecks⟩⟩
      · rintro ⟨⟨value, others, middle, rfl, hvalue, hothers⟩, hchecks⟩
        obtain ⟨hcheck, hothersCheck⟩ := List.forall_mem_cons.mp hchecks
        exact ⟨value, others, middle, rfl,
          ⟨value, middle, hvalue, (), middle, ⟨hcheck, rfl⟩, rfl, rfl⟩, hothers, hothersCheck⟩

/-- Nothing is left at the end. -/
theorem ended_eq_some {found : α × List UInt8} :
    (parser >>= fun value => ending >>= fun _ => pure value) bytes = some found ↔
      whole parser bytes = some found.1 ∧ found.2 = [] := by
  obtain ⟨value, rest⟩ := found
  simp only [bind_eq_some, ending_eq_some, pure_eq_some, whole_eq_some, Prod.mk.injEq]
  constructor
  · rintro ⟨_, _, hvalue, _, _, ⟨rfl, rfl⟩, rfl, rfl⟩
    exact ⟨hvalue, rfl⟩
  · rintro ⟨hvalue, rfl⟩
    exact ⟨value, [], hvalue, (), [], ⟨rfl, rfl⟩, rfl, rfl⟩

/-- A check of what was parsed may come before the rest is parsed or after it. -/
theorem given_bind_comm {option : Option β} {parser : Parser α} {next : β → α → Parser σ} :
    (given option >>= fun value => parser >>= next value) =
      parser >>= fun other => given option >>= fun value => next value other := by
  funext bytes
  rw [bind_eq, bind_eq]
  cases option with
  | none =>
      cases hparser : parser bytes with
      | none => rfl
      | some found => rfl
  | some value =>
      change (parser >>= next value) bytes = _
      rw [bind_eq]
      rfl

theorem given_bind (option : Option α) (next : α → Option β) :
    given (option >>= next) = given option >>= fun value => given (next value) := by
  cases option with
  | none => rfl
  | some value => rfl

/-- A check and its result. -/
theorem ensure_pure (check : Bool) (value : α) :
    (ensure check >>= fun _ => pure value) = given (if check then some value else none) := by
  cases check with
  | true => rfl
  | false => rfl

/-- What follows bytes that were taken may know how many they are. -/
theorem take_bind_congr {size : Nat} {first second : List UInt8 → Parser β}
    (hsame : ∀ content, content.length = size → first content = second content) :
    (take size >>= first) = take size >>= second := by
  funext bytes
  rw [bind_eq, bind_eq]
  cases htake : take size bytes with
  | none => rfl
  | some found =>
      obtain ⟨hsize, -⟩ := take_eq_some.mp htake
      exact congrFun (hsame found.1 hsize) found.2

/-- Bytes that are taken need no check that they are there. -/
theorem remaining_take {size : Nat} {rest : List UInt8 → Parser β} :
    (remaining >>= fun left => ensure (!decide (size > left)) >>= fun _ => take size >>= rest) =
      take size >>= rest := by
  funext bytes
  change (ensure (!decide (size > bytes.length)) >>= fun _ => take size >>= rest) bytes = _
  by_cases hsize : size ≤ bytes.length
  · rw [decide_eq_false (Nat.not_lt.mpr hsize)]
    rfl
  · rw [decide_eq_true (Nat.not_le.mp hsize), bind_eq (take size), take, if_neg hsize]
    rfl

/-- Single bytes one after the other. -/
theorem times_item (count : Nat) : times item count = take count := by
  induction count with
  | zero => rfl
  | succ count ih =>
      rw [times, ih]
      funext bytes
      cases bytes with
      | nil => rfl
      | cons byte bytes =>
          change (take count >>= fun values => pure (byte :: values)) bytes = _
          rw [bind_eq, take, take, List.length_cons]
          by_cases hcount : count ≤ bytes.length
          · rw [if_pos hcount, if_pos (Nat.succ_le_succ hcount)]
            rfl
          · rw [if_neg hcount, if_neg fun hle => hcount (Nat.le_of_succ_le_succ hle)]
            rfl

/-! ## Progress -/

/-- What is left is the end of what was there. -/
def Shrinks (parser : Parser α) : Prop :=
  ∀ bytes found, parser bytes = some found → found.2 <:+ bytes

/-- At least one byte is taken. -/
def Takes (parser : Parser α) : Prop :=
  ∀ bytes found, parser bytes = some found → found.2.length < bytes.length

theorem shrinks_pure (value : α) : Shrinks (pure value) := by
  intro bytes found hfound
  exact ⟨[], congrArg Prod.snd (pure_eq_some.mp hfound)⟩

theorem Shrinks.bind (hparser : Shrinks parser) (hnext : ∀ value, Shrinks (next value)) :
    Shrinks (parser >>= next) := by
  intro bytes found hfound
  obtain ⟨value, rest, hvalue, hrest⟩ := bind_eq_some.mp hfound
  exact (hnext value rest found hrest).trans (hparser bytes _ hvalue)

theorem shrinks_item : Shrinks item := by
  intro bytes found hfound
  rw [item_eq_some.mp hfound]
  exact List.suffix_cons _ _

theorem shrinks_take (size : Nat) : Shrinks (take size) := by
  intro bytes found hfound
  obtain ⟨-, hbytes⟩ := take_eq_some.mp hfound
  rw [hbytes]
  exact List.suffix_append _ _

theorem shrinks_number : Shrinks number := by
  intro bytes ⟨value, rest⟩ hfound
  obtain ⟨octets, -, rfl, -⟩ := u32_eq_some.mp hfound
  exact List.suffix_append _ _

theorem shrinks_given (option : Option α) : Shrinks (given option) := by
  intro bytes found hfound
  exact ⟨[], (given_eq_some.mp hfound).2⟩

theorem shrinks_remaining : Shrinks remaining := by
  intro bytes found hfound
  exact ⟨[], congrArg Prod.snd (remaining_eq_some.mp hfound)⟩

theorem shrinks_ending : Shrinks ending := by
  intro bytes found hfound
  exact ⟨[], (ending_eq_some.mp hfound).2⟩

theorem shrinks_times (hparser : Shrinks parser) (count : Nat) : Shrinks (times parser count) := by
  induction count with
  | zero => exact shrinks_pure []
  | succ count ih => exact hparser.bind fun value => ih.bind fun values => shrinks_pure _

theorem takes_item : Takes item := by
  intro bytes found hfound
  rw [item_eq_some.mp hfound]
  exact Nat.lt_succ_self _

theorem takes_number : Takes number := by
  intro bytes ⟨value, rest⟩ hfound
  obtain ⟨octets, hoctets, rfl, -⟩ := u32_eq_some.mp hfound
  have hpos := hoctets.nonempty
  change rest.length < (octets ++ rest).length
  rw [List.length_append]
  omega

theorem Takes.bind (hparser : Takes parser) (hnext : ∀ value, Shrinks (next value)) :
    Takes (parser >>= next) := by
  intro bytes found hfound
  obtain ⟨value, rest, hvalue, hrest⟩ := bind_eq_some.mp hfound
  exact (hnext value rest found hrest).length_le.trans_lt (hparser bytes _ hvalue)

/-- There are no more items than bytes. -/
theorem Takes.times_le (hparser : Takes parser) {count : Nat} {values : List α}
    {rest : List UInt8} (htimes : times parser count bytes = some (values, rest)) :
    count + rest.length ≤ bytes.length := by
  induction count generalizing bytes values with
  | zero =>
      obtain ⟨-, rfl⟩ := times_zero_eq_some.mp htimes
      rw [Nat.zero_add]
  | succ count ih =>
      obtain ⟨value, others, middle, rfl, hvalue, hothers⟩ := times_succ_eq_some.mp htimes
      have hfirst := hparser _ _ hvalue
      have hothers := ih hothers
      simp only at hfirst
      omega

theorem shrinks_many (hparser : Shrinks parser) (rounds : Nat) : Shrinks (many parser rounds) := by
  induction rounds with
  | zero => exact shrinks_pure []
  | succ rounds ih =>
      apply shrinks_remaining.bind
      intro left
      split
      · exact shrinks_pure []
      · exact hparser.bind fun value => ih.bind fun values => shrinks_pure _

/-- With a round for each byte no round is missing. -/
theorem Takes.many_eq (hparser : Takes parser) {rounds : Nat} (hrounds : bytes.length ≤ rounds) :
    many parser rounds bytes = many parser bytes.length bytes := by
  suffices hmany : ∀ first second, bytes.length ≤ first → bytes.length ≤ second →
      many parser first bytes = many parser second bytes from
    hmany rounds bytes.length hrounds (Nat.le_refl _)
  clear hrounds
  intro first
  induction first generalizing bytes with
  | zero =>
      intro second hfirst _
      obtain rfl : bytes = [] := List.length_eq_zero_iff.mp (Nat.le_zero.mp hfirst)
      cases second with
      | zero => rfl
      | succ second => rfl
  | succ first ih =>
      intro second hfirst hsecond
      cases second with
      | zero =>
          obtain rfl : bytes = [] := List.length_eq_zero_iff.mp (Nat.le_zero.mp hsecond)
          rfl
      | succ second =>
          change (if bytes.length = 0 then pure [] else _ : Parser (List α)) bytes =
            (if bytes.length = 0 then pure [] else _ : Parser (List α)) bytes
          by_cases hempty : bytes.length = 0
          · rw [if_pos hempty, if_pos hempty]
          · rw [if_neg hempty, if_neg hempty, bind_eq, bind_eq]
            cases hvalue : parser bytes with
            | none => rfl
            | some found =>
                have hless := hparser _ _ hvalue
                change (many parser first >>= _) found.2 = (many parser second >>= _) found.2
                rw [bind_eq, bind_eq, ih second (by omega) (by omega)]

/-! ## Vectors that fill their bytes -/

theorem whole_vector_eq_some {values : List α} :
    whole (vector parser) bytes = some values ↔
      ∃ count rest, number bytes = some (count, rest) ∧
        times parser count rest = some (values, []) := by
  rw [whole_eq_some, vector, bind_eq_some]

/-- A program may compare the declared number of items with the bytes that are left. Where
each item takes a byte, this refuses nothing. -/
theorem bounded_vector_eq_some (hparser : Takes parser) {found : List α × List UInt8} :
    (do
      let count ← number
      let left ← remaining
      ensure (!decide (count > left))
      let values ← times parser count
      ending
      pure values : Parser (List α)) bytes = some found ↔
      whole (vector parser) bytes = some found.1 ∧ found.2 = [] := by
  obtain ⟨values, rest⟩ := found
  rw [whole_vector_eq_some]
  simp only [bind_eq_some, remaining_eq_some, ensure_eq_some, ending_eq_some, pure_eq_some,
    Prod.mk.injEq]
  constructor
  · rintro ⟨count, middle, hcount, _, _, ⟨rfl, rfl⟩, _, _, ⟨-, rfl⟩, _, _, hvalues, _, _,
      ⟨rfl, rfl⟩, rfl, rfl⟩
    exact ⟨⟨count, _, hcount, hvalues⟩, rfl⟩
  · rintro ⟨⟨count, middle, hcount, hvalues⟩, rfl⟩
    have hbound := hparser.times_le hvalues
    refine ⟨count, middle, hcount, _, _, ⟨rfl, rfl⟩, (), _, ⟨?_, rfl⟩, values, [], hvalues, (), [],
      ⟨rfl, rfl⟩, rfl, rfl⟩
    simp only [List.length_nil, Nat.add_zero] at hbound
    simpa using hbound

/-- A vector of a known length whose items change a state one after the other. -/
theorem folded_vector_eq_some {count : Nat} {change : σ → α → Option σ} {state : σ}
    {found : σ × List UInt8} :
    (do
      let declared ← number
      ensure (!(declared != count))
      let values ← times parser count
      let last ← given (values.foldlM change state)
      ending
      pure last : Parser σ) bytes = some found ↔
      (∃ values, whole (vector parser) bytes = some values ∧ values.length = count ∧
        values.foldlM change state = some found.1) ∧ found.2 = [] := by
  obtain ⟨last, rest⟩ := found
  simp only [whole_vector_eq_some, bind_eq_some, ensure_eq_some, given_eq_some, ending_eq_some,
    pure_eq_some, Prod.mk.injEq]
  constructor
  · rintro ⟨declared, middle, hdeclared, _, _, ⟨hequal, rfl⟩, values, _, hvalues, _, _,
      ⟨hfold, rfl⟩, _, _, ⟨rfl, rfl⟩, rfl, rfl⟩
    have hequal : declared = count := by simpa using hequal
    subst hequal
    exact ⟨⟨values, ⟨declared, _, hdeclared, hvalues⟩, length_of_times hvalues, hfold⟩, rfl⟩
  · rintro ⟨⟨values, ⟨declared, middle, hdeclared, hvalues⟩, rfl, hfold⟩, rfl⟩
    have hequal := length_of_times hvalues
    subst hequal
    exact ⟨_, middle, hdeclared, (), middle, ⟨by simp, rfl⟩, values, [], hvalues, last, [],
      ⟨hfold, rfl⟩, (), [], ⟨rfl, rfl⟩, rfl, rfl⟩

/-- The same with any number of items. -/
theorem gathered_vector_eq_some {change : σ → α → Option σ} {state : σ} {found : σ × List UInt8} :
    (do
      let count ← number
      let values ← times parser count
      let last ← given (values.foldlM change state)
      ending
      pure last : Parser σ) bytes = some found ↔
      (∃ values, whole (vector parser) bytes = some values ∧
        values.foldlM change state = some found.1) ∧ found.2 = [] := by
  obtain ⟨last, rest⟩ := found
  simp only [whole_vector_eq_some, bind_eq_some, given_eq_some, ending_eq_some, pure_eq_some,
    Prod.mk.injEq]
  constructor
  · rintro ⟨count, middle, hcount, values, _, hvalues, _, _, ⟨hfold, rfl⟩, _, _, ⟨rfl, rfl⟩, rfl, rfl⟩
    exact ⟨⟨values, ⟨count, middle, hcount, hvalues⟩, hfold⟩, rfl⟩
  · rintro ⟨⟨values, ⟨count, middle, hcount, hvalues⟩, hfold⟩, rfl⟩
    exact ⟨count, middle, hcount, values, [], hvalues, last, [], ⟨hfold, rfl⟩, (), [], ⟨rfl, rfl⟩,
      rfl, rfl⟩

/-- The items of a vector may be checked one by one. -/
theorem whole_vector_ensure {check : α → Bool} {values : List α} :
    whole (vector (do
        let value ← parser
        ensure (check value)
        pure value)) bytes = some values ↔
      whole (vector parser) bytes = some values ∧ ∀ value ∈ values, check value = true := by
  simp only [whole_vector_eq_some, times_ensure_eq_some]
  constructor
  · rintro ⟨count, rest, hcount, hvalues, hchecks⟩
    exact ⟨⟨count, rest, hcount, hvalues⟩, hchecks⟩
  · rintro ⟨⟨count, rest, hcount, hvalues⟩, hchecks⟩
    exact ⟨count, rest, hcount, hvalues, hchecks⟩

end Parser

/-! ## Functions of a cursor -/

/-- A function of the cursor finds what a parser finds on the bytes behind it, and moves the
cursor behind what was parsed. -/
structure Follows (data : List UInt8) (reader : Nat → Option (α × Nat)) (parser : Parser α) :
    Prop where
  shrinks : parser.Shrinks
  found : ∀ cursor ≤ data.length, reader cursor =
    (parser (data.drop cursor)).map fun found => (found.1, data.length - found.2.length)

variable {data : List UInt8} {reader : Nat → Option (α × Nat)} {parser : Parser α}

/-- The rule of sequence. -/
theorem Follows.bind {next : α → Nat → Option (β × Nat)} {nextParser : α → Parser β}
    (hreader : Follows data reader parser) (hnext : ∀ value, Follows data (next value) (nextParser value)) :
    Follows data (fun cursor => (reader cursor).bind fun found => next found.1 found.2)
      (parser >>= nextParser) where
  shrinks := hreader.shrinks.bind fun value => (hnext value).shrinks
  found := by
    intro cursor hcursor
    rw [hreader.found cursor hcursor, Parser.bind_eq]
    cases hparser : parser (data.drop cursor) with
    | none => rfl
    | some found =>
        obtain ⟨value, rest⟩ := found
        have hsuffix : rest <:+ data :=
          (hreader.shrinks _ _ hparser).trans (List.drop_suffix cursor data)
        change next value (data.length - rest.length) = (nextParser value rest).map _
        rw [(hnext value).found _ (Nat.sub_le _ _), ← List.suffix_iff_eq_drop.mp hsuffix]

theorem follows_pure (value : α) : Follows data (fun cursor => some (value, cursor)) (pure value) where
  shrinks := Parser.shrinks_pure value
  found := by
    intro cursor hcursor
    change _ = some (value, data.length - (data.drop cursor).length)
    rw [List.length_drop, Nat.sub_sub_self hcursor]

/-- What is not read does not move the cursor. -/
theorem follows_given (option : Option α) :
    Follows data (fun cursor => option.map fun value => (value, cursor)) (Parser.given option) where
  shrinks := Parser.shrinks_given option
  found := by
    intro cursor hcursor
    rw [Parser.given, Option.map_map]
    congr 1
    funext value
    simp only [Function.comp_apply]
    rw [List.length_drop, Nat.sub_sub_self hcursor]

/-- What is left is all that a function may ask about its cursor. -/
theorem follows_remaining {next : Nat → Nat → Option (β × Nat)} {nextParser : Nat → Parser β}
    (hnext : ∀ left, Follows data (next left) (nextParser left)) :
    Follows data (fun cursor => next (data.length - cursor) cursor)
      (Parser.remaining >>= nextParser) where
  shrinks := Parser.shrinks_remaining.bind fun left => (hnext left).shrinks
  found := by
    intro cursor hcursor
    change next (data.length - cursor) cursor =
      (nextParser (data.drop cursor).length (data.drop cursor)).map _
    rw [(hnext _).found cursor hcursor, List.length_drop]

/-- Bytes may be skipped once it is known that they are there, and looked at later. -/
theorem follows_take {size : Nat} {next : List UInt8 → Nat → Option (β × Nat)}
    {nextParser : List UInt8 → Parser β} {reader : Nat → Option (β × Nat)}
    (hshort : ∀ cursor ≤ data.length, data.length - cursor < size → reader cursor = none)
    (hlong : ∀ cursor, cursor + size ≤ data.length →
      reader cursor = next ((data.drop cursor).take size) (cursor + size))
    (hnext : ∀ content, Follows data (next content) (nextParser content)) :
    Follows data reader (Parser.take size >>= nextParser) where
  shrinks := (Parser.shrinks_take size).bind fun content => (hnext content).shrinks
  found := by
    intro cursor hcursor
    rw [Parser.bind_eq, Parser.take, List.length_drop]
    by_cases hsize : size ≤ data.length - cursor
    · rw [if_pos hsize, hlong cursor (by omega)]
      change _ = (nextParser _ ((data.drop cursor).drop size)).map _
      rw [(hnext _).found _ (by omega), List.drop_drop]
    · rw [if_neg hsize, hshort cursor hcursor (Nat.not_le.mp hsize)]
      rfl

theorem follows_item :
    Follows data (fun cursor => data[cursor]?.map fun value => (value, cursor + 1)) Parser.item where
  shrinks := Parser.shrinks_item
  found := by
    intro cursor hcursor
    by_cases hlt : cursor < data.length
    · rw [List.getElem?_eq_getElem hlt, List.drop_eq_getElem_cons hlt]
      change some (data[cursor], cursor + 1) =
        some (data[cursor], data.length - (data.drop (cursor + 1)).length)
      rw [List.length_drop]
      congr 2
      omega
    · rw [List.getElem?_eq_none (Nat.not_lt.mp hlt), List.drop_of_length_le (Nat.not_lt.mp hlt)]
      rfl

theorem follows_number : Follows data (readAt data) Parser.number where
  shrinks := Parser.shrinks_number
  found := by
    intro cursor _
    rfl

/-- Functions that find the same follow the same parsers. -/
theorem Follows.congr {other : Nat → Option (α × Nat)} (hreader : Follows data reader parser)
    (hsame : ∀ cursor ≤ data.length, other cursor = reader cursor) : Follows data other parser where
  shrinks := hreader.shrinks
  found := by
    intro cursor hcursor
    rw [hsame cursor hcursor, hreader.found cursor hcursor]

/-- What a function finds from the beginning. -/
theorem Follows.from_start (hreader : Follows data reader parser) :
    (reader 0).map Prod.fst = (parser data).map Prod.fst := by
  rw [hreader.found 0 (Nat.zero_le _), List.drop_zero, Option.map_map]
  rfl

end Wasm
