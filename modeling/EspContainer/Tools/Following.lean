/-
# Readers follow parsers

Both tools read with a cursor and check on the way. Each step of a reader follows a parser
of the bytes that are left, so that what a function of a tool accepts can be said without
its reader. A loop that changes variables follows the parser of its items, with the changes
made afterwards.
-/

import EspContainer.Tools.Readers
import EspContainer.Wasm.Parser

namespace Tools

open Binary Package Wasm

variable {α β σ τ : Type} {data : List UInt8}

/-- What a step finds at an offset. -/
def ran (step : Reads α) (offset : Nat) : Option (α × Nat) := (step offset).toOption

theorem ran_bind (step : Reads α) (next : α → Reads β) :
    ran (step >>= next) = fun offset => (ran step offset).bind fun found => ran (next found.1) found.2 := by
  funext offset
  change (step offset >>= fun found => next found.1 found.2).toOption = _
  rw [ran]
  cases step offset with
  | error reason => rfl
  | ok found => rfl

/-- A step of a reader that follows a parser. -/
def Obeys (data : List UInt8) (step : Reads α) (parser : Parser α) : Prop :=
  Follows data (ran step) parser

/-- The rule of sequence. -/
theorem Obeys.bind {step : Reads α} {next : α → Reads β} {parser : Parser α}
    {nextParser : α → Parser β} (hstep : Obeys data step parser)
    (hnext : ∀ value, Obeys data (next value) (nextParser value)) :
    Obeys data (step >>= next) (parser >>= nextParser) := by
  rw [Obeys, ran_bind]
  exact Follows.bind hstep hnext

theorem obeys_pure (value : α) : Obeys data (pure value) (pure value) := follows_pure value

theorem obeys_lift (step : Checked α) :
    Obeys data (StateT.lift step) (Parser.given step.toOption) := by
  have hran : ran (StateT.lift step : Reads α) =
      fun offset => step.toOption.map fun value => (value, offset) := by
    funext offset
    cases step with
    | error reason => rfl
    | ok value => rfl
  rw [Obeys, hran]
  exact follows_given _

theorem obeys_refuseWhen (condition : Bool) (reason : String) :
    Obeys data (refuseWhen condition reason) (Parser.ensure (!condition)) := by
  have hran : ran (refuseWhen condition reason) =
      fun offset => (if (!condition) = true then some () else none).map fun value => (value, offset) := by
    funext offset
    cases condition with
    | true => rfl
    | false => rfl
  rw [Obeys, hran]
  exact follows_given _

/-- What is left is all that a step may ask about its offset. -/
theorem obeys_left {next : Nat → Reads β} {nextParser : Nat → Parser β}
    (hnext : ∀ left, Obeys data (next left) (nextParser left)) :
    Obeys data (get >>= fun offset => next (data.length - offset))
      (Parser.remaining >>= nextParser) where
  shrinks := Parser.shrinks_remaining.bind fun left => (hnext left).shrinks
  found := by
    intro offset hoffset
    change ran (next (data.length - offset)) offset =
      (nextParser (data.drop offset).length (data.drop offset)).map _
    rw [(hnext _).found offset hoffset, List.length_drop]

/-- The end of the data. -/
theorem obeys_finish {reason : String} :
    Obeys data
      (do
        let offset ← get
        refuseWhen (offset != data.length) reason)
      Parser.ending where
  shrinks := Parser.shrinks_ending
  found := by
    intro offset hoffset
    change (refuseWhen (offset != data.length) reason offset).toOption = _
    rw [Parser.ending, List.length_drop]
    by_cases hend : offset = data.length
    · rw [if_pos (by omega), hend, bne_self_eq_false]
      change some ((), data.length) = some ((), data.length - (data.drop data.length).length)
      rw [List.drop_length, List.length_nil, Nat.sub_zero]
    · rw [if_neg (by omega), bne_iff_ne.mpr hend]
      rfl

/-! ## Loops -/

theorem obeys_collected {step : Reads α} {parser : Parser α} (hstep : Obeys data step parser)
    (count : Nat) : Obeys data (collected step count) (Parser.times parser count) := by
  induction count with
  | zero => exact obeys_pure []
  | succ count ih => exact hstep.bind fun value => ih.bind fun values => obeys_pure _

/-- A loop whose body parses an item and then changes its variables. -/
theorem obeys_repeated {body : σ → Reads σ} {parser : Parser α} {change : σ → α → Option σ}
    (hbody : ∀ state, Obeys data (body state)
      (parser >>= fun value => Parser.given (change state value)))
    (count : Nat) (state : σ) :
    Obeys data (repeated body count state)
      (Parser.times parser count >>= fun values => Parser.given (values.foldlM change state)) := by
  induction count generalizing state with
  | zero => exact obeys_pure state
  | succ count ih =>
      have hrounds := (hbody state).bind fun next => ih next
      have hparser : (parser >>= fun value => Parser.given (change state value)) >>= (fun next =>
            Parser.times parser count >>= fun values => Parser.given (values.foldlM change next)) =
          Parser.times parser (count + 1) >>= fun values =>
            Parser.given (values.foldlM change state) := by
        rw [Parser.times, bind_assoc, bind_assoc]
        refine bind_congr fun value => ?_
        rw [Parser.given_bind_comm, bind_assoc]
        refine bind_congr fun values => ?_
        rw [pure_bind, List.foldlM_cons, Parser.given_bind]
      rw [← hparser]
      exact hrounds

/-- A loop to the end of the data, with enough rounds. -/
theorem obeys_untilEnd {body : σ → Reads σ} {parser : Parser α} {change : σ → α → Option σ}
    (hbody : ∀ state, Obeys data (body state)
      (parser >>= fun value => Parser.given (change state value)))
    (rounds : Nat) (state : σ) :
    Obeys data (untilEnd data body rounds state)
      (Parser.many parser rounds >>= fun values => Parser.given (values.foldlM change state)) := by
  induction rounds generalizing state with
  | zero => exact obeys_pure state
  | succ rounds ih =>
      let round : Nat → Reads σ := fun left =>
        if left = 0 then pure state else body state >>= untilEnd data body rounds
      have hloop : untilEnd data body (rounds + 1) state =
          get >>= fun offset => round (data.length - offset) := by
        rw [untilEnd]
        refine bind_congr fun offset => ?_
        by_cases hend : offset < data.length
        · rw [if_pos hend]
          exact (if_neg (Nat.sub_ne_zero_of_lt hend)).symm
        · rw [if_neg hend]
          exact (if_pos (Nat.sub_eq_zero_of_le (Nat.not_lt.mp hend))).symm
      rw [hloop, Parser.many, bind_assoc]
      refine @obeys_left _ _ round _ fun left => ?_
      change Obeys data (if left = 0 then _ else _) _
      by_cases hleft : left = 0
      · rw [if_pos hleft, if_pos hleft]
        exact obeys_pure state
      · rw [if_neg hleft, if_neg hleft, bind_assoc]
        have hrounds := (hbody state).bind fun next => ih next
        rw [bind_assoc] at hrounds
        convert hrounds using 3 with value
        rw [Parser.given_bind_comm, bind_assoc]
        refine bind_congr fun values => ?_
        rw [pure_bind, List.foldlM_cons, Parser.given_bind]

/-! ## The readers -/

/-- `_wasm_u32` with any end. -/
theorem wasmU32Loop_eq_ok {stop rounds index result offset : Nat} {found : Nat × Nat} :
    wasmU32Loop data stop rounds index result offset = .ok found ↔
      accumulate (data.take stop) rounds index result offset = some found := by
  induction rounds generalizing index result offset with
  | zero => simp [wasmU32Loop, accumulate]
  | succ rounds ih =>
      rw [wasmU32Loop]
      by_cases hoffset : offset < stop
      · rw [show decide (offset ≥ stop) = false from decide_eq_false (Nat.not_le.mpr hoffset)]
        cases hoctet : data[offset]? with
        | none =>
            have hnone : (data.take stop)[offset]? = none := by
              rw [List.getElem?_take, if_pos hoffset, hoctet]
            rw [accumulate_of_none hnone]
            simp [itemAt, hoctet]
        | some octet =>
            have hsome : (data.take stop)[offset]? = some octet := by
              rw [List.getElem?_take, if_pos hoffset, hoctet]
            rw [accumulate_of_some hsome]
            have hitem : itemAt data offset = .ok octet := by rw [itemAt, hoctet]
            rw [hitem]
            change (refuseIf (index == 4 && octet &&& 0xf0 != 0) _ >>= fun _ => _) = _ ↔ _
            cases hfifth : index == 4 && octet &&& 0xf0 != 0 with
            | true => exact iff_of_false (by simp) (by simp)
            | false =>
                rw [if_neg Bool.false_ne_true]
                change (if _ then _ else _) = _ ↔ (if _ then _ else _) = _
                by_cases hend : (octet &&& 0x80 == 0) = true
                · rw [if_pos hend, if_pos hend, checked_pure_eq_ok, Option.some.injEq]
                · rw [if_neg hend, if_neg hend]
                  exact ih
      · have hnone : (data.take stop)[offset]? = none := by rw [List.getElem?_take, if_neg hoffset]
        rw [accumulate_of_none hnone]
        simp [Nat.not_lt.mp hoffset]

/-- `_wasm_u32`. -/
theorem wasmU32_eq_ok {offset stop : Nat} {found : Nat × Nat} :
    wasmU32 data offset stop = .ok found ↔ readAt (data.take stop) offset = some found := by
  rw [wasmU32, wasmU32Loop_eq_ok, accumulate_eq_readAt]

/-- `Reader.u32` reads to the end of its data. -/
theorem guestU32Loop_eq_ok {rounds index value offset : Nat} {found : Nat × Nat} :
    GuestReader.u32Loop data rounds (7 * index) value offset = .ok found ↔
      accumulate data rounds index value offset = some found := by
  induction rounds generalizing index value offset with
  | zero => simp [GuestReader.u32Loop, accumulate, refuse]
  | succ rounds ih =>
      have hshift : (7 * index == 28) = (index == 4) := by
        rw [Bool.eq_iff_iff, beq_iff_eq, beq_iff_eq]
        omega
      rw [GuestReader.u32Loop]
      cases hoctet : data[offset]? with
      | none =>
          rw [accumulate_of_none hoctet, reads_bind_eq_ok]
          simp [GuestReader.byte_eq_ok, hoctet]
      | some octet =>
          rw [accumulate_of_some hoctet,
            reads_bind_of_ok (GuestReader.byte_eq_ok.mpr ⟨hoctet, rfl⟩)]
          change (refuseWhen (7 * index == 28 && octet &&& 0xf0 != 0) _ >>= _) (offset + 1) = _ ↔ _
          rw [hshift]
          cases hfifth : index == 4 && octet &&& 0xf0 != 0 with
          | true => exact iff_of_false (by rintro ⟨⟩) (by simp)
          | false =>
              rw [if_neg Bool.false_ne_true]
              change (if _ then _ else _ : Reads Nat) (offset + 1) = _ ↔ (if _ then _ else _) = _
              by_cases hend : (octet &&& 0x80 == 0) = true
              · rw [if_pos hend, if_pos hend, reads_pure_eq_ok, Option.some.injEq, eq_comm]
              · rw [if_neg hend, if_neg hend, ← Nat.mul_succ]
                exact ih

theorem guestU32_eq_ok {offset : Nat} {found : Nat × Nat} :
    GuestReader.u32 data offset = .ok found ↔ readAt data offset = some found := by
  rw [← accumulate_eq_readAt]
  exact @guestU32Loop_eq_ok data 5 0 0 offset found

/-! ### The methods follow the parsers -/

/-- A step that raises or returns, compared with what there is to find. -/
theorem toOption_eq_of_iff {ε : Type} {step : Except ε α} {option : Option α}
    (hstep : ∀ value, step = .ok value ↔ option = some value) : step.toOption = option := by
  cases step with
  | error reason =>
      cases option with
      | none => rfl
      | some value => exact absurd ((hstep value).mpr rfl) nofun
  | ok value => exact ((hstep value).mp rfl).symm

/-- Taking bytes, with either tool's text. -/
theorem obeys_take (reason : String) (size : Nat) :
    Obeys data
      (do
        let offset ← get
        refuseWhen (size > data.length - offset) reason
        set (offset + size)
        pure (slice data offset (offset + size)))
      (Parser.take size) where
  shrinks := Parser.shrinks_take size
  found := by
    intro offset hoffset
    change ((refuseWhen (size > data.length - offset) reason >>= fun _ => set (offset + size) >>=
      fun _ => pure (slice data offset (offset + size)) : Reads _) offset).toOption = _
    rw [Parser.take, List.length_drop]
    by_cases hsize : size ≤ data.length - offset
    · rw [if_pos hsize, decide_eq_false (Nat.not_lt.mpr hsize)]
      change some (slice data offset (offset + size), offset + size) = some (_, _)
      rw [slice, Nat.add_sub_cancel_left, List.drop_drop, List.length_drop]
      congr 2
      omega
    · rw [if_neg hsize, decide_eq_true (Nat.not_le.mp hsize)]
      rfl

theorem obeys_packageU32 : Obeys data (PackageReader.u32 data) Parser.number where
  shrinks := Parser.shrinks_number
  found := by
    intro offset hoffset
    apply toOption_eq_of_iff
    intro found
    change wasmU32 data offset data.length = .ok found ↔ readAt data offset = some found
    rw [wasmU32_eq_ok, List.take_length]

theorem obeys_packageTake (size : Nat) :
    Obeys data (PackageReader.take data size) (Parser.take size) :=
  obeys_take _ size

theorem obeys_packageTakeSized : Obeys data (PackageReader.takeSized data) Parser.sized :=
  obeys_packageU32.bind obeys_packageTake

theorem obeys_packageByte : Obeys data (PackageReader.byte data) Parser.item := by
  have hparser : (Parser.take 1 >>= fun value => Parser.given (itemAt value 0).toOption) =
      Parser.item := by
    funext bytes
    cases bytes with
    | nil => rfl
    | cons byte bytes => rfl
  rw [← hparser]
  exact (obeys_packageTake 1).bind fun _ => obeys_lift _

theorem obeys_packageLeft : Obeys data (PackageReader.left data) Parser.remaining := by
  have hleft := @obeys_left _ data (fun left => pure left) _ fun left => obeys_pure left
  rwa [bind_pure] at hleft

theorem obeys_packageFinish : Obeys data (PackageReader.finish data) Parser.ending := obeys_finish

theorem obeys_guestU32 : Obeys data (GuestReader.u32 data) Parser.number where
  shrinks := Parser.shrinks_number
  found := by
    intro offset hoffset
    apply toOption_eq_of_iff
    intro found
    exact guestU32_eq_ok

theorem obeys_guestTake (size : Nat) : Obeys data (GuestReader.take data size) (Parser.take size) :=
  obeys_take _ size

theorem obeys_guestTakeSized : Obeys data (GuestReader.takeSized data) Parser.sized :=
  obeys_guestU32.bind obeys_guestTake

theorem obeys_guestByte : Obeys data (GuestReader.byte data) Parser.item where
  shrinks := Parser.shrinks_item
  found := by
    intro offset hoffset
    apply toOption_eq_of_iff
    intro ⟨value, next⟩
    rw [GuestReader.byte_eq_ok, Option.map_eq_some_iff]
    simp only [Parser.item_eq_some, Prod.mk.injEq, Prod.exists]
    constructor
    · rintro ⟨hvalue, rfl⟩
      obtain ⟨hlt, rfl⟩ := List.getElem?_eq_some_iff.mp hvalue
      refine ⟨_, _, List.drop_eq_getElem_cons hlt, rfl, ?_⟩
      rw [List.length_drop]
      omega
    · rintro ⟨_, rest, hdrop, rfl, rfl⟩
      have hlength := congrArg List.length hdrop
      rw [List.length_drop, List.length_cons] at hlength
      have hhead := congrArg (·[0]?) hdrop
      rw [List.getElem?_drop] at hhead
      exact ⟨hhead, by omega⟩

theorem obeys_guestName :
    Obeys data (GuestReader.name data)
      (Parser.sized >>= fun bytes => Parser.given (GuestReader.decodeUtf8 bytes).toOption) :=
  obeys_guestTakeSized.bind fun _ => obeys_lift _

theorem obeys_guestFinish : Obeys data (GuestReader.finish data) Parser.ending := obeys_finish

/-- What a function returns that reads from the beginning of its data. -/
theorem Obeys.run_eq_ok {step : Reads α} {parser : Parser α} (hstep : Obeys data step parser)
    {value : α} : Reads.run step = .ok value ↔ ∃ rest, parser data = some (value, rest) := by
  have hstart := hstep.from_start
  have hrun : (Reads.run step).toOption = (ran step 0).map Prod.fst := by
    rw [Reads.run, ran]
    cases step 0 with
    | error reason => rfl
    | ok found => rfl
  rw [← hrun] at hstart
  have hvalue : Reads.run step = .ok value ↔ (Reads.run step).toOption = some value := by
    cases Reads.run step with
    | error reason => simp [Except.toOption]
    | ok other => simp [Except.toOption]
  rw [hvalue, hstart, Option.map_eq_some_iff]
  simp

end Tools
