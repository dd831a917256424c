/-
# Programs with a cursor

A scanner in C hands its cursor from step to step: each step gets the cursor and returns
what it found and the cursor behind it. `Tracks` says of such a step, when its calls are
answered in one way, that it follows a parser. The rules below take a program apart along
its sequences, its checks and its counted loops.
-/

import EspContainer.Interaction.Fallible
import EspContainer.Wasm.Module

namespace Wasm

open Interaction

variable {I : Interface} {ε α β σ : Type} {answers : (request : I.Call) → I.Answer request}
  {data : List UInt8}

/-- What a step finds at a cursor. -/
def ranAt (answers : (request : I.Call) → I.Answer request) (step : Nat → Fallible I ε (α × Nat))
    (cursor : Nat) : Option (α × Nat) :=
  (Fallible.eval answers (step cursor)).toOption

theorem ranAt_eq_some {step : Nat → Fallible I ε (α × Nat)} {cursor : Nat} {found : α × Nat} :
    ranAt answers step cursor = some found ↔ Fallible.eval answers (step cursor) = .ok found := by
  rw [ranAt]
  cases Fallible.eval answers (step cursor) with
  | error error => simp [Except.toOption]
  | ok other => simp [Except.toOption]

theorem ranAt_bind (step : Nat → Fallible I ε (α × Nat)) (next : α × Nat → Fallible I ε (β × Nat)) :
    ranAt answers (fun cursor => step cursor >>= next) =
      fun cursor => (ranAt answers step cursor).bind fun found =>
        ranAt answers (fun after => next (found.1, after)) found.2 := by
  funext cursor
  rw [ranAt, ranAt, Fallible.eval_bind]
  cases Fallible.eval answers (step cursor) with
  | error error => rfl
  | ok found => rfl

/-- What a sequence finds, whatever the errors are. -/
theorem toOption_bind (found : Except ε α) (next : α → Except ε β) :
    (found >>= next).toOption = found.toOption.bind fun value => (next value).toOption := by
  cases found with
  | error error => rfl
  | ok value => rfl

/-- A step that follows a parser. -/
def Tracks (answers : (request : I.Call) → I.Answer request) (data : List UInt8)
    (step : Nat → Fallible I ε (α × Nat)) (parser : Parser α) : Prop :=
  Follows data (ranAt answers step) parser

section

variable {step : Nat → Fallible I ε (α × Nat)} {parser : Parser α}

/-- The rule of sequence. -/
theorem Tracks.bind {next : α × Nat → Fallible I ε (β × Nat)} {nextParser : α → Parser β}
    (hstep : Tracks answers data step parser)
    (hnext : ∀ value, Tracks answers data (fun cursor => next (value, cursor)) (nextParser value)) :
    Tracks answers data (fun cursor => step cursor >>= next) (parser >>= nextParser) := by
  rw [Tracks, ranAt_bind]
  exact @Follows.bind _ _ data _ _ (fun value => ranAt answers fun after => next (value, after)) _
    hstep hnext

theorem tracks_pure (value : α) :
    Tracks answers data (fun cursor => (pure (value, cursor) : Fallible I ε (α × Nat)))
      (pure value) :=
  follows_pure value

theorem tracks_throw (error : ε) :
    Tracks answers data (fun _ => (throw error : Fallible I ε (α × Nat))) (Parser.given none) :=
  follows_given none

/-- A check before the rest. -/
theorem Tracks.require {check : Bool} {error : ε} (hstep : Tracks answers data step parser) :
    Tracks answers data (fun cursor => Fallible.require check error >>= fun _ => step cursor)
      (Parser.ensure check >>= fun _ => parser) := by
  cases check with
  | true => exact hstep
  | false => exact follows_given none

/-- A step that needs no cursor. -/
theorem Tracks.after {inner : Fallible I ε β} {next : β → Nat → Fallible I ε (α × Nat)}
    {nextParser : β → Parser α} (hnext : ∀ value, Tracks answers data (next value) (nextParser value)) :
    Tracks answers data (fun cursor => inner >>= fun value => next value cursor)
      (Parser.given (Fallible.eval answers inner).toOption >>= nextParser) := by
  have hran : ranAt answers (fun cursor => inner >>= fun value => next value cursor) =
      fun cursor => ((Fallible.eval answers inner).toOption).bind fun value =>
        ranAt answers (next value) cursor := by
    funext cursor
    rw [ranAt, Fallible.eval_bind]
    cases Fallible.eval answers inner with
    | error error => rfl
    | ok value => rfl
  rw [Tracks, hran]
  cases (Fallible.eval answers inner).toOption with
  | none => exact follows_given none
  | some value => exact hnext value

/-- A question about what is left. -/
theorem tracks_remaining {next : Nat → Nat → Fallible I ε (β × Nat)} {nextParser : Nat → Parser β}
    (hnext : ∀ left, Tracks answers data (next left) (nextParser left)) :
    Tracks answers data (fun cursor => next (data.length - cursor) cursor)
      (Parser.remaining >>= nextParser) :=
  follows_remaining hnext

/-- Bytes are skipped once it is checked that they are there. -/
theorem tracks_take {size stop : Nat} {error : ε} {behind : Nat → Fallible I ε (β × Nat)}
    {next : List UInt8 → Nat → Fallible I ε (β × Nat)} {nextParser : List UInt8 → Parser β}
    (hstop : data.length = stop)
    (hbehind : ∀ cursor, cursor + size ≤ stop → Fallible.eval answers (behind cursor) =
      Fallible.eval answers (next ((data.drop cursor).take size) (cursor + size)))
    (hnext : ∀ content, Tracks answers data (next content) (nextParser content)) :
    Tracks answers data
      (fun cursor => Fallible.require (!(size > stop - cursor)) error >>= fun _ => behind cursor)
      (Parser.take size >>= nextParser) := by
  subst hstop
  apply @follows_take _ _ size fun content => ranAt answers (next content)
  · intro cursor _ hshort
    rw [ranAt, decide_eq_true hshort]
    rfl
  · intro cursor hlong
    have hfits : ¬ size > data.length - cursor := by omega
    rw [ranAt, decide_eq_false hfits]
    exact congrArg Except.toOption (hbehind cursor hlong)
  · exact hnext

end

/-! ## The end -/

/-- A step that returns no cursor finds what is there as a whole. -/
def Ends (answers : (request : I.Call) → I.Answer request) (data : List UInt8)
    (step : Nat → Fallible I ε α) (parser : Parser α) : Prop :=
  ∀ cursor ≤ data.length, (Fallible.eval answers (step cursor)).toOption =
    Parser.whole parser (data.drop cursor)

section

variable {parser : Parser α}

/-- What follows a step begins behind what was parsed. -/
theorem Tracks.eval_bind {step : Nat → Fallible I ε (α × Nat)}
    (hstep : Tracks answers data step parser) {cursor : Nat} (hcursor : cursor ≤ data.length)
    (next : α × Nat → Fallible I ε β) :
    (Fallible.eval answers (step cursor >>= next)).toOption =
      (parser (data.drop cursor)).bind fun found =>
        (Fallible.eval answers (next (found.1, data.length - found.2.length))).toOption := by
  have hfound := hstep.found cursor hcursor
  rw [ranAt] at hfound
  rw [Fallible.eval_bind]
  cases hparser : parser (data.drop cursor) with
  | none =>
      rw [hparser] at hfound
      cases hstepped : Fallible.eval answers (step cursor) with
      | error error => rfl
      | ok found =>
          rw [hstepped] at hfound
          cases hfound
  | some found =>
      rw [hparser] at hfound
      cases hstepped : Fallible.eval answers (step cursor) with
      | error error =>
          rw [hstepped] at hfound
          cases hfound
      | ok stepped =>
          rw [hstepped] at hfound
          obtain rfl : stepped = (found.1, data.length - found.2.length) := Option.some.inj hfound
          rfl

/-- The rule of sequence. -/
theorem Tracks.bind_ends {step : Nat → Fallible I ε (α × Nat)} {next : α × Nat → Fallible I ε β}
    {nextParser : α → Parser β} (hstep : Tracks answers data step parser)
    (hnext : ∀ value, Ends answers data (fun cursor => next (value, cursor)) (nextParser value)) :
    Ends answers data (fun cursor => step cursor >>= next) (parser >>= nextParser) := by
  intro cursor hcursor
  rw [hstep.eval_bind hcursor, Parser.whole_bind]
  cases hparser : parser (data.drop cursor) with
  | none => rfl
  | some found =>
      obtain ⟨value, rest⟩ := found
      have hsuffix : rest <:+ data :=
        (hstep.shrinks _ _ hparser).trans (List.drop_suffix cursor data)
      have hrest := hnext value (data.length - rest.length) (Nat.sub_le _ _)
      rw [← List.suffix_iff_eq_drop.mp hsuffix] at hrest
      exact hrest

/-- A check before the rest. -/
theorem Ends.require {step : Nat → Fallible I ε α} {check : Bool} {error : ε}
    (hstep : Ends answers data step parser) :
    Ends answers data (fun cursor => Fallible.require check error >>= fun _ => step cursor)
      (Parser.ensure check >>= fun _ => parser) := by
  cases check with
  | true => exact hstep
  | false => exact fun _ _ => rfl

/-- A question about what is left. -/
theorem ends_remaining {next : Nat → Nat → Fallible I ε α} {nextParser : Nat → Parser α}
    (hnext : ∀ left, Ends answers data (next left) (nextParser left)) :
    Ends answers data (fun cursor => next (data.length - cursor) cursor)
      (Parser.remaining >>= nextParser) := by
  intro cursor hcursor
  rw [hnext _ cursor hcursor, Parser.whole_bind]
  change _ = Parser.whole (nextParser (data.drop cursor).length) (data.drop cursor)
  rw [List.length_drop]

/-- The last check, that nothing is left and what else there is to check. -/
theorem ends_require {check : Bool} {error : ε} {stop : Nat} (hstop : data.length = stop) :
    Ends answers data (fun cursor => Fallible.require (check && cursor == stop) error)
      (Parser.ensure check) := by
  intro cursor hcursor
  subst hstop
  rw [Fallible.eval_require, Parser.ensure, Parser.whole_given, List.length_drop]
  by_cases hend : cursor = data.length
  · subst hend
    rw [beq_self_eq_true, Bool.and_true, Nat.sub_self, if_pos rfl]
    cases check <;> rfl
  · have hleft : data.length - cursor ≠ 0 := by omega
    rw [beq_eq_false_iff_ne.mpr hend, Bool.and_false, if_neg hleft]
    rfl

/-- What is returned after the last check. -/
theorem Ends.returning {step : Nat → Fallible I ε Unit} {parser : Parser Unit}
    (hstep : Ends answers data step parser) (value : α) :
    Ends answers data (fun cursor => step cursor >>= fun _ => pure value)
      (parser >>= fun _ => pure value) := by
  intro cursor hcursor
  have hfound := hstep cursor hcursor
  rw [Fallible.eval_bind, Parser.whole_bind]
  rw [Parser.whole] at hfound
  cases hparser : parser (data.drop cursor) with
  | none =>
      rw [hparser] at hfound
      cases hstepped : Fallible.eval answers (step cursor) with
      | error error => rfl
      | ok found =>
          rw [hstepped] at hfound
          cases hfound
  | some found =>
      obtain ⟨⟨⟩, rest⟩ := found
      rw [hparser] at hfound
      cases rest with
      | nil =>
          cases hstepped : Fallible.eval answers (step cursor) with
          | error error =>
              rw [hstepped] at hfound
              cases hfound
          | ok found => rfl
      | cons byte rest =>
          cases hstepped : Fallible.eval answers (step cursor) with
          | error error => rfl
          | ok found =>
              rw [hstepped] at hfound
              cases hfound

/-- A result of the step is what there is as a whole. -/
theorem Ends.eq_ok {step : Nat → Fallible I ε α} (hstep : Ends answers data step parser)
    {cursor : Nat} (hcursor : cursor ≤ data.length) {value : α} :
    Fallible.eval answers (step cursor) = .ok value ↔
      Parser.whole parser (data.drop cursor) = some value := by
  rw [← hstep cursor hcursor]
  cases Fallible.eval answers (step cursor) with
  | error error => simp [Except.toOption]
  | ok found => simp [Except.toOption]

end

/-! ## Steps that only move the cursor -/

/-- A step that returns the cursor alone. -/
def Moves (answers : (request : I.Call) → I.Answer request) (data : List UInt8)
    (step : Nat → Fallible I ε Nat) (parser : Parser Unit) : Prop :=
  Tracks answers data (fun cursor => step cursor >>= fun after => pure ((), after)) parser

/-- The rule of sequence. -/
theorem Tracks.bind_moves {step : Nat → Fallible I ε (α × Nat)} {parser : Parser α}
    {next : α × Nat → Fallible I ε Nat} {nextParser : α → Parser Unit}
    (hstep : Tracks answers data step parser)
    (hnext : ∀ value, Moves answers data (fun cursor => next (value, cursor)) (nextParser value)) :
    Moves answers data (fun cursor => step cursor >>= next) (parser >>= nextParser) := by
  simp only [Moves, bind_assoc]
  exact hstep.bind hnext

theorem Moves.bind {step next : Nat → Fallible I ε Nat} {parser nextParser : Parser Unit}
    (hstep : Moves answers data step parser) (hnext : Moves answers data next nextParser) :
    Moves answers data (fun cursor => step cursor >>= next) (parser >>= fun _ => nextParser) := by
  have hboth := @Tracks.bind _ _ _ _ _ _ _ _ (fun found : Unit × Nat =>
    next found.2 >>= fun after => pure ((), after)) _ hstep fun _ => hnext
  simp only [bind_assoc, pure_bind] at hboth
  simp only [Moves, bind_assoc]
  exact hboth

theorem Moves.bind_ends {step : Nat → Fallible I ε Nat} {parser : Parser Unit}
    {next : Nat → Fallible I ε β} {nextParser : Parser β} (hstep : Moves answers data step parser)
    (hnext : Ends answers data next nextParser) :
    Ends answers data (fun cursor => step cursor >>= next) (parser >>= fun _ => nextParser) := by
  have hboth := @Tracks.bind_ends _ _ _ _ _ _ _ _ (fun found : Unit × Nat => next found.2) _ hstep
    fun _ => hnext
  simp only [bind_assoc, pure_bind] at hboth
  exact hboth

/-- A check before the rest. -/
theorem Moves.require {step : Nat → Fallible I ε Nat} {parser : Parser Unit} {check : Bool}
    {error : ε} (hstep : Moves answers data step parser) :
    Moves answers data (fun cursor => Fallible.require check error >>= fun _ => step cursor)
      (Parser.ensure check >>= fun _ => parser) := by
  simp only [Moves, bind_assoc]
  exact Tracks.require hstep

/-- A part of the bytes before an end. -/
theorem take_drop_take {stop cursor size : Nat} (hpart : cursor + size ≤ stop) :
    ((data.take stop).drop cursor).take size = (data.drop cursor).take size := by
  rw [List.drop_take, List.take_take, Nat.min_eq_left (by omega)]

/-! ## Sections -/

/-- Where the content of a section lies. -/
theorem place_of_sectionEntry {cursor : Nat} {number : UInt8} {content rest : List UInt8}
    (hentry : Parser.sectionEntry (data.drop cursor) = some ((number, content), rest)) :
    ∃ start, start + content.length + rest.length = data.length ∧
      (data.take (start + content.length)).drop start = content ∧
      data.drop (start + content.length) = rest := by
  obtain ⟨before, hbefore⟩ :=
    (Parser.suffix_of_sectionEntry hentry).trans (List.drop_suffix cursor data)
  refine ⟨before.length, ?_, ?_, ?_⟩
  · rw [← hbefore, List.length_append, List.length_append, Nat.add_assoc]
  · rw [← hbefore, ← List.append_assoc, ← List.length_append, List.take_left, List.drop_left]
  · rw [← hbefore, ← List.append_assoc, ← List.length_append, List.drop_left]

/-- What follows the number and the length of a section. -/
theorem eval_sectionHead {byteStep : Nat → Fallible I ε (UInt8 × Nat)}
    {numberStep : Nat → Fallible I ε (Nat × Nat)} {error : ε}
    (hbyte : Tracks answers data byteStep Parser.item)
    (hnumber : Tracks answers data numberStep Parser.number) {cursor : Nat}
    (hcursor : cursor ≤ data.length) (next : UInt8 → Nat → Nat → Fallible I ε β) :
    (Fallible.eval answers (do
      let (number, cursor) ← byteStep cursor
      let (length, cursor) ← numberStep cursor
      Fallible.require (!(length > data.length - cursor)) error
      next number length cursor)).toOption =
      (Parser.sectionEntry (data.drop cursor)).bind fun found =>
        (Fallible.eval answers (next found.1.1 found.1.2.length
          (data.length - found.2.length - found.1.2.length))).toOption := by
  rw [hbyte.eval_bind hcursor, Parser.sectionEntry, Parser.bind_eq, Option.bind_assoc]
  refine Option.bind_congr fun found hfound => ?_
  obtain ⟨number, behind⟩ := found
  have hbehind : behind <:+ data :=
    (Parser.shrinks_item _ _ hfound).trans (List.drop_suffix cursor data)
  dsimp only
  rw [hnumber.eval_bind (Nat.sub_le _ _), ← List.suffix_iff_eq_drop.mp hbehind, Parser.sized,
    bind_assoc, Parser.bind_eq, Option.bind_assoc]
  refine Option.bind_congr fun found hfound => ?_
  obtain ⟨length, middle⟩ := found
  have hmiddle : middle.length ≤ data.length :=
    ((Parser.shrinks_number _ _ hfound).trans hbehind).length_le
  have hleft : data.length - (data.length - middle.length) = middle.length := by omega
  dsimp only
  rw [hleft, Fallible.eval_bind, Fallible.eval_require, Parser.bind_eq, Parser.take]
  by_cases hsize : length ≤ middle.length
  · rw [if_pos hsize, if_pos (by rw [decide_eq_false (Nat.not_lt.mpr hsize)]; rfl)]
    change _ = (Fallible.eval answers (next number (middle.take length).length
      (data.length - (middle.drop length).length - (middle.take length).length))).toOption
    have hplace : data.length - (middle.length - length) - length = data.length - middle.length := by
      omega
    rw [List.length_take_of_le hsize, List.length_drop, hplace]
    rfl
  · rw [if_neg hsize, if_neg (by rw [decide_eq_true (Nat.not_le.mp hsize)]; exact Bool.false_ne_true)]
    rfl

/-! ## Counted loops -/

/-- A fold whose steps are numbered and may fail. -/
def foldFrom (change : Nat → σ → α → Option σ) : Nat → σ → List α → Option σ
  | _, state, [] => some state
  | index, state, value :: values =>
      (change index state value).bind fun next => foldFrom change (index + 1) next values

/-- A fold over one item and the rest. -/
theorem bind_cons_foldlM (change : σ → α → Option σ) (state : σ) (value : α)
    (parser : Parser (List α)) (bytes : List UInt8) :
    ((parser >>= fun values => pure (value :: values)) bytes).bind (fun found =>
        found.1.foldlM change state) =
      (change state value).bind fun next => (parser bytes).bind fun found =>
        found.1.foldlM change next := by
  rw [Parser.bind_eq]
  cases parser bytes with
  | none =>
      cases change state value with
      | none => rfl
      | some next => rfl
  | some found => rfl

/-- Steps that do not look at their number. -/
theorem foldFrom_const (change : σ → α → Option σ) (index : Nat) (state : σ) (values : List α) :
    foldFrom (fun _ => change) index state values = values.foldlM change state := by
  induction values generalizing index state with
  | nil => rfl
  | cons value values ih =>
      rw [foldFrom, List.foldlM_cons]
      exact congrArg _ (funext fun next => ih (index + 1) next)

/-- A fold over a view of the state, when every step changes the view as it changes the state. -/
theorem foldlM_view {τ : Type} {view : σ → τ} {step : σ → α → Option σ} {change : τ → α → Option τ}
    (hstep : ∀ state value, change (view state) value = (step state value).map view) (state : σ)
    (values : List α) :
    values.foldlM change (view state) = (values.foldlM step state).map view := by
  induction values generalizing state with
  | nil => rfl
  | cons value values ih =>
      rw [List.foldlM_cons, List.foldlM_cons, hstep]
      cases step state value with
      | none => rfl
      | some next => exact ih next

/-- What every step of a fold keeps. -/
theorem foldlM_keeps {step : σ → α → Option σ} {kept : σ → Prop}
    (hstep : ∀ state value next, kept state → step state value = some next → kept next)
    {values : List α} {state last : σ} (hstate : kept state)
    (hfold : values.foldlM step state = some last) : kept last := by
  induction values generalizing state with
  | nil =>
      cases hfold
      exact hstate
  | cons value values ih =>
      rw [List.foldlM_cons] at hfold
      obtain ⟨next, hnext, hrest⟩ := Option.bind_eq_some_iff.mp hfold
      exact ih (hstep state value next hstate hnext) hrest

/-- A step of a fold that only checks. -/
def checking (check : α → Bool) (_ : Unit) (value : α) : Option Unit :=
  if check value then some () else none

theorem of_checking {check : α → Bool} {state next : Unit} {value : α}
    (hchecked : checking check state value = some next) : check value = true := by
  rw [checking] at hchecked
  split at hchecked
  · assumption
  · cases hchecked

theorem foldlM_checking {check : α → Bool} {values : List α} :
    values.foldlM (checking check) () = some () ↔ ∀ value ∈ values, check value = true := by
  induction values with
  | nil => exact iff_of_true rfl nofun
  | cons value values ih =>
      rw [List.foldlM_cons, checking, List.forall_mem_cons]
      by_cases hcheck : check value = true
      · rw [if_pos hcheck, ← ih]
        exact ⟨fun hrest => ⟨hcheck, hrest⟩, And.right⟩
      · rw [if_neg hcheck]
        exact iff_of_false nofun fun hall => hcheck hall.1

/-- Check every item and keep something of the wanted one. -/
def selecting (check : α → Bool) (pick : α → β) (wanted index : Nat) (kept : β) (value : α) :
    Option β :=
  if check value then some (if index == wanted then pick value else kept) else none

/-- What is kept in the end. -/
theorem foldFrom_selecting {check : α → Bool} {pick : α → β} {wanted : Nat} {kept found : β}
    {values : List α} :
    foldFrom (selecting check pick wanted) 0 kept values = some found ↔
      (∀ value ∈ values, check value = true) ∧ found = (values[wanted]?.map pick).getD kept := by
  suffices hfold : ∀ index kept, foldFrom (selecting check pick wanted) index kept values = some found ↔
      (∀ value ∈ values, check value = true) ∧
        found = if index ≤ wanted then (values[wanted - index]?.map pick).getD kept else kept by
    have hstart := hfold 0 kept
    rwa [if_pos (Nat.zero_le wanted), Nat.sub_zero] at hstart
  induction values with
  | nil =>
      intro index kept
      have hkept : (if index ≤ wanted then (([] : List α)[wanted - index]?.map pick).getD kept
          else kept) = kept := ite_self kept
      rw [hkept]
      change some kept = some found ↔ _
      rw [Option.some.injEq]
      constructor
      · intro hsame
        exact ⟨nofun, hsame.symm⟩
      · intro hall
        exact hall.2.symm
  | cons value values ih =>
      intro index kept
      rw [foldFrom, selecting, List.forall_mem_cons]
      by_cases hcheck : check value = true
      · rw [if_pos hcheck, Option.bind_some, ih]
        have hkept : (if index + 1 ≤ wanted then (values[wanted - (index + 1)]?.map pick).getD
              (if index == wanted then pick value else kept)
            else (if index == wanted then pick value else kept)) =
            if index ≤ wanted then (((value :: values)[wanted - index]?).map pick).getD kept
            else kept := by
          rcases Nat.lt_trichotomy index wanted with hlt | rfl | hlt
          · have hother : ¬ (index == wanted) = true := by
              rw [beq_iff_eq]
              exact hlt.ne
            have hplace : wanted - index = wanted - (index + 1) + 1 := by omega
            rw [if_neg hother, if_pos (Nat.succ_le_of_lt hlt), if_pos hlt.le, hplace,
              List.getElem?_cons_succ]
          · rw [if_neg (Nat.not_succ_le_self index), if_pos (Nat.le_refl index), beq_self_eq_true,
              Nat.sub_self]
            rfl
          · have hother : ¬ (index == wanted) = true := by
              rw [beq_iff_eq]
              exact hlt.ne'
            have hbefore : ¬ index + 1 ≤ wanted := by omega
            rw [if_neg hother, if_neg hbefore, if_neg (Nat.not_le.mpr hlt)]
        rw [hkept]
        simp [hcheck]
      · rw [if_neg hcheck]
        exact iff_of_false nofun fun hall => hcheck hall.1.1

/-- A counted loop whose body parses an item and then changes its variables. -/
theorem tracks_counted {body : Nat → σ × Nat → Fallible I ε (σ × Nat)} {parser : Parser α}
    {change : Nat → σ → α → Option σ}
    (hbody : ∀ index state, Tracks answers data (fun cursor => body index (state, cursor))
      (parser >>= fun value => Parser.given (change index state value)))
    (count : Nat) (state : σ) :
    Tracks answers data (fun cursor => Fallible.counted count body (state, cursor))
      (Parser.times parser count >>= fun values => Parser.given (foldFrom change 0 state values)) := by
  suffices hloop : ∀ index state,
      Tracks answers data (fun cursor => Fallible.countedLoop body count index (state, cursor))
        (Parser.times parser count >>= fun values =>
          Parser.given (foldFrom change index state values)) from
    hloop 0 state
  induction count with
  | zero => exact fun index state => tracks_pure state
  | succ count ih =>
      intro index state
      have hrounds := @Tracks.bind _ _ _ _ _ _ _ _
        (fun found => Fallible.countedLoop body count (index + 1) found) _ (hbody index state)
        fun next => ih (index + 1) next
      have hparser : (parser >>= fun value => Parser.given (change index state value)) >>= (fun next =>
            Parser.times parser count >>= fun values =>
              Parser.given (foldFrom change (index + 1) next values)) =
          Parser.times parser (count + 1) >>= fun values =>
            Parser.given (foldFrom change index state values) := by
        rw [Parser.times, bind_assoc, bind_assoc]
        refine bind_congr fun value => ?_
        rw [Parser.given_bind_comm, bind_assoc]
        refine bind_congr fun values => ?_
        rw [pure_bind, foldFrom]
        exact (Parser.given_bind (change index state value) _).symm
      rw [← hparser]
      exact hrounds

/-- A counted loop that only moves the cursor. -/
theorem moves_counted {body : Nat → Nat → Fallible I ε Nat} {parser : Parser α}
    {change : Unit → α → Option Unit}
    (hbody : ∀ index, Moves answers data (body index)
      (parser >>= fun value => Parser.given (change () value)))
    (count : Nat) :
    Moves answers data (fun cursor => Fallible.counted count body cursor)
      (Parser.times parser count >>= fun values => Parser.given (values.foldlM change ())) := by
  suffices hloop : ∀ index, Moves answers data
      (fun cursor => Fallible.countedLoop body count index cursor)
      (Parser.times parser count >>= fun values => Parser.given (values.foldlM change ())) from
    hloop 0
  induction count with
  | zero => exact fun index => tracks_pure ()
  | succ count ih =>
      intro index
      have hrounds := (hbody index).bind (ih (index + 1))
      have hparser : (parser >>= fun value => Parser.given (change () value)) >>= (fun _ =>
            Parser.times parser count >>= fun values => Parser.given (values.foldlM change ())) =
          Parser.times parser (count + 1) >>= fun values =>
            Parser.given (values.foldlM change ()) := by
        rw [Parser.times, bind_assoc, bind_assoc]
        refine bind_congr fun value => ?_
        rw [Parser.given_bind_comm, bind_assoc]
        refine bind_congr fun values => ?_
        rw [pure_bind, List.foldlM_cons]
        exact (Parser.given_bind (change () value) _).symm
      rw [← hparser]
      exact hrounds

/-- A comparison that reads byte after byte. -/
theorem eval_compare {read : Nat → Fallible I ε UInt8}
    (hread : ∀ index < data.length, Fallible.eval answers (read index) = .ok (data.getD index 0))
    (expected : List UInt8) {cursor : Nat} (hbound : cursor + expected.length ≤ data.length) :
    Fallible.eval answers (Fallible.counted expected.length
        (fun index same => do
          let byte ← read (cursor + index)
          pure (same && byte == expected.getD index 0))
        true) =
      .ok ((data.drop cursor).take expected.length == expected) := by
  suffices hloop : ∀ rounds index same, index + rounds = expected.length →
      Fallible.eval answers (Fallible.countedLoop
          (fun index same => do
            let byte ← read (cursor + index)
            pure (same && byte == expected.getD index 0))
          rounds index same) =
        .ok (same && (data.drop (cursor + index)).take rounds == expected.drop index) from
    hloop expected.length 0 true (Nat.zero_add _)
  intro rounds
  induction rounds with
  | zero =>
      intro index same hindex
      have hrest : expected.drop index = [] := List.drop_of_length_le (by omega)
      rw [hrest, List.take_zero, beq_self_eq_true, Bool.and_true]
      rfl
  | succ rounds ih =>
      intro index same hindex
      have hplace : cursor + index < data.length := by omega
      have hexpected : index < expected.length := by omega
      rw [Fallible.countedLoop, Fallible.eval_bind, Fallible.eval_bind, hread _ hplace]
      change Fallible.eval answers (Fallible.countedLoop _ rounds (index + 1) _) = _
      rw [ih _ _ (by omega), List.drop_eq_getElem_cons hplace, List.take_succ_cons,
        List.drop_eq_getElem_cons hexpected, List.cons_beq_cons, List.getD_eq_getElem _ _ hplace,
        List.getD_eq_getElem _ _ hexpected, Bool.and_assoc]
      rfl

/-- A check of the first bytes, one after another. -/
theorem eval_demandBytes {read : Nat → Fallible I ε UInt8} {error : ε}
    (hread : ∀ index, (Fallible.eval answers (read index)).toOption = data[index]?)
    (expected : List UInt8) :
    (Fallible.eval answers (Fallible.counted expected.length
        (fun index _ => do
          let byte ← read index
          Fallible.require (byte == expected.getD index 0) error)
        ())).toOption =
      if expected.isPrefixOf data then some () else none := by
  suffices hloop : ∀ rounds index, index + rounds = expected.length →
      (Fallible.eval answers (Fallible.countedLoop
          (fun index _ => do
            let byte ← read index
            Fallible.require (byte == expected.getD index 0) error)
          rounds index ())).toOption =
        if (expected.drop index).isPrefixOf (data.drop index) then some () else none from
    hloop expected.length 0 (Nat.zero_add _)
  intro rounds
  induction rounds with
  | zero =>
      intro index hindex
      have hrest : expected.drop index = [] := List.drop_of_length_le (by omega)
      rw [hrest, List.isPrefixOf_nil_left]
      rfl
  | succ rounds ih =>
      intro index hindex
      have hexpected : index < expected.length := by omega
      rw [Fallible.countedLoop, Fallible.eval_bind, Fallible.eval_bind, toOption_bind, toOption_bind,
        hread, List.drop_eq_getElem_cons hexpected]
      by_cases hplace : index < data.length
      · rw [List.getElem?_eq_getElem hplace, List.drop_eq_getElem_cons hplace,
          List.isPrefixOf_cons_cons, Option.bind_some, Fallible.eval_require,
          List.getD_eq_getElem _ _ hexpected]
        have hsame : (data[index] == expected[index]) = (expected[index] == data[index]) :=
          Bool.beq_comm
        rw [hsame]
        cases expected[index] == data[index] with
        | true => exact ih (index + 1) (by omega)
        | false => rfl
      · rw [List.getElem?_eq_none (Nat.not_lt.mp hplace), List.drop_of_length_le (Nat.not_lt.mp hplace)]
        rfl

end Wasm
