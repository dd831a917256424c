/-
# Scanners over a byte string

A hand-written scanner walks a byte string with a cursor and fails at the first
byte it does not like. Here it is a function from a cursor to a value and the
cursor after it.

`Recognizes` ties a scanner to the language it reads: the text it takes, the
value it gives, the position it starts at, and the bytes that follow, since a
scanner may look at the byte that ends it. The rules are one for each way of
building a scanner, each an equivalence, so a scanner's language is computed
from its text.
-/

import EspContainer.Binary.Bytes

namespace Text

variable {α β : Type}

/-- A position in a byte string and the bytes from there on. -/
structure Cursor where
  position : Nat
  rest : List UInt8

/-- A scanner: a value and the cursor behind it, or failure. -/
abbrev Parser (α : Type) : Type := StateT Cursor Option α

/-- What a scanner reads: the position, the text, the bytes that follow, the value. -/
abbrev Language (α : Type) : Type := Nat → List UInt8 → List UInt8 → α → Prop

namespace Parser

/-- Fail. -/
def reject : Parser α := fun _ => none

/-- Go on only if a check passed. -/
def guard (check : Bool) : Parser Unit := if check then pure () else reject

/-- The position of the cursor. -/
def position : Parser Nat := fun cursor => some (cursor.position, cursor)

/-- Take exactly this text. -/
def literal (text : List UInt8) : Parser Unit := fun cursor =>
  if text.isPrefixOf cursor.rest then
    some ((), ⟨cursor.position + text.length, cursor.rest.drop text.length⟩)
  else
    none

/-- Take this text and go on one way, or leave it and go on the other way. -/
def either (text : List UInt8) (found missing : Parser α) : Parser α := fun cursor =>
  match literal text cursor with
  | some (_, behind) => found behind
  | none => missing cursor

end Parser

/-- The scanner reads exactly the texts of the language. -/
def Recognizes (parser : Parser α) (language : Language α) : Prop :=
  ∀ start input value behind rest,
    parser ⟨start, input⟩ = some (value, ⟨behind, rest⟩) ↔
      ∃ text, input = text ++ rest ∧ behind = start + text.length ∧
        language start text rest value

namespace Recognizes

theorem congr {parser : Parser α} {first second : Language α} (hfirst : Recognizes parser first)
    (heq : ∀ start text rest value, first start text rest value ↔ second start text rest value) :
    Recognizes parser second := by
  intro start input value behind rest
  rw [hfirst]
  simp only [heq]

theorem reject : Recognizes (Parser.reject : Parser α) fun _ _ _ _ => False := by
  intro start input value behind rest
  simp [Parser.reject]

theorem pure (value : α) :
    Recognizes (Pure.pure value : Parser α) fun _ text _ result => text = [] ∧ result = value := by
  intro start input result behind rest
  change some (value, _) = some (result, _) ↔ _
  simp only [Option.some.injEq, Prod.mk.injEq, Cursor.mk.injEq]
  constructor
  · rintro ⟨rfl, rfl, rfl⟩
    exact ⟨[], rfl, rfl, rfl, rfl⟩
  · rintro ⟨_, rfl, rfl, rfl, rfl⟩
    exact ⟨rfl, rfl, rfl⟩

theorem position :
    Recognizes Parser.position fun start text _ result => text = [] ∧ result = start := by
  intro start input result behind rest
  simp only [Parser.position, Option.some.injEq, Prod.mk.injEq, Cursor.mk.injEq]
  constructor
  · rintro ⟨rfl, rfl, rfl⟩
    exact ⟨[], rfl, rfl, rfl, rfl⟩
  · rintro ⟨_, rfl, rfl, rfl, rfl⟩
    exact ⟨rfl, rfl, rfl⟩

theorem guard (check : Bool) :
    Recognizes (Parser.guard check) fun _ text _ _ => text = [] ∧ check = true := by
  cases check with
  | true => exact (pure ()).congr fun _ _ _ _ => by simp
  | false => exact reject.congr fun _ _ _ _ => by simp

theorem literal (text : List UInt8) :
    Recognizes (Parser.literal text) fun _ read _ _ => read = text := by
  intro start input value behind rest
  simp only [Parser.literal, Option.ite_none_right_eq_some, List.isPrefixOf_iff_prefix,
    Option.some.injEq, Prod.mk.injEq, Cursor.mk.injEq, true_and]
  constructor
  · rintro ⟨⟨suffix, rfl⟩, rfl, rfl⟩
    exact ⟨text, by simp, rfl, rfl⟩
  · rintro ⟨_, rfl, rfl, rfl⟩
    exact ⟨⟨rest, rfl⟩, rfl, by simp⟩

theorem bind {parser : Parser α} {next : α → Parser β} {first : Language α}
    {second : α → Language β} (hparser : Recognizes parser first)
    (hnext : ∀ value, Recognizes (next value) (second value)) :
    Recognizes (parser >>= next) fun start text rest result =>
      ∃ left right value, text = left ++ right ∧ first start left (right ++ rest) value ∧
        second value (start + left.length) right rest result := by
  intro start input result behind rest
  change (parser ⟨start, input⟩).bind (fun pair => next pair.1 pair.2) = _ ↔ _
  rw [Option.bind_eq_some_iff]
  constructor
  · rintro ⟨⟨value, middle, remaining⟩, hvalue, hresult⟩
    obtain ⟨left, rfl, rfl, hleft⟩ := (hparser ..).mp hvalue
    obtain ⟨right, rfl, rfl, hright⟩ := (hnext value ..).mp hresult
    exact ⟨left ++ right, by simp, by simp [Nat.add_assoc], left, right, value, rfl, hleft, hright⟩
  · rintro ⟨_, rfl, rfl, left, right, value, rfl, hleft, hright⟩
    refine ⟨(value, ⟨start + left.length, right ++ rest⟩), (hparser ..).mpr ?_, (hnext value ..).mpr ?_⟩
    · exact ⟨left, by simp, rfl, hleft⟩
    · exact ⟨right, rfl, by simp [Nat.add_assoc], hright⟩

/-- A literal and what follows it. -/
theorem literal_bind {text : List UInt8} {next : Parser α} {language : Language α}
    (hnext : Recognizes next language) :
    Recognizes (Parser.literal text >>= fun _ => next) fun start read rest result =>
      ∃ right, read = text ++ right ∧ language (start + text.length) right rest result :=
  ((literal text).bind fun _ => hnext).congr fun start read rest result => by
    constructor
    · rintro ⟨left, right, _, rfl, rfl, hright⟩
      exact ⟨right, rfl, hright⟩
    · rintro ⟨right, rfl, hright⟩
      exact ⟨text, right, (), rfl, rfl, hright⟩

theorem either {text : List UInt8} {found missing : Parser α} {first second : Language α}
    (hfound : Recognizes found first) (hmissing : Recognizes missing second) :
    Recognizes (Parser.either text found missing) fun start read rest result =>
      (∃ right, read = text ++ right ∧ first (start + text.length) right rest result) ∨
        (¬ text <+: read ++ rest ∧ second start read rest result) := by
  intro start input result behind rest
  by_cases hbegins : text <+: input
  · have hfirst := @literal_bind _ text _ _ hfound start input result behind rest
    obtain ⟨suffix, rfl⟩ := hbegins
    have hstep : Parser.either text found missing ⟨start, text ++ suffix⟩ =
        (Parser.literal text >>= fun _ => found) ⟨start, text ++ suffix⟩ := by
      simp [Parser.either, Parser.literal, StateT.bind, Bind.bind]
    rw [hstep, hfirst]
    refine exists_congr fun read => and_congr_right fun hread => and_congr_right fun _ => ?_
    simp [← hread]
  · have hstep : Parser.either text found missing ⟨start, input⟩ = missing ⟨start, input⟩ := by
      simp [Parser.either, Parser.literal, hbegins]
    rw [hstep, hmissing]
    refine exists_congr fun read => and_congr_right fun hread => and_congr_right fun _ => ?_
    rw [hread] at hbegins
    constructor
    · exact fun hsecond => .inr ⟨hbegins, hsecond⟩
    · rintro (⟨right, rfl, -⟩ | ⟨-, hsecond⟩)
      · exact absurd ⟨right ++ rest, by simp⟩ hbegins
      · exact hsecond

/-- A scanner that takes the whole input. -/
theorem complete {parser : Parser α} {language : Language α} (hparser : Recognizes parser language)
    (input : List UInt8) (value : α) :
    parser ⟨0, input⟩ = some (value, ⟨input.length, []⟩) ↔ language 0 input [] value := by
  rw [hparser]
  constructor
  · rintro ⟨text, htext, -, hvalue⟩
    rw [List.append_nil] at htext
    exact htext ▸ hvalue
  · exact fun hvalue => ⟨input, by simp, by simp, hvalue⟩

end Recognizes

end Text
