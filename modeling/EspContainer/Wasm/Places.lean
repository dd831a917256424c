/-
# Places in the bytes

Where a parser is known to succeed, a program with a cursor can be followed from place to
place: the cursor stands in front of certain bytes, a step parses some of them, and then the
cursor stands in front of the rest.
-/

import EspContainer.Wasm.Cursors

namespace Wasm

open Interaction

variable {I : Interface} {ε α β σ τ : Type} {answers : (request : I.Call) → I.Answer request}
  {data bytes rest : List UInt8} {cursor : Nat}

/-- The cursor stands in front of these bytes, the last ones of the data. -/
structure At (data : List UInt8) (cursor : Nat) (bytes : List UInt8) : Prop where
  bound : cursor ≤ data.length
  behind : data.drop cursor = bytes

theorem at_drop (hcursor : cursor ≤ data.length) : At data cursor (data.drop cursor) := ⟨hcursor, rfl⟩

/-- How many bytes are left. -/
theorem At.length (hplace : At data cursor bytes) : bytes.length = data.length - cursor := by
  rw [← hplace.behind, List.length_drop]

/-- The end of the data. -/
theorem At.eq_end (hplace : At data cursor []) : cursor = data.length := by
  have hlength := hplace.length
  have hbound := hplace.bound
  rw [List.length_nil] at hlength
  omega

/-- A step that follows a parser. -/
theorem At.step {step : Nat → Fallible I ε (α × Nat)} {parser : Parser α}
    (hplace : At data cursor bytes) (hstep : Tracks answers data step parser) {value : α}
    (hparser : parser bytes = some (value, rest)) :
    ∃ after, At data after rest ∧ Fallible.eval answers (step cursor) = .ok (value, after) := by
  have hfound := hstep.found cursor hplace.bound
  rw [hplace.behind, hparser] at hfound
  have hsuffix : rest <:+ data := by
    have hshrinks := hstep.shrinks _ _ hparser
    rw [← hplace.behind] at hshrinks
    exact hshrinks.trans (List.drop_suffix cursor data)
  exact ⟨data.length - rest.length, ⟨Nat.sub_le _ _, (List.suffix_iff_eq_drop.mp hsuffix).symm⟩,
    ranAt_eq_some.mp hfound⟩

/-- Bytes that are skipped. -/
theorem At.take {size : Nat} {content : List UInt8} (hplace : At data cursor bytes)
    (htake : Parser.take size bytes = some (content, rest)) :
    content.length = size ∧ cursor + size ≤ data.length ∧ (data.drop cursor).take size = content ∧
      At data (cursor + size) rest := by
  obtain ⟨rfl, rfl⟩ := Parser.take_eq_some.mp htake
  have hlength := hplace.length
  have hbound := hplace.bound
  have hbehind := hplace.behind
  dsimp only at hlength hbehind ⊢
  rw [List.length_append] at hlength
  refine ⟨rfl, by omega, ?_, ⟨by omega, ?_⟩⟩
  · rw [hbehind, List.take_left]
  · rw [← List.drop_drop, hbehind, List.drop_left]

/-- A counted loop whose body parses an item: `held` relates the variables of the loop, the
state of a fold over the items and the bytes that are left. -/
theorem eval_counted {body : Nat → σ → Fallible I ε σ} {parser : Parser α}
    {change : τ → α → Option τ} {held : σ → τ → List UInt8 → Prop}
    (hbody : ∀ index locals state bytes value rest next, held locals state bytes →
      parser bytes = some (value, rest) → change state value = some next →
      ∃ after, held after next rest ∧ Fallible.eval answers (body index locals) = .ok after)
    {count : Nat} {values : List α} {locals : σ} {state last : τ}
    (hheld : held locals state bytes)
    (hvalues : Parser.times parser count bytes = some (values, rest))
    (hfold : values.foldlM change state = some last) :
    ∃ after, held after last rest ∧
      Fallible.eval answers (Fallible.counted count body locals) = .ok after := by
  suffices hloop : ∀ count index values locals state bytes, held locals state bytes →
      Parser.times parser count bytes = some (values, rest) →
      values.foldlM change state = some last →
      ∃ after, held after last rest ∧
        Fallible.eval answers (Fallible.countedLoop body count index locals) = .ok after from
    hloop count 0 values locals state bytes hheld hvalues hfold
  intro count
  induction count with
  | zero =>
      intro index values locals state bytes hheld hvalues hfold
      obtain ⟨rfl, rfl⟩ := Parser.times_zero_eq_some.mp hvalues
      cases hfold
      exact ⟨locals, hheld, rfl⟩
  | succ count ih =>
      intro index values locals state bytes hheld hvalues hfold
      obtain ⟨value, others, middle, rfl, hvalue, hothers⟩ := Parser.times_succ_eq_some.mp hvalues
      rw [List.foldlM_cons] at hfold
      obtain ⟨next, hnext, hrest⟩ := Option.bind_eq_some_iff.mp hfold
      obtain ⟨after, hafter, hran⟩ := hbody index locals state bytes value middle next hheld hvalue
        hnext
      obtain ⟨final, hfinal, hloop⟩ := ih (index + 1) others after next middle hafter hothers hrest
      refine ⟨final, hfinal, ?_⟩
      rw [Fallible.countedLoop, Fallible.eval_bind, hran]
      exact hloop

end Wasm
