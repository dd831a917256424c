/-
# Modules in the binary format

The items of the sections of a module, as parsers: what there is to read in a module,
before anything is asked of it.
-/

import EspContainer.Wasm.Parser

namespace Wasm

/-- A function type: the types it takes and the types it returns. -/
abbrev FuncType : Type := List UInt8 × List UInt8

/-- An import. -/
structure Import where
  module : List UInt8
  field : List UInt8
  kind : UInt8
  index : Nat
  deriving DecidableEq

/-- An export. -/
structure Export where
  name : List UInt8
  kind : UInt8
  index : Nat
  deriving DecidableEq

/-- The numbers of a memory section with one memory that has a maximum. -/
structure Memory where
  count : Nat
  flags : Nat
  minimum : Nat
  maximum : Nat
  deriving DecidableEq

namespace Parser

/-- A function type, behind the octet that marks it. -/
def funcType : Parser FuncType := do
  let form ← item
  ensure (form == 0x60)
  let params ← sized
  let results ← sized
  pure (params, results)

/-- An import. -/
def importEntry : Parser Import := do
  let module ← sized
  let field ← sized
  let kind ← item
  let index ← number
  pure ⟨module, field, kind, index⟩

/-- An export. -/
def exportEntry : Parser Export := do
  let name ← sized
  let kind ← item
  let index ← number
  pure ⟨name, kind, index⟩

/-- The numbers of a memory section. -/
def memory : Parser Memory := do
  let count ← number
  let flags ← number
  let minimum ← number
  let maximum ← number
  pure ⟨count, flags, minimum, maximum⟩

/-- A section: its number and what is in it. -/
def sectionEntry : Parser (UInt8 × List UInt8) := do
  let number ← item
  let content ← sized
  pure (number, content)

theorem shrinks_sized : Shrinks sized := shrinks_number.bind shrinks_take

theorem takes_sized : Takes sized := takes_number.bind shrinks_take

theorem takes_funcType : Takes funcType := by
  apply takes_item.bind
  intro form
  apply (shrinks_given _).bind
  intro _
  apply shrinks_sized.bind
  intro params
  apply shrinks_sized.bind
  intro results
  exact shrinks_pure _

theorem takes_sectionEntry : Takes sectionEntry := by
  apply takes_item.bind
  intro number
  apply shrinks_sized.bind
  intro content
  exact shrinks_pure _

/-- What is in a section lies in front of what is left. -/
theorem suffix_of_sectionEntry {bytes content rest : List UInt8} {number : UInt8}
    (hentry : sectionEntry bytes = some ((number, content), rest)) : content ++ rest <:+ bytes := by
  rw [sectionEntry, sized] at hentry
  simp only [bind_eq_some, pure_eq_some, take_eq_some, Prod.mk.injEq] at hentry
  obtain ⟨_, behind, hitem, _, _, ⟨size, middle, hsize, -, hcontent⟩, ⟨-, rfl⟩, rfl⟩ := hentry
  subst hcontent
  exact (shrinks_number _ _ hsize).trans (shrinks_item _ _ hitem)

end Parser

/-- The sections of a module, from the bytes behind its header. -/
def sections (bytes : List UInt8) : Option (List (UInt8 × List UInt8)) :=
  (Parser.many Parser.sectionEntry bytes.length bytes).map Prod.fst

/-- A loop with more rounds finds the same sections. -/
theorem many_sectionEntry_eq_some {bytes : List UInt8} {rounds : Nat}
    (hrounds : bytes.length ≤ rounds) {found : List (UInt8 × List UInt8)} :
    (∃ rest, Parser.many Parser.sectionEntry rounds bytes = some (found, rest)) ↔
      sections bytes = some found := by
  rw [Parser.takes_sectionEntry.many_eq hrounds, sections, Option.map_eq_some_iff]
  simp

end Wasm
