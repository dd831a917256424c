/-
# The runtime's scan is safe and linear

Lengths, counts and indices of a module are chosen by whoever wrote it. The functions
below say of each step of the scan, whatever the bytes are, that it reads inside the
buffer and keeps its cursor inside its section, and they count iterations against bytes:
each iteration of a loop over declared items takes bytes, so a declared count that the
bytes cannot meet costs nothing.
-/

import EspContainer.Runtime.MarkedScan

namespace Container.Marked

open Binary Interaction Package

variable {α β : Type} {size budget spent : Nat}

/-- The weight that counts iterations. -/
def Mark.weight : Mark → Nat
  | .turn => 1
  | _ => 0

/-- Reads are inside the buffer, cursors at most the ends of their sections, and these at
most the end of the buffer. -/
def Within (size : Nat) : Mark → Prop
  | .read index => index < size
  | .move cursor stop => cursor ≤ stop ∧ stop ≤ size
  | .turn => True
  | .stuck => False

/-- Whatever the bytes are, a scanning function stays in bounds. After `spent` iterations
it meets the postcondition with the iterations then spent, or fails within the budget. -/
def Metered (size budget : Nat) (post : Nat → α → Prop) (scan : MarkedScan α) (spent : Nat) :
    Prop :=
  Fallible.Safe (World.counting Mark.weight) (fun _ mark => Within size mark)
    (fun after _ => after ≤ budget) post scan spent

section

variable {post : Nat → α → Prop}

@[simp]
theorem metered_pure (value : α) : Metered size budget post (pure value) spent ↔ post spent value :=
  Iff.rfl

@[simp]
theorem metered_throw (error : ScanError) :
    Metered size budget post (throw error) spent ↔ spent ≤ budget := Iff.rfl

/-- The rule of sequence. -/
theorem Metered.bind {scan : MarkedScan α} {next : α → MarkedScan β} {post' : Nat → β → Prop}
    (hscan : Metered size budget post scan spent)
    (hnext : ∀ after value, post after value → Metered size budget post' (next value) after) :
    Metered size budget post' (scan >>= next) spent :=
  Fallible.Safe.bind hscan hnext

/-- The rule of consequence. -/
theorem Metered.imp {post' : Nat → α → Prop} {scan : MarkedScan α}
    (hscan : Metered size budget post scan spent)
    (hpost : ∀ after value, post after value → post' after value) :
    Metered size budget post' scan spent :=
  Fallible.Safe.imp hscan hpost

/-- One more iteration. -/
theorem metered_turn_bind {next : Unit → MarkedScan α}
    (hnext : Metered size budget post (next ()) (spent + 1)) :
    Metered size budget post (turn >>= next) spent :=
  ⟨trivial, fun _ _ hafter => hafter ▸ hnext⟩

/-- A cursor moves inside its section. -/
theorem metered_moveTo_bind {cursor stop : Nat} {next : Unit → MarkedScan α}
    (hcursor : cursor ≤ stop) (hstop : stop ≤ size)
    (hnext : Metered size budget post (next ()) spent) :
    Metered size budget post (moveTo cursor stop >>= next) spent :=
  ⟨⟨hcursor, hstop⟩, fun _ _ hafter => hafter ▸ hnext⟩

/-- A byte is read inside the buffer. -/
theorem metered_readByte_bind {index : Nat} {next : UInt8 → MarkedScan α} (hindex : index < size)
    (hnext : ∀ value, Metered size budget post (next value) spent) :
    Metered size budget post (readByte index >>= next) spent :=
  ⟨hindex, fun value _ hafter => hafter ▸ hnext value⟩

/-- A check that fails within the budget. -/
theorem metered_demand_bind {check : Bool} {next : Unit → MarkedScan α} (hbudget : spent ≤ budget)
    (hnext : check = true → Metered size budget post (next ()) spent) :
    Metered size budget post (demand check >>= next) spent := by
  cases check with
  | true => exact hnext rfl
  | false => exact hbudget

theorem metered_demandSupported_bind {check : Bool} {next : Unit → MarkedScan α}
    (hbudget : spent ≤ budget)
    (hnext : check = true → Metered size budget post (next ()) spent) :
    Metered size budget post (demandSupported check >>= next) spent := by
  cases check with
  | true => exact hnext rfl
  | false => exact hbudget

/-- A check at the end. -/
theorem metered_demand {check : Bool} {post : Nat → Unit → Prop} (hbudget : spent ≤ budget)
    (hpost : check = true → post spent ()) : Metered size budget post (demand check) spent := by
  cases check with
  | true => exact hpost rfl
  | false => exact hbudget

end

/-! ## Numbers and names -/

/-- A number takes one iteration for each byte. -/
theorem metered_readU32Loop {stop : Nat} (hstop : stop ≤ size) (octets index result cursor : Nat)
    (hbudget : spent + octets ≤ budget) :
    Metered size budget
      (fun after found => after + cursor = spent + found.2 ∧ after ≤ spent + octets ∧
        cursor < found.2 ∧ found.2 ≤ stop)
      (readU32Loop stop octets index result cursor) spent := by
  induction octets generalizing index result cursor spent with
  | zero => exact hbudget
  | succ octets ih =>
      apply metered_turn_bind
      apply metered_demand_bind (by omega)
      intro hcursor
      have hcursor : cursor < stop := by simpa using hcursor
      apply metered_readByte_bind (by omega)
      intro octet
      apply metered_moveTo_bind (by omega) hstop
      apply metered_demand_bind (by omega)
      intro _
      by_cases hend : (octet &&& 0x80 == 0) = true
      · rw [if_pos hend]
        change _ ∧ _ ∧ _ ∧ _
        omega
      · rw [if_neg hend]
        apply (ih (index + 1) _ (cursor + 1) (by omega)).imp
        intro after found hfound
        omega

theorem metered_readU32 {stop : Nat} (hstop : stop ≤ size) (cursor : Nat)
    (hbudget : spent + 5 ≤ budget) :
    Metered size budget
      (fun after found => after + cursor = spent + found.2 ∧ after ≤ spent + 5 ∧
        cursor < found.2 ∧ found.2 ≤ stop)
      (readU32 stop cursor) spent :=
  metered_readU32Loop hstop 5 0 0 cursor hbudget

/-- A comparison reads as many bytes as the constant has. -/
theorem metered_compareBytes {expected : List UInt8} {start : Nat}
    (hbound : start + expected.length ≤ size) :
    Metered size budget (fun after _ => after = spent) (compareBytes expected start) spent := by
  apply Fallible.safe_counted (fun _ _ after => after = spent)
  · intro index same after hindex hafter
    apply metered_readByte_bind (by omega)
    intro value
    exact hafter
  · rfl

theorem metered_rawNameIs {name : RawName} {expected : List UInt8}
    (hbound : name.start + name.length ≤ size) :
    Metered size budget (fun after _ => after = spent) (rawNameIs name expected) spent := by
  rw [rawNameIs]
  by_cases hlength : (name.length == expected.length) = true
  · rw [if_pos hlength]
    apply metered_compareBytes
    rw [← beq_iff_eq.mp hlength]
    exact hbound
  · rw [if_neg hlength]
    exact rfl

theorem metered_readName {stop : Nat} (hstop : stop ≤ size) (cursor : Nat)
    (hbudget : spent + 5 ≤ budget) :
    Metered size budget
      (fun after found => after ≤ spent + 5 ∧ cursor < found.2 ∧ found.2 ≤ stop ∧
        found.1.start + found.1.length = found.2)
      (readName stop cursor) spent := by
  apply (metered_readU32 hstop cursor hbudget).bind
  intro after ⟨length, next⟩ ⟨_, hafter, hnext, hend⟩
  apply metered_demand_bind (by omega)
  intro hlength
  have hlength : length ≤ stop - next := by simpa using hlength
  apply metered_moveTo_bind (by omega) hstop
  exact ⟨hafter, by omega, by omega, rfl⟩

theorem metered_dangerousAmong {name : RawName} (hbound : name.start + name.length ≤ size)
    (names : List (List UInt8)) :
    Metered size budget (fun after _ => after ≤ spent + names.length) (dangerousAmong name names)
      spent := by
  induction names generalizing spent with
  | nil => exact Nat.le_refl spent
  | cons expected others ih =>
      apply metered_turn_bind
      apply (metered_rawNameIs hbound).bind
      intro after same hafter
      cases same with
      | true =>
          change after ≤ spent + (others.length + 1)
          omega
      | false =>
          apply ih.imp
          intro last _ hlast
          rw [List.length_cons]
          omega

/-! ## Sections -/

/-- An export takes at least three bytes and a few iterations. -/
theorem metered_checkRawExport {stop : Nat} (hstop : stop ≤ size) (cursor : Nat)
    (hbudget : spent + 14 ≤ budget) :
    Metered size budget
      (fun after next => after + 3 * cursor ≤ spent + 3 * next ∧ cursor < next ∧ next ≤ stop)
      (checkRawExport stop cursor) spent := by
  apply metered_turn_bind
  apply (metered_readU32 hstop cursor (by omega)).bind
  intro after ⟨length, begin⟩ ⟨hbytes, hafter, hbegin, hend⟩
  apply metered_demand_bind (by omega)
  intro hlength
  have hlength : length ≤ stop - begin := by simpa using hlength
  apply (metered_dangerousAmong (by simp only; omega) _).bind
  intro searched dangerous hsearched
  simp only [List.length_cons, List.length_nil] at hsearched
  apply metered_demandSupported_bind (by omega)
  intro _
  apply metered_moveTo_bind (by omega) hstop
  apply metered_demand_bind (by omega)
  intro hkind
  have hkind : begin + length < stop := by simpa using hkind
  apply metered_readByte_bind (by omega)
  intro kind
  apply metered_moveTo_bind (by omega) hstop
  apply metered_demand_bind (by omega)
  intro _
  apply (metered_readU32 hstop (begin + length + 1) (by omega)).bind
  intro last ⟨_, next⟩ hnext
  change _ ∧ _ ∧ _
  omega

/-- However many exports are declared, the export section costs what its bytes allow. -/
theorem metered_checkRawExports {stop cursor : Nat} (hcursor : cursor ≤ stop) (hstop : stop ≤ size)
    (hbudget : spent + 3 * stop + 19 ≤ budget + 3 * cursor) :
    Metered size budget (fun after _ => after + 3 * cursor ≤ spent + 3 * stop)
      (checkRawExports stop cursor) spent := by
  apply (metered_readU32 hstop cursor (by omega)).bind
  intro after ⟨count, begin⟩ ⟨hbytes, hafter, hbegin, hend⟩
  have hloop : Metered size budget
      (fun last next => last + 3 * begin ≤ after + 3 * next ∧ begin ≤ next ∧ next ≤ stop)
      (Fallible.counted count (fun _ cursor => checkRawExport stop cursor) begin) after := by
    apply Fallible.safe_counted (fun _ next last =>
      last + 3 * begin ≤ after + 3 * next ∧ begin ≤ next ∧ next ≤ stop)
    · intro _ current now _ ⟨hspent, hfirst, hcurrent⟩
      apply (metered_checkRawExport hstop current (by omega)).imp
      intro later next hnext
      omega
    · omega
  apply hloop.bind
  intro last next hnext
  apply metered_demand (by omega)
  intro hequal
  have hequal : next = stop := by simpa using hequal
  omega

/-- The sections that are looked at again lie inside the module. -/
structure Located (size : Nat) (sections : RawSections) : Prop where
  types : sections.typeBegin ≤ sections.typeEnd
  typeEnd : sections.typeEnd ≤ size
  imports : sections.importBegin ≤ sections.importEnd
  importEnd : sections.importEnd ≤ size

/-- The sections take at most three iterations for each byte. -/
theorem metered_rawSectionsLoop (rounds cursor : Nat) (last : UInt8) (sections : RawSections)
    (hcursor : cursor ≤ size) (hrounds : size ≤ cursor + rounds) (hsections : Located size sections)
    (hbudget : spent + 3 * size + 19 ≤ budget + 3 * cursor) :
    Metered size budget
      (fun after found => after + 3 * cursor ≤ spent + 3 * size ∧ Located size found)
      (rawSectionsLoop size rounds cursor last sections) spent := by
  induction rounds generalizing cursor last sections spent with
  | zero =>
      rw [rawSectionsLoop, if_neg (by omega)]
      exact ⟨by omega, hsections⟩
  | succ rounds ih =>
      rw [rawSectionsLoop]
      by_cases hmore : cursor < size
      · rw [if_pos hmore]
        apply metered_turn_bind
        apply metered_readByte_bind hmore
        intro number
        apply metered_moveTo_bind (by omega) (Nat.le_refl size)
        apply (metered_readU32 (Nat.le_refl size) (cursor + 1) (by omega)).bind
        rintro after ⟨length, begin⟩ ⟨hbytes, hafter, hbegin, hend⟩
        apply metered_demand_bind (by omega)
        intro hlength
        have hlength : length ≤ size - begin := by simpa using hlength
        apply metered_moveTo_bind (Nat.le_add_right _ _) (by omega)
        apply metered_demandSupported_bind (by omega)
        intro _
        apply metered_demand_bind (by omega)
        intro _
        apply metered_demandSupported_bind (by omega)
        intro _
        -- The section may be one that is looked at again.
        have hnext : Located size
            (if number == 2 then
              { (if number == 1 then { sections with typeBegin := begin, typeEnd := begin + length }
                  else sections) with
                importBegin := begin, importEnd := begin + length }
            else if number == 1 then
              { sections with typeBegin := begin, typeEnd := begin + length }
            else sections) := by
          obtain ⟨htypes, htypeEnd, himports, himportEnd⟩ := hsections
          have hfirst : begin ≤ begin + length := Nat.le_add_right _ _
          have hlast : begin + length ≤ size := by omega
          by_cases hsecond : (number == 2) = true
          · rw [if_pos hsecond]
            split
            · exact ⟨hfirst, hlast, hfirst, hlast⟩
            · exact ⟨htypes, htypeEnd, hfirst, hlast⟩
          · rw [if_neg hsecond]
            split
            · exact ⟨hfirst, hlast, himports, himportEnd⟩
            · exact ⟨htypes, htypeEnd, himports, himportEnd⟩
        by_cases hexports : (number == 7) = true
        · rw [if_pos hexports]
          apply (metered_checkRawExports (Nat.le_add_right begin length) (by omega)
            (by omega)).bind
          intro checked _ hchecked
          apply metered_moveTo_bind (by omega) (Nat.le_refl size)
          apply (ih (begin + length) _ _ (by omega) (by omega) hnext (by omega)).imp
          intro later found hfound
          exact ⟨by omega, hfound.2⟩
        · rw [if_neg hexports]
          apply metered_moveTo_bind (by omega) (Nat.le_refl size)
          apply (ih (begin + length) _ _ (by omega) (by omega) hnext (by omega)).imp
          intro later found hfound
          exact ⟨by omega, hfound.2⟩
      · rw [if_neg hmore]
        exact ⟨by omega, hsections⟩

/-! ## Imports -/

theorem metered_rawSignature {capability : UInt32} {timerCancel : Bool}
    {params paramTypes resultTypes : Nat} (hparams : paramTypes + params ≤ size)
    (hresult : resultTypes < size) :
    Metered size budget (fun after _ => after = spent)
      (rawSignature capability timerCancel params paramTypes resultTypes) spent := by
  have hmatching (expected : List UInt8) (result : UInt8) :
      Metered size budget (fun after _ => after = spent)
        (rawNameIs ⟨paramTypes, params⟩ expected >>= fun same =>
          if same = true then readByte resultTypes >>= fun type => pure (type == result)
          else pure false) spent := by
    apply (metered_rawNameIs hparams).bind
    intro after same hafter
    cases same with
    | true =>
        apply metered_readByte_bind hresult
        intro type
        exact hafter
    | false => exact hafter
  rw [rawSignature]
  by_cases hclock : (capability == capMonotonicTime) = true
  · rw [if_pos hclock]
    exact hmatching [] 0x7e
  rw [if_neg hclock]
  by_cases hlog : (capability == capLog) = true
  · rw [if_pos hlog]
    exact hmatching [0x7f, 0x7f] 0x7f
  rw [if_neg hlog]
  by_cases htimer : (capability == capTimer) = true
  · rw [if_pos htimer]
    cases timerCancel with
    | true => exact hmatching [0x7e] 0x7f
    | false => exact hmatching [0x7f, 0x7f] 0x7e
  · rw [if_neg htimer]
    exact rfl

/-- A type takes at least as many bytes as iterations. -/
theorem metered_rawTypeLoop {stop : Nat} (hstop : stop ≤ size) (wanted : Nat)
    (capability : UInt32) (timerCancel : Bool) (left index cursor : Nat) (hcursor : cursor ≤ stop)
    (hbudget : spent + stop + 11 ≤ budget + cursor) :
    Metered size budget (fun after _ => after + cursor ≤ spent + stop)
      (rawTypeLoop stop wanted capability timerCancel left index cursor) spent := by
  induction left generalizing index cursor spent with
  | zero =>
      change _ ≤ _
      omega
  | succ left ih =>
      apply metered_turn_bind
      apply metered_demand_bind (by omega)
      intro hform
      have hform : cursor < stop := by simpa using hform
      apply metered_readByte_bind (by omega)
      intro form
      apply metered_moveTo_bind (by omega) hstop
      apply metered_demand_bind (by omega)
      intro _
      apply (metered_readU32 hstop (cursor + 1) (by omega)).bind
      intro after ⟨params, first⟩ ⟨hbytes, hafter, hfirst, hend⟩
      apply metered_demand_bind (by omega)
      intro hparams
      have hparams : params ≤ stop - first := by simpa using hparams
      apply metered_moveTo_bind (by omega) hstop
      apply (metered_readU32 hstop (first + params) (by omega)).bind
      intro last ⟨results, second⟩ ⟨hbytes', hlast, hsecond, hend'⟩
      apply metered_demand_bind (by omega)
      intro hresults
      have hresults : results ≤ stop - second := by simpa using hresults
      apply metered_moveTo_bind (by omega) hstop
      by_cases hwanted : (index == wanted) = true
      · rw [if_pos hwanted]
        by_cases hone : (results != 1) = true
        · rw [if_pos hone]
          change _ ≤ _
          omega
        · rw [if_neg hone]
          have hone : results = 1 := by simpa using hone
          apply (metered_rawSignature (by omega) (by omega)).imp
          intro later _ hlater
          omega
      · rw [if_neg hwanted]
        apply (ih (index + 1) (second + results) (by omega) (by omega)).imp
        intro later _ hlater
        omega

/-- The search for a type costs what the type section has bytes, however many types it
declares. -/
theorem metered_rawTypeMatches {sections : RawSections} (hsections : Located size sections)
    (typeIndex : Nat) (capability : UInt32) (timerCancel : Bool)
    (hbudget : spent + size + 16 ≤ budget) :
    Metered size budget (fun after _ => after ≤ budget)
      (rawTypeMatches sections typeIndex capability timerCancel) spent := by
  obtain ⟨htypes, htypeEnd, -, -⟩ := hsections
  apply metered_demand_bind (by omega)
  intro _
  apply metered_moveTo_bind htypes htypeEnd
  apply (metered_readU32 htypeEnd _ (by omega)).bind
  rintro after ⟨count, first⟩ ⟨hbytes, hafter, hfirst, hend⟩
  apply metered_demand_bind (by omega)
  intro _
  apply (metered_rawTypeLoop htypeEnd _ _ _ _ _ _ (by omega) (by omega)).imp
  intro last _ hlast
  omega

theorem metered_rawCapability {field : RawName} (hbound : field.start + field.length ≤ size) :
    Metered size budget (fun after _ => after = spent) (rawCapability field) spent := by
  apply (metered_rawNameIs hbound).bind
  intro after clock hafter
  subst hafter
  cases clock with
  | true => exact rfl
  | false =>
      apply (metered_rawNameIs hbound).bind
      intro after log hafter
      subst hafter
      cases log with
      | true => exact rfl
      | false =>
          apply (metered_rawNameIs hbound).bind
          intro after start hafter
          subst hafter
          cases start with
          | true => exact rfl
          | false =>
              apply (metered_rawNameIs hbound).bind
              intro after cancel hafter
              exact hafter

/-- An import costs a few iterations and a search for its type. -/
theorem metered_scanRawImport {sections : RawSections} (hsections : Located size sections)
    (imports : RawImports) (cursor : Nat) (hbudget : spent + (size + 32) ≤ budget) :
    Metered size budget (fun after _ => after ≤ spent + (size + 32))
      (scanRawImport sections imports cursor) spent := by
  have himportEnd := hsections.importEnd
  apply metered_turn_bind
  apply (metered_readName himportEnd cursor (by omega)).bind
  intro after ⟨module, first⟩ ⟨hafter, hfirst, hend, hmodule⟩
  apply (metered_readName himportEnd first (by omega)).bind
  intro after' ⟨field, second⟩ ⟨hafter', hsecond, hend', hfield⟩
  have hmodule : module.start + module.length = first := hmodule
  have hfield : field.start + field.length = second := hfield
  apply metered_demand_bind (by omega)
  intro hkind
  have hkind : second < sections.importEnd := by simpa using hkind
  apply metered_readByte_bind (by omega)
  intro kind
  apply metered_moveTo_bind (by omega) himportEnd
  apply metered_demandSupported_bind (by omega)
  intro _
  apply (metered_readU32 himportEnd (second + 1) (by omega)).bind
  intro last ⟨typeIndex, third⟩ ⟨hbytes, hlast, hthird, hend''⟩
  apply (metered_rawNameIs (by omega)).bind
  intro named own hown
  apply metered_demandSupported_bind (by omega)
  intro _
  apply (metered_rawCapability (by omega)).bind
  intro known capability hcapability
  apply (metered_rawNameIs (by omega)).bind
  intro cancelled timerCancel htimerCancel
  apply metered_demandSupported_bind (by omega)
  intro _
  -- The search for the type may fail, and then the import is refused.
  have htype : Metered size (spent + (size + 32)) (fun now _ => now ≤ spent + (size + 32))
      (rawTypeMatches sections typeIndex capability timerCancel) cancelled :=
    metered_rawTypeMatches hsections typeIndex capability timerCancel (by omega)
  have hmatched : Metered size budget (fun now _ => now ≤ spent + (size + 32))
      (Fallible.attempt (rawTypeMatches sections typeIndex capability timerCancel).run)
      cancelled := by
    apply (Fallible.safe_attempt _ _).mpr
    apply Program.Safe.imp htype
    intro now outcome hnow
    cases outcome <;> exact hnow
  apply hmatched.bind
  intro now matched hnow
  apply metered_demandSupported_bind (hnow.trans hbudget)
  intro _
  exact hnow

/-- The imports cost at most four searches of the type section. -/
theorem metered_scanRawImports {sections : RawSections} (hsections : Located size sections)
    (hbudget : spent + (4 * size + 133) ≤ budget) :
    Metered size budget (fun after _ => after ≤ spent + (4 * size + 133))
      (scanRawImports sections) spent := by
  have himports := hsections.imports
  have himportEnd := hsections.importEnd
  rw [scanRawImports]
  by_cases habsent : (sections.importBegin == 0) = true
  · rw [if_pos habsent]
    exact Nat.le_add_right _ _
  rw [if_neg habsent]
  apply metered_moveTo_bind himports himportEnd
  apply (metered_readU32 himportEnd _ (by omega)).bind
  rintro after ⟨count, first⟩ ⟨hbytes, hafter, hfirst, hend⟩
  apply metered_demandSupported_bind (by omega)
  intro hcount
  have hcount : count ≤ 4 := by simpa using hcount
  have hfour := Nat.mul_le_mul_right (size + 32) hcount
  have hloop : Metered size budget (fun last _ => last ≤ after + count * (size + 32))
      (Fallible.counted count (fun _ found => scanRawImport sections found.1 found.2)
        (⟨0, 0⟩, first)) after := by
    apply Fallible.safe_counted (fun index _ last => last ≤ after + index * (size + 32))
    · rintro index ⟨imports, cursor⟩ last hindex hlast
      have hnext : (index + 1) * (size + 32) = index * (size + 32) + (size + 32) :=
        Nat.succ_mul index _
      have hcovered := Nat.mul_le_mul_right (size + 32) hindex
      rw [Nat.succ_eq_add_one, hnext] at hcovered
      apply (metered_scanRawImport hsections imports cursor (by omega)).imp
      intro later _ hlater
      omega
    · exact Nat.le_add_right _ _
  apply hloop.bind
  rintro last ⟨imports, next⟩ hlast
  apply metered_demand_bind (by omega)
  intro _
  change last ≤ _
  omega

/-! ## The module -/

/-- The scan of a module takes a number of iterations that is linear in its length. -/
theorem metered_scanModule (hbudget : spent + 26 * size ≤ budget) :
    Metered size budget (fun after _ => after ≤ spent + 26 * size ∧ wasmHeader.length ≤ size)
      (scanModule size) spent := by
  have hheader : wasmHeader.length = 8 := rfl
  apply metered_demand_bind (by omega)
  intro hsize
  have hsize : 8 ≤ size := by simpa [hheader] using hsize
  apply (metered_compareBytes (by omega)).bind
  intro after header hafter
  subst hafter
  apply metered_demand_bind (by omega)
  intro _
  apply metered_moveTo_bind (by omega) (Nat.le_refl size)
  apply (metered_rawSectionsLoop size _ 0 ⟨0, 0, 0, 0⟩ (by omega) (by omega)
    ⟨Nat.le_refl 0, Nat.zero_le _, Nat.le_refl 0, Nat.zero_le _⟩ (by omega)).bind
  intro last sections ⟨hlast, hsections⟩
  apply (metered_scanRawImports hsections (by omega)).imp
  intro later _ hlater
  exact ⟨by omega, hsize⟩

/-- So does the search for the memory. -/
theorem metered_rawMemoryLoop (maxMemoryPages rounds cursor : Nat) (hcursor : cursor ≤ size)
    (hrounds : size ≤ cursor + rounds) (hbudget : spent + size + 26 ≤ budget + cursor) :
    Metered size budget (fun after _ => after + cursor ≤ spent + size + 26)
      (rawMemoryLoop size maxMemoryPages rounds cursor) spent := by
  induction rounds generalizing cursor spent with
  | zero =>
      rw [rawMemoryLoop, if_neg (by omega)]
      change _ ≤ _
      omega
  | succ rounds ih =>
      rw [rawMemoryLoop]
      by_cases hmore : cursor < size
      · rw [if_pos hmore]
        apply metered_turn_bind
        apply metered_readByte_bind hmore
        intro number
        apply metered_moveTo_bind (by omega) (Nat.le_refl size)
        apply (metered_readU32 (Nat.le_refl size) (cursor + 1) (by omega)).bind
        rintro after ⟨length, first⟩ ⟨hbytes, hafter, hfirst, hend⟩
        apply metered_demand_bind (by omega)
        intro hlength
        have hlength : length ≤ size - first := by simpa using hlength
        have hstop : first + length ≤ size := by omega
        apply metered_moveTo_bind (Nat.le_add_right _ _) hstop
        by_cases hmemory : (number == 5) = true
        · rw [if_pos hmemory]
          apply (metered_readU32 hstop first (by omega)).bind
          rintro spentCount ⟨count, second⟩ ⟨_, hcount, _, _⟩
          apply metered_demand_bind (by omega)
          intro _
          apply (metered_readU32 hstop second (by omega)).bind
          rintro spentFlags ⟨flags, third⟩ ⟨_, hflags, _, _⟩
          apply metered_demand_bind (by omega)
          intro _
          apply (metered_readU32 hstop third (by omega)).bind
          rintro spentMinimum ⟨minimum, fourth⟩ ⟨_, hminimum, _, _⟩
          apply metered_demand_bind (by omega)
          intro _
          apply (metered_readU32 hstop fourth (by omega)).bind
          rintro spentMaximum ⟨maximum, fifth⟩ ⟨_, hmaximum, _, _⟩
          change _ ≤ _
          omega
        · rw [if_neg hmemory]
          apply metered_moveTo_bind hstop (Nat.le_refl size)
          apply (ih (first + length) hstop (by omega) (by omega)).imp
          intro later _ hlater
          omega
      · rw [if_neg hmore]
        change _ ≤ _
        omega

/-! ## Runs on a module -/

/-- What a module answers. -/
def moduleMarks (wasm : List UInt8) : (mark : Mark) → MarkPort.Answer mark
  | .read index => wasm.getD index 0
  | .move _ _ => ()
  | .turn => ()
  | .stuck => ()

/-- A run over a module reads inside it, keeps its cursors inside their sections and these
inside the module, never lacks rounds, and takes a number of iterations that is linear in
the length of the module. -/
structure ScansSafely (wasm : List UInt8) (program : Program MarkPort α) : Prop where
  reads : ∀ event ∈ program.calls (moduleMarks wasm), ∀ index,
    event.1 = .read index → index < wasm.length
  moves : ∀ event ∈ program.calls (moduleMarks wasm), ∀ cursor stop,
    event.1 = .move cursor stop → cursor ≤ stop ∧ stop ≤ wasm.length
  ends : ∀ event ∈ program.calls (moduleMarks wasm), event.1 ≠ .stuck
  turns : program.total Mark.weight (moduleMarks wasm) ≤ 32 * wasm.length

/-- Safety in the counting world is safety of runs. -/
theorem scansSafely_of_safe {wasm : List UInt8} {program : Program MarkPort α}
    (hsafe : program.Safe (World.counting Mark.weight) (fun _ mark => Within wasm.length mark)
      (fun after _ => after ≤ 32 * wasm.length) 0) : ScansSafely wasm program := by
  obtain ⟨hcalls, hturns⟩ := hsafe.calls (moduleMarks wasm)
  rw [Nat.zero_add] at hturns
  constructor
  · intro event hevent index hread
    have hwithin := hcalls event hevent
    rwa [hread] at hwithin
  · intro event hevent cursor stop hmove
    have hwithin := hcalls event hevent
    rwa [hmove] at hwithin
  · intro event hevent hstuck
    have hwithin := hcalls event hevent
    rwa [hstuck] at hwithin
  · exact hturns

/-- A budgeted scanning function is a safe program, whatever its outcome is. -/
theorem Metered.safe_run {scan : MarkedScan α}
    (hscan : Metered size budget (fun after _ => after ≤ budget) scan spent) :
    scan.run.Safe (World.counting Mark.weight) (fun _ mark => Within size mark)
      (fun after _ => after ≤ budget) spent := by
  apply Program.Safe.imp hscan
  intro after outcome hafter
  cases outcome <;> exact hafter

/-- What a watched function returns on a module is what the function returns. -/
theorem eval_run (wasm : List UInt8) (scan : MarkedScan α) :
    scan.run.eval (moduleMarks wasm) = RawScan.onModule (erase scan) wasm := by
  have hserve (mark : Mark) :
      (unmarked mark).eval (fun index => wasm.getD index 0) = moduleMarks wasm mark := by
    cases mark <;> rfl
  exact (Program.eval_translate hserve scan.run).symm

/-- The scan of a module stays within 32 iterations for each byte. -/
theorem safe_scanModule (size : Nat) :
    (scanModule size).run.Safe (World.counting Mark.weight) (fun _ mark => Within size mark)
      (fun after _ => after ≤ 32 * size) 0 := by
  apply Metered.safe_run
  apply (metered_scanModule (by omega)).imp
  intro after _ hafter
  omega

theorem safe_wasmImportedCapabilities (size : Nat) :
    (wasmImportedCapabilities size).Safe (World.counting Mark.weight)
      (fun _ mark => Within size mark) (fun after _ => after ≤ 32 * size) 0 := by
  apply (safe_scanModule size).bind
  intro after outcome hafter
  exact hafter

theorem safe_wasmMemoryWithinLimit (size : Nat) (maxMemoryPages : UInt32) :
    (wasmMemoryWithinLimit size maxMemoryPages).Safe (World.counting Mark.weight)
      (fun _ mark => Within size mark) (fun after _ => after ≤ 32 * size) 0 := by
  rw [wasmMemoryWithinLimit]
  by_cases hpages : (maxMemoryPages == 0) = true
  · rw [if_pos hpages]
    exact Nat.zero_le _
  rw [if_neg hpages]
  have hcheck : Metered size (26 * size) _ (scanModule size) 0 := metered_scanModule (by omega)
  apply Program.Safe.bind hcheck
  intro after outcome houtcome
  cases outcome with
  | error error =>
      have hafter : after ≤ 26 * size := houtcome
      change after ≤ 32 * size
      omega
  | ok capabilities =>
      obtain ⟨hafter, hheader⟩ := houtcome
      have hlength : wasmHeader.length = 8 := rfl
      refine And.intro ⟨hheader, Nat.le_refl size⟩ fun _ moved hmoved => ?_
      have hmoved : moved = after := hmoved
      have hloop : Metered size (32 * size) (fun last _ => last ≤ 32 * size)
          (rawMemoryLoop size maxMemoryPages.toNat size wasmHeader.length) moved := by
        apply (metered_rawMemoryLoop _ size _ hheader (by omega) (by omega)).imp
        intro last _ hlast
        omega
      apply Program.Safe.bind hloop.safe_run
      intro last within hlast
      exact hlast

/-- The raw scan is safe and terminates on arbitrary bytes: for every buffer the three entry
points read only inside it, keep every cursor at most the end of its section and every such
end at most the length, and end after at most 32 iterations of loops for each byte. They
are the entry points of the runtime with these marks added. -/
theorem raw_scan_safe (wasm : List UInt8) (maxMemoryPages : UInt32) :
    (ScansSafely wasm (wasmCheck wasm.length) ∧
      ((wasmCheck wasm.length).eval (moduleMarks wasm)).map (fun _ => ()) =
        Container.wasmCheck wasm) ∧
    (ScansSafely wasm (wasmImportedCapabilities wasm.length) ∧
      (wasmImportedCapabilities wasm.length).eval (moduleMarks wasm) =
        Container.wasmImportedCapabilities wasm) ∧
    (ScansSafely wasm (wasmMemoryWithinLimit wasm.length maxMemoryPages) ∧
      (wasmMemoryWithinLimit wasm.length maxMemoryPages).eval (moduleMarks wasm) =
        Container.wasmMemoryWithinLimit wasm maxMemoryPages) := by
  have hscan : (scanModule wasm.length).run.eval (moduleMarks wasm) =
      RawScan.onModule (Container.scanModule wasm.length) wasm := by
    rw [eval_run, erase_scanModule]
  have hcheck : (wasmCheck wasm.length).eval (moduleMarks wasm) =
      RawScan.onModule (Container.scanModule wasm.length) wasm := hscan
  refine ⟨⟨scansSafely_of_safe (safe_scanModule _), ?_⟩,
    ⟨scansSafely_of_safe (safe_wasmImportedCapabilities _), ?_⟩,
    ⟨scansSafely_of_safe (safe_wasmMemoryWithinLimit _ _), ?_⟩⟩
  · rw [hcheck, Container.wasmCheck]
  · rw [wasmImportedCapabilities, Program.eval_bind, hscan]
    rfl
  · rw [wasmMemoryWithinLimit, Container.wasmMemoryWithinLimit, Container.wasmCheck]
    by_cases hpages : (maxMemoryPages == 0) = true
    · rw [if_pos hpages, bne, hpages]
      rfl
    rw [if_neg hpages, bne, eq_false_of_ne_true hpages, Program.eval_bind, hcheck]
    cases RawScan.onModule (Container.scanModule wasm.length) wasm with
    | error error => rfl
    | ok capabilities =>
        change ((rawMemoryLoop wasm.length maxMemoryPages.toNat wasm.length wasmHeader.length).run
          >>= fun within => pure (decide (within = .ok true))).eval (moduleMarks wasm) = _
        rw [Program.eval_bind, eval_run, erase_rawMemoryLoop]
        rfl

end Container.Marked
