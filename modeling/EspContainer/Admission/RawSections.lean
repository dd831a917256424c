/-
# The runtime's scan of an admitted module: sections

The runtime's scan looks at all sections and at the exports, later again at the types, the
imports and the memory. On the sections of a module that was admitted it finds what it looks
for, at the places where the sections lie.
-/

import EspContainer.Admission.DeviceExports
import EspContainer.Admission.RawReaders

namespace Container

open Binary Interaction Package Wasm

variable {β : Type} {wasm content rest : List UInt8} {stop cursor : Nat}

/-! ## Exports -/

theorem onModule_dangerousAmong {name : RawName} {text : List UInt8} (hname : name.Holds wasm text)
    (names : List (List UInt8)) :
    RawScan.onModule (dangerousAmong name names) wasm =
      .ok (names.any fun expected => text == expected) := by
  induction names with
  | nil => rfl
  | cons expected names ih =>
      rw [dangerousAmong, onModule_bind, onModule_rawNameIs hname, List.any_cons]
      change RawScan.onModule (if (text == expected) = true then _ else _) wasm = _
      cases text == expected with
      | true => rfl
      | false => exact ih

/-- The names that the scans expect are not dangerous. -/
theorem onModule_dangerousExport {name : RawName} {exported : ExportName}
    (hname : name.Holds wasm exported.field) :
    RawScan.onModule (dangerousExport name) wasm = .ok false := by
  rw [dangerousExport, onModule_dangerousAmong hname]
  cases exported <;> decide

/-- An export that the package's scan expects has one of its names, with its kind. -/
theorem exists_exportName {entry : Export} (haccepted : Tools.exportAccepts entry = true) :
    ∃ exported : ExportName, entry.name = exported.field ∧ entry.kind = exported.kind := by
  rw [Tools.exportAccepts, Bool.and_eq_true, beq_iff_eq, lookup_expectedExports] at haccepted
  obtain ⟨exported, hname, hkind⟩ := Option.map_eq_some_iff.mp haccepted.1
  exact ⟨exported, ExportName.field_of_ofField hname, hkind.symm⟩

/-- One round of the loop over the exports. -/
theorem onModule_rawExport (hstop : stop ≤ wasm.length) {bytes : List UInt8} {entry : Export}
    (hplace : At (wasm.take stop) cursor bytes)
    (hentry : Parser.exportEntry bytes = some (entry, rest))
    (haccepted : Tools.exportAccepts entry = true) :
    ∃ after, At (wasm.take stop) after rest ∧
      RawScan.onModule (do
        let (length, cursor) ← readU32 stop cursor
        demand (!(length > stop - cursor))
        let dangerous ← dangerousExport ⟨cursor, length⟩
        demandSupported (!dangerous)
        let cursor := cursor + length
        demand (!(cursor ≥ stop))
        let kind ← readByte cursor
        demand (!(kind > 3))
        let (_, cursor) ← readU32 stop (cursor + 1)
        pure cursor) wasm = .ok after := by
  obtain ⟨exported, hname, hkind⟩ := exists_exportName haccepted
  rw [Parser.exportEntry, Parser.sized, bind_assoc] at hentry
  simp only [Parser.bind_eq_some, Parser.item_eq_some, Parser.pure_eq_some, Prod.mk.injEq] at hentry
  obtain ⟨size, _, hsize, text, _, htext, kind, _, rfl, target, _, htarget, rfl, rfl⟩ := hentry
  dsimp only at hname hkind
  subst hname hkind
  obtain ⟨start, hstart, hlength⟩ := onModule_number hstop hplace hsize
  obtain ⟨hfits, hholds, hbehind⟩ := holds_of_take hstart hstop htext
  obtain ⟨-, -, hafter⟩ := getD_of_at hbehind
  obtain ⟨after, hlast, hindex⟩ := onModule_number hstop hafter htarget
  have hleft : ¬ size > stop - start := by omega
  have hknown : ¬ exported.kind > 3 := by cases exported <;> decide
  refine ⟨after, hlast, ?_⟩
  rw [hlength]
  dsimp only
  rw [onModule_demand, decide_eq_false hleft, Bool.not_false, if_pos rfl, onModule_bind,
    onModule_dangerousExport hholds]
  change RawScan.onModule (demandSupported true >>= _) wasm = _
  rw [onModule_demandSupported, if_pos rfl, onModule_item hbehind, onModule_demand,
    decide_eq_false hknown, Bool.not_false, if_pos rfl, hindex]
  rfl

/-- The export section. -/
theorem onModule_checkRawExports (hstop : stop ≤ wasm.length)
    (hplace : At (wasm.take stop) cursor content) {entries : List Export}
    (hentries : Parser.whole (.vector .exportEntry) content = some entries)
    (haccepted : ∀ entry ∈ entries, Tools.exportAccepts entry = true) :
    RawScan.onModule (checkRawExports stop cursor) wasm = .ok () := by
  obtain ⟨count, middle, hcount, htimes⟩ := Parser.whole_vector_eq_some.mp hentries
  obtain ⟨start, hstart, hread⟩ := onModule_number hstop hplace hcount
  obtain ⟨after, hafter, hloop⟩ := @eval_counted ByteAccess _ _ _ _
    (fun index => wasm.getD index 0) middle [] _ _ (checking Tools.exportAccepts)
    (fun cursor _ bytes => At (wasm.take stop) cursor bytes)
    (fun _ _ _ _ _ _ _ hplace hentry hchecked =>
      onModule_rawExport hstop hplace hentry (of_checking hchecked))
    count entries start () () hstart htimes (foldlM_checking.mpr haccepted)
  have hend := hafter.eq_end
  rw [List.length_take_of_le hstop] at hend
  rw [checkRawExports, hread]
  dsimp only
  rw [onModule_bind, RawScan.onModule, hloop]
  change RawScan.onModule (demand (after == stop)) wasm = _
  rw [hend, beq_self_eq_true]
  rfl

/-! ## Sections -/

/-- What the two loops over the sections read first. -/
theorem onModule_sectionHead {bytes : List UInt8} {number : UInt8} (hplace : At wasm cursor bytes)
    (hentry : Parser.sectionEntry bytes = some ((number, content), rest)) :
    ∃ start, cursor < start ∧ start + content.length ≤ wasm.length ∧
      At (wasm.take (start + content.length)) start content ∧
      At wasm (start + content.length) rest ∧
      ∀ next : UInt8 → Nat → Nat → RawScan β, RawScan.onModule (do
        let number ← readByte cursor
        let (length, cursor) ← readU32 wasm.length (cursor + 1)
        demand (!(length > wasm.length - cursor))
        next number length cursor) wasm =
          RawScan.onModule (next number content.length start) wasm := by
  have hwhole : wasm.take wasm.length = wasm := List.take_length
  rw [← hwhole] at hplace
  rw [Parser.sectionEntry, Parser.sized] at hentry
  simp only [Parser.bind_eq_some, Parser.item_eq_some, Parser.pure_eq_some, Prod.mk.injEq] at hentry
  obtain ⟨_, _, rfl, _, _, ⟨size, _, hsize, htake⟩, ⟨rfl, rfl⟩, rfl⟩ := hentry
  obtain ⟨-, hbyte, hafter⟩ := getD_of_at hplace
  obtain ⟨start, hstart, hread⟩ := onModule_number (Nat.le_refl _) hafter hsize
  obtain ⟨rfl, hbound, hbytes, hbehind⟩ := hstart.take htake
  have hless : cursor < start := by
    have htaken := Parser.takes_number _ _ hsize
    have hbefore := hafter.length
    have hbehind := hstart.length
    have hend := hafter.bound
    dsimp only at htaken
    omega
  rw [hwhole] at hbound hbytes hbehind
  refine ⟨start, hless, hbound, ⟨?_, ?_⟩, hbehind, fun next => ?_⟩
  · rw [List.length_take_of_le hbound]
    exact Nat.le_add_right _ _
  · rw [List.drop_take, Nat.add_sub_cancel_left, hbytes]
  · have hleft : ¬ content.length > wasm.length - start := by omega
    rw [onModule_readByte, hbyte, hread]
    dsimp only
    rw [onModule_demand, decide_eq_false hleft]
    rfl

/-- Where a section that the runtime's scan remembers lies; no section begins at zero. -/
def Remembered (wasm : List UInt8) (start stop : Nat) : Option (List UInt8) → Prop
  | none => start = 0
  | some content => 0 < start ∧ stop ≤ wasm.length ∧ At (wasm.take stop) start content

/-- The sections that the runtime's scan remembers are the ones that were seen. -/
structure RawSections.Located (wasm : List UInt8) (sections : RawSections)
    (seen : Tools.SeenSections) : Prop where
  types : Remembered wasm sections.typeBegin sections.typeEnd (seen.1.lookup 1)
  imports : Remembered wasm sections.importBegin sections.importEnd (seen.1.lookup 2)

/-- What a section does to the sections that were seen. -/
theorem sectionChange_cases {seen next : Tools.SeenSections} {number : UInt8}
    (hchange : Tools.sectionChange seen (number, content) = some next) :
    ¬ number > 12 ∧ number ≠ 8 ∧
      (number = 0 ∧ next = seen ∨
        number ≠ 0 ∧ ¬ number ≤ seen.2 ∧ next = ((number, content) :: seen.1, number)) := by
  rw [Tools.sectionChange] at hchange
  split at hchange
  · cases hchange
  · next hrefused =>
    rw [Bool.or_eq_true, not_or, List.contains_iff_mem, decide_eq_true_eq] at hrefused
    obtain ⟨hlisted, hlarge⟩ := hrefused
    have height : number ≠ 8 := by
      rintro rfl
      exact hlisted (List.mem_cons_of_mem _ List.mem_cons_self)
    refine ⟨hlarge, height, ?_⟩
    split at hchange
    · next hcustom =>
      left
      refine ⟨beq_iff_eq.mp hcustom, ?_⟩
      split at hchange
      · cases hchange
      · split at hchange
        · cases hchange
        · cases hchange
          rfl
    · next hcustom =>
      right
      refine ⟨fun hzero => hcustom (beq_iff_eq.mpr hzero), ?_⟩
      split at hchange
      · cases hchange
      · next horder =>
        cases hchange
        exact ⟨horder, rfl⟩

/-- What a round of the loop does behind the number and the length of a section. -/
def rawSectionRound (size rounds : Nat) (last : UInt8) (sections : RawSections) (number : UInt8)
    (length cursor : Nat) : RawScan RawSections := do
  let stop := cursor + length
  demandSupported (!(number > 12))
  demand (!(number != 0 && number ≤ last))
  demandSupported (number != 8)
  let last := if number != 0 then number else last
  let sections :=
    if number == 1 then { sections with typeBegin := cursor, typeEnd := stop } else sections
  let sections :=
    if number == 2 then { sections with importBegin := cursor, importEnd := stop } else sections
  if number == 7 then do
    checkRawExports stop cursor
    rawSectionsLoop size rounds stop last sections
  else
    rawSectionsLoop size rounds stop last sections

/-- The sections that are remembered behind a section. -/
def RawSections.put (sections : RawSections) (number : UInt8) (start stop : Nat) : RawSections :=
  let sections :=
    if number == 1 then { sections with typeBegin := start, typeEnd := stop } else sections
  if number == 2 then { sections with importBegin := start, importEnd := stop } else sections

theorem RawSections.Located.put {sections : RawSections} {seen : Tools.SeenSections}
    (hlocated : sections.Located wasm seen) {number last : UInt8} {start : Nat} (hstart : 0 < start)
    (hbound : start + content.length ≤ wasm.length)
    (hplace : At (wasm.take (start + content.length)) start content) :
    RawSections.Located wasm (sections.put number start (start + content.length))
      ((number, content) :: seen.1, last) := by
  have hremembered : Remembered wasm start (start + content.length) (some content) :=
    ⟨hstart, hbound, hplace⟩
  have hlookup (other : UInt8) (hother : (other == number) = false) :
      ((number, content) :: seen.1).lookup other = seen.1.lookup other := by
    rw [List.lookup_cons, hother]
  by_cases hone : number = 1
  · subst hone
    exact ⟨hremembered, (hlookup 2 rfl).symm ▸ hlocated.imports⟩
  · have hother : (1 == number) = false := beq_eq_false_iff_ne.mpr fun hsame => hone hsame.symm
    have hkept : (number == 1) = false := beq_eq_false_iff_ne.mpr hone
    rw [RawSections.put, hkept, if_neg Bool.false_ne_true]
    by_cases htwo : number = 2
    · subst htwo
      exact ⟨(hlookup 1 rfl).symm ▸ hlocated.types, hremembered⟩
    · have hthird : (2 == number) = false := beq_eq_false_iff_ne.mpr fun hsame => htwo hsame.symm
      have hlast : (number == 2) = false := beq_eq_false_iff_ne.mpr htwo
      rw [hlast, if_neg Bool.false_ne_true]
      exact ⟨(hlookup 1 hother).symm ▸ hlocated.types, (hlookup 2 hthird).symm ▸ hlocated.imports⟩

/-- A round on a section that was admitted goes on behind it. -/
theorem onModule_rawSectionRound {sections : RawSections} {seen next : Tools.SeenSections}
    (hlocated : sections.Located wasm seen) {number : UInt8} {start rounds : Nat} (hstart : 0 < start)
    (hbound : start + content.length ≤ wasm.length)
    (hplace : At (wasm.take (start + content.length)) start content)
    (hchange : Tools.sectionChange seen (number, content) = some next)
    (hexports : number = 7 →
      RawScan.onModule (checkRawExports (start + content.length) start) wasm = .ok ()) :
    ∃ after, RawSections.Located wasm after next ∧
      RawScan.onModule (rawSectionRound wasm.length rounds seen.2 sections number content.length
        start) wasm =
      RawScan.onModule (rawSectionsLoop wasm.length rounds (start + content.length) next.2 after)
        wasm := by
  obtain ⟨hsmall, height, hcases⟩ := sectionChange_cases hchange
  have hother : (number != 8) = true := bne_iff_ne.mpr height
  rcases hcases with ⟨rfl, rfl⟩ | ⟨hnumber, horder, rfl⟩
  · exact ⟨sections, hlocated, rfl⟩
  · have hcounts : (number != 0) = true := bne_iff_ne.mpr hnumber
    refine ⟨sections.put number start (start + content.length),
      hlocated.put hstart hbound hplace, ?_⟩
    rw [rawSectionRound, onModule_demandSupported, decide_eq_false hsmall, Bool.not_false, if_pos rfl,
      onModule_demand, decide_eq_false horder, Bool.and_false, Bool.not_false, if_pos rfl,
      onModule_demandSupported, if_pos hother, if_pos hcounts]
    by_cases hseven : number = 7
    · rw [if_pos (beq_iff_eq.mpr hseven), onModule_bind, hexports hseven]
      rfl
    · rw [if_neg (fun hsame => hseven (beq_iff_eq.mp hsame))]
      rfl

/-- The loop over the sections of an admitted module remembers where they lie. -/
theorem onModule_rawSectionsLoop {rounds : Nat} {bytes : List UInt8}
    {entries : List (UInt8 × List UInt8)} {sections : RawSections} {seen last : Tools.SeenSections}
    (hlocated : sections.Located wasm seen) (hplace : At wasm cursor bytes)
    (hentries : Parser.many Parser.sectionEntry rounds bytes = some (entries, rest))
    (hfold : entries.foldlM Tools.sectionChange seen = some last)
    (hexports : ∀ content, (7, content) ∈ entries → ∃ exported,
      Parser.whole (.vector .exportEntry) content = some exported ∧
        ∀ entry ∈ exported, Tools.exportAccepts entry = true) :
    ∃ found, RawSections.Located wasm found last ∧
      RawScan.onModule (rawSectionsLoop wasm.length rounds cursor seen.2 sections) wasm = .ok found := by
  induction rounds generalizing cursor bytes entries sections seen with
  | zero =>
      obtain ⟨rfl, -⟩ := Prod.mk.inj (Parser.pure_eq_some.mp hentries)
      cases hfold
      exact ⟨sections, hlocated, rfl⟩
  | succ rounds ih =>
      rw [rawSectionsLoop]
      rcases Parser.many_succ_eq_some.mp hentries with ⟨rfl, rfl, -⟩ |
        ⟨hsome, ⟨number, content⟩, others, middle, rfl, hentry, hothers⟩
      · cases hfold
        rw [hplace.eq_end, if_neg (Nat.lt_irrefl _)]
        exact ⟨sections, hlocated, rfl⟩
      · rw [List.foldlM_cons] at hfold
        obtain ⟨next, hchange, hrest⟩ := Option.bind_eq_some_iff.mp hfold
        obtain ⟨start, hless, hbound, hcontent, hbehind, hhead⟩ := onModule_sectionHead hplace hentry
        have hcursor : cursor < wasm.length := by
          have hbound := hcontent.bound
          rw [List.length_take] at hbound
          omega
        have hchecked (hseven : number = 7) :
            RawScan.onModule (checkRawExports (start + content.length) start) wasm = .ok () := by
          subst hseven
          obtain ⟨exported, hexported, haccepted⟩ := hexports content List.mem_cons_self
          exact onModule_checkRawExports hbound hcontent hexported haccepted
        obtain ⟨after, hafter, hround⟩ := onModule_rawSectionRound hlocated (Nat.zero_lt_of_lt hless)
          hbound hcontent hchange hchecked
        obtain ⟨found, hfound, hloop⟩ := ih hafter hbehind hothers hrest
          fun content hmem => hexports content (List.mem_cons_of_mem _ hmem)
        refine ⟨found, hfound, ?_⟩
        rw [if_pos hcursor]
        exact (hhead (rawSectionRound wasm.length rounds seen.2 sections)).trans (hround.trans hloop)

/-! ## What the sections of a module are -/

/-- A section that counts is found under its number, and nothing else is. -/
theorem lookup_foldlM_sectionChange {entries : List (UInt8 × List UInt8)}
    {seen last : Tools.SeenSections} (hordered : ∀ item ∈ seen.1, item.1 ≤ seen.2)
    (hfold : entries.foldlM Tools.sectionChange seen = some last) {number : UInt8}
    (hnumber : number ≠ 0) (content : List UInt8) :
    last.1.lookup number = some content ↔
      (number, content) ∈ entries ∨ seen.1.lookup number = some content := by
  induction entries generalizing seen with
  | nil =>
      cases hfold
      simp only [List.not_mem_nil, false_or]
  | cons entry entries ih =>
      rw [List.foldlM_cons] at hfold
      obtain ⟨next, hchange, hrest⟩ := Option.bind_eq_some_iff.mp hfold
      rcases (sectionChange_cases hchange).2.2 with ⟨hcustom, rfl⟩ | ⟨-, horder, rfl⟩
      · have hother : (number, content) ≠ entry := by
          rintro rfl
          exact hnumber hcustom
        rw [ih hordered hrest, List.mem_cons, or_iff_right hother]
      · have hnext : ∀ item ∈ entry :: seen.1, item.1 ≤ entry.1 := by
          intro item hitem
          rcases List.mem_cons.mp hitem with rfl | hitem
          · exact UInt8.le_refl _
          · exact UInt8.le_trans (hordered item hitem) (UInt8.le_of_lt (UInt8.not_le.mp horder))
        rw [ih hnext hrest, List.mem_cons, List.lookup_cons]
        by_cases hsame : number = entry.1
        · subst hsame
          have hfresh : seen.1.lookup entry.1 ≠ some content := by
            intro hlookup
            exact horder (hordered (entry.1, content) (Tools.mem_of_lookup hlookup))
          rw [beq_self_eq_true, Option.some.injEq, or_iff_left hfresh]
          constructor
          · rintro (hmem | rfl)
            · exact .inr hmem
            · exact .inl rfl
          · rintro (heq | hmem)
            · exact .inr (congrArg Prod.snd heq).symm
            · exact .inl hmem
        · have hother : (number, content) ≠ entry := fun heq => hsame (congrArg Prod.fst heq)
          rw [beq_eq_false_iff_ne.mpr hsame, or_iff_right hother]

/-- The sections of a module, by their numbers. -/
theorem mem_sections_iff {entries : List (UInt8 × List UInt8)} {last : Tools.SeenSections}
    (hfold : entries.foldlM Tools.sectionChange ([], 0) = some last) {number : UInt8}
    (hnumber : number ≠ 0) (content : List UInt8) :
    (number, content) ∈ entries ↔ last.1.lookup number = some content := by
  have hnone : ∀ item ∈ ([] : List (UInt8 × List UInt8)), item.1 ≤ 0 :=
    fun item hitem => absurd hitem List.not_mem_nil
  rw [lookup_foldlM_sectionChange hnone hfold hnumber content]
  simp only [List.lookup_nil, reduceCtorEq, or_false]

/-! ## The memory -/

/-- What a round of the search for the memory does behind the number and the length of a
section. -/
def rawMemoryRound (size maxMemoryPages rounds : Nat) (number : UInt8) (length cursor : Nat) :
    RawScan Bool := do
  let stop := cursor + length
  if number == 5 then do
    let (count, cursor) ← readU32 stop cursor
    demand (count == 1)
    let (flags, cursor) ← readU32 stop cursor
    demand (flags == 1)
    let (minimum, cursor) ← readU32 stop cursor
    demand (minimum > 0)
    let (maximum, cursor) ← readU32 stop cursor
    pure (minimum ≤ maximum && maximum ≤ maxMemoryPages && cursor == stop)
  else
    rawMemoryLoop size maxMemoryPages rounds stop

/-- A memory section within the limit. -/
theorem onModule_rawMemoryRound {size rounds start maxMemoryBytes : Nat} {memory : Memory}
    (hbound : start + content.length ≤ wasm.length)
    (hplace : At (wasm.take (start + content.length)) start content)
    (hmemory : Parser.whole .memory content = some memory)
    (hwithin : Tools.MemoryWithin maxMemoryBytes memory) :
    RawScan.onModule (rawMemoryRound size (maxMemoryBytes / 65536) rounds 5 content.length start)
      wasm = .ok true := by
  rw [Parser.whole_eq_some, Parser.memory] at hmemory
  simp only [Parser.bind_eq_some, Parser.pure_eq_some, Prod.mk.injEq] at hmemory
  obtain ⟨count, _, hcount, flags, _, hflags, minimum, _, hminimum, maximum, _, hmaximum, rfl, rfl⟩ :=
    hmemory
  obtain ⟨hone, hshared, hpositive, hordered, hlimit⟩ := hwithin
  dsimp only at hone hshared hpositive hordered hlimit
  subst hone hshared
  obtain ⟨first, hfirst, hreadCount⟩ := onModule_number hbound hplace hcount
  obtain ⟨second, hsecond, hreadFlags⟩ := onModule_number hbound hfirst hflags
  obtain ⟨third, hthird, hreadMinimum⟩ := onModule_number hbound hsecond hminimum
  obtain ⟨fourth, hfourth, hreadMaximum⟩ := onModule_number hbound hthird hmaximum
  have hend := hfourth.eq_end
  rw [List.length_take_of_le hbound] at hend
  rw [rawMemoryRound]
  change RawScan.onModule (readU32 (start + content.length) start >>= _) wasm = _
  rw [hreadCount]
  dsimp only
  rw [onModule_demand, beq_self_eq_true, if_pos rfl, hreadFlags]
  dsimp only
  rw [onModule_demand, beq_self_eq_true, if_pos rfl, hreadMinimum]
  dsimp only
  rw [onModule_demand, decide_eq_true hpositive, if_pos rfl, hreadMaximum]
  dsimp only
  rw [decide_eq_true hordered, decide_eq_true hlimit, hend, beq_self_eq_true]
  rfl

/-- The search finds the memory. -/
theorem onModule_rawMemoryLoop {rounds maxMemoryBytes : Nat} {bytes : List UInt8}
    {entries : List (UInt8 × List UInt8)} (hplace : At wasm cursor bytes)
    (hentries : Parser.many Parser.sectionEntry rounds bytes = some (entries, rest))
    (hmemory : ∀ content, (5, content) ∈ entries → ∃ memory,
      Parser.whole .memory content = some memory ∧ Tools.MemoryWithin maxMemoryBytes memory)
    (hexists : ∃ content, (5, content) ∈ entries) :
    RawScan.onModule (rawMemoryLoop wasm.length (maxMemoryBytes / 65536) rounds cursor) wasm =
      .ok true := by
  induction rounds generalizing cursor bytes entries with
  | zero =>
      obtain ⟨rfl, -⟩ := Prod.mk.inj (Parser.pure_eq_some.mp hentries)
      obtain ⟨content, hmem⟩ := hexists
      cases hmem
  | succ rounds ih =>
      rw [rawMemoryLoop]
      rcases Parser.many_succ_eq_some.mp hentries with ⟨rfl, rfl, -⟩ |
        ⟨hsome, ⟨number, content⟩, others, middle, rfl, hentry, hothers⟩
      · obtain ⟨content, hmem⟩ := hexists
        cases hmem
      · obtain ⟨start, hless, hbound, hcontent, hbehind, hhead⟩ := onModule_sectionHead hplace hentry
        have hcursor : cursor < wasm.length := by
          have hbound := hcontent.bound
          rw [List.length_take] at hbound
          omega
        rw [if_pos hcursor]
        refine (hhead (rawMemoryRound wasm.length (maxMemoryBytes / 65536) rounds)).trans ?_
        by_cases hfive : number = 5
        · subst hfive
          obtain ⟨memory, hwhole, hwithin⟩ := hmemory content List.mem_cons_self
          exact onModule_rawMemoryRound hbound hcontent hwhole hwithin
        · rw [rawMemoryRound, if_neg (fun hsame => hfive (beq_iff_eq.mp hsame))]
          apply ih hbehind hothers
          · exact fun content hmem => hmemory content (List.mem_cons_of_mem _ hmem)
          · obtain ⟨found, hmem⟩ := hexists
            rcases List.mem_cons.mp hmem with heq | hmem
            · exact absurd (congrArg Prod.fst heq).symm hfive
            · exact ⟨found, hmem⟩

end Container
