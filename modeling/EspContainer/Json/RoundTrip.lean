/-
# Reading what was written

A value without floats whose objects have their keys in order is read back from its text,
whatever follows it, as long as that does not go on with a number. The induction is on the
depth, which is what the reader's limit counts.
-/

import EspContainer.Json.Reading

namespace Json

open Text

variable {F E : Type} {decoder : Decoder F E} {format : F → Option (List Nat)}

/-! ## Strings -/

theorem hexDigitValue_hexDigit : ∀ value < 16, hexDigitValue (hexDigit value) = some value := by
  decide

theorem scanUnits_cons {code : Nat} (hcode : 32 ≤ code) (hquote : code ≠ 34) (hbackslash : code ≠ 92)
    (rest : List Nat) : scanUnits (code :: rest) = behind (code, false) (scanUnits rest) := by
  rw [scanUnits.eq_def]
  dsimp only
  rw [if_neg hquote, if_neg hbackslash, if_neg (Nat.not_lt.mpr hcode)]

theorem scanUnits_simple {mark code : Nat} (hmark : simpleEscape mark = some code)
    (hnumber : mark ≠ 117) (rest : List Nat) :
    scanUnits (92 :: mark :: rest) = behind (code, false) (scanUnits rest) := by
  rw [scanUnits.eq_def]
  dsimp only
  rw [if_neg (by decide), if_pos rfl, if_neg hnumber, hmark]

theorem scanUnits_number {first second third fourth number : Nat}
    (hnumber : hexNumber first second third fourth = some number) (rest : List Nat) :
    scanUnits (92 :: 117 :: first :: second :: third :: fourth :: rest) =
      behind (number, true) (scanUnits rest) := by
  rw [scanUnits.eq_def]
  dsimp only
  rw [if_neg (by decide), if_pos rfl, if_pos rfl, hnumber]

/-- Control characters without an escape of their own are written as numbers. -/
def writtenAsNumber (code : Nat) : Bool :=
  code < 32 && code != 10 && code != 13 && code != 9 && code != 12 && code != 8

theorem hexNumber_control {code : Nat} (hcode : code < 32) :
    hexNumber 48 48 (hexDigit (code / 16)) (hexDigit (code % 16)) = some code := by
  rw [hexNumber, hexDigitValue_hexDigit _ (by omega), hexDigitValue_hexDigit _ (by omega)]
  simp only [show hexDigitValue 48 = some 0 from rfl, Option.bind_eq_bind, Option.bind_some,
    Option.pure_def, Option.some.injEq]
  omega

/-- A code point is read back from its escape. -/
theorem scanUnits_escape (code : Nat) (rest : List Nat) :
    scanUnits (escape code ++ rest) =
      behind (code, writtenAsNumber code) (scanUnits rest) := by
  by_cases hquote : code = 34
  · subst hquote
    exact scanUnits_simple (by decide) (by decide) rest
  by_cases hbackslash : code = 92
  · subst hbackslash
    exact scanUnits_simple (by decide) (by decide) rest
  by_cases hnewline : code = 10
  · subst hnewline
    exact scanUnits_simple (by decide) (by decide) rest
  by_cases hreturn : code = 13
  · subst hreturn
    exact scanUnits_simple (by decide) (by decide) rest
  by_cases htab : code = 9
  · subst htab
    exact scanUnits_simple (by decide) (by decide) rest
  by_cases hfeed : code = 12
  · subst hfeed
    exact scanUnits_simple (by decide) (by decide) rest
  by_cases hbackspace : code = 8
  · subst hbackspace
    exact scanUnits_simple (by decide) (by decide) rest
  have hunit : writtenAsNumber code = decide (code < 32) := by
    rw [Bool.eq_iff_iff]
    simp only [writtenAsNumber, Bool.and_eq_true, decide_eq_true_eq, bne_iff_ne]
    omega
  simp only [escape, hunit, hquote, hbackslash, hnewline, hreturn, htab, hfeed, hbackspace, if_false]
  rcases Nat.lt_or_ge code 32 with hcontrol | hcode
  · rw [if_pos hcontrol, decide_eq_true hcontrol]
    exact scanUnits_number (hexNumber_control hcontrol) rest
  · rw [if_neg (Nat.not_lt.mpr hcode), decide_eq_false (Nat.not_lt.mpr hcode)]
    exact scanUnits_cons hcode hquote hbackslash rest

theorem scanUnits_written (text rest : List Nat) :
    scanUnits (text.flatMap escape ++ (codes "\"" ++ rest)) =
      some (text.map fun code => (code, writtenAsNumber code), rest) := by
  induction text with
  | nil =>
      rw [List.flatMap_nil, List.nil_append, show codes "\"" ++ rest = 34 :: rest from rfl,
        scanUnits.eq_def]
      rfl
  | cons code text ih =>
      rw [List.flatMap_cons, List.append_assoc, scanUnits_escape, ih]
      rfl

/-- Nothing that was written is half of a pair. -/
theorem joinUnits_written (text : List Nat) :
    joinUnits (text.map fun code => (code, writtenAsNumber code)) = text := by
  have hfirst (code : Nat) : (writtenAsNumber code && isHighSurrogate code) = false := by
    simp only [writtenAsNumber, isHighSurrogate, Bool.and_eq_false_iff, decide_eq_false_iff_not]
    omega
  induction text with
  | nil => rfl
  | cons code text ih =>
      cases text with
      | nil => rfl
      | cons next text =>
          rw [List.map_cons, List.map_cons, joinUnits, hfirst, Bool.false_and, Bool.false_and,
            if_neg Bool.false_ne_true, ← List.map_cons (f := fun code => (code, writtenAsNumber code)),
            ih]

/-- A string is read back from behind its first quote. -/
theorem scanString_written (text rest : List Nat) :
    scanString (text.flatMap escape ++ (codes "\"" ++ rest)) = some (text, rest) := by
  rw [scanString, scanUnits_written, Option.map_some, joinUnits_written]

/-! ## Numbers -/

/-- The text goes on with nothing that a number could. -/
def NumberEnds (rest : List Nat) : Prop :=
  ∀ code ∈ rest.head?, isDecimalDigit code = false ∧ code ≠ 46 ∧ code ≠ 69 ∧ code ≠ 101

theorem numberEnds_nil : NumberEnds [] := by
  rintro code ⟨⟩

theorem numberEnds_cons {code : Nat} {rest : List Nat} :
    NumberEnds (code :: rest) ↔
      isDecimalDigit code = false ∧ code ≠ 46 ∧ code ≠ 69 ∧ code ≠ 101 := by
  simp [NumberEnds]

theorem scanFraction_of_ends {rest : List Nat} (hrest : NumberEnds rest) :
    scanFraction rest = ([], rest) := by
  cases rest with
  | nil => rfl
  | cons code rest => simp [scanFraction, (numberEnds_cons.mp hrest).2.1]

theorem scanExponent_of_ends {rest : List Nat} (hrest : NumberEnds rest) :
    scanExponent rest = ([], rest) := by
  cases rest with
  | nil => rfl
  | cons code rest =>
      simp [scanExponent, (numberEnds_cons.mp hrest).2.2.1, (numberEnds_cons.mp hrest).2.2.2]

theorem takeWhile_digits {digits rest : List Nat}
    (hdigits : ∀ digit ∈ digits, isDecimalDigit digit = true) (hrest : NumberEnds rest) :
    (digits ++ rest).takeWhile isDecimalDigit = digits ∧
      (digits ++ rest).dropWhile isDecimalDigit = rest := by
  induction digits with
  | nil =>
      cases rest with
      | nil => exact ⟨rfl, rfl⟩
      | cons code rest => simp [(numberEnds_cons.mp hrest).1]
  | cons digit digits ih =>
      rw [List.forall_mem_cons] at hdigits
      obtain ⟨htaken, hdropped⟩ := ih hdigits.2
      simp [hdigits.1, htaken, hdropped]

/-- The digits of a number are read as far as they go. -/
theorem scanInteger_decimal (number : Nat) {rest : List Nat} (hrest : NumberEnds rest) :
    scanInteger (decimal number ++ rest) = some (decimal number, rest) := by
  have hdecimal := isDecimal_decimal number
  obtain ⟨first, others, hdigits⟩ := List.exists_cons_of_ne_nil hdecimal.nonempty
  rw [hdigits] at hdecimal ⊢
  have heach := List.forall_mem_cons.mp hdecimal.each
  rw [List.cons_append, scanInteger]
  by_cases hzero : first = 48
  · subst hzero
    obtain rfl : others = [] := List.length_eq_zero_iff.mp (Nat.succ.inj (hdecimal.leading rfl))
    rfl
  · obtain ⟨htaken, hdropped⟩ := takeWhile_digits heach.2 hrest
    rw [if_neg hzero, if_pos heach.1, htaken, hdropped]

theorem head_decimal (number : Nat) (rest : List Nat) :
    ∃ first others, decimal number ++ rest = first :: others ∧ isDecimalDigit first = true := by
  obtain ⟨first, others, hdigits⟩ := List.exists_cons_of_ne_nil (decimal_ne_nil number)
  refine ⟨first, others ++ rest, by rw [hdigits]; rfl, ?_⟩
  exact isDecimalDigit_of_mem_decimal (by rw [hdigits]; exact List.mem_cons_self)

/-- A number is read back. -/
theorem scanNumber_writeInt (decoder : Decoder F E) (value : Int) {rest : List Nat}
    (hrest : NumberEnds rest) :
    scanNumber decoder (writeInt value ++ rest) = some (.int value, rest) := by
  rw [writeInt]
  split
  · next hnegative =>
    rw [show codes "-" = [45] from rfl]
    simp only [scanNumber, List.cons_append, List.nil_append, List.take_succ_cons, List.take_zero,
      List.filter_cons, beq_self_eq_true, if_true, List.filter_nil, List.length_singleton,
      List.drop_succ_cons, List.drop_zero, scanInteger_decimal _ hrest, scanFraction_of_ends hrest,
      scanExponent_of_ends hrest, List.isEmpty_nil, Bool.and_self, readDecimal_decimal,
      List.isEmpty_cons, Bool.false_eq_true, if_false, Option.some.injEq, Prod.mk.injEq,
      Value.int.injEq, and_true]
    omega
  · next hpositive =>
    obtain ⟨first, others, hfirst, hdigit⟩ := head_decimal value.natAbs rest
    have hsign : ((decimal value.natAbs ++ rest).take 1 |>.filter fun code => code == 45) = [] := by
      rw [hfirst]
      have hminus : ¬ first = 45 := by
        rintro rfl
        cases hdigit
      simp [hminus]
    simp only [scanNumber, hsign, List.length_nil, List.drop_zero, scanInteger_decimal _ hrest,
      scanFraction_of_ends hrest, scanExponent_of_ends hrest, List.isEmpty_nil, Bool.and_self,
      if_true, readDecimal_decimal, Option.some.injEq, Prod.mk.injEq, Value.int.injEq, and_true]
    omega

/-! ## Sequences -/

/-- A text begins an element of a sequence: with an ASCII character that is no space and does
not end one. -/
def Begins (text : List Nat) : Prop :=
  ∃ first others, text = first :: others ∧ first < 128 ∧ isSpace first = false ∧ first ≠ 93 ∧
    first ≠ 125

/-- A scan reads a value from its text, whatever else follows that no number goes on with. -/
structure ReadsBack {α : Type} (scan : Scan E α) (text : List Nat) (value : α) : Prop where
  begins : Begins text
  back : ∀ rest, NumberEnds rest → scan (text ++ rest) = .ok (value, rest)

theorem Begins.ne_nil {text : List Nat} (htext : Begins text) : text ≠ [] := by
  obtain ⟨first, others, rfl, -, -⟩ := htext
  exact List.cons_ne_nil _ _

theorem Begins.append {text : List Nat} (htext : Begins text) (rest : List Nat) :
    Begins (text ++ rest) := by
  obtain ⟨first, others, rfl, hfirst⟩ := htext
  exact ⟨first, others ++ rest, rfl, hfirst⟩

theorem Begins.skipSpaces_eq {text : List Nat} (htext : Begins text) : skipSpaces text = text := by
  obtain ⟨first, others, rfl, -, hspace, -⟩ := htext
  rw [skipSpaces, List.dropWhile_cons, hspace, if_neg Bool.false_ne_true]

theorem commaed_cons (text : List Nat) (texts : List (List Nat)) :
    commaed (text :: texts) = text ++ if texts.isEmpty then [] else codes "," ++ commaed texts := by
  cases texts <;> simp [commaed]

theorem Begins.commaed {text : List Nat} (htext : Begins text) (texts : List (List Nat)) :
    Begins (commaed (text :: texts)) := by
  rw [commaed_cons]
  exact htext.append _

variable {α : Type} {element : Scan E α} {close : Nat}

/-- The last element. -/
theorem scanSequence_last {rounds : Nat} {text rest : List Nat} {first : α}
    (hfirst : element text = .ok (first, close :: rest)) (hclose : isSpace close = false) :
    scanSequence element close (rounds + 1) text = .ok ([first], rest) := by
  have hskip : skipSpaces (close :: rest) = close :: rest := by
    rw [skipSpaces, List.dropWhile_cons, hclose, if_neg Bool.false_ne_true]
  simp [scanSequence, hfirst, bind, Except.bind, hskip]

/-- An element with others behind it. -/
theorem scanSequence_next {rounds : Nat} {text rest : List Nat} {first : α} {others : List α}
    {after : List Nat} (hfirst : element text = .ok (first, 44 :: rest)) (hclose : close ≠ 44)
    (hothers : scanSequence element close rounds (skipSpaces rest) = .ok (others, after)) :
    scanSequence element close (rounds + 1) text = .ok (first :: others, after) := by
  have hskip : skipSpaces (44 :: rest) = 44 :: rest := rfl
  simp [scanSequence, hfirst, bind, Except.bind, hskip, hclose.symm, hothers]

/-- An element with something behind it that is not read. -/
theorem scanSequence_next_failed {rounds : Nat} {text rest : List Nat} {first : α}
    {failure : Failure E} (hfirst : element text = .ok (first, 44 :: rest)) (hclose : close ≠ 44)
    (hothers : scanSequence element close rounds (skipSpaces rest) = .error failure) :
    scanSequence element close (rounds + 1) text = .error failure := by
  have hskip : skipSpaces (44 :: rest) = 44 :: rest := rfl
  simp [scanSequence, hfirst, bind, Except.bind, hskip, hclose.symm, hothers]

/-- A sequence is read back if its elements are. -/
theorem scanSequence_written {texts : List (List Nat)} {values : List α}
    (hvalues : List.Forall₂ (ReadsBack element) texts values) (hnonempty : values ≠ [])
    (hspace : isSpace close = false) (hcomma : close ≠ 44)
    (hclose : ∀ rest, NumberEnds (close :: rest)) {rounds : Nat} (hrounds : values.length ≤ rounds)
    (rest : List Nat) :
    scanSequence element close rounds (commaed texts ++ close :: rest) = .ok (values, rest) := by
  induction hvalues generalizing rounds with
  | nil => exact absurd rfl hnonempty
  | @cons text value texts values hvalue hvalues ih =>
      obtain ⟨rounds, rfl⟩ : ∃ fewer, rounds = fewer + 1 :=
        Nat.exists_eq_add_one.mpr (Nat.lt_of_lt_of_le (Nat.succ_pos _) hrounds)
      rw [commaed_cons, List.append_assoc]
      cases hvalues with
      | nil => exact scanSequence_last (hvalue.back _ (hclose rest)) hspace
      | @cons next other texts values hnext hothers =>
          refine scanSequence_next (hvalue.back (44 :: (commaed (next :: texts) ++ close :: rest))
            (numberEnds_cons.mpr (by decide))) hcomma ?_
          rw [((hnext.begins.commaed texts).append (close :: rest)).skipSpaces_eq]
          exact ih (List.cons_ne_nil _ _) (Nat.le_of_succ_le_succ hrounds)

/-- An element that is not read ends the sequence, whatever stands before it. -/
theorem scanSequence_failed {texts : List (List Nat)} {values : List α} {last : List Nat}
    {failure : Failure E} (hvalues : List.Forall₂ (ReadsBack element) texts values)
    (hnonempty : values ≠ []) (hcomma : close ≠ 44) (hspace : skipSpaces last = last)
    (hlast : element last = .error failure) {rounds : Nat} (hrounds : values.length < rounds) :
    scanSequence element close rounds (commaed texts ++ 44 :: last) = .error failure := by
  induction hvalues generalizing rounds with
  | nil => exact absurd rfl hnonempty
  | @cons text value texts values hvalue hvalues ih =>
      obtain ⟨rounds, rfl⟩ : ∃ fewer, rounds = fewer + 1 :=
        Nat.exists_eq_add_one.mpr (Nat.lt_of_le_of_lt (Nat.zero_le _) hrounds)
      rw [commaed_cons, List.append_assoc]
      cases hvalues with
      | nil =>
          obtain ⟨rounds, rfl⟩ : ∃ fewer, rounds = fewer + 1 :=
            Nat.exists_eq_add_one.mpr (Nat.lt_of_succ_lt_succ hrounds)
          have hfirst := hvalue.back (44 :: last) (numberEnds_cons.mpr (by decide))
          refine scanSequence_next_failed hfirst hcomma ?_
          rw [hspace]
          simp [scanSequence, hlast, bind, Except.bind]
      | @cons next other texts values hnext hothers =>
          refine scanSequence_next_failed (hvalue.back (44 :: (commaed (next :: texts) ++ 44 :: last))
            (numberEnds_cons.mpr (by decide))) hcomma ?_
          rw [((hnext.begins.commaed texts).append (44 :: last)).skipSpaces_eq]
          exact ih (List.cons_ne_nil _ _) (Nat.lt_of_succ_lt_succ hrounds)

/-- A text between commas is at least as long as there are elements. -/
theorem length_le_commaed {texts : List (List Nat)} {values : List α}
    (hvalues : List.Forall₂ (ReadsBack element) texts values) :
    values.length ≤ (commaed texts).length := by
  induction hvalues with
  | nil => exact Nat.zero_le _
  | @cons text value texts values hvalue hvalues ih =>
      have hpos := List.length_pos_iff.mpr hvalue.begins.ne_nil
      rw [commaed_cons, List.length_append, List.length_cons]
      cases hvalues with
      | nil =>
          simp only [List.isEmpty_nil, if_true, List.length_nil]
          omega
      | cons =>
          have hcomma : (codes ",").length = 1 := rfl
          simp only [List.isEmpty_cons, Bool.false_eq_true, if_false, List.length_append] at ih ⊢
          omega

theorem scanEnclosed_written {texts : List (List Nat)} {values : List α}
    (hvalues : List.Forall₂ (ReadsBack element) texts values) (hspace : isSpace close = false)
    (hcomma : close ≠ 44) (hclose : ∀ rest, NumberEnds (close :: rest))
    (hbracket : close = 93 ∨ close = 125) (rest : List Nat) :
    scanEnclosed element close (commaed texts ++ close :: rest) = .ok (values, rest) := by
  cases hvalues with
  | nil =>
      have hskip : skipSpaces (close :: rest) = close :: rest := by
        rw [skipSpaces, List.dropWhile_cons, hspace, if_neg Bool.false_ne_true]
      simp [scanEnclosed, commaed, hskip]
  | @cons text value texts values hvalue hothers =>
      have hall : List.Forall₂ (ReadsBack element) (text :: texts) (value :: values) :=
        .cons hvalue hothers
      have hbegins := (hvalue.begins.commaed texts).append (close :: rest)
      have hlength := length_le_commaed hall
      rw [scanEnclosed, hbegins.skipSpaces_eq, if_neg ?_]
      · refine scanSequence_written hall (List.cons_ne_nil _ _) hspace hcomma hclose ?_ rest
        rw [List.length_append]
        omega
      · obtain ⟨first, others, hfirst, -, -, hlist, hdict⟩ := hbegins
        rw [hfirst, List.head?_cons, Option.some.injEq]
        rintro rfl
        exact hbracket.elim hlist hdict

theorem scanEnclosed_failed {texts : List (List Nat)} {values : List α} {last : List Nat}
    {failure : Failure E} (hvalues : List.Forall₂ (ReadsBack element) texts values)
    (hnonempty : values ≠ []) (hcomma : close ≠ 44) (hbracket : close = 93 ∨ close = 125)
    (hspace : skipSpaces last = last) (hlast : element last = .error failure) :
    scanEnclosed element close (commaed texts ++ 44 :: last) = .error failure := by
  have hlength := length_le_commaed hvalues
  obtain ⟨text, others, rfl⟩ : ∃ text others, texts = text :: others :=
    List.exists_cons_of_ne_nil fun hnone => hnonempty (List.forall₂_nil_left_iff.mp (hnone ▸ hvalues))
  obtain ⟨value, values, hvalue, -, rfl⟩ := List.forall₂_cons_left_iff.mp hvalues
  have hbegins := (hvalue.begins.commaed others).append (44 :: last)
  rw [scanEnclosed, hbegins.skipSpaces_eq, if_neg ?_]
  · refine scanSequence_failed hvalues hnonempty hcomma hspace hlast ?_
    rw [List.length_append]
    exact Nat.lt_of_le_of_lt hlength (Nat.lt_add_of_pos_right (Nat.succ_pos _))
  · obtain ⟨first, others, hfirst, -, -, hlist, hdict⟩ := hbegins
    rw [hfirst, List.head?_cons, Option.some.injEq]
    rintro rfl
    exact hbracket.elim hlist hdict

variable {scan : Scan E (Value F)}

/-- A member is read back if its value is. -/
theorem readsBack_member {key text : List Nat} {value : Value F}
    (hvalue : ReadsBack scan text value) :
    ReadsBack (scanMember scan) (writeMember (key, text)) (key, value) where
  begins := ⟨34, key.flatMap escape ++ codes "\"" ++ (codes ":" ++ text), rfl, by decide, by decide,
    by decide, by decide⟩
  back rest hrest := by
    have hread : scanString (key.flatMap escape ++ (codes "\"" ++ (58 :: (text ++ rest)))) =
        some (key, 58 :: (text ++ rest)) := scanString_written key _
    have hsplit : writeMember (key, text) ++ rest =
        34 :: (key.flatMap escape ++ (codes "\"" ++ (58 :: (text ++ rest)))) := by
      simp [writeMember, writeString, quoted, codes]
    have hcolon : skipSpaces (58 :: (text ++ rest)) = 58 :: (text ++ rest) := rfl
    rw [hsplit, scanMember, List.head?_cons, if_pos rfl, List.tail_cons, hread]
    simp only [hcolon, List.head?_cons, if_true, List.tail_cons,
      (hvalue.begins.append rest).skipSpaces_eq, hvalue.back rest hrest, bind, Except.bind]

/-- A member is not read if its value is not. -/
theorem scanMember_failed {key text : List Nat} {failure : Failure E} (hspace : skipSpaces text = text)
    (hvalue : scan text = .error failure) :
    scanMember scan (writeMember (key, text)) = .error failure := by
  have hread : scanString (key.flatMap escape ++ (codes "\"" ++ (58 :: text))) =
      some (key, 58 :: text) := scanString_written key _
  have hsplit : writeMember (key, text) =
      34 :: (key.flatMap escape ++ (codes "\"" ++ (58 :: text))) := by
    simp [writeMember, writeString, quoted, codes]
  have hcolon : skipSpaces (58 :: text) = 58 :: text := rfl
  rw [hsplit, scanMember, List.head?_cons, if_pos rfl, List.tail_cons, hread]
  simp only [hcolon, List.head?_cons, if_true, List.tail_cons, hspace, hvalue, bind, Except.bind]

/-! ## Values -/

/-- Values without floats, with the keys of objects in order, of at most this depth. -/
inductive Plain : Nat → Value F → Prop
  | null (depth : Nat) : Plain depth .null
  | bool (depth : Nat) (value : Bool) : Plain depth (.bool value)
  | int (depth : Nat) (value : Int) : Plain depth (.int value)
  | str (depth : Nat) (text : List Nat) : Plain depth (.str text)
  | list {depth : Nat} {items : List (Value F)} (hitems : ∀ item ∈ items, Plain depth item) :
      Plain (depth + 1) (.list items)
  | dict {depth : Nat} {members : List (List Nat × Value F)}
      (hmembers : ∀ member ∈ members, Plain depth member.2)
      (hkeys : (members.map Prod.fst).Pairwise (· < ·)) : Plain (depth + 1) (.dict members)

/-- The hook for members keeps objects whose keys are all different. -/
def KeepsMembers (decoder : Decoder F E) : Prop :=
  ∀ members, (members.map Prod.fst).Pairwise (· < ·) → decoder.pairsHook members = .ok (.dict members)

theorem forall₂_writeItems {items : List (Value F)}
    (hitems : ∀ item ∈ items, ∃ text, write format item = some text ∧ ReadsBack scan text item) :
    ∃ texts, writeItems format items = some texts ∧ List.Forall₂ (ReadsBack scan) texts items := by
  induction items with
  | nil => exact ⟨[], rfl, .nil⟩
  | cons item items ih =>
      rw [List.forall_mem_cons] at hitems
      obtain ⟨⟨text, htext, hback⟩, hothers⟩ := hitems
      obtain ⟨texts, htexts, hbacks⟩ := ih hothers
      exact ⟨text :: texts, by simp [writeItems, htext, htexts], .cons hback hbacks⟩

theorem forall₂_writeMembers {members : List (List Nat × Value F)}
    (hmembers : ∀ member ∈ members, ∃ text, write format member.2 = some text ∧
      ReadsBack scan text member.2) :
    ∃ texts, writeMembers format members = some texts ∧
      texts.map Prod.fst = members.map Prod.fst ∧
      List.Forall₂ (ReadsBack (scanMember scan)) (texts.map writeMember) members := by
  induction members with
  | nil => exact ⟨[], rfl, rfl, .nil⟩
  | cons member members ih =>
      rw [List.forall_mem_cons] at hmembers
      obtain ⟨⟨text, htext, hback⟩, hothers⟩ := hmembers
      obtain ⟨texts, htexts, hkeys, hbacks⟩ := ih hothers
      obtain ⟨key, value⟩ := member
      refine ⟨(key, text) :: texts, by simp [writeMembers, htext, htexts], ?_,
        .cons (readsBack_member hback) hbacks⟩
      rw [List.map_cons, List.map_cons, hkeys]

/-- Members with their keys in order stay as they are. -/
theorem insertionSort_members {texts : List (List Nat × List Nat)}
    (hkeys : (texts.map Prod.fst).Pairwise (· < ·)) :
    texts.insertionSort (fun first second => first.1 ≤ second.1) = texts := by
  rw [List.pairwise_map] at hkeys
  exact (hkeys.imp fun hless => le_of_lt hless).insertionSort_eq

variable {inner : Option (Scan E (Value F))}

theorem readsBack_null : ReadsBack (scanWith decoder inner) (codes "null") .null where
  begins := ⟨110, _, rfl, by decide, by decide, by decide, by decide⟩
  back _ _ := rfl

theorem readsBack_bool (value : Bool) :
    ReadsBack (scanWith decoder inner) (codes (if value then "true" else "false")) (.bool value) := by
  cases value with
  | false => exact ⟨⟨102, _, rfl, by decide, by decide, by decide, by decide⟩, fun _ _ => rfl⟩
  | true => exact ⟨⟨116, _, rfl, by decide, by decide, by decide, by decide⟩, fun _ _ => rfl⟩

theorem scanLiteral_of_not_prefix {spelling : String} {text : List Nat} {found other : Scan E (Value F)}
    (htext : ¬ codes spelling <+: text) : scanLiteral spelling found other text = other text := by
  rw [scanLiteral, if_neg (by rwa [List.isPrefixOf_iff_prefix])]

/-- A digit, or a minus before one, begins none of the constants. -/
theorem scanWith_number {code : Nat} {rest : List Nat}
    (hcode : isDecimalDigit code = true ∨
      code = 45 ∧ ∃ digit others, rest = digit :: others ∧ isDecimalDigit digit = true) :
    scanWith decoder inner (code :: rest) = scanOther decoder (code :: rest) := by
  have hfirst {other : Nat} (hother : isDecimalDigit other = false) (hminus : other ≠ 45) :
      other ≠ code := by
    rintro rfl
    rcases hcode with hdigit | ⟨rfl, -⟩
    · rw [hother] at hdigit
      cases hdigit
    · exact hminus rfl
  have hliteral {spelling : String} {first : Nat} {others : List Nat}
      (hspelling : codes spelling = first :: others) (hother : isDecimalDigit first = false)
      (hminus : first ≠ 45) : ¬ codes spelling <+: code :: rest := by
    rw [hspelling, List.cons_prefix_cons]
    exact fun hprefix => hfirst hother hminus hprefix.1
  have hinfinity : ¬ codes "-Infinity" <+: code :: rest := by
    change ¬ 45 :: 73 :: codes "nfinity" <+: code :: rest
    rw [List.cons_prefix_cons]
    rintro ⟨rfl, hprefix⟩
    rcases hcode with hdigit | ⟨-, digit, others, rfl, hdigit⟩
    · cases hdigit
    · obtain rfl := (List.cons_prefix_cons.mp hprefix).1
      cases hdigit
  rw [scanWith.eq_def]
  dsimp only
  rw [if_neg (hfirst (by decide) (by decide)).symm, if_neg (hfirst (by decide) (by decide)).symm, if_neg (hfirst (by decide) (by decide)).symm,
    scanLiteral_of_not_prefix (hliteral rfl (by decide) (by decide)),
    scanLiteral_of_not_prefix (hliteral rfl (by decide) (by decide)),
    scanLiteral_of_not_prefix (hliteral rfl (by decide) (by decide)),
    scanLiteral_of_not_prefix (hliteral rfl (by decide) (by decide)),
    scanLiteral_of_not_prefix (hliteral rfl (by decide) (by decide)),
    scanLiteral_of_not_prefix hinfinity]

theorem begins_digit {code : Nat} (hcode : isDecimalDigit code = true ∨ code = 45) (rest : List Nat) :
    Begins (code :: rest) := by
  refine ⟨code, rest, rfl, ?_⟩
  simp only [isDecimalDigit, Bool.and_eq_true, decide_eq_true_eq] at hcode
  simp only [isSpace, Bool.or_eq_false_iff, beq_eq_false_iff_ne]
  omega

theorem readsBack_int (value : Int) :
    ReadsBack (scanWith decoder inner) (writeInt value) (.int value) := by
  have hcode : ∃ code rest, writeInt value = code :: rest ∧ (isDecimalDigit code = true ∨
      code = 45 ∧ ∃ digit others, rest = digit :: others ∧ isDecimalDigit digit = true) := by
    obtain ⟨digit, others, hdigits, hdigit⟩ := head_decimal value.natAbs []
    rw [List.append_nil] at hdigits
    rw [writeInt, hdigits]
    split
    · exact ⟨45, digit :: others, rfl, .inr ⟨rfl, digit, others, rfl, hdigit⟩⟩
    · exact ⟨digit, others, rfl, .inl hdigit⟩
  obtain ⟨code, rest, htext, hcode⟩ := hcode
  constructor
  · rw [htext]
    exact begins_digit (hcode.imp_right And.left) rest
  · intro after hafter
    have hnumber := scanNumber_writeInt decoder value hafter
    rw [htext, List.cons_append] at hnumber ⊢
    rw [scanWith_number, scanOther, hnumber]
    refine hcode.imp_right fun hminus => ⟨hminus.1, ?_⟩
    obtain ⟨digit, others, rfl, hdigit⟩ := hminus.2
    exact ⟨digit, others ++ after, rfl, hdigit⟩

theorem readsBack_str (text : List Nat) :
    ReadsBack (scanWith decoder inner) (writeString text) (.str text) where
  begins := ⟨34, _, rfl, by decide, by decide, by decide, by decide⟩
  back rest _ := by
    have hsplit : writeString text ++ rest = 34 :: (text.flatMap escape ++ (codes "\"" ++ rest)) := by
      simp [writeString, quoted, codes]
    rw [hsplit, scanWith.eq_def]
    simp only [if_true, scanString_written]

theorem readsBack_list {texts : List (List Nat)} {items : List (Value F)}
    (hitems : List.Forall₂ (ReadsBack scan) texts items) :
    ReadsBack (scanWith decoder (some scan)) (codes "[" ++ (commaed texts ++ codes "]"))
      (.list items) where
  begins := ⟨91, _, rfl, by decide, by decide, by decide, by decide⟩
  back rest _ := by
    have hsplit : codes "[" ++ (commaed texts ++ codes "]") ++ rest =
        91 :: (commaed texts ++ 93 :: rest) := by
      simp [codes]
    have hread := scanEnclosed_written hitems (show isSpace 93 = false by decide) (by decide)
      (fun _ => numberEnds_cons.mpr (by decide)) (.inl rfl) rest
    rw [hsplit, scanWith, if_neg (by decide), if_neg (by decide), if_pos rfl]
    simp only [scanList, hread, bind, Except.bind]

theorem readsBack_dict (hhook : KeepsMembers decoder) {texts : List (List Nat)}
    {members : List (List Nat × Value F)}
    (hmembers : List.Forall₂ (ReadsBack (scanMember scan)) texts members)
    (hkeys : (members.map Prod.fst).Pairwise (· < ·)) :
    ReadsBack (scanWith decoder (some scan)) (codes "\x7b" ++ (commaed texts ++ codes "\x7d"))
      (.dict members) where
  begins := ⟨123, _, rfl, by decide, by decide, by decide, by decide⟩
  back rest _ := by
    have hsplit : codes "\x7b" ++ (commaed texts ++ codes "\x7d") ++ rest =
        123 :: (commaed texts ++ 125 :: rest) := by
      simp [codes]
    have hread := scanEnclosed_written hmembers (show isSpace 125 = false by decide) (by decide)
      (fun _ => numberEnds_cons.mpr (by decide)) (.inr rfl) rest
    rw [hsplit, scanWith, if_neg (by decide), if_pos rfl]
    simp only [scanDict, hread, bind, Except.bind, hhook members hkeys, hooked]

theorem scanWith_list_failed {text : List Nat} {failure : Failure E}
    (hitems : scanEnclosed scan 93 text = .error failure) :
    scanWith decoder (some scan) (91 :: text) = .error failure := by
  rw [scanWith, if_neg (by decide), if_neg (by decide), if_pos rfl]
  simp only [scanList, hitems, bind, Except.bind]

theorem scanWith_dict_failed {text : List Nat} {failure : Failure E}
    (hmembers : scanEnclosed (scanMember scan) 125 text = .error failure) :
    scanWith decoder (some scan) (123 :: text) = .error failure := by
  rw [scanWith, if_neg (by decide), if_pos rfl]
  simp only [scanDict, hmembers, bind, Except.bind]

/-- No value begins with a closing bracket. -/
theorem scanWith_bracket (rest : List Nat) : scanWith decoder inner (93 :: rest) = .error .malformed := rfl

/-- A scan of some depth is the scan with what is in lists and objects. -/
theorem scanOnce_eq (decoder : Decoder F E) (depth : Nat) :
    ∃ inner, scanOnce decoder depth = scanWith decoder inner := by
  cases depth with
  | zero => exact ⟨none, rfl⟩
  | succ depth => exact ⟨some (scanOnce decoder depth), rfl⟩

/-- What is written of a value, and that it is read back. -/
theorem readsBack_write (hhook : KeepsMembers decoder) {depth : Nat} {value : Value F}
    (hvalue : Plain depth value) :
    ∃ text, write format value = some text ∧ ReadsBack (scanOnce decoder depth) text value := by
  induction hvalue with
  | null depth =>
      obtain ⟨inner, hinner⟩ := scanOnce_eq decoder depth
      rw [hinner]
      exact ⟨_, rfl, readsBack_null⟩
  | bool depth value =>
      obtain ⟨inner, hinner⟩ := scanOnce_eq decoder depth
      rw [hinner]
      exact ⟨_, by cases value <;> rfl, readsBack_bool value⟩
  | int depth value =>
      obtain ⟨inner, hinner⟩ := scanOnce_eq decoder depth
      rw [hinner]
      exact ⟨_, rfl, readsBack_int value⟩
  | str depth text =>
      obtain ⟨inner, hinner⟩ := scanOnce_eq decoder depth
      rw [hinner]
      exact ⟨_, rfl, readsBack_str text⟩
  | @list depth items hitems ih =>
      obtain ⟨texts, htexts, hbacks⟩ := forall₂_writeItems ih
      exact ⟨_, by rw [write, htexts]; rfl, readsBack_list hbacks⟩
  | @dict depth members hmembers hkeys ih =>
      obtain ⟨texts, htexts, hsame, hbacks⟩ := forall₂_writeMembers ih
      have hsorted := insertionSort_members (hsame ▸ hkeys)
      refine ⟨_, ?_, readsBack_dict hhook hbacks hkeys⟩
      rw [write, htexts, Option.map_some, hsorted]

/-- A text that is read back is read as a whole. -/
theorem read_of_readsBack {limit : Nat} {text : List Nat} {value : Value F}
    (hback : ReadsBack (scanOnce decoder limit) text value) : read decoder limit text = .ok value := by
  have hread := hback.back [] numberEnds_nil
  rw [List.append_nil] at hread
  have hmark : text.head? ≠ some 0xFEFF := by
    obtain ⟨first, others, rfl, hascii, -⟩ := hback.begins
    rw [List.head?_cons, Ne, Option.some.injEq]
    omega
  rw [read, if_neg hmark, hback.begins.skipSpaces_eq, hread]
  rfl

/-- A plain value is read back from its text. -/
theorem read_write (hhook : KeepsMembers decoder) {limit : Nat} {value : Value F}
    (hvalue : Plain limit value) :
    ∃ text, write format value = some text ∧ read decoder limit text = .ok value := by
  obtain ⟨text, htext, hback⟩ := @readsBack_write F E decoder format hhook limit value hvalue
  exact ⟨text, htext, read_of_readsBack hback⟩

end Json
