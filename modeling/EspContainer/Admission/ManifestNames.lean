/-
# The capability list of a manifest

The scanner reads a list of names in increasing order and remembers the known ones. It
looks for the closing bracket at the start of every round, also behind a comma, so it
takes a list with one comma too many.
-/

import EspContainer.Admission.Admissible
import EspContainer.Tools.ManifestText

namespace Package

open Binary Text

/-! ## The order of names -/

theorem compareBytes_cons (count : Nat) (first second : UInt8) (others rest : List UInt8) :
    compareBytes (count + 1) (first :: others) (second :: rest) =
      if first < second then .lt else if first = second then compareBytes count others rest
      else .gt := by
  simp only [compareBytes, compareOfLessAndEq, List.take_succ_cons, List.cons_lt_cons_iff,
    List.cons.injEq]
  by_cases hless : first < second
  · simp [hless]
  · by_cases heq : first = second
    · simp [heq]
    · simp [hless, heq]

/-- The order check is the order of texts. -/
theorem inOrder_iff {first second : List UInt8} : inOrder first second = true ↔ first < second := by
  induction first generalizing second with
  | nil =>
      cases second with
      | nil => decide
      | cons byte rest => simp [inOrder, compareBytes, compareOfLessAndEq]
  | cons byte others ih =>
      cases second with
      | nil => simp [inOrder, compareBytes, compareOfLessAndEq]
      | cons next rest =>
          have hrest := @ih rest
          rw [List.cons_lt_cons_iff, ← hrest]
          simp only [inOrder, List.length_cons, Nat.add_min_add_right, compareBytes_cons]
          by_cases hless : byte < next
          · simp [hless]
          · by_cases heq : byte = next
            · simp [heq]
            · simp [hless, heq]

/-- Bytes are ordered as code points. -/
theorem toNat_lt_toNat {first second : List UInt8} :
    first.map UInt8.toNat < second.map UInt8.toNat ↔ first < second := by
  induction first generalizing second with
  | nil => cases second <;> simp
  | cons byte others ih =>
      cases second with
      | nil => simp
      | cons next rest =>
          rw [List.map_cons, List.map_cons, List.cons_lt_cons_iff, List.cons_lt_cons_iff, ih,
            UInt8.toNat_inj, UInt8.lt_iff_toNat_lt]

/-! ## The list -/

/-- A quoted name. -/
def quotedName (name : List UInt8) : List UInt8 := ascii "\"" ++ (name ++ ascii "\"")

/-- The names behind the opening bracket, with a comma behind the last one or without. -/
def namesBehind : List (List UInt8) → Bool → List UInt8
  | [], _ => ascii "]"
  | name :: names, comma =>
      quotedName name ++
        if names.isEmpty && !comma then ascii "]" else ascii "," ++ namesBehind names comma

/-- What so many rounds of the loop read, behind a name and with capabilities found so far. -/
def NamesRead (count : Nat) (previous : Option (List UInt8)) (capabilities : Capabilities)
    (text : List UInt8) (result : Capabilities) : Prop :=
  ∃ names comma, text = namesBehind names comma ∧
    (∀ name ∈ names, isIdentifier (name.map UInt8.toNat) = true) ∧
    (previous.toList ++ names).IsChain (· < ·) ∧ (comma = true → names ≠ []) ∧
    names.length + comma.toNat ≤ count ∧ 0 < count ∧ result = names.foldl Capabilities.add capabilities

theorem isChain_previous {previous : Option (List UInt8)} {name : List UInt8}
    {names : List (List UInt8)} :
    (previous.toList ++ name :: names).IsChain (· < ·) ↔
      (previous.all fun previous => inOrder previous name) = true ∧
        (name :: names).IsChain (· < ·) := by
  cases previous with
  | none => simp
  | some previous => simp [List.isChain_cons_cons, inOrder_iff]

theorem not_bracket_prefix (name rest : List UInt8) : ¬ ascii "]" <+: quotedName name ++ rest := by
  rintro ⟨others, hothers⟩
  exact absurd (List.cons.inj hothers).1 (by decide)

/-- A list that ends, or one more name. -/
theorem namesRead_succ {count : Nat} {previous : Option (List UInt8)} {capabilities : Capabilities}
    {text : List UInt8} {result : Capabilities} :
    NamesRead (count + 1) previous capabilities text result ↔
      (text = ascii "]" ∧ result = capabilities) ∨
        ∃ name, isIdentifier (name.map UInt8.toNat) = true ∧
          (previous.all fun previous => inOrder previous name) = true ∧
          ((text = quotedName name ++ ascii "]" ∧ result = capabilities.add name) ∨
            ∃ others, text = quotedName name ++ (ascii "," ++ others) ∧
              NamesRead count (some name) (capabilities.add name) others result) := by
  constructor
  · rintro ⟨names, comma, rfl, hnames, hchain, hcomma, hcount, -, rfl⟩
    cases names with
    | nil => exact .inl ⟨rfl, rfl⟩
    | cons name names =>
        rw [isChain_previous] at hchain
        rw [List.forall_mem_cons] at hnames
        refine .inr ⟨name, hnames.1, hchain.1, ?_⟩
        rw [namesBehind]
        cases hlast : names.isEmpty && !comma with
        | true =>
            obtain ⟨hempty, -⟩ := Bool.and_eq_true_iff.mp hlast
            obtain rfl := List.isEmpty_iff.mp hempty
            exact .inl ⟨rfl, rfl⟩
        | false =>
            cases names with
            | nil =>
                obtain rfl : comma = true := by simpa using hlast
                simp only [List.length_singleton, Bool.toNat_true] at hcount
                exact .inr ⟨ascii "]", rfl, [], false, rfl, hnames.2, hchain.2, by simp, by simp,
                  by omega, rfl⟩
            | cons next names =>
                simp only [List.length_cons] at hcount
                exact .inr ⟨namesBehind (next :: names) comma, rfl, next :: names, comma, rfl,
                  hnames.2, hchain.2, fun _ => List.cons_ne_nil _ _,
                  by simp only [List.length_cons]; omega, by omega, rfl⟩
  · rintro (⟨rfl, rfl⟩ | ⟨name, hname, horder, ⟨rfl, rfl⟩ | ⟨others, rfl, hothers⟩⟩)
    · exact ⟨[], false, rfl, by simp, by cases previous <;> simp, by simp, by simp, by omega, rfl⟩
    · exact ⟨[name], false, rfl, by simpa using hname, isChain_previous.mpr ⟨horder, by simp⟩,
        by simp, by simp, by omega, rfl⟩
    · obtain ⟨names, comma, rfl, hnames, hchain, hcomma, hcount, hpos, rfl⟩ := hothers
      refine ⟨name :: names, comma || names.isEmpty, ?_, ?_, isChain_previous.mpr ⟨horder, hchain⟩,
        fun _ => List.cons_ne_nil _ _, ?_, by omega, rfl⟩
      · rw [namesBehind]
        cases names with
        | nil => cases comma <;> rfl
        | cons next names => simp
      · rw [List.forall_mem_cons]
        exact ⟨hname, hnames⟩
      · cases names with
        | nil =>
            simp only [List.isEmpty_nil, Bool.or_true, Bool.toNat_true, List.length_singleton]
            omega
        | cons next names =>
            rw [List.isEmpty_cons, Bool.or_false, List.length_cons]
            omega

theorem recognizes_jsonCapsLoop (count : Nat) (previous : Option (List UInt8))
    (capabilities : Capabilities) :
    Recognizes (jsonCapsLoop count previous capabilities)
      fun _ text _ result => NamesRead count previous capabilities text result := by
  induction count generalizing previous capabilities with
  | zero =>
      refine Recognizes.reject.congr fun _ _ _ _ => ?_
      constructor
      · exact False.elim
      · rintro ⟨_, _, -, -, -, -, -, hpos, -⟩
        exact absurd hpos (Nat.lt_irrefl 0)
  | succ count ih =>
      refine ((Recognizes.pure capabilities).either (recognizes_jsonIdentifier.bind fun identifier =>
        (Recognizes.guard _).bind fun _ => (Recognizes.pure (capabilities.add identifier.bytes)).either
          (Recognizes.literal_bind (ih (some identifier.bytes)
            (capabilities.add identifier.bytes))))).congr fun start text rest result => ?_
      rw [namesRead_succ]
      constructor
      · rintro (⟨_, rfl, rfl, rfl⟩ | ⟨-, _, _, ⟨offset, name⟩, rfl, ⟨rfl, hname, -⟩, _, _, _, rfl,
          ⟨rfl, horder⟩, hbehind⟩)
        · exact .inl ⟨rfl, rfl⟩
        · refine .inr ⟨name, hname, horder, ?_⟩
          rcases hbehind with ⟨_, rfl, rfl, rfl⟩ | ⟨-, others, rfl, hothers⟩
          · exact .inl ⟨by simp [quotedName], rfl⟩
          · exact .inr ⟨others, by simp [quotedName], hothers⟩
      · rintro (⟨rfl, rfl⟩ | ⟨name, hname, horder, hbehind⟩)
        · exact .inl ⟨[], rfl, rfl, rfl⟩
        · have hquoted : quotedName name = ascii "\"" ++ (name ++ ascii "\"") := rfl
          refine .inr ?_
          rcases hbehind with ⟨rfl, rfl⟩ | ⟨others, rfl, hothers⟩
          · refine ⟨by rw [List.append_assoc]; exact not_bracket_prefix _ _, quotedName name,
              ascii "]", ⟨start + 1, name⟩, rfl, ⟨hquoted, hname, rfl⟩, [], ascii "]", (), rfl,
              ⟨rfl, horder⟩, .inl ⟨[], rfl, rfl, rfl⟩⟩
          · refine ⟨by rw [List.append_assoc]; exact not_bracket_prefix _ _, quotedName name,
              ascii "," ++ others, ⟨start + 1, name⟩, rfl, ⟨hquoted, hname, rfl⟩, [],
              ascii "," ++ others, (), rfl, ⟨rfl, horder⟩, .inr ⟨?_, others, rfl, hothers⟩⟩
            rintro ⟨rest, hrest⟩
            exact absurd (List.cons.inj hrest).1 (by decide)

/-! ## Names as strings -/

/-- Bytes as a string. -/
def spelling (bytes : List UInt8) : String :=
  String.ofList (bytes.map fun byte => Char.ofNat byte.toNat)

@[simp]
theorem codes_spelling (bytes : List UInt8) : codes (spelling bytes) = bytes.map UInt8.toNat := by
  rw [codes, spelling, String.toList_ofList, List.map_map]
  exact List.map_congr_left fun byte _ => toNat_ofNat (Nat.lt_trans byte.toNat_lt (by decide))

@[simp]
theorem ascii_spelling (bytes : List UInt8) : ascii (spelling bytes) = bytes := by
  rw [ascii_eq_encoded, codes_spelling, encoded_toNat]

/-- A string of small code points is what its bytes spell. -/
theorem spelling_ascii {text : String} (htext : ∀ code ∈ codes text, code < 256) :
    spelling (ascii text) = text := by
  apply codes_injective
  rw [codes_spelling, ascii_eq_encoded, toNat_encoded htext]

theorem lt_of_mem_identifier {text : List Nat} (htext : isIdentifier text = true) :
    ∀ code ∈ text, code < 256 := by
  intro code hcode
  have := range_of_mem_identifier htext hcode
  omega

theorem toNat_ascii {text : String} (htext : isIdentifier (codes text) = true) :
    (ascii text).map UInt8.toNat = codes text := by
  rw [ascii_eq_encoded, toNat_encoded (lt_of_mem_identifier htext)]

theorem ascii_inj {first second : String} (hfirst : isIdentifier (codes first) = true)
    (hsecond : isIdentifier (codes second) = true) : ascii first = ascii second ↔ first = second := by
  constructor
  · intro hascii
    rw [← spelling_ascii (lt_of_mem_identifier hfirst), hascii,
      spelling_ascii (lt_of_mem_identifier hsecond)]
  · exact congrArg ascii

theorem encoded_quoted (name : String) :
    encoded (Json.quoted (codes name)) = quotedName (ascii name) := by
  rw [Json.quoted, encoded_append, encoded_append, ← ascii_eq_encoded, ← ascii_eq_encoded,
    quotedName]

theorem encoded_commaed_cons (text : List Nat) (texts : List (List Nat)) :
    encoded (Json.commaed (text :: texts)) =
      encoded text ++ if texts.isEmpty then [] else ascii "," ++ encoded (Json.commaed texts) := by
  cases texts with
  | nil => simp [Json.commaed]
  | cons next texts =>
      simp [Json.commaed, ascii_eq_encoded]

/-- The list as the scanner reads it. -/
theorem encoded_namesText {names : List String} {comma : Bool} (hcomma : comma = true → names ≠ []) :
    encoded (Tools.namesText names comma) = ascii "[" ++ namesBehind (names.map ascii) comma := by
  have hbehind : encoded (Json.commaed (names.map fun name => Json.quoted (codes name))) ++
      encoded ((if comma then codes "," else []) ++ codes "]") =
        namesBehind (names.map ascii) comma := by
    induction names with
    | nil =>
        obtain rfl : comma = false := by simpa using hcomma
        rfl
    | cons name names ih =>
        rw [List.map_cons, List.map_cons, namesBehind, encoded_commaed_cons, encoded_quoted,
          List.append_assoc]
        congr 1
        cases names with
        | nil => cases comma <;> rfl
        | cons next names =>
            rw [← ih fun _ => List.cons_ne_nil _ _]
            rfl
  rw [← hbehind, Tools.namesText, ascii_eq_encoded, encoded_append, encoded_append, encoded_append,
    encoded_append, List.append_assoc, List.append_assoc]

theorem isIdentifier_known {name : String} (hname : name ∈ Tools.knownCapabilities) :
    isIdentifier (codes name) = true := by
  revert name
  decide +kernel

theorem add_ascii (capabilities : Capabilities) {name : String}
    (hname : isIdentifier (codes name) = true) :
    capabilities.add (ascii name) =
      ⟨capabilities.requested ||| capabilityMask {name},
        capabilities.unknown || !Tools.knownCapabilities.contains name⟩ := by
  have hbeq {other : String} (hother : other ∈ Tools.knownCapabilities) :
      (ascii name == ascii other) = decide (name = other) := by
    rw [Bool.eq_iff_iff, beq_iff_eq, decide_eq_true_eq]
    exact ascii_inj hname (isIdentifier_known hother)
  rw [Capabilities.add, hbeq (by decide), hbeq (by decide), hbeq (by decide)]
  by_cases hclock : name = "monotonic-time"
  · subst hclock
    simp [Tools.knownCapabilities, capabilityMask, bitIf]
  · by_cases hlog : name = "log"
    · subst hlog
      simp [Tools.knownCapabilities, capabilityMask, bitIf]
    · by_cases htimer : name = "timer"
      · subst htimer
        simp [Tools.knownCapabilities, capabilityMask, bitIf]
      · simp [Tools.knownCapabilities, capabilityMask, bitIf, hclock, hlog, htimer, eq_comm]

theorem capabilityMask_insert_name (name : String) (names : Finset String) :
    capabilityMask (insert name names) = capabilityMask {name} ||| capabilityMask names := by
  simp only [capabilityMask, Finset.mem_insert, Finset.mem_singleton, Bool.decide_or]
  generalize decide ("monotonic-time" ∈ names) = clock
  generalize decide ("log" ∈ names) = log
  generalize decide ("timer" ∈ names) = timer
  generalize decide ("monotonic-time" = name) = clock'
  generalize decide ("log" = name) = log'
  generalize decide ("timer" = name) = timer'
  revert clock log timer clock' log' timer'
  decide

/-- What the scanner keeps of a list of names. -/
theorem foldl_add {names : List String} (hnames : ∀ name ∈ names, isIdentifier (codes name) = true)
    (capabilities : Capabilities) :
    (names.map ascii).foldl Capabilities.add capabilities =
      ⟨capabilities.requested ||| capabilityMask names.toFinset,
        capabilities.unknown || !names.all fun name => Tools.knownCapabilities.contains name⟩ := by
  induction names generalizing capabilities with
  | nil => simp [capabilityMask_empty]
  | cons name names ih =>
      rw [List.forall_mem_cons] at hnames
      rw [List.map_cons, List.foldl_cons, ih hnames.2, add_ascii _ hnames.1, List.toFinset_cons,
        capabilityMask_insert_name, UInt32.or_assoc, List.all_cons, Bool.not_and, Bool.or_assoc]

end Package
