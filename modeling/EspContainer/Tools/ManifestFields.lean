/-
# The fields of a manifest

What each check of a field accepts, and from these what the checks accept together: the
members of a value are those of one record, in some order.
-/

import EspContainer.Tools.ManifestValue

namespace Tools

open Binary Json Package Text

/-! ## Steps that may raise -/

theorem raising_bind_eq_ok {α β : Type} {step : Raising α} {next : α → Raising β} {value : β} :
    (step >>= next) = .ok value ↔ ∃ result, step = .ok result ∧ next result = .ok value := by
  cases step with
  | error error => simp [bind, Except.bind]
  | ok result => simp [bind, Except.bind]

theorem raising_pure_eq_ok {α : Type} {result value : α} :
    (pure result : Raising α) = .ok value ↔ result = value := by
  simp [pure, Except.pure]

theorem demand_eq_ok {condition : Bool} {reason : String} {value : Unit} :
    demand condition reason = .ok value ↔ condition = true := by
  cases condition with
  | false => simp [demand, raisePackageError]
  | true => simp [demand]

variable {F : Type} {members : List (List Nat × Value F)} {key reason : String}

/-! ## Single fields -/

theorem item_eq_ok {value : Value F} :
    item members key = .ok value ↔ members.lookup (codes key) = some value := by
  rw [item]
  cases members.lookup (codes key) with
  | none => simp
  | some found => simp

theorem dictOf_eq_ok {keys : List (List Nat)} {value : Value F} :
    dictOf keys reason value = .ok members ↔
      value = .dict members ∧ Guest.sameElements (members.map Prod.fst) keys = true := by
  constructor
  · intro hdict
    rw [dictOf.eq_def] at hdict
    split at hdict
    · split at hdict
      · next hsame =>
        cases hdict
        exact ⟨rfl, hsame⟩
      · cases hdict
    · cases hdict
  · rintro ⟨rfl, hsame⟩
    rw [dictOf, if_pos hsame]

/-- A field that is a number. -/
theorem intField_eq_ok {accept : Int → Bool} (haccept : ∀ value, accept value = true → 0 ≤ value)
    {number : Nat} :
    intField members key accept reason = .ok number ↔
      members.lookup (codes key) = some (.int number) ∧ accept number = true := by
  rw [intField, raising_bind_eq_ok]
  constructor
  · rintro ⟨value, hvalue, hnumber⟩
    rw [item_eq_ok] at hvalue
    split at hnumber
    · split at hnumber
      · next integer hinteger =>
        cases hnumber
        rw [Int.toNat_of_nonneg (haccept integer hinteger)]
        exact ⟨hvalue, hinteger⟩
      · cases hnumber
    · cases hnumber
  · rintro ⟨hvalue, hnumber⟩
    refine ⟨_, item_eq_ok.mpr hvalue, ?_⟩
    dsimp only
    rw [if_pos hnumber, Int.toNat_natCast]

/-- A field that is an ASCII text. -/
theorem strField_eq_ok {accept : List Nat → Bool}
    (haccept : ∀ text, accept text = true → IsAscii text) {text : String} :
    strField members key accept reason = .ok text ↔
      members.lookup (codes key) = some (.str (codes text)) ∧ accept (codes text) = true := by
  rw [strField, raising_bind_eq_ok]
  constructor
  · rintro ⟨value, hvalue, htext⟩
    rw [item_eq_ok] at hvalue
    split at htext
    · split at htext
      · next found hfound =>
        cases htext
        rw [(haccept found hfound).codes_ofList]
        exact ⟨hvalue, hfound⟩
      · cases htext
    · cases htext
  · rintro ⟨hvalue, htext⟩
    refine ⟨_, item_eq_ok.mpr hvalue, ?_⟩
    dsimp only
    rw [if_pos htext, ofList_codes]

theorem identifierField_eq_ok {text : String} :
    identifierField members key = .ok text ↔
      members.lookup (codes key) = some (.str (codes text)) ∧ isIdentifier (codes text) = true :=
  strField_eq_ok fun _ => isAscii_identifier

theorem versionField_eq_ok {number : Nat} :
    versionField members key = .ok number ↔
      members.lookup (codes key) = some (.int number) ∧ 0 < number ∧ number ≤ uint32Max := by
  rw [versionField, intField_eq_ok]
  · simp only [isPositiveUInt32, Bool.and_eq_true, decide_eq_true_eq, Int.natCast_pos, Int.ofNat_le]
  · intro value hvalue
    simp only [isPositiveUInt32, Bool.and_eq_true, decide_eq_true_eq] at hvalue
    omega

/-- A field with one text. -/
theorem strField_eq_literal {literal : String} (hliteral : IsAscii (codes literal))
    {text : String} :
    strField members key (· == codes literal) reason = .ok text ↔
      members.lookup (codes key) = some (.str (codes literal)) ∧ text = literal := by
  have haccept (found : List Nat) (hfound : (found == codes literal) = true) :
      IsAscii found := by
    rwa [eq_of_beq hfound]
  rw [strField_eq_ok haccept, beq_iff_eq, codes_injective.eq_iff]
  constructor
  · rintro ⟨hvalue, rfl⟩
    exact ⟨hvalue, rfl⟩
  · rintro ⟨hvalue, rfl⟩
    exact ⟨hvalue, rfl⟩

/-! ## Capabilities -/

theorem identifiers_eq_some {items : List (Value F)} {texts : List (List Nat)} :
    identifiers items = some texts ↔
      items = texts.map .str ∧ ∀ text ∈ texts, isIdentifier text = true := by
  induction items generalizing texts with
  | nil =>
      cases texts with
      | nil => simp [identifiers]
      | cons text texts => simp [identifiers]
  | cons item items ih =>
      constructor
      · intro htexts
        rw [identifiers.eq_def] at htexts
        split at htexts
        · next hitems => cases hitems
        · next text others hitems =>
          cases hitems
          split at htexts
          · next htext =>
            obtain ⟨rest, hrest, rfl⟩ := Option.map_eq_some_iff.mp htexts
            obtain ⟨rfl, hall⟩ := ih.mp hrest
            exact ⟨rfl, List.forall_mem_cons.mpr ⟨htext, hall⟩⟩
          · cases htexts
        · cases htexts
      · rintro ⟨hitems, htexts⟩
        obtain ⟨text, rest, rfl, rfl, rfl⟩ := List.map_eq_cons_iff.mp hitems.symm
        rw [List.forall_mem_cons] at htexts
        rw [identifiers, if_pos htexts.1, ih.mpr ⟨rfl, htexts.2⟩, Option.map_some]

/-- Names are a sorted set if they are in strictly increasing order. -/
theorem eq_sortedSet {names : List (List Nat)} : names = sortedSet names ↔ names.Pairwise (· < ·) := by
  constructor
  · intro hnames
    have hsorted : names.Pairwise (· ≤ ·) := by
      rw [hnames]
      exact List.pairwise_insertionSort _ _
    have hnodup : names.Nodup := by
      rw [hnames, sortedSet, (List.perm_insertionSort _ _).nodup_iff]
      exact List.nodup_dedup names
    exact (hsorted.and hnodup).imp fun hboth => lt_of_le_of_ne hboth.1 hboth.2
  · intro hnames
    rw [sortedSet, List.dedup_eq_self.mpr (hnames.imp ne_of_lt)]
    exact (hnames.imp le_of_lt).insertionSort_eq.symm

/-- The list of capabilities: few identifiers in strictly increasing order. -/
theorem capabilitiesField_eq_ok {names : List String} :
    capabilitiesField members = .ok names ↔
      members.lookup (codes "required_capabilities") =
          some (.list (names.map fun name => .str (codes name))) ∧
        (∀ name ∈ names, isIdentifier (codes name) = true) ∧ names.length ≤ 16 ∧
        (names.map codes).Pairwise (· < ·) := by
  rw [capabilitiesField, raising_bind_eq_ok]
  constructor
  · rintro ⟨value, hvalue, hnames⟩
    rw [item_eq_ok] at hvalue
    split at hnames
    · next items =>
      split at hnames
      · next texts htexts =>
        obtain ⟨rfl, hidentifiers⟩ := identifiers_eq_some.mp htexts
        split at hnames
        · next hchecked =>
          cases hnames
          rw [Bool.and_eq_true, decide_eq_true_eq, List.length_map, beq_iff_eq, eq_sortedSet] at hchecked
          have hcodes (text : List Nat) (htext : text ∈ texts) :
              codes (String.ofList (text.map Char.ofNat)) = text :=
            (isAscii_identifier (hidentifiers text htext)).codes_ofList
          have hsame : (texts.map fun text => String.ofList (text.map Char.ofNat)).map codes = texts := by
            rw [List.map_map]
            exact (List.map_congr_left hcodes).trans (List.map_id texts)
          refine ⟨?_, ?_, ?_, ?_⟩
          · rw [hvalue]
            congr 2
            calc
              texts.map Value.str =
                  ((texts.map fun text => String.ofList (text.map Char.ofNat)).map codes).map
                    Value.str := by
                rw [hsame]
              _ = _ := List.map_map
          · rw [List.forall_mem_map]
            intro text htext
            rw [hcodes text htext]
            exact hidentifiers text htext
          · rw [List.length_map]
            exact hchecked.1
          · rw [hsame]
            exact hchecked.2
        · cases hnames
      · cases hnames
    · cases hnames
  · rintro ⟨hvalue, hidentifiers, hlength, hsorted⟩
    refine ⟨_, item_eq_ok.mpr hvalue, ?_⟩
    have htexts : identifiers (names.map fun name => Value.str (F := F) (codes name)) =
        some (names.map codes) := by
      rw [identifiers_eq_some, List.map_map, List.forall_mem_map]
      exact ⟨rfl, hidentifiers⟩
    have hsame : (names.map codes).map (fun text => String.ofList (text.map Char.ofNat)) = names := by
      rw [List.map_map]
      exact (List.map_congr_left fun name _ => ofList_codes name).trans (List.map_id names)
    dsimp only
    rw [htexts]
    dsimp only
    rw [if_pos, hsame]
    rw [Bool.and_eq_true, decide_eq_true_eq, List.length_map, beq_iff_eq, eq_sortedSet]
    exact ⟨hlength, hsorted⟩

/-! ## Limits -/

theorem checkLimits_eq_ok {limits : List (List Nat × Value F)} {value : Unit} :
    checkLimits limits = .ok value ↔ ∀ limit ∈ limits, limitValid limit = true := by
  induction limits with
  | nil => simp [checkLimits]
  | cons limit limits ih =>
      rw [checkLimits, List.forall_mem_cons]
      split
      · next hlimit => rw [ih, and_iff_right hlimit]
      · next hlimit => simp [hlimit]

theorem limitValid_int {key : List Nat} {number : Int} :
    limitValid (key, (.int number : Value F)) = true ↔
      limitLower key ≤ number ∧ number ≤ uint32Max := by
  rw [limitValid, Bool.and_eq_true, decide_eq_true_eq, decide_eq_true_eq]

theorem limitLower_nonneg (key : List Nat) : 0 ≤ limitLower key := by
  rw [limitLower]
  split <;> decide

/-- A limit among limits that were accepted. -/
theorem limitField_eq_ok {limits : List (List Nat × Value F)}
    (hlimits : ∀ limit ∈ limits, limitValid limit = true) {number : Nat} :
    limitField limits key = .ok number ↔ limits.lookup (codes key) = some (.int number) := by
  rw [limitField, intField, raising_bind_eq_ok]
  constructor
  · rintro ⟨value, hvalue, hnumber⟩
    rw [item_eq_ok] at hvalue
    split at hnumber
    · next integer =>
      rw [if_pos rfl] at hnumber
      cases hnumber
      have hvalid := hlimits _ (mem_of_lookup hvalue)
      rw [limitValid_int] at hvalid
      rw [Int.toNat_of_nonneg (Int.le_trans (limitLower_nonneg _) hvalid.1)]
      exact hvalue
    · cases hnumber
  · intro hvalue
    refine ⟨_, item_eq_ok.mpr hvalue, ?_⟩
    dsimp only
    rw [if_pos rfl, Int.toNat_natCast]

end Tools
