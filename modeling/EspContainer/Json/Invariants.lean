/-
# What reading and writing preserve

A property of values that the reader's ways of building them keep, and the hooks with them,
holds of everything it returns. And an object is written alike in whatever order its members
were put there.
-/

import EspContainer.Json.RoundTrip
import Mathlib.Data.List.Nodup

namespace Json

open Text

variable {F E : Type} {decoder : Decoder F E} {holds : Value F → Prop}

/-! ## Reading -/

/-- A property that every way of building a value keeps. -/
structure Kept (decoder : Decoder F E) (holds : Value F → Prop) : Prop where
  null : holds .null
  bool : ∀ value, holds (.bool value)
  int : ∀ value, holds (.int value)
  float : ∀ value, holds (.float value)
  str : ∀ text, holds (.str text)
  list : ∀ items, (∀ item ∈ items, holds item) → holds (.list items)
  constant : ∀ text value, decoder.parseConstant text = .ok value → holds value
  dict : ∀ members value, (∀ member ∈ members, holds member.2) →
    decoder.pairsHook members = .ok value → holds value

/-- Everything that a scan returns has a property. -/
def Returns {α : Type} (scan : Scan E α) (property : α → Prop) : Prop :=
  ∀ text value rest, scan text = .ok (value, rest) → property value

theorem returns_hooked {α : Type} {property : α → Prop} {answer : Except E α}
    (hanswer : ∀ value, answer = .ok value → property value) : Returns (hooked answer) property := by
  intro text value rest hvalue
  cases answer with
  | error error => cases hvalue
  | ok found =>
      cases hvalue
      exact hanswer value rfl

theorem forall_of_scanSequence {α : Type} {element : Scan E α} {property : α → Prop} {close : Nat}
    (helement : Returns element property) {rounds : Nat} {text rest : List Nat} {values : List α}
    (hvalues : scanSequence element close rounds text = .ok (values, rest)) :
    ∀ value ∈ values, property value := by
  induction rounds generalizing text values rest with
  | zero => cases hvalues
  | succ rounds ih =>
      rw [scanSequence] at hvalues
      cases hfirst : element text with
      | error failure =>
          rw [hfirst] at hvalues
          cases hvalues
      | ok found =>
          obtain ⟨first, after⟩ := found
          have hproperty := helement text first after hfirst
          simp only [hfirst, bind, Except.bind] at hvalues
          split at hvalues
          · cases hvalues
          · split at hvalues
            · cases hvalues
              simpa using hproperty
            · split at hvalues
              · split at hvalues
                · cases hvalues
                · next others hothers =>
                  cases hvalues
                  rw [List.forall_mem_cons]
                  exact ⟨hproperty, ih hothers⟩
              · cases hvalues

theorem forall_of_scanEnclosed {α : Type} {element : Scan E α} {property : α → Prop} {close : Nat}
    (helement : Returns element property) :
    Returns (scanEnclosed element close) fun values => ∀ value ∈ values, property value := by
  intro text values rest hvalues
  rw [scanEnclosed] at hvalues
  split at hvalues
  · cases hvalues
    simp
  · exact forall_of_scanSequence helement hvalues

theorem returns_scanMember {scan : Scan E (Value F)} (hscan : Returns scan holds) :
    Returns (scanMember scan) fun member => holds member.2 := by
  intro text member rest hmember
  rw [scanMember] at hmember
  split at hmember
  · split at hmember
    · cases hmember
    · next key after hkey =>
      dsimp only at hmember
      split at hmember
      · cases hvalue : scan (skipSpaces (skipSpaces after).tail) with
        | error failure =>
            rw [hvalue] at hmember
            cases hmember
        | ok found =>
            rw [hvalue] at hmember
            cases hmember
            exact hscan _ _ _ hvalue
      · cases hmember
  · cases hmember

theorem returns_scanList (hkept : Kept decoder holds) {scan : Scan E (Value F)}
    (hscan : Returns scan holds) : Returns (scanList scan) holds := by
  intro text value rest hvalue
  rw [scanList] at hvalue
  cases hitems : scanEnclosed scan 93 text with
  | error failure =>
      rw [hitems] at hvalue
      cases hvalue
  | ok found =>
      rw [hitems] at hvalue
      cases hvalue
      exact hkept.list _ (forall_of_scanEnclosed hscan _ _ _ hitems)

theorem returns_scanDict (hkept : Kept decoder holds) {scan : Scan E (Value F)}
    (hscan : Returns scan holds) : Returns (scanDict decoder scan) holds := by
  intro text value rest hvalue
  rw [scanDict] at hvalue
  cases hmembers : scanEnclosed (scanMember scan) 125 text with
  | error failure =>
      rw [hmembers] at hvalue
      cases hvalue
  | ok found =>
      rw [hmembers] at hvalue
      have hall := forall_of_scanEnclosed (returns_scanMember hscan) _ _ _ hmembers
      exact returns_hooked (hkept.dict found.1 · hall) _ _ _ hvalue

theorem returns_scanLiteral {spelling : String} {found other : Scan E (Value F)}
    (hfound : Returns found holds) (hother : Returns other holds) :
    Returns (scanLiteral spelling found other) holds := by
  intro text value rest hvalue
  rw [scanLiteral] at hvalue
  split at hvalue
  · exact hfound _ _ _ hvalue
  · exact hother _ _ _ hvalue

theorem returns_scanOther (hkept : Kept decoder holds) : Returns (scanOther decoder) holds := by
  intro text value rest hvalue
  rw [scanOther] at hvalue
  split at hvalue
  · cases hvalue
  · next found hfound =>
    cases hvalue
    rw [scanNumber] at hfound
    dsimp only at hfound
    split at hfound
    · cases hfound
    · split at hfound
      · cases hfound
        exact hkept.int _
      · cases hfound
        exact hkept.float _

/-- The texts that always stand for one value. -/
theorem returns_ok {α : Type} {property : α → Prop} {value : α} (hvalue : property value) :
    Returns (fun rest => (.ok (value, rest) : Except (Failure E) (α × List Nat))) property := by
  intro text found rest hfound
  cases hfound
  exact hvalue

theorem returns_scanWith (hkept : Kept decoder holds) {inner : Option (Scan E (Value F))}
    (hinner : ∀ scan ∈ inner, Returns scan holds) : Returns (scanWith decoder inner) holds := by
  have hconstant (text : List Nat) : Returns (hooked (decoder.parseConstant text)) holds :=
    returns_hooked (hkept.constant text)
  rintro (_ | ⟨code, text⟩) value rest hvalue
  · cases hvalue
  rw [scanWith.eq_def] at hvalue
  dsimp only at hvalue
  split at hvalue
  · split at hvalue
    · cases hvalue
    · cases hvalue
      exact hkept.str _
  split at hvalue
  · split at hvalue
    · cases hvalue
    · next scan =>
      exact returns_scanDict hkept (hinner scan rfl) _ _ _ hvalue
  split at hvalue
  · split at hvalue
    · cases hvalue
    · next scan =>
      exact returns_scanList hkept (hinner scan rfl) _ _ _ hvalue
  exact returns_scanLiteral (returns_ok hkept.null)
    (returns_scanLiteral (returns_ok (hkept.bool true))
      (returns_scanLiteral (returns_ok (hkept.bool false))
        (returns_scanLiteral (hconstant _) (returns_scanLiteral (hconstant _)
          (returns_scanLiteral (hconstant _) (returns_scanOther hkept)))))) _ _ _ hvalue

theorem returns_scanOnce (hkept : Kept decoder holds) (limit : Nat) :
    Returns (scanOnce decoder limit) holds := by
  induction limit with
  | zero => exact returns_scanWith hkept (by simp)
  | succ limit ih => exact returns_scanWith hkept (by simpa using ih)

/-- What is read has every property that is kept. -/
theorem holds_of_read (hkept : Kept decoder holds) {limit : Nat} {text : List Nat} {value : Value F}
    (hvalue : read decoder limit text = .ok value) : holds value := by
  rw [read] at hvalue
  split at hvalue
  · cases hvalue
  · cases hscan : scanOnce decoder limit (skipSpaces text) with
    | error failure =>
        rw [hscan] at hvalue
        cases hvalue
    | ok found =>
        simp only [hscan, bind, Except.bind] at hvalue
        split at hvalue
        · cases hvalue
          exact returns_scanOnce hkept limit _ _ _ hscan
        · cases hvalue

/-! ## Keys -/

/-- No key is twice in an object of the value. -/
inductive Keyed : Value F → Prop
  | null : Keyed .null
  | bool (value : Bool) : Keyed (.bool value)
  | int (value : Int) : Keyed (.int value)
  | float (value : F) : Keyed (.float value)
  | str (text : List Nat) : Keyed (.str text)
  | list {items : List (Value F)} (hitems : ∀ item ∈ items, Keyed item) : Keyed (.list items)
  | dict {members : List (List Nat × Value F)} (hmembers : ∀ member ∈ members, Keyed member.2)
      (hkeys : (members.map Prod.fst).Nodup) : Keyed (.dict members)

theorem Keyed.nodup {members : List (List Nat × Value F)} (hkeyed : Keyed (.dict members)) :
    (members.map Prod.fst).Nodup := by
  cases hkeyed with
  | dict _ hkeys => exact hkeys

theorem Keyed.of_mem {members : List (List Nat × Value F)} (hkeyed : Keyed (.dict members)) :
    ∀ member ∈ members, Keyed member.2 := by
  cases hkeyed with
  | dict hmembers _ => exact hmembers

/-! ## Writing -/

variable {format : F → Option (List Nat)}

theorem writeMembers_cons (member : List Nat × Value F) (members : List (List Nat × Value F)) :
    writeMembers format (member :: members) =
      (write format member.2).bind fun text =>
        (writeMembers format members).map fun texts => (member.1, text) :: texts := by
  obtain ⟨key, value⟩ := member
  rw [writeMembers]

/-- Members in another order have their texts in another order. -/
theorem writeMembers_perm {first second : List (List Nat × Value F)} (hperm : first.Perm second)
    {texts : List (List Nat × List Nat)} (htexts : writeMembers format first = some texts) :
    ∃ others, writeMembers format second = some others ∧ texts.Perm others := by
  induction hperm generalizing texts with
  | nil => exact ⟨texts, htexts, .rfl⟩
  | cons member _ ih =>
      rw [writeMembers_cons] at htexts
      obtain ⟨text, htext, htexts⟩ := Option.bind_eq_some_iff.mp htexts
      obtain ⟨rest, hrest, rfl⟩ := Option.map_eq_some_iff.mp htexts
      obtain ⟨others, hothers, hperm⟩ := ih hrest
      exact ⟨(member.1, text) :: others, by simp [writeMembers_cons, htext, hothers], hperm.cons _⟩
  | swap first second members =>
      rw [writeMembers_cons, writeMembers_cons] at htexts
      obtain ⟨text, htext, htexts⟩ := Option.bind_eq_some_iff.mp htexts
      obtain ⟨_, hothers, rfl⟩ := Option.map_eq_some_iff.mp htexts
      obtain ⟨other, hother, hothers⟩ := Option.bind_eq_some_iff.mp hothers
      obtain ⟨rest, hrest, rfl⟩ := Option.map_eq_some_iff.mp hothers
      exact ⟨_, by simp [writeMembers_cons, htext, hother, hrest], .swap _ _ _⟩
  | trans _ _ ihfirst ihsecond =>
      obtain ⟨middle, hmiddle, hfirst⟩ := ihfirst htexts
      obtain ⟨others, hothers, hsecond⟩ := ihsecond hmiddle
      exact ⟨others, hothers, hfirst.trans hsecond⟩

/-- The texts of members are under the keys of the members. -/
theorem keys_of_writeMembers {members : List (List Nat × Value F)}
    {texts : List (List Nat × List Nat)} (htexts : writeMembers format members = some texts) :
    texts.map Prod.fst = members.map Prod.fst := by
  induction members generalizing texts with
  | nil =>
      cases htexts
      rfl
  | cons member members ih =>
      rw [writeMembers_cons] at htexts
      obtain ⟨text, -, htexts⟩ := Option.bind_eq_some_iff.mp htexts
      obtain ⟨rest, hrest, rfl⟩ := Option.map_eq_some_iff.mp htexts
      rw [List.map_cons, List.map_cons, ih hrest]

/-- Members are sorted in one way where no two have the same key. -/
theorem insertionSort_of_perm {texts sorted : List (List Nat × List Nat)} (hperm : texts.Perm sorted)
    (hkeys : (sorted.map Prod.fst).Pairwise (· < ·)) :
    texts.insertionSort (fun first second => first.1 ≤ second.1) = sorted := by
  have htrans : IsTrans (List Nat × List Nat) fun first second => first.1 ≤ second.1 :=
    ⟨fun _ _ _ => le_trans⟩
  have htotal : @Std.Total (List Nat × List Nat) fun first second => first.1 ≤ second.1 :=
    ⟨fun first second => le_total first.1 second.1⟩
  have hsame := (List.perm_insertionSort (fun first second => first.1 ≤ second.1) texts).trans hperm
  refine hsame.eq_of_pairwise ?_ (List.pairwise_insertionSort _ texts) ?_
  · intro first second hfirst hsecond hle hge
    exact List.inj_on_of_nodup_map (hkeys.imp ne_of_lt) (hsame.mem_iff.mp hfirst) hsecond
      (le_antisymm hle hge)
  · exact (List.pairwise_map.mp hkeys).imp le_of_lt

/-- An object is written with its members in the order of their keys, however they were put
there. -/
theorem write_dict_of_perm {members sorted : List (List Nat × Value F)} (hperm : members.Perm sorted)
    (hkeys : (sorted.map Prod.fst).Pairwise (· < ·)) {text : List Nat} :
    write format (.dict members) = some text ↔
      ∃ texts, writeMembers format sorted = some texts ∧
        text = codes "\x7b" ++ (commaed (texts.map writeMember) ++ codes "\x7d") := by
  rw [write, Option.map_eq_some_iff]
  constructor
  · rintro ⟨texts, htexts, rfl⟩
    obtain ⟨others, hothers, hsame⟩ := writeMembers_perm hperm htexts
    refine ⟨others, hothers, ?_⟩
    rw [insertionSort_of_perm hsame (keys_of_writeMembers hothers ▸ hkeys)]
  · rintro ⟨others, hothers, rfl⟩
    obtain ⟨texts, htexts, hsame⟩ := writeMembers_perm hperm.symm hothers
    refine ⟨texts, htexts, ?_⟩
    rw [insertionSort_of_perm hsame.symm (keys_of_writeMembers hothers ▸ hkeys)]

end Json
