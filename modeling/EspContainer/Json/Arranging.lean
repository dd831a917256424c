/-
# Reading objects back in order

Objects lose the order of their members when they are written. So a value whose objects have
no key twice is read back with their members in the order of their keys, if floats are read
back. How deeply it may be nested is found on the way.
-/

import EspContainer.Json.Invariants

namespace Json

open Text

variable {F E : Type} {decoder : Decoder F E} {format : F → Option (List Nat)}

/-- Members in the order of their keys. -/
def sortMembers {α : Type} (members : List (List Nat × α)) : List (List Nat × α) :=
  members.insertionSort fun first second => first.1 ≤ second.1

mutual

/-- A value with the members of its objects in the order of their keys, at every depth. -/
def arrange : Value F → Value F
  | .null => .null
  | .bool value => .bool value
  | .int value => .int value
  | .float value => .float value
  | .str text => .str text
  | .list items => .list (arrangeItems items)
  | .dict members => .dict (sortMembers (arrangeMembers members))

def arrangeItems : List (Value F) → List (Value F)
  | [] => []
  | item :: items => arrange item :: arrangeItems items

def arrangeMembers : List (List Nat × Value F) → List (List Nat × Value F)
  | [] => []
  | (key, value) :: members => (key, arrange value) :: arrangeMembers members

end

theorem arrangeItems_eq (items : List (Value F)) : arrangeItems items = items.map arrange := by
  induction items with
  | nil => rfl
  | cons item items ih => rw [arrangeItems, ih, List.map_cons]

theorem arrangeMembers_eq (members : List (List Nat × Value F)) :
    arrangeMembers members = members.map fun member => (member.1, arrange member.2) := by
  induction members with
  | nil => rfl
  | cons member members ih =>
      obtain ⟨key, value⟩ := member
      rw [arrangeMembers, ih, List.map_cons]

/-! ## Sorting -/

theorem perm_sortMembers {α : Type} (members : List (List Nat × α)) :
    (sortMembers members).Perm members := List.perm_insertionSort _ members

/-- Where no key is there twice, the keys come out in order. -/
theorem sorted_sortMembers {α : Type} {members : List (List Nat × α)}
    (hkeys : (members.map Prod.fst).Nodup) :
    ((sortMembers members).map Prod.fst).Pairwise (· < ·) := by
  have htrans : IsTrans (List Nat × α) fun first second => first.1 ≤ second.1 :=
    ⟨fun _ _ _ => le_trans⟩
  have htotal : @Std.Total (List Nat × α) fun first second => first.1 ≤ second.1 :=
    ⟨fun first second => le_total first.1 second.1⟩
  have hnodup := ((perm_sortMembers members).map Prod.fst).nodup_iff.mpr hkeys
  have hsorted := List.pairwise_map.mpr
    (List.pairwise_insertionSort (fun (first second : List Nat × α) => first.1 ≤ second.1) members)
  exact (List.pairwise_and_iff.mpr ⟨hsorted, hnodup⟩).imp fun hkey => lt_of_le_of_ne hkey.1 hkey.2

/-- Two lists that go together still do when both are sorted by the same keys. -/
theorem forall₂_sortMembers {α β : Type} {related : List Nat × α → List Nat × β → Prop}
    (hsame : ∀ first second, related first second → first.1 = second.1)
    {firsts : List (List Nat × α)} {seconds : List (List Nat × β)}
    (hrelated : List.Forall₂ related firsts seconds) :
    List.Forall₂ related (sortMembers firsts) (sortMembers seconds) := by
  have hinsert {first : List Nat × α} {second : List Nat × β} (hfirst : related first second)
      {firsts : List (List Nat × α)} {seconds : List (List Nat × β)}
      (hothers : List.Forall₂ related firsts seconds) :
      List.Forall₂ related (firsts.orderedInsert (fun first second => first.1 ≤ second.1) first)
        (seconds.orderedInsert (fun first second => first.1 ≤ second.1) second) := by
    induction hothers with
    | nil => exact .cons hfirst .nil
    | @cons head other firsts seconds hhead hothers ih =>
        rw [List.orderedInsert_cons, List.orderedInsert_cons, hsame _ _ hfirst, hsame _ _ hhead]
        split
        · exact .cons hfirst (.cons hhead hothers)
        · exact .cons hhead ih
  induction hrelated with
  | nil => exact .nil
  | cons hfirst _ ih => exact hinsert hfirst ih

/-! ## Writing -/

/-- The order of members is no matter to the text. -/
theorem write_arrange {value : Value F} (hkeyed : Keyed value) :
    write format (arrange value) = write format value := by
  induction hkeyed with
  | null => rfl
  | bool value => rfl
  | int value => rfl
  | float value => rfl
  | str text => rfl
  | @list items hitems ih =>
      rw [arrange, arrangeItems_eq, write, write]
      refine congrArg _ ?_
      clear hitems
      induction items with
      | nil => rfl
      | cons item items rest =>
          rw [List.forall_mem_cons] at ih
          rw [List.map_cons, writeItems, writeItems, ih.1, rest ih.2]
  | @dict members hmembers hkeys ih =>
      have hsame : writeMembers format (members.map fun member => (member.1, arrange member.2)) =
          writeMembers format members := by
        clear hmembers hkeys
        induction members with
        | nil => rfl
        | cons member members rest =>
            rw [List.forall_mem_cons] at ih
            rw [List.map_cons, writeMembers_cons, writeMembers_cons, ih.1, rest ih.2]
      have hsorted : ((sortMembers (members.map fun member => (member.1, arrange member.2))).map
          Prod.fst).Pairwise (· < ·) := by
        refine sorted_sortMembers ?_
        rwa [List.map_map]
      rw [arrange, arrangeMembers_eq]
      calc
        write format (.dict (sortMembers (members.map fun member => (member.1, arrange member.2)))) =
            write format (.dict (members.map fun member => (member.1, arrange member.2))) := by
          refine Option.ext fun text => ?_
          rw [write_dict_of_perm .rfl hsorted, write_dict_of_perm (perm_sortMembers _).symm hsorted]
        _ = write format (.dict members) := by rw [write, write, hsame]

/-! ## Floats -/

/-- What is written of a float is read back as this float, if no number goes on behind it. -/
def FloatsBack (decoder : Decoder F E) (format : F → Option (List Nat)) : Prop :=
  ∀ value text, format value = some text → ∀ rest, NumberEnds rest →
    scanNumber decoder (text ++ rest) = some (.float value, rest)

/-- A number begins with a digit, or with a minus and a digit. -/
theorem number_of_scanNumber {text rest : List Nat} {value : Value F}
    (hvalue : scanNumber decoder text = some (value, rest)) :
    ∃ code others, text = code :: others ∧ (isDecimalDigit code = true ∨
      code = 45 ∧ ∃ digit behind, others = digit :: behind ∧ isDecimalDigit digit = true) := by
  have hinteger {digits : List Nat} {found : List Nat × List Nat}
      (hfound : scanInteger digits = some found) :
      ∃ digit behind, digits = digit :: behind ∧ isDecimalDigit digit = true := by
    rcases digits with _ | ⟨digit, behind⟩
    · cases hfound
    · refine ⟨digit, behind, rfl, ?_⟩
      rw [scanInteger] at hfound
      split at hfound
      · next hzero => rw [hzero]; rfl
      · split at hfound
        · assumption
        · cases hfound
  rw [scanNumber] at hvalue
  dsimp only at hvalue
  split at hvalue
  · cases hvalue
  · next digits after hdigits =>
    rcases text with _ | ⟨code, others⟩
    · cases hdigits
    · refine ⟨code, others, rfl, ?_⟩
      by_cases hminus : code = 45
      · subst hminus
        exact .inr ⟨rfl, hinteger hdigits⟩
      · have hsign : ((code :: others).take 1 |>.filter fun code => code == 45) = [] := by
          simp [hminus]
        rw [hsign] at hdigits
        obtain ⟨digit, behind, hcons, hdigit⟩ := hinteger hdigits
        cases hcons
        exact .inl hdigit

variable {inner : Option (Scan E (Value F))}

theorem readsBack_float (hfloats : FloatsBack decoder format) {value : F} {text : List Nat}
    (htext : format value = some text) : ReadsBack (scanWith decoder inner) text (.float value) := by
  have hback := hfloats value text htext
  have halone := hback [] numberEnds_nil
  rw [List.append_nil] at halone
  obtain ⟨code, others, rfl, hcode⟩ := number_of_scanNumber halone
  refine ⟨begins_digit (hcode.imp_right And.left) others, fun rest hrest => ?_⟩
  rw [List.cons_append, scanWith_number, scanOther, ← List.cons_append, hback rest hrest]
  refine hcode.imp_right fun hminus => ⟨hminus.1, ?_⟩
  obtain ⟨digit, behind, rfl, hdigit⟩ := hminus.2
  exact ⟨digit, behind ++ rest, rfl, hdigit⟩

/-! ## Values -/

/-- The items of a list go with their texts as each of them does. -/
theorem forall₂_of_writeItems {related : List Nat → Value F → Prop} {items : List (Value F)}
    (hitems : ∀ item ∈ items, ∀ text, write format item = some text → related text item)
    {texts : List (List Nat)} (htexts : writeItems format items = some texts) :
    List.Forall₂ related texts items := by
  induction items generalizing texts with
  | nil =>
      cases htexts
      exact .nil
  | cons item items ih =>
      rw [List.forall_mem_cons] at hitems
      rw [writeItems] at htexts
      obtain ⟨text, htext, htexts⟩ := Option.bind_eq_some_iff.mp htexts
      obtain ⟨others, hothers, rfl⟩ := Option.map_eq_some_iff.mp htexts
      exact .cons (hitems.1 text htext) (ih hitems.2 hothers)

/-- So do the members of an object. -/
theorem forall₂_of_writeMembers {related : List Nat × List Nat → List Nat × Value F → Prop}
    {members : List (List Nat × Value F)}
    (hmembers : ∀ member ∈ members, ∀ text, write format member.2 = some text →
      related (member.1, text) member)
    {texts : List (List Nat × List Nat)} (htexts : writeMembers format members = some texts) :
    List.Forall₂ related texts members := by
  induction members generalizing texts with
  | nil =>
      cases htexts
      exact .nil
  | cons member members ih =>
      rw [List.forall_mem_cons] at hmembers
      rw [writeMembers_cons] at htexts
      obtain ⟨text, htext, htexts⟩ := Option.bind_eq_some_iff.mp htexts
      obtain ⟨others, hothers, rfl⟩ := Option.map_eq_some_iff.mp htexts
      exact .cons (hmembers.1 text htext) (ih hmembers.2 hothers)

/-- What holds of each pair from some depth on holds of all of them from some depth on. -/
theorem forall₂_from_depth {α β : Type} {related : Nat → α → β → Prop} {firsts : List α}
    {seconds : List β}
    (heach : List.Forall₂ (fun first second => ∃ depth, ∀ limit, depth ≤ limit →
      related limit first second) firsts seconds) :
    ∃ depth, ∀ limit, depth ≤ limit → List.Forall₂ (related limit) firsts seconds := by
  induction heach with
  | nil => exact ⟨0, fun _ _ => .nil⟩
  | cons hfirst _ ih =>
      obtain ⟨first, hfirst⟩ := hfirst
      obtain ⟨others, hothers⟩ := ih
      refine ⟨max first others, fun limit hlimit => ?_⟩
      obtain ⟨hleft, hright⟩ := Nat.max_le.mp hlimit
      exact .cons (hfirst limit hleft) (hothers limit hright)

/-- What holds one level deeper from some depth on holds from some depth on. -/
theorem from_depth_succ {property : Nat → Prop}
    (hdeeper : ∃ depth, ∀ limit, depth ≤ limit → property (limit + 1)) :
    ∃ depth, ∀ limit, depth ≤ limit → property limit := by
  obtain ⟨depth, hdeeper⟩ := hdeeper
  refine ⟨depth + 1, fun limit hlimit => ?_⟩
  obtain ⟨lower, rfl⟩ : ∃ lower, limit = lower + 1 :=
    Nat.exists_eq_add_one.mpr (Nat.lt_of_lt_of_le (Nat.succ_pos _) hlimit)
  exact hdeeper lower (Nat.le_of_succ_le_succ hlimit)

/-- A value that has no depth is read back at every depth. -/
theorem readsBack_flat {value : Value F} {text : List Nat}
    (hback : ∀ inner, ReadsBack (scanWith decoder inner) text value) :
    ∃ depth, ∀ limit, depth ≤ limit → ReadsBack (scanOnce decoder limit) text value := by
  refine ⟨0, fun limit _ => ?_⟩
  obtain ⟨inner, hinner⟩ := scanOnce_eq decoder limit
  rw [hinner]
  exact hback inner

/-- What is written of a value is read back with all members in order, from some depth on. -/
theorem readsBack_arrange (hhook : KeepsMembers decoder) (hfloats : FloatsBack decoder format)
    {value : Value F} (hkeyed : Keyed value) {text : List Nat}
    (htext : write format value = some text) :
    ∃ depth, ∀ limit, depth ≤ limit → ReadsBack (scanOnce decoder limit) text (arrange value) := by
  induction hkeyed generalizing text with
  | null =>
      cases htext
      exact readsBack_flat fun inner => readsBack_null
  | bool value =>
      obtain rfl : codes (if value then "true" else "false") = text := by
        cases value <;> exact Option.some.inj htext
      exact readsBack_flat fun inner => readsBack_bool value
  | int value =>
      cases htext
      exact readsBack_flat fun inner => readsBack_int value
  | float value => exact readsBack_flat fun inner => readsBack_float hfloats htext
  | str value =>
      cases htext
      exact readsBack_flat fun inner => readsBack_str value
  | @list items hitems ih =>
      rw [write, Option.map_eq_some_iff] at htext
      obtain ⟨texts, htexts, rfl⟩ := htext
      obtain ⟨depth, hall⟩ := forall₂_from_depth
        (forall₂_of_writeItems (fun item hitem text => ih item hitem) htexts)
      refine from_depth_succ ⟨depth, fun limit hlimit => ?_⟩
      rw [arrange, arrangeItems_eq]
      exact readsBack_list (List.forall₂_map_right_iff.mpr (hall limit hlimit))
  | @dict members hmembers hkeys ih =>
      rw [write, Option.map_eq_some_iff] at htext
      obtain ⟨texts, htexts, rfl⟩ := htext
      have heach : List.Forall₂ (fun text member => ∃ depth, ∀ limit, depth ≤ limit →
          text.1 = member.1 ∧ ReadsBack (scanOnce decoder limit) text.2 (arrange member.2))
          texts members := by
        refine forall₂_of_writeMembers (fun member hmember text hwritten => ?_) htexts
        obtain ⟨depth, hback⟩ := ih member hmember hwritten
        exact ⟨depth, fun limit hlimit => ⟨rfl, hback limit hlimit⟩⟩
      obtain ⟨depth, hall⟩ := forall₂_from_depth heach
      refine from_depth_succ ⟨depth, fun limit hlimit => ?_⟩
      rw [arrange, arrangeMembers_eq]
      have hsorted : List.Forall₂
          (fun text member => text.1 = member.1 ∧ ReadsBack (scanOnce decoder limit) text.2 member.2)
          (sortMembers texts) (sortMembers (members.map fun member => (member.1, arrange member.2))) :=
        forall₂_sortMembers (fun _ _ => And.left) (List.forall₂_map_right_iff.mpr (hall limit hlimit))
      refine readsBack_dict hhook ?_ (sorted_sortMembers ?_)
      · rw [List.forall₂_map_left_iff]
        refine hsorted.imp ?_
        rintro ⟨key, text⟩ ⟨same, value⟩ ⟨hkey, hback⟩
        cases hkey
        exact readsBack_member hback
      · rwa [List.map_map]

/-- What is written of a value is read as this value with all members in order, by every reader
that goes deep enough. -/
theorem read_arranged (hhook : KeepsMembers decoder) (hfloats : FloatsBack decoder format)
    {value : Value F} (hkeyed : Keyed value) {text : List Nat}
    (htext : write format value = some text) :
    ∃ depth, ∀ limit, depth ≤ limit → read decoder limit text = .ok (arrange value) := by
  obtain ⟨depth, hback⟩ := readsBack_arrange hhook hfloats hkeyed htext
  exact ⟨depth, fun limit hlimit => read_of_readsBack (hback limit hlimit)⟩

end Json
