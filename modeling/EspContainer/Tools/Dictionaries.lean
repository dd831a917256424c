/-
# Dictionaries

A dictionary as the list of the items that were put into it, the last in front. A loop that
puts items in and refuses a key that is there succeeds exactly if no two items have the
same key, and then the dictionary holds all of them.
-/

import Mathlib.Data.List.Nodup

namespace Tools

variable {ι κ ν : Type} [BEq κ]

/-- Put an item in, unless it is refused or its key is there. -/
def inserted (accepts : ι → Bool) (key : ι → κ) (value : ι → ν) (dictionary : List (κ × ν))
    (item : ι) : Option (List (κ × ν)) :=
  if accepts item && (dictionary.lookup (key item)).isNone then
    some ((key item, value item) :: dictionary)
  else
    none

variable [LawfulBEq κ]

/-- Whether a key is in a dictionary. -/
theorem lookup_isSome_iff_mem {dictionary : List (κ × ν)} {key : κ} :
    (dictionary.lookup key).isSome = true ↔ key ∈ dictionary.map Prod.fst := by
  rw [List.lookup_isSome_iff, List.mem_map]
  refine exists_congr fun item => and_congr_right fun _ => ?_
  rw [beq_iff_eq, eq_comm]

/-- An item of a dictionary is found under its key. -/
theorem mem_of_lookup {dictionary : List (κ × ν)} {key : κ} {value : ν}
    (hlookup : dictionary.lookup key = some value) : (key, value) ∈ dictionary := by
  obtain ⟨before, after, rfl, -⟩ := List.lookup_eq_some_iff.mp hlookup
  simp

/-- Where no key is there twice, each item is found under its key. -/
theorem lookup_of_mem {dictionary : List (κ × ν)} (hnodup : (dictionary.map Prod.fst).Nodup)
    {key : κ} {value : ν} (hmem : (key, value) ∈ dictionary) :
    dictionary.lookup key = some value := by
  induction dictionary with
  | nil => cases hmem
  | cons item dictionary ih =>
      obtain ⟨hfresh, hrest⟩ := List.nodup_cons.mp hnodup
      rcases List.mem_cons.mp hmem with rfl | hmem
      · rw [List.lookup_cons_self]
      · have hother : (key == item.1) = false := by
          rw [beq_eq_false_iff_ne]
          rintro rfl
          exact hfresh (List.mem_map.mpr ⟨_, hmem, rfl⟩)
        rw [List.lookup_cons, hother]
        exact ih hrest hmem

/-- A dictionary without other keys has the items that are found in it, in some order. -/
theorem perm_of_lookups {dictionary items : List (κ × ν)}
    (hdictionary : (dictionary.map Prod.fst).Nodup) (hitems : (items.map Prod.fst).Nodup)
    (hkeys : ∀ key ∈ dictionary.map Prod.fst, key ∈ items.map Prod.fst)
    (hfound : ∀ item ∈ items, dictionary.lookup item.1 = some item.2) : dictionary.Perm items := by
  rw [List.perm_ext_iff_of_nodup hdictionary.of_map hitems.of_map]
  intro item
  constructor
  · intro hitem
    obtain ⟨other, hother, hkey⟩ := List.mem_map.mp (hkeys item.1 (List.mem_map_of_mem hitem))
    have hvalue := hfound other hother
    rw [hkey, lookup_of_mem hdictionary hitem, Option.some.injEq] at hvalue
    rwa [show item = other from Prod.ext hkey.symm hvalue]
  · intro hitem
    exact mem_of_lookup (hfound item hitem)

/-- The loop over such items. -/
theorem foldlM_inserted {accepts : ι → Bool} {key : ι → κ} {value : ι → ν} {items : List ι}
    {start dictionary : List (κ × ν)} :
    items.foldlM (inserted accepts key value) start = some dictionary ↔
      (∀ item ∈ items, accepts item = true) ∧ (items.map key).Nodup ∧
        (∀ item ∈ items, key item ∉ start.map Prod.fst) ∧
        dictionary = (items.map fun item => (key item, value item)).reverse ++ start := by
  induction items generalizing start with
  | nil =>
      change some start = some dictionary ↔ _
      rw [Option.some.injEq]
      constructor
      · intro hstart
        exact ⟨nofun, List.nodup_nil, nofun, hstart.symm⟩
      · intro hall
        exact hall.2.2.2.symm
  | cons item items ih =>
      have hfree : (start.lookup (key item)).isNone = true ↔ key item ∉ start.map Prod.fst := by
        rw [← lookup_isSome_iff_mem]
        cases start.lookup (key item) <;> simp
      rw [List.foldlM_cons, inserted, List.forall_mem_cons, List.map_cons, List.nodup_cons,
        List.forall_mem_cons, List.map_cons, List.reverse_cons, List.append_assoc]
      by_cases haccepted : accepts item = true
      · by_cases hfresh : key item ∉ start.map Prod.fst
        · rw [if_pos (by rw [Bool.and_eq_true]; exact ⟨haccepted, hfree.mpr hfresh⟩)]
          change items.foldlM _ _ = _ ↔ _
          rw [ih]
          constructor
          · rintro ⟨haccepts, hnodup, hkeys, hdictionary⟩
            refine ⟨⟨haccepted, haccepts⟩, ⟨fun hsame => ?_, hnodup⟩, ⟨hfresh, ?_⟩, hdictionary⟩
            · obtain ⟨other, hother, hkey⟩ := List.mem_map.mp hsame
              exact hkeys other hother (hkey ▸ List.mem_cons_self)
            · exact fun other hother hmem => hkeys other hother (List.mem_cons_of_mem _ hmem)
          · rintro ⟨⟨-, haccepts⟩, ⟨hsame, hnodup⟩, ⟨-, hkeys⟩, hdictionary⟩
            refine ⟨haccepts, hnodup, fun other hother hmem => ?_, hdictionary⟩
            rcases List.mem_cons.mp hmem with hkey | hmem
            · exact hsame (List.mem_map.mpr ⟨other, hother, hkey⟩)
            · exact hkeys other hother hmem
        · rw [if_neg (by rw [Bool.and_eq_true, hfree]; exact fun h => hfresh h.2)]
          exact iff_of_false nofun fun hall => hfresh hall.2.2.1.1
      · rw [if_neg (by rw [Bool.and_eq_true]; exact fun h => haccepted h.1)]
        exact iff_of_false nofun fun hall => haccepted hall.1.1

/-- The dictionary of items with different keys. -/
theorem foldlM_inserted_nil {accepts : ι → Bool} {key : ι → κ} {value : ι → ν} {items : List ι}
    {dictionary : List (κ × ν)} :
    items.foldlM (inserted accepts key value) [] = some dictionary ↔
      (∀ item ∈ items, accepts item = true) ∧ (items.map key).Nodup ∧
        dictionary = (items.map fun item => (key item, value item)).reverse := by
  rw [foldlM_inserted, List.append_nil]
  constructor
  · rintro ⟨haccepts, hnodup, -, hdictionary⟩
    exact ⟨haccepts, hnodup, hdictionary⟩
  · rintro ⟨haccepts, hnodup, hdictionary⟩
    exact ⟨haccepts, hnodup, nofun, hdictionary⟩

/-- What is found in it. -/
theorem lookup_reverse_map {key : ι → κ} {value : ι → ν} {items : List ι}
    (hnodup : (items.map key).Nodup) {name : κ} {found : ν} :
    (items.map fun item => (key item, value item)).reverse.lookup name = some found ↔
      (name, found) ∈ items.map fun item => (key item, value item) := by
  constructor
  · intro hlookup
    exact List.mem_reverse.mp (mem_of_lookup hlookup)
  · intro hmem
    apply lookup_of_mem _ (List.mem_reverse.mpr hmem)
    rw [List.map_reverse, List.nodup_reverse, List.map_map]
    exact hnodup

/-- The keys of it. -/
theorem lookup_reverse_map_isSome {key : ι → κ} {value : ι → ν} {items : List ι} {name : κ} :
    ((items.map fun item => (key item, value item)).reverse.lookup name).isSome = true ↔
      name ∈ items.map key := by
  rw [lookup_isSome_iff_mem, List.map_reverse, List.mem_reverse, List.map_map]
  rfl

end Tools
