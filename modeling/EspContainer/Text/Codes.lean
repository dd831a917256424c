/-
# Texts as code points

A text is a list of code points, as the tools see it. A string has one such list, and every
list of code points below the surrogates is that of a string.
-/

import Mathlib.Data.List.Basic

namespace Text

/-- The code points of a literal. -/
def codes (text : String) : List Nat := text.toList.map Char.toNat

theorem codes_injective : Function.Injective codes := by
  intro first second hcodes
  apply String.toList_inj.mp
  exact List.map_injective_iff.mpr (fun _ _ => Char.toNat_inj.mp) hcodes

/-- A string is made of its code points. -/
theorem ofList_codes (text : String) : String.ofList ((codes text).map Char.ofNat) = text := by
  have hsame : Char.ofNat ∘ Char.toNat = id := funext Char.ofNat_toNat
  rw [codes, List.map_map, hsame, List.map_id, String.ofList_toList]

theorem toNat_ofNat_of_valid {code : Nat} (hcode : code.isValidChar) : (Char.ofNat code).toNat = code := by
  rw [Char.ofNat, dif_pos hcode]
  rfl

theorem toNat_ofNat {code : Nat} (hcode : code < 0xD800) : (Char.ofNat code).toNat = code :=
  toNat_ofNat_of_valid (.inl hcode)

/-- Without surrogates, a text is that of a string. -/
theorem codes_ofList_of_valid {text : List Nat} (htext : ∀ code ∈ text, code.isValidChar) :
    codes (String.ofList (text.map Char.ofNat)) = text := by
  rw [codes, String.toList_ofList, List.map_map]
  calc
    text.map (Char.toNat ∘ Char.ofNat) = text.map id :=
      List.map_congr_left fun code hcode => toNat_ofNat_of_valid (htext code hcode)
    _ = text := List.map_id text

theorem codes_ofList {text : List Nat} (htext : ∀ code ∈ text, code < 0xD800) :
    codes (String.ofList (text.map Char.ofNat)) = text :=
  codes_ofList_of_valid fun code hcode => .inl (htext code hcode)

/-! ## ASCII -/

/-- Every code point is below 128. -/
def IsAscii (text : List Nat) : Prop := ∀ code ∈ text, code < 128

instance (text : List Nat) : Decidable (IsAscii text) :=
  inferInstanceAs (Decidable (∀ code ∈ text, code < 128))

theorem IsAscii.append {first second : List Nat} (hfirst : IsAscii first) (hsecond : IsAscii second) :
    IsAscii (first ++ second) := List.forall_mem_append.mpr ⟨hfirst, hsecond⟩

/-- An ASCII text as a string. -/
theorem IsAscii.codes_ofList {text : List Nat} (htext : IsAscii text) :
    codes (String.ofList (text.map Char.ofNat)) = text :=
  Text.codes_ofList fun code hcode => Nat.lt_trans (htext code hcode) (by decide)

end Text
