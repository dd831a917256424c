/-
# One comma too many

A comma behind the last capability is no JSON. The reader takes the members up to the
capabilities and the names in their list, and stops at the bracket behind the comma.
-/

import EspContainer.Tools.ManifestAcceptance

namespace Tools

open Binary Json Package Text

variable {F E : Type} {decoder : Decoder F E} {interpreter : Interpreter F} {record : ManifestRecord}

theorem commaed_append {first second : List (List Nat)} (hfirst : first ≠ []) (hsecond : second ≠ []) :
    commaed (first ++ second) = commaed first ++ 44 :: commaed second := by
  induction first with
  | nil => exact absurd rfl hfirst
  | cons text texts ih =>
      rw [List.cons_append, commaed_cons, commaed_cons]
      cases texts with
      | nil =>
          obtain ⟨next, others, rfl⟩ := List.exists_cons_of_ne_nil hsecond
          simp [codes]
      | cons next others =>
          rw [ih (List.cons_ne_nil _ _)]
          simp [codes]

/-- Strings are read back from their texts. -/
theorem forall₂_quoted {names : List String}
    (hnames : ∀ name ∈ names, isIdentifier (codes name) = true) (depth : Nat) :
    List.Forall₂ (ReadsBack (scanOnce decoder depth)) (names.map fun name => quoted (codes name))
      (names.map fun name => Value.str (codes name)) := by
  obtain ⟨inner, hinner⟩ := scanOnce_eq decoder depth
  rw [List.forall₂_map_left_iff, List.forall₂_map_right_iff, List.forall₂_same, hinner]
  intro name hname
  rw [← writeString_of_unescaped (isUnescaped_of_identifier (hnames name hname))]
  exact readsBack_str (codes name)

/-- The list with the comma is not read. -/
theorem scanOnce_names {names : List String} (hnames : ∀ name ∈ names, isIdentifier (codes name) = true)
    (hnonempty : names ≠ []) (depth : Nat) (rest : List Nat) :
    scanOnce decoder (depth + 1) (namesText names true ++ rest) = .error .malformed := by
  obtain ⟨inner, hinner⟩ := scanOnce_eq decoder depth
  have hsplit : namesText names true ++ rest =
      91 :: (commaed (names.map fun name => quoted (codes name)) ++ 44 :: (93 :: rest)) := by
    simp [namesText, codes]
  rw [hsplit]
  refine scanWith_list_failed (scanEnclosed_failed (forall₂_quoted hnames depth) ?_ (by decide)
    (.inl rfl) rfl ?_)
  · simpa using hnonempty
  · rw [hinner, scanWith_bracket]

/-- Members are read back from their texts. -/
theorem forall₂_memberTexts (hhook : KeepsMembers decoder) {format : F → Option (List Nat)} {depth : Nat}
    {items : List (String × Value F)} {texts : List (String × List Nat)}
    (hwritten : MembersWritten format items texts) (hplain : ∀ item ∈ items, Plain depth item.2)
    (hunescaped : ∀ text ∈ texts, isUnescaped (codes text.1) = true) :
    List.Forall₂ (ReadsBack (scanMember (scanOnce decoder depth)))
      (texts.map fun text => memberText text.1 text.2) (keyed items) := by
  induction hwritten with
  | nil => exact .nil
  | @cons item text items texts hitem hitems ih =>
      rw [List.forall_mem_cons] at hplain hunescaped
      refine .cons ?_ (ih hplain.2 hunescaped.2)
      obtain ⟨written, hwritten, hback⟩ :=
        @readsBack_write F E decoder format hhook depth item.2 hplain.1
      rw [hitem.2, Option.some.injEq] at hwritten
      subst hwritten
      change ReadsBack _ (memberText text.1 text.2) (codes item.1, item.2)
      rw [← writeMember_of_unescaped hunescaped.1, hitem.1]
      exact readsBack_member hback

/-- The text with the comma, cut before the capabilities. -/
theorem spelled_comma (record : ManifestRecord) :
    ∃ rest, record.spelled true =
      123 :: (commaed ((record.memberTexts.take 7).map fun text => memberText text.1 text.2) ++
        44 :: (memberText "required_capabilities" (namesText record.requiredCapabilities true) ++ rest)) := by
  obtain ⟨rest, hrest⟩ : ∃ rest, commaed (record.membersBehind true) =
      memberText "required_capabilities" (namesText record.requiredCapabilities true) ++ rest :=
    ⟨_, commaed_cons _ _⟩
  refine ⟨rest ++ codes "\x7d", ?_⟩
  rw [ManifestRecord.spelled, objectText, commaed_append (by simp) (by simp [ManifestRecord.membersBehind]),
    hrest]
  simp [codes, ManifestRecord.memberTexts, ManifestRecord.membersBefore]

/-- The text with the comma is not read. -/
theorem read_comma (interpreter : Interpreter F) (hrecord : record.Valid)
    (hnames : record.requiredCapabilities ≠ []) (depth : Nat) :
    read interpreter.decoder (depth + 2) (record.spelled true) = .error .malformed := by
  obtain ⟨rest, hsplit⟩ := spelled_comma record
  have hunescaped := List.all_eq_true.mp (isUnescaped_memberTexts record)
  have hbefore := forall₂_memberTexts (keepsMembers interpreter)
    (List.forall₂_take 7 (@membersWritten_items F interpreter.formatFloat record hrecord _ _ .rfl .rfl))
    (fun item hitem => plain_items record depth item (List.mem_of_mem_take hitem))
    (fun text htext => hunescaped text.1 (List.mem_map_of_mem (List.mem_of_mem_take htext)))
  have hlast : scanMember (scanOnce interpreter.decoder (depth + 1))
      (memberText "required_capabilities" (namesText record.requiredCapabilities true) ++ rest) =
        .error .malformed := by
    have hmember : memberText "required_capabilities" (namesText record.requiredCapabilities true) ++
        rest = writeMember (codes "required_capabilities",
          namesText record.requiredCapabilities true ++ rest) := by
      rw [writeMember_of_unescaped (by decide), memberText, memberText, List.append_assoc]
    rw [hmember]
    exact scanMember_failed rfl (scanOnce_names hrecord.names hnames depth rest)
  have hscan := @scanWith_dict_failed F Raised interpreter.decoder _ _ _ (scanEnclosed_failed hbefore
    (by simp [keyed, ManifestRecord.items]) (by decide) (.inr rfl) rfl hlast)
  rw [hsplit, Json.read, if_neg (by simp), show skipSpaces (123 :: _) = 123 :: _ from rfl, scanOnce, hscan]
  rfl

/-- The tools refuse the text with the comma as no JSON. -/
theorem manifest_comma (hnesting : 2 ≤ interpreter.nesting) (hrecord : record.Valid)
    (hnames : record.requiredCapabilities ≠ [])
    (hlength : (record.spelled true).length ≤ packageManifestMaxBytes) :
    manifest interpreter (encoded (record.spelled true)) =
      raisePackageError "manifest 不是合法 UTF-8 JSON" := by
  obtain ⟨depth, hdepth⟩ := Nat.exists_eq_add_of_le' hnesting
  have hascii := hrecord.isAscii_spelled true
  have hdecoded : GuestReader.decodeUtf8 (encoded (record.spelled true)) =
      .ok (String.ofList ((record.spelled true).map Char.ofNat)) :=
    Guest.decodeUtf8_eq_ok.mpr (utf8_ofList hascii)
  have hread : readManifest interpreter (encoded (record.spelled true)) =
      raisePackageError "manifest 不是合法 UTF-8 JSON" := by
    rw [readManifest, hdecoded]
    dsimp only
    rw [hascii.codes_ofList, hdepth, read_comma interpreter hrecord hnames depth]
  have hdemand : demand (0 < (encoded (record.spelled true)).length &&
      (encoded (record.spelled true)).length ≤ packageManifestMaxBytes) "manifest 大小超限" =
        .ok () := by
    rw [demand_eq_ok, Bool.and_eq_true, decide_eq_true_eq, decide_eq_true_eq, length_encoded]
    obtain ⟨rest, hsplit⟩ := spelled_comma record
    exact ⟨by rw [hsplit]; exact Nat.succ_pos _, hlength⟩
  rw [manifest, hdemand, hread]
  rfl

end Tools
