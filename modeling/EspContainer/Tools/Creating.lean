/-
# Creating manifests

`create_manifest` sets the members that it knows itself, writes the specification and reads
the text again. It makes the canonical text of a record exactly if what was written is the
value of this record, in whatever order the members of its objects were.
-/

import EspContainer.Json.Arranging
import EspContainer.Tools.ManifestAcceptance
import EspContainer.Tools.Product

namespace Tools

open Binary Json Package Text

variable {F P S : Type} {interpreter : Interpreter F} {cryptography : Cryptography P S}
  {spec : List (List Nat × Value F)} {wasm data : List UInt8} {record : ManifestRecord}

/-! ## Setting members -/

theorem nodup_setItem {members : List (List Nat × Value F)} (hkeys : (members.map Prod.fst).Nodup)
    (key : String) (value : Value F) : ((setItem members key value).map Prod.fst).Nodup := by
  rw [setItem]
  split
  · have hsame : (Prod.fst ∘ fun member : List Nat × Value F =>
        if member.1 = codes key then (member.1, value) else member) = Prod.fst := by
      funext member
      rw [Function.comp_apply]
      split <;> rfl
    rwa [List.map_map, hsame]
  · next hfresh =>
    rw [List.contains_iff_mem] at hfresh
    rw [List.map_append, List.map_singleton, List.nodup_append]
    refine ⟨hkeys, List.nodup_singleton _, ?_⟩
    rintro first hfirst second hsecond rfl
    obtain rfl := List.mem_singleton.mp hsecond
    exact hfresh hfirst

theorem mem_setItem (members : List (List Nat × Value F)) (key : String) (value : Value F) :
    (codes key, value) ∈ setItem members key value := by
  rw [setItem]
  split
  · next hthere =>
    obtain ⟨⟨same, other⟩, hmember, hkey⟩ := List.mem_map.mp (List.contains_iff_mem.mp hthere)
    cases hkey
    exact List.mem_map.mpr ⟨_, hmember, if_pos rfl⟩
  · exact List.mem_append_right _ (List.mem_singleton.mpr rfl)

theorem keyed_setItem {members : List (List Nat × Value F)} (hmembers : Keyed (.dict members))
    (key : String) {value : Value F} (hvalue : Keyed value) :
    Keyed (.dict (setItem members key value)) := by
  refine .dict ?_ (nodup_setItem hmembers.nodup key value)
  rw [setItem]
  split
  · rw [List.forall_mem_map]
    intro member hmember
    split
    · exact hvalue
    · exact hmembers.of_mem member hmember
  · rw [List.forall_mem_append]
    exact ⟨hmembers.of_mem, by simpa using hvalue⟩

/-! ## Specifications -/

/-- What the tool says of a payload. -/
def payloadValue (cryptography : Cryptography P S) (wasm : List UInt8) : Value F :=
  .dict [(codes "path", .str (codes "app.wasm")), (codes "size_bytes", .int wasm.length),
    (codes "sha256", .str (codes (hexDigest (cryptography.sha256 wasm))))]

/-- A specification with the members that the tool sets. -/
def completed (cryptography : Cryptography P S) (spec : List (List Nat × Value F)) (wasm : List UInt8) :
    List (List Nat × Value F) :=
  setItem (setItem (setItem spec "package_format_version" (.int 1)) "signature_algorithm"
    (.str (codes "rsa-3072-pss-sha256"))) "payload" (payloadValue cryptography wasm)

theorem keyed_payloadValue (cryptography : Cryptography P S) (wasm : List UInt8) :
    Keyed (payloadValue cryptography wasm : Value F) := by
  refine .dict ?_ ?_
  · simp only [List.forall_mem_cons]
    exact ⟨.str _, .int _, .str _, by simp⟩
  · simp only [List.map]
    decide

theorem keyed_completed (hspec : Keyed (.dict spec)) (wasm : List UInt8) :
    Keyed (.dict (completed cryptography spec wasm)) :=
  keyed_setItem (keyed_setItem (keyed_setItem hspec _ (.int 1)) _ (.str _)) _
    (keyed_payloadValue cryptography wasm)

/-- What the tool says of a payload is what a record with these facts says of it. -/
theorem arrange_payloadValue :
    arrange (payloadValue cryptography wasm : Value F) = .dict (keyed record.payloadItems) ↔
      record.payloadSizeBytes = wasm.length ∧
        record.payloadSha256 = hexDigest (cryptography.sha256 wasm) := by
  have harranged : arrange (payloadValue cryptography wasm : Value F) =
      .dict [(codes "path", .str (codes "app.wasm")),
        (codes "sha256", .str (codes (hexDigest (cryptography.sha256 wasm)))),
        (codes "size_bytes", .int wasm.length)] := rfl
  rw [harranged]
  simp only [keyed, ManifestRecord.payloadItems, List.map_cons, List.map_nil, Value.dict.injEq,
    List.cons.injEq, Prod.mk.injEq, Value.str.injEq, Value.int.injEq, codes_injective.eq_iff,
    true_and, and_true, Nat.cast_inj]
  rw [and_comm, eq_comm, @eq_comm _ (hexDigest _)]

/-! ## Creating -/

/-- The value of a record has the members of the record. -/
theorem value_members {members : List (List Nat × Value F)}
    (hvalue : arrange (.dict members) = record.value) {key : String} {value found : Value F}
    (hmember : (codes key, value) ∈ members)
    (hfound : (key, found) ∈ record.items (.dict (keyed record.limitItems))
      (.dict (keyed record.payloadItems))) : arrange value = found := by
  rw [arrange, arrangeMembers_eq, ManifestRecord.value, Value.dict.injEq] at hvalue
  have harranged : (codes key, arrange value) ∈ keyed (record.items (.dict (keyed record.limitItems))
      (.dict (keyed record.payloadItems))) := by
    rw [← hvalue, (perm_sortMembers _).mem_iff]
    exact List.mem_map_of_mem (f := fun member : List Nat × Value F => (member.1, arrange member.2)) hmember
  have hnodup := (sorted_items record (.dict (keyed (F := F) record.limitItems))
    (.dict (keyed record.payloadItems))).imp ne_of_lt
  have hsame := lookup_of_mem hnodup harranged
  rw [lookup_of_mem hnodup (List.mem_map_of_mem hfound), Option.some.injEq] at hsame
  exact hsame.symm

/-- A text that is encoded like an ASCII text is this text. -/
theorem eq_of_encodeUtf8 {first second : List Nat} (hsecond : IsAscii second)
    (hsame : encodeUtf8 first = .ok (encoded second)) : first = second := by
  rw [encodeUtf8] at hsame
  split at hsame
  · next hvalid =>
    rw [← utf8_ofList hsecond, Except.ok.injEq, ← Guest.decodeUtf8_eq_ok,
      Guest.decodeUtf8_eq_ok.mpr rfl, Except.ok.injEq] at hsame
    have hcodes := congrArg codes hsame
    rwa [hsecond.codes_ofList, codes_ofList_of_valid, eq_comm] at hcodes
    exact fun code hcode => of_decide_eq_true (List.all_eq_true.mp hvalid code hcode)
  · cases hsame

/-- A value whose text is that of a record is the value of the record. -/
theorem arrange_of_write (hfloats : FloatsBack interpreter.decoder interpreter.formatFloat)
    (hrecord : record.Valid) {value : Value F} (hkeyed : Keyed value)
    (hwritten : write interpreter.formatFloat value = some record.text) :
    arrange value = record.value := by
  obtain ⟨depth, hread⟩ := read_arranged (keepsMembers interpreter) hfloats hkeyed hwritten
  obtain ⟨text, htext, hback⟩ := @read_write F Raised interpreter.decoder interpreter.formatFloat
    (keepsMembers interpreter) _ _ (plain_value record depth)
  have hsame : write interpreter.formatFloat record.value = some record.text :=
    write_manifest hrecord .rfl .rfl .rfl
  obtain rfl : record.text = text := Option.some.inj (hsame.symm.trans htext)
  exact Except.ok.inj ((hread (depth + 2) (Nat.le_add_right _ _)).symm.trans hback)

/-- The steps of `create_manifest`. -/
theorem createManifest_steps :
    createManifest interpreter cryptography spec wasm = .ok data ↔
      jsonBytes interpreter (.dict (completed cryptography spec wasm)) = .ok data ∧
        ∃ record, manifest interpreter data = .ok record ∧
          checkDeclaredCapabilities wasm record = .ok () := by
  have hsteps : createManifest interpreter cryptography spec wasm =
      jsonBytes interpreter (.dict (completed cryptography spec wasm)) >>= fun data =>
        manifest interpreter data >>= fun record =>
          checked (checkDeclaredCapabilities wasm record) >>= fun _ => pure data := rfl
  rw [hsteps]
  simp only [raising_bind_eq_ok, raising_pure_eq_ok, checked_eq_ok]
  constructor
  · rintro ⟨created, hcreated, record, hmanifest, _, hchecked, rfl⟩
    exact ⟨hcreated, record, hmanifest, hchecked⟩
  · rintro ⟨hcreated, record, hmanifest, hchecked⟩
    exact ⟨data, hcreated, record, hmanifest, (), hchecked, rfl⟩

/-- What was created is read as a record, and the specification is its value. -/
theorem record_of_createManifest (hfloats : FloatsBack interpreter.decoder interpreter.formatFloat)
    (hspec : Keyed (.dict spec))
    (hcreated : createManifest interpreter cryptography spec wasm = .ok data) :
    ∃ record, manifest interpreter data = .ok record ∧
      arrange (.dict (completed cryptography spec wasm)) = record.value ∧
      checkDeclaredCapabilities wasm record = .ok () := by
  obtain ⟨hbytes, record, hmanifest, hchecked⟩ := createManifest_steps.mp hcreated
  refine ⟨record, hmanifest, ?_, hchecked⟩
  obtain ⟨hvalid, rfl, -⟩ := eq_text_of_manifest hmanifest
  rw [jsonBytes] at hbytes
  split at hbytes
  · cases hbytes
  · next text htext =>
    obtain rfl := eq_of_encodeUtf8 hvalid.isAscii_text hbytes
    exact arrange_of_write hfloats hvalid (keyed_completed hspec wasm) htext

/-- The text of a record is created of every specification that is the value of this record. -/
theorem createManifest_of_arrange (hnesting : 2 ≤ interpreter.nesting) (hspec : Keyed (.dict spec))
    (hrecord : record.Valid) (hlength : record.text.length ≤ packageManifestMaxBytes)
    (harranged : arrange (.dict (completed cryptography spec wasm)) = record.value)
    (hchecked : checkDeclaredCapabilities wasm record = .ok ()) :
    createManifest interpreter cryptography spec wasm = .ok (encoded record.text) := by
  have hwritten : write interpreter.formatFloat (.dict (completed cryptography spec wasm)) =
      some record.text := by
    rw [← write_arrange (keyed_completed hspec wasm), harranged]
    exact write_manifest hrecord .rfl .rfl .rfl
  exact createManifest_steps.mpr ⟨jsonBytes_of_ascii hwritten hrecord.isAscii_text, record,
    manifest_text hnesting hrecord hlength, hchecked⟩

/-- The record of what was created is one of the payload. -/
theorem payloadMatches_of_arrange
    (harranged : arrange (.dict (completed (F := F) cryptography spec wasm)) = record.value) :
    payloadMatches cryptography record wasm = true := by
  have hpayload : arrange (payloadValue cryptography wasm : Value F) =
      .dict (keyed record.payloadItems) :=
    value_members harranged (mem_setItem _ "payload" _) (by simp [ManifestRecord.items])
  obtain ⟨hsize, hdigest⟩ := arrange_payloadValue.mp hpayload
  rw [payloadMatches, hsize, hdigest, beq_self_eq_true, beq_self_eq_true, Bool.and_self]

end Tools
