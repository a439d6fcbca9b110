import CosmeticLint.FilterList.Artifact
import CosmeticLint.Proofs.Json.ReadBack
import CosmeticLint.Proofs.Text.Bytes

/-! The written artifact is accepted by its reader and gives back both lists of names, whatever
characters the names hold. Its text is one line: controls stand in it only as escapes, so that no
byte of it is one. -/

namespace CosmeticLint.Json

/-! ### Controls are escaped -/

open Decoder (isControl)

theorem isControl_hexDigit {n : Nat} (h : n < 16) : isControl (hexDigit n) = false := by
  have hall : ∀ n < 16, isControl (hexDigit n) = false := by decide
  exact hall n h

theorem isControl_escaped (x : Char) : ∀ y ∈ escaped x, isControl y = false := by
  unfold escaped
  -- Quotes, backslashes and the controls with a short escape.
  iterate 7 (split; · simp [isControl])
  split
  · rename_i hx
    have hhigh : isControl (hexDigit (x.toNat / 16)) = false := isControl_hexDigit (by omega)
    have hlow : isControl (hexDigit (x.toNat % 16)) = false := isControl_hexDigit (by omega)
    have hmark : ∀ y ∈ "\\u00".toList, isControl y = false := by simp [isControl]
    exact List.forall_mem_append.2 ⟨hmark, by simp [hhigh, hlow]⟩
  · rename_i hx
    simpa [isControl] using hx

theorem isControl_string (s : String) : ∀ y ∈ string s, isControl y = false := by
  have hquote : isControl '"' = false := rfl
  intro y hy
  simp only [string, List.cons_append, List.mem_cons, List.mem_append, List.mem_flatMap,
    List.not_mem_nil, or_false] at hy
  obtain rfl | ⟨x, -, hx⟩ | rfl := hy
  · exact hquote
  · exact isControl_escaped x y hx
  · exact hquote

theorem isControl_commaSeparated {items : List (List Char)}
    (h : ∀ item ∈ items, ∀ y ∈ item, isControl y = false) :
    ∀ y ∈ commaSeparated items, isControl y = false := by
  fun_induction commaSeparated items with
  | case1 => simp
  | case2 item => exact h item (by simp)
  | case3 item items _ ih =>
    refine List.forall_mem_append.2 ⟨h item (by simp), List.forall_mem_cons.2 ⟨rfl, ?_⟩⟩
    exact ih fun other hother => h other (by simp [hother])

theorem isControl_stringList (items : List String) :
    ∀ y ∈ stringList items, isControl y = false := by
  have hitems : ∀ item ∈ items.map string, ∀ y ∈ item, isControl y = false := by
    intro item hitem
    obtain ⟨s, -, rfl⟩ := List.mem_map.1 hitem
    exact isControl_string s
  have hcommas := isControl_commaSeparated hitems
  refine List.forall_mem_append.2 ⟨List.forall_mem_cons.2 ⟨rfl, hcommas⟩, ?_⟩
  exact List.forall_mem_singleton.2 rfl

/-- A text without controls has no byte of one: longer encodings use bytes beyond ASCII. -/
theorem le_of_mem_bytes {text : List Char} (h : ∀ y ∈ text, isControl y = false) :
    ∀ b ∈ bytes text, 0x20 ≤ b.toNat := by
  intro b hb
  obtain ⟨y, hy, hb⟩ := List.mem_flatMap.1 hb
  have hcontrol : 0x20 ≤ y.toNat := by simpa [isControl] using h y hy
  by_cases hascii : y.toNat < 128
  · rw [utf8EncodeChar_of_lt hascii, List.mem_singleton] at hb
    rw [hb, UInt8.toNat_ofNat', Nat.mod_eq_of_lt (by omega)]
    exact hcontrol
  · have hbeyond := le_of_mem_utf8EncodeChar (Nat.not_lt.1 hascii) b hb
    omega

end CosmeticLint.Json

namespace CosmeticLint.FilterList.Artifact

open Json.Decoder

variable {c d : Cursor}

theorem yields_names {names : List String} (h : c.Reads (Json.stringList names) d) :
    Yields Artifact.names c names d :=
  yields_list (readsBack_string "a string") h

theorem toJsonChars_eq (a : Artifact) : a.toJsonChars =
    ['\x7b'] ++ (Json.string "id" ++ [':'] ++ (Json.stringList a.ids ++
      ([','] ++ (Json.string "class" ++ [':'] ++ (Json.stringList a.classes ++ ['\x7d']))))) := by
  have hid : "\x7b\"id\":".toList = ['\x7b'] ++ (Json.string "id" ++ [':']) := by decide
  have hclass : ",\"class\":".toList = [','] ++ (Json.string "class" ++ [':']) := by decide
  unfold toJsonChars
  rw [hid, hclass]
  generalize Json.string "id" = i, Json.string "class" = j
  simp

/-- A written artifact is read to its last brace, with the lists that were written. -/
theorem yields_decoder (a : Artifact) (h : c.Reads a.toJsonChars d) : Yields decoder c a d := by
  rw [toJsonChars_eq] at h
  obtain ⟨c₁, hopen, h₁⟩ := h.split
  obtain ⟨c₂, hid, h₂⟩ := h₁.split
  obtain ⟨c₃, hids, h₃⟩ := h₂.split
  obtain ⟨c₄, hcomma, h₄⟩ := h₃.split
  obtain ⟨c₅, hclass, h₅⟩ := h₄.split
  obtain ⟨c₆, hclasses, hclose⟩ := h₅.split
  obtain ⟨fuel, hfuel⟩ : ∃ n, c₁.rest.length + 1 = n + 3 := by
    refine ⟨c₁.rest.length - 2, ?_⟩
    rw [h₁.1]
    simp only [Json.string, List.length_append, List.length_cons, List.length_nil]
    omega
  refine (yields_valueStart (by rw [h.1]; rfl) rfl).bind ?_
  refine (yields_skip hopen).bind ((Yields.get c₁).bind ?_)
  rw [hfuel]
  refine Yields.bind ?_ ((yields_skip hclose).bind (.pure a d))
  refine yields_members rfl rfl (yields_hasKey_first (by rw [h₁.1]; rfl)) hid
    ((yields_names hids).bind (.pure (Artifact.mk a.ids []) c₃)) ?_
  refine yields_members rfl rfl (yields_hasKey_next hcomma (by rw [h₄.1]; rfl)) hclass
    ((yields_names hclasses).bind (.pure a c₆)) ?_
  exact yields_members_end (by rw [hclose.1]; rfl)

theorem ofJson_toJson (a : Artifact) : ofJson a.toJson = .ok a := by
  have hreads : (Cursor.ofText a.toJson).Reads a.toJsonChars
      ⟨byteLength a.toJsonChars, []⟩ := by
    refine ⟨?_, (Nat.zero_add _).symm⟩
    simp only [Cursor.ofText, toJson, String.toList_ofList, List.append_nil]
  exact run_eq_ok (yields_decoder a hreads) blank_nil

theorem isControl_toJsonChars (a : Artifact) : ∀ y ∈ a.toJsonChars, isControl y = false := by
  have hids := Json.isControl_stringList a.ids
  have hclasses := Json.isControl_stringList a.classes
  unfold toJsonChars
  simp only [List.forall_mem_append]
  refine ⟨⟨⟨⟨?_, hids⟩, ?_⟩, hclasses⟩, ?_⟩ <;> simp [isControl]

/-- An artifact is written without control bytes and reads back as it was, so that writing it again
loses nothing of what its reader took from any text. -/
theorem toJson_roundTrips (a : Artifact) :
    ofJson a.toJson = .ok a ∧ (∀ b ∈ a.toJson.toByteArray.data, 0x20 ≤ b.toNat) ∧
      ∀ text, ofJson text = .ok a → ofJson a.toJson = ofJson text := by
  refine ⟨ofJson_toJson a, fun b hb => ?_, fun text htext => ?_⟩
  · have hbytes : a.toJson.toByteArray.data.toList = bytes a.toJsonChars := by
      rw [toJson, String.toByteArray_ofList, List.utf8Encode, List.toList_data_toByteArray, bytes]
    rw [← Array.mem_toList_iff, hbytes] at hb
    exact Json.le_of_mem_bytes (isControl_toJsonChars a) b hb
  · rw [htext]
    exact ofJson_toJson a

/-- Members in the other order, one that is unknown, escapes; a list in the place of the record. -/
theorem toJson_roundTrips_otherLayouts :
    let a : Artifact := ⟨["", "a\x00\"b"], ["A😀\n"]⟩
    let members := "\x7b\"class\":[\"\\u0041\\ud83d\\ude00\\n\"],\"x\":[1]," ++
      "\"id\":[\"\",\"a\\u0000\\\"b\"]\x7d"
    let list := " [[\"\", \"\\u0061\\u0000\\u0022b\"], [\"A😀\\u000a\"]] "
    (ofJson members = .ok a ∧ ofJson a.toJson = ofJson members) ∧
      ofJson list = .ok a ∧ ofJson a.toJson = ofJson list := by
  intro a members list
  have hmembers : ofJson members = .ok a := by decide +kernel
  have hlist : ofJson list = .ok a := by decide +kernel
  obtain ⟨-, -, hagain⟩ := toJson_roundTrips a
  exact ⟨⟨hmembers, hagain members hmembers⟩, hlist, hagain list hlist⟩

end CosmeticLint.FilterList.Artifact
