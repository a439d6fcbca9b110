import CosmeticLint.Proofs.Text.LetterCase

/-! Texts as bytes. A search that compares bytes finds the places that a search by characters
finds: a byte of ASCII never stands inside a longer character, so a word that begins with one is
found at character boundaries only. -/

namespace CosmeticLint

open String (utf8EncodeChar)

/-- The UTF-8 form of a text. -/
def bytes (text : List Char) : List UInt8 := text.flatMap utf8EncodeChar

/-- The small letter for a capital of ASCII; any other byte stays as it is. -/
def lowerByte (b : UInt8) : UInt8 := if 65 ≤ b.toNat ∧ b.toNat ≤ 90 then b + 32 else b

/-- Equality up to the case of ASCII letters, byte by byte. -/
def sameBytes (a b : List UInt8) : Bool := a.map lowerByte == b.map lowerByte

/-- The first offset at which the bytes of `word` stand in those of `text`, up to case. -/
def findIgnoringCase (word text : List Char) : Option Nat :=
  let w := bytes word
  let t := bytes text
  if t.length < w.length then none
  else (List.range (t.length - w.length + 1)).find? fun i => sameBytes ((t.drop i).take w.length) w

/-! ### The bytes of a character -/

theorem utf8EncodeChar_of_lt {c : Char} (hc : c.toNat < 128) :
    utf8EncodeChar c = [UInt8.ofNat c.toNat] := by
  have hval : c.val.toNat ≤ 127 := Nat.le_of_lt_succ hc
  rw [utf8EncodeChar]
  exact if_pos hval

/-- All bytes of a character beyond ASCII are beyond ASCII. -/
theorem le_of_mem_utf8EncodeChar {c : Char} (hc : 128 ≤ c.toNat) :
    ∀ b ∈ utf8EncodeChar c, 128 ≤ b.toNat := by
  have hval : ¬ c.val.toNat ≤ 127 := Nat.not_le.2 hc
  have hlead : ∀ n m, 128 ≤ m → n + m < 256 → 128 ≤ (UInt8.ofNat (n + m)).toNat := by
    intro n m hm hlt
    rw [UInt8.toNat_ofNat', Nat.mod_eq_of_lt hlt]
    omega
  intro b hb
  simp only [utf8EncodeChar, hval, if_false] at hb
  split at hb
  · simp only [List.mem_cons, List.not_mem_nil, or_false] at hb
    rcases hb with rfl | rfl <;> exact hlead _ _ (by omega) (by omega)
  · split at hb
    · simp only [List.mem_cons, List.not_mem_nil, or_false] at hb
      rcases hb with rfl | rfl | rfl <;> exact hlead _ _ (by omega) (by omega)
    · simp only [List.mem_cons, List.not_mem_nil, or_false] at hb
      rcases hb with rfl | rfl | rfl | rfl <;> exact hlead _ _ (by omega) (by omega)

theorem lowerByte_lt_iff {b : UInt8} : (lowerByte b).toNat < 128 ↔ b.toNat < 128 := by
  unfold lowerByte
  split
  · have hval : (b + 32).toNat = b.toNat + 32 := by
      have h32 : (32 : UInt8).toNat = 32 := rfl
      rw [UInt8.toNat_add, h32, Nat.mod_eq_of_lt (by omega)]
    omega
  · rfl

theorem map_lowerByte_utf8EncodeChar (c : Char) :
    (utf8EncodeChar c).map lowerByte = utf8EncodeChar c.toLower := by
  by_cases hc : c.toNat < 128
  · have hall : ∀ n < 128, (utf8EncodeChar (Char.ofNat n)).map lowerByte =
        utf8EncodeChar (Char.ofNat n).toLower := by decide
    rw [← Char.ofNat_toNat c]
    exact hall c.toNat hc
  · have hletter : c.isAlpha = false := by
      rw [Bool.eq_false_iff]
      intro h
      have := toNat_of_isAlpha h
      omega
    rw [toLower_eq_self hletter]
    refine (List.map_congr_left fun b hb => ?_).trans (List.map_id _)
    have hbig := le_of_mem_utf8EncodeChar (Nat.not_lt.1 hc) b hb
    rw [lowerByte, if_neg (by omega)]
    rfl

/-- The bytes of a text tell where its first character ends and which one it is. -/
theorem utf8EncodeChar_append_inj {c d : Char} {a b : List UInt8}
    (h : utf8EncodeChar c ++ a = utf8EncodeChar d ++ b) : c = d := by
  have hdecode : ∀ (x : Char) (t : List UInt8),
      (utf8EncodeChar x ++ t).toByteArray.utf8DecodeChar? 0 = some x := by
    intro x t
    rw [List.toByteArray_append]
    exact ByteArray.utf8DecodeChar?_utf8EncodeChar_append
  have := hdecode c a
  rw [h, hdecode d b] at this
  exact (Option.some.inj this).symm

/-! ### The bytes of a text -/

@[simp] theorem bytes_cons (c : Char) (text : List Char) :
    bytes (c :: text) = utf8EncodeChar c ++ bytes text := rfl

@[simp] theorem bytes_append (a b : List Char) : bytes (a ++ b) = bytes a ++ bytes b :=
  List.flatMap_append

@[simp] theorem length_bytes (text : List Char) : (bytes text).length = byteLength text := by
  induction text with
  | nil => rfl
  | cons c text ih => rw [bytes_cons, List.length_append, String.length_utf8EncodeChar, ih,
      byteLength_cons]

theorem map_lowerByte_bytes (text : List Char) :
    (bytes text).map lowerByte = bytes (text.map Char.toLower) := by
  induction text with
  | nil => rfl
  | cons c text ih =>
    rw [bytes_cons, List.map_append, map_lowerByte_utf8EncodeChar, ih, List.map_cons, bytes_cons]

/-- A text whose bytes stand at the head of those of another stands at its head. -/
theorem prefix_of_bytes_prefix {a b : List Char} (h : bytes a <+: bytes b) : a <+: b := by
  induction a generalizing b with
  | nil => exact List.nil_prefix
  | cons c a ih =>
    obtain ⟨t, ht⟩ := h
    rw [bytes_cons, List.append_assoc] at ht
    cases b with
    | nil =>
      have hlen := congrArg List.length ht
      have := c.utf8Size_pos
      rw [List.length_append, String.length_utf8EncodeChar] at hlen
      simp [bytes] at hlen
      omega
    | cons d b =>
      rw [bytes_cons] at ht
      obtain rfl := utf8EncodeChar_append_inj ht
      rw [List.append_cancel_left_eq] at ht
      exact List.cons_prefix_cons.2 ⟨rfl, ih ⟨t, ht⟩⟩

/-- A byte of ASCII begins a character. -/
theorem boundary_of_byte {text : List Char} {i : Nat} {b : UInt8} (h : (bytes text)[i]? = some b)
    (hb : b.toNat < 128) : ∃ before after, text = before ++ after ∧ byteLength before = i := by
  induction text generalizing i with
  | nil => simp [bytes] at h
  | cons c text ih =>
    rw [bytes_cons, List.getElem?_append] at h
    split at h
    · rename_i hi
      rw [String.length_utf8EncodeChar] at hi
      -- No byte of a longer character is one of ASCII.
      have hascii : c.toNat < 128 := by
        by_contra hc
        have := le_of_mem_utf8EncodeChar (Nat.not_lt.1 hc) b (List.mem_of_getElem? h)
        omega
      have hsize : c.utf8Size = 1 := by
        rw [← String.length_utf8EncodeChar, utf8EncodeChar_of_lt hascii]
        rfl
      exact ⟨[], c :: text, rfl, by rw [byteLength_nil]; omega⟩
    · rename_i hi
      rw [String.length_utf8EncodeChar] at h hi
      obtain ⟨before, after, rfl, hbefore⟩ := ih h
      exact ⟨c :: before, after, rfl, by rw [byteLength_cons, hbefore]; omega⟩

theorem toUInt8_inj_of_lt {x y : Char} (hx : x.toNat < 128) (hy : y.toNat < 128) :
    y.toUInt8 = x.toUInt8 ↔ y = x := by
  have hbyte : ∀ z : Char, z.toNat < 128 → z.toUInt8.toNat = z.toNat := by
    intro z hz
    show z.val.toNat % 256 = z.toNat
    exact Nat.mod_eq_of_lt (Nat.lt_trans hz (by decide))
  refine ⟨fun h => Char.toNat_inj.1 ?_, fun h => by rw [h]⟩
  rw [← hbyte x hx, ← hbyte y hy, h]

/-- The last byte of a character is one of ASCII only if the character is that one. -/
theorem getElem?_utf8EncodeChar_iff {x y : Char} (hx : x.toNat < 128) :
    (utf8EncodeChar y)[y.utf8Size - 1]? = some x.toUInt8 ↔ y = x := by
  by_cases hy : y.toNat < 128
  · have hsize : y.utf8Size = 1 := by
      rw [← String.length_utf8EncodeChar, utf8EncodeChar_of_lt hy]
      rfl
    rw [hsize, utf8EncodeChar_of_lt hy, ← toUInt8_inj_of_lt hx hy]
    show some y.toUInt8 = some x.toUInt8 ↔ _
    exact Option.some_inj
  · constructor
    · intro h
      have hbig := le_of_mem_utf8EncodeChar (Nat.not_lt.1 hy) _ (List.mem_of_getElem? h)
      have hval : x.toUInt8.toNat = x.toNat := Nat.mod_eq_of_lt (Nat.lt_trans hx (by decide))
      omega
    · rintro rfl
      exact absurd hx hy

/-- A stretch of a text ends with an ASCII character if the byte in front of its end says so. -/
theorem getLast?_eq_some_iff_byte {x : Char} (hx : x.toNat < 128) (before w after : List Char) :
    w.getLast? = some x ↔ w ≠ [] ∧
      (bytes (before ++ (w ++ after)))[byteLength before + byteLength w - 1]? = some x.toUInt8 := by
  rcases List.eq_nil_or_concat w with rfl | ⟨init, y, rfl⟩
  · simp
  · have hpos := y.utf8Size_pos
    have hindex : byteLength before + byteLength (init.concat y) - 1 =
        (bytes (before ++ init)).length + (y.utf8Size - 1) := by
      simp only [List.concat_eq_append, byteLength_append, byteLength_cons, byteLength_nil,
        length_bytes]
      omega
    have hbytes : bytes (before ++ (init.concat y ++ after)) =
        bytes (before ++ init) ++ (utf8EncodeChar y ++ bytes after) := by
      simp only [List.concat_eq_append, bytes_append, bytes_cons, List.append_assoc]
      rfl
    rw [hbytes, hindex, List.getElem?_append_right (Nat.le_add_right _ _), Nat.add_sub_cancel_left,
      List.getElem?_append_left (by rw [String.length_utf8EncodeChar]; omega),
      getElem?_utf8EncodeChar_iff hx]
    simp

/-! ### The search -/

section FindIgnoringCase

variable {word text before after : List Char}

/-- At a character boundary, bytes are compared as characters are. -/
theorem sameBytes_drop_iff (h : text = before ++ after) :
    sameBytes (((bytes text).drop (byteLength before)).take (bytes word).length) (bytes word) =
      true ↔ beginsIgnoringCase word after = true := by
  have hdrop : (bytes text).drop (byteLength before) = bytes after := by
    rw [h, bytes_append, ← length_bytes before, List.drop_left]
  rw [hdrop, sameBytes, beq_iff_eq, List.map_take, map_lowerByte_bytes, map_lowerByte_bytes,
    beginsIgnoringCase_iff]
  constructor
  · intro htake
    have hprefix : bytes (word.map Char.toLower) <+: bytes (after.map Char.toLower) :=
      htake ▸ List.take_prefix _ _
    obtain ⟨t, ht⟩ := prefix_of_bytes_prefix hprefix
    obtain ⟨w, rest, rfl, hw, -⟩ := List.map_eq_append_iff.1 ht.symm
    exact ⟨w, rest, rfl, sameIgnoringCase_iff.2 hw⟩
  · rintro ⟨w, rest, rfl, hsame⟩
    have hlen : (bytes word).length = (bytes (word.map Char.toLower)).length := by simp
    rw [List.map_append, sameIgnoringCase_iff.1 hsame, bytes_append, hlen, List.take_left]

/-- A word that begins with an ASCII character is found at boundaries only. -/
theorem boundary_of_sameBytes {x : Char} (hx : x.toNat < 128) {i : Nat}
    (h : sameBytes (((bytes text).drop i).take (bytes (x :: word)).length) (bytes (x :: word)) =
      true) : ∃ before after, text = before ++ after ∧ byteLength before = i := by
  have hfirst : (UInt8.ofNat x.toNat).toNat < 128 := by
    rw [UInt8.toNat_ofNat', Nat.mod_eq_of_lt] <;> omega
  rw [sameBytes, beq_iff_eq, bytes_cons, utf8EncodeChar_of_lt hx, List.singleton_append] at h
  cases hdrop : (bytes text).drop i with
  | nil =>
    rw [hdrop] at h
    cases h
  | cons b rest =>
    rw [hdrop, List.length_cons, List.take_succ_cons, List.map_cons, List.map_cons] at h
    have hb : (lowerByte b).toNat < 128 := by
      rw [(List.cons.inj h).1]
      exact lowerByte_lt_iff.2 hfirst
    refine boundary_of_byte ?_ (lowerByte_lt_iff.1 hb)
    rw [← List.head?_drop, hdrop]
    rfl

/-- The search by bytes finds the place that the search by characters finds. -/
theorem findIgnoringCase_eq {x : Char} (hx : x.toNat < 128) (word text : List Char) :
    findIgnoringCase (x :: word) text =
      (searchFor (beginsIgnoringCase (x :: word)) text).map fun n => byteLength (text.take n) := by
  unfold findIgnoringCase
  dsimp only
  cases hsearch : searchFor (beginsIgnoringCase (x :: word)) text with
  | none =>
    rw [Option.map_none]
    split
    · rfl
    · rw [List.find?_range_eq_none]
      intro i _
      rw [Bool.not_eq_true', Bool.eq_false_iff]
      intro hsame
      obtain ⟨before, after, htext, rfl⟩ := boundary_of_sameBytes hx hsame
      rw [sameBytes_drop_iff htext, eq_false_of_searchFor_eq_none hsearch htext] at hsame
      cases hsame
  | some n =>
    obtain ⟨w, rest, rfl, rfl, hbegins, hfirst⟩ := exists_isFirst hsearch
    -- The word has room behind `w`.
    have hroom : byteLength w + byteLength (x :: word) ≤ byteLength (w ++ rest) := by
      obtain ⟨v, after, rfl, hsame⟩ := beginsIgnoringCase_iff.1 hbegins
      have hlen := congrArg byteLength (sameIgnoringCase_iff.1 hsame)
      rw [byteLength_map_toLower, byteLength_map_toLower] at hlen
      rw [byteLength_append, byteLength_append, hlen]
      omega
    rw [Option.map_some, List.take_left, if_neg (by rw [length_bytes, length_bytes]; omega),
      List.find?_range_eq_some]
    refine ⟨(sameBytes_drop_iff rfl).2 hbegins, ?_, fun i hi => ?_⟩
    · rw [List.mem_range, length_bytes, length_bytes]
      omega
    · rw [Bool.not_eq_true', Bool.eq_false_iff]
      intro hsame
      obtain ⟨before, after, htext, rfl⟩ := boundary_of_sameBytes hx hsame
      rw [sameBytes_drop_iff htext] at hsame
      -- A place before the end of `w` splits `w`.
      rcases List.append_eq_append_iff.1 htext with ⟨middle, rfl, -⟩ | ⟨middle, rfl, rfl⟩
      · rw [byteLength_append] at hi
        omega
      · have hne : middle ≠ [] := by
          rintro rfl
          rw [List.append_nil] at hi
          omega
        rw [hfirst before middle rfl hne] at hsame
        cases hsame

example : findIgnoringCase "</éa".toList "é</Éa</éA".toList = some 7 := by decide

end FindIgnoringCase

end CosmeticLint
