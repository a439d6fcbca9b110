import CosmeticLint.Proofs.Text.Place
import CosmeticLint.Text.Blank
import Mathlib

/-! Texts in lower case. Only ASCII letters change, each to another of one byte, so a place keeps
its offset, and what asks for no letter of one case finds the same in a text and in its lower
case. -/

namespace CosmeticLint

/-! ### Characters -/

theorem toLower_eq_iff {x y : Char} (hy : y.isAlpha = false) : x.toLower = y ↔ x = y := by
  constructor
  · exact eq_of_toLower_eq hy
  · rintro rfl
    exact toLower_eq_self hy

theorem toLower_beq {x y : Char} (hy : y.isAlpha = false) : (x.toLower == y) = (x == y) := by
  rw [Bool.eq_iff_iff, beq_iff_eq, beq_iff_eq, toLower_eq_iff hy]

theorem toNat_of_isAlpha {x : Char} (hx : x.isAlpha = true) : 65 ≤ x.toNat ∧ x.toNat ≤ 122 := by
  simp only [Char.isAlpha, Char.isUpper, Char.isLower, Bool.or_eq_true, Bool.and_eq_true,
    decide_eq_true_eq, ge_iff_le, UInt32.le_iff_toNat_le] at hx
  have hval : x.toNat = x.val.toNat := rfl
  have hA : 'A'.val.toNat = 65 := rfl
  have hZ : 'Z'.val.toNat = 90 := rfl
  have ha : 'a'.val.toNat = 97 := rfl
  have hz : 'z'.val.toNat = 122 := rfl
  omega

theorem toNat_toLower (x : Char) :
    x.toLower.toNat = if 65 ≤ x.toNat ∧ x.toNat ≤ 90 then x.toNat + 32 else x.toNat := by
  have hval : x.toNat = x.val.toNat := rfl
  unfold Char.toLower
  split
  · rename_i h
    have hlo : 65 ≤ x.toNat := UInt32.le_iff_toNat_le.1 h.1
    have hhi : x.toNat ≤ 90 := UInt32.le_iff_toNat_le.1 h.2
    have hgap : ('a'.val - 'A'.val).toNat = 32 := rfl
    rw [if_pos ⟨hlo, hhi⟩, hval]
    show (x.val + ('a'.val - 'A'.val)).toNat = x.val.toNat + 32
    rw [UInt32.toNat_add, hgap, Nat.mod_eq_of_lt (by omega)]
  · rename_i h
    rw [if_neg]
    rintro ⟨hlo, hhi⟩
    exact h ⟨UInt32.le_iff_toNat_le.2 hlo, UInt32.le_iff_toNat_le.2 hhi⟩

theorem utf8Size_of_isAlpha {x : Char} (hx : x.isAlpha = true) : x.utf8Size = 1 := by
  have hval : x.toNat = x.val.toNat := rfl
  have hbounds := toNat_of_isAlpha hx
  rw [Char.utf8Size_eq_one_iff, UInt32.le_iff_toNat_le]
  have hlast : (127 : UInt32).toNat = 127 := rfl
  omega

@[simp] theorem utf8Size_toLower (x : Char) : x.toLower.utf8Size = x.utf8Size := by
  by_cases hx : x.isAlpha = true
  · rw [utf8Size_of_isAlpha hx, utf8Size_of_isAlpha (by simpa using hx)]
  · rw [toLower_eq_self (by simpa using hx)]

/-- Whether a character is of the kind does not depend on the case of a letter. -/
def CaseBlind (p : Char → Bool) : Prop := ∀ x, p x.toLower = p x

theorem caseBlind_isAlpha : CaseBlind Char.isAlpha := Char.isAlpha_toLower_eq_isAlpha

theorem caseBlind_beq {y : Char} (hy : y.isAlpha = false) : CaseBlind (· == y) :=
  fun _ => toLower_beq hy

theorem caseBlind_ne {y : Char} (hy : y.isAlpha = false) : CaseBlind (· ≠ y) := by
  intro x
  simp only [ne_eq, toLower_eq_iff hy]

/-- No letter is blank. -/
theorem caseBlind_isWhiteSpace : CaseBlind isWhiteSpace := by
  intro x
  by_cases hx : x.isAlpha = true
  · have hnone : ∀ y : Char, y.isAlpha = true → isWhiteSpace y = false := by
      intro y hy
      have hbounds := toNat_of_isAlpha hy
      simp only [isWhiteSpace, Bool.or_eq_false_iff, Bool.and_eq_false_iff, beq_eq_false_iff_ne,
        decide_eq_false_iff_not]
      omega
    rw [hnone x hx, hnone x.toLower (by simpa using hx)]
  · rw [toLower_eq_self (by simpa using hx)]

/-! ### Texts -/

section Texts

variable {p : Char → Bool} {x : Char} {text word : List Char}

@[simp] theorem byteLength_map_toLower (text : List Char) :
    byteLength (text.map Char.toLower) = byteLength text := by
  induction text with
  | nil => rfl
  | cons x text ih => simp [ih]

theorem CaseBlind.takeWhile_map (hp : CaseBlind p) (text : List Char) :
    (text.map Char.toLower).takeWhile p = (text.takeWhile p).map Char.toLower := by
  rw [List.takeWhile_map]
  exact congrArg (fun q => (text.takeWhile q).map Char.toLower) (funext hp)

theorem CaseBlind.dropWhile_map (hp : CaseBlind p) (text : List Char) :
    (text.map Char.toLower).dropWhile p = (text.dropWhile p).map Char.toLower := by
  rw [List.dropWhile_map]
  exact congrArg (fun q => (text.dropWhile q).map Char.toLower) (funext hp)

theorem CaseBlind.trimEnd_map (hp : CaseBlind p) (text : List Char) :
    trimEnd p (text.map Char.toLower) = (trimEnd p text).map Char.toLower := by
  rw [trimEnd, trimEnd, ← List.map_reverse, hp.dropWhile_map, List.map_reverse]

theorem trimBlanks_map (text : List Char) :
    trimBlanks (text.map Char.toLower) = (trimBlanks text).map Char.toLower := by
  rw [trimBlanks, trimBlanks, caseBlind_isWhiteSpace.dropWhile_map,
    caseBlind_isWhiteSpace.trimEnd_map]

/-- A run of a kind stays one, and so does what stops it. -/
theorem CaseBlind.forall_mem_map (hp : CaseBlind p) (h : ∀ x ∈ text, p x = true) :
    ∀ x ∈ text.map Char.toLower, p x = true := by
  intro x hx
  obtain ⟨y, hy, rfl⟩ := List.mem_map.1 hx
  rw [hp y]
  exact h y hy

/-- A spelling of a word has characters of the same kind. -/
theorem CaseBlind.forall_mem_of_same (hp : CaseBlind p) (hsame : sameIgnoringCase text word = true)
    (h : ∀ x ∈ word, p x = true) : ∀ x ∈ text, p x = true := by
  intro x hx
  rw [← hp x]
  apply hp.forall_mem_map h
  rw [← sameIgnoringCase_iff.1 hsame]
  exact List.mem_map_of_mem hx

theorem CaseBlind.head_map_eq_false (hp : CaseBlind p)
    (h : ∀ x, text.head? = some x → p x = false) :
    ∀ x, (text.map Char.toLower).head? = some x → p x = false := by
  intro x hx
  rw [List.head?_map, Option.map_eq_some_iff] at hx
  obtain ⟨y, hy, rfl⟩ := hx
  rw [hp y]
  exact h y hy

theorem notMem_map_toLower (hx : x.isAlpha = false) (h : x ∉ text) :
    x ∉ text.map Char.toLower := by
  intro hmem
  obtain ⟨y, hy, hxy⟩ := List.mem_map.1 hmem
  exact h (eq_of_toLower_eq hx hxy ▸ hy)

theorem searchFor_map {p q : List Char → Bool} (h : ∀ t, p (t.map Char.toLower) = q t)
    (text : List Char) : searchFor p (text.map Char.toLower) = searchFor q text := by
  induction text with
  | nil =>
    have hnil := h []
    rw [List.map_nil] at hnil ⊢
    rw [searchFor, searchFor, hnil]
  | cons x text ih =>
    have hcons := h (x :: text)
    rw [List.map_cons] at hcons ⊢
    rw [searchFor, searchFor, hcons, ih]

/-- A word without letters is found at the head of both texts or of none. -/
theorem isPrefixOf_map (hword : word.any Char.isAlpha = false) (text : List Char) :
    word.isPrefixOf (text.map Char.toLower) = word.isPrefixOf text := by
  induction word generalizing text with
  | nil => simp
  | cons y word ih =>
    rw [List.any_cons, Bool.or_eq_false_iff] at hword
    cases text with
    | nil => rfl
    | cons x text =>
      rw [List.map_cons, List.isPrefixOf_cons_cons, List.isPrefixOf_cons_cons, ih hword.2]
      congr 1
      rw [Bool.beq_comm, toLower_beq hword.1, Bool.beq_comm]

theorem map_toLower_map_toLower (text : List Char) :
    (text.map Char.toLower).map Char.toLower = text.map Char.toLower := by
  simp

theorem sameIgnoringCase_map (a b : List Char) :
    sameIgnoringCase (a.map Char.toLower) (b.map Char.toLower) = sameIgnoringCase a b := by
  rw [sameIgnoringCase, map_toLower_map_toLower, map_toLower_map_toLower, sameIgnoringCase]

theorem beginsIgnoringCase_map (word text : List Char) :
    beginsIgnoringCase (word.map Char.toLower) (text.map Char.toLower) =
      beginsIgnoringCase word text := by
  induction word generalizing text with
  | nil => rw [List.map_nil, beginsIgnoringCase, beginsIgnoringCase]
  | cons y word ih =>
    cases text with
    | nil => rfl
    | cons x text =>
      rw [List.map_cons, List.map_cons, beginsIgnoringCase, beginsIgnoringCase, ih]
      simp

/-! ### Words at the head of a text -/

theorem length_eq_of_same (h : sameIgnoringCase text word = true) : text.length = word.length := by
  have hmap := congrArg List.length (sameIgnoringCase_iff.1 h)
  simpa only [List.length_map] using hmap

theorem beginsIgnoringCase_congr {other : List Char} (h : sameIgnoringCase word other = true) :
    beginsIgnoringCase word text = beginsIgnoringCase other text := by
  have hsame : ∀ w, sameIgnoringCase w word = sameIgnoringCase w other := by
    intro w
    rw [sameIgnoringCase, sameIgnoringCase, sameIgnoringCase_iff.1 h]
  rw [Bool.eq_iff_iff, beginsIgnoringCase_iff, beginsIgnoringCase_iff]
  simp only [hsame]

theorem beginsIgnoringCase_cons_iff (hx : x.isAlpha = false) :
    beginsIgnoringCase (x :: word) text = true ↔
      ∃ rest, text = x :: rest ∧ beginsIgnoringCase word rest = true := by
  cases text with
  | nil => simp [beginsIgnoringCase]
  | cons y text =>
    rw [beginsIgnoringCase, Bool.and_eq_true, beq_iff_eq, toLower_eq_self hx, eq_comm,
      toLower_eq_iff hx]
    simp

/-- A word of one kind is found at the head of a text within the run of that kind. -/
theorem CaseBlind.beginsIgnoringCase_takeWhile (hp : CaseBlind p) (hword : ∀ x ∈ word, p x = true) :
    beginsIgnoringCase word (text.takeWhile p) = beginsIgnoringCase word text := by
  induction word generalizing text with
  | nil => rw [beginsIgnoringCase, beginsIgnoringCase]
  | cons x word ih =>
    cases text with
    | nil => rfl
    | cons y text =>
      cases hy : p y with
      | true =>
        rw [List.takeWhile_cons_of_pos hy, beginsIgnoringCase, beginsIgnoringCase,
          ih fun z hz => hword z (by simp [hz])]
      | false =>
        have hne : (x.toLower == y.toLower) = false := by
          rw [beq_eq_false_iff_ne]
          intro heq
          have hx := hword x (by simp)
          rw [← hp x, heq, hp y, hy] at hx
          cases hx
        rw [List.takeWhile_cons_of_neg (by simp [hy]), beginsIgnoringCase, beginsIgnoringCase, hne,
          Bool.false_and]

theorem sameIgnoringCase_append_iff {more : List Char} (h : sameIgnoringCase text word = true) :
    sameIgnoringCase (text ++ more) word = true ↔ more = [] := by
  rw [sameIgnoringCase_iff, List.map_append, sameIgnoringCase_iff.1 h]
  simp

end Texts

/-! ### Strings -/

theorem toList_toLower (s : String) : s.toLower.toList = s.toList.map Char.toLower :=
  String.toList_map

theorem ofList_map_toLower (text : List Char) :
    String.ofList (text.map Char.toLower) = (String.ofList text).toLower := by
  rw [← String.toList_inj, toList_toLower, String.toList_ofList, String.toList_ofList]

theorem toLower_append (s t : String) : (s ++ t).toLower = s.toLower ++ t.toLower := by
  rw [← String.toList_inj]
  simp [toList_toLower]

theorem toLower_toLower (s : String) : s.toLower.toLower = s.toLower := by
  rw [← String.toList_inj]
  simp [toList_toLower]

theorem length_toLower (s : String) : s.toLower.length = s.length := by
  rw [← String.length_toList, ← String.length_toList, toList_toLower, List.length_map]

/-! ### Places -/

namespace Cursor

/-- The same place in the text in lower case. -/
def lower (c : Cursor) : Cursor := ⟨c.offset, c.rest.map Char.toLower⟩

@[simp] theorem offset_lower (c : Cursor) : c.lower.offset = c.offset := rfl

@[simp] theorem rest_lower (c : Cursor) : c.lower.rest = c.rest.map Char.toLower := rfl

@[simp] theorem spanTo_lower (c d : Cursor) : c.lower.spanTo d.lower = c.spanTo d := rfl

theorem skip_lower (c : Cursor) (n : Nat) : c.lower.skip n = (c.skip n).lower := by
  simp only [skip, lower, ← List.map_take, ← List.map_drop, byteLength_map_toLower]

theorem peek_lower (c : Cursor) (n : Nat) : c.lower.peek n = (c.peek n).toLower := by
  rw [peek, peek, rest_lower, ← List.map_take, ofList_map_toLower]

theorem skipWhile_lower {p : Char → Bool} (hp : CaseBlind p) (c : Cursor) :
    c.lower.skipWhile p = (c.skipWhile p).lower := by
  rw [skipWhile, skipWhile, rest_lower, hp.takeWhile_map, List.length_map, skip_lower]

theorem skipPast_lower {x : Char} (hx : x.isAlpha = false) (c : Cursor) :
    c.lower.skipPast x = (c.skipPast x).lower := by
  rw [skipPast, skipPast, rest_lower, (caseBlind_ne hx).takeWhile_map, List.length_map, skip_lower]

theorem Reads.lower {c d : Cursor} {w : List Char} (h : c.Reads w d) :
    c.lower.Reads (w.map Char.toLower) d.lower := by
  refine ⟨?_, ?_⟩
  · rw [rest_lower, h.1, List.map_append, rest_lower]
  · rw [offset_lower, h.2, byteLength_map_toLower, offset_lower]

end Cursor

end CosmeticLint
