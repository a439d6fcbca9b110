import CosmeticLint.Text.Cursor
import Mathlib.Data.List.TakeWhile

/-! Searching a text: the longest run of characters of some kind, the first place of some
kind, and words compared without regard to the case of ASCII letters. -/

namespace CosmeticLint

/-! ### Runs -/

section Runs

variable {p : Char → Bool} {x : Char} {w rest : List Char}

theorem takeWhile_append_stop (hw : ∀ c ∈ w, p c = true)
    (hrest : ∀ c, rest.head? = some c → p c = false) : (w ++ rest).takeWhile p = w := by
  rw [List.takeWhile_append_of_pos hw]
  cases rest with
  | nil => simp
  | cons c cs => simp [hrest c rfl]

/-- What follows the longest run does not continue it. -/
theorem head?_dropWhile_eq_false {text : List Char} {c : Char}
    (h : (text.dropWhile p).head? = some c) : p c = false := by
  have hn := List.head?_dropWhile_not p text
  rw [h] at hn
  simpa using hn

theorem ne_of_notMem (hw : x ∉ w) : ∀ c ∈ w, decide (c ≠ x) = true := by
  intro c hc
  have hne : c ≠ x := by
    rintro rfl
    exact hw hc
  simpa using hne

theorem takeWhile_ne_append (hw : x ∉ w) : (w ++ x :: rest).takeWhile (· ≠ x) = w := by
  apply takeWhile_append_stop (ne_of_notMem hw)
  intro c hc
  cases hc
  simp

theorem takeWhile_ne_eq_self (hw : x ∉ w) : w.takeWhile (· ≠ x) = w :=
  List.takeWhile_eq_self_iff.2 (ne_of_notMem hw)

end Runs

/-! ### First places -/

section FirstPlace

variable {p : List Char → Bool} {w rest : List Char}

/-- Behind `w` stands the first place of `w ++ rest` whose remaining text satisfies `p`. -/
structure IsFirst (p : List Char → Bool) (w rest : List Char) : Prop where
  holds : p rest = true
  first : ∀ a b, w = a ++ b → b ≠ [] → p (b ++ rest) = false

theorem isFirst_nil (h : p rest = true) : IsFirst p [] rest := by
  refine ⟨h, fun a b hab hb => ?_⟩
  exact absurd (List.append_eq_nil_iff.1 hab.symm).2 hb

theorem isFirst_cons_iff {c : Char} :
    IsFirst p (c :: w) rest ↔ p (c :: (w ++ rest)) = false ∧ IsFirst p w rest := by
  constructor
  · rintro ⟨hp, hfirst⟩
    refine ⟨hfirst [] (c :: w) rfl (by simp), hp, fun a b hab => ?_⟩
    exact hfirst (c :: a) b (by rw [hab]; rfl)
  · rintro ⟨hc, hp, hfirst⟩
    refine ⟨hp, fun a b hab hb => ?_⟩
    cases a with
    | nil =>
      rw [List.nil_append] at hab
      rw [← hab]
      exact hc
    | cons x a =>
      cases hab
      exact hfirst a b rfl hb

theorem exists_isFirst {text : List Char} {n : Nat} (h : searchFor p text = some n) :
    ∃ w rest, text = w ++ rest ∧ w.length = n ∧ IsFirst p w rest := by
  induction text generalizing n with
  | nil =>
    rw [searchFor] at h
    split at h
    · rename_i hp
      cases h
      exact ⟨[], [], rfl, rfl, isFirst_nil hp⟩
    · cases h
  | cons c cs ih =>
    rw [searchFor] at h
    split at h
    · rename_i hp
      cases h
      exact ⟨[], c :: cs, rfl, rfl, isFirst_nil hp⟩
    · rename_i hp
      obtain ⟨m, hm, rfl⟩ := Option.map_eq_some_iff.1 h
      obtain ⟨w, rest, rfl, rfl, hfirst⟩ := ih hm
      exact ⟨c :: w, rest, rfl, rfl, isFirst_cons_iff.2 ⟨by simpa using hp, hfirst⟩⟩

theorem IsFirst.searchFor_eq (h : IsFirst p w rest) : searchFor p (w ++ rest) = some w.length := by
  induction w with
  | nil =>
    have hp := h.holds
    cases rest with
    | nil => simp [searchFor, hp]
    | cons c cs => simp [searchFor, hp]
  | cons c w ih =>
    obtain ⟨hc, hw⟩ := isFirst_cons_iff.1 h
    simp [searchFor, hc, ih hw]

/-- A search that finds nothing has looked at every place. -/
theorem eq_false_of_searchFor_eq_none {text : List Char} (h : searchFor p text = none)
    {a b : List Char} (hab : text = a ++ b) : p b = false := by
  induction text generalizing a with
  | nil =>
    obtain ⟨rfl, rfl⟩ := List.append_eq_nil_iff.1 hab.symm
    rw [searchFor] at h
    simpa using h
  | cons c cs ih =>
    rw [searchFor] at h
    split at h
    · cases h
    · rename_i hp
      cases a with
      | nil =>
        rw [List.nil_append] at hab
        rw [← hab]
        simpa using hp
      | cons x a =>
        cases hab
        exact ih (by simpa using h) rfl

end FirstPlace

/-! ### Words up to case -/

theorem sameIgnoringCase_iff {a b : List Char} :
    sameIgnoringCase a b = true ↔ a.map Char.toLower = b.map Char.toLower := by
  simp [sameIgnoringCase]

theorem sameIgnoringCase_refl (a : List Char) : sameIgnoringCase a a = true :=
  sameIgnoringCase_iff.2 rfl

theorem sameIgnoringCase_comm (a b : List Char) : sameIgnoringCase a b = sameIgnoringCase b a := by
  rw [Bool.eq_iff_iff, sameIgnoringCase_iff, sameIgnoringCase_iff]
  exact eq_comm

/-- Only letters change their case. -/
theorem eq_of_toLower_eq {c d : Char} (hd : d.isAlpha = false) (h : c.toLower = d) : c = d := by
  unfold Char.toLower at h
  split at h
  · rename_i hc
    -- A capital that is moved lands among the small letters, where `d` is not.
    have hlower : d.isLower = true := by
      subst h
      have hval : (c.val + ('a'.val - 'A'.val)).toNat = c.val.toNat + 32 := by
        have hhi : c.val.toNat ≤ 90 := UInt32.le_iff_toNat_le.1 hc.2
        have hgap : ('a'.val - 'A'.val).toNat = 32 := rfl
        rw [UInt32.toNat_add, hgap, Nat.mod_eq_of_lt]
        omega
      have hlo : 'a'.val.toNat ≤ (c.val + ('a'.val - 'A'.val)).toNat :=
        hval ▸ Nat.add_le_add_right (UInt32.le_iff_toNat_le.1 hc.1) 32
      have hhi : (c.val + ('a'.val - 'A'.val)).toNat ≤ 'z'.val.toNat :=
        hval ▸ Nat.add_le_add_right (UInt32.le_iff_toNat_le.1 hc.2) 32
      exact Bool.and_eq_true_iff.2 ⟨decide_eq_true (UInt32.le_iff_toNat_le.2 hlo),
        decide_eq_true (UInt32.le_iff_toNat_le.2 hhi)⟩
    have hletter : (d.isUpper || d.isLower) = false := hd
    rw [hlower, Bool.or_true] at hletter
    contradiction
  · exact h

theorem toLower_eq_self {c : Char} (hc : c.isAlpha = false) : c.toLower = c := by
  unfold Char.toLower
  split
  · rename_i hu
    have hup : c.isUpper = true := decide_eq_true hu
    have hletter : (c.isUpper || c.isLower) = false := hc
    rw [hup] at hletter
    cases hletter
  · rfl

theorem notMem_of_sameIgnoringCase {x : Char} {a b : List Char} (hx : x.isAlpha = false)
    (h : sameIgnoringCase a b = true) (hb : x ∉ b) : x ∉ a := by
  intro ha
  have hmem : x.toLower ∈ b.map Char.toLower := by
    rw [← sameIgnoringCase_iff.1 h]
    exact List.mem_map_of_mem ha
  obtain ⟨y, hy, hxy⟩ := List.mem_map.1 hmem
  rw [toLower_eq_self hx] at hxy
  exact hb (eq_of_toLower_eq hx hxy ▸ hy)

/-- A text begins with a word when some spelling of the word stands at its head. -/
theorem beginsIgnoringCase_iff {word text : List Char} :
    beginsIgnoringCase word text = true ↔
      ∃ w rest, text = w ++ rest ∧ sameIgnoringCase w word = true := by
  induction word generalizing text with
  | nil =>
    refine ⟨fun _ => ⟨[], text, rfl, rfl⟩, fun _ => ?_⟩
    rw [beginsIgnoringCase]
  | cons a word ih =>
    cases text with
    | nil =>
      rw [beginsIgnoringCase]
      constructor
      · intro h
        cases h
      · rintro ⟨w, rest, hw, hs⟩
        obtain ⟨rfl, rfl⟩ := List.append_eq_nil_iff.1 hw.symm
        simp [sameIgnoringCase] at hs
    | cons b text =>
      rw [beginsIgnoringCase, Bool.and_eq_true, beq_iff_eq, ih]
      constructor
      · rintro ⟨hab, w, rest, rfl, hs⟩
        refine ⟨b :: w, rest, rfl, ?_⟩
        rw [sameIgnoringCase_iff] at hs ⊢
        rw [List.map_cons, List.map_cons, hab, hs]
      · rintro ⟨w, rest, hw, hs⟩
        rw [sameIgnoringCase_iff] at hs
        cases w with
        | nil => simp at hs
        | cons x w =>
          cases hw
          rw [List.map_cons, List.map_cons, List.cons.injEq] at hs
          exact ⟨hs.1.symm, w, rest, rfl, sameIgnoringCase_iff.2 hs.2⟩

/-- Where no place begins with the word, no part of the text is a spelling of it. -/
theorem not_infix_of_begins_eq_false {word text : List Char} (hword : word ≠ [])
    (h : ∀ a b, text = a ++ b → b ≠ [] → beginsIgnoringCase word b = false) :
    ¬ word.map Char.toLower <:+: text.map Char.toLower := by
  rintro ⟨a, t, ht⟩
  -- The letters of the occurrence are those of a stretch of the text.
  obtain ⟨b, after, rfl, hb, -⟩ := List.map_eq_append_iff.1 ht.symm
  obtain ⟨before, w, rfl, -, hw⟩ := List.map_eq_append_iff.1 hb
  have hne : w ++ after ≠ [] := by
    intro hnil
    obtain ⟨rfl, -⟩ := List.append_eq_nil_iff.1 hnil
    exact hword (List.map_eq_nil_iff.1 hw.symm)
  have hbegins : beginsIgnoringCase word (w ++ after) = true :=
    beginsIgnoringCase_iff.2 ⟨w, after, rfl, sameIgnoringCase_iff.2 hw⟩
  rw [h before (w ++ after) (List.append_assoc ..) hne] at hbegins
  cases hbegins

end CosmeticLint
