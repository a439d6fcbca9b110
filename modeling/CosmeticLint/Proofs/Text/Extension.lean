import CosmeticLint.Proofs.Text.Place
import Mathlib.Data.List.Basic

/-! A text with more text behind it. What a search finds in the text it finds in the longer text
at the same place, as long as it does not look past the end to decide. -/

namespace CosmeticLint

/-! ### Runs and words -/

section Words

variable {word text : List Char}

/-- A run that something ends is the same run in the longer text. -/
theorem takeWhile_append_of_ne_nil {p : Char → Bool} (h : text.dropWhile p ≠ [])
    (more : List Char) : (text ++ more).takeWhile p = text.takeWhile p := by
  have hsplit : text ++ more = text.takeWhile p ++ (text.dropWhile p ++ more) := by
    rw [← List.append_assoc, List.takeWhile_append_dropWhile]
  rw [hsplit]
  refine takeWhile_append_stop (fun x hx => List.mem_takeWhile_imp hx) fun x hx => ?_
  rw [List.head?_append_of_ne_nil _ h] at hx
  exact head?_dropWhile_eq_false hx

theorem dropWhile_ne_nil_of_mem {p : Char → Bool} {x : Char} (hx : x ∈ text) (hp : p x = false) :
    text.dropWhile p ≠ [] := by
  intro h
  have hall := List.dropWhile_eq_nil_iff.1 h x hx
  rw [hp] at hall
  cases hall

/-- Whether a text begins with a word is told by as many characters as the word has. -/
theorem isPrefixOf_append_of_le (h : word.length ≤ text.length) (more : List Char) :
    word.isPrefixOf (text ++ more) = word.isPrefixOf text := by
  rw [Bool.eq_iff_iff, List.isPrefixOf_iff_prefix, List.isPrefixOf_iff_prefix]
  exact ⟨fun hw => List.prefix_of_prefix_length_le hw (List.prefix_append text more) h,
    fun hw => hw.trans (List.prefix_append text more)⟩

/-- A character that the word does not have tells as much. -/
theorem isPrefixOf_append_of_mem {x : Char} (hword : x ∉ word) (hx : x ∈ text) (more : List Char) :
    word.isPrefixOf (text ++ more) = word.isPrefixOf text := by
  rcases Nat.le_total word.length text.length with hle | hle
  · exact isPrefixOf_append_of_le hle more
  · rw [Bool.eq_iff_iff, List.isPrefixOf_iff_prefix, List.isPrefixOf_iff_prefix]
    refine ⟨fun hw => ?_, fun hw => hw.trans (List.prefix_append text more)⟩
    have htext := List.prefix_of_prefix_length_le (List.prefix_append text more) hw hle
    exact absurd (htext.subset hx) hword

theorem length_le_of_beginsIgnoringCase (h : beginsIgnoringCase word text = true) :
    word.length ≤ text.length := by
  obtain ⟨w, rest, rfl, hsame⟩ := beginsIgnoringCase_iff.1 h
  have hlength := congrArg List.length (sameIgnoringCase_iff.1 hsame)
  simp only [List.length_map, List.length_append] at hlength ⊢
  omega

theorem beginsIgnoringCase_append (h : word.length ≤ text.length) (more : List Char) :
    beginsIgnoringCase word (text ++ more) = beginsIgnoringCase word text := by
  induction word generalizing text with
  | nil => rw [beginsIgnoringCase, beginsIgnoringCase]
  | cons a word ih =>
    cases text with
    | nil => simp at h
    | cons b text =>
      rw [List.cons_append, beginsIgnoringCase, beginsIgnoringCase, ih (by simpa using h)]

end Words

/-! ### First places -/

section FirstPlace

variable {p : List Char → Bool} {text more : List Char} {n k : Nat}

theorem add_le_of_searchFor (hlong : ∀ t, p t = true → n ≤ t.length)
    (h : searchFor p text = some k) : k + n ≤ text.length := by
  obtain ⟨w, rest, rfl, rfl, hholds, -⟩ := exists_isFirst h
  have hrest := hlong rest hholds
  rw [List.length_append]
  omega

/-- A place that is told by its next `n` characters is the first of its kind in the longer text
too. -/
theorem searchFor_append (hlong : ∀ t, p t = true → n ≤ t.length)
    (hp : ∀ t, n ≤ t.length → p (t ++ more) = p t) (h : searchFor p text = some k) :
    searchFor p (text ++ more) = some k := by
  obtain ⟨w, rest, rfl, rfl, hholds, hfirst⟩ := exists_isFirst h
  -- places before the first hit have even more text ahead of them
  have hrest := hlong rest hholds
  have hlonger : IsFirst p w (rest ++ more) := by
    refine ⟨(hp rest hrest).trans hholds, fun a b hab hb => ?_⟩
    rw [← List.append_assoc, hp (b ++ rest) (by rw [List.length_append]; omega)]
    exact hfirst a b hab hb
  rw [List.append_assoc]
  exact hlonger.searchFor_eq

end FirstPlace

/-! ### Places -/

namespace Cursor

/-- The place in the text with more text behind it. -/
def extend (c : Cursor) (more : List Char) : Cursor := ⟨c.offset, c.rest ++ more⟩

/-- Where the text ends and more text begins. -/
def endOf (c : Cursor) (more : List Char) : Cursor := ⟨c.offset + byteLength c.rest, more⟩

variable {c d : Cursor} {w text : List Char} {x : Char} {n : Nat} (more : List Char)

@[simp] theorem rest_extend : (c.extend more).rest = c.rest ++ more := rfl

@[simp] theorem spanTo_extend : (c.extend more).spanTo (d.extend more) = c.spanTo d := rfl

theorem Reads.extend (h : c.Reads w d) : (c.extend more).Reads w (d.extend more) := by
  refine ⟨?_, h.2⟩
  rw [rest_extend, rest_extend, h.1, List.append_assoc]

theorem Reads.endOf_eq (h : c.Reads w d) : d.endOf more = c.endOf more := by
  rw [endOf, endOf, h.1, h.2, byteLength_append, Nat.add_assoc]

theorem reads_endOf : (c.extend more).Reads c.rest (c.endOf more) := ⟨rfl, rfl⟩

theorem skip_extend (h : n ≤ c.rest.length) : (c.extend more).skip n = (c.skip n).extend more := by
  simp only [skip, extend, List.take_append_of_le_length h, List.drop_append_of_le_length h]

theorem peek_extend (h : n ≤ c.rest.length) : (c.extend more).peek n = c.peek n := by
  rw [peek, peek, rest_extend, List.take_append_of_le_length h]

theorem skipWhile_extend {p : Char → Bool} (h : (c.skipWhile p).rest ≠ []) :
    (c.extend more).skipWhile p = (c.skipWhile p).extend more := by
  rw [rest_skipWhile] at h
  rw [skipWhile, skipWhile, rest_extend, takeWhile_append_of_ne_nil h,
    skip_extend more (List.takeWhile_prefix p).length_le]

theorem skipPast_extend (h : x ∈ c.rest) :
    (c.extend more).skipPast x = (c.skipPast x).extend more := by
  obtain ⟨u, rest, hrest, hu⟩ := List.eq_append_cons_of_mem h
  have hrun : c.rest.dropWhile (· ≠ x) ≠ [] := dropWhile_ne_nil_of_mem h (by simp)
  rw [skipPast, skipPast, rest_extend, takeWhile_append_of_ne_nil hrun, skip_extend]
  rw [hrest, takeWhile_ne_append hu, List.length_append, List.length_cons]
  omega

/-- Whatever is ahead ends as the text ends. -/
theorem LiesIn.mem_rest (hc : c.LiesIn text) (hlast : text.getLast? = some x) (h : c.rest ≠ []) :
    x ∈ c.rest := by
  obtain ⟨before, hr, -⟩ := hc
  rw [show text = before ++ c.rest from hr, List.getLast?_append_of_ne_nil _ h] at hlast
  exact List.mem_of_getLast? hlast

end Cursor

end CosmeticLint
