import CosmeticLint.Proofs.Text.Search
import CosmeticLint.Proofs.Text.Slice

/-! Places of one text. Reading characters from one place leads to a later one, and the
span between the two slices the text to exactly the characters read. Everything that is
said about offsets elsewhere comes down to readings that follow each other. -/

namespace CosmeticLint

namespace Cursor

/-- Reading `w` from `c` leads to `d`. -/
def Reads (c : Cursor) (w : List Char) (d : Cursor) : Prop :=
  c.rest = w ++ d.rest ∧ d.offset = c.offset + byteLength w

namespace Reads

variable {c d e : Cursor} {v w : List Char}

theorem refl (c : Cursor) : c.Reads [] c := ⟨rfl, rfl⟩

theorem trans (h : c.Reads v d) (h' : d.Reads w e) : c.Reads (v ++ w) e := by
  obtain ⟨hr, ho⟩ := h
  obtain ⟨hr', ho'⟩ := h'
  refine ⟨?_, ?_⟩
  · rw [hr, hr', List.append_assoc]
  · rw [ho', ho, byteLength_append, Nat.add_assoc]

/-- A reading passes through every place on its way. -/
theorem split (h : c.Reads (v ++ w) e) : ∃ d, c.Reads v d ∧ d.Reads w e := by
  obtain ⟨hr, ho⟩ := h
  refine ⟨⟨c.offset + byteLength v, w ++ e.rest⟩, ⟨?_, rfl⟩, ⟨rfl, ?_⟩⟩
  · rw [hr, List.append_assoc]
  · rw [ho, byteLength_append, Nat.add_assoc]

theorem offset_le (h : c.Reads w d) : c.offset ≤ d.offset := by
  rw [h.2]
  exact Nat.le_add_right _ _

theorem offset_lt (h : c.Reads w d) (hw : w ≠ []) : c.offset < d.offset := by
  obtain ⟨x, xs, rfl⟩ := List.exists_cons_of_ne_nil hw
  have := x.utf8Size_pos
  rw [h.2, byteLength_cons]
  omega

/-- What lies behind a place and how far it is fix the place. -/
theorem unique (h : c.Reads w d) (h' : c.Reads w e) : d = e := by
  obtain ⟨hr, ho⟩ := h
  obtain ⟨hr', ho'⟩ := h'
  have hrest : d.rest = e.rest := List.append_cancel_left (hr.symm.trans hr')
  cases d
  cases e
  simp_all

end Reads

theorem reads_of_rest_eq {c : Cursor} {w rest : List Char} (h : c.rest = w ++ rest) :
    c.Reads w ⟨c.offset + byteLength w, rest⟩ := ⟨h, rfl⟩

theorem reads_rest (c : Cursor) : c.Reads c.rest ⟨c.offset + byteLength c.rest, []⟩ :=
  reads_of_rest_eq (List.append_nil c.rest).symm

theorem reads_skip (c : Cursor) (n : Nat) : c.Reads (c.rest.take n) (c.skip n) :=
  ⟨(List.take_append_drop n c.rest).symm, rfl⟩

theorem reads_head {c : Cursor} {x : Char} {rest : List Char} (h : c.rest = x :: rest) :
    c.Reads [x] (c.skip 1) := by
  have hread := c.reads_skip 1
  rwa [h] at hread

theorem skip_eq {c : Cursor} {n : Nat} {w rest : List Char} (h : c.rest = w ++ rest)
    (hn : w.length = n) : c.skip n = ⟨c.offset + byteLength w, rest⟩ := by
  subst hn
  rw [skip, h, List.take_left, List.drop_left]

theorem Reads.skip_eq {c d : Cursor} {w : List Char} (h : c.Reads w d) : c.skip w.length = d := by
  rw [Cursor.skip_eq h.1 rfl, ← h.2]

theorem Reads.peek_eq {c d : Cursor} {w : List Char} (h : c.Reads w d) :
    c.peek w.length = String.ofList w := by
  rw [peek, h.1, List.take_left]

theorem reads_skipWhile (c : Cursor) (p : Char → Bool) :
    c.Reads (c.rest.takeWhile p) (c.skipWhile p) := by
  have h := c.reads_skip (c.rest.takeWhile p).length
  rwa [List.prefix_iff_eq_take.1 (List.takeWhile_prefix p) |>.symm] at h

theorem rest_skipWhile (c : Cursor) (p : Char → Bool) :
    (c.skipWhile p).rest = c.rest.dropWhile p := by
  have h : c.rest.takeWhile p ++ c.rest.dropWhile p = _ :=
    List.takeWhile_append_dropWhile.trans (c.reads_skipWhile p).1
  exact (List.append_cancel_left h).symm

/-- A run that nothing continues is what is moved over. -/
theorem Reads.skipWhile_eq {c d : Cursor} {w : List Char} {p : Char → Bool} (h : c.Reads w d)
    (hw : ∀ x ∈ w, p x = true) (hd : ∀ x, d.rest.head? = some x → p x = false) :
    c.skipWhile p = d := by
  have hr := c.reads_skipWhile p
  rw [h.1, takeWhile_append_stop hw hd] at hr
  exact hr.unique h

/-- A text up to and including its first `x`, or all that is left if `x` does not occur. -/
def RunsThrough (x : Char) (w rest : List Char) : Prop :=
  (∃ u, x ∉ u ∧ w = u ++ [x]) ∨ (x ∉ w ∧ rest = [])

/-- What holds no `x` and stands at the head of the text is passed on the way to `x`. -/
theorem RunsThrough.begins {x : Char} {u v w rest : List Char} (h : RunsThrough x w rest)
    (he : w ++ rest = u ++ v) (hu : x ∉ u) : ∃ tail, w = u ++ tail := by
  rcases List.append_eq_append_iff.1 he with ⟨tail, rfl, -⟩ | ⟨tail, rfl, -⟩
  · rcases h with ⟨a, -, rfl⟩ | ⟨-, rfl⟩
    · simp at hu
    · exact ⟨v, by simpa using he⟩
  · exact ⟨tail, rfl⟩

theorem reads_skipPast (c : Cursor) (x : Char) :
    ∃ w, c.Reads w (c.skipPast x) ∧ RunsThrough x w (c.skipPast x).rest := by
  by_cases hx : x ∈ c.rest
  · obtain ⟨u, rest, hrest, hu⟩ := List.eq_append_cons_of_mem hx
    have hrest' : c.rest = (u ++ [x]) ++ rest := by rw [hrest, List.append_assoc]; rfl
    refine ⟨u ++ [x], ?_, Or.inl ⟨u, hu, rfl⟩⟩
    rw [skipPast, hrest, takeWhile_ne_append hu, skip_eq hrest' (by simp)]
    exact reads_of_rest_eq hrest'
  · have hskip : c.skipPast x = ⟨c.offset + byteLength c.rest, []⟩ := by
      rw [skipPast, takeWhile_ne_eq_self hx, skip, List.take_of_length_le (by omega),
        List.drop_eq_nil_of_le (by omega)]
    rw [hskip]
    exact ⟨c.rest, reads_of_rest_eq (by simp), Or.inr ⟨hx, rfl⟩⟩

/-- The place belongs to the text: what is behind it, and what is still ahead, make up
the text. -/
def LiesIn (text : List Char) (c : Cursor) : Prop := ∃ before, (Cursor.mk 0 text).Reads before c

namespace LiesIn

variable {text w : List Char} {c d : Cursor}

theorem start (text : List Char) : LiesIn text ⟨0, text⟩ := ⟨[], Reads.refl _⟩

theorem reads (hc : LiesIn text c) (h : c.Reads w d) : LiesIn text d := by
  obtain ⟨before, hb⟩ := hc
  exact ⟨before ++ w, hb.trans h⟩

theorem skip (hc : LiesIn text c) (n : Nat) : LiesIn text (c.skip n) := hc.reads (c.reads_skip n)

theorem skipWhile (hc : LiesIn text c) (p : Char → Bool) : LiesIn text (c.skipWhile p) :=
  hc.reads (c.reads_skipWhile p)

/-- The span between two places slices to what is read from one to the other. -/
theorem slice? (hc : LiesIn text c) (h : c.Reads w d) : (c.spanTo d).slice? text = some w := by
  obtain ⟨before, hr, ho⟩ := hc
  obtain ⟨hr', ho'⟩ := h
  rw [Nat.zero_add] at ho
  refine Span.slice?_eq_some_iff.2 ⟨before, d.rest, ?_, ho, ?_⟩
  · rw [← hr']
    exact hr
  · rw [← ho]
    exact ho'

theorem proper (hc : LiesIn text c) (h : c.Reads w d) : (c.spanTo d).Proper text :=
  .of_slice? (hc.slice? h)

theorem byteLength_eq (hc : LiesIn text c) : c.offset + byteLength c.rest = byteLength text := by
  obtain ⟨before, hr, ho⟩ := hc
  have hlen := congrArg byteLength hr
  rw [byteLength_append] at hlen
  simp only at ho hlen
  omega

theorem offset_le (hc : LiesIn text c) : c.offset ≤ byteLength text := by
  rw [← hc.byteLength_eq]
  exact Nat.le_add_right _ _

/-- Of two places of one text, the later one is read from the earlier. -/
theorem reads_of_le (hc : LiesIn text c) (hd : LiesIn text d) (hle : c.offset ≤ d.offset) :
    ∃ w, c.Reads w d := by
  obtain ⟨before, hb, hbo⟩ := hc
  obtain ⟨before', hb', hbo'⟩ := hd
  simp only [Nat.zero_add] at hb hb' hbo hbo'
  rcases List.append_eq_append_iff.1 (hb.symm.trans hb') with ⟨w, rfl, hrest⟩ | ⟨w, rfl, hrest⟩
  · refine ⟨w, hrest, ?_⟩
    rw [hbo', hbo, byteLength_append]
  · -- The later place would be the earlier one.
    have hnil : w = [] := by
      by_contra hne
      have := byteLength_pos hne
      rw [byteLength_append] at hbo
      omega
    subst hnil
    simp only [List.append_nil, List.nil_append] at hbo hrest
    exact ⟨[], hrest.symm, by rw [byteLength_nil]; omega⟩

/-- Only the end of the text has nothing ahead of it. -/
theorem offset_eq_iff (hc : LiesIn text c) : c.offset = byteLength text ↔ c.rest = [] := by
  have hlen := hc.byteLength_eq
  constructor
  · intro he
    rcases hrest : c.rest with _ | ⟨x, xs⟩
    · rfl
    · have := x.utf8Size_pos
      rw [hrest, byteLength_cons] at hlen
      omega
  · intro he
    rwa [he, byteLength_nil] at hlen

end LiesIn

end Cursor

end CosmeticLint
