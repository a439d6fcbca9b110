import CosmeticLint.Proofs.Text.Bytes
import CosmeticLint.Text.Lines
import Mathlib.Data.List.DropRight

/-! Lines and columns by bytes. Lines start behind the line feeds among the bytes of a text, so the
starts up to an offset are those of the bytes in front of it: there is one more of them than line
feeds, and the last lies behind the last line feed. A table of 32-bit offsets that is searched by
halving gives the same positions, and on the way neither leaves the table nor falls below zero. -/

namespace CosmeticLint

open String (utf8EncodeChar)

def isLineFeed (b : UInt8) : Bool := b == 10

/-! ### Where lines start -/

/-- Where the lines of a text start, told by its bytes. -/
def lineStarts (bs : List UInt8) : List Nat := 0 :: (bs.findIdxs isLineFeed).map (· + 1)

/-- No character but the line feed has its byte. -/
theorem isLineFeed_of_mem_utf8EncodeChar {c : Char} (hc : c ≠ '\n') :
    ∀ b ∈ utf8EncodeChar c, isLineFeed b = false := by
  intro b hb
  rw [isLineFeed, beq_eq_false_iff_ne]
  rintro rfl
  by_cases hascii : c.toNat < 128
  · rw [utf8EncodeChar_of_lt hascii, List.mem_singleton] at hb
    exact hc ((toUInt8_inj_of_lt (x := '\n') (by decide) hascii).1 hb.symm)
  · have hbig := le_of_mem_utf8EncodeChar (Nat.not_lt.1 hascii) 10 hb
    exact absurd hbig (by decide)

theorem lineStartsFrom_eq (offset : Nat) (text : List Char) :
    lineStartsFrom offset text = ((bytes text).findIdxs isLineFeed offset).map (· + 1) := by
  induction text generalizing offset with
  | nil => rfl
  | cons c text ih =>
    rw [lineStartsFrom, ih, bytes_cons, List.findIdxs_append, List.map_append,
      String.length_utf8EncodeChar]
    split
    · rename_i hc
      subst hc
      rfl
    · rename_i hc
      rw [List.findIdxs_eq_nil_iff.2 (isLineFeed_of_mem_utf8EncodeChar hc)]
      rfl

theorem starts_ofText (text : String) :
    (LineIndex.ofText text).starts = lineStarts (bytes text.toList) := by
  rw [LineIndex.ofText, lineStarts, lineStartsFrom_eq]

section LineStarts

variable {a b bs : List UInt8} {offset : Nat}

theorem lineStarts_append :
    lineStarts (a ++ b) = lineStarts a ++ (b.findIdxs isLineFeed a.length).map (· + 1) := by
  rw [lineStarts, lineStarts, List.findIdxs_append, List.map_append, List.cons_append, Nat.zero_add]

theorem lineStarts_concat (x : UInt8) :
    lineStarts (a ++ [x]) = lineStarts a ++ if isLineFeed x then [a.length + 1] else [] := by
  rw [lineStarts_append, List.findIdxs_singleton]
  split <;> rfl

theorem le_of_mem_lineStarts {s : Nat} (h : s ∈ lineStarts bs) : s ≤ bs.length := by
  rcases List.mem_cons.1 h with rfl | h
  · exact Nat.zero_le _
  · obtain ⟨i, hi, rfl⟩ := List.mem_map.1 h
    exact List.lt_add_of_mem_findIdxs i hi

theorem pairwise_lineStarts (bs : List UInt8) : (lineStarts bs).Pairwise (· < ·) := by
  refine .cons ?_ ?_
  · intro s hs
    obtain ⟨i, -, rfl⟩ := List.mem_map.1 hs
    exact Nat.succ_pos i
  · exact List.pairwise_map.2 (List.pairwise_findIdxs.imp Nat.succ_lt_succ)

/-- The lines that start up to an offset are those of the bytes in front of it. -/
theorem takeWhile_lineStarts (h : offset ≤ bs.length) :
    (lineStarts bs).takeWhile (· ≤ offset) = lineStarts (bs.take offset) := by
  have hlen : (bs.take offset).length = offset := List.length_take_of_le h
  conv_lhs => rw [← List.take_append_drop offset bs, lineStarts_append, hlen]
  rw [List.takeWhile_append_of_pos]
  · have hbehind : (((bs.drop offset).findIdxs isLineFeed offset).map (· + 1)).takeWhile
        (· ≤ offset) = [] := by
      refine List.takeWhile_eq_nil_iff.2 fun hpos hle => ?_
      obtain ⟨i, hi, heq⟩ := List.mem_map.1 (List.get_mem _ ⟨0, hpos⟩)
      have hge := List.ge_of_mem_findIdxs i hi
      have := of_decide_eq_true hle
      omega
    rw [hbehind, List.append_nil]
  · intro s hs
    have := le_of_mem_lineStarts hs
    exact decide_eq_true (by omega)

theorem length_lineStarts (bs : List UInt8) :
    (lineStarts bs).length = bs.countP isLineFeed + 1 := by
  rw [lineStarts, List.length_cons, List.length_map, List.length_findIdxs]

/-- The last line starts behind the last line feed. -/
theorem getLastD_lineStarts (bs : List UInt8) :
    (lineStarts bs).getLastD 0 = (bs.rdropWhile (!isLineFeed ·)).length := by
  induction bs using List.reverseRecOn with
  | nil => rfl
  | append_singleton bs x ih =>
    rw [lineStarts_concat, List.rdropWhile_concat]
    cases hx : isLineFeed x
    · simpa using ih
    · simp

end LineStarts

/-! ### Positions -/

/-- Where the line starts in which the bytes `front` end. -/
def lineStart (front : List UInt8) : Nat := (front.rdropWhile (!isLineFeed ·)).length

/-- The position behind the bytes `front`. -/
def LineCol.behind (front : List UInt8) : LineCol :=
  ⟨front.countP isLineFeed, front.length - lineStart front⟩

/-- The order in which a text is read. -/
def LineCol.Precedes (p q : LineCol) : Prop := p.line < q.line ∨ p.line = q.line ∧ p.col < q.col

theorem lineStart_le (front : List UInt8) : lineStart front ≤ front.length :=
  (List.rdropWhile_prefix _ front).length_le

/-- The start of a line is the entry of the table at the number of the line. -/
theorem getElem?_lineStarts (front rest : List UInt8) :
    (lineStarts (front ++ rest))[front.countP isLineFeed]? = some (lineStart front) := by
  have hlast : (lineStarts front).getLast? = some ((lineStarts front).getLastD 0) := rfl
  rw [List.getLast?_eq_getElem?, length_lineStarts, Nat.add_sub_cancel, getLastD_lineStarts] at hlast
  rw [lineStarts_append, List.getElem?_append_left (by rw [length_lineStarts]; omega)]
  exact hlast

theorem lineCol?_eq {text : String} {offset : Nat} (h : offset ≤ byteLength text.toList) :
    (LineIndex.ofText text).lineCol? offset =
      some (LineCol.behind ((bytes text.toList).take offset)) := by
  have hlen : offset ≤ (bytes text.toList).length := by rwa [length_bytes]
  have hfront : ((bytes text.toList).take offset).length = offset := List.length_take_of_le hlen
  have hlength : (LineIndex.ofText text).length = byteLength text.toList := rfl
  rw [LineIndex.lineCol?, hlength, if_pos h, starts_ofText, takeWhile_lineStarts hlen]
  simp only [length_lineStarts, getLastD_lineStarts, Nat.add_sub_cancel, LineCol.behind, lineStart,
    hfront]

theorem lineCol?_eq_none_iff {text : String} {offset : Nat} :
    (LineIndex.ofText text).lineCol? offset = none ↔ byteLength text.toList < offset := by
  constructor
  · intro h
    by_contra hle
    rw [lineCol?_eq (Nat.not_lt.1 hle)] at h
    cases h
  · intro h
    exact if_neg (Nat.not_le.2 h)

/-- Bytes without a line feed stay in the line. -/
theorem lineStart_append {a b : List UInt8} (hb : ∀ x ∈ b, isLineFeed x = false) :
    lineStart (a ++ b) = lineStart a := by
  have hreverse : ∀ x ∈ b.reverse, (!isLineFeed x) = true := by
    intro x hx
    rw [hb x (List.mem_reverse.1 hx)]
    rfl
  rw [lineStart, lineStart, List.rdropWhile, List.reverse_append,
    List.dropWhile_append_of_pos hreverse]
  rfl

/-- A position moves on with every byte. -/
theorem LineCol.behind_precedes (a : List UInt8) {b : List UInt8} (hb : b ≠ []) :
    (LineCol.behind a).Precedes (LineCol.behind (a ++ b)) := by
  by_cases hfeed : b.countP isLineFeed = 0
  · -- The line goes on, and so does the column.
    have hnone : ∀ x ∈ b, isLineFeed x = false := by
      simpa using List.countP_eq_zero.1 hfeed
    have hpos := List.length_pos_iff.2 hb
    have hle := lineStart_le a
    refine .inr ⟨?_, ?_⟩
    · simp only [LineCol.behind, List.countP_append, hfeed, Nat.add_zero]
    · simp only [LineCol.behind, List.length_append, lineStart_append hnone]
      omega
  · refine .inl ?_
    simp only [LineCol.behind, List.countP_append]
    omega

/-! ### The search in a table -/

/-- Halves the range from `lo` to `hi`, up to which the entries that satisfy `p` reach. -/
def partitionPointIn (p : Nat → Bool) (table : Array Nat) (lo hi : Nat) (h : hi ≤ table.size) : Nat :=
  if hlt : lo < hi then
    have hmid : lo + (hi - lo) / 2 < table.size := by omega
    if p table[lo + (hi - lo) / 2] then
      partitionPointIn p table (lo + (hi - lo) / 2 + 1) hi h
    else partitionPointIn p table lo (lo + (hi - lo) / 2) (Nat.le_of_lt hmid)
  else lo
termination_by hi - lo

/-- How many entries satisfy `p`, in a table in which those that do come first. -/
def partitionPoint (p : Nat → Bool) (table : Array Nat) : Nat :=
  partitionPointIn p table 0 table.size (Nat.le_refl _)

section PartitionPoint

variable {p : Nat → Bool} {table : Array Nat}

/-- The range always holds the place up to which the entries satisfy `p`. -/
theorem partitionPointIn_eq {k : Nat}
    (hbelow : ∀ i (hi : i < table.size), i < k → p table[i] = true)
    (habove : ∀ i (hi : i < table.size), k ≤ i → p table[i] = false)
    {lo hi : Nat} {h : hi ≤ table.size} (hlo : lo ≤ k) (hhi : k ≤ hi) :
    partitionPointIn p table lo hi h = k := by
  fun_induction partitionPointIn p table lo hi h with
  | case1 lo hi h hlt hmid hp ih =>
    refine ih ?_ hhi
    by_contra hk
    rw [habove _ hmid (by omega)] at hp
    cases hp
  | case2 lo hi h hlt hmid hp ih =>
    refine ih hlo ?_
    by_contra hk
    exact hp (hbelow _ hmid (by omega))
  | case3 lo hi h hlt => omega

theorem partitionPoint_append {first second : List Nat} (hfirst : ∀ s ∈ first, p s = true)
    (hsecond : ∀ s ∈ second, p s = false) :
    partitionPoint p (first ++ second).toArray = first.length := by
  refine partitionPointIn_eq ?_ ?_ (Nat.zero_le _) (by simp)
  · intro i hi hik
    simp only [List.getElem_toArray, List.getElem_append_left hik]
    exact hfirst _ (List.getElem_mem hik)
  · intro i hi hki
    have hlt : i - first.length < second.length := by
      simp at hi
      omega
    simp only [List.getElem_toArray, List.getElem_append_right hki]
    exact hsecond _ (List.getElem_mem hlt)

/-- In a table whose entries increase, all behind the first beyond an offset are beyond it. -/
theorem lt_of_mem_dropWhile {starts : List Nat} (h : starts.Pairwise (· < ·)) {offset s : Nat}
    (hs : s ∈ starts.dropWhile (· ≤ offset)) : offset < s := by
  induction h with
  | nil => cases hs
  | @cons a starts ha _ ih =>
    rw [List.dropWhile_cons] at hs
    split at hs
    · exact ih hs
    · rename_i hle
      have hlt : offset < a := by simpa using hle
      rcases List.mem_cons.1 hs with rfl | hs
      · exact hlt
      · exact Nat.lt_trans hlt (ha s hs)

theorem partitionPoint_eq {starts : List Nat} (h : starts.Pairwise (· < ·)) (offset : Nat) :
    partitionPoint (· ≤ offset) starts.toArray = (starts.takeWhile (· ≤ offset)).length := by
  conv_lhs => rw [← List.takeWhile_append_dropWhile (p := fun s => decide (s ≤ offset)) (l := starts)]
  refine partitionPoint_append ?_ ?_
  · intro s hs
    exact List.mem_takeWhile_imp (p := fun s => decide (s ≤ offset)) hs
  · intro s hs
    exact decide_eq_false (Nat.not_le.2 (lt_of_mem_dropWhile h hs))

end PartitionPoint

/-! ### The table of a text -/

namespace LineIndex

/-- What can go wrong when a position is looked up. -/
inductive Fault
  /-- The second number is greater than the first. -/
  | difference (a b : Nat)
  /-- The table has no such entry. -/
  | entry (i : Nat)
  deriving Repr, DecidableEq

def difference (a b : Nat) : Except Fault Nat :=
  if b ≤ a then .ok (a - b) else .error (.difference a b)

def entry (table : Array Nat) (i : Nat) : Except Fault Nat :=
  match table[i]? with
  | some start => .ok start
  | none => .error (.entry i)

/-- The starts of lines and the end of a text, of each of which 32 bits are kept. -/
structure Table where
  starts : Array Nat
  length : Nat

def Table.ofBytes (bs : List UInt8) : Table where
  starts := ((lineStarts bs).map (· % Nat.pow 2 32)).toArray
  length := bs.length % Nat.pow 2 32

/-- The position of a byte offset. The number of lines that start no later is found by halving. -/
def Table.lineCol? (t : Table) (offset : Nat) : Except Fault (Option LineCol) := do
  if t.length < offset then return none
  let line ← difference (partitionPoint (· ≤ offset) t.starts) 1
  let start ← entry t.starts line
  let col ← difference offset start
  return some ⟨line % Nat.pow 2 32, col⟩

theorem starts_ofBytes {bs : List UInt8} (h : bs.length < Nat.pow 2 32) :
    (Table.ofBytes bs).starts = (lineStarts bs).toArray := by
  have hmap : (lineStarts bs).map (· % Nat.pow 2 32) = (lineStarts bs).map id := by
    refine List.map_congr_left fun s hs => ?_
    exact Nat.mod_eq_of_lt (Nat.lt_of_le_of_lt (le_of_mem_lineStarts hs) h)
  rw [Table.ofBytes, hmap, List.map_id]

/-- In a text that 32 bits can address no look-up goes wrong, and each gives the position. -/
theorem lineCol?_ofBytes {bs : List UInt8} (h : bs.length < Nat.pow 2 32) (offset : Nat) :
    (Table.ofBytes bs).lineCol? offset =
      .ok (if offset ≤ bs.length then some (LineCol.behind (bs.take offset)) else none) := by
  have hlength : (Table.ofBytes bs).length = bs.length := Nat.mod_eq_of_lt h
  rw [Table.lineCol?, hlength, starts_ofBytes h]
  by_cases hle : offset ≤ bs.length
  · obtain ⟨front, hfront⟩ : ∃ front, bs.take offset = front := ⟨_, rfl⟩
    have hoffset : front.length = offset := hfront ▸ List.length_take_of_le hle
    have hpoint := partitionPoint_eq (pairwise_lineStarts bs) offset
    rw [takeWhile_lineStarts hle, length_lineStarts, hfront] at hpoint
    have hline : difference (front.countP isLineFeed + 1) 1 = .ok (front.countP isLineFeed) :=
      if_pos (Nat.le_add_left _ _)
    have hstart : entry (lineStarts bs).toArray (front.countP isLineFeed) =
        .ok (lineStart front) := by
      have hentry := getElem?_lineStarts front (bs.drop offset)
      rw [← hfront, List.take_append_drop, hfront] at hentry
      rw [entry, List.getElem?_toArray, hentry]
    have hcol : difference offset (lineStart front) = .ok (offset - lineStart front) :=
      if_pos (hoffset ▸ lineStart_le front)
    have hcount : front.countP isLineFeed < Nat.pow 2 32 := by
      have := List.countP_le_length (p := isLineFeed) (l := front)
      omega
    rw [if_neg (Nat.not_lt.2 hle), if_pos hle, hpoint, hline]
    simp only [bind, Except.bind, hstart, hcol, Nat.mod_eq_of_lt hcount, hfront, LineCol.behind,
      hoffset]
    rfl
  · rw [if_pos (Nat.not_le.1 hle), if_neg hle]
    rfl

/-! ### Exact positions -/

/-- The position of an offset, told by the bytes in front of it: the line counts their line feeds,
and the column counts from the entry of the table for that line, just behind the last of them. -/
structure Locates (ix : LineIndex) (bs : List UInt8) (offset : Nat) (p : LineCol) : Prop where
  line : p.line = (bs.take offset).countP isLineFeed
  start_le : lineStart (bs.take offset) ≤ offset
  col : p.col = offset - lineStart (bs.take offset)
  entry : ix.starts[p.line]? = some (lineStart (bs.take offset))
  inverse : lineStart (bs.take offset) + p.col = offset

theorem locates_behind {text : String} {offset : Nat} (h : offset ≤ byteLength text.toList) :
    (ofText text).Locates (bytes text.toList) offset
      (LineCol.behind ((bytes text.toList).take offset)) := by
  have hfront : ((bytes text.toList).take offset).length = offset :=
    List.length_take_of_le (by rwa [length_bytes])
  have hstart := lineStart_le ((bytes text.toList).take offset)
  have hentry := getElem?_lineStarts ((bytes text.toList).take offset)
    ((bytes text.toList).drop offset)
  rw [List.take_append_drop, ← starts_ofText] at hentry
  rw [hfront] at hstart
  refine ⟨rfl, hstart, ?_, hentry, ?_⟩
  · rw [LineCol.behind, hfront]
  · rw [LineCol.behind, hfront]
    exact Nat.add_sub_cancel' hstart

/-- Exactly the offsets up to the end of a text have positions. Each is exact and leads back to its
offset, positions come in the order of the offsets, and the search in a table of 32-bit offsets
gives the same ones without a fault. -/
theorem ofText_exact (text : String) (h : byteLength text.toList < Nat.pow 2 32) :
    (∀ offset, (ofText text).lineCol? offset = none ↔ byteLength text.toList < offset) ∧
      (∀ offset ≤ byteLength text.toList, ∃ p, (ofText text).lineCol? offset = some p ∧
        (ofText text).Locates (bytes text.toList) offset p) ∧
      (∀ o₁ o₂, o₁ < o₂ → o₂ ≤ byteLength text.toList → ∃ p₁ p₂,
        (ofText text).lineCol? o₁ = some p₁ ∧ (ofText text).lineCol? o₂ = some p₂ ∧
          p₁.Precedes p₂) ∧
      ∀ offset, (Table.ofBytes (bytes text.toList)).lineCol? offset =
        .ok ((ofText text).lineCol? offset) := by
  refine ⟨fun offset => lineCol?_eq_none_iff, ?_, ?_, ?_⟩
  · intro offset hle
    exact ⟨_, lineCol?_eq hle, locates_behind hle⟩
  · intro o₁ o₂ hlt hle
    refine ⟨_, _, lineCol?_eq (Nat.le_of_lt (Nat.lt_of_lt_of_le hlt hle)), lineCol?_eq hle, ?_⟩
    obtain ⟨n, rfl⟩ := Nat.exists_eq_add_of_lt hlt
    rw [Nat.add_assoc, List.take_add]
    refine LineCol.behind_precedes _ ?_
    rw [← List.length_pos_iff, List.length_take, List.length_drop, length_bytes]
    omega
  · intro offset
    rw [lineCol?_ofBytes (by rwa [length_bytes]), length_bytes]
    split
    · rename_i hle
      rw [lineCol?_eq hle]
    · rename_i hle
      rw [lineCol?_eq_none_iff.2 (Nat.not_le.1 hle)]

/-- Behind a carriage return and a blank line, an offset inside a character. -/
theorem ofText_exact_insideChar :
    byteLength "é\r\n\n€x".toList = 9 ∧
      (ofText "é\r\n\n€x").Locates (bytes "é\r\n\n€x".toList) 6 ⟨2, 1⟩ ∧
      (Table.ofBytes (bytes "é\r\n\n€x".toList)).lineCol? 4 = .ok (some ⟨1, 0⟩) := by
  have hlen : byteLength "é\r\n\n€x".toList = 9 := by decide
  obtain ⟨-, hlocates, -, htable⟩ := ofText_exact "é\r\n\n€x" (by rw [hlen]; decide)
  refine ⟨hlen, ?_, ?_⟩
  · obtain ⟨p, hp, h⟩ := hlocates 6 (by rw [hlen]; decide)
    have hposition : (ofText "é\r\n\n€x").lineCol? 6 = some ⟨2, 1⟩ := by decide
    rw [hposition] at hp
    cases hp
    exact h
  · rw [htable]
    decide

end LineIndex

end CosmeticLint
