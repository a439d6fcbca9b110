import CosmeticLint.Proofs.Text.Lines
import CosmeticLint.Proofs.Text.Split

/-! Lines as they are shown and lines as they are numbered. Every offset of a text lies in one line,
from just behind a line feed up to the next one. The number of the line counts the line feeds in
front of it, and that many shown lines come before the one that is cut out there. -/

namespace CosmeticLint

/-! ### The line of an offset -/

/-- The text is cut around the line in which an offset lies; the end of a line belongs to it. -/
structure InLine (text : List Char) (offset : Nat) (front line tail : List Char) : Prop where
  text_eq : text = front ++ (line ++ tail)
  front_end : front = [] ∨ front.getLast? = some '\n'
  notMem_line : '\n' ∉ line
  tail_start : tail = [] ∨ tail.head? = some '\n'
  start_le : byteLength front ≤ offset
  le_stop : offset ≤ byteLength front + byteLength line

/-- A character goes to the front, as a line feed or because a line feed is there already. -/
theorem InLine.cons_front {text front line tail : List Char} {offset : Nat} {c : Char}
    (h : InLine text offset front line tail) (hc : c = '\n' ∨ front ≠ []) :
    InLine (c :: text) (offset + c.utf8Size) (c :: front) line tail := by
  obtain ⟨rfl, hfront, hline, htail, hstart, hstop⟩ := h
  refine ⟨rfl, .inr ?_, hline, htail, ?_, ?_⟩
  · rcases hfront with rfl | hfront
    · rw [hc.resolve_right (not_not_intro rfl)]
      rfl
    · rw [List.getLast?_cons, hfront]
      rfl
  · rw [byteLength_cons]
    omega
  · rw [byteLength_cons]
    omega

/-- The first line grows at its head. -/
theorem InLine.cons_line {text line tail : List Char} {offset offset' : Nat} {c : Char}
    (h : InLine text offset [] line tail) (hc : c ≠ '\n') (hle : offset' ≤ offset + c.utf8Size) :
    InLine (c :: text) offset' [] (c :: line) tail := by
  obtain ⟨rfl, -, hline, htail, -, hstop⟩ := h
  refine ⟨rfl, .inl rfl, ?_, htail, Nat.zero_le _, ?_⟩
  · simp [hline, Ne.symm hc]
  · rw [byteLength_nil] at hstop ⊢
    rw [byteLength_cons]
    omega

theorem exists_inLine {text : List Char} {offset : Nat} (h : offset ≤ byteLength text) :
    ∃ front line tail, InLine text offset front line tail := by
  induction text generalizing offset with
  | nil => exact ⟨[], [], [], rfl, .inl rfl, List.not_mem_nil, .inl rfl, Nat.zero_le _, h⟩
  | cons c text ih =>
    rw [byteLength_cons] at h
    -- An offset inside the first character is looked up as the start of the rest.
    obtain ⟨front, line, tail, hrest⟩ := @ih (offset - c.utf8Size) (by omega)
    by_cases hc : c = '\n'
    · subst hc
      cases offset with
      | zero =>
        exact ⟨[], [], _, rfl, .inl rfl, List.not_mem_nil, .inr rfl, Nat.zero_le _, Nat.zero_le _⟩
      | succ offset => exact ⟨_, line, tail, hrest.cons_front (.inl rfl)⟩
    · by_cases hfront : front = []
      · subst hfront
        exact ⟨[], _, tail, hrest.cons_line hc (by omega)⟩
      · have hpos := byteLength_pos hfront
        have hstart := hrest.start_le
        have hoffset : offset - c.utf8Size + c.utf8Size = offset := by omega
        exact ⟨_, line, tail, hoffset ▸ hrest.cons_front (.inr hfront)⟩

/-- An offset between two characters cuts its line in two. -/
theorem InLine.exists_before {text front line tail : List Char} {offset : Nat}
    (h : InLine text offset front line tail) (hoffset : Span.Boundary text offset) :
    ∃ before after, line = before ++ after ∧ offset = byteLength front + byteLength before := by
  obtain ⟨u, v, hcut, rfl⟩ := hoffset
  obtain ⟨htext, -, -, -, hstart, hstop⟩ := h
  rw [hcut] at htext
  have hnil : ∀ x : List Char, byteLength x = 0 → x = [] := by
    intro x hx
    by_contra hne
    have := byteLength_pos hne
    omega
  rcases List.append_eq_append_iff.1 htext with ⟨x, rfl, -⟩ | ⟨x, rfl, hrest⟩
  · rw [byteLength_append] at hstart
    cases hnil x (by omega)
    exact ⟨[], line, rfl, by simp⟩
  · rw [byteLength_append] at hstop ⊢
    rcases List.append_eq_append_iff.1 hrest with ⟨y, rfl, -⟩ | ⟨y, rfl, -⟩
    · rw [byteLength_append] at hstop
      cases hnil y (by omega)
      exact ⟨line, [], by simp, by simp⟩
    · exact ⟨x, y, rfl, rfl⟩

/-! ### Its number -/

theorem countP_isLineFeed_bytes (text : List Char) :
    (bytes text).countP isLineFeed = text.count '\n' := by
  induction text with
  | nil => rfl
  | cons c text ih =>
    rw [bytes_cons, List.countP_append, ih, List.count_cons]
    by_cases hc : c = '\n'
    · subst hc
      exact Nat.add_comm _ _
    · have hnone : (String.utf8EncodeChar c).countP isLineFeed = 0 :=
        List.countP_eq_zero.2 (by simpa using isLineFeed_of_mem_utf8EncodeChar hc)
      simp [hnone, hc]

theorem isLineFeed_of_mem_bytes {text : List Char} (h : '\n' ∉ text) :
    ∀ b ∈ bytes text, isLineFeed b = false := by
  have hcount := countP_isLineFeed_bytes text
  rw [List.count_eq_zero_of_not_mem h, List.countP_eq_zero] at hcount
  simpa using hcount

theorem lineStart_bytes {front : List Char} (h : front = [] ∨ front.getLast? = some '\n') :
    lineStart (bytes front) = byteLength front := by
  rcases h with rfl | h
  · rfl
  · obtain ⟨init, rfl⟩ := List.getLast?_eq_some_iff.1 h
    have hfeed : bytes ['\n'] = [10] := rfl
    rw [← length_bytes, lineStart, bytes_append, hfeed,
      List.rdropWhile_concat_neg _ _ _ (by decide)]

/-- The line feeds in front number a line, and its columns count from its start. -/
theorem InLine.lineCol?_eq {text : String} {offset : Nat} {front line tail : List Char}
    (h : InLine text.toList offset front line tail) :
    (LineIndex.ofText text).lineCol? offset =
      some ⟨front.count '\n', offset - byteLength front⟩ := by
  obtain ⟨htext, hfront, hline, -, hstart, hstop⟩ := h
  have hle : offset ≤ byteLength text.toList := by
    rw [htext, byteLength_append, byteLength_append]
    omega
  have htake : (bytes text.toList).take offset =
      bytes front ++ (bytes line).take (offset - byteLength front) := by
    rw [htext, bytes_append, bytes_append, List.take_append, length_bytes,
      List.take_of_length_le (by rwa [length_bytes]),
      List.take_append_of_le_length (by rw [length_bytes]; omega)]
  have hpart : ∀ b ∈ (bytes line).take (offset - byteLength front), isLineFeed b = false :=
    fun b hb => isLineFeed_of_mem_bytes hline b (List.mem_of_mem_take hb)
  have hnone : ((bytes line).take (offset - byteLength front)).countP isLineFeed = 0 :=
    List.countP_eq_zero.2 (by simpa using hpart)
  have hlength : ((bytes text.toList).take offset).length = offset :=
    List.length_take_of_le (by rwa [length_bytes])
  rw [CosmeticLint.lineCol?_eq hle, LineCol.behind, hlength, htake, List.countP_append, hnone,
    countP_isLineFeed_bytes, lineStart_append hpart, lineStart_bytes hfront, Nat.add_zero]

theorem lineFeed_notMem_toString (n : Nat) : '\n' ∉ (toString n).toList := by
  rw [Nat.toString_eq_repr, Nat.toList_repr]
  intro h
  exact absurd (Nat.isDigit_of_mem_toDigits (by decide) (by decide) h) (by decide)

/-! ### The line that is shown -/

theorem length_splitOn (x : Char) (text : List Char) :
    (text.splitOn x).length = text.count x + 1 := by
  induction text with
  | nil => rfl
  | cons c text ih =>
    rw [List.splitOn_cons_eq_if_modifyHead, List.count_cons]
    split
    · rw [List.length_cons, ih]
    · rw [List.length_modifyHead, ih]

theorem shownLines_of_notMem {line : List Char} (h : '\n' ∉ line) :
    shownLines line = if line.isEmpty then [] else [line] := by
  simp [shownLines, splitAtChar_eq_splitOn, List.splitOn_eq_singleton h]

/-- What stands behind a line feed adds its lines to those in front. -/
theorem shownLines_append (init rest : List Char) :
    shownLines (init ++ '\n' :: rest) =
      (init.splitOn '\n').map dropCarriageReturn ++ shownLines rest := by
  have hne := List.splitOn_ne_nil '\n' rest
  have hlast : (init.splitOn '\n' ++ rest.splitOn '\n').getLastD [] =
      (rest.splitOn '\n').getLastD [] := by
    rw [List.getLastD_eq_getLast?, List.getLast?_append_of_ne_nil _ hne, List.getLastD_eq_getLast?]
  simp only [shownLines, splitAtChar_eq_splitOn, List.splitOn_append_cons_self, hlast,
    List.dropLast_append_of_ne_nil hne, List.map_append, List.append_assoc]

/-- How the text from the start of a line shows the line: up to the next line feed or to the end,
and without one carriage return that a line feed follows. -/
inductive ShownFrom : List Char → List Char → Prop
  | last {line : List Char} : '\n' ∉ line → ShownFrom line line
  | feed {line rest : List Char} : '\n' ∉ line → line.getLast? ≠ some '\r' →
      ShownFrom (line ++ '\n' :: rest) line
  | returnFeed {line rest : List Char} : '\n' ∉ line →
      ShownFrom (line ++ '\r' :: '\n' :: rest) line

theorem shownFrom_dropCarriageReturn {line : List Char} (h : '\n' ∉ line) (rest : List Char) :
    ShownFrom (line ++ '\n' :: rest) (dropCarriageReturn line) := by
  unfold dropCarriageReturn
  split
  · rename_i hlast
    obtain ⟨init, rfl⟩ := List.getLast?_eq_some_iff.1 hlast
    have hinit : '\n' ∉ init := fun hmem => h (List.mem_append_left _ hmem)
    rw [List.dropLast_concat, List.append_assoc]
    exact .returnFeed hinit
  · rename_i hlast
    exact .feed h hlast

/-- What the line of a place shows in front of it: all of it, unless the place is between a carriage
return and the line feed. -/
theorem ShownFrom.begins {before after line : List Char} (h : ShownFrom (before ++ after) line)
    (hbefore : '\n' ∉ before) : before <+: line ∨ before = line ++ ['\r'] := by
  have hfeed : ∀ {text rest : List Char}, before ++ after = text ++ '\n' :: rest →
      before <+: text := by
    intro text rest heq
    rcases List.append_eq_append_iff.1 heq with ⟨x, rfl, -⟩ | ⟨x, rfl, hx⟩
    · exact List.prefix_append _ _
    · cases x with
      | nil => simp
      | cons c x =>
        cases hx
        simp at hbefore
  generalize htext : before ++ after = text at h
  cases h with
  | last _ => exact .inl ⟨after, htext⟩
  | feed _ _ => exact .inl (hfeed htext)
  | @returnFeed line rest _ =>
    rw [← List.singleton_append, ← List.append_assoc] at htext
    exact (List.prefix_concat_iff.1 (hfeed htext)).symm

section

variable {text : List Char} {offset : Nat} {front line tail : List Char}
  (h : InLine text offset front line tail)

include h

theorem InLine.getElem?_shownLines :
    (shownLines text)[front.count '\n']? = (shownLines (line ++ tail)).head? := by
  obtain ⟨rfl, hfront, -⟩ := h
  rcases hfront with rfl | hfront
  · rw [List.nil_append, List.count_nil, List.head?_eq_getElem?]
  · obtain ⟨init, rfl⟩ := List.getLast?_eq_some_iff.1 hfront
    have hcount : ((init.splitOn '\n').map dropCarriageReturn).length =
        (init ++ ['\n']).count '\n' := by
      rw [List.length_map, length_splitOn, List.count_append]
      rfl
    rw [List.append_assoc, List.singleton_append, shownLines_append,
      List.getElem?_append_right (Nat.le_of_eq hcount), hcount, Nat.sub_self,
      List.head?_eq_getElem?]

/-- Only an empty line at the end of the text is not shown. -/
theorem InLine.shown_cases :
    (line = [] ∧ tail = []) ∧ (shownLines text)[front.count '\n']? = none ∨
      ¬ (line = [] ∧ tail = []) ∧ ∃ shown,
        (shownLines text)[front.count '\n']? = some shown ∧ ShownFrom (line ++ tail) shown := by
  rw [h.getElem?_shownLines]
  obtain ⟨-, -, hline, htail, -, -⟩ := h
  rcases htail with rfl | htail
  · rw [List.append_nil, shownLines_of_notMem hline]
    by_cases hempty : line = []
    · exact .inl ⟨⟨hempty, rfl⟩, by simp [hempty]⟩
    · exact .inr ⟨fun hnil => hempty hnil.1, line, by simp [hempty], .last hline⟩
  · obtain ⟨rest, rfl⟩ := List.head?_eq_some_iff.1 htail
    refine .inr ⟨fun hnil => absurd hnil.2 (List.cons_ne_nil _ _), dropCarriageReturn line, ?_,
      shownFrom_dropCarriageReturn hline rest⟩
    rw [shownLines_append, List.splitOn_eq_singleton hline]
    rfl

/-- That line begins where the text ends, and the text is empty or ends in a line feed. -/
theorem InLine.empty_iff : line = [] ∧ tail = [] ↔
    offset = byteLength text ∧ (text = [] ∨ text.getLast? = some '\n') := by
  obtain ⟨rfl, hfront, hline, -, hstart, hstop⟩ := h
  rw [byteLength_append, byteLength_append]
  constructor
  · rintro ⟨rfl, rfl⟩
    rw [byteLength_nil] at hstop ⊢
    exact ⟨by omega, by simpa using hfront⟩
  · rintro ⟨rfl, hlast⟩
    have htail : tail = [] := by
      by_contra hne
      have := byteLength_pos hne
      omega
    subst htail
    refine ⟨?_, rfl⟩
    by_contra hne
    rcases hlast with hlast | hlast
    · simp [hne] at hlast
    · rw [List.append_nil, List.getLast?_append_of_ne_nil _ hne] at hlast
      exact hline (List.mem_of_getLast? hlast)

end

end CosmeticLint
