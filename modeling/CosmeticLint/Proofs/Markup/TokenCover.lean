import CosmeticLint.Proofs.Markup.Tokens

/-! The tokens of a tag cover the source from the place where they begin. Between them stand only
blanks, each is the text at its span and spells its kind in front of what follows, and the first
that closes the tag is the last. No other list of tokens does this, so the list is told by the
source alone. -/

namespace CosmeticLint.Markup.Token

/-! ### Covers -/

/-- The last token closes the tag, and no other does. -/
def EndsTag (ts : List Token) : Prop :=
  ∃ earlier last, ts = earlier ++ [last] ∧ last.kind.closesTag = true ∧
    ∀ t ∈ earlier, t.kind.closesTag = false

/-- The token is the text at its span, and spells its kind in front of what follows there. -/
def Fits (text : List Char) (t : Token) : Prop :=
  ∃ before after, text = before ++ (t.text.toList ++ after) ∧ t.span.start = byteLength before ∧
    t.span.stop = byteLength before + byteLength t.text.toList ∧
    t.kind.Spells t.text.toList after

/-- The tokens cover the text from an offset on. The end of the source is a token without text that
nothing follows, so where it is the last one the cover reaches to the end of the text. -/
structure Cover (text : List Char) (offset : Nat) (ts : List Token) : Prop where
  ends : EndsTag ts
  inOrder : Span.InOrder offset (byteLength text) (ts.map (·.span))
  gaps : ∀ gap ∈ Span.gaps offset (ts.map (·.span)), ∃ blanks,
    gap.slice? text = some blanks ∧ ∀ x ∈ blanks, isBlank x = true
  fits : ∀ t ∈ ts, t.Fits text

theorem endsTag_cons_iff {t : Token} {ts : List Token} :
    EndsTag (t :: ts) ↔ if t.kind.closesTag = true then ts = [] else EndsTag ts := by
  constructor
  · rintro ⟨earlier, last, heq, hlast, hearlier⟩
    cases earlier with
    | nil =>
      cases heq
      rw [if_pos hlast]
    | cons u earlier =>
      cases heq
      have ht := hearlier t (by simp)
      rw [if_neg (by simp [ht])]
      exact ⟨earlier, last, rfl, hlast, fun u hu => hearlier u (by simp [hu])⟩
  · split
    · rename_i ht
      rintro rfl
      exact ⟨[], t, rfl, ht, by simp⟩
    · rename_i ht
      rintro ⟨earlier, last, rfl, hlast, hearlier⟩
      refine ⟨t :: earlier, last, rfl, hlast, ?_⟩
      intro u hu
      rcases List.mem_cons.1 hu with rfl | hu
      · simpa using ht
      · exact hearlier u hu

variable {text : List Char} {c d : Cursor} {t : Token} {ts : List Token}

/-! ### One token -/

theorem Found.fits (h : Found c t d) (hc : c.LiesIn text) : t.Fits text := by
  obtain ⟨blanks, start, hr, -, hw, hspan, hspell⟩ := h
  obtain ⟨before, hbefore⟩ := hc.reads hr
  refine ⟨before, d.rest, ?_, ?_, ?_, hspell⟩
  · rw [← hw.1]
    exact hbefore.1
  · rw [hspan]
    exact hbefore.2.trans (Nat.zero_add _)
  · rw [hspan]
    show d.offset = _
    rw [hw.2, hbefore.2, Nat.zero_add]

/-- In front of a token that is found stand blanks only. -/
theorem Found.gap (h : Found c t d) (hc : c.LiesIn text) :
    ∃ blanks, (Span.mk c.offset t.span.start).slice? text = some blanks ∧
      ∀ x ∈ blanks, isBlank x = true := by
  obtain ⟨blanks, start, hr, hblank, -, hspan, -⟩ := h
  refine ⟨blanks, ?_, hblank⟩
  rw [hspan]
  exact hc.slice? hr

/-- A token that fits is found from a place with only blanks in front of it. -/
theorem Fits.exists_found (ht : t.Fits text) (hc : c.LiesIn text) (hle : c.offset ≤ t.span.start)
    (hgap : ∃ blanks, (Span.mk c.offset t.span.start).slice? text = some blanks ∧
      ∀ x ∈ blanks, isBlank x = true) :
    ∃ d, d.LiesIn text ∧ d.offset = t.span.stop ∧ Found c t d := by
  obtain ⟨before, after, htext, hstart, hstop, hspell⟩ := ht
  obtain ⟨blanks, hslice, hblank⟩ := hgap
  have hbefore : (Cursor.mk 0 text).Reads before ⟨t.span.start, t.text.toList ++ after⟩ :=
    ⟨htext, by simp [hstart]⟩
  have hword : (Cursor.mk t.span.start (t.text.toList ++ after)).Reads t.text.toList
      ⟨t.span.stop, after⟩ := ⟨rfl, by rw [hstop, hstart]⟩
  obtain ⟨w, hw⟩ := hc.reads_of_le ⟨before, hbefore⟩ hle
  have hsame : blanks = w := Option.some.inj (hslice.symm.trans (hc.slice? hw))
  refine ⟨_, (hc.reads hw).reads hword, rfl, w, _, hw, ?_, hword, rfl, hspell⟩
  rw [← hsame]
  exact hblank

/-- A cover is a token that is found and, unless the token closes the tag, a cover from there on. -/
theorem cover_cons_iff (hc : c.LiesIn text) :
    Cover text c.offset (t :: ts) ↔ ∃ d, d.LiesIn text ∧ Found c t d ∧
      if t.kind.closesTag = true then ts = [] else Cover text d.offset ts := by
  constructor
  · rintro ⟨hends, ⟨hlo, hle, hrest⟩, hgaps, hfits⟩
    obtain ⟨hgap, hgaps⟩ := List.forall_mem_cons.1 hgaps
    obtain ⟨ht, hfits⟩ := List.forall_mem_cons.1 hfits
    obtain ⟨d, hd, hoffset, hfound⟩ := ht.exists_found hc hlo hgap
    rw [endsTag_cons_iff] at hends
    refine ⟨d, hd, hfound, ?_⟩
    split at hends
    · rename_i hcloses
      rwa [if_pos hcloses]
    · rename_i hcloses
      rw [if_neg hcloses, hoffset]
      exact ⟨hends, hrest, hgaps, hfits⟩
  · rintro ⟨d, hd, hfound, hmore⟩
    obtain ⟨hlo, hle, hstop⟩ := hfound.bounds
    have hfits := hfound.fits hc
    have hgap := hfound.gap hc
    split at hmore
    · rename_i hcloses
      subst hmore
      refine ⟨endsTag_cons_iff.2 (by rw [if_pos hcloses]), ⟨hlo, hle, ?_⟩, ?_, ?_⟩
      · show t.span.stop ≤ byteLength text
        rw [hstop]
        exact hd.offset_le
      · exact List.forall_mem_cons.2 ⟨hgap, by simp [Span.gaps]⟩
      · exact List.forall_mem_cons.2 ⟨hfits, by simp⟩
    · rename_i hcloses
      rw [← hstop] at hmore
      refine ⟨endsTag_cons_iff.2 (by rw [if_neg hcloses]; exact hmore.ends),
        ⟨hlo, hle, hmore.inOrder⟩, ?_, ?_⟩
      · exact List.forall_mem_cons.2 ⟨hgap, hmore.gaps⟩
      · exact List.forall_mem_cons.2 ⟨hfits, hmore.fits⟩

/-! ### All tokens -/

theorem Lexed.cover (h : Lexed c ts d) (hc : c.LiesIn text) : Cover text c.offset ts := by
  induction h with
  | last found closes =>
    obtain ⟨w, hw⟩ := found.reads
    exact (cover_cons_iff hc).2 ⟨_, hc.reads hw, found, by rw [if_pos closes]⟩
  | more found goesOn _ ih =>
    obtain ⟨w, hw⟩ := found.reads
    refine (cover_cons_iff hc).2 ⟨_, hc.reads hw, found, ?_⟩
    rw [if_neg (by simp [goesOn])]
    exact ih (hc.reads hw)

theorem Cover.exists_lexed (h : Cover text c.offset ts) (hc : c.LiesIn text) :
    ∃ d, Lexed c ts d := by
  induction ts generalizing c with
  | nil =>
    obtain ⟨earlier, last, heq, -⟩ := h.ends
    simp at heq
  | cons t ts ih =>
    obtain ⟨d, hd, hfound, hmore⟩ := (cover_cons_iff hc).1 h
    split at hmore
    · rename_i hcloses
      subst hmore
      exact ⟨d, .last hfound hcloses⟩
    · rename_i hcloses
      obtain ⟨e, he⟩ := ih hmore hd
      exact ⟨e, .more hfound (by simpa using hcloses) he⟩

/-- A byte offset that cuts no character is a place of the text. -/
theorem liesIn_of_at? {source : String} {offset : Nat} (h : Cursor.at? source offset = some c) :
    c.LiesIn source.toList ∧ c.offset = offset := by
  obtain ⟨⟨before, after⟩, hsplit, rfl⟩ := Option.map_eq_some_iff.1 h
  obtain ⟨htext, hlen⟩ := eq_append_of_splitAtByte? hsplit
  exact ⟨⟨before, htext, by simp [hlen]⟩, rfl⟩

/-- The tokens read at an offset of the source cover it from there on, and are the only ones that
do. -/
theorem ofTag_eq_iff_cover {source : String} {offset : Nat}
    (h : Cursor.at? source offset = some c) (ts : List Token) :
    (ofTag c).1 = ts ↔ Cover source.toList offset ts := by
  obtain ⟨hc, rfl⟩ := liesIn_of_at? h
  constructor
  · rintro rfl
    exact (lexed_ofTag c).cover hc
  · intro hcover
    obtain ⟨d, hlexed⟩ := hcover.exists_lexed hc
    rw [hlexed.ofTag_eq]

/-- Behind a name, a quoted `>` and a lone `/` the source is cut off inside quotes. -/
theorem ofTag_eq_iff_cover_cutOff :
    Cursor.at? "é a='>'/ <\"b>" 2 = some ⟨2, " a='>'/ <\"b>".toList⟩ ∧
      Cover "é a='>'/ <\"b>".toList 2
        [⟨.name, ⟨3, 4⟩, "a"⟩, ⟨.equals, ⟨4, 5⟩, "="⟩, ⟨.singleQuoted, ⟨5, 8⟩, "'>'"⟩,
          ⟨.slash, ⟨8, 9⟩, "/"⟩, ⟨.invalid, ⟨10, 11⟩, "<"⟩, ⟨.invalid, ⟨11, 14⟩, "\"b>"⟩,
          ⟨.endOfSource, ⟨14, 14⟩, ""⟩] := by
  have hat : Cursor.at? "é a='>'/ <\"b>" 2 = some ⟨2, " a='>'/ <\"b>".toList⟩ := by decide
  exact ⟨hat, (ofTag_eq_iff_cover hat _).1 (by decide +kernel)⟩

end CosmeticLint.Markup.Token
