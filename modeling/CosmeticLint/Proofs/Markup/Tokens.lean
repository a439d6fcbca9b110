import CosmeticLint.Markup.Token
import CosmeticLint.Proofs.Text.Place

/-! What the tokens of a tag are, apart from how they are found. A kind says which texts
it spells and what may follow them; a token is found behind blanks; the tokens of a tag
are found one after the other up to the first that closes the tag. These relations hold
of exactly what `measure`, `next` and `ofTag` return. -/

namespace CosmeticLint.Markup.Token

/-- The texts of a kind, given what follows them in the source. -/
def Kind.Spells : Kind → (word rest : List Char) → Prop
  | .close, w, _ => w = ['>']
  | .selfClose, w, _ => w = ['/', '>']
  | .slash, w, rest => w = ['/'] ∧ rest.head? ≠ some '>'
  | .equals, w, _ => w = ['=']
  | .doubleQuoted, w, _ => ∃ body, '"' ∉ body ∧ w = '"' :: (body ++ ['"'])
  | .singleQuoted, w, _ => ∃ body, '\'' ∉ body ∧ w = '\'' :: (body ++ ['\''])
  | .name, w, rest => w ≠ [] ∧ (∀ c ∈ w, isNameChar c = true) ∧
      ∀ c, rest.head? = some c → isNameChar c = false
  | .endOfSource, w, rest => w = [] ∧ rest = []
  | .invalid, w, rest => w = ['<'] ∨
      ∃ quote body, (quote = '"' ∨ quote = '\'') ∧ quote ∉ body ∧ w = quote :: body ∧ rest = []

/-! ### One token -/

theorem measureQuoted_append {kind : Kind} {quote : Char} {body : List Char} (hb : quote ∉ body)
    (rest : List Char) :
    measureQuoted kind quote (body ++ quote :: rest) = (kind, body.length + 2) := by
  rw [measureQuoted, takeWhile_ne_append hb, if_pos (by simp)]

theorem measureQuoted_unended {kind : Kind} {quote : Char} {body : List Char} (hb : quote ∉ body) :
    measureQuoted kind quote body = (.invalid, body.length + 1) := by
  rw [measureQuoted, takeWhile_ne_eq_self hb, if_neg (by omega)]

/-- A quoted value ends at the next quote; a quote that never recurs makes all that is left
one invalid token. -/
theorem measureQuoted_spells {kind : Kind} {quote : Char} (rest : List Char)
    (hkind : ∀ body after, quote ∉ body → kind.Spells (quote :: (body ++ [quote])) after)
    (hquote : quote = '"' ∨ quote = '\'') :
    ∃ w after, quote :: rest = w ++ after ∧ w.length = (measureQuoted kind quote rest).2 ∧
      (measureQuoted kind quote rest).1.Spells w after := by
  by_cases hq : quote ∈ rest
  · obtain ⟨body, after, rfl, hb⟩ := List.eq_append_cons_of_mem hq
    rw [measureQuoted_append hb]
    exact ⟨quote :: (body ++ [quote]), after, by simp, by simp, hkind body after hb⟩
  · rw [measureQuoted_unended hq]
    exact ⟨quote :: rest, [], by simp, by simp, Or.inr ⟨quote, rest, hquote, hq, rfl, rfl⟩⟩

theorem isNameChar_of_ne {c : Char} (hb : isBlank c = false) (hgt : c ≠ '>') (hsl : c ≠ '/')
    (heq : c ≠ '=') (hlt : c ≠ '<') (hd : c ≠ '"') (hs : c ≠ '\'') : isNameChar c = true := by
  simp [isNameChar, hb, hgt, hsl, heq, hlt, hd, hs]

/-- The characters measured at a place that is not blank spell their kind. -/
theorem measure_spells {text : List Char} (hblank : ∀ c, text.head? = some c → isBlank c = false) :
    ∃ w rest, text = w ++ rest ∧ w.length = (measure text).2 ∧ (measure text).1.Spells w rest := by
  unfold measure
  split
  · exact ⟨[], [], rfl, rfl, rfl, rfl⟩
  · rename_i rest
    exact ⟨['/', '>'], rest, rfl, rfl, rfl⟩
  · rename_i c rest hself
    have hc := hblank c rfl
    split
    · rename_i h
      exact ⟨[c], rest, rfl, rfl, by rw [h]; rfl⟩
    split
    · rename_i h
      refine ⟨[c], rest, rfl, rfl, by rw [h], ?_⟩
      intro hhead
      obtain ⟨tail, rfl⟩ := List.head?_eq_some_iff.1 hhead
      exact hself tail h rfl
    split
    · rename_i h
      exact ⟨[c], rest, rfl, rfl, by rw [h]; rfl⟩
    split
    · rename_i h
      exact ⟨[c], rest, rfl, rfl, Or.inl (by rw [h])⟩
    split
    · rename_i h
      subst h
      exact measureQuoted_spells rest (fun body _ hb => ⟨body, hb, rfl⟩) (Or.inl rfl)
    split
    · rename_i h
      subst h
      exact measureQuoted_spells rest (fun body _ hb => ⟨body, hb, rfl⟩) (Or.inr rfl)
    · refine ⟨c :: rest.takeWhile isNameChar, rest.dropWhile isNameChar, by simp,
        by simp [Nat.add_comm], by simp, ?_, ?_⟩
      · intro d hd
        rcases List.mem_cons.1 hd with rfl | hd
        · apply isNameChar_of_ne hc <;> assumption
        · exact List.mem_takeWhile_imp hd
      · intro d hd
        exact head?_dropWhile_eq_false hd

/-- A text that spells a kind is measured as that kind, whatever it is followed by. -/
theorem measure_append {kind : Kind} {w rest : List Char} (h : kind.Spells w rest) :
    measure (w ++ rest) = (kind, w.length) := by
  cases kind with
  | close => cases h; rfl
  | selfClose => cases h; rfl
  | equals => cases h; rfl
  | slash =>
    obtain ⟨rfl, hrest⟩ := h
    cases rest with
    | nil => rfl
    | cons d rest =>
      have hd : d ≠ '>' := by
        rintro rfl
        exact hrest rfl
      rw [List.singleton_append, measure.eq_3 _ _ (by rintro tail - h; cases h; exact hd rfl)]
      rfl
  | endOfSource => obtain ⟨rfl, rfl⟩ := h; rfl
  | doubleQuoted =>
    obtain ⟨body, hb, rfl⟩ := h
    have hm : measure ('"' :: (body ++ '"' :: rest)) = _ := measureQuoted_append hb rest
    simpa using hm
  | singleQuoted =>
    obtain ⟨body, hb, rfl⟩ := h
    have hm : measure ('\'' :: (body ++ '\'' :: rest)) = _ := measureQuoted_append hb rest
    simpa using hm
  | name =>
    obtain ⟨hne, hw, hrest⟩ := h
    obtain ⟨c, cs, rfl⟩ := List.exists_cons_of_ne_nil hne
    have hc := hw c (by simp)
    have hcs : ∀ d ∈ cs, isNameChar d = true := fun d hd => hw d (by simp [hd])
    simp only [isNameChar, Bool.not_eq_true', Bool.or_eq_false_iff, beq_eq_false_iff_ne] at hc
    obtain ⟨⟨⟨⟨⟨⟨-, hd⟩, hs⟩, hlt⟩, hgt⟩, heq⟩, hsl⟩ := hc
    rw [List.cons_append, measure.eq_3 _ _ (fun _ h _ => hsl h), if_neg hgt, if_neg hsl, if_neg heq,
      if_neg hlt, if_neg hd, if_neg hs, takeWhile_append_stop hcs hrest, List.length_cons,
      Nat.add_comm]
  | invalid =>
    rcases h with rfl | ⟨quote, body, rfl | rfl, hb, rfl, rfl⟩
    · rfl
    · rw [List.append_nil]
      exact measureQuoted_unended hb
    · rw [List.append_nil]
      exact measureQuoted_unended hb

theorem Kind.Spells.head_not_blank {kind : Kind} {w rest : List Char} (h : kind.Spells w rest)
    {c : Char} (hc : (w ++ rest).head? = some c) : isBlank c = false := by
  cases kind with
  | close => cases h; cases hc; rfl
  | selfClose => cases h; cases hc; rfl
  | slash => obtain ⟨rfl, -⟩ := h; cases hc; rfl
  | equals => cases h; cases hc; rfl
  | doubleQuoted => obtain ⟨body, -, rfl⟩ := h; cases hc; rfl
  | singleQuoted => obtain ⟨body, -, rfl⟩ := h; cases hc; rfl
  | name =>
    obtain ⟨hne, hw, -⟩ := h
    obtain ⟨d, ds, rfl⟩ := List.exists_cons_of_ne_nil hne
    cases hc
    have hd := hw c (by simp)
    simp only [isNameChar, Bool.not_eq_true', Bool.or_eq_false_iff] at hd
    exact hd.1.1.1.1.1.1
  | endOfSource => obtain ⟨rfl, rfl⟩ := h; cases hc
  | invalid =>
    rcases h with rfl | ⟨quote, body, rfl | rfl, -, rfl, -⟩
    · cases hc; rfl
    · cases hc; rfl
    · cases hc; rfl

/-- The token `t` stands behind blanks at `c`, and `d` is the place after it. -/
def Found (c : Cursor) (t : Token) (d : Cursor) : Prop :=
  ∃ blanks start, c.Reads blanks start ∧ (∀ x ∈ blanks, isBlank x = true) ∧
    start.Reads t.text.toList d ∧ t.span = start.spanTo d ∧ t.kind.Spells t.text.toList d.rest

/-- The next token is the one that stands at the place. -/
theorem next_eq_iff {c d : Cursor} {t : Token} : next c = (t, d) ↔ Found c t d := by
  constructor
  · intro h
    have hr := c.reads_skipWhile isBlank
    have hblank : ∀ x, (c.skipWhile isBlank).rest.head? = some x → isBlank x = false := by
      intro x hx
      rw [Cursor.rest_skipWhile] at hx
      exact head?_dropWhile_eq_false hx
    obtain ⟨w, rest, htext, hlen, hspell⟩ := measure_spells hblank
    have hw := Cursor.reads_of_rest_eq htext
    rw [next, ← hlen, hw.skip_eq, hw.peek_eq] at h
    cases h
    refine ⟨_, _, hr, fun x hx => List.mem_takeWhile_imp hx, ?_, rfl, ?_⟩
    · simpa using hw
    · simpa using hspell
  · rintro ⟨blanks, start, hr, hb, hw, hspan, hspell⟩
    have hstart : c.skipWhile isBlank = start := by
      apply hr.skipWhile_eq hb
      intro x hx
      rw [hw.1] at hx
      exact hspell.head_not_blank hx
    have hm : measure start.rest = (t.kind, t.text.toList.length) := by
      rw [hw.1]
      exact measure_append hspell
    rw [next, hstart, hm]
    simp only [hw.skip_eq, hw.peek_eq, ← hspan, String.ofList_toList]

theorem found_next (c : Cursor) : Found c (next c).1 (next c).2 := next_eq_iff.1 rfl

/-! ### The tokens of a tag -/

/-- The tokens of a tag from `c` on: each stands behind the one before it, the last closes
the tag and no other does. `d` is the place after the last. -/
inductive Lexed : Cursor → List Token → Cursor → Prop
  | last {c t d} (found : Found c t d) (closes : t.kind.closesTag = true) : Lexed c [t] d
  | more {c t d ts e} (found : Found c t d) (goesOn : t.kind.closesTag = false)
      (rest : Lexed d ts e) : Lexed c (t :: ts) e

theorem lexed_ofTag (c : Cursor) : Lexed c (ofTag c).1 (ofTag c).2 := by
  fun_induction ofTag c with
  | case1 c t h => exact .last (found_next c) h
  | case2 c t h more ih => exact .more (found_next c) (by simpa using h) ih

theorem Lexed.ofTag_eq {c d : Cursor} {ts : List Token} (h : Lexed c ts d) : ofTag c = (ts, d) := by
  induction h with
  | last found closes => rw [ofTag, next_eq_iff.2 found, dif_pos closes]
  | more found goesOn _ ih =>
    rw [ofTag, next_eq_iff.2 found, dif_neg (by simp [goesOn])]
    simp only [ih]

/-! ### Tokens in the text -/

/-- The token's span slices the text to the token, which spells its kind. -/
structure Stands (text : List Char) (t : Token) : Prop where
  slice : t.span.slice? text = some t.text.toList
  spells : ∃ rest, t.kind.Spells t.text.toList rest

theorem Found.stands {text : List Char} {c d : Cursor} {t : Token} (h : Found c t d)
    (hc : c.LiesIn text) : t.Stands text := by
  obtain ⟨blanks, start, hr, -, hw, hspan, hspell⟩ := h
  refine ⟨?_, _, hspell⟩
  rw [hspan]
  exact (hc.reads hr).slice? hw

theorem Found.reads {c d : Cursor} {t : Token} (h : Found c t d) : ∃ w, c.Reads w d := by
  obtain ⟨blanks, start, hr, -, hw, -, -⟩ := h
  exact ⟨_, hr.trans hw⟩

theorem Found.bounds {c d : Cursor} {t : Token} (h : Found c t d) :
    c.offset ≤ t.span.start ∧ t.span.start ≤ t.span.stop ∧ t.span.stop = d.offset := by
  obtain ⟨blanks, start, hr, -, hw, hspan, -⟩ := h
  rw [hspan]
  exact ⟨hr.offset_le, hw.offset_le, rfl⟩

theorem Lexed.reads {c d : Cursor} {ts : List Token} (h : Lexed c ts d) : ∃ w, c.Reads w d := by
  induction h with
  | last found _ => exact found.reads
  | more found _ _ ih =>
    obtain ⟨v, hv⟩ := found.reads
    obtain ⟨w, hw⟩ := ih
    exact ⟨_, hv.trans hw⟩

theorem Lexed.stands {text : List Char} {c d : Cursor} {ts : List Token} (h : Lexed c ts d)
    (hc : c.LiesIn text) : ∀ t ∈ ts, t.Stands text := by
  induction h with
  | last found _ =>
    intro t ht
    rw [List.mem_singleton.1 ht]
    exact found.stands hc
  | more found _ _ ih =>
    intro t ht
    rcases List.mem_cons.1 ht with rfl | ht
    · exact found.stands hc
    · obtain ⟨w, hw⟩ := found.reads
      exact ih (hc.reads hw) t ht

theorem Lexed.inOrder {c d : Cursor} {ts : List Token} (h : Lexed c ts d) :
    Span.InOrder c.offset d.offset (ts.map (·.span)) := by
  induction h with
  | last found _ =>
    obtain ⟨hlo, hle, hstop⟩ := found.bounds
    exact ⟨hlo, hle, Nat.le_of_eq hstop⟩
  | more found _ _ ih =>
    obtain ⟨hlo, hle, hstop⟩ := found.bounds
    exact ⟨hlo, hle, hstop ▸ ih⟩

/-- Behind the end of the source there is nothing. -/
theorem Lexed.rest_eq_nil {c d : Cursor} {ts : List Token} (h : Lexed c ts d) {t : Token}
    (ht : t ∈ ts) (hkind : t.kind = .endOfSource) : d.rest = [] := by
  induction h with
  | last found _ =>
    obtain ⟨blanks, start, -, -, -, -, hspell⟩ := found
    rw [← List.mem_singleton.1 ht, hkind] at hspell
    exact hspell.2
  | more _ goesOn _ ih =>
    rcases List.mem_cons.1 ht with rfl | ht
    · rw [hkind] at goesOn
      cases goesOn
    · exact ih ht

section OneToken

variable {text : List Char} {c d : Cursor} {t : Token} {ts : List Token}

theorem Lexed.of_closes (h : Lexed c (t :: ts) d) (hkind : t.kind.closesTag = true) :
    ts = [] ∧ Found c t d := by
  cases h with
  | last found _ => exact ⟨rfl, found⟩
  | more _ goesOn _ =>
    rw [hkind] at goesOn
    cases goesOn

/-- A token that does not close the tag has another behind it. -/
theorem Lexed.tail (h : Lexed c (t :: ts) d) (hc : c.LiesIn text)
    (hkind : t.kind.closesTag = false) :
    ∃ e, e.LiesIn text ∧ Lexed e ts d ∧ ∃ t' ts', ts = t' :: ts' := by
  cases h with
  | last _ closes =>
    rw [hkind] at closes
    cases closes
  | more found _ rest =>
    obtain ⟨w, hw⟩ := found.reads
    refine ⟨_, hc.reads hw, rest, ?_⟩
    cases rest with
    | last _ _ => exact ⟨_, _, rfl⟩
    | more _ _ _ => exact ⟨_, _, rfl⟩

end OneToken

end CosmeticLint.Markup.Token
