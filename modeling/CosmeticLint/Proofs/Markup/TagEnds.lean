import CosmeticLint.Proofs.Markup.StartTags
import CosmeticLint.Proofs.Markup.TokenCover
import CosmeticLint.Proofs.Text.Bytes

/-! Where a start tag ends. A scan that looks at one character at a time and knows only whether it
is inside quotes stops at the first `>` outside them. The tokens of the tag, each as long as its
kind allows, end at the same place: no token but the last hides a `>` outside quotes, and a quote
that never recurs hides all that follows it from both. -/

namespace CosmeticLint.Markup

/-! ### The scan -/

/-- Where the scan stands: outside quotes, or inside quotes of one kind. -/
inductive QuoteState
  | outside
  | inside (quote : Quote)
  deriving Repr, DecidableEq

namespace QuoteState

/-- A quote outside opens, and the same quote closes. -/
def next : QuoteState → Char → QuoteState
  | outside, x => if x = '"' then inside .double else if x = '\'' then inside .single else outside
  | inside quote, x => if x = quote.char then outside else inside quote

/-- How many bytes stand in front of the first `>` that the scan meets outside quotes. -/
def firstClose : QuoteState → List Char → Option Nat
  | _, [] => none
  | s, x :: xs =>
    if s = outside ∧ x = '>' then some 0 else ((s.next x).firstClose xs).map (x.utf8Size + ·)

theorem map_add_map_add (place : Option Nat) (m n : Nat) :
    (place.map (n + ·)).map (m + ·) = place.map (m + n + ·) := by
  cases place with
  | none => rfl
  | some k => simp [Nat.add_assoc]

/-- From outside quotes the scan passes over the text, wherever it stands, and is outside again. -/
def Passes (w : List Char) : Prop :=
  ∀ rest, outside.firstClose (w ++ rest) = (outside.firstClose rest).map (byteLength w + ·)

theorem passes_nil : Passes [] := by
  intro rest
  simp

theorem Passes.append {v w : List Char} (hv : Passes v) (hw : Passes w) : Passes (v ++ w) := by
  intro rest
  rw [List.append_assoc, hv, hw, map_add_map_add, byteLength_append]

/-- The characters that mean something to the scan. -/
def IsMark (x : Char) : Prop := x = '>' ∨ x = '"' ∨ x = '\''

theorem passes_of_forall {w : List Char} (hw : ∀ x ∈ w, ¬ IsMark x) : Passes w := by
  induction w with
  | nil => exact passes_nil
  | cons x w ih =>
    intro rest
    have hx : ¬ IsMark x := hw x (by simp)
    simp only [IsMark, not_or] at hx
    have hnext : outside.next x = outside := by simp [next, hx]
    rw [List.cons_append, firstClose, if_neg (by simp [hx]), hnext,
      ih (fun y hy => hw y (by simp [hy])), map_add_map_add, byteLength_cons]

section Inside

variable {quote : Quote} {body : List Char}

theorem next_char (quote : Quote) : outside.next quote.char = inside quote := by
  cases quote <;> rfl

theorem char_ne_gt (quote : Quote) : quote.char ≠ '>' := by
  cases quote <;> decide

theorem next_inside {x : Char} (hx : x ≠ quote.char) :
    (inside quote).next x = inside quote := by
  simp [next, hx]

theorem firstClose_inside_append (hb : quote.char ∉ body) (rest : List Char) :
    (inside quote).firstClose (body ++ quote.char :: rest) =
      (outside.firstClose rest).map (byteLength body + quote.char.utf8Size + ·) := by
  induction body with
  | nil => simp [firstClose, next]
  | cons x body ih =>
    rw [List.mem_cons, not_or] at hb
    rw [List.cons_append, firstClose, if_neg (by simp), next_inside (Ne.symm hb.1), ih hb.2,
      map_add_map_add, byteLength_cons, Nat.add_assoc]

theorem firstClose_inside_eq_none (hb : quote.char ∉ body) :
    (inside quote).firstClose body = none := by
  induction body with
  | nil => rfl
  | cons x body ih =>
    rw [List.mem_cons, not_or] at hb
    rw [firstClose, if_neg (by simp), next_inside (Ne.symm hb.1), ih hb.2, Option.map_none]

theorem passes_quoted (quote : Quote) (hb : quote.char ∉ body) :
    Passes (quote.char :: (body ++ [quote.char])) := by
  intro rest
  rw [List.cons_append, firstClose, if_neg (by simp [char_ne_gt]), next_char, List.append_assoc,
    List.singleton_append, firstClose_inside_append hb, map_add_map_add]
  simp

/-- A quote that never recurs hides all that follows it. -/
theorem firstClose_unended (quote : Quote) (hb : quote.char ∉ body) :
    outside.firstClose (quote.char :: body) = none := by
  rw [firstClose, if_neg (by simp [char_ne_gt]), next_char, firstClose_inside_eq_none hb,
    Option.map_none]

end Inside

theorem not_isMark_of_isNameChar {x : Char} (h : isNameChar x = true) : ¬ IsMark x := by
  rintro (rfl | rfl | rfl) <;> cases h

theorem not_isMark_of_isBlank {x : Char} (h : isBlank x = true) : ¬ IsMark x := by
  rintro (rfl | rfl | rfl) <;> cases h

end QuoteState

open QuoteState

namespace Token

/-! ### One token against the scan -/

section Spells

variable {kind : Kind} {w rest : List Char}

/-- The scan passes over a token that does not close its tag, or the token runs from a quote to
the end of the source. -/
theorem Kind.Spells.passes (h : kind.Spells w rest) (hgoesOn : kind.closesTag = false) :
    Passes w ∨ rest = [] ∧ outside.firstClose w = none := by
  cases kind with
  | close => cases hgoesOn
  | selfClose => cases hgoesOn
  | endOfSource => cases hgoesOn
  | slash =>
    obtain ⟨rfl, -⟩ := h
    exact .inl (passes_of_forall (by simp [IsMark]))
  | equals =>
    cases h
    exact .inl (passes_of_forall (by simp [IsMark]))
  | doubleQuoted =>
    obtain ⟨body, hb, rfl⟩ := h
    exact .inl (passes_quoted .double hb)
  | singleQuoted =>
    obtain ⟨body, hb, rfl⟩ := h
    exact .inl (passes_quoted .single hb)
  | name =>
    obtain ⟨-, hw, -⟩ := h
    exact .inl (passes_of_forall fun x hx => not_isMark_of_isNameChar (hw x hx))
  | invalid =>
    rcases h with rfl | ⟨quote, body, rfl | rfl, hb, rfl, rfl⟩
    · exact .inl (passes_of_forall (by simp [IsMark]))
    · exact .inr ⟨rfl, firstClose_unended .double hb⟩
    · exact .inr ⟨rfl, firstClose_unended .single hb⟩

/-- In front of a `>` no token but one that closes the tag ends with a slash. -/
theorem Kind.Spells.getLast?_ne (h : kind.Spells w rest) (hgoesOn : kind.closesTag = false)
    (hrest : rest.head? = some '>') : ∃ x, w.getLast? = some x ∧ x ≠ '/' := by
  cases kind with
  | close => cases hgoesOn
  | selfClose => cases hgoesOn
  | endOfSource => cases hgoesOn
  | slash => exact absurd hrest h.2
  | equals =>
    cases h
    exact ⟨'=', rfl, by decide⟩
  | doubleQuoted =>
    obtain ⟨body, -, rfl⟩ := h
    exact ⟨'"', List.getLast?_concat (l := '"' :: body), by decide⟩
  | singleQuoted =>
    obtain ⟨body, -, rfl⟩ := h
    exact ⟨'\'', List.getLast?_concat (l := '\'' :: body), by decide⟩
  | name =>
    obtain ⟨hne, hw, -⟩ := h
    refine ⟨w.getLast hne, List.getLast?_eq_some_getLast hne, ?_⟩
    intro hslash
    have hchar := hw _ (List.getLast_mem hne)
    rw [hslash] at hchar
    cases hchar
  | invalid =>
    rcases h with rfl | ⟨quote, body, -, -, -, rfl⟩
    · exact ⟨'<', rfl, by decide⟩
    · cases hrest

end Spells

/-! ### All tokens against the scan -/

theorem Kind.closesTag_cases {kind : Kind} (h : kind.closesTag = true) :
    kind = .close ∨ kind = .selfClose ∨ kind = .endOfSource := by
  cases kind <;> simp_all [closesTag]

section Lexed

variable {c d : Cursor} {t : Token} {ts : List Token}

/-- The scan from `c` meets its first `>` outside quotes behind `w`, right in front of `d`. -/
structure ClosedBehind (c : Cursor) (w : List Char) (d : Cursor) : Prop where
  passes : Passes w
  reads : c.Reads (w ++ ['>']) d

theorem ClosedBehind.firstClose_eq {w : List Char} (h : ClosedBehind c w d) :
    outside.firstClose c.rest = some (byteLength w) := by
  rw [h.reads.1, List.append_assoc, h.passes]
  simp [firstClose]

/-- The last token of a tag and what the scan says: the token closes the tag where the scan stops,
with a slash if one stands right in front, or is the end of the source and the scan never stops. -/
def AgreesWith (last : Token) (c d : Cursor) : Prop :=
  (∃ w, ClosedBehind c w d ∧ last.kind ≠ .endOfSource ∧
      (last.kind = .selfClose ↔ w.getLast? = some '/')) ∨
    last.kind = .endOfSource ∧ outside.firstClose c.rest = none ∧ d.rest = []

theorem Found.agreesWith (h : Found c t d) (hcloses : t.kind.closesTag = true) :
    t.AgreesWith c d := by
  obtain ⟨blanks, start, hr, hblank, hw, -, hspell⟩ := h
  have hpasses : Passes blanks := passes_of_forall fun x hx => not_isMark_of_isBlank (hblank x hx)
  rcases Kind.closesTag_cases hcloses with hkind | hkind | hkind
  · rw [hkind] at hspell
    have hword : t.text.toList = ['>'] := hspell
    rw [hword] at hw
    refine .inl ⟨blanks, ⟨hpasses, hr.trans hw⟩, by simp [hkind], ?_⟩
    have hslash : blanks.getLast? ≠ some '/' := by
      intro hlast
      have hblankSlash := hblank '/' (List.mem_of_getLast? hlast)
      cases hblankSlash
    simp [hkind, hslash]
  · rw [hkind] at hspell
    have hword : t.text.toList = ['/'] ++ ['>'] := hspell
    have hslash : Passes ['/'] := passes_of_forall (by simp [IsMark])
    rw [hword] at hw
    refine .inl ⟨blanks ++ ['/'], ⟨hpasses.append hslash, ?_⟩, by simp [hkind], by simp [hkind]⟩
    rw [List.append_assoc]
    exact hr.trans hw
  · rw [hkind] at hspell
    obtain ⟨hword, hrest⟩ := hspell
    refine .inr ⟨hkind, ?_, hrest⟩
    rw [hr.1, hw.1, hword, hrest, hpasses]
    rfl

/-- What holds behind a token that does not close the tag holds in front of it. -/
theorem Found.agreesWith_behind {e : Cursor} {last : Token} (h : Found c t d)
    (hgoesOn : t.kind.closesTag = false) (hlast : last.AgreesWith d e) : last.AgreesWith c e := by
  obtain ⟨blanks, start, hr, hblank, hw, -, hspell⟩ := h
  have hblanks : Passes blanks := passes_of_forall fun x hx => not_isMark_of_isBlank (hblank x hx)
  rcases hspell.passes hgoesOn with hpasses | ⟨hrest, hnone⟩
  · have hall : Passes (blanks ++ t.text.toList) := hblanks.append hpasses
    have hreads := hr.trans hw
    rcases hlast with ⟨w, hclosed, hkind, hslash⟩ | ⟨hkind, hnone, hrest⟩
    · refine .inl ⟨blanks ++ t.text.toList ++ w, ⟨hall.append hclosed.passes, ?_⟩, hkind, ?_⟩
      · rw [List.append_assoc]
        exact hreads.trans hclosed.reads
      · rw [hslash]
        rcases List.eq_nil_or_concat w with rfl | ⟨init, x, rfl⟩
        · -- Right in front of the `>` stands this token, which does not end with a slash.
          have hhead : d.rest.head? = some '>' := by
            rw [hclosed.reads.1]
            rfl
          obtain ⟨x, hx, hne⟩ := hspell.getLast?_ne hgoesOn hhead
          simp [List.getLast?_append, hx, hne]
        · simp [List.getLast?_append]
    · refine .inr ⟨hkind, ?_, hrest⟩
      rw [hreads.1, hall, hnone, Option.map_none]
  · -- Nothing is left behind the token, so the scan stays inside its quotes.
    have hscan : outside.firstClose c.rest = none := by
      rw [hr.1, hw.1, hrest, List.append_nil, hblanks, hnone, Option.map_none]
    rcases hlast with ⟨w, hclosed, -, -⟩ | ⟨hkind, -, hend⟩
    · have hread := hclosed.reads.1
      simp [hrest] at hread
    · exact .inr ⟨hkind, hscan, hend⟩

theorem Lexed.exists_agreesWith (h : Lexed c ts d) :
    ∃ last, ts.getLast? = some last ∧ last.AgreesWith c d := by
  induction h with
  | last found closes => exact ⟨_, rfl, found.agreesWith closes⟩
  | more found goesOn _ ih =>
    obtain ⟨last, hlast, hagrees⟩ := ih
    exact ⟨last, by simp [List.getLast?_cons, hlast], found.agreesWith_behind goesOn hagrees⟩

end Lexed

theorem EndsTag.tail {t : Token} {ts : List Token} (h : EndsTag (t :: ts))
    (hgoesOn : t.kind.closesTag = false) : EndsTag ts ∧ (t :: ts).getLast? = ts.getLast? := by
  rw [endsTag_cons_iff, if_neg (by simp [hgoesOn])] at h
  obtain ⟨earlier, last, rfl, hlast⟩ := h
  refine ⟨⟨earlier, last, rfl, hlast⟩, ?_⟩
  rw [← List.cons_append, List.getLast?_concat, List.getLast?_concat]

end Token

/-! ### What is reported -/

/-- Whether the problem reports an unclosed tag of any name. -/
def Problem.isUnclosedTag (p : Problem) : Bool :=
  match p.kind with
  | .unclosedTag _ => true
  | _ => false

theorem AttributeValue.goesOn_of_ofToken? {v : Token} {value : AttributeValue}
    (h : ofToken? v = some value) : v.kind.closesTag = false := by
  unfold ofToken? at h
  split at h
  · rename_i hkind; rw [hkind]; rfl
  · rename_i hkind; rw [hkind]; rfl
  · rename_i hkind; rw [hkind]; rfl
  · cases h

namespace StartTag

/-- A tag is reported as unclosed once, if its last token is the end of the source, or not at
all. -/
theorem Roles.filter_isUnclosedTag {unclosed : Problem} {ts : List Token} {as : List Attribute}
    {ps : List Problem} (h : Roles unclosed ts as ps) (hunclosed : unclosed.isUnclosedTag = true)
    {last : Token} (hends : Token.EndsTag ts) (hlast : ts.getLast? = some last) :
    ps.filter Problem.isUnclosedTag = if last.kind = .endOfSource then [unclosed] else [] := by
  induction h with
  | done => cases hlast
  | @close t ts kind =>
    have hcloses : t.kind.closesTag = true := by rcases kind with hk | hk <;> rw [hk] <;> rfl
    rw [Token.endsTag_cons_iff, if_pos hcloses] at hends
    subst hends
    obtain rfl : t = last := Option.some.inj hlast
    rw [if_neg]
    · rfl
    · rcases kind with hk | hk <;> simp [hk]
  | @cutOff t ts kind =>
    have hcloses : t.kind.closesTag = true := by rw [kind]; rfl
    rw [Token.endsTag_cons_iff, if_pos hcloses] at hends
    subst hends
    obtain rfl : t = last := Option.some.inj hlast
    rw [if_pos kind, List.filter_cons_of_pos hunclosed, List.filter_nil]
  | slash kind _ ih =>
    obtain ⟨hends, hsame⟩ := hends.tail (by rw [kind]; rfl)
    exact ih hends (hsame ▸ hlast)
  | misplaced kind _ ih =>
    obtain ⟨hends, hsame⟩ := hends.tail (by rcases kind with hk | hk | hk | hk <;> rw [hk] <;> rfl)
    rw [List.filter_cons_of_neg (by simp [unexpected, Problem.isUnclosedTag])]
    exact ih hends (hsame ▸ hlast)
  | bare kind _ _ ih =>
    obtain ⟨hends, hsame⟩ := hends.tail (by rw [kind]; rfl)
    exact ih hends (hsame ▸ hlast)
  | loneEquals kind equals =>
    obtain ⟨hends, -⟩ := hends.tail (by rw [kind]; rfl)
    obtain ⟨hends, -⟩ := hends.tail (by rw [equals]; rfl)
    obtain ⟨earlier, t, heq, -⟩ := hends
    simp at heq
  | value kind equals gives _ ih =>
    obtain ⟨hends, hsame⟩ := hends.tail (by rw [kind]; rfl)
    obtain ⟨hends, hsame'⟩ := hends.tail (by rw [equals]; rfl)
    obtain ⟨hends, hsame''⟩ := hends.tail (AttributeValue.goesOn_of_ofToken? gives)
    exact ih hends (by rw [← hsame'', ← hsame', ← hsame, hlast])
  | noValue kind equals _ _ ih =>
    obtain ⟨hends, hsame⟩ := hends.tail (by rw [kind]; rfl)
    obtain ⟨hends, hsame'⟩ := hends.tail (by rw [equals]; rfl)
    rw [List.filter_cons_of_neg (by simp [missingValue, Problem.isUnclosedTag])]
    exact ih hends (by rw [← hsame', ← hsame, hlast])

/-! ### Start tags -/

/-- A start tag ends with the first `>` that stands outside quotes behind its name. It is
self-closing if a `/` stands right in front of that, and is not reported as unclosed. Where there is
no such `>`, it ends with the source, is not self-closing, and is reported as unclosed once. -/
theorem read_stops_outside_quotes {source : String} {c : Cursor} (hc : c.LiesIn source.toList)
    (hlt : c.rest.head? = some '<') :
    ∃ nameEnd, c.Reads ('<' :: (read c).value.name.toList) nameEnd ∧
      match outside.firstClose nameEnd.rest with
      | some n =>
        (read c).value.span = ⟨c.offset, nameEnd.offset + n + 1⟩ ∧
          ((read c).value.selfClosing = true ↔ nameEnd.offset < nameEnd.offset + n ∧
            (bytes source.toList)[nameEnd.offset + n - 1]? = some '/'.toUInt8) ∧
          (read c).problems.filter Problem.isUnclosedTag = []
      | none =>
        (read c).value.span = ⟨c.offset, byteLength source.toList⟩ ∧
          (read c).value.selfClosing = false ∧
          (read c).problems.filter Problem.isUnclosedTag =
            [⟨.unclosedTag (read c).value.name, ⟨c.offset, byteLength source.toList⟩⟩] := by
  obtain ⟨nameEnd, tokens, h⟩ := spelled_read hlt
  have hplace := hc.reads h.name
  obtain ⟨last, hlast, hagrees⟩ := h.lexed.exists_agreesWith
  have hreported := h.roles.filter_isUnclosedTag rfl (h.lexed.cover hplace).ends hlast
  have hself := h.selfClosing
  rw [hlast, Option.any_some] at hself
  refine ⟨nameEnd, h.name, ?_⟩
  rcases hagrees with ⟨w, hclosed, hkind, hslash⟩ | ⟨hkind, hnone, hrest⟩
  · have hgt : '>'.utf8Size = 1 := rfl
    obtain ⟨before, hbefore⟩ := hplace
    have hoffset : nameEnd.offset = byteLength before := by simpa using hbefore.2
    have htext : source.toList = before ++ (w ++ ('>' :: (read c).after.rest)) := by
      have hrest := hclosed.reads.1
      rw [List.append_assoc] at hrest
      rw [← List.singleton_append, ← hrest]
      exact hbefore.1
    rw [hclosed.firstClose_eq]
    refine ⟨?_, ?_, by rw [hreported, if_neg hkind]⟩
    · rw [h.span, Cursor.spanTo, hclosed.reads.2, byteLength_append, byteLength_cons, hgt]
      rfl
    · rw [hself, beq_iff_eq, hslash, htext, hoffset,
        getLast?_eq_some_iff_byte (by decide) before w ('>' :: (read c).after.rest)]
      refine and_congr_left fun _ => ⟨fun hne => ?_, fun hlt => ?_⟩
      · have := byteLength_pos hne
        omega
      · rintro rfl
        simp at hlt
  · obtain ⟨inner, hinner⟩ := h.reads
    have hstop : (read c).after.offset = byteLength source.toList :=
      (hc.reads hinner).offset_eq_iff.2 hrest
    rw [hnone]
    refine ⟨?_, ?_, ?_⟩
    · rw [h.span, Cursor.spanTo, hstop]
    · rw [hself, hkind]
      rfl
    · rw [hreported, if_pos hkind, Cursor.spanTo, hstop]

/-- Behind a name with a quote in it stand a quoted `>`, two slashes and the `>` that ends it. -/
theorem read_stops_outside_quotes_slashed :
    Cursor.LiesIn "é<a\"b c='>'//>x>".toList ⟨2, "<a\"b c='>'//>x>".toList⟩ ∧
      (read ⟨2, "<a\"b c='>'//>x>".toList⟩).value.span = ⟨2, 15⟩ ∧
      (read ⟨2, "<a\"b c='>'//>x>".toList⟩).value.selfClosing = true ∧
      (read ⟨2, "<a\"b c='>'//>x>".toList⟩).problems.filter Problem.isUnclosedTag = [] := by
  have hplace : Cursor.LiesIn "é<a\"b c='>'//>x>".toList ⟨2, "<a\"b c='>'//>x>".toList⟩ :=
    ⟨['é'], rfl, rfl⟩
  have hname : (read ⟨2, "<a\"b c='>'//>x>".toList⟩).value.name = "a\"b" := by decide +kernel
  have hscan : outside.firstClose " c='>'//>x>".toList = some 8 := by decide
  have hbyte : (bytes "é<a\"b c='>'//>x>".toList)[6 + 8 - 1]? = some '/'.toUInt8 := by decide
  obtain ⟨nameEnd, hreads, hends⟩ := read_stops_outside_quotes hplace rfl
  rw [hname] at hreads
  obtain rfl : nameEnd = ⟨6, " c='>'//>x>".toList⟩ := hreads.unique ⟨rfl, rfl⟩
  simp only [hscan] at hends
  obtain ⟨hspan, hself, hreported⟩ := hends
  exact ⟨hplace, hspan, hself.2 ⟨by decide, hbyte⟩, hreported⟩

end StartTag

end CosmeticLint.Markup
