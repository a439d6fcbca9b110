import CosmeticLint.Proofs.Markup.FaithfulComponent
import CosmeticLint.Proofs.Markup.Offsets

/-! Reading by offsets meets no fault. At every place of a text of less than 4 GiB each of its
readers returns what the reader of the same name returns there, so every range that is sliced is
one of the text, every loop moves on, and no fault is ever met. -/

namespace CosmeticLint

/-! ### Ranges and searches -/

/-- A range is met without fault just when it slices the text. -/
theorem Markup.Offsets.slice_eq_ok_iff {text w : List Char} {s : Span} :
    Markup.Offsets.slice text s.start s.stop = .ok w ↔ s.slice? text = some w := by
  have hs : Span.mk s.start s.stop = s := rfl
  rw [Markup.Offsets.slice, hs]
  cases s.slice? text <;> simp

example : Markup.Offsets.slice "aé".toList 2 3 = .error (.range 2 3) := rfl

namespace Cursor

variable {text w : List Char} {c d : Cursor}

theorem LiesIn.slice_eq (hc : c.LiesIn text) (h : c.Reads w d) :
    Markup.Offsets.slice text c.offset d.offset = .ok w :=
  Markup.Offsets.slice_eq_ok_iff.2 (hc.slice? h)

theorem LiesIn.sliceFrom_eq (hc : c.LiesIn text) :
    Markup.Offsets.sliceFrom text c.offset = .ok c.rest := by
  rw [Markup.Offsets.sliceFrom, ← hc.byteLength_eq]
  exact hc.slice_eq c.reads_rest

theorem LiesIn.movesOn (hc : c.LiesIn text) (h : c.Reads w d) (hw : w ≠ []) :
    Markup.Offsets.MovesOn text c.offset d.offset :=
  ⟨h.offset_lt hw, (hc.reads h).offset_le⟩

theorem LiesIn.not_byteLength_le (hc : c.LiesIn text) (h : c.rest ≠ []) :
    ¬ byteLength text ≤ c.offset :=
  fun hle => h (hc.offset_eq_iff.1 (Nat.le_antisymm hc.offset_le hle))

/-- In a text of less than 4 GiB spans lose nothing. -/
theorem LiesIn.truncated_eq (hc : c.LiesIn text) (hd : d.LiesIn text)
    (hshort : byteLength text < Nat.pow 2 32) : Span.truncated c.offset d.offset = c.spanTo d := by
  rw [Span.truncated, Nat.mod_eq_of_lt (Nat.lt_of_le_of_lt hc.offset_le hshort),
    Nat.mod_eq_of_lt (Nat.lt_of_le_of_lt hd.offset_le hshort)]
  rfl

end Cursor

namespace Markup.Offsets

@[simp] theorem ok_bind {α β : Type} (a : α) (f : α → Except Fault β) :
    (Except.ok a >>= f) = f a := rfl

theorem not_beq_eq (x : Char) : (fun y : Char => !(y == x)) = fun y => decide (y ≠ x) := by
  funext y
  by_cases h : y = x <;> simp [h]

section Find

variable {p : Char → Bool} {x : Char} {w rest : List Char}

theorem beq_eq_false_of_notMem (hw : x ∉ w) : ∀ y ∈ w, (y == x) = false := by
  intro y hy
  rw [beq_eq_false_iff_ne]
  rintro rfl
  exact hw hy

theorem findChar_append (hw : ∀ y ∈ w, p y = false) (hx : p x = true) :
    findChar p (w ++ x :: rest) = some (byteLength w) := by
  have htake : (w ++ x :: rest).takeWhile (!p ·) = w := by
    refine takeWhile_append_stop (fun y hy => by simp [hw y hy]) fun y hy => ?_
    cases hy
    simp [hx]
  simp [findChar, htake]

theorem findChar_eq_none (hw : ∀ y ∈ w, p y = false) : findChar p w = none := by
  have htake : w.takeWhile (!p ·) = w :=
    List.takeWhile_eq_self_iff.2 fun y hy => by simp [hw y hy]
  simp [findChar, htake]

/-- Where the end of the text stands in for a character that is not found, the search gives the
length of the run before it. -/
theorem elim_findChar {α : Type} {a : α} {f : Nat → α} (h : a = f (byteLength rest)) :
    (findChar p rest).elim a f = f (byteLength (rest.takeWhile (!p ·))) := by
  rw [findChar]
  split
  · rfl
  · rename_i hlen
    have hall : rest.takeWhile (!p ·) = rest :=
      (List.takeWhile_prefix _).eq_of_length_le (Nat.not_lt.1 hlen)
    rw [hall, Option.elim_none, h]

end Find

variable {text : List Char} {c : Cursor}

theorem skipPast_eq (hc : c.LiesIn text) :
    skipPast text c.offset = .ok (c.skipPast '>').offset := by
  obtain ⟨w, hw, hthrough⟩ := c.reads_skipPast '>'
  have hlen := (hc.reads hw).byteLength_eq
  rw [skipPast, hc.sliceFrom_eq, ok_bind, hw.1, hw.2]
  rcases hthrough with ⟨u, hu, rfl⟩ | ⟨hnone, hrest⟩
  · rw [List.append_assoc, List.singleton_append,
      findChar_append (beq_eq_false_of_notMem hu) rfl, byteLength_append]
    rfl
  · rw [hrest, byteLength_nil, Nat.add_zero, hw.2] at hlen
    rw [hrest, List.append_nil, findChar_eq_none (beq_eq_false_of_notMem hnone), hlen]
    rfl

theorem difference_add (a b : Nat) : difference (a + b) a = .ok b := by
  rw [difference, if_pos (Nat.le_add_right a b), Nat.add_sub_cancel_left]

theorem slice_takeWhile (hc : c.LiesIn text) (p : Char → Bool) :
    slice text c.offset (c.offset + byteLength (c.rest.takeWhile p)) =
      .ok (c.rest.takeWhile p) := by
  have hr := c.reads_skipWhile p
  rw [← hr.2]
  exact hc.slice_eq hr

/-! ### Nodes without markup inside -/

/-- What is read, with the place behind it told by its offset alone. -/
def ofRead {α : Type} (r : Read α) : ReadTo α := ⟨r.value, r.problems, r.after.offset⟩

section Nodes

variable (hshort : byteLength text < Nat.pow 2 32) (hc : c.LiesIn text)

include hshort hc

theorem readComment_eq (h : ahead c.rest = .comment) :
    readComment text c.offset = .ok (ofRead (Markup.readComment c)) := by
  obtain ⟨rest, hrest⟩ := ahead_eq_comment h
  have hopen := Cursor.reads_of_rest_eq hrest
  have hskip : c.skip 4 = _ := hopen.skip_eq
  rw [← hskip] at hopen
  rw [Markup.readComment, readComment]
  generalize c.skip 4 = body at hopen
  have hbody := hc.reads hopen
  have hstart : c.offset + 4 = body.offset := hopen.2.symm
  simp only [hstart, hbody.sliceFrom_eq, ok_bind, findWord]
  cases hsearch : searchFor "-->".toList.isPrefixOf body.rest with
  | some n =>
    obtain ⟨data, tail, hrest, rfl, hend, -⟩ := exists_isFirst hsearch
    obtain ⟨after, rfl⟩ := List.isPrefixOf_iff_prefix.1 hend
    have hdata := Cursor.reads_of_rest_eq hrest
    have hclose := Cursor.reads_of_rest_eq (hrest.trans (List.append_assoc ..).symm)
    have htake : body.rest.take data.length = data := by rw [hrest, List.take_left]
    have hlen : data.length + 3 = (data ++ "-->".toList).length := by simp
    have hafter : body.offset + byteLength data + 3 =
        body.offset + byteLength (data ++ "-->".toList) := by
      rw [byteLength_append]
      rfl
    simp only [Option.map_some, htake, hbody.slice_eq hdata, ok_bind, hlen, hclose.skip_eq,
      hdata.peek_eq, hafter, hc.truncated_eq (hbody.reads hclose) hshort]
    rfl
  | none =>
    have hall := body.reads_rest
    simp only [Option.map_none, ← hbody.byteLength_eq, hbody.slice_eq hall, ok_bind, hall.skip_eq,
      hall.peek_eq, hc.truncated_eq (hbody.reads hall) hshort]
    rfl

theorem readText_eq (h : c.rest ≠ []) :
    readText text c.offset = .ok (ofRead (Markup.readText c)) := by
  obtain ⟨x, xs, hx⟩ := List.exists_cons_of_ne_nil h
  have htail : sliceFrom c.rest x.utf8Size = .ok xs := by
    have hskip := ((Cursor.LiesIn.start c.rest).skip 1).sliceFrom_eq
    simpa [Cursor.skip, hx] using hskip
  have hend : byteLength text = c.offset + x.utf8Size + byteLength xs := by
    rw [← hc.byteLength_eq, hx, byteLength_cons, Nat.add_assoc]
  have hr := c.reads_skip (1 + (c.rest.tail.takeWhile (· ≠ '<')).length)
  have hafter : c.offset + x.utf8Size + byteLength (xs.takeWhile fun y => decide (y ≠ '<')) =
      (c.skip (1 + (c.rest.tail.takeWhile (· ≠ '<')).length)).offset := by
    rw [hr.2, hx, List.tail_cons, Nat.add_comm 1, List.take_succ_cons, byteLength_cons,
      ← List.prefix_iff_eq_take.1 (List.takeWhile_prefix _), Nat.add_assoc]
  have hhead : c.rest.head?.elim 1 Char.utf8Size = x.utf8Size := by rw [hx]; rfl
  rw [readText, Markup.readText]
  simp only [hc.sliceFrom_eq, ok_bind, hhead, htail, elim_findChar hend, not_beq_eq, hafter,
    hc.slice_eq hr, hc.truncated_eq (hc.reads hr) hshort]
  rfl

/-- Content kept as written: where it stands is found by bytes and by characters alike. -/
theorem readRawContent_eq (name : String) :
    readRawContent text name c.offset = .ok ⟨(readRawText name c).value.span,
      (readRawText name c).problems, (readRawText name c).after.offset⟩ := by
  have hascii : '<'.toNat < 128 := by decide
  rw [readRawContent, hc.sliceFrom_eq, ok_bind, findIgnoringCase_eq hascii, readRawText]
  cases hsearch : searchFor (beginsIgnoringCase ('<' :: '/' :: name.toList)) c.rest with
  | some n =>
    have hstop : c.offset + byteLength (c.rest.take n) = (c.skip n).offset := rfl
    simp only [Option.map_some, hstop, skipPast_eq (hc.skip n), ok_bind,
      hc.truncated_eq (hc.skip n) hshort]
    rfl
  | none =>
    have hall := c.reads_rest
    simp only [Option.map_none, ← hc.byteLength_eq, hall.skip_eq,
      hc.truncated_eq (hc.reads hall) hshort]
    rfl

end Nodes

theorem endTagName_eq (hc : c.LiesIn text) (h : ahead c.rest = .endTag) :
    endTagName text c.offset = .ok (Markup.endTagName c) := by
  obtain ⟨rest, hrest⟩ := ahead_eq_endTag h
  have hopen := Cursor.reads_of_rest_eq hrest
  have hskip : c.skip 2 = _ := hopen.skip_eq
  have htail : sliceFrom c.rest 2 = .ok rest :=
    ((Cursor.LiesIn.start c.rest).reads (Cursor.reads_of_rest_eq hrest)).sliceFrom_eq
  have hlen : difference (byteLength c.rest) 2 = .ok (byteLength rest) := by
    rw [hrest, byteLength_append]
    exact difference_add 2 _
  have hname : slice text (c.offset + 2)
      (c.offset + 2 + byteLength (rest.takeWhile fun x => !(isBlank x || x == '>'))) = .ok _ :=
    slice_takeWhile (hc.reads hopen) _
  rw [Markup.endTagName, hskip, endTagName, hc.sliceFrom_eq]
  simp only [ok_bind, htail, elim_findChar hlen, hname]
  rfl

/-! ### Start tags -/

/-- Between its quotes a value loses one byte at each end. -/
theorem unquoted_eq {quote : Char} (hquote : quote.utf8Size = 1) {word : String} {body : List Char}
    (h : word.toList = quote :: (body ++ [quote])) :
    unquoted word.toList = .ok (withoutQuotes word) := by
  have hlen : byteLength (quote :: (body ++ [quote])) = 1 + (1 + byteLength body) := by
    simp [hquote]
    omega
  have hopen : Cursor.Reads ⟨0, quote :: (body ++ [quote])⟩ [quote] ⟨1, body ++ [quote]⟩ :=
    ⟨rfl, by simp [hquote]⟩
  have hbody : Cursor.Reads ⟨1, body ++ [quote]⟩ body ⟨1 + byteLength body, [quote]⟩ := ⟨rfl, rfl⟩
  have hslice := ((Cursor.LiesIn.start _).reads hopen).slice_eq hbody
  have hinside : withoutQuotes word = String.ofList body := by simp [withoutQuotes, h]
  rw [unquoted, h, hlen, difference_add, ok_bind]
  simp only [hslice, ok_bind, hinside]
  rfl

section StartTags

variable (hshort : byteLength text < Nat.pow 2 32)

include hshort

theorem ofToken_eq {t : Token} (h : t.Stands text) : Mark.ofToken t = ⟨t.kind, t.span⟩ := by
  have hproper := Span.Proper.of_slice? h.slice
  have hstop := Nat.lt_of_le_of_lt hproper.inside hshort
  rw [Mark.ofToken, Span.truncated, Nat.mod_eq_of_lt hstop,
    Nat.mod_eq_of_lt (Nat.lt_of_le_of_lt hproper.ordered hstop)]

theorem value?_ofToken {v : Token} (h : v.Stands text) :
    value? text (Mark.ofToken v) = .ok (AttributeValue.ofToken? v) := by
  obtain ⟨rest, hspells⟩ := h.spells
  rw [ofToken_eq hshort h, value?, Mark.text, slice_eq_ok_iff.2 h.slice, ok_bind,
    AttributeValue.ofToken?]
  cases hkind : v.kind with
  | doubleQuoted =>
    rw [hkind] at hspells
    obtain ⟨body, -, hbody⟩ := hspells
    simp only [unquoted_eq rfl hbody, ok_bind]
    rfl
  | singleQuoted =>
    rw [hkind] at hspells
    obtain ⟨body, -, hbody⟩ := hspells
    simp only [unquoted_eq rfl hbody, ok_bind]
    rfl
  | name =>
    simp only [String.ofList_toList]
    rfl
  | close | selfClose | slash | equals | endOfSource | invalid => rfl

/-- The tokens of a tag give by their spans alone what they give with their texts. The last one
closes the tag, so none is missing. -/
theorem readMarks_eq {unclosed unclosed' : Problem} {ts : List Token} {as : List Attribute}
    {ps : List Problem} (h : StartTag.Roles unclosed ts as ps) {d e : Cursor} (hd : d.LiesIn text)
    (hlexed : Token.Lexed d ts e) (hunclosed : e.rest = [] → unclosed' = unclosed) :
    readMarks text unclosed' (ts.map Mark.ofToken) =
      .ok ⟨as, ps, ts.getLast?.any (·.kind == .selfClose), e.offset⟩ := by
  have hstands := hlexed.stands hd
  induction h generalizing d with
  | done => cases hlexed
  | @close t ts kind =>
    obtain ⟨rfl, hfound⟩ := hlexed.of_closes (by rcases kind with hk | hk <;> rw [hk] <;> rfl)
    have hstop := hfound.bounds.2.2
    rw [List.map_cons, ofToken_eq hshort (hstands t (by simp)), readMarks.eq_def]
    rcases kind with hk | hk <;> simp [hk, hstop]
  | @cutOff t ts kind =>
    have hend := hlexed.rest_eq_nil List.mem_cons_self kind
    obtain ⟨w, hw⟩ := hlexed.reads
    obtain ⟨rfl, -⟩ := hlexed.of_closes (by rw [kind]; rfl)
    rw [List.map_cons, ofToken_eq hshort (hstands t (by simp)), readMarks.eq_def]
    simp [kind, hunclosed hend, (hd.reads hw).offset_eq_iff.2 hend]
  | @slash t ts as ps kind _ ih =>
    obtain ⟨d', hd', hrest, t', ts', rfl⟩ := hlexed.tail hd (by rw [kind]; rfl)
    rw [List.map_cons, ofToken_eq hshort (hstands t (by simp)), readMarks.eq_def]
    simp only [kind, ih hd' hrest (hrest.stands hd'), List.getLast?_cons_cons]
  | @misplaced t ts as ps kind _ ih =>
    have hgoesOn : t.kind.closesTag = false := by
      rcases kind with hk | hk | hk | hk <;> rw [hk] <;> rfl
    obtain ⟨d', hd', hrest, t', ts', rfl⟩ := hlexed.tail hd hgoesOn
    rw [List.map_cons, ofToken_eq hshort (hstands t (by simp)), readMarks.eq_def]
    rcases kind with hk | hk | hk | hk <;>
      simp only [hk, ih hd' hrest (hrest.stands hd'), List.getLast?_cons_cons, ok_bind,
        StartTag.unexpected] <;>
      rfl
  | @bare t ts as ps kind next _ ih =>
    obtain ⟨d', hd', hrest, t', ts', rfl⟩ := hlexed.tail hd (by rw [kind]; rfl)
    have hnext : (Mark.ofToken t').kind ≠ .equals := next t' rfl
    have hname := hstands t (by simp)
    have hmore := ih hd' hrest (hrest.stands hd')
    rw [List.map_cons] at hmore
    rw [List.map_cons, List.map_cons, ofToken_eq hshort hname, readMarks.eq_def]
    simp only [kind, Mark.text, slice_eq_ok_iff.2 hname.slice, ok_bind, hnext, if_false, hmore,
      List.getLast?_cons_cons, String.ofList_toList]
    rfl
  | @loneEquals t equalsSign kind equals =>
    obtain ⟨d', hd', hrest, -⟩ := hlexed.tail hd (by rw [kind]; rfl)
    obtain ⟨-, -, -, t', ts', hnil⟩ := hrest.tail hd' (by rw [equals]; rfl)
    cases hnil
  | @value t equalsSign v ts value as ps kind equals gives _ ih =>
    obtain ⟨d', hd', hrest, -⟩ := hlexed.tail hd (by rw [kind]; rfl)
    obtain ⟨d'', hd'', hrest, -⟩ := hrest.tail hd' (by rw [equals]; rfl)
    have hgoesOn : v.kind.closesTag = false := by
      cases hk : v.kind with
      | close | selfClose | endOfSource => simp [AttributeValue.ofToken?, hk] at gives
      | _ => rfl
    obtain ⟨e', he', hrest, t', ts', rfl⟩ := hrest.tail hd'' hgoesOn
    have hname := hstands t (by simp)
    have hvalue := hstands v (by simp)
    have hspan := (hvalue.written_ofToken? gives).1
    have hequals : (Mark.ofToken equalsSign).kind = .equals := equals
    rw [List.map_cons, List.map_cons, List.map_cons, ofToken_eq hshort hname, readMarks.eq_def]
    simp only [kind, Mark.text, slice_eq_ok_iff.2 hname.slice, ok_bind, hequals, if_true,
      value?_ofToken hshort hvalue, gives, ih he' hrest (hrest.stands he'),
      List.getLast?_cons_cons, String.ofList_toList]
    rw [ofToken_eq hshort hvalue, ← hspan]
    rfl
  | @noValue t equalsSign v ts as ps kind equals gives _ ih =>
    obtain ⟨d', hd', hrest, -⟩ := hlexed.tail hd (by rw [kind]; rfl)
    obtain ⟨d'', hd'', hrest, -⟩ := hrest.tail hd' (by rw [equals]; rfl)
    have hname := hstands t (by simp)
    have hvalue := hstands v (by simp)
    have hmore := ih hd'' hrest (hrest.stands hd'')
    have hequals : (Mark.ofToken equalsSign).kind = .equals := equals
    rw [List.map_cons] at hmore
    rw [List.map_cons, List.map_cons, List.map_cons, ofToken_eq hshort hname, readMarks.eq_def]
    simp only [kind, Mark.text, slice_eq_ok_iff.2 hname.slice, ok_bind, hequals, if_true,
      value?_ofToken hshort hvalue, gives, hmore, List.getLast?_cons_cons, String.ofList_toList]
    rw [ofToken_eq hshort hvalue]
    rfl

theorem readStartTag_eq (hc : c.LiesIn text) (hlt : c.rest.head? = some '<') :
    readStartTag text c.offset = .ok (ofRead (StartTag.read c)) := by
  obtain ⟨nameEnd, tokens, h⟩ := StartTag.spelled_read hlt
  obtain ⟨start, hopen, hname⟩ :=
    h.name.split (v := ['<']) (w := (StartTag.read c).value.name.toList)
  have hstart := hc.reads hopen
  have hafter := hc.reads (h.name.trans h.lexed.reads.choose_spec)
  have htake : start.rest.takeWhile (fun x => !(isBlank x || x == '/' || x == '>')) =
      (StartTag.read c).value.name.toList := by
    rw [hname.1]
    exact takeWhile_append_stop h.nameChars h.nameEnds
  have hlen : difference (byteLength text) start.offset = .ok (byteLength start.rest) := by
    rw [← hstart.byteLength_eq]
    exact difference_add _ _
  have hoffset : c.offset + 1 = start.offset := hopen.2.symm
  have hunclosed : (StartTag.read c).after.rest = [] →
      Problem.mk (.unclosedTag (StartTag.read c).value.name) (.truncated c.offset (byteLength text)) =
        ⟨.unclosedTag (StartTag.read c).value.name, c.spanTo (StartTag.read c).after⟩ := by
    intro hend
    rw [← hafter.offset_eq_iff.2 hend, hc.truncated_eq hafter hshort]
  rw [readStartTag]
  simp only [hoffset, hstart.sliceFrom_eq, ok_bind, elim_findChar hlen, htake, ← hname.2,
    hstart.slice_eq hname, (hstart.reads hname).sliceFrom_eq, String.ofList_toList,
    h.lexed.ofTag_eq, readMarks_eq hshort h.roles (hc.reads h.name) h.lexed hunclosed,
    hc.truncated_eq hafter hshort, ← h.span, ← h.selfClosing]
  rfl

end StartTags

/-! ### Bodies -/

def ofStep : Step → StepTo
  | .node r => .node (ofRead r)
  | .opening r => .opening (ofRead r)
  | .closing name => .closing name

/-- The tests of what stands ahead, one after the other, tell what `ahead` tells. -/
theorem ite_ahead {α : Type} (rest : List Char) (comment endTag startTag other : α) :
    (if "<!--".toList.isPrefixOf rest then comment
      else if "</".toList.isPrefixOf rest then endTag
      else if atStartTag rest then startTag
      else other) =
      match ahead rest with
      | .comment => comment
      | .endTag => endTag
      | .startTag => startTag
      | .other => other := by
  have htag : atStartTag rest = true ↔
      rest.head? = some '<' ∧ rest.tail.head?.any Char.isAlpha = true := by
    rw [atStartTag, Bool.and_eq_true, beq_iff_eq]
  simp only [ahead_eq_ite rest, htag]
  split
  · rfl
  · split
    · rfl
    · split <;> rfl

/-! ### Readings with a stack -/

section Stack

variable {α β : Type} {opened : List String}

theorem run_lift_bind (a : α) (f : α → WithOpen β) :
    ((liftM (Except.ok a : Except Fault α) : WithOpen α) >>= f).run opened = (f a).run opened := rfl

theorem run_push_bind (name : String) (f : Unit → WithOpen β) :
    (push name >>= f).run opened = (f ()).run (name :: opened) := rfl

theorem run_pop_bind (f : Unit → WithOpen β) :
    (pop >>= f).run opened = (f ()).run opened.tail := rfl

theorem run_get_bind (f : List String → WithOpen β) :
    ((get : WithOpen (List String)) >>= f).run opened = (f opened).run opened := rfl

theorem run_bind_of_ok {x : WithOpen α} {a : α} {opened' : List String}
    (h : x.run opened = .ok (a, opened')) (f : α → WithOpen β) :
    (x >>= f).run opened = (f a).run opened' := by
  rw [StateT.run_bind, h]
  rfl

/-- A reading that leaves the stack as it found it, unless it meets a fault. -/
def Restores (x : WithOpen α) : Prop :=
  ∀ opened a opened', x.run opened = .ok (a, opened') → opened' = opened

theorem restores_pure (a : α) : Restores (pure a) := by
  rintro opened _ _ ⟨⟩
  rfl

theorem restores_throw (fault : Fault) : Restores (throw fault : WithOpen α) := by
  rintro opened _ _ ⟨⟩

theorem restores_get : Restores (get : WithOpen (List String)) := by
  rintro opened _ _ ⟨⟩
  rfl

theorem restores_lift (x : Except Fault α) : Restores (liftM x : WithOpen α) := by
  cases x <;> rintro opened _ _ ⟨⟩
  rfl

theorem exists_of_run_bind {x : WithOpen α} {f : α → WithOpen β} {b : β} {opened' : List String}
    (h : (x >>= f).run opened = .ok (b, opened')) :
    ∃ a between, x.run opened = .ok (a, between) ∧ (f a).run between = .ok (b, opened') := by
  rw [StateT.run_bind] at h
  cases hx : x.run opened with
  | error fault =>
    rw [hx] at h
    cases h
  | ok r =>
    rw [hx] at h
    exact ⟨r.1, r.2, rfl, h⟩

theorem Restores.bind {x : WithOpen α} {f : α → WithOpen β} (hx : Restores x)
    (hf : ∀ a, Restores (f a)) : Restores (x >>= f) := by
  intro opened b opened' h
  obtain ⟨a, between, hrun, hmore⟩ := exists_of_run_bind h
  rw [hf a _ _ _ hmore, hx _ _ _ hrun]

/-- What is put on the stack before a reading is taken off behind it. -/
theorem Restores.inside {x : WithOpen α} {f : α → WithOpen β} (name : String) (hx : Restores x)
    (hf : ∀ a, Restores (f a)) :
    Restores (push name >>= fun _ => x >>= fun a => pop >>= fun _ => f a) := by
  intro opened b opened' h
  rw [run_push_bind] at h
  obtain ⟨a, between, hrun, hmore⟩ := exists_of_run_bind h
  rw [run_pop_bind, hx _ _ _ hrun, List.tail_cons] at hmore
  exact hf a _ _ _ hmore

/-- However the children of an element end, the stack is what it was before them. -/
theorem restores_readBody (text : List Char) (parent : String) (offset : Nat) :
    Restores (readBody text parent offset) := by
  rw [readBody]
  split
  · exact restores_pure _
  refine (restores_lift _).bind fun s => ?_
  cases s with
  | node r =>
    dsimp only
    split
    · exact (restores_readBody text parent r.after).bind fun _ => restores_pure _
    · exact restores_throw _
  | opening tag =>
    dsimp only
    split
    · refine (restores_readBody text tag.value.name tag.after).inside _ fun inner => ?_
      split
      · exact (restores_readBody text parent inner.after).bind fun _ => restores_pure _
      · exact restores_throw _
    · exact restores_throw _
  | closing name =>
    dsimp only
    split
    · exact (restores_lift _).bind fun _ => restores_pure _
    refine restores_get.bind fun opened => ?_
    split
    · exact restores_pure _
    refine (restores_lift _).bind fun after => ?_
    split
    · exact (restores_readBody text parent after).bind fun _ => restores_pure _
    · exact restores_throw _
termination_by byteLength text - offset
decreasing_by
  all_goals simp only [MovesOn] at *; omega

end Stack

section Bodies

variable (hshort : byteLength text < Nat.pow 2 32)

include hshort

theorem step_eq (hc : c.LiesIn text) (hne : c.rest ≠ []) :
    step text c.offset = .ok (ofStep (Markup.step c)) := by
  rw [step, hc.sliceFrom_eq, ok_bind, ite_ahead, Markup.step]
  cases hahead : ahead c.rest with
  | comment =>
    simp only [readComment_eq hshort hc hahead, ok_bind]
    rfl
  | endTag =>
    simp only [endTagName_eq hc hahead, ok_bind]
    rfl
  | other =>
    simp only [readText_eq hshort hc hne, ok_bind]
    rfl
  | startTag =>
    have hlt := head?_of_ahead_eq_startTag hahead
    obtain ⟨w, -, hw⟩ := StartTag.reads_after hlt
    have hafter := hc.reads hw
    have hraw := readRawText_faithful hafter (StartTag.gt_notMem_name hlt)
    obtain ⟨v, hv⟩ := hraw.reads
    simp only [readStartTag_eq hshort hc hlt, ok_bind, ofRead]
    cases (StartTag.read c).value.selfClosing || isVoid (StartTag.read c).value.name with
    | true => rfl
    | false =>
      cases isRawText (StartTag.read c).value.name with
      | false => rfl
      | true =>
        simp only [Bool.false_eq_true, if_false, if_true, readRawContent_eq hshort hafter, ok_bind,
          slice_eq_ok_iff.2 hraw.slice, String.ofList_toList,
          hc.truncated_eq (hafter.reads hv) hshort]
        rfl

def ofBody (b : Body) : BodyTo := ⟨b.nodes, b.ending, b.problems, b.after.offset⟩

/-- Every step of a run moves on, and so does every element in it, so reading by offsets comes to
the end of the run. The stack is then what it was: each name that was put on it is taken off,
whether its element has been closed or an end tag is left to an element further out. -/
theorem readBody_eq {parent : String} {outer : List String} {b : Body}
    (h : Body.Run parent outer c b) (hc : c.LiesIn text) :
    (readBody text parent c.offset).run (parent :: outer) = .ok (ofBody b, parent :: outer) := by
  induction h with
  | @endOfSource parent outer c rest =>
    have hend := hc.offset_eq_iff.2 rest
    rw [readBody, dif_pos (Nat.le_of_eq hend.symm), hc.truncated_eq hc hshort]
    rfl
  | @node parent outer c r more rest stands _ ih =>
    obtain ⟨w, hw, hr⟩ := (step_faithful hc rest stands).reads
    rw [readBody, dif_neg (hc.not_byteLength_le rest), step_eq hshort hc rest, stands,
      run_lift_bind]
    simp only [ofStep, ofRead, dif_pos (hc.movesOn hr hw)]
    rw [run_bind_of_ok (ih (hc.reads hr))]
    rfl
  | @element parent outer c tag inner more stands inside _ ihInside ih =>
    have hrest := Body.rest_ne_nil_of_stands stands (by simp)
    obtain ⟨hahead, rfl⟩ := startTag_of_opening stands
    obtain ⟨w, hw, hr⟩ := StartTag.reads_after (head?_of_ahead_eq_startTag hahead)
    have hafter := hc.reads hr
    obtain ⟨v, hv⟩ := (inside.faithful hafter).reads_after
    have hinner := hafter.reads hv
    -- The element takes at least its start tag, even if its end tag is left to another.
    have hmoves : MovesOn text c.offset (ofBody inner).after :=
      hc.movesOn (hr.trans hv) (by simp [hw])
    rw [readBody, dif_neg (hc.not_byteLength_le hrest), step_eq hshort hc hrest, stands,
      run_lift_bind]
    simp only [ofStep, ofRead, dif_pos (hc.movesOn hr hw)]
    rw [run_push_bind, run_bind_of_ok (ihInside hafter), run_pop_bind, List.tail_cons,
      dif_pos hmoves]
    refine (run_bind_of_ok (ih hinner) _).trans ?_
    simp only [ofBody, hc.truncated_eq hinner hshort]
    rfl
  | @closed parent outer c name stands own =>
    have hrest := Body.rest_ne_nil_of_stands stands (by simp)
    obtain ⟨w, hw, -⟩ := c.reads_skipPast '>'
    rw [readBody, dif_neg (hc.not_byteLength_le hrest), step_eq hshort hc hrest, stands,
      run_lift_bind]
    simp only [ofStep, own, if_true, skipPast_eq hc]
    rw [run_lift_bind, hc.truncated_eq (hc.reads hw) hshort]
    rfl
  | @implicit parent outer c name stands other isOpen =>
    have hrest := Body.rest_ne_nil_of_stands stands (by simp)
    obtain ⟨hahead, rfl⟩ := endTag_of_closing stands
    have hname := endTagName_reads hahead
    have hstop : c.offset + 2 + byteLength (Markup.endTagName c).toList =
        (c.skip (2 + (Markup.endTagName c).length)).offset := by
      rw [hname.2, byteLength_append, ← Nat.add_assoc]
      rfl
    rw [readBody, dif_neg (hc.not_byteLength_le hrest), step_eq hshort hc hrest, stands,
      run_lift_bind]
    simp only [ofStep, other, Bool.false_eq_true, if_false]
    rw [run_get_bind, List.any_cons, isOpen, Bool.or_true, if_pos rfl, hstop,
      hc.truncated_eq (hc.reads hname) hshort]
    rfl
  | @stray parent outer c name more stands other notOpen _ ih =>
    have hrest := Body.rest_ne_nil_of_stands stands (by simp)
    obtain ⟨hahead, rfl⟩ := endTag_of_closing stands
    obtain ⟨tail, hr, -⟩ := endTag_reads hahead
    rw [readBody, dif_neg (hc.not_byteLength_le hrest), step_eq hshort hc hrest, stands,
      run_lift_bind]
    simp only [ofStep, other, Bool.false_eq_true, if_false]
    rw [run_get_bind, List.any_cons, notOpen, sameName_comm, other, Bool.or_self,
      if_neg Bool.false_ne_true, skipPast_eq hc, run_lift_bind,
      dif_pos (hc.movesOn hr (by simp)), run_bind_of_ok (ih (hc.reads hr)),
      hc.truncated_eq (hc.reads hr) hshort]
    rfl

end Bodies

/-! ### Blocks -/

/-- No element stands around a template, so no end tag is left to one. -/
theorem contentStop_eq {parent : String} {outer : List String} {b : Body}
    (h : Body.Run parent outer c b) (houter : outer = []) :
    (ofBody b).contentStop = .ok b.contentStop := by
  induction h with
  | endOfSource _ => rfl
  | node _ _ _ ih => exact ih houter
  | element _ _ _ _ ih => exact ih houter
  | closed _ _ => rfl
  | implicit _ _ isOpen => simp [houter] at isOpen
  | stray _ _ _ _ ih => exact ih houter

section Blocks

variable (hshort : byteLength text < Nat.pow 2 32)

include hshort

theorem readTemplate_eq (hc : c.LiesIn text) (hlt : c.rest.head? = some '<') :
    (readTemplate text c.offset (ofRead (StartTag.read c))).run [] =
      .ok (ofRead (Markup.readTemplate c (StartTag.read c)), []) := by
  obtain ⟨w, -, hw⟩ := StartTag.reads_after hlt
  have hafter := hc.reads hw
  rw [readTemplate]
  cases hself : (StartTag.read c).value.selfClosing with
  | true =>
    rw [readTemplate_selfClosing hself]
    simp only [ofRead, hself, if_true]
    rfl
  | false =>
    cases hlang : Template.langIsHtml (StartTag.read c).value.lang with
    | true =>
      have hrun := Body.run_read (StartTag.read c).value.name [] (StartTag.read c).after
      have hbody := hrun.faithful hafter
      obtain ⟨u, d, -, hu, hstop, -⟩ := hbody.reads
      obtain ⟨v, hv⟩ := hbody.reads_after
      rw [readTemplate_html hself hlang rfl]
      rw [StartTag.lang] at hlang
      simp only [ofRead, hself, hlang, Bool.false_eq_true, if_false, if_true]
      rw [run_push_bind, run_bind_of_ok (readBody_eq hshort hrun hafter), run_pop_bind,
        contentStop_eq hrun rfl, run_lift_bind, StartTag.stop_read hlt, ← hstop,
        hafter.truncated_eq (hafter.reads hu) hshort]
      simp only [ofBody, hc.truncated_eq (hafter.reads hv) hshort]
      rfl
    | false =>
      have hraw := readRawText_faithful hafter (StartTag.gt_notMem_name hlt)
      obtain ⟨v, hv⟩ := hraw.reads
      rw [readTemplate_raw hself hlang rfl]
      rw [StartTag.lang] at hlang
      simp only [ofRead, hself, hlang, Bool.false_eq_true, if_false]
      rw [readRawContent_eq hshort hafter, run_lift_bind]
      simp only [hc.truncated_eq (hafter.reads hv) hshort]
      rfl

theorem readRawBlock_eq (hc : c.LiesIn text) (hlt : c.rest.head? = some '<') :
    readRawBlock text (ofRead (StartTag.read c)) =
      .ok ⟨(Markup.readRawBlock (StartTag.read c)).value.span,
        (Markup.readRawBlock (StartTag.read c)).problems,
        (Markup.readRawBlock (StartTag.read c)).after.offset⟩ := by
  obtain ⟨w, -, hw⟩ := StartTag.reads_after hlt
  rw [readRawBlock, Markup.readRawBlock]
  cases hself : (StartTag.read c).value.selfClosing with
  | true =>
    simp only [ofRead, hself, if_true, StartTag.stop_read hlt]
    rfl
  | false =>
    simp only [ofRead, hself, Bool.false_eq_true, if_false, readRawContent_eq hshort (hc.reads hw),
      ok_bind]
    rfl

theorem readBlock_eq (hc : c.LiesIn text) (hlt : c.rest.head? = some '<') (seen : Bool) :
    (readBlock text seen c.offset).run [] = .ok (ofRead (Markup.readBlock seen c), []) := by
  obtain ⟨w, -, hw⟩ := StartTag.reads_after hlt
  obtain ⟨⟨v, hv⟩, hslice, -⟩ := readRawBlock_faithful hc hlt
  have hstop := (hc.reads hw).reads hv
  rw [readBlock, Markup.readBlock, readStartTag_eq hshort hc hlt, run_lift_bind]
  simp only [readRawBlock_eq hshort hc hlt]
  cases hname : sameName (StartTag.read c).value.name "template" && !seen with
  | true =>
    simp only [ofRead, hname, if_true]
    exact run_bind_of_ok (readTemplate_eq hshort hc hlt) _
  | false =>
    simp only [ofRead, hname, Bool.false_eq_true, if_false]
    rw [run_lift_bind]
    simp only [hc.truncated_eq hstop hshort, slice_eq_ok_iff.2 hslice]
    cases sameName (StartTag.read c).value.name "script" with
    | true =>
      simp only [if_true]
      rw [run_lift_bind, String.ofList_toList]
      rfl
    | false => cases sameName (StartTag.read c).value.name "style" <;> rfl

end Blocks

/-! ### Components -/

theorem findChar_eq_none_of_nextMarkup (h : (nextMarkup c).rest = []) :
    findChar (· == '<') c.rest = none := by
  have hr := (c.reads_skipWhile (· ≠ '<')).1
  rw [← nextMarkup, h, List.append_nil] at hr
  rw [findChar, not_beq_eq, ← hr, if_neg (Nat.lt_irrefl _)]

theorem findChar_nextMarkup (h : (nextMarkup c).rest ≠ []) :
    ∃ n, findChar (· == '<') c.rest = some n ∧ c.offset + n = (nextMarkup c).offset := by
  have hr := c.reads_skipWhile (· ≠ '<')
  rw [← nextMarkup] at hr
  have hlen := congrArg List.length hr.1
  have hpos := List.length_pos_iff.2 h
  rw [List.length_append] at hlen
  refine ⟨_, ?_, hr.2.symm⟩
  rw [findChar, not_beq_eq, if_pos (by omega)]

theorem reads_nextMarkup (h : (nextMarkup c).rest ≠ []) :
    (nextMarkup c).Reads ['<'] ((nextMarkup c).skip 1) := by
  obtain ⟨x, xs, hx⟩ := List.exists_cons_of_ne_nil h
  have hhead : (c.rest.dropWhile fun y => decide (y ≠ '<')).head? = some x := by
    rw [← Cursor.rest_skipWhile, ← nextMarkup, hx]
    rfl
  have hlt : x = '<' := by simpa using head?_dropWhile_eq_false hhead
  exact hlt ▸ Cursor.reads_head hx

/-- One turn of the loop over blocks, which leads to a later place, and the turns after it. -/
theorem readBlocks_step (hc : c.LiesIn text) (hne : (nextMarkup c).rest ≠ []) {seen : Bool}
    {value : Option Block} {first : List Problem} {d : Cursor} {w : List Char}
    (hread : (readTopLevel text seen (nextMarkup c).offset).run [] =
      .ok (⟨value, first, d.offset⟩, []))
    (hw : w ≠ []) (hd : (nextMarkup c).Reads w d) {blocks : List Block} {problems : List Problem}
    (hmore : (readBlocks text (seen || (value.bind Block.template?).isSome) d.offset).run [] =
      .ok ((blocks, problems), [])) :
    (readBlocks text seen c.offset).run [] =
      .ok ((value.toList ++ blocks, first ++ problems), []) := by
  obtain ⟨u, hu⟩ := nextMarkup_reads c
  obtain ⟨n, hn, hoffset⟩ := findChar_nextMarkup hne
  have hrest : c.rest ≠ [] := by
    rw [hu.1]
    simp [hne]
  have hmoves := hc.movesOn (hu.trans hd) (by simp [hw])
  rw [readBlocks, dif_neg (hc.not_byteLength_le hrest), hc.sliceFrom_eq, run_lift_bind, hn]
  simp only [hoffset]
  rw [run_bind_of_ok hread, dif_pos hmoves, run_bind_of_ok hmore]
  rfl

theorem strayEndTag_eq {tail : List Char} (h : c.Reads ("</".toList ++ tail) (c.skipPast '>')) :
    strayEndTag (c.rest.take ((c.rest.takeWhile (· ≠ '>')).length + 1)) =
      String.ofList (trimBlanks (trimEnd (· == '>') tail)) := by
  have htake := c.reads_skip ((c.rest.takeWhile (· ≠ '>')).length + 1)
  have heq := List.append_cancel_right (htake.1.symm.trans h.1)
  rw [heq]
  rfl

section TopLevel

variable (hshort : byteLength text < Nat.pow 2 32)

include hshort

/-- What is read at a `<` outside all blocks, and where it ends. -/
theorem readTopLevel_eq (hc : c.LiesIn text) (hlt : c.Reads ['<'] (c.skip 1)) (seen : Bool) :
    (readTopLevel text seen c.offset).run [] = .ok (match ahead c.rest with
      | .comment => ⟨none, (Markup.readComment c).problems, (Markup.readComment c).after.offset⟩
      | .endTag => ⟨none, [strayProblem c], (c.skipPast '>').offset⟩
      | .startTag => ⟨some (Markup.readBlock seen c).value, (Markup.readBlock seen c).problems,
          (Markup.readBlock seen c).after.offset⟩
      | .other => ⟨none, [], (c.skip 1).offset⟩, []) := by
  rw [readTopLevel, hc.sliceFrom_eq, run_lift_bind, ite_ahead]
  cases hahead : ahead c.rest with
  | comment =>
    rw [readComment_eq hshort hc hahead]
    rfl
  | endTag =>
    obtain ⟨tail, hr, -⟩ := endTag_reads hahead
    rw [List.append_assoc] at hr
    obtain ⟨e, hopen, hfound⟩ := hr.split
    have hoffset : c.offset + 2 = e.offset := hopen.2.symm
    simp only [skipPast_eq hc, hoffset]
    rw [run_lift_bind, (hc.reads hopen).slice_eq hfound, run_lift_bind,
      hc.truncated_eq (hc.reads hr) hshort, strayProblem, strayEndTag_eq hr]
    rfl
  | startTag =>
    exact run_bind_of_ok (readBlock_eq hshort hc (head?_of_ahead_eq_startTag hahead) seen) _
  | other =>
    rw [hlt.2]
    rfl

/-- Every turn of the loop over blocks moves on. -/
theorem readBlocks_eq {seen : Bool} {blocks : List Block} {problems : List Problem}
    (h : Scan seen c blocks problems) (hc : c.LiesIn text) :
    (readBlocks text seen c.offset).run [] = .ok ((blocks, problems), []) := by
  induction h with
  | @done seen c rest =>
    rw [readBlocks]
    split
    · rfl
    · rw [hc.sliceFrom_eq, run_lift_bind, findChar_eq_none_of_nextMarkup rest]
      rfl
  | @comment seen c blocks problems hahead _ ih =>
    have hne := rest_ne_nil_of_ahead hahead (by simp)
    obtain ⟨u, hu⟩ := nextMarkup_reads c
    have hd := hc.reads hu
    have hread := readTopLevel_eq hshort hd (reads_nextMarkup hne) seen
    rw [hahead] at hread
    obtain ⟨w, hw, hr⟩ := (readComment_faithful hd hahead).reads
    exact readBlocks_step hc hne hread hw hr (by simpa using ih (hd.reads hr))
  | @endTag seen c blocks problems hahead _ ih =>
    have hne := rest_ne_nil_of_ahead hahead (by simp)
    obtain ⟨u, hu⟩ := nextMarkup_reads c
    have hd := hc.reads hu
    have hread := readTopLevel_eq hshort hd (reads_nextMarkup hne) seen
    rw [hahead] at hread
    obtain ⟨tail, hr, -⟩ := endTag_reads hahead
    exact readBlocks_step hc hne hread (by simp) hr (by simpa using ih (hd.reads hr))
  | @block seen c block blocks problems hahead hreads _ ih =>
    subst hreads
    have hne := rest_ne_nil_of_ahead hahead (by simp)
    obtain ⟨u, hu⟩ := nextMarkup_reads c
    have hd := hc.reads hu
    have hread := readTopLevel_eq hshort hd (reads_nextMarkup hne) seen
    rw [hahead] at hread
    obtain ⟨w, hw, hr⟩ := (readBlock_faithful hd (head?_of_ahead_eq_startTag hahead) seen).reads
    exact readBlocks_step hc hne hread hw hr (ih (hd.reads hr))
  | @other seen c blocks problems hne hahead _ ih =>
    obtain ⟨u, hu⟩ := nextMarkup_reads c
    have hd := hc.reads hu
    have hone := reads_nextMarkup hne
    have hread := readTopLevel_eq hshort hd hone seen
    rw [hahead] at hread
    exact readBlocks_step hc hne hread (by simp) hone (by simpa using ih (hd.reads hone))

end TopLevel

/-- Reading a component of less than 4 GiB by offsets gives the component. Both loops and every
element move on, each range that is sliced is one of the text, and no branch is taken that is not
meant to be. -/
theorem component_eq_ofText (source : String) (hshort : byteLength source.toList < Nat.pow 2 32) :
    component source = .ok (Component.ofText source) := by
  have hread : (readBlocks source.toList false 0).run [] =
      .ok (Markup.readBlocks false ⟨0, source.toList⟩, []) :=
    readBlocks_eq hshort (scan_readBlocks false ⟨0, source.toList⟩) (.start source.toList)
  have hspan : Span.truncated 0 (byteLength source.toList) = ⟨0, byteLength source.toList⟩ := by
    rw [Span.truncated, Nat.mod_eq_of_lt hshort, Nat.zero_mod]
  rw [component, Component.ofText_eq]
  simp only [StateT.run'_eq, hread, hspan]
  rfl

/-- An end tag that no block has, an element left open inside another, a value that is missing
and a quote that is never closed, among characters of two bytes. -/
theorem component_eq_ofText_cutOff :
    ∃ source, source = "é</x><template><b><i x=></b>ö<u q=\"" ∧
      byteLength source.toList < Nat.pow 2 32 ∧
      component source = .ok (Component.ofText source) ∧
      (Component.ofText source).problems.map (·.span) =
        [⟨2, 6⟩, ⟨24, 25⟩, ⟨25, 28⟩, ⟨36, 37⟩, ⟨36, 37⟩, ⟨31, 37⟩, ⟨37, 37⟩, ⟨37, 37⟩] :=
  ⟨_, rfl, by decide, component_eq_ofText _ (by decide), by decide +kernel⟩

end Markup.Offsets

end CosmeticLint
