import CosmeticLint.Proofs.Markup.Scan
import CosmeticLint.Proofs.Markup.Written

/-! Reading what is printed. A start tag is read token by token from its last token to its
first; a body is read node by node, with an element's children read before its end tag is. -/

namespace CosmeticLint.Markup

open Token (Found Lexed)

variable {c d e : Cursor}

/-! ### Start tags -/

namespace Token

/-- A token without blanks in front of it. -/
theorem Found.of_reads {kind : Kind} {w : String} (hr : c.Reads w.toList d)
    (hspells : kind.Spells w.toList d.rest) : Found c ⟨kind, c.spanTo d, w⟩ d :=
  ⟨[], c, .refl c, by simp, hr, rfl, hspells⟩

theorem Found.word {w : String} (hw : IsWord w) (hr : c.Reads w.toList d)
    (hends : ∀ x, d.rest.head? = some x → isNameChar x = false) :
    Found c ⟨.name, c.spanTo d, w⟩ d := .of_reads hr ⟨hw.1, List.all_eq_true.1 hw.2, hends⟩

theorem Found.behind_space {t : Token} (h : Found d t e) (hr : c.Reads [' '] d) : Found c t e := by
  obtain ⟨blanks, start, hb, hblank, hw, hspan, hspells⟩ := h
  refine ⟨' ' :: blanks, start, hr.trans hb, ?_, hw, hspan, hspells⟩
  exact List.forall_mem_cons.2 ⟨rfl, hblank⟩

end Token

namespace StartTag

/-- The tokens from `c` to the end `e` of a tag stand for these attributes and give no
problem. What stands at `c` ends a word. -/
structure Tail (c e : Cursor) (tokens : List Token) (attributes : List Attribute)
    (selfClosing : Bool) : Prop where
  lexed : Lexed c tokens e
  roles : ∀ unclosed, Roles unclosed tokens attributes []
  first : ∀ t, tokens.head? = some t → t.kind ≠ .equals
  last : tokens.getLast?.any (·.kind == .selfClose) = selfClosing
  ends : c.rest.head? = some ' ' ∨ c.rest.head? = some '>'

theorem tail_close (hr : c.Reads ['>'] e) : ∃ tokens, Tail c e tokens [] false := by
  have hfound : Found c ⟨.close, c.spanTo e, ">"⟩ e := .of_reads hr rfl
  refine ⟨_, .last hfound rfl, fun _ => .close (.inl rfl), ?_, rfl, .inr ?_⟩
  · simp
  · rw [hr.1]
    rfl

theorem tail_selfClose (hr : c.Reads " />".toList e) : ∃ tokens, Tail c e tokens [] true := by
  obtain ⟨d, hspace, hclose⟩ := hr.split (v := [' ']) (w := "/>".toList)
  have hfound : Found d ⟨.selfClose, d.spanTo e, "/>"⟩ e := .of_reads hclose rfl
  refine ⟨_, .last (hfound.behind_space hspace) rfl, fun _ => .close (.inr rfl), ?_, rfl, .inl ?_⟩
  · simp
  · rw [hr.1]
    rfl

section Tail

variable {tokens : List Token} {attributes : List Attribute} {selfClosing : Bool}

theorem Tail.head_eq_false (h : Tail c e tokens attributes selfClosing) {p : Char → Bool}
    (hspace : p ' ' = false) (hgt : p '>' = false) : ∀ x, c.rest.head? = some x → p x = false := by
  intro x hx
  rcases h.ends with he | he
  · rw [he] at hx
    cases hx
    exact hspace
  · rw [he] at hx
    cases hx
    exact hgt

/-- A written value is one token, which gives back the value. -/
theorem exists_value_token {v : WrittenValue} (hv : v.WellFormed) (hr : c.Reads v.print d)
    (hends : ∀ x, d.rest.head? = some x → isNameChar x = false) :
    ∃ t, Found c t d ∧ t.kind.closesTag = false ∧
      AttributeValue.ofToken? t = some ⟨c.spanTo d, v.text, v.quote⟩ := by
  obtain ⟨quote, text⟩ := v
  cases quote with
  | none => exact ⟨_, .word hv hr hends, rfl, rfl⟩
  | some q =>
    have hquoted : c.Reads (String.ofList (q.char :: (text.toList ++ [q.char]))).toList d := by
      rw [String.toList_ofList]
      exact hr
    cases q with
    | double =>
      refine ⟨⟨.doubleQuoted, c.spanTo d, _⟩, .of_reads hquoted ?_, rfl, ?_⟩
      · exact ⟨text.toList, hv, String.toList_ofList⟩
      · simp [AttributeValue.ofToken?, withoutQuotes]
    | single =>
      refine ⟨⟨.singleQuoted, c.spanTo d, _⟩, .of_reads hquoted ?_, rfl, ?_⟩
      · exact ⟨text.toList, hv, String.toList_ofList⟩
      · simp [AttributeValue.ofToken?, withoutQuotes]

theorem Tail.getLast?_cons (h : Tail c e tokens attributes selfClosing) (t : Token) :
    (t :: tokens).getLast? = tokens.getLast? := by
  cases h.lexed with
  | last _ _ => rfl
  | more _ _ _ => rfl

theorem Tail.bare (h : Tail d e tokens attributes selfClosing) {name : String}
    (hname : IsWord name) (hr : c.Reads ([' '] ++ name.toList) d) :
    ∃ tokens, Tail c e tokens (⟨⟨c.offset + 1, d.offset⟩, name, none⟩ :: attributes)
      selfClosing := by
  obtain ⟨start, hspace, hn⟩ := hr.split
  have ht := Found.word hname hn (h.head_eq_false rfl rfl)
  have hstart : start.offset = c.offset + 1 := hspace.2
  rw [Cursor.spanTo, hstart] at ht
  refine ⟨_, .more (ht.behind_space hspace) rfl h.lexed,
    fun u => .bare rfl h.first (h.roles u), by simp, ?_, .inl ?_⟩
  · rw [h.getLast?_cons]
    exact h.last
  · rw [hspace.1]
    rfl

theorem Tail.valued (h : Tail d e tokens attributes selfClosing) {name : String} {v : WrittenValue}
    (hname : IsWord name) (hvalue : v.WellFormed)
    (hr : c.Reads ([' '] ++ (name.toList ++ (['='] ++ v.print))) d) :
    ∃ tokens, Tail c e tokens (⟨⟨c.offset + 1, d.offset⟩, name, some
      ⟨⟨c.offset + 1 + byteLength name.toList + 1, d.offset⟩, v.text, v.quote⟩⟩ :: attributes)
      selfClosing := by
  obtain ⟨start, hspace, hr⟩ := hr.split
  obtain ⟨nameStop, hn, hr⟩ := hr.split
  obtain ⟨valueStart, heq, hv⟩ := hr.split
  have hnext : nameStop.rest.head? = some '=' := by
    rw [heq.1]
    rfl
  have ht : Found start ⟨.name, start.spanTo nameStop, name⟩ nameStop := by
    refine .word hname hn fun x hx => ?_
    rw [hnext] at hx
    cases hx
    rfl
  have hequals : Found nameStop ⟨.equals, nameStop.spanTo valueStart, "="⟩ valueStart :=
    .of_reads heq rfl
  obtain ⟨t, hfound, hgoesOn, hgives⟩ := exists_value_token hvalue hv (h.head_eq_false rfl rfl)
  have hplace : valueStart.offset = c.offset + 1 + byteLength name.toList + 1 := by
    have hstart : start.offset = c.offset + 1 := hspace.2
    rw [← hstart, ← hn.2]
    exact heq.2
  rw [Cursor.spanTo, hplace] at hgives
  have hlexed := Lexed.more (ht.behind_space hspace) rfl (.more hequals rfl (.more hfound hgoesOn h.lexed))
  refine ⟨_, hlexed, fun u => ?_, by simp, ?_, .inl ?_⟩
  · have hroles := Roles.value (t := ⟨.name, start.spanTo nameStop, name⟩) rfl
      (e := ⟨.equals, nameStop.spanTo valueStart, "="⟩) rfl hgives (h.roles u)
    have hstart : start.offset = c.offset + 1 := hspace.2
    rw [Attribute.withValue] at hroles
    simpa only [Cursor.spanTo, hstart] using hroles
  · rw [← h.last, ← h.getLast?_cons t]
    rfl
  · rw [hspace.1]
    rfl

/-- One more attribute in front of the rest of a tag. -/
theorem Tail.attribute (h : Tail d e tokens attributes selfClosing) {a : WrittenAttribute}
    (ha : a.WellFormed) (hr : c.Reads a.print d) :
    ∃ tokens, Tail c e tokens (a.place c.offset :: attributes) selfClosing := by
  have hstop := hr.2
  obtain ⟨name, value⟩ := a
  cases value with
  | none =>
    rw [WrittenAttribute.place, ← hstop]
    refine h.bare ha.1 ?_
    simpa [WrittenAttribute.print] using hr
  | some v =>
    rw [WrittenAttribute.place, ← hstop]
    refine h.valued ha.1 (ha.2 v rfl) ?_
    simpa [WrittenAttribute.print] using hr

theorem Tail.behind_attributes {as : List WrittenAttribute} (h : Tail d e tokens [] selfClosing)
    (has : ∀ a ∈ as, a.WellFormed) (hr : c.Reads (printAttributes as) d) :
    ∃ tokens, Tail c e tokens (placeAttributes c.offset as) selfClosing := by
  induction as generalizing c with
  | nil =>
    cases hr.unique (.refl c)
    exact ⟨tokens, h⟩
  | cons a as ih =>
    obtain ⟨b, ha, hrest⟩ := hr.split
    obtain ⟨ha', has'⟩ := List.forall_mem_cons.1 has
    obtain ⟨tokens, htail⟩ := ih has' hrest
    rw [ha.2] at htail
    exact htail.attribute ha' ha

end Tail

end StartTag

theorem ahead_of_isAlpha {x : Char} (hx : x.isAlpha = true) (rest : List Char) :
    ahead ('<' :: x :: rest) = .startTag := by
  unfold ahead
  split
  · rename_i h
    cases h
    cases hx
  · rename_i h
    cases h
    cases hx
  · rename_i h
    cases h
    exact if_pos hx
  · rename_i h
    exact absurd rfl (h x rest)

theorem ahead_of_ne {x : Char} (hx : '<' ≠ x) (rest : List Char) : ahead (x :: rest) = .other := by
  unfold ahead
  split
  · rename_i h
    cases h
    exact absurd rfl hx
  · rename_i h
    cases h
    exact absurd rfl hx
  · rename_i h
    cases h
    exact absurd rfl hx
  · rfl

section PrintedTag

variable {name : String} {attributes : List WrittenAttribute}

theorem ahead_printTag (hname : IsElementName name) (hr : c.Reads (printTag name attributes) d) :
    ahead c.rest = .startTag := by
  obtain ⟨x, hx, halpha⟩ := (Option.any_eq_true _ _).1 hname.1
  obtain ⟨xs, hxs⟩ := List.head?_eq_some_iff.1 hx
  rw [hr.1, printTag, hxs]
  exact ahead_of_isAlpha halpha _

/-- A printed start tag is read as it is written. -/
theorem read_printTag (hname : IsElementName name) (ha : ∀ a ∈ attributes, a.WellFormed)
    (hr : c.Reads (printTag name attributes) d) {tokens : List Token} {selfClosing : Bool}
    (htail : StartTag.Tail d e tokens [] selfClosing) :
    StartTag.read c =
      ⟨⟨c.spanTo e, name, Written.attributesAt c.offset name attributes, selfClosing⟩, [], e⟩ := by
  obtain ⟨nameEnd, hn, hattributes⟩ := hr.split (v := '<' :: name.toList)
  obtain ⟨tokens, h⟩ := htail.behind_attributes ha hattributes
  have hchars : ∀ x ∈ name.toList, StartTag.isTagNameChar x = true := List.all_eq_true.1 hname.2
  rw [hn.2] at h
  exact StartTag.Spelled.read_eq
    ⟨hn, hchars, h.head_eq_false rfl rfl, h.lexed, h.roles _, rfl, h.last.symm⟩

theorem reads_printEndTag (hr : c.Reads (printEndTag name) d) :
    c.Reads ("</".toList ++ name.toList ++ ['>']) d := by
  rwa [printEndTag, ← List.append_assoc] at hr

theorem head?_of_printEndTag (hr : c.Reads (printEndTag name) d) : c.rest.head? = some '<' := by
  rw [hr.1]
  rfl

/-- A printed end tag is passed as a whole. -/
theorem skipPast_printEndTag (hname : '>' ∉ name.toList) (hr : c.Reads (printEndTag name) d) :
    c.skipPast '>' = d := by
  have hr := reads_printEndTag hr
  have hgt : '>' ∉ "</".toList ++ name.toList := by
    rw [List.mem_append, not_or]
    exact ⟨by decide, hname⟩
  have hlen : ("</".toList ++ name.toList).length + 1 =
      ("</".toList ++ name.toList ++ ['>']).length := by simp
  rw [Cursor.skipPast, hr.1, List.append_assoc, List.singleton_append, takeWhile_ne_append hgt, hlen,
    hr.skip_eq]

theorem IsElementName.gt_notMem (hname : IsElementName name) : '>' ∉ name.toList := by
  intro hmem
  cases List.all_eq_true.1 hname.2 _ hmem

theorem step_printEndTag (hname : IsElementName name) (hr : c.Reads (printEndTag name) d) :
    step c = .closing name := by
  have hahead : ahead c.rest = .endTag := by
    rw [hr.1]
    rfl
  obtain ⟨nameStart, hopen, hrest⟩ := hr.split (v := "</".toList)
  have hskip : c.skip 2 = nameStart := hopen.skip_eq
  rw [step_of_endTag hahead, endTagName, hskip, hrest.1, List.append_assoc, takeWhile_append_stop,
    String.ofList_toList]
  · intro x hx
    have hchar := List.all_eq_true.1 hname.2 x hx
    simp only [Bool.not_eq_true', Bool.or_eq_false_iff] at hchar ⊢
    exact ⟨hchar.1.1, hchar.2⟩
  · intro x hx
    cases hx
    rfl

end PrintedTag

/-! ### Text and comments -/

section Leaves

theorem step_printText {value : String} (hne : value.toList ≠ []) (hlt : '<' ∉ value.toList)
    (hr : c.Reads value.toList d) (hd : d.rest.head? = some '<') :
    step c = .node ⟨.text (c.spanTo d) value, [], d⟩ := by
  obtain ⟨x, xs, hx⟩ := List.exists_cons_of_ne_nil hne
  rw [hx, List.mem_cons, not_or] at hlt
  have hrest : c.rest = x :: (xs ++ d.rest) := by rw [hr.1, hx]; rfl
  have hahead : ahead c.rest = .other := by
    rw [hrest]
    exact ahead_of_ne hlt.1 _
  have hlen : 1 + (c.rest.tail.takeWhile (· ≠ '<')).length = value.toList.length := by
    rw [hrest, List.tail_cons, takeWhile_append_stop (ne_of_notMem hlt.2), hx, List.length_cons,
      Nat.add_comm]
    intro y hy
    rw [hd] at hy
    cases hy
    rfl
  rw [step, hahead]
  simp only [readText, hlen, hr.skip_eq, hr.peek_eq, String.ofList_toList]

/-- The first `-->` behind a comment's data is the one printed there, even if the data ends
in dashes. -/
theorem isFirst_commentEnd {data : List Char} (hdata : ¬ "-->".toList <:+: data)
    (rest : List Char) :
    IsFirst "-->".toList.isPrefixOf data ("-->".toList ++ rest) := by
  refine ⟨by simp, fun a b hab hb => ?_⟩
  rw [Bool.eq_false_iff]
  intro hprefix
  match b, hb with
  | [x], _ => simp at hprefix
  | [x, y], _ => simp at hprefix
  | x :: y :: z :: b, _ =>
    apply hdata
    simp at hprefix
    obtain ⟨rfl, rfl, rfl⟩ := hprefix
    exact ⟨a, b, by rw [hab]; simp⟩

theorem step_printComment {data : String} (hdata : ¬ "-->".toList <:+: data.toList)
    (hr : c.Reads ("<!--".toList ++ (data.toList ++ "-->".toList)) d) :
    step c = .node ⟨.comment (c.spanTo d) data, [], d⟩ := by
  have hahead : ahead c.rest = .comment := by
    rw [hr.1]
    rfl
  obtain ⟨body, hopen, hrest⟩ := hr.split
  have hskip : c.skip 4 = body := hopen.skip_eq
  have hfirst : searchFor "-->".toList.isPrefixOf body.rest = some data.toList.length := by
    rw [hrest.1, List.append_assoc]
    exact (isFirst_commentEnd hdata d.rest).searchFor_eq
  have hlen : data.toList.length + 3 = (data.toList ++ "-->".toList).length := by simp
  obtain ⟨dataEnd, hd, -⟩ := hrest.split
  rw [step, hahead]
  simp only [readComment, hskip, hfirst, hlen, hrest.skip_eq, hd.peek_eq, String.ofList_toList]

end Leaves

/-! ### Elements -/

theorem lt_notMem_of_isRawText {name : String} (h : isRawText name = true) : '<' ∉ name.toList := by
  obtain ⟨raw, hraw, hsame⟩ := List.any_eq_true.1 h
  have hlt : ∀ raw ∈ rawTextElements, '<' ∉ raw.toList := by decide
  rw [sameName_comm] at hsame
  exact notMem_of_sameIgnoringCase rfl hsame (hlt raw hraw)

theorem isVoid_of_isRawText {name : String} (h : isRawText name = true) : isVoid name = false := by
  obtain ⟨raw, hraw, hsame⟩ := List.any_eq_true.1 h
  have hvoid : ∀ raw ∈ rawTextElements, isVoid raw = false := by decide
  rw [← isVoid_congr hsame]
  exact hvoid raw hraw

/-- The first `</name` behind raw text is the one printed there. -/
theorem isFirst_endTag {name : String} (hname : '<' ∉ name.toList) {content : List Char}
    (hcontent : ¬ ("</".toList ++ name.toList).map Char.toLower <:+: content.map Char.toLower)
    (rest : List Char) :
    IsFirst (beginsIgnoringCase ('<' :: '/' :: name.toList)) content
      (printEndTag name ++ rest) := by
  have hbegins : beginsIgnoringCase ('<' :: '/' :: name.toList) (printEndTag name ++ rest) = true :=
    beginsIgnoringCase_iff.2 ⟨"</".toList ++ name.toList, '>' :: rest, by simp [printEndTag],
      sameIgnoringCase_refl _⟩
  refine ⟨hbegins, fun a b hab hb => ?_⟩
  rw [Bool.eq_false_iff]
  intro hbegins
  obtain ⟨w, tail, hw, hsame⟩ := beginsIgnoringCase_iff.1 hbegins
  have hmap : w.map Char.toLower = ("</".toList ++ name.toList).map Char.toLower :=
    sameIgnoringCase_iff.1 hsame
  have hinside : ∀ t, b ≠ w ++ t := by
    rintro t rfl
    apply hcontent
    refine ⟨a.map Char.toLower, t.map Char.toLower, ?_⟩
    rw [← hmap, hab]
    simp
  rcases List.append_eq_append_iff.1 hw with ⟨t, ht, hend⟩ | ⟨t, ht, -⟩
  · cases t with
    | nil => exact hinside [] (by simpa using ht.symm)
    | cons y t =>
      -- the match would reach beyond the raw text and hold the `<` printed there
      obtain ⟨x, b', rfl⟩ := List.exists_cons_of_ne_nil hb
      have hy : '<' = y := (List.cons.inj hend).1
      rw [ht, ← hy, List.cons_append, sameIgnoringCase_iff, List.map_cons, List.map_cons,
        List.cons.injEq] at hsame
      have hlt : '<' ∉ b' ++ '<' :: t :=
        notMem_of_sameIgnoringCase rfl (sameIgnoringCase_iff.2 hsame.2) (by simpa using hname)
      simp at hlt
  · exact hinside t ht

/-- Raw text ends before the end tag that is printed behind it. -/
theorem readRawText_printed {name content : String} (hname : isRawText name = true)
    (hcontent : ¬ ("</".toList ++ name.toList).map Char.toLower <:+:
      content.toList.map Char.toLower)
    (hgt : '>' ∉ name.toList) (hr : c.Reads content.toList d) (he : d.Reads (printEndTag name) e) :
    readRawText name c = ⟨⟨c.spanTo d, content⟩, [], e⟩ := by
  have hfirst : searchFor (beginsIgnoringCase ('<' :: '/' :: name.toList)) c.rest =
      some content.toList.length := by
    rw [hr.1, he.1]
    exact (isFirst_endTag (lt_notMem_of_isRawText hname) hcontent e.rest).searchFor_eq
  rw [readRawText, hfirst]
  simp only [hr.skip_eq, hr.peek_eq, skipPast_printEndTag hgt he, String.ofList_toList]

section PrintedElement

variable {name : String} {attributes : List WrittenAttribute}

theorem step_selfClosed (hname : IsElementName name) (ha : ∀ a ∈ attributes, a.WellFormed)
    (hr : c.Reads (printTag name attributes ++ " />".toList) d) :
    step c = .node ⟨.element ⟨c.spanTo d, name, Written.attributesAt c.offset name attributes,
      true⟩ [], [], d⟩ := by
  obtain ⟨tagEnd, htag, hclose⟩ := hr.split
  obtain ⟨tokens, htail⟩ := StartTag.tail_selfClose hclose
  rw [step, ahead_printTag hname htag]
  simp [read_printTag hname ha htag htail]

theorem step_void (hname : IsElementName name) (ha : ∀ a ∈ attributes, a.WellFormed)
    (hvoid : isVoid name = true) (hr : c.Reads (printTag name attributes ++ ['>']) d) :
    step c = .node ⟨.element ⟨c.spanTo d, name, Written.attributesAt c.offset name attributes,
      true⟩ [], [], d⟩ := by
  obtain ⟨tagEnd, htag, hclose⟩ := hr.split
  obtain ⟨tokens, htail⟩ := StartTag.tail_close hclose
  rw [step, ahead_printTag hname htag]
  simp [read_printTag hname ha htag htail, hvoid]

theorem step_rawText (hname : IsElementName name) (ha : ∀ a ∈ attributes, a.WellFormed)
    (hraw : isRawText name = true) {content : String}
    (hcontent : ¬ ("</".toList ++ name.toList).map Char.toLower <:+:
      content.toList.map Char.toLower)
    (hr : c.Reads (printTag name attributes ++ ['>']) d) {stop : Cursor}
    (hd : d.Reads content.toList stop) (he : stop.Reads (printEndTag name) e) :
    step c = .node ⟨.element ⟨c.spanTo e, name, Written.attributesAt c.offset name attributes,
      false⟩ [.text (d.spanTo stop) content], [], e⟩ := by
  obtain ⟨tagEnd, htag, hclose⟩ := hr.split
  obtain ⟨tokens, htail⟩ := StartTag.tail_close hclose
  rw [step, ahead_printTag hname htag]
  simp [read_printTag hname ha htag htail, isVoid_of_isRawText hraw, hraw,
    readRawText_printed hraw hcontent hname.gt_notMem hd he]

theorem step_ordinary (hname : IsElementName name) (ha : ∀ a ∈ attributes, a.WellFormed)
    (hvoid : isVoid name = false) (hraw : isRawText name = false)
    (hr : c.Reads (printTag name attributes ++ ['>']) d) :
    step c = .opening
      ⟨⟨c.spanTo d, name, Written.attributesAt c.offset name attributes, false⟩, [], d⟩ := by
  obtain ⟨tagEnd, htag, hclose⟩ := hr.split
  obtain ⟨tokens, htail⟩ := StartTag.tail_close hclose
  rw [step, ahead_printTag hname htag]
  simp [read_printTag hname ha htag htail, hvoid, hraw]

end PrintedElement

/-! ### Bodies -/

namespace Body

variable {parent : String} {outer : List String} {more : Body}

/-- A printed end tag closes the body that it is the end tag of. -/
theorem Run.printEndTag (hname : IsElementName parent) (hr : c.Reads (printEndTag parent) d) :
    Run parent outer c ⟨[], .closed (c.spanTo d), [], d⟩ := by
  rw [← skipPast_printEndTag hname.gt_notMem hr]
  exact .closed (step_printEndTag hname hr) (sameIgnoringCase_refl _)

end Body

namespace Written

theorem head?_print {w : Written} (htext : w.isText = false) : w.print.head? = some '<' := by
  cases w with
  | text => cases htext
  | comment | selfClosed | void | rawText | ordinary => rfl

/-- What follows a text in a printed body begins with `<`. -/
theorem head?_printAll {ws : List Written} (htext : ws.head?.any isText = false)
    (hd : d.rest.head? = some '<') (hr : c.Reads (printAll ws) d) : c.rest.head? = some '<' := by
  cases ws with
  | nil => rwa [hr.1]
  | cons w rest =>
    obtain ⟨tail, htail⟩ := List.head?_eq_some_iff.1 (head?_print (w := w) (by simpa using htext))
    rw [hr.1, printAll, htail]
    rfl

theorem print_ne_nil {w : Written} (hw : w.WellFormed) : w.print ≠ [] := by
  cases w with
  | text => exact hw.1
  | comment | selfClosed | void | rawText | ordinary => exact List.cons_ne_nil _ _

theorem spanTo_eq {w : Written} (hr : c.Reads w.print d) : c.spanTo d = w.spanAt c.offset := by
  rw [Cursor.spanTo, hr.2, spanAt]

/-- The places where the content of a printed element begins and stops. -/
theorem exists_content {name : String} {attributes : List WrittenAttribute} {inner : List Char}
    (hr : c.Reads (printTag name attributes ++ ('>' :: (inner ++ printEndTag name))) e) :
    ∃ start stop, c.Reads (printTag name attributes ++ ['>']) start ∧ start.Reads inner stop ∧
      stop.Reads (printEndTag name) e ∧ start.offset = contentAt c.offset name attributes := by
  rw [List.append_cons] at hr
  obtain ⟨start, htag, hr⟩ := hr.split
  obtain ⟨stop, hinner, hend⟩ := hr.split
  exact ⟨start, stop, htag, hinner, hend, htag.2⟩

open Body (Run)

mutual

/-- A printed node is read as one node, whatever is read behind it. -/
theorem run_print {parent : String} {outer : List String} {more : Body} {c d : Cursor}
    (w : Written) (hw : w.WellFormed) (hr : c.Reads w.print d)
    (hd : w.isText = true → d.rest.head? = some '<') (hmore : Run parent outer d more) :
    Run parent outer c (more.prepend [w.place c.offset] []) := by
  have hspan := spanTo_eq hr
  have hrest : c.rest ≠ [] := by
    rw [hr.1]
    simp [print_ne_nil hw]
  cases w with
  | text value =>
    have hstep := step_printText hw.1 hw.2 hr (hd rfl)
    rw [hspan] at hstep
    exact .node hrest hstep hmore
  | comment data =>
    have hstep := step_printComment hw hr
    rw [hspan] at hstep
    exact .node hrest hstep hmore
  | selfClosed name attributes =>
    have hstep := step_selfClosed hw.1 hw.2 hr
    rw [hspan] at hstep
    exact .node hrest hstep hmore
  | void name attributes =>
    have hstep := step_void hw.1 hw.2.1 hw.2.2 hr
    rw [hspan] at hstep
    exact .node hrest hstep hmore
  | rawText name attributes content =>
    obtain ⟨hname, ha, hraw, hcontent⟩ := hw
    obtain ⟨start, stop, htag, hinner, hend, hstart⟩ := exists_content hr
    have hstep := step_rawText hname ha hraw hcontent htag hinner hend
    rw [hspan, spanTo_eq (w := .text content) hinner, hstart] at hstep
    exact .node hrest hstep hmore
  | ordinary name attributes children =>
    obtain ⟨hname, ha, hvoid, hraw, hchildren⟩ := hw
    obtain ⟨start, stop, htag, hinner, hend, hstart⟩ := exists_content hr
    have hclosed : Run name (parent :: outer) stop _ := .printEndTag hname hend
    have hinside := run_printAll children hchildren hinner (head?_of_printEndTag hend) hclosed
    have hall := Run.element (step_ordinary hname ha hvoid hraw htag) hinside hmore
    rw [Body.toElement, hstart] at hall
    simp only [Body.prepend, List.append_nil] at hall
    rw [hspan] at hall
    exact hall

theorem run_printAll {parent : String} {outer : List String} {more : Body} {c d : Cursor}
    (ws : List Written) (hws : AllWellFormed ws) (hr : c.Reads (printAll ws) d)
    (hd : d.rest.head? = some '<') (hmore : Run parent outer d more) :
    Run parent outer c (more.prepend (placeAll c.offset ws) []) := by
  cases ws with
  | nil =>
    cases hr.unique (.refl c)
    exact hmore
  | cons w rest =>
    obtain ⟨b, hw, hrest⟩ := hr.split
    obtain ⟨hwf, htext, hrestwf⟩ := hws
    have hrun := run_printAll rest hrestwf hrest hd hmore
    have hboth := run_print w hwf hw (fun h => head?_printAll (htext h) hd hrest) hrun
    rwa [Body.prepend_prepend, List.append_nil, hw.2] at hboth

end

end Written

/-! ### Components -/

section Component

open Written

/-- A template without attributes, as it is printed. -/
def printTemplate (body : List Written) : List Char :=
  printTag "template" [] ++ ('>' :: (printAll body ++ printEndTag "template"))

theorem byteLength_printTemplate (body : List Written) :
    byteLength (printTemplate body) = 10 + byteLength (printAll body) + 11 := by
  have hopen : byteLength (printTag "template" []) = 9 := by decide
  have hgt : byteLength ['>'] = 1 := by decide
  have hclose : byteLength (printEndTag "template") = 11 := by decide
  rw [printTemplate, List.append_cons, byteLength_append, byteLength_append, byteLength_append,
    hopen, hgt, hclose]
  omega

theorem readBlock_printTemplate {body : List Written} (hbody : AllWellFormed body)
    (hr : c.Reads (printTemplate body) d) :
    readBlock false c =
      ⟨.template
        { span := c.spanTo d
          contentSpan := ⟨c.offset + 10, c.offset + 10 + byteLength (printAll body)⟩
          lang := none
          attributes := []
          children := placeAll (c.offset + 10) body }, [], d⟩ := by
  have hname : IsElementName "template" := by decide
  obtain ⟨start, stop, htag, hinner, hend, hstart⟩ := exists_content hr
  obtain ⟨tagEnd, hopen, hclose⟩ := htag.split
  obtain ⟨tokens, htail⟩ := StartTag.tail_close hclose
  have hread := read_printTag hname (by simp) hopen htail
  have hclosed : Body.Run "template" [] stop _ := .printEndTag hname hend
  have hrun := run_printAll body hbody hinner (head?_of_printEndTag hend) hclosed
  have htemplate : readTemplate c (StartTag.read c) =
      ⟨⟨c.spanTo d, ⟨start.offset, stop.offset⟩, none, [], placeAll start.offset body⟩, [], d⟩ := by
    rw [hread, readTemplate_html rfl rfl hrun.read_eq]
    simp only [Body.prepend, List.append_nil]
    rfl
  have hstart' : start.offset = c.offset + 10 := hstart
  rw [hinner.2, hstart'] at htemplate
  exact readBlock_of_sameName (by rw [hread]; exact sameIgnoringCase_refl _) htemplate

/-- The template of a printed component is what is written in it. -/
theorem ofText_printTemplate (body : List Written) (h : AllWellFormed body) :
    Component.ofText ("<template>" ++ String.ofList (printAll body) ++ "</template>") =
      { span := ⟨0, 10 + byteLength (printAll body) + 11⟩
        blocks := [.template
          { span := ⟨0, 10 + byteLength (printAll body) + 11⟩
            contentSpan := ⟨10, 10 + byteLength (printAll body)⟩
            lang := none
            attributes := []
            children := placeAll 10 body }]
        problems := [] } := by
  have htext : ("<template>" ++ String.ofList (printAll body) ++ "</template>").toList =
      printTemplate body := by
    rw [String.toList_append, String.toList_append, String.toList_ofList (l := printAll body),
      List.append_assoc]
    rfl
  have hall : (Cursor.mk 0 (printTemplate body)).Reads (printTemplate body)
      ⟨10 + byteLength (printAll body) + 11, []⟩ := by
    refine ⟨(List.append_nil _).symm, ?_⟩
    rw [byteLength_printTemplate, Nat.zero_add]
  obtain ⟨blocks, problems, hblocks, hproblems, hscan⟩ :=
    (scan_readBlocks false ⟨0, printTemplate body⟩).of_startTag rfl
  rw [readBlock_printTemplate h hall] at hblocks hproblems hscan
  obtain ⟨rfl, rfl⟩ := hscan.of_rest_eq_nil rfl
  rw [Component.ofText_eq, htext, hblocks, hproblems, byteLength_printTemplate]
  simp only [Cursor.spanTo, Nat.zero_add, List.append_nil]

/-- Equal names up to case inside each other, `>` in quotes, a comment that ends in dashes, and
raw text that ends like an end tag. -/
theorem ofText_printTemplate_nested :
    ∃ body, AllWellFormed body ∧
      String.ofList (printAll body) =
        "<DIV a='>'>x<!------><div><Style b=c></styl</Style></div><bR></DIV>" ∧
      Component.ofText ("<template>" ++ String.ofList (printAll body) ++ "</template>") =
        ⟨⟨0, 10 + byteLength (printAll body) + 11⟩,
          [.template ⟨⟨0, 10 + byteLength (printAll body) + 11⟩,
            ⟨10, 10 + byteLength (printAll body)⟩, none, [], placeAll 10 body⟩], []⟩ := by
  refine ⟨[.ordinary "DIV" [⟨"a", some ⟨some .single, ">"⟩⟩] [.text "x", .comment "--",
    .ordinary "div" [] [.rawText "Style" [⟨"b", some ⟨none, "c"⟩⟩] "</styl"], .void "bR" []]],
    ?_, by decide +kernel, ofText_printTemplate _ ?_⟩
  all_goals decide +kernel

end Component

end CosmeticLint.Markup
