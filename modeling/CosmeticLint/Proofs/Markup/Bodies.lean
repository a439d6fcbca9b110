import CosmeticLint.Markup.Body
import CosmeticLint.Proofs.Markup.StartTags

/-! What is read at each place of a template's body, told by the characters passed over,
and the reading of a whole body as a run of such steps. -/

namespace CosmeticLint.Markup

open Cursor (RunsThrough)

/-! ### Names -/

theorem sameName_comm (a b : String) : sameName a b = sameName b a := sameIgnoringCase_comm _ _

theorem sameName_congr {a b : String} (h : sameName a b = true) (x : String) :
    sameName x a = sameName x b := by
  rw [sameName, sameName, sameIgnoringCase, sameIgnoringCase, sameIgnoringCase_iff.1 h]

theorem isVoid_congr {a b : String} (h : sameName a b = true) : isVoid a = isVoid b := by
  simp only [isVoid, sameName_congr h]

theorem isRawText_congr {a b : String} (h : sameName a b = true) : isRawText a = isRawText b := by
  simp only [isRawText, sameName_congr h]

/-! ### What lies ahead -/

theorem ahead_eq_comment {text : List Char} (h : ahead text = .comment) :
    ∃ rest, text = "<!--".toList ++ rest := by
  unfold ahead at h
  split at h
  · exact ⟨_, rfl⟩
  · cases h
  · split at h <;> cases h
  · cases h

theorem ahead_eq_endTag {text : List Char} (h : ahead text = .endTag) :
    ∃ rest, text = "</".toList ++ rest := by
  unfold ahead at h
  split at h
  · cases h
  · exact ⟨_, rfl⟩
  · split at h <;> cases h
  · cases h

theorem ahead_eq_startTag {text : List Char} (h : ahead text = .startTag) :
    ∃ x rest, text = '<' :: x :: rest ∧ x.isAlpha = true := by
  unfold ahead at h
  split at h
  · cases h
  · cases h
  · rename_i x rest _ _
    split at h
    · rename_i hx
      exact ⟨x, rest, rfl, hx⟩
    · cases h
  · cases h

/-- What lies ahead is told by the first characters: `<!--`, `</`, or `<` and a letter. -/
theorem ahead_eq_ite (text : List Char) :
    ahead text =
      if "<!--".toList.isPrefixOf text then .comment
      else if "</".toList.isPrefixOf text then .endTag
      else if text.head? = some '<' ∧ text.tail.head?.any Char.isAlpha = true then .startTag
      else .other := by
  unfold ahead
  split
  · rfl
  · rfl
  · rename_i x rest hcomment hend
    have hcomment' : "<!--".toList.isPrefixOf ('<' :: x :: rest) = false := by
      rw [Bool.eq_false_iff]
      intro h
      obtain ⟨tail, htail⟩ := List.isPrefixOf_iff_prefix.1 h
      cases htail
      exact hcomment tail rfl rfl
    have hend' : "</".toList.isPrefixOf ('<' :: x :: rest) = false := by
      rw [Bool.eq_false_iff]
      intro h
      obtain ⟨tail, htail⟩ := List.isPrefixOf_iff_prefix.1 h
      cases htail
      exact hend rfl
    rw [hcomment', hend']
    simp
  · rename_i hcomment hend htag
    rw [if_neg, if_neg, if_neg]
    · rintro ⟨hlt, hletter⟩
      obtain ⟨tail, rfl⟩ := List.head?_eq_some_iff.1 hlt
      obtain ⟨x, hx, -⟩ := (Option.any_eq_true _ _).1 hletter
      obtain ⟨rest, hrest⟩ := List.head?_eq_some_iff.1 hx
      rw [List.tail_cons] at hrest
      exact htag x rest (by rw [hrest])
    · intro h
      obtain ⟨tail, rfl⟩ := List.isPrefixOf_iff_prefix.1 h
      exact hend tail rfl
    · intro h
      obtain ⟨tail, rfl⟩ := List.isPrefixOf_iff_prefix.1 h
      exact hcomment tail rfl

theorem head?_of_ahead_eq_startTag {text : List Char} (h : ahead text = .startTag) :
    text.head? = some '<' := by
  obtain ⟨x, rest, rfl, -⟩ := ahead_eq_startTag h
  rfl

/-! ### Single readings -/

variable {c d : Cursor}

/-- A comment is closed by `-->`, or reported and runs to the end of the source. -/
theorem readComment_cases (h : ahead c.rest = .comment) :
    ∃ data d,
      (c.Reads ("<!--".toList ++ (data ++ "-->".toList)) d ∧
        readComment c = ⟨.comment (c.spanTo d) (String.ofList data), [], d⟩) ∨
      (c.Reads ("<!--".toList ++ data) d ∧ d.rest = [] ∧
        readComment c = ⟨.comment (c.spanTo d) (String.ofList data),
          [⟨.unterminatedComment, c.spanTo d⟩], d⟩) := by
  obtain ⟨rest, hrest⟩ := ahead_eq_comment h
  have hopen := Cursor.reads_of_rest_eq hrest
  have hskip : c.skip 4 = _ := hopen.skip_eq
  rw [readComment, hskip]
  split
  · rename_i n hn
    obtain ⟨data, tail, hdata, rfl, hend, -⟩ := exists_isFirst hn
    obtain ⟨after, rfl⟩ := List.isPrefixOf_iff_prefix.1 hend
    have hclose := Cursor.reads_of_rest_eq (hdata.trans (List.append_assoc ..).symm)
    have hlen : data.length + 3 = (data ++ "-->".toList).length := by simp
    refine ⟨data, _, Or.inl ⟨hopen.trans hclose, ?_⟩⟩
    rw [hlen, hclose.skip_eq, (Cursor.reads_of_rest_eq hdata).peek_eq]
  · have hall := Cursor.reads_rest ⟨c.offset + byteLength "<!--".toList, rest⟩
    refine ⟨rest, _, Or.inr ⟨hopen.trans hall, rfl, ?_⟩⟩
    simp only [hall.skip_eq, hall.peek_eq]

theorem readText_reads (hc : c.rest ≠ []) :
    ∃ w d, w ≠ [] ∧ c.Reads w d ∧
      readText c = ⟨.text (c.spanTo d) (String.ofList w), [], d⟩ := by
  obtain ⟨x, xs, hx⟩ := List.exists_cons_of_ne_nil hc
  have hr := c.reads_skip (1 + (c.rest.tail.takeWhile (· ≠ '<')).length)
  refine ⟨_, _, ?_, hr, rfl⟩
  rw [hx, Nat.add_comm]
  simp

/-- Raw text ends before an end tag of its element, or is reported and runs to the end of
the source. -/
theorem readRawText_cases (name : String) (hname : '>' ∉ name.toList) (c : Cursor) :
    ∃ content d, c.Reads content d ∧
      ((∃ w e, d.Reads w e ∧ beginsIgnoringCase ('<' :: '/' :: name.toList) w = true ∧
          RunsThrough '>' w e.rest ∧
          readRawText name c = ⟨⟨c.spanTo d, String.ofList content⟩, [], e⟩) ∨
        (d.rest = [] ∧
          readRawText name c = ⟨⟨c.spanTo d, String.ofList content⟩,
            [⟨.unclosedTag name, c.spanTo d⟩], d⟩)) := by
  rw [readRawText]
  split
  · rename_i n hn
    obtain ⟨content, rest, hrest, rfl, hbegins, -⟩ := exists_isFirst hn
    have hr := Cursor.reads_of_rest_eq hrest
    rw [hr.skip_eq, hr.peek_eq]
    obtain ⟨w, hw, hthrough⟩ := Cursor.reads_skipPast ⟨c.offset + byteLength content, rest⟩ '>'
    refine ⟨content, _, hr, Or.inl ⟨w, _, hw, ?_, hthrough, rfl⟩⟩
    obtain ⟨word, after, hword, hsame⟩ := beginsIgnoringCase_iff.1 hbegins
    have hgt : '>' ∉ word := notMem_of_sameIgnoringCase rfl hsame (by simpa using hname)
    obtain ⟨tail, rfl⟩ := hthrough.begins (hw.1.symm.trans hword) hgt
    exact beginsIgnoringCase_iff.2 ⟨word, tail, rfl, hsame⟩
  · refine ⟨c.rest, _, c.reads_rest, Or.inr ⟨rfl, ?_⟩⟩
    simp only [c.reads_rest.skip_eq, c.reads_rest.peek_eq]

/-- The end tag under the cursor: its name, and the text through the next `>`. -/
theorem endTag_reads (h : ahead c.rest = .endTag) :
    ∃ tail, c.Reads ("</".toList ++ (endTagName c).toList ++ tail) (c.skipPast '>') ∧
      RunsThrough '>' ("</".toList ++ (endTagName c).toList ++ tail) (c.skipPast '>').rest := by
  obtain ⟨rest, hrest⟩ := ahead_eq_endTag h
  have hopen := Cursor.reads_of_rest_eq hrest
  have hskip : c.skip 2 = _ := hopen.skip_eq
  obtain ⟨w, hw, hthrough⟩ := c.reads_skipPast '>'
  have hname : rest = (endTagName c).toList ++
      rest.dropWhile fun x => !(isBlank x || x == '>') := by
    rw [endTagName, hskip, String.toList_ofList, List.takeWhile_append_dropWhile]
  have hgt : '>' ∉ "</".toList ++ (endTagName c).toList := by
    rw [List.mem_append, not_or]
    refine ⟨by decide, ?_⟩
    rw [endTagName, hskip, String.toList_ofList]
    intro hmem
    simpa using List.mem_takeWhile_imp hmem
  have he : w ++ (c.skipPast '>').rest =
      ("</".toList ++ (endTagName c).toList) ++ rest.dropWhile fun x => !(isBlank x || x == '>') := by
    rw [← hw.1, hrest, List.append_assoc, ← hname]
  obtain ⟨tail, rfl⟩ := hthrough.begins he hgt
  exact ⟨tail, hw, hthrough⟩

theorem endTagName_reads (h : ahead c.rest = .endTag) :
    c.Reads ("</".toList ++ (endTagName c).toList) (c.skip (2 + (endTagName c).length)) := by
  obtain ⟨tail, htail, -⟩ := endTag_reads h
  obtain ⟨d, hd, -⟩ := htail.split
  have hlen : 2 + (endTagName c).length = ("</".toList ++ (endTagName c).toList).length := by
    rw [List.length_append, String.length_toList]
    rfl
  rwa [hlen, hd.skip_eq]

/-- Where the name of the end tag under the cursor stops. -/
def endTagNameStop (c : Cursor) : Nat := (c.skip (2 + (endTagName c).length)).offset

theorem endTagNameStop_le (h : ahead c.rest = .endTag) :
    endTagNameStop c ≤ (c.skipPast '>').offset := by
  obtain ⟨tail, htail, -⟩ := endTag_reads h
  have hname := (endTagName_reads h).2
  have hall := htail.2
  rw [byteLength_append] at hall
  rw [endTagNameStop]
  omega

/-! ### One step -/

/-- What stands at `c`, by what lies ahead of it. -/
inductive Standing (c : Cursor) : Step → Prop
  | comment (ahead : ahead c.rest = .comment) : Standing c (.node (readComment c))
  | text (ahead : ahead c.rest = .other) : Standing c (.node (readText c))
  | endTag (ahead : ahead c.rest = .endTag) : Standing c (.closing (endTagName c))
  | childless (ahead : ahead c.rest = .startTag)
      (empty : (StartTag.read c).value.selfClosing = true ∨ isVoid (StartTag.read c).value.name = true) :
      Standing c (.node
        ⟨.element ⟨(StartTag.read c).value.span, (StartTag.read c).value.name,
            (StartTag.read c).value.attributes, true⟩ [],
          (StartTag.read c).problems, (StartTag.read c).after⟩)
  | rawText {content : Read RawText} (ahead : ahead c.rest = .startTag)
      (goesOn : (StartTag.read c).value.selfClosing = false)
      (raw : isRawText (StartTag.read c).value.name = true)
      (reads : readRawText (StartTag.read c).value.name (StartTag.read c).after = content) :
      Standing c (.node
        ⟨.element ⟨c.spanTo content.after, (StartTag.read c).value.name,
            (StartTag.read c).value.attributes, false⟩ [.text content.value.span content.value.text],
          (StartTag.read c).problems ++ content.problems, content.after⟩)
  | opening (ahead : ahead c.rest = .startTag)
      (goesOn : (StartTag.read c).value.selfClosing = false)
      (notVoid : isVoid (StartTag.read c).value.name = false)
      (notRaw : isRawText (StartTag.read c).value.name = false) :
      Standing c (.opening (StartTag.read c))

theorem standing_step (c : Cursor) : Standing c (step c) := by
  unfold step
  split
  · exact .comment ‹_›
  · exact .endTag ‹_›
  · exact .text ‹_›
  · rename_i hahead
    dsimp only
    split
    · rename_i h
      exact .childless hahead (by simpa using h)
    · rename_i h
      rw [Bool.not_eq_true, Bool.or_eq_false_iff] at h
      split
      · rename_i hraw
        exact .rawText hahead h.1 hraw rfl
      · rename_i hraw
        exact .opening hahead h.1 h.2 (by simpa using hraw)

theorem startTag_of_opening {tag : Read StartTag} (h : step c = .opening tag) :
    ahead c.rest = .startTag ∧ tag = StartTag.read c := by
  have hstands := standing_step c
  rw [h] at hstands
  cases hstands with
  | opening hahead _ _ _ => exact ⟨hahead, rfl⟩

/-- Only an element that can have markup inside it is opened. -/
theorem hasContent_of_opening {tag : Read StartTag} (h : step c = .opening tag) :
    tag.value.selfClosing = false ∧ isVoid tag.value.name = false ∧
      isRawText tag.value.name = false := by
  have hstands := standing_step c
  rw [h] at hstands
  cases hstands with
  | opening _ goesOn notVoid notRaw => exact ⟨goesOn, notVoid, notRaw⟩

theorem endTag_of_closing {name : String} (h : step c = .closing name) :
    ahead c.rest = .endTag ∧ name = endTagName c := by
  have hstands := standing_step c
  rw [h] at hstands
  cases hstands with
  | endTag hahead => exact ⟨hahead, rfl⟩

theorem step_of_endTag (h : ahead c.rest = .endTag) : step c = .closing (endTagName c) := by
  rw [step, h]

/-! ### Runs of steps -/

namespace Body

theorem prepend_prepend (b : Body) (nodes nodes' : List Node) (problems problems' : List Problem) :
    (b.prepend nodes' problems').prepend nodes problems =
      b.prepend (nodes ++ nodes') (problems ++ problems') := by
  simp [prepend]

/-- Where the content of a body stops: before its end tag, if it has one. -/
def contentStop (b : Body) : Nat :=
  match b.ending with
  | .closed endTag => endTag.start
  | .implicit | .endOfSource => b.after.offset

/-- How far the reading of a body has looked: beyond its end only to see the end tag of an
element around it. -/
def reach (b : Body) : Nat :=
  match b.ending with
  | .implicit => endTagNameStop b.after
  | .closed _ | .endOfSource => b.after.offset

/-- The reading of the children of `parent` from `c` on, one step after the other. An element
is a step that holds a run of its own. -/
inductive Run : (parent : String) → (outer : List String) → Cursor → Body → Prop
  | endOfSource {parent outer c} (rest : c.rest = []) :
      Run parent outer c ⟨[], .endOfSource, [⟨.unclosedTag parent, Span.empty c.offset⟩], c⟩
  | node {parent outer c r more} (rest : c.rest ≠ []) (stands : step c = .node r)
      (run : Run parent outer r.after more) :
      Run parent outer c (more.prepend [r.value] r.problems)
  | element {parent outer c tag inner more} (stands : step c = .opening tag)
      (inside : Run tag.value.name (parent :: outer) tag.after inner)
      (run : Run parent outer inner.after more) :
      Run parent outer c
        (more.prepend [inner.toElement c tag.value] (tag.problems ++ inner.problems))
  | closed {parent outer c name} (stands : step c = .closing name)
      (own : sameName name parent = true) :
      Run parent outer c ⟨[], .closed (c.spanTo (c.skipPast '>')), [], c.skipPast '>'⟩
  | implicit {parent outer c name} (stands : step c = .closing name)
      (other : sameName name parent = false) (isOpen : outer.any (sameName · name) = true) :
      Run parent outer c ⟨[], .implicit,
        [⟨.unclosedTag parent, c.spanTo (c.skip (2 + name.length))⟩], c⟩
  | stray {parent outer c name more} (stands : step c = .closing name)
      (other : sameName name parent = false) (notOpen : outer.any (sameName · name) = false)
      (run : Run parent outer (c.skipPast '>') more) :
      Run parent outer c (more.prepend []
        [⟨.mismatchedClosingTag parent name, c.spanTo (c.skipPast '>')⟩])

theorem rest_ne_nil_of_stands {c : Cursor} {s : Step} (h : step c = s) (hs : ∀ r, s ≠ .node r) :
    c.rest ≠ [] := by
  intro hc
  subst h
  rw [step, hc] at hs
  exact hs _ rfl

theorem run_read (parent : String) (outer : List String) (c : Cursor) :
    Run parent outer c (read parent outer c) := by
  rw [read_eq]
  by_cases hc : c.rest = []
  · rw [if_pos hc]
    exact .endOfSource hc
  · rw [if_neg hc]
    rcases hs : step c with r | tag | name
    · have hlt := length_step_node_lt hc hs
      exact .node hc hs (run_read parent outer r.after)
    · have hlt := length_step_opening_lt hc hs
      have hle := length_read_le tag.value.name (parent :: outer) tag.after
      exact .element hs (run_read _ _ tag.after) (run_read parent outer _)
    · have hlt := Cursor.length_skipPast_lt (x := '>') hc
      by_cases hown : sameName name parent = true
      · simp only [hown, if_true]
        exact .closed hs hown
      · by_cases hopen : outer.any (sameName · name) = true
        · simp only [hown, hopen, if_true]
          exact .implicit hs (by simpa using hown) hopen
        · simp only [hown, hopen]
          exact .stray hs (by simpa using hown) (by simpa using hopen) (run_read parent outer _)
termination_by c.rest.length

theorem Run.read_eq {parent : String} {outer : List String} {c : Cursor} {b : Body}
    (h : Run parent outer c b) : read parent outer c = b := by
  induction h with
  | endOfSource rest => rw [Body.read_eq, if_pos rest]
  | node rest stands _ ih =>
    rw [Body.read_eq, if_neg rest, stands]
    simp only [ih]
  | element stands _ _ ihInside ih =>
    rw [Body.read_eq, if_neg (rest_ne_nil_of_stands stands (by simp)), stands]
    simp only [ihInside, ih]
  | closed stands own =>
    rw [Body.read_eq, if_neg (rest_ne_nil_of_stands stands (by simp)), stands]
    simp only [own, if_true]
  | implicit stands other isOpen =>
    rw [Body.read_eq, if_neg (rest_ne_nil_of_stands stands (by simp)), stands]
    simp [other, isOpen]
  | stray stands other notOpen _ ih =>
    rw [Body.read_eq, if_neg (rest_ne_nil_of_stands stands (by simp)), stands]
    simp [other, notOpen, ih]

end Body

end CosmeticLint.Markup
