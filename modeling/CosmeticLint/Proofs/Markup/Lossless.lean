import CosmeticLint.Proofs.Markup.FaithfulComponent
import CosmeticLint.Proofs.Markup.Layout

/-! No part of a template is lost. Its layout covers the source from the start tag to the end
of the template, and each problem that reports an unclosed tag is accounted for: by an
element that nothing closes, or by a start tag that the end of the source cuts off. -/

namespace CosmeticLint.Markup

variable {text : List Char}

/-- Whether the problem reports an unclosed tag of this name. -/
def Problem.reportsUnclosed (name : String) (p : Problem) : Bool := p.kind = .unclosedTag name

/-! ### Start tags -/

namespace StartTag

/-- Whether a start tag with these problems is cut off by the end of the source. -/
def isCutOff (tag : StartTag) (problems : List Problem) : Bool :=
  problems.contains ⟨.unclosedTag tag.name, tag.span⟩

variable {tag : StartTag} {problems : List Problem}

/-- The problems of a tag that report it as unclosed: none, or one if it is cut off. -/
theorem Stands.unclosed_cases (h : tag.Stands text problems) :
    ∃ invalid : List Problem, (∀ p ∈ invalid, ∃ reason, p.kind = .invalidAttribute reason) ∧
      (problems = invalid ∨
        problems = invalid ++ [⟨.unclosedTag tag.name, tag.span⟩] ∧
          tag.span.stop = byteLength text) := by
  obtain ⟨c, hc, hlt, -, rfl, rfl⟩ := h
  obtain ⟨nameEnd, tokens, hs⟩ := spelled_read hlt
  obtain ⟨inner, hr⟩ := hs.reads
  obtain ⟨invalid, hinvalid, hproblems⟩ := hs.roles.reported
  refine ⟨invalid, fun p hp => ?_, hproblems.imp_right ?_⟩
  · obtain ⟨t, -, reason, rfl⟩ := hinvalid p hp
    exact ⟨reason, rfl⟩
  · rintro ⟨heq, t, ht, hkind⟩
    rw [hs.span]
    exact ⟨heq, (hc.reads hr).offset_eq_iff.2 (hs.lexed.rest_eq_nil ht hkind)⟩

theorem Stands.countP_unclosed (h : tag.Stands text problems) (name : String) :
    problems.countP (Problem.reportsUnclosed name) =
      if tag.name == name && tag.isCutOff problems then 1 else 0 := by
  obtain ⟨invalid, hinvalid, hproblems⟩ := h.unclosed_cases
  have hnone : ∀ p ∈ invalid, ∀ n, p.kind ≠ .unclosedTag n := by
    intro p hp n hn
    obtain ⟨reason, hreason⟩ := hinvalid p hp
    rw [hn] at hreason
    cases hreason
  have hzero : invalid.countP (Problem.reportsUnclosed name) = 0 := by
    rw [List.countP_eq_zero]
    intro p hp
    simpa [Problem.reportsUnclosed] using hnone p hp name
  rcases hproblems with rfl | ⟨rfl, -⟩
  · have hcut : tag.isCutOff problems = false := by
      rw [isCutOff, List.contains_eq_mem, decide_eq_false_iff_not]
      exact fun hmem => hnone _ hmem _ rfl
    rw [hzero, hcut, Bool.and_false]
    rfl
  · have hcut : tag.isCutOff (invalid ++ [⟨.unclosedTag tag.name, tag.span⟩]) = true := by
      simp [isCutOff]
    rw [List.countP_append, hzero, hcut, Bool.and_true, Nat.zero_add, List.countP_singleton]
    by_cases hname : tag.name = name <;> simp [Problem.reportsUnclosed, hname]

/-- A start tag is cut off only where the text ends. -/
theorem Stands.stop_of_isCutOff (h : tag.Stands text problems)
    (hcut : tag.isCutOff problems = true) : tag.span.stop = byteLength text := by
  obtain ⟨invalid, hinvalid, rfl | ⟨-, hstop⟩⟩ := h.unclosed_cases
  · rw [isCutOff, List.contains_eq_mem, decide_eq_true_iff] at hcut
    obtain ⟨reason, hreason⟩ := hinvalid _ hcut
    cases hreason
  · exact hstop

end StartTag

/-! ### Accounting for unclosed tags -/

theorem Closing.countP_unclosed (closing : Closing) (name own : String) :
    (closing.problems own).countP (Problem.reportsUnclosed name) =
      if own == name && closing.isMissing then 1 else 0 := by
  cases closing with
  | endTag span => simp [problems, isMissing]
  | missing offset reported =>
    rw [problems, List.countP_singleton]
    by_cases hname : own = name <;> simp [Problem.reportsUnclosed, isMissing, hname]

namespace Piece

mutual

/-- A piece and all that stand inside it. -/
def all : Piece → List Piece
  | element tag problems pieces closing => element tag problems pieces closing :: allOf pieces
  | rawText tag problems content closing => [rawText tag problems content closing]
  | childless tag problems => [childless tag problems]
  | .text span value => [.text span value]
  | comment span data closed => [comment span data closed]
  | stray name span => [stray name span]

def allOf : List Piece → List Piece
  | [] => []
  | piece :: rest => piece.all ++ allOf rest

end

/-- An element of this name that could have an end tag and has none. -/
def isUnclosed (name : String) : Piece → Bool
  | rawText tag _ _ closing => tag.name == name && closing.isMissing
  | element tag _ _ closing => tag.name == name && closing.isMissing
  | _ => false

/-- The start tag that a piece begins with, and the problems of the tag. -/
def tag? : Piece → Option (StartTag × List Problem)
  | childless tag problems => some (tag, problems)
  | rawText tag problems _ _ => some (tag, problems)
  | element tag problems _ _ => some (tag, problems)
  | _ => none

/-- An element of this name whose start tag is cut off by the end of the source. -/
def isCutOff (name : String) (piece : Piece) : Bool :=
  piece.tag?.any fun (tag, problems) => tag.name == name && tag.isCutOff problems

mutual

/-- The start tags in a layout, at any depth, are those that are read at their places. -/
theorem stands_of_mem_all {around : List String} (piece : Piece) (h : piece.Sound text around)
    {q : Piece} {tag : StartTag} {problems : List Problem} (hq : q ∈ piece.all)
    (htag : q.tag? = some (tag, problems)) : tag.Stands text problems := by
  cases piece with
  | text =>
    rw [List.mem_singleton.1 hq] at htag
    cases htag
  | stray =>
    rw [List.mem_singleton.1 hq] at htag
    cases htag
  | comment =>
    rw [List.mem_singleton.1 hq] at htag
    cases htag
  | childless =>
    rw [List.mem_singleton.1 hq] at htag
    cases htag
    exact h.1
  | rawText =>
    rw [List.mem_singleton.1 hq] at htag
    cases htag
    exact h.1
  | element tag' problems' pieces closing =>
    rcases List.mem_cons.1 hq with rfl | hq
    · cases htag
      exact h.1
    · exact stands_of_mem_allOf pieces h.2.2.2.2.2.2 hq htag

theorem stands_of_mem_allOf {around : List String} (pieces : List Piece)
    (h : AllSound text around pieces) {q : Piece} {tag : StartTag} {problems : List Problem}
    (hq : q ∈ allOf pieces) (htag : q.tag? = some (tag, problems)) : tag.Stands text problems := by
  cases pieces with
  | nil => cases hq
  | cons piece rest =>
    rcases List.mem_append.1 hq with hq | hq
    · exact stands_of_mem_all piece h.1 hq htag
    · exact stands_of_mem_allOf rest h.2 hq htag

end

mutual

/-- Each report of an unclosed tag is for an element without an end tag or a start tag that
is cut off, and each of these is reported. -/
theorem countP_problems (name parent : String) {around : List String} (piece : Piece)
    (h : piece.Sound text around) :
    (piece.problems parent).countP (Problem.reportsUnclosed name) =
      piece.all.countP (isUnclosed name) + piece.all.countP (isCutOff name) := by
  cases piece with
  | text => rfl
  | stray => rfl
  | comment span data closed => cases closed <;> rfl
  | childless tag problems =>
    rw [Piece.problems, h.1.countP_unclosed]
    rw [all, List.countP_singleton, List.countP_singleton]
    exact (Nat.zero_add _).symm
  | rawText tag problems content closing =>
    rw [Piece.problems, List.countP_append, h.1.countP_unclosed, closing.countP_unclosed]
    rw [all, List.countP_singleton, List.countP_singleton]
    exact Nat.add_comm _ _
  | element tag problems pieces closing =>
    have ih := countP_problemsOf name tag.name pieces h.2.2.2.2.2.2
    have hunclosed : isUnclosed name (.element tag problems pieces closing) =
      (tag.name == name && closing.isMissing) := rfl
    have hcut : isCutOff name (.element tag problems pieces closing) =
      (tag.name == name && tag.isCutOff problems) := rfl
    rw [Piece.problems, List.countP_append, List.countP_append, h.1.countP_unclosed,
      closing.countP_unclosed, ih, all, List.countP_cons, List.countP_cons, hunclosed, hcut]
    omega

theorem countP_problemsOf (name parent : String) {around : List String} (pieces : List Piece)
    (h : AllSound text around pieces) :
    (problemsOf parent pieces).countP (Problem.reportsUnclosed name) =
      (allOf pieces).countP (isUnclosed name) + (allOf pieces).countP (isCutOff name) := by
  cases pieces with
  | nil => rfl
  | cons piece rest =>
    rw [problemsOf, allOf, List.countP_append, List.countP_append, List.countP_append,
      countP_problems name parent piece h.1, countP_problemsOf name parent rest h.2]
    omega

end

/-- Every report of an unclosed tag is for an element without an end tag or for a start tag
that is cut off, and each of them is reported. Only the end of the text cuts a tag off. -/
structure Accounted (text : List Char) (parent : String) (piece : Piece) : Prop where
  reports : ∀ name, (piece.problems parent).countP (Problem.reportsUnclosed name) =
    piece.all.countP (isUnclosed name) + piece.all.countP (isCutOff name)
  tags : ∀ q ∈ piece.all, ∀ tag problems, q.tag? = some (tag, problems) →
    tag.Stands text problems ∧ (tag.isCutOff problems = true → tag.span.stop = byteLength text)

theorem Sound.accounted {piece : Piece} {around : List String} (h : piece.Sound text around)
    (parent : String) : piece.Accounted text parent := by
  refine ⟨fun name => countP_problems name parent piece h, fun q hq tag problems htag => ?_⟩
  have hstands := stands_of_mem_all piece h hq htag
  exact ⟨hstands, hstands.stop_of_isCutOff⟩

end Piece

/-! ### The template of a component -/

section Template

variable {c d : Cursor} {seen : Bool} {blocks : List Block} {problems : List Problem}
  {t : Template}

/-- The template `t` is read at `d`, behind `c`. What is reported before it lies in front of
`d`, and what is reported after it lies behind the template. -/
structure Template.ReadAt (text : List Char) (c : Cursor) (problems : List Problem) (t : Template)
    (d : Cursor) : Prop where
  behind : c.offset ≤ d.offset
  liesIn : d.LiesIn text
  startTag : ahead d.rest = .startTag
  reads : (readBlock false d).value = .template t
  problems : ∃ before after, problems = before ++ ((readBlock false d).problems ++ after) ∧
    (∀ p ∈ before, p.span.stop ≤ d.offset) ∧
    ∀ p ∈ after, (readBlock false d).after.offset ≤ p.span.start

/-- A template read behind `e` is also read behind what stands from `c` to `e`. -/
theorem Template.ReadAt.prepend {e : Cursor} {first : List Problem}
    (h : t.ReadAt text e problems d) (hle : c.offset ≤ e.offset)
    (hfirst : ∀ p ∈ first, p.Between text c.offset e.offset) :
    t.ReadAt text c (first ++ problems) d := by
  obtain ⟨before, after, hproblems, hbefore, hafter⟩ := h.problems
  refine ⟨Nat.le_trans hle h.behind, h.liesIn, h.startTag, h.reads, first ++ before, after, ?_, ?_,
    hafter⟩
  · rw [hproblems, List.append_assoc]
  · refine List.forall_mem_append.2 ⟨fun p hp => ?_, hbefore⟩
    exact Nat.le_trans (hfirst p hp).upper h.behind

theorem Scan.exists_template (h : Scan seen c blocks problems) (hseen : seen = false)
    (hc : c.LiesIn text) (ht : blocks.findSome? Block.template? = some t) :
    ∃ d, t.ReadAt text c problems d := by
  induction h with
  | done _ => simp at ht
  | @comment seen c blocks problems hahead _ ih =>
    obtain ⟨u, hu⟩ := nextMarkup_reads c
    have hcomment := readComment_faithful (hc.reads hu) hahead
    obtain ⟨v, -, hv⟩ := hcomment.reads
    obtain ⟨d, hd⟩ := ih hseen ((hc.reads hu).reads hv) ht
    refine ⟨d, hd.prepend (hu.trans hv).offset_le fun p hp => ?_⟩
    exact (hcomment.problems p hp).widen hu.offset_le (Nat.le_refl _)
  | @endTag seen c blocks problems hahead _ ih =>
    obtain ⟨u, hu⟩ := nextMarkup_reads c
    obtain ⟨tail, hr, -⟩ := endTag_reads hahead
    obtain ⟨d, hd⟩ := ih hseen ((hc.reads hu).reads hr) ht
    have hstray : ∀ p ∈ [strayProblem (nextMarkup c)],
        p.Between text c.offset ((nextMarkup c).skipPast '>').offset :=
      List.forall_mem_singleton.2
        ((Problem.Between.of_reads (hc.reads hu) hr _).widen hu.offset_le (Nat.le_refl _))
    exact ⟨d, hd.prepend (hu.trans hr).offset_le hstray⟩
  | @block seen c block blocks problems hahead hreads hscan ih =>
    subst hseen hreads
    obtain ⟨u, hu⟩ := nextMarkup_reads c
    have hblock := readBlock_faithful (hc.reads hu) (head?_of_ahead_eq_startTag hahead) false
    obtain ⟨v, -, hv⟩ := hblock.reads
    rw [List.findSome?_cons] at ht
    split at ht
    · rename_i found hfound
      cases ht
      refine ⟨nextMarkup c, hu.offset_le, hc.reads hu, hahead, Block.eq_of_template? hfound,
        [], problems, (List.nil_append _).symm, by simp, ?_⟩
      exact fun p hp => ((hscan.faithful ((hc.reads hu).reads hv)).2 p hp).lower
    · rename_i hnone
      rw [hnone] at ih
      obtain ⟨d, hd⟩ := ih rfl ((hc.reads hu).reads hv) ht
      refine ⟨d, hd.prepend (hu.trans hv).offset_le fun p hp => ?_⟩
      exact (hblock.problems p hp).widen hu.offset_le (Nat.le_refl _)
  | @other seen c blocks problems _ _ _ ih =>
    obtain ⟨u, hu⟩ := nextMarkup_reads c
    have hskip := Cursor.reads_skip (nextMarkup c) 1
    obtain ⟨d, hd⟩ := ih hseen ((hc.reads hu).reads hskip) ht
    have hnone : ∀ p ∈ ([] : List Problem), p.Between text c.offset ((nextMarkup c).skip 1).offset :=
      by simp
    exact ⟨d, hd.prepend (hu.trans hskip).offset_le hnone⟩

/-- The layout of a template: its start tag, the pieces of its body, and what closes it. It
covers the template's span. Its problems are recorded together, between those that lie in
front of the template and those that lie behind it. -/
structure Template.LaidOut (text : List Char) (problems : List Problem) (t : Template)
    (tag : StartTag) (tagProblems : List Problem) (pieces : List Piece) (closing : Closing) :
    Prop where
  sound : (Piece.element tag tagProblems pieces closing).Sound text []
  span : t.span = (Piece.element tag tagProblems pieces closing).span
  contentSpan : t.contentSpan = ⟨tag.span.stop, closing.contentStop⟩
  attributes : t.attributes = tag.attributes
  children : t.children = Piece.nodesOf pieces
  problems : ∃ before after,
    problems = before ++ ((Piece.element tag tagProblems pieces closing).problems "" ++ after) ∧
      (∀ p ∈ before, p.span.stop ≤ t.span.start) ∧ ∀ p ∈ after, t.span.stop ≤ p.span.start
  accounted : (Piece.element tag tagProblems pieces closing).Accounted text ""

/-- A template that is markup and goes on behind its start tag has a layout. -/
theorem Template.ReadAt.laidOut (hd : t.ReadAt text c problems d)
    (hself : (StartTag.read d).value.selfClosing = false) (hhtml : t.isHtml = true) :
    ∃ pieces closing, t.LaidOut text problems (StartTag.read d).value (StartTag.read d).problems
      pieces closing := by
  obtain ⟨hname, hblock, hvalue⟩ := readBlock_eq_template hd.reads
  have hlang : Template.langIsHtml (StartTag.read d).value.lang = true := by
    rwa [← lang_readTemplate d, hvalue]
  have hlt := head?_of_ahead_eq_startTag hd.startTag
  have hspan := StartTag.span_read hlt
  obtain ⟨u, hu, hr⟩ := StartTag.reads_after hlt
  have hrun := Body.run_read (StartTag.read d).value.name [] (StartTag.read d).after
  obtain ⟨pieces, closing, hlaid⟩ := hrun.laidOut (hd.liesIn.reads hr)
  rw [readTemplate_html hself hlang rfl] at hvalue hblock
  obtain ⟨before, after, hproblems, hbefore, hafter⟩ := hd.problems
  rw [hblock] at hproblems hafter
  have hsound : (Piece.element (StartTag.read d).value (StartTag.read d).problems pieces
      closing).Sound text [] := by
    refine ⟨StartTag.stands_read hd.liesIn hlt, hself, ?_, ?_, ?_, hlaid.closed, hlaid.sound⟩
    · rw [isVoid_congr hname]
      rfl
    · rw [isRawText_congr hname]
      rfl
    · rw [hspan]
      exact hlaid.tiles
  subst hvalue
  refine ⟨pieces, closing, hsound, ?_, ?_, rfl, hlaid.nodes, ⟨before, after, ?_, hbefore, hafter⟩,
    hsound.accounted ""⟩
  · rw [Piece.span, hspan, hlaid.stop]
    rfl
  · rw [hlaid.contentStop]
  · rw [hproblems, Piece.problems, hlaid.problems]

/-- The template of a component, if it is markup, is a self-closing tag or has a layout. -/
theorem template_lossless (source : String) {t : Template}
    (h : (Component.ofText source).template? = some t) (hhtml : t.isHtml = true) :
    (∃ (tag : StartTag) (tagProblems : List Problem), tag.Stands source.toList tagProblems ∧
      tag.selfClosing = true ∧
      t = ⟨tag.span, Span.empty tag.span.stop, tag.lang, tag.attributes, []⟩) ∨
    ∃ tag tagProblems pieces closing,
      t.LaidOut source.toList (Component.ofText source).problems tag tagProblems pieces closing := by
  have hstart := Cursor.LiesIn.start source.toList
  obtain ⟨d, hd⟩ := (scan_readBlocks false (Cursor.ofText source)).exists_template rfl hstart h
  cases hself : (StartTag.read d).value.selfClosing with
  | true =>
    have hlt := head?_of_ahead_eq_startTag hd.startTag
    obtain ⟨-, -, hvalue⟩ := readBlock_eq_template hd.reads
    rw [readTemplate_selfClosing hself] at hvalue
    exact .inl ⟨_, _, StartTag.stands_read hd.liesIn hlt, hself, hvalue.symm⟩
  | false =>
    obtain ⟨pieces, closing, hlaid⟩ := hd.laidOut hself hhtml
    exact .inr ⟨_, _, pieces, closing, hlaid⟩

/-- Misnested tags, a stray end tag, and a start tag that is cut off. -/
theorem template_lossless_misnested :
    ∃ t, (Component.ofText "<template><p><b>x</P></i><u").template? = some t ∧ t.isHtml = true ∧
      ∃ tag tagProblems pieces closing,
        t.LaidOut "<template><p><b>x</P></i><u".toList
          (Component.ofText "<template><p><b>x</P></i><u").problems tag tagProblems pieces closing := by
  have hread : (Component.ofText "<template><p><b>x</P></i><u").template?.any
      (fun t => t.isHtml && t.children.length == 2) = true := by decide +kernel
  obtain ⟨t, ht, hshape⟩ := (Option.any_eq_true _ _).1 hread
  rw [Bool.and_eq_true, beq_iff_eq] at hshape
  refine ⟨t, ht, hshape.1, ?_⟩
  rcases template_lossless _ ht hshape.1 with ⟨tag, problems, -, -, rfl⟩ | hlaid
  · simp at hshape
  · exact hlaid

end Template

end CosmeticLint.Markup
