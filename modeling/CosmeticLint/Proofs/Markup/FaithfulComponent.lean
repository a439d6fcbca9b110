import CosmeticLint.Proofs.Markup.Faithful
import CosmeticLint.Proofs.Markup.Scan

/-! Components against their source: every block, with all that is stored in it, and every
problem is what the source says at its span. -/

namespace CosmeticLint.Markup

variable {text : List Char} {c : Cursor} {problems problems' : List Problem}

/-- The block is what the text says at its spans. -/
def Block.Faithful (text : List Char) (problems : List Problem) : Block → Prop
  | .template t => (∃ name, sameName name "template" = true ∧ Tagged text t.span name t.attributes) ∧
      t.contentSpan.Proper text ∧ ∀ n ∈ allNodes t.children, n.Faithful text problems
  | .script b => (∃ name, sameName name "script" = true ∧ Tagged text b.span name b.attributes) ∧
      b.contentSpan.Proper text ∧ b.contentSpan.slice? text = some b.content.toList
  | .style b => Tagged text b.span b.name b.attributes ∧ b.contentSpan.Proper text
  | .custom b => Tagged text b.span b.name b.attributes ∧ b.contentSpan.Proper text

theorem Block.Faithful.mono {b : Block} (h : b.Faithful text problems)
    (hsub : problems ⊆ problems') : b.Faithful text problems' := by
  cases b with
  | template t => exact ⟨h.1, h.2.1, fun n hn => (h.2.2 n hn).mono hsub⟩
  | script => exact h
  | style => exact h
  | custom => exact h

/-- What holds of a block, and of the problems met with it, read from `c` on. -/
structure Read.FaithfulBlock (text : List Char) (c : Cursor) (r : Read Block) : Prop where
  reads : ∃ w, w ≠ [] ∧ c.Reads w r.after
  block : r.value.Faithful text r.problems
  problems : ∀ p ∈ r.problems, p.Between text c.offset r.after.offset

/-- A block that is kept as written: what follows its start tag, and all its problems. -/
theorem readRawBlock_faithful (hc : c.LiesIn text) (hlt : c.rest.head? = some '<') :
    (∃ w, (StartTag.read c).after.Reads w (readRawBlock (StartTag.read c)).after) ∧
      (readRawBlock (StartTag.read c)).value.span.slice? text =
        some (readRawBlock (StartTag.read c)).value.text.toList ∧
      ∀ p ∈ (readRawBlock (StartTag.read c)).problems,
        p.Between text c.offset (readRawBlock (StartTag.read c)).after.offset := by
  obtain ⟨v, -, hv⟩ := StartTag.reads_after hlt
  have hproblems := StartTag.problem_between hc hlt
  unfold readRawBlock
  split
  · refine ⟨⟨[], .refl _⟩, ?_, hproblems⟩
    rw [StartTag.span_read hlt]
    exact (hc.reads hv).slice? (.refl _)
  · have hraw := readRawText_faithful (hc.reads hv) (StartTag.gt_notMem_name hlt)
    obtain ⟨w, hw⟩ := hraw.reads
    exact ⟨⟨w, hw⟩, hraw.slice, Problem.between_append hv.offset_le hw.offset_le hproblems hraw.problems⟩

theorem readTemplate_faithful (hc : c.LiesIn text) (hlt : c.rest.head? = some '<')
    (hname : sameName (StartTag.read c).value.name "template" = true) {r : Read Template}
    (h : readTemplate c (StartTag.read c) = r) :
    (Read.mk (Block.template r.value) r.problems r.after).FaithfulBlock text c := by
  obtain ⟨v, hv, hr⟩ := StartTag.reads_after hlt
  have hspan := StartTag.span_read hlt
  have hd := hc.reads hr
  have hproblems := StartTag.problem_between hc hlt
  cases hself : (StartTag.read c).value.selfClosing with
  | true =>
    rw [readTemplate_selfClosing hself] at h
    subst h
    have htagged := StartTag.tagged hc hlt (.refl _)
    rw [← hspan] at htagged
    refine ⟨⟨v, hv, hr⟩, ⟨⟨_, hname, htagged⟩, ?_, by simp⟩, hproblems⟩
    rw [hspan]
    exact hd.proper (.refl _)
  | false =>
    cases hlang : Template.langIsHtml (StartTag.read c).value.lang with
    | true =>
      rw [readTemplate_html hself hlang rfl] at h
      subst h
      have hrun := Body.run_read (StartTag.read c).value.name [] (StartTag.read c).after
      have hbody := hrun.faithful hd
      obtain ⟨w, hw⟩ := hbody.reads_after
      obtain ⟨u, e, -, hu, hstop, -⟩ := hbody.reads
      have hinside := hbody.problems
      rw [hrun.reach_eq rfl] at hinside
      refine ⟨⟨v ++ w, by simp [hv], hr.trans hw⟩,
        ⟨⟨_, hname, StartTag.tagged hc hlt hw⟩, ?_, fun n hn => ?_⟩,
        Problem.between_append hr.offset_le hw.offset_le hproblems hinside⟩
      · rw [hspan, ← hstop]
        exact hd.proper hu
      · exact (hbody.nodes n hn).mono (List.subset_append_right _ _)
    | false =>
      rw [readTemplate_raw hself hlang rfl] at h
      subst h
      have hraw := readRawText_faithful hd (StartTag.gt_notMem_name hlt)
      obtain ⟨w, hw⟩ := hraw.reads
      exact ⟨⟨v ++ w, by simp [hv], hr.trans hw⟩,
        ⟨⟨_, hname, StartTag.tagged hc hlt hw⟩, .of_slice? hraw.slice, by simp⟩,
        Problem.between_append hr.offset_le hw.offset_le hproblems hraw.problems⟩

theorem readBlock_faithful (hc : c.LiesIn text) (hlt : c.rest.head? = some '<') (seen : Bool) :
    (readBlock seen c).FaithfulBlock text c := by
  unfold readBlock
  dsimp only
  split
  · rename_i h
    rw [Bool.and_eq_true] at h
    exact readTemplate_faithful hc hlt h.1 rfl
  · obtain ⟨v, hv, hr⟩ := StartTag.reads_after hlt
    obtain ⟨⟨w, hw⟩, hslice, hproblems⟩ := readRawBlock_faithful hc hlt
    have htagged := StartTag.tagged hc hlt hw
    refine ⟨⟨v ++ w, by simp [hv], hr.trans hw⟩, ?_, hproblems⟩
    split
    · rename_i hname
      exact ⟨⟨_, hname, htagged⟩, .of_slice? hslice, hslice⟩
    · split
      · exact ⟨htagged, .of_slice? hslice⟩
      · exact ⟨htagged, .of_slice? hslice⟩

theorem Scan.faithful {seen : Bool} {blocks : List Block} (h : Scan seen c blocks problems)
    (hc : c.LiesIn text) :
    (∀ b ∈ blocks, b.Faithful text problems) ∧
      ∀ p ∈ problems, p.Between text c.offset (byteLength text) := by
  induction h with
  | done _ => simp
  | @comment seen c blocks problems hahead _ ih =>
    obtain ⟨u, hu⟩ := nextMarkup_reads c
    have hcomment := readComment_faithful (hc.reads hu) hahead
    obtain ⟨v, -, hv⟩ := hcomment.reads
    have hd := (hc.reads hu).reads hv
    obtain ⟨hblocks, hproblems⟩ := ih hd
    refine ⟨fun b hb => (hblocks b hb).mono (List.subset_append_right _ _), fun p hp => ?_⟩
    exact (Problem.between_append hv.offset_le hd.offset_le hcomment.problems hproblems p hp).widen
      hu.offset_le (Nat.le_refl _)
  | @endTag seen c blocks problems hahead _ ih =>
    obtain ⟨u, hu⟩ := nextMarkup_reads c
    obtain ⟨tail, hr, -⟩ := endTag_reads hahead
    have hd := (hc.reads hu).reads hr
    obtain ⟨hblocks, hproblems⟩ := ih hd
    have hstray : ∀ p ∈ [strayProblem (nextMarkup c)],
        p.Between text (nextMarkup c).offset ((nextMarkup c).skipPast '>').offset :=
      List.forall_mem_singleton.2 (.of_reads (hc.reads hu) hr _)
    refine ⟨fun b hb => (hblocks b hb).mono (List.subset_cons_self _ _), fun p hp => ?_⟩
    exact (Problem.between_append hr.offset_le hd.offset_le hstray hproblems p hp).widen
      hu.offset_le (Nat.le_refl _)
  | @block seen c block blocks problems hahead hreads _ ih =>
    obtain ⟨u, hu⟩ := nextMarkup_reads c
    have hblock := readBlock_faithful (hc.reads hu) (head?_of_ahead_eq_startTag hahead) seen
    rw [hreads] at hblock
    obtain ⟨v, -, hv⟩ := hblock.reads
    have hd := (hc.reads hu).reads hv
    obtain ⟨hblocks, hproblems⟩ := ih hd
    refine ⟨List.forall_mem_cons.2 ⟨hblock.block.mono (List.subset_append_left _ _), fun b hb => ?_⟩,
      fun p hp => ?_⟩
    · exact (hblocks b hb).mono (List.subset_append_right _ _)
    · exact (Problem.between_append hv.offset_le hd.offset_le hblock.problems hproblems p hp).widen
        hu.offset_le (Nat.le_refl _)
  | @other seen c blocks problems _ _ _ ih =>
    obtain ⟨u, hu⟩ := nextMarkup_reads c
    have hskip := Cursor.reads_skip (nextMarkup c) 1
    obtain ⟨hblocks, hproblems⟩ := ih ((hc.reads hu).reads hskip)
    exact ⟨hblocks, fun p hp =>
      (hproblems p hp).widen (hu.trans hskip).offset_le (Nat.le_refl _)⟩

/-- Everything that reading a component stores is what the source says at the stored span:
the blocks with their tags, attributes, values, contents and nodes, and the problems. -/
theorem component_faithful (source : String) :
    (Component.ofText source).span.Proper source.toList ∧
      (∀ b ∈ (Component.ofText source).blocks,
        b.Faithful source.toList (Component.ofText source).problems) ∧
      ∀ p ∈ (Component.ofText source).problems, p.span.Proper source.toList := by
  have hstart := Cursor.LiesIn.start source.toList
  obtain ⟨hblocks, hproblems⟩ := (scan_readBlocks false (Cursor.ofText source)).faithful hstart
  refine ⟨?_, hblocks, fun p hp => (hproblems p hp).proper⟩
  have h := hstart.proper (Cursor.reads_rest _)
  simpa [Cursor.spanTo, Component.ofText] using h

end CosmeticLint.Markup
