import CosmeticLint.Proofs.Markup.Bodies
import CosmeticLint.Proofs.Markup.Nodes

/-! What a reading stores is what the source says there. Text and comments are the slices
of their spans, an element begins with its start tag, and every problem lies in the source.
This holds of each step of a body, hence of the run of steps that reads it. -/

namespace CosmeticLint.Markup

open Cursor (LiesIn)

variable {text : List Char} {c d : Cursor} {problems problems' : List Problem}

/-- The start tag that is read at an offset of the text. -/
def StartTag.At (text : List Char) (offset : Nat) (tag : StartTag) : Prop :=
  ∃ c : Cursor, c.LiesIn text ∧ c.offset = offset ∧ (StartTag.read c).value = tag

/-- A stretch of the text that begins with a start tag of this name and these attributes. -/
structure Tagged (text : List Char) (span : Span) (name : String) (attributes : List Attribute) :
    Prop where
  proper : span.Proper text
  slice : ∃ inner, span.slice? text = some ('<' :: (name.toList ++ inner))
  startTag : ∃ tag : StartTag, tag.At text span.start ∧ tag.Faithful text ∧ tag.name = name ∧
    tag.attributes = attributes ∧ tag.span.start = span.start ∧ tag.span.stop ≤ span.stop

/-- The node is what the text says at its span. A comment that no `-->` closes reaches to the
end of the text and is reported. -/
def Node.Faithful (text : List Char) (problems : List Problem) : Node → Prop
  | .element e _ => Tagged text e.span e.name e.attributes
  | .text span value => span.Proper text ∧ span.slice? text = some value.toList
  | .comment span data => span.Proper text ∧
      (span.slice? text = some ("<!--".toList ++ (data.toList ++ "-->".toList)) ∨
        span.slice? text = some ("<!--".toList ++ data.toList) ∧ span.stop = byteLength text ∧
          ⟨.unterminatedComment, span⟩ ∈ problems)

theorem Node.Faithful.mono {node : Node} (h : node.Faithful text problems)
    (hsub : problems ⊆ problems') : node.Faithful text problems' := by
  cases node with
  | element => exact h
  | text => exact h
  | comment =>
    refine ⟨h.1, h.2.imp_right ?_⟩
    rintro ⟨hs, he, hp⟩
    exact ⟨hs, he, hsub hp⟩

/-! ### One step -/

/-- From a start tag to a place behind it. -/
theorem StartTag.tagged (hc : c.LiesIn text) (hlt : c.rest.head? = some '<') {w : List Char}
    (hd : (read c).after.Reads w d) :
    Tagged text (c.spanTo d) (read c).value.name (read c).value.attributes := by
  obtain ⟨nameEnd, tokens, h⟩ := spelled_read hlt
  obtain ⟨inner, hr⟩ := h.reads
  have hall : c.Reads ('<' :: ((read c).value.name.toList ++ (inner ++ w))) d := by
    have := hr.trans hd
    rwa [List.cons_append, List.append_assoc] at this
  refine ⟨hc.proper hall, ⟨inner ++ w, hc.slice? hall⟩,
    ⟨_, ⟨c, hc, rfl, rfl⟩, h.faithful hc, rfl, rfl, ?_, ?_⟩⟩
  · rw [h.span]
    rfl
  · rw [h.span]
    exact hd.offset_le

/-- What holds of a node, and of the problems met with it, after one step. -/
structure Read.FaithfulNode (text : List Char) (c : Cursor) (r : Read Node) : Prop where
  reads : ∃ w, w ≠ [] ∧ c.Reads w r.after
  nodes : ∀ n ∈ r.value.family, n.Faithful text r.problems
  problems : ∀ p ∈ r.problems, p.Between text c.offset r.after.offset

theorem readComment_faithful (hc : c.LiesIn text) (h : ahead c.rest = .comment) :
    (readComment c).FaithfulNode text c := by
  obtain ⟨data, d, ⟨hr, heq⟩ | ⟨hr, hend, heq⟩⟩ := readComment_cases h
  · rw [heq]
    refine ⟨⟨_, by simp, hr⟩, ?_, by simp⟩
    simp only [Node.family, List.mem_singleton, forall_eq]
    refine ⟨hc.proper hr, Or.inl ?_⟩
    rw [String.toList_ofList (l := data)]
    exact hc.slice? hr
  · rw [heq]
    refine ⟨⟨_, by simp, hr⟩, ?_, List.forall_mem_singleton.2 (.of_reads hc hr _)⟩
    simp only [Node.family, List.mem_singleton, forall_eq]
    refine ⟨hc.proper hr, Or.inr ⟨?_, (hc.reads hr).offset_eq_iff.2 hend, by simp⟩⟩
    rw [String.toList_ofList (l := data)]
    exact hc.slice? hr

theorem readText_faithful (hc : c.LiesIn text) (h : c.rest ≠ []) :
    (readText c).FaithfulNode text c := by
  obtain ⟨w, d, hw, hr, heq⟩ := readText_reads h
  rw [heq]
  refine ⟨⟨w, hw, hr⟩, ?_, by simp⟩
  simp only [Node.family, List.mem_singleton, forall_eq]
  refine ⟨hc.proper hr, ?_⟩
  rw [String.toList_ofList]
  exact hc.slice? hr

/-- Raw text and its problems, read from `c` on. -/
structure Read.FaithfulRaw (text : List Char) (c : Cursor) (r : Read RawText) : Prop where
  reads : ∃ w, c.Reads w r.after
  slice : r.value.span.slice? text = some r.value.text.toList
  problems : ∀ p ∈ r.problems, p.Between text c.offset r.after.offset

theorem readRawText_faithful (hc : c.LiesIn text) {name : String} (hname : '>' ∉ name.toList) :
    (readRawText name c).FaithfulRaw text c := by
  obtain ⟨content, d, hr, ⟨w, e, hw, -, -, heq⟩ | ⟨-, heq⟩⟩ := readRawText_cases name hname c
  · rw [heq]
    refine ⟨⟨_, hr.trans hw⟩, ?_, by simp⟩
    rw [String.toList_ofList]
    exact hc.slice? hr
  · rw [heq]
    refine ⟨⟨_, hr⟩, ?_, List.forall_mem_singleton.2 (.of_reads hc hr _)⟩
    rw [String.toList_ofList]
    exact hc.slice? hr

theorem step_faithful (hc : c.LiesIn text) (hrest : c.rest ≠ []) {r : Read Node}
    (h : step c = .node r) : r.FaithfulNode text c := by
  have hstands := standing_step c
  rw [h] at hstands
  cases hstands with
  | comment hahead => exact readComment_faithful hc hahead
  | text hahead => exact readText_faithful hc hrest
  | childless hahead _ =>
    have hlt := head?_of_ahead_eq_startTag hahead
    refine ⟨StartTag.reads_after hlt, ?_, StartTag.problem_between hc hlt⟩
    simp only [Node.family, allNodes_nil, List.mem_singleton, forall_eq]
    have ht := StartTag.tagged hc hlt (Cursor.Reads.refl _)
    rwa [← StartTag.span_read hlt] at ht
  | rawText hahead _ _ hcontent =>
    have hlt := head?_of_ahead_eq_startTag hahead
    obtain ⟨v, hv, hr⟩ := StartTag.reads_after hlt
    have hraw := readRawText_faithful (hc.reads hr) (StartTag.gt_notMem_name hlt)
    rw [hcontent] at hraw
    obtain ⟨w, hw⟩ := hraw.reads
    refine ⟨⟨v ++ w, by simp [hv], hr.trans hw⟩, fun n hn => ?_,
      Problem.between_append hr.offset_le hw.offset_le (StartTag.problem_between hc hlt)
        hraw.problems⟩
    simp only [Node.family, allNodes_cons, allNodes_nil, List.mem_cons, List.append_nil,
      List.not_mem_nil, or_false] at hn
    rcases hn with rfl | rfl
    · exact StartTag.tagged hc hlt hw
    · exact ⟨.of_slice? hraw.slice, hraw.slice⟩

/-! ### Runs -/

namespace Body

/-- What holds of a body read from `c` on: first its content is passed, then its end tag if it
has one. A body that ends at the end tag of an element around it stops before that tag. -/
structure Faithful (text : List Char) (c : Cursor) (b : Body) : Prop where
  reads : ∃ v d w, c.Reads v d ∧ d.offset = b.contentStop ∧ d.Reads w b.after
  nodes : ∀ n ∈ allNodes b.nodes, n.Faithful text b.problems
  problems : ∀ p ∈ b.problems, p.Between text c.offset b.reach
  implicit : b.ending = .implicit → ahead b.after.rest = .endTag
  endTag : ahead c.rest = .endTag → endTagNameStop c ≤ b.reach

theorem Faithful.reads_after {b : Body} (h : b.Faithful text c) : ∃ w, c.Reads w b.after := by
  obtain ⟨v, d, w, hv, -, hw⟩ := h.reads
  exact ⟨v ++ w, hv.trans hw⟩

theorem after_le_reach {b : Body} (h : b.ending = .implicit → ahead b.after.rest = .endTag) :
    b.after.offset ≤ b.reach := by
  rw [reach]
  split
  · rename_i hending
    exact (endTagName_reads (h hending)).offset_le
  · exact Nat.le_refl _
  · exact Nat.le_refl _

theorem Faithful.le_reach {b : Body} (h : b.Faithful text c) : c.offset ≤ b.reach := by
  obtain ⟨w, hw⟩ := h.reads_after
  exact Nat.le_trans hw.offset_le (after_le_reach h.implicit)

/-- What is read behind a body is read past everything the body looked at. -/
theorem Faithful.reach_le {b more : Body} (h : b.Faithful text c)
    (hmore : more.Faithful text b.after) : b.reach ≤ more.reach := by
  rw [reach]
  split
  · rename_i hending
    exact hmore.endTag (h.implicit hending)
  · exact hmore.le_reach
  · exact hmore.le_reach

/-- More nodes and problems in front of a body that is read behind them. -/
theorem Faithful.prepend {b : Body} {d : Cursor} {u : List Char} {nodes : List Node}
    (h : b.Faithful text d) (hd : c.Reads u d)
    (hnodes : ∀ n ∈ allNodes nodes, n.Faithful text problems)
    (hproblems : ∀ p ∈ problems, p.Between text c.offset b.reach)
    (hend : ahead c.rest = .endTag → endTagNameStop c ≤ b.reach) :
    (b.prepend nodes problems).Faithful text c := by
  obtain ⟨v, e, w, hv, hstop, hw⟩ := h.reads
  refine ⟨⟨u ++ v, e, w, hd.trans hv, hstop, hw⟩, ?_, ?_, h.implicit, hend⟩
  · rw [Body.prepend, allNodes_append]
    refine List.forall_mem_append.2 ⟨fun n hn => ?_, fun n hn => ?_⟩
    · exact (hnodes n hn).mono (List.subset_append_left _ _)
    · exact (h.nodes n hn).mono (List.subset_append_right _ _)
  · refine List.forall_mem_append.2 ⟨hproblems, fun p hp => ?_⟩
    exact (h.problems p hp).widen hd.offset_le (Nat.le_refl _)

theorem not_endTag_of_stands {s : Step} (h : step c = s) (hs : ∀ name, s ≠ .closing name) :
    ahead c.rest ≠ .endTag := by
  intro hahead
  rw [step_of_endTag hahead] at h
  exact hs _ h.symm

theorem Run.faithful {parent : String} {outer : List String} {b : Body}
    (h : Run parent outer c b) (hc : c.LiesIn text) : b.Faithful text c := by
  induction h with
  | endOfSource hrest =>
    refine ⟨⟨[], _, [], .refl _, rfl, .refl _⟩, by simp,
      List.forall_mem_singleton.2 (.of_reads hc (.refl _) _), by simp, fun hahead => ?_⟩
    rw [hrest] at hahead
    cases hahead
  | node hrest stands _ ih =>
    have hnode := step_faithful hc hrest stands
    obtain ⟨v, -, hv⟩ := hnode.reads
    have hmore := ih (hc.reads hv)
    refine hmore.prepend hv (by simpa using hnode.nodes) (fun p hp => ?_)
      fun hahead => absurd hahead (not_endTag_of_stands stands (by simp))
    exact (hnode.problems p hp).widen (Nat.le_refl _) hmore.le_reach
  | @element parent outer c tag inner more stands _ _ ihInside ih =>
    obtain ⟨hahead, rfl⟩ := startTag_of_opening stands
    have hlt := head?_of_ahead_eq_startTag hahead
    obtain ⟨u, -, hu⟩ := StartTag.reads_after hlt
    have hinner := ihInside (hc.reads hu)
    obtain ⟨v, hv⟩ := hinner.reads_after
    have hmore := ih ((hc.reads hu).reads hv)
    have hreach := hinner.reach_le hmore
    refine hmore.prepend (hu.trans hv) ?_ (List.forall_mem_append.2 ⟨fun p hp => ?_, fun p hp => ?_⟩)
      fun hahead => absurd hahead (not_endTag_of_stands stands (by simp))
    · simp only [allNodes_cons, allNodes_nil, toElement, Node.family, List.append_nil]
      refine List.forall_mem_cons.2 ⟨StartTag.tagged hc hlt hv, fun n hn => ?_⟩
      exact (hinner.nodes n hn).mono (List.subset_append_right _ _)
    · exact (StartTag.problem_between hc hlt p hp).widen (Nat.le_refl _)
        (Nat.le_trans hinner.le_reach hreach)
    · exact (hinner.problems p hp).widen hu.offset_le hreach
  | closed stands own =>
    obtain ⟨hahead, rfl⟩ := endTag_of_closing stands
    obtain ⟨tail, hr, -⟩ := endTag_reads hahead
    exact ⟨⟨[], _, _, .refl _, rfl, hr⟩, by simp, by simp, by simp, endTagNameStop_le⟩
  | implicit stands _ _ =>
    obtain ⟨hahead, rfl⟩ := endTag_of_closing stands
    exact ⟨⟨[], _, [], .refl _, rfl, .refl _⟩, by simp,
      List.forall_mem_singleton.2 (.of_reads hc (endTagName_reads hahead) _),
      fun _ => hahead, fun _ => Nat.le_refl _⟩
  | stray stands _ _ _ ih =>
    obtain ⟨hahead, rfl⟩ := endTag_of_closing stands
    obtain ⟨tail, hr, -⟩ := endTag_reads hahead
    have hmore := ih (hc.reads hr)
    refine hmore.prepend hr (by simp) (List.forall_mem_singleton.2 ?_) fun h => ?_
    · exact (Problem.Between.of_reads hc hr _).widen (Nat.le_refl _) hmore.le_reach
    · exact Nat.le_trans (endTagNameStop_le h) hmore.le_reach

/-- With no element around it, a body looks no further than it goes. -/
theorem Run.reach_eq {parent : String} {outer : List String} {b : Body}
    (h : Run parent outer c b) (houter : outer = []) : b.reach = b.after.offset := by
  induction h with
  | endOfSource _ => rfl
  | node _ _ _ ih => exact ih houter
  | element _ _ _ _ ih => exact ih houter
  | closed _ _ => rfl
  | implicit _ _ isOpen => simp [houter] at isOpen
  | stray _ _ _ _ ih => exact ih houter

end Body

end CosmeticLint.Markup
