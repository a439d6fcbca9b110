import CosmeticLint.Proofs.Markup.FaithfulComponent

/-! Where the attributes of a template lie. The elements of a body lie between the ends of the body,
an attribute lies behind the `<` of its tag, and so all attributes of a template lie inside the
template. A value without quotes is a name, hence neither empty nor more than one word. -/

namespace CosmeticLint.Markup

open Cursor (LiesIn)

variable {text : List Char} {c : Cursor}

/-! ### Values without quotes -/

/-- A value without quotes is written as one name. -/
def AttributeValue.IsName (v : AttributeValue) : Prop :=
  v.quote = none → v.text.toList ≠ [] ∧ ∀ x ∈ v.text.toList, isNameChar x = true

theorem AttributeValue.isName_of_ofToken? {t : Token} {v : AttributeValue} (ht : t.Stands text)
    (h : ofToken? t = some v) : v.IsName := by
  obtain ⟨rest, hspells⟩ := ht.spells
  unfold ofToken? at h
  split at h
  · cases h
    rintro ⟨⟩
  · cases h
    rintro ⟨⟩
  · rename_i hkind
    cases h
    rw [hkind] at hspells
    exact fun _ => ⟨hspells.1, hspells.2.1⟩
  · cases h

namespace StartTag

theorem Roles.value_isName {unclosed : Problem} {ts : List Token} {as : List Attribute}
    {ps : List Problem} (h : Roles unclosed ts as ps) (hs : ∀ t ∈ ts, t.Stands text) :
    ∀ a ∈ as, ∀ v, a.value = some v → v.IsName := by
  induction h with
  | done => simp
  | close _ => simp
  | cutOff _ => simp
  | slash _ _ ih => exact ih (List.forall_mem_cons.1 hs).2
  | misplaced _ _ ih => exact ih (List.forall_mem_cons.1 hs).2
  | bare _ _ _ ih =>
    exact List.forall_mem_cons.2 ⟨by simp [Attribute.bare], ih (List.forall_mem_cons.1 hs).2⟩
  | loneEquals _ _ => simp [Attribute.bare]
  | @value t e v ts value as ps _ _ gives _ ih =>
    refine List.forall_mem_cons.2 ⟨fun w hw => ?_, ih fun t ht => hs t (by simp [ht])⟩
    cases hw
    exact AttributeValue.isName_of_ofToken? (hs v (by simp)) gives
  | @noValue t e v ts as ps _ _ _ _ ih =>
    refine List.forall_mem_cons.2 ⟨by simp [Attribute.bare], ih fun t ht => hs t ?_⟩
    exact .tail _ (.tail _ ht)

theorem At.value_isName {offset : Nat} {tag : StartTag} (h : tag.At text offset) :
    ∀ a ∈ tag.attributes, ∀ v, a.value = some v → v.IsName := by
  obtain ⟨c, hc, -, rfl⟩ := h
  exact (readTokens_roles _ _).value_isName ((Token.lexed_ofTag _).stands ((hc.skip 1).skip _))

end StartTag

/-! ### Attributes inside a stretch of the text -/

/-- The attribute is what the text says, lies inside the span and behind its start, and its value has
quotes or is a name. -/
structure Attribute.In (text : List Char) (span : Span) (a : Attribute) : Prop where
  faithful : a.Faithful text
  inside : span.start < a.span.start ∧ a.span.stop ≤ span.stop
  isName : ∀ v, a.value = some v → v.IsName

theorem Attribute.In.widen {span outer : Span} {a : Attribute} (h : a.In text span)
    (hstart : outer.start ≤ span.start) (hstop : span.stop ≤ outer.stop) : a.In text outer :=
  ⟨h.faithful, ⟨Nat.lt_of_le_of_lt hstart h.inside.1, Nat.le_trans h.inside.2 hstop⟩, h.isName⟩

theorem Tagged.attribute_in {span : Span} {name : String} {attributes : List Attribute}
    (h : Tagged text span name attributes) : ∀ a ∈ attributes, a.In text span := by
  obtain ⟨tag, hat, htag, -, rfl, hstart, hstop⟩ := h.startTag
  intro a ha
  refine ⟨htag.attributes a ha, ?_, hat.value_isName a ha⟩
  obtain ⟨hlo, hhi⟩ := htag.inside a ha
  have hlt : '<'.utf8Size = 1 := rfl
  rw [byteLength_cons, hlt] at hlo
  omega

/-! ### Elements inside a body -/

theorem preorder_append (a b : List Node) : preorder (a ++ b) = preorder a ++ preorder b := by
  induction a with
  | nil => rfl
  | cons node rest ih => rw [List.cons_append, preorder_cons, ih, preorder_cons, List.append_assoc]

/-- The element lies between two offsets. -/
def Element.Between (lo hi : Nat) (e : Element) : Prop := lo ≤ e.span.start ∧ e.span.stop ≤ hi

theorem Element.Between.widen {lo lo' hi hi' : Nat} {e : Element} (h : e.Between lo hi)
    (hlo : lo' ≤ lo) (hhi : hi ≤ hi') : e.Between lo' hi' :=
  ⟨Nat.le_trans hlo h.1, Nat.le_trans h.2 hhi⟩

/-- A step that is a whole node has one element at most, which is as long as the step. -/
theorem step_element_between {r : Read Node} (h : step c = .node r) :
    ∀ e ∈ r.value.preorder, e.Between c.offset r.after.offset := by
  have hstands := standing_step c
  rw [h] at hstands
  cases hstands with
  | comment hahead =>
    obtain ⟨data, d, ⟨-, heq⟩ | ⟨-, -, heq⟩⟩ := readComment_cases hahead <;>
      simp [heq, Node.preorder]
  | text _ => simp [readText, Node.preorder]
  | childless hahead _ =>
    have hspan := StartTag.span_read (head?_of_ahead_eq_startTag hahead)
    simp [Node.preorder, Element.Between, hspan, Cursor.spanTo]
  | rawText _ _ _ _ => simp [Node.preorder, Element.Between, Cursor.spanTo]

theorem Body.Run.element_between {parent : String} {outer : List String} {b : Body}
    (h : Run parent outer c b) (hc : c.LiesIn text) :
    ∀ e ∈ preorder b.nodes, e.Between c.offset b.after.offset := by
  -- every part of a body is read between the start of the body and its end
  induction h with
  | endOfSource _ => simp
  | @node parent outer c r more hrest stands run ih =>
    obtain ⟨v, -, hv⟩ := (step_faithful hc hrest stands).reads
    obtain ⟨w, hw⟩ := (run.faithful (hc.reads hv)).reads_after
    rw [Body.prepend, preorder_append]
    refine List.forall_mem_append.2 ⟨fun e he => ?_, fun e he => ?_⟩
    · exact (step_element_between stands e (by simpa using he)).widen (Nat.le_refl _) hw.offset_le
    · exact (ih (hc.reads hv) e he).widen hv.offset_le (Nat.le_refl _)
  | @element parent outer c tag inner more stands inside run ihInside ih =>
    obtain ⟨hahead, rfl⟩ := startTag_of_opening stands
    obtain ⟨u, -, hu⟩ := StartTag.reads_after (head?_of_ahead_eq_startTag hahead)
    have hd := hc.reads hu
    obtain ⟨v, hv⟩ := (inside.faithful hd).reads_after
    obtain ⟨w, hw⟩ := (run.faithful (hd.reads hv)).reads_after
    rw [Body.prepend, preorder_append]
    refine List.forall_mem_append.2 ⟨fun e he => ?_, fun e he => ?_⟩
    · simp only [preorder_cons, preorder_nil, List.append_nil, toElement, Node.preorder,
        List.mem_cons] at he
      rcases he with rfl | he
      · exact ⟨Nat.le_refl _, hw.offset_le⟩
      · exact (ihInside hd e he).widen hu.offset_le hw.offset_le
    · exact (ih (hd.reads hv) e he).widen (hu.trans hv).offset_le (Nat.le_refl _)
  | closed _ _ => simp
  | implicit _ _ _ => simp
  | @stray parent outer c name more stands _ _ _ ih =>
    obtain ⟨hahead, rfl⟩ := endTag_of_closing stands
    obtain ⟨tail, hr, -⟩ := endTag_reads hahead
    intro e he
    exact (ih (hc.reads hr) e he).widen hr.offset_le (Nat.le_refl _)

/-! ### The template of a component -/

/-- Every block is read at some place of the text. -/
theorem Scan.exists_readBlock {seen : Bool} {blocks : List Block} {problems : List Problem}
    (h : Scan seen c blocks problems) (hc : c.LiesIn text) :
    ∀ b ∈ blocks, ∃ seen d, d.LiesIn text ∧ d.rest.head? = some '<' ∧ (readBlock seen d).value = b := by
  induction h with
  | done _ => simp
  | @comment seen c blocks problems hahead _ ih =>
    obtain ⟨u, hu⟩ := nextMarkup_reads c
    obtain ⟨v, -, hv⟩ := (readComment_faithful (hc.reads hu) hahead).reads
    exact ih ((hc.reads hu).reads hv)
  | @endTag seen c blocks problems hahead _ ih =>
    obtain ⟨u, hu⟩ := nextMarkup_reads c
    obtain ⟨tail, hr, -⟩ := endTag_reads hahead
    exact ih ((hc.reads hu).reads hr)
  | @block seen c block blocks problems hahead hreads _ ih =>
    obtain ⟨u, hu⟩ := nextMarkup_reads c
    have hlt := head?_of_ahead_eq_startTag hahead
    obtain ⟨v, -, hv⟩ := (readBlock_faithful (hc.reads hu) hlt seen).reads
    rw [hreads] at hv
    refine List.forall_mem_cons.2 ⟨⟨seen, _, hc.reads hu, hlt, by rw [hreads]⟩, ?_⟩
    exact ih ((hc.reads hu).reads hv)
  | @other seen c blocks problems _ _ _ ih =>
    obtain ⟨u, hu⟩ := nextMarkup_reads c
    exact ih ((hc.reads hu).reads (Cursor.reads_skip _ 1))

theorem readTemplate_elements_between (hc : c.LiesIn text) (hlt : c.rest.head? = some '<') :
    ∀ e ∈ (readTemplate c (StartTag.read c)).value.elements,
      e.Between (readTemplate c (StartTag.read c)).value.span.start
        (readTemplate c (StartTag.read c)).value.span.stop := by
  obtain ⟨v, -, hr⟩ := StartTag.reads_after hlt
  cases hself : (StartTag.read c).value.selfClosing with
  | true =>
    rw [readTemplate_selfClosing hself, Template.elements, elements_eq_preorder]
    simp
  | false =>
    cases hlang : Template.langIsHtml (StartTag.read c).value.lang with
    | true =>
      have hrun := Body.run_read (StartTag.read c).value.name [] (StartTag.read c).after
      rw [readTemplate_html hself hlang rfl, Template.elements, elements_eq_preorder]
      intro e he
      exact (hrun.element_between (hc.reads hr) e he).widen hr.offset_le (Nat.le_refl _)
    | false =>
      rw [readTemplate_raw hself hlang rfl, Template.elements, elements_eq_preorder]
      simp

/-- The attributes of a template's own tag and of the elements inside it lie in the template. -/
theorem Component.attribute_in_template {source : String} {t : Template}
    (h : (ofText source).template? = some t) :
    ∀ a ∈ t.attributes ++ t.elements.flatMap (·.attributes), a.In source.toList t.span := by
  have hscan := scan_readBlocks false (Cursor.ofText source)
  obtain ⟨b, hb, hbt⟩ := List.exists_of_findSome?_eq_some h
  have hblock := (hscan.faithful (.start source.toList)).1 b hb
  obtain ⟨seen, d, hd, hlt, hread⟩ := hscan.exists_readBlock (.start source.toList) b hb
  rw [Block.eq_of_template? hbt] at hblock hread
  obtain ⟨⟨name, -, htagged⟩, -, hnodes⟩ := hblock
  obtain ⟨-, -, rfl⟩ := readBlock_eq_template hread
  refine List.forall_mem_append.2 ⟨htagged.attribute_in, fun a ha => ?_⟩
  obtain ⟨e, he, ha⟩ := List.mem_flatMap.1 ha
  have hbetween := readTemplate_elements_between hd hlt e he
  rw [Template.elements, elements_eq_preorder] at he
  obtain ⟨children, hnode⟩ := exists_mem_allNodes _ he
  exact (Tagged.attribute_in (hnodes _ hnode) a ha).widen hbetween.1 hbetween.2

end CosmeticLint.Markup
