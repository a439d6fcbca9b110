import CosmeticLint.Proofs.Markup.Attributes

/-! Start tags against the text they are read from: a tag is its name and its tokens, its
attributes lie inside it, and every problem of a tag lies in the text. -/

namespace CosmeticLint.Markup

/-- The problem is about a stretch of the text between two offsets. -/
structure Problem.Between (text : List Char) (lo hi : Nat) (p : Problem) : Prop where
  proper : p.span.Proper text
  lower : lo ≤ p.span.start
  upper : p.span.stop ≤ hi

theorem Problem.Between.widen {text : List Char} {lo lo' hi hi' : Nat} {p : Problem}
    (h : p.Between text lo hi) (hlo : lo' ≤ lo) (hhi : hi ≤ hi') : p.Between text lo' hi' :=
  ⟨h.proper, Nat.le_trans hlo h.lower, Nat.le_trans h.upper hhi⟩

theorem Problem.Between.of_reads {text w : List Char} {c d : Cursor} (hc : c.LiesIn text)
    (hr : c.Reads w d) (kind : Problem.Kind) :
    Problem.Between text c.offset d.offset ⟨kind, c.spanTo d⟩ :=
  ⟨hc.proper hr, Nat.le_refl _, Nat.le_refl _⟩

/-- The problems of one stretch and of the next lie between the two ends. -/
theorem Problem.between_append {text : List Char} {lo mid hi : Nat} {first second : List Problem}
    (hlo : lo ≤ mid) (hhi : mid ≤ hi) (hfirst : ∀ p ∈ first, p.Between text lo mid)
    (hsecond : ∀ p ∈ second, p.Between text mid hi) :
    ∀ p ∈ first ++ second, p.Between text lo hi := by
  refine List.forall_mem_append.2 ⟨fun p hp => ?_, fun p hp => ?_⟩
  · exact (hfirst p hp).widen (Nat.le_refl _) hhi
  · exact (hsecond p hp).widen hlo (Nat.le_refl _)

namespace StartTag

/-- What a start tag under the cursor `c` consists of: `<` and the name up to `nameEnd`, then
its tokens, which stand for its attributes and problems. -/
structure Spelled (c : Cursor) (r : Read StartTag) (nameEnd : Cursor) (tokens : List Token) :
    Prop where
  name : c.Reads ('<' :: r.value.name.toList) nameEnd
  nameChars : ∀ x ∈ r.value.name.toList, isTagNameChar x = true
  nameEnds : ∀ x, nameEnd.rest.head? = some x → isTagNameChar x = false
  lexed : Token.Lexed nameEnd tokens r.after
  roles : Roles ⟨.unclosedTag r.value.name, c.spanTo r.after⟩ tokens r.value.attributes r.problems
  span : r.value.span = c.spanTo r.after
  selfClosing : r.value.selfClosing = tokens.getLast?.any (·.kind == .selfClose)

theorem spelled_read {c : Cursor} (hc : c.rest.head? = some '<') :
    ∃ nameEnd tokens, Spelled c (read c) nameEnd tokens := by
  obtain ⟨rest, hrest⟩ := List.head?_eq_some_iff.1 hc
  have hlt : c.Reads ['<'] (c.skip 1) := by
    have h := c.reads_skip 1
    rwa [hrest] at h
  have hname := (c.skip 1).reads_skipWhile isTagNameChar
  refine ⟨_, _, ?_, ?_, ?_, Token.lexed_ofTag _, readTokens_roles _ _, rfl, rfl⟩
  · simp only [read, String.toList_ofList]
    exact hlt.trans hname
  · intro x hx
    simp only [read, String.toList_ofList] at hx
    exact List.mem_takeWhile_imp hx
  · intro x hx
    rw [show (c.skip 1).skip _ = (c.skip 1).skipWhile isTagNameChar from rfl,
      Cursor.rest_skipWhile] at hx
    exact head?_dropWhile_eq_false hx

/-- A tag that is spelled out under the cursor is the one that is read there. -/
theorem Spelled.read_eq {c nameEnd : Cursor} {r : Read StartTag} {tokens : List Token}
    (h : Spelled c r nameEnd tokens) : read c = r := by
  obtain ⟨start, hlt, hname⟩ := h.name.split (v := ['<']) (w := r.value.name.toList)
  have hskip : c.skip 1 = start := hlt.skip_eq
  have htake : start.rest.takeWhile isTagNameChar = r.value.name.toList := by
    rw [hname.1]
    exact takeWhile_append_stop h.nameChars h.nameEnds
  obtain ⟨-, -, -, lexed, roles, span, selfClosing⟩ := h
  rw [← span] at roles
  simp only [read, hskip, htake, hname.skip_eq, lexed.ofTag_eq, String.ofList_toList,
    roles.readTokens_eq, ← span, ← selfClosing]

/-- The tag is what the text says at its span: `<` and the name first, then attributes one
after the other up to the end of the tag. -/
structure Faithful (text : List Char) (tag : StartTag) : Prop where
  slice : ∃ inner, tag.span.slice? text = some ('<' :: (tag.name.toList ++ inner))
  attributes : ∀ a ∈ tag.attributes, a.Faithful text
  increasing : tag.attributes.Pairwise fun a b =>
    a.span.start < b.span.start ∧ a.span.stop ≤ b.span.start
  inside : ∀ a ∈ tag.attributes,
    tag.span.start + byteLength ('<' :: tag.name.toList) ≤ a.span.start ∧ a.span.stop ≤ tag.span.stop

namespace Spelled

variable {text : List Char} {c nameEnd : Cursor} {r : Read StartTag} {tokens : List Token}

theorem reads (h : Spelled c r nameEnd tokens) :
    ∃ inner, c.Reads ('<' :: (r.value.name.toList ++ inner)) r.after := by
  obtain ⟨inner, hi⟩ := h.lexed.reads
  exact ⟨inner, h.name.trans hi⟩

theorem faithful (h : Spelled c r nameEnd tokens) (hc : c.LiesIn text) :
    r.value.Faithful text := by
  obtain ⟨inner, hr⟩ := h.reads
  have hstands := h.lexed.stands (hc.reads h.name)
  obtain ⟨hattribute, horder⟩ := h.roles.faithful hstands h.lexed.inOrder
  have hpair := List.pairwise_map.1 horder.pairwise
  refine ⟨⟨inner, by rw [h.span]; exact hc.slice? hr⟩, hattribute, ?_, ?_⟩
  · refine hpair.imp_of_mem ?_
    intro a b ha _ hab
    exact ⟨Nat.lt_of_lt_of_le (hattribute a ha).nonempty hab, hab⟩
  · intro a ha
    have hbounds := horder.bounds a.span (List.mem_map_of_mem ha)
    rw [h.name.2] at hbounds
    rw [h.span]
    exact hbounds

theorem problem_between (h : Spelled c r nameEnd tokens) (hc : c.LiesIn text) :
    ∀ p ∈ r.problems, p.Between text c.offset r.after.offset := by
  obtain ⟨inner, hr⟩ := h.reads
  obtain ⟨invalid, hinvalid, hproblems⟩ := h.roles.reported
  have htoken : ∀ p ∈ invalid, p.Between text c.offset r.after.offset := by
    intro p hp
    obtain ⟨t, ht, reason, rfl⟩ := hinvalid p hp
    have hbounds := h.lexed.inOrder.bounds t.span (List.mem_map_of_mem ht)
    have hstands := h.lexed.stands (hc.reads h.name) t ht
    exact ⟨.of_slice? hstands.slice, Nat.le_trans h.name.offset_le hbounds.1, hbounds.2⟩
  rcases hproblems with heq | ⟨heq, -⟩
  · rwa [heq]
  · rw [heq]
    exact List.forall_mem_append.2 ⟨htoken, List.forall_mem_singleton.2 (.of_reads hc hr _)⟩

end Spelled

/-! ### The tag under the cursor -/

section UnderCursor

variable {text : List Char} {c : Cursor}

theorem reads_after (hlt : c.rest.head? = some '<') :
    ∃ w, w ≠ [] ∧ c.Reads w (read c).after := by
  obtain ⟨nameEnd, tokens, h⟩ := spelled_read hlt
  obtain ⟨inner, hr⟩ := h.reads
  exact ⟨_, by simp, hr⟩

theorem span_read (hlt : c.rest.head? = some '<') :
    (read c).value.span = c.spanTo (read c).after := by
  obtain ⟨nameEnd, tokens, h⟩ := spelled_read hlt
  exact h.span

theorem stop_read (hlt : c.rest.head? = some '<') :
    (read c).value.span.stop = (read c).after.offset := by
  rw [span_read hlt]
  rfl

theorem gt_notMem_name (hlt : c.rest.head? = some '<') : '>' ∉ (read c).value.name.toList := by
  obtain ⟨nameEnd, tokens, h⟩ := spelled_read hlt
  intro hmem
  have hchar := h.nameChars _ hmem
  simp [isTagNameChar] at hchar

theorem problem_between (hc : c.LiesIn text) (hlt : c.rest.head? = some '<') :
    ∀ p ∈ (read c).problems, p.Between text c.offset (read c).after.offset := by
  obtain ⟨nameEnd, tokens, h⟩ := spelled_read hlt
  exact h.problem_between hc

end UnderCursor

end StartTag

end CosmeticLint.Markup
