import CosmeticLint.Proofs.Markup.Bodies

/-! The body of a template read by a machine that keeps the open elements on a stack. The
machine looks at each end tag once: it reads the name, closes what the tag leaves unclosed, then
the element that the tag names. The recursive reading looks at an end tag again in every body
around the one where it met it. Both give the same nodes, problems and place. -/

namespace CosmeticLint.Markup

/-- An open element: where it starts, its start tag, and the nodes before it in the body
around it. -/
structure Frame where
  start : Cursor
  tag : StartTag
  before : List Node

namespace Frame

def name (f : Frame) : String := f.tag.name

/-- The body around an element that holds `nodes` and ends at `stop`, up to the element. -/
def close (stop : Cursor) (nodes : List Node) (f : Frame) : List Node :=
  f.before ++ [.element ⟨f.start.spanTo stop, f.name, f.tag.attributes, false⟩ nodes]

/-- Closes frames at `stop` from the inside out. -/
def closeAll (stop : Cursor) (nodes : List Node) (frames : List Frame) : List Node :=
  frames.foldl (close stop) nodes

end Frame

/-- The open elements inside a template, innermost first, the nodes that the innermost holds so
far, the problems met and the place reached. -/
structure Machine where
  frames : List Frame
  nodes : List Node
  problems : List Problem
  place : Cursor

namespace Machine

def start (c : Cursor) : Machine := ⟨[], [], [], c⟩

/-- The name of the end tag that begins with the `</` under the cursor: the text up to the next `>`
or white space, or all of it. -/
def endTagText (c : Cursor) : String :=
  String.ofList ((c.rest.drop 2).takeWhile (· ∉ ['>', ' ', '\t', '\n', '\x0c', '\r']))

/-- What is reported of an element that the end tag under the cursor leaves unclosed: the span
runs from the `</` to the end of the tag's name. -/
def unclosed (place : Cursor) (endTag name : String) : Problem :=
  ⟨.unclosedTag name, place.spanTo (place.skip (2 + endTag.length))⟩

/-- At the end of the source the open elements end, and then the template. -/
def finish (parent : String) (m : Machine) : Body :=
  ⟨Frame.closeAll m.place m.nodes m.frames, .endOfSource,
    m.problems ++ (m.frames.map (·.name) ++ [parent]).map
      fun name => ⟨.unclosedTag name, Span.empty m.place.offset⟩,
    m.place⟩

/-- The end tag under the cursor closes the innermost open element of its name, or the template
`parent`, behind the next `>`. The elements inside that one end where the tag starts. -/
def closeTag (parent endTag : String) (m : Machine) : Machine ⊕ Body :=
  let after := m.place.skipPast '>'
  let inner := m.frames.takeWhile fun f => !sameName f.name endTag
  let nodes := Frame.closeAll m.place m.nodes inner
  let problems := m.problems ++ inner.map (unclosed m.place endTag ·.name)
  match m.frames.dropWhile fun f => !sameName f.name endTag with
  | own :: outer => .inl ⟨outer, own.close after nodes, problems, after⟩
  | [] =>
    if sameName parent endTag then .inr ⟨nodes, .closed (m.place.spanTo after), problems, after⟩
    else
      let innermost := (m.frames.map (·.name)).headD parent
      .inl { m with
        problems := m.problems ++ [⟨.mismatchedClosingTag innermost endTag, m.place.spanTo after⟩]
        place := after }

/-- One step inside the template `parent`, or its body if it ends here. -/
def next (parent : String) (m : Machine) : Machine ⊕ Body :=
  if m.place.rest = [] then .inr (m.finish parent)
  else
    match step m.place with
    | .node r => .inl ⟨m.frames, m.nodes ++ [r.value], m.problems ++ r.problems, r.after⟩
    | .opening tag =>
      .inl ⟨⟨m.place, tag.value, m.nodes⟩ :: m.frames, [], m.problems ++ tag.problems, tag.after⟩
    | .closing _ => m.closeTag parent (endTagText m.place)

theorem length_closeTag_lt {parent endTag : String} {m m' : Machine} (hm : m.place.rest ≠ [])
    (h : m.closeTag parent endTag = .inl m') : m'.place.rest.length < m.place.rest.length := by
  have hafter := Cursor.length_skipPast_lt (x := '>') hm
  simp only [closeTag] at h
  split at h
  · cases h
    exact hafter
  · split at h
    · cases h
    · cases h
      exact hafter

theorem length_next_lt {parent : String} {m m' : Machine} (h : m.next parent = .inl m') :
    m'.place.rest.length < m.place.rest.length := by
  rw [next] at h
  split at h
  · cases h
  · rename_i hm
    split at h
    · rename_i hs
      cases h
      exact length_step_node_lt hm hs
    · rename_i hs
      cases h
      exact length_step_opening_lt hm hs
    · exact length_closeTag_lt hm h

/-- The body that the machine reads, step after step. -/
def run (parent : String) (m : Machine) : Body :=
  match _h : m.next parent with
  | .inl m' => m'.run parent
  | .inr b => b
termination_by m.place.rest.length
decreasing_by exact length_next_lt _h

/-! ### The recursive reading with the elements around it

Inside open elements the recursive reading has calls that still wait. What they do with the
innermost body is said by `unwind`, and every step of the machine leaves the outcome as it is. -/

section Unwinding

variable (parent : String)

/-- The rest of the innermost body, by recursion. -/
def readInnermost : List Frame → Cursor → Body
  | [], c => Body.read parent [] c
  | f :: fs, c => Body.read f.name (fs.map (·.name) ++ [parent]) c

/-- The body of the template when `b` is the innermost body: it is closed where it ends, and the
body around it goes on there. -/
def unwind : List Frame → Body → Body
  | [], b => b
  | f :: fs, b =>
    unwind fs ((readInnermost parent fs b.after).prepend (f.close b.after b.nodes) b.problems)

/-- The body that the recursive reading makes of what the machine has read and what is left. -/
def resume (m : Machine) : Body :=
  unwind parent m.frames ((readInnermost parent m.frames m.place).prepend m.nodes m.problems)

end Unwinding

variable {parent endTag : String} {frames inner outer : List Frame} {nodes : List Node}
  {problems : List Problem} {c : Cursor}

/-- One step of the recursive reading of the innermost body. -/
theorem readInnermost_eq (hc : c.rest ≠ []) :
    readInnermost parent frames c =
      match step c with
      | .node r => (readInnermost parent frames r.after).prepend [r.value] r.problems
      | .opening tag =>
        let inside := Body.read tag.value.name (frames.map (·.name) ++ [parent]) tag.after
        (readInnermost parent frames inside.after).prepend [inside.toElement c tag.value]
          (tag.problems ++ inside.problems)
      | .closing name =>
        let after := c.skipPast '>'
        let innermost := (frames.map (·.name)).headD parent
        if sameName name innermost then ⟨[], .closed (c.spanTo after), [], after⟩
        else if (frames.map (·.name) ++ [parent]).tail.any (sameName · name) then
          ⟨[], .implicit, [unclosed c name innermost], c⟩
        else
          (readInnermost parent frames after).prepend []
            [⟨.mismatchedClosingTag innermost name, c.spanTo after⟩] := by
  cases frames with
  | nil => exact (Body.read_eq ..).trans (if_neg hc)
  | cons f fs => exact (Body.read_eq ..).trans (if_neg hc)

theorem resume_node {r : Read Node} (hc : c.rest ≠ []) (hs : step c = .node r) :
    resume parent ⟨frames, nodes ++ [r.value], problems ++ r.problems, r.after⟩ =
      resume parent ⟨frames, nodes, problems, c⟩ := by
  simp only [resume, readInnermost_eq hc, hs, Body.prepend_prepend]

theorem resume_opening {tag : Read StartTag} (hc : c.rest ≠ []) (hs : step c = .opening tag) :
    resume parent ⟨⟨c, tag.value, nodes⟩ :: frames, [], problems ++ tag.problems, tag.after⟩ =
      resume parent ⟨frames, nodes, problems, c⟩ := by
  simp only [resume, readInnermost_eq hc, hs, Body.prepend_prepend, unwind]
  simp only [readInnermost, Frame.name, Frame.close, Body.prepend, Body.toElement, List.nil_append,
    List.append_assoc]

/-! ### End tags -/

theorem endTagText_eq (c : Cursor) : endTagText c = endTagName c := by
  have hchar (x : Char) : decide (x ∉ ['>', ' ', '\t', '\n', '\x0c', '\r']) =
      !(isBlank x || x == '>') := by
    rw [Bool.eq_iff_iff]
    simp [isBlank, and_comm, and_left_comm, and_assoc]
  rw [endTagText, endTagName, funext hchar]
  rfl

/-- An element that the end tag does not name, inside one that it does, ends where the tag
starts. The reading of the body around it meets the same tag again. -/
theorem resume_unclosed {f : Frame} (hc : c.rest ≠ []) (hs : step c = .closing endTag)
    (hf : sameName f.name endTag = false)
    (hopen : (frames.map (·.name) ++ [parent]).any (sameName · endTag) = true) :
    resume parent ⟨f :: frames, nodes, problems, c⟩ =
      resume parent ⟨frames, f.close c nodes, problems ++ [unclosed c endTag f.name], c⟩ := by
  have hread : readInnermost parent (f :: frames) c =
      ⟨[], .implicit, [unclosed c endTag f.name], c⟩ := by
    rw [readInnermost_eq hc, hs]
    simp only [List.map_cons, List.headD_cons, List.cons_append, List.tail_cons,
      sameName_comm endTag, hf, hopen, Bool.false_eq_true, if_false, if_true]
  simp only [resume, hread, unwind, Body.prepend, List.append_nil]

theorem resume_closeAll (hc : c.rest ≠ []) (hs : step c = .closing endTag)
    (hinner : ∀ f ∈ inner, sameName f.name endTag = false)
    (hopen : (outer.map (·.name) ++ [parent]).any (sameName · endTag) = true) :
    resume parent ⟨inner ++ outer, nodes, problems, c⟩ =
      resume parent ⟨outer, Frame.closeAll c nodes inner,
        problems ++ inner.map (unclosed c endTag ·.name), c⟩ := by
  induction inner generalizing nodes problems with
  | nil => simp [Frame.closeAll]
  | cons f inner ih =>
    obtain ⟨hf, hinner⟩ := List.forall_mem_cons.1 hinner
    have hany : ((inner ++ outer).map (·.name) ++ [parent]).any (sameName · endTag) = true := by
      rw [List.map_append, List.append_assoc, List.any_append, hopen, Bool.or_true]
    rw [List.cons_append, resume_unclosed hc hs hf hany, ih hinner, List.append_assoc]
    rfl

/-- The element that the end tag names ends behind the tag. -/
theorem resume_own {own : Frame} (hc : c.rest ≠ []) (hs : step c = .closing endTag)
    (hown : sameName own.name endTag = true) :
    resume parent ⟨own :: outer, nodes, problems, c⟩ =
      resume parent ⟨outer, own.close (c.skipPast '>') nodes, problems, c.skipPast '>'⟩ := by
  have hread : readInnermost parent (own :: outer) c =
      ⟨[], .closed (c.spanTo (c.skipPast '>')), [], c.skipPast '>'⟩ := by
    rw [readInnermost_eq hc, hs]
    simp only [List.map_cons, List.headD_cons, sameName_comm endTag, hown, if_true]
  simp only [resume, hread, unwind, Body.prepend, List.append_nil]

theorem resume_parent (hc : c.rest ≠ []) (hs : step c = .closing endTag)
    (hparent : sameName parent endTag = true) :
    resume parent ⟨[], nodes, problems, c⟩ =
      ⟨nodes, .closed (c.spanTo (c.skipPast '>')), problems, c.skipPast '>'⟩ := by
  have hread : readInnermost parent [] c =
      ⟨[], .closed (c.spanTo (c.skipPast '>')), [], c.skipPast '>'⟩ := by
    rw [readInnermost_eq hc, hs]
    simp only [List.map_nil, List.headD_nil, sameName_comm endTag, hparent, if_true]
  simp only [resume, hread, unwind, Body.prepend, List.append_nil]

theorem resume_stray (hc : c.rest ≠ []) (hs : step c = .closing endTag)
    (hopen : (frames.map (·.name) ++ [parent]).any (sameName · endTag) = false) :
    resume parent ⟨frames, nodes, problems ++ [⟨.mismatchedClosingTag
        ((frames.map (·.name)).headD parent) endTag, c.spanTo (c.skipPast '>')⟩], c.skipPast '>'⟩ =
      resume parent ⟨frames, nodes, problems, c⟩ := by
  have hinnermost : sameName ((frames.map (·.name)).headD parent) endTag = false ∧
      (frames.map (·.name) ++ [parent]).tail.any (sameName · endTag) = false := by
    cases frames with
    | nil => simpa using hopen
    | cons f fs => simpa using hopen
  simp only [resume, readInnermost_eq hc, hs, sameName_comm endTag, hinnermost.1, hinnermost.2,
    Bool.false_eq_true, if_false, Body.prepend_prepend, List.append_nil]

theorem resume_closeTag (m : Machine) (hm : m.place.rest ≠ [])
    (hs : step m.place = .closing endTag) :
    (m.closeTag parent endTag).elim (resume parent) id = m.resume parent := by
  obtain ⟨frames, nodes, problems, c⟩ := m
  -- The frames inside the first one of the tag's name, and that one with those around it.
  have hframes := List.takeWhile_append_dropWhile (p := fun f => !sameName f.name endTag)
    (l := frames)
  have hinner : ∀ f ∈ frames.takeWhile fun f => !sameName f.name endTag,
      sameName f.name endTag = false := by
    intro f hf
    simpa using List.mem_takeWhile_imp hf
  simp only [closeTag]
  cases houter : frames.dropWhile fun f => !sameName f.name endTag with
  | cons own outer =>
    have hown : sameName own.name endTag = true := by
      have h := List.head?_dropWhile_not (fun f : Frame => !sameName f.name endTag) frames
      rw [houter] at h
      simpa using h
    have hopen : ((own :: outer).map (·.name) ++ [parent]).any (sameName · endTag) = true := by
      simp [hown]
    rw [houter] at hframes
    conv => rhs; rw [← hframes]
    rw [resume_closeAll hm hs hinner hopen, resume_own hm hs hown]
    rfl
  | nil =>
    rw [houter, List.append_nil] at hframes
    by_cases hparent : sameName parent endTag = true
    · have hopen : (([] : List Frame).map (·.name) ++ [parent]).any (sameName · endTag) = true := by
        simp [hparent]
      rw [if_pos hparent]
      conv => rhs; rw [← hframes, ← List.append_nil (List.takeWhile _ _)]
      rw [resume_closeAll hm hs hinner hopen, resume_parent hm hs hparent]
      rfl
    · have hopen : (frames.map (·.name) ++ [parent]).any (sameName · endTag) = false := by
        rw [hframes] at hinner
        simpa [hparent] using hinner
      rw [if_neg hparent]
      exact resume_stray hm hs hopen

/-! ### Runs -/

theorem readInnermost_of_rest_eq_nil (hc : c.rest = []) :
    readInnermost parent frames c =
      ⟨[], .endOfSource, [⟨.unclosedTag ((frames.map (·.name)).headD parent),
        Span.empty c.offset⟩], c⟩ := by
  cases frames with
  | nil => exact (Body.read_eq ..).trans (if_pos hc)
  | cons f fs => exact (Body.read_eq ..).trans (if_pos hc)

/-- At the end of the source every waiting call ends its body there. -/
theorem resume_of_rest_eq_nil (hc : c.rest = []) :
    resume parent ⟨frames, nodes, problems, c⟩ = finish parent ⟨frames, nodes, problems, c⟩ := by
  induction frames generalizing nodes problems with
  | nil =>
    simp only [resume, readInnermost_of_rest_eq_nil hc]
    simp [unwind, finish, Frame.closeAll, Body.prepend]
  | cons f fs ih =>
    have hstep : resume parent ⟨f :: fs, nodes, problems, c⟩ =
        resume parent ⟨fs, f.close c nodes,
          problems ++ [⟨.unclosedTag f.name, Span.empty c.offset⟩], c⟩ := by
      simp only [resume, readInnermost_of_rest_eq_nil hc, unwind, Body.prepend, List.append_nil,
        List.map_cons, List.headD_cons]
    rw [hstep, ih]
    simp [finish, Frame.closeAll]

/-- A step of the machine does not change what the recursive reading makes of its state. -/
theorem resume_next (m : Machine) : (m.next parent).elim (resume parent) id = m.resume parent := by
  rw [next]
  split
  · rename_i hm
    exact (resume_of_rest_eq_nil hm).symm
  · rename_i hm
    split
    · rename_i hs
      exact resume_node hm hs
    · rename_i hs
      exact resume_opening hm hs
    · rename_i name hs
      obtain ⟨-, rfl⟩ := endTag_of_closing hs
      rw [endTagText_eq]
      exact resume_closeTag m hm hs

theorem run_eq_resume (m : Machine) : m.run parent = m.resume parent := by
  fun_induction run parent m with
  | case1 m m' h ih =>
    have hnext : (m.next parent).elim (resume parent) id = _ := resume_next m
    rw [h] at hnext
    exact ih.trans hnext
  | case2 m b h =>
    have hnext : (m.next parent).elim (resume parent) id = _ := resume_next m
    rw [h] at hnext
    exact hnext

end Machine

/-- The recursive reading of a template's body gives what the machine with the open elements on
its stack gives: the same nodes with their spans, the same problems in the same order, the same
ending and the same place behind it. -/
theorem Body.read_eq_run (parent : String) (c : Cursor) :
    read parent [] c = (Machine.start c).run parent :=
  (Machine.run_eq_resume (Machine.start c)).symm

end CosmeticLint.Markup
