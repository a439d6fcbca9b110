import CosmeticLint.Proofs.Markup.Nesting
import Mathlib.Data.List.Forall2

/-! The order in which elements are visited. A walk that is asked again and again gives the elements
of the recursive listing and then nothing. Equal elements may stand at several places, so an element
is told by its path, the indices that lead to it from the outside in: the walk visits every path of
an element once and in the order of the paths, in which a path comes before those that go on from
it. In a template that was read this is also the order of the starts of the elements. -/

namespace CosmeticLint.Markup

/-! ### One call after the other -/

namespace Walk

/-- What a walk gives, call by call, up to the call that gives nothing. -/
inductive Yields : Walk → List Element → Prop
  | done {w : Walk} : w.next? = none → Yields w []
  | next {w after : Walk} {e : Element} {es : List Element} :
      w.next? = some (e, after) → Yields after es → Yields w (e :: es)

theorem yields_toList (w : Walk) : w.Yields w.toList := by
  fun_induction toList w with
  | case1 w h => exact .done h
  | case2 w e after h ih => exact .next h ih

theorem Yields.eq_listed {w : Walk} {es : List Element} (h : w.Yields es) : es = w.listed := by
  induction h with
  | done h => rw [listed_next?, h]
  | next h _ ih => rw [listed_next?, h, ih]

theorem yields_start_iff {nodes : List Node} {es : List Element} :
    (start nodes).Yields es ↔ es = preorder nodes := by
  have hlisted : (start nodes).listed = preorder nodes := by simp [listed, start]
  constructor
  · intro h
    rw [h.eq_listed, hlisted]
  · rintro rfl
    rw [← hlisted, ← toList_eq_listed]
    exact yields_toList _

end Walk

/-! ### Paths -/

/-- The indices lead to an element, the last one to the element itself and those in front of it to
the elements around it. -/
inductive LeadsTo : List Node → List Nat → Element → Prop
  | here {nodes children : List Node} {i : Nat} {e : Element} :
      nodes[i]? = some (.element e children) → LeadsTo nodes [i] e
  | inside {nodes children : List Node} {i : Nat} {path : List Nat} {outer e : Element} :
      nodes[i]? = some (.element outer children) → LeadsTo children path e →
      LeadsTo nodes (i :: path) e

theorem leadsTo_iff_exists_cons {nodes : List Node} {path : List Nat} {e : Element} :
    LeadsTo nodes path e ↔ ∃ i inner, path = (0 + i) :: inner ∧ LeadsTo nodes (i :: inner) e := by
  simp only [Nat.zero_add]
  constructor
  · intro h
    cases h with
    | here hnode => exact ⟨_, _, rfl, .here hnode⟩
    | inside hnode hpath => exact ⟨_, _, rfl, .inside hnode hpath⟩
  · rintro ⟨i, inner, rfl, h⟩
    exact h

theorem leadsTo_cons_zero_iff {node : Node} {rest : List Node} {path : List Nat} {e : Element} :
    LeadsTo (node :: rest) (0 :: path) e ↔ ∃ e' children, node = .element e' children ∧
      (path = [] ∧ e = e' ∨ LeadsTo children path e) := by
  constructor
  · intro h
    cases h with
    | here hnode => exact ⟨_, _, Option.some.inj hnode, .inl ⟨rfl, rfl⟩⟩
    | inside hnode hpath => exact ⟨_, _, Option.some.inj hnode, .inr hpath⟩
  · rintro ⟨e', children, rfl, ⟨rfl, rfl⟩ | hpath⟩
    · exact .here rfl
    · exact .inside rfl hpath

theorem leadsTo_cons_succ_iff {node : Node} {rest : List Node} {i : Nat} {path : List Nat}
    {e : Element} : LeadsTo (node :: rest) ((i + 1) :: path) e ↔ LeadsTo rest (i :: path) e := by
  constructor
  · intro h
    cases h with
    | here hnode => exact .here hnode
    | inside hnode hpath => exact .inside hnode hpath
  · intro h
    cases h with
    | here hnode => exact .here hnode
    | inside hnode hpath => exact .inside hnode hpath

mutual

/-- The elements of a node with their paths, the node standing at an index. -/
def Node.located (index : Nat) : Node → List (List Nat × Element)
  | .element e children =>
    ([index], e) :: (locatedFrom 0 children).map fun (path, inner) => (index :: path, inner)
  | .text .. => []
  | .comment .. => []

/-- The elements of some nodes with their paths, the first node standing at an index. -/
def locatedFrom (index : Nat) : List Node → List (List Nat × Element)
  | [] => []
  | node :: rest => node.located index ++ locatedFrom (index + 1) rest

end

mutual

theorem map_snd_located (index : Nat) (node : Node) :
    (node.located index).map (·.2) = node.preorder := by
  cases node with
  | element e children =>
    rw [Node.located, Node.preorder, List.map_cons, List.map_map]
    exact congrArg _ (map_snd_locatedFrom 0 children)
  | text => rfl
  | comment => rfl

theorem map_snd_locatedFrom (index : Nat) (nodes : List Node) :
    (locatedFrom index nodes).map (·.2) = preorder nodes := by
  cases nodes with
  | nil => rfl
  | cons node rest =>
    rw [locatedFrom, preorder, List.map_append, map_snd_located index node,
      map_snd_locatedFrom (index + 1) rest]

end

mutual

theorem mem_located_iff {path : List Nat} {e : Element} (index : Nat) (node : Node)
    (rest : List Node) : (path, e) ∈ node.located index ↔
      ∃ inner, path = index :: inner ∧ LeadsTo (node :: rest) (0 :: inner) e := by
  cases node with
  | element e' children =>
    simp only [Node.located, List.mem_cons, List.mem_map, Prod.exists, Prod.mk.injEq,
      leadsTo_cons_zero_iff, Node.element.injEq]
    constructor
    · rintro (⟨rfl, rfl⟩ | ⟨inner, _, hmem, rfl, rfl⟩)
      · exact ⟨[], rfl, e, children, ⟨rfl, rfl⟩, .inl ⟨rfl, rfl⟩⟩
      · rw [mem_locatedFrom_iff 0 children, ← leadsTo_iff_exists_cons] at hmem
        exact ⟨inner, rfl, e', children, ⟨rfl, rfl⟩, .inr hmem⟩
    · rintro ⟨inner, rfl, _, _, ⟨rfl, rfl⟩, ⟨rfl, rfl⟩ | hpath⟩
      · exact .inl ⟨rfl, rfl⟩
      · refine .inr ⟨inner, e, ?_, rfl, rfl⟩
        rwa [mem_locatedFrom_iff 0 children, ← leadsTo_iff_exists_cons]
  | text => simp [Node.located, leadsTo_cons_zero_iff]
  | comment => simp [Node.located, leadsTo_cons_zero_iff]

theorem mem_locatedFrom_iff {path : List Nat} {e : Element} (index : Nat) (nodes : List Node) :
    (path, e) ∈ locatedFrom index nodes ↔
      ∃ i inner, path = (index + i) :: inner ∧ LeadsTo nodes (i :: inner) e := by
  cases nodes with
  | nil =>
    have hnone : ∀ path, ¬ LeadsTo [] path e := by
      rintro path (⟨h⟩ | ⟨h, -⟩) <;> simp at h
    simp [locatedFrom, hnone]
  | cons node rest =>
    rw [locatedFrom, List.mem_append, mem_located_iff index node rest,
      mem_locatedFrom_iff (index + 1) rest]
    constructor
    · rintro (⟨inner, rfl, h⟩ | ⟨i, inner, rfl, h⟩)
      · exact ⟨0, inner, rfl, h⟩
      · exact ⟨i + 1, inner, by rw [Nat.add_right_comm, Nat.add_assoc], leadsTo_cons_succ_iff.2 h⟩
    · rintro ⟨i, inner, rfl, h⟩
      cases i with
      | zero => exact .inl ⟨inner, rfl, h⟩
      | succ i =>
        exact .inr ⟨i, inner, by rw [Nat.add_right_comm, Nat.add_assoc], leadsTo_cons_succ_iff.1 h⟩

end

mutual

theorem pairwise_located (index : Nat) (node : Node) :
    (node.located index).Pairwise fun a b => a.1 < b.1 := by
  cases node with
  | element e children =>
    rw [Node.located, List.pairwise_cons, List.pairwise_map]
    refine ⟨fun located hmem => ?_, ?_⟩
    · obtain ⟨⟨path, inner⟩, hpath, rfl⟩ := List.mem_map.1 hmem
      obtain ⟨i, tail, rfl, -⟩ := (mem_locatedFrom_iff 0 children).1 hpath
      exact List.cons_lt_cons_iff.2 (.inr ⟨rfl, List.nil_lt_cons _ _⟩)
    · have hinside := pairwise_locatedFrom 0 children
      exact hinside.imp fun h => List.cons_lt_cons_iff.2 (.inr ⟨rfl, h⟩)
  | text => exact .nil
  | comment => exact .nil

/-- An element comes before those inside it, and these before the elements behind it. -/
theorem pairwise_locatedFrom (index : Nat) (nodes : List Node) :
    (locatedFrom index nodes).Pairwise fun a b => a.1 < b.1 := by
  cases nodes with
  | nil => exact .nil
  | cons node rest =>
    rw [locatedFrom, List.pairwise_append]
    refine ⟨pairwise_located index node, pairwise_locatedFrom (index + 1) rest, ?_⟩
    rintro ⟨path, e⟩ hpath ⟨path', e'⟩ hpath'
    obtain ⟨inner, rfl, -⟩ := (mem_located_iff index node rest).1 hpath
    obtain ⟨i, inner', rfl, -⟩ := (mem_locatedFrom_iff (index + 1) rest).1 hpath'
    exact List.cons_lt_cons_iff.2 (.inl (by omega))

end

/-- The elements are listed in the order of their paths, and the elements of all paths are. -/
structure InPathOrder (nodes : List Node) (paths : List (List Nat)) (es : List Element) : Prop where
  leadsTo : List.Forall₂ (LeadsTo nodes) paths es
  increasing : paths.Pairwise (· < ·)
  complete : ∀ path e, LeadsTo nodes path e → path ∈ paths

theorem exists_inPathOrder_preorder (nodes : List Node) :
    ∃ paths, InPathOrder nodes paths (preorder nodes) := by
  have hmem : ∀ path e, (path, e) ∈ locatedFrom 0 nodes ↔ LeadsTo nodes path e := fun path e => by
    rw [mem_locatedFrom_iff, ← leadsTo_iff_exists_cons]
  refine ⟨(locatedFrom 0 nodes).map (·.1), ?_, ?_, fun path e h => ?_⟩
  · rw [← map_snd_locatedFrom 0 nodes, List.forall₂_map_left_iff, List.forall₂_map_right_iff,
      List.forall₂_same]
    exact fun located h => (hmem _ _).1 h
  · rw [List.pairwise_map]
    exact pairwise_locatedFrom 0 nodes
  · exact List.mem_map.2 ⟨(path, e), (hmem path e).2 h, rfl⟩

/-! ### Starts -/

open Cursor (LiesIn)

variable {text : List Char} {c : Cursor}

/-- The element starts earlier. -/
def Element.StartsBefore (a b : Element) : Prop := a.span.start < b.span.start

theorem Tagged.start_lt_stop {span : Span} {name : String} {attributes : List Attribute}
    (h : Tagged text span name attributes) : span.start < span.stop := by
  obtain ⟨inner, hslice⟩ := h.slice
  obtain ⟨before, after, -, hstart, hstop⟩ := Span.slice?_eq_some_iff.1 hslice
  have hpos := byteLength_pos (List.cons_ne_nil '<' (name.toList ++ inner))
  omega

theorem pairwise_startsBefore_append {es fs : List Element} {offset : Nat}
    (hes : es.Pairwise Element.StartsBefore) (hfs : fs.Pairwise Element.StartsBefore)
    (hbefore : ∀ e ∈ es, e.span.start < offset) (hafter : ∀ f ∈ fs, offset ≤ f.span.start) :
    (es ++ fs).Pairwise Element.StartsBefore := by
  refine List.pairwise_append.2 ⟨hes, hfs, fun e he f hf => ?_⟩
  exact Nat.lt_of_lt_of_le (hbefore e he) (hafter f hf)

theorem step_startsBefore {r : Read Node} (h : step c = .node r) :
    r.value.preorder.Pairwise Element.StartsBefore := by
  have hstands := standing_step c
  rw [h] at hstands
  cases hstands with
  | comment hahead =>
    obtain ⟨data, d, ⟨-, heq⟩ | ⟨-, -, heq⟩⟩ := readComment_cases hahead <;>
      simp [heq, Node.preorder]
  | text _ => simp [readText, Node.preorder]
  | childless _ _ => simp [Node.preorder]
  | rawText _ _ _ _ => simp [Node.preorder]

theorem start_lt_stop_of_faithful {nodes : List Node} {problems : List Problem}
    (h : ∀ n ∈ allNodes nodes, n.Faithful text problems) :
    ∀ e ∈ preorder nodes, e.span.start < e.span.stop := by
  intro e he
  obtain ⟨children, hnode⟩ := exists_mem_allNodes nodes he
  exact Tagged.start_lt_stop (h _ hnode)

/-- The elements of a body start in front of its end. -/
theorem Body.Run.start_lt {parent : String} {outer : List String} {b : Body}
    (h : Run parent outer c b) (hc : c.LiesIn text) :
    ∀ e ∈ preorder b.nodes, e.span.start < b.after.offset := fun e he =>
  Nat.lt_of_lt_of_le (start_lt_stop_of_faithful (h.faithful hc).nodes e he)
    (h.element_between hc e he).2

theorem Body.Run.startsBefore {parent : String} {outer : List String} {b : Body}
    (h : Run parent outer c b) (hc : c.LiesIn text) :
    (preorder b.nodes).Pairwise Element.StartsBefore := by
  -- What a step reads ends where the rest of the body begins, so its elements start before those
  -- of the rest; the tag of an element is not empty, so it starts before the elements inside it.
  induction h with
  | endOfSource _ => exact .nil
  | @node parent outer c r more hrest stands run ih =>
    have hnode := step_faithful hc hrest stands
    obtain ⟨v, -, hv⟩ := hnode.reads
    have hd := hc.reads hv
    rw [Body.prepend, preorder_append]
    refine pairwise_startsBefore_append ?_ (ih hd) ?_ fun e he => (run.element_between hd e he).1
    · simpa using step_startsBefore stands
    · intro e he
      have hlt := start_lt_stop_of_faithful (by simpa using hnode.nodes) e he
      exact Nat.lt_of_lt_of_le hlt (step_element_between stands e (by simpa using he)).2
  | @element parent outer c tag inner more stands inside run ihInside ih =>
    obtain ⟨hahead, rfl⟩ := startTag_of_opening stands
    obtain ⟨u, hne, hu⟩ := StartTag.reads_after (head?_of_ahead_eq_startTag hahead)
    have hd := hc.reads hu
    obtain ⟨v, hv⟩ := (inside.faithful hd).reads_after
    have htag : c.offset < (StartTag.read c).after.offset := hu.offset_lt hne
    rw [Body.prepend, preorder_append]
    refine pairwise_startsBefore_append ?_ (ih (hd.reads hv)) ?_
      fun e he => (run.element_between (hd.reads hv) e he).1
    · simp only [preorder_cons, preorder_nil, List.append_nil, toElement, Node.preorder]
      refine List.pairwise_cons.2 ⟨fun e he => ?_, ihInside hd⟩
      exact Nat.lt_of_lt_of_le htag (inside.element_between hd e he).1
    · simp only [preorder_cons, preorder_nil, List.append_nil, toElement, Node.preorder]
      refine List.forall_mem_cons.2 ⟨?_, inside.start_lt hd⟩
      exact Nat.lt_of_lt_of_le htag hv.offset_le
  | closed _ _ => exact .nil
  | implicit _ _ _ => exact .nil
  | stray stands _ _ _ ih =>
    obtain ⟨hahead, rfl⟩ := endTag_of_closing stands
    obtain ⟨tail, hr, -⟩ := endTag_reads hahead
    exact ih (hc.reads hr)

theorem readTemplate_startsBefore (hc : c.LiesIn text) (hlt : c.rest.head? = some '<') :
    (readTemplate c (StartTag.read c)).value.elements.Pairwise Element.StartsBefore := by
  rw [Template.elements, elements_eq_preorder]
  cases hself : (StartTag.read c).value.selfClosing with
  | true =>
    rw [readTemplate_selfClosing hself]
    exact .nil
  | false =>
    cases hlang : Template.langIsHtml (StartTag.read c).value.lang with
    | true =>
      obtain ⟨v, -, hr⟩ := StartTag.reads_after hlt
      rw [readTemplate_html hself hlang rfl]
      exact (Body.run_read _ [] _).startsBefore (hc.reads hr)
    | false =>
      rw [readTemplate_raw hself hlang rfl]
      exact .nil

/-! ### The visit -/

/-- What is visited of some nodes: the elements of the recursive listing, call by call, each of them
once and in the order of their paths. -/
structure Visited (nodes : List Node) (es : List Element) : Prop where
  yields_iff : ∀ es', (Walk.start nodes).Yields es' ↔ es' = es
  eq_preorder : es = preorder nodes
  inPathOrder : ∃ paths, InPathOrder nodes paths es

/-- Elements are visited once each, an element before those inside it, and those of a template that
was read by increasing starts. -/
theorem elements_visited_in_order :
    (∀ nodes : List Node, Visited nodes (elements nodes)) ∧
      ∀ (source : String) (t : Template), (Component.ofText source).template? = some t →
        t.elements.Pairwise fun a b => a.span.start < b.span.start := by
  refine ⟨fun nodes => ?_, fun source t ht => ?_⟩
  · rw [elements_eq_preorder]
    exact ⟨fun es => Walk.yields_start_iff, rfl, exists_inPathOrder_preorder nodes⟩
  · have hscan := scan_readBlocks false (Cursor.ofText source)
    obtain ⟨b, hb, hbt⟩ := List.exists_of_findSome?_eq_some ht
    obtain ⟨seen, d, hd, hlt, hread⟩ := hscan.exists_readBlock (.start source.toList) b hb
    rw [Block.eq_of_template? hbt] at hread
    obtain ⟨-, -, rfl⟩ := readBlock_eq_template hread
    exact readTemplate_startsBefore hd hlt

/-- An end tag that closes two elements, one that closes none, and no end of the template. -/
example : (Component.ofText "<template><p><b></p></i><br>x").template?.map
    (fun t => t.elements.map fun e => (e.name, e.span.start)) =
      some [("p", 10), ("b", 13), ("br", 24)] := by
  decide +kernel

end CosmeticLint.Markup
