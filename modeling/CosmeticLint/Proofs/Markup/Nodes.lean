import CosmeticLint.Markup.Document

/-! Nested nodes listed by recursion: every node, and every element, before those inside
it. The walk that keeps the runs still to visit meets exactly the listed elements. -/

namespace CosmeticLint.Markup

mutual

/-- A node and the nodes inside it. -/
def Node.family : Node → List Node
  | .element e children => .element e children :: allNodes children
  | .text span value => [.text span value]
  | .comment span data => [.comment span data]

/-- Some nodes and the nodes inside them. -/
def allNodes : List Node → List Node
  | [] => []
  | node :: rest => node.family ++ allNodes rest

end

mutual

/-- The elements of a node, each before its descendants. -/
def Node.preorder : Node → List Element
  | .element e children => e :: preorder children
  | .text .. => []
  | .comment .. => []

def preorder : List Node → List Element
  | [] => []
  | node :: rest => node.preorder ++ preorder rest

end

@[simp] theorem allNodes_nil : allNodes [] = [] := rfl

@[simp] theorem allNodes_cons (node : Node) (rest : List Node) :
    allNodes (node :: rest) = node.family ++ allNodes rest := rfl

theorem allNodes_append (a b : List Node) : allNodes (a ++ b) = allNodes a ++ allNodes b := by
  induction a with
  | nil => rfl
  | cons node rest ih => rw [List.cons_append, allNodes_cons, ih, allNodes_cons, List.append_assoc]

@[simp] theorem preorder_nil : preorder [] = [] := rfl

@[simp] theorem preorder_cons (node : Node) (rest : List Node) :
    preorder (node :: rest) = node.preorder ++ preorder rest := rfl

mutual

/-- An element that is listed is one of the nodes. -/
theorem exists_mem_family {e : Element} (node : Node) (h : e ∈ node.preorder) :
    ∃ children, .element e children ∈ node.family := by
  cases node with
  | element e' children =>
    rcases List.mem_cons.1 h with rfl | h
    · exact ⟨children, .head _⟩
    · obtain ⟨inner, hinner⟩ := exists_mem_allNodes children h
      exact ⟨inner, .tail _ hinner⟩
  | text => cases h
  | comment => cases h

theorem exists_mem_allNodes {e : Element} (nodes : List Node) (h : e ∈ preorder nodes) :
    ∃ children, .element e children ∈ allNodes nodes := by
  cases nodes with
  | nil => cases h
  | cons node rest =>
    rcases List.mem_append.1 h with h | h
    · obtain ⟨inner, hinner⟩ := exists_mem_family node h
      exact ⟨inner, List.mem_append_left _ hinner⟩
    · obtain ⟨inner, hinner⟩ := exists_mem_allNodes rest h
      exact ⟨inner, List.mem_append_right _ hinner⟩

end

/-! ### The walk -/

namespace Walk

/-- The elements that a walk has still to meet. -/
def listed (w : Walk) : List Element := w.pending.flatMap preorder

/-- A step of the walk takes the first listed element. -/
theorem listed_next? (w : Walk) :
    w.listed = match w.next? with
      | none => []
      | some (e, after) => e :: after.listed := by
  fun_induction next? w with
  | case1 => rfl
  | case2 runs ih => simpa [listed] using ih
  | case3 e children rest runs => simp [listed, Node.preorder]
  | case4 _ _ rest runs ih => simpa [listed, Node.preorder] using ih
  | case5 _ _ rest runs ih => simpa [listed, Node.preorder] using ih

theorem toList_eq_listed (w : Walk) : w.toList = w.listed := by
  fun_induction toList w with
  | case1 w h => rw [listed_next?, h]
  | case2 w e after h ih => rw [listed_next?, h, ih]

end Walk

/-- Walking over nodes lists their elements as the recursion over them does. -/
theorem elements_eq_preorder (nodes : List Node) : elements nodes = preorder nodes := by
  rw [elements, Walk.toList_eq_listed]
  simp [Walk.listed, Walk.start]

end CosmeticLint.Markup
