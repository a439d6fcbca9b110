import CosmeticLint.Proofs.Text.Slice
import CosmeticLint.Script.Parser

/-! Where the literals of a script stand. A parser does not see a byte order mark at the head of a
text; of what it sees, it is asked that each literal is written where its span says. -/

namespace CosmeticLint.Script

/-! ### Byte order marks -/

/-- A text without the byte order mark that it may begin with. -/
def withoutMark : List Char → List Char
  | '\ufeff' :: rest => rest
  | text => text

/-- How many bytes such a mark takes. -/
def markLength : List Char → Nat
  | '\ufeff' :: _ => '\ufeff'.utf8Size
  | _ => 0

theorem slice?_markLength (text : List Char) :
    (Span.mk (markLength text) (byteLength text)).slice? text = some (withoutMark text) := by
  rw [Span.slice?_eq_some_iff]
  unfold markLength withoutMark
  split
  · exact ⟨['\ufeff'], [], by simp, by simp, by simp⟩
  · exact ⟨[], [], by simp, by simp, by simp⟩

theorem byteLength_withoutMark_le (text : List Char) :
    byteLength (withoutMark text) ≤ byteLength text := by
  obtain ⟨before, after, htext, -, -⟩ := Span.slice?_eq_some_iff.1 (slice?_markLength text)
  have hlength := congrArg byteLength htext
  rw [byteLength_append, byteLength_append] at hlength
  omega

/-! ### Literals as written -/

def closesString (quote : Char) (text : List Char) : Bool := text.head? == some quote

def closesTemplate (text : List Char) : Bool :=
  text.head? == some '\x60' || "$\x7b".toList.isPrefixOf text

/-- Nothing in `body`, outside of its escapes, closes the literal before `rest` can. -/
inductive Unclosed (closes : List Char → Bool) (rest : List Char) : List Char → Prop
  | nil : Unclosed closes rest []
  | plain {x : Char} {body : List Char} (hx : x ≠ '\\')
      (hopen : closes (x :: (body ++ rest)) = false) (h : Unclosed closes rest body) :
      Unclosed closes rest (x :: body)
  | escape {x : Char} {body : List Char} (h : Unclosed closes rest body) :
      Unclosed closes rest ('\\' :: x :: body)
  /-- The text ends after a backslash. -/
  | cutOff (h : rest = []) : Unclosed closes rest ['\\']

/-- What is written between `before` and `after` is a literal. A string, in script or as the value
of an attribute, has the same quote at both ends and none that closes it between them; one that is
not closed ends with its line. A part of a template has delimiters around it and none inside. -/
inductive WrittenAs (before after : List Char) : Category → List Char → Prop
  | string {quote : Char} {body : List Char} (hquote : quote = '"' ∨ quote = '\'')
      (hbody : Unclosed (closesString quote) (quote :: after) body) :
      WrittenAs before after .string (quote :: (body ++ [quote]))
  | attributeValue {quote : Char} {body : List Char} (hquote : quote = '"' ∨ quote = '\'')
      (hbody : quote ∉ body) : WrittenAs before after .string (quote :: (body ++ [quote]))
  | unterminated {quote : Char} {body : List Char} (hquote : quote = '"' ∨ quote = '\'')
      (hbody : Unclosed (closesString quote) after body)
      (hend : ∀ x, after.head? = some x → x = '\n' ∨ x = '\r') :
      WrittenAs before after .string (quote :: body)
  | part {body : List Char}
      (hbefore : before.getLast? = some '\x60' ∨ before.getLast? = some '\x7d')
      (hbody : Unclosed closesTemplate after body) (hafter : closesTemplate after = true) :
      WrittenAs before after .quasi body

/-- The node is written in the script where its span says, in a numbering that starts at `base`. -/
def Node.StandsIn (base : Nat) (script : List Char) (n : Node) : Prop :=
  ∃ before written after, script = before ++ (written ++ after) ∧
    WrittenAs before after n.category written ∧
    n.span = ⟨base + byteLength before, base + byteLength before + byteLength written⟩

/-- Positions are right: every string and template part that the parser meets stands in the text
without its byte order mark. -/
def Parser.Locates (p : Parser) : Prop :=
  ∀ text dialect tree, p.parse text dialect = .ok tree →
    ∀ n ∈ tree.nodes, n.StandsIn p.base (withoutMark text.toList)

/-- Seen from the base, the span of a node slices the script to the node as written. -/
theorem slice?_relativeSpan {base : Nat} {n : Node} {script before written after : List Char}
    (hscript : script = before ++ (written ++ after))
    (hspan : n.span = ⟨base + byteLength before, base + byteLength before + byteLength written⟩) :
    (relativeSpan base n.span).slice? script = some written := by
  refine Span.slice?_eq_some_iff.2 ⟨before, after, hscript, ?_, ?_⟩
  · simp only [relativeSpan, hspan]
    omega
  · simp only [relativeSpan, hspan]
    omega

/-! ### From the tree to the literals -/

theorem Parser.collect_of_parse {p : Parser} {text : String} {dialect : Dialect} {tree : Tree}
    (h : p.parse text dialect = .ok tree) :
    p.collect text dialect = .ok ⟨tree.nodes.filterMap (Node.literal? p.base),
      tree.recovered.map (Fault.relative p.base)⟩ := by
  rw [collect, h]

theorem Parser.collect_of_fault {p : Parser} {text : String} {dialect : Dialect} {f : Fault}
    (h : p.parse text dialect = .error f) :
    p.collect text dialect = .error (f.relative p.base) := by
  rw [collect, h]

/-- The literals are the nodes that have a value. -/
theorem mem_filterMap_literal? {base : Nat} {nodes : List Node} {l : Literal} :
    l ∈ nodes.filterMap (Node.literal? base) ↔
      ∃ n ∈ nodes, n.value = some l.value ∧
        l = ⟨n.category, l.value, relativeSpan base n.span⟩ := by
  simp only [List.mem_filterMap, Node.literal?, Option.map_eq_some_iff]
  constructor
  · rintro ⟨n, hn, value, hvalue, rfl⟩
    exact ⟨n, hn, hvalue, rfl⟩
  · rintro ⟨n, hn, hvalue, hl⟩
    exact ⟨n, hn, _, hvalue, hl.symm⟩

end CosmeticLint.Script
