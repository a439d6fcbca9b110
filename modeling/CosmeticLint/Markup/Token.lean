import CosmeticLint.Text.Cursor

/-! The tokens inside a start tag, after its name. Blanks separate tokens and are
skipped; a token is the longest text of its kind. The list of tokens of a tag ends
with the first `>` or `/>`, or with the end of the source. -/

namespace CosmeticLint.Markup

/-- Space, tab, carriage return, line feed and form feed. -/
def isBlank (c : Char) : Bool :=
  c == ' ' || c == '\t' || c == '\r' || c == '\n' || c == '\x0c'

/-- The characters of attribute names and unquoted values. -/
def isNameChar (c : Char) : Bool :=
  !(isBlank c || c == '"' || c == '\'' || c == '<' || c == '>' || c == '=' || c == '/')

namespace Token

inductive Kind
  | close
  | selfClose
  | slash
  | equals
  | doubleQuoted
  | singleQuoted
  | name
  | endOfSource
  | invalid
  deriving Repr, DecidableEq, Inhabited

namespace Kind

/-- The wording used in problems. -/
def label : Kind → String
  | close => "'>'"
  | selfClose => "'/>'"
  | slash => "'/'"
  | equals => "'='"
  | doubleQuoted => "double-quoted value"
  | singleQuoted => "single-quoted value"
  | name => "name"
  | endOfSource => "end of file"
  | invalid => "invalid token"

/-- Whether no token of the tag can follow. -/
def closesTag : Kind → Bool
  | close | selfClose | endOfSource => true
  | _ => false

end Kind

end Token

structure Token where
  kind : Token.Kind
  span : Span
  text : String
  deriving Repr, DecidableEq, Inhabited

namespace Token

/-- A quoted value whose opening quote is already behind `rest`. A quote that never
recurs makes everything up to the end of the source one invalid token. -/
def measureQuoted (kind : Kind) (quote : Char) (rest : List Char) : Kind × Nat :=
  let body := (rest.takeWhile (· ≠ quote)).length
  if body < rest.length then (kind, body + 2) else (.invalid, body + 1)

/-- Kind and number of characters of the token at the head of a text that does not
start with a blank. -/
def measure : List Char → Kind × Nat
  | [] => (.endOfSource, 0)
  | '/' :: '>' :: _ => (.selfClose, 2)
  | c :: rest =>
    if c = '>' then (.close, 1)
    else if c = '/' then (.slash, 1)
    else if c = '=' then (.equals, 1)
    else if c = '<' then (.invalid, 1)
    else if c = '"' then measureQuoted .doubleQuoted '"' rest
    else if c = '\'' then measureQuoted .singleQuoted '\'' rest
    else (.name, 1 + (rest.takeWhile isNameChar).length)

/-- The next token and the place after it. -/
def next (c : Cursor) : Token × Cursor :=
  let start := c.skipWhile isBlank
  let m := measure start.rest
  (⟨m.1, start.spanTo (start.skip m.2), start.peek m.2⟩, start.skip m.2)

theorem measureQuoted_pos (kind : Kind) (quote : Char) (rest : List Char) :
    0 < (measureQuoted kind quote rest).2 := by
  simp only [measureQuoted]
  split <;> simp

theorem measure_pos {rest : List Char} (h : (measure rest).1 ≠ .endOfSource) :
    rest ≠ [] ∧ 0 < (measure rest).2 := by
  unfold measure at *
  split at h
  · exact absurd rfl h
  · simp
  · refine ⟨by simp, ?_⟩
    iterate 4 (split; · simp)
    split
    · exact measureQuoted_pos ..
    · split
      · exact measureQuoted_pos ..
      · exact Nat.lt_of_lt_of_le Nat.zero_lt_one (Nat.le_add_right ..)

/-- Every token but the end of the source takes at least one character. -/
theorem length_next_lt {c : Cursor} (h : (next c).1.kind ≠ .endOfSource) :
    (next c).2.rest.length < c.rest.length := by
  have hm := measure_pos h
  exact Nat.lt_of_lt_of_le (Cursor.length_skip_lt hm.2 hm.1) (c.length_skipWhile_le _)

theorem length_next_le (c : Cursor) : (next c).2.rest.length ≤ c.rest.length :=
  Nat.le_trans (Cursor.length_skip_le _ _) (c.length_skipWhile_le _)

/-- The tokens up to and including the last one of the tag, and the place after it. -/
def ofTag (c : Cursor) : List Token × Cursor :=
  let t := next c
  if _h : t.1.kind.closesTag then ([t.1], t.2)
  else
    let more := ofTag t.2
    (t.1 :: more.1, more.2)
termination_by c.rest.length
decreasing_by
  apply length_next_lt
  intro he
  simp [t, he, Kind.closesTag] at _h

theorem length_ofTag_le (c : Cursor) : (ofTag c).2.rest.length ≤ c.rest.length := by
  fun_induction ofTag c with
  | case1 c => exact length_next_le c
  | case2 c _ _ _ ih => exact Nat.le_trans ih (length_next_le c)

end Token

end CosmeticLint.Markup
