import CosmeticLint.Proofs.Markup.TagEnds

/-! A walk over the tokens of a tag. The part of a token depends on its kind and on the part of the
token in front of it alone, so one pass over the tokens tells the parts. The attributes and problems
of the tag are what the positions along this walk give: a name gives an attribute, and a token that
is out of place gives a problem, at most one for each position and no problem twice. -/

namespace CosmeticLint.Markup

/-! ### Positions in a list of tokens -/

namespace Token

variable {c d : Cursor} {ts : List Token} {t u : Token} {i j : Nat}

/-- The kinds that stand for a value behind `=`. -/
def Kind.IsValue (kind : Kind) : Prop :=
  kind = .name ∨ kind = .doubleQuoted ∨ kind = .singleQuoted

theorem Kind.Spells.ne_nil {kind : Kind} {w rest : List Char} (h : kind.Spells w rest)
    (hk : kind.closesTag = false) : w ≠ [] := by
  cases kind with
  | close => cases hk
  | selfClose => cases hk
  | endOfSource => cases hk
  | slash => simp [h.1]
  | equals => simp [show w = ['='] from h]
  | name => exact h.1
  | doubleQuoted =>
    obtain ⟨body, -, rfl⟩ := h
    simp
  | singleQuoted =>
    obtain ⟨body, -, rfl⟩ := h
    simp
  | invalid =>
    rcases h with rfl | ⟨quote, body, -, -, rfl, -⟩
    · simp
    · simp

theorem Lexed.endsTag (h : Lexed c ts d) : EndsTag ts := by
  induction h with
  | last _ closes => exact endsTag_cons_iff.2 (by rw [if_pos closes])
  | more _ goesOn _ ih => exact endsTag_cons_iff.2 (by rwa [if_neg (by simp [goesOn])])

theorem Lexed.exists_spells (h : Lexed c ts d) (ht : t ∈ ts) :
    ∃ rest, t.kind.Spells t.text.toList rest := by
  induction h with
  | last found _ =>
    obtain ⟨blanks, start, -, -, -, -, hspell⟩ := found
    rw [List.mem_singleton.1 ht]
    exact ⟨_, hspell⟩
  | more found _ _ ih =>
    rcases List.mem_cons.1 ht with rfl | ht
    · obtain ⟨blanks, start, -, -, -, -, hspell⟩ := found
      exact ⟨_, hspell⟩
    · exact ih ht

theorem Found.start_lt_offset (h : Found c t d) (hk : t.kind.closesTag = false) :
    t.span.start < d.offset := by
  obtain ⟨blanks, start, -, -, hw, hspan, hspell⟩ := h
  obtain ⟨x, w, hx⟩ := List.exists_cons_of_ne_nil (hspell.ne_nil hk)
  have hsize := x.utf8Size_pos
  rw [hspan, hw.2, hx, byteLength_cons]
  show start.offset < _
  omega

/-- Tokens stand one behind the other, and only the last one closes the tag. -/
theorem Lexed.pairwise (h : Lexed c ts d) :
    ts.Pairwise fun t u => t.kind.closesTag = false ∧ t.span.start < u.span.start := by
  induction h with
  | last _ _ => exact List.pairwise_singleton _ _
  | more found goesOn rest ih =>
    refine .cons ?_ ih
    intro u hu
    have hlt := found.start_lt_offset goesOn
    have hle := (rest.inOrder.bounds u.span (List.mem_map_of_mem hu)).1
    exact ⟨goesOn, by omega⟩

theorem Lexed.before (h : Lexed c ts d) (ht : ts[i]? = some t) (hu : ts[j]? = some u)
    (hij : i < j) : t.kind.closesTag = false ∧ t.span.start < u.span.start := by
  obtain ⟨hi, rfl⟩ := List.getElem?_eq_some_iff.1 ht
  obtain ⟨hj, rfl⟩ := List.getElem?_eq_some_iff.1 hu
  exact List.pairwise_iff_getElem.1 h.pairwise i j hi hj hij

/-- A token is told by the place where it starts. -/
theorem Lexed.position_eq (h : Lexed c ts d) (ht : ts[i]? = some t) (hu : ts[j]? = some u)
    (hstart : t.span.start = u.span.start) : i = j := by
  rcases Nat.lt_trichotomy i j with hij | hij | hij
  · have hlt := (h.before ht hu hij).2
    omega
  · exact hij
  · have hlt := (h.before hu ht hij).2
    omega

theorem Lexed.position_eq_of_closes (h : Lexed c ts d) (ht : ts[i]? = some t)
    (hu : ts[j]? = some u) (htk : t.kind.closesTag = true) (huk : u.kind.closesTag = true) :
    i = j := by
  rcases Nat.lt_trichotomy i j with hij | hij | hij
  · rw [(h.before ht hu hij).1] at htk
    cases htk
  · exact hij
  · rw [(h.before hu ht hij).1] at huk
    cases huk

/-- Behind a token that does not close the tag stands another. -/
theorem EndsTag.exists_next (h : EndsTag ts) (ht : ts[i]? = some t)
    (hk : t.kind.closesTag = false) : ∃ u, ts[i + 1]? = some u := by
  obtain ⟨earlier, last, rfl, hlast, -⟩ := h
  by_cases hi : i < earlier.length
  · exact ⟨_, List.getElem?_eq_getElem (by simp; omega)⟩
  · rw [List.getElem?_append_right (by omega)] at ht
    have hmem : t ∈ [last] := List.mem_of_getElem? ht
    rw [List.mem_singleton.1 hmem, hlast] at hk
    cases hk

theorem drop_eq_cons (h : ts[i]? = some t) : ts.drop i = t :: ts.drop (i + 1) := by
  obtain ⟨hi, rfl⟩ := List.getElem?_eq_some_iff.1 h
  exact List.drop_eq_getElem_cons hi

end Token

theorem AttributeValue.ofToken?_eq_none_iff {v : Token} : ofToken? v = none ↔ ¬v.kind.IsValue := by
  unfold ofToken? Token.Kind.IsValue
  cases v.kind <;> simp

namespace StartTag

/-! ### The walk -/

/-- The part of a token in its tag. -/
inductive Part
  | name
  | equals
  | value
  | unexpected
  | slash
  | last
  deriving DecidableEq

namespace Part

/-- The part of a token of some kind behind a token that plays a part. -/
def next : Part → Token.Kind → Part
  | name, .equals => equals
  | equals, .name | equals, .doubleQuoted | equals, .singleQuoted => value
  | _, .name => name
  | _, .equals | _, .doubleQuoted | _, .singleQuoted | _, .invalid => unexpected
  | _, .slash => slash
  | _, .close | _, .selfClose | _, .endOfSource => last

variable {before : Part} {kind : Token.Kind}

theorem next_eq_name_iff : before.next kind = name ↔ kind = .name ∧ before ≠ equals := by
  cases before <;> cases kind <;> simp [next]

theorem next_eq_equals_iff : before.next kind = equals ↔ kind = .equals ∧ before = name := by
  cases before <;> cases kind <;> simp [next]

theorem next_eq_value_iff : before.next kind = value ↔ kind.IsValue ∧ before = equals := by
  cases before <;> cases kind <;> simp [next, Token.Kind.IsValue]

theorem next_eq_slash_iff : before.next kind = slash ↔ kind = .slash := by
  cases before <;> cases kind <;> simp [next]

theorem next_eq_last_iff : before.next kind = last ↔ kind.closesTag = true := by
  cases before <;> cases kind <;> simp [next, Token.Kind.closesTag]

theorem next_name (before : Part) : before.next .name = name ∨ before.next .name = value := by
  cases before <;> simp [next]

/-- The part in front matters only where `=` follows a name or a value follows `=`. -/
theorem next_eq_next_last (hname : before = name → kind ≠ .equals)
    (hequals : before = equals → ¬kind.IsValue) : before.next kind = last.next kind := by
  cases before with
  | name => cases kind <;> simp_all [next]
  | equals => cases kind <;> simp_all [next, Token.Kind.IsValue]
  | value => cases kind <;> rfl
  | unexpected => cases kind <;> rfl
  | slash => cases kind <;> rfl
  | last => rfl

end Part

/-- The part of the token at a position, where the first token stands behind one that plays
`before`. -/
def partAt (before : Part) (ts : List Token) (i : Nat) : Part :=
  (ts.take (i + 1)).foldl (fun part t => part.next t.kind) before

/-- What the positions of a list of tokens give, each by its part and by the tokens from it on. -/
def along {α : Type} (f : Part → List Token → Option α) (before : Part) (ts : List Token) :
    List α :=
  (List.range ts.length).filterMap fun i => f (partAt before ts i) (ts.drop i)

section Walk

variable {α : Type} {f : Part → List Token → Option α} {before : Part} {ts : List Token}
  {t : Token} {i : Nat} {x : α}

theorem partAt_zero (h : ts[0]? = some t) : partAt before ts 0 = before.next t.kind := by
  rw [partAt, List.take_add_one, h]
  rfl

theorem partAt_succ (h : ts[i + 1]? = some t) :
    partAt before ts (i + 1) = (partAt before ts i).next t.kind := by
  rw [partAt, List.take_add_one, h, List.foldl_append]
  rfl

/-- A part comes from the kind of the token and from the part in front of it, if there is one. -/
theorem exists_partAt_eq (h : ts[i]? = some t) :
    ∃ front, partAt .last ts i = front.next t.kind ∧
      (front = .last ∨ ∃ j, i = j + 1 ∧ partAt .last ts j = front) := by
  cases i with
  | zero => exact ⟨.last, partAt_zero h, Or.inl rfl⟩
  | succ j => exact ⟨partAt .last ts j, partAt_succ h, Or.inr ⟨j, rfl, rfl⟩⟩

theorem along_cons {part : Part} (hpart : before.next t.kind = part) :
    along f before (t :: ts) = (f part (t :: ts)).toList ++ along f part ts := by
  subst hpart
  rw [along, List.length_cons, List.range_succ_eq_map, List.filterMap_cons, List.filterMap_map]
  show (match f (before.next t.kind) (t :: ts) with | none => _ | some b => _) = _
  cases f (before.next t.kind) (t :: ts) with
  | none => rfl
  | some b => rfl

theorem mem_along_iff :
    x ∈ along f before ts ↔ ∃ i, i < ts.length ∧ f (partAt before ts i) (ts.drop i) = some x := by
  simp only [along, List.mem_filterMap, List.mem_range]

/-- What positions give keeps the order of the positions. -/
theorem pairwise_along {R : α → α → Prop}
    (h : ∀ i j x y, i < j → f (partAt before ts i) (ts.drop i) = some x →
      f (partAt before ts j) (ts.drop j) = some y → R x y) : (along f before ts).Pairwise R := by
  apply List.pairwise_filterMap.2
  apply List.pairwise_lt_range.imp
  intro i j hij x hx y hy
  exact h i j x y hij hx hy

end Walk

/-! ### What a position gives -/

/-- The value that the tokens behind a name give it. -/
def valueAhead? : List Token → Option AttributeValue
  | e :: v :: _ => if e.kind = .equals then AttributeValue.ofToken? v else none
  | _ => none

/-- The attribute of a name and of the tokens behind it. -/
def attributeOf (t : Token) (ahead : List Token) : Attribute :=
  match valueAhead? ahead with
  | some value => .withValue t value
  | none => .bare t

def attribute? : Part → List Token → Option Attribute
  | .name, t :: ahead => some (attributeOf t ahead)
  | _, _ => none

def problem? (unclosed : Problem) : Part → List Token → Option Problem
  | .name, t :: e :: v :: _ =>
    if e.kind = .equals ∧ AttributeValue.ofToken? v = none then some (missingValue t v) else none
  | .unexpected, t :: _ => some (unexpected t)
  | .last, t :: _ => if t.kind = .endOfSource then some unclosed else none
  | _, _ => none

theorem rawName_attributeOf (t : Token) (ahead : List Token) :
    (attributeOf t ahead).rawName = t.text := by
  unfold attributeOf
  split <;> rfl

theorem start_attributeOf (t : Token) (ahead : List Token) :
    (attributeOf t ahead).span.start = t.span.start := by
  unfold attributeOf
  split <;> rfl

theorem value_attributeOf (t : Token) (ahead : List Token) :
    (attributeOf t ahead).value = valueAhead? ahead := by
  unfold attributeOf
  split
  · rename_i value h
    rw [h]
    rfl
  · rename_i h
    rw [h]
    rfl

theorem valueAhead?_eq_none {ahead : List Token}
    (h : ∀ e, ahead.head? = some e → e.kind ≠ .equals) : valueAhead? ahead = none := by
  match ahead with
  | [] => rfl
  | [_] => rfl
  | e :: v :: _ => exact if_neg (h e rfl)

theorem valueAhead?_eq {ts : List Token} {e v : Token} {i : Nat} (he : ts[i]? = some e)
    (hkind : e.kind = .equals) (hv : ts[i + 1]? = some v) :
    valueAhead? (ts.drop i) = AttributeValue.ofToken? v := by
  rw [Token.drop_eq_cons he, Token.drop_eq_cons hv]
  exact if_pos hkind

/-- The attributes and problems that the positions give. -/
def walk (unclosed : Problem) (before : Part) (ts : List Token) : List Attribute × List Problem :=
  (along attribute? before ts, along (problem? unclosed) before ts)

theorem walk_cons {unclosed : Problem} {before part : Part} {t : Token} {ts : List Token}
    (hpart : before.next t.kind = part) :
    walk unclosed before (t :: ts) =
      ((attribute? part (t :: ts)).toList ++ (walk unclosed part ts).1,
        (problem? unclosed part (t :: ts)).toList ++ (walk unclosed part ts).2) := by
  rw [walk, along_cons hpart, along_cons hpart]
  rfl

/-- What is in front of the tokens does not change the part of the first of them. -/
def Detached (before : Part) (ts : List Token) : Prop :=
  ∀ t, ts.head? = some t → before.next t.kind = Part.last.next t.kind

theorem detached_of_ne (before : Part) (hname : before ≠ .name) (hequals : before ≠ .equals)
    (ts : List Token) : Detached before ts := by
  intro t _
  apply Part.next_eq_next_last
  · exact fun h => absurd h hname
  · exact fun h => absurd h hequals

theorem Detached.next_eq {before : Part} {t : Token} {ts : List Token} {kind : Token.Kind}
    (h : Detached before (t :: ts)) (hkind : t.kind = kind) :
    before.next t.kind = Part.last.next kind := by
  rw [h t rfl, hkind]

/-- The tokens of a tag stand for the attributes and problems that the walk over them gives. -/
theorem Roles.walk_eq {unclosed : Problem} {ts : List Token} {as : List Attribute}
    {ps : List Problem} (h : Roles unclosed ts as ps) (hends : Token.EndsTag ts) {before : Part}
    (hfirst : Detached before ts) : walk unclosed before ts = (as, ps) := by
  induction h generalizing before with
  | done => rfl
  | @close t ts kind =>
    have hcloses : t.kind.closesTag = true := by rcases kind with hk | hk <;> rw [hk] <;> rfl
    have hopen : t.kind ≠ .endOfSource := by rcases kind with hk | hk <;> simp [hk]
    rw [Token.endsTag_cons_iff, if_pos hcloses] at hends
    rw [walk_cons (Part.next_eq_last_iff.2 hcloses), hends]
    simp [attribute?, problem?, hopen, walk, along]
  | @cutOff t ts kind =>
    have hcloses : t.kind.closesTag = true := by rw [kind]; rfl
    rw [Token.endsTag_cons_iff, if_pos hcloses] at hends
    rw [walk_cons (Part.next_eq_last_iff.2 hcloses), hends]
    simp [attribute?, problem?, kind, walk, along]
  | slash kind _ ih =>
    have hends := (hends.tail (by rw [kind]; rfl)).1
    rw [walk_cons (Part.next_eq_slash_iff.2 kind), ih hends (detached_of_ne .slash nofun nofun _)]
    rfl
  | @misplaced t _ _ _ kind _ ih =>
    have hgoesOn : t.kind.closesTag = false := by
      rcases kind with hk | hk | hk | hk <;> rw [hk] <;> rfl
    have hpart : before.next t.kind = .unexpected := by
      rcases kind with hk | hk | hk | hk <;> exact hfirst.next_eq hk
    rw [walk_cons hpart, ih (hends.tail hgoesOn).1 (detached_of_ne .unexpected nofun nofun _)]
    rfl
  | @bare t ts _ _ kind next _ ih =>
    have hends := (hends.tail (by rw [kind]; rfl)).1
    have hpart : before.next t.kind = .name := hfirst.next_eq kind
    have hrest : Detached .name ts := fun e he =>
      Part.next_eq_next_last (fun _ => next e he) nofun
    have hproblem : problem? unclosed .name (t :: ts) = none := by
      match ts with
      | [] => rfl
      | [_] => rfl
      | e :: v :: _ => exact if_neg fun h => next e rfl h.1
    rw [walk_cons hpart, ih hends hrest]
    simp [hproblem, attribute?, attributeOf, valueAhead?_eq_none next]
  | @loneEquals t e kind equals =>
    -- the tokens of a tag do not end with `=`
    have hends := (hends.tail (by rw [kind]; rfl)).1
    have hcloses : e.kind.closesTag = false := by rw [equals]; rfl
    obtain ⟨u, hu⟩ := hends.exists_next (i := 0) rfl hcloses
    cases hu
  | @value t e v _ _ _ _ kind equals gives _ ih =>
    have hends := (hends.tail (by rw [kind]; rfl)).1
    have hends := (hends.tail (by rw [equals]; rfl)).1
    have hends := (hends.tail (AttributeValue.goesOn_of_ofToken? gives)).1
    have hkind : v.kind.IsValue := by
      by_contra hno
      rw [AttributeValue.ofToken?_eq_none_iff.2 hno] at gives
      cases gives
    have hpart : before.next t.kind = .name := hfirst.next_eq kind
    rw [walk_cons hpart, walk_cons (Part.next_eq_equals_iff.2 ⟨equals, rfl⟩),
      walk_cons (Part.next_eq_value_iff.2 ⟨hkind, rfl⟩),
      ih hends (detached_of_ne .value nofun nofun _)]
    simp [attribute?, problem?, attributeOf, valueAhead?, equals, gives]
  | @noValue t e v ts _ _ kind equals gives _ ih =>
    have hends := (hends.tail (by rw [kind]; rfl)).1
    have hends := (hends.tail (by rw [equals]; rfl)).1
    have hrest : Detached .equals (v :: ts) := by
      intro u hu
      cases hu
      exact Part.next_eq_next_last nofun fun _ => AttributeValue.ofToken?_eq_none_iff.1 gives
    have hpart : before.next t.kind = .name := hfirst.next_eq kind
    rw [walk_cons hpart, walk_cons (Part.next_eq_equals_iff.2 ⟨equals, rfl⟩), ih hends hrest]
    simp [attribute?, problem?, attributeOf, valueAhead?, equals, gives]

/-! ### Attributes and problems by position -/

section Positions

variable {ts : List Token} {i : Nat}

theorem attribute?_eq_some_iff {a : Attribute} :
    attribute? (partAt .last ts i) (ts.drop i) = some a ↔
      partAt .last ts i = .name ∧ ∃ t, ts[i]? = some t ∧ a = attributeOf t (ts.drop (i + 1)) := by
  cases h : ts[i]? with
  | none =>
    rw [List.drop_eq_nil_of_le (List.getElem?_eq_none_iff.1 h)]
    simp [attribute?]
  | some t =>
    rw [Token.drop_eq_cons h]
    cases partAt .last ts i <;> simp [attribute?, eq_comm]

/-- The problem that the token at a position gives rise to. -/
inductive Reports (unclosed : Problem) (ts : List Token) (i : Nat) : Problem → Prop
  | unexpected {t} (token : ts[i]? = some t) (part : partAt .last ts i = .unexpected) :
      Reports unclosed ts i (unexpected t)
  | missingValue {t e v} (token : ts[i]? = some t) (part : partAt .last ts i = .name)
      (next : ts[i + 1]? = some e) (equals : e.kind = .equals) (behind : ts[i + 2]? = some v)
      (noValue : ¬v.kind.IsValue) : Reports unclosed ts i (missingValue t v)
  | unclosed {t} (token : ts[i]? = some t) (kind : t.kind = .endOfSource) :
      Reports unclosed ts i unclosed

theorem reports_of_problem? {unclosed p : Problem}
    (h : problem? unclosed (partAt .last ts i) (ts.drop i) = some p) :
    Reports unclosed ts i p := by
  generalize hpart : partAt .last ts i = part at h
  generalize hdrop : ts.drop i = ahead at h
  have hget (k : Nat) : ts[i + k]? = ahead[k]? := by rw [← hdrop, List.getElem?_drop]
  unfold problem? at h
  split at h
  · rename_i t e v _
    split at h
    · rename_i hnone
      cases h
      exact .missingValue (hget 0) hpart (hget 1) hnone.1 (hget 2)
        (AttributeValue.ofToken?_eq_none_iff.1 hnone.2)
    · cases h
  · cases h
    exact .unexpected (hget 0) hpart
  · split at h
    · rename_i hkind
      cases h
      exact .unclosed (hget 0) hkind
    · cases h
  · cases h

theorem Reports.problem? {unclosed p : Problem} (h : Reports unclosed ts i p) :
    problem? unclosed (partAt .last ts i) (ts.drop i) = some p := by
  cases h with
  | unexpected token part =>
    rw [part, Token.drop_eq_cons token]
    rfl
  | missingValue token part next equals behind noValue =>
    rw [part, Token.drop_eq_cons token, Token.drop_eq_cons next, Token.drop_eq_cons behind]
    exact if_pos ⟨equals, AttributeValue.ofToken?_eq_none_iff.2 noValue⟩
  | @unclosed t token kind =>
    obtain ⟨front, hpart, -⟩ := exists_partAt_eq token
    have hlast : front.next t.kind = .last := Part.next_eq_last_iff.2 (by rw [kind]; rfl)
    rw [hpart, hlast, Token.drop_eq_cons token]
    exact if_pos kind

theorem unexpected_ne_missingValue (t n v : Token) : unexpected t ≠ missingValue n v := by
  intro h
  have hreason : "unexpected " ++ t.kind.label = "missing value for `" ++ n.text ++ "`" := by
    simpa [unexpected, missingValue] using congrArg Problem.kind h
  have hfirst := congrArg (fun reason => reason.toList.head?) hreason
  simp at hfirst

/-- Only a token that is to be reported as unexpected is. -/
theorem Reports.of_unexpected {unclosed : Problem} {t : Token}
    (h : Reports unclosed ts i (StartTag.unexpected t)) (hu : unclosed.isUnclosedTag = true) :
    partAt .last ts i = .unexpected ∧ ∃ u, ts[i]? = some u ∧ u.span = t.span := by
  generalize hp : StartTag.unexpected t = p at h
  cases h with
  | unexpected token part => exact ⟨part, _, token, (congrArg Problem.span hp).symm⟩
  | missingValue => exact absurd hp (unexpected_ne_missingValue _ _ _)
  | unclosed =>
    rw [← hp] at hu
    cases hu

/-- Two positions never give rise to the same problem. -/
theorem Reports.position_eq {c d : Cursor} (hs : Token.Lexed c ts d) {unclosed p q : Problem}
    (hu : unclosed.isUnclosedTag = true) {j : Nat} (hi : Reports unclosed ts i p)
    (hj : Reports unclosed ts j q) (hpq : p = q) : i = j := by
  cases hi with
  | unexpected token _ =>
    subst hpq
    obtain ⟨-, u, hu, hspan⟩ := hj.of_unexpected hu
    exact hs.position_eq token hu (by rw [hspan])
  | missingValue _ _ _ _ behind _ =>
    cases hj with
    | unexpected => exact absurd hpq.symm (unexpected_ne_missingValue _ _ _)
    | missingValue _ _ _ _ behind' _ =>
      have hspan := congrArg Problem.span hpq
      have hij := hs.position_eq behind behind' (congrArg Span.start hspan)
      omega
    | unclosed =>
      rw [← hpq] at hu
      cases hu
  | unclosed token kind =>
    cases hj with
    | unexpected | missingValue =>
      rw [hpq] at hu
      cases hu
    | unclosed token' kind' =>
      exact hs.position_eq_of_closes token token' (by rw [kind]; rfl) (by rw [kind']; rfl)

end Positions

end StartTag

end CosmeticLint.Markup
