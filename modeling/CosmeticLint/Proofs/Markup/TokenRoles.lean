import CosmeticLint.Proofs.Markup.TokenWalk
import Mathlib.Logic.ExistsUnique

/-! No token of a start tag is dropped or used twice. A token is the name of an attribute, the `=`
behind that name, the value behind that `=`, or reported as unexpected; only `/` and the token that
closes the tag are none of these. The roles are told by what was read, the attributes and problems,
and turn out to be the parts of the walk over the tokens. -/

namespace CosmeticLint.Markup.StartTag

/-- The tokens of a tag beside the attributes and problems that were read from it. -/
structure Account where
  tokens : List Token
  attributes : List Attribute
  problems : List Problem

/-- What a token is to the attributes and problems of its tag. -/
inductive Role
  | name (a : Attribute)
  | equals (a : Attribute)
  | value (a : Attribute)
  | unexpected

def Role.part : Role → Part
  | name _ => .name
  | equals _ => .equals
  | value _ => .value
  | unexpected => .unexpected

namespace Account

/-- The token at a position plays a role: an attribute has its text and starts where it starts, it
is the `=` directly behind such a name or the value directly behind such an `=`, or a problem
reports it. -/
inductive Plays (s : Account) : Nat → Role → Prop
  | name {i t a} (token : s.tokens[i]? = some t) (kind : t.kind = .name) (mem : a ∈ s.attributes)
      (text : a.rawName = t.text) (start : a.span.start = t.span.start) : Plays s i (.name a)
  | equals {i e a} (token : s.tokens[i + 1]? = some e) (kind : e.kind = .equals)
      (name : Plays s i (.name a)) : Plays s (i + 1) (.equals a)
  | value {i v a value} (token : s.tokens[i + 1]? = some v) (kind : v.kind.IsValue)
      (equals : Plays s i (.equals a)) (has : a.value = some value) (span : value.span = v.span)
      (text : value.written = v.text.toList) : Plays s (i + 1) (.value a)
  | unexpected {i t} (token : s.tokens[i]? = some t)
      (mem : ⟨.invalidAttribute ("unexpected " ++ t.kind.label), t.span⟩ ∈ s.problems) :
      Plays s i .unexpected

/-- The token at a position names an attribute, and the token `v` behind the `=` that follows it is
not a value. -/
structure LacksValue (s : Account) (i : Nat) (a : Attribute) (v : Token) : Prop where
  name : s.Plays i (.name a)
  equals : ∃ e, s.tokens[i + 1]? = some e ∧ e.kind = .equals
  behind : s.tokens[i + 2]? = some v
  noValue : ¬v.kind.IsValue

/-- Nothing is lost and nothing is used twice. -/
structure Complete (s : Account) : Prop where
  /-- Every token but `/` and the one that closes the tag plays exactly one role. -/
  role : ∀ i t, s.tokens[i]? = some t → t.kind ≠ .slash → t.kind.closesTag = false →
    ∃! role, s.Plays i role
  noRole : ∀ i t, s.tokens[i]? = some t → t.kind = .slash ∨ t.kind.closesTag = true →
    ∀ role, ¬s.Plays i role
  /-- A token of the name kind that is not a value names an attribute. -/
  name : ∀ i t, s.tokens[i]? = some t → t.kind = .name →
    ((∃ a, s.Plays i (.name a)) ↔ ¬∃ a, s.Plays i (.value a))
  /-- Every attribute is named by one token, and attributes follow each other as these do. -/
  named : ∀ a ∈ s.attributes, ∃! i, s.Plays i (.name a)
  order : s.attributes.Pairwise fun a b =>
    ∀ i j, s.Plays i (.name a) → s.Plays j (.name b) → i < j
  /-- The token behind `=` is the value, if it can be one; else there is no value. -/
  value : ∀ i a v, s.Plays i (.equals a) → s.tokens[i + 1]? = some v → v.kind.IsValue →
    s.Plays (i + 1) (.value a)
  noValue : ∀ i a, s.Plays i (.name a) → (a.value = none ↔
    (∀ e, s.tokens[i + 1]? = some e → e.kind ≠ .equals) ∨ ∃ v, s.LacksValue i a v)
  missing : ∀ i a v, s.LacksValue i a v →
    ⟨.invalidAttribute ("missing value for `" ++ a.rawName ++ "`"), v.span⟩ ∈ s.problems
  /-- No attribute problem has another cause, and no problem is reported twice. -/
  cause : ∀ reason span, ⟨.invalidAttribute reason, span⟩ ∈ s.problems →
    (∃ i t, s.Plays i .unexpected ∧ s.tokens[i]? = some t ∧
      reason = "unexpected " ++ t.kind.label ∧ span = t.span) ∨
    ∃ i a v, s.LacksValue i a v ∧ reason = "missing value for `" ++ a.rawName ++ "`" ∧
      span = v.span
  once : s.problems.Nodup

/-! ### Roles are parts -/

/-- The account of a list of tokens. -/
def ofTokens (unclosed : Problem) (ts : List Token) : Account :=
  ⟨ts, (readTokens unclosed ts).1, (readTokens unclosed ts).2⟩

section OfTokens

variable {c d : Cursor} {unclosed p : Problem} {ts : List Token} {t : Token} {i j : Nat}
  {a b : Attribute}

theorem ofTokens_eq (hs : Token.Lexed c ts d) :
    (ofTokens unclosed ts).attributes = along attribute? .last ts ∧
      (ofTokens unclosed ts).problems = along (problem? unclosed) .last ts := by
  have hwalk := (readTokens_roles unclosed ts).walk_eq hs.endsTag
    (detached_of_ne .last nofun nofun ts)
  exact ⟨(congrArg Prod.fst hwalk).symm, (congrArg Prod.snd hwalk).symm⟩

theorem mem_attributes_iff (hs : Token.Lexed c ts d) :
    a ∈ (ofTokens unclosed ts).attributes ↔
      ∃ i, attribute? (partAt .last ts i) (ts.drop i) = some a := by
  rw [(ofTokens_eq hs).1, mem_along_iff]
  refine exists_congr fun i => and_iff_right_of_imp ?_
  intro h
  obtain ⟨-, t, ht, -⟩ := attribute?_eq_some_iff.1 h
  exact (List.getElem?_eq_some_iff.1 ht).1

theorem mem_problems_iff (hs : Token.Lexed c ts d) :
    p ∈ (ofTokens unclosed ts).problems ↔ ∃ i, Reports unclosed ts i p := by
  rw [(ofTokens_eq hs).2, mem_along_iff]
  constructor
  · rintro ⟨i, -, h⟩
    exact ⟨i, reports_of_problem? h⟩
  · rintro ⟨i, h⟩
    refine ⟨i, ?_, h.problem?⟩
    cases h with
    | unexpected token _ => exact (List.getElem?_eq_some_iff.1 token).1
    | missingValue token _ _ _ _ _ => exact (List.getElem?_eq_some_iff.1 token).1
    | unclosed token _ => exact (List.getElem?_eq_some_iff.1 token).1

/-- A token names the attribute that its position gives. -/
theorem plays_name_iff (hs : Token.Lexed c ts d) :
    (ofTokens unclosed ts).Plays i (.name a) ↔
      attribute? (partAt .last ts i) (ts.drop i) = some a := by
  constructor
  · intro h
    cases h with
    | @name _ t _ token kind mem text start =>
      obtain ⟨j, hj⟩ := (mem_attributes_iff hs).1 mem
      obtain ⟨-, u, hu, rfl⟩ := attribute?_eq_some_iff.1 hj
      rw [start_attributeOf] at start
      rwa [hs.position_eq token hu start.symm]
  · intro h
    obtain ⟨hpart, t, ht, rfl⟩ := attribute?_eq_some_iff.1 h
    obtain ⟨front, hfront, -⟩ := exists_partAt_eq ht
    have hkind := (Part.next_eq_name_iff.1 (hfront.symm.trans hpart)).1
    exact .name ht hkind ((mem_attributes_iff hs).2 ⟨i, h⟩) (rawName_attributeOf _ _)
      (start_attributeOf _ _)

theorem exists_plays_of_mem (hs : Token.Lexed c ts d) (h : a ∈ (ofTokens unclosed ts).attributes) :
    ∃ i, (ofTokens unclosed ts).Plays i (.name a) := by
  obtain ⟨i, hi⟩ := (mem_attributes_iff hs).1 h
  exact ⟨i, (plays_name_iff hs).2 hi⟩

/-- A token that plays a role has the part of that role in the walk. -/
theorem Plays.part_eq {role : Role} (hs : Token.Lexed c ts d) (hu : unclosed.isUnclosedTag = true)
    (h : (ofTokens unclosed ts).Plays i role) : partAt .last ts i = role.part := by
  induction h with
  | name token kind mem text start =>
    have hname := (plays_name_iff hs).1 (.name token kind mem text start)
    exact (attribute?_eq_some_iff.1 hname).1
  | equals token kind _ ih =>
    exact (partAt_succ token).trans (Part.next_eq_equals_iff.2 ⟨kind, ih⟩)
  | value token kind _ _ _ _ ih =>
    exact (partAt_succ token).trans (Part.next_eq_value_iff.2 ⟨kind, ih⟩)
  | unexpected token mem =>
    obtain ⟨j, hj⟩ := (mem_problems_iff hs).1 mem
    obtain ⟨hpart, u, hu, hspan⟩ := hj.of_unexpected hu
    rwa [hs.position_eq token hu (by rw [hspan])]

/-- No token plays two roles. -/
theorem Plays.unique {role role' : Role} (hs : Token.Lexed c ts d)
    (hu : unclosed.isUnclosedTag = true) (h : (ofTokens unclosed ts).Plays i role)
    (h' : (ofTokens unclosed ts).Plays i role') : role = role' := by
  have hpart : role.part = role'.part := (h.part_eq hs hu).symm.trans (h'.part_eq hs hu)
  induction h generalizing role' with
  | name token kind mem text start =>
    cases h' with
    | name token' kind' mem' text' start' =>
      have ha := (plays_name_iff hs).1 (.name token kind mem text start)
      have hb := (plays_name_iff hs).1 (.name token' kind' mem' text' start')
      rw [Option.some.inj (ha.symm.trans hb)]
    | equals | value | unexpected => cases hpart
  | equals _ _ _ ih =>
    cases h' with
    | equals _ _ name =>
      cases ih name rfl
      rfl
    | name | value | unexpected => cases hpart
  | value _ _ _ _ _ _ ih =>
    cases h' with
    | value _ _ equals =>
      cases ih equals rfl
      rfl
    | name | equals | unexpected => cases hpart
  | unexpected =>
    cases h' with
    | unexpected => rfl
    | name | equals | value => cases hpart

/-- The value of an attribute is the one that the tokens behind its name give. -/
theorem Plays.value_eq (hs : Token.Lexed c ts d) (h : (ofTokens unclosed ts).Plays i (.name a)) :
    a.value = valueAhead? (ts.drop (i + 1)) := by
  obtain ⟨-, t, -, rfl⟩ := attribute?_eq_some_iff.1 ((plays_name_iff hs).1 h)
  exact value_attributeOf _ _

theorem plays_value {v : Token} (hs : Token.Lexed c ts d)
    (h : (ofTokens unclosed ts).Plays i (.equals a)) (hv : ts[i + 1]? = some v)
    (hkind : v.kind.IsValue) : (ofTokens unclosed ts).Plays (i + 1) (.value a) := by
  cases h with
  | @equals i e _ token kind name =>
    have hvalue := (name.value_eq hs).trans (valueAhead?_eq token kind hv)
    cases hgives : AttributeValue.ofToken? v with
    | none => exact absurd hkind (AttributeValue.ofToken?_eq_none_iff.1 hgives)
    | some value =>
      have hspells := hs.exists_spells (List.mem_of_getElem? hv)
      have hwritten := Token.written_ofToken? hspells hgives
      exact .value hv hkind (.equals token kind name) (hvalue.trans hgives) hwritten.1 hwritten.2

theorem exists_plays_name (hs : Token.Lexed c ts d) (ht : ts[i]? = some t)
    (hpart : partAt .last ts i = .name) : ∃ a, (ofTokens unclosed ts).Plays i (.name a) :=
  ⟨_, (plays_name_iff hs).2 (attribute?_eq_some_iff.2 ⟨hpart, t, ht, rfl⟩)⟩

theorem exists_plays_equals (hs : Token.Lexed c ts d) (ht : ts[i]? = some t)
    (hpart : partAt .last ts i = .equals) : ∃ a, (ofTokens unclosed ts).Plays i (.equals a) := by
  obtain ⟨front, hfront, hbefore⟩ := exists_partAt_eq ht
  obtain ⟨hkind, rfl⟩ := Part.next_eq_equals_iff.1 (hfront.symm.trans hpart)
  rcases hbefore with hlast | ⟨j, rfl, hname⟩
  · cases hlast
  · have hj : j < ts.length := Nat.lt_of_succ_lt (List.getElem?_eq_some_iff.1 ht).1
    obtain ⟨a, ha⟩ := exists_plays_name hs (List.getElem?_eq_getElem hj) hname
    exact ⟨a, .equals ht hkind ha⟩

theorem exists_plays_value (hs : Token.Lexed c ts d) (ht : ts[i]? = some t)
    (hpart : partAt .last ts i = .value) : ∃ a, (ofTokens unclosed ts).Plays i (.value a) := by
  obtain ⟨front, hfront, hbefore⟩ := exists_partAt_eq ht
  obtain ⟨hkind, rfl⟩ := Part.next_eq_value_iff.1 (hfront.symm.trans hpart)
  rcases hbefore with hlast | ⟨j, rfl, hequals⟩
  · cases hlast
  · have hj : j < ts.length := Nat.lt_of_succ_lt (List.getElem?_eq_some_iff.1 ht).1
    obtain ⟨a, ha⟩ := exists_plays_equals hs (List.getElem?_eq_getElem hj) hequals
    exact ⟨a, plays_value hs ha ht hkind⟩

/-- Every token but `/` and the one that closes the tag plays a role. -/
theorem exists_plays (hs : Token.Lexed c ts d) (ht : ts[i]? = some t) (hslash : t.kind ≠ .slash)
    (hgoesOn : t.kind.closesTag = false) : ∃ role, (ofTokens unclosed ts).Plays i role := by
  obtain ⟨front, hfront, -⟩ := exists_partAt_eq ht
  cases hpart : partAt .last ts i with
  | name =>
    obtain ⟨a, ha⟩ := exists_plays_name hs ht hpart
    exact ⟨_, ha⟩
  | equals =>
    obtain ⟨a, ha⟩ := exists_plays_equals hs ht hpart
    exact ⟨_, ha⟩
  | value =>
    obtain ⟨a, ha⟩ := exists_plays_value hs ht hpart
    exact ⟨_, ha⟩
  | unexpected => exact ⟨_, .unexpected ht ((mem_problems_iff hs).2 ⟨i, .unexpected ht hpart⟩)⟩
  | slash => exact absurd (Part.next_eq_slash_iff.1 (hfront.symm.trans hpart)) hslash
  | last =>
    rw [Part.next_eq_last_iff.1 (hfront.symm.trans hpart)] at hgoesOn
    cases hgoesOn

theorem not_plays (hs : Token.Lexed c ts d) (hu : unclosed.isUnclosedTag = true)
    (ht : ts[i]? = some t) (hkind : t.kind = .slash ∨ t.kind.closesTag = true) (role : Role) :
    ¬(ofTokens unclosed ts).Plays i role := by
  intro h
  obtain ⟨front, hfront, -⟩ := exists_partAt_eq ht
  have hpart := hfront.symm.trans (h.part_eq hs hu)
  rcases hkind with hslash | hcloses
  · rw [Part.next_eq_slash_iff.2 hslash] at hpart
    cases role <;> cases hpart
  · rw [Part.next_eq_last_iff.2 hcloses] at hpart
    cases role <;> cases hpart

/-- A name that is not a value names an attribute. -/
theorem plays_name_iff_not_value (hs : Token.Lexed c ts d) (hu : unclosed.isUnclosedTag = true)
    (ht : ts[i]? = some t) (hkind : t.kind = .name) :
    (∃ a, (ofTokens unclosed ts).Plays i (.name a)) ↔
      ¬∃ a, (ofTokens unclosed ts).Plays i (.value a) := by
  constructor
  · rintro ⟨a, ha⟩ ⟨b, hb⟩
    cases ha.unique hs hu hb
  · intro hno
    obtain ⟨front, hfront, -⟩ := exists_partAt_eq ht
    rw [hkind] at hfront
    rcases front.next_name with hname | hvalue
    · exact exists_plays_name hs ht (hfront.trans hname)
    · exact absurd (exists_plays_value hs ht (hfront.trans hvalue)) hno

theorem position_of_name (hs : Token.Lexed c ts d)
    (hi : (ofTokens unclosed ts).Plays i (.name a))
    (hj : (ofTokens unclosed ts).Plays j (.name a)) : i = j := by
  cases hi with
  | name token _ _ _ start =>
    cases hj with
    | name token' _ _ _ start' => exact hs.position_eq token token' (start.symm.trans start')

/-- Attributes follow each other as the tokens that name them do. -/
theorem pairwise_attributes (hs : Token.Lexed c ts d) :
    (ofTokens unclosed ts).attributes.Pairwise fun a b => ∀ i j,
      (ofTokens unclosed ts).Plays i (.name a) → (ofTokens unclosed ts).Plays j (.name b) →
        i < j := by
  rw [(ofTokens_eq hs).1]
  apply pairwise_along
  intro m n a b hmn ha hb i j hi hj
  have him := position_of_name hs hi ((plays_name_iff hs).2 ha)
  have hjn := position_of_name hs hj ((plays_name_iff hs).2 hb)
  omega

theorem nodup_problems (hs : Token.Lexed c ts d) (hu : unclosed.isUnclosedTag = true) :
    (ofTokens unclosed ts).problems.Nodup := by
  rw [(ofTokens_eq hs).2]
  apply pairwise_along
  intro i j p q hij hp hq hpq
  have heq := (reports_of_problem? hp).position_eq hs hu (reports_of_problem? hq) hpq
  omega

/-- An attribute has no value where no `=` follows its name or no value follows the `=`. -/
theorem value_eq_none_iff (hs : Token.Lexed c ts d)
    (h : (ofTokens unclosed ts).Plays i (.name a)) : a.value = none ↔
      (∀ e, ts[i + 1]? = some e → e.kind ≠ .equals) ∨
        ∃ v, (ofTokens unclosed ts).LacksValue i a v := by
  rw [h.value_eq hs]
  by_cases hnext : ∀ e, ts[i + 1]? = some e → e.kind ≠ .equals
  · rw [valueAhead?_eq_none (by rwa [List.head?_drop])]
    exact iff_of_true rfl (Or.inl hnext)
  · push Not at hnext
    obtain ⟨e, he, hkind⟩ := hnext
    obtain ⟨v, hv⟩ := hs.endsTag.exists_next he (by rw [hkind]; rfl)
    rw [valueAhead?_eq he hkind hv, AttributeValue.ofToken?_eq_none_iff]
    constructor
    · intro hno
      exact Or.inr ⟨v, h, ⟨e, he, hkind⟩, hv, hno⟩
    · rintro (hno | ⟨w, hw⟩)
      · exact absurd hkind (hno e he)
      · rw [Option.some.inj (hv.symm.trans hw.behind)]
        exact hw.noValue

theorem mem_problems_of_lacksValue {v : Token} (hs : Token.Lexed c ts d)
    (h : (ofTokens unclosed ts).LacksValue i a v) :
    ⟨.invalidAttribute ("missing value for `" ++ a.rawName ++ "`"), v.span⟩ ∈
      (ofTokens unclosed ts).problems := by
  obtain ⟨e, he, hkind⟩ := h.equals
  obtain ⟨hpart, t, ht, rfl⟩ := attribute?_eq_some_iff.1 ((plays_name_iff hs).1 h.name)
  rw [rawName_attributeOf]
  exact (mem_problems_iff hs).2 ⟨i, .missingValue ht hpart he hkind h.behind h.noValue⟩

/-- A problem of an attribute is that of an unexpected token or that of a value that is missing. -/
theorem cause_of_mem {reason : String} {span : Span} (hs : Token.Lexed c ts d)
    (hu : unclosed.isUnclosedTag = true)
    (h : ⟨.invalidAttribute reason, span⟩ ∈ (ofTokens unclosed ts).problems) :
    (∃ i t, (ofTokens unclosed ts).Plays i .unexpected ∧ ts[i]? = some t ∧
      reason = "unexpected " ++ t.kind.label ∧ span = t.span) ∨
    ∃ i a v, (ofTokens unclosed ts).LacksValue i a v ∧
      reason = "missing value for `" ++ a.rawName ++ "`" ∧ span = v.span := by
  obtain ⟨i, hi⟩ := (mem_problems_iff hs).1 h
  generalize hp : Problem.mk (.invalidAttribute reason) span = p at hi
  cases hi with
  | @unexpected t token part =>
    cases hp
    exact Or.inl ⟨i, t, .unexpected token h, token, rfl, rfl⟩
  | @missingValue t e v token part next equals behind noValue =>
    cases hp
    have hname := attribute?_eq_some_iff.2 ⟨part, t, token, rfl⟩
    have hlacks : (ofTokens unclosed ts).LacksValue i _ v :=
      ⟨(plays_name_iff hs).2 hname, ⟨e, next, equals⟩, behind, noValue⟩
    refine Or.inr ⟨i, _, v, hlacks, ?_, rfl⟩
    rw [rawName_attributeOf]
  | unclosed =>
    rw [← hp] at hu
    cases hu

end OfTokens

end Account

/-- The account of the start tag under a cursor. -/
def accountAt (c : Cursor) : Account :=
  ⟨(Token.ofTag ((c.skip 1).skipWhile isTagNameChar)).1, (read c).value.attributes,
    (read c).problems⟩

theorem accountAt_eq (c : Cursor) : ∃ d ts e unclosed, Token.Lexed d ts e ∧
    unclosed.isUnclosedTag = true ∧ accountAt c = .ofTokens unclosed ts :=
  ⟨_, _, _, _, Token.lexed_ofTag _, rfl, rfl⟩

/-- No token of a start tag is dropped or used twice, whatever the source and wherever in it the
tag begins. -/
theorem accountAt_complete (c : Cursor) : (accountAt c).Complete := by
  obtain ⟨d, ts, e, unclosed, hs, hu, heq⟩ := accountAt_eq c
  rw [heq]
  refine ⟨?_, ?_, ?_, ?_, Account.pairwise_attributes hs, ?_, ?_, ?_, ?_,
    Account.nodup_problems hs hu⟩
  · intro i t ht hslash hgoesOn
    obtain ⟨role, h⟩ := Account.exists_plays hs ht hslash hgoesOn
    exact ⟨role, h, fun _ h' => h'.unique hs hu h⟩
  · intro i t ht hkind role
    exact Account.not_plays hs hu ht hkind role
  · intro i t ht hkind
    exact Account.plays_name_iff_not_value hs hu ht hkind
  · intro a ha
    obtain ⟨i, hi⟩ := Account.exists_plays_of_mem hs ha
    exact ⟨i, hi, fun j hj => Account.position_of_name hs hj hi⟩
  · intro i a v h hv hkind
    exact Account.plays_value hs h hv hkind
  · intro i a h
    exact Account.value_eq_none_iff hs h
  · intro i a v h
    exact Account.mem_problems_of_lacksValue hs h
  · intro reason span h
    exact Account.cause_of_mem hs hu h

-- The second `=` is what stands in place of a value, and has no place of its own either.
example : (accountAt ⟨0, "<p a==b c=>".toList⟩).problems =
    [⟨.invalidAttribute "missing value for `a`", ⟨5, 6⟩⟩,
      ⟨.invalidAttribute "unexpected '='", ⟨5, 6⟩⟩,
      ⟨.invalidAttribute "missing value for `c`", ⟨10, 11⟩⟩] := by
  decide +kernel

end CosmeticLint.Markup.StartTag
