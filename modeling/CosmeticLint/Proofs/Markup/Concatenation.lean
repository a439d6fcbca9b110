import CosmeticLint.Proofs.Markup.FaithfulComponent
import CosmeticLint.Proofs.Markup.Shift
import CosmeticLint.Proofs.Text.Extension

/-! One source behind another. A reading that meets no problem has seen the end of whatever it
reads, so it reads the same with more text behind it, provided the last thing that ends is a tag. -/

namespace CosmeticLint.Markup

open Cursor (LiesIn)

/-- What was read, at the same place of a longer text. -/
def Read.extend {α : Type} (r : Read α) (more : List Char) : Read α :=
  { r with after := r.after.extend more }

/-! ### Start tags -/

namespace Token

variable (more : List Char) {c d : Cursor} {t : Token} {ts : List Token}

/-- A token that something follows, or that closes the tag, does not change. -/
theorem Kind.Spells.append {kind : Kind} {w rest : List Char} (h : kind.Spells w rest)
    (hends : rest ≠ [] ∨ kind = .close ∨ kind = .selfClose) : kind.Spells w (rest ++ more) := by
  rcases hends with hrest | rfl | rfl
  · have hhead : (rest ++ more).head? = rest.head? := List.head?_append_of_ne_nil rest hrest
    cases kind with
    | close | selfClose | equals | doubleQuoted | singleQuoted => exact h
    | slash => exact ⟨h.1, hhead ▸ h.2⟩
    | name => exact ⟨h.1, h.2.1, hhead ▸ h.2.2⟩
    | endOfSource => exact absurd h.2 hrest
    | invalid =>
      rcases h with hlt | ⟨-, -, -, -, -, hnil⟩
      · exact .inl hlt
      · exact absurd hnil hrest
  · exact h
  · exact h

theorem Found.extend (h : Found c t d) (hends : d.rest ≠ [] ∨ t.kind = .close ∨ t.kind = .selfClose) :
    Found (c.extend more) t (d.extend more) := by
  obtain ⟨blanks, start, hr, hblank, hw, hspan, hspell⟩ := h
  exact ⟨blanks, start.extend more, hr.extend more, hblank, hw.extend more, hspan,
    hspell.append more hends⟩

/-- At the end of the source there is no other token than that. -/
theorem Found.kind_eq_of_rest_eq_nil (h : Found c t d) (hc : c.rest = []) :
    t.kind = .endOfSource := by
  have hnext := congrArg (·.1.kind) (next_eq_iff.2 h)
  rw [← hnext, next, Cursor.rest_skipWhile, hc]
  rfl

theorem Lexed.rest_ne_nil (h : Lexed c ts d) (hts : ∀ t ∈ ts, t.kind ≠ .endOfSource) :
    c.rest ≠ [] := by
  intro hc
  cases h with
  | last found _ => exact hts _ (by simp) (found.kind_eq_of_rest_eq_nil hc)
  | more found _ _ => exact hts _ (by simp) (found.kind_eq_of_rest_eq_nil hc)

theorem Lexed.extend (h : Lexed c ts d) (hts : ∀ t ∈ ts, t.kind ≠ .endOfSource) :
    Lexed (c.extend more) ts (d.extend more) := by
  induction h with
  | @last c t d found closes =>
    have hkind := hts t (by simp)
    refine .last (found.extend more (.inr ?_)) closes
    cases hk : t.kind <;> simp_all [Kind.closesTag]
  | more found goesOn rest ih =>
    have hrest := (List.forall_mem_cons.1 hts).2
    exact .more (found.extend more (.inl (rest.rest_ne_nil hrest))) goesOn (ih hrest)

theorem Lexed.behind (h : Lexed c (t :: ts) d) (hkind : t.kind.closesTag = false) :
    ∃ e, Lexed e ts d := by
  cases h with
  | last _ closes =>
    rw [hkind] at closes
    cases closes
  | more _ _ rest => exact ⟨_, rest⟩

end Token

namespace StartTag

variable (more : List Char) {c nameEnd : Cursor}

/-- A tag without problems does not run into the end of the source. -/
theorem Roles.kind_ne_endOfSource {unclosed : Problem} {ts : List Token} {as : List Attribute}
    {ps : List Problem} {d : Cursor} (h : Roles unclosed ts as ps) (hlexed : Token.Lexed c ts d)
    (hps : ps = []) : ∀ t ∈ ts, t.kind ≠ .endOfSource := by
  induction h generalizing c with
  | done => simp
  | @close t ts kind =>
    have hcloses : t.kind.closesTag = true := by rcases kind with hk | hk <;> rw [hk] <;> rfl
    obtain ⟨rfl, -⟩ := hlexed.of_closes hcloses
    rcases kind with hk | hk <;> simp [hk]
  | cutOff _ => cases hps
  | slash kind _ ih =>
    obtain ⟨e, hrest⟩ := hlexed.behind (by rw [kind]; rfl)
    exact List.forall_mem_cons.2 ⟨by simp [kind], ih hrest hps⟩
  | misplaced _ _ _ => cases hps
  | bare kind _ _ ih =>
    obtain ⟨e, hrest⟩ := hlexed.behind (by rw [kind]; rfl)
    exact List.forall_mem_cons.2 ⟨by simp [kind], ih hrest hps⟩
  | loneEquals kind equals => simp [kind, equals]
  | @value t e v ts value as ps kind equals gives _ ih =>
    -- the end of the source closes a tag, and no token that closes a tag is a value
    have hv : v.kind.closesTag = false := by
      unfold AttributeValue.ofToken? at gives
      split at gives <;> simp_all [Token.Kind.closesTag]
    have hne : v.kind ≠ .endOfSource := by
      intro hk
      rw [hk] at hv
      cases hv
    obtain ⟨_, hlexed⟩ := hlexed.behind (by rw [kind]; rfl)
    obtain ⟨_, hlexed⟩ := hlexed.behind (by rw [equals]; rfl)
    obtain ⟨_, hrest⟩ := hlexed.behind hv
    simpa [kind, equals, hne] using ih hrest hps
  | noValue _ _ _ _ _ => cases hps

theorem Spelled.extend {r : Read StartTag} {tokens : List Token} (h : Spelled c r nameEnd tokens)
    (hclear : r.problems = []) :
    Spelled (c.extend more) (r.extend more) (nameEnd.extend more) tokens := by
  have htokens := h.roles.kind_ne_endOfSource h.lexed hclear
  have hrest := h.lexed.rest_ne_nil htokens
  refine ⟨h.name.extend more, h.nameChars, fun x hx => h.nameEnds x ?_, h.lexed.extend more htokens,
    h.roles, h.span, h.selfClosing⟩
  rwa [Cursor.rest_extend, List.head?_append_of_ne_nil _ hrest] at hx

theorem read_extend (hlt : c.rest.head? = some '<') (hclear : (read c).problems = []) :
    read (c.extend more) = (read c).extend more := by
  obtain ⟨nameEnd, tokens, h⟩ := spelled_read hlt
  exact (h.extend more hclear).read_eq

end StartTag

/-! ### Bodies -/

section Readings

variable (more : List Char) {text : List Char} {c : Cursor}

theorem ahead_append {text : List Char} (h : '>' ∈ text) : ahead (text ++ more) = ahead text := by
  have hletter : (text ++ more).head? = some '<' ∧ (text ++ more).tail.head?.any Char.isAlpha = true ↔
      text.head? = some '<' ∧ text.tail.head?.any Char.isAlpha = true := by
    cases text with
    | nil => cases h
    | cons x text =>
      cases text with
      | nil =>
        rw [← List.mem_singleton.1 h]
        simp
      | cons y text => simp
  rw [ahead_eq_ite, ahead_eq_ite, isPrefixOf_append_of_mem (by decide) h,
    isPrefixOf_append_of_mem (by decide) h]
  simp only [hletter]

theorem readComment_extend (h : ahead c.rest = .comment) (hclear : (readComment c).problems = []) :
    readComment (c.extend more) = (readComment c).extend more := by
  obtain ⟨rest, hrest⟩ := ahead_eq_comment h
  have hopen : (c.extend more).skip 4 = (c.skip 4).extend more :=
    Cursor.skip_extend more (by simp [hrest])
  simp only [readComment, hopen] at hclear ⊢
  cases hn : searchFor "-->".toList.isPrefixOf (c.skip 4).rest with
  | none =>
    rw [hn] at hclear
    cases hclear
  | some n =>
    have hlong (t : List Char) (ht : "-->".toList.isPrefixOf t = true) : 3 ≤ t.length :=
      (List.isPrefixOf_iff_prefix.1 ht).length_le
    have hsame (t : List Char) (ht : 3 ≤ t.length) := @isPrefixOf_append_of_le "-->".toList t ht more
    have hle := add_le_of_searchFor hlong hn
    have hn' := searchFor_append hlong hsame hn
    simp only [Cursor.rest_extend, hn', Cursor.skip_extend more hle,
      Cursor.peek_extend more (Nat.le_of_add_right_le hle), Cursor.spanTo_extend, Read.extend]

theorem readRawText_extend (name : String) (hc : c.LiesIn text) (hlast : text.getLast? = some '>')
    (hclear : (readRawText name c).problems = []) :
    readRawText name (c.extend more) = (readRawText name c).extend more := by
  rw [readRawText] at hclear ⊢
  rw [readRawText]
  cases hn : searchFor (beginsIgnoringCase ('<' :: '/' :: name.toList)) c.rest with
  | none => simp [hn] at hclear
  | some n =>
    have hlong (t : List Char) := @length_le_of_beginsIgnoringCase ('<' :: '/' :: name.toList) t
    have hle := add_le_of_searchFor hlong hn
    have hn' := searchFor_append hlong (fun t ht => beginsIgnoringCase_append ht more) hn
    have hskip := Cursor.skip_extend more (Nat.le_of_add_right_le hle)
    have hne : (c.skip n).rest ≠ [] := by
      simp only [List.length_cons] at hle
      simp only [Cursor.skip, ne_eq, List.drop_eq_nil_iff]
      omega
    simp only [Cursor.rest_extend, hn', hskip, Cursor.peek_extend more (Nat.le_of_add_right_le hle),
      Cursor.skipPast_extend more ((hc.skip n).mem_rest hlast hne), Cursor.spanTo_extend,
      Read.extend]

/-- Text ends where something else begins. -/
theorem readText_extend (hc : c.rest ≠ []) (hafter : (readText c).after.rest ≠ []) :
    readText (c.extend more) = (readText c).extend more := by
  obtain ⟨x, rest, hrest⟩ := List.exists_cons_of_ne_nil hc
  -- text before a `<` that is still in the source does not reach into what follows
  have hdrop : (readText c).after.rest = c.rest.tail.dropWhile (· ≠ '<') := by
    rw [← Cursor.rest_skipWhile ⟨0, c.rest.tail⟩, readText]
    simp only [Cursor.skip, Cursor.skipWhile, hrest, List.tail_cons, Nat.add_comm 1,
      List.drop_succ_cons]
  rw [hdrop] at hafter
  have htail : (c.rest ++ more).tail = c.rest.tail ++ more := by rw [hrest]; rfl
  have hle : 1 + (c.rest.tail.takeWhile (· ≠ '<')).length ≤ c.rest.length := by
    have := (List.takeWhile_prefix (· ≠ '<') (l := c.rest.tail)).length_le
    rw [List.length_tail] at this
    have := List.length_pos_iff.2 hc
    omega
  simp only [readText, Cursor.rest_extend, htail, takeWhile_append_of_ne_nil hafter,
    Cursor.skip_extend more hle, Cursor.peek_extend more hle, Cursor.spanTo_extend, Read.extend]

theorem endTagName_extend (h : ahead c.rest = .endTag) (hgt : '>' ∈ c.rest) :
    endTagName (c.extend more) = endTagName c := by
  obtain ⟨rest, hrest⟩ := ahead_eq_endTag h
  have hskip : (c.extend more).skip 2 = (c.skip 2).extend more :=
    Cursor.skip_extend more (by simp [hrest])
  have hmem : '>' ∈ (c.skip 2).rest := by
    simpa [Cursor.skip, hrest] using hgt
  have hrun : (c.skip 2).rest.dropWhile (fun x => !(isBlank x || x == '>')) ≠ [] :=
    dropWhile_ne_nil_of_mem hmem (by decide)
  rw [endTagName, endTagName, hskip, Cursor.rest_extend, takeWhile_append_of_ne_nil hrun]

/-- What stands at a place that is not the last: nothing is amiss with it, and text has an end. -/
def Step.Settled : Step → Prop
  | .node r => r.problems = [] ∧ r.after.rest ≠ []
  | .opening r => r.problems = []
  | .closing _ => True

def Step.extend (more : List Char) : Step → Step
  | .node r => .node (r.extend more)
  | .opening r => .opening (r.extend more)
  | .closing name => .closing name

theorem step_extend (hc : c.LiesIn text) (hlast : text.getLast? = some '>') (hne : c.rest ≠ [])
    (h : (step c).Settled) : step (c.extend more) = (step c).extend more := by
  have hgt := hc.mem_rest hlast hne
  have hahead := ahead_append more hgt
  rw [step] at h
  rw [step, step, Cursor.rest_extend, hahead]
  cases hkind : ahead c.rest with
  | comment =>
    rw [hkind] at h
    exact congrArg Step.node (readComment_extend more hkind h.1)
  | endTag => exact congrArg Step.closing (endTagName_extend more hkind hgt)
  | other =>
    rw [hkind] at h
    exact congrArg Step.node (readText_extend more hne h.2)
  | startTag =>
    have hlt := head?_of_ahead_eq_startTag hkind
    obtain ⟨v, -, hr⟩ := StartTag.reads_after hlt
    rw [hkind] at h
    dsimp only at h ⊢
    split at h
    · rename_i hchildless
      rw [StartTag.read_extend more hlt h.1, if_pos hchildless]
      exact if_pos hchildless
    · rename_i hchildren
      split at h
      · rename_i hraw
        obtain ⟨htag, hcontent⟩ := List.append_eq_nil_iff.1 h.1
        rw [StartTag.read_extend more hlt htag, if_neg hchildren, if_pos hraw]
        refine (if_neg hchildren).trans ((if_pos hraw).trans ?_)
        simp only [Read.extend, readRawText_extend more _ (hc.reads hr) hlast hcontent]
        rfl
      · rename_i hraw
        rw [StartTag.read_extend more hlt h, if_neg hchildren, if_neg hraw]
        exact (if_neg hchildren).trans (if_neg hraw)

end Readings

namespace Body

variable (more : List Char) {text : List Char} {parent : String} {outer : List String}
  {c : Cursor} {b : Body}

/-- The body, at the same place of a longer text. -/
def extend (b : Body) (more : List Char) : Body := { b with after := b.after.extend more }

theorem Run.rest_ne_nil (h : Run parent outer c b) (hclear : b.problems = []) : c.rest ≠ [] := by
  cases h with
  | endOfSource _ => cases hclear
  | node rest _ _ => exact rest
  | element stands _ _ => exact rest_ne_nil_of_stands stands (by simp)
  | closed stands _ => exact rest_ne_nil_of_stands stands (by simp)
  | implicit stands _ _ => exact rest_ne_nil_of_stands stands (by simp)
  | stray stands _ _ _ => exact rest_ne_nil_of_stands stands (by simp)

/-- A body without problems ends at its own end tag, so what follows the tag does not matter. -/
theorem Run.extend (h : Run parent outer c b) (hc : c.LiesIn text)
    (hlast : text.getLast? = some '>') (hclear : b.problems = []) :
    Run parent outer (c.extend more) (b.extend more) := by
  -- a body that ends with the source, or at an end tag of another element, has a problem
  induction h with
  | endOfSource _ => cases hclear
  | @node parent outer c r rest hrest stands run ih =>
    obtain ⟨hr, hmore⟩ := List.append_eq_nil_iff.1 hclear
    obtain ⟨v, -, hv⟩ := (step_faithful hc hrest stands).reads
    have hstands := step_extend more hc hlast hrest
      (by rw [stands]; exact ⟨hr, run.rest_ne_nil hmore⟩)
    rw [stands] at hstands
    exact .node (by simp [hrest]) hstands (ih (hc.reads hv) hmore)
  | @element parent outer c tag inner rest stands inside run ihInside ih =>
    obtain ⟨hboth, hmore⟩ := List.append_eq_nil_iff.1 hclear
    obtain ⟨htag, hinner⟩ := List.append_eq_nil_iff.1 hboth
    obtain ⟨hahead, heq⟩ := startTag_of_opening stands
    obtain ⟨u, -, hu⟩ := StartTag.reads_after (head?_of_ahead_eq_startTag hahead)
    rw [← heq] at hu
    obtain ⟨v, hv⟩ := (inside.faithful (hc.reads hu)).reads_after
    have hstands := step_extend more hc hlast (rest_ne_nil_of_stands stands (by simp))
      (by rw [stands]; exact htag)
    rw [stands] at hstands
    exact .element hstands (ihInside (hc.reads hu) hinner) (ih ((hc.reads hu).reads hv) hmore)
  | @closed parent outer c name stands own =>
    have hne := rest_ne_nil_of_stands stands (by simp)
    have hstands := step_extend more hc hlast hne (by rw [stands]; trivial)
    rw [stands] at hstands
    have hclosed : Run parent outer (c.extend more) _ := .closed hstands own
    rwa [Cursor.skipPast_extend more (hc.mem_rest hlast hne)] at hclosed
  | implicit _ _ _ => cases hclear
  | stray _ _ _ _ _ => cases hclear

theorem read_extend (hc : c.LiesIn text) (hlast : text.getLast? = some '>')
    (hclear : (read parent outer c).problems = []) :
    read parent outer (c.extend more) = (read parent outer c).extend more :=
  ((run_read parent outer c).extend more hc hlast hclear).read_eq

end Body

/-! ### Blocks -/

section Blocks

variable (more : List Char) {text : List Char} {c : Cursor}

theorem readTemplate_extend (hc : c.LiesIn text) (hlt : c.rest.head? = some '<')
    (hlast : text.getLast? = some '>')
    (hclear : (readTemplate c (StartTag.read c)).problems = []) :
    readTemplate (c.extend more) ((StartTag.read c).extend more) =
      (readTemplate c (StartTag.read c)).extend more := by
  obtain ⟨v, -, hr⟩ := StartTag.reads_after hlt
  generalize StartTag.read c = tag at hclear hr ⊢
  cases hself : tag.value.selfClosing with
  | true =>
    have hself' : (tag.extend more).value.selfClosing = true := hself
    rw [readTemplate_selfClosing hself, readTemplate_selfClosing hself']
    rfl
  | false =>
    have hself' : (tag.extend more).value.selfClosing = false := hself
    cases hmarkup : Template.langIsHtml tag.value.lang with
    | true =>
      have hmarkup' : Template.langIsHtml (tag.extend more).value.lang = true := hmarkup
      rw [readTemplate_html hself hmarkup rfl] at hclear ⊢
      have hbody := Body.read_extend more (hc.reads hr) hlast (List.append_eq_nil_iff.1 hclear).2
      rw [readTemplate_html hself' hmarkup' hbody]
      rfl
    | false =>
      have hmarkup' : Template.langIsHtml (tag.extend more).value.lang = false := hmarkup
      rw [readTemplate_raw hself hmarkup rfl] at hclear ⊢
      have hraw := readRawText_extend more tag.value.name (hc.reads hr) hlast
        (List.append_eq_nil_iff.1 hclear).2
      rw [readTemplate_raw hself' hmarkup' hraw]
      rfl

theorem readRawBlock_extend {tag : Read StartTag} (hc : tag.after.LiesIn text)
    (hlast : text.getLast? = some '>') (hclear : (readRawBlock tag).problems = []) :
    readRawBlock (tag.extend more) = (readRawBlock tag).extend more := by
  have hself' : (tag.extend more).value.selfClosing = tag.value.selfClosing := rfl
  unfold readRawBlock at hclear ⊢
  rw [hself']
  split at hclear
  · rename_i hself
    rw [if_pos hself, if_pos hself]
    rfl
  · rename_i hself
    have hraw := readRawText_extend more tag.value.name hc hlast (List.append_eq_nil_iff.1 hclear).2
    rw [if_neg hself, if_neg hself]
    simp only [Read.extend, hraw]

theorem problems_readTemplate (c : Cursor) (tag : Read StartTag) :
    tag.problems <+: (readTemplate c tag).problems := by
  unfold readTemplate
  dsimp only
  split
  · exact List.prefix_rfl
  · split
    · exact List.prefix_append _ _
    · exact List.prefix_append _ _

theorem problems_readRawBlock (tag : Read StartTag) :
    tag.problems <+: (readRawBlock tag).problems := by
  unfold readRawBlock
  split
  · exact List.prefix_rfl
  · exact List.prefix_append _ _

theorem readBlock_extend (seen : Bool) (hc : c.LiesIn text) (hlt : c.rest.head? = some '<')
    (hlast : text.getLast? = some '>') (hclear : (readBlock seen c).problems = []) :
    readBlock seen (c.extend more) = (readBlock seen c).extend more := by
  obtain ⟨v, -, hr⟩ := StartTag.reads_after hlt
  unfold readBlock at hclear ⊢
  dsimp only at hclear ⊢
  split at hclear
  · rename_i hname
    have htag := List.prefix_nil.1 (hclear ▸ problems_readTemplate c (StartTag.read c))
    rw [StartTag.read_extend more hlt htag, readTemplate_extend more hc hlt hlast hclear,
      if_pos hname]
    exact if_pos hname
  · rename_i hname
    have htag := List.prefix_nil.1 (hclear ▸ problems_readRawBlock (StartTag.read c))
    rw [StartTag.read_extend more hlt htag, readRawBlock_extend more (hc.reads hr) hlast hclear,
      if_neg hname]
    exact if_neg hname

/-! ### Sources -/

theorem nextMarkup_extend (hc : c.LiesIn text) (hlast : text.getLast? = some '>')
    (h : (nextMarkup c).rest ≠ []) :
    nextMarkup (c.extend more) = (nextMarkup c).extend more ∧
      ahead (nextMarkup (c.extend more)).rest = ahead (nextMarkup c).rest := by
  obtain ⟨u, hu⟩ := nextMarkup_reads c
  have hnext : nextMarkup (c.extend more) = (nextMarkup c).extend more :=
    Cursor.skipWhile_extend more h
  exact ⟨hnext, by rw [hnext, Cursor.rest_extend, ahead_append more ((hc.reads hu).mem_rest hlast h)]⟩

/-- Where no markup is left, the next markup is that of the text behind. -/
theorem nextMarkup_extend_endOf (h : (nextMarkup c).rest = []) :
    nextMarkup (c.extend more) = nextMarkup (c.endOf more) := by
  rw [nextMarkup, Cursor.rest_skipWhile, List.dropWhile_eq_nil_iff] at h
  have hr := (Cursor.reads_endOf more).trans ((c.endOf more).reads_skipWhile (· ≠ '<'))
  refine hr.skipWhile_eq (List.forall_mem_append.2 ⟨h, fun x hx => ?_⟩) fun x hx => ?_
  · exact List.mem_takeWhile_imp (p := fun y => decide (y ≠ '<')) hx
  · rw [Cursor.rest_skipWhile] at hx
    exact head?_dropWhile_eq_false hx

/-- A scan depends on its start only through the first markup. -/
theorem Scan.of_nextMarkup_eq {seen : Bool} {d : Cursor} {blocks : List Block}
    {problems : List Problem} (h : Scan seen c blocks problems)
    (hnext : nextMarkup d = nextMarkup c) : Scan seen d blocks problems := by
  cases h with
  | done rest => exact .done (hnext ▸ rest)
  | comment hahead scan =>
    rw [← hnext] at hahead scan ⊢
    exact .comment hahead scan
  | endTag hahead scan =>
    rw [← hnext] at hahead scan ⊢
    exact .endTag hahead scan
  | block hahead reads scan =>
    rw [← hnext] at hahead reads
    exact .block hahead reads scan
  | other hrest hahead scan =>
    rw [← hnext] at hrest hahead scan
    exact .other hrest hahead scan

/-- A scan that meets no problem goes on with the scan of the text behind. -/
theorem Scan.append {seen : Bool} {blocks blocks' : List Block} {problems problems' : List Problem}
    (h : Scan seen c blocks problems) (hc : c.LiesIn text) (hlast : text.getLast? = some '>')
    (hclear : problems = [])
    (hmore : Scan (seen || blocks.any (·.template?.isSome)) (c.endOf more) blocks' problems') :
    Scan seen (c.extend more) (blocks ++ blocks') problems' := by
  -- on the scan of the first text; where it is done, the scan of the second takes over
  induction h with
  | @done seen c rest =>
    rw [List.any_nil, Bool.or_false] at hmore
    exact hmore.of_nextMarkup_eq (nextMarkup_extend_endOf more rest)
  | @comment seen c blocks problems hahead _ ih =>
    obtain ⟨hcomment, hrest⟩ := List.append_eq_nil_iff.1 hclear
    obtain ⟨hnext, hsame⟩ := nextMarkup_extend more hc hlast (rest_ne_nil_of_ahead hahead (by simp))
    obtain ⟨u, hu⟩ := nextMarkup_reads c
    obtain ⟨v, -, hv⟩ := (readComment_faithful (hc.reads hu) hahead).reads
    have hread := readComment_extend more hahead hcomment
    rw [← hnext] at hread
    rw [← (hu.trans hv).endOf_eq more] at hmore
    have hscan := Scan.comment (hsame.trans hahead)
      (by rw [hread]; exact ih ((hc.reads hu).reads hv) hrest hmore)
    rwa [hread, Read.extend, hcomment, List.nil_append] at hscan
  | endTag _ _ _ => cases hclear
  | @block seen c block blocks problems hahead hreads _ ih =>
    obtain ⟨hblock, hrest⟩ := List.append_eq_nil_iff.1 hclear
    obtain ⟨hnext, hsame⟩ := nextMarkup_extend more hc hlast (rest_ne_nil_of_ahead hahead (by simp))
    obtain ⟨u, hu⟩ := nextMarkup_reads c
    have hlt := head?_of_ahead_eq_startTag hahead
    obtain ⟨v, -, hv⟩ := (readBlock_faithful (hc.reads hu) hlt seen).reads
    have hread := readBlock_extend more seen (hc.reads hu) hlt hlast (by rw [hreads, hblock])
    rw [hreads] at hv
    rw [← hnext, hreads] at hread
    rw [List.any_cons, ← Bool.or_assoc, ← (hu.trans hv).endOf_eq more] at hmore
    have hscan := Scan.block (hsame.trans hahead) hread (ih ((hc.reads hu).reads hv) hrest hmore)
    rwa [Read.extend, hblock, List.nil_append] at hscan
  | @other seen c blocks problems hrest hahead _ ih =>
    obtain ⟨hnext, hsame⟩ := nextMarkup_extend more hc hlast hrest
    obtain ⟨u, hu⟩ := nextMarkup_reads c
    have hskip := Cursor.reads_skip (nextMarkup c) 1
    rw [← (hu.trans hskip).endOf_eq more] at hmore
    refine .other (by simp [hnext, hrest]) (hsame.trans hahead) ?_
    rw [hnext, Cursor.skip_extend more (List.length_pos_iff.2 hrest)]
    exact ih ((hc.reads hu).reads hskip) hclear hmore

theorem readBlock_true_eq (h : (readBlock false c).value.template? = none) :
    readBlock true c = readBlock false c := by
  by_cases hname : sameName (StartTag.read c).value.name "template" = true
  · rw [readBlock_of_sameName hname rfl] at h
    cases h
  · simp [readBlock, hname]

/-- Where no template is met, it does not matter whether one was met before. -/
theorem Scan.of_no_template {blocks : List Block} {problems : List Problem}
    (h : Scan false c blocks problems) (hnone : ∀ b ∈ blocks, b.template? = none) (seen : Bool) :
    Scan seen c blocks problems := by
  cases seen with
  | false => exact h
  | true =>
    -- that a template was seen only changes how a second template is read
    generalize hseen : false = met at h
    induction h with
    | done rest => exact .done rest
    | comment hahead _ ih => exact .comment hahead (ih hnone hseen)
    | endTag hahead _ ih => exact .endTag hahead (ih hnone hseen)
    | @block met c block blocks problems hahead hreads _ ih =>
      subst hseen
      obtain ⟨hblock, hrest⟩ := List.forall_mem_cons.1 hnone
      have hkind : readBlock true (nextMarkup c) = block := by
        rw [← hreads] at hblock ⊢
        exact readBlock_true_eq hblock
      exact .block hahead hkind (ih hrest (by rw [hblock]; rfl))
    | other hrest hahead _ ih => exact .other hrest hahead (ih hnone hseen)

end Blocks

/-- The blocks of one kind of two texts. -/
theorem filterMap_append_shift {α : Type} {f : Block → Option α} {shift : α → α} {distance : Nat}
    (h : ∀ b : Block, f (b.shift distance) = (f b).map shift) (first second : List Block) :
    (first ++ second.map (·.shift distance)).filterMap f =
      first.filterMap f ++ (second.filterMap f).map shift := by
  rw [List.filterMap_append, List.filterMap_map, List.map_filterMap]
  exact congrArg _ (congrArg (List.filterMap · second) (funext h))

/-- The blocks of two texts, if not both have a template. -/
theorem readBlocks_append {a b : List Char} (hlast : a.getLast? = some '>')
    (hclear : (readBlocks false ⟨0, a⟩).2 = [])
    (hone : (∀ x ∈ (readBlocks false ⟨0, a⟩).1, x.template? = none) ∨
      ∀ x ∈ (readBlocks false ⟨0, b⟩).1, x.template? = none) :
    readBlocks false ⟨0, a ++ b⟩ =
      ((readBlocks false ⟨0, a⟩).1 ++ (readBlocks false ⟨0, b⟩).1.map (·.shift (byteLength a)),
        (readBlocks false ⟨0, b⟩).2.map (·.shift (byteLength a))) := by
  have hbehind : Scan (false || (readBlocks false ⟨0, a⟩).1.any (·.template?.isSome)) ⟨0, b⟩
      (readBlocks false ⟨0, b⟩).1 (readBlocks false ⟨0, b⟩).2 := by
    rcases hone with hfirst | hsecond
    · have hnone : (readBlocks false ⟨0, a⟩).1.any (·.template?.isSome) = false :=
        List.any_eq_false.2 fun x hx => by simp [hfirst x hx]
      rw [hnone]
      exact scan_readBlocks false ⟨0, b⟩
    · exact (scan_readBlocks false ⟨0, b⟩).of_no_template hsecond _
  exact ((scan_readBlocks false ⟨0, a⟩).append b (LiesIn.start a) hlast hclear
    (hbehind.shift (byteLength a))).readBlocks_eq

namespace Component

theorem template?_eq_none_iff {c : Component} :
    c.template? = none ↔ ∀ b ∈ c.blocks, b.template? = none := List.findSome?_eq_none_iff

/-- A component behind one that is read without problems and ends with `>` is read as it is alone,
moved behind the first. Only one of the two can have a template, since a component has no second. -/
theorem ofText_append {a b : String} (hlast : a.toList.getLast? = some '>')
    (hclear : (ofText a).problems = [])
    (hone : (ofText a).template? = none ∨ (ofText b).template? = none) :
    (ofText (a ++ b)).scripts =
        (ofText a).scripts ++ (ofText b).scripts.map (·.shift (byteLength a.toList)) ∧
      (ofText (a ++ b)).styles =
        (ofText a).styles ++ (ofText b).styles.map (·.shift (byteLength a.toList)) ∧
      (ofText (a ++ b)).customBlocks =
        (ofText a).customBlocks ++ (ofText b).customBlocks.map (·.shift (byteLength a.toList)) ∧
      (ofText (a ++ b)).template? =
        (ofText a).template?.or ((ofText b).template?.map (·.shift (byteLength a.toList))) ∧
      (ofText (a ++ b)).problems = (ofText b).problems.map (·.shift (byteLength a.toList)) := by
  have hread := readBlocks_append hlast hclear
    (hone.imp template?_eq_none_iff.1 template?_eq_none_iff.1)
  rw [ofText_eq (a ++ b), String.toList_append, hread]
  refine ⟨?_, ?_, ?_, ?_, rfl⟩
  · exact filterMap_append_shift (Block.script?_shift _) _ _
  · exact filterMap_append_shift (Block.style?_shift _) _ _
  · exact filterMap_append_shift (Block.custom?_shift _) _ _
  · simp only [template?, List.findSome?_append, List.findSome?_map, List.map_findSome?,
      Function.comp_def, Block.template?_shift]
    rfl

/-- Behind a template with `>` in a value and text that ends with `>`: an end tag of no block, and a
script that is never closed. -/
theorem ofText_append_unclosed :
    ∃ a b : String,
      a = "é<script>a</script><template><p id='>'>x</p></template> >" ∧
      b = "></i>é<script lang=ts>b" ∧
      a.toList.getLast? = some '>' ∧ (ofText a).problems = [] ∧ (ofText b).template? = none ∧
      (ofText (a ++ b)).scripts.map (·.contentSpan) = [⟨10, 11⟩, ⟨81, 82⟩] ∧
      (ofText (a ++ b)).template?.map (·.span) = some ⟨20, 56⟩ ∧
      (ofText (a ++ b)).problems =
        [⟨.mismatchedClosingTag "a top-level block" "i", ⟨59, 63⟩⟩,
          ⟨.unclosedTag "script", ⟨81, 82⟩⟩] := by
  refine ⟨_, _, rfl, rfl, ?_⟩
  have hlast : "é<script>a</script><template><p id='>'>x</p></template> >".toList.getLast? =
      some '>' := by decide
  have hclear : (ofText "é<script>a</script><template><p id='>'>x</p></template> >").problems = [] := by
    decide +kernel
  have hnone : (ofText "></i>é<script lang=ts>b").template? = none :=
    Option.isNone_iff_eq_none.1 (by decide +kernel)
  obtain ⟨hscripts, -, -, htemplate, hproblems⟩ := ofText_append hlast hclear (.inr hnone)
  rw [hscripts, htemplate, hproblems]
  exact ⟨hlast, hclear, hnone, by decide +kernel, by decide +kernel, by decide +kernel⟩

end Component

end CosmeticLint.Markup
