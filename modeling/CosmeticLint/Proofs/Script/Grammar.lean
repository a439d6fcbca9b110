import CosmeticLint.Proofs.Script.Reader
import CosmeticLint.Script.Collect

/-! The grammar of scripts: every construct keeps states sound, given that the constructs
inside it do. There is one lemma for each reading, in the order of the definitions; where a
condition remains, it is that a place which is moved to lies in the script. -/

open Std.Do

set_option mvcgen.warning false

namespace CosmeticLint.Script

open Reader

/-- A reading that keeps states sound, or fails at a place in the script, if it begins at a
backquote. -/
abbrev KeepsTemplate (script : List Char) {α : Type} (r : Reader α) : Prop :=
  ⦃fun _ s => ⌜s.Sound script ∧ s.token.kind = .punctuator "`"⌝⦄ r
  ⦃post⟨fun _ _ s => ⌜s.Sound script⌝, fun f => ⌜f.LiesIn script⌝⟩⦄

/-- Templates are read from their backquote on. -/
def Goal.isTemplate : Goal → Bool
  | .template _ | .typeTemplate => true
  | _ => false

/-- A way to read any construct that keeps states sound. -/
class Grammar.Sound (g : Grammar) : Prop where
  construct : ∀ script goal, goal.isTemplate = false → Keeps script (g goal)
  template : ∀ script goal, goal.isTemplate = true →
    KeepsTemplate script (g goal)

variable {script : List Char}

/-! ### Templates -/

/-- Behind a delimiter a part of a template begins. -/
structure State.AtPart (script : List Char) (s : State) : Prop extends s.Sound script where
  before : s.place.Behind script '\x60' ∨ s.place.Behind script '\x7d'

namespace State

variable {s : State}

theorem AtPart.stands (h : s.AtPart script) {after : Cursor}
    (hafter : (Quoted.ofTemplate s.place).after = some after) (value : Option String) :
    Node.StandsIn 0 script ⟨.quasi, value, s.place.spanTo (Quoted.ofTemplate s.place).inside⟩ :=
  standsIn_of_part h.before hafter

theorem AtPart.liesIn_inside (h : s.AtPart script) :
    (Quoted.ofTemplate s.place).inside.LiesIn script := by
  obtain ⟨body, hbody, -⟩ := (Quoted.runs_ofTemplate s.place).body
  exact h.place.reads hbody

theorem AtPart.liesIn_bad (h : s.AtPart script) {f : Fault}
    (hbad : (Quoted.ofTemplate s.place).bad = some f) : f.LiesIn script :=
  Quoted.liesIn_bad_ofTemplate h.place hbad

theorem AtPart.liesIn_after (h : s.AtPart script) {after : Cursor}
    (hafter : (Quoted.ofTemplate s.place).after = some after) : after.LiesIn script := by
  obtain ⟨w, hw⟩ := (Quoted.runs_ofTemplate s.place).reads_after
  rw [hafter, Option.getD_some] at hw
  exact h.place.reads hw

/-- The delimiter is the current token, and the part behind it comes next. -/
theorem Sound.atPart (h : s.Sound script) {p : String} (hkind : s.token.kind = .punctuator p)
    (hp : p = "`" ∨ p = "\x7d") :
    State.AtPart script
      { s with token := .read (s.token.start.skip 1), place := s.token.start.skip 1 } := by
  obtain ⟨rest, hrest⟩ := h.fits.punctuator p hkind
  have hbehind (x : Char) (hx : p.toList = [x]) : (s.token.start.skip 1).Behind script x :=
    ⟨_, h.liesIn_start, Cursor.reads_head (hx ▸ hrest.symm)⟩
  rcases hp with rfl | rfl
  · exact ⟨h.seek (hbehind _ rfl).liesIn, Or.inl (hbehind _ rfl)⟩
  · exact ⟨h.seek (hbehind _ rfl).liesIn, Or.inr (hbehind _ rfl)⟩

end State

theorem keeps_readTemplate {tagged : Bool} {substitution : Reader Unit}
    (h : Keeps script substitution) : KeepsTemplate script (readTemplate tagged substitution) := by
  have hpart := @loop_keeps script (State.AtPart script) fun _ hs => hs.toSound
  mvcgen [readTemplate, current, seek, keeps_record, h, hpart, -keeps_loop, -keeps_failHere]
  all_goals grind [State.Sound.seek, State.Sound.atPart, State.AtPart.toSound, State.AtPart.stands,
    State.AtPart.liesIn_after, State.AtPart.liesIn_inside, State.AtPart.liesIn_bad,
    State.Sound.liesIn_start, State.Sound.liesIn_faultHere, Fault.liesIn_spanTo]

/-! ### Constructs inside constructs -/

section Constructs

variable {g : Grammar} [hg : g.Sound]

@[spec]
theorem keeps_unary : Keeps script (g .unary) := hg.construct script _ rfl

@[spec]
theorem keeps_operand : Keeps script (g .operand) := hg.construct script _ rfl

@[spec]
theorem keeps_element : Keeps script (g .element) := hg.construct script _ rfl

@[spec]
theorem keeps_assignmentShape : Keeps script (g .assignment) := hg.construct script _ rfl

@[spec high]
theorem keeps_template {tagged : Bool} : KeepsTemplate script (g (.template tagged)) :=
  hg.template script _ rfl

@[spec high]
theorem keeps_typeTemplate : KeepsTemplate script (g .typeTemplate) := hg.template script _ rfl

theorem keeps_discard (goal : Goal) (hgoal : goal.isTemplate = false) :
    Keeps script (discard (g goal)) := by
  have hconstruct := hg.construct script goal hgoal
  mvcgen [hconstruct]

@[spec]
theorem keeps_statement : Keeps script g.statement := keeps_discard _ rfl

@[spec]
theorem keeps_expression : Keeps script g.expression := keeps_discard _ rfl

@[spec]
theorem keeps_assignment : Keeps script g.assignment := keeps_discard _ rfl

@[spec]
theorem keeps_binding : Keeps script g.binding := keeps_discard _ rfl

@[spec]
theorem keeps_typeExpr : Keeps script g.typeExpr := keeps_discard _ rfl

/-! ### Parameters and arguments -/

@[spec]
theorem keeps_typeAfterColon : Keeps script (typeAfterColon g) := by mvcgen [typeAfterColon]

@[spec]
theorem keeps_initializer : Keeps script (initializer g) := by mvcgen [initializer]

@[spec]
theorem keeps_arguments : Keeps script (arguments g) := by mvcgen [arguments]

@[spec]
theorem keeps_typeArguments : Keeps script (typeArguments g) := by mvcgen [typeArguments]

@[spec]
theorem keeps_isModifier : Keeps script isModifier := by mvcgen [isModifier]

@[spec]
theorem keeps_typeParameters : Keeps script (typeParameters g) := by mvcgen [typeParameters]

@[spec]
theorem keeps_optionalTypeParameters : Keeps script (optionalTypeParameters g) := by
  mvcgen [optionalTypeParameters]

@[spec]
theorem keeps_decorators : Keeps script (decorators g) := by mvcgen [decorators]

@[spec]
theorem keeps_parameter : Keeps script (parameter g) := by mvcgen [parameter]

@[spec]
theorem keeps_parameters : Keeps script (parameters g) := by mvcgen [parameters]

@[spec]
theorem keeps_propertyName : Keeps script (propertyName g) := by mvcgen [propertyName]

/-! ### Types -/

@[spec]
theorem keeps_followedBy {ps : List String} : Keeps script (followedBy ps) := by mvcgen [followedBy]

@[spec]
theorem keeps_typePath : Keeps script (typePath g) := by mvcgen [typePath]

@[spec]
theorem keeps_importedType : Keeps script (importedType g) := by mvcgen [importedType]

@[spec]
theorem keeps_bracketedMember : Keeps script (bracketedMember g) := by mvcgen [bracketedMember]

@[spec]
theorem keeps_signature : Keeps script (signature g) := by mvcgen [signature]

@[spec]
theorem keeps_typeMember : Keeps script (typeMember g) := by mvcgen [typeMember]

@[spec]
theorem keeps_typeMembers : Keeps script (typeMembers g) := by mvcgen [typeMembers]

@[spec]
theorem keeps_tupleElement : Keeps script (tupleElement g) := by
  mvcgen [tupleElement, tupleElement.optionalElement]

@[spec]
theorem keeps_namedType : Keeps script (namedType g) := by mvcgen [namedType]

@[spec]
theorem keeps_primaryType : Keeps script (primaryType g) := by mvcgen [primaryType, current]

@[spec]
theorem keeps_atTypeOperator : Keeps script atTypeOperator := by mvcgen [atTypeOperator]

@[spec]
theorem keeps_operandType : Keeps script (operandType g) := by mvcgen [operandType]

@[spec]
theorem keeps_resultType : Keeps script (resultType g) := by mvcgen [resultType]

@[spec]
theorem keeps_readTypeExpr : Keeps script (readTypeExpr g) := by mvcgen [readTypeExpr]

/-! ### Elements -/

section Places

variable {s : State} {x : Char} {after : Cursor}

theorem State.Sound.liesIn_next (h : s.Sound script) : (skipTrivia s.place).1.LiesIn script := by
  obtain ⟨w, hw⟩ := reads_skipTrivia s.place
  exact h.place.reads hw

theorem State.Sound.stands_attributeValue (h : s.Sound script)
    (hhead : (skipTrivia s.place).1.rest.head? = some x) (hx : x = '"' ∨ x = '\'')
    (hafter : (Quoted.ofAttribute x ((skipTrivia s.place).1.skip 1)).after = some after)
    (value : Option String) :
    Node.StandsIn 0 script ⟨.string, value, (skipTrivia s.place).1.spanTo after⟩ := by
  obtain ⟨rest, hrest⟩ := List.head?_eq_some_iff.1 hhead
  obtain ⟨written, hread, hwritten⟩ := exists_written_attributeValue hrest hx hafter
  exact standsIn_of_string h.liesIn_next hread hwritten

theorem State.Sound.liesIn_insideValue (h : s.Sound script) (hx : x = '"' ∨ x = '\'') :
    (Quoted.ofAttribute x ((skipTrivia s.place).1.skip 1)).inside.LiesIn script := by
  obtain ⟨⟨body, hbody, -⟩, -⟩ := Quoted.reads_ofAttribute hx ((skipTrivia s.place).1.skip 1)
  exact (h.liesIn_next.skip 1).reads hbody

theorem State.Sound.liesIn_attributeValue (h : s.Sound script) (hx : x = '"' ∨ x = '\'')
    (hafter : (Quoted.ofAttribute x ((skipTrivia s.place).1.skip 1)).after = some after) :
    after.LiesIn script := by
  have hclosed := (Quoted.reads_ofAttribute hx ((skipTrivia s.place).1.skip 1)).2
  exact (h.liesIn_insideValue hx).reads (hclosed after hafter)

end Places

attribute [grind →] State.Sound.place State.Sound.liesIn_start State.Sound.liesIn_next
attribute [grind ←] Cursor.LiesIn.skip Cursor.LiesIn.skipWhile Fault.liesIn_spanTo

attribute [spec] place nextChar failAt

@[spec]
theorem keeps_expectChar {x : Char} : Keeps script (expectChar x) := by
  mvcgen [expectChar]
  all_goals grind

@[spec]
theorem keeps_elementName : Keeps script elementName := by
  mvcgen [elementName]
  all_goals grind

@[spec]
theorem keeps_closeBrace : Keeps script closeBrace := by
  mvcgen [closeBrace, current]
  all_goals grind

@[spec]
theorem keeps_attributeValue : Keeps script (attributeValue g) := by
  mvcgen [attributeValue, keeps_record]
  all_goals grind [State.Sound.stands_attributeValue, State.Sound.liesIn_attributeValue,
    State.Sound.liesIn_insideValue]

@[spec]
theorem keeps_elementAttribute : Keeps script (elementAttribute g) := by
  mvcgen [elementAttribute]
  all_goals grind

@[spec]
theorem keeps_elementChild : Keeps script (elementChild g) := by
  -- The characters ahead could be taken for the script, so it is fixed in every lemma.
  have hseek (c : Cursor) := @keeps_seek script c
  have helement := @keeps_element script g _
  have hexpression := @keeps_expression script g _
  have hclose := @keeps_closeBrace script
  have hcurrent := @keeps_current script
  have heat (p : String) := @keeps_eat script p
  mvcgen [elementChild, hseek, helement, hexpression, hclose, hcurrent, heat, -keeps_seek,
    -keeps_element, -keeps_expression, -keeps_closeBrace, -keeps_current, -keeps_eat]
  all_goals grind

@[spec]
theorem keeps_readElement : Keeps script (readElement g) := by
  mvcgen [readElement, current]
  all_goals grind

/-! ### Functions and classes -/

@[spec]
theorem keeps_block : Keeps script (block g) := by mvcgen [block]

@[spec]
theorem keeps_functionBody : Keeps script (functionBody g) := by mvcgen [functionBody]

@[spec]
theorem keeps_optionalBody : Keeps script (optionalBody g) := by mvcgen [optionalBody]

@[spec]
theorem keeps_method : Keeps script (method g) := by mvcgen [method]

@[spec]
theorem keeps_function : Keeps script (function g) := by mvcgen [function]

@[spec]
theorem keeps_classMember : Keeps script (classMember g) := by mvcgen [classMember]

@[spec]
theorem keeps_classMembers : Keeps script (classMembers g) := by mvcgen [classMembers]

@[spec]
theorem keeps_heritage : Keeps script (heritage g) := by mvcgen [heritage]

@[spec]
theorem keeps_classRest : Keeps script (classRest g) := by mvcgen [classRest]

/-! ### Expressions -/

@[spec]
theorem keeps_regExp : Keeps script regExp := by
  mvcgen [regExp, current]
  all_goals grind

@[spec]
theorem keeps_property : Keeps script (property g) := by mvcgen [property]

@[spec]
theorem keeps_objectLiteral : Keeps script (objectLiteral g) := by mvcgen [objectLiteral]

@[spec]
theorem keeps_arrayLiteral : Keeps script (arrayLiteral g) := by mvcgen [arrayLiteral]

@[spec]
theorem keeps_arrowBody : Keeps script (arrowBody g) := by mvcgen [arrowBody]

@[spec]
theorem keeps_atArrow : Keeps script atArrow := by mvcgen [atArrow]

@[spec]
theorem keeps_arrowFunction : Keeps script (arrowFunction g) := by mvcgen [arrowFunction]

@[spec]
theorem keeps_parenthesized : Keeps script (parenthesized g) := by mvcgen [parenthesized]

@[spec]
theorem keeps_primary : Keeps script (primary g) := by mvcgen [primary, current]

@[spec]
theorem keeps_typeArgumentsOfCall : Keeps script (typeArgumentsOfCall g) := by
  mvcgen [typeArgumentsOfCall]

@[spec]
theorem keeps_operandTail : Keeps script (operandTail g) := by mvcgen [operandTail, atMark, current]

@[spec]
theorem keeps_readOperand : Keeps script (readOperand g) := by mvcgen [readOperand]

@[spec]
theorem keeps_typeAssertion : Keeps script (typeAssertion g) := by mvcgen [typeAssertion]

@[spec]
theorem keeps_readUnary : Keeps script (readUnary g) := by mvcgen [readUnary]

@[spec]
theorem keeps_binaryStep : Keeps script (binaryStep g) := by mvcgen [binaryStep]

@[spec]
theorem keeps_marksOptional : Keeps script marksOptional := by mvcgen [marksOptional]

@[spec]
theorem keeps_operators : Keeps script (operators g) := by mvcgen [operators]

@[spec]
theorem keeps_yieldOperand : Keeps script (yieldOperand g) := by mvcgen [yieldOperand]

@[spec]
theorem keeps_arrowByStart : Keeps script (arrowByStart g) := by mvcgen [arrowByStart]

@[spec]
theorem keeps_readAssignment : Keeps script (readAssignment g) := by mvcgen [readAssignment]

@[spec]
theorem keeps_readExpression : Keeps script (readExpression g) := by mvcgen [readExpression]

/-! ### Statements -/

@[spec]
theorem keeps_bindingProperty : Keeps script (bindingProperty g) := by mvcgen [bindingProperty]

@[spec]
theorem keeps_bindingElements : Keeps script (bindingElements g) := by mvcgen [bindingElements]

@[spec]
theorem keeps_readBinding : Keeps script (readBinding g) := by mvcgen [readBinding]

@[spec]
theorem keeps_declarators : Keeps script (declarators g) := by mvcgen [declarators]

@[spec]
theorem keeps_condition : Keeps script (condition g) := by mvcgen [condition]

@[spec]
theorem keeps_atDeclaration : Keeps script atDeclaration := by mvcgen [atDeclaration]

@[spec]
theorem keeps_forStatement : Keeps script (forStatement g) := by mvcgen [forStatement]

@[spec]
theorem keeps_ifStatement : Keeps script (ifStatement g) := by mvcgen [ifStatement]

@[spec]
theorem keeps_whileStatement : Keeps script (whileStatement g) := by mvcgen [whileStatement]

@[spec]
theorem keeps_doStatement : Keeps script (doStatement g) := by mvcgen [doStatement]

@[spec]
theorem keeps_switchStatement : Keeps script (switchStatement g) := by mvcgen [switchStatement]

@[spec]
theorem keeps_tryStatement : Keeps script (tryStatement g) := by mvcgen [tryStatement]

@[spec]
theorem keeps_returnStatement : Keeps script (returnStatement g) := by mvcgen [returnStatement]

@[spec]
theorem keeps_withStatement : Keeps script (withStatement g) := by mvcgen [withStatement]

@[spec]
theorem keeps_jumpStatement : Keeps script jumpStatement := by mvcgen [jumpStatement]

@[spec]
theorem keeps_expressionStatement : Keeps script (expressionStatement g) := by
  mvcgen [expressionStatement]

@[spec]
theorem keeps_importAttributes : Keeps script (importAttributes g) := by mvcgen [importAttributes]

@[spec]
theorem keeps_moduleName : Keeps script (moduleName g) := by mvcgen [moduleName]

@[spec]
theorem keeps_specifiers : Keeps script specifiers := by mvcgen [specifiers]

@[spec]
theorem keeps_importAlias : Keeps script (importAlias g) := by mvcgen [importAlias]

@[spec]
theorem keeps_importDeclaration : Keeps script (importDeclaration g) := by
  mvcgen [importDeclaration]

@[spec]
theorem keeps_exportSource : Keeps script (exportSource g) := by mvcgen [exportSource]

@[spec]
theorem keeps_defaultExport : Keeps script (defaultExport g) := by mvcgen [defaultExport]

@[spec]
theorem keeps_exportDeclaration : Keeps script (exportDeclaration g) := by
  mvcgen [exportDeclaration]

@[spec]
theorem keeps_typeAlias : Keeps script (typeAlias g) := by mvcgen [typeAlias]

@[spec]
theorem keeps_interface : Keeps script (interface g) := by mvcgen [interface]

@[spec]
theorem keeps_enumeration : Keeps script (enumeration g) := by mvcgen [enumeration]

@[spec]
theorem keeps_namespaceDeclaration : Keeps script (namespaceDeclaration g) := by
  mvcgen [namespaceDeclaration]

@[spec]
theorem keeps_typeScriptDeclaration : Keeps script (typeScriptDeclaration g) := by
  mvcgen [typeScriptDeclaration, atAnyWord]

@[spec]
theorem keeps_wordStatement {name : String} : Keeps script (wordStatement g name) := by
  mvcgen [wordStatement]

@[spec]
theorem keeps_readStatement : Keeps script (readStatement g) := by mvcgen [readStatement]

end Constructs

end CosmeticLint.Script
