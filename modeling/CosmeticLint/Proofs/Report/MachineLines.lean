import CosmeticLint.Proofs.Lint.Reportable
import CosmeticLint.Proofs.Text.ShownLines
import CosmeticLint.Report.Format

/-! Records of one line. A record is written between a place and a code, neither of which can hold a
line feed, and ends in one. What stands between them is the message, and of the messages of a check
only those about a forbidden name can hold a line feed, namely the name's own. -/

namespace CosmeticLint.Report

open FilterList Lint

/-! ### One record -/

/-- The text has the part in it and no line feed besides. -/
def Encloses (text part : List Char) : Prop :=
  ∃ front back, text = front ++ (part ++ back) ∧ '\n' ∉ front ∧ '\n' ∉ back

theorem Encloses.trans {text part inner : List Char} (h : Encloses text part)
    (hpart : Encloses part inner) : Encloses text inner := by
  obtain ⟨front, back, rfl, hfront, hback⟩ := h
  obtain ⟨front', back', rfl, hfront', hback'⟩ := hpart
  refine ⟨front ++ front', back' ++ back, by simp, ?_, ?_⟩
  · simp [hfront, hfront']
  · simp [hback, hback']

theorem Encloses.count_eq {text part : List Char} (h : Encloses text part) :
    text.count '\n' = part.count '\n' := by
  obtain ⟨front, back, rfl, hfront, hback⟩ := h
  rw [List.count_append, List.count_append, List.count_eq_zero.2 hfront, List.count_eq_zero.2 hback,
    Nat.zero_add, Nat.add_zero]

theorem Encloses.mem_iff {text part : List Char} (h : Encloses text part) :
    '\n' ∈ text ↔ '\n' ∈ part := by
  rw [← List.count_pos_iff, h.count_eq, List.count_pos_iff]

theorem encloses_nil {text : List Char} (h : '\n' ∉ text) : Encloses text [] :=
  ⟨text, [], by simp, h, List.not_mem_nil⟩

/-- The characters of the name that a diagnostic is about; none if it is about no name. -/
def nameChars (d : Diagnostic) : List Char := (d.name.getD "").toList

theorem mem_nameChars_iff {d : Diagnostic} {c : Char} :
    c ∈ nameChars d ↔ ∃ name, d.name = some name ∧ c ∈ name.toList := by
  rw [nameChars]
  cases d.name <;> simp

/-- What a record has in front of its message. -/
def placeText (e : Entry) : String :=
  machineLabel e.severity ++ " " ++ e.path ++ ":" ++ toString e.start.line ++ ":" ++
    toString e.start.column ++ ":" ++ toString e.stop.line ++ ":" ++ toString e.stop.column ++ " "

theorem lineFeed_notMem_placeText {e : Entry} (hpath : '\n' ∉ e.path.toList) :
    '\n' ∉ (placeText e).toList := by
  have hlabel : '\n' ∉ (machineLabel e.severity).toList := by
    cases e.severity <;> decide
  have hspace : '\n' ∉ " ".toList := by decide
  have hcolon : '\n' ∉ ":".toList := by decide
  simp only [placeText, String.toList_append, List.mem_append, hlabel, hpath, hspace, hcolon,
    lineFeed_notMem_toString, or_self, not_false_eq_true]

/-- A record is its message between a place and a code, and a line feed. -/
theorem exists_machineLine_encloses {e : Entry} (hpath : '\n' ∉ e.path.toList) :
    ∃ line, e.machineLine.toList = line ++ ['\n'] ∧ Encloses line e.message.toList := by
  have hcode : '\n' ∉ " (".toList ++ (e.code.label.toList ++ [')']) := by
    cases e.code <;> decide
  refine ⟨_, ?_, (placeText e).toList, _, rfl, lineFeed_notMem_placeText hpath, hcode⟩
  have hline : e.machineLine = placeText e ++ e.message ++ " (" ++ e.code.label ++ ")\n" := rfl
  have hend : ")\n".toList = [')'] ++ ['\n'] := rfl
  rw [hline]
  simp only [String.toList_append, List.append_assoc, hend]

/-- A message about a name has the name in it, and no message has a line feed of its own. -/
theorem message_encloses {read : ScriptReader} {forbidden : Artifact} {d : Diagnostic}
    (hread : ∀ text dialect f, read text dialect = .error f → '\n' ∉ f.message.toList)
    (h : Reportable read forbidden d) : Encloses d.message.toList (nameChars d) := by
  cases h with
  | @forbiddenId name span _ =>
    refine ⟨"ID '".toList, "' is forbidden.".toList, ?_, by decide, by decide⟩
    show ("ID '" ++ name ++ "' is forbidden.").toList = _ ++ (name.toList ++ _)
    rw [String.toList_append, String.toList_append, List.append_assoc]
  | @forbiddenClass name span _ =>
    refine ⟨"Class '".toList, "' is forbidden.".toList, ?_, by decide, by decide⟩
    show ("Class '" ++ name ++ "' is forbidden.").toList = _ ++ (name.toList ++ _)
    rw [String.toList_append, String.toList_append, List.append_assoc]
  | @unreadable _ _ f _ hfault =>
    have hmessage : '\n' ∉ ("Parsing error: " ++ f.message).toList := by
      simpa using hread _ _ _ hfault
    exact encloses_nil hmessage
  | unavailable =>
    have hmessage : '\n' ∉ templateUnavailable.message.toList := by decide +kernel
    exact encloses_nil hmessage

/-! ### All records -/

theorem count_join_map {record : Diagnostic → String} {ds : List Diagnostic}
    (h : ∀ d ∈ ds, ∃ line, (record d).toList = line ++ ['\n'] ∧ Encloses line (nameChars d)) :
    (String.join (ds.map record)).toList.count '\n' =
      ds.length + (ds.flatMap nameChars).count '\n' := by
  induction ds with
  | nil => rfl
  | cons d ds ih =>
    obtain ⟨hd, hds⟩ := List.forall_mem_cons.1 h
    obtain ⟨line, hline, hname⟩ := hd
    rw [List.map_cons, String.join_cons, String.toList_append, hline, List.count_append,
      List.count_append, hname.count_eq, List.count_singleton_self, ih hds, List.length_cons,
      List.flatMap_cons, List.count_append]
    omega

/-- In a report for machines every record ends in a line feed, and is one line unless the name that
it is about has a line feed. So there are as many line feeds as diagnostics if no such name was
found, as where no forbidden name has one, and else one more for each in a name. -/
theorem textOfFile_machine_lines (read : ScriptReader) (forbidden : Artifact) (can : Capabilities)
    (rule filename path source : String)
    (hread : ∀ text dialect f, read text dialect = .error f → '\n' ∉ f.message.toList)
    (hpath : '\n' ∉ path.toList) :
    let ds := checkWith read forbidden can filename source
    let record := fun d => (Entry.ofDiagnostic rule path (.ofText source) d).machineLine
    let text := textOfFile .machine rule path source ds
    text = String.join (ds.map record) ∧
      (∀ d ∈ ds, ∃ line, (record d).toList = line ++ ['\n'] ∧
        ('\n' ∈ line ↔ ∃ name, d.name = some name ∧ '\n' ∈ name.toList)) ∧
      text.toList.count '\n' = ds.length + (ds.flatMap nameChars).count '\n' ∧
      (text.toList.count '\n' = ds.length ↔
        ∀ d ∈ ds, ∀ name, d.name = some name → '\n' ∉ name.toList) ∧
      ((∀ name ∈ forbidden.ids ++ forbidden.classes, '\n' ∉ name.toList) →
        text.toList.count '\n' = ds.length) := by
  intro ds record text
  have hrecord : ∀ d ∈ ds,
      ∃ line, (record d).toList = line ++ ['\n'] ∧ Encloses line (nameChars d) := by
    intro d hd
    obtain ⟨line, hline, hmessage⟩ : ∃ line, (record d).toList = line ++ ['\n'] ∧
        Encloses line d.message.toList := exists_machineLine_encloses hpath
    exact ⟨line, hline, hmessage.trans (message_encloses hread (reportable_of_mem_checkWith hd))⟩
  have hcount : text.toList.count '\n' = ds.length + (ds.flatMap nameChars).count '\n' :=
    count_join_map hrecord
  have hplain : text.toList.count '\n' = ds.length ↔
      ∀ d ∈ ds, ∀ name, d.name = some name → '\n' ∉ name.toList := by
    rw [hcount, Nat.add_eq_left, List.count_eq_zero]
    simp only [List.mem_flatMap, mem_nameChars_iff, not_exists, not_and]
  refine ⟨rfl, fun d hd => ?_, hcount, hplain, fun hnames => hplain.2 fun d hd name hname => ?_⟩
  · obtain ⟨line, hline, hname⟩ := hrecord d hd
    exact ⟨line, hline, hname.mem_iff.trans mem_nameChars_iff⟩
  · exact hnames name ((reportable_of_mem_checkWith hd).name_mem hname)

/-- A script that cannot be read, an id with a line feed and a class without one. -/
theorem textOfFile_machine_lines_mixed :
    let read : ScriptReader := fun _ _ => .error ⟨"Expression expected", ⟨0, 1⟩⟩
    let forbidden : Artifact := ⟨["a\nb"], ["c"]⟩
    let source := "<script>)</script><template><p id='a&#10;b' class=c></p></template>"
    let ds := checkWith read forbidden .full "a.vue" source
    let text := textOfFile .machine "r" "a.vue" source ds
    Script.collect ")" .javaScript = .error ⟨"Expression expected", ⟨0, 1⟩⟩ ∧
      (∀ text dialect f, read text dialect = .error f → '\n' ∉ f.message.toList) ∧
      '\n' ∉ "a.vue".toList ∧
      text.toList.count '\n' = ds.length + (ds.flatMap nameChars).count '\n' ∧
      ds.map (·.code) = [.parseError, .forbiddenId, .forbiddenClass] ∧
      text.toList.count '\n' = 4 := by
  intro read forbidden source ds text
  have hread : ∀ text dialect f, read text dialect = .error f → '\n' ∉ f.message.toList := by
    rintro _ _ _ ⟨⟩
    decide
  have hpath : '\n' ∉ "a.vue".toList := by decide
  have hlines :=
    textOfFile_machine_lines read forbidden .full "r" "a.vue" "a.vue" source hread hpath
  exact ⟨by decide +kernel, hread, hpath, hlines.2.2.1, by decide +kernel, by decide +kernel⟩

/-- A list may forbid a name with a line feed, which an escape in a script can write. Its record is
then two lines. -/
theorem textOfFile_machine_broken_line :
    let forbidden : Artifact := ⟨["a\nb"], []⟩
    let source := "'a\\nb'"
    let ds := check forbidden .full "e.js" source
    (Artifact.ofJson "\x7b\"id\":[\"a\\nb\"]\x7d").toOption = some forbidden ∧ ds.length = 1 ∧
      textOfFile .machine "r" "e.js" source ds =
        "ERROR e.js:1:1:1:7 ID 'a\nb' is forbidden. (forbiddenId)\n" ∧
      (textOfFile .machine "r" "e.js" source ds).toList.count '\n' = 2 := by
  decide +kernel

end CosmeticLint.Report
