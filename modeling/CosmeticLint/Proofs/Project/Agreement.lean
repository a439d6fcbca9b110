import CosmeticLint.Project.Command
import CosmeticLint.Proofs.Json.Values
import CosmeticLint.Proofs.Text.Paths

/-! What a run prints, what it counts and how it exits are three views of one list: the admitted
diagnostics of the readable files, one file after the other. Files contribute shares, which are
dropped when they are empty; the lemmas say what a share stands for, then what shares add up to. -/

namespace CosmeticLint.Project

open Lint Report Storage

/-! ### What is to be reported -/

/-- A diagnostic and the file it is about. -/
structure Reported where
  /-- The path seen from the workspace. -/
  path : String
  text : String
  diagnostic : Diagnostic

def reportedOfFile (checker : Checker) (threshold : Threshold) (workspace : String)
    (s : Source) : List Reported :=
  match s.text with
  | .error _ => []
  | .ok text =>
    ((checker.report s.path text).filter fun d => threshold.admits d.severity).map
      (⟨Path.seenFrom workspace s.path, text, ·⟩)

/-- What is to be reported of the files found for a workspace, in their order. -/
def reported (checker : Checker) (threshold : Threshold) (workspace : String)
    (sources : List Source) : List Reported :=
  sources.flatMap (reportedOfFile checker threshold workspace)

/-- The line and column of an offset, counted from one; past the end of the text it is 1:1. -/
def placeIn (text : String) (offset : Nat) : Nat × Nat :=
  match (LineIndex.ofText text).lineCol? offset with
  | some p => (p.line + 1, p.col + 1)
  | none => (1, 1)

namespace Reported

def severity (r : Reported) : Severity := r.diagnostic.severity

def start (r : Reported) : Nat × Nat := placeIn r.text r.diagnostic.span.start

def stop (r : Reported) : Nat × Nat := placeIn r.text r.diagnostic.span.stop

/-! ### Records -/

def positionValue (place : Nat × Nat) (offset : Nat) : Json.Value :=
  .object [("line", .natural place.1), ("column", .natural place.2), ("offset", .natural offset)]

def value (rule : String) (r : Reported) : Json.Value :=
  .object [("type", .text r.severity.label), ("filename", .text r.path),
    ("start", positionValue r.start r.diagnostic.span.start),
    ("end", positionValue r.stop r.diagnostic.span.stop),
    ("message", .text r.diagnostic.message), ("code", .text r.diagnostic.code.label),
    ("rule", .text rule)]

/-- The path with the line and the column of the start. -/
def startText (r : Reported) : String :=
  r.path ++ ":" ++ toString r.start.1 ++ ":" ++ toString r.start.2

def machineRecord (r : Reported) : String :=
  (match r.severity with
    | .warning => "WARNING"
    | .error => "ERROR") ++ " " ++
    r.startText ++ ":" ++ toString r.stop.1 ++ ":" ++ toString r.stop.2 ++ " " ++
    r.diagnostic.message ++ " (" ++ r.diagnostic.code.label ++ ")\n"

/-- A record for people, which may show an excerpt of the file. -/
def humanRecord (rule excerpt : String) (r : Reported) : String :=
  r.startText ++ "\n" ++ r.severity.label ++ ": " ++ r.diagnostic.message ++
    " (" ++ rule ++ "/" ++ r.diagnostic.code.label ++ ")\n" ++ excerpt ++ "\n"

/-- The line of the start and a mark under its column. -/
def excerpt (r : Reported) : String :=
  snippet (shownLines r.text.toList) ⟨r.start.1 - 1, r.start.2 - 1⟩

/-- What is printed of a diagnostic in a format that is not JSON. -/
def record (rule : String) (r : Reported) : Format → String
  | .machine => r.machineRecord
  | .human => r.humanRecord rule ""
  | .humanVerbose => r.humanRecord rule r.excerpt
  | .json => ""

/-- The entry of the report. -/
def entry (rule : String) (r : Reported) : Entry :=
  .ofDiagnostic rule r.path (.ofText r.text) r.diagnostic

end Reported

/-- The output shows what is to be reported: in JSON as a list of values, in the other formats as
the records one after the other, with the totals behind them. -/
def Shows (rule : String) (rs : List Reported) (totals : Summary) (output : String) :
    Format → Prop
  | .json => Json.Value.ofText output = .ok (.list (rs.map (Reported.value rule)))
  | format => output = String.join (rs.map (Reported.record rule · format)) ++ totals.text ++ "\n"

theorem ofOffset_eq (text : String) (offset : Nat) :
    Position.ofOffset (.ofText text) offset =
      ⟨(placeIn text offset).1, (placeIn text offset).2, offset⟩ := by
  simp only [Position.ofOffset, placeOf, placeIn]
  cases (LineIndex.ofText text).lineCol? offset <;> rfl

theorem placeOf_eq (text : String) (offset : Nat) :
    placeOf (.ofText text) offset = ⟨(placeIn text offset).1 - 1, (placeIn text offset).2 - 1⟩ := by
  simp only [placeOf, placeIn]
  cases (LineIndex.ofText text).lineCol? offset <;> rfl

section Records

variable (rule : String) (r : Reported)

theorem machineLine_entry : (r.entry rule).machineLine = r.machineRecord := by
  simp only [Reported.entry, Entry.ofDiagnostic, Entry.machineLine, ofOffset_eq,
    Reported.machineRecord, Reported.startText, Reported.start, Reported.stop, Reported.severity,
    String.append_assoc]
  cases r.diagnostic.severity <;> rfl

theorem headline_entry (excerpt : String) :
    (r.entry rule).headline ++ excerpt ++ "\n" = r.humanRecord rule excerpt := by
  simp only [Reported.entry, Entry.ofDiagnostic, Entry.headline, ofOffset_eq,
    Reported.humanRecord, Reported.startText, Reported.start, Reported.severity,
    String.append_assoc]

/-- The text of a file in a format other than JSON is made of the records of its diagnostics. -/
theorem textOfFile_eq {format : Format} (hformat : format ≠ .json) (path text : String)
    (ds : List Diagnostic) : textOfFile format rule path text ds =
      String.join ((ds.map (Reported.mk path text)).map (Reported.record rule · format)) := by
  rw [List.map_map]
  cases format with
  | json => exact absurd rfl hformat
  | machine =>
    refine congrArg String.join (List.map_congr_left fun d _ => ?_)
    exact machineLine_entry rule ⟨path, text, d⟩
  | human =>
    refine congrArg String.join (List.map_congr_left fun d _ => ?_)
    have h := headline_entry rule ⟨path, text, d⟩ ""
    rwa [String.append_empty] at h
  | humanVerbose =>
    -- the excerpt counts lines from zero, the headline from one
    refine congrArg String.join (List.map_congr_left fun d _ => ?_)
    have h := headline_entry rule ⟨path, text, d⟩ (Reported.excerpt ⟨path, text, d⟩)
    rw [Function.comp_apply, Reported.record, ← h, verboseRecord, placeOf_eq]
    rfl

open Json.Pretty in
theorem spells_position (text : String) (offset : Nat) :
    Spells 2 (Position.ofOffset (.ofText text) offset).pretty
      (Reported.positionValue (placeIn text offset) offset) := by
  rw [ofOffset_eq]
  exact spells_object (.cons ⟨rfl, spells_nat _⟩ (.cons ⟨rfl, spells_nat _⟩
    (.cons ⟨rfl, spells_nat _⟩ .nil)))

open Json.Pretty in
theorem spells_entry : Spells 3 (r.entry rule).pretty (r.value rule) := by
  -- positions are nested deeper than texts
  have htext (s : String) : Spells 2 (text s) (.text s) := (spells_text s).mono (by omega)
  exact spells_object (.cons ⟨rfl, htext _⟩ (.cons ⟨rfl, htext _⟩
    (.cons ⟨rfl, spells_position _ _⟩ (.cons ⟨rfl, spells_position _ _⟩
    (.cons ⟨rfl, htext _⟩ (.cons ⟨rfl, htext _⟩ (.cons ⟨rfl, htext _⟩ .nil)))))))

/-- The entries of a report are read back from its text. -/
theorem ofText_jsonText (rs : List Reported) :
    Json.Value.ofText (jsonText (rs.map (Reported.entry rule)) ++ "\n") =
      .ok (.list (rs.map (Reported.value rule))) := by
  have hentries : List.Forall₂ (Json.Pretty.Spells 3)
      ((rs.map (Reported.entry rule)).map Entry.pretty) (rs.map (Reported.value rule)) := by
    rw [List.map_map, List.forall₂_map_left_iff, List.forall₂_map_right_iff, List.forall₂_same]
    exact fun r _ => spells_entry rule r
  exact (Json.Pretty.spells_list hentries).ofText_render (by omega)

end Records

/-! ### Shares -/

/-- The shares add up to what is to be reported, in what they print and in what they count. -/
structure AddUp (format : Format) (rule : String) (shares : List Share) (rs : List Reported) :
    Prop where
  entries : format = .json → shares.flatMap (·.entries) = rs.map (Reported.entry rule)
  text : format ≠ .json →
    String.join (shares.map (·.text)) = String.join (rs.map (Reported.record rule · format))
  totals : ∀ s : Summary, shares.foldl addShare s =
    { s with
      errors := s.errors + rs.countP (·.severity = .error)
      warnings := s.warnings + rs.countP (·.severity = .warning) }

variable {format : Format} {rule : String}

theorem AddUp.nil : AddUp format rule [] [] := ⟨fun _ => rfl, fun _ => rfl, fun _ => rfl⟩

theorem AddUp.append {shares shares' : List Share} {rs rs' : List Reported}
    (h : AddUp format rule shares rs) (h' : AddUp format rule shares' rs') :
    AddUp format rule (shares ++ shares') (rs ++ rs') where
  entries hformat := by
    rw [List.flatMap_append, List.map_append, h.entries hformat, h'.entries hformat]
  text hformat := by
    rw [List.map_append, List.map_append, String.join_append, String.join_append, h.text hformat,
      h'.text hformat]
  totals s := by
    rw [List.foldl_append, h.totals, h'.totals, List.countP_append, List.countP_append,
      ← Nat.add_assoc, ← Nat.add_assoc]

theorem addUp_ofFile (path text : String) (ds : List Diagnostic) :
    AddUp format rule [.ofFile format rule path text ds] (ds.map (⟨path, text, ·⟩)) where
  entries hformat := by
    rw [List.flatMap_singleton, Share.ofFile, List.map_map]
    exact if_pos hformat
  text hformat := by
    rw [List.map_singleton, String.join_cons, String.join_nil, String.append_empty]
    exact (if_neg hformat).trans (textOfFile_eq rule hformat path text ds)
  totals s := by
    rw [List.countP_map, List.countP_map]
    rfl

theorem addUp_nonempty (path text : String) (ds : List Diagnostic) :
    AddUp format rule
      (if ds.isEmpty then none else some (Share.ofFile format rule path text ds)).toList
      (ds.map (⟨path, text, ·⟩)) := by
  cases ds with
  | nil => exact .nil
  | cons d ds => exact addUp_ofFile path text (d :: ds)

/-- A file's share, if it has one, stands for what is to be reported of the file; without a
share there is nothing to report. -/
theorem addUp_share? (checker : Checker) (o : Options) (workspace : String) (s : Source) :
    AddUp o.format checker.rule (s.share? checker o workspace).toList
      (reportedOfFile checker o.threshold workspace s) := by
  rcases s with ⟨path, fault | text⟩
  · exact .nil
  · exact addUp_nonempty (Path.seenFrom workspace path) text _

theorem addUp_shares (checker : Checker) (o : Options) (workspace : String)
    (sources : List Source) :
    AddUp o.format checker.rule (sources.filterMap (Source.share? checker o workspace))
      (reported checker o.threshold workspace sources) := by
  induction sources with
  | nil => exact .nil
  | cons s sources ih =>
    have happend := (addUp_share? checker o workspace s).append ih
    rw [List.filterMap_eq_flatMap_toList] at happend ⊢
    exact happend

theorem shows_outputOf {shares : List Share} {rs : List Reported} (totals : Summary)
    (h : AddUp format rule shares rs) :
    Shows rule rs totals (outputOf format totals shares) format := by
  cases format with
  | json =>
    rw [outputOf, if_pos rfl, h.entries rfl]
    exact ofText_jsonText rule rs
  | human | humanVerbose | machine =>
    rw [outputOf, if_neg (by decide), h.text (by decide)]
    rfl

/-! ### The threshold -/

theorem admits_error (s : Severity) : Threshold.error.admits s = decide (s = .error) := by
  cases s <;> rfl

theorem admits_warning (s : Severity) : Threshold.warning.admits s = true := by
  cases s <;> rfl

/-- With the threshold at errors, the errors remain of what is reported with warnings. -/
theorem reported_error (checker : Checker) (workspace : String) (sources : List Source) :
    reported checker .error workspace sources =
      (reported checker .warning workspace sources).filter (·.severity = .error) := by
  rw [reported, reported, List.filter_flatMap]
  refine congrArg (fun g => sources.flatMap g) (funext fun s => ?_)
  rcases s with ⟨path, fault | text⟩
  · rfl
  · simp only [reportedOfFile, admits_error, admits_warning, List.filter_true, List.filter_map]
    rfl

/-! ### The run -/

theorem failed_eq_true_iff (rs : List Reported) (files : Nat) (failOnWarnings : Bool) :
    Summary.failed ⟨files, rs.countP (·.severity = .error), rs.countP (·.severity = .warning),
        failOnWarnings⟩ = true ↔
      (∃ r ∈ rs, r.severity = .error) ∨
        (failOnWarnings = true ∧ ∃ r ∈ rs, r.severity = .warning) := by
  simp only [Summary.failed, Bool.or_eq_true, Bool.and_eq_true, decide_eq_true_eq,
    List.countP_pos_iff]
  exact or_congr_right and_comm

/-- Output, totals and exit code of a run are about the same diagnostics, which are those of the
readable files that the threshold admits. Files are shown by their paths relative to the
workspace. -/
theorem checkSources_agrees (checker : Checker) (o : Options) (workspace : String)
    (sources : List Source) (log : List String) :
    let outcome := checkSources checker o workspace sources
    let answer := answerOf (.ok outcome, log)
    let rs := reported checker o.threshold workspace sources
    Shows checker.rule rs outcome.summary answer.output o.format ∧
      Path.RelativeTo workspace (Path.seenFrom workspace) ∧
      outcome.summary.files = sources.length ∧
      outcome.summary.errors = rs.countP (·.severity = .error) ∧
      outcome.summary.warnings = rs.countP (·.severity = .warning) ∧
      answer.exitCode = (if (∃ r ∈ rs, r.severity = .error) ∨
        (o.failOnWarnings = true ∧ ∃ r ∈ rs, r.severity = .warning) then 1 else 0) ∧
      reported checker .error workspace sources =
        (reported checker .warning workspace sources).filter (·.severity = .error) := by
  intro outcome answer rs
  have hadd : AddUp o.format checker.rule _ rs := addUp_shares checker o workspace sources
  have hsummary : outcome.summary = ⟨sources.length, rs.countP (·.severity = .error),
      rs.countP (·.severity = .warning), o.failOnWarnings⟩ := by
    simp only [outcome, checkSources, hadd.totals, Nat.zero_add]
  refine ⟨shows_outputOf _ hadd, Path.relativeTo_seenFrom workspace, ?_, ?_, ?_, ?_,
    reported_error checker workspace sources⟩
  · rw [hsummary]
  · rw [hsummary]
  · rw [hsummary]
  · simp only [answer, answerOf, hsummary]
    exact if_congr (failed_eq_true_iff rs _ _) rfl rfl

end CosmeticLint.Project
