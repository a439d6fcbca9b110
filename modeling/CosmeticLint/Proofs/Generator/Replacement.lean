import CosmeticLint.Generator.Generate
import CosmeticLint.Proofs.Storage.Disk

/-! What a run of the generator leaves behind. An answer with an error status changes nothing. Any
other answer replaces the file of forbidden names by that of its own body, or, where the file cannot
be written, ends in a fault that names its path. -/

namespace CosmeticLint.Generator

open FilterList Storage

/-- What is written for a filter list. -/
def artifactBytes (list : String) : ByteArray :=
  (Buckets.ofFilterList list).toArtifact.toJson.toUTF8

/-! ### Runs with any way of writing -/

section Run

variable {σ : Type} (write : Write (StateM σ)) {url output : String} {response : Option Response}
  (s : σ)

theorem generate_run_of_fault {fault : Fault} (h : fetched url response = .error fault) :
    (generate write url output response).run s = (.error fault, s) := by
  rw [generate, h]
  rfl

/-- Once a list has arrived, a run ends as the one write does. -/
theorem generate_run_of_list {list : String} (h : fetched url response = .ok list) :
    (generate write url output response).run s =
      match (write output (artifactBytes list)).run s with
      | (.ok (), s') => (.ok (Buckets.ofFilterList list), s')
      | (.error cause, s') => (.error (.persistence output cause), s') := by
  rw [generate, h, artifactBytes]
  simp only [StateT.run_bind]
  generalize (write output (Buckets.ofFilterList list).toArtifact.toJson.toUTF8).run s = written
  rcases written with ⟨_ | _, s'⟩
  · rfl
  · rfl

end Run

theorem fetched_some (url : String) (r : Response) : fetched url (some r) =
    if 400 ≤ r.status ∧ r.status ≤ 599 then .error (.transport url) else .ok r.body := by
  simp only [fetched, Response.isError, Bool.and_eq_true, decide_eq_true_eq]

/-! ### Runs on a disk -/

theorem writeStep_run (path : String) (content : ByteArray) (d : Disk) :
    (Disk.writeStep path content).run d =
      match d.write path content with
      | .ok d' => (.ok (), d')
      | .error cause => (.error cause, d) := by
  simp only [Disk.writeStep, StateT.run_bind, StateT.run_get, pure_bind]
  cases d.write path content with
  | ok d' => rfl
  | error cause => rfl

/-- A request without an answer, or with the answer of an error, writes nothing anywhere. Of any
other answer the artifact is written: on a disk its file then holds exactly that and no other file
changes, and where a write fails, for whatever cause, the fault names the path. -/
theorem generate_keeps_or_replaces (url output : String) :
    (∀ {σ : Type} (write : Write (StateM σ)) (s : σ),
      (generate write url output none).run s = (.error (.transport url), s)) ∧
    ∀ r : Response,
      (400 ≤ r.status ∧ r.status ≤ 599 → ∀ {σ : Type} (write : Write (StateM σ)) (s : σ),
        (generate write url output (some r)).run s = (.error (.transport url), s)) ∧
      (¬ (400 ≤ r.status ∧ r.status ≤ 599) →
        (∀ d d' : Disk, d.write output (artifactBytes r.body) = .ok d' →
          (generate Disk.writeStep url output (some r)).run d =
            (.ok (Buckets.ofFilterList r.body), d') ∧
          d.Replaces output (artifactBytes r.body) d') ∧
        ∀ {σ : Type} (write : Write (StateM σ)) (s s' : σ) (cause : Storage.Fault),
          (write output (artifactBytes r.body)).run s = (.error cause, s') →
            (generate write url output (some r)).run s =
              (.error (.persistence output cause), s')) := by
  refine ⟨fun write s => generate_run_of_fault write s rfl, fun r => ⟨?_, fun hstatus => ?_⟩⟩
  · intro hstatus σ write s
    exact generate_run_of_fault write s (by rw [fetched_some, if_pos hstatus])
  · have hlist : fetched url (some r) = .ok r.body := by rw [fetched_some, if_neg hstatus]
    constructor
    · intro d d' hwrite
      refine ⟨?_, Disk.replaces_of_write hwrite⟩
      rw [generate_run_of_list _ d hlist, writeStep_run, hwrite]
    · intro σ write s s' cause hwrite
      rw [generate_run_of_list write s hlist, hwrite]

/-- A disk that holds nothing but an artifact. -/
def diskWith (artifact : String) : Disk :=
  ⟨.directory [("list.json", .file artifact.toUTF8)], []⟩

theorem exists_write_diskWith (artifact : String) (content : ByteArray) :
    ∃ d', (diskWith artifact).write "list.json" content = .ok d' := by
  have htarget : (diskWith artifact).target "list.json" = .ok ["list.json"] := rfl
  exact ⟨_, by rw [Disk.write, htarget]; rfl⟩

/-- An error of the server, a list with an id and an element, and a directory that is missing. -/
theorem generate_keeps_or_replaces_three :
    let d := diskWith "old"
    (generate Disk.writeStep "u" "list.json" (some ⟨500, "##.b"⟩)).run d =
        (.error (.transport "u"), d) ∧
      (∃ d', (generate Disk.writeStep "u" "list.json" (some ⟨200, "###a\r\n##b"⟩)).run d =
          (.ok ⟨["a"], [], [], [], ["b"]⟩, d') ∧
        d'.read "list.json" = .ok "\x7b\"id\":[\"a\"],\"class\":[]\x7d".toUTF8) ∧
      (generate Disk.writeStep "u" "none/list.json" (some ⟨200, ""⟩)).run d =
        (.error (.persistence "none/list.json" .notFound), d) := by
  intro d
  refine ⟨?_, ?_, ?_⟩
  · exact ((generate_keeps_or_replaces "u" "list.json").2 ⟨500, "##.b"⟩).1 (by decide) _ d
  · obtain ⟨d', hwrite⟩ := exists_write_diskWith "old" (artifactBytes "###a\r\n##b")
    obtain ⟨hrun, hreplaces⟩ := (((generate_keeps_or_replaces "u" "list.json").2
      ⟨200, "###a\r\n##b"⟩).2 (by decide)).1 d d' hwrite
    have hbuckets : Buckets.ofFilterList "###a\r\n##b" = ⟨["a"], [], [], [], ["b"]⟩ := by decide
    refine ⟨d', ?_, ?_⟩
    · rw [hrun, hbuckets]
    · rw [hreplaces.read, artifactBytes, hbuckets]
      rfl
  · have hwrite : (Disk.writeStep "none/list.json" (artifactBytes "")).run d =
        (.error .notFound, d) := rfl
    exact (((generate_keeps_or_replaces "u" "none/list.json").2 ⟨200, ""⟩).2 (by decide)).2 _ d d
      .notFound hwrite

/-- An answer that is neither a success nor an error, and has no body, empties the list. -/
theorem generate_run_notModified :
    let d := diskWith "\x7b\"id\":[\"keep\"],\"class\":[]\x7d"
    ¬ (200 ≤ 304 ∧ 304 ≤ 299) ∧
      d.read "list.json" = .ok "\x7b\"id\":[\"keep\"],\"class\":[]\x7d".toUTF8 ∧
      ∃ d', (generate Disk.writeStep "u" "list.json" (some ⟨304, ""⟩)).run d = (.ok .empty, d') ∧
        d'.read "list.json" = .ok "\x7b\"id\":[],\"class\":[]\x7d".toUTF8 := by
  intro d
  obtain ⟨d', hwrite⟩ := exists_write_diskWith "\x7b\"id\":[\"keep\"],\"class\":[]\x7d"
    (artifactBytes "")
  refine ⟨by decide, rfl, d', ?_, ?_⟩
  · rw [generate_run_of_list _ d (by rw [fetched_some, if_neg (by decide)]), writeStep_run, hwrite]
    rfl
  · rw [(Disk.replaces_of_write hwrite).read]
    rfl

end CosmeticLint.Generator
