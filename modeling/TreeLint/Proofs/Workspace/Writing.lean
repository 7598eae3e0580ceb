import TreeLint.Workspace.Basic

/-! Reading a workspace after a file was written. Every path that led somewhere leads there still, the
file has the text that was written, and the other files have the texts that they had.
-/

namespace TreeLint.Workspace

variable {workspace after : Workspace} {names : List String} {path text : String}

-----------------------------------------------------------------------------------------
-- Files
-----------------------------------------------------------------------------------------

theorem lookup_put (files : List (List String × String)) (place : List String)
    : (put names text files).lookup place
      = if place = names then some text else files.lookup place := by
  induction files with
  | nil =>
      by_cases same : place = names
      · simp [put, same]
      · simp [put, List.lookup_cons, same, beq_eq_false_iff_ne.mpr same]
  | cons entry rest ih =>
      obtain ⟨file, old⟩ := entry
      by_cases here : file = names
      · subst here
        by_cases same : place = file
        · simp [put, same]
        · simp [put, List.lookup_cons, same, beq_eq_false_iff_ne.mpr same]
      · rw [put, if_neg here, List.lookup_cons, List.lookup_cons, ih]
        by_cases found : place = file
        · subst found
          simp [here]
        · simp [beq_eq_false_iff_ne.mpr found]

/-- A file that was there is there when another one is written, maybe with another text. -/
theorem mem_put {files : List (List String × String)} {file : List String} {old : String}
    (member : (file, old) ∈ files)
    : ∃ now, (file, now) ∈ put names text files := by
  induction files with
  | nil => cases member
  | cons entry rest ih =>
      obtain ⟨first, other⟩ := entry
      rw [put]
      rcases List.mem_cons.mp member with same | later
      · cases same
        split
        · exact ⟨text, List.mem_cons_self⟩
        · exact ⟨old, List.mem_cons_self⟩
      · split
        · exact ⟨old, List.mem_cons_of_mem _ later⟩
        · obtain ⟨now, there⟩ := ih later
          exact ⟨now, List.mem_cons_of_mem _ there⟩

/-- The workspace with a text in the file at a place. -/
def withFile (workspace : Workspace) (names : List String) (text : String) : Workspace :=
  { files := put names text workspace.files }

/-- A directory stays one when a file is written. -/
theorem hasDirectory_withFile {place : List String} (isDirectory : workspace.hasDirectory place)
    : (workspace.withFile names text).hasDirectory place := by
  simp only [hasDirectory, Bool.or_eq_true, List.any_eq_true] at isDirectory ⊢
  refine isDirectory.imp_right ?_
  rintro ⟨⟨file, old⟩, member, below⟩
  obtain ⟨now, there⟩ := mem_put member
  exact ⟨(file, now), there, below⟩

theorem hasFile_withFile_of_ne {place : List String} (other : place ≠ names)
    : (workspace.withFile names text).hasFile place = workspace.hasFile place := by
  rw [hasFile, withFile, lookup_put, if_neg other, hasFile]

-----------------------------------------------------------------------------------------
-- Paths
-----------------------------------------------------------------------------------------

/-- A way that leads somewhere leads there still after a file was written, by induction on the way.
The way goes through directories only, and the file is none.
-/
theorem follow_withFile (noDirectory : workspace.hasDirectory names = false) {rest : List String}
    {place result : List String} (leads : workspace.follow place rest = .ok result)
    : (workspace.withFile names text).follow place rest = .ok result := by
  induction rest generalizing place with
  | nil => exact leads
  | cons name rest ih =>
      rw [follow] at leads ⊢
      cases isFile : workspace.hasFile place with
      | true => simp [isFile] at leads
      | false =>
          cases isDirectory : workspace.hasDirectory place with
          | false => simp [isFile, isDirectory] at leads
          | true =>
              have other : place ≠ names := fun same =>
                Bool.noConfusion (noDirectory.symm.trans (same ▸ isDirectory))
              simp only [isFile, isDirectory, hasFile_withFile_of_ne other,
                hasDirectory_withFile isDirectory, Bool.false_eq_true, if_false, Bool.not_true]
                at leads ⊢
              split
              · next stays => exact ih (by rwa [if_pos stays] at leads)
              · next moves =>
                  rw [if_neg moves] at leads
                  split
                  · next down => exact ih (by rwa [if_pos down] at leads)
                  · next up =>
                      rw [if_neg up] at leads
                      split
                      · next top => rwa [if_pos top] at leads
                      · next below => exact ih (by rwa [if_neg below] at leads)

theorem resolve_withFile (noDirectory : workspace.hasDirectory names = false)
    {place : List String} (leads : workspace.resolve path = .ok place)
    : (workspace.withFile names text).resolve path = .ok place := by
  rw [resolve] at leads ⊢
  split
  · next nowhere => rwa [if_pos nowhere] at leads
  · next inside =>
      rw [if_neg inside] at leads
      exact follow_withFile noDirectory leads

-----------------------------------------------------------------------------------------
-- Reading and writing
-----------------------------------------------------------------------------------------

/-- A text is read exactly if the path leads to a file with it. -/
theorem read_eq_ok_iff
    : workspace.read path = .ok text
      ↔ ∃ place,
          workspace.resolve path = .ok place ∧ workspace.files.lookup place = some text := by
  rw [read, find]
  cases leads : workspace.resolve path with
  | error error =>
      refine iff_of_false nofun ?_
      rintro ⟨_, nowhere, _⟩
      cases nowhere
  | ok place =>
      simp only [Except.ok.injEq, exists_eq_left']
      cases there : workspace.files.lookup place with
      | none =>
          refine iff_of_false ?_ nofun
          cases isThere : workspace.has place <;>
            simp [isThere, there, bind, Except.bind, pure, Except.pure, throw, throwThe,
              MonadExceptOf.throw]
      | some old =>
          have isThere : workspace.has place = true := by
            rw [has, hasFile, there, Option.isSome_some, Bool.or_true]
          simp [isThere, there, bind, Except.bind, pure, Except.pure]

/-- A file can be written where a path leads to a place that is no directory. -/
def CanWrite (workspace : Workspace) (path : String) : Prop :=
  ∃ names, workspace.resolve path = .ok names ∧ workspace.hasDirectory names = false

/-- What is written at such a path is read there, and elsewhere what was read before. -/
theorem CanWrite.write (canWrite : workspace.CanWrite path) (text : String)
    : ∃ after,
        workspace.write path text = .ok after
        ∧ after.read path = .ok text
        ∧ ∀ other old,
            workspace.resolve other ≠ workspace.resolve path
            → workspace.read other = .ok old
            → after.read other = .ok old := by
  obtain ⟨names, leads, noDirectory⟩ := canWrite
  refine ⟨workspace.withFile names text, ?_, ?_, fun other old apart was => ?_⟩
  · rw [Workspace.write, leads]
    exact congrArg (fun isDirectory => if isDirectory = true then _ else _) noDirectory
  · refine read_eq_ok_iff.mpr ⟨names, resolve_withFile noDirectory leads, ?_⟩
    rw [withFile, lookup_put, if_pos rfl]
  · obtain ⟨place, otherLeads, there⟩ := read_eq_ok_iff.mp was
    refine read_eq_ok_iff.mpr ⟨place, resolve_withFile noDirectory otherLeads, ?_⟩
    have distinct : place ≠ names := by
      rintro rfl
      exact apart (otherLeads.trans leads.symm)
    rw [withFile, lookup_put, if_neg distinct, there]

end TreeLint.Workspace
