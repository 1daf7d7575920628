import ErDiagram.Proofs.FrontEnds

/-! Files that are written. What a file system has to promise of a text that is written, and that a
directory in memory keeps it: the same path leads to the text, and no other file is touched. -/
namespace ErDiagram.Command

/-- A file system: what is read under a path in each of its states, and the state after a text has
been written. Writing stores the whole text in one file or fails. -/
structure FileStore (σ : Type) where
  pathExists : σ → String → Bool
  readText : σ → String → Except FileError String
  writeText : σ → String → String → Except FileError σ
  /-- The bytes of the files under their names. -/
  bytes : σ → String → Option ByteArray
  stored : ∀ {s later path text}, writeText s path text = .ok later →
    readText later path = .ok text ∧ ∃ name, bytes later name = some text.toUTF8 ∧
      ∀ other, other ≠ name → bytes later other = bytes s other

namespace FileStore

variable {σ : Type}

/-- The access of the command to the files. A failed access changes nothing. -/
@[reducible] def access (f : FileStore σ) : FileAccess (StateM σ) where
  pathExists path := do return f.pathExists (← get) path
  readText path := do return f.readText (← get) path
  writeText path text := do
    match f.writeText (← get) path text with
    | .ok later => set later; return .ok ()
    | .error error => return .error error

/-- The command in a state of the files. -/
def run (f : FileStore σ) (s : σ) (a : Arguments) : Except RunError (Option String) × σ :=
  StateT.run (@Command.run (StateM σ) _ f.access a) s

variable (f : FileStore σ) (s : σ)

theorem run_pathExists (path : String) :
    StateT.run (f.access.pathExists path) s = pure (f.pathExists s path, s) := rfl

theorem run_readText (path : String) :
    StateT.run (f.access.readText path) s = pure (f.readText s path, s) := rfl

theorem run_writeText (path text : String) :
    StateT.run (f.access.writeText path text) s =
      pure (match f.writeText s path text with
        | .ok later => (.ok (), later)
        | .error error => (.error error, s)) := by
  unfold access
  dsimp only
  rw [StateT.run_bind]
  simp only [StateT.run_get, pure_bind]
  cases f.writeText s path text <;> rfl

end FileStore

namespace FileTree

/-! ### Paths that are written to -/

/-- A path whose last part is empty can only lead to a directory. -/
theorem follow_eq_directory {t : FileTree} {start : Option (List String)} {steps : List String}
    (hLast : ∀ part ∈ steps.getLast?, part = "") {p : Place} (h : t.follow start steps = .ok p) :
    p = .directory := by
  have hLater {part : String} {later : List String}
      (hPart : ∀ last ∈ (part :: later).getLast?, last = "") :
      ∀ last ∈ later.getLast?, last = "" := by
    intro last hMem
    refine hPart last ?_
    rw [List.getLast?_cons, hMem]
    rfl
  fun_induction follow t start steps with
  | case1 => exact (Except.ok.inj h).symm
  | case2 start part later hEmpty ih => exact ih (hLater hLast) h
  | case3 start later hNamed ih => exact ih (hLater hLast) h
  | case4 => cases h
  | case5 => cases h
  | case6 part later hNamed hUp hShort names path hDirectory ih => exact ih (hLater hLast) h
  | case7 part hNamed => exact absurd (Or.inl (hLast part rfl)) hNamed
  | case8 => cases h
  | case9 part hNamed => exact absurd (Or.inl (hLast part rfl)) hNamed
  | case10 => cases h

theorem place_eq_ok_iff {t : FileTree} {path : String} {steps : List String} {p : Place} :
    t.place path steps = .ok p ↔
      ('\x00' ∉ path.toList ∧ ¬ maxPathBytes < path.utf8ByteSize ∧ path ≠ "") ∧
        t.follow (if path.toList.head? = some '/' then none else some []) steps = .ok p := by
  unfold place
  split
  · simp [*]
  split
  · simp [*]
  split <;> simp [*]

/-- A path that is written to has no empty part at its end, so it is followed as in reading. -/
theorem partsToWrite_eq {t : FileTree} {path : String} {p : Place}
    (h : t.place path (partsToWrite path) = .ok p) (hPlace : p ≠ .directory) :
    partsToWrite path = parts path := by
  have hNot : ¬ ∀ part ∈ (partsToWrite path).getLast?, part = "" := fun hLast =>
    hPlace (follow_eq_directory hLast (place_eq_ok_iff.1 h).2)
  revert hNot
  unfold partsToWrite
  split
  · split
    · exact fun _ => rfl
    · exact fun _ => rfl
    · exact fun _ => rfl
    · exact fun hNot => absurd (by simp) hNot
  · exact fun _ => rfl

/-- The file that a path is written to. -/
def target (t : FileTree) (path : String) : Except FileError String := do
  match ← t.place path (partsToWrite path) with
  | .directory => throw .isDirectory
  | .vacant name | .file name => return name

/-- The directory with these bytes in one file. -/
def put (t : FileTree) (name : String) (bytes : ByteArray) : FileTree := ⟨t.files.insert name bytes⟩

/-- Whether a path can be written to does not depend on the text. -/
theorem writeText_eq (t : FileTree) (path text : String) :
    t.writeText path text = (t.target path).map fun name => t.put name text.toUTF8 := by
  unfold writeText target
  cases t.place path (partsToWrite path) with
  | error e => rfl
  | ok p => cases p <;> rfl

theorem place_of_target {t : FileTree} {path name : String} (h : t.target path = .ok name) :
    t.place path (parts path) = .ok (.file name) ∨
      t.place path (parts path) = .ok (.vacant name) := by
  unfold target at h
  cases hPlace : t.place path (partsToWrite path) with
  | error e =>
      rw [hPlace] at h
      cases h
  | ok p =>
      rw [hPlace] at h
      cases p with
      | directory => cases h
      | file other =>
          cases h
          exact Or.inl (partsToWrite_eq hPlace (by simp) ▸ hPlace)
      | vacant other =>
          cases h
          exact Or.inr (partsToWrite_eq hPlace (by simp) ▸ hPlace)

/-! ### Paths behind a writing -/

theorem hasDirectory_put {t : FileTree} {names : List String} {name : String} {bytes : ByteArray} :
    (t.put name bytes).hasDirectory names ↔
      (key names ++ "/").toList <+: name.toList ∨ t.hasDirectory names := by
  simp only [hasDirectory, put, List.any_eq_true, NameMap.mem_keys_insert,
    List.isPrefixOf_iff_prefix]
  constructor
  · rintro ⟨other, rfl | hOther, hPrefix⟩
    · exact Or.inl hPrefix
    · exact Or.inr ⟨other, hOther, hPrefix⟩
  · rintro (hPrefix | ⟨other, hOther, hPrefix⟩)
    · exact ⟨name, Or.inl rfl, hPrefix⟩
    · exact ⟨other, Or.inr hOther, hPrefix⟩

/-- A file is no directory. -/
theorem not_hasDirectory_put {t : FileTree} {names : List String} (h : ¬ t.hasDirectory names)
    (bytes : ByteArray) : ¬ (t.put (key names) bytes).hasDirectory names := by
  rw [hasDirectory_put]
  rintro (hPrefix | hOld)
  · have hLength := hPrefix.length_le
    simp only [String.toList_append, List.length_append] at hLength
    rw [show "/".toList.length = 1 from rfl] at hLength
    omega
  · exact h hOld

/-- What is put in a directory is found there under its name. -/
theorem follow_put_last {t : FileTree} {part : String} {names : List String}
    (hNamed : ¬ (part = "" ∨ part = ".")) (hUp : part ≠ "..")
    (hShort : ¬ maxPartBytes < part.utf8ByteSize) (hDirectory : ¬ t.hasDirectory (names ++ [part]))
    (bytes : ByteArray) : (t.put (key (names ++ [part])) bytes).follow (some names) [part] =
      .ok (.file (key (names ++ [part]))) := by
  have hFile :
      ((t.put (key (names ++ [part])) bytes).files.get? (key (names ++ [part]))).isSome := by
    rw [put, NameMap.get?_insert, if_pos rfl]
    rfl
  rw [follow, if_neg hNamed, if_neg hUp, if_neg hShort]
  dsimp only
  rw [if_neg (not_hasDirectory_put hDirectory bytes), if_pos hFile, if_pos rfl]

/-- After a file has been written to, the same way leads to it. All directories are still there. -/
theorem follow_put {t : FileTree} {start : Option (List String)} {steps : List String}
    {name : String} (h : t.follow start steps = .ok (.file name) ∨
      t.follow start steps = .ok (.vacant name)) (bytes : ByteArray) :
    (t.put name bytes).follow start steps = .ok (.file name) := by
  fun_induction follow t start steps with
  | case1 => simp at h
  | case2 start part later hEmpty ih =>
      unfold follow
      rw [if_pos hEmpty]
      exact ih h
  | case3 start later hNamed ih =>
      unfold follow
      rw [if_neg hNamed, if_pos rfl]
      exact ih h
  | case4 => simp at h
  | case5 => simp at h
  | case6 part later hNamed hUp hShort names path hDirectory ih =>
      rw [follow, if_neg hNamed, if_neg hUp, if_neg hShort]
      dsimp only
      rw [if_pos (hasDirectory_put.2 (Or.inr hDirectory))]
      exact ih h
  | case7 part hNamed hUp hShort names path hDirectory =>
      obtain rfl : key path = name := by simpa using h
      exact follow_put_last hNamed hUp hShort hDirectory bytes
  | case8 => simp at h
  | case9 part hNamed hUp hShort names path hDirectory =>
      obtain rfl : key path = name := by simpa using h
      exact follow_put_last hNamed hUp hShort hDirectory bytes
  | case10 => simp at h

/-- A text that has been written is read again. -/
theorem readText_put {t : FileTree} {path name : String} (h : t.target path = .ok name)
    (text : String) : (t.put name text.toUTF8).readText path = .ok text := by
  have hPlace : (t.put name text.toUTF8).place path (parts path) = .ok (.file name) := by
    have hBefore := place_of_target h
    rw [place_eq_ok_iff, place_eq_ok_iff, ← and_or_left] at hBefore
    exact place_eq_ok_iff.2 ⟨hBefore.1, follow_put hBefore.2 _⟩
  have hBytes : (t.put name text.toUTF8).files.get? name = some text.toUTF8 := by
    rw [put, NameMap.get?_insert, if_pos rfl]
  have hRead : (t.put name text.toUTF8).read path = .ok text.toUTF8 := by
    simp only [read, hPlace, hBytes, bind, Except.bind]
    rfl
  have hText : String.fromUTF8? text.toUTF8 = some text := dif_pos text.isValidUTF8
  simp only [readText, hRead, bind, Except.bind, hText]
  rfl

/-- A directory in memory is a file system. -/
def store : FileStore FileTree where
  pathExists := pathExists
  readText := readText
  writeText := writeText
  bytes t name := t.files.get? name
  stored := by
    intro t later path text h
    rw [writeText_eq] at h
    cases hTarget : t.target path with
    | error e =>
        rw [hTarget] at h
        cases h
    | ok name =>
        rw [hTarget] at h
        cases h
        refine ⟨readText_put hTarget text, name, ?_, fun other hOther => ?_⟩
        · exact (NameMap.get?_insert ..).trans (if_pos rfl)
        · exact (NameMap.get?_insert ..).trans (if_neg hOther)

end FileTree

/-- The directory is accessed as any file system is. -/
theorem FileTree.store_access :
    FileTree.store.access = (inferInstance : FileAccess (StateM FileTree)) := by
  have hWrite : FileTree.store.access.writeText =
      (inferInstance : FileAccess (StateM FileTree)).writeText := by
    funext path text t
    have hStore := FileTree.store.run_writeText t path text
    rw [show FileTree.store.writeText t path text = t.writeText path text from rfl] at hStore
    have hTree := FileTree.run_writeText t path text
    cases hText : t.writeText path text <;>
      (rw [hText] at hStore hTree; exact hStore.trans hTree.symm)
  exact congrArg (FileAccess.mk _ _) hWrite

/-- The command in a directory in memory. -/
theorem runIn_eq_run (t : FileTree) (a : Arguments) : runIn t a = FileTree.store.run t a := by
  rw [runIn, FileStore.run, FileTree.store_access]

end ErDiagram.Command
