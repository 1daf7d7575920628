import ErDiagram.Proofs.FileStores

/-! A run of the command with an output file. It fails at the first stage at which something is
wrong, and then no file is touched. Otherwise the output file has the whole drawing. -/
namespace ErDiagram

variable {α : Type} [Coordinate α]

/-! ### Moves -/

/-- Moves that can all be made are moves of declared tables. -/
theorem Diagram.declared_of_replay? {d later : Diagram α} {moves : List (Move α)}
    (h : d.replay? moves = some later) : ∀ m ∈ moves, m.table ∈ d.tables.map Table.name := by
  induction moves generalizing d with
  | nil => simp
  | cons m moves ih =>
      obtain ⟨next, hMove, hLater⟩ := Option.bind_eq_some_iff.1 h
      replace hMove : d.move? m.table m.dx m.dy = some next := hMove
      have hDeclared := move?_isSome.1 (Option.isSome_of_eq_some hMove)
      have hTables : next.tables = d.tables := by
        rw [move?_of_declared hDeclared, Option.some.injEq] at hMove
        rw [← hMove]
        rfl
      exact List.forall_mem_cons.2 ⟨hDeclared, hTables ▸ ih hLater⟩

namespace Canvas

variable {c : Canvas α}

theorem applyMoves_eq_none_iff {moves : List (Move α)} :
    (c.applyMoves moves).2 = none ↔ ∀ m ∈ moves, m.table ∈ c.diagram.tables.map Table.name := by
  rw [(c.applyMoves_isReplay moves).accepted, movesToMake, List.findIdx_eq_length]
  simp

omit [Coordinate α] in
theorem movesToMake_append {front back : List (Move α)} {m : Move α}
    (hFront : ∀ n ∈ front, n.table ∈ c.diagram.tables.map Table.name)
    (hUnknown : m.table ∉ c.diagram.tables.map Table.name) :
    c.movesToMake (front ++ m :: back) = front.length := by
  induction front with
  | nil => exact movesToMake_cons_of_undeclared hUnknown back
  | cons n front ih =>
      obtain ⟨hHere, hLater⟩ := List.forall_mem_cons.1 hFront
      rw [List.cons_append, movesToMake_cons_of_declared hHere, ih hLater, List.length_cons]

/-- The first move of an unknown table is the one that is reported. -/
theorem applyMoves_unknown {front back : List (Move α)} {m : Move α}
    (hFront : ∀ n ∈ front, n.table ∈ c.diagram.tables.map Table.name)
    (hUnknown : m.table ∉ c.diagram.tables.map Table.name) :
    (c.applyMoves (front ++ m :: back)).2 = some m.table := by
  have hCount : c.movesToMake (front ++ m :: back) = front.length :=
    movesToMake_append hFront hUnknown
  have hReport := (c.applyMoves_isReplay (front ++ m :: back)).unknown (by simp [hCount])
  simpa [hCount] using hReport

end Canvas

namespace Command

/-! ### Stages of a run -/

section

variable {σ : Type} (f : FileStore σ) (s : σ)

/-- The settings of a run are the standard ones, or those in the file that is named for them. -/
inductive SettingsGiven : Option String → Settings Float → Prop where
  | standard : SettingsGiven none .standard
  | decoded {path text : String} {settings : Settings Float} (present : f.pathExists s path = true)
      (readable : f.readText s path = .ok text)
      (decodable : Settings.ofToml? text = some settings) :
      SettingsGiven (some path) settings

/-- Why there are no settings. -/
inductive SettingsFault : Option String → RunError → Prop where
  | missing {path : String} (absent : f.pathExists s path = false) :
      SettingsFault (some path) (.missingSettings path)
  | unreadable {path : String} {e : FileError} (present : f.pathExists s path = true)
      (unreadable : f.readText s path = .error e) :
      SettingsFault (some path) (.unreadableSettings e)
  | invalid {path text : String} (present : f.pathExists s path = true)
      (readable : f.readText s path = .ok text) (undecodable : Settings.ofToml? text = none) :
      SettingsFault (some path) .invalidSettings

/-- The drawing of the tables of a source: all moves are made one after another, and the connectors
are routed behind them. -/
def Draws (settings : Settings Float) (source : String) (moves : List (Move Float))
    (drawing : String) : Prop :=
  ∃ c d, Canvas.load settings source = .ok c ∧ c.diagram.replay? moves = some d ∧
    drawing = (Canvas.refresh { c with diagram := d }).render

/-- Why there is no drawing of a source: it is refused, or a move is of a table that it does not
declare. -/
inductive SourceFault (source : String) (moves : List (Move Float)) : RunError → Prop where
  | refused {e : SyntaxError} (refused : parse source = .error e) :
      SourceFault source moves (.invalidSource e)
  | unknownTable {ds : List Table} {front back : List (Move Float)} {m : Move Float}
      (accepted : parse source = .ok ds) (first : moves = front ++ m :: back)
      (declared : ∀ n ∈ front, n.table ∈ ds.map Table.name)
      (undeclared : m.table ∉ ds.map Table.name) :
      SourceFault source moves (.unknownTable m.table)

/-- What is wrong at the first stage of a run that fails. All stages before it are in order. -/
inductive FirstFault (a : Arguments) (path : String) : RunError → Prop where
  | settings {e : RunError} (fault : SettingsFault f s a.settings e) : FirstFault a path e
  | input {settings : Settings Float} {e : FileError}
      (given : SettingsGiven f s a.settings settings)
      (unreadable : f.readText s a.input = .error e) : FirstFault a path (.file e)
  | source {settings : Settings Float} {source : String} {e : RunError}
      (given : SettingsGiven f s a.settings settings) (readable : f.readText s a.input = .ok source)
      (fault : SourceFault source a.moves e) : FirstFault a path e
  | output {settings : Settings Float} {source drawing : String} {e : FileError}
      (given : SettingsGiven f s a.settings settings) (readable : f.readText s a.input = .ok source)
      (draws : Draws settings source a.moves drawing)
      (unwritable : f.writeText s path drawing = .error e) : FirstFault a path (.file e)

/-- The settings that a run uses. -/
def FileStore.settings : Option String → Except RunError (Settings Float)
  | none => .ok .standard
  | some path =>
      if f.pathExists s path then
        match f.readText s path with
        | .error e => .error (.unreadableSettings e)
        | .ok text =>
            match Settings.ofToml? text with
            | some settings => .ok settings
            | none => .error .invalidSettings
      else .error (.missingSettings path)

theorem FileStore.run_loadSettings (named : Option String) :
    StateT.run (@loadSettings (StateM σ) _ f.access named) s = pure (f.settings s named, s) := by
  cases named with
  | none => rfl
  | some path =>
      simp only [loadSettings, StateT.run_bind, run_pathExists, pure_bind, FileStore.settings]
      cases f.pathExists s path with
      | false => rfl
      | true =>
          simp only [Bool.not_true, Bool.false_eq_true, if_false, if_true, StateT.run_bind,
            run_readText, pure_bind]
          cases f.readText s path with
          | error e => rfl
          | ok text =>
              dsimp only
              cases Settings.ofToml? text <;> rfl

/-- A run is its stages one after another. -/
theorem FileStore.run_eq (a : Arguments) {path : String} (hOutput : a.output = some path) :
    f.run s a =
      match f.settings s a.settings with
      | .error e => (.error e, s)
      | .ok settings =>
          match f.readText s a.input with
          | .error e => (.error (.file e), s)
          | .ok source =>
              match draw settings source a.moves with
              | .error e => (.error e, s)
              | .ok drawing =>
                  match f.writeText s path drawing with
                  | .ok later => (.ok none, later)
                  | .error e => (.error (.file e), s) := by
  simp only [FileStore.run, Command.run, StateT.run_bind, run_loadSettings, pure_bind]
  cases f.settings s a.settings with
  | error e => rfl
  | ok settings =>
      simp only [StateT.run_bind, run_readText, pure_bind]
      cases f.readText s a.input with
      | error e => rfl
      | ok source =>
          dsimp only
          cases draw settings source a.moves with
          | error e => rfl
          | ok drawing =>
              simp only [hOutput, StateT.run_bind, run_writeText, pure_bind]
              cases f.writeText s path drawing <;> rfl

variable {f s}

theorem settings_eq_ok_iff {named : Option String} {settings : Settings Float} :
    f.settings s named = .ok settings ↔ SettingsGiven f s named settings := by
  constructor
  · intro h
    unfold FileStore.settings at h
    split at h
    · cases h
      exact .standard
    split at h
    · split at h
      · cases h
      split at h <;> cases h
      exact .decoded ‹_› ‹_› ‹_›
    · cases h
  · rintro (_ | ⟨hPresent, hReadable, hDecodable⟩)
    · rfl
    · simp only [FileStore.settings, hPresent, hReadable, hDecodable, if_true]

theorem settings_eq_error_iff {named : Option String} {e : RunError} :
    f.settings s named = .error e ↔ SettingsFault f s named e := by
  constructor
  · intro h
    unfold FileStore.settings at h
    split at h
    · cases h
    split at h
    · split at h
      · cases h
        exact .unreadable ‹_› ‹_›
      split at h <;> cases h
      exact .invalid ‹_› ‹_› ‹_›
    · cases h
      exact .missing (Bool.eq_false_iff.2 ‹_›)
  · rintro (hAbsent | ⟨hPresent, hUnreadable⟩ | ⟨hPresent, hReadable, hUndecodable⟩)
    · simp only [FileStore.settings, hAbsent, Bool.false_eq_true, if_false]
    · simp only [FileStore.settings, hPresent, hUnreadable, if_true]
    · simp only [FileStore.settings, hPresent, hReadable, hUndecodable, if_true]

end

/-- What is known of a canvas that is loaded: it has the tables of its source, and it is routed. -/
theorem loaded_canvas {settings : Settings Float} {source : String} {c : Canvas Float}
    (h : Canvas.load settings source = .ok c) :
    ∃ ds, parse source = .ok ds ∧ c.diagram.tables = ds ∧ c.refresh = c := by
  cases hParse : parse source with
  | error e =>
      rw [Canvas.load, hParse] at h
      cases h
  | ok ds =>
      have hNamed := wellNamed_of_parse hParse
      rw [Canvas.load, hParse] at h
      cases h
      exact ⟨ds, rfl, (Canvas.ofTables_fits settings hNamed).tables,
        Canvas.refresh_ofTables settings hNamed⟩

variable {settings : Settings Float} {source : String} {moves : List (Move Float)}

theorem draw_of_load {c : Canvas Float} (h : Canvas.load settings source = .ok c) :
    draw settings source moves =
      match (c.applyMoves moves).2 with
      | some table => .error (.unknownTable table)
      | none => .ok (c.applyMoves moves).1.render := by
  rw [draw, h]
  dsimp only
  rcases c.applyMoves moves with ⟨moved, _ | table⟩ <;> rfl

theorem draw_eq_ok_iff {drawing : String} :
    draw settings source moves = .ok drawing ↔ Draws settings source moves drawing := by
  constructor
  · intro h
    cases hLoad : Canvas.load settings source with
    | error e =>
        rw [draw, hLoad] at h
        cases h
    | ok c =>
        obtain ⟨ds, -, -, hRouted⟩ := loaded_canvas hLoad
        rw [draw_of_load hLoad] at h
        split at h
        · cases h
        · rename_i hMade
          obtain rfl := Except.ok.inj h
          obtain ⟨d, hReplay, hMoved⟩ := Canvas.moved_of_applyMoves hRouted (Prod.ext rfl hMade)
          exact ⟨c, d, hLoad, hReplay, congrArg Canvas.render hMoved⟩
  · rintro ⟨c, d, hLoad, hReplay, rfl⟩
    obtain ⟨ds, -, -, hRouted⟩ := loaded_canvas hLoad
    have hMade := Canvas.applyMoves_eq_none_iff.2 (Diagram.declared_of_replay? hReplay)
    obtain ⟨moved, hSame, hMoved⟩ := Canvas.moved_of_applyMoves hRouted (Prod.ext rfl hMade)
    obtain rfl := Option.some.inj (hSame.symm.trans hReplay)
    rw [draw_of_load hLoad, hMade, ← hMoved]

/-- Either all moves are of these tables, or there is a first one that is not. -/
theorem exists_first_unknown (names : List String) (moves : List (Move Float)) :
    (∀ m ∈ moves, m.table ∈ names) ∨ ∃ front m back, moves = front ++ m :: back ∧
      (∀ n ∈ front, n.table ∈ names) ∧ m.table ∉ names := by
  cases hFind : moves.find? fun m => m.table ∉ names with
  | none => exact Or.inl (by simpa using hFind)
  | some m =>
      obtain ⟨hUnknown, front, back, hMoves, hFront⟩ := List.find?_eq_some_iff_append.1 hFind
      exact Or.inr ⟨front, m, back, hMoves, by simpa using hFront, by simpa using hUnknown⟩

theorem exists_loaded {ds : List Table} (hParse : parse source = .ok ds) :
    ∃ c, Canvas.load settings source = .ok c ∧ c.diagram.tables = ds := by
  have hLoad := Canvas.load_of_parse settings hParse
  obtain ⟨es, hSame, hTables, -⟩ := loaded_canvas hLoad
  obtain rfl := Except.ok.inj (hParse.symm.trans hSame)
  exact ⟨_, hLoad, hTables⟩

theorem draw_of_declared {ds : List Table} (hParse : parse source = .ok ds)
    (hAll : ∀ m ∈ moves, m.table ∈ ds.map Table.name) :
    ∃ drawing, draw settings source moves = .ok drawing := by
  obtain ⟨c, hLoad, rfl⟩ := exists_loaded hParse
  have hMade := Canvas.applyMoves_eq_none_iff.2 hAll
  exact ⟨_, by rw [draw_of_load hLoad, hMade]⟩

theorem draw_of_unknown {ds : List Table} {front back : List (Move Float)} {m : Move Float}
    (hParse : parse source = .ok ds) (hFront : ∀ n ∈ front, n.table ∈ ds.map Table.name)
    (hUnknown : m.table ∉ ds.map Table.name) :
    draw settings source (front ++ m :: back) = .error (.unknownTable m.table) := by
  obtain ⟨c, hLoad, rfl⟩ := exists_loaded hParse
  rw [draw_of_load hLoad, Canvas.applyMoves_unknown hFront hUnknown]

theorem draw_eq_error_iff {e : RunError} :
    draw settings source moves = .error e ↔ SourceFault source moves e := by
  constructor
  · intro h
    cases hParse : parse source with
    | error fault =>
        rw [draw, Canvas.load, hParse] at h
        cases h
        exact .refused hParse
    | ok ds =>
        rcases exists_first_unknown (ds.map Table.name) moves with
          hAll | ⟨front, m, back, rfl, hFront, hUnknown⟩
        · obtain ⟨drawing, hDraw⟩ := draw_of_declared hParse hAll
          cases hDraw.symm.trans h
        · rw [draw_of_unknown hParse hFront hUnknown] at h
          cases h
          exact .unknownTable hParse rfl hFront hUnknown
  · rintro (hRefused | ⟨hParse, rfl, hFront, hUnknown⟩)
    · rw [draw, Canvas.load, hRefused]
      rfl
    · exact draw_of_unknown hParse hFront hUnknown

/-! ### Whole runs -/

variable {σ : Type} {f : FileStore σ} {s : σ} {a : Arguments} {path : String}

/-- A fault ends the run, and nothing has changed then. -/
theorem FirstFault.run_eq (hOutput : a.output = some path) {e : RunError}
    (h : FirstFault f s a path e) : f.run s a = (.error e, s) := by
  rw [f.run_eq s a hOutput]
  cases h with
  | settings fault => rw [settings_eq_error_iff.2 fault]
  | input given unreadable => simp only [settings_eq_ok_iff.2 given, unreadable]
  | source given readable fault =>
      simp only [settings_eq_ok_iff.2 given, readable, draw_eq_error_iff.2 fault]
  | output given readable draws unwritable =>
      simp only [settings_eq_ok_iff.2 given, readable, draw_eq_ok_iff.2 draws, unwritable]

/-- The drawing of the input, and the files after it has been written to the output. -/
structure Completed (f : FileStore σ) (s : σ) (a : Arguments) (path drawing : String) (later : σ) :
    Prop where
  draws : ∃ settings source, SettingsGiven f s a.settings settings ∧
    f.readText s a.input = .ok source ∧ Draws settings source a.moves drawing
  readable : f.readText later path = .ok drawing
  stored : ∃ name, f.bytes later name = some drawing.toUTF8 ∧
    ∀ other, other ≠ name → f.bytes later other = f.bytes s other

/-- A run without a fault goes through all stages. -/
theorem exists_fault_or_completed (hOutput : a.output = some path) :
    (∃ e, FirstFault f s a path e) ∨
      ∃ drawing later, f.run s a = (.ok none, later) ∧ Completed f s a path drawing later := by
  rw [f.run_eq s a hOutput]
  cases hSettings : f.settings s a.settings with
  | error e => exact Or.inl ⟨e, .settings (settings_eq_error_iff.1 hSettings)⟩
  | ok settings =>
  have hGiven := settings_eq_ok_iff.1 hSettings
  cases hRead : f.readText s a.input with
  | error e => exact Or.inl ⟨_, .input hGiven hRead⟩
  | ok source =>
  cases hDraw : draw settings source a.moves with
  | error e => exact Or.inl ⟨e, .source hGiven hRead (draw_eq_error_iff.1 hDraw)⟩
  | ok drawing =>
  have hDraws := draw_eq_ok_iff.1 hDraw
  cases hWrite : f.writeText s path drawing with
  | error e => exact Or.inl ⟨_, .output hGiven hRead hDraws hWrite⟩
  | ok later =>
  obtain ⟨hReadable, hStored⟩ := f.stored hWrite
  refine Or.inr ⟨drawing, later, ?_, ⟨settings, source, hGiven, hRead, hDraws⟩, hReadable, hStored⟩
  simp only [hDraw, hWrite]

/-- A run with an output file fails at the first stage at which something is wrong, and changes
nothing. Otherwise the drawing is read under the output path, one file has changed to it, and no
other file has. -/
theorem run_all_or_nothing (f : FileStore σ) (s : σ) (a : Arguments) (path : String)
    (hOutput : a.output = some path) :
    (∀ e later, f.run s a = (.error e, later) ↔ FirstFault f s a path e ∧ later = s) ∧
    ((∀ e, ¬ FirstFault f s a path e) → ∃ drawing later, f.run s a = (.ok none, later) ∧
      Completed f s a path drawing later) := by
  rcases exists_fault_or_completed hOutput with ⟨e, hFault⟩ | ⟨drawing, later, hRun, hCompleted⟩
  · refine ⟨fun e' later => ⟨fun hRun => ?_, fun ⟨h, hLater⟩ => ?_⟩, fun hNone => ?_⟩
    · cases (hFault.run_eq hOutput).symm.trans hRun
      exact ⟨hFault, rfl⟩
    · rw [h.run_eq hOutput, hLater]
    · exact absurd hFault (hNone e)
  · refine ⟨fun e later' => ⟨fun hError => ?_, fun ⟨h, hLater⟩ => ?_⟩, fun _ =>
      ⟨drawing, later, hRun, hCompleted⟩⟩
    · cases hRun.symm.trans hError
    · rw [h.run_eq hOutput, hLater]

/-- A drawing in the place of its own source, and no drawing where a later move is of an unknown
table. -/
theorem orders_drawn_in_place :
    let a : Arguments := ⟨"orders.erd", some "orders.erd", none, [⟨"user", 3, 4⟩], "warn"⟩
    let b : Arguments := { a with moves := [⟨"user", 3, 4⟩, ⟨"ghost", 1, 1⟩] }
    (∃ drawing later, runIn ordersDirectory a = (.ok none, later) ∧
        Completed FileTree.store ordersDirectory a "orders.erd" drawing later) ∧
      runIn ordersDirectory b = (.error (.unknownTable "ghost"), ordersDirectory) := by
  intro a b
  have hRead : ordersDirectory.readText "orders.erd" = .ok ordersSource := by decide +kernel
  have hTarget : ordersDirectory.target "orders.erd" = .ok "orders.erd" := by decide +kernel
  rw [runIn_eq_run, runIn_eq_run]
  constructor
  · refine (run_all_or_nothing FileTree.store ordersDirectory a "orders.erd" rfl).2 ?_
    intro e hFault
    cases hFault with
    | settings fault => cases fault
    | input given unreadable => cases hRead.symm.trans unreadable
    | source given readable fault =>
        obtain rfl := Except.ok.inj (hRead.symm.trans readable)
        cases fault with
        | refused refused => cases parse_ordersSource.symm.trans refused
        | @unknownTable _ front back m accepted first declared undeclared =>
            cases parse_ordersSource.symm.trans accepted
            have hMem : m ∈ a.moves := first ▸ List.mem_append_right front List.mem_cons_self
            obtain rfl := List.mem_singleton.1 hMem
            exact undeclared (by decide)
    | output given readable draws unwritable =>
        have hWrite := FileTree.writeText_eq ordersDirectory "orders.erd"
        simp only [hTarget] at hWrite
        cases (hWrite _).symm.trans unwritable
  · refine ((run_all_or_nothing FileTree.store ordersDirectory b "orders.erd" rfl).1 _ _).2
      ⟨.source .standard hRead ?_, rfl⟩
    have hFirst : b.moves = [⟨"user", 3, 4⟩] ++ ⟨"ghost", 1, 1⟩ :: [] := rfl
    exact .unknownTable parse_ordersSource hFirst (by decide) (by decide)

end Command

end ErDiagram
