import ErDiagram.Canvas
import ErDiagram.Proofs.DiagramRun
import Mathlib.Data.List.Induction

/-! Runs of actions on a drag session. A drag is a move of the table that was pressed last, or
nothing at all. -/
namespace ErDiagram

variable {Hook α : Type} [Coordinate α]

/-! ### Actions -/

/-- What can be done with a drag session. -/
inductive DragAction (Hook α : Type) where
  | press (table : String)
  | drag (dx dy : α)
  | release
  | setHook (hook : Hook)

namespace DragAction

/-- The action takes hold of a table or lets go of it. -/
def changesGrip : DragAction Hook α → Bool
  | .press _ | .release => true
  | _ => false

def changesHook : DragAction Hook α → Bool
  | .setHook _ => true
  | _ => false

end DragAction

/-- The table of the last press, unless there was a release since. -/
def heldAfter (actions : List (DragAction Hook α)) : Option String :=
  match actions.findRev? DragAction.changesGrip with
  | some (.press table) => some table
  | _ => none

/-- The hook that was set last, or the one there was before. -/
def hookAfter (hook : Option Hook) (actions : List (DragAction Hook α)) : Option Hook :=
  match actions.findRev? DragAction.changesHook with
  | some (.setHook hook) => some hook
  | _ => hook

/-- A hook that was told of a move, and the diagram as it was then. -/
structure Told (Hook α : Type) where
  hook : Hook
  diagram : Diagram α

/-- A drag session, the diagram whose tables it drags, and what the hooks were told so far. -/
structure DragRun (Hook α : Type) where
  session : DragSession Hook
  diagram : Diagram α
  told : List (Told Hook α)

namespace DragRun

def start (d : Diagram α) (hook : Option Hook) : DragRun Hook α := ⟨.start hook, d, []⟩

def dragBy (r : DragRun Hook α) (dx dy : α) : DragResult Hook α :=
  r.session.dragBy r.diagram dx dy

def act (r : DragRun Hook α) : DragAction Hook α → DragRun Hook α
  | .press table => { r with session := r.session.press table }
  | .drag dx dy =>
    let result := r.dragBy dx dy
    { r with
      diagram := result.diagram
      told := r.told ++ (result.fired.map fun hook => ⟨hook, result.diagram⟩).toList }
  | .release => { r with session := r.session.release }
  | .setHook hook => { r with session := r.session.setHook hook }

def run (r : DragRun Hook α) (actions : List (DragAction Hook α)) : DragRun Hook α :=
  actions.foldl act r

theorem run_append (r : DragRun Hook α) (first last : List (DragAction Hook α)) :
    r.run (first ++ last) = (r.run first).run last :=
  List.foldl_append

/-- A drag that returns true, as a move of the table that is held then. -/
def move? (r : DragRun Hook α) : DragAction Hook α → Option (Move α)
  | .drag dx dy => if (r.dragBy dx dy).moved then r.session.held.map (⟨·, dx, dy⟩) else none
  | _ => none

/-- The drags that return true, one after another. -/
def moves (r : DragRun Hook α) : List (DragAction Hook α) → List (Move α)
  | [] => []
  | a :: actions => (r.move? a).toList ++ (r.act a).moves actions

end DragRun

/-- The diagram after moves by name, if all the tables are declared. -/
def Diagram.replay? (d : Diagram α) (moves : List (Move α)) : Option (Diagram α) :=
  moves.foldlM (fun d m => d.move? m.table m.dx m.dy) d

/-- What a run of actions on a new session has done with a diagram. -/
structure DragRun.IsFaithful (d : Diagram α) (initial : Option Hook)
    (actions : List (DragAction Hook α)) (r : DragRun Hook α) : Prop where
  held : r.session.held = heldAfter actions
  hook : r.session.hook = hookAfter initial actions
  /-- The drags that return true are the moves of the diagram, and it changes by nothing else. -/
  diagram : d.replay? ((DragRun.start d initial).moves actions) = some r.diagram
  answer : ∀ dx dy, (r.dragBy dx dy).moved = true ↔
    ∃ table, heldAfter actions = some table ∧ table ∈ d.tables.map Table.name
  /-- A drag that returns true tells the hook once, of the diagram that is already moved. -/
  drag : ∀ dx dy, (r.dragBy dx dy).moved = true → ∃ table moved,
    heldAfter actions = some table ∧ r.diagram.move? table dx dy = some moved ∧
      r.act (.drag dx dy) = ⟨r.session, moved,
        r.told ++ ((hookAfter initial actions).map fun hook => ⟨hook, moved⟩).toList⟩
  refusedDrag : ∀ dx dy, (r.dragBy dx dy).moved = false →
    (r.dragBy dx dy).fired = none ∧ r.act (.drag dx dy) = r
  other : ∀ a : DragAction Hook α, (∀ dx dy, a ≠ .drag dx dy) →
    (r.act a).diagram = r.diagram ∧ (r.act a).told = r.told
  /-- From the time that a hook is set, only this one is told, or one that is set later. -/
  replacedHook : ∀ earlier hook later, actions = earlier ++ .setHook hook :: later →
    ∃ since, r.told = ((DragRun.start d initial).run earlier).told ++ since ∧
      ∀ t ∈ since, t.hook = hook ∨ .setHook t.hook ∈ later

/-! ### One drag -/

/-- Everything that a drag can do. -/
theorem DragSession.dragBy_cases (s : DragSession Hook) (d : Diagram α) (dx dy : α) :
    (∃ table, s.held = some table ∧ table ∈ d.tables.map Table.name ∧
      s.dragBy d dx dy = ⟨true, d.shift table dx dy, s.hook⟩) ∨
    (∀ table, s.held = some table → table ∉ d.tables.map Table.name) ∧
      s.dragBy d dx dy = ⟨false, d, none⟩ := by
  cases hHeld : s.held with
  | none =>
      refine Or.inr ⟨fun table h => absurd h (Option.some_ne_none table).symm, ?_⟩
      rw [dragBy, hHeld]
      rfl
  | some table =>
      by_cases hDeclared : table ∈ d.tables.map Table.name
      · refine Or.inl ⟨table, rfl, hDeclared, ?_⟩
        rw [dragBy, hHeld, Option.bind_some, Diagram.move?_of_declared hDeclared]
      · refine Or.inr ⟨fun other h => Option.some.inj h ▸ hDeclared, ?_⟩
        rw [dragBy, hHeld, Option.bind_some, Diagram.move?_of_undeclared hDeclared]

namespace DragRun

variable {r : DragRun Hook α} {dx dy : α}

theorem dragBy_moved : (r.dragBy dx dy).moved = true ↔
    ∃ table, r.session.held = some table ∧ table ∈ r.diagram.tables.map Table.name := by
  rcases r.session.dragBy_cases r.diagram dx dy with
    ⟨table, hHeld, hDeclared, hDrag⟩ | ⟨hNot, hDrag⟩
  · rw [dragBy, hDrag]
    exact iff_of_true rfl ⟨table, hHeld, hDeclared⟩
  · rw [dragBy, hDrag]
    exact iff_of_false Bool.false_ne_true fun ⟨table, hHeld, hDeclared⟩ =>
      hNot table hHeld hDeclared

theorem act_of_moved (h : (r.dragBy dx dy).moved = true) : ∃ table moved,
    r.session.held = some table ∧ r.diagram.move? table dx dy = some moved ∧
      r.act (.drag dx dy) = ⟨r.session, moved,
        r.told ++ (r.session.hook.map fun hook => ⟨hook, moved⟩).toList⟩ := by
  rcases r.session.dragBy_cases r.diagram dx dy with ⟨table, hHeld, hDeclared, hDrag⟩ | ⟨-, hDrag⟩
  · refine ⟨table, _, hHeld, Diagram.move?_of_declared hDeclared dx dy, ?_⟩
    rw [act, dragBy, hDrag]
  · rw [dragBy, hDrag] at h
    exact absurd h Bool.false_ne_true

theorem act_of_not_moved (h : (r.dragBy dx dy).moved = false) :
    (r.dragBy dx dy).fired = none ∧ r.act (.drag dx dy) = r := by
  rcases r.session.dragBy_cases r.diagram dx dy with ⟨table, -, -, hDrag⟩ | ⟨-, hDrag⟩
  · rw [dragBy, hDrag] at h
    exact absurd h.symm Bool.false_ne_true
  · rw [act, dragBy, hDrag]
    exact ⟨rfl, congrArg (DragRun.mk _ _) (List.append_nil _)⟩

theorem act_of_not_drag {a : DragAction Hook α} (h : ∀ dx dy, a ≠ .drag dx dy) :
    (r.act a).diagram = r.diagram ∧ (r.act a).told = r.told := by
  cases a with
  | drag dx dy => exact absurd rfl (h dx dy)
  | _ => exact ⟨rfl, rfl⟩

end DragRun

/-! ### What is held, and which hook is told -/

omit [Coordinate α] in
theorem findRev?_concat (p : DragAction Hook α → Bool) (actions : List (DragAction Hook α))
    (a : DragAction Hook α) :
    (actions ++ [a]).findRev? p = if p a then some a else actions.findRev? p := by
  rw [List.findRev?_eq_find?_reverse, List.findRev?_eq_find?_reverse, List.reverse_concat,
    List.find?_cons]
  cases p a <;> rfl

namespace DragRun

theorem run_session (d : Diagram α) (initial : Option Hook) (actions : List (DragAction Hook α)) :
    ((start d initial).run actions).session = ⟨heldAfter actions, hookAfter initial actions⟩ := by
  induction actions using List.reverseRecOn with
  | nil => rfl
  | append_singleton actions a ih =>
      rw [run_append, heldAfter, hookAfter, findRev?_concat, findRev?_concat]
      show (((start d initial).run actions).act a).session = _
      cases a with
      | press table =>
          show DragSession.press _ table = _
          rw [ih]
          rfl
      | drag dx dy => exact ih
      | release =>
          show DragSession.release _ = _
          rw [ih]
          rfl
      | setHook hook =>
          show DragSession.setHook _ hook = _
          rw [ih]
          rfl

/-! ### The diagram -/

theorem replay?_append (d : Diagram α) (first last : List (Move α)) :
    d.replay? (first ++ last) = (d.replay? first).bind (·.replay? last) :=
  List.foldlM_append

theorem act_replay? (r : DragRun Hook α) (a : DragAction Hook α) :
    r.diagram.replay? (r.move? a).toList = some (r.act a).diagram := by
  cases a with
  | drag dx dy =>
      rcases r.session.dragBy_cases r.diagram dx dy with
        ⟨table, hHeld, hDeclared, hDrag⟩ | ⟨-, hDrag⟩
      · rw [move?, act, dragBy, hDrag, if_pos rfl, hHeld]
        show (r.diagram.move? table dx dy).bind some = _
        rw [Diagram.move?_of_declared hDeclared]
        rfl
      · rw [move?, act, dragBy, hDrag]
        rfl
  | _ => rfl

theorem run_replay? (r : DragRun Hook α) (actions : List (DragAction Hook α)) :
    r.diagram.replay? (r.moves actions) = some (r.run actions).diagram := by
  induction actions generalizing r with
  | nil => rfl
  | cons a actions ih =>
      rw [moves, replay?_append, act_replay?]
      exact ih (r.act a)

theorem act_tables (r : DragRun Hook α) (a : DragAction Hook α) :
    (r.act a).diagram.tables = r.diagram.tables := by
  cases a with
  | drag dx dy =>
      rcases r.session.dragBy_cases r.diagram dx dy with ⟨table, -, -, hDrag⟩ | ⟨-, hDrag⟩
      · rw [act, dragBy, hDrag]
        rfl
      · rw [act, dragBy, hDrag]
  | _ => rfl

theorem run_tables (r : DragRun Hook α) (actions : List (DragAction Hook α)) :
    (r.run actions).diagram.tables = r.diagram.tables := by
  induction actions generalizing r with
  | nil => rfl
  | cons a actions ih => exact (ih (r.act a)).trans (r.act_tables a)

/-! ### The hooks -/

/-- An action tells no hook but the one that is set. -/
theorem act_told (r : DragRun Hook α) (a : DragAction Hook α) :
    ∃ since, (r.act a).told = r.told ++ since ∧ ∀ t ∈ since, r.session.hook = some t.hook := by
  cases a with
  | drag dx dy =>
      refine ⟨_, rfl, fun t ht => ?_⟩
      rcases r.session.dragBy_cases r.diagram dx dy with ⟨table, -, -, hDrag⟩ | ⟨-, hDrag⟩
      · rw [dragBy, hDrag, Option.mem_toList, Option.map_eq_some_iff] at ht
        obtain ⟨hook, hHook, rfl⟩ := ht
        exact hHook
      · rw [dragBy, hDrag] at ht
        exact absurd ht List.not_mem_nil
  | _ => exact ⟨[], (List.append_nil _).symm, fun t ht => absurd ht List.not_mem_nil⟩

theorem act_hook (r : DragRun Hook α) (a : DragAction Hook α) :
    (r.act a).session.hook = r.session.hook ∨
      ∃ hook, a = .setHook hook ∧ (r.act a).session.hook = some hook := by
  cases a with
  | setHook hook => exact Or.inr ⟨hook, rfl, rfl⟩
  | _ => exact Or.inl rfl

theorem run_told (r : DragRun Hook α) (actions : List (DragAction Hook α)) :
    ∃ since, (r.run actions).told = r.told ++ since ∧
      ∀ t ∈ since, r.session.hook = some t.hook ∨ .setHook t.hook ∈ actions := by
  induction actions generalizing r with
  | nil => exact ⟨[], (List.append_nil _).symm, fun t ht => absurd ht List.not_mem_nil⟩
  | cons a actions ih =>
      obtain ⟨here, hHere, hHereHook⟩ := r.act_told a
      obtain ⟨later, hLater, hLaterHook⟩ := ih (r.act a)
      refine ⟨here ++ later, ?_, fun t ht => ?_⟩
      · rw [← List.append_assoc, ← hHere]
        exact hLater
      · rcases List.mem_append.1 ht with hMem | hMem
        · exact Or.inl (hHereHook t hMem)
        · rcases hLaterHook t hMem with hHook | hSet
          · rcases r.act_hook a with hSame | ⟨hook, rfl, hNew⟩
            · exact Or.inl (hSame ▸ hHook)
            · rw [hNew, Option.some.injEq] at hHook
              exact Or.inr (hHook ▸ List.mem_cons_self)
          · exact Or.inr (List.mem_cons_of_mem _ hSet)

/-- A drag session is a front for the moves of its diagram. A drag is answered with true if the
table of the last press is declared and was not let go of since, and moves this table then; the hook
that is set is told of it once, and nothing else changes the diagram or tells a hook. -/
theorem run_isFaithful (d : Diagram α) (initial : Option Hook)
    (actions : List (DragAction Hook α)) :
    ((start d initial).run actions).IsFaithful d initial actions := by
  have hSession := run_session d initial actions
  have hHeld : ((start d initial).run actions).session.held = heldAfter actions := by
    rw [hSession]
  have hHook : ((start d initial).run actions).session.hook = hookAfter initial actions := by
    rw [hSession]
  have hTables := (start d initial).run_tables actions
  refine
    { held := hHeld
      hook := hHook
      diagram := (start d initial).run_replay? actions
      answer := fun dx dy => ?_
      drag := fun dx dy h => ?_
      refusedDrag := fun dx dy h => act_of_not_moved h
      other := fun a h => act_of_not_drag h
      replacedHook := fun earlier hook later hActions => ?_ }
  · rw [dragBy_moved, hHeld, hTables]
    rfl
  · rw [← hHeld, ← hHook]
    exact act_of_moved h
  · obtain ⟨since, hTold, hSince⟩ :=
      (((start d initial).run earlier).act (.setHook hook)).run_told later
    refine ⟨since, ?_, fun t ht => ?_⟩
    · rw [hActions, run_append]
      exact hTold
    · rcases hSince t ht with hSame | hSet
      · exact Or.inl (Option.some.inj hSame).symm
      · exact Or.inr hSet

/-- A press over a press holds the later table, and nobody is told of a drag after the release. -/
example :
    let d : Diagram Float := .ofTables .standard [⟨"a", []⟩, ⟨"b", []⟩]
    let r := (start d (some 1)).run
      [.press "a", .drag 1 1, .press "c", .drag 1 1, .press "b", .setHook 2, .drag 1 1, .release,
        .drag 1 1]
    r.diagram.positions.keys = ["a", "b"] ∧ r.told.map Told.hook = [1, 2] := by
  decide +kernel

end DragRun

end ErDiagram
