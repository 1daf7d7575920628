import ErDiagram.Proofs.Grammar.Unambiguous

/-! An automaton for the grammar. It reads the tokens of a source one after another and stops at the
first one with which no derivation goes on. -/
namespace ErDiagram.Grammar

/-! ### Sentences -/

/-- The tokens of a derivation without their places, and the end of the source. -/
def Derivation.sentence (d : Derivation) : List (Option Token) :=
  d.tokens.map (fun t => some t.token) ++ [none]

def kinds (ts : List Located) : List (Option Token) := ts.map fun t => some t.token

@[simp] theorem kinds_append (ts us : List Located) : kinds (ts ++ us) = kinds ts ++ kinds us :=
  List.map_append

/-! ### Spots -/

/-- How far a derivation has come. -/
inductive Spot where
  /-- Between tables. -/
  | outside
  /-- Behind the keyword of a table. -/
  | tableName
  /-- Behind the name of a table. -/
  | opening
  /-- In a table, where an attribute may begin. -/
  | inside
  /-- Behind the name of an attribute. -/
  | named
  /-- Behind the name of an attribute and a question mark. -/
  | questioned
  /-- Where a flag has to stand. Behind the flags a question mark may follow if there was none
  before them. -/
  | flagName (late : Bool)
  /-- Behind a flag. -/
  | flagEnd (late : Bool)
  /-- Behind the closing parenthesis of the flags. -/
  | flagged (late : Bool)
  /-- Behind the colon. -/
  | typeBegin
  /-- Behind a token of a type. -/
  | typeEnd
  /-- Behind the arrow. -/
  | refTable
  /-- Behind the table that is referred to. -/
  | refDot
  /-- Behind the dot. -/
  | refAttr
  /-- Behind a reference. -/
  | referred
  /-- Behind a caption. -/
  | captioned
  /-- Behind the end of the source. -/
  | ended

namespace Spot

/-- Where the automaton goes with the next token, if a derivation can go on with it. -/
def step (q : Spot) (next : Option Token) : Option Spot :=
  match q with
  | outside =>
      match next with
      | none => some ended
      | some .lineBreak => some outside
      | some t => if t = .ident "table" then some tableName else none
  | tableName => match next with
      | some (.ident _) => some opening
      | _ => none
  | opening => match next with
      | some .openBrace => some inside
      | _ => none
  | inside => match next with
      | some .lineBreak => some inside
      | some .closeBrace => some outside
      | some (.ident _) => some named
      | _ => none
  | named => match next with
      | some .question => some questioned
      | some .openParen => some (flagName true)
      | some .colon => some typeBegin
      | some .arrow => some refTable
      | _ => none
  | questioned => match next with
      | some .openParen => some (flagName false)
      | some .colon => some typeBegin
      | some .arrow => some refTable
      | _ => none
  | flagName late => match next with
      | some (.ident _) => some (flagEnd late)
      | _ => none
  | flagEnd late => match next with
      | some .comma => some (flagName late)
      | some .closeParen => some (flagged late)
      | _ => none
  | flagged late => match next with
      | some .question => if late then some (flagged false) else none
      | some .colon => some typeBegin
      | _ => none
  | typeBegin => match next with
      | some .lineBreak | some .closeBrace | some (.text _) | none => none
      | some _ => some typeEnd
  | typeEnd => match next with
      | some .lineBreak => some inside
      | some .closeBrace => some outside
      | some (.text _) => some captioned
      | some _ => some typeEnd
      | none => none
  | refTable => match next with
      | some (.ident _) => some refDot
      | _ => none
  | refDot => match next with
      | some .dot => some refAttr
      | _ => none
  | refAttr => match next with
      | some (.ident _) => some referred
      | _ => none
  | referred => match next with
      | some .lineBreak => some inside
      | some .closeBrace => some outside
      | some (.text _) => some captioned
      | _ => none
  | captioned => match next with
      | some .lineBreak => some inside
      | some .closeBrace => some outside
      | _ => none
  | ended => none

def run (q : Spot) (ts : List (Option Token)) : Option Spot := ts.foldlM step q

theorem run_append (q : Spot) (ts us : List (Option Token)) :
    q.run (ts ++ us) = (q.run ts).bind (·.run us) :=
  List.foldlM_append

/-- The tokens lead from one spot to the other. -/
def Reads (q : Spot) (ts : List Located) (r : Spot) : Prop := q.run (kinds ts) = some r

theorem Reads.nil (q : Spot) : q.Reads [] q := rfl

theorem Reads.append {q r s : Spot} {ts us : List Located} (hFirst : q.Reads ts r)
    (hLast : r.Reads us s) : q.Reads (ts ++ us) s := by
  rw [Reads, kinds_append, run_append, hFirst, Option.bind_some, hLast]

theorem reads_cons_iff {q s : Spot} {t : Located} {ts : List Located} :
    q.Reads (t :: ts) s ↔ ∃ r, q.step (some t.token) = some r ∧ r.Reads ts s := by
  simp only [Reads, kinds, run, List.map_cons, List.foldlM_cons, Option.bind_eq_bind,
    Option.bind_eq_some_iff]

theorem Reads.cons {q r s : Spot} {t : Located} {ts : List Located}
    (hStep : q.step (some t.token) = some r) (hRest : r.Reads ts s) : q.Reads (t :: ts) s :=
  reads_cons_iff.2 ⟨r, hStep, hRest⟩

end Spot

open Spot

/-! ### The spots behind trees -/

theorem breakTokens_reads {q : Spot} (hBreak : q.step (some .lineBreak) = some q)
    (breaks : List Place) : q.Reads (breakTokens breaks) q := by
  induction breaks with
  | nil => exact .nil q
  | cons p breaks ih => exact .cons hBreak ih

theorem commaTokens_reads (late : Bool) (fs : List (Place × Word)) :
    (flagEnd late).Reads (commaTokens fs) (flagEnd late) := by
  induction fs with
  | nil => exact .nil _
  | cons f fs ih => exact .cons rfl (.cons rfl ih)

theorem FlagList.reads (f : FlagList) {q : Spot} {late : Bool}
    (hOpen : q.step (some .openParen) = some (flagName late)) : q.Reads f.tokens (flagged late) :=
  .cons hOpen (.cons rfl ((commaTokens_reads late f.others).append (.cons rfl (.nil _))))

def Marks.spot : Marks → Spot
  | questionFirst none none => named
  | questionFirst (some _) none => questioned
  | questionFirst none (some _) => flagged true
  | questionFirst (some _) (some _) | questionLast _ _ => flagged false

theorem Marks.reads (m : Marks) : named.Reads m.tokens m.spot := by
  have hFlags {q : Spot} {late : Bool} (f : FlagList)
      (hOpen : q.step (some .openParen) = some (flagName late)) :
      q.Reads ((some f).toList.flatMap FlagList.tokens) (flagged late) := by
    rw [Option.toList_some, List.flatMap_singleton]
    exact f.reads hOpen
  match m with
  | questionFirst none none => exact .nil _
  | questionFirst (some q) none => exact .cons rfl (.nil _)
  | questionFirst none (some f) => exact hFlags f rfl
  | questionFirst (some q) (some f) => exact .cons rfl (hFlags f rfl)
  | questionLast f q => exact (f.reads rfl).append (.cons rfl (.nil _))

theorem Marks.spot_colon (m : Marks) : m.spot.step (some .colon) = some typeBegin := by
  match m with
  | questionFirst none none => rfl
  | questionFirst (some _) none => rfl
  | questionFirst none (some _) => rfl
  | questionFirst (some _) (some _) => rfl
  | questionLast _ _ => rfl

theorem step_of_inType {t : Token} (h : InType t) :
    typeBegin.step (some t) = some typeEnd ∧ typeEnd.step (some t) = some typeEnd := by
  obtain ⟨hBreak, hBrace, hText⟩ := h
  cases t with
  | lineBreak => exact absurd rfl hBreak
  | closeBrace => exact absurd rfl hBrace
  | text content => exact absurd rfl (hText content)
  | _ => exact ⟨rfl, rfl⟩

theorem TypeRun.reads (r : TypeRun) : typeBegin.Reads r.tokens typeEnd := by
  obtain ⟨first, others, hType⟩ := r
  obtain ⟨hFirst, hOthers⟩ := List.forall_mem_cons.1 hType
  refine .cons (step_of_inType hFirst).1 ?_
  change typeEnd.Reads others typeEnd
  clear hType
  induction others with
  | nil => exact .nil _
  | cons t others ih =>
      obtain ⟨hHere, hLater⟩ := List.forall_mem_cons.1 hOthers
      exact .cons (step_of_inType hHere).2 (ih hLater)

def TargetTree.spot : TargetTree → Spot
  | typed _ _ _ => typeEnd
  | reference _ _ _ _ _ => referred

theorem TargetTree.reads (t : TargetTree) : named.Reads t.tokens t.spot := by
  cases t with
  | typed marks colon type => exact marks.reads.append (.cons marks.spot_colon type.reads)
  | reference question arrow table dot attr =>
      have hReference {q : Spot} (hArrow : q.step (some .arrow) = some refTable) :
          q.Reads [arrow.mark .arrow, table.token, dot.mark .dot, attr.token] referred :=
        .cons hArrow (.cons rfl (.cons rfl (.cons rfl (.nil _))))
      cases question with
      | none => exact hReference rfl
      | some p => exact .cons rfl (hReference rfl)

def AttrTree.spot (a : AttrTree) : Spot :=
  match a.caption with
  | none => a.target.spot
  | some _ => captioned

theorem AttrTree.reads (a : AttrTree) : inside.Reads a.tokens a.spot := by
  obtain ⟨name, target, caption⟩ := a
  refine .cons rfl (target.reads.append ?_)
  cases caption with
  | none => exact .nil _
  | some c => cases target <;> exact .cons rfl (.nil _)

/-- A line break or a closing brace may follow any attribute. -/
theorem AttrTree.spot_end (a : AttrTree) : a.spot.step (some .lineBreak) = some inside ∧
    a.spot.step (some .closeBrace) = some outside := by
  obtain ⟨name, target, caption⟩ := a
  cases caption with
  | none => cases target <;> exact ⟨rfl, rfl⟩
  | some c => exact ⟨rfl, rfl⟩

theorem BlockTree.reads (b : BlockTree) : inside.Reads b.tokens outside := by
  induction b with
  | close p => exact .cons rfl (.nil _)
  | last a p => exact a.reads.append (.cons a.spot_end.2 (.nil _))
  | line a p ps later ih =>
      rw [BlockTree.tokens, List.append_assoc]
      exact a.reads.append (.cons a.spot_end.1 ((breakTokens_reads rfl ps).append ih))

theorem TableTree.reads (t : TableTree) : outside.Reads t.tokens outside :=
  .cons rfl (.cons rfl (.cons rfl ((breakTokens_reads rfl t.breaks).append t.block.reads)))

theorem Derivation.reads (d : Derivation) : outside.Reads d.tokens outside := by
  refine (breakTokens_reads rfl d.breaks).append ?_
  induction d.tables with
  | nil => exact .nil _
  | cons entry tables ih =>
      rw [tableTokens_cons, ← List.append_assoc]
      exact (entry.1.reads.append (breakTokens_reads rfl entry.2)).append ih

/-- The automaton does not stop within a sentence, so what it does not read begins none. -/
theorem not_prefix_of_run_eq_none {ts : List (Option Token)} (h : outside.run ts = none)
    (d : Derivation) : ¬ ts <+: d.sentence := by
  rintro ⟨rest, hRest⟩
  have hRun : outside.run d.sentence = some ended := by
    have hTokens : outside.run (d.tokens.map fun t => some t.token) = some outside := d.reads
    rw [Derivation.sentence, run_append, hTokens]
    rfl
  rw [← hRest, run_append, h] at hRun
  cases hRun

end ErDiagram.Grammar
