import Mathlib.Data.List.Forall2

/-! Lists whose entries go with one another, each with the one at its own place. -/
namespace ErDiagram

variable {β γ δ : Type} {bs : List β}

/-- What is skipped by a filter is skipped by a partial function, and the others stay in order. -/
theorem forall₂_filter_filterMap {p : β → Bool} {f : β → Option γ} {R : β → γ → Prop}
    (hSkip : ∀ b ∈ bs, p b = false → f b = none)
    (h : ∀ b ∈ bs, p b → ∃ c, f b = some c ∧ R b c) :
    List.Forall₂ R (bs.filter p) (bs.filterMap f) := by
  induction bs with
  | nil => exact .nil
  | cons b bs ih =>
      obtain ⟨hSkipHere, hSkipLater⟩ := List.forall_mem_cons.1 hSkip
      obtain ⟨hHere, hLater⟩ := List.forall_mem_cons.1 h
      have hRest := ih hSkipLater hLater
      cases hp : p b with
      | false =>
          rw [List.filterMap_cons_none (hSkipHere hp), List.filter_cons_of_neg (by simp [hp])]
          exact hRest
      | true =>
          obtain ⟨c, hc, hRelated⟩ := hHere hp
          rw [List.filterMap_cons_some hc, List.filter_cons_of_pos hp]
          exact .cons hRelated hRest

/-- Where two entries go with one another through a third one, these make up a list. -/
theorem exists_forall₂_of_exists {R : γ → δ → Prop} {S : β → δ → Prop} {cs : List γ}
    (h : List.Forall₂ (fun b c => ∃ d, R c d ∧ S b d) bs cs) :
    ∃ ds, List.Forall₂ R cs ds ∧ List.Forall₂ S bs ds := by
  induction h with
  | nil => exact ⟨[], .nil, .nil⟩
  | cons hHere _ ih =>
      obtain ⟨d, hFirst, hSecond⟩ := hHere
      obtain ⟨ds, hAll, hRest⟩ := ih
      exact ⟨d :: ds, .cons hFirst hAll, .cons hSecond hRest⟩

theorem exists_left_of_mem {R : β → γ → Prop} {cs : List γ} (h : List.Forall₂ R bs cs) {c : γ}
    (hc : c ∈ cs) : ∃ b ∈ bs, R b c := by
  induction h with
  | nil => cases hc
  | @cons b c' bs cs hHere hLater ih =>
      rcases List.mem_cons.1 hc with rfl | hRest
      · exact ⟨b, List.mem_cons_self, hHere⟩
      · obtain ⟨b', hb', hRelated⟩ := ih hRest
        exact ⟨b', List.mem_cons_of_mem _ hb', hRelated⟩

end ErDiagram
