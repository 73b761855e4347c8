import InlineIcons.Text.Cut

/-! Cutting finds the first occurrence of a mark: there is none in what stands before it, and a text is cut
where a mark was put, unless the mark began earlier. -/
namespace InlineIcons.Text

variable {mark cs before after : List Char}

theorem cutAt?_append (late : ∀ s, s ≠ [] → s <:+ before → ¬ mark <+: s ++ mark ++ after) :
    cutAt? mark (before ++ mark ++ after) = some (before,after) := by
  induction before with
  | nil =>
    unfold cutAt?
    simp
  | cons c before ih =>
    have here : mark.isPrefixOf (c :: before ++ mark ++ after) = false := by
      rw [Bool.eq_false_iff]
      intro begins
      exact late (c :: before) (List.cons_ne_nil c before) List.suffix_rfl (List.isPrefixOf_iff_prefix.mp begins)
    have later := ih fun s filled ends => late s filled (ends.trans (List.suffix_cons c before))
    simp only [List.cons_append] at here ⊢
    rw [cutAt?,here]
    simp only [Bool.false_eq_true,if_false,later,Option.map_some]

theorem cutAt?_single {c : Char} (absent : c ∉ before) :
    cutAt? [c] (before ++ c :: after) = some (before,after) := by
  have cut : cutAt? [c] (before ++ [c] ++ after) = some (before,after) := by
    refine cutAt?_append fun s filled ends begins => ?_
    obtain ⟨d,s,rfl⟩ := List.exists_cons_of_ne_nil filled
    have same : c = d := by simpa using begins
    exact absent (same ▸ ends.subset List.mem_cons_self)
  simpa using cut

/-- A mark of one character twice and another one does not begin inside the text before it. -/
theorem cutAt?_double {c d : Char} (other : c ≠ d) (absent : ¬ [c,c,d] <:+: before) :
    cutAt? [c,c,d] (before ++ [c,c,d] ++ after) = some (before,after) := by
  refine cutAt?_append fun s filled ends begins => ?_
  match s with
  | [] => exact filled rfl
  | [_] =>
    simp only [List.cons_append,List.nil_append,List.cons_prefix_cons] at begins
    exact other begins.2.2.1.symm
  | [_,_] =>
    simp only [List.cons_append,List.nil_append,List.cons_prefix_cons] at begins
    exact other begins.2.2.1.symm
  | x :: y :: z :: s =>
    simp only [List.cons_append,List.cons_prefix_cons] at begins
    obtain ⟨rfl,rfl,rfl,_⟩ := begins
    exact absent ((List.prefix_append [c,c,d] s).isInfix.trans ends.isInfix)

theorem not_infix_of_cutAt? (cut : cutAt? mark cs = some (before,after)) (filled : mark ≠ []) :
    ¬ mark <:+: before := by
  induction cs generalizing before with
  | nil =>
    simp only [cutAt?,Option.ite_none_right_eq_some] at cut
    obtain ⟨_,cut⟩ := cut
    simp only [Option.some.injEq,Prod.mk.injEq] at cut
    simpa [← cut.1] using filled
  | cons c cs ih =>
    rw [cutAt?] at cut
    split at cut
    · simp only [Option.some.injEq,Prod.mk.injEq] at cut
      simpa [← cut.1] using filled
    · next apart =>
      simp only [Option.map_eq_some_iff,Prod.mk.injEq,Prod.exists] at cut
      obtain ⟨front,_,cut,rfl,rfl⟩ := cut
      intro inside
      rcases List.infix_cons_iff.mp inside with begins | inside
      · have whole := eq_append_of_cutAt? cut
        refine apart (List.isPrefixOf_iff_prefix.mpr (begins.trans ?_))
        rw [whole,List.append_assoc]
        exact List.prefix_append (c :: front) _
      · exact ih cut inside

end InlineIcons.Text
