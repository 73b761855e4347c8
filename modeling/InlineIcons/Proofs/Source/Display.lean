import InlineIcons.Proofs.Source.Resolution
import InlineIcons.Proofs.Source.TypeExpr

/-! How a resolved type is shown. It is shown as it is written, except that nothing is left of what stands before the
`Option` of an optional type: neither the path to it nor two colons at its front. -/
namespace InlineIcons.Source

namespace TypeExpr

/-- The type of what may be missing. The path to `Option` may be written out. -/
def option (rooted : Bool) (before : List Segment) (inner : TypeExpr) : TypeExpr :=
  .path rooted (before ++ [.mk "Option" (some [.type inner])])

theorem mem_parts_option (rooted : Bool) (before : List Segment) (inner : TypeExpr) :
    inner ∈ (option rooted before inner).parts := by
  have last := List.mem_append_right before (List.mem_singleton_self (Segment.mk "Option" (some [.type inner])))
  exact List.mem_flatMap.mpr ⟨_,last,List.mem_singleton_self inner⟩

/-- A type is taken apart as long as it is optional or in parentheses. -/
theorem option_induction {motive : TypeExpr → Prop}
    (optional : ∀ rooted before inner, motive inner → motive (option rooted before inner))
    (parens : ∀ inner, motive inner → motive (.paren inner))
    (plain : ∀ type, (∀ inner, type ≠ .paren inner) → (∀ rooted before inner, type ≠ option rooted before inner) →
      motive type) (type : TypeExpr) : motive type := by
  induction type using parts_induction with
  | step type ih =>
    by_cases enclosed : ∃ inner, type = .paren inner
    · obtain ⟨inner,rfl⟩ := enclosed
      exact parens inner (ih inner List.mem_cons_self)
    · by_cases missing : ∃ rooted before inner, type = option rooted before inner
      · obtain ⟨rooted,before,inner,rfl⟩ := missing
        exact optional rooted before inner (ih inner (mem_parts_option rooted before inner))
      · exact plain type (fun inner same => enclosed ⟨inner,same⟩)
          fun rooted before inner same => missing ⟨rooted,before,inner,same⟩

/-- Something stands before the `Option` of the type or, where it is optional, of what it holds. -/
inductive QualifiesOption : TypeExpr → Prop
  | here {rooted : Bool} {before : List Segment} (inner : TypeExpr) (qualified : rooted = true ∨ before ≠ []) :
    QualifiesOption (option rooted before inner)
  | inside (rooted : Bool) (before : List Segment) {inner : TypeExpr} (further : QualifiesOption inner) :
    QualifiesOption (option rooted before inner)
  | paren {inner : TypeExpr} (further : QualifiesOption inner) : QualifiesOption (.paren inner)

mutual
/-- The type without what stands before `Option` wherever that is left out. -/
def unqualified : TypeExpr → TypeExpr
  | .paren inner => .paren inner.unqualified
  | .path rooted segments => (unqualifiedOption? segments).getD (.path rooted segments)
  | type => type

def unqualifiedOption? : List Segment → Option TypeExpr
  | [] => none
  | [.mk name (some [.type inner])] => if name = "Option" then some (option false [] inner.unqualified) else none
  | _ :: rest => unqualifiedOption? rest
end

theorem unqualifiedOption?_concat (before : List Segment) (last : Segment) :
    unqualifiedOption? (before ++ [last]) = unqualifiedOption? [last] := by
  induction before with
  | nil => rfl
  | cons s before ih =>
    rw [List.cons_append,unqualifiedOption?,ih]
    intro name inner _ alone
    exact List.append_ne_nil_of_right_ne_nil before (List.cons_ne_nil last []) alone

theorem unqualified_option (rooted : Bool) (before : List Segment) (inner : TypeExpr) :
    (option rooted before inner).unqualified = option false [] inner.unqualified := by
  rw [option,unqualified,unqualifiedOption?_concat,unqualifiedOption?,if_pos rfl,Option.getD_some]

theorem resolveOptional?_concat (t : EnumTable) (namespaceName : String) (before : List Segment) (last : Segment) :
    t.resolveOptional? namespaceName (before ++ [last]) = t.resolveOptional? namespaceName [last] := by
  induction before with
  | nil => rfl
  | cons s before ih =>
    rw [List.cons_append,EnumTable.resolveOptional?,ih]
    intro name inner _ alone
    exact List.append_ne_nil_of_right_ne_nil before (List.cons_ne_nil last []) alone

theorem last_cases (last : Segment) : (∃ inner, last = .mk "Option" (some [.type inner])) ∨
    unqualifiedOption? [last] = none ∧
      ∀ (t : EnumTable) namespaceName, t.resolveOptional? namespaceName [last] = none := by
  obtain ⟨name,args⟩ := last
  rcases args with _ | _ | ⟨first | text,_ | ⟨second,rest⟩⟩
  case some.cons.type.nil =>
    by_cases missing : name = "Option"
    · exact .inl ⟨first,by rw [missing]⟩
    · refine .inr ⟨by rw [unqualifiedOption?,if_neg missing],fun t namespaceName => ?_⟩
      rw [EnumTable.resolveOptional?,if_neg missing]
  all_goals exact .inr ⟨rfl,fun _ _ => rfl⟩

section Plain

variable {type : TypeExpr} (bare : ∀ inner, type ≠ .paren inner)
  (present : ∀ rooted before inner, type ≠ option rooted before inner)

include present in
theorem plain_path {rooted : Bool} {segments : List Segment} (path : type = .path rooted segments) :
    unqualifiedOption? segments = none ∧
      ∀ (t : EnumTable) namespaceName, t.resolveOptional? namespaceName segments = none := by
  rcases List.eq_nil_or_concat' segments with rfl | ⟨before,last,rfl⟩
  · exact ⟨rfl,fun _ _ => rfl⟩
  · rcases last_cases last with ⟨inner,rfl⟩ | ⟨apart,none⟩
    · exact absurd path (present rooted before inner)
    · refine ⟨(unqualifiedOption?_concat before last).trans apart,fun t namespaceName => ?_⟩
      exact (resolveOptional?_concat t namespaceName before last).trans (none t namespaceName)

include bare present

theorem unqualified_plain : type.unqualified = type := by
  cases type with
  | path rooted segments => rw [unqualified,(plain_path present rfl).1,Option.getD_none]
  | paren inner => exact absurd rfl (bare inner)
  | reference lifetime mutable target => rfl
  | tuple items => rfl
  | slice item => rfl
  | other text => rfl

/-- A type that is neither optional nor in parentheses is shown as it is written, be it an enum or not. -/
theorem display_resolve_plain (t : EnumTable) (namespaceName : String) :
    (t.resolve namespaceName type).display = type.display := by
  cases type with
  | path rooted segments =>
    rw [EnumTable.resolve,(plain_path present rfl).2]
    simp only [EnumTable.resolvePath]
    split
    · cases t.lookup? namespaceName (segments.map Segment.name) <;> rfl
    · rfl
  | paren inner => exact absurd rfl (bare inner)
  | reference lifetime mutable target => rfl
  | tuple items => rfl
  | slice item => rfl
  | other text => rfl

end Plain

theorem display_paren (inner : TypeExpr) : (TypeExpr.paren inner).display = inner.display := by
  rw [display,TypeExpr.show,display]

theorem show_option (inner : TypeExpr) :
    (option false [] inner).show = "Option<".toList ++ (inner.show ++ ['>']) := by
  have args : (Segment.mk "Option" (some [.type inner])).show = _ := Segment.show_arguments "Option" [inner]
  rw [option,show_path,List.nil_append,showSegments,args]
  simp [commaSeparated]

/-- The names before the last one add to the text of a path. -/
theorem length_showSegments_concat (before : List Segment) (last : Segment) :
    last.show.length + 2 * before.length ≤ (showSegments (before ++ [last])).length := by
  induction before with
  | nil => exact Nat.le_refl _
  | cons s before ih =>
    have filled := List.append_ne_nil_of_right_ne_nil before (List.cons_ne_nil last [])
    rw [List.cons_append,showSegments_cons s filled]
    simp only [List.length_append,List.length_cons]
    omega

theorem length_show_option (inner : TypeExpr) : (option false [] inner).show.length = inner.show.length + 8 := by
  simp [show_option]

theorem length_show_option_le (rooted : Bool) (before : List Segment) (inner : TypeExpr) :
    inner.show.length + 8 ≤ (option rooted before inner).show.length ∧
      (rooted = true ∨ before ≠ [] → inner.show.length + 8 < (option rooted before inner).show.length) := by
  have path : (option rooted before inner).show = (if rooted then [':',':'] else []) ++
      showSegments (before ++ [.mk "Option" (some [.type inner])]) := by
    rw [option,TypeExpr.show]
  have last := length_showSegments_concat before (.mk "Option" (some [.type inner]))
  have alone : (Segment.mk "Option" (some [.type inner])).show.length = inner.show.length + 8 :=
    length_show_option inner
  rw [path,List.length_append]
  refine ⟨by omega,fun qualified => ?_⟩
  rcases qualified with rfl | filled
  · simp only [if_true,List.length_cons]
    omega
  · have some := List.length_pos_iff.mpr filled
    omega

theorem length_show_unqualified_le (type : TypeExpr) : type.unqualified.show.length ≤ type.show.length := by
  induction type using option_induction with
  | optional rooted before inner ih =>
    have whole := (length_show_option_le rooted before inner).1
    rw [unqualified_option,length_show_option]
    omega
  | parens inner ih => exact ih
  | plain type bare present => rw [unqualified_plain bare present]

theorem QualifiesOption.length_lt {type : TypeExpr} (qualified : type.QualifiesOption) :
    type.unqualified.show.length < type.show.length := by
  induction qualified with
  | @here rooted before inner qualified =>
    have whole := (length_show_option_le rooted before inner).2 qualified
    have part := length_show_unqualified_le inner
    rw [unqualified_option,length_show_option]
    omega
  | @inside rooted before inner further ih =>
    have whole := (length_show_option_le rooted before inner).1
    rw [unqualified_option,length_show_option]
    omega
  | paren further ih => exact ih

theorem unqualified_eq_self {type : TypeExpr} (plain : ¬ type.QualifiesOption) : type.unqualified = type := by
  induction type using option_induction with
  | optional rooted before inner ih =>
    by_cases qualified : rooted = true ∨ before ≠ []
    · exact absurd (.here inner qualified) plain
    · simp only [not_or,Bool.not_eq_true,not_not] at qualified
      obtain ⟨rfl,rfl⟩ := qualified
      rw [unqualified_option,ih fun further => plain (.inside false [] further)]
  | parens inner ih => rw [unqualified,ih fun further => plain (.paren further)]
  | plain type bare present => exact unqualified_plain bare present

end TypeExpr

namespace EnumTable

open TypeExpr

theorem resolve_option (t : EnumTable) (namespaceName : String) (rooted : Bool) (before : List Segment)
    (inner : TypeExpr) :
    t.resolve namespaceName (option rooted before inner) = .optionalOf (t.resolve namespaceName inner) := by
  rw [option,resolve,resolveOptional?_concat,resolveOptional?,if_pos rfl]

/-- A resolved type is shown without what stands before `Option`, so it is shown as it is written just where the name
of each optional type stands alone. -/
theorem display_resolve (t : EnumTable) (namespaceName : String) (type : TypeExpr) :
    (t.resolve namespaceName type).display = type.unqualified.display ∧
    ((t.resolve namespaceName type).display = type.display ↔ ¬ type.QualifiesOption) := by
  have shown : (t.resolve namespaceName type).display = type.unqualified.display := by
    induction type using option_induction with
    | optional rooted before inner ih =>
      have outer : (t.resolve namespaceName (option rooted before inner)).display =
          "Option<" ++ (t.resolve namespaceName inner).display ++ ">" := by
        rw [resolve_option,TypeRef.optionalOf,TypeRef.display]
      rw [outer,unqualified_option,ih,TypeExpr.display,TypeExpr.display,show_option,String.ofList_append,
        String.ofList_append,String.ofList_toList,String.append_assoc]
    | parens inner ih => rw [resolve,unqualified,display_paren,ih]
    | plain type bare present => rw [unqualified_plain bare present,display_resolve_plain bare present]
  refine ⟨shown,?_⟩
  rw [shown]
  constructor
  · intro same qualified
    have shorter := qualified.length_lt
    rw [String.ofList_inj.mp same] at shorter
    exact Nat.lt_irrefl _ shorter
  · intro plain
    rw [unqualified_eq_self plain]

example : (kindTable.resolve "a" (option false [.mk "std" none,.mk "option" none] (.ofNames ["Kind"]))).display =
    "Option<Kind>" := by
  decide +kernel

end EnumTable
end InlineIcons.Source
