import InlineIcons.Proofs.Source.Resolution
import InlineIcons.Proofs.Text.Split

/-! Paths that begin with `crate`, `self` or `super`. Each leads to one place, from the crate root or from the module
at hand with one level up for each `super`, and means what lies there; no other enum is taken instead. -/
namespace InlineIcons.Source.EnumTable

open Text (behind splitOnAux_part splitOnAux_cut splitOnAux_end)

variable {t : EnumTable} {namespaceName : String}

theorem splitOnAux_pathText {names : List String} (segments : ∀ n ∈ names, IsSegment n) (filled : names ≠ [])
    (before : List Char) (done : List String) :
    String.splitOnAux (.ofList (before ++ (pathText names).toList)) "::" (behind before) (behind before) 0 done =
      done.reverse ++ names := by
  induction names generalizing before done with
  | nil => exact absurd rfl filled
  | cons first rest ih =>
    have single := (segments first List.mem_cons_self).single
    by_cases none : rest = []
    · have whole := splitOnAux_part single before [] [] done
      simp only [List.append_nil] at whole
      rw [none,pathText_single,whole,splitOnAux_end,String.ofList_toList]
    · have whole := splitOnAux_part single before [] (':' :: ':' :: (pathText rest).toList) done
      simp only [List.append_nil] at whole
      rw [toList_pathText_cons none,← List.append_assoc,whole,splitOnAux_cut,String.ofList_toList]
      have later := ih (fun n member => segments n (List.mem_cons_of_mem _ member)) none
        (before ++ first.toList ++ [':',':']) (first :: done)
      simpa using later

/-- The modules of a namespace are those from whose names it was made. -/
theorem modules_pathText {names : List String} (segments : ∀ n ∈ names, IsSegment n) :
    modules (pathText names) = names := by
  by_cases none : names = []
  · have split : String.splitOn "" "::" = [""] := splitOnAux_end [] [] []
    rw [none,pathText_nil,modules,split]
    rfl
  · have split := splitOnAux_pathText segments none [] []
    rw [List.nil_append,String.ofList_toList] at split
    have pieces : (pathText names).splitOn "::" = names := split
    rw [modules,pieces,List.filter_eq_self]
    intro n member
    simpa using (segments n member).filled

/-- A type means what lies at one path, and no enum if nothing does. As long as names hold no colon, this is the enum
of just these names. -/
structure Means (t : EnumTable) (resolved : TypeRef) (display : String) (target : List String) : Prop where
  enum_iff : ∀ e, resolved = .enumeration display e ↔ t.Last (pathText target) e
  other_iff : resolved = .other display ↔ t.Free (pathText target)
  named : (∀ n ∈ target, IsSegment n) → ∀ e names, resolved = .enumeration display e → e.HasNames names →
    names = target

theorem means_of_lookup? {type : TypeExpr} {written target : List String} (plain : type.plainPath? = some written)
    (leads : t.lookup? namespaceName written = t.get? (pathText target)) :
    t.Means (t.resolve namespaceName type) type.display target := by
  have resolved := resolve_of_plainPath? plain t namespaceName
  rw [leads] at resolved
  have enum_iff : ∀ e, t.resolve namespaceName type = .enumeration type.display e ↔ t.Last (pathText target) e := by
    intro e
    rw [resolved,← get?_eq_some_iff]
    cases t.get? (pathText target) <;> simp
  refine ⟨enum_iff,?_,fun segments e names found named => ?_⟩
  · rw [resolved,← get?_eq_none_iff]
    cases t.get? (pathText target) <;> simp
  · have here := ((enum_iff e).mp found).path_eq
    rw [named.path_eq] at here
    exact (pathText_inj named.1 segments).mp here

/-- There is no way up from the crate root. -/
theorem climb?_of_lt_count {base steps rest : List String} (anchors : ∀ s ∈ steps, s ∈ ["self","super"])
    (beyond : base.length < steps.count "super") : climb? base (steps ++ rest) = none := by
  induction steps generalizing base with
  | nil => simp at beyond
  | cons step steps ih =>
    obtain ⟨anchor,others⟩ := List.forall_mem_cons.mp anchors
    simp only [List.mem_cons,List.not_mem_nil,or_false] at anchor
    rcases anchor with rfl | rfl
    · rw [List.count_cons_of_ne (by decide)] at beyond
      exact ih others beyond
    · rw [List.count_cons_self] at beyond
      rw [List.cons_append,climb?]
      by_cases top : base.isEmpty = true
      · rw [if_pos top]
      · have some : 0 < base.length := List.length_pos_iff.mpr (by simpa using top)
        rw [if_neg top]
        exact ih others (by rw [List.length_dropLast]; omega)

theorem lookup?_steps {steps : List String} (filled : steps ≠ []) (anchors : ∀ s ∈ steps, s ∈ ["self","super"])
    (t : EnumTable) (namespaceName : String) (rest : List String) : t.lookup? namespaceName (steps ++ rest) =
      (climb? (modules namespaceName) (steps ++ rest)).bind fun path => t.get? (pathText path) := by
  obtain ⟨first,steps,rfl⟩ := List.exists_cons_of_ne_nil filled
  exact lookup?_relative (anchors first List.mem_cons_self) (steps ++ rest)

/-- An anchored path means what lies at the one place it leads to, from any module and in every table: after `crate`
this is the path that follows, and after steps of `self` and `super` it lies below the module that is as many levels up
as there are `super`s among them. Where there are not as many levels, and where nothing lies at the place, the path
means no enum. -/
theorem resolve_anchored (t : EnumTable) (type : TypeExpr) :
    (∀ namespaceName rest, type.plainPath? = some ("crate" :: rest) →
      t.Means (t.resolve namespaceName type) type.display rest) ∧
    ∀ spaces steps rest, (∀ n ∈ spaces, IsSegment n) → steps ≠ [] → (∀ s ∈ steps, s ∈ ["self","super"]) →
      (∀ s ∈ rest.head?, s ∉ ["self","super"]) → type.plainPath? = some (steps ++ rest) →
      (steps.count "super" ≤ spaces.length → t.Means (t.resolve (pathText spaces) type) type.display
        (spaces.take (spaces.length - steps.count "super") ++ rest)) ∧
      (spaces.length < steps.count "super" → t.resolve (pathText spaces) type = .other type.display) := by
  refine ⟨fun namespaceName rest written => means_of_lookup? written rfl,?_⟩
  intro spaces steps rest segments filled anchors ends written
  have looked := lookup?_steps filled anchors t (pathText spaces) rest
  rw [modules_pathText segments] at looked
  constructor
  · intro enough
    have climbs : Climbs spaces (steps ++ rest) (spaces.take (spaces.length - steps.count "super") ++ rest) :=
      ⟨steps,rest,rfl,anchors,ends,enough,rfl⟩
    rw [climbs.climb?_eq] at looked
    exact means_of_lookup? written looked
  · intro beyond
    rw [climb?_of_lt_count anchors beyond] at looked
    rw [resolve_of_plainPath? written,looked]
    rfl

/-- An enum looked for from a neighbouring module and from the root, and in two places where it does not lie: nothing
stands above the root, and what `self` is followed by is no import. -/
theorem resolve_anchored_shape :
    kindTable.resolve "shared::pages" (.ofNames ["self","super","icons","Shape"]) =
      .enumeration "self::super::icons::Shape" ⟨"shared::icons","Shape",["Home"]⟩ ∧
    kindTable.resolve "pages" (.ofNames ["crate","shared","icons","Shape"]) =
      .enumeration "crate::shared::icons::Shape" ⟨"shared::icons","Shape",["Home"]⟩ ∧
    kindTable.resolve "pages" (.ofNames ["super","super","icons","Shape"]) = .other "super::super::icons::Shape" ∧
    kindTable.resolve "pages" (.ofNames ["self","Shape"]) = .other "self::Shape" ∧
    kindTable.resolve "pages" (.ofNames ["Shape"]) = .enumeration "Shape" ⟨"shared::icons","Shape",["Home"]⟩ := by
  have neighbour : pathText ["shared","pages"] = "shared::pages" := by decide +kernel
  have pages : pathText ["pages"] = "pages" := by decide +kernel
  have shape : kindTable.Last (pathText ["shared","icons","Shape"]) ⟨"shared::icons","Shape",["Home"]⟩ :=
    get?_eq_some_iff.mp (by decide +kernel)
  have noShape : kindTable.Free (pathText ["pages","Shape"]) := get?_eq_none_iff.mp (by decide +kernel)
  have relative : ∀ written, _ := fun written => (resolve_anchored kindTable (.ofNames written)).2
  refine ⟨?_,?_,?_,?_,by decide +kernel⟩
  · have leads := (relative _ ["shared","pages"] ["self","super"] ["icons","Shape"] (by decide) (by decide) (by decide)
      (by decide) (plainPath?_ofNames _)).1 (by decide)
    rw [neighbour,display_ofNames] at leads
    exact (leads.enum_iff _).mpr shape
  · have leads := (resolve_anchored kindTable (.ofNames ["crate","shared","icons","Shape"])).1 "pages"
      ["shared","icons","Shape"] (plainPath?_ofNames _)
    rw [display_ofNames] at leads
    exact (leads.enum_iff _).mpr shape
  · have beyond := (relative _ ["pages"] ["super","super"] ["icons","Shape"] (by decide) (by decide) (by decide)
      (by decide) (plainPath?_ofNames _)).2 (by decide)
    rwa [pages,display_ofNames] at beyond
  · have leads := (relative _ ["pages"] ["self"] ["Shape"] (by decide) (by decide) (by decide) (by decide)
      (plainPath?_ofNames _)).1 (by decide)
    rw [pages,display_ofNames] at leads
    exact leads.other_iff.mpr noShape

end InlineIcons.Source.EnumTable
