import InlineIcons.Source.TypeExpr.Basic
import Mathlib.Tactic.Common

/-! Types by the types that they hold, and what they become when each is built anew from the inside. -/
namespace InlineIcons.Source

def GenericArg.type? : GenericArg → Option TypeExpr
  | .type t => some t
  | .other _ => none

def Segment.types (s : Segment) : List TypeExpr := s.args.filterMap GenericArg.type?

theorem GenericArg.sizeOf_lt {a : GenericArg} {t : TypeExpr} (holds : a.type? = some t) : sizeOf t < sizeOf a := by
  cases a with
  | type u =>
    cases holds
    rw [GenericArg.type.sizeOf_spec]
    omega
  | other text => cases holds

theorem Segment.sizeOf_lt {s : Segment} {t : TypeExpr} (member : t ∈ s.types) : sizeOf t < sizeOf s := by
  obtain ⟨a,inside,holds⟩ := List.mem_filterMap.mp member
  have small := GenericArg.sizeOf_lt holds
  obtain ⟨name,_ | args⟩ := s
  · cases inside
  · have listed : sizeOf a < sizeOf args := List.sizeOf_lt_of_mem inside
    rw [Segment.mk.sizeOf_spec,Option.some.sizeOf_spec]
    omega

namespace TypeExpr

/-- The types that a type is made of. -/
def parts : TypeExpr → List TypeExpr
  | .path _ segments => segments.flatMap Segment.types
  | .reference _ _ target => [target]
  | .tuple items => items
  | .slice item => [item]
  | .paren inner => [inner]
  | .other _ => []

theorem sizeOf_lt_of_mem_parts {part type : TypeExpr} (member : part ∈ type.parts) : sizeOf part < sizeOf type := by
  cases type with
  | path rooted segments =>
    obtain ⟨s,inside,held⟩ := List.mem_flatMap.mp member
    have small := Segment.sizeOf_lt held
    have listed := List.sizeOf_lt_of_mem inside
    rw [path.sizeOf_spec]
    omega
  | reference lifetime mutable target =>
    obtain rfl := List.mem_singleton.mp member
    rw [reference.sizeOf_spec]
    omega
  | tuple items =>
    have listed : sizeOf part < sizeOf items := List.sizeOf_lt_of_mem member
    rw [tuple.sizeOf_spec]
    omega
  | slice item =>
    obtain rfl := List.mem_singleton.mp member
    rw [slice.sizeOf_spec]
    omega
  | paren inner =>
    obtain rfl := List.mem_singleton.mp member
    rw [paren.sizeOf_spec]
    omega
  | other text => cases member

/-- What a type has if all its parts have it. -/
theorem parts_induction {motive : TypeExpr → Prop} (step : ∀ type, (∀ part ∈ type.parts, motive part) → motive type)
    (type : TypeExpr) : motive type :=
  step type fun part _ => parts_induction step part
termination_by sizeOf type
decreasing_by
  next member => exact sizeOf_lt_of_mem_parts member

end TypeExpr

theorem showSegments_cons (s : Segment) {rest : List Segment} (filled : rest ≠ []) :
    showSegments (s :: rest) = s.show ++ ':' :: ':' :: showSegments rest := by
  rw [showSegments]
  exact filled

theorem showTypes_eq (types : List TypeExpr) : showTypes types = types.map TypeExpr.show := by
  induction types with
  | nil => rfl
  | cons type types ih => rw [showTypes,ih,List.map_cons]

theorem showArgs_eq (types : List TypeExpr) : showArgs (types.map .type) = types.map TypeExpr.show := by
  induction types with
  | nil => rfl
  | cons type types ih => rw [List.map_cons,showArgs,GenericArg.show,ih,List.map_cons]

theorem commaSeparated_cons (text : List Char) {texts : List (List Char)} (filled : texts ≠ []) :
    commaSeparated (text :: texts) = text ++ ',' :: ' ' :: commaSeparated texts := by
  obtain ⟨second,texts,rfl⟩ := List.exists_cons_of_ne_nil filled
  rfl

theorem Segment.show_arguments (word : String) (types : List TypeExpr) :
    (Segment.mk word (some (types.map .type))).show =
      word.toList ++ '<' :: (commaSeparated (types.map TypeExpr.show) ++ ['>']) := by
  rw [Segment.show,showArgs_eq]
  simp

namespace TypeExpr

theorem show_path (segments : List Segment) : (path false segments).show = showSegments segments := by
  rw [TypeExpr.show]
  rfl

theorem show_rootedPath (segments : List Segment) :
    (path true segments).show = ':' :: ':' :: showSegments segments := by
  rw [TypeExpr.show]
  rfl

theorem show_reference (target : TypeExpr) : (reference none false target).show = '&' :: target.show := by
  rw [TypeExpr.show]
  rfl

theorem show_mutableReference (target : TypeExpr) :
    (reference none true target).show = '&' :: ("mut".toList ++ ' ' :: target.show) := by
  rw [TypeExpr.show]
  rfl

theorem show_tuple (items : List TypeExpr) :
    (tuple items).show = '(' :: (commaSeparated (items.map TypeExpr.show) ++ [')']) := by
  rw [TypeExpr.show,showTypes_eq]
  rfl

end TypeExpr

mutual
/-- The type without parentheses, with something in the place of each tuple of one type. -/
def TypeExpr.rebuild (single : TypeExpr → TypeExpr) : TypeExpr → TypeExpr
  | .path rooted segments => .path rooted (rebuildSegments single segments)
  | .reference lifetime mutable target => .reference lifetime mutable (target.rebuild single)
  | .tuple [item] => single (item.rebuild single)
  | .tuple items => .tuple (rebuildTypes single items)
  | .slice item => .slice (item.rebuild single)
  | .paren inner => inner.rebuild single
  | .other text => .other text

def Segment.rebuild (single : TypeExpr → TypeExpr) : Segment → Segment
  | .mk name none => .mk name none
  | .mk name (some args) => .mk name (some (rebuildArgs single args))

def GenericArg.rebuild (single : TypeExpr → TypeExpr) : GenericArg → GenericArg
  | .type t => .type (t.rebuild single)
  | .other text => .other text

def rebuildSegments (single : TypeExpr → TypeExpr) : List Segment → List Segment
  | [] => []
  | s :: rest => s.rebuild single :: rebuildSegments single rest

def rebuildTypes (single : TypeExpr → TypeExpr) : List TypeExpr → List TypeExpr
  | [] => []
  | t :: ts => t.rebuild single :: rebuildTypes single ts

def rebuildArgs (single : TypeExpr → TypeExpr) : List GenericArg → List GenericArg
  | [] => []
  | a :: as => a.rebuild single :: rebuildArgs single as
end

def GenericArg.mapType (f : TypeExpr → TypeExpr) : GenericArg → GenericArg
  | .type t => .type (f t)
  | .other text => .other text

def Segment.mapTypes (f : TypeExpr → TypeExpr) : Segment → Segment
  | .mk name args => .mk name (args.map (List.map (GenericArg.mapType f)))

namespace Segment

variable {f g : TypeExpr → TypeExpr}

@[simp] theorem name_mapTypes (f : TypeExpr → TypeExpr) (s : Segment) : (s.mapTypes f).name = s.name := by
  cases s
  rfl

theorem types_mapTypes (f : TypeExpr → TypeExpr) (s : Segment) : (s.mapTypes f).types = s.types.map f := by
  obtain ⟨name,_ | args⟩ := s
  · rfl
  · have held : ∀ a : GenericArg, (a.mapType f).type? = a.type?.map f := fun a => by cases a <;> rfl
    simp only [types,mapTypes,Segment.args,Option.map_some,List.filterMap_map,List.map_filterMap]
    exact congrArg (List.filterMap · args) (funext held)

theorem mapTypes_mapTypes (f g : TypeExpr → TypeExpr) (s : Segment) :
    (s.mapTypes f).mapTypes g = s.mapTypes fun t => g (f t) := by
  obtain ⟨name,_ | args⟩ := s
  · rfl
  · have twice : ∀ a : GenericArg, (a.mapType f).mapType g = a.mapType fun t => g (f t) := fun a => by cases a <;> rfl
    simp only [mapTypes,Option.map_some,List.map_map]
    exact congrArg (fun h => mk name (some (List.map h args))) (funext twice)

theorem mapTypes_congr {s : Segment} (same : ∀ t ∈ s.types, f t = g t) : s.mapTypes f = s.mapTypes g := by
  obtain ⟨name,_ | args⟩ := s
  · rfl
  · have each : args.map (GenericArg.mapType f) = args.map (GenericArg.mapType g) := by
      refine List.map_congr_left fun a member => ?_
      cases a with
      | type t => rw [GenericArg.mapType,GenericArg.mapType,same t (List.mem_filterMap.mpr ⟨_,member,rfl⟩)]
      | other text => rfl
    simp only [mapTypes,Option.map_some,each]

end Segment

section Rebuilt

variable (f : TypeExpr → TypeExpr)

theorem rebuildTypes_eq (types : List TypeExpr) : rebuildTypes f types = types.map (TypeExpr.rebuild f) := by
  induction types with
  | nil => rfl
  | cons type types ih => rw [rebuildTypes,ih,List.map_cons]

theorem rebuildArgs_eq (args : List GenericArg) :
    rebuildArgs f args = args.map (GenericArg.mapType (TypeExpr.rebuild f)) := by
  induction args with
  | nil => rfl
  | cons a args ih =>
    rw [rebuildArgs,ih,List.map_cons]
    cases a <;> rfl

theorem Segment.rebuild_eq (s : Segment) : s.rebuild f = s.mapTypes (TypeExpr.rebuild f) := by
  obtain ⟨name,_ | args⟩ := s
  · rfl
  · rw [Segment.rebuild,rebuildArgs_eq]
    rfl

theorem rebuildSegments_eq (segments : List Segment) :
    rebuildSegments f segments = segments.map (Segment.mapTypes (TypeExpr.rebuild f)) := by
  induction segments with
  | nil => rfl
  | cons s segments ih => rw [rebuildSegments,ih,Segment.rebuild_eq,List.map_cons]

end Rebuilt

namespace TypeExpr

def mapParts (f : TypeExpr → TypeExpr) : TypeExpr → TypeExpr
  | .path rooted segments => .path rooted (segments.map (Segment.mapTypes f))
  | .reference lifetime mutable target => .reference lifetime mutable (f target)
  | .tuple items => .tuple (items.map f)
  | .slice item => .slice (f item)
  | .paren inner => .paren (f inner)
  | .other text => .other text

/-- Neither a tuple of one type nor a type in parentheses. -/
structure Regular (type : TypeExpr) : Prop where
  several : ∀ item, type ≠ .tuple [item]
  bare : ∀ inner, type ≠ .paren inner

variable {f g k : TypeExpr → TypeExpr} {type : TypeExpr}

theorem parts_mapParts (f : TypeExpr → TypeExpr) (type : TypeExpr) : (type.mapParts f).parts = type.parts.map f := by
  cases type with
  | path rooted segments =>
    rw [mapParts,parts,parts,List.flatMap_map,List.map_flatMap]
    exact congrArg (List.flatMap · segments) (funext (Segment.types_mapTypes f))
  | reference lifetime mutable target => rfl
  | tuple items => rfl
  | slice item => rfl
  | paren inner => rfl
  | other text => rfl

theorem mapParts_mapParts (f g : TypeExpr → TypeExpr) (type : TypeExpr) :
    (type.mapParts f).mapParts g = type.mapParts fun t => g (f t) := by
  cases type with
  | path rooted segments =>
    rw [mapParts,mapParts,mapParts,List.map_map]
    exact congrArg (fun h => path rooted (segments.map h)) (funext (Segment.mapTypes_mapTypes f g))
  | reference lifetime mutable target => rfl
  | tuple items => rw [mapParts,mapParts,mapParts,List.map_map,Function.comp_def]
  | slice item => rfl
  | paren inner => rfl
  | other text => rfl

theorem mapParts_congr (same : ∀ part ∈ type.parts, f part = g part) : type.mapParts f = type.mapParts g := by
  cases type with
  | path rooted segments =>
    refine congrArg (path rooted) (List.map_congr_left fun s member => Segment.mapTypes_congr fun t held => ?_)
    exact same t (List.mem_flatMap.mpr ⟨s,member,held⟩)
  | reference lifetime mutable target => rw [mapParts,mapParts,same target List.mem_cons_self]
  | tuple items => exact congrArg tuple (List.map_congr_left same)
  | slice item => rw [mapParts,mapParts,same item List.mem_cons_self]
  | paren inner => rw [mapParts,mapParts,same inner List.mem_cons_self]
  | other text => rfl

theorem Regular.mapParts (regular : type.Regular) (f : TypeExpr → TypeExpr) : (type.mapParts f).Regular := by
  obtain ⟨several,bare⟩ := regular
  cases type with
  | tuple items =>
    refine ⟨fun item same => ?_,fun inner => nofun⟩
    obtain ⟨only,rfl,_⟩ := List.map_eq_singleton_iff.mp (tuple.inj same)
    exact several only rfl
  | paren inner => exact absurd rfl (bare inner)
  | path rooted segments => exact ⟨fun item => nofun,fun inner => nofun⟩
  | reference lifetime mutable target => exact ⟨fun item => nofun,fun inner => nofun⟩
  | slice item => exact ⟨fun item => nofun,fun inner => nofun⟩
  | other text => exact ⟨fun item => nofun,fun inner => nofun⟩

theorem rebuild_regular (regular : type.Regular) (f : TypeExpr → TypeExpr) :
    type.rebuild f = type.mapParts (rebuild f) := by
  obtain ⟨several,bare⟩ := regular
  cases type with
  | path rooted segments => rw [rebuild,rebuildSegments_eq,TypeExpr.mapParts]
  | tuple items =>
    rw [rebuild,rebuildTypes_eq,TypeExpr.mapParts]
    rintro item rfl
    exact several item rfl
  | paren inner => exact absurd rfl (bare inner)
  | reference lifetime mutable target => rfl
  | slice item => rfl
  | other text => rfl

theorem rebuild_path (f : TypeExpr → TypeExpr) (rooted : Bool) (segments : List Segment) :
    (path rooted segments).rebuild f = .path rooted (segments.map (Segment.mapTypes (rebuild f))) := by
  have regular : (path rooted segments).Regular := ⟨fun item => nofun,fun inner => nofun⟩
  exact rebuild_regular regular f

theorem rebuild_tuple (f : TypeExpr → TypeExpr) {items : List TypeExpr} (several : items.length ≠ 1) :
    (tuple items).rebuild f = .tuple (items.map (rebuild f)) := by
  have regular : (tuple items).Regular := by
    refine ⟨fun item same => ?_,fun inner => nofun⟩
    rw [tuple.inj same] at several
    exact several rfl
  exact rebuild_regular regular f

theorem regular_cases (type : TypeExpr) :
    (∃ item, type = .tuple [item]) ∨ (∃ inner, type = .paren inner) ∨ type.Regular := by
  by_cases single : ∃ item, type = .tuple [item]
  · exact .inl single
  · by_cases enclosed : ∃ inner, type = .paren inner
    · exact .inr (.inl enclosed)
    · exact .inr (.inr ⟨fun item same => single ⟨item,same⟩,fun inner same => enclosed ⟨inner,same⟩⟩)

/-- Types are built anew from the inside: those of a tuple, what parentheses hold, and otherwise part by part. -/
theorem rebuild_induction {motive : TypeExpr → Prop} (single : ∀ item, motive item → motive (.tuple [item]))
    (parens : ∀ inner, motive inner → motive (.paren inner))
    (regular : ∀ type : TypeExpr, type.Regular → (∀ part ∈ type.parts, motive part) → motive type)
    (type : TypeExpr) : motive type := by
  induction type using parts_induction with
  | step type ih =>
    rcases type.regular_cases with ⟨item,rfl⟩ | ⟨inner,rfl⟩ | built
    · exact single item (ih item List.mem_cons_self)
    · exact parens inner (ih inner List.mem_cons_self)
    · exact regular type built ih

theorem rebuild_rebuild (place : ∀ t, (g t).rebuild f = k (t.rebuild f)) (type : TypeExpr) :
    (type.rebuild g).rebuild f = type.rebuild k := by
  induction type using rebuild_induction with
  | single item ih => rw [rebuild,place,ih,rebuild]
  | parens inner ih => rw [rebuild,ih,rebuild]
  | regular type regular ih =>
    rw [rebuild_regular regular g,rebuild_regular (regular.mapParts _) f,rebuild_regular regular k,mapParts_mapParts]
    exact mapParts_congr ih

/-- A tuple of one type stands somewhere in the type. -/
inductive HasSingle : TypeExpr → Prop
  | here (item : TypeExpr) : HasSingle (.tuple [item])
  | inside {part type : TypeExpr} (member : part ∈ type.parts) (further : HasSingle part) : HasSingle type

/-- Where there is no tuple of one type, it does not matter what takes its place. -/
theorem rebuild_congr (f g : TypeExpr → TypeExpr) (none : ¬ type.HasSingle) : type.rebuild f = type.rebuild g := by
  induction type using rebuild_induction with
  | single item ih => exact absurd (.here item) none
  | parens inner ih => exact ih fun further => none (.inside List.mem_cons_self further)
  | regular type regular ih =>
    rw [rebuild_regular regular f,rebuild_regular regular g]
    exact mapParts_congr fun part member => ih part member fun further => none (.inside member further)

theorem not_hasSingle_rebuild (type : TypeExpr) : ¬ (type.rebuild id).HasSingle := by
  induction type using rebuild_induction with
  | single item ih => exact ih
  | parens inner ih => exact ih
  | regular type regular ih =>
    rw [rebuild_regular regular]
    intro some
    generalize same : type.mapParts (rebuild id) = built at some
    cases some with
    | here item => exact (regular.mapParts _).several item same
    | inside member further =>
      rw [← same,parts_mapParts] at member
      obtain ⟨part,held,rfl⟩ := List.mem_map.mp member
      exact ih part held further

theorem HasSingle.rebuild (some : type.HasSingle) : (type.rebuild fun item => .tuple [item]).HasSingle := by
  induction some with
  | here item => exact .here _
  | @inside part type member further ih =>
    rcases type.regular_cases with ⟨item,rfl⟩ | ⟨inner,rfl⟩ | regular
    · exact .here _
    · obtain rfl := List.mem_singleton.mp member
      exact ih
    · rw [rebuild_regular regular]
      exact .inside (parts_mapParts _ type ▸ List.mem_map_of_mem member) ih

end TypeExpr
end InlineIcons.Source
