import InlineIcons.Source.Attribute
import InlineIcons.Source.TypeExpr.Basic

/-!
Items of a source file, as far as they matter here: structs, enums and inline modules.
-/
namespace InlineIcons.Source

/-- A field of a struct; one without a name is known by its place in the order. -/
structure Field where
  name : Option String
  type : TypeExpr
  /-- The place of the name, or of the type where there is none. -/
  place : Position

structure StructItem where
  attributes : List Attribute
  name : String
  place : Position
  /-- Whether it has parameters. -/
  generic : Bool
  fields : List Field

structure Variant where
  name : String
  /-- Whether it holds data, be it nothing in brackets. -/
  hasData : Bool

structure EnumItem where
  name : String
  variants : List Variant

inductive Item where
  | struct (s : StructItem)
  | enum (e : EnumItem)
  /-- A module with its items in place. -/
  | nested (name : String) (items : List Item)
  | other

end InlineIcons.Source
