import InlineIcons.Proofs.Pipeline.Selected

/-! The order in which files and declarations are given is of no matter, as long as no path and no identity comes
twice: what a run works on is in an order of its own. -/
namespace InlineIcons

/-- The same files and declarations in another order, no two files at one path and no two declarations of one
identity. -/
structure Inputs.Reordered (inputs other : Inputs) : Prop where
  assets : inputs.assets.Perm other.assets
  declarations : inputs.declarations.Perm other.declarations
  paths : (inputs.assets.map (·.path.components)).Nodup
  identities : (inputs.declarations.map Declaration.id).Nodup

namespace Pipeline

/-- Whatever a pipeline has in its tables, a run on reordered inputs ends in the same error or with the same report,
and it leaves the same tables. -/
theorem run_reordered (p : Pipeline) {inputs other : Inputs} (reordered : inputs.Reordered other) :
    p.run inputs = p.run other := by
  have files : AssetFile.select p.options.assetExtension inputs.assets =
      AssetFile.select p.options.assetExtension other.assets :=
    AssetFile.select_perm reordered.assets reordered.paths _
  have declarations : Declaration.select inputs.declarations = Declaration.select other.declarations :=
    Declaration.groups.select_perm reordered.declarations reordered.identities
  unfold run
  rw [files,declarations]

def rivalDeclaration (typeName : String) : Declaration where
  namespaceName := "nav"
  typeName := typeName
  directive := ⟨"kind","extras",.none⟩
  properties := [⟨"kind",.ofEnum ⟨"nav","Kind",["Home"]⟩,.none⟩,⟨"extras",.other "Extras",.none⟩]
  location := .none

/-- Two files of one identifier, two that do not load, and two definitions whose units would have one name. -/
def rivalInputs : Inputs where
  assets := [⟨⟨"b/home.svg"⟩,"<svg><g/></svg>"⟩,⟨⟨"b/user.svg"⟩,"<svg>"⟩,⟨⟨"a/home.svg"⟩,"<svg/>"⟩,⟨⟨"a/user.svg"⟩,""⟩]
  declarations := [rivalDeclaration "Icon",rivalDeclaration "ICON"]

def rivalInputsReversed : Inputs := ⟨rivalInputs.assets.reverse,rivalInputs.declarations.reverse⟩

theorem run_rivalInputs : rivalInputs.Reordered rivalInputsReversed ∧
    ((new .standard).runAll [rivalInputs]).run rivalInputs =
      ((new .standard).runAll [rivalInputs]).run rivalInputsReversed := by
  have reordered : rivalInputs.Reordered rivalInputsReversed := by
    refine ⟨(List.reverse_perm _).symm,(List.reverse_perm _).symm,?_,?_⟩
    · decide +kernel
    · decide +kernel
  exact ⟨reordered,run_reordered _ reordered⟩

end Pipeline
end InlineIcons
