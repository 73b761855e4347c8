import InlineIcons.Proofs.Identifier
import InlineIcons.Proofs.Markup.Accepted

/-! Which contents are icons: documents with one outermost element. What is lost of a content on the way to its
canonical text is no matter here, and neither is the spelling of names, which a reader never looks at. -/
namespace InlineIcons.Asset

open Markup

variable {path : Path} {stem : String} {content : String}

/-- Under a file name in kebab case, the contents that are loaded are the documents with one outermost element, and
those refused for want of a root are the documents without an element. -/
theorem load_accepts (file : path.fileStem? = some stem) (kebab : Stem.IsKebab stem) :
    ((∃ a, load path content = .ok a) ↔ IsDocument 1 content.toList) ∧
    ∀ other, load path content = .error (.noRoot other) ↔ other = path ∧ IsDocument 0 content.toList := by
  have named : Stem.toIdentifier (path.fileStem?.getD "") =
      .ok (String.ofList ((Stem.segments stem).flatMap Stem.capitalize)) := by
    rw [file]
    exact Stem.toIdentifier_of_kebab kebab
  rw [← Root.exists_ofContent_iff,← Root.ofContent_noRoot_iff]
  unfold load
  simp only [named]
  cases Root.ofContent content.toList with
  | ok root => simp
  | error fault => cases fault <;> simp [AssetError.ofFault,eq_comm]

/-- A document type and a comment around a root with a namespace, and in it an instruction, an element without
content, and one whose tags go on past a `>` between quotes, around a reference. -/
def nestedContent : String :=
  "<!DOCTYPE g><s:g xmlns:s='&'><?p?><a b='&lt;'/><b\"a>b\">&#65;</b\"a>b\" ></s:g >\n<!---->"

def bareContent : String := " <!---->"

def doubleContent : String := "<g/><g></g>"

theorem load_nested : (⟨"icons/arrow-up.svg"⟩ : Path).fileStem? = some "arrow-up" ∧ Stem.IsKebab "arrow-up" ∧
    IsDocument 1 nestedContent.toList ∧ IsDocument 0 bareContent.toList ∧ ¬ IsDocument 1 doubleContent.toList := by
  have file : (⟨"icons/arrow-up.svg"⟩ : Path).fileStem? = some "arrow-up" := by decide +kernel
  have kebab : Stem.IsKebab "arrow-up" := by decide +kernel
  have nested : load ⟨"icons/arrow-up.svg"⟩ nestedContent =
      .ok ⟨"ArrowUp",[],"<a b=\"&lt;\"/><b\"a>b\">A</b\"a>b\">"⟩ := by decide +kernel
  have bare : load ⟨"icons/arrow-up.svg"⟩ bareContent = .error (.noRoot ⟨"icons/arrow-up.svg"⟩) := by decide +kernel
  have double : load ⟨"icons/arrow-up.svg"⟩ doubleContent = .error (.outsideRoot ⟨"icons/arrow-up.svg"⟩) := by
    decide +kernel
  refine ⟨file,kebab,(load_accepts file kebab).1.mp ⟨_,nested⟩,(((load_accepts file kebab).2 _).mp bare).2,?_⟩
  intro document
  obtain ⟨a,loaded⟩ := (load_accepts file kebab).1.mpr document
  cases double.symm.trans loaded

end InlineIcons.Asset
