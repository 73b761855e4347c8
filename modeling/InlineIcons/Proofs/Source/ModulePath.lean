import InlineIcons.Proofs.Path
import InlineIcons.Proofs.Source.PathText
import InlineIcons.Source.ModulePath

/-! Which source files hold the same module. -/
namespace InlineIcons.Source

/-- A name that a folder or a file can share with a module: no character of it ends a piece of a path, an extension or
a segment. -/
structure IsModuleName (name : String) : Prop where
  segment : IsSegment name
  slash : '/' ∉ name.toList
  dot : '.' ∉ name.toList

instance (name : String) : Decidable (IsModuleName name) :=
  decidable_of_iff (IsSegment name ∧ '/' ∉ name.toList ∧ '.' ∉ name.toList)
    ⟨fun ⟨segment,slash,dot⟩ => ⟨segment,slash,dot⟩,fun name => ⟨name.segment,name.slash,name.dot⟩⟩

theorem IsModuleName.of_word {name : String} (filled : name ≠ "")
    (whole : Text.wordLength name.toList = name.toList.length) : IsModuleName name := by
  have none {d : Char} (starts : Text.isWordStart d = false) (continues : Text.isWordContinue d = false) :
      d ∉ name.toList := by
    have outside : d ∉ name.toList.take (Text.wordLength name.toList) := IsSegment.not_mem_word starts continues
    simpa [whole] using outside
  exact ⟨⟨by simpa using filled,none (by decide) (by decide)⟩,none (by decide) (by decide),none (by decide) (by decide)⟩

/-- A source file by the folders it is in and its stem. -/
@[ext]
structure SourceFile where
  folders : List String
  stem : String

namespace SourceFile

def path (f : SourceFile) : Path := ⟨"/".intercalate (f.folders ++ [f.stem ++ ".rs"])⟩

/-- Folders and stem are named like modules. No folder is named by the keyword `mod`. -/
structure Named (f : SourceFile) : Prop where
  folders : ∀ n ∈ f.folders, IsModuleName n ∧ n ≠ "mod"
  stem : IsModuleName f.stem

def IsCrateRoot (f : SourceFile) : Prop := f.folders = [] ∧ (f.stem = "lib" ∨ f.stem = "main")

instance (f : SourceFile) : Decidable f.IsCrateRoot := inferInstanceAs (Decidable (_ ∧ (_ ∨ _)))

/-- The modules that lead to the file, itself among them unless it stands for its folder or for the crate. -/
def modules (f : SourceFile) : List String :=
  f.folders ++ if f.IsCrateRoot ∨ f.stem = "mod" then [] else [f.stem]

variable {f g : SourceFile}

theorem components_path (named : f.Named) :
    f.path.components = (f.folders ++ [f.stem ++ ".rs"]).map fun n => .name n.toList := by
  have text : f.path = ⟨Place.text ((f.folders ++ [f.stem ++ ".rs"]).map String.toList)⟩ := by
    have slash : ("/" : String).toList = ['/'] := rfl
    rw [path,Place.text,← slash,← String.toList_intercalate,String.ofList_toList]
  have entry {name : List Char} (filled : name ≠ []) (single : '/' ∉ name) (dots : ∃ c ∈ name, c ≠ '.') : IsEntry name := by
    obtain ⟨c,member,other⟩ := dots
    refine ⟨filled,single,?_,?_⟩
    · rintro rfl
      exact other (List.mem_singleton.mp member)
    · rintro rfl
      simp [other] at member
  have entries : ∀ n ∈ (f.folders ++ [f.stem ++ ".rs"]).map String.toList, IsEntry n := by
    simp only [List.map_append,List.mem_append,List.mem_map,List.map_cons,List.map_nil,List.mem_singleton]
    rintro _ (⟨n,member,rfl⟩ | rfl)
    · obtain ⟨name,_⟩ := named.folders n member
      obtain ⟨c,inside⟩ := List.exists_mem_of_ne_nil _ name.segment.filled
      exact entry name.segment.filled name.slash ⟨c,inside,fun dot => name.dot (dot ▸ inside)⟩
    · exact entry (by simp) (by simp [named.stem.slash]) ⟨'r',by simp,by decide⟩
  rw [text,Path.components_text entries,List.map_map]
  rfl

theorem names_path (named : f.Named) : f.path.names = f.folders ++ [f.stem ++ ".rs"] := by
  rw [Path.names,components_path named,List.filterMap_map]
  simp

theorem fileStem?_file (named : f.Named) : (⟨f.stem ++ ".rs"⟩ : Path).fileStem? = some f.stem := by
  have alone : SourceFile.Named ⟨[],f.stem⟩ := ⟨by simp,named.stem⟩
  have components : (⟨f.stem ++ ".rs"⟩ : Path).components = [.name (f.stem ++ ".rs").toList] := by
    simpa [path] using components_path alone
  have cut : Path.cutExtension (f.stem.toList ++ '.' :: ['r','s']) = _ :=
    Path.cutExtension_append named.stem.segment.filled (by decide)
  simp [Path.fileStem?,Path.fileName?,components,cut]

theorem modulePath_path (named : f.Named) : f.path.modulePath = EnumTable.pathText f.modules := by
  have stands : (f.folders.reverse.isEmpty && (f.stem == "lib" || f.stem == "main") || f.stem == "mod") ↔
      f.IsCrateRoot ∨ f.stem = "mod" := by
    simp [IsCrateRoot]
  unfold Path.modulePath
  rw [names_path named,List.reverse_concat]
  simp only [fileStem?_file named,Option.getD_some,List.reverse_reverse,modules,EnumTable.pathText,stands]

theorem isSegment_of_mem_modules (named : f.Named) : ∀ n ∈ f.modules, IsSegment n := by
  intro n member
  rcases List.mem_append.mp member with member | member
  · exact (named.folders n member).1.segment
  · split at member
    · simp at member
    · exact List.mem_singleton.mp member ▸ named.stem.segment

/-- The files of one module: one file, a file beside the folder of its name and `mod.rs` in that folder, or two of the
files that stand for the crate. -/
theorem modulePath_eq_iff (named : f.Named) (named' : g.Named) : f.path.modulePath = g.path.modulePath ↔
    f = g ∨ (g.folders = f.folders ++ [f.stem] ∧ g.stem = "mod" ∧ ¬f.IsCrateRoot) ∨
      (f.folders = g.folders ++ [g.stem] ∧ f.stem = "mod" ∧ ¬g.IsCrateRoot) ∨
      (f.folders = [] ∧ g.folders = [] ∧ f.stem ∈ ["lib","main","mod"] ∧ g.stem ∈ ["lib","main","mod"]) := by
  rw [modulePath_path named,modulePath_path named',
    EnumTable.pathText_inj (isSegment_of_mem_modules named) (isSegment_of_mem_modules named')]
  -- A file that stands for its folder shares a module with the file beside the folder; two files that both do, or both
  -- do not, are in one folder.
  unfold modules
  constructor
  · intro same
    split at same <;> split at same
    · next stands stands' =>
      rw [List.append_nil,List.append_nil] at same
      by_cases top : f.folders = []
      · have top' : g.folders = [] := same ▸ top
        exact .inr (.inr (.inr ⟨top,top',by simpa [IsCrateRoot,top,or_assoc] using stands,
          by simpa [IsCrateRoot,top',or_assoc] using stands'⟩))
      · have file : f.stem = "mod" := stands.resolve_left fun root => top root.1
        have file' : g.stem = "mod" := stands'.resolve_left fun root => top (same.trans root.1)
        exact .inl (SourceFile.ext same (file.trans file'.symm))
    · next stands kept =>
      rw [List.append_nil] at same
      have file : f.stem = "mod" := stands.resolve_left fun root => by simp [root.1] at same
      exact .inr (.inr (.inl ⟨same,file,fun root => kept (.inl root)⟩))
    · next kept stands =>
      rw [List.append_nil] at same
      have file : g.stem = "mod" := stands.resolve_left fun root => by simp [root.1] at same
      exact .inr (.inl ⟨same.symm,file,fun root => kept (.inl root)⟩)
    · obtain ⟨folders,stems⟩ := List.append_singleton_inj.mp same
      exact .inl (SourceFile.ext folders stems)
  · rintro (rfl | ⟨below,file,other⟩ | ⟨below,file,other⟩ | ⟨top,top',stem,stem'⟩)
    · rfl
    · have plain : f.stem ≠ "mod" := (named'.folders _ (by simp [below])).2
      rw [if_neg (by simp [other,plain]),if_pos (.inr file),List.append_nil,below]
    · have plain : g.stem ≠ "mod" := (named.folders _ (by simp [below])).2
      rw [if_pos (.inr file),if_neg (by simp [other,plain]),List.append_nil,below]
    · have stands : f.IsCrateRoot ∨ f.stem = "mod" := by simpa [IsCrateRoot,top,or_assoc] using stem
      have stands' : g.IsCrateRoot ∨ g.stem = "mod" := by simpa [IsCrateRoot,top',or_assoc] using stem'
      rw [if_pos stands,if_pos stands',top,top']

/-- `shared.rs` and `shared/mod.rs` hold one module; `lib.rs` and `lib/mod.rs` do not. -/
theorem modulePath_shared_lib : (∀ stem ∈ ["shared","lib"], Named ⟨[],stem⟩ ∧ Named ⟨[stem],"mod"⟩) ∧
    (⟨[],"shared"⟩ : SourceFile).path.modulePath = (⟨["shared"],"mod"⟩ : SourceFile).path.modulePath ∧
    (⟨[],"lib"⟩ : SourceFile).path.modulePath ≠ (⟨["lib"],"mod"⟩ : SourceFile).path.modulePath := by
  have word : IsModuleName "mod" := .of_word (by decide) (by decide)
  have named : ∀ stem ∈ ["shared","lib"], Named ⟨[],stem⟩ ∧ Named ⟨[stem],"mod"⟩ := by
    have names : ∀ stem ∈ ["shared","lib"], IsModuleName stem ∧ stem ≠ "mod" := by decide
    refine fun stem member => ⟨⟨by simp,(names stem member).1⟩,⟨fun n folder => ?_,word⟩⟩
    exact List.mem_singleton.mp folder ▸ names stem member
  obtain ⟨shared,sharedModule⟩ := named "shared" (by simp)
  obtain ⟨lib,libModule⟩ := named "lib" (by simp)
  refine ⟨named,(modulePath_eq_iff shared sharedModule).mpr (.inr (.inl ?_)),(modulePath_eq_iff lib libModule).not.mpr ?_⟩
  · simp [IsCrateRoot]
  · simp [IsCrateRoot]

end SourceFile
end InlineIcons.Source
