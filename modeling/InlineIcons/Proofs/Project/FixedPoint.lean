import InlineIcons.Proofs.Pipeline.Skipped
import InlineIcons.Proofs.Program.Writer
import InlineIcons.Proofs.Project

/-! Which generation is a fixed point. Where the scans do not reach the output folder it is one as soon as the units
differ in name. Where they do, what a written unit can change is what its own text declares: a unit that declares no
enum and no component is read again without effect. -/
namespace InlineIcons

theorem flatMap_filter {α β γ : Type} {counts : α → Bool} {r : α → Option β} {part : β → List γ}
    (silent : ∀ a b, counts a = false → r a = some b → part b = []) (l : List α) :
    ((l.filter counts).filterMap r).flatMap part = (l.filterMap r).flatMap part := by
  induction l with
  | nil => rfl
  | cons a l ih =>
    cases counted : counts a with
    | true =>
      rw [List.filter_cons_of_pos counted]
      cases read : r a <;> simp [read,ih]
    | false =>
      rw [List.filter_cons_of_neg (by simp [counted]),ih]
      cases read : r a with
      | none => simp [read]
      | some b => simp [read,silent a b counted read]

namespace Source

/-- An item in which neither an enum nor a component is found. -/
def Item.silent (directive : String) : Item → Bool
  | .struct item => (item.attributes.find? fun a => a.lastName? == some directive).isNone
  | .enum _ | .nested _ _ => false
  | .other => true

theorem Search.ofItems_silent {s : Search} {items : List Item} (silent : ∀ item ∈ items, item.silent s.directive = true)
    (namespaceName : String) : s.ofItems namespaceName items = .none := by
  induction items with
  | nil => rfl
  | cons item items ih =>
    obtain ⟨first,rest⟩ := List.forall_mem_cons.mp silent
    have none : s.ofItem namespaceName item = .none := by
      cases item with
      | struct item =>
        have unmarked : s.attribute? item = Option.none := Option.isNone_iff_eq_none.mp first
        rw [ofItem,ofStruct,unmarked]
      | enum e => cases first
      | nested name items => cases first
      | other => rfl
    rw [ofItems,none,ih rest]
    rfl

namespace CrateFindings

def declares (directive : String) (f : TextFile) : Bool :=
  match ofFile directive f with
  | .ok found => !(found.enums.isEmpty && found.components.isEmpty)
  | .error _ => false

theorem declarations_filter (directive : String) (files : List TextFile) :
    (ofFiles directive (files.filter (declares directive))).declarations = (ofFiles directive files).declarations := by
  have silent : ∀ f found, declares directive f = false → (ofFile directive f).toOption = some found →
      found.enums = [] ∧ found.components = [] := by
    intro f found none read
    simpa [declares,toOption_eq_some.mp read] using none
  have enums := flatMap_filter (fun f found none read => (silent f found none read).1) files
  have components := flatMap_filter (fun f found none read => (silent f found none read).2) files
  have read : Except.toOption ∘ ofFile directive = fun f => (ofFile directive f).toOption := rfl
  unfold ofFiles
  simp only [List.filterMap_map,read,enums,components]

/-- Steps whose text can be read and declares nothing. -/
def silentSteps (directive : String) (steps : List Step) : Bool :=
  (CodeWriter.chars? 0 steps).any fun cs => (Item.ofChars? cs).toOption.any fun items => items.all (·.silent directive)

theorem declares_written {directive : String} {steps : List Step} {f : TextFile} (silent : silentSteps directive steps = true)
    (text : f.text = CodeWriter.write steps) : declares directive f = false := by
  unfold silentSteps at silent
  obtain ⟨cs,written,silent⟩ := (Option.any_eq_true ..).mp silent
  obtain ⟨items,read,silent⟩ := (Option.any_eq_true ..).mp silent
  have items : ofFile directive f = .ok .none := by
    rw [ofFile,Search.ofText,Item.ofText?,text,CodeWriter.toList_write written,toOption_eq_some.mp read]
    exact congrArg Except.ok (Search.ofItems_silent (List.all_eq_true.mp silent) _)
  rw [declares,items]
  rfl

end CrateFindings
end Source

namespace Scan

theorem byPath_trans (a b c : TextFile) (first : byPath a b = true) (second : byPath b c = true) :
    byPath a c = true := Path.isLE_cmp_trans first second

theorem byPath_total (a b : TextFile) : (byPath a b || byPath b a) = true := Path.isLE_cmp_total ..

theorem filter_mergeSort {own more : List TextFile} (counts : TextFile → Bool) (sorted : own.mergeSort byPath = own)
    (silent : ∀ f ∈ more, counts f = false) :
    ((own ++ more).mergeSort byPath).filter counts = own.filter counts := by
  have ordered : own.Pairwise (byPath · ·) := by
    have pairs := List.pairwise_mergeSort byPath_trans byPath_total own
    rwa [sorted] at pairs
  have inside : own.Sublist ((own ++ more).mergeSort byPath) :=
    List.sublist_mergeSort byPath_trans byPath_total ordered (List.sublist_append_left own more)
  have none : more.filter counts = [] := List.filter_eq_nil_iff.mpr fun f member => by simp [silent f member]
  have perm := (List.mergeSort_perm (own ++ more) byPath).filter counts
  rw [List.filter_append,none,List.append_nil] at perm
  exact ((inside.filter counts).eq_of_length perm.length_eq.symm).symm

variable {s : Scan} {t : FileTree} {dir : Path} {folder : Place} {units : List SourceUnit} {own : List TextFile}

theorem exists_unit_of_mem_unitFiles {root : Place} {f : TextFile} (member : f ∈ s.unitFiles t root folder units) :
    ∃ u ∈ units, f.text = u.source := by
  obtain ⟨u,listed,made⟩ := List.mem_filterMap.mp member
  obtain ⟨below,_,rfl⟩ := Option.map_eq_some_iff.mp made
  exact ⟨u,listed,rfl⟩

theorem mergeSort_of_filesOrNone (formed : t.WellFormed) (stands : t.node? folder = some .folder)
    (found : s.filesOrNone t = .ok own) : own.mergeSort byPath = own := by
  obtain ⟨root,_,reached,_⟩ := root_of_filesOrNone found
  have again := filesOrNone_filled (.refl formed stands) nofun .nil s
  rw [filesWith,reached,found] at again
  simpa [unitFiles,bind,Except.bind,pure,Except.pure,Except.toOption,eq_comm] using again

/-- Where none of the units stand and no other generated file does, a scan finds its own files and the units. -/
theorem filesWith_fresh (leads : t.Leads dir folder) (formed : t.WellFormed)
    (named : ∀ u ∈ units, UnitName u.hintName) (absent : ∀ u ∈ units, t.node? (u.place folder) = none)
    (fresh : t.stale dir [] = []) (found : s.filesOrNone t = .ok own) :
    ∃ root, t.reach s.root = .ok root ∧ s.filesWith (t.cleared dir folder units) folder units =
      .ok ((own ++ s.unitFiles t root folder units).mergeSort byPath) := by
  have free : ∀ u ∈ units, t.node? (u.place folder) ≠ some .folder := fun u member => by simp [absent u member]
  have alike := leads.cleared_alike formed named free
  have clean := (FileTree.cleared_wellFormed leads formed free).1
  have same := FileTree.node?_cleared_of_fresh leads formed absent fresh
  obtain ⟨root,node,reached,held,_⟩ := root_of_filesOrNone found
  rw [filesOrNone_of_alike alike.rules formed clean fun _ _ _ => (same _).symm] at found
  have any : units.any (·.place folder = root) = false := by
    rw [List.any_eq_false]
    intro u member unit
    rw [← of_decide_eq_true unit,absent u member] at held
    cases held
  have files : s.unitFiles (t.cleared dir folder units) root folder units = s.unitFiles t root folder units := by
    have below : s.unitBelow? (t.cleared dir folder units) root folder = s.unitBelow? t root folder := by
      funext u
      simp only [unitBelow?,alike.rules.counts s.git]
    rw [unitFiles,unitFiles,below]
  refine ⟨root,reached,?_⟩
  rw [filesWith,alike.rules.reach_ok.mp reached]
  simp only [any,found,files]
  rfl

end Scan

namespace Project

open Source

variable {s : Settings} {t t' : FileTree} {g : Generated} {folder : Place} {units : List SourceUnit}

/-- After the first generation into a folder a run reads what it read before, if none of the units is read as an
icon and none that is read as a source declares an enum or a component. -/
theorem rereads_of_silent {inputs : Inputs} (formed : t.WellFormed) (leads : t.Leads s.output.dir folder)
    (named : ∀ u ∈ units, UnitName u.hintName) (absent : ∀ u ∈ units, t.node? (u.place folder) = none)
    (fresh : t.stale s.output.dir [] = [])
    (assets : ∀ root, t.reach s.input.assets = .ok root →
      (Scan.withExtension s.input.assets s.input.assetExtension).unitFiles t root folder units = [])
    (sources : ∀ scan root, sourceScan s = .ok scan → t.reach scan.root = .ok root →
      ∀ f ∈ scan.unitFiles t root folder units, CrateFindings.declares s.input.directive f = false)
    (collected : (collect s t).toOption.map ProjectInputs.inputs = some inputs) : rereads s t units = some inputs := by
  simp only [collect_toOption,Option.bind_eq_bind,Option.bind_eq_some_iff,toOption_eq_some] at collected
  obtain ⟨icons,foundIcons,scan,chosen,own,foundOwn,same⟩ := collected
  obtain ⟨iconRoot,reachedIcons,again⟩ := Scan.filesWith_fresh leads formed named absent fresh foundIcons
  obtain ⟨root,reached,again'⟩ := Scan.filesWith_fresh leads formed named absent fresh foundOwn
  have sorted := Scan.mergeSort_of_filesOrNone formed leads.stands foundOwn
  rw [assets iconRoot reachedIcons,List.append_nil,Scan.mergeSort_of_filesOrNone formed leads.stands foundIcons] at again
  have silent := Scan.filter_mergeSort (CrateFindings.declares s.input.directive) sorted (sources scan root chosen reached)
  have declarations := CrateFindings.declarations_filter s.input.directive own
  rw [← silent,CrateFindings.declarations_filter] at declarations
  rw [← same,rereads_eq (leads.withFolder.symm ▸ leads),leads.withFolder,inputsWith]
  simp only [again,again',chosen,Except.toOption,Option.bind_eq_bind,Option.bind_some,inputsOf,declarations]

/-- A new run on what was written gives the same units, and so finds nothing out of date and nothing to write,
exactly where the units differ in name and a run gives them again when they stand among the other files that
are read. -/
theorem fixedPoint_iff {files : List WriteResult} (formed : t.WellFormed)
    (generated : ((new s).generate t).1 = .ok g) (plain : ∀ u ∈ g.report.units, '/' ∉ u.hintName.toList)
    (written : t.writeOutput false s.output.dir g.report.units = (t',.ok files)) :
    FixedPoint s t' g.report.units ↔ (g.report.units.map SourceUnit.hintName).Nodup ∧
      ∃ inputs report, rereads s t g.report.units = some inputs ∧
        ((Pipeline.new s.pipelineOptions).run inputs).1 = .ok report ∧ report.units = g.report.units := by
  obtain ⟨nonempty,named⟩ := named_of_plain generated plain
  constructor
  · rintro ⟨same,current,_⟩
    have distinct := nodup_of_held generated (FileTree.outOfDate_eq_nil.mp (outOfDate_of_validate current same)).1
    exact ⟨distinct,(again_iff formed nonempty named distinct written).mp same⟩
  · rintro ⟨distinct,again⟩
    exact fixedPoint_of_again formed nonempty named distinct written again

def outputTo (dir : String) : Settings :=
  { Settings.standard with output := { Settings.standard.output with dir := ⟨dir⟩ } }

/-- A component over an enum, an icon for its member, and two folders for output, one of them below the sources. -/
def twoFolders : FileTree :=
  ⟨[(["assets".toList],.folder),(["assets".toList,"home.svg".toList],.file (Text.utf8 "<svg/>")),
    (["generated".toList],.folder),(["src".toList],.folder),
    (["src".toList,"lib.rs".toList],.file (Text.utf8
      "enum Kind { Home }\n#[generate_svg(kind, rest)]\nstruct Icon { kind: Kind, rest: Map }")),
    (["src".toList,"generated".toList],.folder)],by decide⟩

def foldersInputs : Inputs where
  assets := [⟨⟨"./assets/home.svg"⟩,"<svg/>"⟩]
  declarations := [⟨"","Icon",⟨"kind","rest",⟨⟨"./src/lib.rs"⟩,2,1⟩⟩,
    [⟨"kind",.ofEnum ⟨"","Kind",["Home"]⟩,⟨⟨"./src/lib.rs"⟩,3,15⟩⟩,⟨"rest",.other "Map",⟨⟨"./src/lib.rs"⟩,3,27⟩⟩],
    ⟨⟨"./src/lib.rs"⟩,3,8⟩⟩]

theorem collect_twoFolders (dir : String) :
    (collect (outputTo dir) twoFolders).toOption.map ProjectInputs.inputs = some foldersInputs := by
  have parts : (collect .standard twoFolders).toOption.map (fun found => (found.inputs.assets,found.inputs.declarations)) =
      some (foldersInputs.assets,foldersInputs.declarations) := by decide +kernel
  show (collect .standard twoFolders).toOption.map ProjectInputs.inputs = _
  obtain ⟨found,read,same⟩ := Option.map_eq_some_iff.mp parts
  obtain ⟨assets,declarations⟩ := Prod.mk.inj same
  have inputs : found.inputs = foldersInputs := by
    rw [foldersInputs,Inputs.mk.injEq]
    exact ⟨assets,declarations⟩
  rw [read,Option.map_some,inputs]

def kindIcon : Definition where
  namespaceName := ""
  typeName := "Icon"
  kindProperty := "kind"
  extrasProperty := "rest"
  extrasOptional := false
  enum := ⟨"","Kind",["Home"]⟩
  members := ["Home"]
  directiveLocation := ⟨⟨"./src/lib.rs"⟩,2,1⟩

def kindSteps : List Step := kindIcon.steps (.ofList [⟨"Home",[],""⟩]) .standard

def foldersUnits : List SourceUnit :=
  [SourceUnit.directive,⟨"icon.g.rs",CodeWriter.write kindSteps⟩,
    SourceUnit.index ["generate_svg_attribute.g.rs","icon.g.rs"]]

theorem run_foldersInputs (dir : String) : ∃ report,
    ((Pipeline.new (outputTo dir).pipelineOptions).run foldersInputs).1 = .ok report ∧ report.units = foldersUnits := by
  have ran : ((Pipeline.new (outputTo dir).pipelineOptions).run foldersInputs).1 = .ok _ :=
    Pipeline.run_lenient rfl foldersInputs
  refine ⟨_,ran,?_⟩
  have files : AssetFile.select "svg" foldersInputs.assets = foldersInputs.assets :=
    AssetFile.select_eq_self (by decide +kernel) (by decide +kernel)
  have declarations : Declaration.select foldersInputs.declarations = foldersInputs.declarations :=
    Declaration.groups.select_eq_self (by decide +kernel)
  have icons : (Collected.ofFiles foldersInputs.assets).providers.map Provider.asset = [⟨"Home",[],""⟩] := by
    decide +kernel
  have collected : Collected.ofFiles (AssetFile.select (outputTo dir).pipelineOptions.assetExtension foldersInputs.assets) =
      Collected.ofFiles foldersInputs.assets := congrArg Collected.ofFiles files
  have analyzed : foldersInputs.declarations.map Declaration.analyze = [⟨⟨"Icon"⟩,some kindIcon,[]⟩] := by decide +kernel
  have hint : SourceUnit.definitionHint kindIcon.id = "icon.g.rs" := by decide +kernel
  rw [collected,Pipeline.report,Pipeline.fixedUnits_new,Pipeline.named,Pipeline.generated_new,declarations,
    Collected.index,icons]
  show Pipeline.assemble [SourceUnit.directive] (HintNames.assign none
    (foldersInputs.declarations.map fun d => d.analyze.generate (.ofList [⟨"Home",[],""⟩]) .standard)) = _
  have generated : foldersInputs.declarations.map (fun d => d.analyze.generate (.ofList [⟨"Home",[],""⟩]) .standard) =
      [⟨⟨"Icon"⟩,"icon.g.rs",some (CodeWriter.write kindSteps),[]⟩] := by
    have each := congrArg (List.map (Analysis.generate · (.ofList [⟨"Home",[],""⟩]) .standard)) analyzed
    rw [List.map_map] at each
    refine each.trans ?_
    show [kindIcon.generate (.ofList [⟨"Home",[],""⟩]) .standard] = _
    rw [Definition.generate,hint]
    rfl
  have named : HintNames.assign none [⟨⟨"Icon"⟩,"icon.g.rs",some (CodeWriter.write kindSteps),[]⟩] =
      [⟨⟨"Icon"⟩,"icon.g.rs",some (CodeWriter.write kindSteps),[]⟩] := rfl
  rw [generated,named,Pipeline.assemble]
  simp [GenerationResult.unit?,foldersUnits,SourceUnit.directive,SourceUnit.directiveHint]

/-- None of the units declares anything, so it does not matter whether they are read again. -/
theorem silent_foldersUnits : ∀ u ∈ foldersUnits, ∃ steps, CrateFindings.silentSteps "generate_svg" steps = true ∧
    u.source = CodeWriter.write steps := by
  have silent : ∀ steps ∈ [SourceUnit.directiveSteps,kindSteps,
      SourceUnit.indexSteps ["generate_svg_attribute.g.rs","icon.g.rs"]],
      CrateFindings.silentSteps "generate_svg" steps = true := by decide +kernel
  rw [List.forall_mem_cons,List.forall_mem_cons,List.forall_mem_singleton] at silent
  obtain ⟨directive,icon,index⟩ := silent
  rw [foldersUnits,List.forall_mem_cons,List.forall_mem_cons,List.forall_mem_singleton]
  exact ⟨⟨_,directive,rfl⟩,⟨_,icon,rfl⟩,⟨_,index,rfl⟩⟩

theorem named_foldersUnits : ∀ u ∈ foldersUnits, UnitName u.hintName := by
  have names : ∀ u ∈ foldersUnits, '/' ∉ u.hintName.toList ∧ FileTree.isGenerated u.hintName.toList = true := by
    decide +kernel
  exact fun u member => ⟨(names u member).1,(names u member).2⟩

/-- The folder stands, none of the units does, and a run reads the same again. -/
structure Stands (dir : String) (folder : Place) : Prop where
  leads : twoFolders.Leads ⟨dir⟩ folder
  absent : ∀ u ∈ foldersUnits, twoFolders.node? (u.place folder) = none
  again : rereads (outputTo dir) twoFolders foldersUnits = some foldersInputs

theorem formed_twoFolders : twoFolders.WellFormed := by constructor <;> decide

theorem stands_outside : Stands "./generated" ["generated".toList] := by
  have leads : twoFolders.Leads ⟨"./generated"⟩ ["generated".toList] := ⟨by decide,rfl,rfl⟩
  have absent : ∀ u ∈ foldersUnits, twoFolders.node? (u.place ["generated".toList]) = none := by decide +kernel
  have avoids {p : Path} {n : List Char} (reached : twoFolders.reach p = .ok [n]) (apart : n ≠ "generated".toList) :
      Scan.Avoids twoFolders p ["generated".toList] := by
    intro root reached' name marked above
    obtain rfl := Except.ok.inj (reached.symm.trans reached')
    exact apart (List.cons_prefix_cons.mp above).1
  have again := rereads_of_avoids (s := outputTo "./generated") leads formed_twoFolders named_foldersUnits
    (fun u member => by rw [absent u member]; nofun) (avoids (n := "assets".toList) rfl (by decide))
    (avoids (n := "src".toList) rfl (by decide))
  exact ⟨leads,absent,again.trans (collect_twoFolders _)⟩

theorem stands_below : Stands "./src/generated" ["src".toList,"generated".toList] := by
  have leads : twoFolders.Leads ⟨"./src/generated"⟩ ["src".toList,"generated".toList] := ⟨by decide,rfl,rfl⟩
  have absent : ∀ u ∈ foldersUnits, twoFolders.node? (u.place ["src".toList,"generated".toList]) = none := by
    decide +kernel
  refine ⟨leads,absent,rereads_of_silent formed_twoFolders leads named_foldersUnits absent (by decide +kernel) ?_ ?_
    (collect_twoFolders _)⟩
  · intro root reached
    have there : twoFolders.reach ⟨"./assets"⟩ = .ok ["assets".toList] := rfl
    obtain rfl := Except.ok.inj (there.symm.trans reached)
    exact List.filterMap_eq_nil_iff.mpr fun u _ => rfl
  · intro scan root _ _ f member
    obtain ⟨u,listed,text⟩ := Scan.exists_unit_of_mem_unitFiles member
    obtain ⟨steps,silent,written⟩ := silent_foldersUnits u listed
    exact CrateFindings.declares_written silent (text.trans written)

/-- What is written into a folder, a component's unit among it, generates itself again. -/
def Regenerates (dir : String) : Prop :=
  ∃ g t' files, ((new (outputTo dir)).generate twoFolders).1 = .ok g ∧
    twoFolders.writeOutput false ⟨dir⟩ g.report.units = (t',.ok files) ∧
    "icon.g.rs" ∈ g.report.units.map SourceUnit.hintName ∧ FixedPoint (outputTo dir) t' g.report.units

theorem fixedPoint_twoFolders : Regenerates "./generated" ∧ Regenerates "./src/generated" := by
  have named := named_foldersUnits
  have distinct : (foldersUnits.map SourceUnit.hintName).Nodup := by decide +kernel
  have component : "icon.g.rs" ∈ foldersUnits.map SourceUnit.hintName := by decide +kernel
  have fixed {dir : String} {folder : Place} (stands : Stands dir folder) : Regenerates dir := by
    obtain ⟨leads,absent,again⟩ := stands
    obtain ⟨report,ran,same⟩ := run_foldersInputs dir
    obtain ⟨g,generated,units⟩ := generate_units_iff.mpr ⟨_,report,collect_twoFolders dir,ran,same⟩
    obtain ⟨t',files,written⟩ := leads.writeOutput named fun u member => by simp [absent u member]
    rw [← units] at written again component distinct named same
    exact ⟨g,t',files,generated,written,component,(fixedPoint_iff formed_twoFolders generated
      (fun u member => (named u member).single) written).mpr ⟨distinct,_,report,again,ran,same⟩⟩
  exact ⟨fixed stands_outside,fixed stands_below⟩

end Project
end InlineIcons
