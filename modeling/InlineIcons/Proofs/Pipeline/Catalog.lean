import InlineIcons.Proofs.Identifier.Legal
import InlineIcons.Proofs.Pipeline.Separate
import InlineIcons.Proofs.Program.Writer

/-! The members of a catalog, read back from its text. They are the identifiers of the files that are loaded, and so
they can all name a member just if each of these files' stems does. -/
namespace InlineIcons

namespace CodeWriter

theorem run_lines (w : CodeWriter) (texts : List String) : (w.run (texts.map .line)).left = false ∧
    (w.run (texts.map .line)).writer.level = w.level ∧
    (w.run (texts.map .line)).writer.text.toList = w.text.toList ++
      (texts.map fun t => List.replicate (4 * w.level) ' ' ++ t.toList).flatMap (· ++ ['\n']) := by
  induction texts generalizing w with
  | nil => exact ⟨rfl,rfl,by simp [run]⟩
  | cons t texts ih =>
    obtain ⟨stays,level,text⟩ := ih (w.line t)
    have first : (w.run ((t :: texts).map .line)).left = ((w.line t).run (texts.map .line)).left ∧
        (w.run ((t :: texts).map .line)).writer = ((w.line t).run (texts.map .line)).writer := by
      simp [run,step,Run.one]
    rw [first.1,first.2,stays,level,text]
    refine ⟨rfl,rfl,?_⟩
    simp [line,startLine,endLine,append,indentation]

theorem step_scope_lines (w : CodeWriter) (header : String) (texts : List String) :
    (w.step (.scope header (texts.map .line))).left = false ∧
    (w.step (.scope header (texts.map .line))).writer.text.toList = (w.openScope header).text.toList ++
      (texts.map fun t => List.replicate (4 * (w.level + 1)) ' ' ++ t.toList).flatMap (· ++ ['\n']) ++
      List.replicate (4 * w.level) ' ' ++ ['\x7d','\n'] := by
  obtain ⟨stays,level,text⟩ := (w.openScope header).run_lines texts
  refine ⟨stays,?_⟩
  have deeper : (w.openScope header).level = w.level + 1 := rfl
  rw [deeper] at level text
  have closed : (w.step (.scope header (texts.map .line))).writer =
      ((w.openScope header).run (texts.map .line)).writer.closeScope := rfl
  rw [closed]
  simp [closeScope,line,startLine,endLine,append,indentation,level,text]

theorem write_prefix {steps : List Step} (stays : (start.run steps).left = false) (more : List Step) :
    (write steps).toList <+: (write (steps ++ more)).toList := by
  rw [write,write,(Step.run_append stays more).2]
  exact grows_run ..

end CodeWriter

namespace SourceUnit

def catalogOpening (enumName : String) : String :=
  header ++ "\n\n/// Every SVG asset known to the generator.\n#[derive(Debug, Clone, Copy, PartialEq, Eq, Hash)]\n" ++
    "pub enum " ++ enumName ++ " \x7b\n"

/-- The name on a member's line: what stands behind the indentation, up to a blank or a comma. -/
def memberName (line : List Char) : String := .ofList ((line.drop 4).takeWhile fun c => c ≠ ' ' && c ≠ ',')

/-- The names of the members in a catalog's text: one for each line up to the brace that closes the enum. -/
def memberNames? (enumName text : String) : Option (List String) :=
  (text.toList.dropPrefix? (catalogOpening enumName).toList).map fun behind =>
    ((linesFrom [] behind).takeWhile (· ≠ ['\x7d'])).map memberName

def memberLines : List String → List String
  | [] => []
  | first :: rest => (first ++ " = 1,") :: rest.map (· ++ ",")

theorem variantSteps_eq (identifiers : List String) : variantSteps identifiers = (memberLines identifiers).map .line := by
  cases identifiers <;> simp [variantSteps,memberLines]

theorem exists_of_mem_memberLines {identifiers : List String} {t : String} (member : t ∈ memberLines identifiers) :
    ∃ i ∈ identifiers, t = i ++ " = 1," ∨ t = i ++ "," := by
  cases identifiers with
  | nil => cases member
  | cons first rest =>
    rcases List.mem_cons.mp member with rfl | member
    · exact ⟨first,List.mem_cons_self,.inl rfl⟩
    · obtain ⟨i,inside,rfl⟩ := List.mem_map.mp member
      exact ⟨i,List.mem_cons_of_mem first inside,.inr rfl⟩

theorem memberName_indented {identifier : String} (plain : ∀ c ∈ identifier.toList, c.isAlphanum) {ending : String}
    (ends : ending.toList.head?.any fun c => c = ' ' || c = ',') :
    memberName (List.replicate 4 ' ' ++ (identifier ++ ending).toList) = identifier := by
  have inside : ∀ c ∈ identifier.toList, (c ≠ ' ' && c ≠ ',') = true := by
    intro c member
    have letter := plain c member
    by_contra mark
    simp only [Bool.and_eq_true,decide_eq_true_eq,not_and_or,not_not] at mark
    rcases mark with rfl | rfl <;> revert letter <;> decide
  have stops : ending.toList.takeWhile (fun c => c ≠ ' ' && c ≠ ',') = [] := by
    cases chars : ending.toList with
    | nil => rfl
    | cons c cs =>
      rw [chars] at ends
      refine List.takeWhile_cons_of_neg ?_
      simpa [imp_iff_not_or,or_comm] using ends
  rw [memberName,List.drop_left' (by simp),String.toList_append,List.takeWhile_append_of_pos inside,stops,
    List.append_nil,String.ofList_toList]

theorem map_memberName {identifiers : List String} (plain : ∀ i ∈ identifiers, ∀ c ∈ i.toList, c.isAlphanum) :
    (memberLines identifiers).map (fun t => memberName (List.replicate 4 ' ' ++ t.toList)) = identifiers := by
  cases identifiers with
  | nil => rfl
  | cons first rest =>
    obtain ⟨here,others⟩ := List.forall_mem_cons.mp plain
    simp only [memberLines,List.map_cons,List.map_map]
    rw [memberName_indented here (by decide)]
    refine congrArg (first :: ·) ((List.map_congr_left fun i member => ?_).trans (List.map_id rest))
    exact memberName_indented (others i member) (by decide)

/-- What stands in front of the members, their lines, and the brace behind them. -/
theorem catalog_starts (index : AssetIndex) (o : CatalogOptions) : (catalogOpening o.enumName).toList ++
    ((memberLines index.identifiers).map fun t => List.replicate 4 ' ' ++ t.toList).flatMap (· ++ ['\n']) ++
      ['\x7d','\n'] <+: (catalog index o).source.toList := by
  let front : List Step := [.line header,.emptyLine,.line "/// Every SVG asset known to the generator.",
    .line "#[derive(Debug, Clone, Copy, PartialEq, Eq, Hash)]"]
  let members : Step := .scope ("pub enum " ++ o.enumName) ((memberLines index.identifiers).map .line)
  obtain ⟨rest,whole⟩ : ∃ rest, catalogSteps index o.enumName = front ++ [members] ++ rest := by
    rw [catalogSteps,variantSteps_eq]
    exact ⟨_,rfl⟩
  have level : (CodeWriter.start.run front).writer.level = 0 := rfl
  obtain ⟨kept,text⟩ :=
    (CodeWriter.start.run front).writer.step_scope_lines ("pub enum " ++ o.enumName) (memberLines index.identifiers)
  have stays : (CodeWriter.start.run front).left = false := rfl
  obtain ⟨left,writer⟩ := Step.run_append stays [members]
  have one : ((CodeWriter.start.run front).writer.run [members]).left = false ∧
      ((CodeWriter.start.run front).writer.run [members]).writer =
        ((CodeWriter.start.run front).writer.step members).writer := by
    simp [CodeWriter.run,members,kept]
  have opening : ((CodeWriter.start.run front).writer.openScope ("pub enum " ++ o.enumName)).text.toList =
      (catalogOpening o.enumName).toList := by
    simp [front,catalogOpening,CodeWriter.openScope,CodeWriter.opening,CodeWriter.run,CodeWriter.step,CodeWriter.Run.one,
      CodeWriter.start,CodeWriter.line,CodeWriter.startLine,CodeWriter.endLine,CodeWriter.append,CodeWriter.indentation]
  have starts := CodeWriter.write_prefix (left.trans one.1) rest
  rw [← whole,CodeWriter.write,writer,one.2,text,opening,level] at starts
  simpa [catalog] using starts

theorem memberNames?_catalog {index : AssetIndex} (plain : ∀ i ∈ index.identifiers, ∀ c ∈ i.toList, c.isAlphanum)
    (o : CatalogOptions) : memberNames? o.enumName (catalog index o).source = some index.identifiers := by
  obtain ⟨more,whole⟩ := catalog_starts index o
  let lines := (memberLines index.identifiers).map fun t => List.replicate 4 ' ' ++ t.toList
  have single : ∀ l ∈ lines, '\n' ∉ l := by
    intro l member broken
    obtain ⟨t,inside,rfl⟩ := List.mem_map.mp member
    obtain ⟨i,listed,ends⟩ := exists_of_mem_memberLines inside
    have broken : '\n' ∈ i.toList := by rcases ends with rfl | rfl <;> simpa [List.mem_replicate] using broken
    exact absurd (plain i listed '\n' broken) (by decide)
  have indented : ∀ l ∈ lines, (l ≠ ['\x7d']) := by
    intro l member
    obtain ⟨t,_,rfl⟩ := List.mem_map.mp member
    simp
  have read : linesFrom [] (lines.flatMap (· ++ ['\n']) ++ ['\x7d','\n'] ++ more) = lines ++ ['\x7d'] :: linesFrom [] more := by
    rw [List.append_assoc,linesFrom_flatMap_append single]
    rfl
  rw [memberNames?,← whole,List.append_assoc,List.append_assoc,List.dropPrefix?_append_of_beq _ (by simp)]
  rw [Option.map_some,← List.append_assoc,read,List.takeWhile_append_of_pos (by simpa using indented)]
  have names := map_memberName plain
  simpa [lines,Function.comp_def] using names

end SourceUnit

namespace Pipeline

variable {options : PipelineOptions} {inputs : Inputs} {c : Collected}

/-- The identifiers that a run draws on are those of the files that are loaded. -/
theorem mem_identifiers_new (done : (new options).collected inputs = .ok c) (name : String) :
    name ∈ c.index.identifiers ↔ ∃ f ∈ AssetFile.select options.assetExtension inputs.assets, ∃ a,
      f.load = .ok a ∧ a.identifier = name := by
  obtain rfl := collected_of_ok done
  have distinct := AssetFile.distinct_select options.assetExtension inputs.assets
  rw [AssetIndex.mem_identifiers_iff,Collected.get?_index (Collected.ofFiles_from distinct),Option.isSome_map]
  cases first : (AssetFile.select options.assetExtension inputs.assets).find? (AssetFile.provides name) with
  | none =>
    rw [Collected.provider?_ofFiles_none first]
    refine iff_of_false (by simp) ?_
    rintro ⟨f,member,a,loaded,named⟩
    exact List.find?_eq_none.mp first f member ((AssetFile.provides_iff loaded name).mpr named)
  | some f =>
    obtain ⟨_,_,found⟩ := Collected.provider?_ofFiles_some distinct first
    rw [found]
    exact iff_of_true rfl ⟨f,List.mem_of_find?_eq_some first,AssetFile.exists_load_of_provides (List.find?_some first)⟩

/-- A catalog's members are the identifiers of the files that are loaded, and all of them are legal names just if no
loaded file has a stem that begins with a digit or is `self`, whatever ran before. Nothing else decides whether a stem
that a file is loaded with leads to a legal name. -/
theorem catalog_legal_iff {options : PipelineOptions} {o : CatalogOptions} {history : List Inputs} {last : Inputs}
    {report : RunReport} (chosen : options.catalog = some o)
    (free : history ≠ [] → CollisionFree ((new options).hashedAll (history ++ [last])))
    (fits : history ≠ [] → ∀ inputs ∈ history ++ [last], inputs.Addressable)
    (ran : (((new options).runAll history).run last).1 = .ok report) :
    (∃ u ∈ report.units, u.hintName = SourceUnit.catalogHint o.enumName ∧
      ∃ names, SourceUnit.memberNames? o.enumName u.source = some names ∧
        (∀ name, name ∈ names ↔ ∃ f ∈ AssetFile.select options.assetExtension last.assets, ∃ a,
          f.load = .ok a ∧ a.identifier = name) ∧
        ((∀ name ∈ names, Identifier.IsLegal name) ↔
          ∀ f ∈ AssetFile.select options.assetExtension last.assets, ∀ a, f.load = .ok a →
            Stem.NamesMember (f.path.fileStem?.getD ""))) ∧
      ∀ path content a, Asset.load path content = .ok a →
        (Identifier.IsLegal a.identifier ↔ Stem.NamesMember (path.fileStem?.getD "")) := by
  have legal : ∀ path content a, Asset.load path content = .ok a →
      (Identifier.IsLegal a.identifier ↔ Stem.NamesMember (path.fileStem?.getD "")) :=
    fun path content a loaded => Stem.isLegal_iff (Asset.toIdentifier_of_load loaded)
  refine ⟨?_,legal⟩
  obtain ⟨c,done,shown⟩ := outcome_after_history free fits ran
  have members := mem_identifiers_new done
  have plain : ∀ name ∈ c.index.identifiers, ∀ d ∈ name.toList, d.isAlphanum := by
    intro name member
    obtain ⟨f,_,a,loaded,rfl⟩ := (members name).mp member
    exact Asset.isAlphanum_of_load loaded
  have listed : SourceUnit.catalog c.index o ∈ report.units := by
    have units : report.units = ((new options).report last c).units := congrArg Outcome.units shown
    rw [units,Pipeline.report,assemble,fixedUnits_new,chosen]
    simp
  refine ⟨_,listed,rfl,_,SourceUnit.memberNames?_catalog plain o,members,?_⟩
  constructor
  · intro all f member a loaded
    exact (legal _ _ a loaded).mp (all a.identifier ((members _).mpr ⟨f,member,a,loaded,rfl⟩))
  · intro all name member
    obtain ⟨f,selected,a,loaded,rfl⟩ := (members name).mp member
    exact (legal _ _ a loaded).mpr (all f selected a loaded)

/-- Two files whose stems cannot name a member, and one whose stem can. -/
def numberedInputs : Inputs :=
  ⟨[⟨⟨"2x.svg"⟩,"<svg/>"⟩,⟨⟨"layout-list.svg"⟩,"<svg/>"⟩,⟨⟨"self.svg"⟩,"<svg/>"⟩],[]⟩

def numberedOptions : PipelineOptions := { PipelineOptions.standard with catalog := some ⟨"IconType"⟩ }

theorem catalog_illegal_numbered : ∃ report, ((new numberedOptions).run numberedInputs).1 = .ok report ∧
    ∃ u ∈ report.units, u.hintName = SourceUnit.catalogHint "IconType" ∧
      ∃ names, SourceUnit.memberNames? "IconType" u.source = some names ∧
        ("2x" ∈ names ∧ ¬ Identifier.IsLegal "2x") ∧ ("Self" ∈ names ∧ ¬ Identifier.IsLegal "Self") ∧
        "LayoutList" ∈ names ∧ Identifier.IsLegal "LayoutList" := by
  have ran : ((new numberedOptions).run numberedInputs).1 = .ok _ := run_lenient rfl numberedInputs
  obtain ⟨⟨u,listed,hint,names,read,members,_⟩,legal⟩ :=
    @catalog_legal_iff numberedOptions ⟨"IconType"⟩ [] numberedInputs _ rfl (absurd rfl) (absurd rfl) ran
  have selected : AssetFile.select "svg" numberedInputs.assets = numberedInputs.assets :=
    AssetFile.select_eq_self (by decide +kernel) (by decide +kernel)
  have member : ∀ f ∈ numberedInputs.assets, ∀ a, f.load = .ok a → a.identifier ∈ names :=
    fun f inside a loaded => (members _).mpr ⟨f,selected.symm ▸ inside,a,loaded,rfl⟩
  have digit : AssetFile.load ⟨⟨"2x.svg"⟩,"<svg/>"⟩ = .ok ⟨"2x",[],""⟩ := by decide +kernel
  have keyword : AssetFile.load ⟨⟨"self.svg"⟩,"<svg/>"⟩ = .ok ⟨"Self",[],""⟩ := by decide +kernel
  have plain : AssetFile.load ⟨⟨"layout-list.svg"⟩,"<svg/>"⟩ = .ok ⟨"LayoutList",[],""⟩ := by decide +kernel
  refine ⟨_,ran,u,listed,hint,names,read,⟨?_,?_⟩,⟨?_,?_⟩,?_,?_⟩
  · exact member _ (by decide) _ digit
  · exact (legal _ _ _ digit).not.mpr (by decide +kernel)
  · exact member _ (by decide) _ keyword
  · exact (legal _ _ _ keyword).not.mpr (by decide +kernel)
  · exact member _ (by decide) _ plain
  · exact (legal _ _ _ plain).mpr (by decide +kernel)

end Pipeline
end InlineIcons
