import InlineIcons.Project
import InlineIcons.Proofs.Pipeline.Units
import InlineIcons.Proofs.Scan

/-! When what generation leaves generates itself again. A run after a run has been written reads the files that
were there without the generated ones, and the units among them wherever the scans reach; it is as if nothing
had changed exactly where these inputs give the same units. -/
namespace InlineIcons.Project

open Source

variable {s : Settings} {t t' : FileTree} {g : Generated} {units : List SourceUnit}

/-- A tree that generates the units it holds: a new run gives these units, nothing is out of date, and writing
changes nothing. -/
structure FixedPoint (s : Settings) (t : FileTree) (units : List SourceUnit) : Prop where
  same : ∃ g, ((new s).generate t).1 = .ok g ∧ g.report.units = units
  current : validate s t = .ok []
  unchanged : ∃ summary p, (new s).generateAndWrite t false = (t,.ok summary,p) ∧
    summary.files = units.map fun u => .unchanged (s.output.dir.join ⟨u.hintName⟩)

def inputsOf (s : Settings) (assets sources : List TextFile) : Inputs :=
  ⟨assets.map fun f => ⟨f.path,f.text⟩,(CrateFindings.ofFiles s.input.directive sources).declarations⟩

/-- What is read when units are put into a folder of a tree that holds none of them. -/
def inputsWith (s : Settings) (clean : FileTree) (folder : Place) (units : List SourceUnit) : Option Inputs := do
  let assets ← ((Scan.withExtension s.input.assets s.input.assetExtension).filesWith clean folder units).toOption
  let scan ← (sourceScan s).toOption
  let sources ← (scan.filesWith clean folder units).toOption
  return inputsOf s assets sources

/-- What is read when units take the place of the generated files of their folder: the other files that the
scans find, and the units that they accept. -/
def rereads (s : Settings) (t : FileTree) (units : List SourceUnit) : Option Inputs := do
  let made := t.withFolder s.output.dir
  let folder ← (made.target (s.output.dir.join ⟨SourceUnit.indexHint⟩)).toOption.map FileTree.Target.folder
  inputsWith s (made.cleared s.output.dir folder units) folder units

theorem collect_toOption (s : Settings) (t : FileTree) : (collect s t).toOption.map ProjectInputs.inputs = do
    let assets ← ((Scan.withExtension s.input.assets s.input.assetExtension).filesOrNone t).toOption
    let scan ← (sourceScan s).toOption
    let sources ← (scan.filesOrNone t).toOption
    return inputsOf s assets sources := by
  unfold collect scan
  cases (Scan.withExtension s.input.assets s.input.assetExtension).filesOrNone t with
  | error fault => rfl
  | ok assets =>
    cases sourceScan s with
    | error fault => rfl
    | ok scan =>
      simp only [bind,Except.bind,pure,Except.pure,Except.toOption,Option.bind]
      cases scan.filesOrNone t <;> rfl

theorem rereads_eq {folder : Place} (leads : (t.withFolder s.output.dir).Leads s.output.dir folder) :
    rereads s t units = inputsWith s ((t.withFolder s.output.dir).cleared s.output.dir folder units) folder units := by
  rw [rereads,leads.aims FileTree.indexHint_named.entry]
  rfl

/-- What is read of a tree in which units were written. -/
theorem collect_filled {clean : FileTree} {folder : Place} (fills : FileTree.Fills clean t' folder units)
    (leads : (t.withFolder s.output.dir).Leads s.output.dir folder)
    (cleared : clean = (t.withFolder s.output.dir).cleared s.output.dir folder units)
    (named : ∀ u ∈ units, UnitName u.hintName) (distinct : (units.map SourceUnit.hintName).Nodup) :
    (collect s t').toOption.map ProjectInputs.inputs = rereads s t units := by
  subst cleared
  rw [collect_toOption,rereads_eq leads,inputsWith]
  simp only [Scan.filesOrNone_filled fills named distinct]

theorem root_of_sourceScan {scan : Scan} (found : sourceScan s = .ok scan) : scan.root = s.input.sources := by
  unfold sourceScan at found
  split at found
  · next pattern _ =>
    unfold Scan.filtered at found
    split at found
    · cases found
      rfl
    · cases found
  · cases found
    rfl

/-- Where the folder stands and the scans avoid it, what a run read is read again. -/
theorem rereads_of_avoids {folder : Place} (leads : t.Leads s.output.dir folder) (formed : t.WellFormed)
    (named : ∀ u ∈ units, UnitName u.hintName) (free : ∀ u ∈ units, t.node? (u.place folder) ≠ some .folder)
    (assets : Scan.Avoids t s.input.assets folder) (sources : Scan.Avoids t s.input.sources folder) :
    rereads s t units = (collect s t).toOption.map ProjectInputs.inputs := by
  have icons := Scan.filesWith_cleared (s := Scan.withExtension s.input.assets s.input.assetExtension)
    leads formed named free assets
  rw [collect_toOption,rereads_eq (leads.withFolder.symm ▸ leads),leads.withFolder,inputsWith,icons]
  refine Option.bind_congr fun assets _ => Option.bind_congr fun scan found => ?_
  have avoids : Scan.Avoids t scan.root folder := by
    rw [root_of_sourceScan (toOption_eq_some.mp found)]
    exact sources
  rw [Scan.filesWith_cleared leads formed named free avoids]

theorem generate_eq (s : Settings) (t : FileTree) : ((new s).generate t).1 =
    match collect s t with
    | .error e => .error (.scan e)
    | .ok found => match ((Pipeline.new s.pipelineOptions).run found.inputs).1 with
      | .error e => .error (.generate e)
      | .ok report => .ok ⟨report,found.parseErrors,found.inputs.assets.length,found.sources,
        found.inputs.declarations.length⟩ := by
  unfold generate
  simp only [new]
  cases collect s t with
  | error e => rfl
  | ok found =>
    simp only
    obtain ⟨outcome,pipeline⟩ := (Pipeline.new s.pipelineOptions).run found.inputs
    cases outcome <;> rfl

/-- A run gives units exactly where what it reads does. -/
theorem generate_units_iff {units : List SourceUnit} :
    (∃ g, ((new s).generate t).1 = .ok g ∧ g.report.units = units) ↔
      ∃ inputs report, (collect s t).toOption.map ProjectInputs.inputs = some inputs ∧
        ((Pipeline.new s.pipelineOptions).run inputs).1 = .ok report ∧ report.units = units := by
  rw [generate_eq]
  cases collect s t with
  | error e => simp [Except.toOption]
  | ok found =>
    simp only [Except.toOption,Option.map_some,Option.some.injEq,exists_and_left,exists_eq_left']
    cases ran : ((Pipeline.new s.pipelineOptions).run found.inputs).1 with
    | error e => simp
    | ok report => simp

theorem settings_generate (p : Project) (t : FileTree) : (p.generate t).2.settings = p.settings := by
  unfold generate
  cases collect p.settings t with
  | error e => rfl
  | ok found =>
    simp only
    obtain ⟨outcome,pipeline⟩ := p.pipeline.run found.inputs
    cases outcome <;> rfl

theorem fixedPoint_of_same (same : ∃ g, ((new s).generate t).1 = .ok g ∧ g.report.units = units)
    (held : ∀ u ∈ units, t.holds (s.output.dir.join ⟨u.hintName⟩) u.source = true)
    (fresh : t.stale s.output.dir (units.map SourceUnit.hintName) = []) : FixedPoint s t units := by
  obtain ⟨g,generated,rfl⟩ := same
  refine ⟨⟨g,generated,rfl⟩,?_,?_⟩
  · rw [validate,generated]
    have upToDate := FileTree.outOfDate_eq_nil.mpr ⟨held,fresh⟩
    show Except.ok (t.outOfDate s.output.dir g.report.units) = _
    rw [upToDate]
  · have written := FileTree.writeOutput_held held fresh
    refine ⟨.of g _,((new s).generate t).2,?_,rfl⟩
    have run : (new s).generate t = (.ok g,((new s).generate t).2) := Prod.ext generated rfl
    have settings : ((new s).generate t).2.settings = s := settings_generate (new s) t
    rw [generateAndWrite,run]
    simp only [write,settings,written]

theorem outOfDate_of_validate {paths : List Path} (current : validate s t = .ok paths)
    (same : ∃ g, ((new s).generate t).1 = .ok g ∧ g.report.units = units) :
    t.outOfDate s.output.dir units = paths := by
  obtain ⟨g,generated,rfl⟩ := same
  rw [validate,generated] at current
  exact Except.ok.inj current

/-- A new run on what was written gives the units again exactly where a run does on what is read again. -/
theorem again_iff {results : List WriteResult} (formed : t.WellFormed) (nonempty : units ≠ [])
    (named : ∀ u ∈ units, UnitName u.hintName) (distinct : (units.map SourceUnit.hintName).Nodup)
    (written : t.writeOutput false s.output.dir units = (t',.ok results)) :
    (∃ g, ((new s).generate t').1 = .ok g ∧ g.report.units = units) ↔
      ∃ inputs report, rereads s t units = some inputs ∧
        ((Pipeline.new s.pipelineOptions).run inputs).1 = .ok report ∧ report.units = units := by
  obtain ⟨folder,leads,_,_,fills,_⟩ := FileTree.writeOutput_ok formed nonempty named distinct written
  rw [generate_units_iff,collect_filled fills leads rfl named distinct]

theorem fixedPoint_of_again {results : List WriteResult} (formed : t.WellFormed) (nonempty : units ≠ [])
    (named : ∀ u ∈ units, UnitName u.hintName) (distinct : (units.map SourceUnit.hintName).Nodup)
    (written : t.writeOutput false s.output.dir units = (t',.ok results))
    (again : ∃ inputs report, rereads s t units = some inputs ∧
      ((Pipeline.new s.pipelineOptions).run inputs).1 = .ok report ∧ report.units = units) :
    FixedPoint s t' units := by
  obtain ⟨folder,_,leads,_,fills,fresh⟩ := FileTree.writeOutput_ok formed nonempty named distinct written
  exact fixedPoint_of_same ((again_iff formed nonempty named distinct written).mpr again)
    (fills.holds leads named) fresh

theorem named_of_plain (generated : ((new s).generate t).1 = .ok g)
    (plain : ∀ u ∈ g.report.units, '/' ∉ u.hintName.toList) :
    g.report.units ≠ [] ∧ ∀ u ∈ g.report.units, UnitName u.hintName := by
  obtain ⟨inputs,report,_,ran,units⟩ := generate_units_iff.mp ⟨g,generated,rfl⟩
  rw [← units] at plain ⊢
  refine ⟨?_,fun u member => ⟨plain u member,Pipeline.marked_units ran u member⟩⟩
  obtain ⟨c,definitions,_,shape⟩ := Pipeline.units_new ran
  rw [shape]
  exact List.cons_ne_nil _ _

theorem nodup_of_held (generated : ((new s).generate t).1 = .ok g)
    (held : ∀ u ∈ g.report.units, t'.holds (s.output.dir.join ⟨u.hintName⟩) u.source = true) :
    (g.report.units.map SourceUnit.hintName).Nodup := by
  obtain ⟨inputs,report,_,ran,units⟩ := generate_units_iff.mp ⟨g,generated,rfl⟩
  by_contra clash
  obtain ⟨u,member,v,member',name,differ⟩ := Pipeline.exists_clash ran (units ▸ clash)
  have first := held u (units ▸ member)
  have second := held v (units ▸ member')
  rw [name] at first
  exact differ (FileTree.holds_unique first second)

end InlineIcons.Project
