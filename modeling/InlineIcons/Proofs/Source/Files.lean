import InlineIcons.Proofs.Source.Declared

/-! What each file of a crate adds. Its types depend on the other files by their enums alone, whose order does not matter
where their paths are distinct; its errors do not depend on the other files at all. -/
namespace InlineIcons.Source.CrateFindings

variable {directive : String} {files files' before after : List TextFile} {f g : TextFile} {e : ParseError}

/-- What a file adds in a crate with the given enums. -/
def added (directive : String) (t : EnumTable) (f : TextFile) : CrateFindings :=
  match ofFile directive f with
  | .ok found => ⟨found.components.map t.declaration,found.errors⟩
  | .error e => ⟨[],[e]⟩

theorem declarations_findings (directive : String) (t : EnumTable) (files : List TextFile) :
    ((findings directive files).flatMap Findings.components).map t.declaration =
      files.flatMap fun f => (added directive t f).declarations := by
  induction files with
  | nil => rfl
  | cons f files ih =>
    rw [List.flatMap_cons,← ih,findings,List.map_cons,List.filterMap_cons,added]
    cases ofFile directive f with
    | error e => rfl
    | ok found =>
      simp only [Except.toOption,List.flatMap_cons,List.map_append]
      rfl

theorem declarations_added (directive : String) (files : List TextFile) : (ofFiles directive files).declarations =
    files.flatMap fun f => (added directive (table files) f).declarations := by
  rw [declarations_ofFiles,declarations_findings]

/-- Errors do not depend on the enums of the crate. -/
theorem errors_added (directive : String) (t : EnumTable) (files : List TextFile) : (ofFiles directive files).errors =
    files.flatMap fun f => (added directive t f).errors := by
  dsimp only [ofFiles]
  rw [List.flatMap_map]
  refine congrArg (List.flatMap · files) (funext fun f => ?_)
  unfold added
  cases ofFile directive f <;> rfl

theorem errors_append (directive : String) (before after : List TextFile) :
    (ofFiles directive (before ++ after)).errors =
      (ofFiles directive before).errors ++ (ofFiles directive after).errors := by
  simp only [errors_added directive ⟨[]⟩,List.flatMap_append]

section Order

theorem enums_table_perm (perm : files.Perm files') : (table files).enums.Perm (table files').enums :=
  ((perm.flatMap_right _).filter _).map _

variable (distinct : ((table files).enums.map EnumRef.path).Nodup)

include distinct

theorem added_perm (perm : files.Perm files') :
    added directive (table files') f = added directive (table files) f := by
  have same : (table files').declaration = (table files).declaration := by
    funext c
    simp only [EnumTable.declaration,EnumTable.resolve_perm distinct (enums_table_perm perm)]
  rw [added,added,same]

end Order

section Unread

theorem ofFile_error_iff : ofFile directive f = .error e ↔ ∃ fault, Item.ofText? f.text = .error fault ∧
    e = .malformed (fault.place.inFile f.path) fault.message := by
  rw [ofFile,Search.ofText]
  cases Item.ofText? f.text with
  | ok items => simp
  | error fault => simp [eq_comm]

theorem ofFile_empty (empty : f.text = "") : ofFile directive f = .ok .none := by
  rw [ofFile,empty]
  rfl

theorem declared_empty (empty : f.text = "") : f.declared = [] := by
  rw [TextFile.declared,empty]
  rfl

theorem declared_unread (failed : ofFile directive f = .error e) : f.declared = [] := by
  obtain ⟨fault,unread,_⟩ := ofFile_error_iff.mp failed
  rw [TextFile.declared,unread]

/-- A file that cannot be read declares no more than an empty one does. -/
theorem table_emptied (failed : ofFile directive f = .error e) (empty : g.text = "") :
    table (before ++ g :: after) = table (before ++ f :: after) := by
  simp only [table,List.flatMap_append,List.flatMap_cons,declared_empty empty,declared_unread failed]

theorem declarations_emptied (failed : ofFile directive f = .error e) (empty : g.text = "") :
    (ofFiles directive (before ++ g :: after)).declarations =
      (ofFiles directive (before ++ f :: after)).declarations := by
  have none : ∀ t, (added directive t f).declarations = [] := fun t => by rw [added,failed]
  have none' : ∀ t, (added directive t g).declarations = [] := fun t => by
    rw [added,ofFile_empty empty]
    rfl
  simp only [declarations_added,table_emptied failed empty,List.flatMap_append,List.flatMap_cons,none,none']

theorem errors_unread (failed : ofFile directive f = .error e) (after : List TextFile) :
    (ofFiles directive (f :: after)).errors = e :: (ofFiles directive after).errors := by
  simp only [errors_added directive ⟨[]⟩,List.flatMap_cons,added,failed]
  rfl

theorem errors_empty (empty : g.text = "") (after : List TextFile) :
    (ofFiles directive (g :: after)).errors = (ofFiles directive after).errors := by
  simp only [errors_added directive ⟨[]⟩,List.flatMap_cons,added,ofFile_empty empty]
  rfl

end Unread

/-- Files do not depend on their order, nor on faults of each other. Where no two enums share a path, each file adds what
is its own, in whatever order the files come; and for a file that cannot be read an empty one may stand, which removes
the one fault of the file and nothing else. -/
theorem ofFiles_independent (directive : String) (files : List TextFile) :
    ((((findings directive files).flatMap Findings.enums).map EnumRef.path).Nodup →
      ∃ own : TextFile → CrateFindings, ∀ files', files.Perm files' →
        (ofFiles directive files').declarations = files'.flatMap (fun f => (own f).declarations) ∧
        (ofFiles directive files').errors = files'.flatMap (fun f => (own f).errors) ∧
        (ofFiles directive files').declarations.Perm (ofFiles directive files).declarations ∧
        (ofFiles directive files').errors.Perm (ofFiles directive files).errors) ∧
    ∀ before f after e g, files = before ++ f :: after → ofFile directive f = .error e → g.text = "" →
      (∃ place message, e = .malformed (Position.inFile place f.path) message) ∧
      (ofFiles directive (before ++ g :: after)).declarations = (ofFiles directive files).declarations ∧
      (ofFiles directive files).errors = (ofFiles directive before).errors ++ e :: (ofFiles directive after).errors ∧
      (ofFiles directive (before ++ g :: after)).errors =
        (ofFiles directive before).errors ++ (ofFiles directive after).errors := by
  constructor
  · intro distinct
    rw [enums_findings] at distinct
    have own : ∀ files', files.Perm files' → (ofFiles directive files').declarations =
        files'.flatMap (fun f => (added directive (table files) f).declarations) := by
      intro files' perm
      rw [declarations_added]
      simp only [added_perm distinct perm]
    refine ⟨added directive (table files),fun files' perm => ⟨own files' perm,errors_added _ _ _,?_,?_⟩⟩
    · rw [own files' perm,own files (.refl _)]
      exact perm.symm.flatMap_right _
    · rw [errors_added directive (table files),errors_added directive (table files)]
      exact perm.symm.flatMap_right _
  · rintro before f after e g rfl failed empty
    obtain ⟨fault,_,rfl⟩ := ofFile_error_iff.mp failed
    refine ⟨⟨_,_,rfl⟩,declarations_emptied failed empty,?_,?_⟩
    · rw [errors_append,errors_unread failed]
    · rw [errors_append,errors_empty empty]

def iconFile : TextFile :=
  ⟨⟨"src/a.rs"⟩,⟨"a.rs"⟩,"#[generate_svg(kind, rest)]\nstruct Icon { kind: Kind, rest: Map }"⟩

def kindFile : TextFile := ⟨⟨"src/b.rs"⟩,⟨"b.rs"⟩,"enum Kind { Home }"⟩

def brokenFile : TextFile := ⟨⟨"src/c.rs"⟩,⟨"c.rs"⟩,"struct"⟩

/-- A struct whose type is an enum of a file behind it, and a file that cannot be read. -/
theorem ofFiles_independent_broken :
    (((findings "generate_svg" [iconFile,kindFile,brokenFile]).flatMap Findings.enums).map EnumRef.path).Nodup ∧
    [iconFile,kindFile,brokenFile].Perm [brokenFile,kindFile,iconFile] ∧
    (ofFiles "generate_svg" [brokenFile,kindFile,iconFile]).declarations.Perm
      (ofFiles "generate_svg" [iconFile,kindFile,brokenFile]).declarations ∧
    (∃ d ∈ (ofFiles "generate_svg" [iconFile,kindFile,{ brokenFile with text := "" }]).declarations,
      ∃ p ∈ d.properties, p.type.enum? = some ⟨"b","Kind",["Home"]⟩) ∧
    ∃ e, ofFile "generate_svg" brokenFile = .error e ∧
      (ofFiles "generate_svg" [iconFile,kindFile,brokenFile]).errors = [e] ∧
      (ofFiles "generate_svg" [iconFile,kindFile,{ brokenFile with text := "" }]).errors = [] := by
  have distinct : (((findings "generate_svg" [iconFile,kindFile,brokenFile]).flatMap
      Findings.enums).map EnumRef.path).Nodup := by decide +kernel
  have perm : [iconFile,kindFile,brokenFile].Perm [brokenFile,kindFile,iconFile] := by decide +kernel
  obtain ⟨e,failed⟩ : ∃ e, ofFile "generate_svg" brokenFile = .error e := by
    have unread : (ofFile "generate_svg" brokenFile).isOk = false := by decide +kernel
    cases read : ofFile "generate_svg" brokenFile with
    | error e => exact ⟨e,rfl⟩
    | ok found =>
      rw [read] at unread
      cases unread
  have clean : (ofFiles "generate_svg" [iconFile,kindFile]).errors = [] :=
    List.isEmpty_iff.mp (by decide +kernel)
  have used : ∃ d ∈ (ofFiles "generate_svg" [iconFile,kindFile,brokenFile]).declarations,
      ∃ p ∈ d.properties, p.type.enum? = some ⟨"b","Kind",["Home"]⟩ := by decide +kernel
  obtain ⟨independent,emptied⟩ := ofFiles_independent "generate_svg" [iconFile,kindFile,brokenFile]
  obtain ⟨own,ordered⟩ := independent distinct
  obtain ⟨_,declarations,errors,errors'⟩ :=
    emptied [iconFile,kindFile] brokenFile [] e { brokenFile with text := "" } rfl failed rfl
  have none : (ofFiles "generate_svg" []).errors = [] := rfl
  rw [clean,none] at errors errors'
  refine ⟨distinct,perm,(ordered _ perm).2.2.1,?_,e,failed,errors,errors'⟩
  obtain ⟨d,declared,p,listed,means⟩ := used
  exact ⟨d,declarations.symm ▸ declared,p,listed,means⟩

end InlineIcons.Source.CrateFindings
