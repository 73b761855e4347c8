import InlineIcons.Scan
import InlineIcons.Proofs.FileTree.Rules

/-! What a scan finds where units stand: the files that it finds without them, and the units that it accepts. -/
namespace InlineIcons

theorem mapM_ok {α β ε : Type} {f : α → Except ε β} {g : α → β} {l : List α} (all : ∀ a ∈ l, f a = .ok (g a)) :
    l.mapM f = .ok (l.map g) := by
  induction l with
  | nil => rfl
  | cons a l ih =>
    rw [List.mapM_cons,all a List.mem_cons_self,ih fun b member => all b (List.mem_cons_of_mem a member)]
    rfl

theorem mapM_toOption_of_error {α β ε : Type} {f : α → Except ε β} {l : List α} {a : α} (member : a ∈ l)
    (fails : (f a).toOption = none) : (l.mapM f).toOption = none := by
  induction l with
  | nil => simp at member
  | cons b l ih =>
    rw [List.mapM_cons]
    cases first : f b with
    | error e => rfl
    | ok c =>
      rcases List.mem_cons.mp member with rfl | member
      · simp [first,Except.toOption] at fails
      · have rest := ih member
        cases done : l.mapM f with
        | error e => rfl
        | ok cs => simp [done,Except.toOption] at rest

namespace Scan

variable {s : Scan} {clean t : FileTree} {root folder : Place} {units : List SourceUnit}

/-- Where a unit is below the root of a scan, if it is accepted there. -/
def unitBelow? (s : Scan) (t : FileTree) (root folder : Place) (u : SourceUnit) : Option Place :=
  if root.isPrefixOf (u.place folder) then
    let below := (u.place folder).drop root.length
    if t.counts s.git root below && s.accepts below then some below else none
  else none

def unitFile (s : Scan) (u : SourceUnit) (below : Place) : TextFile :=
  ⟨s.pathOf below,⟨Place.text below⟩,u.source⟩

def unitFiles (s : Scan) (t : FileTree) (root folder : Place) (units : List SourceUnit) : List TextFile :=
  units.filterMap fun u => (s.unitBelow? t root folder u).map (s.unitFile u)

def byPath (a b : TextFile) : Bool := (Path.cmp a.relative b.relative).isLE

/-- What a scan finds when units are put into a folder of a tree that holds none of them. A unit may be the
root itself. -/
def filesWith (s : Scan) (t : FileTree) (folder : Place) (units : List SourceUnit) :
    Except ScanError (List TextFile) :=
  match t.reach s.root with
  | .error _ => .error (.noRoot s.root)
  | .ok root => do
    let own ← if units.any (·.place folder = root) then .ok [] else s.filesOrNone t
    return (own ++ s.unitFiles t root folder units).mergeSort byPath

def chosen (s : Scan) (t : FileTree) (root : Place) : List Place := (t.filesBelow s.git root).filter s.accepts

def readChosen (s : Scan) (t : FileTree) (root : Place) : Except ScanError (List TextFile) :=
  ((s.chosen t root).mergeSort precedes).mapM (s.readBelow t root)

theorem precedes_trans (a b c : Place) (first : precedes a b = true) (second : precedes b c = true) :
    precedes a c = true := Path.isLE_cmp_trans first second

theorem precedes_total (a b : Place) : (precedes a b || precedes b a) = true := Path.isLE_cmp_total ..

theorem mem_chosen (formed : t.WellFormed) {below : Place} : below ∈ s.chosen t root ↔
    (∃ bytes, t.node? (root ++ below) = some (.file bytes)) ∧ t.counts s.git root below = true ∧
      s.accepts below = true := by
  rw [chosen,List.mem_filter,FileTree.mem_filesBelow formed,and_assoc]

theorem nodup_chosen (s : Scan) (t : FileTree) (root : Place) : (s.chosen t root).Nodup :=
  (FileTree.nodup_filesBelow t s.git root).filter _

theorem unitBelow?_eq_some {u : SourceUnit} {below : Place} : s.unitBelow? t root folder u = some below ↔
    u.place folder = root ++ below ∧ t.counts s.git root below = true ∧ s.accepts below = true := by
  unfold unitBelow?
  simp only [Option.ite_none_right_eq_some,List.isPrefixOf_iff_prefix,Bool.and_eq_true,Option.some.injEq]
  constructor
  · rintro ⟨⟨rest,split⟩,accepted,same⟩
    rw [← split,List.drop_left] at same accepted
    cases same
    exact ⟨split.symm,accepted⟩
  · rintro ⟨split,accepted⟩
    rw [split,List.drop_left]
    exact ⟨List.prefix_append root below,accepted,rfl⟩

theorem readBelow_congr {t' : FileTree} {below : Place} (same : t.node? (root ++ below) = t'.node? (root ++ below)) :
    s.readBelow t root below = s.readBelow t' root below := by
  unfold readBelow
  rw [same]

theorem readBelow_held {below : Place} {content : String} (held : t.HoldsAt (root ++ below) content) :
    s.readBelow t root below = .ok ⟨s.pathOf below,⟨Place.text below⟩,content⟩ := by
  obtain ⟨bytes,file,text⟩ := held
  simp [readBelow,file,text]

theorem readBelow_ok {below : Place} {f : TextFile} (read : s.readBelow t root below = .ok f) :
    f = ⟨s.pathOf below,⟨Place.text below⟩,f.text⟩ := by
  unfold readBelow at read
  split at read
  · split at read
    · cases read
      rfl
    · cases read
  · cases read

theorem relative_of_readBelow {below : Place} {f : TextFile} (read : s.readBelow t root below = .ok f) :
    f.relative = ⟨Place.text below⟩ := congrArg TextFile.relative (readBelow_ok read)

theorem entries_of_mem_chosen (formed : t.WellFormed) : ∀ p ∈ s.chosen t root, ∀ n ∈ p, IsEntry n := by
  intro below member n name
  obtain ⟨⟨bytes,there⟩,_⟩ := (mem_chosen formed).mp member
  exact formed.entries_of_node? there n (List.mem_append_right root name)

theorem mergeSort_perm {places places' : List Place} (perm : places.Perm places')
    (entries : ∀ p ∈ places, ∀ n ∈ p, IsEntry n) : places.mergeSort precedes = places'.mergeSort precedes := by
  have sorted := List.pairwise_mergeSort precedes_trans precedes_total
  refine List.Perm.eq_of_pairwise (fun a b member member' => ?_) (sorted places) (sorted places')
    ((List.mergeSort_perm places precedes).trans (perm.trans (List.mergeSort_perm places' precedes).symm))
  exact Place.eq_of_isLE (entries a (List.mem_mergeSort.mp member))
    (entries b (perm.mem_iff.mpr (List.mem_mergeSort.mp member')))

/-- Where all that is chosen can be read, its files are sorted by their paths, in whatever order they are listed. -/
theorem readChosen_of_read (formed : t.WellFormed) {file : Place → TextFile}
    (read : ∀ below ∈ s.chosen t root, s.readBelow t root below = .ok (file below)) {places : List Place}
    (perm : places.Perm (s.chosen t root)) : s.readChosen t root = .ok ((places.map file).mergeSort byPath) := by
  have order : ∀ a ∈ places, ∀ b ∈ places, precedes a b = byPath (file a) (file b) := by
    intro a member b member'
    rw [byPath,relative_of_readBelow (read a (perm.mem_iff.mp member)),
      relative_of_readBelow (read b (perm.mem_iff.mp member')),precedes]
  rw [readChosen,mapM_ok fun below member => read below (List.mem_mergeSort.mp member),
    ← List.map_mergeSort order,mergeSort_perm perm.symm (entries_of_mem_chosen formed)]

theorem readChosen_of_unreadable {below : Place} (member : below ∈ s.chosen t root)
    (fails : (s.readBelow t root below).toOption = none) : (s.readChosen t root).toOption = none :=
  mapM_toOption_of_error (List.mem_mergeSort.mpr member) fails

theorem chosen_of_absent (formed : t.WellFormed) (absent : t.node? root = none) : s.chosen t root = [] := by
  refine List.eq_nil_iff_forall_not_mem.mpr fun below member => ?_
  obtain ⟨⟨bytes,there⟩,_⟩ := (mem_chosen formed).mp member
  by_cases self : below = []
  · rw [self,List.append_nil,absent] at there
    cases there
  · rw [FileTree.stands_above formed there self] at absent
    cases absent

theorem filesOrNone_eq (reached : t.reach s.root = .ok root) : s.filesOrNone t =
    match t.node? root with
    | none => .error (.noRoot s.root)
    | some (.file _) => s.readChosen t root
    | some .folder => match t.ruleFaultsAbove s.git root with
      | [] => s.readChosen t root
      | fault :: faults => .error (.badRules (fault :: faults)) := by
  unfold filesOrNone
  cases held : t.node? root with
  | none =>
    rw [FileTree.find_of_absent reached held]
  | some node =>
    rw [FileTree.find_of_reach reached held]
    cases node with
    | file bytes => rfl
    | folder =>
      simp only
      cases t.ruleFaultsAbove s.git root <;> rfl

theorem filesOrNone_of_lost (lost : ∀ root, t.reach s.root ≠ .ok root) :
    s.filesOrNone t = .error (.noRoot s.root) := by
  unfold filesOrNone
  cases found : t.find s.root with
  | error fault => rfl
  | ok e => exact absurd (FileTree.find_ok found).1 (lost e.1)

theorem root_of_filesOrNone {files : List TextFile} (found : s.filesOrNone t = .ok files) :
    ∃ root node, t.reach s.root = .ok root ∧ t.node? root = some node ∧
      (node = .folder → t.ruleFaultsAbove s.git root = []) ∧ s.readChosen t root = .ok files := by
  cases reached : t.reach s.root with
  | error fault =>
    rw [filesOrNone_of_lost (by simp [reached])] at found
    cases found
  | ok root =>
    rw [filesOrNone_eq reached] at found
    cases held : t.node? root with
    | none => simp [held] at found
    | some node =>
      cases node with
      | file bytes => exact ⟨root,_,rfl,held,nofun,by simpa [held] using found⟩
      | folder =>
        cases rules : t.ruleFaultsAbove s.git root with
        | nil => exact ⟨root,_,rfl,held,fun _ => rules,by simpa [held,rules] using found⟩
        | cons fault faults => simp [held,rules] at found

theorem filesOrNone_of_alike {t' : FileTree} (alike : FileTree.RulesAlike t t') (formed : t.WellFormed)
    (formed' : t'.WellFormed) (same : ∀ root, t.reach s.root = .ok root → ∀ below,
      t.node? (root ++ below) = t'.node? (root ++ below)) : s.filesOrNone t = s.filesOrNone t' := by
  by_cases reached : ∃ root, t.reach s.root = .ok root
  · obtain ⟨root,reached⟩ := reached
    have same := same root reached
    have chosen : (s.chosen t root).Perm (s.chosen t' root) := by
      refine (List.perm_ext_iff_of_nodup (nodup_chosen s t root) (nodup_chosen s t' root)).mpr fun below => ?_
      rw [mem_chosen formed,mem_chosen formed',same below,alike.counts]
    have read : s.readBelow t root = s.readBelow t' root := funext fun below => readBelow_congr (same below)
    have root' : t.node? root = t'.node? root := by simpa using same []
    rw [filesOrNone_eq reached,filesOrNone_eq (alike.reach_ok.mp reached),root',alike.ruleFaultsAbove]
    simp only [readChosen,mergeSort_perm chosen (entries_of_mem_chosen formed),read]
  · have lost : ∀ root, t.reach s.root ≠ .ok root := fun root found => reached ⟨root,found⟩
    rw [filesOrNone_of_lost lost,filesOrNone_of_lost fun root found => lost root (alike.reach_ok.mpr found)]

section Filled

variable (fills : FileTree.Fills clean t folder units) (named : ∀ u ∈ units, UnitName u.hintName)
  (distinct : (units.map SourceUnit.hintName).Nodup)

include fills named

/-- Without the units their places are left out of what is chosen, and nothing else. -/
theorem mem_chosen_iff {below : Place} : below ∈ s.chosen t root ↔
    below ∈ s.chosen clean root ∨ below ∈ units.filterMap (s.unitBelow? clean root folder) := by
  rw [mem_chosen fills.formed',mem_chosen fills.formed,List.mem_filterMap,(fills.alike named).rules.counts]
  simp only [unitBelow?_eq_some]
  by_cases unit : ∃ u ∈ units, u.place folder = root ++ below
  · obtain ⟨u,member,place⟩ := unit
    obtain ⟨bytes,file,_⟩ := fills.held u member
    have absent := fills.absent u member
    rw [place] at file absent
    simp only [file,absent]
    constructor
    · rintro ⟨_,accepted⟩
      exact .inr ⟨u,member,place,accepted⟩
    · rintro (⟨⟨_,none⟩,_⟩ | ⟨_,_,_,accepted⟩)
      · cases none
      · exact ⟨⟨bytes,rfl⟩,accepted⟩
  · rw [fills.others _ fun u member same => unit ⟨u,member,same.symm⟩]
    constructor
    · exact .inl
    · rintro (found | ⟨u,member,place,_⟩)
      · exact found
      · exact absurd ⟨u,member,place⟩ unit

omit named in
theorem absent_of_mem_chosen {below : Place} (member : below ∈ s.chosen clean root) :
    ∀ u ∈ units, root ++ below ≠ u.place folder := by
  intro u inside same
  obtain ⟨⟨bytes,file⟩,_⟩ := (mem_chosen fills.formed).mp member
  rw [same,fills.absent u inside] at file
  cases file

omit named in
theorem readBelow_outside {below : Place} (member : below ∈ s.chosen clean root) :
    s.readBelow t root below = s.readBelow clean root below :=
  readBelow_congr (fills.others _ (absent_of_mem_chosen fills member))

omit named in
theorem readBelow_unit {u : SourceUnit} (member : u ∈ units) {below : Place}
    (found : s.unitBelow? clean root folder u = some below) : s.readBelow t root below = .ok (s.unitFile u below) := by
  have held := fills.held u member
  rw [(unitBelow?_eq_some.mp found).1] at held
  exact readBelow_held held

include distinct

theorem chosen_perm (s : Scan) (root : Place) :
    (s.chosen t root).Perm (s.chosen clean root ++ units.filterMap (s.unitBelow? clean root folder)) := by
  have apart : (units.filterMap (s.unitBelow? clean root folder)).Nodup := by
    refine (List.pairwise_map.mp distinct).filterMap _ fun u v differ below found below' found' same => ?_
    have place := (unitBelow?_eq_some.mp found).1
    rw [same,← (unitBelow?_eq_some.mp found').1] at place
    exact differ (SourceUnit.place_inj.mp place)
  refine (List.perm_ext_iff_of_nodup (nodup_chosen s t root) ?_).mpr fun below => ?_
  · refine List.Nodup.append (nodup_chosen s clean root) apart fun below own unit => ?_
    obtain ⟨u,member,found⟩ := List.mem_filterMap.mp unit
    exact absent_of_mem_chosen fills own u member (unitBelow?_eq_some.mp found).1.symm
  · rw [List.mem_append,mem_chosen_iff fills named]

/-- Units are always text, so only the other files can be unreadable. -/
theorem read_of_readable (readable : ∀ below ∈ s.chosen clean root, (s.readBelow clean root below).toOption ≠ none) :
    ∃ file : Place → TextFile, (∀ below ∈ s.chosen t root, s.readBelow t root below = .ok (file below)) ∧
      s.unitFiles clean root folder units = (units.filterMap (s.unitBelow? clean root folder)).map file := by
  have perm := chosen_perm fills named distinct s root
  have read : ∀ below ∈ s.chosen t root, ∃ f, s.readBelow t root below = .ok f := by
    intro below member
    rcases List.mem_append.mp (perm.mem_iff.mp member) with own | unit
    · have some := readable below own
      rw [← readBelow_outside fills own] at some
      cases there : s.readBelow t root below with
      | error fault => exact absurd (by rw [there]; rfl) some
      | ok f => exact ⟨f,rfl⟩
    · obtain ⟨u,member,found⟩ := List.mem_filterMap.mp unit
      exact ⟨_,readBelow_unit fills member found⟩
  have : Nonempty TextFile := ⟨⟨s.root,s.root,""⟩⟩
  choose! file read using read
  refine ⟨file,read,?_⟩
  rw [unitFiles,List.map_filterMap]
  refine List.filterMap_congr fun u member => ?_
  cases found : s.unitBelow? clean root folder u with
  | none => rfl
  | some below =>
    have chosen : below ∈ s.chosen t root :=
      perm.mem_iff.mpr (List.mem_append_right _ (List.mem_filterMap.mpr ⟨u,member,found⟩))
    have same := (readBelow_unit fills member found).symm.trans (read below chosen)
    rw [Option.map_some,Option.map_some,Except.ok.inj same]

theorem readChosen_filled (s : Scan) (root : Place) : (s.readChosen t root).toOption =
    (s.readChosen clean root).toOption.map fun own =>
      (own ++ s.unitFiles clean root folder units).mergeSort byPath := by
  have perm := chosen_perm fills named distinct s root
  by_cases readable : ∀ below ∈ s.chosen clean root, (s.readBelow clean root below).toOption ≠ none
  · obtain ⟨file,read,unitFiles⟩ := read_of_readable fills named distinct readable
    have own : ∀ below ∈ (s.chosen clean root).mergeSort precedes, s.readBelow clean root below = .ok (file below) := by
      intro below member
      have member := List.mem_mergeSort.mp member
      rw [← readBelow_outside fills member,read below (perm.mem_iff.mpr (List.mem_append_left _ member))]
    have sorted : ((s.chosen clean root).mergeSort precedes ++
        units.filterMap (s.unitBelow? clean root folder)).Perm (s.chosen t root) :=
      ((List.mergeSort_perm _ precedes).append_right _).trans perm.symm
    rw [readChosen_of_read fills.formed' read sorted,readChosen,mapM_ok own,unitFiles,List.map_append]
    rfl
  · obtain ⟨below,member,fails⟩ : ∃ below ∈ s.chosen clean root, (s.readBelow clean root below).toOption = none := by
      simpa using readable
    have fails' : (s.readBelow t root below).toOption = none := by rw [readBelow_outside fills member,fails]
    rw [readChosen_of_unreadable (perm.mem_iff.mpr (List.mem_append_left _ member)) fails',
      readChosen_of_unreadable member fails]
    rfl

/-- Where a unit is the root itself, there is nothing else below it. -/
theorem filesOrNone_at_unit {u : SourceUnit} (member : u ∈ units) (reached : t.reach s.root = .ok (u.place folder)) :
    (s.filesOrNone t).toOption = some ((s.unitFiles clean (u.place folder) folder units).mergeSort byPath) := by
  obtain ⟨bytes,file,_⟩ := fills.held u member
  have own : s.readChosen clean (u.place folder) = .ok [] := by
    rw [readChosen,chosen_of_absent fills.formed (fills.absent u member),List.mergeSort_nil]
    rfl
  rw [filesOrNone_eq reached]
  simp only [file]
  rw [readChosen_filled fills named distinct,own]
  rfl

theorem filesOrNone_beside_units (beside : ∀ u ∈ units, root ≠ u.place folder) (reached : t.reach s.root = .ok root) :
    (s.filesOrNone t).toOption = (s.filesOrNone clean).toOption.map fun own =>
      (own ++ s.unitFiles clean root folder units).mergeSort byPath := by
  have alike := (fills.alike named).rules
  have combined := readChosen_filled fills named distinct s root
  rw [filesOrNone_eq reached,filesOrNone_eq (alike.reach_ok.mp reached),fills.others root beside,
    alike.ruleFaultsAbove]
  cases clean.node? root with
  | none => rfl
  | some node =>
    cases node with
    | file bytes => exact combined
    | folder =>
      simp only
      cases clean.ruleFaultsAbove s.git root with
      | nil => exact combined
      | cons fault faults => rfl

/-- What a scan finds beside units is what it finds without them and the units themselves. -/
theorem filesOrNone_filled (s : Scan) :
    (s.filesOrNone t).toOption = (s.filesWith clean folder units).toOption := by
  have reach : ∀ {root}, t.reach s.root = .ok root ↔ clean.reach s.root = .ok root := (fills.alike named).rules.reach_ok
  unfold filesWith
  cases reached : clean.reach s.root with
  | error fault =>
    have lost : ∀ root, t.reach s.root ≠ .ok root := by
      intro root found
      rw [reach,reached] at found
      cases found
    rw [filesOrNone_of_lost lost]
  | ok root =>
    have reached' := reach.mpr reached
    by_cases unit : ∃ u ∈ units, u.place folder = root
    · have any : units.any (·.place folder = root) = true := by simpa using unit
      obtain ⟨u,member,rfl⟩ := unit
      rw [filesOrNone_at_unit fills named distinct member reached']
      simp only [any,if_true]
      rfl
    · have any : units.any (·.place folder = root) = false := by simpa using unit
      rw [filesOrNone_beside_units fills named distinct (fun u member place => unit ⟨u,member,place.symm⟩) reached']
      simp only [any,Bool.false_eq_true,if_false]
      cases s.filesOrNone clean <;> rfl

end Filled

/-- A path that leads neither above the generated files of a folder nor to one of them. -/
def Avoids (t : FileTree) (p : Path) (folder : Place) : Prop :=
  ∀ root, t.reach p = .ok root → ∀ name, FileTree.isGenerated name = true → ¬root <+: folder ++ [name]

/-- Units are not found by a scan that avoids their folder. -/
theorem filesWith_of_avoids (avoids : Avoids clean s.root folder) (named : ∀ u ∈ units, UnitName u.hintName) :
    s.filesWith clean folder units = s.filesWith clean folder [] := by
  unfold filesWith
  cases reached : clean.reach s.root with
  | error fault => rfl
  | ok root =>
    have apart : ∀ u ∈ units, ¬root <+: u.place folder := fun u member => avoids root reached _ (named u member).marked
    have outside : s.unitFiles clean root folder units = [] := by
      refine List.filterMap_eq_nil_iff.mpr fun u member => ?_
      rw [unitBelow?,if_neg (by simpa using apart u member)]
      rfl
    have any : units.any (·.place folder = root) = false := by
      rw [List.any_eq_false]
      intro u member same
      have same := of_decide_eq_true same
      exact apart u member (same ▸ List.prefix_refl root)
    simp only [any,outside]
    rfl

/-- A scan that avoids a folder finds what it found before the folder is cleared. -/
theorem filesWith_cleared {dir : Path} (leads : t.Leads dir folder) (formed : t.WellFormed)
    (named : ∀ u ∈ units, UnitName u.hintName) (free : ∀ u ∈ units, t.node? (u.place folder) ≠ some .folder)
    (avoids : Avoids t s.root folder) :
    (s.filesWith (t.cleared dir folder units) folder units).toOption = (s.filesOrNone t).toOption := by
  have alike := leads.cleared_alike formed named free
  obtain ⟨clean,keeps⟩ := FileTree.cleared_wellFormed leads formed free
  have bare := FileTree.Fills.refl clean (keeps folder leads.stands)
  rw [filesWith_of_avoids (fun root reached => avoids root (alike.rules.reach_ok.mpr reached)) named,
    ← filesOrNone_filled bare nofun .nil s,filesOrNone_of_alike alike.rules formed clean fun root reached below => ?_]
  by_contra differ
  obtain ⟨⟨name,split,marked⟩,_⟩ := alike _ differ
  exact avoids root reached name marked (split ▸ List.prefix_append root below)

end Scan
end InlineIcons
