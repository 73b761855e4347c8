import InlineIcons.FileTree.Rules
import InlineIcons.Proofs.FileTree.Output
import Mathlib.Data.List.Induction
import Mathlib.Data.List.Nodup

/-! Which files count beside files that come or go. Rules are read from files of a few names, so whatever counts
without files of other names, such as units, counts beside them. -/
namespace InlineIcons

theorem toOption_eq_some {α ε : Type} {x : Except ε α} {a : α} : x.toOption = some a ↔ x = .ok a := by
  cases x <;> simp [Except.toOption]

theorem toOption_bind {α β ε : Type} (x : Except ε α) (f : α → Except ε β) :
    (x.bind f).toOption = x.toOption.bind fun a => (f a).toOption := by
  cases x <;> rfl

namespace FileTree

variable {t t' : FileTree} {folder : Place}

theorem reach_last {p : Path} {above : List (List Char)} {name : List Char} {place : Place}
    (split : Path.pieces p.text.toList = above ++ [name]) (entry : IsEntry name) (reached : t.reach p = .ok place) :
    ∃ folder, place = folder ++ [name] := by
  rw [reach] at reached
  split at reached
  · cases reached
  · rw [split,follow_append] at reached
    cases followed : t.follow [] above with
    | error fault => simp [followed,Except.bind] at reached
    | ok inner =>
      simp only [followed,Except.bind] at reached
      rw [follow_entry entry (stands_of_follow reached)] at reached
      exact ⟨inner,(Except.ok.inj reached).symm⟩

/-- Trees that differ in the generated files of a folder alone. -/
def Alike (t t' : FileTree) (folder : Place) : Prop := ∀ place, t.node? place ≠ t'.node? place →
  (∃ name, place = folder ++ [name] ∧ isGenerated name = true) ∧
    t.node? place ≠ some .folder ∧ t'.node? place ≠ some .folder

theorem Fills.alike {units : List SourceUnit} (fills : Fills t' t folder units)
    (named : ∀ u ∈ units, UnitName u.hintName) : Alike t t' folder := by
  intro place differ
  by_cases unit : ∃ u ∈ units, place = u.place folder
  · obtain ⟨u,member,rfl⟩ := unit
    obtain ⟨bytes,file,_⟩ := fills.held u member
    exact ⟨⟨_,rfl,(named u member).marked⟩,by simp [file],by simp [fills.absent u member]⟩
  · exact absurd (fills.others place fun u member same => unit ⟨u,member,same⟩) differ

theorem Leads.cleared_alike {dir : Path} {units : List SourceUnit} (leads : t.Leads dir folder)
    (formed : t.WellFormed) (named : ∀ u ∈ units, UnitName u.hintName)
    (free : ∀ u ∈ units, t.node? (u.place folder) ≠ some .folder) :
    Alike t (t.cleared dir folder units) folder := by
  intro place differ
  rw [node?_cleared leads formed] at differ ⊢
  split at differ
  · next gone =>
    rw [if_pos gone]
    rcases gone with unit | stale
    · obtain ⟨u,member,rfl⟩ := List.mem_map.mp unit
      exact ⟨⟨_,rfl,(named u member).marked⟩,free u member,by simp⟩
    · obtain ⟨_,name,same,marked,_,bytes,file⟩ := (leads.mem_stale formed).mp stale
      exact ⟨⟨name,same,marked⟩,by simp [file],by simp⟩
  · exact absurd rfl differ

/-- The names of the files and folders that rules are read from or found by. -/
def ruleNames : List (List Char) :=
  [".ignore".toList,".gitignore".toList,FolderRules.control,"exclude".toList,"commondir".toList]

/-- Trees that differ in files alone, none of which rules are read from. -/
def RulesAlike (t t' : FileTree) : Prop := ∀ place, t.node? place ≠ t'.node? place →
  (∀ above, ∀ name ∈ ruleNames, place ≠ above ++ [name]) ∧ t.node? place ≠ some .folder ∧ t'.node? place ≠ some .folder

theorem Alike.rules (alike : Alike t t' folder) : RulesAlike t t' := by
  intro place differ
  obtain ⟨⟨name,same,marked⟩,free⟩ := alike place differ
  have unmarked : ∀ rule ∈ ruleNames, isGenerated rule = false := by decide
  refine ⟨fun above rule member same' => ?_,free⟩
  obtain rfl : name = rule := by simpa using congrArg List.getLast? (same.symm.trans same')
  simp [unmarked name member] at marked

section RulesAlike

variable (alike : RulesAlike t t')

include alike

theorem RulesAlike.node?_rule (above : Place) {name : List Char} (rule : name ∈ ruleNames) :
    t.node? (above ++ [name]) = t'.node? (above ++ [name]) := by
  by_contra differ
  exact (alike _ differ).1 above name rule rfl

theorem RulesAlike.follow (place : Place) (pieces : List (List Char)) :
    (t.follow place pieces).toOption = (t'.follow place pieces).toOption := by
  induction pieces generalizing place with
  | nil => rfl
  | cons piece rest ih =>
    have stuck : ∀ t : FileTree, t.node? place ≠ some .folder → (t.follow place (piece :: rest)).toOption = none := by
      intro t free
      rw [FileTree.follow]
      rcases found : t.node? place with _ | (_ | _)
      · rfl
      · rfl
      · exact absurd found free
    by_cases same : t.node? place = t'.node? place
    · rw [FileTree.follow,FileTree.follow,same]
      rcases t'.node? place with _ | (_ | _)
      · rfl
      · rfl
      · simp only
        split
        · exact ih place
        split
        · split
          · rfl
          · exact ih _
        · exact ih _
    · obtain ⟨_,free,free'⟩ := alike place same
      rw [stuck t free,stuck t' free']

theorem RulesAlike.reach (p : Path) : (t.reach p).toOption = (t'.reach p).toOption := by
  rw [FileTree.reach,FileTree.reach]
  split
  · rfl
  · exact alike.follow [] _

theorem RulesAlike.reach_ok {p : Path} {place : Place} : t.reach p = .ok place ↔ t'.reach p = .ok place := by
  rw [← toOption_eq_some,← toOption_eq_some,alike.reach p]

end RulesAlike

theorem find_toOption (t : FileTree) (p : Path) : (t.find p).toOption =
    (t.reach p).toOption.bind fun place => (t.node? place).map (place,·) := by
  cases reached : t.reach p with
  | error fault =>
    rw [find,reached]
    rfl
  | ok place =>
    cases held : t.node? place with
    | none =>
      rw [find_of_absent reached held]
      simp [Except.toOption,held]
    | some node =>
      rw [find_of_reach reached held]
      simp [Except.toOption,held]

theorem RulesAlike.readText (alike : RulesAlike t t')
    {p : Path} {above : List (List Char)} {name : List Char} (split : Path.pieces p.text.toList = above ++ [name])
    (entry : IsEntry name) (rule : name ∈ ruleNames) :
    (t.readText p).toOption = (t'.readText p).toOption := by
  have found : (t.find p).toOption = (t'.find p).toOption := by
    rw [find_toOption,find_toOption,alike.reach p]
    refine Option.bind_congr fun place reached => ?_
    obtain ⟨inner,rfl⟩ := reach_last split entry (toOption_eq_some.mp reached)
    rw [alike.node?_rule inner rule]
  rw [readText_eq,readText_eq,toOption_bind,toOption_bind,found]

theorem RulesAlike.firstLine? (alike : RulesAlike t t')
    {p : Path} {above : List (List Char)} {name : List Char} (split : Path.pieces p.text.toList = above ++ [name])
    (entry : IsEntry name) (rule : name ∈ ruleNames) : t.firstLine? p = t'.firstLine? p := by
  unfold FileTree.firstLine?
  rw [alike.readText split entry rule]

theorem intercalate_concat (first name : List Char) (rest : Place) :
    ['/'].intercalate (first :: rest ++ [name]) = ['/'].intercalate (first :: rest) ++ '/' :: name := by
  induction rest generalizing first with
  | nil => simp [List.intercalate_cons_cons,List.intercalate_singleton]
  | cons second rest ih =>
    have tail := ih second
    rw [List.cons_append] at tail
    rw [List.cons_append,List.cons_append,List.intercalate_cons_cons,tail,List.intercalate_cons_cons]
    simp

theorem pieces_text (above : Place) {name : List Char} (single : '/' ∉ name) :
    ∃ inner, Path.pieces (Place.text (above ++ [name])).toList = inner ++ [name] := by
  cases above with
  | nil => exact ⟨[],by simpa [Place.text] using Path.pieces_single single⟩
  | cons first rest =>
    have split : (Place.text (first :: rest ++ [name])).toList = ['/'].intercalate (first :: rest) ++ '/' :: name := by
      rw [Place.text,String.toList_ofList,intercalate_concat]
    rw [split,Path.pieces_append,Path.pieces_single single]
    exact ⟨_,rfl⟩

theorem RulesAlike.controlFolder? (alike : RulesAlike t t')
    (place : Place) : t.controlFolder? ⟨Place.text (place ++ [FolderRules.control])⟩ =
      t'.controlFolder? ⟨Place.text (place ++ [FolderRules.control])⟩ := by
  have control : IsEntry FolderRules.control := by constructor <;> decide
  have shared : IsEntry "commondir".toList := by constructor <;> decide
  obtain ⟨inner,split⟩ := pieces_text place control.single
  have link : t.firstLine? ⟨Place.text (place ++ [FolderRules.control])⟩ =
      t'.firstLine? ⟨Place.text (place ++ [FolderRules.control])⟩ :=
    alike.firstLine? split control (by decide)
  have common : ∀ p : Path, t.firstLine? (p.join ⟨"commondir"⟩) = t'.firstLine? (p.join ⟨"commondir"⟩) :=
    fun p => alike.firstLine? (Path.pieces_join shared) shared (by decide)
  unfold FileTree.controlFolder?
  simp only [link,common]

section Rules

variable (alike : RulesAlike t t')

include alike

theorem RulesAlike.ofPlace (above : Place) (name : List Char) (rule : name ∈ ruleNames) :
    RuleFile.ofPlace t (above ++ [name]) = RuleFile.ofPlace t' (above ++ [name]) := by
  unfold RuleFile.ofPlace
  rw [alike.node?_rule above rule]

theorem RulesAlike.exclusions (place : Place) : FolderRules.exclusions t place = FolderRules.exclusions t' place := by
  have exclude : ∀ above : Place, RuleFile.ofPlace t (above ++ ["info".toList,"exclude".toList]) =
      RuleFile.ofPlace t' (above ++ ["info".toList,"exclude".toList]) := by
    intro above
    simpa using alike.ofPlace (above ++ ["info".toList]) "exclude".toList (by decide)
  have control : t.node? (place ++ [FolderRules.control]) = t'.node? (place ++ [FolderRules.control]) :=
    alike.node?_rule place (by decide)
  unfold FolderRules.exclusions
  simp only [control]
  split
  · rw [alike.controlFolder?]
    have reach : (fun p => (t.reach p).toOption) = fun p => (t'.reach p).toOption := funext alike.reach
    rw [reach]
    split
    · exact exclude _
    · rfl
  · exact exclude _

theorem RulesAlike.ofFolder (git : Bool) (place : Place) :
    FolderRules.ofFolder t git place = FolderRules.ofFolder t' git place := by
  have control : t.node? (place ++ [FolderRules.control]) = t'.node? (place ++ [FolderRules.control]) :=
    alike.node?_rule place (by decide)
  unfold FolderRules.ofFolder
  rw [alike.ofPlace place ".ignore".toList (by decide),alike.ofPlace place ".gitignore".toList (by decide),
    alike.exclusions place,control]

theorem RulesAlike.counts (git : Bool) (root below : Place) : t.counts git root below = t'.counts git root below := by
  unfold FileTree.counts
  have same : FolderRules.ofFolder t git = FolderRules.ofFolder t' git := funext (alike.ofFolder git)
  rw [same]

theorem RulesAlike.ruleFaultsAbove (git : Bool) (root : Place) :
    t.ruleFaultsAbove git root = t'.ruleFaultsAbove git root := by
  unfold FileTree.ruleFaultsAbove
  simp only [alike.ofFolder]

end Rules

/-- Whatever is below a place stands in a folder there. -/
theorem stands_above (formed : t.WellFormed) {root below : Place} {node : FileNode}
    (found : t.node? (root ++ below) = some node) (inside : below ≠ []) : t.node? root = some .folder := by
  induction below using List.reverseRecOn generalizing node with
  | nil => exact absurd rfl inside
  | append_singleton below name ih =>
    have parent := formed.parent_of_node? found
    rw [← List.append_assoc,List.dropLast_concat] at parent
    by_cases last : below = []
    · simpa [last] using parent
    · exact ih parent last

theorem mem_files (formed : t.WellFormed) {place : Place} :
    place ∈ t.files.map Prod.fst ↔ ∃ bytes, t.node? place = some (.file bytes) := by
  rw [List.mem_map]
  constructor
  · rintro ⟨⟨place,bytes⟩,member,rfl⟩
    obtain ⟨⟨other,bytes' | _⟩,inside,same⟩ := List.mem_filterMap.mp member
    · cases same
      exact ⟨bytes,node?_of_mem (formed.filled _ inside) inside⟩
    · cases same
  · rintro ⟨bytes,file⟩
    have filled : place ≠ [] := by
      rintro rfl
      cases file
    exact ⟨(place,bytes),List.mem_filterMap.mpr ⟨_,mem_of_node? filled file,rfl⟩,rfl⟩

theorem nodup_files (t : FileTree) : (t.files.map Prod.fst).Nodup := by
  have inner : (t.files.map Prod.fst).Sublist (t.nodes.map Prod.fst) := by
    unfold files
    induction t.nodes with
    | nil => exact .slnil
    | cons e l ih =>
      obtain ⟨place,bytes | _⟩ := e
      · exact ih.cons_cons place
      · exact ih.cons place
  exact t.distinct.sublist inner

theorem mem_filesBelow (formed : t.WellFormed) {git : Bool} {root below : Place} :
    below ∈ t.filesBelow git root ↔
      (∃ bytes, t.node? (root ++ below) = some (.file bytes)) ∧ t.counts git root below = true := by
  unfold filesBelow
  split
  · next bytes file =>
    rw [List.mem_singleton]
    constructor
    · rintro rfl
      exact ⟨⟨bytes,by rw [List.append_nil,file]⟩,rfl⟩
    · rintro ⟨⟨bytes',found⟩,_⟩
      by_contra inside
      rw [stands_above formed found inside] at file
      cases file
  · rw [List.mem_filterMap]
    constructor
    · rintro ⟨place,member,found⟩
      simp only [Option.ite_none_right_eq_some,List.isPrefixOf_iff_prefix] at found
      obtain ⟨⟨rest,rfl⟩,counted,same⟩ := found
      rw [List.drop_left] at counted same
      cases same
      exact ⟨(mem_files formed).mp member,counted⟩
    · rintro ⟨file,counted⟩
      refine ⟨root ++ below,(mem_files formed).mpr file,?_⟩
      simp [counted]

theorem nodup_filesBelow (t : FileTree) (git : Bool) (root : Place) : (t.filesBelow git root).Nodup := by
  unfold filesBelow
  split
  · exact List.nodup_singleton _
  · refine t.nodup_files.filterMap fun a a' below found found' => ?_
    simp only [Option.mem_def,Option.ite_none_right_eq_some,List.isPrefixOf_iff_prefix] at found found'
    obtain ⟨⟨rest,rfl⟩,_,same⟩ := found
    obtain ⟨⟨rest',rfl⟩,_,same'⟩ := found'
    rw [List.drop_left] at same same'
    cases same
    cases same'
    rfl

end FileTree
end InlineIcons
