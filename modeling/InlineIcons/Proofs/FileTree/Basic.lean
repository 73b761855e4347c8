import InlineIcons.Proofs.Path

/-! The entries of a tree and the paths that lead to them. A path that leads somewhere still does when folders
are added, whatever becomes of files. -/
namespace InlineIcons.FileTree

variable {t t' : FileTree}

theorem node?_of_mem {place : Place} {node : FileNode} (filled : place ≠ []) (member : (place,node) ∈ t.nodes) :
    t.node? place = some node := by
  rw [node?,if_neg filled]
  have distinct := t.distinct
  generalize t.nodes = l at member distinct
  induction l with
  | nil => simp at member
  | cons e l ih =>
    obtain ⟨key,value⟩ := e
    rw [List.map_cons,List.nodup_cons] at distinct
    rcases List.mem_cons.mp member with same | member
    · cases same
      simp
    · have inside : place ∈ l.map Prod.fst := List.mem_map_of_mem (f := Prod.fst) member
      have apart : (place == key) = false := beq_eq_false_iff_ne.mpr fun same => distinct.1 (same ▸ inside)
      rw [List.lookup_cons,apart]
      exact ih member distinct.2

theorem mem_of_node? {place : Place} {node : FileNode} (filled : place ≠ []) (found : t.node? place = some node) :
    (place,node) ∈ t.nodes := by
  rw [node?,if_neg filled,List.lookup_eq_some_iff] at found
  obtain ⟨before,after,split,_⟩ := found
  exact split ▸ List.mem_append_right before List.mem_cons_self

@[simp] theorem node?_nil (t : FileTree) : t.node? [] = some .folder := rfl

/-- What holds of every tree of files: entries have names and stand in folders. -/
structure WellFormed (t : FileTree) : Prop where
  filled : ∀ e ∈ t.nodes, e.1 ≠ []
  entries : ∀ e ∈ t.nodes, ∀ n ∈ e.1, IsEntry n
  parents : ∀ e ∈ t.nodes, t.node? e.1.dropLast = some .folder

def Keeps (t t' : FileTree) : Prop := ∀ place, t.node? place = some .folder → t'.node? place = some .folder

theorem Keeps.refl (t : FileTree) : Keeps t t := fun _ found => found

theorem Keeps.trans {t'' : FileTree} (first : Keeps t t') (second : Keeps t' t'') : Keeps t t'' :=
  fun place found => second place (first place found)

theorem Keeps.follow (keeps : Keeps t t') {place target : Place} {pieces : List (List Char)}
    (followed : t.follow place pieces = .ok target) : t'.follow place pieces = .ok target := by
  induction pieces generalizing place with
  | nil => exact followed
  | cons piece rest ih =>
    rw [FileTree.follow] at followed ⊢
    cases found : t.node? place with
    | none => simp [found] at followed
    | some node =>
      cases node with
      | file bytes => simp [found] at followed
      | folder =>
        simp only [found] at followed
        simp only [keeps place found]
        split
        · next skipped => exact ih (by simpa [skipped] using followed)
        · next moves =>
          simp only [moves] at followed
          split
          · next up =>
            simp only [up,if_true] at followed
            split
            · next bottom => simp [bottom] at followed
            · next inner => exact ih (by simpa [inner] using followed)
          · next down => exact ih (by simpa [down] using followed)

theorem follow_append (t : FileTree) (place : Place) (pieces more : List (List Char)) :
    t.follow place (pieces ++ more) = (t.follow place pieces).bind (t.follow · more) := by
  induction pieces generalizing place with
  | nil => rfl
  | cons piece rest ih =>
    rw [List.cons_append,follow,follow]
    cases t.node? place with
    | none => rfl
    | some node =>
      cases node with
      | file bytes => rfl
      | folder =>
        simp only
        split
        · exact ih place
        split
        · split
          · rfl
          · exact ih place.dropLast
        · exact ih (place ++ [piece])

theorem follow_entry {place : Place} {name : List Char} (entry : IsEntry name)
    (stands : t.node? place = some .folder) : t.follow place [name] = .ok (place ++ [name]) := by
  simp [follow,stands,entry.filled,entry.here,entry.above]

theorem stands_of_follow {place target : Place} {piece : List Char} (followed : t.follow place [piece] = .ok target) :
    t.node? place = some .folder := by
  rw [follow] at followed
  cases found : t.node? place with
  | none => simp [found] at followed
  | some node =>
    cases node with
    | file bytes => simp [found] at followed
    | folder => rfl

theorem target_eq (t : FileTree) (p : Path) : t.target p =
    if p.text.isEmpty || p.isAbsolute then .error .missing
    else match (Path.pieces p.text.toList).reverse.dropWhile (· = []) with
      | [] => .error .missing
      | name :: above => (t.follow [] above.reverse).bind fun folder =>
        match t.node? folder with
        | some .folder => .ok ⟨folder,name,(Path.pieces p.text.toList).reverse.head? = some []⟩
        | some (.file _) => .error .notFolder
        | none => .error .missing := by
  unfold target
  split
  · rfl
  · dsimp only
    cases (Path.pieces p.text.toList).reverse.dropWhile (· = []) <;> rfl

theorem target_ok {p : Path} {g : Target} (aimed : t.target p = .ok g) :
    t.node? g.folder = some .folder ∧ g.name ≠ [] ∧ '/' ∉ g.name := by
  rw [target_eq] at aimed
  split at aimed
  · simp at aimed
  cases split : (Path.pieces p.text.toList).reverse.dropWhile (· = []) with
  | nil => simp [split] at aimed
  | cons name above =>
    have member : name ∈ Path.pieces p.text.toList := by
      rw [← List.mem_reverse]
      exact (List.dropWhile_sublist _).subset (split ▸ List.mem_cons_self)
    have filled : name ≠ [] := by
      have := List.head?_dropWhile_not (p := fun piece : List Char => decide (piece = []))
        (Path.pieces p.text.toList).reverse
      simpa [split] using this
    simp only [split] at aimed
    cases followed : t.follow [] above.reverse with
    | error fault => simp [followed,Except.bind] at aimed
    | ok folder =>
      simp only [followed,Except.bind] at aimed
      split at aimed
      · next stands =>
        cases aimed
        exact ⟨stands,filled,Path.not_mem_of_mem_pieces member⟩
      · simp at aimed
      · simp at aimed

theorem find_of_reach {p : Path} {place : Place} {node : FileNode} (reached : t.reach p = .ok place)
    (found : t.node? place = some node) : t.find p = .ok (place,node) := by
  simp only [find,reached,found,bind,Except.bind]
  rfl

theorem find_of_absent {p : Path} {place : Place} (reached : t.reach p = .ok place)
    (absent : t.node? place = none) : t.find p = .error .missing := by
  simp only [find,reached,absent,bind,Except.bind]
  rfl

theorem find_ok {p : Path} {place : Place} {node : FileNode} (found : t.find p = .ok (place,node)) :
    t.reach p = .ok place ∧ t.node? place = some node := by
  cases reached : t.reach p with
  | error fault =>
    rw [find,reached] at found
    cases found
  | ok other =>
    cases held : t.node? other with
    | none =>
      rw [find_of_absent reached held] at found
      cases found
    | some node' =>
      rw [find_of_reach reached held] at found
      cases found
      exact ⟨rfl,held⟩

/-- A folder's path leads to a place where a folder stands. -/
structure Leads (t : FileTree) (dir : Path) (folder : Place) : Prop where
  relative : dir.isAbsolute = false
  follows : t.follow [] dir.stem = .ok folder
  stands : t.node? folder = some .folder

theorem Leads.unique {dir : Path} {folder folder' : Place} (leads : t.Leads dir folder)
    (leads' : t.Leads dir folder') : folder = folder' :=
  Except.ok.inj (leads.follows.symm.trans leads'.follows)

theorem Leads.keep {dir : Path} {folder : Place} (leads : t.Leads dir folder) (keeps : Keeps t t') :
    t'.Leads dir folder :=
  ⟨leads.relative,keeps.follow leads.follows,keeps folder leads.stands⟩

section Entry

variable {dir : Path} {folder : Place} {name : String} (entry : IsEntry name.toList)

include entry

theorem reach_join (t : FileTree) (dir : Path) : t.reach (dir.join ⟨name⟩) =
    if dir.isAbsolute then .error .missing else (t.follow [] dir.stem).bind (t.follow · [name.toList]) := by
  rw [reach,Path.isEmpty_join entry,Path.isAbsolute_join entry,Path.pieces_join entry,follow_append]
  simp

theorem Leads.reaches (leads : t.Leads dir folder) : t.reach (dir.join ⟨name⟩) = .ok (folder ++ [name.toList]) := by
  rw [reach_join entry,leads.relative,leads.follows]
  exact follow_entry entry leads.stands

theorem leads_of_reach {place : Place} (reached : t.reach (dir.join ⟨name⟩) = .ok place) :
    ∃ folder, t.Leads dir folder ∧ place = folder ++ [name.toList] := by
  rw [reach_join entry] at reached
  split at reached
  · simp at reached
  next relative =>
  cases followed : t.follow [] dir.stem with
  | error fault => simp [followed,Except.bind] at reached
  | ok folder =>
    simp only [followed,Except.bind] at reached
    have stands := stands_of_follow reached
    rw [follow_entry entry stands] at reached
    exact ⟨folder,⟨by simpa using relative,followed,stands⟩,(Except.ok.inj reached).symm⟩

theorem Leads.aims (leads : t.Leads dir folder) :
    t.target (dir.join ⟨name⟩) = .ok ⟨folder,name.toList,false⟩ := by
  rw [target_eq,Path.isEmpty_join entry,Path.isAbsolute_join entry,Path.pieces_join entry,leads.relative]
  simp [entry.filled,leads.follows,Except.bind,leads.stands]

theorem leads_of_target {g : Target} (aimed : t.target (dir.join ⟨name⟩) = .ok g) :
    ∃ folder, t.Leads dir folder ∧ g = ⟨folder,name.toList,false⟩ := by
  rw [target_eq,Path.isEmpty_join entry,Path.isAbsolute_join entry,Path.pieces_join entry] at aimed
  cases relative : dir.isAbsolute with
  | true => simp [relative] at aimed
  | false =>
    cases followed : t.follow [] dir.stem with
    | error fault => simp [relative,entry.filled,followed,Except.bind] at aimed
    | ok folder =>
      simp only [relative,List.reverse_append,List.reverse_cons,List.reverse_nil,List.nil_append,
        List.cons_append,List.dropWhile_cons,entry.filled,followed,Except.bind,List.reverse_reverse,
        decide_false,Bool.or_false,Bool.false_eq_true,if_false] at aimed
      split at aimed
      · next stands =>
        cases aimed
        exact ⟨folder,⟨relative,followed,stands⟩,by simp [entry.filled]⟩
      · simp at aimed
      · simp at aimed

end Entry

/-! Updates: what they leave as it was, and that the tree stays one of files. -/

theorem WellFormed.entries_of_node? (formed : t.WellFormed) {place : Place} {node : FileNode}
    (found : t.node? place = some node) : ∀ n ∈ place, IsEntry n := by
  by_cases root : place = []
  · simp [root]
  · exact formed.entries _ (mem_of_node? root found)

theorem WellFormed.parent_of_node? (formed : t.WellFormed) {place : Place} {node : FileNode}
    (found : t.node? place = some node) : t.node? place.dropLast = some .folder := by
  by_cases root : place = []
  · simp [root]
  · exact formed.parents _ (mem_of_node? root found)

theorem mem_others {place : Place} {e : Place × FileNode} : e ∈ t.others place ↔ e ∈ t.nodes ∧ e.1 ≠ place := by
  simp [others]

theorem Keeps.put {place : Place} {node : FileNode} (free : t.node? place = some .folder → node = .folder) :
    Keeps t (t.put place node) := by
  intro other stands
  by_cases same : other = place
  · subst same
    by_cases root : other = []
    · simp [root]
    · rw [node?_put_self t node root,free stands]
  · rw [node?_put_of_ne t node same,stands]

theorem Keeps.erase {place : Place} (free : t.node? place ≠ some .folder) : Keeps t (t.erase place) := by
  intro other stands
  have apart : other ≠ place := by
    rintro rfl
    exact free stands
  rw [node?_erase_of_ne t apart,stands]

theorem WellFormed.put (formed : t.WellFormed) {folder : Place} {name : List Char} {node : FileNode}
    (entry : IsEntry name) (stands : t.node? folder = some .folder)
    (free : t.node? (folder ++ [name]) = some .folder → node = .folder) :
    (t.put (folder ++ [name]) node).WellFormed := by
  have keeps : Keeps t (t.put (folder ++ [name]) node) := .put free
  refine ⟨fun e member => ?_,fun e member => ?_,fun e member => ?_⟩ <;>
    rcases List.mem_cons.mp member with rfl | member
  · simp
  · exact formed.filled e (mem_others.mp member).1
  · intro n inside
    rcases List.mem_append.mp inside with inside | inside
    · exact formed.entries_of_node? stands n inside
    · exact List.mem_singleton.mp inside ▸ entry
  · exact formed.entries e (mem_others.mp member).1
  · simpa using keeps folder stands
  · exact keeps _ (formed.parents e (mem_others.mp member).1)

theorem WellFormed.erase (formed : t.WellFormed) {place : Place} (free : t.node? place ≠ some .folder) :
    (t.erase place).WellFormed where
  filled e member := formed.filled e (mem_others.mp member).1
  entries e member := formed.entries e (mem_others.mp member).1
  parents e member := Keeps.erase free _ (formed.parents e (mem_others.mp member).1)

end InlineIcons.FileTree
