import InlineIcons.Output
import InlineIcons.Proofs.FileTree.Basic
import InlineIcons.Proofs.Text.Utf8

/-! Making folders only adds folders, and where the folder of a path stands nothing needs to be made. -/
namespace InlineIcons

namespace Path

def lead (dir : Path) : List Char :=
  if dir.text.isEmpty then []
  else if dir.text.toList.getLast? == some '/' then dir.text.toList
  else dir.text.toList ++ ['/']

/-- The folder of the paths that join names to a path, as its text is cut down. -/
def folder (dir : Path) : Path := ⟨String.ofList (dropEnding dir.lead.reverse).reverse⟩

theorem toList_join {dir : Path} {name : String} (entry : IsEntry name.toList) :
    (dir.join ⟨name⟩).text.toList = dir.lead ++ name.toList := by
  simp only [join,isAbsolute_entry entry,Bool.false_or,lead]
  split
  · rfl
  split
  · exact String.toList_append
  · rw [String.toList_append,String.toList_append]
    rfl

theorem pieces_lead (dir : Path) : pieces dir.lead = dir.stem ++ [[]] := by
  unfold lead stem
  split
  · rfl
  split
  · next closed =>
    have split := List.dropLast_append_getLast? '/' (by simpa using closed)
    nth_rewrite 1 [← split]
    exact pieces_append _ []
  · exact pieces_append _ []

theorem lead_eq (dir : Path) : dir.lead = [] ∨ ∃ above, dir.lead = above ++ ['/'] := by
  unfold lead
  split
  · exact .inl rfl
  split
  · next closed => exact .inr ⟨_,(List.dropLast_append_getLast? '/' (by simpa using closed)).symm⟩
  · exact .inr ⟨_,rfl⟩

theorem exists_last {n : List Char} (entry : IsEntry n) : ∃ before c, n = before ++ [c] ∧ c ≠ '/' := by
  refine ⟨_,_,(List.dropLast_append_getLast entry.filled).symm,fun slash => entry.single ?_⟩
  exact slash ▸ List.getLast_mem entry.filled

/-- Behind the name of an entry there is no ending to drop. -/
theorem dropEnding_entry {before lead : List Char} {c : Char} (entry : IsEntry (before ++ [c])) (slash : c ≠ '/') :
    dropEnding (c :: (before.reverse ++ lead)) = c :: (before.reverse ++ lead) := by
  unfold dropEnding
  split
  · next same => exact absurd (List.cons.inj same).1 slash
  -- A dot ends a name only behind some other character of it.
  · next same =>
    obtain ⟨rfl,behind⟩ := List.cons.inj same
    rcases List.eq_nil_or_concat before with rfl | ⟨inner,d,rfl⟩
    · exact absurd rfl entry.here
    · have separator : d = '/' := by simpa using congrArg List.head? behind
      exact absurd (by simp [separator]) entry.single
  · rfl

theorem dropWhile_entry (dir : Path) {n : List Char} (single : '/' ∉ n) :
    (n.reverse ++ dir.lead.reverse).dropWhile (· != '/') = dir.lead.reverse := by
  have inner : ∀ d ∈ n.reverse, (d != '/') = true := by
    intro d member
    rw [bne_iff_ne]
    rintro rfl
    exact single (List.mem_reverse.mp member)
  rw [List.dropWhile_append_of_pos inner]
  obtain bare | ⟨above,closed⟩ := dir.lead_eq
  · simp [bare]
  · simp [closed]

theorem parent?_join {dir : Path} {name : String} (entry : IsEntry name.toList) :
    (dir.join ⟨name⟩).parent? = some dir.folder := by
  obtain ⟨before,c,split,slash⟩ := exists_last entry
  have backwards : (dir.join ⟨name⟩).text.toList.reverse = c :: (before.reverse ++ dir.lead.reverse) := by
    simp [toList_join entry,split]
  have cut : (c :: (before.reverse ++ dir.lead.reverse)).dropWhile (· != '/') = dir.lead.reverse := by
    have whole := dropWhile_entry dir entry.single
    simpa [split] using whole
  rw [parent?,backwards,dropEnding_entry (split ▸ entry) slash]
  split
  · next bare => simp at bare
  · next alone =>
    have : c = '/' := by simpa using congrArg List.head? alone
    exact absurd this slash
  · rw [cut]
    rfl

theorem dropEnding_suffix (cs : List Char) : dropEnding cs <:+ cs := by
  induction cs using dropEnding.induct with
  | case1 c rest ih => exact ih.trans (List.suffix_cons '/' _)
  | case2 rest ih => exact ih.trans (List.suffix_cons '.' _)
  | case3 cs other other' =>
    have kept : dropEnding cs = cs := dropEnding.eq_3 cs other other'
    exact kept.symm ▸ List.suffix_refl cs

theorem isAbsolute_folder {dir : Path} (relative : dir.isAbsolute = false) : dir.folder.isAbsolute = false := by
  rw [isAbsolute,folder,String.toList_ofList,beq_eq_false_iff_ne]
  intro first
  have start : (dropEnding dir.lead.reverse).reverse <+: dir.lead := by
    simpa using List.reverse_prefix.mpr (dropEnding_suffix dir.lead.reverse)
  obtain ⟨rest,split⟩ := start
  have first : dir.lead.head? = some '/' := by
    rw [← split,List.head?_append,first]
    rfl
  have head : dir.lead.head? = dir.text.toList.head? := by
    unfold lead at first ⊢
    split
    · next bare => simp [bare] at first
    split
    · rfl
    · next filled _ => exact List.head?_append_of_ne_nil _ (by simpa using filled)
  rw [isAbsolute,← head,first] at relative
  cases relative

end Path

namespace FileTree

variable {t t' : FileTree}

theorem follow_concat_blank {place target : Place} {pieces : List (List Char)} {piece : List Char}
    (blank : piece = [] ∨ piece = ['.']) :
    t.follow place (pieces ++ [piece]) = .ok target ↔
      t.follow place pieces = .ok target ∧ t.node? target = some .folder := by
  rw [follow_append]
  cases followed : t.follow place pieces with
  | error fault => simp [Except.bind]
  | ok inner =>
    simp only [Except.bind,Except.ok.injEq]
    refine ⟨fun last => ?_,?_⟩
    · have stands := stands_of_follow last
      have same : inner = target := by simpa [follow,stands,blank] using last
      exact ⟨same,same ▸ stands⟩
    · rintro ⟨rfl,stands⟩
      simp [follow,stands,blank]

/-- A folder's path leads where it does when its ending is dropped. -/
theorem follow_dropEnding {cs : List Char} {target : Place}
    (followed : t.follow [] (Path.pieces cs.reverse) = .ok target) :
    t.follow [] (Path.pieces (Path.dropEnding cs).reverse) = .ok target := by
  induction cs using Path.dropEnding.induct with
  | case1 c rest ih =>
    have split : Path.pieces ('/' :: c :: rest).reverse = Path.pieces (c :: rest).reverse ++ [[]] := by
      rw [List.reverse_cons]
      exact Path.pieces_append _ []
    rw [split,follow_concat_blank (.inl rfl)] at followed
    exact ih followed.1
  | case2 rest ih =>
    have split : Path.pieces ('.' :: '/' :: rest).reverse = Path.pieces rest.reverse ++ [['.']] := by
      rw [List.reverse_cons,List.reverse_cons,List.append_assoc]
      exact Path.pieces_append _ ['.']
    have split' : Path.pieces ('/' :: rest).reverse = Path.pieces rest.reverse ++ [[]] := by
      rw [List.reverse_cons]
      exact Path.pieces_append _ []
    rw [split,follow_concat_blank (.inr rfl)] at followed
    exact ih (by rw [split',follow_concat_blank (.inl rfl)]; exact followed)
  | case3 cs other other' => rwa [Path.dropEnding.eq_3 cs other other']

/-- Where a folder stands its path is found, or it is the empty path. -/
theorem has_folder {dir : Path} {folder : Place} (leads : t.Leads dir folder) :
    dir.folder.text.isEmpty = true ∨ t.has dir.folder = true := by
  have followed : t.follow [] (Path.pieces dir.lead.reverse.reverse) = .ok folder := by
    rw [List.reverse_reverse,Path.pieces_lead,follow_concat_blank (.inl rfl)]
    exact ⟨leads.follows,leads.stands⟩
  have reached := follow_dropEnding followed
  cases bare : dir.folder.text.isEmpty with
  | true => exact .inl rfl
  | false =>
    have reached : t.reach dir.folder = .ok folder := by
      rw [reach,bare,Path.isAbsolute_folder leads.relative,Path.folder,String.toList_ofList]
      exact reached
    rw [has,find_of_reach reached leads.stands]
    exact .inr rfl

/-- Only folders are added. -/
structure Adds (t t' : FileTree) : Prop where
  nodes : ∀ place, t'.node? place = t.node? place ∨ (t.node? place = none ∧ t'.node? place = some .folder)
  formed : t.WellFormed → t'.WellFormed

theorem Adds.refl (t : FileTree) : Adds t t := ⟨fun _ => .inl rfl,id⟩

theorem Adds.trans {t'' : FileTree} (first : Adds t t') (second : Adds t' t'') : Adds t t'' := by
  refine ⟨fun place => ?_,fun formed => second.formed (first.formed formed)⟩
  rcases first.nodes place with same | ⟨absent,added⟩ <;>
    rcases second.nodes place with same' | ⟨absent',added'⟩
  · exact .inl (same'.trans same)
  · exact .inr ⟨same ▸ absent',added'⟩
  · exact .inr ⟨absent,same'.trans added⟩
  · exact .inr ⟨absent,added'⟩

theorem Adds.keeps (adds : Adds t t') : Keeps t t' := by
  intro place stands
  rcases adds.nodes place with same | ⟨absent,_⟩
  · rw [same,stands]
  · rw [stands] at absent
    cases absent

theorem makeFolder_eq (t : FileTree) (p : Path) : t.makeFolder p = (t.target p).bind fun g =>
    if g.isDots || (t.node? g.place).isSome then .error .occupied else .ok (t.put g.place .folder) := by
  unfold makeFolder
  cases t.target p with
  | error fault => rfl
  | ok g =>
    show (if _ then _ else _) = ite _ _ _
    split <;> rfl

theorem entry_of_target {p : Path} {g : Target} (aimed : t.target p = .ok g) (named : g.isDots = false) :
    IsEntry g.name := by
  obtain ⟨_,filled,single⟩ := target_ok aimed
  simp only [Target.isDots,Bool.or_eq_false_iff,decide_eq_false_iff_not] at named
  exact ⟨filled,single,named.1,named.2⟩

theorem makeFolder_adds {p : Path} (made : t.makeFolder p = .ok t') : Adds t t' := by
  rw [makeFolder_eq] at made
  cases aimed : t.target p with
  | error fault => simp [aimed,Except.bind] at made
  | ok g =>
    simp only [aimed,Except.bind] at made
    split at made
    · cases made
    · next vacant =>
      cases made
      simp only [Bool.or_eq_true,not_or,Bool.not_eq_true,Option.isSome_eq_false_iff,
        Option.isNone_iff_eq_none] at vacant
      obtain ⟨named,absent⟩ := vacant
      refine ⟨fun place => ?_,fun formed => formed.put (entry_of_target aimed named) (target_ok aimed).1 fun _ => rfl⟩
      by_cases same : place = g.place
      · subst same
        exact .inr ⟨absent,node?_put_self t _ (by simp [Target.place])⟩
      · exact .inl (node?_put_of_ne t _ same)

theorem makeAlong_adds (t : FileTree) (paths : List Path) : Adds t (t.makeAlong paths).1 := by
  induction paths generalizing t with
  | nil => exact .refl t
  | cons p above ih =>
    rw [makeAlong]
    split
    · exact .refl t
    split
    · next t' made => exact makeFolder_adds made
    · next missing =>
      have first := ih t
      split
      · next t' fault failed => exact failed ▸ first
      · next t' done =>
        have first : Adds t t' := by simpa [done] using first
        split
        · next t'' made => exact first.trans (makeFolder_adds made)
        · exact first
    · exact .refl t

theorem prepare_adds (t : FileTree) (p : Path) : Adds t (t.prepare p).1 := by
  unfold prepare
  split
  · exact .refl t
  · next folder _ =>
    split
    · exact .refl t
    · have made : Adds t (t.makeFolders folder).1 := makeAlong_adds t folder.ancestors
      split
      · next t' done => simpa [done] using made
      · next t' fault failed => simpa [failed] using made

def HoldsAt (t : FileTree) (place : Place) (content : String) : Prop :=
  ∃ bytes, t.node? place = some (.file bytes) ∧ Text.ofUtf8? bytes = some content

theorem readText_eq (t : FileTree) (p : Path) : t.readText p = (t.find p).bind fun e =>
    match e.2 with
    | .folder => .error .isFolder
    | .file bytes => match Text.ofUtf8? bytes with
      | some text => .ok text
      | none => .error .notText := by
  unfold readText read
  rcases t.find p with fault | ⟨place,bytes | _⟩
  · rfl
  · show (match Text.ofUtf8? bytes with | _ => _) = (match Text.ofUtf8? bytes with | _ => _)
    cases Text.ofUtf8? bytes <;> rfl
  · rfl

theorem holds_iff_find {p : Path} {content : String} : t.holds p content = true ↔
    ∃ place bytes, t.find p = .ok (place,.file bytes) ∧ Text.ofUtf8? bytes = some content := by
  rw [holds,readText_eq]
  rcases t.find p with fault | ⟨place,bytes | _⟩
  · simp [Except.bind]
  · simp only [Except.bind]
    cases text : Text.ofUtf8? bytes <;> simp [text]
  · simp [Except.bind]

theorem holds_unique {p : Path} {content other : String} (held : t.holds p content = true)
    (held' : t.holds p other = true) : content = other := by
  obtain ⟨place,bytes,found,text⟩ := holds_iff_find.mp held
  obtain ⟨place',bytes',found',text'⟩ := holds_iff_find.mp held'
  rw [found] at found'
  cases found'
  exact Option.some.inj (text.symm.trans text')

end FileTree

/-- A name that a unit's file can have. -/
structure UnitName (name : String) : Prop where
  single : '/' ∉ name.toList
  marked : FileTree.isGenerated name.toList = true

namespace UnitName

variable {name : String} (named : UnitName name)

include named

theorem last : name.toList.getLast? = some 's' := by
  obtain ⟨stem,split⟩ := List.isSuffixOf_iff_suffix.mp named.marked
  rw [← split]
  simp [SourceUnit.suffix]

theorem entry : IsEntry name.toList := by
  have last := named.last
  refine ⟨?_,named.single,?_,?_⟩ <;> rintro bare <;> simp [bare] at last

end UnitName

namespace FileTree

variable {t t' : FileTree} {dir : Path} {folder : Place} {name other content : String}

/-- The tree with the folder in which units are to stand. -/
def withFolder (t : FileTree) (dir : Path) : FileTree := (t.prepare (dir.join ⟨SourceUnit.indexHint⟩)).1

theorem indexHint_named : UnitName SourceUnit.indexHint := by
  refine ⟨?_,?_⟩ <;> decide

theorem prepare_join (t : FileTree) (dir : Path) (entry : IsEntry name.toList) :
    t.prepare (dir.join ⟨name⟩) = t.prepare (dir.join ⟨SourceUnit.indexHint⟩) := by
  rw [prepare,prepare,Path.parent?_join entry,Path.parent?_join indexHint_named.entry]

theorem Leads.prepare (leads : t.Leads dir folder) (entry : IsEntry name.toList) :
    t.prepare (dir.join ⟨name⟩) = (t,.ok ()) := by
  rw [FileTree.prepare,Path.parent?_join entry]
  rcases has_folder leads with bare | has
  · have made : t.makeFolders dir.folder = (t,.ok ()) := by
      rw [makeFolders,Path.ancestors,Path.ancestorsWithin,makeAlong,if_pos bare]
    simp [made]
  · simp [has]

theorem Leads.withFolder (leads : t.Leads dir folder) : t.withFolder dir = t :=
  congrArg Prod.fst (leads.prepare indexHint_named.entry)

theorem Leads.holds (leads : t.Leads dir folder) (entry : IsEntry name.toList) :
    t.holds (dir.join ⟨name⟩) content = true ↔ t.HoldsAt (folder ++ [name.toList]) content := by
  rw [holds_iff_find]
  constructor
  · rintro ⟨place,bytes,found,text⟩
    obtain ⟨reached,held⟩ := find_ok found
    rw [leads.reaches entry] at reached
    cases reached
    exact ⟨bytes,held,text⟩
  · rintro ⟨bytes,held,text⟩
    exact ⟨_,bytes,find_of_reach (leads.reaches entry) held,text⟩

theorem leads_of_holds (entry : IsEntry name.toList) (held : t.holds (dir.join ⟨name⟩) content = true) :
    ∃ folder, t.Leads dir folder := by
  obtain ⟨place,bytes,found,text⟩ := holds_iff_find.mp held
  obtain ⟨folder,leads,_⟩ := leads_of_reach entry (find_ok found).1
  exact ⟨folder,leads⟩

/-- A text is written to a place, where there was no folder, and nothing else changes. -/
structure Wrote (t t' : FileTree) (place : Place) (content : String) : Prop where
  held : t'.HoldsAt place content
  others : ∀ other, other ≠ place → t'.node? other = t.node? other
  free : t.node? place ≠ some .folder
  formed : t.WellFormed → t'.WellFormed

theorem Wrote.keeps {place : Place} (wrote : Wrote t t' place content) : Keeps t t' := by
  intro other stands
  have apart : other ≠ place := by
    rintro rfl
    exact wrote.free stands
  rw [wrote.others other apart,stands]

theorem write_eq (t : FileTree) (p : Path) (bytes : List UInt8) : t.write p bytes = (t.target p).bind fun g =>
    if g.closed || g.isDots then .error .isFolder
    else match t.node? g.place with
      | some .folder => .error .isFolder
      | _ => .ok (t.put g.place (.file bytes)) := by
  unfold write
  cases t.target p with
  | error fault => rfl
  | ok g =>
    show (if _ then _ else _) = ite _ _ _
    split
    · rfl
    · show (match t.node? g.place with | _ => _) = (match t.node? g.place with | _ => _)
      rcases t.node? g.place with _ | (_ | _) <;> rfl

theorem write_wrote (entry : IsEntry name.toList) (written : t.write (dir.join ⟨name⟩) (Text.utf8 content) = .ok t') :
    ∃ folder, t.Leads dir folder ∧ Wrote t t' (folder ++ [name.toList]) content := by
  rw [write_eq] at written
  cases aimed : t.target (dir.join ⟨name⟩) with
  | error fault => simp [aimed,Except.bind] at written
  | ok g =>
    obtain ⟨folder,leads,rfl⟩ := leads_of_target entry aimed
    simp only [aimed,Except.bind] at written
    split at written
    · cases written
    split at written
    · cases written
    · next free =>
      cases written
      have free : t.node? (folder ++ [name.toList]) ≠ some .folder := fun stands => free stands
      refine ⟨folder,leads,⟨_,node?_put_self t _ (by simp [Target.place]),Text.ofUtf8?_utf8 content⟩,
        ?_,free,fun formed => ?_⟩
      · exact fun other apart => node?_put_of_ne t _ apart
      · exact formed.put entry leads.stands fun stands => absurd stands free

theorem writeText_ok (entry : IsEntry name.toList) {result : WriteResult}
    (written : t.writeText false (dir.join ⟨name⟩) content = (t',.ok result)) :
    ∃ folder, (t.withFolder dir).Leads dir folder ∧
      Wrote (t.withFolder dir) t' (folder ++ [name.toList]) content := by
  rw [writeText] at written
  split at written
  · next held =>
    cases written
    obtain ⟨folder,leads⟩ := leads_of_holds entry held
    rw [leads.withFolder]
    have held := (leads.holds entry).mp held
    refine ⟨folder,leads,held,fun _ _ => rfl,?_,id⟩
    obtain ⟨bytes,file,_⟩ := held
    simp [file]
  · simp only [Bool.false_eq_true,if_false] at written
    rw [prepare_join t dir entry] at written
    rcases prepared : t.prepare (dir.join ⟨SourceUnit.indexHint⟩) with ⟨made,done⟩
    have same : t.withFolder dir = made := congrArg Prod.fst prepared
    rw [same]
    simp only [prepared] at written
    cases done with
    | error fault => cases written
    | ok =>
      simp only at written
      cases put : made.write (dir.join ⟨name⟩) (Text.utf8 content) with
      | error fault => simp [put] at written
      | ok t₁ =>
        simp only [put,Prod.mk.injEq] at written
        obtain ⟨rfl,_⟩ := written
        exact write_wrote entry put

theorem Leads.wrote (leads : t.Leads dir folder) (entry : IsEntry name.toList) {result : WriteResult}
    (written : t.writeText false (dir.join ⟨name⟩) content = (t',.ok result)) :
    Wrote t t' (folder ++ [name.toList]) content := by
  obtain ⟨folder',leads',wrote⟩ := writeText_ok entry written
  rw [leads.withFolder] at leads' wrote
  obtain rfl := leads.unique leads'
  exact wrote

theorem Leads.writeText (leads : t.Leads dir folder) (entry : IsEntry name.toList)
    (free : t.node? (folder ++ [name.toList]) ≠ some .folder) (content : String) :
    ∃ t' result, t.writeText false (dir.join ⟨name⟩) content = (t',.ok result) := by
  rw [FileTree.writeText]
  by_cases held : t.holds (dir.join ⟨name⟩) content = true
  · exact ⟨t,_,if_pos held⟩
  · have put : ∃ t', t.write (dir.join ⟨name⟩) (Text.utf8 content) = .ok t' := by
      rw [write_eq,leads.aims entry]
      have undotted : Target.isDots ⟨folder,name.toList,false⟩ = false := by
        simp [Target.isDots,entry.here,entry.above]
      simp only [Except.bind,undotted,Bool.or_false,Bool.false_eq_true,if_false]
      split
      · next stands => exact absurd stands free
      · exact ⟨_,rfl⟩
    obtain ⟨t',put⟩ := put
    rw [if_neg held,leads.prepare entry]
    simp [put]

end FileTree
end InlineIcons
