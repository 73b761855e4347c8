import InlineIcons.FileTree.Basic
import Mathlib.Data.List.Basic

/-! Paths by their pieces: the path of a name in a folder, and the order of paths, which is that of lists of
numbers. Places of names are told apart by it. -/
namespace InlineIcons

/-- A name that an entry of a folder can have. -/
structure IsEntry (name : List Char) : Prop where
  filled : name ≠ []
  single : '/' ∉ name
  here : name ≠ ['.']
  above : name ≠ ['.','.']

instance (name : List Char) : Decidable (IsEntry name) :=
  decidable_of_iff (name ≠ [] ∧ '/' ∉ name ∧ name ≠ ['.'] ∧ name ≠ ['.','.'])
    ⟨fun ⟨filled,single,here,above⟩ => ⟨filled,single,here,above⟩,
      fun ⟨filled,single,here,above⟩ => ⟨filled,single,here,above⟩⟩

namespace Path

theorem pieces_append (a b : List Char) : pieces (a ++ '/' :: b) = pieces a ++ pieces b :=
  List.splitOn_append_cons_self a b

theorem pieces_single {a : List Char} (single : '/' ∉ a) : pieces a = [a] := List.splitOn_eq_singleton single

theorem pieces_intercalate {place : Place} (filled : place ≠ []) (single : ∀ n ∈ place, '/' ∉ n) :
    pieces (['/'].intercalate place) = place :=
  List.splitOn_intercalate '/' single filled

theorem not_mem_of_mem_pieces {cs piece : List Char} (member : piece ∈ pieces cs) : '/' ∉ piece := by
  obtain ⟨n,same⟩ : ∃ n, cs.length = n := ⟨_,rfl⟩
  induction n using Nat.strongRecOn generalizing cs with
  | _ n ih =>
    by_cases inside : '/' ∈ cs
    · obtain ⟨a,b,rfl⟩ := List.append_of_mem inside
      rw [List.length_append,List.length_cons] at same
      rw [pieces_append,List.mem_append] at member
      rcases member with member | member
      · exact ih a.length (by omega) member rfl
      · exact ih b.length (by omega) member rfl
    · rw [pieces_single inside,List.mem_singleton] at member
      exact member ▸ inside

/-- The pieces of a folder's path that stand before those of a name in it. -/
def stem (dir : Path) : List (List Char) :=
  if dir.text.isEmpty then []
  else if dir.text.toList.getLast? == some '/' then pieces dir.text.toList.dropLast
  else pieces dir.text.toList

theorem isAbsolute_place {place : Place} (entries : ∀ n ∈ place, IsEntry n) : (⟨place.text⟩ : Path).isAbsolute = false := by
  rw [isAbsolute,beq_eq_false_iff_ne,Place.text,String.toList_ofList]
  cases place with
  | nil => simp
  | cons name rest =>
    have entry := entries name List.mem_cons_self
    obtain ⟨c,cs,begins⟩ := List.exists_cons_of_ne_nil entry.filled
    have other : c ≠ '/' := fun slash => entry.single (by simp [begins,slash])
    cases rest <;> simp [begins,List.intercalate_cons_cons,other]

theorem pieces_join_place (dir : Path) {place : Place} (filled : place ≠ []) (entries : ∀ n ∈ place, IsEntry n) :
    pieces (dir.join ⟨place.text⟩).text.toList = dir.stem ++ place := by
  have split : pieces place.text.toList = place := by
    rw [Place.text,String.toList_ofList]
    exact pieces_intercalate filled fun n member => (entries n member).single
  simp only [join,isAbsolute_place entries,Bool.false_or,stem]
  split
  · exact split
  split
  · next closed =>
    have last := List.dropLast_append_getLast? '/' (by simpa using closed)
    rw [String.toList_append]
    nth_rewrite 1 [← last]
    rw [List.append_assoc,List.singleton_append,pieces_append,split]
  · have slash : ("/" : String).toList = ['/'] := rfl
    rw [String.toList_append,String.toList_append,slash,List.append_assoc,List.singleton_append,
      pieces_append,split]

theorem text_single (name : String) : Place.text [name.toList] = name := by
  simp [Place.text]

theorem isAbsolute_entry {name : String} (entry : IsEntry name.toList) : (⟨name⟩ : Path).isAbsolute = false := by
  have single := @isAbsolute_place [name.toList] (by simpa using entry)
  rwa [text_single] at single

section Join

variable {dir : Path} {name : String} (entry : IsEntry name.toList)

include entry

theorem pieces_join : pieces (dir.join ⟨name⟩).text.toList = dir.stem ++ [name.toList] := by
  have single := @pieces_join_place dir [name.toList] (by simp) (by simpa using entry)
  rwa [text_single] at single

theorem isEmpty_join : (dir.join ⟨name⟩).text.isEmpty = false := by
  have filled : (dir.join ⟨name⟩).text.toList ≠ [] := by
    intro bare
    have joined : pieces (dir.join ⟨name⟩).text.toList = dir.stem ++ [name.toList] := pieces_join entry
    rw [bare] at joined
    have last := congrArg List.getLast? joined
    rw [List.getLast?_concat] at last
    exact entry.filled (Option.some.inj last).symm
  rw [Bool.eq_false_iff]
  intro bare
  exact filled (by rw [String.isEmpty_iff.mp bare]; rfl)

theorem isAbsolute_join : (dir.join ⟨name⟩).isAbsolute = dir.isAbsolute := by
  simp only [join,isAbsolute_entry entry,Bool.false_or]
  split
  · next bare =>
    rw [isAbsolute_entry entry,isAbsolute,String.isEmpty_iff.mp bare]
    rfl
  · next filled =>
    have filled : dir.text.toList ≠ [] := by simpa using filled
    split <;> simp [isAbsolute,List.head?_append_of_ne_nil _ filled]

end Join

theorem cutExtension_append {stem extension : List Char} (filled : stem ≠ []) (plain : '.' ∉ extension) :
    cutExtension (stem ++ '.' :: extension) = (stem,some extension) := by
  have inside : ∀ c ∈ extension.reverse, (c != '.') = true := by
    intro c member
    have other : c ≠ '.' := fun dot => plain (dot ▸ List.mem_reverse.mp member)
    simpa using other
  have backwards : (stem ++ '.' :: extension).reverse = extension.reverse ++ '.' :: stem.reverse := by simp
  have dots : ('.' :: stem.reverse).reverse = stem ++ ['.'] := by simp
  unfold cutExtension
  rw [backwards,List.takeWhile_append_of_pos inside,List.dropWhile_append_of_pos inside]
  simp only [List.takeWhile_cons,List.dropWhile_cons,bne_self_eq_false,Bool.false_eq_true,if_false,List.append_nil,
    List.reverse_reverse,dots]
  split
  · next none => simp at none
  · next none => simp [filled] at none
  · simp

def Component.key : Component → List Nat
  | .name cs => 3 :: cs.map Char.toNat
  | c => [c.rank]

theorem compareChars_eq (as bs : List Char) :
    compareChars as bs = compare (as.map Char.toNat) (bs.map Char.toNat) := by
  induction as generalizing bs with
  | nil => cases bs <;> rfl
  | cons a as ih =>
    cases bs with
    | nil => rfl
    | cons b bs => rw [compareChars,ih,List.map_cons,List.map_cons,List.compare_cons_cons]

theorem Component.cmp_eq (a b : Component) : a.cmp b = compare a.key b.key := by
  cases a <;> cases b <;> simp [Component.cmp,Component.key,Component.rank,List.compare_cons_cons,compareChars_eq] <;> rfl

theorem compareComponents_eq (as bs : List Component) :
    compareComponents as bs = compare (as.map Component.key) (bs.map Component.key) := by
  induction as generalizing bs with
  | nil => cases bs <;> rfl
  | cons a as ih =>
    cases bs with
    | nil => rfl
    | cons b bs =>
      rw [compareComponents,ih,Component.cmp_eq,List.map_cons,List.map_cons,List.compare_cons_cons]

theorem Component.key_injective : Function.Injective Component.key := by
  intro a b same
  have chars : Function.Injective Char.toNat := fun _ _ => Char.toNat_inj.mp
  cases a <;> cases b <;> simp [Component.key,Component.rank] at same ⊢
  exact List.map_injective_iff.mpr chars same

/-- What paths are ordered by. -/
def key (p : Path) : List (List Nat) := p.components.map Component.key

theorem cmp_eq (p q : Path) : p.cmp q = compare p.key q.key := compareComponents_eq ..

theorem compare_swap (a b : List (List Nat)) : compare b a = (compare a b).swap := Std.OrientedCmp.eq_swap

theorem isLE_cmp_trans {p q r : Path} (first : (p.cmp q).isLE) (second : (q.cmp r).isLE) : (p.cmp r).isLE := by
  rw [cmp_eq] at *
  exact Std.TransCmp.isLE_trans first second

theorem isLE_cmp_total (p q : Path) : (p.cmp q).isLE || (q.cmp p).isLE := by
  rw [cmp_eq,cmp_eq,compare_swap p.key]
  cases compare p.key q.key <;> rfl

theorem cmp_asymm {p q : Path} (before : p.cmp q = .lt) : q.cmp p ≠ .lt := by
  rw [cmp_eq] at before
  rw [cmp_eq,compare_swap p.key,before]
  decide

theorem components_eq_of_isLE {p q : Path} (first : (p.cmp q).isLE) (second : (q.cmp p).isLE) :
    p.components = q.components := by
  rw [cmp_eq] at *
  have same : compare p.key q.key = .eq := by
    rw [compare_swap p.key] at second
    cases order : compare p.key q.key <;> simp [order] at first second ⊢
  exact List.map_injective_iff.mpr Component.key_injective (Std.LawfulEqCmp.eq_of_compare same)

theorem cmp_eq_lt {p q : Path} (before : (p.cmp q).isLE) (apart : p.components ≠ q.components) : p.cmp q = .lt := by
  cases order : p.cmp q with
  | lt => rfl
  | gt => simp [order] at before
  | eq =>
    have after : (q.cmp p).isLE := by
      rw [cmp_eq] at order ⊢
      rw [compare_swap p.key,order]
      rfl
    exact absurd (components_eq_of_isLE before after) apart

theorem ofPiece?_entry {name : List Char} (entry : IsEntry name) : Component.ofPiece? name = some (.name name) := by
  unfold Component.ofPiece?
  split
  · exact absurd rfl entry.filled
  · exact absurd rfl entry.here
  · exact absurd rfl entry.above
  · rfl

theorem components_text {place : Place} (entries : ∀ n ∈ place, IsEntry n) :
    (⟨place.text⟩ : Path).components = place.map Component.name := by
  cases place with
  | nil => rfl
  | cons first rest =>
    have names : (first :: rest).filterMap Component.ofPiece? = (first :: rest).map Component.name :=
      List.filterMap_eq_map_iff_forall_eq_some.mpr fun n member => ofPiece?_entry (entries n member)
    have head := entries first List.mem_cons_self
    simp only [components,Place.text,String.toList_ofList]
    rw [pieces_intercalate (List.cons_ne_nil first rest) fun n member => (entries n member).single]
    simp [head.filled,head.here,names]

theorem components_join (dir : Path) : ∃ head, ∀ place : Place, place ≠ [] → (∀ n ∈ place, IsEntry n) →
    (dir.join ⟨place.text⟩).components = head ++ place.map Component.name := by
  have names : ∀ place : Place, (∀ n ∈ place, IsEntry n) →
      place.filterMap Component.ofPiece? = place.map Component.name := fun place entries =>
    List.filterMap_eq_map_iff_forall_eq_some.mpr fun n member => ofPiece?_entry (entries n member)
  cases above : dir.stem with
  | nil =>
    refine ⟨[],fun place filled entries => ?_⟩
    obtain ⟨first,rest,rfl⟩ := List.exists_cons_of_ne_nil filled
    have head := entries first List.mem_cons_self
    rw [components,pieces_join_place dir filled entries,above]
    simp [head.filled,head.here,names _ entries]
  | cons first rest =>
    refine ⟨if first = [] then .root :: rest.filterMap Component.ofPiece?
      else if first = ['.'] then .here :: rest.filterMap Component.ofPiece?
      else (first :: rest).filterMap Component.ofPiece?,fun place filled entries => ?_⟩
    rw [components,pieces_join_place dir filled entries,above]
    have inner : (first :: rest ++ place).filterMap Component.ofPiece? =
        (first :: rest).filterMap Component.ofPiece? ++ place.map Component.name := by
      rw [List.filterMap_append,names place entries]
    rw [List.cons_append] at inner ⊢
    by_cases root : first = []
    · simp [root,filled,names place entries]
    by_cases here : first = ['.']
    · simp [here,names place entries]
    · simp only [root,here,inner,decide_false,Bool.false_and,Bool.false_eq_true,if_false]

/-- The extension of a path is that of its last name. -/
theorem hasExtension_congr {p q : Path} (same : p.fileName? = q.fileName?) (ext : String) :
    p.hasExtension ext = q.hasExtension ext := by
  rw [hasExtension,hasExtension,extension?,extension?,same]

theorem fileName?_join (dir : Path) {above : Place} {name : List Char} (entries : ∀ n ∈ above ++ [name], IsEntry n) :
    (dir.join ⟨Place.text (above ++ [name])⟩).fileName? = some name := by
  obtain ⟨head,components⟩ := components_join dir
  rw [fileName?,components _ (by simp) entries,List.map_append,← List.append_assoc,List.map_singleton,
    List.getLast?_concat]

theorem fileName?_entry {name : List Char} (entry : IsEntry name) : (⟨String.ofList name⟩ : Path).fileName? = some name := by
  have single : (⟨String.ofList name⟩ : Path) = ⟨Place.text [name]⟩ := by simp [Place.text]
  rw [single,fileName?,components_text (by simpa using entry)]
  rfl

end Path

namespace Place

/-- Places of names are told apart by the order of their paths. -/
theorem eq_of_isLE {a b : Place} (entries : ∀ n ∈ a, IsEntry n) (entries' : ∀ n ∈ b, IsEntry n)
    (first : (Path.cmp ⟨a.text⟩ ⟨b.text⟩).isLE) (second : (Path.cmp ⟨b.text⟩ ⟨a.text⟩).isLE) : a = b := by
  have same := Path.components_eq_of_isLE first second
  rw [Path.components_text entries,Path.components_text entries'] at same
  exact List.map_injective_iff.mpr (fun _ _ => Path.Component.name.inj) same

end Place
end InlineIcons
