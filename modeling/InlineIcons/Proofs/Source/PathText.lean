import InlineIcons.Proofs.Text.Cut
import InlineIcons.Source.EnumTable
import Mathlib.Data.List.TakeWhile

/-! Paths as texts. As long as no name in them holds a colon, the text of a path gives its names back, and a text that
begins with two colons ends another one only where the names do. -/
namespace InlineIcons.Source

/-- A text that can stand between the colons of a path. Every word of program text is one. -/
structure IsSegment (name : String) : Prop where
  filled : name.toList ≠ []
  single : ':' ∉ name.toList

instance (name : String) : Decidable (IsSegment name) :=
  decidable_of_iff (name.toList ≠ [] ∧ ':' ∉ name.toList)
    ⟨fun ⟨filled,single⟩ => ⟨filled,single⟩,fun segment => ⟨segment.filled,segment.single⟩⟩

namespace IsSegment

theorem not_mem_word {d : Char} (starts : Text.isWordStart d = false) (continues : Text.isWordContinue d = false)
    {cs : List Char} : d ∉ cs.take (Text.wordLength cs) := by
  cases cs with
  | nil => simp
  | cons c cs =>
    intro member
    rw [Text.wordLength] at member
    by_cases begins : Text.isWordStart c = true
    · rw [if_pos begins,Nat.add_comm,List.take_succ_cons,List.mem_cons] at member
      rcases member with rfl | member
      · exact absurd begins (by simp [starts])
      · have inside : d ∈ cs.takeWhile Text.isWordContinue := by
          rwa [List.prefix_iff_eq_take.mp (List.takeWhile_prefix Text.isWordContinue)]
        exact absurd (List.mem_takeWhile_imp inside) (by simp [continues])
    · simp [begins] at member

theorem colon_not_mem_word {cs : List Char} : ':' ∉ cs.take (Text.wordLength cs) :=
  not_mem_word (by decide) (by decide)

/-- What is read as a word of program text can stand in a path, be it written with `r#` or not. -/
theorem of_word? {cs : List Char} {text : String} {count : Nat} (read : Lexeme.word? cs = some (text,count)) :
    IsSegment text := by
  unfold Lexeme.word? at read
  split at read
  · next rest =>
    simp only [Option.ite_none_left_eq_some,Option.some.injEq,Prod.mk.injEq] at read
    obtain ⟨_,rfl,_⟩ := read
    rw [List.take_succ_cons,List.take_succ_cons]
    refine ⟨by simp,?_⟩
    simp [colon_not_mem_word]
  · simp only [Option.ite_none_left_eq_some,Option.some.injEq,Prod.mk.injEq] at read
    obtain ⟨some,rfl,_⟩ := read
    refine ⟨fun none => some ?_,by simpa using colon_not_mem_word⟩
    have short := Text.wordLength_le cs
    have length := congrArg List.length none
    simp only [String.toList_ofList,List.length_take,List.length_nil] at length
    omega

end IsSegment

theorem append_colon_inj {a b x y : List Char} (single : ':' ∉ a) (single' : ':' ∉ b)
    (same : a ++ ':' :: x = b ++ ':' :: y) : a = b ∧ x = y := by
  have cut : Text.cutAt? [':'] (a ++ ':' :: x) = some (a,x) := Text.cutAt?_single single
  rw [same,Text.cutAt?_single single'] at cut
  simpa [eq_comm] using cut

/-- What stands behind the last two colons is told from what stands before them. -/
theorem append_colons_inj {a b x y : List Char} (single : ':' ∉ x) (single' : ':' ∉ y)
    (same : a ++ ':' :: ':' :: x = b ++ ':' :: ':' :: y) : a = b ∧ x = y := by
  have turned := congrArg List.reverse same
  simp only [List.reverse_append,List.reverse_cons,List.append_assoc,List.cons_append,List.nil_append] at turned
  have apart := append_colon_inj (by simpa using single) (by simpa using single') turned
  simp only [List.cons.injEq,List.reverse_inj,true_and] at apart
  exact ⟨apart.2,apart.1⟩

theorem toList_qualify (namespaceName name : String) : (qualify namespaceName name).toList =
    if namespaceName = "" then name.toList else namespaceName.toList ++ ':' :: ':' :: name.toList := by
  unfold qualify
  by_cases none : namespaceName = ""
  · simp [none]
  · simp [none]

/-- A name without colons is told from the namespace before it. -/
theorem qualify_inj {namespaceName namespaceName' name name' : String} (single : ':' ∉ name.toList)
    (single' : ':' ∉ name'.toList) (same : qualify namespaceName name = qualify namespaceName' name') :
    namespaceName = namespaceName' ∧ name = name' := by
  have texts := congrArg String.toList same
  simp only [toList_qualify] at texts
  split at texts <;> split at texts
  · next none none' => exact ⟨none.trans none'.symm,String.toList_inj.mp texts⟩
  · exact absurd (by simp [texts]) single
  · exact absurd (by simp [← texts]) single'
  · obtain ⟨spaces,names⟩ := append_colons_inj single single' texts
    exact ⟨String.toList_inj.mp spaces,String.toList_inj.mp names⟩

namespace EnumTable

@[simp] theorem pathText_nil : pathText [] = "" := by simp [pathText]

@[simp] theorem pathText_single (name : String) : pathText [name] = name := by simp [pathText]

theorem toList_pathText_cons {rest : List String} (filled : rest ≠ []) (name : String) :
    (pathText (name :: rest)).toList = name.toList ++ ':' :: ':' :: (pathText rest).toList := by
  simp [pathText,String.intercalate_cons_of_ne_nil filled]

theorem exists_before_last {written : List String} {last : String} (ends : written.getLast? = some last) :
    ∃ before, ("::" ++ pathText written).toList = before ++ ':' :: ':' :: last.toList := by
  obtain ⟨front,rfl⟩ := List.getLast?_eq_some_iff.mp ends
  by_cases only : front = []
  · subst only
    exact ⟨[],by simp⟩
  · refine ⟨("::" ++ pathText front).toList,?_⟩
    simp [pathText,String.intercalate_append_of_ne_nil only (List.cons_ne_nil last [])]

section Segments

variable {names names' : List String}

theorem toList_pathText_filled (segments : ∀ n ∈ names, IsSegment n) (filled : names ≠ []) :
    ∃ c cs, c ≠ ':' ∧ (pathText names).toList = c :: cs := by
  obtain ⟨first,rest,rfl⟩ := List.exists_cons_of_ne_nil filled
  have segment := segments first List.mem_cons_self
  obtain ⟨c,cs,begins⟩ := List.exists_cons_of_ne_nil segment.filled
  have other : c ≠ ':' := fun colon => segment.single (by simp [begins,colon])
  by_cases none : rest = []
  · exact ⟨c,cs,other,by simp [none,begins]⟩
  · exact ⟨c,_,other,by rw [toList_pathText_cons none,begins,List.cons_append]⟩

theorem pathText_eq_empty_iff (segments : ∀ n ∈ names, IsSegment n) : pathText names = "" ↔ names = [] := by
  constructor
  · intro empty
    by_contra filled
    obtain ⟨c,cs,_,begins⟩ := toList_pathText_filled segments filled
    simp [empty] at begins
  · rintro rfl
    exact pathText_nil

theorem pathText_inj (segments : ∀ n ∈ names, IsSegment n) (segments' : ∀ n ∈ names', IsSegment n) :
    pathText names = pathText names' ↔ names = names' := by
  refine ⟨fun same => ?_,fun same => same ▸ rfl⟩
  induction names generalizing names' with
  | nil => exact ((pathText_eq_empty_iff segments').mp (same.symm.trans pathText_nil)).symm
  | cons first rest ih =>
    cases names' with
    | nil => exact absurd ((pathText_eq_empty_iff segments).mp (same.trans pathText_nil)) (List.cons_ne_nil first rest)
    | cons first' rest' =>
      have single := (segments first List.mem_cons_self).single
      have single' := (segments' first' List.mem_cons_self).single
      have texts := congrArg String.toList same
      by_cases none : rest = [] <;> by_cases none' : rest' = []
      · subst none none'
        simpa using same
      · rw [toList_pathText_cons none',none,pathText_single] at texts
        exact absurd (by simp [texts]) single
      · rw [toList_pathText_cons none,none',pathText_single] at texts
        exact absurd (by simp [← texts]) single'
      · rw [toList_pathText_cons none,toList_pathText_cons none'] at texts
        obtain ⟨firsts,rests⟩ := append_colon_inj single single' texts
        have tails := ih (fun n member => segments n (List.mem_cons_of_mem _ member))
          (fun n member => segments' n (List.mem_cons_of_mem _ member))
          (String.toList_inj.mp (List.cons.inj rests).2)
        exact congrArg₂ List.cons (String.toList_inj.mp firsts) tails

/-- Two colons that end a text are those behind its first name, or they stand behind a later one. -/
theorem suffix_colons {name rest tail : List Char} (single : ':' ∉ name) (begins : ∀ c ∈ rest.head?, c ≠ ':')
    (ends : ':' :: ':' :: tail <:+ name ++ ':' :: ':' :: rest) : tail = rest ∨ ':' :: ':' :: tail <:+ rest := by
  obtain ⟨before,whole⟩ := ends
  rcases List.append_eq_append_iff.mp whole with ⟨more,front,ends⟩ | ⟨more,front,ends⟩
  · rcases more with _ | ⟨d,more⟩
    · exact .inl (by simpa using ends)
    · obtain ⟨rfl,_⟩ := List.cons.inj ends
      exact absurd (by simp [front]) single
  · rcases more with _ | ⟨d,_ | ⟨d',more⟩⟩
    · exact .inl (by simpa using ends.symm)
    · simp only [List.singleton_append,List.cons.injEq] at ends
      exact absurd rfl (begins ':' (by simp [ends.2]))
    · simp only [List.cons_append,List.cons.injEq] at ends
      exact .inr ⟨more,ends.2.2.symm⟩

/-- The text of a path ends with two colons and another path just where its names end with those of the other one and
there are more of them. -/
theorem suffix_pathText_iff (segments : ∀ n ∈ names, IsSegment n) (segments' : ∀ n ∈ names', IsSegment n)
    (filled : names' ≠ []) : ("::" ++ pathText names').toList <:+ (pathText names).toList ↔
      ∃ above, above ≠ [] ∧ names = above ++ names' := by
  have mark : ("::" ++ pathText names').toList = ':' :: ':' :: (pathText names').toList := by simp
  rw [mark]
  constructor
  · induction names with
    | nil => simp
    | cons first rest ih =>
      intro ends
      have segment := segments first List.mem_cons_self
      have later : ∀ n ∈ rest, IsSegment n := fun n member => segments n (List.mem_cons_of_mem _ member)
      by_cases none : rest = []
      · subst none
        rw [pathText_single] at ends
        exact absurd (ends.subset List.mem_cons_self) segment.single
      obtain ⟨c,cs,other,begins⟩ := toList_pathText_filled later none
      rw [toList_pathText_cons none] at ends
      rcases suffix_colons segment.single (by simpa [begins] using other) ends with same | inside
      · refine ⟨[first],List.cons_ne_nil first [],?_⟩
        rw [(pathText_inj segments' later).mp (String.toList_inj.mp same),List.singleton_append]
      · obtain ⟨above,some,same⟩ := ih later inside
        exact ⟨first :: above,List.cons_ne_nil first above,by rw [same,List.cons_append]⟩
  · rintro ⟨above,some,rfl⟩
    refine ⟨(pathText above).toList,?_⟩
    simp [pathText,String.intercalate_append_of_ne_nil some filled]

end Segments

end EnumTable
end InlineIcons.Source
