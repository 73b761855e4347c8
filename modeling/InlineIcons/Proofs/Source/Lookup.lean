import InlineIcons.Proofs.Source.PathText
import Mathlib.Data.List.Infix

/-! What a written path means: where enums have to lie for a look-up to find one, for every table and every form of
path. The type that a path resolves to depends on the table through its look-up alone. -/
namespace InlineIcons

/-- The path of an enum goes on to the left of a written one. -/
def EnumRef.EndsWith (e : EnumRef) (written : String) : Prop := ("::" ++ written).toList <:+ e.path.toList

instance (e : EnumRef) (written : String) : Decidable (e.EndsWith written) :=
  inferInstanceAs (Decidable (("::" ++ written).toList <:+ e.path.toList))

namespace Source.EnumTable

variable {t u : EnumTable} {path namespaceName : String} {written : List String} {e f : EnumRef}

def Free (t : EnumTable) (path : String) : Prop := ∀ e ∈ t.enums, e.path ≠ path

/-- The enum that counts at a path: the last one there. -/
def Last (t : EnumTable) (path : String) (e : EnumRef) : Prop :=
  ∃ before after, t.enums = before ++ e :: after ∧ e.path = path ∧ ∀ f ∈ after, f.path ≠ path

theorem Last.mem (last : t.Last path e) : e ∈ t.enums := by
  obtain ⟨before,after,split,_,_⟩ := last
  simp [split]

theorem Last.path_eq (last : t.Last path e) : e.path = path := by
  obtain ⟨_,_,_,here,_⟩ := last
  exact here

theorem get?_eq_none_iff : t.get? path = none ↔ t.Free path := by simp [get?,Free]

theorem get?_eq_some_iff : t.get? path = some e ↔ t.Last path e := by
  unfold get? Last
  rw [List.find?_eq_some_iff_append]
  constructor
  · rintro ⟨here,after,before,split,other⟩
    refine ⟨before.reverse,after.reverse,?_,by simpa using here,by simpa using other⟩
    rw [List.reverse_eq_iff.mp split]
    simp
  · rintro ⟨before,after,split,here,other⟩
    exact ⟨by simpa using here,after.reverse,before.reverse,by simp [split],by simpa using other⟩

theorem exists_last (held : e ∈ t.enums) : ∃ f, t.Last e.path f := by
  cases found : t.get? e.path with
  | none => exact absurd rfl (get?_eq_none_iff.mp found e held)
  | some f => exact ⟨f,get?_eq_some_iff.mp found⟩

/-- The enums that a path may have been imported from: those of its last name whose own path goes on to the left. -/
def importable (t : EnumTable) (written : List String) : List EnumRef :=
  t.enums.filter fun e => written.getLast? = some e.name ∧ e.EndsWith (pathText written)

theorem candidates_eq {last : String} (ends : written.getLast? = some last) (free : t.Free (pathText written)) :
    t.candidates last (pathText written) = (t.importable written).map EnumRef.path := by
  rw [candidates,importable,List.filter_map,List.filter_filter]
  congr 1
  apply List.filter_congr
  intro e held
  have other : (e.path == pathText written) = false := by simpa using free e held
  rw [Function.comp_apply,other,Bool.false_or,ends,Bool.eq_iff_iff]
  simp only [Bool.and_eq_true,List.isSuffixOf_iff_suffix,beq_iff_eq,decide_eq_true_eq,Option.some.injEq,
    EnumRef.EndsWith]
  constructor
  · rintro ⟨ends,named⟩
    exact ⟨named.symm,ends⟩
  · rintro ⟨named,ends⟩
    exact ⟨ends,named.symm⟩

/-- A path without an anchor means the enum at that place in the module, or else the one at that place in the crate, or
else the only one that it may have been imported from. -/
theorem search?_eq_some_iff (filled : written ≠ []) : t.search? namespaceName written = some e ↔
    t.Last (qualify namespaceName (pathText written)) e ∨ t.Free (qualify namespaceName (pathText written)) ∧
      (t.Last (pathText written) e ∨ t.Free (pathText written) ∧
        ∃ only, t.importable written = [only] ∧ t.Last only.path e) := by
  obtain ⟨last,ends⟩ := Option.isSome_iff_exists.mp (List.getLast?_isSome.mpr filled)
  simp only [search?,Option.or_eq_some_iff,get?_eq_some_iff,get?_eq_none_iff]
  refine or_congr_right (and_congr_right fun _ => or_congr_right (and_congr_right fun free => ?_))
  rw [ends,Option.map_some,candidates_eq ends free]
  split
  · next only single =>
    obtain ⟨f,one,rfl⟩ := List.map_eq_singleton_iff.mp (Option.some.inj single)
    simp [one,get?_eq_some_iff]
  · next several =>
    refine iff_of_false (by simp) ?_
    rintro ⟨only,single,_⟩
    exact several only.path (by simp [single])

/-- The steps at the front of an anchored path lead up from a module, by one level for each `super`. -/
def Climbs (base names path : List String) : Prop :=
  ∃ steps rest, names = steps ++ rest ∧ (∀ s ∈ steps, s ∈ ["self","super"]) ∧
    (∀ s ∈ rest.head?, s ∉ ["self","super"]) ∧ steps.count "super" ≤ base.length ∧
      path = base.take (base.length - steps.count "super") ++ rest

theorem climbs_of_climb? {base names path : List String} (climbed : climb? base names = some path) :
    Climbs base names path := by
  fun_induction climb? base names with
  | case1 base rest ih =>
    obtain ⟨steps,rest,rfl,anchors,ends,enough,rfl⟩ := ih climbed
    exact ⟨"self" :: steps,rest,rfl,List.forall_mem_cons.mpr ⟨by simp,anchors⟩,ends,by simpa using enough,by simp⟩
  | case2 base rest none => cases climbed
  | case3 base rest some ih =>
    obtain ⟨steps,rest,rfl,anchors,ends,enough,rfl⟩ := ih climbed
    have length : 0 < base.length := List.length_pos_iff.mpr (by simpa using some)
    rw [List.length_dropLast] at enough
    refine ⟨"super" :: steps,rest,rfl,List.forall_mem_cons.mpr ⟨by simp,anchors⟩,ends,?_,?_⟩
    · rw [List.count_cons_self]
      omega
    · rw [List.count_cons_self,List.dropLast_eq_take,List.take_take,List.length_take]
      congr 2
      omega
  | case4 base rest noSelf noSuper =>
    refine ⟨[],rest,rfl,by simp,?_,by simp,by simpa using (Option.some.inj climbed).symm⟩
    intro s first
    obtain ⟨rest',rfl⟩ := List.head?_eq_some_iff.mp first
    simp only [List.mem_cons,List.not_mem_nil,or_false,not_or]
    exact ⟨fun same => noSelf rest' (by rw [same]),fun same => noSuper rest' (by rw [same])⟩

theorem Climbs.climb?_eq {base names path : List String} (climbs : Climbs base names path) :
    climb? base names = some path := by
  obtain ⟨steps,rest,rfl,anchors,ends,enough,rfl⟩ := climbs
  induction steps generalizing base with
  | nil =>
    simp only [List.nil_append,List.count_nil,Nat.sub_zero,List.take_length]
    unfold climb?
    split
    · simp at ends
    · simp at ends
    · rfl
  | cons step steps ih =>
    obtain ⟨anchor,others⟩ := List.forall_mem_cons.mp anchors
    simp only [List.mem_cons,List.not_mem_nil,or_false] at anchor
    rcases anchor with rfl | rfl
    · rw [List.count_cons_of_ne (by decide)] at enough ⊢
      exact ih others enough
    · rw [List.count_cons_self] at enough ⊢
      have some : base.isEmpty = false := by
        cases base with
        | nil => simp at enough
        | cons m base => rfl
      rw [List.cons_append,climb?,some,if_neg Bool.false_ne_true,ih others (by rw [List.length_dropLast]; omega)]
      rw [List.dropLast_eq_take,List.take_take,List.length_take]
      congr 3
      omega

/-- A path that begins with no anchor. -/
def Unanchored (written : List String) : Prop := ∃ first ∈ written.head?, first ∉ ["crate","self","super"]

theorem Unanchored.filled (plain : Unanchored written) : written ≠ [] := by
  rintro rfl
  obtain ⟨_,none,_⟩ := plain
  cases none

/-- Where a path leads in a module. -/
inductive Finds (t : EnumTable) (namespaceName : String) : List String → EnumRef → Prop
  | crate {rest : List String} {e : EnumRef} (here : t.Last (pathText rest) e) :
    Finds t namespaceName ("crate" :: rest) e
  | relative {first : String} {rest path : List String} {e : EnumRef} (anchor : first ∈ ["self","super"])
    (climbs : Climbs (modules namespaceName) (first :: rest) path) (here : t.Last (pathText path) e) :
    Finds t namespaceName (first :: rest) e
  | inside {written : List String} {e : EnumRef} (plain : Unanchored written)
    (here : t.Last (qualify namespaceName (pathText written)) e) : Finds t namespaceName written e
  | root {written : List String} {e : EnumRef} (plain : Unanchored written)
    (free : t.Free (qualify namespaceName (pathText written))) (here : t.Last (pathText written) e) :
    Finds t namespaceName written e
  | imported {written : List String} {only e : EnumRef} (plain : Unanchored written)
    (free : t.Free (qualify namespaceName (pathText written))) (free' : t.Free (pathText written))
    (single : t.importable written = [only]) (here : t.Last only.path e) : Finds t namespaceName written e

theorem lookup?_relative {first : String} (anchor : first ∈ ["self","super"]) (rest : List String) :
    t.lookup? namespaceName (first :: rest) =
      (climb? (modules namespaceName) (first :: rest)).bind fun path => t.get? (pathText path) := by
  simp only [List.mem_cons,List.not_mem_nil,or_false] at anchor
  rcases anchor with rfl | rfl <;> simp [lookup?]

theorem Unanchored.lookup?_eq (plain : Unanchored written) (t : EnumTable) (namespaceName : String) :
    t.lookup? namespaceName written = t.search? namespaceName written := by
  obtain ⟨first,begins,other⟩ := plain
  obtain ⟨rest,rfl⟩ := List.head?_eq_some_iff.mp begins
  simp only [List.mem_cons,List.not_mem_nil,or_false,not_or] at other
  simp [lookup?,other]

theorem Unanchored.lookup?_eq_some_iff (plain : Unanchored written) : t.lookup? namespaceName written = some e ↔
    t.Last (qualify namespaceName (pathText written)) e ∨ t.Free (qualify namespaceName (pathText written)) ∧
      (t.Last (pathText written) e ∨ t.Free (pathText written) ∧
        ∃ only, t.importable written = [only] ∧ t.Last only.path e) := by
  rw [plain.lookup?_eq,search?_eq_some_iff plain.filled]

/-- A look-up finds what a path leads to, and nothing else. -/
theorem lookup?_eq_some_iff : t.lookup? namespaceName written = some e ↔ t.Finds namespaceName written e := by
  constructor
  · intro found
    cases written with
    | nil => cases found
    | cons first rest =>
      by_cases plain : Unanchored (first :: rest)
      · rcases plain.lookup?_eq_some_iff.mp found with here | ⟨free,here | ⟨free',only,single,here⟩⟩
        · exact .inside plain here
        · exact .root plain free here
        · exact .imported plain free free' single here
      · have anchor : first ∈ ["crate","self","super"] := by
          by_contra other
          exact plain ⟨first,rfl,other⟩
        rcases List.mem_cons.mp anchor with rfl | anchor
        · exact .crate (get?_eq_some_iff.mp found)
        · rw [lookup?_relative anchor] at found
          obtain ⟨path,climbed,found⟩ := Option.bind_eq_some_iff.mp found
          exact .relative anchor (climbs_of_climb? climbed) (get?_eq_some_iff.mp found)
  · intro finds
    cases finds with
    | crate here => exact get?_eq_some_iff.mpr here
    | relative anchor climbs here =>
      rw [lookup?_relative anchor,climbs.climb?_eq]
      exact get?_eq_some_iff.mpr here
    | inside plain here => exact plain.lookup?_eq_some_iff.mpr (.inl here)
    | root plain free here => exact plain.lookup?_eq_some_iff.mpr (.inr ⟨free,.inl here⟩)
    | imported plain free free' single here =>
      exact plain.lookup?_eq_some_iff.mpr (.inr ⟨free,.inr ⟨free',_,single,here⟩⟩)

end Source.EnumTable
end InlineIcons
