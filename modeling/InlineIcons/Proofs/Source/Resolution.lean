import InlineIcons.Proofs.Source.Lookup
import Mathlib.Data.List.Nodup

/-! What a written type resolves to. Among enums of different paths a path without an anchor means one at most, and it
does not matter in which order they were found. A path that begins with two colons is looked up as if it did not. -/
namespace InlineIcons

/-- The names on the path of an enum: those of its modules and its own. -/
def EnumRef.HasNames (e : EnumRef) (names : List String) : Prop :=
  (∀ n ∈ names, Source.IsSegment n) ∧
    ∃ modules, names = modules ++ [e.name] ∧ e.namespaceName = Source.EnumTable.pathText modules

theorem EnumRef.HasNames.path_eq {e : EnumRef} {names : List String} (named : e.HasNames names) :
    e.path = Source.EnumTable.pathText names := by
  obtain ⟨segments,modules,rfl,placed⟩ := named
  have above : ∀ n ∈ modules, Source.IsSegment n := fun n member => segments n (List.mem_append_left _ member)
  unfold path qualify
  by_cases none : modules = []
  · simp [placed,none]
  · have some : e.namespaceName.isEmpty = false := by
      simpa [placed,Source.EnumTable.pathText_eq_empty_iff above] using none
    rw [some,if_neg Bool.false_ne_true,placed,Source.EnumTable.pathText,Source.EnumTable.pathText,
      String.intercalate_append_of_ne_nil none (List.cons_ne_nil _ _),String.intercalate_singleton]

namespace Source

/-- The names of a path whose segments have no arguments; parentheses around it do not count. -/
def TypeExpr.plainPath? (type : TypeExpr) : Option (List String) :=
  match type.bare with
  | .path _ segments => if segments.all Segment.isPlain then some (segments.map Segment.name) else none
  | _ => none

namespace EnumTable

variable {t u : EnumTable} {namespaceName : String} {written : List String} {e : EnumRef}

theorem resolveOptional?_plain {segments : List Segment} (plain : segments.all Segment.isPlain = true) :
    t.resolveOptional? namespaceName segments = none := by
  induction segments with
  | nil => rfl
  | cons s segments ih =>
    obtain ⟨first,rest⟩ := (Bool.and_eq_true _ _).mp plain
    unfold resolveOptional?
    split
    · next none => cases none
    · next same =>
      rw [(List.cons.inj same).1] at first
      cases first
    · next same =>
      rw [← (List.cons.inj same).2]
      exact ih rest

theorem resolve_plain {segments : List Segment} (plain : segments.all Segment.isPlain = true) (rooted : Bool) :
    t.resolve namespaceName (.path rooted segments) =
      match t.lookup? namespaceName (segments.map Segment.name) with
      | some e => .enumeration (TypeExpr.path rooted segments).display e
      | none => .other (TypeExpr.path rooted segments).display := by
  rw [resolve,resolveOptional?_plain plain]
  exact if_pos plain

/-- A type is an enum only if it is a path that leads to one. -/
theorem enum?_resolve (t : EnumTable) (namespaceName : String) (type : TypeExpr) :
    (t.resolve namespaceName type).enum? = type.plainPath?.bind (t.lookup? namespaceName) := by
  fun_induction TypeExpr.bare type with
  | case1 inner ih =>
    rw [resolve]
    exact ih
  | case2 type other =>
    cases type with
    | path rooted segments =>
      have known : (TypeExpr.path rooted segments).plainPath? =
        if segments.all Segment.isPlain then some (segments.map Segment.name) else none := rfl
      rw [known]
      by_cases plain : segments.all Segment.isPlain = true
      · simp only [resolve_plain plain,plain,if_true,Option.bind_some]
        cases t.lookup? namespaceName (segments.map Segment.name) <;> rfl
      · rw [resolve]
        simp only [plain,Bool.false_eq_true,if_false,Option.bind_none,resolvePath]
        cases t.resolveOptional? namespaceName segments <;> rfl
    | paren inner => exact absurd rfl (other inner)
    | reference lifetime mutable target => rfl
    | tuple items => rfl
    | slice item => rfl
    | other text => rfl

/-- What a path of plain names resolves to, be it in parentheses or not. -/
theorem resolve_of_plainPath? {type : TypeExpr} {written : List String} (plain : type.plainPath? = some written)
    (t : EnumTable) (namespaceName : String) :
    t.resolve namespaceName type =
      match t.lookup? namespaceName written with
      | some e => .enumeration type.display e
      | none => .other type.display := by
  fun_induction TypeExpr.bare type with
  | case1 inner ih =>
    have shown : (TypeExpr.paren inner).display = inner.display := by
      rw [TypeExpr.display,TypeExpr.show,TypeExpr.display]
    rw [resolve,shown]
    exact ih plain
  | case2 type other =>
    cases type with
    | path rooted segments =>
      have known : (TypeExpr.path rooted segments).plainPath? =
        if segments.all Segment.isPlain then some (segments.map Segment.name) else none := rfl
      rw [known,Option.ite_none_right_eq_some] at plain
      obtain ⟨bare,same⟩ := plain
      rw [← Option.some.inj same]
      exact resolve_plain bare rooted
    | paren inner => exact absurd rfl (other inner)
    | reference lifetime mutable target => cases plain
    | tuple items => cases plain
    | slice item => cases plain
    | other text => cases plain

/-- What types resolve to in a module depends on what the look-ups there find. -/
theorem resolve_congr (same : t.lookup? namespaceName = u.lookup? namespaceName) (type : TypeExpr) :
    t.resolve namespaceName type = u.resolve namespaceName type := by
  refine resolve.induct t namespaceName (fun type => t.resolve namespaceName type = u.resolve namespaceName type)
    (fun segments => t.resolveOptional? namespaceName segments = u.resolveOptional? namespaceName segments)
    ?paren ?optional ?path ?other ?nil ?option ?named ?cons type
  case paren =>
    intro inner ih
    rw [resolve,resolve,ih]
  case optional =>
    intro rooted segments inner found ih
    rw [resolve,resolve,← ih,found]
  case path =>
    intro rooted segments none ih
    rw [resolve,resolve,← ih,none]
    simp only [resolvePath,same]
  case other =>
    intro type noParen noPath
    rw [resolve,resolve]
    all_goals assumption
  case nil => rfl
  case option =>
    intro inner ih
    rw [resolveOptional?,resolveOptional?,ih]
  case named =>
    intro name inner other
    rw [resolveOptional?,resolveOptional?,if_neg other,if_neg other]
  case cons =>
    intro s rest other ih
    rw [resolveOptional?,resolveOptional?,ih]
    all_goals assumption

section Distinct

variable (distinct : (t.enums.map EnumRef.path).Nodup)

include distinct

theorem last_iff {path : String} : t.Last path e ↔ e ∈ t.enums ∧ e.path = path := by
  constructor
  · exact fun last => ⟨last.mem,last.path_eq⟩
  · rintro ⟨held,rfl⟩
    obtain ⟨before,after,split⟩ := List.append_of_mem held
    rw [split,List.map_append,List.map_cons] at distinct
    have own := (List.nodup_cons.mp (List.nodup_append.mp distinct).2.1).1
    exact ⟨before,after,split,rfl,fun f member same => own (same ▸ List.mem_map_of_mem member)⟩

theorem Finds.perm (perm : t.enums.Perm u.enums) (finds : t.Finds namespaceName written e) :
    u.Finds namespaceName written e := by
  have distinct' : (u.enums.map EnumRef.path).Nodup := (perm.map EnumRef.path).nodup_iff.mp distinct
  have last : ∀ {path f}, t.Last path f → u.Last path f := by
    intro path f here
    rw [last_iff distinct']
    rw [last_iff distinct] at here
    exact ⟨perm.mem_iff.mp here.1,here.2⟩
  have free : ∀ {path}, t.Free path → u.Free path := fun free f held => free f (perm.mem_iff.mpr held)
  cases finds with
  | crate here => exact .crate (last here)
  | relative anchor climbs here => exact .relative anchor climbs (last here)
  | inside plain here => exact .inside plain (last here)
  | root plain none here => exact .root plain (free none) (last here)
  | imported plain none none' single here =>
    refine .imported plain (free none) (free none') ?_ (last here)
    rw [importable] at single
    exact List.perm_singleton.mp (single ▸ (perm.filter _).symm)

theorem lookup?_perm (perm : t.enums.Perm u.enums) (namespaceName : String) :
    t.lookup? namespaceName = u.lookup? namespaceName := by
  funext written
  have distinct' : (u.enums.map EnumRef.path).Nodup := (perm.map EnumRef.path).nodup_iff.mp distinct
  refine Option.ext fun e => ?_
  rw [lookup?_eq_some_iff,lookup?_eq_some_iff]
  exact ⟨Finds.perm distinct perm,Finds.perm distinct' perm.symm⟩

/-- Where no two enums share a path, it does not matter in which order they were found. -/
theorem resolve_perm (perm : t.enums.Perm u.enums) (namespaceName : String) (type : TypeExpr) :
    t.resolve namespaceName type = u.resolve namespaceName type :=
  resolve_congr (lookup?_perm distinct perm namespaceName) type

end Distinct

end EnumTable

def TypeExpr.ofNames (written : List String) : TypeExpr := .path false (written.map (.mk · none))

namespace EnumTable

variable {t : EnumTable} {namespaceName : String} {written : List String} {e : EnumRef}

theorem display_ofNames (written : List String) : (TypeExpr.ofNames written).display = pathText written := by
  have shown : showSegments (written.map (.mk · none)) = (pathText written).toList := by
    induction written with
    | nil => simp [showSegments]
    | cons first rest ih =>
      by_cases none : rest = []
      · simp [none,showSegments,Segment.show]
      · obtain ⟨second,rest,rfl⟩ := List.exists_cons_of_ne_nil none
        rw [toList_pathText_cons none,← ih]
        simp [showSegments,Segment.show]
  rw [TypeExpr.display,TypeExpr.ofNames,TypeExpr.show,shown]
  simp

theorem plainPath?_ofNames (written : List String) : (TypeExpr.ofNames written).plainPath? = some written := by
  have known : (TypeExpr.ofNames written).plainPath? =
    if (written.map (Segment.mk · none)).all Segment.isPlain then
      some ((written.map (Segment.mk · none)).map Segment.name) else none := rfl
  have plain : (written.map (Segment.mk · none)).all Segment.isPlain = true := by
    simp [Segment.isPlain,Segment.args]
  rw [known,if_pos plain]
  simp [Function.comp_def,Segment.name]

theorem resolve_ofNames (t : EnumTable) (namespaceName : String) (written : List String) :
    t.resolve namespaceName (.ofNames written) =
      match t.lookup? namespaceName written with
      | some e => .enumeration (pathText written) e
      | none => .other (pathText written) := by
  rw [resolve_of_plainPath? (plainPath?_ofNames written),display_ofNames]

/-- An enum whose path ends with a written one has its last name. -/
theorem getLast?_of_endsWith (named : ':' ∉ e.name.toList) (segments : ∀ n ∈ written, IsSegment n)
    (filled : written ≠ []) (ends : e.EndsWith (pathText written)) : written.getLast? = some e.name := by
  obtain ⟨last,lasts⟩ := Option.isSome_iff_exists.mp (List.getLast?_isSome.mpr filled)
  obtain ⟨before,whole⟩ := exists_before_last lasts
  obtain ⟨more,path⟩ := ends
  rw [whole,EnumRef.path,toList_qualify] at path
  split at path
  · exact absurd (by simp [← path]) named
  · rw [← List.append_assoc] at path
    obtain ⟨_,same⟩ := append_colons_inj (segments last (List.mem_of_getLast? lasts)).single named path
    rw [lasts,String.toList_inj.mp same]

section Written

variable (distinct : (t.enums.map EnumRef.path).Nodup) (placed : ∀ e ∈ t.enums, ∃ names, e.HasNames names)
  (segments : ∀ n ∈ written, IsSegment n) (plain : Unanchored written)

include placed segments plain

theorem mem_importable_iff : e ∈ t.importable written ↔ e ∈ t.enums ∧ e.EndsWith (pathText written) := by
  rw [importable,List.mem_filter]
  refine and_congr_right fun held => ?_
  obtain ⟨_,parts,modules,rfl,_⟩ := placed e held
  have named := (parts e.name (by simp)).single
  simp only [decide_eq_true_eq,and_iff_right_iff_imp]
  exact getLast?_of_endsWith named segments plain.filled

include distinct

theorem importable_eq_singleton_iff : t.importable written = [e] ↔
    e ∈ t.enums ∧ e.EndsWith (pathText written) ∧ ∀ f ∈ t.enums, f.EndsWith (pathText written) → f = e := by
  have members : ∀ f, f ∈ t.importable written ↔ f ∈ t.enums ∧ f.EndsWith (pathText written) :=
    fun f => mem_importable_iff placed segments plain
  constructor
  · intro single
    rw [single] at members
    obtain ⟨held,ends⟩ := (members e).mp List.mem_cons_self
    exact ⟨held,ends,fun f held' ends' => List.mem_singleton.mp ((members f).mpr ⟨held',ends'⟩)⟩
  · rintro ⟨held,ends,only⟩
    have once : (t.importable written).Nodup := (List.Nodup.of_map EnumRef.path distinct).filter _
    refine List.perm_singleton.mp ((List.perm_ext_iff_of_nodup once (List.nodup_singleton e)).mpr fun f => ?_)
    rw [members,List.mem_singleton]
    constructor
    · rintro ⟨held',ends'⟩
      exact only f held' ends'
    · rintro rfl
      exact ⟨held,ends⟩

end Written

/-- Resolution is complete and unambiguous: a path of plain names means the enum at that place in the module, or else
the one at that place in the crate, or else the only one whose path goes on to the left of it, and no enum otherwise.
The order of the enums does not matter, and paths are compared name by name. -/
theorem resolve_written {t : EnumTable} {written : List String} (distinct : (t.enums.map EnumRef.path).Nodup)
    (placed : ∀ e ∈ t.enums, ∃ names, e.HasNames names) (segments : ∀ n ∈ written, IsSegment n)
    (plain : Unanchored written) (namespaceName : String) :
    (∀ e ∈ t.enums, e.path = qualify namespaceName (pathText written) →
      t.resolve namespaceName (.ofNames written) = .enumeration (pathText written) e) ∧
    (t.Free (qualify namespaceName (pathText written)) →
      (∀ e ∈ t.enums, e.path = pathText written →
        t.resolve namespaceName (.ofNames written) = .enumeration (pathText written) e) ∧
      (t.Free (pathText written) →
        (∀ e ∈ t.enums, e.EndsWith (pathText written) → (∀ f ∈ t.enums, f.EndsWith (pathText written) → f = e) →
          t.resolve namespaceName (.ofNames written) = .enumeration (pathText written) e) ∧
        ((¬ ∃ e ∈ t.enums, e.EndsWith (pathText written) ∧ ∀ f ∈ t.enums, f.EndsWith (pathText written) → f = e) →
          t.resolve namespaceName (.ofNames written) = .other (pathText written)))) ∧
    (∀ u : EnumTable, t.enums.Perm u.enums →
      u.resolve namespaceName (.ofNames written) = t.resolve namespaceName (.ofNames written)) ∧
    ∀ e ∈ t.enums, ∀ names, e.HasNames names →
      (e.EndsWith (pathText written) ↔ ∃ above, above ≠ [] ∧ names = above ++ written) := by
  have found : ∀ e, t.Finds namespaceName written e →
      t.resolve namespaceName (.ofNames written) = .enumeration (pathText written) e := by
    intro e finds
    rw [resolve_ofNames,lookup?_eq_some_iff.mpr finds]
  refine ⟨fun e held here => ?_,fun free => ⟨fun e held here => ?_,fun free' => ⟨fun e held ends only => ?_,?_⟩⟩,
    fun u perm => (resolve_perm distinct perm namespaceName _).symm,fun e held names named => ?_⟩
  · exact found e (.inside plain ((last_iff distinct).mpr ⟨held,here⟩))
  · exact found e (.root plain free ((last_iff distinct).mpr ⟨held,here⟩))
  · have single := (importable_eq_singleton_iff distinct placed segments plain).mpr ⟨held,ends,only⟩
    exact found e (.imported plain free free' single ((last_iff distinct).mpr ⟨held,rfl⟩))
  · intro several
    have none : t.lookup? namespaceName written = none := by
      refine Option.eq_none_iff_forall_ne_some.mpr fun e found => ?_
      rcases plain.lookup?_eq_some_iff.mp found with here | ⟨_,here | ⟨_,only,single,_⟩⟩
      · exact free e here.mem ((last_iff distinct).mp here).2
      · exact free' e here.mem ((last_iff distinct).mp here).2
      · exact several ⟨only,(importable_eq_singleton_iff distinct placed segments plain).mp single⟩
    rw [resolve_ofNames,none]
  · rw [EnumRef.EndsWith,named.path_eq]
    exact suffix_pathText_iff named.1 segments plain.filled

/-- An enum that a path reaches from another module, and two of the same name, each of which its own module means
while no other one does. -/
def kindTable : EnumTable := ⟨[⟨"a","Kind",["One"]⟩,⟨"b","Kind",["Two"]⟩,⟨"shared::icons","Shape",["Home"]⟩]⟩

theorem resolve_written_kindTable :
    (kindTable.enums.map EnumRef.path).Nodup ∧ (∀ e ∈ kindTable.enums, ∃ names, e.HasNames names) ∧
    (∀ n ∈ ["icons","Shape"], IsSegment n) ∧ Unanchored ["icons","Shape"] ∧
    kindTable.resolve "pages" (.ofNames ["icons","Shape"]) =
      .enumeration "icons::Shape" ⟨"shared::icons","Shape",["Home"]⟩ ∧
    (∀ n ∈ ["Kind"], IsSegment n) ∧ Unanchored ["Kind"] ∧
    kindTable.resolve "b" (.ofNames ["Kind"]) = .enumeration "Kind" ⟨"b","Kind",["Two"]⟩ ∧
    kindTable.resolve "pages" (.ofNames ["Kind"]) = .other "Kind" := by
  have distinct : (kindTable.enums.map EnumRef.path).Nodup := by decide +kernel
  have placed : ∀ e ∈ kindTable.enums, ∃ names, e.HasNames names := by
    intro e held
    simp only [kindTable,List.mem_cons,List.not_mem_nil,or_false] at held
    rcases held with rfl | rfl | rfl
    · exact ⟨["a","Kind"],by decide,["a"],rfl,by simp⟩
    · exact ⟨["b","Kind"],by decide,["b"],rfl,by simp⟩
    · exact ⟨["shared","icons","Shape"],by decide,["shared","icons"],rfl,by decide +kernel⟩
  have shape : Unanchored ["icons","Shape"] := ⟨"icons",rfl,by decide⟩
  have kind : Unanchored ["Kind"] := ⟨"Kind",rfl,by decide⟩
  have free : ∀ path ∈ ["pages::icons::Shape","icons::Shape","pages::Kind","Kind"], kindTable.Free path := by
    unfold Free
    decide +kernel
  refine ⟨distinct,placed,by decide,shape,?_,by decide,kind,?_,?_⟩
  · have imported := (((resolve_written distinct placed (by decide) shape "pages").2.1 (free _ (by decide))).2
      (free _ (by decide))).1
    exact imported ⟨"shared::icons","Shape",["Home"]⟩ (by decide) (by decide +kernel) (by decide +kernel)
  · exact (resolve_written distinct placed (by decide) kind "b").1 ⟨"b","Kind",["Two"]⟩ (by decide) (by decide +kernel)
  · refine (((resolve_written distinct placed (by decide) kind "pages").2.1 (free _ (by decide))).2
      (free _ (by decide))).2 ?_
    rintro ⟨e,_,_,only⟩
    have one := only ⟨"a","Kind",["One"]⟩ (by decide) (by decide +kernel)
    have two := only ⟨"b","Kind",["Two"]⟩ (by decide) (by decide +kernel)
    exact absurd (one.trans two.symm) (by decide)

/-- A path that begins with two colons is looked up like one that does not, so it is an enum of the crate just where the
names after the colons lead to one. -/
theorem resolve_rooted_iff {t : EnumTable} {namespaceName : String} {type : TypeExpr} {segments : List Segment}
    (rooted : type.bare = .path true segments) :
    (∀ e, (t.resolve namespaceName type).enum? = some e ↔
      (∀ s ∈ segments, s.isPlain = true) ∧ t.Finds namespaceName (segments.map Segment.name) e) ∧
    (t.resolve namespaceName type).enum? = (t.resolve namespaceName (.path false segments)).enum? := by
  have path : type.plainPath? =
      if segments.all Segment.isPlain then some (segments.map Segment.name) else none := by
    rw [TypeExpr.plainPath?,rooted]
  constructor
  · intro e
    rw [enum?_resolve,path,← List.all_eq_true,← lookup?_eq_some_iff]
    by_cases plain : segments.all Segment.isPlain = true
    · simp [plain]
    · simp [plain]
  · rw [enum?_resolve,enum?_resolve,path]
    rfl

/-- A type of another crate, taken for an enum of this one whose path ends the same way. -/
theorem resolve_rooted_shape : (TypeExpr.path true [.mk "icons" none,.mk "Shape" none]).bare =
      .path true [.mk "icons" none,.mk "Shape" none] ∧
    (kindTable.resolve "pages" (.path true [.mk "icons" none,.mk "Shape" none])).enum? =
      some ⟨"shared::icons","Shape",["Home"]⟩ := by
  refine ⟨rfl,((resolve_rooted_iff rfl).1 _).mpr ⟨by decide,?_⟩⟩
  exact lookup?_eq_some_iff.mp (by decide +kernel)

end EnumTable
end Source
end InlineIcons
