import InlineIcons.Proofs.Source.Resolution

/-! An enum that is found a second time, as under two alternatives of a configuration. References from its own module,
from the root and by anchored paths keep their enum. One that only an import can explain loses it: the look-up counts
the enums that match and not their paths. -/
namespace InlineIcons.Source.EnumTable

/-- A path that leads to no enum inside the module, nor from the root, so that only an import can explain it. -/
structure Outward (t : EnumTable) (namespaceName : String) (written : List String) : Prop where
  plain : Unanchored written
  inside : t.Free (qualify namespaceName (pathText written))
  root : t.Free (pathText written)

variable {front back : List EnumRef} {e f : EnumRef} {path namespaceName : String} {written : List String}

theorem Outward.exists_only {t : EnumTable} (outward : t.Outward namespaceName written)
    (found : t.lookup? namespaceName written = some f) :
    ∃ only, t.importable written = [only] ∧ t.Last only.path f := by
  rcases outward.plain.lookup?_eq_some_iff.mp found with here | ⟨_,here | ⟨_,only⟩⟩
  · exact absurd here.path_eq (outward.inside f here.mem)
  · exact absurd here.path_eq (outward.root f here.mem)
  · exact only

theorem importable_insert (front back : List EnumRef) (e : EnumRef) (written : List String) :
    (⟨front ++ e :: back⟩ : EnumTable).importable written = (⟨front⟩ : EnumTable).importable written ++
      (if written.getLast? = some e.name ∧ e.EndsWith (pathText written) then [e] else []) ++
        (⟨back⟩ : EnumTable).importable written := by
  unfold importable
  rw [List.filter_append,List.filter_cons]
  by_cases fits : written.getLast? = some e.name ∧ e.EndsWith (pathText written)
  · simp [fits]
  · simp [fits]

theorem importable_append (front back : List EnumRef) (written : List String) :
    (⟨front ++ back⟩ : EnumTable).importable written =
      (⟨front⟩ : EnumTable).importable written ++ (⟨back⟩ : EnumTable).importable written :=
  List.filter_append _ _

section Repeated

variable (repeated : ∃ g ∈ front ++ back, g.path = e.path)

include repeated

theorem free_insert_iff : (⟨front ++ e :: back⟩ : EnumTable).Free path ↔ (⟨front ++ back⟩ : EnumTable).Free path := by
  constructor
  · intro free g held
    exact free g (by simp only [List.mem_append,List.mem_cons] at held ⊢; tauto)
  · intro free g held
    simp only [List.mem_append,List.mem_cons] at held
    rcases held with held | rfl | held
    · exact free g (List.mem_append_left _ held)
    · obtain ⟨h,held,same⟩ := repeated
      exact same ▸ free h held
    · exact free g (List.mem_append_right _ held)

omit repeated in
/-- What counts at a path may change, but something still does. -/
theorem Last.insert (here : (⟨front ++ back⟩ : EnumTable).Last path f) (e : EnumRef) :
    ∃ g, (⟨front ++ e :: back⟩ : EnumTable).Last path g ∧ g.path = f.path := by
  have held : f ∈ front ++ e :: back := by
    have := here.mem
    simp only [List.mem_append,List.mem_cons] at this ⊢
    tauto
  obtain ⟨g,last⟩ := exists_last (t := ⟨front ++ e :: back⟩) held
  exact ⟨g,here.path_eq ▸ last,last.path_eq⟩

theorem Finds.insert (finds : (⟨front ++ back⟩ : EnumTable).Finds namespaceName written f)
    (other : (⟨front ++ back⟩ : EnumTable).Outward namespaceName written →
      ¬ (written.getLast? = some e.name ∧ e.EndsWith (pathText written))) :
    ∃ g, (⟨front ++ e :: back⟩ : EnumTable).Finds namespaceName written g ∧ g.path = f.path := by
  cases finds with
  | crate here =>
    obtain ⟨g,here',same⟩ := here.insert e
    exact ⟨g,.crate here',same⟩
  | relative anchor climbs here =>
    obtain ⟨g,here',same⟩ := here.insert e
    exact ⟨g,.relative anchor climbs here',same⟩
  | inside plain here =>
    obtain ⟨g,here',same⟩ := here.insert e
    exact ⟨g,.inside plain here',same⟩
  | root plain free here =>
    obtain ⟨g,here',same⟩ := here.insert e
    exact ⟨g,.root plain ((free_insert_iff repeated).mpr free) here',same⟩
  | imported plain free free' single here =>
    obtain ⟨g,here',same⟩ := here.insert e
    have free₁ := (free_insert_iff repeated).mpr free
    have free₂ := (free_insert_iff repeated).mpr free'
    refine ⟨g,.imported plain free₁ free₂ ?_ here',same⟩
    rw [importable_insert,if_neg (other ⟨plain,free,free'⟩),List.append_nil,← importable_append]
    exact single

theorem lookup?_insert_eq_none (outward : (⟨front ++ back⟩ : EnumTable).Outward namespaceName written)
    (found : (⟨front ++ back⟩ : EnumTable).lookup? namespaceName written = some f)
    (fits : written.getLast? = some e.name ∧ e.EndsWith (pathText written)) :
    (⟨front ++ e :: back⟩ : EnumTable).lookup? namespaceName written = none := by
  refine Option.eq_none_iff_forall_ne_some.mpr fun g found' => ?_
  have outward' : (⟨front ++ e :: back⟩ : EnumTable).Outward namespaceName written :=
    ⟨outward.plain,(free_insert_iff repeated).mpr outward.inside,(free_insert_iff repeated).mpr outward.root⟩
  obtain ⟨only,single,_⟩ := outward.exists_only found
  obtain ⟨only',single',_⟩ := outward'.exists_only found'
  -- The same enums match as before, and one more.
  have before := congrArg List.length single
  have after := congrArg List.length single'
  rw [importable_append] at before
  rw [importable_insert,if_pos fits] at after
  simp only [List.length_append,List.length_singleton] at before after
  omega

end Repeated

/-- Finding an enum again takes a reference its enum away just where only an import can explain it and the enum found
again is one that it may have been imported from; where names hold no colon, that is the very enum which it meant. Any
other reference keeps meaning an enum of the same path. -/
theorem resolve_repeated {front back : List EnumRef} {e f : EnumRef} {namespaceName : String} {type : TypeExpr}
    (repeated : ∃ g ∈ front ++ back, g.path = e.path)
    (found : ((⟨front ++ back⟩ : EnumTable).resolve namespaceName type).enum? = some f) :
    (((⟨front ++ e :: back⟩ : EnumTable).resolve namespaceName type).enum? = none ↔
      ∃ written, type.plainPath? = some written ∧ (⟨front ++ back⟩ : EnumTable).Outward namespaceName written ∧
        written.getLast? = some e.name ∧ e.EndsWith (pathText written)) ∧
    (((⟨front ++ e :: back⟩ : EnumTable).resolve namespaceName type).enum? = none →
      (∀ g ∈ front ++ e :: back, ':' ∉ g.name.toList) → e.path = f.path) ∧
    ∀ g, ((⟨front ++ e :: back⟩ : EnumTable).resolve namespaceName type).enum? = some g → g.path = f.path := by
  rw [enum?_resolve] at found ⊢
  obtain ⟨written,path,found⟩ := Option.bind_eq_some_iff.mp found
  rw [path]
  simp only [Option.bind_some,Option.some.injEq,exists_eq_left']
  by_cases lost : (⟨front ++ back⟩ : EnumTable).Outward namespaceName written ∧
      written.getLast? = some e.name ∧ e.EndsWith (pathText written)
  · obtain ⟨outward,fits⟩ := lost
    have none := lookup?_insert_eq_none repeated outward found fits
    refine ⟨iff_of_true none ⟨outward,fits⟩,fun _ single => ?_,fun g some => ?_⟩
    · obtain ⟨only,alone,here⟩ := outward.exists_only found
      obtain ⟨g,held,own⟩ := repeated
      have named : g.name = e.name := by
        refine (qualify_inj (single g ?_) (single e (by simp)) own).2
        simp only [List.mem_append,List.mem_cons] at held ⊢
        tauto
      have member : g ∈ (⟨front ++ back⟩ : EnumTable).importable written := by
        refine List.mem_filter.mpr ⟨held,?_⟩
        simpa [EnumRef.EndsWith,own,named] using fits
      rw [alone,List.mem_singleton] at member
      rw [← own,member,here.path_eq]
    · rw [none] at some
      cases some
  · have finds := lookup?_eq_some_iff.mp found
    obtain ⟨g,finds,same⟩ := finds.insert repeated fun outward fits => lost ⟨outward,fits⟩
    have some := lookup?_eq_some_iff.mpr finds
    rw [some]
    refine ⟨iff_of_false (Option.some_ne_none g) lost,fun gone => ?_,fun h there => ?_⟩
    · cases gone
    · rw [← Option.some.inj there,same]

def smallKind : EnumRef := ⟨"shared","Kind",["Home"]⟩

def largeKind : EnumRef := ⟨"shared","Kind",["Home","Plus"]⟩

/-- An enum under two alternatives, to which a type of its name refers in another module: the second alternative adds
no path, and yet the type is no enum any longer. -/
theorem resolve_repeated_kind :
    (∃ g ∈ [smallKind],g.path = largeKind.path) ∧
    ((⟨[smallKind]⟩ : EnumTable).resolve "pages" (.ofNames ["Kind"])).enum? = some smallKind ∧
    ((⟨[smallKind,largeKind]⟩ : EnumTable).resolve "pages" (.ofNames ["Kind"])).enum? = none ∧
    ((⟨[smallKind,largeKind]⟩ : EnumTable).resolve "shared" (.ofNames ["Kind"])).enum? = some largeKind := by
  have repeated : ∃ g ∈ [smallKind] ++ [],g.path = largeKind.path := ⟨smallKind,by simp,rfl⟩
  have found : ((⟨[smallKind] ++ []⟩ : EnumTable).resolve "pages" (.ofNames ["Kind"])).enum? = some smallKind := by
    decide +kernel
  have outward : (⟨[smallKind]⟩ : EnumTable).Outward "pages" ["Kind"] := by
    refine ⟨⟨"Kind",rfl,by decide⟩,?_,?_⟩
    · unfold Free
      decide +kernel
    · unfold Free
      decide +kernel
  refine ⟨repeated,found,?_,by decide +kernel⟩
  exact (resolve_repeated repeated found).1.mpr ⟨["Kind"],by decide +kernel,outward,by decide +kernel,by decide +kernel⟩

end InlineIcons.Source.EnumTable
