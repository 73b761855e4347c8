import InlineIcons.Analysis
import InlineIcons.Proofs.Json.Text

/-! The JSON form of a declaration, and of what its check gives, determines it: nothing that a later
stage reads is left out. -/
namespace InlineIcons

theorem Json.ofTexts_injective {xs ys : List String} (same : ofTexts xs = ofTexts ys) : xs = ys := by
  simp only [ofTexts,arr.injEq] at same
  exact (List.map_inj_right fun _ _ => str.inj).mp same

theorem Location.toJson_injective {l m : Location} (same : l.toJson = m.toJson) : l = m := by
  obtain ⟨⟨file⟩,line,column⟩ := l
  obtain ⟨⟨file'⟩,line',column'⟩ := m
  simpa [toJson,Int.ofNat_inj] using same

theorem EnumRef.fields_injective {e e' : EnumRef} (same : e.fields = e'.fields) : e = e' := by
  obtain ⟨namespaceName,name,members⟩ := e
  obtain ⟨namespaceName',name',members'⟩ := e'
  simp only [fields,List.cons.injEq,Prod.mk.injEq,Json.str.injEq,true_and,and_true] at same
  obtain ⟨rfl,rfl,list⟩ := same
  rw [Json.ofTexts_injective list]

theorem EnumRef.toJson_injective {e e' : EnumRef} (same : e.toJson = e'.toJson) : e = e' :=
  fields_injective (Json.obj.inj same)

theorem TypeRef.toJson_injective {t u : TypeRef} (same : t.toJson = u.toJson) : t = u := by
  induction t generalizing u with
  | enumeration d e =>
    cases u with
    | enumeration d' e' =>
      simp only [toJson,Json.obj.injEq,List.cons.injEq,Prod.mk.injEq,Json.str.injEq,true_and,
        and_true] at same
      rw [same.1,EnumRef.fields_injective same.2]
    | optional | other => simp [toJson] at same
  | optional d inner ih =>
    cases u with
    | optional d' inner' =>
      simp only [toJson,Json.obj.injEq,List.cons.injEq,Prod.mk.injEq,Json.str.injEq,true_and,
        and_true] at same
      rw [same.1,ih same.2]
    | enumeration | other => simp [toJson] at same
  | other d =>
    cases u with
    | other d' => simpa [toJson] using same
    | enumeration | optional => simp [toJson] at same

theorem Directive.toJson_injective {d e : Directive} (same : d.toJson = e.toJson) : d = e := by
  obtain ⟨kind,extras,location⟩ := d
  obtain ⟨kind',extras',location'⟩ := e
  simp only [toJson,Json.obj.injEq,List.cons.injEq,Prod.mk.injEq,Json.str.injEq,true_and,
    and_true] at same
  obtain ⟨rfl,rfl,place⟩ := same
  rw [Location.toJson_injective place]

theorem Property.toJson_injective {p q : Property} (same : p.toJson = q.toJson) : p = q := by
  obtain ⟨name,type,location⟩ := p
  obtain ⟨name',type',location'⟩ := q
  simp only [toJson,Json.obj.injEq,List.cons.injEq,Prod.mk.injEq,Json.str.injEq,true_and,
    and_true] at same
  obtain ⟨rfl,written,place⟩ := same
  rw [TypeRef.toJson_injective written,Location.toJson_injective place]

theorem Declaration.toJson_injective {d e : Declaration} (same : d.toJson = e.toJson) : d = e := by
  obtain ⟨namespaceName,name,directive,properties,location⟩ := d
  obtain ⟨namespaceName',name',directive',properties',location'⟩ := e
  simp only [toJson,Json.obj.injEq,List.cons.injEq,Prod.mk.injEq,Json.str.injEq,Json.arr.injEq,
    true_and,and_true] at same
  obtain ⟨rfl,rfl,asked,listed,place⟩ := same
  have listed := (List.map_inj_right fun _ _ => Property.toJson_injective).mp listed
  rw [Directive.toJson_injective asked,listed,Location.toJson_injective place]

theorem DiagnosticCode.id_injective {c d : DiagnosticCode} (same : c.id = d.id) : c = d := by
  cases c <;> cases d <;> first | rfl | exact absurd same (by decide)

theorem Diagnostic.toJson_injective {d e : Diagnostic} (same : d.toJson = e.toJson) : d = e := by
  obtain ⟨code,args,location⟩ := d
  obtain ⟨code',args',location'⟩ := e
  simp only [toJson,Json.obj.injEq,List.cons.injEq,Prod.mk.injEq,Json.str.injEq,true_and,
    and_true] at same
  obtain ⟨coded,list,place⟩ := same
  rw [DiagnosticCode.id_injective coded,Json.ofTexts_injective list,Location.toJson_injective place]

theorem Definition.toJson_injective {d e : Definition} (same : d.toJson = e.toJson) : d = e := by
  obtain ⟨namespaceName,name,kind,extras,optional,enum,members,location⟩ := d
  obtain ⟨namespaceName',name',kind',extras',optional',enum',members',location'⟩ := e
  simp only [toJson,Json.obj.injEq,List.cons.injEq,Prod.mk.injEq,Json.str.injEq,Json.bool.injEq,
    true_and,and_true] at same
  obtain ⟨rfl,rfl,rfl,rfl,rfl,target,list,place⟩ := same
  rw [EnumRef.toJson_injective target,Json.ofTexts_injective list,Location.toJson_injective place]

/-- A definition that is not there is written as `null`, which no definition is. -/
theorem Definition.ofOption_injective {d e : Option Definition}
    (same : Json.ofOption Definition.toJson d = Json.ofOption Definition.toJson e) : d = e := by
  cases d with
  | none =>
    cases e with
    | none => rfl
    | some e => simp [Json.ofOption,toJson] at same
  | some d =>
    cases e with
    | none => simp [Json.ofOption,toJson] at same
    | some e => exact congrArg some (toJson_injective same)

theorem Analysis.toJson_injective {a b : Analysis} (same : a.toJson = b.toJson) : a = b := by
  obtain ⟨⟨id⟩,definition,diagnostics⟩ := a
  obtain ⟨⟨id'⟩,definition',diagnostics'⟩ := b
  simp only [toJson,Json.obj.injEq,List.cons.injEq,Prod.mk.injEq,Json.str.injEq,Json.arr.injEq,
    true_and,and_true] at same
  obtain ⟨rfl,data,listed⟩ := same
  have listed := (List.map_inj_right fun _ _ => Diagnostic.toJson_injective).mp listed
  rw [Definition.ofOption_injective data,listed]

end InlineIcons
