import InlineIcons.Proofs.Pipeline.Reuse

/-! What a run accounts for. Every file that counts provides the icon of its identifier or is reported once, every
identity that is declared has one result, and nothing else is reported. -/
namespace InlineIcons

/-- What a result takes from the declaration it stands for: all but the name of its unit. -/
structure GenerationResult.Answers (r : GenerationResult) (d : Declaration) (index : AssetIndex)
    (emit : EmitOptions) : Prop where
  source : r.source = (d.analyze.generate index emit).source
  diagnostics : r.diagnostics = (d.analyze.generate index emit).diagnostics
  failed : r.source = none ↔ d.faults ≠ []
  fault : ∀ g rest, d.faults = g :: rest → r.diagnostics = [g]

namespace Pipeline

variable {options : PipelineOptions} {inputs : Inputs} {c : Collected}

theorem answers_generate (d : Declaration) (index : AssetIndex) (emit : EmitOptions) {r : GenerationResult}
    (source : r.source = (d.analyze.generate index emit).source)
    (diagnostics : r.diagnostics = (d.analyze.generate index emit).diagnostics) : r.Answers d index emit := by
  refine ⟨source,diagnostics,?_,fun g rest fails => ?_⟩
  · rw [source]
    cases found : d.faults with
    | nil => simpa [Option.isSome_iff_ne_none] using Declaration.isSome_source_of_no_faults found
    | cons g rest => simp [(Declaration.generate_of_faults found).1]
  · rw [diagnostics,(Declaration.generate_of_faults fails).2]

section New

variable (done : (new options).collected inputs = .ok c)

theorem ids_named_new (options : PipelineOptions) (inputs : Inputs) (c : Collected) :
    ((new options).named inputs c).map GenerationResult.id = (Declaration.select inputs.declarations).map Declaration.id := by
  rw [map_named_new (fun _ _ => rfl)]
  exact List.map_congr_left fun d _ => d.id_generate ..

theorem answers_named_new {r : GenerationResult} (member : r ∈ (new options).named inputs c) :
    ∃ d, inputs.declarations.find? (·.id = r.id) = some d ∧ r.Answers d c.index options.emit := by
  have listed : (r.id,r.source,r.diagnostics) ∈ ((new options).named inputs c).map fun r => (r.id,r.source,r.diagnostics) :=
    List.mem_map_of_mem member
  rw [map_named_new (fun _ _ => rfl)] at listed
  obtain ⟨d,selected,same⟩ := List.mem_map.mp listed
  simp only [Prod.mk.injEq,Declaration.id_generate] at same
  obtain ⟨id,source,diagnostics⟩ := same
  refine ⟨d,?_,answers_generate d c.index options.emit source.symm diagnostics.symm⟩
  rw [← id]
  exact (Declaration.groups.mem_select_iff _ d).mp selected

end New

end Pipeline
end InlineIcons
