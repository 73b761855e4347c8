import InlineIcons.SourceUnit.Dispatch
import Mathlib.Data.List.Basic

/-! The checks of a definition, each looked at by itself. The first that fails is all that is reported, and a
definition has a unit if none fails. -/
namespace InlineIcons

namespace Declaration

/-- What each check finds when it is made alone: on the kind property, on the extras property, and on the kind's
type where there is one. -/
def faults (d : Declaration) : List Diagnostic :=
  let kind := d.property? d.directive.kindProperty
  (if kind.isNone then [.kindPropertyMissing d.directive.kindProperty d.directive.location] else []) ++
    (if (d.property? d.directive.extrasProperty).isNone then
      [.extrasPropertyMissing d.directive.extrasProperty d.directive.location] else []) ++
    (kind.toList.filter (·.type.enum?.isNone)).map fun k => .kindPropertyNoEnum k.name k.type.display k.location

variable {d : Declaration} {g : Diagnostic}

theorem check_eq_error_iff : d.check = .error g ↔ d.faults.head? = some g := by
  unfold check faults
  cases kind : d.property? d.directive.kindProperty with
  | none => simp [kind]
  | some found =>
    cases extras : d.property? d.directive.extrasProperty with
    | none => simp [kind,extras]
    | some other => cases target : found.type.enum? <;> simp [kind,extras,target]

theorem code_of_mem_faults (member : g ∈ d.faults) :
    g.code = .kindPropertyMissing ∨ g.code = .extrasPropertyMissing ∨ g.code = .kindPropertyNoEnum := by
  rcases List.mem_append.mp member with member | member
  · rcases List.mem_append.mp member with member | member
    · split at member
      · exact .inl (List.mem_singleton.mp member ▸ rfl)
      · cases member
    · split at member
      · exact .inr (.inl (List.mem_singleton.mp member ▸ rfl))
      · cases member
  · obtain ⟨kind,_,rfl⟩ := List.mem_map.mp member
    exact .inr (.inr rfl)

theorem analyze_of_faults {rest : List Diagnostic} (fails : d.faults = g :: rest) : d.analyze = ⟨d.id,none,[g]⟩ := by
  have checked : d.check = .error g := check_eq_error_iff.mpr (by rw [fails]; rfl)
  rw [analyze,checked]

theorem analyze_of_no_faults (passes : d.faults = []) : ∃ known, d.analyze = ⟨d.id,some known,[]⟩ := by
  cases checked : d.check with
  | ok known => exact ⟨known,by rw [analyze,checked]⟩
  | error g =>
    rw [check_eq_error_iff,passes] at checked
    cases checked

theorem id_analyze (d : Declaration) : d.analyze.id = d.id := by
  unfold analyze
  cases d.check <;> rfl

theorem id_of_check {known : Definition} (checked : d.check = .ok known) : known.id = d.id := by
  unfold check at checked
  dsimp only at checked
  split at checked
  · cases checked
  split at checked
  · cases checked
  split at checked
  · cases checked
  · rw [← Except.ok.inj checked]
    rfl

variable {index : AssetIndex} {emit : EmitOptions}

theorem id_generate (d : Declaration) (index : AssetIndex) (emit : EmitOptions) :
    (d.analyze.generate index emit).id = d.id := by
  unfold analyze
  cases checked : d.check with
  | error g => rfl
  | ok known => exact id_of_check checked

/-- There is no source where a check fails, and then the first fault is all there is to report. -/
theorem generate_of_faults {rest : List Diagnostic} (fails : d.faults = g :: rest) :
    (d.analyze.generate index emit).source = none ∧ (d.analyze.generate index emit).diagnostics = [g] := by
  rw [analyze_of_faults fails]
  exact ⟨rfl,rfl⟩

theorem isSome_source_of_no_faults (passes : d.faults = []) : (d.analyze.generate index emit).source.isSome := by
  obtain ⟨known,analyzed⟩ := analyze_of_no_faults passes
  rw [analyzed]
  rfl

/-- Only files are skipped, so no result reports it. -/
theorem code_of_mem_generate (member : g ∈ (d.analyze.generate index emit).diagnostics) :
    g.code ≠ .assetSkipped := by
  cases found : d.faults with
  | cons first rest =>
    rw [(generate_of_faults found).2,List.mem_singleton] at member
    subst member
    have code := code_of_mem_faults (found ▸ List.mem_cons_self)
    grind
  | nil =>
    obtain ⟨known,analyzed⟩ := analyze_of_no_faults found
    rw [analyzed] at member
    obtain ⟨m,_,rfl⟩ := List.mem_map.mp member
    nofun

end Declaration
end InlineIcons
