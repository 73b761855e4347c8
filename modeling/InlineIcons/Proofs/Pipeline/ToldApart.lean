import InlineIcons.Proofs.Pipeline.Reuse

/-! What the fingerprints of results and of the catalog tell apart: who provides each icon. -/
namespace InlineIcons

open Fingerprint

/-- A result's bytes stand for the analysis and for the icons of its members, and for nothing else. -/
theorem Analysis.hashed_eq_iff {q : AssetFile → Prop} {a b : Analysis} {c c' : Collected} {emit : EmitOptions}
    (sound : c.From q) (sound' : c'.From q) : a.hashed c emit = b.hashed c' emit ↔
      a = b ∧ ∀ m ∈ a.members, c.fingerprint? m = c'.fingerprint? m := by
  refine ⟨hashed_inj sound sound',?_⟩
  rintro ⟨rfl,same⟩
  exact hashed_congr same

namespace Collected

variable {q : AssetFile → Prop} {c c' : Collected} (sound : c.From q) (sound' : c'.From q)

include sound in
theorem mem_identifiers_iff (identifier : String) :
    identifier ∈ c.index.identifiers ↔ (c.fingerprint? identifier).isSome := by
  rw [AssetIndex.mem_identifiers_iff,get?_index sound,fingerprint?,Option.isSome_map,Option.isSome_map]

include sound sound' in
/-- The catalog's bytes stand for all icons. -/
theorem catalogHashed_eq_iff (options : CatalogOptions) : c.catalogHashed options = c'.catalogHashed options ↔
    ∀ identifier, c.fingerprint? identifier = c'.fingerprint? identifier := by
  constructor
  · intro same identifier
    obtain ⟨identifiers,prints⟩ := catalogHashed_inj sound sound' same
    by_cases member : identifier ∈ c.index.identifiers
    · exact prints identifier member
    · have absent : identifier ∉ c'.index.identifiers := identifiers ▸ member
      rw [mem_identifiers_iff sound,Option.not_isSome_iff_eq_none] at member
      rw [mem_identifiers_iff sound',Option.not_isSome_iff_eq_none] at absent
      rw [member,absent]
  · intro same
    have identifiers : c.index.identifiers = c'.index.identifiers := by
      have members : ∀ i, i ∈ c.index.identifiers ↔ i ∈ c'.index.identifiers := fun i => by
        rw [mem_identifiers_iff sound,mem_identifiers_iff sound',same]
      have sorted (index : AssetIndex) : index.identifiers.Pairwise (· < ·) := List.pairwise_map.mpr index.sorted
      refine List.Perm.eq_of_pairwise (fun i j _ _ less more => ?_) (sorted c.index) (sorted c'.index) ?_
      · exact absurd more (String.lt_asymm less)
      · exact (List.perm_ext_iff_of_nodup c.index.identifiers_nodup c'.index.identifiers_nodup).mpr members
    simp only [catalogHashed,catalogParts,identifiers,same]

end Collected

namespace Pipeline

/-- Icons that a run has collected, whatever ran before it, and that all of it was hashed from byte strings of a
list. -/
structure Collects (hashed : List (List UInt8)) (options : PipelineOptions) (history : List Inputs) (inputs : Inputs)
    (c : Collected) : Prop where
  collected : ((new options).runAll history).collected inputs = .ok c
  addressable : ∀ i ∈ history ++ [inputs], i.Addressable
  covered : ∀ b ∈ (new options).hashedAll (history ++ [inputs]), b ∈ hashed

namespace Collects

variable {hashed : List (List UInt8)} {options options' : PipelineOptions} {history history' : List Inputs}
  {inputs inputs' : Inputs} {c c' : Collected} (free : CollisionFree hashed)
  (collects : Collects hashed options history inputs c) (collects' : Collects hashed options' history' inputs' c')

include free collects in
theorem icons : c.From (AssetFile.Known hashed) :=
  collected_from free (sound_runAll free collects.addressable collects.covered) (fits_last collects.addressable)
    (covers_last collects.covered) collects.collected

include free collects in
theorem fingerprint?_eq (identifier : String) : c.fingerprint? identifier =
    (AssetFile.winner? options.assetExtension inputs.assets identifier).map AssetFile.fingerprint := by
  have same := collected_runAll free collects.addressable collects.covered
  exact fingerprint?_collected (same.symm.trans collects.collected) identifier

include free collects collects' in
theorem fingerprint?_eq_iff (identifier : String) : c.fingerprint? identifier = c'.fingerprint? identifier ↔
    AssetFile.winner? options.assetExtension inputs.assets identifier =
      AssetFile.winner? options'.assetExtension inputs'.assets identifier := by
  rw [collects.fingerprint?_eq free,collects'.fingerprint?_eq free]
  refine free.map_fingerprint_inj (fun f won => ?_) (fun f won => ?_)
  · exact known_of_mem_last collects.addressable collects.covered (List.mem_of_find?_eq_some won)
  · exact known_of_mem_last collects'.addressable collects'.covered (List.mem_of_find?_eq_some won)

end Collects

/-- Frames can be read back from the bytes that are hashed for them. So the fingerprint of a result stands for its
analysis and for the file that provides the icon of each member, or for there being none, and the fingerprint of the
catalog for the file that provides the icon of each identifier. -/
theorem fingerprints_tell_apart :
    (∀ ps qs : List Part, (∀ p ∈ ps, p.Fits) → (∀ q ∈ qs, q.Fits) →
      (stream ps = stream qs ↔ ps.map Part.content = qs.map Part.content)) ∧
    ∀ {hashed options options' history history' inputs inputs' c c'}, CollisionFree hashed →
      Collects hashed options history inputs c → Collects hashed options' history' inputs' c' →
      (∀ (a b : Analysis) (emit : EmitOptions), a.hashed c emit ∈ hashed → b.hashed c' emit ∈ hashed →
        ((a.resultItem c emit).fingerprint = (b.resultItem c' emit).fingerprint ↔
          a = b ∧ ∀ m ∈ a.members, AssetFile.winner? options.assetExtension inputs.assets m =
            AssetFile.winner? options'.assetExtension inputs'.assets m)) ∧
      ∀ o : CatalogOptions, c.catalogHashed o ∈ hashed → c'.catalogHashed o ∈ hashed →
        (ofParts (catalogParts o c) = ofParts (catalogParts o c') ↔
          ∀ identifier, AssetFile.winner? options.assetExtension inputs.assets identifier =
            AssetFile.winner? options'.assetExtension inputs'.assets identifier) := by
  refine ⟨fun _ _ => stream_eq_iff,fun free collects collects' => ?_⟩
  have icons := collects.icons free
  have icons' := collects'.icons free
  have won := collects.fingerprint?_eq_iff free collects'
  refine ⟨fun a b emit covered covered' => ?_,fun o covered covered' => ?_⟩
  · rw [← forall₂_congr fun m (_ : m ∈ a.members) => won m,← Analysis.hashed_eq_iff icons icons']
    exact free.ofBytes_eq_iff covered covered'
  · rw [← forall_congr' won,← Collected.catalogHashed_eq_iff icons icons']
    exact free.ofBytes_eq_iff covered covered'

def upAnalysis : Analysis :=
  ⟨.of "" "I",some ⟨"","I","k","r",true,⟨"","K",["Up"]⟩,["Up"],.none⟩,[]⟩

def downFile : AssetFile := ⟨⟨"down.svg"⟩,"<svg/>"⟩

/-- All that is hashed with an icon and without it, for a result that asks for another icon and for the catalog. -/
def downHashed : List (List UInt8) :=
  [downFile.hashed,Text.utf8 "directive",upAnalysis.hashed .empty ⟨"","",""⟩,
    (Collected.ofFiles [downFile]).catalogHashed ⟨"Icons"⟩,Collected.empty.catalogHashed ⟨"Icons"⟩]

theorem downHashed_collisionFree : CollisionFree downHashed := by
  have firsts : downHashed.map (fun b => (Digest.blake3 b).head?) =
      [some 190,some 67,some 232,some 151,some 255] := by
    simp only [downHashed,Analysis.hashed,Analysis.resultParts_eq,Collected.catalogHashed,catalogParts,stream_cons,
      Part.content_value]
    decide +kernel
  exact .of_firsts (firsts ▸ by decide)

/-- The catalog changes with an icon, and a result that asks for another one does not. -/
theorem fingerprints_tell_downFile :
    stream [.text "ab",.text "c"] ≠ stream [.text "a",.text "bc"] ∧ CollisionFree downHashed ∧
      ∃ c, Collects downHashed .standard [] ⟨[downFile],[]⟩ c ∧ Collects downHashed .standard [] ⟨[],[]⟩ .empty ∧
        (upAnalysis.resultItem c ⟨"","",""⟩).fingerprint = (upAnalysis.resultItem .empty ⟨"","",""⟩).fingerprint ∧
        ofParts (catalogParts ⟨"Icons"⟩ c) ≠ ofParts (catalogParts ⟨"Icons"⟩ .empty) := by
  have selected : AssetFile.select "svg" [downFile] = [downFile] :=
    AssetFile.select_eq_self (by decide +kernel) (by decide +kernel)
  have nothing : AssetFile.select "svg" [] = [] := AssetFile.select_eq_self (by simp) .nil
  have collects {files : List AssetFile} (inside : ∀ f ∈ files, f = downFile)
      (kept : AssetFile.select "svg" files = files) :
      Collects downHashed .standard [] ⟨files,[]⟩ (.ofFiles files) := by
    refine ⟨?_,fun i member f there => ?_,fun b member => ?_⟩
    · have done : (new .standard).collected ⟨files,[]⟩ = .ok _ := collected_lenient rfl _
      exact done.trans (congrArg (Except.ok ∘ Collected.ofFiles) kept)
    · rw [List.mem_singleton.mp member] at there
      exact inside f there ▸ by decide +kernel
    · have among := mem_of_mem_hashedAll rfl rfl (by simp) member
      simp only [List.nil_append,List.flatMap_cons,List.flatMap_nil,List.append_nil,List.mem_cons,List.mem_map] at among
      rcases among with rfl | ⟨f,there,rfl⟩
      · simp [downHashed]
      · simp [inside f there,downHashed]
  have found := collects (by simp) selected
  have missing : Collects downHashed .standard [] ⟨[],[]⟩ .empty := collects (by simp) nothing
  have unasked : AssetFile.winner? "svg" [downFile] "Up" = AssetFile.winner? "svg" [] "Up" := by
    rw [AssetFile.winner?,AssetFile.winner?,selected,nothing]
    decide +kernel
  have apart : AssetFile.winner? "svg" [downFile] "Down" ≠ AssetFile.winner? "svg" [] "Down" := by
    rw [AssetFile.winner?,AssetFile.winner?,selected,nothing]
    decide +kernel
  have covered : upAnalysis.hashed (.ofFiles [downFile]) ⟨"","",""⟩ ∈ downHashed := by
    have marks : ∀ m ∈ upAnalysis.members, (Collected.ofFiles [downFile]).fingerprint? m = Collected.empty.fingerprint? m := by
      decide +kernel
    simp [Analysis.hashed_congr marks,downHashed]
  obtain ⟨frames,told⟩ := fingerprints_tell_apart
  obtain ⟨results,catalogs⟩ := told downHashed_collisionFree found missing
  refine ⟨?_,downHashed_collisionFree,_,found,missing,?_,fun same => ?_⟩
  · rw [ne_eq,frames _ _ (by simp [Part.Fits]; decide) (by simp [Part.Fits]; decide)]
    decide
  · refine (results upAnalysis upAnalysis _ covered (by simp [downHashed])).mpr ⟨rfl,fun m member => ?_⟩
    obtain rfl : m = "Up" := by simpa [upAnalysis,Analysis.members] using member
    exact unasked
  · exact apart ((catalogs _ (by simp [downHashed]) (by simp [downHashed])).mp same "Down")

end Pipeline
end InlineIcons
