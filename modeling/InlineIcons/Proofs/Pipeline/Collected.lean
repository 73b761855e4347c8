import InlineIcons.Pipeline
import InlineIcons.Proofs.Assets
import InlineIcons.Proofs.Fingerprint

/-! The icons of a run: each identifier has one provider, and a provider is a file that was loaded. -/
namespace InlineIcons

/-- The bytes behind a file's fingerprint. -/
def AssetFile.hashed (f : AssetFile) : List UInt8 :=
  Fingerprint.stream [.text f.path.text,.text f.content]

def AssetFile.Addressable (f : AssetFile) : Prop := (Text.utf8 f.path.text).length < 2^64

instance (f : AssetFile) : Decidable f.Addressable := inferInstanceAs (Decidable (_ < _))

theorem AssetFile.hashed_injective {f g : AssetFile} (fits : f.Addressable) (fits' : g.Addressable)
    (same : f.hashed = g.hashed) : f = g := by
  obtain ⟨⟨path⟩,content⟩ := f
  obtain ⟨⟨path'⟩,content'⟩ := g
  have same : Fingerprint.frame (Text.utf8 path) ++ Fingerprint.frame (Text.utf8 content) =
      Fingerprint.frame (Text.utf8 path') ++ Fingerprint.frame (Text.utf8 content') := by
    simpa [hashed,Fingerprint.stream,Fingerprint.Part.content] using same
  obtain ⟨paths,contents⟩ := Fingerprint.frame_append_inj fits fits' same
  have paths : path = path' := Text.utf8_injective paths
  have contents : content = content' := Text.utf8_injective (Fingerprint.frame_injective contents)
  rw [paths,contents]

def Provider.From (q : AssetFile → Prop) (p : Provider) : Prop :=
  ∃ f, q f ∧ f.load = .ok p.asset ∧ p.path = f.path ∧ p.fingerprint = f.fingerprint

namespace Collected

/-- One provider for each identifier, all of them from files that satisfy a condition. -/
structure From (q : AssetFile → Prop) (c : Collected) : Prop where
  distinct : (c.providers.map (·.asset.identifier)).Nodup
  provided : ∀ p ∈ c.providers, p.From q

variable {q : AssetFile → Prop} {c : Collected}

theorem empty_from : empty.From q := ⟨by simp [empty],by simp [empty]⟩

theorem skip_from (sound : c.From q) (path : Path) (reason : String) : (c.skip path reason).From q :=
  ⟨sound.distinct,sound.provided⟩

theorem addAsset_from (sound : c.From q) {file : AssetFile} {asset : Asset} (holds : q file)
    (loaded : file.load = .ok asset) : (c.addAsset file asset).From q := by
  unfold addAsset
  cases owner : c.provider? asset.identifier with
  | some owner => exact skip_from sound ..
  | none =>
    have fresh : asset.identifier ∉ c.providers.map (·.asset.identifier) := by
      intro member
      obtain ⟨p,inside,named⟩ := List.mem_map.mp member
      have := List.find?_eq_none.mp owner p inside
      simp [named] at this
    refine ⟨?_,?_⟩
    · simp only [List.map_append,List.map_cons,List.map_nil]
      exact List.nodup_append_comm.mp (List.nodup_cons.mpr ⟨fresh,sound.distinct⟩)
    · intro p member
      rcases List.mem_append.mp member with member | member
      · exact sound.provided p member
      · rw [List.mem_singleton.mp member]
        exact ⟨file,holds,loaded,rfl,rfl⟩

theorem addAll_from {strict : Bool} {files : List AssetFile} (sound : c.From q)
    (holds : ∀ f ∈ files, q f) {done : Collected}
    (ran : c.addAll strict (files.map fun f => (f,f.load)) = .ok done) : done.From q := by
  induction files generalizing c with
  | nil =>
    simp only [List.map_nil,addAll,Except.ok.injEq] at ran
    exact ran ▸ sound
  | cons f files ih =>
    have here := holds f List.mem_cons_self
    have there : ∀ g ∈ files, q g := fun g member => holds g (List.mem_cons_of_mem f member)
    cases loaded : f.load with
    | ok asset =>
      simp only [List.map_cons,loaded,addAll] at ran
      exact ih (addAsset_from sound here loaded) there ran
    | error e =>
      simp only [List.map_cons,loaded,addAll] at ran
      split at ran
      · cases ran
      · exact ih (skip_from sound ..) there ran

/-- Where files that do not load are skipped, there is nothing to fail. -/
theorem addAll_lenient (c : Collected) (files : List (AssetFile × Except AssetError Asset)) :
    ∃ done, c.addAll false files = .ok done := by
  induction files generalizing c with
  | nil => exact ⟨c,rfl⟩
  | cons f files ih =>
    obtain ⟨file,loaded⟩ := f
    cases loaded with
    | ok asset => exact ih (c.addAsset file asset)
    | error e => exact ih (c.skip file.path e.message)

theorem get?_index (sound : c.From q) (identifier : String) :
    c.index.get? identifier = (c.provider? identifier).map Provider.asset := by
  have distinct : ((c.providers.map Provider.asset).map Asset.identifier).Nodup := by
    rw [List.map_map]
    exact sound.distinct
  rw [index,AssetIndex.get?_ofList distinct,List.find?_map]
  rfl

theorem provider?_of_mem (sound : c.From q) {identifier : String}
    (member : identifier ∈ c.index.identifiers) : ∃ p, c.provider? identifier = some p := by
  obtain ⟨a,inside,rfl⟩ := List.mem_map.mp member
  have found := AssetIndex.get?_of_mem inside
  rw [get?_index sound] at found
  obtain ⟨p,found,_⟩ := Option.map_eq_some_iff.mp found
  exact ⟨p,found⟩

theorem isAlphanum_identifier (sound : c.From q) {identifier : String}
    (member : identifier ∈ c.index.identifiers) : ∀ d ∈ identifier.toList, d.isAlphanum := by
  obtain ⟨p,found⟩ := provider?_of_mem sound member
  have named : p.asset.identifier = identifier := by simpa using List.find?_some found
  obtain ⟨f,_,loaded,_,_⟩ := sound.provided p (List.mem_of_find?_eq_some found)
  exact named ▸ Asset.isAlphanum_of_load loaded

end Collected
end InlineIcons
