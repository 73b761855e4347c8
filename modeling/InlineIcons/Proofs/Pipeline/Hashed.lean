import InlineIcons.Proofs.Json.Records
import InlineIcons.Proofs.Pipeline.Collected

/-! What goes into the fingerprints of a run. Equal bytes mean equal inputs of the stage, so a value can
only be reused where computing would give the same one. -/
namespace InlineIcons

open Fingerprint

def Declaration.hashed (d : Declaration) : List UInt8 := stream [.value d.toJson]

theorem Declaration.hashed_injective {d e : Declaration} (same : d.hashed = e.hashed) : d = e := by
  simp only [hashed,stream_cons,toJson] at same
  have fields := (frame_object_append_inj same).1
  exact toJson_injective (congrArg Json.obj fields)

namespace Collected

variable {q : AssetFile → Prop} {c c' : Collected}

/-- What stands in a fingerprint for the icon behind an identifier, or for there being none. -/
def mark (c : Collected) (identifier : String) : Part :=
  match c.fingerprint? identifier with
  | some f => .fingerprint f
  | none => .bytes []

theorem length_fingerprint? (sound : c.From q) {identifier : String} {f : Fingerprint}
    (found : c.fingerprint? identifier = some f) : f.bytes.length = 32 := by
  obtain ⟨p,provided,rfl⟩ := Option.map_eq_some_iff.mp found
  obtain ⟨file,_,_,_,printed⟩ := sound.provided p (List.mem_of_find?_eq_some provided)
  exact printed ▸ length_ofParts _

theorem length_mark (sound : c.From q) (identifier : String) :
    (c.mark identifier).content.length < 2^64 := by
  unfold mark
  cases found : c.fingerprint? identifier with
  | none => simp [Part.content]
  | some f => simp [Part.content,length_fingerprint? sound found]

theorem mark_inj (sound : c.From q) (sound' : c'.From q) {identifier : String}
    (same : (c.mark identifier).content = (c'.mark identifier).content) :
    c.fingerprint? identifier = c'.fingerprint? identifier := by
  unfold mark at same
  cases found : c.fingerprint? identifier with
  | none =>
    cases found' : c'.fingerprint? identifier with
    | none => rfl
    | some f' =>
      have long := length_fingerprint? sound' found'
      simp only [found,found',Part.content] at same
      simp [← same] at long
  | some f =>
    have long := length_fingerprint? sound found
    cases found' : c'.fingerprint? identifier with
    | none =>
      simp only [found,found',Part.content] at same
      simp [same] at long
    | some f' =>
      simp only [found,found',Part.content] at same
      cases f
      cases f'
      exact congrArg some (congrArg Fingerprint.mk same)

/-- Where no two files share a fingerprint, an icon's fingerprint stands for the icon. -/
theorem get?_eq_of_fingerprint? (sound : c.From q) (sound' : c'.From q)
    (apart : ∀ f g, q f → q g → f.fingerprint = g.fingerprint → f = g) {identifier : String}
    (same : c.fingerprint? identifier = c'.fingerprint? identifier) :
    c.index.get? identifier = c'.index.get? identifier := by
  rw [get?_index sound,get?_index sound']
  unfold fingerprint? at same
  cases found : c.provider? identifier with
  | none =>
    rw [found,Option.map_none,eq_comm,Option.map_eq_none_iff] at same
    rw [same]
  | some p =>
    rw [found,Option.map_some,eq_comm,Option.map_eq_some_iff] at same
    obtain ⟨p',found',printed⟩ := same
    obtain ⟨f,holds,loaded,_,print⟩ := sound.provided p (List.mem_of_find?_eq_some found)
    obtain ⟨f',holds',loaded',_,print'⟩ := sound'.provided p' (List.mem_of_find?_eq_some found')
    have files : f = f' := apart f f' holds holds' (by rw [← print,← print',printed])
    subst files
    rw [found',Option.map_some,Option.map_some]
    exact congrArg some (Except.ok.inj (loaded.symm.trans loaded'))

end Collected

namespace Analysis

variable {q : AssetFile → Prop} {a b : Analysis} {c c' : Collected} {emit : EmitOptions}

def members (a : Analysis) : List String :=
  match a.definition with
  | some d => d.members
  | none => []

def hashed (a : Analysis) (c : Collected) (emit : EmitOptions) : List UInt8 :=
  stream (a.resultParts c emit)

theorem resultParts_eq (a : Analysis) (c : Collected) (emit : EmitOptions) :
    a.resultParts c emit =
      .value a.toJson :: .value emit.toJson :: a.members.flatMap fun m => [.text m,c.mark m] := rfl

theorem marks_inj (sound : c.From q) (sound' : c'.From q) {members : List String}
    (same : stream (members.flatMap fun m => [.text m,c.mark m]) =
      stream (members.flatMap fun m => [.text m,c'.mark m])) :
    ∀ m ∈ members, c.fingerprint? m = c'.fingerprint? m := by
  induction members with
  | nil => simp
  | cons m members ih =>
    simp only [List.flatMap_cons,List.cons_append,List.nil_append,stream_cons] at same
    have same := List.append_cancel_left same
    obtain ⟨mark,rest⟩ :=
      frame_append_inj (Collected.length_mark sound m) (Collected.length_mark sound' m) same
    intro other member
    rcases List.mem_cons.mp member with rfl | member
    · exact Collected.mark_inj sound sound' mark
    · exact ih rest other member

/-- Nothing that a result depends on is missing from its fingerprint. -/
theorem hashed_inj (sound : c.From q) (sound' : c'.From q) (same : a.hashed c emit = b.hashed c' emit) :
    a = b ∧ ∀ m ∈ a.members, c.fingerprint? m = c'.fingerprint? m := by
  simp only [hashed,resultParts_eq,stream_cons] at same
  obtain ⟨fields,rest⟩ := frame_object_append_inj same
  have analyses : a = b := toJson_injective (congrArg Json.obj fields)
  subst analyses
  exact ⟨rfl,marks_inj sound sound' (List.append_cancel_left rest)⟩

theorem generate_congr {index index' : AssetIndex}
    (same : ∀ m ∈ a.members, index.get? m = index'.get? m) :
    a.generate index emit = a.generate index' emit := by
  unfold generate
  cases data : a.definition with
  | none => rfl
  | some d =>
    have same : ∀ m ∈ d.members, index.get? m = index'.get? m := by simpa [members,data] using same
    have arms : d.arms index = d.arms index' :=
      List.filterMap_congr fun m member => by rw [same m member]
    have missing : d.missing index = d.missing index' :=
      congrArg (List.map _) (List.filter_congr fun m member => by rw [same m member])
    simp only [Definition.generate,Definition.steps,arms,missing]

end Analysis

namespace Collected

variable {q : AssetFile → Prop} {c c' : Collected} {options : CatalogOptions}

/-- The bytes behind the catalog's fingerprint. -/
def catalogHashed (c : Collected) (options : CatalogOptions) : List UInt8 :=
  stream (catalogParts options c)

/-- An entry of the catalog's fingerprint begins with a length whose first byte is no letter or digit. -/
theorem eq_of_begins {s t : String} (plain : ∀ d ∈ t.toList, d.isAlphanum)
    (begins : s.toList <+: t.toList) {f : Fingerprint} (long : f.bytes.length = 32)
    {r r' : List UInt8}
    (same : Text.utf8 s ++ (frame f.bytes ++ r) = Text.utf8 t ++ r') : s = t := by
  obtain ⟨more,whole⟩ := begins
  cases more with
  | nil => exact String.toList_inj.mp (by simpa using whole)
  | cons d more =>
    have letter : d.isAlphanum := plain d (by simp [← whole])
    have bytes : Text.utf8 t = Text.utf8 s ++ (String.utf8EncodeChar d ++ more.flatMap String.utf8EncodeChar) := by
      simp [Text.utf8,← whole]
    rw [bytes,List.append_assoc] at same
    obtain ⟨b,byte,other⟩ := Stem.utf8EncodeChar_of_isAlphanum letter
    have first := congrArg List.head? (List.append_cancel_left same)
    rw [byte,frame,long] at first
    exact absurd (Option.some.inj first).symm other

def entry (c : Collected) (identifier : String) : List Part :=
  .text identifier :: ((c.fingerprint? identifier).map Part.fingerprint).toList

theorem entry_of_mem (sound : c.From q) {identifier : String}
    (member : identifier ∈ c.index.identifiers) :
    ∃ f, c.fingerprint? identifier = some f ∧ f.bytes.length = 32 ∧
      c.entry identifier = [.text identifier,.fingerprint f] := by
  obtain ⟨p,provided⟩ := provider?_of_mem sound member
  have found : c.fingerprint? identifier = some p.fingerprint := by simp [fingerprint?,provided]
  exact ⟨p.fingerprint,found,length_fingerprint? sound found,by simp [entry,found]⟩

theorem entries_inj (sound : c.From q) (sound' : c'.From q) {ids ids' : List String}
    (inside : ∀ i ∈ ids, i ∈ c.index.identifiers) (inside' : ∀ i ∈ ids', i ∈ c'.index.identifiers)
    (same : stream (ids.flatMap c.entry) = stream (ids'.flatMap c'.entry)) :
    ids = ids' ∧ ∀ i ∈ ids, c.fingerprint? i = c'.fingerprint? i := by
  induction ids generalizing ids' with
  | nil =>
    cases ids' with
    | nil => simp
    | cons i' ids' =>
      obtain ⟨f',_,_,shape'⟩ := entry_of_mem sound' (inside' i' List.mem_cons_self)
      simp [stream,shape',frame,lengthBytes] at same
  | cons i ids ih =>
    obtain ⟨f,found,long,shape⟩ := entry_of_mem sound (inside i List.mem_cons_self)
    cases ids' with
    | nil => simp [stream,shape,frame,lengthBytes] at same
    | cons i' ids' =>
      obtain ⟨f',found',long',shape'⟩ := entry_of_mem sound' (inside' i' List.mem_cons_self)
      simp only [List.flatMap_cons,shape,shape',List.cons_append,List.nil_append,stream_cons] at same
      obtain ⟨_,contents⟩ := frame_append same
      have plain := isAlphanum_identifier sound (inside i List.mem_cons_self)
      have plain' := isAlphanum_identifier sound' (inside' i' List.mem_cons_self)
      have named : i = i' := by
        rcases Text.prefix_or_prefix_of_utf8 contents with begins | begins
        · exact eq_of_begins plain' begins long contents
        · exact (eq_of_begins plain begins long' contents.symm).symm
      subst named
      obtain ⟨bytes,rest⟩ := frame_append_inj (a := f.bytes) (b := f'.bytes) (by omega) (by omega)
        (List.append_cancel_left contents)
      have prints : f = f' := by cases f; cases f'; exact congrArg Fingerprint.mk bytes
      obtain ⟨rfl,others⟩ := ih (fun j member => inside j (List.mem_cons_of_mem i member))
        (fun j member => inside' j (List.mem_cons_of_mem i member)) rest
      refine ⟨rfl,fun j member => ?_⟩
      rcases List.mem_cons.mp member with rfl | member
      · rw [found,found',prints]
      · exact others j member

/-- Nothing that the catalog depends on is missing from its fingerprint. -/
theorem catalogHashed_inj (sound : c.From q) (sound' : c'.From q)
    (same : c.catalogHashed options = c'.catalogHashed options) :
    c.index.identifiers = c'.index.identifiers ∧
      ∀ i ∈ c.index.identifiers, c.fingerprint? i = c'.fingerprint? i := by
  have same : frame (Part.content (.value options.toJson)) ++ stream (c.index.identifiers.flatMap c.entry) =
      frame (Part.content (.value options.toJson)) ++ stream (c'.index.identifiers.flatMap c'.entry) := same
  exact entries_inj sound sound' (fun _ member => member) (fun _ member => member)
    (List.append_cancel_left same)

theorem index_eq_of_catalogHashed (sound : c.From q) (sound' : c'.From q)
    (apart : ∀ f g, q f → q g → f.fingerprint = g.fingerprint → f = g)
    (same : c.catalogHashed options = c'.catalogHashed options) : c.index = c'.index := by
  obtain ⟨identifiers,prints⟩ := catalogHashed_inj sound sound' same
  exact AssetIndex.ext_of_get? identifiers fun i member =>
    get?_eq_of_fingerprint? sound sound' apart (prints i member)

end Collected
end InlineIcons
