import InlineIcons.Proofs.Source.Lexing
import InlineIcons.Proofs.Source.Reading
import InlineIcons.Proofs.Source.TypeExpr

/-! What the text of a type is read as. It is read as the type itself, up to parentheses, unless a tuple of one type
stands somewhere in it: its text has no comma, so it is taken for that type in parentheses. -/
namespace InlineIcons.Source

open TokenTree (Makes)
open TypeGrammar (Reads ReadsAll ReadsSegment ReadsPath isName anchors)

def IsWord (text : String) : Prop := Lexeme.word? text.toList = some (text,text.toList.length)

instance (text : String) : Decidable (IsWord text) := inferInstanceAs (Decidable (_ = _))

theorem IsWord.makes {word : String} (whole : IsWord word) :
    Makes word.toList fun ts => ∃ place, ts = [.word word place] := by
  refine (Makes.word (Lexeme.Word.of_word? whole)).mono fun ts made => ?_
  rwa [String.ofList_toList] at made

/-- A segment as it can be written. An anchor has no arguments: behind it a reader goes on with `::` or ends the
path. -/
inductive Segment.Writable : Segment → Prop
  | anchor {word : String} (anchor : word ∈ anchors) : Writable (.mk word none)
  | plain {word : String} (whole : IsWord word) (name : isName word = true) : Writable (.mk word none)
  | arguments {word : String} (whole : IsWord word) (name : isName word = true) (types : List TypeExpr) :
    Writable (.mk word (some (types.map .type)))

/-- A type as it can be written that is made of paths, references without a lifetime, tuples, slices and parentheses.
The word `try` is an anchor inside a path, but no type can begin with it. -/
inductive TypeExpr.Writable : TypeExpr → Prop
  | path {segment : Segment} {segments : List Segment} (begins : segment.name ≠ "try")
    (written : ∀ s ∈ segment :: segments, s.Writable)
    (types : ∀ s ∈ segment :: segments, ∀ t ∈ s.types, Writable t) : Writable (.path false (segment :: segments))
  | rootedPath {segments : List Segment} (filled : segments ≠ []) (written : ∀ s ∈ segments, s.Writable)
    (types : ∀ s ∈ segments, ∀ t ∈ s.types, Writable t) : Writable (.path true segments)
  | reference (mutable : Bool) {target : TypeExpr} (inside : Writable target) :
    Writable (.reference none mutable target)
  | tuple {items : List TypeExpr} (inside : ∀ t ∈ items, Writable t) : Writable (.tuple items)
  | slice {item : TypeExpr} (inside : Writable item) : Writable (.slice item)
  | paren {inner : TypeExpr} (inside : Writable inner) : Writable (.paren inner)

variable {f : TypeExpr → TypeExpr}

theorem Segment.types_arguments (word : String) (types : List TypeExpr) :
    (Segment.mk word (some (types.map .type))).types = types := by
  induction types with
  | nil => rfl
  | cons t types ih => exact congrArg (t :: ·) ih

theorem makes_types {types : List TypeExpr} (each : ∀ t ∈ types, Makes t.show (Reads (f t))) :
    Makes (commaSeparated (types.map TypeExpr.show)) (ReadsAll (types.map f)) := by
  induction types with
  | nil =>
    refine Makes.nil.mono fun ts made => ?_
    rw [made]
    exact .none
  | cons t types ih =>
    have first := each t List.mem_cons_self
    have later := ih fun u member => each u (List.mem_cons_of_mem t member)
    by_cases alone : types = []
    · rw [alone]
      have text : commaSeparated [t.show] = t.show := by simp [commaSeparated]
      rw [List.map_cons,List.map_nil,text]
      exact first.mono fun ts reads => .last reads
    · have filled : types.map TypeExpr.show ≠ [] := by simpa using alone
      rw [List.map_cons,commaSeparated_cons t.show filled]
      refine (first.append (later.blank.mark (c := ',') (by decide)) (.mark (by decide) _)).mono ?_
      rintro _ ⟨before,_,rfl,reads,joint,place,rest,rfl,all⟩
      exact .more reads joint place (by simpa using alone) all

theorem Segment.Writable.makes {segment : Segment} (writable : segment.Writable)
    (each : ∀ t ∈ segment.types, Makes t.show (Reads (f t))) :
    Makes segment.show (ReadsSegment (segment.mapTypes f)) := by
  cases writable with
  | @anchor word anchor =>
    have whole : ∀ word ∈ anchors, IsWord word := by decide +kernel
    rw [Segment.show]
    refine (whole word anchor).makes.mono fun ts made => ?_
    obtain ⟨place,rfl⟩ := made
    exact .anchor anchor place
  | plain whole name =>
    rw [Segment.show]
    refine whole.makes.mono fun ts made => ?_
    obtain ⟨place,rfl⟩ := made
    exact .plain name place
  | @arguments word whole name types =>
    rw [Segment.types_arguments] at each
    have closing := Makes.nil.mark (c := '>') (by decide)
    have inside := (makes_types each).append closing (.mark (by decide) _)
    have held : (Segment.mk word (some (types.map .type))).mapTypes f =
        .mk word (some ((types.map f).map .type)) := by
      simp [Segment.mapTypes,GenericArg.mapType,Function.comp_def]
    rw [Segment.show_arguments,held]
    refine (whole.makes.append (inside.mark (c := '<') (by decide)) (.mark (by decide) _)).mono ?_
    rintro _ ⟨_,_,rfl,⟨place,rfl⟩,joint,place',_,rfl,args,_,rfl,all,joint',last,_,rfl,rfl⟩
    exact .arguments name all place joint place' joint' last

theorem makes_segments {segments : List Segment} (filled : segments ≠ [])
    (each : ∀ s ∈ segments, Makes s.show (ReadsSegment (s.mapTypes f))) :
    Makes (showSegments segments) (ReadsPath (segments.map (Segment.mapTypes f))) := by
  induction segments with
  | nil => exact absurd rfl filled
  | cons s segments ih =>
    have first := each s List.mem_cons_self
    by_cases alone : segments = []
    · rw [alone]
      exact first.mono fun ts reads => .last reads
    · have later := ih alone fun u member => each u (List.mem_cons_of_mem s member)
      rw [showSegments_cons s alone]
      refine (first.append later.colons (.mark (by decide) _)).mono ?_
      rintro _ ⟨before,_,rfl,reads,place,joint,place',rest,rfl,path⟩
      exact .more reads place joint place' path

theorem Segment.Writable.isPart {segment : Segment} (writable : segment.Writable) (begins : segment.name ≠ "try") :
    Attribute.isPart segment.name = true := by
  cases writable with
  | @anchor word anchor =>
    have table : ∀ word ∈ anchors, word ≠ "try" → Attribute.isPart word = true := by decide
    exact table word anchor begins
  | plain whole name => exact TypeGrammar.isPart_of_isName name
  | arguments whole name types => exact TypeGrammar.isPart_of_isName name

namespace TypeExpr

open Reader (runText)

/-- The text of a type makes tokens from which it is read without its parentheses, each tuple of one type as that type
in parentheses. -/
theorem Writable.makes {type : TypeExpr} (writable : type.Writable) :
    Makes type.show (Reads (type.rebuild .paren)) := by
  induction writable with
  | @path segment segments begins written types ih =>
    have made := makes_segments (List.cons_ne_nil segment segments)
      fun s member => (written s member).makes (ih s member)
    have fits := (written segment List.mem_cons_self).isPart begins
    rw [rebuild_path,show_path]
    refine made.mono fun ts path => ?_
    rw [List.map_cons] at path ⊢
    exact .path path (by rwa [Segment.name_mapTypes])
  | @rootedPath segments filled written types ih =>
    have made := makes_segments filled fun s member => (written s member).makes (ih s member)
    rw [rebuild_path,show_rootedPath]
    refine made.colons.mono fun ts tokens => ?_
    obtain ⟨place,joint,place',rest,rfl,path⟩ := tokens
    exact .rootedPath path place joint place'
  | @reference mutable target inside ih =>
    cases mutable with
    | false =>
      rw [rebuild,show_reference]
      refine (ih.mark (c := '&') (by decide)).mono fun ts tokens => ?_
      obtain ⟨joint,place,rest,rfl,reads⟩ := tokens
      exact .reference reads joint place
    | true =>
      have word : IsWord "mut" := by decide +kernel
      have after : Lexeme.EndsWord (' ' :: target.show) := .mark (by decide) _
      rw [rebuild,show_mutableReference]
      refine ((word.makes.append ih.blank after).mark (c := '&') (by decide)).mono fun ts tokens => ?_
      obtain ⟨joint,place,_,rfl,_,_,rfl,⟨place',rfl⟩,reads⟩ := tokens
      exact .mutableReference reads joint place place'
  | @tuple items inside ih =>
    have made := (makes_types ih).group .parenthesis
    rw [show_tuple]
    refine made.mono fun ts tokens => ?_
    obtain ⟨place,closing,body,rfl,all⟩ := tokens
    by_cases single : items.length = 1
    · obtain ⟨item,rfl⟩ := List.length_eq_one_iff.mp single
      cases all with
      | last reads => exact .paren reads place closing
      | more reads joint comma filled rest => exact absurd rfl filled
    · rw [rebuild_tuple _ single]
      exact .tuple all (by rwa [List.length_map]) place closing
  | slice inside ih =>
    rw [rebuild,TypeExpr.show]
    refine (ih.group .bracket).mono fun ts tokens => ?_
    obtain ⟨place,closing,body,rfl,reads⟩ := tokens
    exact .slice reads place closing
  | paren inside ih =>
    rw [rebuild,TypeExpr.show]
    exact ih

/-- The type with none of its parentheses. Two types are the same up to parentheses where this is the same. -/
def unenclosed (type : TypeExpr) : TypeExpr := type.rebuild fun item => .tuple [item]

/-- The text of a type is read as the type without its parentheses, but with each tuple of one type as that type in
parentheses. So it is the same type up to parentheses just where there is no such tuple. -/
theorem ofText?_display {type : TypeExpr} (writable : type.Writable) :
    ofText? type.display = .ok (type.rebuild .paren) ∧
    ((type.rebuild .paren).unenclosed = type.unenclosed ↔ ¬ type.HasSingle) := by
  have back : (type.rebuild .paren).unenclosed = type.rebuild id := rebuild_rebuild (fun t => by rw [rebuild,id]) type
  refine ⟨?_,?_⟩
  · obtain ⟨ts,reads,made⟩ := writable.makes.ofChars
    rw [ofText?,runText,display,String.toList_ofList,made]
    exact reads.runAll .start
  · rw [back]
    constructor
    · intro same some
      refine not_hasSingle_rebuild type ?_
      rw [same]
      exact some.rebuild
    · exact fun none => rebuild_congr id _ none

/-! A type of every form, and the tuple of one type: it is shown as `(u8)`, which is read as `u8` in parentheses. -/

theorem writable_word {word : String} (whole : IsWord word) (name : isName word = true) (other : word ≠ "try") :
    (TypeExpr.path false [.mk word none]).Writable := by
  refine .path other (fun s member => ?_) fun s member t inside => ?_
  · rw [List.mem_singleton.mp member]
    exact .plain whole name
  · rw [List.mem_singleton.mp member] at inside
    cases inside

def byteType : TypeExpr := .path false [.mk "u8" none]

/-- The type `::std::Map<&mut [r#fn], ((), (u8))>`. -/
def nestedType : TypeExpr :=
  .path true [.mk "std" none,.mk "Map" (some ([.reference none true (.slice (.path false [.mk "r#fn" none])),
    .tuple [.tuple [],.paren byteType]].map .type))]

theorem writable_byteType : byteType.Writable := writable_word (by decide +kernel) (by decide) (by decide)

theorem writable_nestedType : nestedType.Writable := by
  have function : (TypeExpr.path false [.mk "r#fn" none]).Writable :=
    writable_word (by decide +kernel) (by decide) (by decide)
  have pair : (TypeExpr.tuple [.tuple [],.paren byteType]).Writable := by
    refine .tuple (List.forall_mem_cons.mpr ⟨.tuple nofun,List.forall_mem_singleton.mpr ?_⟩)
    exact .paren writable_byteType
  refine .rootedPath (List.cons_ne_nil _ _) ?_ ?_
  · refine List.forall_mem_cons.mpr ⟨.plain (by decide +kernel) (by decide),List.forall_mem_singleton.mpr ?_⟩
    exact .arguments (by decide +kernel) (by decide) _
  · refine List.forall_mem_cons.mpr ⟨nofun,List.forall_mem_singleton.mpr ?_⟩
    rw [Segment.types_arguments]
    exact List.forall_mem_cons.mpr ⟨.reference true (.slice function),List.forall_mem_singleton.mpr pair⟩

theorem ofText?_display_byteType :
    nestedType.Writable ∧ nestedType.display = "::std::Map<&mut [r#fn], ((), u8)>" ∧
    ofText? nestedType.display = .ok (nestedType.rebuild .paren) ∧
    (tuple [byteType]).Writable ∧ (tuple [byteType]).display = "(u8)" ∧
    ofText? (tuple [byteType]).display = .ok (.paren byteType) ∧
    (paren byteType).unenclosed ≠ (tuple [byteType]).unenclosed := by
  have single : (tuple [byteType]).Writable := .tuple (List.forall_mem_singleton.mpr writable_byteType)
  obtain ⟨read,same⟩ := ofText?_display single
  refine ⟨writable_nestedType,by decide +kernel,(ofText?_display writable_nestedType).1,single,by decide +kernel,read,
    ?_⟩
  exact fun apart => same.mp apart (.here byteType)

end TypeExpr
end InlineIcons.Source
