import InlineIcons.Proofs.Program.Statement
import InlineIcons.Proofs.Program.Writer
import InlineIcons.SourceUnit.Catalog

/-! The catalog read back: an enum, and an implementation that lists its members and gives for each of them its name
and its markup. The four lists are read apart from one another, and all of them hold the icons of the index. -/
namespace InlineIcons

/-- Characters of an identifier, a raw one included, and at least one of them. Every identifier is of that kind, and so
is what stems that begin with a digit lead to. -/
structure IsIdentifier (name : String) : Prop where
  filled : name ≠ ""
  named : IsName name

/-- A name as an enum declares it, with the number that is written behind it, if there is one. -/
structure NumberedName where
  name : String
  number : Option String
  deriving DecidableEq, Repr

structure Member where
  enumName : String
  name : String
  deriving DecidableEq, Repr

structure TextArm where
  member : Member
  text : String
  deriving DecidableEq, Repr

/-- The list of all members, and what is told of each of them. -/
structure MemberTable where
  elementType : String
  all : List Member
  names : List TextArm
  markups : List TextArm
  deriving DecidableEq, Repr

/-- An enum and one implementation. -/
structure Listing where
  enumName : String
  variants : List NumberedName
  type : String
  table : MemberTable
  deriving DecidableEq, Repr

namespace Reading

def nameWithin? (front behind : String) (cs : List Char) : Option String := do
  let (name,cs) := word isNameChar (← after? front cs)
  if cs = behind.toList then some name else none

def member? (cs : List Char) : Option (Member × List Char) := do
  let (enumName,cs) := word isNameChar cs
  let (name,cs) := word isNameChar (← after? "::" cs)
  return (⟨enumName,name⟩,cs)

def variant? : Block → Option NumberedName
  | .scope _ _ => none
  | .line cs =>
    let (name,cs) := word isNameChar cs
    if cs = ",".toList then some ⟨name,none⟩
    else do
      let (number,cs) := word Char.isDigit (← after? " = " cs)
      if cs = ",".toList then some ⟨name,some number⟩ else none

def element? : Block → Option Member
  | .scope _ _ => none
  | .line cs => do
    let (member,cs) ← member? cs
    if cs = ",".toList then some member else none

def textArm? : Block → Option TextArm
  | .scope _ _ => none
  | .line cs => do
    let (member,cs) ← member? cs
    let (text,cs) ← literal? (← after? " => " cs)
    if cs = ",".toList then some ⟨member,text⟩ else none

/-- A method without arguments that is one match on its receiver, with a text for each member. -/
def textMethod? (name : String) : Block → Option (List TextArm)
  | .scope header [.scope scrutinee arms] =>
    if header = ("pub const fn " ++ name ++ "(self) -> &'static str").toList ∧ scrutinee = "match self".toList then
      arms.mapM textArm?
    else none
  | _ => none

def endsElements : Block → Bool
  | .scope _ _ => false
  | .line cs => cs = "];".toList

end Reading

open Reading in
/-- Reads what stands in an implementation: the list of all members and the two methods, with nothing beside them. -/
def MemberTable.read? : List Block → Option MemberTable
  | .line opening :: items => do
    let elementType ← nameWithin? "pub const ALL: &'static [" "] = &[" opening
    let all ← (items.takeWhile (!endsElements ·)).mapM element?
    match items.dropWhile (!endsElements ·) with
    | [_,named,marked] => return ⟨elementType,all,← textMethod? "name" named,← textMethod? "markup" marked⟩
    | _ => none
  | _ => none

open Reading in
/-- Reads a unit that is an enum and its implementation, with nothing beside them. -/
def Listing.read? (source : String) : Option Listing :=
  match Block.read? source with
  | some [.line derived,.scope enumHeader variants,.scope header body] => do
    discard (after? "#[derive(" derived)
    let enumName ← nameWithin? "pub enum " "" enumHeader
    let variants ← variants.mapM variant?
    let type ← nameWithin? "impl " "" header
    return ⟨enumName,variants,type,← MemberTable.read? body⟩
  | _ => none

/-- What a catalog has to say of an index: every icon once in each of the lists, and the first member numbered. -/
def AssetIndex.listing (index : AssetIndex) (enumName : String) : Listing where
  enumName
  variants := index.identifiers.mapIdx fun n identifier => ⟨identifier,if n = 0 then some "1" else none⟩
  type := enumName
  table := {
    elementType := enumName
    all := index.identifiers.map fun identifier => ⟨enumName,identifier⟩
    names := index.entries.map fun a => ⟨⟨enumName,a.identifier⟩,a.identifier⟩
    markups := index.entries.map fun a => ⟨⟨enumName,a.identifier⟩,a.markup⟩ }

namespace Reading

variable {name enumName : String}

theorem begins_identifier (identifier : IsIdentifier name) (cs : List Char) : LineKind.begins (name.toList ++ cs) := by
  obtain ⟨c,rest,chars⟩ := List.exists_cons_of_ne_nil fun none => identifier.filled (String.toList_eq_nil_iff.mp none)
  have letter : isNameChar c = true := identifier.named c (chars ▸ List.mem_cons_self)
  have blank : c ≠ ' ' := by
    rintro rfl
    exact absurd letter (by decide)
  have slash : c ≠ '/' := by
    rintro rfl
    exact absurd letter (by decide)
  simp [chars,LineKind.begins,blank,slash]

theorem nameWithin?_append (named : IsName name) (front behind : String)
    (stops : behind.toList.head?.all fun c => !isNameChar c) :
    nameWithin? front behind (front ++ name ++ behind).toList = some name := by
  have chars : (front ++ name ++ behind).toList = front.toList ++ (name.toList ++ behind.toList) := by simp
  have read : word isNameChar (name.toList ++ behind.toList) = (name,behind.toList) := by
    cases chars : behind.toList with
    | nil => rw [List.append_nil,word_toList named]
    | cons c cs =>
      rw [chars] at stops
      exact word_append named (by simpa using stops) cs
  simp only [nameWithin?,chars,after?_append,read,Option.bind_eq_bind,Option.bind_some,if_true]

theorem member?_append (enumNamed : IsName enumName) (named : IsName name) {c : Char} (stop : isNameChar c = false)
    (cs : List Char) : member? (enumName.toList ++ ("::".toList ++ (name.toList ++ c :: cs))) =
      some (⟨enumName,name⟩,c :: cs) := by
  have colon : enumName.toList ++ ("::".toList ++ (name.toList ++ c :: cs)) =
      enumName.toList ++ ':' :: (":".toList ++ (name.toList ++ c :: cs)) := by simp
  have path : after? "::" (':' :: (":".toList ++ (name.toList ++ c :: cs))) = some (name.toList ++ c :: cs) :=
    after?_append "::" _
  simp only [member?,colon,word_append enumNamed (c := ':') (by decide),path,word_append named stop,
    Option.bind_eq_bind,Option.bind_some]
  rfl

theorem variant?_plain (named : IsName name) : variant? (.line (name ++ ",").toList) = some ⟨name,none⟩ := by
  have read : word isNameChar (name ++ ",").toList = (name,",".toList) := by
    rw [String.toList_append]
    exact word_append named (by decide) []
  simp only [variant?,read,if_true]

theorem variant?_numbered (named : IsName name) :
    variant? (.line (name ++ " = 1,").toList) = some ⟨name,some "1"⟩ := by
  have read : word isNameChar (name ++ " = 1,").toList = (name," = 1,".toList) := by
    rw [String.toList_append]
    exact word_append named (by decide) ['=',' ','1',',']
  have number : after? " = " " = 1,".toList = some ['1',','] := by decide
  have digit : word Char.isDigit ['1',','] = ("1",",".toList) := by decide
  simp only [variant?,read,number,digit,Option.bind_eq_bind,Option.bind_some,if_true]
  rfl

theorem element?_line (enumNamed : IsName enumName) (named : IsName name) :
    element? (.line (enumName ++ "::" ++ name ++ ",").toList) = some ⟨enumName,name⟩ := by
  have chars : (enumName ++ "::" ++ name ++ ",").toList =
      enumName.toList ++ ("::".toList ++ (name.toList ++ ',' :: [])) := by simp
  have read : member? (enumName.toList ++ ("::".toList ++ (name.toList ++ ',' :: []))) =
      some (⟨enumName,name⟩,",".toList) := member?_append enumNamed named (by decide) []
  simp only [element?,chars,read,Option.bind_eq_bind,Option.bind_some,if_true]

theorem textArm?_line (enumNamed : IsName enumName) (named : IsName name) (text : String) :
    textArm? (.line (enumName ++ "::" ++ name ++ " => " ++ Literal.quote text ++ ",").toList) =
      some ⟨⟨enumName,name⟩,text⟩ := by
  have chars : (enumName ++ "::" ++ name ++ " => " ++ Literal.quote text ++ ",").toList = enumName.toList ++
      ("::".toList ++ (name.toList ++ ' ' :: ("=> ".toList ++ ((Literal.quote text).toList ++ ",".toList)))) := by simp
  have arrow : after? " => " (' ' :: ("=> ".toList ++ ((Literal.quote text).toList ++ ",".toList))) =
      some ((Literal.quote text).toList ++ ",".toList) := after?_append " => " _
  simp only [textArm?,chars,member?_append enumNamed named (c := ' ') (by decide),arrow,literal?_append,
    Option.bind_eq_bind,Option.bind_some,if_true]

theorem mapM_map {α β : Type} {block : α → Block} {read : Block → Option β} {value : α → β} {as : List α}
    (each : ∀ a ∈ as, read (block a) = some (value a)) : (as.map block).mapM read = some (as.map value) := by
  induction as with
  | nil => rfl
  | cons a as ih =>
    obtain ⟨first,rest⟩ := List.forall_mem_cons.mp each
    rw [List.map_cons,List.mapM_cons,first,Option.bind_eq_bind,Option.bind_some,ih rest]
    rfl

end Reading

namespace SourceUnit

open Step Reading

variable {enumName : String}

theorem reads_entry {name behind : String} (identifier : IsIdentifier name) (ends : LineKind.ends behind.toList)
    (single : '\n' ∉ behind.toList) : Reads (.line (name ++ behind)) [.line (name ++ behind).toList] := by
  refine reads_line ?_ ?_ ?_
  · rw [String.toList_append]
    exact begins_identifier identifier _
  · rw [String.toList_append]
    exact LineKind.ends_append _ ends
  · simp [identifier.named.isPath.newline_not_mem,single]

theorem mapIdx_numbered (first : String) (rest : List String) :
    (first :: rest).mapIdx (fun n identifier => (⟨identifier,if n = 0 then some "1" else none⟩ : NumberedName)) =
      ⟨first,some "1"⟩ :: rest.map fun identifier => ⟨identifier,none⟩ := by
  rw [List.mapIdx_cons]
  refine congrArg (_ :: ·) (List.ext_getElem? fun n => ?_)
  simp

theorem read_variants {identifiers : List String} (names : ∀ i ∈ identifiers, IsIdentifier i) :
    ∃ blocks, ReadAs (variantSteps identifiers) blocks ∧ blocks.mapM variant? =
      some (identifiers.mapIdx fun n identifier => ⟨identifier,if n = 0 then some "1" else none⟩) := by
  cases identifiers with
  | nil => exact ⟨[],readAs_nil,rfl⟩
  | cons first rest =>
    obtain ⟨here,others⟩ := List.forall_mem_cons.mp names
    have numbered : Reads (.line (first ++ " = 1,")) [.line (first ++ " = 1,").toList] :=
      reads_entry here (by decide) (by decide)
    have plain : ∀ i ∈ rest, Reads (.line (i ++ ",")) [.line (i ++ ",").toList] :=
      fun i member => reads_entry (others i member) (by decide) (by decide)
    have told := mapM_map fun i member => variant?_plain (others i member).named
    refine ⟨_,readAs_cons numbered (readAs_map plain),?_⟩
    rw [List.singleton_append,List.mapM_cons,variant?_numbered here.named,Option.bind_eq_bind,Option.bind_some,told,
      mapIdx_numbered]
    rfl

/-- The elements of the list of all members, none of which is taken for its end. -/
theorem read_elements {identifiers : List String} (enumNamed : IsIdentifier enumName)
    (names : ∀ i ∈ identifiers, IsIdentifier i) :
    ∃ blocks, ReadAs (identifiers.map fun i => .line (enumName ++ "::" ++ i ++ ",")) blocks ∧
      blocks.mapM element? = some (identifiers.map fun i => ⟨enumName,i⟩) ∧
      ∀ b ∈ blocks, (!endsElements b) = true := by
  have reads : ∀ i ∈ identifiers, Reads (.line (enumName ++ "::" ++ i ++ ","))
      [.line (enumName ++ "::" ++ i ++ ",").toList] := by
    intro i member
    rw [String.append_assoc,String.append_assoc]
    refine reads_entry enumNamed ?_ (by simp [(names i member).named.isPath.newline_not_mem])
    rw [← String.append_assoc,String.toList_append]
    exact LineKind.ends_append _ (by decide)
  refine ⟨_,readAs_map reads,mapM_map fun i member => element?_line enumNamed.named (names i member).named,?_⟩
  intro b member
  obtain ⟨i,_,rfl⟩ := List.mem_map.mp member
  have other : (enumName ++ "::" ++ i ++ ",").toList ≠ "];".toList := by
    intro same
    simpa using congrArg (·.reverse.head?) same
  simpa [endsElements] using other

theorem read_textArms {assets : List Asset} (enumNamed : IsIdentifier enumName)
    (names : ∀ a ∈ assets, IsIdentifier a.identifier) (text : Asset → String) :
    ∃ blocks, ReadAs (textArms enumName assets text) blocks ∧
      blocks.mapM textArm? = some (assets.map fun a => ⟨⟨enumName,a.identifier⟩,text a⟩) := by
  refine ⟨_,readAs_map fun a member => ?_,
    mapM_map fun a member => textArm?_line enumNamed.named (names a member).named (text a)⟩
  rw [String.append_assoc,String.append_assoc,String.append_assoc,String.append_assoc]
  refine reads_entry enumNamed ?_ ?_
  · rw [← String.append_assoc,← String.append_assoc,← String.append_assoc,String.toList_append]
    exact LineKind.ends_append _ (by decide)
  · simp [(names a member).named.isPath.newline_not_mem,Literal.newline_not_mem_quote]

theorem read_textMethod {assets : List Asset} (enumNamed : IsIdentifier enumName)
    (names : ∀ a ∈ assets, IsIdentifier a.identifier) (method : String) (text : Asset → String) {header : String}
    (shape : header = "pub const fn " ++ method ++ "(self) -> &'static str") (single : '\n' ∉ header.toList) :
    ∃ block, Reads (.scope header [.scope "match self" (textArms enumName assets text)]) [block] ∧
      textMethod? method block = some (assets.map fun a => ⟨⟨enumName,a.identifier⟩,text a⟩) := by
  obtain ⟨arms,reads,told⟩ := read_textArms enumNamed names text
  have matched : Reads (.scope "match self" (textArms enumName assets text)) _ :=
    reads_scope (by decide) (by decide) reads
  have begins : LineKind.begins header.toList := by simp [shape,LineKind.begins]
  refine ⟨_,reads_scope begins single (readAs_one matched),?_⟩
  rw [textMethod?,if_pos ⟨congrArg String.toList shape,rfl⟩,told]

theorem read_table {index : AssetIndex} (enumNamed : IsIdentifier enumName)
    (names : ∀ i ∈ index.identifiers, IsIdentifier i) :
    ∃ blocks, ReadAs
        [.line ("pub const ALL: &'static [" ++ enumName ++ "] = &["),
         .indented (index.identifiers.map fun i => .line (enumName ++ "::" ++ i ++ ",")),
         .line "];",
         .emptyLine,
         .scope "pub const fn name(self) -> &'static str"
          [.scope "match self" (textArms enumName index.entries Asset.identifier)],
         .emptyLine,
         .scope "pub const fn markup(self) -> &'static str"
          [.scope "match self" (textArms enumName index.entries Asset.markup)]] blocks ∧
      MemberTable.read? blocks = some (index.listing enumName).table := by
  have icons : ∀ a ∈ index.entries, IsIdentifier a.identifier := fun a member => names _ (List.mem_map_of_mem member)
  obtain ⟨elements,readElements,toldElements,inside⟩ := read_elements enumNamed names
  obtain ⟨named,readNamed,toldNamed⟩ := read_textMethod enumNamed icons "name" Asset.identifier
    (by rfl : "pub const fn name(self) -> &'static str" = _) (by decide)
  obtain ⟨marked,readMarked,toldMarked⟩ := read_textMethod enumNamed icons "markup" Asset.markup
    (by rfl : "pub const fn markup(self) -> &'static str" = _) (by decide)
  have opening : Reads (.line ("pub const ALL: &'static [" ++ enumName ++ "] = &[")) _ :=
    reads_line (by simp [LineKind.begins]) (by rw [String.toList_append]; exact LineKind.ends_append _ (by decide))
      (by simp [enumNamed.named.isPath.newline_not_mem])
  have closing : Reads (.line "];") [.line "];".toList] := reads_line (by decide) (by decide) (by decide)
  have reads := readAs_cons opening (readAs_cons (reads_indented readElements) (readAs_cons closing
    (readAs_cons reads_emptyLine (readAs_cons readNamed (readAs_cons reads_emptyLine (readAs_one readMarked))))))
  refine ⟨_,reads,?_⟩
  have listed : nameWithin? "pub const ALL: &'static [" "] = &[" _ = some enumName :=
    nameWithin?_append enumNamed.named _ _ (by decide)
  have ended : (!endsElements (.line "];".toList)) = false := by decide
  simp only [List.nil_append,List.singleton_append,MemberTable.read?,listed,List.takeWhile_append_of_pos inside,
    List.dropWhile_append_of_pos inside,List.takeWhile_cons_of_neg,List.dropWhile_cons_of_neg,ended,Bool.false_eq_true,
    not_false_eq_true,List.append_nil,toldElements,toldNamed,toldMarked,Option.bind_eq_bind,Option.bind_some]
  rfl

/-- A catalog read back: the enum, the list of its members and both methods hold exactly the icons of the index, in the
order of their identifiers and each once. The first member alone is numbered, and the literals of the methods spell the
identifier and the markup of each icon, whatever the markup holds. -/
theorem catalog_lists {index : AssetIndex} {options : CatalogOptions} (enumNamed : IsIdentifier options.enumName)
    (names : ∀ i ∈ index.identifiers, IsIdentifier i) :
    Listing.read? (catalog index options).source = some (index.listing options.enumName) ∧
      index.identifiers.Pairwise (· < ·) := by
  refine ⟨?_,List.pairwise_map.mpr index.sorted⟩
  have newline := enumNamed.named.isPath.newline_not_mem
  obtain ⟨variants,readVariants,toldVariants⟩ := read_variants names
  obtain ⟨items,readItems,toldItems⟩ := read_table enumNamed names
  have comment : Reads (.line header) [] := reads_comment (by decide) (by decide)
  have description : Reads (.line "/// Every SVG asset known to the generator.") [] :=
    reads_comment (by decide) (by decide)
  have derived : Reads (.line "#[derive(Debug, Clone, Copy, PartialEq, Eq, Hash)]") _ :=
    reads_line (by decide) (by decide) (by decide)
  have declared : Reads (.scope ("pub enum " ++ options.enumName) (variantSteps index.identifiers)) _ :=
    reads_scope (by simp [LineKind.begins]) (by simp [newline]) readVariants
  have implemented : Reads (.scope ("impl " ++ options.enumName) _) _ :=
    reads_scope (by simp [LineKind.begins]) (by simp [newline]) readItems
  have unit := Block.read?_write (readAs_cons comment (readAs_cons reads_emptyLine (readAs_cons description
    (readAs_cons derived (readAs_cons declared (readAs_cons reads_emptyLine (readAs_one implemented)))))))
  simp only [List.nil_append,List.singleton_append] at unit
  have written : (catalog index options).source = CodeWriter.write (catalogSteps index options.enumName) := rfl
  have enumHeader := nameWithin?_append enumNamed.named "pub enum " "" rfl
  have header := nameWithin?_append enumNamed.named "impl " "" rfl
  rw [String.append_empty] at enumHeader header
  obtain ⟨rest,derives⟩ : ∃ rest, after? "#[derive(" "#[derive(Debug, Clone, Copy, PartialEq, Eq, Hash)]".toList =
      some rest := Option.isSome_iff_exists.mp (by decide)
  rw [written,Listing.read?,catalogSteps,unit]
  simp only [derives,enumHeader,header,toldVariants,toldItems,Option.bind_eq_bind,Option.bind_some]
  rfl

def rawIcon : Asset := ⟨"r#type",[("viewBox","0 0 \"24\" 24")],"<path d='M0'/>\n\x7d // \x7b"⟩

def rawIndex : AssetIndex := .ofList [rawIcon,⟨"Home",[],""⟩]

/-- An index of two icons, one of which is named by a keyword and holds quotes, braces and line breaks. -/
theorem catalog_lists_raw : IsIdentifier "IconType" ∧ (∀ i ∈ rawIndex.identifiers, IsIdentifier i) ∧
    Listing.read? (catalog rawIndex ⟨"IconType"⟩).source = some (rawIndex.listing "IconType") ∧
    (rawIndex.listing "IconType").variants = [⟨"Home",some "1"⟩,⟨"r#type",none⟩] ∧
    (rawIndex.listing "IconType").table.all = [⟨"IconType","Home"⟩,⟨"IconType","r#type"⟩] ∧
    (rawIndex.listing "IconType").table.markups =
      [⟨⟨"IconType","Home"⟩,"<svg></svg>"⟩,⟨⟨"IconType","r#type"⟩,rawIcon.markup⟩] := by
  have names : ∀ i ∈ rawIndex.identifiers, IsIdentifier i := by
    have listed : rawIndex.identifiers = ["Home","r#type"] := by decide +kernel
    intro i member
    rw [listed] at member
    simp only [List.mem_cons,List.not_mem_nil,or_false] at member
    rcases member with rfl | rfl <;> exact ⟨by decide,by decide⟩
  have enumNamed : IsIdentifier "IconType" := ⟨by decide,by decide⟩
  have read := (@catalog_lists rawIndex ⟨"IconType"⟩ enumNamed names).1
  exact ⟨enumNamed,names,read,by decide +kernel,by decide +kernel,by decide +kernel⟩

end SourceUnit
end InlineIcons
