import InlineIcons.Proofs.Program.Statement
import InlineIcons.Proofs.Program.Writer
import InlineIcons.SourceUnit.Dispatch

/-! The dispatch of a definition read back: it tells apart the members that have an icon, and says for each
what the analysis and the icon say. -/
namespace InlineIcons

/-- An arm: the enum and the member it is for, and what it does. -/
structure Arm where
  enumPath : String
  member : String
  body : List Statement
  deriving Repr

/-- An implementation of one method that is one match on a property. -/
structure Dispatch where
  interface : String
  type : String
  method : String
  builder : String
  property : String
  arms : List Arm
  deriving Repr

namespace Reading

/-- A path cut before its last segment. -/
def lastSegment? (path : String) : Option (String × String) :=
  match path.toList.reverse.dropWhile (· ≠ ':') with
  | ':' :: ':' :: front =>
    some (.ofList front.reverse,.ofList (path.toList.reverse.takeWhile (· ≠ ':')).reverse)
  | _ => none

def pattern? (cs : List Char) : Option (String × String) :=
  let (path,cs) := word isPathChar cs
  if cs = " =>".toList then lastSegment? path else none

def arm? : Block → Option Arm
  | .line _ => none
  | .scope header body =>
    match pattern? header,Statement.readAll? body with
    | some (enumPath,member),some statements => some ⟨enumPath,member,statements⟩
    | _,_ => none

def arms? : List Block → Option (List Arm)
  | [] => some []
  | b :: bs =>
    match arm? b,arms? bs with
    | some a,some rest => some (a :: rest)
    | _,_ => none

/-- The type stands after the last `for`; what stands before it may hold blanks. -/
def implementation? (cs : List Char) : Option (String × String) := do
  let (type,before) := word isPathChar (← after? "impl " cs).reverse
  let interface ← after? " rof " before
  return (.ofList interface.reverse,.ofList type.toList.reverse)

def method? (cs : List Char) : Option (String × String) := do
  let (method,cs) := word isPathChar (← after? "fn " cs)
  let cs ← after? "(&self, builder: &mut " cs
  if cs.getLast? = some ')' then some (method,.ofList cs.dropLast) else none

def scrutinee? (cs : List Char) : Option String := do
  let (property,cs) := word isPathChar (← after? "match self." cs)
  if cs = [] then some property else none

end Reading

/-- Reads a unit that is one implementation holding one method holding one match, and nothing beside
them. -/
def Dispatch.read? (source : String) : Option Dispatch :=
  match Block.read? source with
  | some [.scope implementation [.scope method [.scope scrutinee arms]]] => do
    let (interface,type) ← Reading.implementation? implementation
    let (method,builder) ← Reading.method? method
    let property ← Reading.scrutinee? scrutinee
    let arms ← Reading.arms? arms
    return ⟨interface,type,method,builder,property,arms⟩
  | _ => none

namespace Definition

/-- Every extra but the title is added, then the title as an element of its own, if there is one. -/
def extrasDrawing : List Statement :=
  [.eachExtra [.unlessNamed "title" [.call "add_attribute" [.name "name",.name "value"]]],
    .whenExtra "title"
      [.call "open_element" [.text "title"],.call "add_content" [.name "title"],.call "close_element" []]]

/-- What an arm has to do: the element with the icon's attributes, the extras, and the icon's body. -/
def drawing (d : Definition) (a : Asset) : List Statement :=
  .call "open_element" [.text "svg"] ::
    a.attributes.map (fun pair => .call "add_attribute" [.text pair.1,.text pair.2]) ++
    (if d.extrasOptional then [.whenExtras d.extrasProperty extrasDrawing]
      else .bindExtras d.extrasProperty :: extrasDrawing) ++
    [.call "add_markup_content" [.text a.body],.call "close_element" []]

/-- What the unit of a definition has to say. -/
def dispatch (d : Definition) (index : AssetIndex) (options : EmitOptions) : Dispatch where
  interface := options.componentTrait
  type := d.typePath
  method := options.renderMethod
  builder := options.builderType
  property := d.kindProperty
  arms := d.members.filterMap fun member =>
    (index.get? member).map fun a => ⟨d.enum.qualifiedPath,member,d.drawing a⟩

/-- The names of a definition are identifiers or paths; those of members are identifiers. -/
structure Named (d : Definition) : Prop where
  namespaceName : IsPath d.namespaceName
  typeName : IsPath d.typeName
  kindProperty : IsPath d.kindProperty
  extrasProperty : IsPath d.extrasProperty
  enumNamespace : IsPath d.enum.namespaceName
  enumName : IsPath d.enum.name
  members : ∀ member ∈ d.members, IsName member

end Definition

/-- The options are texts of one line, such as paths with their generic arguments are, and the method is
named by an identifier or a path. -/
structure EmitOptions.Named (options : EmitOptions) : Prop where
  componentTrait : '\n' ∉ options.componentTrait.toList
  builderType : '\n' ∉ options.builderType.toList
  renderMethod : IsPath options.renderMethod

namespace Step

def Tells (s : Step) (t : Statement) : Prop :=
  ∃ block, s.Reads [block] ∧ Statement.read? block = some t

def TellAll (steps : List Step) (ts : List Statement) : Prop :=
  ∃ blocks, ReadAs steps blocks ∧ Statement.readAll? blocks = some ts

theorem tellAll_nil : TellAll [] [] := ⟨[],readAs_nil,rfl⟩

theorem tellAll_cons {s : Step} {t : Statement} {steps : List Step} {ts : List Statement} (first : Tells s t)
    (rest : TellAll steps ts) : TellAll (s :: steps) (t :: ts) := by
  obtain ⟨block,reads,told⟩ := first
  obtain ⟨blocks,readAs,toldAll⟩ := rest
  refine ⟨block :: blocks,readAs_cons reads readAs,?_⟩
  rw [Statement.readAll?,told,toldAll]

theorem tellAll_append {steps steps' : List Step} {ts ts' : List Statement} (first : TellAll steps ts)
    (second : TellAll steps' ts') : TellAll (steps ++ steps') (ts ++ ts') := by
  obtain ⟨blocks,reads,told⟩ := first
  obtain ⟨blocks',reads',told'⟩ := second
  exact ⟨blocks ++ blocks',readAs_append reads reads',Statement.readAll?_append told told'⟩

theorem tellAll_map {α : Type} {step : α → Step} {t : α → Statement} (each : ∀ a, Tells (step a) (t a))
    (as : List α) : TellAll (as.map step) (as.map t) := by
  induction as with
  | nil => exact tellAll_nil
  | cons a as ih => exact tellAll_cons (each a) ih

theorem tells_line {text : String} {t : Statement}
    (told : (Reading.call? text.toList).or (Reading.binding? text.toList) = some t)
    (begins : LineKind.begins text.toList) (ends : LineKind.ends text.toList)
    (single : '\n' ∉ text.toList) : Tells (.line text) t :=
  ⟨.line text.toList,reads_line begins ends single,told⟩

theorem tells_scope {header : String} {make : List Statement → Statement} {body : List Step}
    {ts : List Statement} (told : Reading.header? header.toList = some make)
    (begins : LineKind.begins header.toList) (single : '\n' ∉ header.toList) (inner : TellAll body ts) :
    Tells (.scope header body) (make ts) := by
  obtain ⟨blocks,reads,toldAll⟩ := inner
  refine ⟨.scope header.toList blocks,reads_scope begins single reads,?_⟩
  rw [Statement.read?,told,toldAll]

end Step

namespace Definition

open Step Reading

theorem tells_attribute (pair : String × String) :
    Tells (attributeStep pair) (.call "add_attribute" [.text pair.1,.text pair.2]) := by
  have shape : ("builder.add_attribute(" ++ Literal.quote pair.1 ++ ", " ++ Literal.quote pair.2 ++
      ");").toList = "builder.".toList ++ ("add_attribute".toList ++ '(' :: ((Literal.quote pair.1).toList ++
        (", ".toList ++ ((Literal.quote pair.2).toList ++ ");".toList)))) := by simp
  refine tells_line ?_ (by simp [LineKind.begins]) ?_ (by simp [Literal.newline_not_mem_quote])
  · rw [shape,call?_two (by decide) (argument?_quote ..) (argument?_quote ..)]
    rfl
  · rw [String.toList_append]
    exact LineKind.ends_append _ (by decide)

theorem tells_text {text method value : String} (named : IsName method)
    (shape : text = "builder." ++ method ++ "(" ++ Literal.quote value ++ ");") :
    Tells (.line text) (.call method [.text value]) := by
  have chars : text.toList =
      "builder.".toList ++ (method.toList ++ '(' :: ((Literal.quote value).toList ++ ");".toList)) := by
    simp [shape]
  refine tells_line ?_ (by simp [chars,LineKind.begins]) ?_ ?_
  · rw [chars,call?_one named (argument?_quote ..) (by simp [Literal.quote,Literal.quoteChars])]
    rfl
  · rw [shape,String.toList_append]
    exact LineKind.ends_append _ (by decide)
  · simp [chars,Literal.newline_not_mem_quote,named.isPath.newline_not_mem]

theorem tells_close : Tells (.line "builder.close_element();") (.call "close_element" []) :=
  tells_line (by rfl) (by decide) (by decide) (by decide)

theorem tells_extra : Tells (.line "builder.add_attribute(name, value);")
    (.call "add_attribute" [.name "name",.name "value"]) :=
  tells_line (by rfl) (by decide) (by decide) (by decide)

theorem tells_title : Tells (.line "builder.add_content(title);") (.call "add_content" [.name "title"]) :=
  tells_line (by rfl) (by decide) (by decide) (by decide)

theorem tells_openSvg : Tells (.line "builder.open_element(\"svg\");") (.call "open_element" [.text "svg"]) :=
  tells_line (by rfl) (by decide) (by decide) (by decide)

theorem newline_not_mem_titleKey : '\n' ∉ titleKey.toList := Literal.newline_not_mem_quote _

theorem tell_extras : TellAll extrasSteps extrasDrawing := by
  have unlessTitle : header? ("if *name != " ++ titleKey).toList = some (.unlessNamed "title") := by
    rw [String.toList_append]
    exact header?_unlessNamed "title"
  have kept := tells_scope unlessTitle (by simp [LineKind.begins]) (by simp [newline_not_mem_titleKey])
    (tellAll_cons tells_extra tellAll_nil)
  have each := tells_scope header?_eachExtra (by decide) (by decide) (tellAll_cons kept tellAll_nil)
  have whenTitle : header? ("if let Some(title) = extras.get(" ++ titleKey ++ ")").toList =
      some (.whenExtra "title") := by
    rw [String.toList_append,String.toList_append,List.append_assoc]
    exact header?_whenExtra "title"
  have opened : Tells (.line ("builder.open_element(" ++ titleKey ++ ");"))
      (.call "open_element" [.text "title"]) := by
    have front : "builder.open_element(" = "builder." ++ "open_element" ++ "(" := by decide
    exact tells_text (by decide) (front ▸ rfl)
  have title := tells_scope whenTitle (by simp [LineKind.begins]) (by simp [newline_not_mem_titleKey])
    (tellAll_cons opened (tellAll_cons tells_title (tellAll_cons tells_close tellAll_nil)))
  exact tellAll_cons each (tellAll_cons title tellAll_nil)

/-- The extras stand under a condition exactly when the component may have none. -/
theorem tell_extrasOf {d : Definition} (named : d.Named) :
    TellAll (if d.extrasOptional
        then [.scope ("if let Some(extras) = &" ++ ("self." ++ d.extrasProperty)) extrasSteps]
        else .line ("let extras = &" ++ ("self." ++ d.extrasProperty) ++ ";") :: extrasSteps)
      (if d.extrasOptional then [.whenExtras d.extrasProperty extrasDrawing]
        else .bindExtras d.extrasProperty :: extrasDrawing) := by
  have single := named.extrasProperty.newline_not_mem
  cases d.extrasOptional with
  | true =>
    have read : header? ("if let Some(extras) = &" ++ ("self." ++ d.extrasProperty)).toList =
        some (.whenExtras d.extrasProperty) := by
      have chars : ("if let Some(extras) = &" ++ ("self." ++ d.extrasProperty)).toList =
          "if let Some(extras) = &self.".toList ++ d.extrasProperty.toList := by simp
      rw [chars]
      exact header?_whenExtras named.extrasProperty
    exact tellAll_cons (tells_scope read (by simp [LineKind.begins]) (by simp [single]) tell_extras) tellAll_nil
  | false =>
    have bound : Tells (.line ("let extras = &" ++ ("self." ++ d.extrasProperty) ++ ";"))
        (.bindExtras d.extrasProperty) := by
      have chars : ("let extras = &" ++ ("self." ++ d.extrasProperty) ++ ";").toList =
          "let extras = &self.".toList ++ (d.extrasProperty.toList ++ ";".toList) := by simp
      refine tells_line ?_ (by simp [LineKind.begins]) ?_ (by simp [single])
      · have other : call? ("let extras = &self.".toList ++ (d.extrasProperty.toList ++ ";".toList)) = none := by
          simp [call?,after?]
        rw [chars,other,Option.none_or,binding?_append named.extrasProperty]
      · rw [String.toList_append]
        exact LineKind.ends_append _ (by decide)
    exact tellAll_cons bound tell_extras

/-- An arm does what it has to do, whatever stands in the icon. -/
theorem tell_arm {d : Definition} (named : d.Named) (a : Asset) : TellAll (d.armSteps a) (d.drawing a) := by
  have markup : Tells (.line ("builder.add_markup_content(" ++ Literal.quote a.body ++ ");"))
      (.call "add_markup_content" [.text a.body]) := by
    have front : "builder.add_markup_content(" = "builder." ++ "add_markup_content" ++ "(" := by decide
    exact tells_text (by decide) (front ▸ rfl)
  have opened := tellAll_cons tells_openSvg (tellAll_map tells_attribute a.attributes)
  have closed := tellAll_cons markup (tellAll_cons tells_close tellAll_nil)
  exact tellAll_append (tellAll_append opened (tell_extrasOf named)) closed

theorem isPath_cratePath {namespaceName name : String} (first : IsPath namespaceName) (second : IsPath name) :
    IsPath (cratePath namespaceName name) := by
  unfold cratePath qualify
  split
  · exact IsPath.append (by decide) second
  · exact IsPath.append (by decide) ((first.append (by decide)).append second)

theorem lastSegment?_append (path : String) {member : String} (named : IsName member) :
    lastSegment? (path ++ "::" ++ member) = some (path,member) := by
  have inside : ∀ c ∈ member.toList.reverse, (c ≠ ':' : Bool) = true := by
    intro c listed
    have letter := named c (List.mem_reverse.mp listed)
    rw [decide_eq_true_eq]
    rintro rfl
    exact absurd letter (by decide)
  have chars : (path ++ "::" ++ member).toList.reverse =
      member.toList.reverse ++ ':' :: ':' :: path.toList.reverse := by simp
  rw [lastSegment?,chars,List.dropWhile_append_of_pos inside,List.takeWhile_append_of_pos inside]
  simp

theorem pattern?_append {path member : String} (isPath : IsPath path) (named : IsName member) :
    pattern? (path ++ "::" ++ member ++ " =>").toList = some (path,member) := by
  have whole : IsPath (path ++ "::" ++ member) := (isPath.append (by decide)).append named.isPath
  have read : word isPathChar (path ++ "::" ++ member ++ " =>").toList =
      (path ++ "::" ++ member," =>".toList) := by
    rw [String.toList_append]
    exact word_append whole (by decide) ['=','>']
  rw [pattern?,read]
  dsimp only
  rw [if_pos rfl,lastSegment?_append path named]

theorem begins_cratePath (namespaceName name rest : String) :
    LineKind.begins (cratePath namespaceName name ++ rest).toList := by simp [cratePath,LineKind.begins]

theorem reads_arm {d : Definition} (named : d.Named) {member : String} (isName : IsName member) (a : Asset) :
    ∃ block, Reads (.scope (d.enum.qualifiedPath ++ "::" ++ member ++ " =>") (d.armSteps a)) [block] ∧
      arm? block = some ⟨d.enum.qualifiedPath,member,d.drawing a⟩ := by
  obtain ⟨blocks,reads,told⟩ := tell_arm named a
  have path : IsPath d.enum.qualifiedPath := isPath_cratePath named.enumNamespace named.enumName
  have begins : LineKind.begins (d.enum.qualifiedPath ++ "::" ++ member ++ " =>").toList := by
    rw [String.append_assoc,String.append_assoc]
    exact begins_cratePath ..
  have single : '\n' ∉ (d.enum.qualifiedPath ++ "::" ++ member ++ " =>").toList := by
    simp [path.newline_not_mem,isName.isPath.newline_not_mem]
  refine ⟨_,reads_scope begins single reads,?_⟩
  rw [arm?,pattern?_append path isName,told]

/-- The arms are those of the members that have an icon, in the order of the members. -/
theorem read_arms {d : Definition} (named : d.Named) (index : AssetIndex) {members : List String}
    (names : ∀ member ∈ members, IsName member) :
    ∃ blocks, ReadAs (members.filterMap fun member => (index.get? member).map fun a =>
        .scope (d.enum.qualifiedPath ++ "::" ++ member ++ " =>") (d.armSteps a)) blocks ∧
      arms? blocks = some (members.filterMap fun member => (index.get? member).map fun a =>
        ⟨d.enum.qualifiedPath,member,d.drawing a⟩) := by
  induction members with
  | nil => exact ⟨[],readAs_nil,rfl⟩
  | cons member members ih =>
    obtain ⟨blocks,reads,read⟩ := ih fun m inside => names m (List.mem_cons_of_mem member inside)
    cases found : index.get? member with
    | none =>
      simp only [List.filterMap_cons,found,Option.map_none]
      exact ⟨blocks,reads,read⟩
    | some a =>
      obtain ⟨block,one,arm⟩ := reads_arm named (names member List.mem_cons_self) a
      simp only [List.filterMap_cons,found,Option.map_some]
      refine ⟨block :: blocks,readAs_cons one reads,?_⟩
      rw [arms?,arm,read]

theorem implementation?_append (interface : String) {type : String} (isPath : IsPath type) :
    implementation? ("impl " ++ interface ++ " for " ++ type).toList = some (interface,type) := by
  have chars : ("impl " ++ interface ++ " for " ++ type).toList =
      "impl ".toList ++ (interface.toList ++ (" for ".toList ++ type.toList)) := by simp
  have inside : ∀ c ∈ (String.ofList type.toList.reverse).toList, isPathChar c := by
    intro c member
    rw [String.toList_ofList] at member
    exact isPath c (List.mem_reverse.mp member)
  have backwards : (interface.toList ++ (" for ".toList ++ type.toList)).reverse =
      (String.ofList type.toList.reverse).toList ++ ' ' :: ("rof ".toList ++ interface.toList.reverse) := by
    simp
  have middle : after? " rof " (' ' :: ("rof ".toList ++ interface.toList.reverse)) =
      some interface.toList.reverse := after?_append " rof " _
  simp only [implementation?,chars,after?_append,backwards,word_append inside (c := ' ') (by decide),middle,
    Option.bind_eq_bind,Option.bind_some]
  simp

theorem method?_append {method : String} (isPath : IsPath method) (builder : String) :
    method? ("fn " ++ method ++ "(&self, builder: &mut " ++ builder ++ ")").toList = some (method,builder) := by
  have chars : ("fn " ++ method ++ "(&self, builder: &mut " ++ builder ++ ")").toList = "fn ".toList ++
      (method.toList ++ '(' :: ("&self, builder: &mut ".toList ++ (builder.toList ++ [')']))) := by simp
  have middle : after? "(&self, builder: &mut "
      ('(' :: ("&self, builder: &mut ".toList ++ (builder.toList ++ [')']))) = some (builder.toList ++ [')']) :=
    after?_append "(&self, builder: &mut " _
  simp only [method?,chars,after?_append,word_append isPath (c := '(') (by decide),middle,
    Option.bind_eq_bind,Option.bind_some]
  simp

theorem scrutinee?_append {property : String} (isPath : IsPath property) :
    scrutinee? ("match self." ++ property).toList = some property := by
  rw [String.toList_append]
  simp only [scrutinee?,after?_append,word_toList isPath,Option.bind_eq_bind,Option.bind_some,if_true]

theorem read?_generate {d : Definition} {options : EmitOptions} (named : d.Named) (paths : options.Named)
    (index : AssetIndex) :
    (d.generate index options).source.bind Dispatch.read? = some (d.dispatch index options) := by
  obtain ⟨arms,reads,read⟩ := read_arms named index named.members
  have type : IsPath d.typePath := isPath_cratePath named.namespaceName named.typeName
  have matched : Reads (.scope ("match self." ++ d.kindProperty) (d.arms index)) _ :=
    reads_scope (by simp [LineKind.begins]) (by simp [named.kindProperty.newline_not_mem]) reads
  have method : Reads (.scope ("fn " ++ options.renderMethod ++ "(&self, builder: &mut " ++
      options.builderType ++ ")") _) _ :=
    reads_scope (by simp [LineKind.begins])
      (by simp [paths.renderMethod.newline_not_mem,paths.builderType]) (readAs_one matched)
  have implementation : Reads (.scope ("impl " ++ options.componentTrait ++ " for " ++ d.typePath) _) _ :=
    reads_scope (by simp [LineKind.begins])
      (by simp [paths.componentTrait,type.newline_not_mem]) (readAs_one method)
  have comment : Reads (.line ("// Inline SVG render dispatch for `" ++ d.typePath ++ "`.")) [] :=
    reads_comment (by simp) (by simp [type.newline_not_mem])
  have header : Reads (.line SourceUnit.header) [] := reads_comment (by decide) (by decide)
  have unit := Block.read?_write (readAs_cons header (readAs_cons comment
    (readAs_cons reads_emptyLine (readAs_one implementation))))
  have written : (d.generate index options).source = some (CodeWriter.write (d.steps index options)) := rfl
  rw [List.nil_append,List.nil_append,List.nil_append] at unit
  rw [written,Option.bind_some,Dispatch.read?,steps,unit]
  simp only [implementation?_append options.componentTrait type,method?_append paths.renderMethod,
    scrutinee?_append named.kindProperty,read,Option.bind_eq_bind,Option.bind_some]
  rfl

/-- The unit of a definition, read back, says exactly what the analysis and the icons say, and the members
without an icon are what is reported. -/
theorem generate_dispatch {d : Definition} {options : EmitOptions} (named : d.Named) (paths : options.Named)
    (index : AssetIndex) :
    (d.generate index options).source.bind Dispatch.read? = some (d.dispatch index options) ∧
      (d.generate index options).diagnostics =
        (d.members.filter fun member => (index.get? member).isNone).map fun member =>
          ⟨.assetMissing,[member,Identifier.suggestedFile member],d.directiveLocation⟩ :=
  ⟨read?_generate named paths index,rfl⟩

def sample : Definition where
  namespaceName := "shared::icons"
  typeName := "Icon"
  kindProperty := "kind"
  extrasProperty := "extras"
  extrasOptional := true
  enum := ⟨"","IconKind",["Home","r#type"]⟩
  members := ["Home","r#type"]
  directiveLocation := .none

/-- An icon whose texts hold quotes, braces and line breaks. -/
def sampleIcon : Asset := ⟨"Home",[("viewBox","0 0 \"24\" 24"),("a\\","\x7b\n\x7d;")],"<path d='M0'/>\n\x7d // \x7b"⟩

theorem generate_dispatch_sample :
    sample.Named ∧ EmitOptions.Named .standard ∧
      (sample.generate (.ofList [sampleIcon]) .standard).source.bind Dispatch.read? =
        some (sample.dispatch (.ofList [sampleIcon]) .standard) ∧
      (sample.dispatch (.ofList [sampleIcon]) .standard).arms.map Arm.member = ["Home"] ∧
      (sample.generate (.ofList [sampleIcon]) .standard).diagnostics =
        [⟨.assetMissing,["r#type","<unresolved>"],.none⟩] := by
  have named : sample.Named := ⟨by decide,by decide,by decide,by decide,by decide,by decide,by decide⟩
  have paths : EmitOptions.Named .standard := ⟨by decide,by decide,by decide⟩
  obtain ⟨told,reported⟩ := generate_dispatch named paths (.ofList [sampleIcon])
  exact ⟨named,paths,told,by decide +kernel,reported.trans (by decide +kernel)⟩

end Definition

end InlineIcons
