import InlineIcons.Proofs.Identifier
import InlineIcons.Proofs.Markup.Document

/-! An icon that is loaded from the text of a tree: the root's attributes, and the canonical text of its
elements in normal form. -/
namespace InlineIcons.Markup

namespace Node

theorem render_childless (tag : Tag) :
    render (.element tag []) = '<' :: (tag.name.toList ++ renderAttributes tag.attributes ++ ['/','>']) := rfl

theorem render_element (tag : Tag) (child : Node) (more : List Node) :
    render (.element tag (child :: more)) = '<' :: (tag.name.toList ++ renderAttributes tag.attributes ++
      '>' :: renderAll (child :: more) ++ '<' :: '/' :: tag.name.toList ++ ['>']) := rfl

theorem render_text (content : String) : render (.text content) = Entity.escapeText content.toList := rfl

theorem render_cdata (data : String) :
    render (.cdata data) = Tree.cdataStart ++ data.toList ++ Tree.cdataEnd := rfl

theorem render_comment (content : String) :
    render (.comment content) = Tree.commentStart ++ content.toList ++ Tree.commentEnd := rfl

@[simp] theorem renderAll_nil : renderAll [] = [] := rfl

@[simp] theorem renderAll_cons (n : Node) (ns : List Node) : renderAll (n :: ns) = n.render ++ renderAll ns := rfl

theorem renderAll_append (a b : List Node) : renderAll (a ++ b) = renderAll a ++ renderAll b := by
  induction a with
  | nil => rfl
  | cons n a ih => rw [List.cons_append,renderAll_cons,renderAll_cons,ih,List.append_assoc]

end Node

theorem attributesWritten_render (attributes : List (FullName × List Char)) :
    AttributesWritten .canonical attributes
      (renderAttributes (attributes.map fun a => (String.ofList a.1.text,String.ofList a.2))) := by
  induction attributes with
  | nil => exact .nil
  | cons a attributes ih =>
    have one : AttributesWritten .canonical (a :: attributes) ([' '] ++ a.1.text ++ [] ++ '=' ::
        ([] ++ '"' :: (Entity.escape a.2 ++ '"' :: renderAttributes (attributes.map fun a =>
          (String.ofList a.1.text,String.ofList a.2))))) :=
      .cons rfl rfl rfl rfl (spelled_escape '"' a.2) ih
    simpa [renderAttributes] using one

theorem written_render (name : FullName) (attributes : List (FullName × List Char)) {children : List Tree}
    {kids : List Node} (childless : kids = [] ↔ children = [])
    (inner : Tree.AllWritten .canonical children (Node.renderAll kids)) :
    (Tree.element name attributes children).Written .canonical
      (Node.render (.element ⟨String.ofList name.text,
        attributes.map fun a => (String.ofList a.1.text,String.ofList a.2)⟩ kids)) := by
  have tag := attributesWritten_render attributes
  have slack : Style.canonical.slack [] := rfl
  cases kids with
  | nil =>
    obtain rfl := childless.mp rfl
    have single : Tree.Written .canonical (.element name attributes [])
        ('<' :: (name.text ++ renderAttributes (attributes.map fun a =>
          (String.ofList a.1.text,String.ofList a.2)) ++ [] ++ ['/','>'])) := .single tag slack
    rw [Node.render_childless]
    simpa using single
  | cons kid kids =>
    have filled : children ≠ [] := fun none => by simp [none] at childless
    have paired : Tree.Written .canonical (.element name attributes children)
        ('<' :: (name.text ++ renderAttributes (attributes.map fun a =>
          (String.ofList a.1.text,String.ofList a.2)) ++ [] ++ '>' :: (Node.renderAll (kid :: kids) ++
            '<' :: '/' :: (name.text ++ [] ++ ['>'])))) :=
      .paired (fun none => (filled none).elim) tag slack inner slack
    rw [Node.render_element]
    simpa using paired

theorem Tree.AllWritten.append {style : Style} {a b : List Tree} {text text' : List Char}
    (first : AllWritten style a text) (second : AllWritten style b text') : AllWritten style (a ++ b) (text ++ text') := by
  induction a generalizing text with
  | nil =>
    cases first
    exact second
  | cons t a ih =>
    cases first with
    | cons head tail =>
      rw [List.append_assoc]
      exact .cons head (ih tail)

theorem nodes_eq_nil_iff (t : Tree) : t.nodes = [] ↔ t.normal = [] := by
  cases t with
  | text content => by_cases blank : content.all Text.isBlank <;> simp [Tree.nodes,Tree.normal,blank]
  | _ => simp [Tree.nodes,Tree.normal]

theorem nodesAll_eq_nil_iff (ts : List Tree) : Tree.nodesAll ts = [] ↔ Tree.normalAll ts = [] := by
  induction ts with
  | nil => simp [Tree.nodesAll,Tree.normalAll]
  | cons t ts ih => simp [Tree.nodesAll,Tree.normalAll,nodes_eq_nil_iff,ih]

mutual
/-- What is kept of a tree renders as the canonical text of the tree in normal form. -/
theorem normal_written (t : Tree) : Tree.AllWritten .canonical t.normal (Node.renderAll t.nodes) := by
  cases t with
  | element name attributes children =>
    have one := written_render name.bare (attributes.filter fun a => !a.1.declares)
      (nodesAll_eq_nil_iff children) (normalAll_written children)
    exact .cons one .nil
  | text content =>
    by_cases blank : content.all Text.isBlank
    · simpa [Tree.nodes,Tree.normal,blank] using Tree.AllWritten.nil
    · have one : Tree.Written .canonical (.text content) (Node.render (.text (String.ofList content))) := by
        rw [Node.render_text,String.toList_ofList]
        exact .text (spelled_escapeText content)
      simpa [Tree.nodes,Tree.normal,blank] using Tree.AllWritten.cons one .nil
  | cdata data =>
    have one : Tree.Written .canonical (.cdata data) (Node.render (.cdata (String.ofList data))) := by
      rw [Node.render_cdata,String.toList_ofList]
      exact .cdata
    exact .cons one .nil
  | comment content =>
    have one : Tree.Written .canonical (.comment content) (Node.render (.comment (String.ofList content))) := by
      rw [Node.render_comment,String.toList_ofList]
      exact .comment
    exact .cons one .nil

theorem normalAll_written (ts : List Tree) :
    Tree.AllWritten .canonical (Tree.normalAll ts) (Node.renderAll (Tree.nodesAll ts)) := by
  cases ts with
  | nil => exact .nil
  | cons t ts =>
    rw [Tree.normalAll,Tree.nodesAll,Node.renderAll_append]
    exact (normal_written t).append (normalAll_written ts)
end

theorem filter_nodesAll (ts : List Tree) :
    (Tree.nodesAll ts).filter Node.isElement = Tree.nodesAll (ts.filter Tree.isElement) := by
  induction ts with
  | nil => rfl
  | cons t ts ih =>
    rw [Tree.nodesAll,List.filter_append,ih]
    cases t with
    | text content => by_cases blank : content.all Text.isBlank <;> simp [Tree.nodes,blank,Node.isElement,Tree.isElement]
    | element => rfl
    | cdata => rfl
    | comment => rfl

end InlineIcons.Markup

namespace InlineIcons.Asset

open Markup

variable {path : Path} {stem : String} {name : FullName} {attributes : List (FullName × List Char)}
  {children : List Tree} {content : String}

def element : FullName := ⟨none,⟨['s','v','g'],by decide,by decide⟩⟩

theorem load_eq {identifier : String} (named : Stem.toIdentifier (path.fileStem?.getD "") = .ok identifier)
    (proper : Tree.ProperAll children)
    (written : (Tree.element name attributes children).Written .free content.toList) :
    load path content = .ok
      ⟨identifier,kept attributes,String.ofList (Node.renderAll (Tree.nodesAll (children.filter Tree.isElement)))⟩ := by
  unfold load
  simp only [named,ofContent_written proper written,ofRoot,tagOf,filter_nodesAll]

/-- An element written in any way, under a file name in kebab case, is loaded with all its attributes but
namespace declarations, and with the one canonical text of its child elements in normal form. -/
theorem load_written (file : path.fileStem? = some stem) (kebab : Stem.IsKebab stem)
    (proper : Tree.ProperAll children)
    (written : (Tree.element name attributes children).Written .free content.toList) :
    ∃ body, load path content = .ok
        ⟨String.ofList ((Stem.segments stem).flatMap Stem.capitalize),kept attributes,body⟩ ∧
      ∀ text, Tree.AllWritten .canonical (Tree.normalAll (children.filter Tree.isElement)) text ↔
        text = body.toList := by
  have named : Stem.toIdentifier (path.fileStem?.getD "") =
      .ok (String.ofList ((Stem.segments stem).flatMap Stem.capitalize)) := by
    rw [file]
    exact Stem.toIdentifier_of_kebab kebab
  have canonical := normalAll_written (children.filter Tree.isElement)
  refine ⟨_,load_eq named proper written,fun text => ⟨fun other => ?_,?_⟩⟩
  · rw [String.toList_ofList]
    exact other.unique _ canonical
  · rintro rfl
    rwa [String.toList_ofList]

def sampleRoot : FullName := ⟨some ⟨['s'],by decide,by decide⟩,⟨['s','v','g'],by decide,by decide⟩⟩

def sampleAttributes : List (FullName × List Char) :=
  [(⟨some ⟨['x','m','l','n','s'],by decide,by decide⟩,⟨['s'],by decide,by decide⟩⟩,['u']),
    (⟨none,⟨['w'],by decide,by decide⟩⟩,['1','"'])]

def sampleText : FullName := ⟨none,⟨['t'],by decide,by decide⟩⟩

def sampleChildren : List Tree :=
  [.element ⟨none,⟨['g'],by decide,by decide⟩⟩ [] [],.text [' '],
    .element sampleText [] [.text ['a','<'],.cdata ['<']]]

def sampleContent : String :=
  "<s:svg xmlns:s='u' w = \"1&#x22;\"><g/> <t>a&lt;<![CDATA[<]]></t ></s:svg>"

theorem sampleAttributes_written :
    AttributesWritten .free sampleAttributes " xmlns:s='u' w = \"1&#x22;\"".toList := by
  have blank : Blanks [' '] := by decide
  have none : Blanks [] := by decide
  have quotation : Numeral 16 '"'.toNat ['2','2'] :=
    .more (n := 2) (d := 2) (.digit (by decide) (by decide)) (by decide) (by decide)
  have value : Spelled (Style.free.value '"') ['1','"'] (['1'] ++ (reference ['#','x','2','2'] ++ [])) :=
    .cons (CharForm.itself (by decide)) (.cons (CharForm.hexadecimal (by decide) quotation) .nil)
  have prefixed : Spelled (Style.free.value '\'') ['u'] ['u'] := .cons (CharForm.itself (by decide)) .nil
  have gap : Style.free.gap [' '] := ⟨by decide,blank⟩
  have single : Style.free.quote '\'' := .inr rfl
  have double : Style.free.quote '"' := .inl rfl
  exact .cons gap none none single prefixed (.cons gap blank blank double value .nil)

theorem sampleChildren_written :
    Tree.AllWritten .free sampleChildren "<g/> <t>a&lt;<![CDATA[<]]></t >".toList := by
  have blank : Blanks [' '] := by decide
  have none : Blanks [] := by decide
  have text : Spelled Style.free.text ['a','<'] (['a'] ++ (reference "lt".toList ++ [])) :=
    .cons (CharForm.itself (by decide)) (.cons (CharForm.named (by decide)) .nil)
  have gap : Spelled Style.free.text [' '] [' '] := .cons (CharForm.itself (by decide)) .nil
  have mixed : Tree.AllWritten .free [.text ['a','<'],.cdata ['<']] "a&lt;<![CDATA[<]]>".toList :=
    .cons (.text text) (.cons .cdata .nil)
  exact .cons (.single .nil none) (.cons (.text gap) (.cons (.paired (fun _ => trivial) .nil none mixed blank) .nil))

/-- A root with a prefix and a reference, an element without children, a blank, and a text beside a section. -/
theorem load_sample :
    (⟨"icons/arrow-up.svg"⟩ : Path).fileStem? = some "arrow-up" ∧ Stem.IsKebab "arrow-up" ∧
      Tree.ProperAll sampleChildren ∧
      (Tree.element sampleRoot sampleAttributes sampleChildren).Written .free sampleContent.toList ∧
      ∃ body, load ⟨"icons/arrow-up.svg"⟩ sampleContent = .ok
          ⟨String.ofList ((Stem.segments "arrow-up").flatMap Stem.capitalize),kept sampleAttributes,body⟩ ∧
        ∀ text, Tree.AllWritten .canonical (Tree.normalAll (sampleChildren.filter Tree.isElement)) text ↔
          text = body.toList := by
  have file : (⟨"icons/arrow-up.svg"⟩ : Path).fileStem? = some "arrow-up" := by decide +kernel
  have kebab : Stem.IsKebab "arrow-up" := by decide +kernel
  have proper : Tree.ProperAll sampleChildren := by
    have closed : ¬ Tree.cdataEnd <:+: ['<'] := by decide
    simp [sampleChildren,Tree.ProperAll,Tree.Proper,Tree.isText,closed]
  have written : (Tree.element sampleRoot sampleAttributes sampleChildren).Written .free sampleContent.toList :=
    .paired (fun _ => trivial) sampleAttributes_written (by decide : Blanks []) sampleChildren_written
      (by decide : Blanks [])
  exact ⟨file,kebab,proper,written,load_written file kebab proper written⟩

end InlineIcons.Asset
