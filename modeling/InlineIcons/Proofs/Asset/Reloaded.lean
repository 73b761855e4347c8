import InlineIcons.Proofs.Asset.Written
import InlineIcons.Proofs.Markup.Kept

/-! The markup of an icon is loaded as the same icon. A reader can build texts beside each other, where it left
out what stood between them; once they are written they are one text, so nodes are compared with the tree of
which they are the canonical text. -/
namespace InlineIcons.Markup

theorem Spelled.append {form : Char → List Char → Prop} {as bs written written' : List Char}
    (first : Spelled form as written) (second : Spelled form bs written') :
    Spelled form (as ++ bs) (written ++ written') := by
  induction first with
  | nil => exact second
  | cons one _ ih =>
    rw [List.append_assoc]
    exact .cons one ih

theorem normalAll_eq_self {ts : List Tree} (normal : ∀ t ∈ ts, t.normal = [t]) : Tree.normalAll ts = ts := by
  induction ts with
  | nil => rfl
  | cons t ts ih =>
    rw [Tree.normalAll,normal t List.mem_cons_self,ih fun t' member => normal t' (List.mem_cons_of_mem t member)]
    rfl

/-- Nodes whose text is the canonical text of trees in normal form. -/
structure Node.Shows (nodes : List Node) (ts : List Tree) : Prop where
  proper : Tree.ProperAll ts
  normal : ∀ t ∈ ts, t.normal = [t]
  written : Tree.AllWritten .canonical ts (renderAll nodes)
  none : nodes = [] ↔ ts = []
  elements : (∀ n ∈ nodes, n.isElement) → ∀ t ∈ ts, t.isElement

namespace Node

theorem Shows.nil : Shows [] [] := by
  refine ⟨?_,by simp,.nil,by simp,by simp⟩
  rw [Tree.ProperAll]
  trivial

section Cons

variable {nodes : List Node} {ts : List Tree}

theorem Shows.cons {n : Node} {t : Tree} (apart : t.isText = false) (proper : t.Proper) (normal : t.normal = [t])
    (written : t.Written .canonical n.render) (kind : n.isElement → t.isElement) (rest : Shows nodes ts) :
    Shows (n :: nodes) (t :: ts) where
  proper := by
    rw [Tree.ProperAll]
    exact ⟨proper,by simp [apart],rest.proper⟩
  normal := List.forall_mem_cons.mpr ⟨normal,rest.normal⟩
  written := .cons written rest.written
  none := by simp
  elements := by
    intro all t' member
    rcases List.mem_cons.mp member with rfl | member
    · exact kind (all n List.mem_cons_self)
    · exact rest.elements (fun m inside => all m (List.mem_cons_of_mem n inside)) t' member

theorem Shows.text_cons {content : String} (filled : content.toList.all Text.isBlank = false)
    (apart : ∀ t ∈ ts.head?, t.isText = false) (rest : Shows nodes ts) :
    Shows (.text content :: nodes) (.text content.toList :: ts) where
  proper := by
    have some : content.toList ≠ [] := fun none => by simp [none] at filled
    rw [Tree.ProperAll,Tree.Proper]
    exact ⟨some,fun _ => apart,rest.proper⟩
  normal := List.forall_mem_cons.mpr ⟨by rw [Tree.normal,filled]; rfl,rest.normal⟩
  written := by
    rw [renderAll_cons,render_text]
    exact .cons (.text (spelled_escapeText _)) rest.written
  none := by simp
  elements := by simp [isElement]

theorem Shows.text_text {content : String} {more : List Char} (filled : content.toList.all Text.isBlank = false)
    (rest : Shows nodes (.text more :: ts)) :
    Shows (.text content :: nodes) (.text (content.toList ++ more) :: ts) where
  proper := by
    have proper := rest.proper
    rw [Tree.ProperAll,Tree.Proper] at proper ⊢
    exact ⟨by simp [proper.1],proper.2⟩
  normal := by
    have some : (content.toList ++ more).all Text.isBlank = false := by rw [List.all_append,filled,Bool.false_and]
    exact List.forall_mem_cons.mpr ⟨by rw [Tree.normal,some]; rfl,fun t member => rest.normal t (.tail _ member)⟩
  written := by
    have written := rest.written
    rw [renderAll_cons,render_text]
    generalize renderAll nodes = shown at written ⊢
    cases written with
    | cons first tail =>
      cases first with
      | text spelled =>
        rw [← List.append_assoc]
        exact .cons (.text ((spelled_escapeText _).append spelled)) tail
  none := by simp
  elements := by simp [isElement]

theorem Shows.exists_text {content : String} (filled : content.toList.all Text.isBlank = false)
    (rest : Shows nodes ts) : ∃ ts', Shows (.text content :: nodes) ts' := by
  match ts with
  | .text more :: ts => exact ⟨_,rest.text_text filled⟩
  | [] => exact ⟨_,rest.text_cons filled (by simp)⟩
  | .element .. :: ts | .cdata _ :: ts | .comment _ :: ts =>
    exact ⟨_,rest.text_cons filled (by simp [Tree.isText])⟩

end Cons

mutual
theorem exists_shows_cons (n : Node) (kept : n.Kept) {nodes : List Node} {ts : List Tree} (rest : Shows nodes ts) :
    ∃ ts', Shows (n :: nodes) ts' := by
  cases n with
  | element tag children =>
    rw [Kept] at kept
    obtain ⟨⟨name,attributes,rfl,plain⟩,inner⟩ := kept
    obtain ⟨inside,shown⟩ := exists_shows children inner
    -- Without a prefix and without declarations the element is its own normal form.
    have written := written_render ⟨none,name⟩ attributes shown.none shown.written
    have same : attributes.filter (fun a => !a.1.declares) = attributes :=
      List.filter_eq_self.mpr fun a member => by simp [plain a member]
    refine ⟨_,rest.cons (t := .element ⟨none,name⟩ attributes inside) rfl ?_ ?_ written fun _ => rfl⟩
    · rw [Tree.Proper]
      exact shown.proper
    · rw [Tree.normal,same,normalAll_eq_self shown.normal]
      rfl
  | text content =>
    rw [Kept] at kept
    exact rest.exists_text kept
  | cdata data =>
    rw [Kept] at kept
    have written : (Tree.cdata data.toList).Written .canonical (render (.cdata data)) := .cdata
    refine ⟨_,rest.cons (t := .cdata data.toList) rfl ?_ ?_ written nofun⟩
    · rwa [Tree.Proper]
    · rw [Tree.normal]
  | comment content =>
    rw [Kept] at kept
    have written : (Tree.comment content.toList).Written .canonical (render (.comment content)) := .comment
    refine ⟨_,rest.cons (t := .comment content.toList) rfl ?_ ?_ written nofun⟩
    · rwa [Tree.Proper]
    · rw [Tree.normal]

theorem exists_shows (nodes : List Node) (kept : AllKept nodes) : ∃ ts, Shows nodes ts := by
  cases nodes with
  | nil => exact ⟨[],.nil⟩
  | cons n nodes =>
    rw [AllKept] at kept
    obtain ⟨ts,shown⟩ := exists_shows nodes kept.2
    exact exists_shows_cons n kept.1 shown
end

end Node

end InlineIcons.Markup

namespace InlineIcons.Asset

open Markup

variable {path : Path} {content : String}

theorem markup_written (identifier : String) (attributes : List (FullName × List Char)) {ts : List Tree}
    {inner : List Char} (body : Tree.AllWritten .canonical ts inner) :
    (Tree.element element attributes ts).Written .free (markup ⟨identifier,attributes.map fun a =>
      (String.ofList a.1.text,String.ofList a.2),String.ofList inner⟩).toList := by
  have within := Style.canonical_within_free
  have none : Style.free.slack [] := (by decide : Blanks [])
  have tag := (attributesWritten_render attributes).mono within
  have inside := Tree.AllWritten.mono within ts body
  unfold markup
  simp only [String.toList_ofList]
  generalize renderAttributes (attributes.map fun a => (String.ofList a.1.text,String.ofList a.2)) = text at tag ⊢
  have whole : (Tree.element element attributes ts).Written .free ('<' :: (element.text ++ text ++ [] ++ '>' ::
      (inner ++ '<' :: '/' :: (element.text ++ [] ++ ['>'])))) :=
    .paired (fun _ => trivial) tag none inside none
  simpa [element,FullName.text] using whole

theorem kept_eq {attributes : List (FullName × List Char)} (plain : ∀ a ∈ attributes, a.1.declares = false) :
    kept attributes = attributes.map fun a => (String.ofList a.1.text,String.ofList a.2) := by
  rw [kept,List.filter_eq_self.mpr fun a member => by simp [plain a member]]

theorem body_eq {nodes : List Node} {ts : List Tree} (shown : Node.Shows nodes ts) :
    Node.renderAll (Tree.nodesAll ts) = Node.renderAll nodes := by
  have canonical := normalAll_written ts
  rw [normalAll_eq_self shown.normal] at canonical
  exact canonical.unique ts shown.written

/-- An icon's markup is loaded as the icon itself, whatever it was first loaded from. -/
theorem load_markup {a : Asset} (loaded : load path content = .ok a) (named : WellNamed content.toList) :
    load path a.markup = .ok a := by
  unfold load at loaded
  split at loaded
  · cases loaded
  · next identifier found =>
    split at loaded
    · cases loaded
    · next root built =>
      obtain rfl := Except.ok.inj loaded
      obtain ⟨⟨name,attributes,tagged,plain⟩,nodes⟩ := Root.kept_of_ofContent named built
      have elements : Node.AllKept (root.children.filter Node.isElement) := by
        rw [Node.allKept_iff] at nodes ⊢
        exact fun n member => nodes n (List.mem_filter.mp member).1
      obtain ⟨ts,shown⟩ := Node.exists_shows _ elements
      have all : ts.filter Tree.isElement = ts :=
        List.filter_eq_self.mpr (shown.elements fun n member => (List.mem_filter.mp member).2)
      have written := markup_written identifier attributes shown.written
      rw [ofRoot,tagged,load_eq found shown.proper written,kept_eq plain,all,body_eq shown]

def annotatedContent : String :=
  "<?xml?><!DOCTYPE svg><s:svg w='&#60;'><g>a<?p?>b<![CDATA[<]]></g><!--c--></s:svg>"

def annotatedAsset : Asset := ⟨"ArrowUp",[("w","<")],"<g>ab<![CDATA[<]]></g>"⟩

theorem annotated_wellNamed : WellNamed annotatedContent.toList := by
  have events : (read annotatedContent.toList).events = [.ignored,.ignored,.startTag "s:svg w='&#60;'".toList,
      .startTag ['g'],.text ['a'],.ignored,.text ['b'],.cdata ['<'],.endTag,.comment ['c'],.endTag] := by
    decide +kernel
  have root : Tag.read "s:svg w='&#60;'".toList = .ok ⟨"svg",[("w","<")]⟩ := by decide +kernel
  have group : Tag.read ['g'] = .ok ⟨"g",[]⟩ := by decide +kernel
  intro text tagged
  simp only [events,List.mem_cons,List.not_mem_nil,reduceCtorEq,Event.startTag.injEq,false_or,or_false] at tagged
  rcases tagged with rfl | rfl
  · refine ⟨⟨sampleRoot,by decide +kernel⟩,fun tag done a member => ?_⟩
    obtain rfl := Except.ok.inj (root.symm.trans done)
    obtain rfl := List.mem_singleton.mp member
    exact ⟨⟨none,⟨['w'],by decide,by decide⟩⟩,by decide +kernel⟩
  · refine ⟨⟨⟨none,⟨['g'],by decide,by decide⟩⟩,by decide +kernel⟩,fun tag done a member => ?_⟩
    obtain rfl := Except.ok.inj (group.symm.trans done)
    exact (List.not_mem_nil member).elim

/-- What no markup has: a declaration, a document type, a prefix, a number for a character, a comment under the
root, and an instruction that cuts a text in two. -/
theorem load_annotated_markup :
    load ⟨"icons/arrow-up.svg"⟩ annotatedContent = .ok annotatedAsset ∧ WellNamed annotatedContent.toList ∧
      load ⟨"icons/arrow-up.svg"⟩ annotatedAsset.markup = .ok annotatedAsset := by
  have loaded : load ⟨"icons/arrow-up.svg"⟩ annotatedContent = .ok annotatedAsset := by decide +kernel
  exact ⟨loaded,annotated_wellNamed,load_markup loaded annotated_wellNamed⟩

end InlineIcons.Asset
