import InlineIcons.Proofs.Markup.Tag
import InlineIcons.Asset

/-! Reading a tree that is written in free style. Each piece of it brings the reader from one state to another
and leaves what follows; put together, the whole text gives the nodes of the tree. -/
namespace InlineIcons.Markup

/-- What reading gives from a state of the building on. -/
def Building.complete (b : Building) (reading : Reading) : Except DocumentFault Root := do
  let b ← b.run reading.events
  match reading.fault with
  | some (fault,position) => .error (.reading fault position)
  | none =>
    if b.openElements.isEmpty then
      match b.root with
      | some root => .ok root
      | none => .error .noRoot
    else .error .notClosed

theorem Building.complete_cons {b b' : Building} {event : Event} (stepped : b.step event = .ok b') (reading : Reading) :
    b.complete (reading.cons event) = b'.complete reading := by
  simp only [complete,run,Reading.cons,List.foldlM_cons,stepped]
  rfl

theorem Root.ofContent_eq (content : List Char) : ofContent content = Building.start.complete (read content) := rfl

/-- Where a reader stands: the names of the open tags, and what it has built. -/
structure ReaderState where
  openTags : List (List Char)
  building : Building

namespace ReaderState

def read (s : ReaderState) (position : Nat) (cs : List Char) : Except DocumentFault Root :=
  s.building.complete (readFrom position s.openTags cs)

/-- A text before some rest that brings the reader from one state to another. -/
def Leads (s : ReaderState) (text rest : List Char) (s' : ReaderState) : Prop :=
  ∀ position, ∃ position', s.read position (text ++ rest) = s'.read position' rest

theorem Leads.nil (s : ReaderState) (rest : List Char) : s.Leads [] rest s := fun position => ⟨position,rfl⟩

theorem Leads.append {s s' s'' : ReaderState} {a b rest : List Char} (first : s.Leads a (b ++ rest) s')
    (second : s'.Leads b rest s'') : s.Leads (a ++ b) rest s'' := by
  intro position
  obtain ⟨position',done⟩ := first position
  obtain ⟨position'',done'⟩ := second position'
  exact ⟨position'',by rw [List.append_assoc,done,done']⟩

variable {s : ReaderState} {b : Building} {text rest : List Char}

theorem leads_piece {event : Event} {shown : List Char}
    (piece : readPiece s.openTags (text ++ rest) = .ok ⟨event,shown,rest⟩) (stepped : s.building.step event = .ok b) :
    s.Leads ('<' :: text) rest ⟨openAfter s.openTags event,b⟩ := by
  intro position
  refine ⟨position + 1 + Text.byteLength shown,?_⟩
  rw [read,List.cons_append,readFrom]
  split
  · next fails => simp [piece] at fails
  · next found =>
    obtain rfl := Except.ok.inj (piece.symm.trans found)
    exact Building.complete_cons stepped _

/-- A text goes on to the next piece of markup. -/
theorem leads_text (filled : text ≠ []) (plain : '<' ∉ text) (ends : rest.head? = some '<')
    (stepped : s.building.step (.text text) = .ok b) : s.Leads text rest ⟨s.openTags,b⟩ := by
  obtain ⟨c,cs,rfl⟩ := List.exists_cons_of_ne_nil filled
  obtain ⟨rest,rfl⟩ : ∃ more, rest = '<' :: more := List.head?_eq_some_iff.mp ends
  simp only [List.mem_cons,not_or] at plain
  have inside : ∀ d ∈ cs, (d != '<') = true := by
    intro d member
    have other : d ≠ '<' := fun less => plain.2 (less ▸ member)
    simpa using other
  have taken : (cs ++ '<' :: rest).takeWhile (· != '<') = cs := by simp [List.takeWhile_append_of_pos inside]
  have left : (cs ++ '<' :: rest).dropWhile (· != '<') = '<' :: rest := by
    simp [List.dropWhile_append_of_pos inside]
  intro position
  refine ⟨position + Text.byteLength (c :: cs),?_⟩
  rw [read,List.cons_append,readFrom]
  · simp only [taken,left]
    exact Building.complete_cons stepped _
  · exact fun less => plain.1 less.symm

end ReaderState

section Pieces

variable {attributes : List (FullName × List Char)} {tag slack : List Char}

theorem readPiece_named (openTags : List (List Char)) (name : FullName) (cs : List Char) :
    readPiece openTags (name.text ++ cs) = readStart (name.text ++ cs) := by
  obtain ⟨c,rest,named⟩ := name.exists_cons
  have member : c ∈ name.text := named ▸ List.mem_cons_self
  have slash := name.ne_mark member '/' (by decide) (by decide)
  have bang := name.ne_mark member '!' (by decide) (by decide)
  have question := name.ne_mark member '?' (by decide) (by decide)
  rw [named,List.cons_append]
  unfold readPiece
  split <;> simp_all

theorem readPiece_start (name : FullName) (written : AttributesWritten .free attributes tag) (blank : Blanks slack)
    (openTags : List (List Char)) (rest : List Char) : ∃ shown,
      readPiece openTags (name.text ++ tag ++ slack ++ '>' :: rest) =
        .ok ⟨.startTag (name.text ++ tag ++ slack),shown,rest⟩ := by
  have cut := cutTag?_written name written blank rest
  have last := getLast?_written name written blank
  simp only [List.append_assoc] at cut last ⊢
  rw [readPiece_named,readStart,cut]
  simp only [last,if_false]
  exact ⟨_,rfl⟩

theorem readPiece_single (name : FullName) (written : AttributesWritten .free attributes tag) (blank : Blanks slack)
    (openTags : List (List Char)) (rest : List Char) : ∃ shown,
      readPiece openTags (name.text ++ tag ++ slack ++ '/' :: '>' :: rest) =
        .ok ⟨.emptyTag (name.text ++ tag ++ slack),shown,rest⟩ := by
  have cut := cutTag?_single name written blank rest
  have whole : name.text ++ tag ++ slack ++ '/' :: '>' :: rest =
      name.text ++ (tag ++ slack ++ '/' :: '>' :: rest) := by simp
  rw [whole] at cut ⊢
  rw [readPiece_named,readStart,cut]
  simp only [List.getLast?_concat,if_true,List.dropLast_concat]
  exact ⟨_,rfl⟩

theorem readPiece_end (name : FullName) (blank : Blanks slack) (openTags : List (List Char)) (rest : List Char) : ∃ shown,
    readPiece (name.text :: openTags) ('/' :: (name.text ++ slack ++ '>' :: rest)) = .ok ⟨.endTag,shown,rest⟩ := by
  have cut := cutTag?_written name .nil blank rest
  rw [List.append_nil] at cut
  simp only [readPiece,readEnd,cut,trimEnd_written blank,if_true]
  exact ⟨_,rfl⟩

theorem readPiece_cdata {data : List Char} (closed : ¬ Tree.cdataEnd <:+: data) (openTags : List (List Char))
    (rest : List Char) : ∃ shown,
      readPiece openTags (Tree.cdataStart.tail ++ data ++ Tree.cdataEnd ++ rest) = .ok ⟨.cdata data,shown,rest⟩ := by
  have cut : Text.cutAt? [']',']','>'] (data ++ [']',']','>'] ++ rest) = some (data,rest) :=
    Text.cutAt?_double (by decide) closed
  simp only [Tree.cdataStart,Tree.cdataEnd,List.tail_cons,List.append_assoc,List.cons_append,List.nil_append] at cut ⊢
  simp only [readPiece,readDeclaration,readCData,cut]
  exact ⟨_,rfl⟩

theorem readPiece_comment {content : List Char} (closed : ¬ Tree.commentEnd <:+: content)
    (openTags : List (List Char)) (rest : List Char) : ∃ shown,
      readPiece openTags (Tree.commentStart.tail ++ content ++ Tree.commentEnd ++ rest) = .ok ⟨.comment content,shown,rest⟩ := by
  have cut : Text.cutAt? ['-','-','>'] (content ++ ['-','-','>'] ++ rest) = some (content,rest) :=
    Text.cutAt?_double (by decide) closed
  simp only [Tree.commentStart,Tree.commentEnd,List.tail_cons,List.append_assoc,List.cons_append,List.nil_append] at cut ⊢
  simp only [readPiece,readDeclaration,readComment,cut]
  exact ⟨_,rfl⟩

end Pieces

def tagOf (name : FullName) (attributes : List (FullName × List Char)) : Tag :=
  ⟨String.ofList name.own.chars,kept attributes⟩

mutual
def Tree.nodes : Tree → List Node
  | .element name attributes children => [.element (tagOf name attributes) (Tree.nodesAll children)]
  | .text content => if content.all Text.isBlank then [] else [.text (String.ofList content)]
  | .cdata data => [.cdata (String.ofList data)]
  | .comment content => [.comment (String.ofList content)]

def Tree.nodesAll : List Tree → List Node
  | [] => []
  | t :: ts => t.nodes ++ Tree.nodesAll ts
end

/-- Inside an element, a text leads to some more nodes of that element. -/
def LeadsTo (text rest : List Char) (nodes : List Node) : Prop :=
  ∀ tags tag kids outer root, ReaderState.Leads ⟨tags,⟨(tag,kids) :: outer,root⟩⟩ text rest
    ⟨tags,⟨(tag,kids ++ nodes) :: outer,root⟩⟩

section Tags

variable (name : FullName) {attributes : List (FullName × List Char)} {tag slack : List Char} {b b' : Building}

theorem readTag_written (attributed : AttributesWritten .free attributes tag) (blank : Blanks slack) :
    Building.readTag (name.text ++ tag ++ slack) = .ok (tagOf name attributes) := by
  simp only [Building.readTag,read_written attributed blank,tagOf]

theorem leads_start (attributed : AttributesWritten .free attributes tag) (blank : Blanks slack)
    (place : (b.openElements.isEmpty && b.root.isSome) = false) (tags : List (List Char)) (rest : List Char) :
    ReaderState.Leads ⟨tags,b⟩ ('<' :: (name.text ++ tag ++ slack ++ ['>'])) rest
      ⟨name.text :: tags,{ b with openElements := (tagOf name attributes,[]) :: b.openElements }⟩ := by
  have opened : b.step (.startTag (name.text ++ tag ++ slack)) =
      .ok { b with openElements := (tagOf name attributes,[]) :: b.openElements } := by
    simp only [Building.step,place,readTag_written name attributed blank,Bool.false_eq_true,if_false]
    rfl
  have after : openAfter tags (.startTag (name.text ++ tag ++ slack)) = name.text :: tags := by
    rw [openAfter,tagName_written attributed blank]
  obtain ⟨seen,start⟩ := readPiece_start name attributed blank tags rest
  have piece : readPiece tags (name.text ++ tag ++ slack ++ ['>'] ++ rest) =
      .ok ⟨.startTag (name.text ++ tag ++ slack),seen,rest⟩ := by simpa using start
  rw [← after]
  exact ReaderState.leads_piece (s := ⟨tags,b⟩) piece opened

theorem leads_single (attributed : AttributesWritten .free attributes tag) (blank : Blanks slack)
    (added : b.addElement (tagOf name attributes) [] = .ok b') (tags : List (List Char)) (rest : List Char) :
    ReaderState.Leads ⟨tags,b⟩ ('<' :: (name.text ++ tag ++ slack ++ ['/','>'])) rest ⟨tags,b'⟩ := by
  have stepped : b.step (.emptyTag (name.text ++ tag ++ slack)) = .ok b' := by
    simp only [Building.step,readTag_written name attributed blank]
    exact added
  obtain ⟨seen,single⟩ := readPiece_single name attributed blank tags rest
  have piece : readPiece tags (name.text ++ tag ++ slack ++ ['/','>'] ++ rest) =
      .ok ⟨.emptyTag (name.text ++ tag ++ slack),seen,rest⟩ := by simpa using single
  exact ReaderState.leads_piece (s := ⟨tags,b⟩) piece stepped

theorem leads_end (blank : Blanks slack) {element : Tag} {nodes : List Node}
    (added : b.addElement element nodes = .ok b') (tags : List (List Char)) (rest : List Char) :
    ReaderState.Leads ⟨name.text :: tags,{ b with openElements := (element,nodes) :: b.openElements }⟩
      ('<' :: '/' :: (name.text ++ slack ++ ['>'])) rest ⟨tags,b'⟩ := by
  have closed : Building.step { b with openElements := (element,nodes) :: b.openElements } .endTag = .ok b' := added
  obtain ⟨seen,stop⟩ := readPiece_end name blank tags rest
  have piece : readPiece (name.text :: tags) ('/' :: (name.text ++ slack ++ ['>']) ++ rest) =
      .ok ⟨.endTag,seen,rest⟩ := by simpa using stop
  exact ReaderState.leads_piece (s := ⟨name.text :: tags,_⟩) piece closed

end Tags

/-- An element is read when its content is, also where it is the root. -/
theorem leads_element {name : FullName} {attributes : List (FullName × List Char)} {children : List Tree}
    {written rest : List Char} (shown : (Tree.element name attributes children).Written .free written)
    (content : ∀ inner ending, Tree.AllWritten .free children inner → ending.head? = some '<' →
      LeadsTo inner ending (Tree.nodesAll children))
    {b b' : Building} (place : (b.openElements.isEmpty && b.root.isSome) = false)
    (added : b.addElement (tagOf name attributes) (Tree.nodesAll children) = .ok b') (tags : List (List Char)) :
    ReaderState.Leads ⟨tags,b⟩ written rest ⟨tags,b'⟩ := by
  cases shown with
  | single attributed blank => exact leads_single name attributed blank added tags rest
  | @paired _ _ _ tag slack inner ending childless attributed blank written blank' =>
    have first := leads_start name attributed blank place tags
      (inner ++ '<' :: '/' :: (name.text ++ ending ++ ['>']) ++ rest)
    have second := content inner ('<' :: '/' :: (name.text ++ ending ++ ['>']) ++ rest) written rfl
      (name.text :: tags) (tagOf name attributes) [] b.openElements b.root
    have third := leads_end name blank' added tags rest
    simpa using first.append (second.append third)

/-- What is no text begins with markup. -/
theorem head?_written {t : Tree} {written : List Char} (shown : t.Written .free written) (other : t.isText = false) :
    written.head? = some '<' := by
  cases shown with
  | text => cases other
  | _ => rfl

theorem head?_allWritten {ts : List Tree} {written rest : List Char} (shown : Tree.AllWritten .free ts written)
    (other : ∀ next ∈ ts.head?, next.isText = false) (ends : rest.head? = some '<') :
    (written ++ rest).head? = some '<' := by
  cases shown with
  | nil => exact ends
  | cons first =>
    have begins := head?_written first (other _ rfl)
    simp [List.head?_append,begins]

mutual
theorem leads_node (t : Tree) {written rest : List Char} (proper : t.Proper) (shown : t.Written .free written)
    (ends : t.isText → rest.head? = some '<') : LeadsTo written rest t.nodes := by
  intro tags tag kids outer root
  cases t with
  | element name attributes children =>
    exact leads_element shown (fun inner ending all begins => leads_nodes children proper all begins) rfl rfl tags
  | text content =>
    cases shown with
    | text spelled =>
      have means := spelled.unescape fun _ plain => plain.2
      have stepped : Building.step ⟨(tag,kids) :: outer,root⟩ (.text written) =
          .ok ⟨(tag,kids ++ (Tree.text content).nodes) :: outer,root⟩ := by
        simp only [Building.step,means,Tree.nodes]
        split
        · rw [List.append_nil]
        · rfl
      exact ReaderState.leads_text (s := ⟨tags,_⟩) (spelled.filled proper)
        (spelled.not_mem rfl fun plain => plain.1 rfl) (ends rfl) stepped
  | cdata data =>
    cases shown
    obtain ⟨seen,piece⟩ := readPiece_cdata proper tags rest
    exact ReaderState.leads_piece (s := ⟨tags,_⟩) piece rfl
  | comment content =>
    cases shown
    obtain ⟨seen,piece⟩ := readPiece_comment proper tags rest
    exact ReaderState.leads_piece (s := ⟨tags,_⟩) piece rfl

theorem leads_nodes (ts : List Tree) {written rest : List Char} (proper : Tree.ProperAll ts)
    (shown : Tree.AllWritten .free ts written) (ends : rest.head? = some '<') :
    LeadsTo written rest (Tree.nodesAll ts) := by
  intro tags tag kids outer root
  cases shown with
  | nil =>
    rw [Tree.nodesAll,List.append_nil]
    exact .nil _ rest
  | @cons t ts written later first others =>
    obtain ⟨here,apart,there⟩ := proper
    -- A text reaches up to the next markup, so two texts beside each other would be read as one.
    have next : t.isText → (later ++ rest).head? = some '<' := fun text =>
      head?_allWritten others (apart text) ends
    rw [Tree.nodesAll,← List.append_assoc]
    exact (leads_node t here first next tags tag kids outer root).append
      (leads_nodes ts there others ends tags tag (kids ++ t.nodes) outer root)
end

/-- A content that writes an element is read as that element. -/
theorem ofContent_written {name : FullName} {attributes : List (FullName × List Char)} {children : List Tree}
    {content : List Char} (proper : Tree.ProperAll children)
    (shown : (Tree.element name attributes children).Written .free content) :
    Root.ofContent content = .ok ⟨tagOf name attributes,Tree.nodesAll children⟩ := by
  have begins := head?_written shown rfl
  have unmarked : read content = readFrom 0 [] content := by
    unfold read
    split
    · simp at begins
    · rfl
  have leads : ReaderState.Leads ⟨[],.start⟩ content []
      ⟨[],⟨[],some ⟨tagOf name attributes,Tree.nodesAll children⟩⟩⟩ :=
    leads_element shown (fun _ _ all ends => leads_nodes children proper all ends) rfl rfl []
  obtain ⟨position,done⟩ := leads 0
  rw [List.append_nil] at done
  rw [Root.ofContent_eq,unmarked]
  refine done.trans ?_
  rw [ReaderState.read,readFrom]
  rfl

end InlineIcons.Markup
