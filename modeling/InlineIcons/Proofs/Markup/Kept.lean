import InlineIcons.Proofs.Markup.Document

/-! What a reader has built, whatever it has read: no section and no comment holds its own end, no text is
blank, no attribute declares a namespace, and names stay names. One event keeps this, so a run does. -/
namespace InlineIcons.Markup

/-- A text that is written as a name. -/
def IsFullName (cs : List Char) : Prop := ∃ n : FullName, n.text = cs

/-- The names of a tag, declarations of namespaces aside. -/
def TagNamed (text : List Char) : Prop :=
  IsFullName (tagName text) ∧ ∀ tag, Tag.read text = .ok tag → ∀ a ∈ tag.attributes, IsFullName a.1.toList

def WellNamed (content : List Char) : Prop :=
  ∀ text, .startTag text ∈ (read content).events ∨ .emptyTag text ∈ (read content).events → TagNamed text

/-- What reading makes sure of. -/
def Event.Closed : Event → Prop
  | .cdata data => ¬ Tree.cdataEnd <:+: data
  | .comment content => ¬ Tree.commentEnd <:+: content
  | _ => True

section Pieces

variable {openTags : List (List Char)} {cs : List Char} {p : Piece}

theorem readComment_event (piece : readComment cs = .ok p) : p.event.Closed ∧ p.event ≠ .endTag := by
  unfold readComment at piece
  split at piece
  · split at piece
    · next cut =>
      cases piece
      exact ⟨Text.not_infix_of_cutAt? cut (by decide),by simp⟩
    · cases piece
  · cases piece

theorem readCData_event (piece : readCData cs = .ok p) : p.event.Closed ∧ p.event ≠ .endTag := by
  unfold readCData at piece
  split at piece
  · split at piece
    · next cut =>
      cases piece
      exact ⟨Text.not_infix_of_cutAt? cut (by decide),by simp⟩
    · cases piece
  · cases piece

theorem readDoctype_event (piece : readDoctype cs = .ok p) : p.event.Closed ∧ p.event ≠ .endTag := by
  unfold readDoctype at piece
  split at piece
  · cases piece
  · split at piece
    · split at piece
      · simp at piece
      · obtain rfl := Except.ok.inj piece
        exact ⟨trivial,by simp⟩
    · simp at piece

theorem readDeclaration_event (piece : readDeclaration cs = .ok p) : p.event.Closed ∧ p.event ≠ .endTag := by
  unfold readDeclaration at piece
  split at piece
  · exact readComment_event piece
  · exact readCData_event piece
  · exact readDoctype_event piece
  · exact readDoctype_event piece
  · cases piece

theorem readInstruction_event (piece : readInstruction cs = .ok p) : p.event.Closed ∧ p.event ≠ .endTag := by
  unfold readInstruction at piece
  split at piece
  · cases piece
  · split at piece
    · cases piece
      exact ⟨trivial,by simp⟩
    · cases piece

theorem readStart_event (piece : readStart cs = .ok p) : p.event.Closed ∧ p.event ≠ .endTag := by
  unfold readStart at piece
  split at piece
  · cases piece
  · split at piece
    all_goals
      obtain rfl := Except.ok.inj piece
      exact ⟨trivial,by simp⟩

/-- An end tag has the name of the innermost open tag. -/
theorem readEnd_event (piece : readEnd openTags cs = .ok p) : ∃ text names, openTags = trimEnd text :: names ∧
    cutTag? none cs = some (text,p.rest) ∧ p.event = .endTag := by
  unfold readEnd at piece
  split at piece
  · cases piece
  · next text rest cut =>
    dsimp only at piece
    split at piece
    · cases piece
    · next names =>
      split at piece
      · next same =>
        obtain rfl := Except.ok.inj piece
        exact ⟨text,names,by rw [same],cut,rfl⟩
      · simp at piece

/-- What the open tags have to do with a piece of markup: only an end tag depends on them. -/
theorem readPiece_cases (piece : readPiece openTags cs = .ok p) :
    (p.event.Closed ∧ p.event ≠ .endTag ∧ ∀ tags, readPiece tags cs = .ok p) ∨
    ∃ behind text names, cs = '/' :: behind ∧ openTags = trimEnd text :: names ∧
      cutTag? none behind = some (text,p.rest) ∧ p.event = .endTag := by
  unfold readPiece at piece ⊢
  split at piece
  · cases piece
  · next behind =>
    obtain ⟨text,names,same,cut,shown⟩ := readEnd_event piece
    exact .inr ⟨behind,text,names,rfl,same,cut,shown⟩
  · obtain ⟨closed,other⟩ := readDeclaration_event piece
    exact .inl ⟨closed,other,fun _ => piece⟩
  · obtain ⟨closed,other⟩ := readInstruction_event piece
    exact .inl ⟨closed,other,fun _ => piece⟩
  · obtain ⟨closed,other⟩ := readStart_event piece
    exact .inl ⟨closed,other,fun _ => piece⟩

theorem readPiece_closed (piece : readPiece openTags cs = .ok p) : p.event.Closed := by
  rcases readPiece_cases piece with ⟨closed,-⟩ | ⟨_,_,_,-,-,-,shown⟩
  · exact closed
  · rw [shown]
    trivial

end Pieces

theorem closed_of_mem_readFrom (position : Nat) (openTags : List (List Char)) (cs : List Char) :
    ∀ e ∈ (readFrom position openTags cs).events, e.Closed := by
  induction position, openTags, cs using readFrom.induct with
  | case1 => simp [readFrom]
  | case2 position openTags rest fault distance fails =>
    rw [readFrom]
    split
    · simp
    · next found => simp [fails] at found
  | case3 position openTags rest piece found ih =>
    rw [readFrom]
    split
    · next fails => simp [found] at fails
    · next piece' found' =>
      obtain rfl := Except.ok.inj (found.symm.trans found')
      intro e member
      rcases List.mem_cons.mp member with rfl | member
      · exact readPiece_closed found
      · exact ih e member
  | case4 position openTags c rest plain text ih =>
    rw [readFrom]
    · intro e member
      rcases List.mem_cons.mp member with rfl | member
      · trivial
      · exact ih e member
    · exact plain

theorem closed_of_mem_read (content : List Char) : ∀ e ∈ (read content).events, e.Closed := by
  unfold read
  split <;> exact closed_of_mem_readFrom _ _ _

def Tag.Named (tag : Tag) : Prop :=
  ∃ (name : Name) (attributes : List (FullName × List Char)),
    tag = ⟨String.ofList name.chars,attributes.map fun a => (String.ofList a.1.text,String.ofList a.2)⟩ ∧
      ∀ a ∈ attributes, a.1.declares = false

theorem isNamespaceKey_of_mem {position : Nat} {cs : List Char} {attributes : List (String × String)}
    (read : readAttributes position cs = .ok attributes) :
    ∀ a ∈ attributes, isNamespaceKey a.1.toList = false := by
  fun_induction readAttributes position cs generalizing attributes with
  | case1 =>
    cases read
    simp
  | case2 => cases read
  | case3 =>
    rename_i ih
    exact ih read
  | case4 => cases read
  | case5 => cases read
  | case6 =>
    rename_i kept _ _ _ later ih
    cases read
    intro b member
    rcases List.mem_cons.mp member with rfl | member
    · simpa using kept
    · exact ih later b member

theorem exists_names {attributes : List (String × String)} (named : ∀ a ∈ attributes, IsFullName a.1.toList)
    (kept : ∀ a ∈ attributes, isNamespaceKey a.1.toList = false) : ∃ as : List (FullName × List Char),
      attributes = as.map (fun a => (String.ofList a.1.text,String.ofList a.2)) ∧ ∀ a ∈ as, a.1.declares = false := by
  induction attributes with
  | nil => exact ⟨[],rfl,by simp⟩
  | cons a attributes ih =>
    obtain ⟨n,text⟩ := named a List.mem_cons_self
    obtain ⟨as,rfl,others⟩ := ih (fun b member => named b (List.mem_cons_of_mem a member))
      fun b member => kept b (List.mem_cons_of_mem a member)
    refine ⟨(n,a.2.toList) :: as,by simp [text],?_⟩
    intro b member
    rcases List.mem_cons.mp member with rfl | member
    · rw [← n.isNamespaceKey_text,text]
      exact kept a List.mem_cons_self
    · exact others b member

theorem Tag.named_of_read {text : List Char} {tag : Tag} (named : TagNamed text) (done : Tag.read text = .ok tag) :
    tag.Named := by
  obtain ⟨⟨n,full⟩,keys⟩ := named
  have names := keys tag done
  unfold Tag.read at done
  dsimp only at done
  split at done
  · cases done
  · next attributes read =>
    obtain rfl := Except.ok.inj done
    obtain ⟨as,same,others⟩ := exists_names names (isNamespaceKey_of_mem read)
    refine ⟨n.own,as,?_,others⟩
    rw [← full,n.localName_text]
    exact congrArg (Tag.mk _) same

mutual
def Node.Kept : Node → Prop
  | .element tag children => tag.Named ∧ Node.AllKept children
  | .text content => content.toList.all Text.isBlank = false
  | .cdata data => ¬ Tree.cdataEnd <:+: data.toList
  | .comment content => ¬ Tree.commentEnd <:+: content.toList

def Node.AllKept : List Node → Prop
  | [] => True
  | n :: ns => n.Kept ∧ Node.AllKept ns
end

theorem Node.allKept_iff (ns : List Node) : AllKept ns ↔ ∀ n ∈ ns, n.Kept := by
  induction ns with
  | nil => simp [AllKept]
  | cons n ns ih => simp [AllKept,ih]

/-- What holds of the elements while they are built. -/
structure Building.Sound (b : Building) : Prop where
  openElements : ∀ e ∈ b.openElements, e.1.Named ∧ Node.AllKept e.2
  root : ∀ r ∈ b.root, r.tag.Named ∧ Node.AllKept r.children

namespace Building

variable {b b' : Building}

theorem start_sound : start.Sound := ⟨by simp [start],by simp [start]⟩

/-- An element that is opened goes onto the stack. -/
theorem push_sound (sound : b.Sound) {tag : Tag} {children : List Node} (named : tag.Named)
    (inner : Node.AllKept children) : Sound { b with openElements := (tag,children) :: b.openElements } := by
  refine ⟨fun e member => ?_,sound.root⟩
  rcases List.mem_cons.mp member with rfl | member
  · exact ⟨named,inner⟩
  · exact sound.openElements e member

/-- The innermost element leaves the stack as a sound one. -/
theorem pop_sound (sound : b.Sound) {tag : Tag} {children : List Node} {outer : List (Tag × List Node)}
    (here : b.openElements = (tag,children) :: outer) :
    tag.Named ∧ Node.AllKept children ∧ Sound { b with openElements := outer } := by
  have elements := sound.openElements
  rw [here] at elements
  obtain ⟨named,inner⟩ := elements (tag,children) List.mem_cons_self
  exact ⟨named,inner,fun e member => elements e (List.mem_cons_of_mem _ member),sound.root⟩

theorem add_sound (sound : b.Sound) {n : Node} (kept : n.Kept) (added : b.add n = .ok b') : b'.Sound := by
  unfold add at added
  split at added
  · next tag children outer here =>
    obtain rfl := Except.ok.inj added
    obtain ⟨named,inner,rest⟩ := pop_sound sound here
    have all : Node.AllKept (children ++ [n]) := by
      rw [Node.allKept_iff] at inner ⊢
      intro m member
      rcases List.mem_append.mp member with member | member
      · exact inner m member
      · exact List.mem_singleton.mp member ▸ kept
    exact push_sound rest named all
  · cases added

theorem addElement_sound (sound : b.Sound) {tag : Tag} {children : List Node} (named : tag.Named)
    (inner : Node.AllKept children) (added : b.addElement tag children = .ok b') : b'.Sound := by
  unfold addElement at added
  split at added
  · exact add_sound sound (by exact ⟨named,inner⟩) added
  · split at added
    · cases added
    · obtain rfl := Except.ok.inj added
      refine ⟨sound.openElements,fun r here => ?_⟩
      obtain rfl := Option.some.inj here
      exact ⟨named,inner⟩

theorem readTag_named {text : List Char} {tag : Tag} (named : TagNamed text) (done : readTag text = .ok tag) :
    tag.Named := by
  unfold readTag at done
  split at done
  · next read =>
    obtain rfl := Except.ok.inj done
    exact Tag.named_of_read named read
  · cases done

theorem step_sound (sound : b.Sound) {e : Event} (closed : e.Closed)
    (named : ∀ text, e = .startTag text ∨ e = .emptyTag text → TagNamed text) (stepped : b.step e = .ok b') :
    b'.Sound := by
  cases e with
  | startTag text =>
    simp only [step] at stepped
    split at stepped
    · cases stepped
    · cases read : readTag text with
      | error fault => simp [read,bind,Except.bind] at stepped
      | ok tag =>
        simp only [read,bind,Except.bind,pure,Except.pure,Except.ok.injEq] at stepped
        subst stepped
        exact push_sound sound (readTag_named (named text (.inl rfl)) read) (by exact trivial)
  | emptyTag text =>
    simp only [step] at stepped
    cases read : readTag text with
    | error fault => simp [read,bind,Except.bind] at stepped
    | ok tag =>
      simp only [read,bind,Except.bind] at stepped
      exact addElement_sound sound (readTag_named (named text (.inr rfl)) read) (by exact trivial) stepped
  | endTag =>
    simp only [step] at stepped
    split at stepped
    · next tag children outer here =>
      -- The element that ends leaves the stack before it goes into the one around it.
      obtain ⟨tagged,inner,rest⟩ := pop_sound sound here
      exact addElement_sound rest tagged inner stepped
    · exact Except.ok.inj stepped ▸ sound
  | text raw =>
    simp only [step] at stepped
    split at stepped
    · cases stepped
    · next content read =>
      split at stepped
      · exact Except.ok.inj stepped ▸ sound
      · next filled =>
        have kept : (Node.text (String.ofList content)).Kept := by
          simpa [Node.Kept] using filled
        exact add_sound sound kept stepped
  | cdata data =>
    have kept : (Node.cdata (String.ofList data)).Kept := by
      rw [Event.Closed] at closed
      simpa [Node.Kept] using closed
    exact add_sound sound kept stepped
  | comment content =>
    simp only [step] at stepped
    split at stepped
    · exact Except.ok.inj stepped ▸ sound
    · have kept : (Node.comment (String.ofList content)).Kept := by
        rw [Event.Closed] at closed
        simpa [Node.Kept] using closed
      exact add_sound sound kept stepped
  | ignored => exact Except.ok.inj stepped ▸ sound

theorem run_sound (sound : b.Sound) {events : List Event} (closed : ∀ e ∈ events, e.Closed)
    (named : ∀ text, .startTag text ∈ events ∨ .emptyTag text ∈ events → TagNamed text)
    (ran : b.run events = .ok b') : b'.Sound := by
  induction events generalizing b with
  | nil => exact Except.ok.inj ran ▸ sound
  | cons e events ih =>
    simp only [run,List.foldlM_cons] at ran
    cases stepped : b.step e with
    | error fault => simp [stepped,bind,Except.bind] at ran
    | ok next =>
      simp only [stepped,bind,Except.bind] at ran
      have here := step_sound sound (closed e List.mem_cons_self)
        (fun text tagged => named text (by rcases tagged with rfl | rfl <;> simp)) stepped
      exact ih here (fun f member => closed f (List.mem_cons_of_mem e member))
        (fun text member => named text (by rcases member with member | member <;> simp [member])) ran

end Building

/-- What is built from a content that is well named. -/
theorem Root.kept_of_ofContent {content : List Char} {root : Root} (named : WellNamed content)
    (done : ofContent content = .ok root) : root.tag.Named ∧ Node.AllKept root.children := by
  unfold ofContent at done
  cases ran : Building.start.run (read content).events with
  | error fault => simp [ran,bind,Except.bind] at done
  | ok b =>
    have sound := Building.run_sound Building.start_sound (closed_of_mem_read content) named ran
    simp only [ran,bind,Except.bind] at done
    split at done
    · cases done
    · split at done
      · split at done
        · next found =>
          obtain rfl := Except.ok.inj done
          exact sound.root _ found
        · cases done
      · cases done

end InlineIcons.Markup
