import InlineIcons.Proofs.Markup.Lexeme

/-! A reader accepts the documents with one outermost element, and finds no root in those with none. At every point
the open tags and the root say what has still to come; a lexeme either leads on, to a point where the rest of what
had to come is left, or ends the reading where it could not come. -/
namespace InlineIcons.Markup

theorem exists_attributes {position : Nat} {cs : List Char} {attributes : List (String × String)}
    (read : readAttributes position cs = .ok attributes) :
    ∃ as, HasAttributes position cs as ∧ ∀ a ∈ as, isNamespaceKey a.key = false → Resolves a.value := by
  fun_induction readAttributes position cs generalizing attributes with
  | case1 position cs blank => exact ⟨[],.nil blank,by simp⟩
  | case2 => cases read
  | case3 position cs first rest starts start a one declares =>
    rename_i ih
    obtain ⟨as,has,resolves⟩ := ih read
    exact ⟨a :: as,.cons starts one has,List.forall_mem_cons.mpr ⟨by simp [declares],resolves⟩⟩
  | case4 => cases read
  | case5 => cases read
  | case6 position cs first rest starts start a one _ value means more later =>
    rename_i ih
    obtain ⟨as,has,resolves⟩ := ih later
    exact ⟨a :: as,.cons starts one has,List.forall_mem_cons.mpr ⟨fun _ => ⟨value,means⟩,resolves⟩⟩

theorem readAttributes_of {position : Nat} {cs : List Char} {as : List RawAttribute}
    (has : HasAttributes position cs as) (resolves : ∀ a ∈ as, isNamespaceKey a.key = false → Resolves a.value) :
    ∃ attributes, readAttributes position cs = .ok attributes := by
  induction has with
  | nil blank =>
    rw [readAttributes]
    split
    · exact ⟨[],rfl⟩
    · next starts => simp [blank] at starts
  | @cons position cs rest first a as starts one others ih =>
    obtain ⟨here,there⟩ := List.forall_mem_cons.mp resolves
    obtain ⟨more,later⟩ := ih there
    rw [readAttributes]
    split
    · next blank => simp [starts] at blank
    · next first' rest' starts' =>
      obtain ⟨rfl,rfl⟩ := List.cons.inj (starts.symm.trans starts')
      dsimp only
      split
      · next fails => simp [one] at fails
      · next a' one' =>
        obtain rfl := Except.ok.inj (one.symm.trans one')
        by_cases declares : isNamespaceKey a.key
        · exact ⟨more,by simp [declares,later]⟩
        · obtain ⟨value,means⟩ := here (by simpa using declares)
          exact ⟨_,by simp only [declares,means,later]; rfl⟩

theorem tagReadable_iff {text : List Char} : TagReadable text ↔ ∃ tag, Building.readTag text = .ok tag := by
  unfold Building.readTag Tag.read
  constructor
  · rintro ⟨as,has,resolves⟩
    obtain ⟨attributes,read⟩ := readAttributes_of has resolves
    exact ⟨_,by simp only [read]; rfl⟩
  · rintro ⟨tag,read⟩
    cases done : readAttributes (Text.byteLength (tagName text)) (text.drop (tagName text).length) with
    | error fault => simp [done] at read
    | ok attributes => exact exists_attributes done

namespace ReaderState

/-- Where a reader can be. -/
inductive Reached : ReaderState → Prop
  | before : Reached ⟨[],⟨[],none⟩⟩
  | inside {name : List Char} {names : List (List Char)} {element : Tag × List Node} {outer : List (Tag × List Node)}
      (depth : names.length = outer.length) : Reached ⟨name :: names,⟨element :: outer,none⟩⟩
  | behind {root : Root} : Reached ⟨[],⟨[],some root⟩⟩

/-- What the rest has to be for a document with so many outermost elements, one at the most; inside the root and
behind it, that one is there already. -/
def Needs (s : ReaderState) (total : Nat) (ls : List Lexeme) : Prop :=
  match s.openTags,s.building.root with
  | [],none => total ≤ 1 ∧ Rooted total ls
  | names,_ => total = 1 ∧ Closes names 0 ls

/-- With one outermost element at the most, none may follow the first. -/
theorem one_of_few {total : Nat} {p : Nat → Prop} : (total ≤ 1 ∧ ∃ m, total = m + 1 ∧ p m) ↔ total = 1 ∧ p 0 := by
  constructor
  · rintro ⟨few,m,rfl,others⟩
    obtain rfl : m = 0 := by omega
    exact ⟨rfl,others⟩
  · rintro ⟨rfl,others⟩
    exact ⟨le_rfl,0,rfl,others⟩

/-- What an event leads to agrees with what its lexeme says. -/
inductive Agrees (s : ReaderState) (e : Event) (l : Lexeme) : Prop
  | leads {b : Building} (stepped : s.building.step e = .ok b) (reached : Reached ⟨openAfter s.openTags e,b⟩)
      (needs : ∀ total ls, (l.Readable ∧ s.Needs total (l :: ls)) ↔ Needs ⟨openAfter s.openTags e,b⟩ total ls)
  | stops {fault : DocumentFault} (stepped : s.building.step e = .error fault) (rooted : fault ≠ .noRoot)
      (never : ∀ total ls, ¬ (l.Readable ∧ s.Needs total (l :: ls)))

variable {s : ReaderState} {e : Event} {l : Lexeme} {fault : DocumentFault}

theorem agrees_unreadable (stepped : s.building.step e = .error fault) (rooted : fault ≠ .noRoot)
    (unreadable : ¬ l.Readable) : s.Agrees e l :=
  .stops stepped rooted fun _ _ can => unreadable can.1

theorem agrees_misplaced (stepped : s.building.step e = .error .outsideRoot)
    (never : ∀ total ls, ¬ s.Needs total (l :: ls)) : s.Agrees e l :=
  .stops stepped (by simp) fun total ls can => never total ls can.2

theorem agrees_leads {b : Building} (stepped : s.building.step e = .ok b) (readable : l.Readable)
    (reached : Reached ⟨openAfter s.openTags e,b⟩)
    (needs : ∀ total ls, s.Needs total (l :: ls) ↔ Needs ⟨openAfter s.openTags e,b⟩ total ls) : s.Agrees e l :=
  .leads stepped reached fun total ls => by rw [← needs,and_iff_right readable]

theorem agrees_tag {text : List Char} (shown : l.Readable ↔ TagReadable text)
    (unread : ∀ fault, Building.readTag text = .error fault → s.building.step e = .error fault)
    (leads : ∀ tag, Building.readTag text = .ok tag → l.Readable → s.Agrees e l) : s.Agrees e l := by
  rw [tagReadable_iff] at shown
  cases read : Building.readTag text with
  | error fault =>
    have rooted : fault ≠ .noRoot := by
      unfold Building.readTag at read
      split at read
      · cases read
      · exact Except.error.inj read ▸ by simp
    exact agrees_unreadable (unread fault read) rooted (by simp [shown,read])
  | ok tag => exact leads tag read (shown.mpr ⟨tag,read⟩)

/-- Inside an element there is a place for all but end tags. -/
theorem agrees_inside {name : List Char} {names : List (List Char)} {element element' : Tag × List Node}
    {outer : List (Tag × List Node)} (depth : names.length = outer.length)
    (stepped : Building.step ⟨element :: outer,none⟩ e = .ok ⟨element' :: outer,none⟩)
    (after : openAfter (name :: names) e = name :: names) (readable : l.Readable) (leaf : l.IsLeaf) :
    Agrees ⟨name :: names,⟨element :: outer,none⟩⟩ e l := by
  have reached : Reached ⟨openAfter (name :: names) e,⟨element' :: outer,none⟩⟩ := by
    rw [after]
    exact .inside depth
  refine agrees_leads stepped readable reached fun total ls => ?_
  rw [after]
  exact and_congr_right' (closes_leaf leaf)

theorem agrees_outer (reached : s.Reached) (stepped : s.building.step e = .ok s.building)
    (after : openAfter s.openTags e = s.openTags) (readable : l.Readable) (leaf : l.IsLeaf) (outer : l.IsOuter) :
    s.Agrees e l := by
  have still : Reached ⟨openAfter s.openTags e,s.building⟩ := by rwa [after]
  refine agrees_leads stepped readable still fun total ls => ?_
  rw [after]
  cases reached with
  | before => exact and_congr_right' (rooted_outer outer)
  | inside => exact and_congr_right' (closes_leaf leaf)
  | behind => exact and_congr_right' (rooted_outer outer)

theorem agrees_inner {n : Node} (reached : s.Reached) (stepped : s.building.step e = s.building.add n)
    (after : openAfter s.openTags e = s.openTags) (readable : l.Readable) (leaf : l.IsLeaf)
    (single : ∀ text, l ≠ .single text) (inner : ¬ l.IsOuter) : s.Agrees e l := by
  have opening : ∀ text, l ≠ .opening text := by
    rintro text rfl
    exact leaf
  have never : ∀ total ls, ¬ Rooted total (l :: ls) := by
    intro total ls rooted
    exact inner ((rooted_other opening single).mp rooted).1
  cases reached with
  | before => exact agrees_misplaced stepped fun total ls needs => never _ _ needs.2
  | inside depth => exact agrees_inside depth stepped after readable leaf
  | behind => exact agrees_misplaced stepped fun total ls needs => never _ _ needs.2

theorem agrees_opening (reached : s.Reached) (text : List Char) : s.Agrees (.startTag text) (.opening text) := by
  cases reached with
  | before =>
    refine agrees_tag Iff.rfl (fun fault read => by simp [Building.step,read,bind,Except.bind]) fun tag read can => ?_
    have stepped : Building.step ⟨[],none⟩ (.startTag text) = .ok ⟨[(tag,[])],none⟩ := by
      simp [Building.step,read,bind,Except.bind,pure,Except.pure]
    refine agrees_leads stepped can (.inside rfl) fun total ls => ?_
    change total ≤ 1 ∧ Rooted total (.opening text :: ls) ↔ total = 1 ∧ Closes [tagName text] 0 ls
    exact (and_congr_right' rooted_opening).trans one_of_few
  | @inside name names element outer depth =>
    refine agrees_tag Iff.rfl (fun fault read => by simp [Building.step,read,bind,Except.bind]) fun tag read can => ?_
    have stepped : Building.step ⟨element :: outer,none⟩ (.startTag text) =
        .ok ⟨(tag,[]) :: element :: outer,none⟩ := by
      simp [Building.step,read,bind,Except.bind,pure,Except.pure]
    have deeper : (name :: names).length = (element :: outer).length := by simp [depth]
    exact agrees_leads stepped can (.inside deeper) fun total ls => and_congr_right' closes_opening
  | behind =>
    -- A second root is refused before its tag is read, which is no matter as it could not come either way.
    refine agrees_misplaced rfl ?_
    rintro total ls ⟨-,closes⟩
    obtain ⟨m,none,-⟩ := rooted_opening.mp closes
    omega

theorem agrees_single (reached : s.Reached) (text : List Char) : s.Agrees (.emptyTag text) (.single text) := by
  refine agrees_tag Iff.rfl (fun fault read => by simp [Building.step,read,bind,Except.bind]) fun tag read can => ?_
  have stepped : s.building.step (.emptyTag text) = s.building.addElement tag [] := by
    simp [Building.step,read,bind,Except.bind]
  cases reached with
  | before =>
    refine agrees_leads stepped can .behind fun total ls => ?_
    change total ≤ 1 ∧ Rooted total (.single text :: ls) ↔ total = 1 ∧ Rooted 0 ls
    exact (and_congr_right' rooted_single).trans one_of_few
  | inside depth =>
    exact agrees_inside depth stepped rfl can trivial
  | behind =>
    refine agrees_misplaced stepped ?_
    rintro total ls ⟨-,rooted⟩
    obtain ⟨m,none,-⟩ := rooted_single.mp rooted
    omega

theorem agrees_closing {name : List Char} {names : List (List Char)} {b : Building}
    (reached : Reached ⟨name :: names,b⟩) : Agrees ⟨name :: names,b⟩ .endTag (.closing name) := by
  cases reached with
  | @inside _ _ element outer depth =>
    obtain ⟨tag,children⟩ := element
    have needs : ∀ total ls, Needs ⟨name :: names,⟨(tag,children) :: outer,none⟩⟩ total (.closing name :: ls) ↔
        total = 1 ∧ Closes names 0 ls := by
      intro total ls
      exact and_congr_right' (closes_closing.trans (and_iff_right rfl))
    cases names with
    | nil =>
      obtain rfl := List.eq_nil_of_length_eq_zero depth.symm
      exact agrees_leads rfl trivial .behind needs
    | cons next names =>
      obtain ⟨⟨tag',children'⟩,outer,rfl⟩ := List.exists_cons_of_length_eq_add_one depth.symm
      exact agrees_leads rfl trivial (.inside (Nat.succ.inj depth)) needs

theorem agrees_text (reached : s.Reached) (raw : List Char) : s.Agrees (.text raw) (.text raw) := by
  cases means : Entity.unescape raw with
  | error fault =>
    have stepped : s.building.step (.text raw) = .error (.entity fault) := by simp only [Building.step,means]
    exact agrees_unreadable stepped (by simp) (by simp [Lexeme.Readable,Resolves,means])
  | ok content =>
    have can : Lexeme.Readable (.text raw) := ⟨content,means⟩
    by_cases blank : content.all Text.isBlank
    · have stepped : s.building.step (.text raw) = .ok s.building := by simp only [Building.step,means,blank,if_true]
      exact agrees_outer reached stepped rfl can trivial ⟨content,means,blank⟩
    · have stepped : s.building.step (.text raw) = s.building.add (.text (String.ofList content)) := by
        simp only [Building.step,means,blank,Bool.false_eq_true,if_false]
      have inner : ¬ Lexeme.IsOuter (.text raw) := by
        rintro ⟨content',means',blank'⟩
        obtain rfl := Except.ok.inj (means.symm.trans means')
        exact blank blank'
      exact agrees_inner reached stepped rfl can trivial (by simp) inner

theorem agrees_cdata (reached : s.Reached) (data : List Char) : s.Agrees (.cdata data) (.cdata data) :=
  agrees_inner reached rfl rfl trivial trivial (by simp) id

theorem agrees_comment (reached : s.Reached) (text : List Char) : s.Agrees (.comment text) .aside := by
  cases reached with
  | before => exact agrees_outer .before rfl rfl trivial trivial trivial
  | inside depth => exact agrees_inside depth rfl rfl trivial trivial
  | behind => exact agrees_outer .behind rfl rfl trivial trivial trivial

theorem agrees_ignored (reached : s.Reached) : s.Agrees .ignored .aside :=
  agrees_outer reached rfl rfl trivial trivial trivial

theorem agrees_shown (reached : s.Reached) (shown : Lexeme.ofEvent? e = some l) : s.Agrees e l := by
  cases e with
  | endTag => cases shown
  | startTag text => exact Option.some.inj shown ▸ agrees_opening reached text
  | emptyTag text => exact Option.some.inj shown ▸ agrees_single reached text
  | text raw => exact Option.some.inj shown ▸ agrees_text reached raw
  | cdata data => exact Option.some.inj shown ▸ agrees_cdata reached data
  | comment text => exact Option.some.inj shown ▸ agrees_comment reached text
  | ignored => exact Option.some.inj shown ▸ agrees_ignored reached

end ReaderState

section Splits

variable {cs : List Char} {ls : List Lexeme} {p : Piece} {l : Lexeme}

theorem exists_shown {e : Event} (other : e ≠ .endTag) : ∃ l, Lexeme.ofEvent? e = some l := by
  cases e with
  | endTag => exact absurd rfl other
  | _ => exact ⟨_,rfl⟩

theorem ne_slash (piece : readPiece [] cs = .ok p) (behind : List Char) : cs ≠ '/' :: behind := by
  rintro rfl
  have ended : readEnd [] behind = .ok p := piece
  obtain ⟨_,_,none,-⟩ := readEnd_event ended
  cases none

theorem readPiece_of_nil (piece : readPiece [] cs = .ok p) (tags : List (List Char)) : readPiece tags cs = .ok p := by
  rcases readPiece_cases piece with ⟨-,-,same⟩ | ⟨_,_,_,-,none,-⟩
  · exact same tags
  · cases none

theorem splits_text {c : Char} (plain : c ≠ '<') : Splits (c :: cs) ls ↔
    ∃ others, ls = .text (c :: cs.takeWhile (· != '<')) :: others ∧ Splits (cs.dropWhile (· != '<')) others := by
  constructor
  · intro cut
    cases cut with
    | text _ others => exact ⟨_,rfl,others⟩
    | markup => exact absurd rfl plain
    | closing => exact absurd rfl plain
  · rintro ⟨others,rfl,cut⟩
    exact .text plain cut

theorem splits_markup (piece : readPiece [] cs = .ok p) (shown : Lexeme.ofEvent? p.event = some l) :
    Splits ('<' :: cs) ls ↔ ∃ others, ls = l :: others ∧ Splits p.rest others := by
  constructor
  · intro cut
    cases cut with
    | text plain => exact absurd rfl plain
    | markup piece' shown' others =>
      obtain rfl := Except.ok.inj (piece.symm.trans piece')
      obtain rfl := Option.some.inj (shown.symm.trans shown')
      exact ⟨_,rfl,others⟩
    | closing => exact absurd rfl (ne_slash piece _)
  · rintro ⟨others,rfl,cut⟩
    exact .markup piece shown cut

theorem splits_closing {text rest : List Char} (cut : cutTag? none cs = some (text,rest)) :
    Splits ('<' :: '/' :: cs) ls ↔ ∃ others, ls = .closing (trimEnd text) :: others ∧ Splits rest others := by
  constructor
  · intro cut'
    cases cut' with
    | text plain => exact absurd rfl plain
    | markup piece => exact absurd rfl (ne_slash piece _)
    | closing cut' others =>
      obtain ⟨rfl,rfl⟩ := Prod.mk.inj (Option.some.inj (cut.symm.trans cut'))
      exact ⟨_,rfl,others⟩
  · rintro ⟨others,rfl,later⟩
    exact .closing cut later

end Splits

/-- With one outermost element a root is found, with none the reader says so. -/
def Finds (total : Nat) (result : Except DocumentFault Root) : Prop :=
  total = 1 ∧ (∃ root, result = .ok root) ∨ total = 0 ∧ result = .error .noRoot

theorem not_finds {fault : DocumentFault} (rooted : fault ≠ .noRoot) (total : Nat) : ¬ Finds total (.error fault) := by
  rintro (⟨-,root,ok⟩ | ⟨-,none⟩)
  · cases ok
  · exact rooted (Except.error.inj none)

theorem Building.complete_cons_error {b : Building} {e : Event} {fault : DocumentFault}
    (stepped : b.step e = .error fault) (reading : Reading) : b.complete (reading.cons e) = .error fault := by
  simp only [complete,run,Reading.cons,List.foldlM_cons,stepped]
  rfl

namespace ReaderState

variable {s : ReaderState} {e : Event} {l : Lexeme} {total : Nat} {whole rest : List Char}

/-- The rest of a content is cut into what can be read and has still to come. -/
def Fits (s : ReaderState) (total : Nat) (cs : List Char) : Prop :=
  ∃ ls, Splits cs ls ∧ (∀ l ∈ ls, l.Readable) ∧ s.Needs total ls

theorem fits_cons (cut : ∀ ls, Splits whole ls ↔ ∃ others, ls = l :: others ∧ Splits rest others) :
    s.Fits total whole ↔ ∃ ls, Splits rest ls ∧ (∀ l ∈ ls, l.Readable) ∧ l.Readable ∧ s.Needs total (l :: ls) := by
  constructor
  · rintro ⟨ls,cut',readable,needs⟩
    obtain ⟨others,rfl,later⟩ := (cut ls).mp cut'
    obtain ⟨first,readable⟩ := List.forall_mem_cons.mp readable
    exact ⟨others,later,readable,first,needs⟩
  · rintro ⟨others,later,readable,first,needs⟩
    exact ⟨l :: others,(cut _).mpr ⟨others,rfl,later⟩,List.forall_mem_cons.mpr ⟨first,readable⟩,needs⟩

theorem finds_cons (agrees : s.Agrees e l) {reading : Reading}
    (cut : ∀ ls, Splits whole ls ↔ ∃ others, ls = l :: others ∧ Splits rest others)
    (later : ∀ b, Reached ⟨openAfter s.openTags e,b⟩ →
      (Finds total (b.complete reading) ↔ Fits ⟨openAfter s.openTags e,b⟩ total rest)) :
    Finds total (s.building.complete (reading.cons e)) ↔ s.Fits total whole := by
  rw [fits_cons cut]
  cases agrees with
  | leads stepped reached needs =>
    rw [Building.complete_cons stepped,later _ reached]
    simp only [needs]
    exact Iff.rfl
  | stops stepped rooted never =>
    rw [Building.complete_cons_error stepped]
    constructor
    · intro finds
      exact absurd finds (not_finds rooted total)
    · rintro ⟨ls,-,-,can⟩
      exact absurd can (never total ls)

theorem finds_nil (reached : s.Reached) : Finds total (s.building.complete ⟨[],none⟩) ↔ s.Fits total [] := by
  have alone : s.Fits total [] ↔ s.Needs total [] := by
    constructor
    · rintro ⟨ls,cut,-,needs⟩
      cases cut
      exact needs
    · exact fun needs => ⟨[],.nil,by simp,needs⟩
  rw [alone]
  cases reached with
  | before =>
    constructor
    · rintro (⟨-,root,ok⟩ | ⟨rfl,-⟩)
      · cases ok
      · exact ⟨Nat.zero_le 1,.nil⟩
    · rintro ⟨-,rooted⟩
      cases rooted
      exact .inr ⟨rfl,rfl⟩
  | inside depth =>
    constructor
    · exact fun finds => absurd finds (not_finds (by simp) total)
    · rintro ⟨-,inner,others,none,-⟩
      simp at none
  | @behind root =>
    constructor
    · rintro (⟨rfl,-⟩ | ⟨-,none⟩)
      · exact ⟨rfl,.nil⟩
      · cases none
    · rintro ⟨rfl,-⟩
      exact .inl ⟨rfl,root,rfl⟩

/-- Markup that cannot be read with some tags open is no part of what has still to come. -/
theorem not_fits (reached : s.Reached) {cs : List Char} {fault : ReadFault × Nat}
    (fails : readPiece s.openTags cs = .error fault) : ¬ s.Fits total ('<' :: cs) := by
  rintro ⟨ls,cut,-,needs⟩
  cases cut with
  | text plain => exact absurd rfl plain
  | markup piece => simp [readPiece_of_nil piece] at fails
  | @closing behind text rest _ cut =>
    have outside : ∀ n others, ¬ Rooted n (.closing (trimEnd text) :: others) := by
      intro n others rooted
      exact ((rooted_other (by simp) (by simp)).mp rooted).1
    cases reached with
    | before => exact outside _ _ needs.2
    | inside =>
      obtain ⟨same,-⟩ := closes_closing.mp needs.2
      simp [readPiece,readEnd,cut,same] at fails
    | behind => exact outside _ _ needs.2

/-- A reader that has reached some state finds a root just if the rest of the content is what has still to come. -/
theorem finds_iff (position : Nat) (openTags : List (List Char)) (cs : List Char) (b : Building)
    (reached : Reached ⟨openTags,b⟩) :
    Finds total (b.complete (readFrom position openTags cs)) ↔ Fits ⟨openTags,b⟩ total cs := by
  induction position, openTags, cs using readFrom.induct generalizing b with
  | case1 =>
    rw [readFrom]
    exact finds_nil reached
  | case2 position openTags rest fault distance fails =>
    rw [readFrom]
    split
    · next fault' distance' _ =>
      have stops : ¬ Finds total (b.complete ⟨[],some (fault',position + distance')⟩) := not_finds (by simp) total
      exact iff_of_false stops (not_fits reached fails)
    · next found => simp [fails] at found
  | case3 position openTags rest p found ih =>
    rw [readFrom]
    split
    · next fails => simp [found] at fails
    · next p' found' =>
      obtain rfl := Except.ok.inj (found.symm.trans found')
      rcases readPiece_cases found with ⟨-,other,same⟩ | ⟨behind,text,names,rfl,rfl,cut,ended⟩
      · obtain ⟨l,shown⟩ := exists_shown other
        exact finds_cons (agrees_shown reached shown) (fun ls => splits_markup (same []) shown) ih
      · rw [ended] at ih ⊢
        exact finds_cons (agrees_closing reached) (fun ls => splits_closing cut) ih
  | case4 position openTags c rest plain text ih =>
    rw [readFrom]
    · exact finds_cons (agrees_text reached _) (fun ls => splits_text fun less => plain less) ih
    · exact plain

end ReaderState

/-- What is read of a content: one leading byte order mark is no part of it. -/
def unmarked : List Char → List Char
  | '\uFEFF' :: rest => rest
  | cs => cs

/-- A content whose markup can be read, with so many outermost elements. -/
def IsDocument (total : Nat) (content : List Char) : Prop :=
  ∃ ls, Splits (unmarked content) ls ∧ (∀ l ∈ ls, l.Readable) ∧ Rooted total ls

theorem read_eq (content : List Char) : read content = readFrom 0 [] (unmarked content) := by
  unfold read
  split
  · rfl
  · next bare =>
    rw [unmarked]
    exact bare

theorem Root.finds_ofContent {total : Nat} (few : total ≤ 1) (content : List Char) :
    Finds total (ofContent content) ↔ IsDocument total content := by
  rw [ofContent_eq,read_eq]
  refine (ReaderState.finds_iff 0 [] (unmarked content) .start .before).trans ?_
  have needs : ∀ ls, ReaderState.Needs ⟨[],.start⟩ total ls ↔ Rooted total ls := fun ls => and_iff_right few
  simp only [ReaderState.Fits,needs]
  exact Iff.rfl

theorem Root.exists_ofContent_iff (content : List Char) :
    (∃ root, ofContent content = .ok root) ↔ IsDocument 1 content := by
  rw [← finds_ofContent le_rfl]
  simp [Finds]

theorem Root.ofContent_noRoot_iff (content : List Char) :
    ofContent content = .error .noRoot ↔ IsDocument 0 content := by
  rw [← finds_ofContent (Nat.zero_le 1)]
  simp [Finds]

end InlineIcons.Markup
